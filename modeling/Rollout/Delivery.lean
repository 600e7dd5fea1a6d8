/-
  Deliveries: the resources of a manifest are applied and, if the configuration names a time for it,
  waited for.
-/
import Rollout.Environment
import Rollout.Manifest
import Rollout.Operation.Batch

namespace Rollout

/-- What a delivery came to. -/
structure Delivery where
  applied : List Resource
  /-- The resources that became ready, if they were waited for. -/
  ready : Option (List Resource)

namespace Delivery

variable {σ : Type}

/-- Waits for what was applied, if there is a time for it. -/
def settle (o : Outside σ) (limit : Option Duration) (op : BatchOperation) :
    Activity σ (Except Failure Delivery) :=
  match limit with
  | none => return .ok ⟨op.items, none⟩
  | some limit => return (← op.wait o .ready limit).map fun ready => ⟨op.items, some ready⟩

/-- Applies the resources of a manifest, and waits for them. -/
def carryOut (o : Outside σ) (reg : Registry) (e : Environment) (manifest : String) :
    Activity σ (Except Failure Delivery) := do
  match (Manifest.parseAll manifest).bind (BatchOperation.of reg e.settings) with
  | .error f => return .error f
  | .ok op =>
    match ← op.createOrReplaceAnd.perform o with
    | .error f => return .error f
    | .ok applied => settle o e.waitTimeout applied

/-- The delivery in lines of text. -/
def lines (d : Delivery) : List String :=
  d.applied.map (fun r => "Applied " ++ r.describe)
    ++ d.ready.toList.map fun rs => toString rs.length ++ " resource(s) ready"

end Delivery

end Rollout
