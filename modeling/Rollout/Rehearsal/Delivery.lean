/-
  Rehearsed deliveries: a manifest is delivered to a stand-in that starts out empty, looks after
  every kind of the manifest and finds every resource ready.
-/
import Rollout.Delivery
import Rollout.Rehearsal.Stage

namespace Rollout.Delivery

/-- The name of the stand-in. -/
def understudy : String := "memory"

/-- A registry in which the stand-in looks after the kinds of these resources. -/
def rehearsalRegistry (rs : List Resource) : Registry :=
  ⟨(rs.filterMap ResourceKey.of?).eraseDups.map fun key => (key, .collaborator understudy true)⟩

/-- The delivery, or why it failed; none if it does not come to an end. -/
def rehearse (e : Environment) (manifest : String) : Option (Except Failure Delivery) :=
  match (Manifest.parseAll manifest).bind Resource.flatten with
  | .error f => some (.error f)
  | .ok rs =>
    match (carryOut Stage.outside (rehearsalRegistry rs) e manifest ⟨0, 0, {}⟩).run with
    | .ended _ result => some result
    | _ => none

end Rollout.Delivery
