/-
  Operations on a batch of resources.

  Containers are expanded when the operation is made. Every verb but the deletion resolves all
  handlers and runs all pipelines before it makes a call.
-/
import Rollout.Apply
import Rollout.Wait

namespace Rollout

/-- The verbs for a batch of resources. -/
structure BatchOperation where
  registry : Registry
  settings : Settings
  items : List Resource

namespace BatchOperation

/-- The operation on the resources inside `rs`. -/
def of (reg : Registry) (s : Settings) (rs : List Resource) : Except Failure BatchOperation := do
  return ⟨reg, s, ← Resource.flatten rs⟩

def changed (op : BatchOperation) (changes : List Setting) : BatchOperation :=
  { op with settings := op.settings.changeAll changes }

/-- The resources after the pipeline, each with its handler. -/
def targets (op : BatchOperation) : Except Failure (List Prepared) :=
  Apply.prepare op.registry op.settings.pipeline op.items

/-- The resources after the pipeline, or the current states of those that are there. -/
def get (op : BatchOperation) : Action (List Resource) := do
  let targets ← Action.ofExcept op.targets
  if op.settings.fromServer then
    let states ← targets.mapM fun (h, r) => Apply.reload h op.settings.pipeline r
    return states.filterMap id
  else return targets.map (·.2)

/-- Applies the batch in order. -/
def createOrReplace (op : BatchOperation) : Action (List Resource) := do
  let targets ← Action.ofExcept op.targets
  Apply.createOrReplaceAll (.of op.settings) targets

/-- The operation on the applied states. -/
def createOrReplaceAnd (op : BatchOperation) : Action BatchOperation := do
  return { op with items := ← op.createOrReplace }

def delete (op : BatchOperation) : Action Bool :=
  Apply.deleteAll op.registry op.settings.pipeline op.settings.deleteOptions op.items

def isReady (op : BatchOperation) : Action Bool := return (← op.get).all Resource.isReady

/-- How the operation waits. -/
def waitTerms (op : BatchOperation) (limit : Duration) : BatchTerms :=
  ⟨limit, op.settings.backoff, op.settings.concurrency⟩

/-- Waits for every resource of the batch. -/
def wait {σ : Type} (op : BatchOperation) (o : Outside σ) (g : Goal) (limit : Duration) :
    Activity σ (Except Failure (List Resource)) := do
  match ← Action.perform o op.get with
  | .ok items => return (← (op.waitTerms limit).wait o op.registry g items).bind g.verdict
  | .error f => return .error f

end BatchOperation

end Rollout
