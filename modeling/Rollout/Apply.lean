/-
  Applying: the desired state of resources is declared, and conflicts with what is there already
  are resolved.

  A resource is created without a version. If it is there already, it is replaced, with the version
  that the caller knows, or deleted and created again. A batch is applied in order, up to the first
  failure, which carries what was applied before it.
-/
import Rollout.Handler

namespace Rollout

/-- How resources are applied. -/
structure ApplyOptions where
  deletion : DeleteOptions
  /-- Delete and create again what is there already, instead of replacing it. -/
  deletingExisting : Bool

namespace ApplyOptions

def of (s : Settings) : ApplyOptions := ⟨s.deleteOptions, s.deletingExisting⟩

end ApplyOptions

/-- A resource that is ready to go out, with its handler. -/
abbrev Prepared := Handler × Resource

namespace Apply

/-- Resolves all handlers first and then runs every resource through the pipeline, so no call is
made for a batch of which one resource cannot go out. -/
def prepare (reg : Registry) (p : Pipeline) (rs : List Resource) : Except Failure (List Prepared) :=
  do
  let handlers ← rs.mapM reg.resolveFor
  (handlers.zip rs).mapM fun (h, r) => return (h, ← h.edit p r)

/-! ## Creating or replacing -/

/-- Resolves the conflict of a resource that is there already. -/
def resolveConflict (h : Handler) (o : ApplyOptions) (r : Resource) : Action Resource := do
  if o.deletingExisting then
    if ← h.delete r.ns o.deletion (r.withVersion none) then h.create r.ns (r.withVersion none)
    else throw (.deleteFailed r.describe)
  else h.replace r.ns r

/-- Creates a resource, or brings the one that is there already to its state. -/
def createOrReplace (h : Handler) (o : ApplyOptions) (r : Resource) : Action Resource := do
  match ← Action.attempt (h.create r.ns (r.withVersion none)) with
  | .ok created => return created
  | .error f => if f.isConflict then resolveConflict h o r else throw f

/-- Applies the members of a container, each with its own conflicts. -/
def createOrReplaceMembers (reg : Registry) (o : ApplyOptions) (r : Resource) : Action Resource :=
  do
  let ms ← Action.ofExcept r.members
  let handlers ← Action.ofExcept (ms.mapM reg.resolveFor)
  let applied ← (handlers.zip ms).mapM fun (h, m) => createOrReplace h o m
  Action.ofExcept (r.withMembers applied)

/-- Applies a batch in order; a failure carries what was `applied` before it. -/
def createOrReplaceAll (o : ApplyOptions) (batch : List Prepared) : Action (List Resource) :=
  go [] batch
where
  go (applied : List Resource) : List Prepared → Action (List Resource)
  | [] => return applied
  | (h, r) :: rest => do
    match ← Action.attempt (createOrReplace h o r) with
    | .ok result => go (applied ++ [result]) rest
    | .error f => throw (.batchAborted applied f)

/-! ## Deleting and reading back -/

/-- Deletes a resource after the pipeline; false when there was nothing to delete. -/
def delete (h : Handler) (p : Pipeline) (options : DeleteOptions) (r : Resource) : Action Bool := do
  let target ← Action.ofExcept (h.edit p r)
  h.delete target.ns options target

/-- Deletes a batch in order, up to the first resource that is not there. Nothing is deleted when
one of the resources has no handler. -/
def deleteAll (reg : Registry) (p : Pipeline) (options : DeleteOptions) (rs : List Resource) :
    Action Bool :=
  match rs.mapM reg.resolveFor with
  | .error _ => return false
  | .ok handlers => (handlers.zip rs).allM fun (h, r) => delete h p options r

/-- The current state of a resource after the pipeline. -/
def reload (h : Handler) (p : Pipeline) (r : Resource) : Action (Option Resource) := do
  match ← h.reload r.ns r with
  | some current => some <$> Action.ofExcept (h.edit p current)
  | none => return none

end Apply

end Rollout
