/-
  Operations on one resource.

  The handler is resolved when the operation is made, so a resource that nobody handles never
  reaches a remote. Operations are values; a changed setting or an applied state gives a new one.
-/
import Rollout.Apply
import Rollout.Wait

namespace Rollout

/-- The verbs for one resource. -/
structure Operation where
  registry : Registry
  settings : Settings
  item : Resource
  handler : Handler

namespace Operation

/-- The operation on a resource that has a handler. -/
def of (reg : Registry) (s : Settings) (item : Resource) : Except Failure Operation := do
  return ⟨reg, s, item, ← reg.resolveFor item⟩

def changed (op : Operation) (changes : List Setting) : Operation :=
  { op with settings := op.settings.changeAll changes }

/-- The resource after the pipeline. -/
def target (op : Operation) : Except Failure Resource :=
  op.handler.edit op.settings.pipeline op.item

/-- The resource after the pipeline, or its current state if that is asked for. -/
def get (op : Operation) : Action (Option Resource) := do
  let edited ← Action.ofExcept op.target
  if op.settings.fromServer then Apply.reload op.handler op.settings.pipeline edited
  else return some edited

/-- Creates the resource, or brings the one that is there to its state; of a container the
members. -/
def createOrReplace (op : Operation) : Action Resource := do
  let target ← Action.ofExcept op.target
  if isListKind target.kind then
    Apply.createOrReplaceMembers op.registry (.of op.settings) target
  else Apply.createOrReplace op.handler (.of op.settings) target

/-- The operation on the applied state. -/
def createOrReplaceAnd (op : Operation) : Action Operation := do
  return { op with item := ← op.createOrReplace }

def delete (op : Operation) : Action Bool :=
  Apply.delete op.handler op.settings.pipeline op.settings.deleteOptions op.item

def watch (op : Operation) (options : WatchOptions) : Action (List WatchItem) := do
  let target ← Action.ofExcept op.target
  op.handler.watch target.ns target options

def isReady (op : Operation) : Action Bool := return (← op.get).any Resource.isReady

/-- The resource to wait for, which has to be there. -/
def waitTarget (op : Operation) : Action Resource := do
  match ← op.get with
  | some r => return r
  | none => throw (.notFound op.item.describe)

/-- Waits for the resource. -/
def wait {σ : Type} (op : Operation) (o : Outside σ) (g : Goal) (limit : Duration) :
    Activity σ (Except Failure Resource) := do
  match ← Action.perform o op.waitTarget with
  | .ok target => op.handler.wait o g target.ns target limit op.settings.backoff
  | .error f => return .error f

def text (op : Operation) : String :=
  "Operation \x7b item: " ++ Text.quoted op.item.describe ++ ", config: " ++ op.settings.text
    ++ ", registry: " ++ op.registry.text ++ " \x7d"

end Operation

end Rollout
