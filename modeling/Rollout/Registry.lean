/-
  Registries: who looks after which kind of resource.

  A remote is a collaborator of the caller, or a kind that an API server serves. A registry keeps
  one remote per key. Looking up a key answers the remote that is registered for it; a list kind
  that nobody is registered for is handled member by member, each member by its own handler.
-/
import Rollout.Server.Verbs

namespace Rollout

/-! ## Remotes -/

/-- Who keeps resources of a kind. -/
inductive Remote where
  /-- A collaborator; it may have a notion of readiness of its own. -/
  | collaborator (id : String) (ownReadiness : Bool)
  /-- An API server. -/
  | served (id : Option String) (kind : ServedKind)
deriving DecidableEq, Repr

namespace Remote

/-- The name that the caller gave the remote. -/
def id? : Remote → Option String
  | collaborator id _ => some id
  | served id _ => id

def create : Remote → Option String → Resource → Action Resource
  | collaborator id _, ns, r => Action.of (.ask (.create id ns r))
  | served _ k, ns, r => k.create ns r

def replace : Remote → Option String → Resource → Action Resource
  | collaborator id _, ns, r => Action.of (.ask (.replace id ns r))
  | served _ k, ns, r => k.replace ns r

/-- Deletes a resource; false when there was nothing to delete. -/
def delete : Remote → Option String → DeleteOptions → Resource → Action Bool
  | collaborator id _, ns, options, r => Action.of (.ask (.delete id ns options r))
  | served _ k, ns, options, r => k.delete ns options r

/-- The current state of a resource; none when there is no such one. -/
def reload : Remote → Option String → Resource → Action (Option Resource)
  | collaborator id _, ns, r => Action.of (.ask (.reload id ns r))
  | served _ k, ns, r => k.reload ns r

def watch : Remote → Option String → Resource → WatchOptions → Action (List WatchItem)
  | collaborator id _, ns, r, options => Action.of (.ask (.watch id ns r options))
  | served _ k, ns, r, options => k.watch ns r options

end Remote

/-! ## Registries -/

/-- Remotes under the keys that they are registered for, each key once. -/
structure Registry where
  remotes : List (ResourceKey × Remote) := []
deriving DecidableEq, Repr, Inhabited

/-- Who carries out the verbs for a resource: a remote, or, for a container, the handlers of its
members. -/
inductive Handler where
  | remote (r : Remote)
  | members (registry : Registry)
deriving DecidableEq, Repr

namespace Registry

def find? (reg : Registry) (key : ResourceKey) : Option Remote := reg.remotes.lookup key

/-- Registers a remote, in the place of one that is registered for the key. -/
def insert (reg : Registry) (key : ResourceKey) (r : Remote) : Registry :=
  ⟨reg.remotes.filter (fun e => e.1 != key) ++ [(key, r)]⟩

def contains (reg : Registry) (key : ResourceKey) : Bool := (reg.find? key).isSome

def size (reg : Registry) : Nat := reg.remotes.length

/-- The handler for a key. -/
def resolve (reg : Registry) (key : ResourceKey) : Except Failure Handler :=
  match reg.find? key with
  | some r => .ok (.remote r)
  | none => if key.isList then .ok (.members reg) else .error (.handlerNotFound key)

/-- The handler for a resource. -/
def resolveFor (reg : Registry) (r : Resource) : Except Failure Handler := r.key.bind reg.resolve

/-- The registered keys, in order. -/
def text (reg : Registry) : String :=
  let keys := (reg.remotes.map fun e => e.1.text).mergeSort fun a b => decide (a ≤ b)
  "HandlerRegistry \x7b handlers: [" ++ String.intercalate ", " (keys.map Text.quoted) ++ "] \x7d"

end Registry

end Rollout
