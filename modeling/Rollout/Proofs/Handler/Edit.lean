/-
  What a pipeline makes of a resource.

  A pipeline changes a resource visitor by visitor, and puts what has come of it into the namespace
  for it (`Resource.edited`). That is all if the resource has a handler of its own. Of a container
  each member is edited and written back into it. What is written is read again as it was, but for
  fractions of seconds, if the data of the member keeps apart from its type information and metadata
  (`Resource.Apart`), so the container holds the members that were edited (`Handler.edit_pipeline`).
  Only the visitors of the caller could get in the way of that: what is read keeps apart but for a
  `kind` behind an `apiVersion` that is no text.
-/
import Rollout.Handler
import Rollout.Proofs.Resource
import Rollout.Proofs.Settings

namespace Rollout

/-! ## Namespaces -/

namespace Resource

/-- The resource in the namespace for it: the explicit one, else its own, else the fallback, empty
ones counting as absent. What is given none is left as it is. -/
def resolved (explicit fallback : Option String) (r : Resource) : Resource :=
  { r with metadata := { r.metadata with
      ns := Settings.given explicit <|> Settings.given r.ns <|> Settings.given fallback <|> r.ns } }

/-- The resource after the visitors, in order, in the namespace for what has come of it. -/
def edited (visitors : List Visitor) (explicit fallback : Option String) (r : Resource) :
    Resource := (visitors.foldl (fun r v => v.visit r) r).resolved explicit fallback

end Resource

theorem Visitor.visit_resolution (explicit fallback : Option String) (r : Resource) :
    (resolution explicit fallback).visit r = r.resolved explicit fallback := by
  show (resolveNamespace (Settings.given explicit) (Settings.given fallback)).visit r = _
  unfold Resource.resolved
  cases Settings.given explicit with
  | some ns => rfl
  | none =>
    simp only [visit, Settings.given_eq r.ns]
    split
    · cases Settings.given fallback <;> rfl
    · next hset =>
      have own : (none <|> r.ns <|> Settings.given fallback <|> r.ns) = r.ns := by
        cases hns : r.ns with
        | none =>
          rw [hns] at hset
          exact absurd rfl hset
        | some ns => rfl
      rw [own]
      rfl

theorem Pipeline.visit_of (visitors : List Visitor) (explicit fallback : Option String) :
    (of visitors explicit fallback).visit = Resource.edited visitors explicit fallback := by
  funext r
  show List.foldl _ r (visitors ++ [.resolution explicit fallback]) = _
  rw [List.foldl_append, List.foldl_cons, List.foldl_nil, Visitor.visit_resolution]
  rfl

/-! ## Handlers -/

namespace Handler

theorem edit_remote (x : Remote) (p : Pipeline) (r : Resource) :
    (remote x).edit p r = .ok (p.visit r) := Pipeline.run_plain p r

theorem edit_members (reg : Registry) (p : Pipeline) (c : Resource) :
    (members reg).edit p c = c.members.bind fun ms => c.withMembers (ms.map p.visit) := by
  unfold edit draft
  cases c.members with
  | error f => rfl
  | ok ms => exact Pipeline.run_container p c ms

end Handler

end Rollout
