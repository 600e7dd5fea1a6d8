/-
  The handler of a container asks the handlers of its members.

  The verbs of a container are one traversal of its members with different verbs: a member is
  resolved when its turn has come, and is asked for in its own namespace or else in that of the
  container (`forMember`). What is created goes out without a version.
-/
import Rollout.Handler
import Rollout.Proofs.Program.Sequence

namespace Rollout

namespace Action

variable {α β : Type}

theorem mapM_attach (f : α → Action β) (xs : List α) :
    (xs.attach.mapM fun x => f x.1) = xs.mapM f := by
  show xs.attach.mapM (f ∘ Subtype.val) = _
  rw [← List.mapM_map, List.attach_map_subtype_val]

theorem allM_map (g : β → α) (f : α → Action Bool) (xs : List β) :
    (xs.map g).allM f = xs.allM fun x => f (g x) := by
  induction xs with
  | nil => rfl
  | cons x xs ih => rw [List.map_cons, List.allM_cons, List.allM_cons, ih]

theorem allM_attach (f : α → Action Bool) (xs : List α) :
    (xs.attach.allM fun x => f x.1) = xs.allM f := by
  rw [← allM_map Subtype.val f, List.attach_map_subtype_val]

end Action

namespace Handler

/-- A verb for a member of a container, asked of the handler of this member in its own namespace or
else in `ns`. -/
def forMember {γ : Type} (reg : Registry) (ns : Option String)
    (verb : Handler → Option String → Resource → Action γ) (m : Resource) : Action γ := do
  let h ← Action.ofExcept (reg.resolveFor m)
  verb h (m.nsWithin ns) m

variable (reg : Registry) (ns : Option String) (r : Resource)

theorem create_members : (members reg).create ns r = (do
    let ms ← Action.ofExcept r.members
    let created ← ms.mapM (forMember reg ns fun h ns m => h.create ns (m.withVersion none))
    Action.ofExcept (r.withMembers created)) := by
  rw [create]
  split
  · next f hms =>
    rw [hms]
    rfl
  · next ms hms =>
    rw [hms, Action.ofExcept_bind]
    exact congrArg (· >>= fun created => Action.ofExcept (r.withMembers created))
      (Action.mapM_attach (forMember reg ns fun h ns m => h.create ns (m.withVersion none)) ms)

theorem replace_members : (members reg).replace ns r = (do
    let ms ← Action.ofExcept r.members
    let replaced ← ms.mapM (forMember reg ns replace)
    Action.ofExcept (r.withMembers replaced)) := by
  rw [replace]
  split
  · next f hms =>
    rw [hms]
    rfl
  · next ms hms =>
    rw [hms, Action.ofExcept_bind]
    exact congrArg (· >>= fun replaced => Action.ofExcept (r.withMembers replaced))
      (Action.mapM_attach (forMember reg ns replace) ms)

theorem delete_members (options : DeleteOptions) : (members reg).delete ns options r = (do
    let ms ← Action.ofExcept r.members
    ms.allM (forMember reg ns fun h ns m => h.delete ns options m)) := by
  rw [delete]
  split
  · next f hms =>
    rw [hms]
    rfl
  · next ms hms =>
    rw [hms, Action.ofExcept_bind]
    exact Action.allM_attach (forMember reg ns fun h ns m => h.delete ns options m) ms

theorem reload_members : (members reg).reload ns r = (do
    let ms ← Action.ofExcept r.members
    let states ← ms.mapM (forMember reg ns reload)
    some <$> Action.ofExcept (r.withMembers (states.filterMap id))) := by
  rw [reload]
  split
  · next f hms =>
    rw [hms]
    rfl
  · next ms hms =>
    rw [hms, Action.ofExcept_bind]
    exact congrArg
      (· >>= fun states => some <$> Action.ofExcept (r.withMembers (states.filterMap id)))
      (Action.mapM_attach (forMember reg ns reload) ms)

end Handler

end Rollout
