/-
  A container is deleted up to the first member that has no handler.

  The members are deleted one after the other, and the handler of a member is looked up when its
  turn has come. So a member without a handler keeps those behind it from being deleted, but not
  those before it (`delete_lacking`): these may be gone by the time the deletion fails
  (`delete_before_lacking`). No call is made if it is the first one that has no handler.
-/
import Rollout.Proofs.Handler.Errand
import Rollout.Proofs.Operation.ContainerApply
import Rollout.Proofs.Program.Search

namespace Rollout

/-! ## Members -/

namespace Handler

variable {reg : Registry} {ns : Option String} {options : DeleteOptions}

/-- Deletes a member of a container, in its own namespace or else in `ns`. -/
def deleteMember (reg : Registry) (ns : Option String) (options : DeleteOptions) :
    Resource → Action Bool := forMember reg ns fun h ns m => h.delete ns options m

theorem deleteMember_of_lacks {m : Resource} (h : reg.Lacks m) :
    deleteMember reg ns options m = throw (Registry.lackOf m) := by
  rw [deleteMember, forMember, Registry.resolveFor_eq_error_iff.2 ⟨h, rfl⟩]
  rfl

/-- The deletion of a member asks for nothing but that. -/
theorem asks_deleteMember (m : Resource) : (deleteMember reg ns options m).run.Asks fun h e =>
    reg.resolveFor m = .ok h ∧ e = .change (.delete (m.nsWithin ns) options m) :=
  Action.asks_ofExcept_bind fun _ hh =>
    Program.asks_errand (e := .change (.delete _ _ _)) ⟨hh, rfl⟩

end Handler

/-! ## The operation on a container -/

namespace Operation

open Handler (deleteMember)

variable {reg : Registry} {s : Settings} {c target : Resource} {ms : List Resource}

/-- The deletion of a container deletes the members that go out with it, one after the other. -/
theorem delete_eq (htarget : (⟨reg, s, c, .members reg⟩ : Operation).target = .ok target)
    (hms : target.members = .ok ms) : (⟨reg, s, c, .members reg⟩ : Operation).delete =
      ms.allM (deleteMember reg c.ns s.deleteOptions) := by
  have opened : (⟨reg, s, c, .members reg⟩ : Operation).delete =
      (Handler.members reg).delete target.ns s.deleteOptions target := by
    show (Action.ofExcept (⟨reg, s, c, .members reg⟩ : Operation).target >>= _) = _
    rw [htarget]
    rfl
  rw [opened, Handler.delete_members, hms, (eq_of_target htarget).2]
  rfl

/-- If a member of a container has no handler, the deletion of the container deletes the members
before the first such one, and then fails with the resolution failure of this one, unless one of
them could not be deleted. Nothing is asked for this member or for one behind it, and no call is
made if it is the first member. -/
theorem delete_lacking {op : Operation} (hop : Operation.of reg s c = .ok op)
    (unregistered : ∀ key, ResourceKey.of? c = some key → reg.find? key = none)
    (htarget : op.target = .ok target) (hms : target.members = .ok ms)
    (lacks : ∃ m ∈ ms, reg.Lacks m) :
    ∃ before m after, ms = before ++ m :: after ∧ (∀ y ∈ before, ¬ reg.Lacks y) ∧ reg.Lacks m ∧
      op.delete = (do
        if ← before.allM (deleteMember reg c.ns s.deleteOptions) then throw (Registry.lackOf m)
        return false) ∧
      (op.delete.run.Asks fun h e => ∃ y ∈ before, reg.resolveFor y = .ok h ∧
        e = .change (.delete (y.nsWithin c.ns) s.deleteOptions y)) ∧
      (before = [] → op.delete.run = .done (.error (Registry.lackOf m))) := by
  obtain ⟨rfl, -⟩ := eq_of_unregistered hop unregistered
  obtain ⟨before, m, after, rfl, hbefore, hm, -⟩ := Registry.failsFirst_of_lacks lacks
  have same := (delete_eq htarget hms).trans
    (Action.allM_append_throw (Handler.deleteMember_of_lacks hm) before after)
  refine ⟨before, m, after, rfl, hbefore, hm, same, ?_, ?_⟩
  · rw [same]
    refine Action.asks_bind (Action.asks_allM fun y hy => ?_) fun answer => ?_
    · exact (Handler.asks_deleteMember y).mono fun h e he => ⟨y, hy, he⟩
    · cases answer <;> exact Program.asks_done _
  · rintro rfl
    rw [same]
    rfl

/-! ## Pods and secrets -/

open BatchTerms (pod podRegistry resolveFor_pod)

/-- The deletion of a pod is one call. -/
theorem deleteMember_pod (name : String) (ns : Option String) (options : DeleteOptions) :
    deleteMember podRegistry ns options (pod name) =
      Action.of (.ask (.delete "pods" ns options (pod name))) := by
  rw [deleteMember, Handler.forMember, resolveFor_pod]
  show Handler.delete _ _ _ _ = _
  rw [Handler.delete]
  rfl

/-- A secret, which nobody handles. -/
def secret (name : String) : Resource := ⟨some ⟨"v1", "Secret"⟩, { name := some name }, .obj []⟩

def secretJson (name : String) : Json := .obj
  [("apiVersion", .str "v1"), ("kind", .str "Secret"), ("metadata", .obj [("name", .str name)])]

/-- A list of a pod, a secret and another pod. -/
def mixedList : Resource :=
  ⟨some ⟨"v1", "List"⟩, {}, .obj [("items", .arr [podJson "a", secretJson "s", podJson "b"])]⟩

def mixedMembers : List Resource := [pod "a", secret "s", pod "b"]

/-- The operation on the list, without any settings. -/
def mixedOperation : Operation := ⟨podRegistry, {}, mixedList, .members podRegistry⟩

theorem of_mixedList : Operation.of podRegistry {} mixedList = .ok mixedOperation :=
  of_eq_ok (Registry.resolveFor_of_isList rfl rfl isListKind_list)

theorem lacks_secret (name : String) : podRegistry.Lacks (secret name) := by
  intro key hkey
  obtain rfl := Option.some.inj hkey
  exact ⟨rfl, by decide +kernel⟩

theorem exists_target_mixed : ∃ target, mixedOperation.target = .ok target ∧
    target.members = .ok mixedMembers := by
  have members : mixedList.members = .ok mixedMembers := Resource.members_eq_ok_iff.2
    ⟨_, Resource.rawMembers?_eq_some_iff.2 ⟨_, _, rfl, isListKind_list, rfl, rfl⟩, rfl⟩
  have whole : ∀ m ∈ mixedMembers, m.Whole := by
    have secret : (secret "s").Whole :=
      ⟨⟨_, rfl⟩, ⟨nofun, nofun, nofun, nofun, nofun⟩, [], rfl, .nil, fun _ _ => rfl⟩
    exact List.forall_mem_cons.2 ⟨whole_pod "a",
      List.forall_mem_cons.2 ⟨secret, List.forall_mem_singleton.2 (whole_pod "b")⟩⟩
  have hmarks : ∀ v ∈ ({} : Settings).visitors, v.IsMark := List.forall_mem_nil _
  obtain ⟨target, htarget, hms, -⟩ := exists_target_of_whole podRegistry members whole hmarks
  exact ⟨target, htarget, hms⟩

/-- The deletion of the list asks for nothing but the deletion of the pod before the secret. -/
theorem delete_lacking_secret : (∃ m ∈ mixedMembers, podRegistry.Lacks m) ∧
    mixedOperation.delete.run.Asks fun _ e =>
      e = .change (.delete none ({} : Settings).deleteOptions (pod "a")) := by
  have lacks : ∃ m ∈ mixedMembers, podRegistry.Lacks m :=
    ⟨secret "s", List.mem_cons_of_mem _ List.mem_cons_self, lacks_secret "s"⟩
  obtain ⟨target, htarget, hms⟩ := exists_target_mixed
  obtain ⟨before, m, after, hsplit, hbefore, hm, -, asks, -⟩ :=
    delete_lacking of_mixedList (fun key hkey => by obtain rfl := Option.some.inj hkey; rfl)
      htarget hms lacks
  refine ⟨lacks, asks.mono fun h e he => ?_⟩
  obtain ⟨y, hy, -, rfl⟩ := he
  -- The secret is not among the members before the one without a handler, so at most `a` is.
  match before, hsplit with
  | [], _ => cases hy
  | [x], hsplit =>
    obtain ⟨rfl, -⟩ := List.cons.inj hsplit
    rw [List.mem_singleton.1 hy]
    rfl
  | x :: z :: before, hsplit =>
    obtain ⟨-, hsplit⟩ := List.cons.inj hsplit
    obtain ⟨rfl, -⟩ := List.cons.inj hsplit
    exact absurd (lacks_secret "s") (hbefore _ (List.mem_cons_of_mem _ List.mem_cons_self))

/-- Although a member of the list has no handler, its deletion may delete a pod before it fails. -/
theorem delete_before_lacking : (∃ m ∈ mixedMembers, podRegistry.Lacks m) ∧
    mixedOperation.delete.run.Runs
      [⟨.delete "pods" none ({} : Settings).deleteOptions (pod "a"), .ok true⟩]
      (.error (.handlerNotFound ⟨"Secret", "v1"⟩)) := by
  refine ⟨⟨secret "s", List.mem_cons_of_mem _ List.mem_cons_self, lacks_secret "s"⟩, ?_⟩
  obtain ⟨target, htarget, hms⟩ := exists_target_mixed
  have lacking : deleteMember podRegistry none ({} : Settings).deleteOptions (secret "s") =
      throw (.handlerNotFound ⟨"Secret", "v1"⟩) := Handler.deleteMember_of_lacks (lacks_secret "s")
  rw [mixedOperation,
    (delete_eq htarget hms).trans (Action.allM_append_throw lacking [pod "a"] [pod "b"]),
    List.allM_cons, deleteMember_pod]
  exact .call (.done _)

end Operation

end Rollout
