/-
  In which namespace a container addresses its members.

  A member goes out with the namespace that the pipeline has left on it. Creating, replacing and
  waiting address it there, whatever the container says of itself. Deleting it and reading it back
  address it there, too, if it has a namespace, and else in that of the container. So the verbs
  agree on a member unless it has no namespace and the container has one (`namespaces_members`), and
  a member that was created without a namespace is looked for in that of the container
  (`created_and_deleted_apart`).
-/
import Rollout.Proofs.Handler.Errand
import Rollout.Proofs.Operation.ContainerDelete
import Rollout.Proofs.Operation.ContainerWait

namespace Rollout

theorem Resource.nsWithin_eq_ns_iff {m : Resource} {ns : Option String} :
    m.nsWithin ns = m.ns ↔ ns = none ∨ m.ns ≠ none := by
  unfold nsWithin
  cases m.ns with
  | none => exact ⟨.inl, fun h => h.resolve_right fun h => h rfl⟩
  | some own => exact ⟨fun _ => .inr nofun, fun _ => rfl⟩

namespace Operation

/-- The errand is for a member that goes out with the container, asked of the handler of it, in the
namespace that `ns` gives for it. -/
def ToMember (op : Operation) (ns : Resource → Option String) (h : Handler) (e : Errand) : Prop :=
  ∃ target, op.target = .ok target ∧ Errand.OfMember op.registry target ns h e

section Members

variable {reg : Registry} {s : Settings} {c target : Resource}

/-- Errands for the container that goes out come down to errands for its members. -/
theorem asks_target (htarget : (⟨reg, s, c, .members reg⟩ : Operation).target = .ok target)
    {e : Errand} (hsubject : e.subject = target) (hns : e.ns = target.ns) :
    ((Handler.members reg).carryOut e).Asks
      (ToMember ⟨reg, s, c, .members reg⟩ fun m => m.nsWithin c.ns) := by
  refine (Handler.asks_carryOut_members reg e).mono fun h e' hmember => ⟨target, htarget, ?_⟩
  rwa [hsubject, hns, (eq_of_target htarget).2] at hmember

theorem asks_createOrReplace (container : isListKind c.kind = true) :
    (⟨reg, s, c, .members reg⟩ : Operation).createOrReplace.run.Asks
      (ToMember ⟨reg, s, c, .members reg⟩ Resource.ns) := by
  refine Action.asks_ofExcept_bind fun target htarget => ?_
  rw [if_pos ((congrArg isListKind (eq_of_target htarget).1).trans container)]
  exact (Apply.asks_members reg (.of s) target).mono fun h e he => ⟨target, htarget, he⟩

theorem asks_delete : (⟨reg, s, c, .members reg⟩ : Operation).delete.run.Asks
    (ToMember ⟨reg, s, c, .members reg⟩ fun m => m.nsWithin c.ns) :=
  Action.asks_ofExcept_bind fun target htarget =>
    asks_target (e := .change (.delete target.ns s.deleteOptions target)) htarget rfl rfl

theorem asks_get : (⟨reg, s, c, .members reg⟩ : Operation).get.run.Asks
    (ToMember ⟨reg, s, c, .members reg⟩ fun m => m.nsWithin c.ns) := by
  refine Action.asks_ofExcept_bind fun target htarget => ?_
  split
  · refine Action.asks_bind (asks_target (e := .reload target.ns target) htarget rfl rfl) ?_
    intro current
    cases current with
    | some r => exact Action.asks_map (Program.asks_done _)
    | none => exact Program.asks_done _
  · exact Program.asks_done _

theorem asks_waitTarget : (⟨reg, s, c, .members reg⟩ : Operation).waitTarget.run.Asks
    (ToMember ⟨reg, s, c, .members reg⟩ fun m => m.nsWithin c.ns) := by
  refine Action.asks_bind asks_get fun found => ?_
  cases found <;> exact Program.asks_done _

end Members

/-- An operation on a container addresses each member, when it creates or replaces it, in the
namespace that the member has; when it deletes or reads it, in this one or else in that of the
container. A wait first reads the members if that is asked for, and then waits for each in the
namespace that it has. So a member is addressed in one namespace by all verbs if it has one or the
container has none, and only then. -/
theorem namespaces_members {reg : Registry} {s : Settings} {c : Resource} {op : Operation}
    (hop : Operation.of reg s c = .ok op)
    (unregistered : ∀ key, ResourceKey.of? c = some key → reg.find? key = none) :
    op.createOrReplace.run.Asks (op.ToMember Resource.ns) ∧
      op.delete.run.Asks (op.ToMember fun m => m.nsWithin c.ns) ∧
      op.get.run.Asks (op.ToMember fun m => m.nsWithin c.ns) ∧
      op.waitTarget.run.Asks (op.ToMember fun m => m.nsWithin c.ns) ∧
      (s.fromServer = false → op.waitTarget.run = .done op.target) ∧
      (∀ (σ : Type) (o : Outside σ) (g : Goal) (limit : Duration), op.wait o g limit = do
        match ← Action.perform o op.waitTarget with
        | .ok target => waitMembers o g reg limit s.backoff target
        | .error f => return .error f) ∧
      ∀ m : Resource, m.nsWithin c.ns = m.ns ↔ c.ns = none ∨ m.ns ≠ none := by
  obtain ⟨rfl, container⟩ := eq_of_unregistered hop unregistered
  refine ⟨asks_createOrReplace container, asks_delete, asks_get, asks_waitTarget, fun own => ?_,
    fun σ o g limit => wait_of_members reg s c o g limit, fun m => Resource.nsWithin_eq_ns_iff⟩
  unfold waitTarget get
  rw [own]
  cases (⟨reg, s, c, .members reg⟩ : Operation).target <;> rfl

/-! ## Pods -/

open BatchTerms (pod podRegistry resolveFor_pod)

/-- A list of pods that is in a namespace itself. -/
def teamList (names : List String) : Resource :=
  { podList names with metadata := { ns := some "team" } }

theorem groups_teamList (names : List String) :
    Groups podRegistry (teamList names) (names.map pod) :=
  (groups_podList names).withMetadata _

theorem of_teamList (s : Settings) (names : List String) :
    Operation.of podRegistry s (teamList names) =
      .ok ⟨podRegistry, s, teamList names, .members podRegistry⟩ :=
  of_eq_ok (Registry.resolveFor_withMetadata _ (resolveFor_podList names))

/-- An errand for a member that goes out is for one of the members after the pipeline. -/
theorem Groups.exists_of_toMember {reg : Registry} {s : Settings} {c : Resource}
    {ms : List Resource} (groups : Groups reg c ms) (hmarks : ∀ v ∈ s.visitors, v.IsMark)
    {ns : Resource → Option String} {h : Handler} {e : Errand}
    (he : ToMember ⟨reg, s, c, .members reg⟩ ns h e) :
    ∃ m ∈ ms, e.ns = ns (s.pipeline.visit m.settled) := by
  obtain ⟨target, htarget, _, m, hms, hm, -, -, hns⟩ := he
  obtain ⟨target', htarget', hms', -⟩ := groups.exists_target hmarks
  obtain rfl := Except.ok.inj (htarget.symm.trans htarget')
  obtain rfl := Except.ok.inj (hms.symm.trans hms')
  obtain ⟨_, hsettled, rfl⟩ := List.mem_map.1 hm
  obtain ⟨m', hm', rfl⟩ := List.mem_map.1 hsettled
  exact ⟨m', hm', hns⟩

/-- If the settings give a namespace, all verbs address a pod of the list there. -/
theorem namespaces_teamList : ∃ op, Operation.of podRegistry labelling (teamList ["a"]) = .ok op ∧
    (∀ key, ResourceKey.of? (teamList ["a"]) = some key → podRegistry.find? key = none) ∧
    (op.createOrReplace.run.Asks fun _ e => e.ns = some "prod") ∧
    op.delete.run.Asks fun _ e => e.ns = some "prod" := by
  have groups := groups_teamList ["a"]
  have hmarks : ∀ v ∈ labelling.visitors, v.IsMark := List.forall_mem_singleton.2 trivial
  have addressed {ns : Resource → Option String} {h : Handler} {e : Errand}
      (he : ToMember ⟨podRegistry, labelling, teamList ["a"], .members podRegistry⟩ ns h e) :
      e.ns = ns (labelling.pipeline.visit (pod "a")) := by
    obtain ⟨m, hm, hns⟩ := groups.exists_of_toMember hmarks he
    rw [hns, List.mem_singleton.1 hm]
    rfl
  obtain ⟨create, delete, -⟩ := namespaces_members (of_teamList labelling ["a"]) groups.unregistered
  exact ⟨_, of_teamList labelling ["a"], groups.unregistered,
    create.mono fun _ _ he => addressed he, delete.mono fun _ _ he => addressed he⟩

/-- Without settings, a pod of the list is created without a namespace and deleted in that of the
list. -/
theorem created_and_deleted_apart :
    (∃ l, (⟨podRegistry, {}, teamList ["a"], .members podRegistry⟩ :
        Operation).createOrReplace.run.Runs
      [⟨.create "pods" none (pod "a"), .ok (pod "a")⟩] (.ok l)) ∧
    (⟨podRegistry, {}, teamList ["a"], .members podRegistry⟩ : Operation).delete.run.Runs
      [⟨.delete "pods" (some "team") ({} : Settings).deleteOptions (pod "a"), .ok true⟩]
      (.ok true) := by
  have groups := groups_teamList ["a"]
  have hmarks : ∀ v ∈ ({} : Settings).visitors, v.IsMark := List.forall_mem_nil _
  constructor
  · have created : (⟨podRegistry, {}, [pod "a"]⟩ : BatchOperation).createOrReplace.run.Runs
        [⟨.create "pods" none (pod "a"), .ok (pod "a")⟩] (.ok [pod "a"]) := by
      refine Apply.runs_createOrReplace_targets_iff.2
        (.inr ⟨[(.remote (.collaborator "pods" true), pod "a")], rfl, Apply.runs_go_iff.2
          (.inl ⟨[pod "a"], .singleton ?_, rfl⟩)⟩)
      exact (Apply.runs_createOrReplace_iff _ _ _ _ _).2
        ⟨_, .settled _ nofun, Handler.conducts_singleton_iff.2 (Handler.runs_create ..)⟩
    obtain ⟨l, hl, -⟩ := Resource.withMembers_of_whole groups.members
      (List.forall_mem_singleton.2 (whole_pod "a"))
    refine ⟨l, ?_⟩
    rw [groups.run_createOrReplace_eq hmarks]
    exact Program.runs_bind_done_iff.2 ⟨_, created, hl.symm⟩
  · obtain ⟨target, htarget, hms, -⟩ := groups.exists_target hmarks
    rw [delete_eq htarget hms]
    show ([pod "a"].allM (Handler.deleteMember podRegistry (some "team") _)).run.Runs _ _
    rw [List.allM_cons, deleteMember_pod]
    exact .call (.done _)

end Operation

end Rollout
