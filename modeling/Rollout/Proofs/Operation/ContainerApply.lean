/-
  A container is applied like its members.

  An operation on a container edits the members inside it, reads them back and applies one after the
  other; an operation on the batch of its members edits each by itself and applies what it has got.
  Both make the same calls: the first is the second, with the states put back into the container,
  and the failure taken out of the aborted batch (`Resource.regroup`). As members are read back as
  they were written, this holds answer by answer (`Groups.run_createOrReplace_eq`). Only fractions
  of seconds are not written, so the calls are those of the batch of the settled members.
-/
import Mathlib.Data.List.Infix
import Rollout.Operation.Single
import Rollout.Proofs.Apply.Abort
import Rollout.Proofs.Apply.Settled
import Rollout.Proofs.Handler.Edit
import Rollout.Proofs.Registry
import Rollout.Proofs.Wait.Terms

namespace Rollout

/-! ## The batch and the container -/

/-- What applying a container comes to when applying its members one by one comes to this. -/
def Resource.regroup (c : Resource) : Except Failure (List Resource) → Except Failure Resource
  | .ok states => c.withMembers states
  | .error (.batchAborted _ source) => .error source
  | .error f => .error f

/-- The operation on these resources as they are written, to the second. -/
def BatchOperation.settled (op : BatchOperation) : BatchOperation :=
  { op with items := op.items.map Resource.settled }

namespace Apply

variable {reg : Registry} {o : ApplyOptions} {c : Resource}

/-- Members that are applied one after the other and put back make the calls of a batch. -/
theorem run_mapM_regroup (applied : List Resource) (batch : List Prepared) :
    (batch.mapM (createOrReplaceItem o) >>= fun states =>
        Action.ofExcept (c.withMembers (applied ++ states))).run =
      (createOrReplaceAll.go o applied batch).run.bind fun result => .done (c.regroup result) := by
  -- What has been applied grows with each item, so the induction is for any of it.
  induction batch generalizing applied with
  | nil =>
    rw [List.mapM_nil, pure_bind, List.append_nil]
    rfl
  | cons p batch ih =>
    rw [List.mapM_cons, bind_assoc, Action.run_bind, createOrReplaceAll.go, Action.run_attempt_bind,
      Program.bind_assoc]
    congr
    funext answer
    cases answer with
    | error f => rfl
    | ok state =>
      have := ih (applied ++ [state])
      simp only [List.append_assoc, List.singleton_append] at this
      simp only [bind_assoc, pure_bind]
      exact this

/-- Members that are marked keep their handlers, and are made ready to go out with them. -/
theorem prepare_of_marks {p : Pipeline} {ms : List Resource} {handlers : List Handler}
    (hmarks : ∀ v ∈ p.visitors, v.IsMark) (hplain : ∀ m ∈ ms, isListKind m.kind = false)
    (hresolve : ms.mapM reg.resolveFor = .ok handlers) :
    (ms.map p.visit).mapM reg.resolveFor = .ok handlers ∧
      ms.mapM (prepareItem reg p) = .ok (handlers.zip (ms.map p.visit)) := by
  induction ms generalizing handlers with
  | nil =>
    obtain rfl := Except.ok.inj hresolve
    exact ⟨rfl, rfl⟩
  | cons m ms ih =>
    obtain ⟨hm, hms⟩ := List.forall_mem_cons.1 hplain
    obtain ⟨h, handlers, hr, hrest, rfl⟩ := mapM_eq_ok_cons_iff.1 hresolve
    obtain ⟨hvisited, hprepared⟩ := ih hms hrest
    obtain ⟨x, rfl⟩ := Registry.exists_remote_of_resolveFor hr hm
    obtain ⟨metadata, hvisit, -⟩ := Pipeline.visit_eq hmarks m
    refine ⟨mapM_eq_ok_cons_iff.2 ⟨_, handlers, ?_, hvisited, rfl⟩,
      mapM_eq_ok_cons_iff.2 ⟨_, _, ?_, hprepared, rfl⟩⟩
    · rw [hvisit]
      exact Registry.resolveFor_withMetadata metadata hr
    · exact prepareItem_eq_ok_iff.2 ⟨hr, Handler.edit_remote x p m⟩

/-- The handler has been asked to create or to replace a resource, and this is its answer. -/
def Answers (h : Handler) (events : List Event) (answer : Resource) : Prop :=
  ∃ ns r, (h.create ns r).run.Runs events (.ok answer) ∨
    (h.replace ns r).run.Runs events (.ok answer)

end Apply

/-! ## The operation on a container -/

namespace Operation

open Apply

/-- A container that nobody is registered for, and that holds these members: each has a handler, and
none holds others in its turn. -/
structure Groups (reg : Registry) (c : Resource) (ms : List Resource) : Prop where
  unregistered : ∀ key, ResourceKey.of? c = some key → reg.find? key = none
  members : c.members = .ok ms
  /-- The members are encoded as objects are: with their keys in order. -/
  ordered : ∀ items fields, c.rawMembers? = some items → Json.obj fields ∈ items →
    Entries.Ordered fields
  plain : ∀ m ∈ ms, isListKind m.kind = false
  resolves : ∀ m ∈ ms, ∃ h, reg.resolveFor m = .ok h

variable {reg : Registry} {s : Settings} {c : Resource} {ms : List Resource}

theorem isMark_of_mem_pipeline (hmarks : ∀ v ∈ s.visitors, v.IsMark) :
    ∀ v ∈ s.pipeline.visitors, v.IsMark := by
  intro v hv
  rcases List.mem_append.1 hv with hv | hv
  · exact hmarks v hv
  · rw [List.mem_singleton.1 hv]
    trivial

/-- There is an operation on what has a handler. -/
theorem of_eq_ok {r : Resource} {h : Handler} (hr : reg.resolveFor r = .ok h) :
    Operation.of reg s r = .ok ⟨reg, s, r, h⟩ := by
  rw [Operation.of, hr]
  rfl

/-- The operation on a container that nobody is registered for works through its members. -/
theorem eq_of_unregistered {op : Operation} (hop : Operation.of reg s c = .ok op)
    (unregistered : ∀ key, ResourceKey.of? c = some key → reg.find? key = none) :
    op = ⟨reg, s, c, .members reg⟩ ∧ isListKind c.kind = true := by
  cases hresolve : reg.resolveFor c with
  | error f =>
    rw [Operation.of, hresolve] at hop
    cases hop
  | ok handler =>
    obtain rfl := Registry.eq_members_of_resolveFor hresolve unregistered
    exact ⟨(Except.ok.inj ((of_eq_ok hresolve).symm.trans hop)).symm,
      (Registry.eq_of_resolveFor_members hresolve).1⟩

/-- A container goes out with the members that it has, after the pipeline. -/
theorem exists_members_of_target {target : Resource}
    (h : (⟨reg, s, c, .members reg⟩ : Operation).target = .ok target) :
    ∃ ms, c.members = .ok ms ∧ c.withMembers (ms.map s.pipeline.visit) = .ok target := by
  rw [Operation.target, Handler.edit_members] at h
  cases hms : c.members with
  | error f =>
    rw [hms] at h
    cases h
  | ok ms =>
    rw [hms] at h
    exact ⟨ms, rfl, h⟩

/-- The container itself goes out as it is. -/
theorem eq_of_target {target : Resource}
    (h : (⟨reg, s, c, .members reg⟩ : Operation).target = .ok target) :
    target.kind = c.kind ∧ target.ns = c.ns := by
  obtain ⟨ms, -, htarget⟩ := exists_members_of_target h
  obtain ⟨htypes, hmetadata⟩ := Resource.eq_of_withMembers htarget
  refine ⟨?_, congrArg Metadata.ns hmetadata⟩
  rw [Resource.kind, Resource.kind, htypes]

/-- A container of whole members goes out with its members marked and settled. -/
theorem exists_target_of_whole (reg : Registry) (hms : c.members = .ok ms)
    (hwhole : ∀ m ∈ ms, m.Whole) (hmarks : ∀ v ∈ s.visitors, v.IsMark) :
    ∃ target, (⟨reg, s, c, .members reg⟩ : Operation).target = .ok target ∧
      target.members = .ok ((ms.map Resource.settled).map s.pipeline.visit) ∧
      ∀ states, target.withMembers states = c.withMembers states := by
  have marks := isMark_of_mem_pipeline hmarks
  have whole : ∀ m ∈ ms.map s.pipeline.visit, m.Whole := by
    intro m hm
    obtain ⟨m', hm', rfl⟩ := List.mem_map.1 hm
    exact Pipeline.whole_visit marks (hwhole m' hm')
  obtain ⟨target, htarget, hregrouped⟩ := Resource.withMembers_of_whole hms whole
  refine ⟨target, ?_, ?_, Resource.withMembers_withMembers htarget⟩
  · rw [Operation.target, Handler.edit_members, hms]
    exact htarget
  · rw [hregrouped.members, List.map_map, List.map_map]
    exact congrArg Except.ok (List.map_congr_left fun m _ => (Pipeline.visit_settled marks m).symm)

/-- Applying a container is applying the members that go out with it. -/
theorem createOrReplace_eq {target : Resource}
    (htarget : (⟨reg, s, c, .members reg⟩ : Operation).target = .ok target)
    (hms : target.members = .ok ms) : (⟨reg, s, c, .members reg⟩ : Operation).createOrReplace =
      createOrReplaceMembers reg (.of s) target := by
  rw [createOrReplace, htarget, Action.ofExcept_bind, if_pos (Resource.isListKind_of_members hms)]

namespace Groups

theorem whole (h : Groups reg c ms) : ∀ m ∈ ms, m.Whole := by
  intro m hm
  obtain ⟨handler, hhandler⟩ := h.resolves m hm
  obtain ⟨t, ht⟩ := Registry.exists_types_of_resolveFor hhandler
  rcases Resource.whole_or_untyped_of_members h.members h.ordered m hm with whole | untyped
  · exact whole
  · cases untyped.types.symm.trans ht

/-- The container goes out with its members marked and settled. -/
theorem exists_target (h : Groups reg c ms) (hmarks : ∀ v ∈ s.visitors, v.IsMark) :
    ∃ target, (⟨reg, s, c, .members reg⟩ : Operation).target = .ok target ∧
      target.members = .ok ((ms.map Resource.settled).map s.pipeline.visit) ∧
      ∀ states, target.withMembers states = c.withMembers states :=
  exists_target_of_whole reg h.members h.whole hmarks

theorem legible (h : Groups reg c ms) : ∀ m ∈ ms, m.metadata.Legible :=
  fun m hm => (h.whole m hm).metadata

theorem plain_settled (h : Groups reg c ms) :
    ∀ m ∈ ms.map Resource.settled, isListKind m.kind = false := by
  intro m hm
  obtain ⟨m', hm', rfl⟩ := List.mem_map.1 hm
  exact h.plain m' hm'

theorem resolves_settled (h : Groups reg c ms) :
    ∀ m ∈ ms.map Resource.settled, ∃ handler, reg.resolveFor m = .ok handler := by
  intro m hm
  obtain ⟨m', hm', rfl⟩ := List.mem_map.1 hm
  exact (h.resolves m' hm').imp fun _ => Registry.resolveFor_withMetadata _

/-- The operation on the container makes the calls of the operation on its settled members, and puts
what they come to into the container. -/
theorem run_createOrReplace_eq (h : Groups reg c ms) (hmarks : ∀ v ∈ s.visitors, v.IsMark) :
    (⟨reg, s, c, .members reg⟩ : Operation).createOrReplace.run =
      (⟨reg, s, ms⟩ : BatchOperation).settled.createOrReplace.run.bind
        fun r => .done (c.regroup r) := by
  obtain ⟨handlers, hhandlers⟩ := exists_mapM_eq_ok h.resolves_settled
  obtain ⟨hvisited, hprepared⟩ :=
    prepare_of_marks (isMark_of_mem_pipeline hmarks) h.plain_settled hhandlers
  obtain ⟨target, htarget, hmembers, hput⟩ := h.exists_target hmarks
  have htargets : (⟨reg, s, ms⟩ : BatchOperation).settled.targets =
      .ok (handlers.zip ((ms.map Resource.settled).map s.pipeline.visit)) :=
    prepare_eq_ok_iff.2 hprepared
  have hlist := Resource.isListKind_of_members hmembers
  rw [createOrReplace, htarget, Action.ofExcept_bind, if_pos hlist, createOrReplaceMembers,
    hmembers, Action.ofExcept_bind, hvisited, Action.ofExcept_bind,
    BatchOperation.createOrReplace, htargets, Action.ofExcept_bind]
  simp only [hput]
  exact run_mapM_regroup [] _

/-- What the container says of itself in its metadata does not matter. -/
theorem withMetadata (h : Groups reg c ms) (metadata : Metadata) :
    Groups reg { c with metadata := metadata } ms := by
  obtain ⟨items, hraw, hms⟩ := Resource.members_eq_ok_iff.1 h.members
  exact ⟨h.unregistered, Resource.members_eq_ok_iff.2 ⟨items, hraw, hms⟩, h.ordered, h.plain,
    h.resolves⟩

theorem of_batch (h : Groups reg c ms) :
    BatchOperation.of reg s [c] = .ok ⟨reg, s, ms⟩ := by
  rw [BatchOperation.of, Resource.flatten_container h.members h.plain]
  rfl

theorem eq_of_of {op : Operation} (h : Groups reg c ms) (hop : Operation.of reg s c = .ok op) :
    op = ⟨reg, s, c, .members reg⟩ := (eq_of_unregistered hop h.unregistered).1

end Groups

open BatchTerms (pod podRegistry resolveFor_pod)

def podJson (name : String) : Json := .obj
  [("apiVersion", .str "v1"), ("kind", .str "Pod"), ("metadata", .obj [("name", .str name)])]

/-- A list of pods. -/
def podList (names : List String) : Resource :=
  ⟨some ⟨"v1", "PodList"⟩, {}, .obj [("items", .arr (names.map podJson))]⟩

/-- Labels everything that goes out to one namespace. -/
def labelling : Settings :=
  { explicitNamespace := some "prod", visitors := [.label "app" "web"] }

/-- Without any settings, what goes out is left as it is. -/
theorem visit_of_no_settings (r : Resource) : ({} : Settings).pipeline.visit r = r := by
  show (if (r.ns.getD "").isEmpty then r else r) = r
  exact ite_self r

theorem isListKind_podList : isListKind "PodList" = true := by decide +kernel

theorem isListKind_list : isListKind "List" = true := by decide +kernel

theorem isListKind_pod : isListKind "Pod" = false := by decide +kernel

theorem rawMembers?_podList (names : List String) :
    (podList names).rawMembers? = some (names.map podJson) :=
  Resource.rawMembers?_eq_some_iff.2 ⟨_, _, rfl, isListKind_podList, rfl, rfl⟩

theorem groups_podList (names : List String) :
    Groups podRegistry (podList names) (names.map pod) where
  unregistered key hkey := by
    obtain rfl := Option.some.inj hkey
    rfl
  members := by
    refine Resource.members_eq_ok_iff.2 ⟨_, rawMembers?_podList names, ?_⟩
    induction names with
    | nil => rfl
    | cons name names ih =>
      rw [List.map_cons, List.mapM_cons, ih]
      rfl
  ordered items fields hraw hfields := by
    obtain rfl := Option.some.inj ((rawMembers?_podList names).symm.trans hraw)
    obtain ⟨name, -, hname⟩ := List.mem_map.1 hfields
    obtain rfl := Json.obj.inj hname
    obtain ⟨hvk, hvm, hkm⟩ : "apiVersion" < "kind" ∧ "apiVersion" < "metadata" ∧
        "kind" < "metadata" := by decide
    exact .cons (List.forall_mem_cons.2 ⟨hvk, List.forall_mem_singleton.2 hvm⟩)
      (.cons (List.forall_mem_singleton.2 hkm) (List.pairwise_singleton _ _))
  plain m hm := by
    obtain ⟨name, -, rfl⟩ := List.mem_map.1 hm
    exact isListKind_pod
  resolves := BatchTerms.resolves_pods names

theorem resolveFor_podList (names : List String) :
    podRegistry.resolveFor (podList names) = .ok (.members podRegistry) :=
  Registry.resolveFor_of_isList rfl rfl isListKind_podList

theorem whole_pod (name : String) : (pod name).Whole :=
  ⟨⟨_, rfl⟩, ⟨nofun, nofun, nofun, nofun, nofun⟩, [], rfl, .nil, fun _ _ => rfl⟩

end Operation

end Rollout
