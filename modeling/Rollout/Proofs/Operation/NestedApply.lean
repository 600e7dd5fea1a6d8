/-
  Conflicts inside a container are resolved member by member, and not leaf by leaf.

  The members of a container are applied one after the other. Nothing is asked for the leaves of a
  member but to create them, unless the creation of one of them has met a conflict; from then on the
  member is replaced, or deleted and created again, as a whole. If the leaves are kept in stores,
  this succeeds as long as the leaves of each member agree at its turn (`AgreeAll`), and then the
  last leaf of each identity is kept (`createOrReplace_settles`). So it always succeeds for members
  that are no containers (`agreeAll_of_plain`). But of a member that holds a leaf that is there and
  one behind it that is not, the latter is never created (`createOrReplace_replaces_absent`).
-/
import Rollout.Proofs.Apply.Parts
import Rollout.Proofs.Operation.NestedLack

namespace Rollout

open Rollout.Action Handler Registry

/-- The calls of a loop are those of its steps, one after the other, as far as it gets. -/
theorem Action.parts_of_runs_mapM {β γ : Type} {f : β → Action γ} {Q : β → List Event → Prop}
    {xs : List β} {events : List Event} {result : Except Failure (List γ)}
    (h : (xs.mapM f).run.Runs events result)
    (hf : ∀ x ∈ xs, ∀ part answer, (f x).run.Runs part answer → Q x part) :
    ∃ met parts, met <+: xs ∧ events = parts.flatten ∧ List.Forall₂ Q met parts := by
  induction xs generalizing events result with
  | nil => exact ⟨[], [], List.prefix_rfl, (runs_pure_iff.1 h).1, .nil⟩
  | cons x xs ih =>
    obtain ⟨hx, hxs⟩ := List.forall_mem_cons.1 hf
    rw [List.mapM_cons, run_bind, Program.runs_bind_iff] at h
    obtain ⟨first, rest, answer, rfl, hfirst, hrest⟩ := h
    have hpart : Q x first := hx first answer hfirst
    cases answer with
    | error e =>
      rw [(Program.runs_done_iff.1 hrest).1]
      exact ⟨[x], [first], ⟨xs, rfl⟩, by simp, .cons hpart .nil⟩
    | ok y =>
      have hrest : (xs.mapM f >>= fun ys => pure (y :: ys)).run.Runs rest result := hrest
      rw [run_bind, Program.runs_bind_iff] at hrest
      obtain ⟨middle, last, answer, rfl, hmiddle, hlast⟩ := hrest
      obtain ⟨met, parts, hmet, rfl, hparts⟩ := ih hmiddle hxs
      have hlast : last = [] := by
        cases answer with
        | error e => exact (Program.runs_done_iff.1 hlast).1
        | ok ys => exact (runs_pure_iff.1 hlast).1
      exact ⟨x :: met, first :: parts, List.cons_prefix_cons.2 ⟨rfl, hmet⟩, by simp [hlast],
        .cons hpart hparts⟩

namespace Apply

variable {reg : Registry} {options : ApplyOptions} {m c : Resource} {ms : List Resource}

/-! ## What is asked for the leaves of a member -/

/-- Nothing is asked for these leaves but to create them, at least until the creation of one of them
has met a conflict. -/
def CreatesFirst (ls : List Leaf) (events : List Event) : Prop :=
  Asked (fun h e => ∃ l ∈ ls, l.Creates h e) events ∨
  ∃ l ∈ ls, ∃ f, f.FromConflict ∧ ∃ first met rest, events = first ++ (met ++ rest) ∧
    Asked (fun h e => ∃ l ∈ ls, l.Creates h e) first ∧
    (l.ask creating).run.Runs met (.error f) ∧ Asked (fun h e => ∃ l ∈ ls, l.Own h e) rest

theorem createsFirst_of_runs {events : List Event} {result : Except Failure Resource}
    (complete : (reg.survey m.ns m).lack = none)
    (hrun : (createOrReplaceMember reg options m).run.Runs events result) :
    CreatesFirst (reg.survey m.ns m).leaves events := by
  cases hr : reg.resolveFor m with
  | error f =>
    rw [survey_of_error hr] at complete
    cases complete
  | ok handler =>
    rw [createOrReplaceMember, hr, ofExcept_bind] at hrun
    obtain ⟨exchanges, hd, hc⟩ := (runs_createOrReplace_iff handler options m events result).1 hrun
    cases hd with
    | settled =>
      have created := asks_creating reg m.ns m
      rw [ask_of_ok hr] at created
      exact .inl (created _ _ (conducts_singleton_iff.1 hc))
    | @conflict f hf rest _ hd =>
      obtain ⟨first, last, rfl, hfirst, hlast⟩ := conducts_cons_iff.1 hc
      have failed : (reg.ask creating m.ns m).run.Runs first (.error f) := by
        rw [ask_of_ok hr]
        exact hfirst
      obtain ⟨l, hl, before, met, rfl, hbefore, hmet⟩ := exists_of_conflict complete failed hf
      exact .inr ⟨l, hl, f, hf, before, met, last, List.append_assoc _ _ _, hbefore, hmet,
        asked_of_conducts hr hd.isVerbFor hlast⟩

theorem complete_of_surveyAll (h : (reg.surveyAll ms).lack = none) :
    ∀ m ∈ ms, (reg.survey m.ns m).lack = none := fun _ hm =>
  Survey.lack_join_eq_none_iff.1 h _ (List.mem_map_of_mem hm)

/-- The calls for the members of a container, one member after the other. -/
theorem createsFirst_of_runs_members {events : List Event} {result : Except Failure Resource}
    (hms : c.members = .ok ms) (complete : (reg.surveyAll ms).lack = none)
    (hrun : (createOrReplaceMembers reg options c).run.Runs events result) :
    ∃ met parts, met <+: ms ∧ events = parts.flatten ∧
      List.Forall₂ (fun m part => CreatesFirst (reg.survey m.ns m).leaves part) met parts := by
  have complete := complete_of_surveyAll complete
  rw [createOrReplaceMembers_eq hms fun m hm => not_lacks_of_complete (complete m hm), run_bind,
    Program.runs_bind_iff] at hrun
  obtain ⟨first, rest, answer, rfl, hfirst, hrest⟩ := hrun
  have hrest : rest = [] := by
    cases answer with
    | error e => exact (Program.runs_done_iff.1 hrest).1
    | ok applied => exact (runs_ofExcept_iff.1 hrest).1
  rw [hrest, List.append_nil]
  exact parts_of_runs_mapM hfirst fun m hm _ _ => createsFirst_of_runs (complete m hm)

/-! ## Members one after the other -/

/-- The members, whose leaves have these keys, can be applied one after the other. Each finds there
what was there at the beginning and what the members ahead of it have brought. -/
def AgreeAll {κ : Type} (deleting : Bool) : (κ → Prop) → List (List κ) → Prop
  | _, [] => True
  | there, keys :: rest =>
    Agree deleting there keys ∧ AgreeAll deleting (fun k => there k ∨ k ∈ keys) rest

variable {σ κ : Type} {o : Outside σ} {objects : σ → κ → Option Resource}
  {key : Handler → Option String → String → κ}

theorem eachEnds_settles (complete : ∀ m ∈ ms, (reg.survey m.ns m).lack = none)
    (hls : ∀ l ∈ (reg.surveyAll ms).leaves, l.Kept o objects key) (w : World σ)
    (agree : AgreeAll options.deletingExisting (fun k => objects w.state k ≠ none)
      (ms.map fun m => (reg.survey m.ns m).leaves.map (Leaf.key key))) :
    ∃ events w', EachEnds Resource.Writable (createOrReplaceMember reg options) ms events none ∧
      o.Serves w events w' ∧ Settles key ((reg.surveyAll ms).leaves.map Leaf.placed)
        (objects w.state) (objects w'.state) := by
  induction ms generalizing w with
  | nil => exact ⟨[], w, .nil, .nil w, settles_nil _⟩
  | cons m ms ih =>
    obtain ⟨hm, complete⟩ := List.forall_mem_cons.1 complete
    have hsurvey : reg.surveyAll (m :: ms) =
        ⟨(reg.survey m.ns m).leaves ++ (reg.surveyAll ms).leaves, (reg.surveyAll ms).lack⟩ :=
      Survey.append_of_complete hm _
    rw [hsurvey] at hls ⊢
    obtain ⟨hagree, hrest⟩ := agree
    have hleaves : ∀ l ∈ (reg.survey m.ns m).leaves, l.Kept o objects key := fun l hl =>
      hls l (List.mem_append_left _ hl)
    have hmember : reg.survey m.ns m = ⟨(reg.survey m.ns m).leaves, none⟩ := by rw [← hm]
    obtain ⟨first, w₁, hends, hserves, hsettles⟩ :=
      createOrReplaceMember_settles hmember hleaves w hagree
    have there : (fun k => objects w₁.state k ≠ none) = fun k =>
        objects w.state k ≠ none ∨ k ∈ (reg.survey m.ns m).leaves.map (Leaf.key key) :=
      funext fun k => propext (hsettles.there_iff hleaves k)
    rw [← there] at hrest
    obtain ⟨rest, w', hends', hserves', hsettles'⟩ :=
      ih complete (fun l hl => hls l (List.mem_append_right _ hl)) w₁ hrest
    refine ⟨first ++ rest, w', .cons hends hends', hserves.append hserves', ?_⟩
    rw [List.map_append]
    exact hsettles.append hsettles'

/-- Members that are no containers can be applied whatever is there. -/
theorem agreeAll_of_plain (complete : ∀ m ∈ ms, (reg.survey m.ns m).lack = none)
    (plain : ∀ m ∈ ms, isListKind m.kind = false) (deleting : Bool) (there : κ → Prop)
    (key : Handler → Option String → String → κ) : AgreeAll deleting there
      (ms.map fun m => (reg.survey m.ns m).leaves.map (Leaf.key key)) := by
  induction ms generalizing there with
  | nil => trivial
  | cons m ms ih =>
    obtain ⟨hcomplete, complete⟩ := List.forall_mem_cons.1 complete
    obtain ⟨hplain, plain⟩ := List.forall_mem_cons.1 plain
    obtain ⟨handler, hr⟩ := exists_resolveFor_iff.2 (not_lacks_of_complete hcomplete)
    obtain ⟨x, rfl⟩ := exists_remote_of_resolveFor hr hplain
    refine ⟨?_, ih complete plain _⟩
    show Agree deleting there ((reg.survey m.ns m).leaves.map (Leaf.key key))
    rw [survey_of_remote hr]
    exact agree_singleton deleting there _

end Apply

/-! ## The operation on a container -/

namespace Operation

open Apply

variable {reg : Registry} {s : Settings} {c target : Resource} {ms : List Resource}

/-- Applying a container whose leaves all have handlers: in every run the members are applied one
after the other, and for the leaves of each nothing is asked but to create them, until the creation
of one of these leaves has met a conflict. If the leaves have no versions and are kept in stores,
the call succeeds, whatever is there, for members that are no containers, and for others if their
leaves agree. Then the last leaf of each identity is kept, and other identities are as they were. -/
theorem createOrReplace_settles {op : Operation} (hop : Operation.of reg s c = .ok op)
    (unregistered : ∀ key, ResourceKey.of? c = some key → reg.find? key = none)
    (htarget : op.target = .ok target) (hms : target.members = .ok ms)
    (complete : (reg.surveyAll ms).lack = none) :
    (∀ events result, op.createOrReplace.run.Runs events result →
      ∃ met parts, met <+: ms ∧ events = parts.flatten ∧
        List.Forall₂ (fun m part => CreatesFirst (reg.survey m.ns m).leaves part) met parts) ∧
    ∀ {σ κ : Type} (o : Outside σ) (objects : σ → κ → Option Resource)
      (key : Handler → Option String → String → κ) (w : World σ),
      (∀ l ∈ (reg.surveyAll ms).leaves, l.resource.version = none ∧
        o.Keeps objects (key (.remote l.remote)) (.remote l.remote)) →
      ((∀ m ∈ ms, isListKind m.kind = false) ∨
        AgreeAll s.deletingExisting (fun k => objects w.state k ≠ none)
          (ms.map fun m => (reg.survey m.ns m).leaves.map (Leaf.key key))) →
      ∃ w' l, op.createOrReplace.run.LeadsTo o w w' (.ok l) ∧
        Settles key ((reg.surveyAll ms).leaves.map Leaf.placed) (objects w.state)
          (objects w'.state) := by
  obtain ⟨rfl, -⟩ := eq_of_unregistered hop unregistered
  rw [createOrReplace_eq htarget hms]
  refine ⟨fun events result => createsFirst_of_runs_members hms complete,
    fun {σ κ} o objects key w keeps agree => ?_⟩
  have each := complete_of_surveyAll complete
  have agree : AgreeAll (ApplyOptions.of s).deletingExisting _ _ :=
    agree.elim (fun plain => agreeAll_of_plain each plain _ _ key) id
  have hls : ∀ l ∈ (reg.surveyAll ms).leaves, l.Kept o objects key := by
    intro l hl
    obtain ⟨part, hpart, hl'⟩ := Survey.exists_of_mem_join hl
    obtain ⟨m, hm, rfl⟩ := List.mem_map.1 hpart
    exact ⟨(keeps l hl).2, proper_of_mem_survey (Resource.data_of_mem_members hms hm) id hl',
      (keeps l hl).1⟩
  obtain ⟨events, w', ⟨states, hruns, hstates⟩, hserves, hsettles⟩ :=
    eachEnds_settles each hls w agree
  obtain ⟨l, hl, -⟩ := target.withMembers_of_writable hstates
  refine ⟨w', l, Program.leadsTo_iff.2 ⟨events, ?_, hserves⟩, hsettles⟩
  rw [createOrReplaceMembers_eq hms fun m hm => not_lacks_of_complete (each m hm)]
  exact runs_bind_ok_iff.2 ⟨events, [], states, (List.append_nil _).symm,
    runs_mapM_ok_iff.2 hruns, runs_ofExcept_iff.2 ⟨rfl, hl.symm⟩⟩

/-! ## Pods in a store -/

open BatchTerms (pod podRegistry resolveFor_pod)

def podListJson (names : List String) : Json := .obj
  [("apiVersion", .str "v1"), ("items", .arr (names.map podJson)), ("kind", .str "PodList")]

theorem whole_podList (names : List String) : (podList names).Whole :=
  ⟨⟨_, rfl⟩, ⟨nofun, nofun, nofun, nofun, nofun⟩, _, rfl, List.pairwise_singleton _ _,
    fun key hkey => if_neg fun heq => absurd (heq ▸ hkey) (by decide)⟩

theorem survey_pod (name : String) :
    podRegistry.survey none (pod name) = ⟨[podLeaf name], none⟩ :=
  survey_of_remote (resolveFor_pod name)

theorem survey_podList (names : List String) :
    podRegistry.survey none (podList names) = ⟨names.map podLeaf, none⟩ := by
  have pods : Survey.join ((names.map pod).map fun m => podRegistry.survey (m.nsWithin none) m) =
      ⟨names.map podLeaf, none⟩ := by
    induction names with
    | nil => rfl
    | cons name names ih =>
      rw [List.map_cons, List.map_cons, Survey.join_cons, ih]
      exact congrArg (Survey.append · _) (survey_pod name)
  rw [survey_of_members (resolveFor_podList names) (groups_podList names).members, pods]

/-- A store that keeps one pod. -/
def oldStore : World Store := ⟨0, 0, Store.put {} (pod "old")⟩

theorem object_oldStore : oldStore.state.object (Store.identity none "old") ≠ none ∧
    oldStore.state.object (Store.identity none "new") = none := by
  decide

/-- A list of pods of which the one that is there comes last, and this one again. -/
def agreeingMembers : List Resource := [podList ["new", "old"], pod "old"]

def agreeingOperation : Operation :=
  ⟨podRegistry, {}, listOf [podListJson ["new", "old"], podJson "old"], .members podRegistry⟩

theorem surveyAll_agreeing : podRegistry.surveyAll agreeingMembers =
    ⟨["new", "old", "old"].map podLeaf, none⟩ := by
  show Survey.join [podRegistry.survey none _, podRegistry.survey none _] = _
  rw [survey_podList, survey_pod]
  rfl

theorem agreeAll_agreeing : AgreeAll false (fun k => oldStore.state.object k ≠ none)
    (agreeingMembers.map fun m => (podRegistry.survey m.ns m).leaves.map
      (Leaf.key (Function.const Handler Store.identity))) := by
  show AgreeAll false _ [(podRegistry.survey none (podList ["new", "old"])).leaves.map _,
    (podRegistry.survey none (pod "old")).leaves.map _]
  rw [survey_podList, survey_pod]
  obtain ⟨hold, hnew⟩ := object_oldStore
  refine ⟨.inr ⟨nofun, [_], _, [], rfl, List.pairwise_singleton _ _,
    List.forall_mem_singleton.2 (not_not_intro hnew), List.forall_mem_singleton.2 (.inl hold)⟩,
    agree_singleton _ _ _, trivial⟩

/-- The list is applied although one of its pods is there already, inside another list and again
beside it. -/
theorem createOrReplace_settles_pods : (podRegistry.surveyAll agreeingMembers).lack = none ∧
    ∃ w' l, agreeingOperation.createOrReplace.run.LeadsTo Store.outside oldStore w' (.ok l) ∧
      ∃ kept, w'.state.object (Store.identity none "new") = some kept ∧
        kept.withVersion none = pod "new" := by
  have complete : (podRegistry.surveyAll agreeingMembers).lack = none :=
    congrArg Survey.lack surveyAll_agreeing
  obtain ⟨target, htarget, hms⟩ : ∃ target, agreeingOperation.target = .ok target ∧
      target.members = .ok agreeingMembers := exists_target_listOf rfl rfl
    (List.forall_mem_cons.2 ⟨whole_podList _, List.forall_mem_singleton.2 (whole_pod "old")⟩)
  have keeps : ∀ l ∈ (podRegistry.surveyAll agreeingMembers).leaves, l.resource.version = none ∧
      Store.outside.Keeps Store.object Store.identity (.remote l.remote) := by
    rw [surveyAll_agreeing]
    intro l hl
    obtain ⟨name, -, rfl⟩ := List.mem_map.1 hl
    exact ⟨rfl, Store.keeps_outside "pods" true⟩
  obtain ⟨w', l, hrun, hsettles⟩ := (createOrReplace_settles (of_listOf _)
    (fun key hkey => by obtain rfl := Option.some.inj hkey; rfl) htarget hms complete).2
    Store.outside Store.object (Function.const Handler Store.identity) oldStore keeps
    (.inr agreeAll_agreeing)
  rw [surveyAll_agreeing] at hsettles
  obtain ⟨kept, hkept, hpod⟩ := hsettles.named [] (podLeaf "new").placed
    [(podLeaf "old").placed, (podLeaf "old").placed] rfl (by decide)
  exact ⟨complete, w', l, hrun, kept, hkept, hpod⟩

/-! ## A pod that is there ahead of one that is not -/

/-- What is not there cannot be replaced. -/
theorem replace_absent (ns : Option String) (r : Resource) (w : World Store)
    (absent : w.state.object (Store.identity ns r.name) = none) : ∃ status,
      ((Handler.remote (.collaborator "pods" true)).meet (.replace ns r)).LeadsTo Store.outside w w
        (.error (.api (.refused status))) ∧ status.code = 404 := by
  have hreplace : w.state.replace ns r = (.error (.refusal 404 none), w.state) := by
    rw [Store.replace, show w.state.find? ns r.name = none from absent]
  obtain ⟨status, hrefusal, hcode⟩ := Failure.exists_refusal_eq 404 none
  refine ⟨status, ?_, hcode⟩
  rw [Handler.meet, Handler.replace]
  refine Program.leadsTo_ask ?_
  show Course.ended { w with state := (w.state.replace ns r).2 } (w.state.replace ns r).1 = _
  rw [hreplace, hrefusal]

/-- A list of pods of which the one that is there comes first. -/
def disagreeingMembers : List Resource := [podList ["old", "new"]]

def disagreeingOperation : Operation :=
  ⟨podRegistry, {}, listOf [podListJson ["old", "new"]], .members podRegistry⟩

theorem surveyAll_disagreeing : podRegistry.surveyAll disagreeingMembers =
    ⟨["old", "new"].map podLeaf, none⟩ := by
  show Survey.join [podRegistry.survey none _] = _
  rw [survey_podList]
  rfl

/-- The replacement of the pods in turn fails for the one that is not there. -/
theorem runs_disagreeing : ∃ events w' status,
    (createOrReplaceMember podRegistry (.of {}) (podList ["old", "new"])).Ends Resource.Writable
      events (some (.api (.refused status))) ∧ status.code = 404 ∧
    Store.outside.Serves oldStore events w' ∧
    w'.state.object (Store.identity none "new") = none := by
  have keeps := Store.keeps_outside "pods" true
  obtain ⟨hold, hnew⟩ := object_oldStore
  have apart : Store.identity none "new" ≠ Store.identity none "old" := by decide
  -- The pod that is there is in the way of the creation.
  obtain ⟨w₁, conflict, hrefused, hcode, hobjects⟩ := keeps.refuses oldStore none (pod "old") hold
  obtain ⟨first, hfirst, hserves⟩ := Program.leadsTo_iff.1 hrefused
  have hfirst : ((podLeaf "old").ask creating).run.Runs first (.error (.api (.refused conflict))) :=
    hfirst
  have created := (traverses_creating podRegistry).ends_of_survey (survey_podList ["old", "new"])
    (.failed hfirst [podLeaf "new"] none)
  -- So it is replaced, and then the other one, which is not there.
  obtain ⟨w₂, kept, hreplaced, hkept, hwrites⟩ :=
    keeps.replaces w₁ none (pod "old") rfl (hobjects ▸ hold)
  obtain ⟨second, hsecond, hserves₂⟩ := Program.leadsTo_iff.1 hreplaced
  have hsecond : ((podLeaf "old").ask Handler.replace).run.Runs second (.ok kept) := hsecond
  have absent : w₂.state.object (Store.identity none "new") = none :=
    (hwrites.others _ apart).trans (hobjects ▸ hnew)
  obtain ⟨status, hmissed, hcode'⟩ := replace_absent none (pod "new") w₂ absent
  obtain ⟨third, hthird, hserves₃⟩ := Program.leadsTo_iff.1 hmissed
  have hthird : ((podLeaf "new").ask Handler.replace).run.Runs third
    (.error (.api (.refused status))) := hthird
  have proper : (podLeaf "old").Proper := ⟨⟨[], rfl⟩, fun _ => rfl⟩
  have replaced := (traverses_replace podRegistry).ends_of_survey (survey_podList ["old", "new"])
    (.next hsecond (proper.writable hkept) (.failed hthird [] none))
  refine ⟨first ++ (second ++ third), w₂, status, ?_, hcode',
    hserves.append (hserves₂.append hserves₃), absent⟩
  have resolved := resolveFor_podList ["old", "new"]
  rw [ask_of_ok resolved] at created replaced
  rw [createOrReplaceMember, resolved, ofExcept_bind]
  exact (runs_createOrReplace_iff _ _ _ _ _).2 ⟨_, .conflict (.refused conflict hcode)
    (.replaced rfl _), .cons created (conducts_singleton_iff.2 replaced)⟩

/-- Although all pods have a handler and none has a version, the list cannot be applied: the pod
that is not there is never created, but replaced, as the other one is there. -/
theorem createOrReplace_replaces_absent :
    podRegistry.surveyAll disagreeingMembers = ⟨["old", "new"].map podLeaf, none⟩ ∧
    (∀ l ∈ ["old", "new"].map podLeaf, l.resource.version = none) ∧
    ∃ w' status, disagreeingOperation.createOrReplace.run.LeadsTo Store.outside oldStore w'
        (.error (.api (.refused status))) ∧
      status.code = 404 ∧ w'.state.object (Store.identity none "new") = none := by
  refine ⟨surveyAll_disagreeing, fun l hl => ?_, ?_⟩
  · obtain ⟨name, -, rfl⟩ := List.mem_map.1 hl
    rfl
  · obtain ⟨events, w', status, hrun, hcode, hserves, habsent⟩ := runs_disagreeing
    obtain ⟨target, htarget, hms⟩ : ∃ target, disagreeingOperation.target = .ok target ∧
        target.members = .ok disagreeingMembers :=
      exists_target_listOf rfl rfl (List.forall_mem_singleton.2 (whole_podList _))
    refine ⟨w', status, Program.leadsTo_iff.2 ⟨events, ?_, hserves⟩, hcode, habsent⟩
    obtain ⟨states, hruns, -⟩ := EachEnds.stop hrun []
    rw [disagreeingOperation, createOrReplace_eq htarget hms, createOrReplaceMembers_eq hms]
    · exact runs_bind_error_iff.2 (.inl (runs_mapM_error_iff.2 ⟨states, hruns⟩))
    · exact List.forall_mem_singleton.2 (exists_resolveFor_iff.1 ⟨_, resolveFor_podList _⟩)

end Operation

end Rollout
