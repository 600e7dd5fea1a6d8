/-
  A container with something inside that has no handler, at any depth, cannot be applied.

  A member without a handler keeps all members from being applied: the handlers of the members are
  looked up before the first call. But what is inside a member is looked up only when its turn has
  come. So what is ahead of something without a handler, in the order of the survey, is asked for
  all the same, and is there by the time the call fails (`createOrReplace_lacking`,
  `createOrReplace_before_lacking`).
-/
import Rollout.Proofs.Apply.Members
import Rollout.Proofs.Operation.ContainerDelete

namespace Rollout

namespace Apply

open Rollout.Action Handler Registry

variable {reg : Registry} {o : ApplyOptions} {c : Resource} {ms : List Resource}

/-- Nothing is asked for but what the members hold ahead of the first lack. -/
theorem asks_createOrReplaceMembers (hms : c.members = .ok ms)
    (resolved : ∀ m ∈ ms, ¬ reg.Lacks m) : (createOrReplaceMembers reg o c).run.Asks fun h e =>
      ∃ l ∈ (reg.surveyAll ms).leaves, l.Own h e := by
  rw [createOrReplaceMembers_eq hms resolved]
  refine asks_bind (asks_mapM_upTo ?_) fun _ => Program.asks_done _
  exact Survey.asksUpTo_join (fun m _ => asks_createOrReplaceMember reg o m)
    fun m _ => complete_of_createOrReplaceMember

/-- Members that lack something are not applied. -/
theorem complete_of_createOrReplaceMembers {events : List Event} {l : Resource}
    (hms : c.members = .ok ms) (resolved : ∀ m ∈ ms, ¬ reg.Lacks m)
    (hrun : (createOrReplaceMembers reg o c).run.Runs events (.ok l)) :
    (reg.surveyAll ms).lack = none := by
  rw [createOrReplaceMembers_eq hms resolved] at hrun
  obtain ⟨first, rest, states, -, hruns, -⟩ := runs_bind_ok_iff.1 hrun
  rw [surveyAll, Survey.lack_join_eq_none_iff]
  intro s hs
  obtain ⟨m, hm, rfl⟩ := List.mem_map.1 hs
  obtain ⟨state, -, part, -, hpart⟩ := (runs_mapM_ok_iff.1 hruns).exists_of_mem_left hm
  exact complete_of_createOrReplaceMember ⟨part, state, hpart, trivial⟩

/-- If what is ahead of the first lack can be created, it is, and then the lack is the failure. -/
theorem runs_createOrReplaceMembers_lacking {ahead : List Leaf} {f : Failure} {events : List Event}
    {states : List Resource} (hms : c.members = .ok ms) (resolved : ∀ m ∈ ms, ¬ reg.Lacks m)
    (hsurvey : reg.surveyAll ms = ⟨ahead, some f⟩)
    (hruns : RunsEach (Leaf.ask creating) ahead events states)
    (hstates : ∀ y ∈ states, y.Writable) :
    (createOrReplaceMembers reg o c).run.Runs events (.error f) := by
  have walk : (reg.surveyAll ms).Walks (Leaf.ask creating) Resource.Writable events (some f) := by
    rw [hsurvey]
    exact .of_runsEach hruns hstates (some f)
  have calm : ¬ f.FromConflict := by
    obtain ⟨s, hs, hlack⟩ := Survey.exists_of_lack_join (congrArg Survey.lack hsurvey)
    obtain ⟨m, -, rfl⟩ := List.mem_map.1 hs
    exact not_fromConflict_of_survey hlack
  have ends : EachEnds Resource.Writable (createOrReplaceMember reg o) ms events (some f) := by
    refine walk.eachEnds fun m hm part last hlast hpart => ends_createOrReplaceMember hpart ?_
    rintro f' rfl
    obtain rfl := Option.some.inj (hlast.resolve_left nofun)
    exact calm
  obtain ⟨ys, hruns, -⟩ := ends
  rw [createOrReplaceMembers_eq hms resolved]
  exact runs_bind_error_iff.2 (.inl (runs_mapM_error_iff.2 ⟨ys, hruns⟩))

end Apply

namespace Operation

open Rollout.Action Handler Registry

variable {reg : Registry} {s : Settings} {c target : Resource} {ms : List Resource}

/-- If something inside a container has no handler, at any depth, the container cannot be applied:
the survey of its members is cut short. If a member itself has no handler, nothing is asked for and
the first such member decides the failure. In any case nothing is asked for but the leaves ahead of
what cuts the survey short, and no run succeeds. If these leaves can be created, they are, and then
the failure is why the survey is cut short; so no call is made if there are none. -/
theorem createOrReplace_lacking {op : Operation} (hop : Operation.of reg s c = .ok op)
    (unregistered : ∀ key, ResourceKey.of? c = some key → reg.find? key = none)
    (htarget : op.target = .ok target) (hms : target.members = .ok ms)
    (lacks : ∃ m ∈ ms, ∃ x, reg.Holds m x ∧ reg.Lacks x) :
    ∃ ahead f, reg.surveyAll ms = ⟨ahead, some f⟩ ∧
      (∃ m ∈ ms, ∃ x, reg.Holds m x ∧ (reg.Lacks x ∧ f = lackOf x ∨
        reg.resolveFor x = .ok (.members reg) ∧ x.members = .error f)) ∧
      ((∃ m ∈ ms, reg.Lacks m) → ∃ before m after, ms = before ++ m :: after ∧
        (∀ y ∈ before, ¬ reg.Lacks y) ∧ reg.Lacks m ∧
        op.createOrReplace.run = .done (.error (lackOf m))) ∧
      (op.createOrReplace.run.Asks fun h e => ∃ l ∈ ahead, l.Own h e) ∧
      (∀ events l, ¬ op.createOrReplace.run.Runs events (.ok l)) ∧
      ((∀ m ∈ ms, ¬ reg.Lacks m) → ∀ events states,
        RunsEach (Leaf.ask creating) ahead events states → (∀ y ∈ states, y.Writable) →
        op.createOrReplace.run.Runs events (.error f)) := by
  obtain ⟨rfl, -⟩ := eq_of_unregistered hop unregistered
  obtain ⟨m, hm, x, hx, hlacks⟩ := lacks
  have cut : (reg.surveyAll ms).lack ≠ none := by
    rw [surveyAll, Ne, Survey.lack_join_eq_none_iff]
    exact fun complete =>
      survey_lack_ne_none hx hlacks m.ns (complete _ (List.mem_map_of_mem hm))
  obtain ⟨f, hf⟩ := Option.ne_none_iff_exists'.1 cut
  have hsurvey : reg.surveyAll ms = ⟨(reg.surveyAll ms).leaves, some f⟩ := by rw [← hf]
  obtain ⟨part, hpart, hlack⟩ := Survey.exists_of_lack_join hf
  obtain ⟨m', hm', rfl⟩ := List.mem_map.1 hpart
  rw [createOrReplace_eq htarget hms]
  refine ⟨_, f, hsurvey, ⟨m', hm', exists_of_survey_lack hlack⟩, fun lacks =>
    Apply.createOrReplaceMembers_of_lacks hms lacks, ?_, ?_, fun resolved events states hruns =>
    Apply.runs_createOrReplaceMembers_lacking hms resolved hsurvey hruns⟩
  all_goals
    by_cases resolved : ∀ m ∈ ms, ¬ reg.Lacks m
  · exact Apply.asks_createOrReplaceMembers hms resolved
  · obtain ⟨before, m, after, -, -, -, hdone⟩ :=
      Apply.createOrReplaceMembers_of_lacks (o := .of s) hms (by simpa using resolved)
    rw [hdone]
    exact Program.asks_done _
  · intro events l hrun
    exact cut (Apply.complete_of_createOrReplaceMembers hms resolved hrun)
  · intro events l hrun
    obtain ⟨before, m, after, -, -, -, hdone⟩ :=
      Apply.createOrReplaceMembers_of_lacks (o := .of s) hms (by simpa using resolved)
    rw [hdone] at hrun
    cases (Program.runs_done_iff.1 hrun).2

/-! ## A pod ahead of a secret in a list -/

open BatchTerms (pod podRegistry resolveFor_pod)

def listJson (items : List Json) : Json :=
  .obj [("apiVersion", .str "v1"), ("items", .arr items), ("kind", .str "List")]

/-- A list of whatever these are read as. -/
def listOf (items : List Json) : Resource :=
  ⟨some ⟨"v1", "List"⟩, {}, .obj [("items", .arr items)]⟩

theorem members_listOf {items : List Json} {ms : List Resource}
    (h : items.mapM Resource.ofJson? = some ms) : (listOf items).members = .ok ms :=
  Resource.members_eq_ok_iff.2
    ⟨items, Resource.rawMembers?_eq_some_iff.2 ⟨_, _, rfl, isListKind_list, rfl, rfl⟩, h⟩

theorem resolveFor_listOf (items : List Json) :
    podRegistry.resolveFor (listOf items) = .ok (.members podRegistry) :=
  Registry.resolveFor_of_isList rfl rfl isListKind_list

theorem of_listOf (items : List Json) : Operation.of podRegistry {} (listOf items) =
    .ok ⟨podRegistry, {}, listOf items, .members podRegistry⟩ :=
  of_eq_ok (resolveFor_listOf items)

theorem whole_listOf (items : List Json) : (listOf items).Whole :=
  ⟨⟨_, rfl⟩, ⟨nofun, nofun, nofun, nofun, nofun⟩, _, rfl, List.pairwise_singleton _ _,
    fun key hkey => if_neg fun heq => absurd (heq ▸ hkey) (by decide)⟩

theorem exists_target_listOf {items : List Json} {ms : List Resource}
    (h : items.mapM Resource.ofJson? = some ms) (settled : ms.map Resource.settled = ms)
    (whole : ∀ m ∈ ms, m.Whole) : ∃ target,
      (⟨podRegistry, {}, listOf items, .members podRegistry⟩ : Operation).target = .ok target ∧
      target.members = .ok ms := by
  have hmarks : ∀ v ∈ ({} : Settings).visitors, v.IsMark := List.forall_mem_nil _
  obtain ⟨target, htarget, hms, -⟩ :=
    exists_target_of_whole podRegistry (members_listOf h) whole hmarks
  rw [funext visit_of_no_settings, List.map_id', settled] at hms
  exact ⟨target, htarget, hms⟩

/-- A pod, and a list of a secret. -/
def laterJsons : List Json := [podJson "a", listJson [secretJson "s"]]

def laterMembers : List Resource := [pod "a", listOf [secretJson "s"]]

/-- The operation on the list of these. -/
def laterOperation : Operation := ⟨podRegistry, {}, listOf laterJsons, .members podRegistry⟩

theorem exists_target_later : ∃ target, laterOperation.target = .ok target ∧
    target.members = .ok laterMembers :=
  exists_target_listOf rfl rfl
    (List.forall_mem_cons.2 ⟨whole_pod "a", List.forall_mem_singleton.2 (whole_listOf _)⟩)

theorem holds_secret : podRegistry.Holds (listOf [secretJson "s"]) (secret "s") :=
  .inside (resolveFor_listOf _) (members_listOf rfl) List.mem_cons_self (.here _)

theorem lacks_later : ∃ m ∈ laterMembers, ∃ x, podRegistry.Holds m x ∧ podRegistry.Lacks x :=
  ⟨_, List.mem_cons_of_mem _ List.mem_cons_self, secret "s", holds_secret, lacks_secret "s"⟩

theorem resolved_later : ∀ m ∈ laterMembers, ¬ podRegistry.Lacks m :=
  List.forall_mem_cons.2 ⟨exists_resolveFor_iff.1 ⟨_, resolveFor_pod "a"⟩,
    List.forall_mem_singleton.2 (exists_resolveFor_iff.1 ⟨_, resolveFor_listOf _⟩)⟩

/-- A pod, as it is asked for. -/
def podLeaf (name : String) : Leaf := ⟨.collaborator "pods" true, none, pod name⟩

theorem surveyAll_later : podRegistry.surveyAll laterMembers =
    ⟨[podLeaf "a"], some (.handlerNotFound ⟨"Secret", "v1"⟩)⟩ := by
  have inner : podRegistry.survey none (secret "s") =
      .lacking (.handlerNotFound ⟨"Secret", "v1"⟩) :=
    survey_of_error (resolveFor_eq_error_iff.2 ⟨lacks_secret "s", rfl⟩)
  have members : (listOf [secretJson "s"]).members = .ok [secret "s"] := members_listOf rfl
  have list : podRegistry.survey none (listOf [secretJson "s"]) =
      .lacking (.handlerNotFound ⟨"Secret", "v1"⟩) := by
    rw [survey_of_members (resolveFor_listOf _) members]
    exact congrArg (fun s => Survey.join [s]) inner
  show Survey.join [podRegistry.survey none (pod "a"), podRegistry.survey none (listOf _)] = _
  rw [survey_of_remote (resolveFor_pod "a"), list]
  rfl

theorem runsEach_podLeaf : RunsEach (Leaf.ask creating) [podLeaf "a"]
    [⟨.create "pods" none (pod "a"), .ok (pod "a")⟩] [pod "a"] :=
  .singleton (Handler.runs_create "pods" true none (pod "a") (.ok (pod "a")))

theorem writable_pod : ∀ y ∈ [pod "a"], y.Writable := List.forall_mem_singleton.2 ⟨_, rfl⟩

/-- Nothing is asked for but the pod, as the list of the secret comes behind it. -/
theorem createOrReplace_lacking_secret :
    (∃ m ∈ laterMembers, ∃ x, podRegistry.Holds m x ∧ podRegistry.Lacks x) ∧
    (laterOperation.createOrReplace.run.Asks fun h e => (podLeaf "a").Own h e) ∧
    ∀ events l, ¬ laterOperation.createOrReplace.run.Runs events (.ok l) := by
  obtain ⟨target, htarget, hms⟩ := exists_target_later
  obtain ⟨ahead, f, hsurvey, -, -, asks, fails, -⟩ := createOrReplace_lacking (of_listOf laterJsons)
    (fun key hkey => by obtain rfl := Option.some.inj hkey; rfl) htarget hms lacks_later
  obtain ⟨rfl, -⟩ := Survey.mk.inj (surveyAll_later.symm.trans hsurvey)
  refine ⟨lacks_later, asks.mono fun h e ⟨l, hl, he⟩ => ?_, fails⟩
  rwa [List.mem_singleton.1 hl] at he

/-- Although a secret inside the list has no handler, the pod is created before the call fails. -/
theorem createOrReplace_before_lacking :
    (∃ m ∈ laterMembers, ∃ x, podRegistry.Holds m x ∧ podRegistry.Lacks x) ∧
    laterOperation.createOrReplace.run.Runs [⟨.create "pods" none (pod "a"), .ok (pod "a")⟩]
      (.error (.handlerNotFound ⟨"Secret", "v1"⟩)) := by
  obtain ⟨target, htarget, hms⟩ := exists_target_later
  refine ⟨lacks_later, ?_⟩
  rw [laterOperation, createOrReplace_eq htarget hms]
  exact Apply.runs_createOrReplaceMembers_lacking hms resolved_later surveyAll_later
    runsEach_podLeaf writable_pod

end Operation

end Rollout
