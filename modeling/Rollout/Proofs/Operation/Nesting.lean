/-
  In which namespace the resources inside nested containers are applied.

  The pipeline gives each member of a container its namespace: the explicit one, else the one that
  the member has, else the fallback (`Settings.namespaceFor`). A member that is a container in its
  turn is given one as well, but what is inside it is left alone. It is applied in its own
  namespace, and what has none in that of the innermost container around it that has one, out to
  the member (`createOrReplace_nested`). So the precedence holds for the members themselves, and
  further down the explicit namespace gives way to one that a resource has (`explicit_gives_way`).
-/
import Rollout.Proofs.Handler.Errand
import Rollout.Proofs.Operation.ContainerApply

namespace Rollout

/-! ## Precedence -/

/-- The namespace for a resource that has `own`: the explicit one, else its own, else the fallback,
empty ones counting as absent. What is given none is left as it is. -/
def Settings.namespaceFor (s : Settings) (own : Option String) : Option String :=
  given s.explicitNamespace <|> given own <|> given s.fallbackNamespace <|> own

namespace Visitor

/-- The visitor sets a label or an annotation. -/
def IsTag : Visitor → Prop
  | .label .. | .annotate .. => True
  | _ => False

theorem IsTag.isMark {v : Visitor} (h : v.IsTag) : v.IsMark := by
  cases v with
  | edit => cases h
  | _ => trivial

theorem IsTag.ns_visit {v : Visitor} (h : v.IsTag) (r : Resource) : (v.visit r).ns = r.ns := by
  cases v with
  | label | annotate => rfl
  | _ => cases h

end Visitor

/-- The pipeline puts a resource into the namespace for it. -/
theorem Settings.ns_visit {s : Settings} (htags : ∀ v ∈ s.visitors, v.IsTag) (r : Resource) :
    (s.pipeline.visit r).ns = s.namespaceFor r.ns := by
  have tagged (vs : List Visitor) (hvs : ∀ v ∈ vs, v.IsTag) (r : Resource) :
      (vs.foldl (fun r v => v.visit r) r).ns = r.ns := by
    induction vs generalizing r with
    | nil => rfl
    | cons v vs ih =>
      obtain ⟨hv, hvs⟩ := List.forall_mem_cons.1 hvs
      exact (ih hvs (v.visit r)).trans (hv.ns_visit r)
  rw [pipeline, Pipeline.visit_of, namespaceFor, ← tagged s.visitors htags r]
  rfl

/-! ## Leaves -/

/-- Of what is no container, nothing is reached but itself. -/
theorem Errand.OfLeaf.of_not_list {reg : Registry} {r : Resource} {ns : Option String} {h : Handler}
    {e : Errand} (he : Errand.OfLeaf reg r ns h e) (plain : isListKind r.kind = false) :
    reg.resolveFor r = .ok h ∧ e.Concerns r ∧ e.ns = ns := by
  obtain ⟨path, leaf, x, hreaches, rfl, hconcerns, hns⟩ := he
  cases hreaches with
  | here hr => exact ⟨hr, hconcerns, hns⟩
  | inside hr =>
    cases plain.symm.trans (Registry.eq_of_resolveFor_members hr).1

namespace Operation

/-- Creating or replacing a container comes down to creating, replacing and deleting the resources
inside it, at any depth. The settings give each member its namespace, and a resource inside a member
is addressed in the namespace of the innermost resource on the way to it that has one, or else in
that of the member. So a member that is no container is addressed in the namespace that is given
to it. The members are those that are written, to the second. -/
theorem createOrReplace_nested {reg : Registry} {s : Settings} {c : Resource} {op : Operation}
    (hop : Operation.of reg s c = .ok op)
    (unregistered : ∀ key, ResourceKey.of? c = some key → reg.find? key = none)
    (ordered : ∀ items fields, c.rawMembers? = some items → Json.obj fields ∈ items →
      Entries.Ordered fields)
    (htags : ∀ v ∈ s.visitors, v.IsTag) :
    (op.createOrReplace.run.Asks fun h e => ∃ ms m, c.members = .ok ms ∧ m ∈ ms ∧
      Errand.OfLeaf reg (s.pipeline.visit m).settled (s.namespaceFor m.ns) h e) ∧
    ∀ ms, c.members = .ok ms → (∀ m ∈ ms, isListKind m.kind = false) →
      op.createOrReplace.run.Asks fun h e => ∃ m ∈ ms, reg.resolveFor m = .ok h ∧
        e.Concerns (s.pipeline.visit m).settled ∧ e.ns = s.namespaceFor m.ns := by
  obtain ⟨rfl, container⟩ := eq_of_unregistered hop unregistered
  have hmarks : ∀ v ∈ s.pipeline.visitors, v.IsMark :=
    isMark_of_mem_pipeline fun v hv => (htags v hv).isMark
  have nested : (⟨reg, s, c, .members reg⟩ : Operation).createOrReplace.run.Asks fun h e =>
      ∃ ms m, c.members = .ok ms ∧ m ∈ ms ∧
        Errand.OfLeaf reg (s.pipeline.visit m).settled (s.namespaceFor m.ns) h e := by
    refine Action.asks_ofExcept_bind fun target htarget => ?_
    obtain ⟨ms, hms, hwith⟩ := exists_members_of_target htarget
    rw [if_pos ((congrArg isListKind (eq_of_target htarget).1).trans container)]
    refine Action.asks_ofExcept_bind fun ms' hms' => Action.asks_ofExcept_bind
      fun handlers hhandlers => ?_
    -- As all members that are read back have a handler, they are those that went out, settled.
    obtain rfl : ms' = (ms.map s.pipeline.visit).map Resource.settled := by
      obtain ⟨items, hwrite, hread⟩ := Resource.reread_of_withMembers hwith hms'
      refine Resource.eq_of_reread (fun m hm => ?_) hwrite hread fun m hm => ?_
      · obtain ⟨m', hm', rfl⟩ := List.mem_map.1 hm
        exact (Resource.whole_or_untyped_of_members hms ordered m' hm').imp
          (Pipeline.whole_visit hmarks) (Pipeline.untyped_visit hmarks)
      · obtain ⟨handler, hhandler⟩ := exists_of_mapM_eq_ok hhandlers hm
        obtain ⟨t, ht⟩ := Registry.exists_types_of_resolveFor hhandler
        exact ht ▸ nofun
    refine Action.asks_bind (Action.asks_mapM fun ⟨h, m⟩ hmem => ?_) fun _ => Program.asks_done _
    obtain ⟨_, hvisited, rfl⟩ := List.mem_map.1 (List.of_mem_zip hmem).2
    obtain ⟨m, hm, rfl⟩ := List.mem_map.1 hvisited
    refine (Apply.asks_createOrReplace h _ _).refine ?_
    rintro _ e ⟨rfl, he, hns⟩
    refine (Handler.asks_carryOut (of_mem_zip_of_mapM_eq_ok hhandlers hmem) he).mono ?_
    intro h' e' hleaf
    have own : (s.pipeline.visit m).settled.ns = s.namespaceFor m.ns := Settings.ns_visit htags m
    rw [hns, own] at hleaf
    exact ⟨ms, m, hms, hm, hleaf⟩
  refine ⟨nested, fun ms hms plain => nested.mono ?_⟩
  rintro h e ⟨ms', m, hms', hm, hleaf⟩
  obtain rfl := Except.ok.inj (hms.symm.trans hms')
  obtain ⟨metadata, hvisit, -⟩ := Pipeline.visit_eq hmarks m
  obtain ⟨hresolve, hconcerns, hns⟩ := hleaf.of_not_list (hvisit ▸ plain m hm)
  rw [hvisit] at hresolve
  have own := Registry.resolveFor_withMetadata m.metadata hresolve
  exact ⟨m, hm, own, hconcerns, hns⟩

/-! ## Pods in a list in a list -/

open BatchTerms (pod podRegistry resolveFor_pod)

def innerJson (member : Json) : Json :=
  .obj [("apiVersion", .str "v1"), ("items", .arr [member]), ("kind", .str "PodList")]

/-- A list of one pod. -/
def innerList (member : Json) : Resource :=
  ⟨some ⟨"v1", "PodList"⟩, {}, .obj [("items", .arr [member])]⟩

/-- A list of a list of one pod. -/
def nestedList (member : Json) : Resource :=
  ⟨some ⟨"v1", "List"⟩, {}, .obj [("items", .arr [innerJson member])]⟩

theorem rawMembers?_nestedList (member : Json) :
    (nestedList member).rawMembers? = some [innerJson member] :=
  Resource.rawMembers?_eq_some_iff.2 ⟨_, _, rfl, isListKind_list, rfl, rfl⟩

theorem members_nestedList (member : Json) :
    (nestedList member).members = .ok [innerList member] :=
  Resource.members_eq_ok_iff.2 ⟨_, rawMembers?_nestedList member, rfl⟩

/-- A list of one pod has it as its member, whatever its metadata. -/
theorem members_innerList {member : Json} {m : Resource} (h : Resource.ofJson? member = some m)
    (metadata : Metadata) : { innerList member with metadata := metadata }.members = .ok [m] := by
  refine Resource.members_eq_ok_iff.2
    ⟨_, Resource.rawMembers?_eq_some_iff.2 ⟨_, _, rfl, isListKind_podList, rfl, rfl⟩, ?_⟩
  rw [List.mapM_cons, h]
  rfl

theorem of_nestedList (s : Settings) (member : Json) :
    Operation.of podRegistry s (nestedList member) =
      .ok ⟨podRegistry, s, nestedList member, .members podRegistry⟩ :=
  of_eq_ok (Registry.resolveFor_of_isList rfl rfl isListKind_list)

theorem ordered_nestedList (member : Json) (items : List Json) (fields : Entries Json)
    (hraw : (nestedList member).rawMembers? = some items) (hfields : Json.obj fields ∈ items) :
    Entries.Ordered fields := by
  obtain rfl := Option.some.inj ((rawMembers?_nestedList member).symm.trans hraw)
  obtain rfl := Json.obj.inj (List.mem_singleton.1 hfields)
  obtain ⟨hvi, hvk, hik⟩ : "apiVersion" < "items" ∧ "apiVersion" < "kind" ∧ "items" < "kind" := by
    decide
  exact .cons (List.forall_mem_cons.2 ⟨hvi, List.forall_mem_singleton.2 hvk⟩)
    (.cons (List.forall_mem_singleton.2 hik) (List.pairwise_singleton _ _))

/-- The explicit namespace reaches a pod inside a list in a list that has no namespace. -/
theorem createOrReplace_nested_pod : ∃ op,
    Operation.of podRegistry labelling (nestedList (podJson "a")) = .ok op ∧
    (∀ v ∈ labelling.visitors, v.IsTag) ∧
    op.createOrReplace.run.Asks fun _ e => e.ns = some "prod" := by
  have htags : ∀ v ∈ labelling.visitors, v.IsTag := List.forall_mem_singleton.2 trivial
  refine ⟨_, of_nestedList labelling _, htags, ?_⟩
  refine (createOrReplace_nested (of_nestedList labelling (podJson "a"))
    (fun key hkey => by obtain rfl := Option.some.inj hkey; rfl)
    (ordered_nestedList (podJson "a")) htags).1.mono ?_
  rintro h e ⟨ms, m, hms, hm, path, leaf, x, hreaches, -, -, hns⟩
  obtain rfl := Except.ok.inj ((members_nestedList _).symm.trans hms)
  obtain rfl := List.mem_singleton.1 hm
  rw [hns]
  cases hreaches with
  | here => rfl
  | @inside _ m _ ms path _ _ hms hm hreaches =>
    have opened : (labelling.pipeline.visit (innerList (podJson "a"))).members = .ok [pod "a"] :=
      members_innerList rfl _
    obtain rfl := Except.ok.inj (opened.symm.trans hms)
    obtain rfl := List.mem_singleton.1 hm
    cases hreaches with
    | here => rfl
    | inside hr => cases (resolveFor_pod "a").symm.trans hr

/-- A pod that is in a namespace. -/
def devPod : Resource := (pod "a").withNamespace "dev"

def devPodJson : Json := .obj [("apiVersion", .str "v1"), ("kind", .str "Pod"),
  ("metadata", .obj [("name", .str "a"), ("namespace", .str "dev")])]

/-- What goes out is to be in one namespace. -/
def toProd : Settings := { explicitNamespace := some "prod" }

/-- The list inside, as it goes out. -/
def prodList : Resource := (innerList devPodJson).withNamespace "prod"

theorem resolveFor_prodList : podRegistry.resolveFor prodList = .ok (.members podRegistry) :=
  Registry.resolveFor_of_isList rfl rfl isListKind_podList

theorem whole_innerList (member : Json) : (innerList member).Whole := by
  refine ⟨⟨_, rfl⟩, ⟨nofun, nofun, nofun, nofun, nofun⟩, [("items", .arr [member])], rfl,
    List.pairwise_singleton _ _, fun key hkey => if_neg fun heq => ?_⟩
  subst heq
  exact absurd hkey (by decide)

theorem runs_create_prodList : ((Handler.members podRegistry).meet
    (.create (some "prod") prodList)).Runs
      [⟨.create "pods" (some "dev") devPod, .ok devPod⟩] (.ok prodList) := by
  have members : prodList.members = .ok [devPod] := members_innerList rfl _
  have put : prodList.withMembers [devPod] = .ok prodList := rfl
  show ((Handler.members podRegistry).create _ _).run.Runs _ _
  rw [Handler.create_members, members, Action.ofExcept_bind]
  have created := Handler.runs_create "pods" true (some "dev") devPod (.ok devPod)
  exact Action.runs_bind_ok_iff.2 ⟨_, [], [devPod], (List.append_nil _).symm,
    Action.runs_mapM_ok_iff.2 (.singleton created), Action.runs_ofExcept_iff.2 ⟨rfl, put.symm⟩⟩

/-- The explicit namespace does not reach a pod inside a list in a list that has another one. -/
theorem explicit_gives_way : ∃ l, (⟨podRegistry, toProd, nestedList devPodJson,
    .members podRegistry⟩ : Operation).createOrReplace.run.Runs
      [⟨.create "pods" (some "dev") devPod, .ok devPod⟩] (.ok l) := by
  have hmarks : ∀ v ∈ toProd.visitors, v.IsMark := List.forall_mem_nil _
  have whole := whole_innerList devPodJson
  obtain ⟨target, htarget, hmembers, hput⟩ := exists_target_of_whole podRegistry
    (members_nestedList devPodJson) (List.forall_mem_singleton.2 whole) hmarks
  have hmembers : target.members = .ok [prodList] := hmembers
  have resolved : [prodList].mapM podRegistry.resolveFor = .ok [.members podRegistry] :=
    mapM_eq_ok_cons_iff.2 ⟨_, [], resolveFor_prodList, rfl, rfl⟩
  have applied : (Apply.createOrReplace (.members podRegistry) (.of toProd) prodList).run.Runs
      [⟨.create "pods" (some "dev") devPod, .ok devPod⟩] (.ok prodList) :=
    (Apply.runs_createOrReplace_iff _ _ _ _ _).2
      ⟨_, .settled _ nofun, Handler.conducts_singleton_iff.2 runs_create_prodList⟩
  obtain ⟨l, hl, -⟩ := Resource.withMembers_of_whole (members_nestedList devPodJson)
    (List.forall_mem_singleton.2 (Pipeline.whole_visit (isMark_of_mem_pipeline hmarks) whole))
  refine ⟨l, ?_⟩
  rw [createOrReplace, htarget, Action.ofExcept_bind,
    if_pos (Resource.isListKind_of_members hmembers), Apply.createOrReplaceMembers, hmembers,
    Action.ofExcept_bind, resolved, Action.ofExcept_bind]
  refine Action.runs_bind_ok_iff.2 ⟨_, [], [prodList], (List.append_nil _).symm,
    Action.runs_mapM_ok_iff.2 (.singleton applied), Action.runs_ofExcept_iff.2 ⟨rfl, ?_⟩⟩
  rw [hput]
  exact hl.symm

end Operation

end Rollout
