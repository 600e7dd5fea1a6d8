/-
  What a member of a container comes to when its leaves are kept in stores.

  A member is created leaf by leaf, up to the first leaf that is there already. Then the conflict is
  resolved for the whole member: all its leaves are replaced, or all are deleted and created again.
  This works out if the leaves agree (`Agree`): none is there yet, and no two of them have the same
  key; or all those from the first conflict on are there by then. Then each key of a leaf keeps the
  last leaf with this key (`createOrReplaceMember_settles`). A member that is a leaf itself always
  agrees (`agree_singleton`).
-/
import Rollout.Proofs.Activity.Service
import Rollout.Proofs.Apply.Convergence
import Rollout.Proofs.Apply.Members

namespace Rollout

variable {σ κ : Type}

/-! ## Leaves in stores -/

namespace Leaf

/-- The leaf, in the namespace in which it is kept. -/
def placed (l : Leaf) : Prepared := (.remote l.remote, l.resource.addressedIn l.ns)

/-- The key under which the leaf is kept. -/
def key (key : Handler → Option String → String → κ) (l : Leaf) : κ :=
  key (.remote l.remote) l.ns l.resource.name

/-- The leaf was read, and is asked for in its own namespace if it has one. -/
structure Proper (l : Leaf) : Prop where
  data : ∃ fields, l.resource.data = .obj fields
  ns : l.ns = none → l.resource.ns = none

/-- The remote of the leaf keeps it in a store, and it comes without a version. -/
structure Kept (o : Outside σ) (objects : σ → κ → Option Resource)
    (key : Handler → Option String → String → κ) (l : Leaf) : Prop where
  keeps : o.Keeps objects (key (.remote l.remote)) (.remote l.remote)
  proper : l.Proper
  unversioned : l.resource.version = none

theorem Proper.itemKey_placed {l : Leaf} (h : l.Proper) (k : Handler → Option String → String → κ) :
    Apply.itemKey k l.placed = l.key k := by
  obtain ⟨x, ns, r⟩ := l
  cases ns with
  | some ns => rfl
  | none =>
    show k (.remote x) r.ns r.name = k (.remote x) none r.name
    rw [h.ns rfl]

/-- What was kept for a leaf can be written. -/
theorem Proper.writable {l : Leaf} (h : l.Proper) {kept : Resource}
    (hkept : kept.withVersion none = (l.resource.addressedIn l.ns).withVersion none) :
    kept.Writable := by
  obtain ⟨x, ns, r⟩ := l
  obtain ⟨fields, hdata⟩ := h.data
  have data : kept.data = .obj fields := by
    have same : (kept.withVersion none).data = ((r.addressedIn ns).withVersion none).data :=
      congrArg Resource.data hkept
    refine same.trans ?_
    cases ns <;> exact hdata
  rw [Resource.Writable, Resource.toJson?, data]
  exact ⟨_, rfl⟩

end Leaf

/-- A resource that was read has an object as its data. -/
theorem Resource.data_of_ofJson? {j : Json} {r : Resource} (h : ofJson? j = some r) :
    ∃ fields, r.data = .obj fields := by
  obtain ⟨ms, -, h⟩ := Option.bind_eq_some_iff.1 h
  obtain ⟨metadata, -, h⟩ := Option.bind_eq_some_iff.1 h
  obtain rfl := Option.some.inj h
  exact ⟨_, rfl⟩

theorem Resource.data_of_mem_members {c m : Resource} {ms : List Resource} (h : c.members = .ok ms)
    (hm : m ∈ ms) : ∃ fields, m.data = .obj fields := by
  obtain ⟨items, -, hitems⟩ := Resource.members_eq_ok_iff.1 h
  obtain ⟨j, -, hread⟩ := Json.exists_of_mem_mapM hitems hm
  exact data_of_ofJson? hread

/-- The leaves inside what was read are proper. -/
theorem Registry.proper_of_mem_survey {reg : Registry} {ns : Option String} {r : Resource}
    (hdata : ∃ fields, r.data = .obj fields) (hns : ns = none → r.ns = none) {l : Leaf}
    (hl : l ∈ (reg.survey ns r).leaves) : l.Proper := by
  induction ns, r using nested_induction reg with
  | lacking ns r f hr =>
    rw [survey_of_error hr] at hl
    cases hl
  | remote ns r x hr =>
    rw [survey_of_remote hr] at hl
    obtain rfl := List.mem_singleton.1 hl
    exact ⟨hdata, hns⟩
  | unreadable ns r f hr hms =>
    rw [survey_of_unreadable hr hms] at hl
    cases hl
  | members ns r ms hr hms ih =>
    rw [survey_of_members hr hms] at hl
    obtain ⟨s, hs, hl⟩ := Survey.exists_of_mem_join hl
    obtain ⟨m, hm, rfl⟩ := List.mem_map.1 hs
    refine ih m hm (Resource.data_of_mem_members hms hm) (fun h => ?_) hl
    cases hmns : m.ns with
    | none => rfl
    | some own =>
      rw [Resource.nsWithin, hmns] at h
      cases h

namespace Apply

open Rollout.Action Handler Registry

variable {o : Outside σ} {objects : σ → κ → Option Resource}
  {key : Handler → Option String → String → κ}

/-! ## What is settled -/

section Settles

variable {before middle after : κ → Option Resource} {a b : List Prepared}

theorem Settles.ne_none (h : Settles key a before after) {p : Prepared} (hp : p ∈ a) :
    after (itemKey key p) ≠ none := by
  obtain ⟨earlier, q, later, split, hq, last⟩ := exists_last ⟨p, hp, rfl⟩
  obtain ⟨kept, hkept, -⟩ := h.named earlier q later split fun p' hp' => hq ▸ last p' hp'
  rw [← hq, hkept]
  exact Option.some_ne_none kept

theorem Settles.append (ha : Settles key a before middle) (hb : Settles key b middle after) :
    Settles key (a ++ b) before after where
  named earlier p later split last := by
    rcases List.append_eq_append_iff.1 split with ⟨rest, rfl, hrest⟩ | ⟨rest, rfl, hrest⟩
    · exact hb.named rest p later hrest last
    · cases rest with
      | nil => exact hb.named [] p later hrest.symm last
      | cons q rest =>
        obtain ⟨rfl, rfl⟩ := List.cons.inj hrest
        rw [hb.others _ fun q hq => last q (List.mem_append_right _ hq)]
        exact ha.named earlier p rest rfl fun q hq => last q (List.mem_append_left _ hq)
  others k unnamed := by
    rw [hb.others k fun p hp => unnamed p (List.mem_append_right _ hp),
      ha.others k fun p hp => unnamed p (List.mem_append_left _ hp)]

/-- What happened before under the same keys does not matter. -/
theorem Settles.absorb (hb : Settles key b middle after)
    (ha : ∀ k, (∀ p ∈ b, itemKey key p ≠ k) → middle k = before k) :
    Settles key b before after where
  named := hb.named
  others k unnamed := (hb.others k unnamed).trans (ha k unnamed)

end Settles

/-! ## Leaf by leaf -/

/-- From `w` to `w'`, the verb is carried out for the leaves in turn, and each key of a leaf keeps
the last leaf with this key. -/
def LeavesSettle (o : Outside σ) (objects : σ → κ → Option Resource)
    (key : Handler → Option String → String → κ)
    (verb : Handler → Option String → Resource → Action Resource) (ls : List Leaf)
    (w w' : World σ) : Prop :=
  ∃ events states, RunsEach (Leaf.ask verb) ls events states ∧ (∀ y ∈ states, y.Writable) ∧
    o.Serves w events w' ∧
    Settles key (ls.map Leaf.placed) (objects w.state) (objects w'.state)

variable {verb : Handler → Option String → Resource → Action Resource} {l : Leaf} {ls : List Leaf}
  {w w₁ w' : World σ}

theorem LeavesSettle.nil (w : World σ) : LeavesSettle o objects key verb [] w w :=
  ⟨[], [], .nil, List.forall_mem_nil _, .nil w, settles_nil _⟩

theorem LeavesSettle.cons {kept : Resource} (hl : l.Kept o objects key)
    (hrun : (l.ask verb).run.LeadsTo o w w₁ (.ok kept))
    (hkept : kept.withVersion none = (l.resource.addressedIn l.ns).withVersion none)
    (hwrites : Writes (l.key key) kept (objects w.state) (objects w₁.state))
    (hls : LeavesSettle o objects key verb ls w₁ w') :
    LeavesSettle o objects key verb (l :: ls) w w' := by
  obtain ⟨first, hfirst, hserves⟩ := Program.leadsTo_iff.1 hrun
  obtain ⟨rest, states, hruns, hstates, hrest, hsettles⟩ := hls
  have unversioned : (l.resource.addressedIn l.ns).version = none := by
    obtain ⟨x, ns, r⟩ := l
    cases ns <;> exact hl.unversioned
  refine ⟨first ++ rest, kept :: states, .cons hfirst hruns,
    List.forall_mem_cons.2 ⟨hl.proper.writable hkept, hstates⟩, hserves.append hrest, ?_⟩
  rw [← hl.proper.itemKey_placed key] at hwrites
  exact .cons hwrites (hkept.trans (Resource.withVersion_none unversioned)) hsettles

/-- Leaves of which none is there are created, if no two have the same key. -/
theorem leavesSettle_creating (hls : ∀ l ∈ ls, l.Kept o objects key)
    (distinct : (ls.map (Leaf.key key)).Nodup) (w : World σ)
    (absent : ∀ l ∈ ls, objects w.state (l.key key) = none) :
    ∃ w', LeavesSettle o objects key creating ls w w' := by
  induction ls generalizing w with
  | nil => exact ⟨w, .nil w⟩
  | cons l ls ih =>
    obtain ⟨hl, hls⟩ := List.forall_mem_cons.1 hls
    obtain ⟨hnone, habsent⟩ := List.forall_mem_cons.1 absent
    obtain ⟨hnew, hdistinct⟩ := List.nodup_cons.1 distinct
    obtain ⟨w₁, kept, hrun, hkept, hwrites⟩ := hl.keeps.creates w l.ns l.resource hnone
    obtain ⟨w', hsettle⟩ := ih hls hdistinct w₁ fun l' hl' => by
      have apart : l'.key key ≠ l.key key := fun heq => hnew (heq ▸ List.mem_map_of_mem hl')
      exact (hwrites.others _ apart).trans (habsent l' hl')
    rw [← Resource.withVersion_none hl.unversioned] at hrun
    exact ⟨w', .cons hl hrun hkept hwrites hsettle⟩

/-- Leaves that are all there are replaced. -/
theorem leavesSettle_replace (hls : ∀ l ∈ ls, l.Kept o objects key) (w : World σ)
    (present : ∀ l ∈ ls, objects w.state (l.key key) ≠ none) :
    ∃ w', LeavesSettle o objects key Handler.replace ls w w' := by
  induction ls generalizing w with
  | nil => exact ⟨w, .nil w⟩
  | cons l ls ih =>
    obtain ⟨hl, hls⟩ := List.forall_mem_cons.1 hls
    obtain ⟨hthere, hpresent⟩ := List.forall_mem_cons.1 present
    obtain ⟨w₁, kept, hrun, hkept, hwrites⟩ :=
      hl.keeps.replaces w l.ns l.resource hl.unversioned hthere
    obtain ⟨w', hsettle⟩ := ih hls w₁ fun l' hl' => by
      by_cases heq : l'.key key = l.key key
      · rw [heq, show objects w₁.state (l.key key) = some kept from hwrites.kept]
        exact Option.some_ne_none kept
      · rw [show objects w₁.state (l'.key key) = _ from hwrites.others _ heq]
        exact hpresent l' hl'
    exact ⟨w', .cons hl hrun hkept hwrites hsettle⟩

/-- Leaves that are all there are deleted, if no two have the same key. -/
theorem leavesDelete (options : DeleteOptions) (hls : ∀ l ∈ ls, l.Kept o objects key)
    (distinct : (ls.map (Leaf.key key)).Nodup) (w : World σ)
    (present : ∀ l ∈ ls, objects w.state (l.key key) ≠ none) :
    ∃ events answers w', RunsEach (Leaf.ask (deleting options)) ls events answers ∧
      (∀ y ∈ answers, y = true) ∧ o.Serves w events w' ∧
      (∀ l ∈ ls, objects w'.state (l.key key) = none) ∧
      ∀ k, (∀ l ∈ ls, l.key key ≠ k) → objects w'.state k = objects w.state k := by
  induction ls generalizing w with
  | nil =>
    exact ⟨[], [], w, .nil, List.forall_mem_nil _, .nil w, List.forall_mem_nil _, fun _ _ => rfl⟩
  | cons l ls ih =>
    obtain ⟨hl, hls⟩ := List.forall_mem_cons.1 hls
    obtain ⟨hthere, hpresent⟩ := List.forall_mem_cons.1 present
    obtain ⟨hnew, hdistinct⟩ := List.nodup_cons.1 distinct
    obtain ⟨w₁, hrun, hgone, hothers⟩ := hl.keeps.deletes w l.ns options l.resource
    have there : (objects w.state (key (.remote l.remote) l.ns l.resource.name)).isSome = true :=
      Option.isSome_iff_ne_none.2 hthere
    rw [there] at hrun
    have apart (l' : Leaf) (hl' : l' ∈ ls) : l'.key key ≠ l.key key :=
      fun heq => hnew (heq ▸ List.mem_map_of_mem hl')
    obtain ⟨first, hfirst, hserves⟩ := Program.leadsTo_iff.1 hrun
    obtain ⟨rest, answers, w', hruns, hanswers, hrest, hgones, hrests⟩ :=
      ih hls hdistinct w₁ fun l' hl' => by
        rw [hothers _ (apart l' hl')]
        exact hpresent l' hl'
    refine ⟨first ++ rest, true :: answers, w', .cons hfirst hruns,
      List.forall_mem_cons.2 ⟨rfl, hanswers⟩, hserves.append hrest,
      List.forall_mem_cons.2 ⟨?_, hgones⟩, fun k hk => ?_⟩
    · exact (hrests _ apart).trans hgone
    · obtain ⟨hlk, hk⟩ := List.forall_mem_cons.1 hk
      exact (hrests k hk).trans (hothers k hlk.symm)

/-! ## Members -/

/-- The leaves of one member, which have these keys, can be applied together: none is there yet, and
no two have the same key; or, up to some of them, none is there yet, and from there on all are there
already or have come along before. If what is there is deleted, no two may have the same key. -/
def Agree (deleting : Bool) (there : κ → Prop) (keys : List κ) : Prop :=
  (keys.Nodup ∧ ∀ k ∈ keys, ¬ there k) ∨
  (deleting = true → keys.Nodup) ∧ ∃ before k after, keys = before ++ k :: after ∧ before.Nodup ∧
    (∀ k ∈ before, ¬ there k) ∧ ∀ k' ∈ k :: after, there k' ∨ k' ∈ before

/-- A member that is a leaf itself can be applied whether it is there or not. -/
theorem agree_singleton (deleting : Bool) (there : κ → Prop) (k : κ) :
    Agree deleting there [k] := by
  by_cases h : there k
  · exact .inr ⟨fun _ => List.pairwise_singleton _ k, [], k, [], rfl, .nil, List.forall_mem_nil _,
      List.forall_mem_singleton.2 (.inl h)⟩
  · exact .inl ⟨List.pairwise_singleton _ k, List.forall_mem_singleton.2 h⟩

variable {reg : Registry} {options : ApplyOptions} {m : Resource}

/-- What a verb comes to for the leaves of a member it comes to for the member. -/
theorem LeavesSettle.ends {ns : Option String} (ht : reg.Traverses verb (fun _ => True)
      Resource.Writable) (hsurvey : reg.survey ns m = ⟨ls, none⟩)
    (h : LeavesSettle o objects key verb ls w w') :
    ∃ events state, (reg.ask verb ns m).run.Runs events (.ok state) ∧ state.Writable ∧
      o.Serves w events w' ∧
      Settles key (ls.map Leaf.placed) (objects w.state) (objects w'.state) := by
  obtain ⟨events, states, hruns, hstates, hserves, hsettles⟩ := h
  obtain ⟨state, hrun, hstate⟩ := ht.ends_of_survey hsurvey (.of_runsEach hruns hstates none)
  exact ⟨events, state, hrun, hstate, hserves, hsettles⟩

/-- The keys that no placed leaf has are those that no leaf has. -/
theorem unnamed_iff (hls : ∀ l ∈ ls, l.Kept o objects key) {k : κ} :
    (∀ p ∈ ls.map Leaf.placed, itemKey key p ≠ k) ↔ ∀ l ∈ ls, l.key key ≠ k := by
  rw [List.forall_mem_map]
  refine forall₂_congr fun l hl => ?_
  rw [(hls l hl).proper.itemKey_placed]

/-- What is there once leaves are settled was there before, or is one of them. -/
theorem Settles.there_iff {before after : κ → Option Resource}
    (hls : ∀ l ∈ ls, l.Kept o objects key)
    (h : Settles key (ls.map Leaf.placed) before after) (k : κ) :
    after k ≠ none ↔ before k ≠ none ∨ k ∈ ls.map (Leaf.key key) := by
  by_cases hk : k ∈ ls.map (Leaf.key key)
  · refine iff_of_true ?_ (.inr hk)
    obtain ⟨l, hl, rfl⟩ := List.mem_map.1 hk
    rw [← (hls l hl).proper.itemKey_placed]
    exact h.ne_none (List.mem_map_of_mem hl)
  · rw [h.others k ((unnamed_iff hls).2 fun l hl heq => hk (heq ▸ List.mem_map_of_mem hl))]
    exact (or_iff_left hk).symm

/-- The creation of a member meets a conflict with the first leaf that is there. If the leaves
behind are there as well, or have come along before, all of them are there then. -/
theorem creating_conflict {ns : Option String} (hsurvey : reg.survey ns m = ⟨ls, none⟩)
    (hls : ∀ l ∈ ls, l.Kept o objects key) (w : World σ) {before after : List κ} {k : κ}
    (hkeys : ls.map (Leaf.key key) = before ++ k :: after) (distinct : before.Nodup)
    (absent : ∀ k ∈ before, objects w.state k = none)
    (present : ∀ k' ∈ k :: after, objects w.state k' ≠ none ∨ k' ∈ before) :
    ∃ events f w₁, (reg.ask creating ns m).run.Runs events (.error f) ∧ f.FromConflict ∧
      o.Serves w events w₁ ∧ (∀ l ∈ ls, objects w₁.state (l.key key) ≠ none) ∧
      ∀ k, (∀ l ∈ ls, l.key key ≠ k) → objects w₁.state k = objects w.state k := by
  obtain ⟨fresh, rest, rfl, rfl, hrest⟩ := List.map_eq_append_iff.1 hkeys
  obtain ⟨l, last, rfl, rfl, rfl⟩ := List.map_eq_cons_iff.1 hrest
  have hl := hls l (List.mem_append_right _ List.mem_cons_self)
  have hfresh : ∀ l ∈ fresh, l.Kept o objects key := fun l hl => hls l (List.mem_append_left _ hl)
  obtain ⟨w₁, first, states, hruns, hstates, hserves, hsettles⟩ :=
    leavesSettle_creating hfresh distinct w fun l hl => absent _ (List.mem_map_of_mem hl)
  have there : ∀ l' ∈ fresh ++ l :: last, objects w₁.state (l'.key key) ≠ none := by
    intro l' hl'
    refine (hsettles.there_iff hfresh _).2 ?_
    rcases List.mem_append.1 hl' with hl' | hl'
    · exact .inr (List.mem_map_of_mem hl')
    · exact present _ (List.mem_map_of_mem hl')
  obtain ⟨w₂, status, hrefused, hcode, hobjects⟩ :=
    hl.keeps.refuses w₁ l.ns l.resource (there l (List.mem_append_right _ List.mem_cons_self))
  rw [← Resource.withVersion_none hl.unversioned] at hrefused
  obtain ⟨second, hsecond, hserves'⟩ := Program.leadsTo_iff.1 hrefused
  have hsecond : (l.ask creating).run.Runs second (.error (.api (.refused status))) := hsecond
  have failed := (traverses_creating reg).ends_of_survey hsurvey
    (.after hruns hstates (.failed hsecond last none))
  refine ⟨_, _, w₂, failed, .refused status hcode,
    hserves.append hserves', ?_, ?_⟩
  all_goals rw [hobjects]
  · exact there
  · exact fun k' hk' => hsettles.others k' ((unnamed_iff hfresh).2 fun l' hl' =>
      hk' l' (List.mem_append_left _ hl'))

/-- A conflict is resolved for all leaves of a member if all are there. -/
theorem resolveConflict_settles {handler : Handler} (hr : reg.resolveFor m = .ok handler)
    (hsurvey : reg.survey m.ns m = ⟨ls, none⟩) (hls : ∀ l ∈ ls, l.Kept o objects key) (w : World σ)
    (present : ∀ l ∈ ls, objects w.state (l.key key) ≠ none)
    (distinct : options.deletingExisting = true → (ls.map (Leaf.key key)).Nodup) :
    ∃ events state w', (resolveConflict handler options m).run.Runs events (.ok state) ∧
      state.Writable ∧ o.Serves w events w' ∧
      Settles key (ls.map Leaf.placed) (objects w.state) (objects w'.state) := by
  cases ho : options.deletingExisting with
  | false =>
    obtain ⟨w', hreplace⟩ := leavesSettle_replace hls w present
    obtain ⟨events, state, hrun, hstate, hserves, hsettles⟩ :=
      hreplace.ends (traverses_replace reg) hsurvey
    rw [ask_of_ok hr] at hrun
    exact ⟨events, state, w', (runs_resolveConflict_iff _ _ _ _ _).2
      ⟨_, .replaced ho _, conducts_singleton_iff.2 hrun⟩, hstate, hserves, hsettles⟩
  | true =>
    have distinct := distinct ho
    obtain ⟨first, answers, w₁, hruns, hanswers, hserves, hgone, hothers⟩ :=
      leavesDelete options.deletion hls distinct w present
    obtain ⟨w', hcreate⟩ := leavesSettle_creating hls distinct w₁ hgone
    obtain ⟨second, state, hrun, hstate, hserves', hsettles⟩ :=
      hcreate.ends (traverses_creating reg) hsurvey
    -- What is deleted goes without a version, which makes no difference to the leaves.
    have hsurvey' : reg.survey m.ns (m.withVersion none) = ⟨ls, none⟩ := by
      rcases survey_withVersion reg m.ns m none with same | ⟨x, hsingle, hsingle'⟩
      · exact same.trans hsurvey
      · obtain ⟨rfl, -⟩ := Survey.mk.inj (hsingle.symm.trans hsurvey)
        have unversioned := (hls _ (List.mem_singleton_self _)).unversioned
        rw [hsingle', Resource.withVersion_none unversioned]
        rfl
    obtain ⟨_, hdelete, rfl⟩ := (traverses_deleting reg options.deletion).ends_of_survey hsurvey'
      (.of_runsEach hruns hanswers none)
    have hr' : reg.resolveFor (m.withVersion none) = .ok handler := hr
    rw [ask_of_ok hr'] at hdelete
    rw [ask_of_ok hr] at hrun
    exact ⟨first ++ second, state, w', (runs_resolveConflict_iff _ _ _ _ _).2
      ⟨_, .recreated ho _, .cons hdelete (conducts_singleton_iff.2 hrun)⟩, hstate,
      hserves.append hserves', hsettles.absorb fun k hk => hothers k ((unnamed_iff hls).1 hk)⟩

/-- If the leaves of a member agree, the member can be applied, and the keys of its leaves keep the
last leaf each. -/
theorem createOrReplaceMember_settles (hsurvey : reg.survey m.ns m = ⟨ls, none⟩)
    (hls : ∀ l ∈ ls, l.Kept o objects key) (w : World σ)
    (agree : Agree options.deletingExisting (fun k => objects w.state k ≠ none)
      (ls.map (Leaf.key key))) :
    ∃ events w', (createOrReplaceMember reg options m).Ends Resource.Writable events none ∧
      o.Serves w events w' ∧
      Settles key (ls.map Leaf.placed) (objects w.state) (objects w'.state) := by
  obtain ⟨handler, hr⟩ : ∃ handler, reg.resolveFor m = .ok handler := by
    cases hr : reg.resolveFor m with
    | error f => cases (survey_of_error hr).symm.trans hsurvey
    | ok handler => exact ⟨handler, rfl⟩
  rw [createOrReplaceMember, hr, ofExcept_bind]
  rcases agree with
    ⟨distinct, absent⟩ | ⟨hdistinct, before, k, after, hkeys, hnodup, habsent, hthere⟩
  · obtain ⟨w', hsettle⟩ := leavesSettle_creating hls distinct w fun l hl =>
      not_not.1 (absent _ (List.mem_map_of_mem hl))
    obtain ⟨events, state, hrun, hstate, hserves, hsettles⟩ :=
      hsettle.ends (traverses_creating reg) hsurvey
    rw [ask_of_ok hr] at hrun
    exact ⟨events, w', ⟨state, runs_createOrReplace_of_ok hrun, hstate⟩, hserves, hsettles⟩
  · obtain ⟨first, f, w₁, hcreate, hf, hserves, present, hothers⟩ := creating_conflict hsurvey hls w
      hkeys hnodup (fun k hk => not_not.1 (habsent k hk)) hthere
    obtain ⟨second, state, w', hresolve, hstate, hserves', hsettles⟩ :=
      resolveConflict_settles hr hsurvey hls w₁ present hdistinct
    obtain ⟨exchanges, hd, hc⟩ := (runs_resolveConflict_iff _ _ _ _ _).1 hresolve
    rw [ask_of_ok hr] at hcreate
    exact ⟨first ++ second, w', ⟨state, (runs_createOrReplace_iff _ _ _ _ _).2
      ⟨_, .conflict hf hd, .cons hcreate hc⟩, hstate⟩, hserves.append hserves',
      hsettles.absorb fun k hk => hothers k ((unnamed_iff hls).1 hk)⟩

end Apply

end Rollout
