/-
  The slots of a batch: every resource has one outcome, at its place, and it is its own.

  In whatever order the tasks finish, get lost or are cut off, the outcome at a place is what the
  wait for the resource at that place reported, and without a report it is that very resource, with
  no failure (`Slots`). So the matched, the skipped and the unmatched resources part the batch and
  keep its order (`WaitReport.Parts`), and the order in which the tasks finish does not show in the
  report. All of this needs a batch that gets going: its deadline has to be an instant of the clock,
  and there is a largest number of permits (`BatchTerms.Fits`).
-/
import Rollout.Proofs.Wait.Terms

namespace Rollout

/-! ## Parts of a report -/

/-- The resource, if it was skipped. -/
def WaitOutcome.skipped? : WaitOutcome → Option Resource
  | skipped given => some given
  | _ => none

def WaitReport.skipped (r : WaitReport) : List Resource := r.outcomes.filterMap WaitOutcome.skipped?

/-- The places of a batch fall into those of the matched, of the skipped and of the unmatched, each
of them in order. A matched place has a state, the other ones have the resources given there. -/
def WaitReport.Parts (r : WaitReport) (rs : List Resource) : Prop :=
  ∃ matched skipped unmatched : List Nat,
    matched.Sublist (List.range rs.length) ∧ skipped.Sublist (List.range rs.length) ∧
    unmatched.Sublist (List.range rs.length) ∧
    (matched ++ (skipped ++ unmatched)).Perm (List.range rs.length) ∧
    r.matched.map some = matched.map (fun i => r.outcomes[i]?.bind WaitOutcome.matched?) ∧
    r.skipped.map some = skipped.map (fun i => rs[i]?) ∧
    r.unmatched.map some = unmatched.map (fun i => rs[i]?)

/-- The places at which `f` has a value. -/
def places {β γ : Type} (f : β → Option γ) (l : List β) : List Nat :=
  (List.range l.length).filter fun i => (l[i]?.bind f).isSome

theorem map_range_getElem? {β γ : Type} (f : β → Option γ) (l : List β) :
    (List.range l.length).map (fun i => l[i]?.bind f) = l.map f := by
  refine List.ext_getElem (by simp) fun i hi hi' => ?_
  rw [List.length_map, List.length_range] at hi
  simp [List.getElem?_eq_getElem hi]

theorem map_some_filterMap {β γ : Type} (f : β → Option γ) (l : List β) :
    (l.filterMap f).map some = (places f l).map fun i => l[i]?.bind f := by
  rw [List.map_filterMap_some_eq_filter_map_isSome, ← map_range_getElem? f l, List.filter_map]
  rfl

namespace WaitOutcome

/-- An outcome is matched, skipped or unmatched. -/
theorem isSome_unmatched? (o : WaitOutcome) :
    o.unmatched?.isSome = (!o.matched?.isSome && !o.skipped?.isSome) := by cases o <;> rfl

theorem isSome_skipped? (o : WaitOutcome) :
    o.skipped?.isSome = (!o.matched?.isSome && o.skipped?.isSome) := by cases o <;> rfl

end WaitOutcome

theorem perm_places (os : List WaitOutcome) :
    (places WaitOutcome.matched? os ++
      (places WaitOutcome.skipped? os ++ places WaitOutcome.unmatched? os)).Perm
        (List.range os.length) := by
  have at? {i : Nat} (hi : i ∈ List.range os.length) : ∃ o, os[i]? = some o :=
    ⟨_, List.getElem?_eq_getElem (List.mem_range.1 hi)⟩
  have skipped : places WaitOutcome.skipped? os =
      ((List.range os.length).filter fun i => !(os[i]?.bind WaitOutcome.matched?).isSome).filter
        fun i => (os[i]?.bind WaitOutcome.skipped?).isSome := by
    rw [List.filter_filter]
    refine List.filter_congr fun i hi => ?_
    obtain ⟨o, ho⟩ := at? hi
    rw [ho, Option.bind_some, Option.bind_some, Bool.and_comm]
    exact o.isSome_skipped?
  have unmatched : places WaitOutcome.unmatched? os =
      ((List.range os.length).filter fun i => !(os[i]?.bind WaitOutcome.matched?).isSome).filter
        fun i => !(os[i]?.bind WaitOutcome.skipped?).isSome := by
    rw [List.filter_filter]
    refine List.filter_congr fun i hi => ?_
    obtain ⟨o, ho⟩ := at? hi
    rw [ho, Option.bind_some, Option.bind_some, Option.bind_some, Bool.and_comm]
    exact o.isSome_unmatched?
  rw [skipped, unmatched]
  exact ((List.filter_append_perm _ _).append_left _).trans (List.filter_append_perm _ _)

namespace Goal

/-- A resource that did not match is reported as it was given. -/
theorem skipped?_outcome (g : Goal) (r : Resource) (x : Option (Except Failure Resource)) :
    ∀ s, (g.outcome r x).skipped? = some s → s = r := by
  refine outcome_cases (motive := fun _ o => ∀ s, o.skipped? = some s → s = r) ?_ ?_ ?_ ?_ x
  · intro s h
    cases h
  · intro state s h
    cases h
  · intro f hf s h
    exact (Option.some.inj h).symm
  · intro f s h
    cases h

theorem unmatched?_outcome (g : Goal) (r : Resource) (x : Option (Except Failure Resource)) :
    ∀ s, (g.outcome r x).unmatched? = some s → s = r := by
  refine outcome_cases (motive := fun _ o => ∀ s, o.unmatched? = some s → s = r) ?_ ?_ ?_ ?_ x
  · intro s h
    exact (Option.some.inj h).symm
  · intro state s h
    cases h
  · intro f hf s h
    cases h
  · intro f s h
    exact (Option.some.inj h).symm

end Goal

/-! ## Slots -/

theorem lookup_eq_some_of_mem {β : Type} {log : List (Nat × β)} (nodup : (log.map Prod.fst).Nodup)
    {i : Nat} {x : β} (h : (i, x) ∈ log) : log.lookup i = some x := by
  induction log with
  | nil => cases h
  | cons e log ih =>
    obtain ⟨j, y⟩ := e
    obtain ⟨fresh, nodup⟩ := List.nodup_cons.1 nodup
    rcases List.mem_cons.1 h with heq | hmem
    · obtain ⟨rfl, rfl⟩ := Prod.mk.inj heq
      exact List.lookup_cons_self
    · have hij : i ≠ j := by
        rintro rfl
        exact fresh (List.mem_map.2 ⟨_, hmem, rfl⟩)
      rw [List.lookup_cons, beq_false_of_ne hij]
      exact ih nodup hmem

theorem mem_of_lookup_eq_some {β : Type} {log : List (Nat × β)} {i : Nat} {x : β}
    (h : log.lookup i = some x) : (i, x) ∈ log := by
  obtain ⟨before, after, rfl, -⟩ := List.lookup_eq_some_iff.1 h
  exact List.mem_append_right _ List.mem_cons_self

namespace BatchTerms

variable {σ : Type} {rs : List Resource}

/-- The report has one slot per resource, and `log` tells what is in them. -/
structure Slots (reg : Registry) (g : Goal) (wait : Waits σ rs)
    (log : Batch.Log (Except Failure Resource)) (report : WaitReport) : Prop where
  /-- No task reports twice. -/
  once : (log.map Prod.fst).Nodup
  length : report.outcomes.length = rs.length
  /-- A slot has what the wait for its resource reported. -/
  reported (i : Nat) (hi : i < rs.length) (result : Except Failure Resource)
      (left : (i, some result) ∈ log) :
    report.outcomes[i]? = some (g.outcome rs[i] (some result)) ∧
      ∃ handler budget, reg.resolveFor rs[i] = .ok handler ∧
        (wait handler ⟨rs[i], List.getElem_mem hi⟩ budget).Reports result
  /-- A slot of which nothing was reported has its resource, and no failure. -/
  missing (i : Nat) (hi : i < rs.length) (left : ∀ result, (i, some result) ∉ log) :
    report.outcomes[i]? = some (.unmatched rs[i] none)
  parts : report.Parts rs

variable {t : BatchTerms} {reg : Registry} {g : Goal} {wait : Waits σ rs} {w : World σ}
  {log : Batch.Log (Except Failure Resource)} {b : Batch σ (Except Failure Resource)}

namespace Unfolds

theorem outcomes_getElem? (h : t.Unfolds reg wait w log b) {i : Nat} (hi : i < rs.length) :
    (t.reportOn g rs b).outcomes[i]? = some (g.outcome rs[i] (log.lookup i).join) := by
  rw [h.outcomes_eq, List.getElem?_mapIdx, List.getElem?_eq_getElem hi]
  rfl

theorem length_outcomes (h : t.Unfolds reg wait w log b) :
    (t.reportOn g rs b).outcomes.length = rs.length := by
  rw [h.outcomes_eq, List.length_mapIdx]

theorem parts (h : t.Unfolds reg wait w log b) : (t.reportOn g rs b).Parts rs := by
  -- Where there is a value of `f`, it is the resource that was given there.
  have given {f : WaitOutcome → Option Resource}
      (hf : ∀ r x s, f (g.outcome r x) = some s → s = r) :
      (places f (t.reportOn g rs b).outcomes).map (fun i => (t.reportOn g rs b).outcomes[i]?.bind f)
        = (places f (t.reportOn g rs b).outcomes).map (fun i => rs[i]?) := by
    refine List.map_congr_left fun i hi => ?_
    obtain ⟨hrange, hsome⟩ := List.mem_filter.1 hi
    have hlt : i < rs.length := h.length_outcomes (g := g) ▸ List.mem_range.1 hrange
    obtain ⟨s, hs⟩ := Option.isSome_iff_exists.1 hsome
    rw [hs]
    rw [h.outcomes_getElem? hlt, Option.bind_some] at hs
    rw [hf _ _ _ hs, List.getElem?_eq_getElem hlt]
  rw [WaitReport.Parts, ← h.length_outcomes (g := g)]
  refine ⟨_, _, _, List.filter_sublist, List.filter_sublist, List.filter_sublist,
    perm_places _, map_some_filterMap _ _, ?_, ?_⟩
  · exact (map_some_filterMap _ _).trans (given g.skipped?_outcome)
  · exact (map_some_filterMap _ _).trans (given g.unmatched?_outcome)

theorem isSettled_of_reported (h : t.Unfolds reg wait w log b)
    (reported : ∀ i < rs.length, ∃ result, (i, some result) ∈ log) : b.isSettled = true := by
  refine h.isSettled_iff.2 fun i hi => ?_
  obtain ⟨result, hmem⟩ := reported i hi
  rw [lookup_eq_some_of_mem h.nodup hmem]
  exact Option.some_ne_none _

theorem slots (h : t.Unfolds reg wait w log b) : Slots reg g wait log (t.reportOn g rs b) where
  once := h.nodup
  length := h.length_outcomes
  reported i hi result left := by
    refine ⟨?_, h.reports hi left⟩
    rw [h.outcomes_getElem? hi, lookup_eq_some_of_mem h.nodup left]
    rfl
  missing i hi left := by
    rw [h.outcomes_getElem? hi]
    cases hlookup : log.lookup i with
    | none => rfl
    | some x =>
      cases x with
      | none => rfl
      | some result => exact absurd (mem_of_lookup_eq_some hlookup) (left result)
  parts := h.parts

end Unfolds

/-- Two orders in which every task reports the same do not differ in the report. -/
theorem reportOn_eq {w₁ w₂ : World σ} {log₁ log₂ : Batch.Log (Except Failure Resource)}
    {b₁ b₂ : Batch σ (Except Failure Resource)} (h₁ : t.Unfolds reg wait w₁ log₁ b₁)
    (h₂ : t.Unfolds reg wait w₂ log₂ b₂)
    (same : ∀ i < rs.length, ∃ result, (i, some result) ∈ log₁ ∧ (i, some result) ∈ log₂) :
    t.reportOn g rs b₁ = t.reportOn g rs b₂ := by
  have settled₁ : b₁.isSettled = true :=
    h₁.isSettled_of_reported fun i hi => (same i hi).imp fun _ hmem => hmem.1
  have settled₂ : b₂.isSettled = true :=
    h₂.isSettled_of_reported fun i hi => (same i hi).imp fun _ hmem => hmem.2
  have outcomes : (t.reportOn g rs b₁).outcomes = (t.reportOn g rs b₂).outcomes := by
    rw [h₁.outcomes_eq, h₂.outcomes_eq]
    refine List.ext_getElem (by simp) fun i hi _ => ?_
    rw [List.length_mapIdx] at hi
    obtain ⟨result, hmem₁, hmem₂⟩ := same i hi
    rw [List.getElem_mapIdx, List.getElem_mapIdx, lookup_eq_some_of_mem h₁.nodup hmem₁,
      lookup_eq_some_of_mem h₂.nodup hmem₂]
  show WaitReport.of (t.reportOn g rs b₁).outcomes (!b₁.isSettled) t.limit =
    WaitReport.of (t.reportOn g rs b₂).outcomes (!b₂.isSettled) t.limit
  rw [outcomes, settled₁, settled₂]

/-- A batch runs to a report with one slot per resource. In every order of turns, a slot has what
the task of its own resource reported before the deadline, and otherwise the resource itself; the
report does not tell orders apart in which every task reports the same. -/
theorem waitBy_slots (t : BatchTerms) (reg : Registry) (g : Goal) (rs : List Resource)
    (wait : Waits σ rs) (nonempty : rs ≠ [])
    (resolves : ∀ r ∈ rs, ∃ handler, reg.resolveFor r = .ok handler) :
    (∀ w : World σ, t.Fits w → Tireless reg wait →
      ∃ w' log b, (t.waitBy reg g rs wait w).run = .ended w' (.ok (t.reportOn g rs b)) ∧
        t.Unfolds reg wait w log b ∧ b.Rests (w.setTimer t.limit).1 w') ∧
    (∀ (w : World σ) log b, t.Unfolds reg wait w log b →
      Slots reg g wait log (t.reportOn g rs b)) ∧
    (∀ (w₁ w₂ : World σ) log₁ log₂ b₁ b₂, t.Unfolds reg wait w₁ log₁ b₁ →
      t.Unfolds reg wait w₂ log₂ b₂ →
      (∀ i < rs.length, ∃ result, (i, some result) ∈ log₁ ∧ (i, some result) ∈ log₂) →
      t.reportOn g rs b₁ = t.reportOn g rs b₂) :=
  ⟨fun _ fits tireless => run_waitBy nonempty resolves fits tireless,
    fun _ _ _ h => h.slots, fun _ _ _ _ _ _ h₁ h₂ same => reportOn_eq h₁ h₂ same⟩

/-- Three pods, of which two may be waited for at the same time: one is ready, one never is, and the
wait for the last one crashes. -/
theorem waitBy_slots_pods :
    ∃ w' log report, ((podTerms 2).wait pods podRegistry .ready
        (["ready", "stuck", "lost"].map pod) podStart).run = .ended w' (.ok report) ∧
      Slots podRegistry .ready
        (fun handler (r : { r // r ∈ ["ready", "stuck", "lost"].map pod }) budget =>
          handler.wait pods .ready r.1.ns r.1 budget .default) log report := by
  obtain ⟨run, slots, -⟩ := waitBy_slots (podTerms 2) podRegistry .ready
    (["ready", "stuck", "lost"].map pod)
    (fun handler r budget => handler.wait pods .ready r.1.ns r.1 budget .default)
    (List.cons_ne_nil _ _) (resolves_pods _)
  have fits : (podTerms 2).Fits podStart := (fits_podTerms_iff 2).2 (by decide +kernel)
  obtain ⟨w', log, b, hrun, hunfolds, -⟩ := run podStart fits (tireless_wait_pods _ _)
  exact ⟨w', log, _, hrun, slots podStart log b hunfolds⟩

/-- With one permit more than there may be, there is no report on a pod. -/
theorem no_report_beyond_maxPermits :
    ¬ ∃ w' report, (overfullTerms.wait pods podRegistry .ready (["ready"].map pod) podStart).run =
      .ended w' (.ok report) := by
  rintro ⟨w', report, hrun⟩
  cases (run_wait_overfull pods .ready (List.cons_ne_nil _ _) ()).symm.trans hrun

end BatchTerms

end Rollout
