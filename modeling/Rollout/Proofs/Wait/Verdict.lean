/-
  The verdict on the readiness of a batch.

  There are two ways for time to run out: the deadline of the batch cuts a task off, or a wait
  reports that its own time is over, which happens at the same instant. The verdict does not tell
  them apart (`ready_eq`). It fails if either has happened, and then it names the resources of which
  nothing was reported and those whose own time was over, with the time of the batch
  (`ReadyVerdict`); what was skipped or failed for another reason never makes it fail.
-/
import Mathlib.Data.List.Basic
import Rollout.Proofs.Wait.Terms

namespace Rollout

/-! ## Outcomes -/

/-- A task that came to this is to blame when time runs out. -/
def blames : Option (Except Failure Resource) → Bool
  | none => true
  | some (.ok _) => false
  | some (.error f) => f.isWaitTimeout

theorem Failure.isWaitTimeout_of_isNotSupported {f : Failure} (h : f.isNotSupported = true) :
    f.isWaitTimeout = false := by
  cases f with
  | notSupported text => rfl
  | _ => cases h

namespace Goal

variable (g : Goal) (r : Resource) (x : Option (Except Failure Resource))

theorem matched?_outcome : (g.outcome r x).matched? = x.bind Except.toOption := by
  refine outcome_cases (motive := fun x o => o.matched? = x.bind Except.toOption) ?_ ?_ ?_ ?_ x
  all_goals intros; rfl

theorem ranOut_outcome : (g.outcome r x).ranOut = (blames x && x.isSome) := by
  refine outcome_cases (motive := fun x o => o.ranOut = (blames x && x.isSome)) rfl ?_ ?_ ?_ x
  · intro state
    rfl
  · intro f hf
    rw [blames, f.isWaitTimeout_of_isNotSupported hf]
    rfl
  · intro f
    exact (Bool.and_true _).symm

theorem pending?_outcome : (g.outcome r x).pending? = if blames x then some r else none := by
  refine outcome_cases (motive := fun x o => o.pending? = if blames x then some r else none)
    rfl ?_ ?_ ?_ x
  · intro state
    rfl
  · intro f hf
    rw [blames, f.isWaitTimeout_of_isNotSupported hf]
    rfl
  · intro f
    rfl

end Goal

namespace BatchTerms

variable {σ : Type} {rs : List Resource}

/-! ## What the log says -/

/-- The task at the place `i` was cut off, or its own time was over. -/
def RanOut (log : Batch.Log (Except Failure Resource)) (i : Nat) : Prop :=
  log.lookup i = none ∨ ∃ f, log.lookup i = some (some (.error f)) ∧ f.isWaitTimeout = true

/-- In order, the resources whose task was cut off, was lost, or reported that its own time was
over. -/
def blamed (rs : List Resource) (log : Batch.Log (Except Failure Resource)) : List Resource :=
  (rs.zipIdx.filter fun p => blames (log.lookup p.2).join).map Prod.fst

/-- In order, the states that were reported. -/
def states (rs : List Resource) (log : Batch.Log (Except Failure Resource)) : List Resource :=
  (List.range rs.length).filterMap fun i => (log.lookup i).join.bind Except.toOption

/-- The verdict is what the log says of a batch that was given the time `limit`. -/
structure ReadyVerdict (rs : List Resource) (limit : Duration)
    (log : Batch.Log (Except Failure Resource)) (verdict : Except Failure (List Resource)) :
    Prop where
  timeout_iff : (∃ us d, verdict = .error (.waitTimeout us d)) ↔ ∃ i < rs.length, RanOut log i
  timeout (us : List Resource) (d : Duration) (h : verdict = .error (.waitTimeout us d)) :
    d = limit ∧ us = blamed rs log ∧ us ≠ []
  otherwise (h : ¬ ∃ us d, verdict = .error (.waitTimeout us d)) : verdict = .ok (states rs log)

variable {t : BatchTerms} {reg : Registry} {g : Goal} {wait : Waits σ rs} {w : World σ}
  {log : Batch.Log (Except Failure Resource)} {b : Batch σ (Except Failure Resource)}

theorem blames_of_ranOut {i : Nat} (h : RanOut log i) : blames (log.lookup i).join = true := by
  rcases h with hnone | ⟨f, hsome, hf⟩
  · rw [hnone]
    rfl
  · rw [hsome]
    exact hf

theorem blamed_ne_nil {i : Nat} (hi : i < rs.length) (h : RanOut log i) : blamed rs log ≠ [] := by
  have hmem : rs[i] ∈ blamed rs log := by
    refine List.mem_map.2 ⟨(rs[i], i), List.mem_filter.2 ⟨?_, blames_of_ranOut h⟩, rfl⟩
    exact List.mk_mem_zipIdx_iff_getElem?.2 (List.getElem?_eq_getElem hi)
  exact List.ne_nil_of_mem hmem

theorem ranOut_of_blames {i : Nat} {x : Except Failure Resource}
    (hx : (log.lookup i).join = some x) (h : blames (some x) = true) : RanOut log i := by
  cases x with
  | ok state => cases h
  | error f => exact .inr ⟨f, Option.join_eq_some_iff.1 hx, h⟩

namespace Unfolds

theorem pending_reportOn (h : t.Unfolds reg wait w log b) :
    (t.reportOn g rs b).pending = blamed rs log := by
  rw [WaitReport.pending, h.outcomes_eq, List.mapIdx_eq_zipIdx_map, List.filterMap_map, blamed,
    ← List.filterMap_eq_map, List.filterMap_filter]
  simp only [Function.comp_def, Goal.pending?_outcome]

theorem matched_reportOn (h : t.Unfolds reg wait w log b) :
    (t.reportOn g rs b).matched = states rs log := by
  have range : List.range rs.length = rs.zipIdx.map Prod.snd := by
    rw [List.zipIdx_map_snd, List.range_eq_range']
  rw [WaitReport.matched, h.outcomes_eq, List.mapIdx_eq_zipIdx_map, List.filterMap_map, states,
    range, List.filterMap_map]
  simp only [Function.comp_def, Goal.matched?_outcome]

theorem timedOut_reportOn (h : t.Unfolds reg wait w log b) :
    (t.reportOn g rs b).timedOut = true ↔ ∃ i < rs.length, RanOut log i := by
  rw [h.timedOut_iff, h.outcomes_eq]
  constructor
  · rintro (⟨i, hi, hnone⟩ | hany)
    · exact ⟨i, hi, .inl hnone⟩
    · obtain ⟨o, ho, hranOut⟩ := List.any_eq_true.1 hany
      obtain ⟨i, hi, rfl⟩ := List.mem_mapIdx.1 ho
      rw [Goal.ranOut_outcome, Bool.and_eq_true] at hranOut
      obtain ⟨x, hx⟩ := Option.isSome_iff_exists.1 hranOut.2
      rw [hx] at hranOut
      exact ⟨i, hi, ranOut_of_blames hx hranOut.1⟩
  · rintro ⟨i, hi, hnone | ⟨f, hsome, hf⟩⟩
    · exact .inl ⟨i, hi, hnone⟩
    · refine .inr (List.any_eq_true.2 ⟨_, List.mem_mapIdx.2 ⟨i, hi, rfl⟩, ?_⟩)
      rw [Goal.ranOut_outcome, hsome]
      exact Bool.and_eq_true_iff.2 ⟨hf, rfl⟩

theorem ready_eq_error (h : t.Unfolds reg wait w log b) (late : ∃ i < rs.length, RanOut log i) :
    (t.reportOn g rs b).ready = .error (.waitTimeout (blamed rs log) t.limit) := by
  rw [WaitReport.ready, if_pos (h.timedOut_reportOn.2 late), h.pending_reportOn]
  rfl

theorem ready_eq_ok (h : t.Unfolds reg wait w log b) (inTime : ¬ ∃ i < rs.length, RanOut log i) :
    (t.reportOn g rs b).ready = .ok (states rs log) := by
  rw [WaitReport.ready, if_neg (mt h.timedOut_reportOn.1 inTime), h.matched_reportOn]

theorem readyVerdict (h : t.Unfolds reg wait w log b) :
    ReadyVerdict rs t.limit log (t.reportOn g rs b).ready := by
  by_cases late : ∃ i < rs.length, RanOut log i
  · have verdict := h.ready_eq_error (g := g) late
    refine ⟨⟨fun _ => late, fun _ => ⟨_, _, verdict⟩⟩, fun us d hus => ?_, fun hne => ?_⟩
    · obtain ⟨rfl, rfl⟩ := Failure.waitTimeout.inj (Except.error.inj (verdict.symm.trans hus))
      obtain ⟨i, hi, hranOut⟩ := late
      exact ⟨rfl, rfl, blamed_ne_nil hi hranOut⟩
    · exact absurd ⟨_, _, verdict⟩ hne
  · have verdict := h.ready_eq_ok (g := g) late
    refine ⟨⟨fun ⟨us, d, hus⟩ => ?_, fun hlate => absurd hlate late⟩, fun us d hus => ?_,
      fun _ => verdict⟩
    · cases verdict.symm.trans hus
    · cases verdict.symm.trans hus

end Unfolds

/-! ## Two ways for time to run out -/

section Race

variable {log₁ log₂ : Batch.Log (Except Failure Resource)}

/-- The logs tell the same of every task, but for the way in which its time ran out. -/
def SameButLate (rs : List Resource) (log₁ log₂ : Batch.Log (Except Failure Resource)) : Prop :=
  ∀ i < rs.length, log₁.lookup i = log₂.lookup i ∨ (RanOut log₁ i ∧ RanOut log₂ i)

theorem SameButLate.symm (h : SameButLate rs log₁ log₂) : SameButLate rs log₂ log₁ :=
  fun i hi => (h i hi).imp Eq.symm And.symm

theorem SameButLate.ranOut (h : SameButLate rs log₁ log₂) :
    (∃ i < rs.length, RanOut log₁ i) → ∃ i < rs.length, RanOut log₂ i := by
  rintro ⟨i, hi, hranOut⟩
  refine ⟨i, hi, ?_⟩
  rcases h i hi with heq | ⟨-, hlate⟩
  · rwa [RanOut, ← heq]
  · exact hlate

theorem SameButLate.blamed_eq (h : SameButLate rs log₁ log₂) : blamed rs log₁ = blamed rs log₂ := by
  refine congrArg (List.map Prod.fst) (List.filter_congr fun p hp => ?_)
  have hi : p.2 < rs.length := (List.getElem?_eq_some_iff.1 (List.mem_zipIdx_iff_getElem?.1 hp)).1
  rcases h p.2 hi with heq | ⟨hlate₁, hlate₂⟩
  · rw [heq]
  · rw [blames_of_ranOut hlate₁, blames_of_ranOut hlate₂]

theorem RanOut.toOption_eq_none {i : Nat} (h : RanOut log i) :
    (log.lookup i).join.bind Except.toOption = none := by
  rcases h with hnone | ⟨f, hsome, -⟩
  · rw [hnone]
    rfl
  · rw [hsome]
    rfl

theorem SameButLate.states_eq (h : SameButLate rs log₁ log₂) : states rs log₁ = states rs log₂ := by
  refine List.filterMap_congr fun i hi => ?_
  rcases h i (List.mem_range.1 hi) with heq | ⟨hlate₁, hlate₂⟩
  · rw [heq]
  · rw [hlate₁.toOption_eq_none, hlate₂.toOption_eq_none]

/-- The verdict does not tell a task that was cut off from one that reported the same. -/
theorem ready_eq {w₁ w₂ : World σ} {b₁ b₂ : Batch σ (Except Failure Resource)}
    (h₁ : t.Unfolds reg wait w₁ log₁ b₁) (h₂ : t.Unfolds reg wait w₂ log₂ b₂)
    (same : SameButLate rs log₁ log₂) :
    (t.reportOn g rs b₁).ready = (t.reportOn g rs b₂).ready := by
  by_cases late : ∃ i < rs.length, RanOut log₁ i
  · rw [h₁.ready_eq_error late, h₂.ready_eq_error (same.ranOut late), same.blamed_eq]
  · rw [h₁.ready_eq_ok late, h₂.ready_eq_ok (mt same.symm.ranOut late), same.states_eq]

end Race

/-- The empty batch is settled before it begins. -/
theorem run_waitBy_nil (t : BatchTerms) (reg : Registry) (wait : Waits σ []) (w : World σ) :
    ∃ b, (t.waitBy reg g [] wait w).run = .ended w (.ok (t.reportOn g [] b)) ∧
      t.Unfolds reg wait w [] b ∧ b.Rests (w.setTimer t.limit).1 w := by
  refine ⟨⟨[], t.permits⟩, rfl, ⟨[], rfl, .rest _⟩, ?_, fun h => ?_⟩
  · exact Batch.quiet_of_isSettled rfl _
  · cases h

/-- The readiness of a batch has a verdict. In every order of turns, the verdict fails if and only
if the deadline cut a task off or a wait reported that its own time was over, and then it names
exactly the resources without a report and those whose own time was over; and it is the same
whichever of the two comes first. -/
theorem waitBy_ready (t : BatchTerms) (reg : Registry) (rs : List Resource) (wait : Waits σ rs)
    (resolves : ∀ r ∈ rs, ∃ handler, reg.resolveFor r = .ok handler) :
    (∀ w : World σ, (rs ≠ [] → t.Fits w) → Tireless reg wait →
      ∃ w' log b, (t.waitBy reg .ready rs wait w).run =
          .ended w' (.ok (t.reportOn .ready rs b)) ∧
        t.Unfolds reg wait w log b ∧ b.Rests (w.setTimer t.limit).1 w') ∧
    (∀ (w : World σ) log b, t.Unfolds reg wait w log b →
      ReadyVerdict rs t.limit log (t.reportOn .ready rs b).ready) ∧
    (∀ (w₁ w₂ : World σ) log₁ log₂ b₁ b₂, t.Unfolds reg wait w₁ log₁ b₁ →
      t.Unfolds reg wait w₂ log₂ b₂ → SameButLate rs log₁ log₂ →
      (t.reportOn .ready rs b₁).ready = (t.reportOn .ready rs b₂).ready) := by
  refine ⟨fun w fits tireless => ?_, fun _ _ _ h => h.readyVerdict,
    fun _ _ _ _ _ _ h₁ h₂ same => ready_eq h₁ h₂ same⟩
  by_cases hrs : rs = []
  · subst hrs
    obtain ⟨b, hrun, hunfolds, hrests⟩ := run_waitBy_nil t reg wait w
    exact ⟨w, [], b, hrun, hunfolds, hrests⟩
  · exact run_waitBy hrs resolves (fits hrs) tireless

/-- Three pods, each waited for on its own: one is ready, one never is, and the time of the last one
is over at once. -/
theorem waitBy_ready_pods :
    ∃ w' log report, ((podTerms 1).wait pods podRegistry .ready
        (["ready", "stuck", "late"].map pod) podStart).run = .ended w' (.ok report) ∧
      ReadyVerdict (["ready", "stuck", "late"].map pod) (.ofMillis 100) log report.ready := by
  obtain ⟨run, verdict, -⟩ := waitBy_ready (podTerms 1) podRegistry
    (["ready", "stuck", "late"].map pod)
    (fun handler r budget => handler.wait pods .ready r.1.ns r.1 budget .default) (resolves_pods _)
  have fits : (podTerms 1).Fits podStart := (fits_podTerms_iff 1).2 (by decide +kernel)
  obtain ⟨w', log, b, hrun, hunfolds, -⟩ :=
    run podStart (fun _ => fits) (tireless_wait_pods _ _)
  exact ⟨w', log, _, hrun, verdict podStart log b hunfolds⟩

/-- With one permit more than there may be, there is no verdict on two pods. -/
theorem no_verdict_beyond_maxPermits :
    ¬ ∃ w' report, (overfullTerms.wait pods podRegistry .ready (["ready", "ready"].map pod)
        podStart).run = .ended w' (.ok report) ∧
      ((∃ us d, report.ready = .error (.waitTimeout us d)) ∨ ∃ rs, report.ready = .ok rs) := by
  rintro ⟨w', report, hrun, -⟩
  cases (run_wait_overfull pods .ready (List.cons_ne_nil _ _) ()).symm.trans hrun

end BatchTerms

end Rollout
