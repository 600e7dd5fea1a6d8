/-
  Polling that does not let time pass.

  Polling is over in time as soon as one of its readings is too late to be followed by another one
  (`run_poll_ends`). If the first delay is not zero, each reading comes after the one before it, so
  this is so after as many readings as there are milliseconds. If it is zero, an infinite factor
  makes a minute of the second delay; but with any other factor all delays are zero, all readings
  fall on the instant at which the wait begins, and its time never comes (`poll_progress`).
-/
import Rollout.Proofs.Wait.Cadence

namespace Rollout

variable {σ : Type}

namespace WaitTerms

variable {t : WaitTerms} {o : Outside σ} {noted : σ → List (Nat × Event)}
  {reading : Action (Option Resource)} {w : World σ}

/-- Polling has come to an end when its time is over, after `most` readings at most. -/
def EndsAfter (t : WaitTerms) (reads : o.Readings noted reading) (w : World σ) (most : Nat) :
    Prop := ∃ w' result n,
  (t.poll o reading (Activity.turnsFor t.limit) w).run = .ended w' result ∧ w'.now ≤ t.due w ∧
    n ≤ most ∧ noted w'.state = noted w.state ++ reads.calls t.backoff (t.begun w) n

theorem instant_le_due {k : Nat} (goes : ∀ j < k, Goes t.backoff w.now (t.due w) j) :
    t.backoff.instant w.now k ≤ t.due w := by
  cases k with
  | zero => exact Nat.le_add_right _ _
  | succ k => exact (goes k (Nat.lt_succ_self k)).2

/-- Polling ends if a reading is too late to be followed by another one in time. -/
theorem run_poll_ends (reads : o.Readings noted reading) {k : Nat}
    (hturns : k < Activity.turnsFor t.limit) (late : ¬ Goes t.backoff w.now (t.due w) k) :
    t.EndsAfter reads w (k + 1) := by
  classical
  have exists_late : ∃ k, ¬ Goes t.backoff w.now (t.due w) k := ⟨k, late⟩
  obtain ⟨last, hlast, cut, goes⟩ : ∃ last ≤ k, ¬ Goes t.backoff w.now (t.due w) last ∧
      ∀ j < last, Goes t.backoff w.now (t.due w) j :=
    ⟨Nat.find exists_late, Nat.find_min' exists_late late, Nat.find_spec exists_late,
      fun j hj => not_not.1 (Nat.find_min exists_late hj)⟩
  have hturns : last < Activity.turnsFor t.limit := Nat.lt_of_le_of_lt hlast hturns
  by_cases decided : ∃ j, j ≤ last ∧ t.result? (reads.answers t.backoff (t.begun w) j) ≠ none
  · -- The first reading that decides anything ends it.
    obtain ⟨hfirst, hresult⟩ := Nat.find_spec decided
    obtain ⟨result, hresult⟩ := Option.ne_none_iff_exists'.1 hresult
    have before : ∀ j < Nat.find decided,
        t.result? (reads.answers t.backoff (t.begun w) j) = none := fun j hj => by
      by_contra hne
      exact Nat.find_min decided hj ⟨Nat.le_trans (Nat.le_of_lt hj) hfirst, hne⟩
    have hgoes : ∀ j < Nat.find decided, Goes t.backoff w.now (t.due w) j :=
      fun j hj => goes j (Nat.lt_of_lt_of_le hj hfirst)
    refine ⟨_, result, Nat.find decided + 1,
      run_poll_result reads (Nat.lt_of_le_of_lt hfirst hturns) before hgoes hresult, ?_,
      Nat.succ_le_succ (Nat.le_trans hfirst hlast), reads.noted_after t.backoff (t.begun w) _⟩
    exact (reads.now_after t.backoff (t.begun w) _).trans_le (instant_le_due hgoes)
  · -- The sleep behind the last reading is cut off.
    have before : ∀ j ≤ last, t.result? (reads.answers t.backoff (t.begun w) j) = none :=
      fun j hj => not_not.1 fun hne => decided ⟨j, hj, hne⟩
    obtain ⟨w', hrun, hnow, hnoted⟩ := run_poll_cut reads hturns before goes cut
    refine ⟨w', _, last + 1, hrun, ?_, Nat.succ_le_succ hlast, hnoted⟩
    exact hnow.trans_le (Nat.max_le.2 ⟨instant_le_due goes, Nat.le_refl _⟩)

theorem not_goes_of_le {k : Nat} (h : t.due w ≤ t.backoff.instant w.now k) :
    ¬ Goes t.backoff w.now (t.due w) k := fun goes => Nat.not_lt.2 h goes.1

/-- If all readings fall on one instant, all are in time, unless there is no time at all. -/
theorem goes_of_instant_eq (still : ∀ k, t.backoff.instant w.now k = w.now)
    (hlimit : 0 < t.limit.nanos) (k : Nat) : Goes t.backoff w.now (t.due w) k := by
  have hdue : w.now < t.due w := Nat.lt_add_of_pos_right (Duration.ceilMillis_pos hlimit)
  exact ⟨(still k).trans_lt hdue, (still (k + 1)).trans_le (Nat.le_of_lt hdue)⟩

/-- If all calls are answered at once, it depends on the first delay whether polling lets time pass.
If that is not zero, every reading comes after the one before it, and polling ends in time. If it is
zero and the factor infinite, the second reading falls on the instant of the first one; the others
follow in steps of a minute, and polling ends in time. If it is zero and the factor anything else,
all readings fall on one instant. Unless there is no time at all, or one of them decides the result,
polling then takes all the turns that it is given, and a reading with each, without coming to its
time. -/
theorem poll_progress (reads : o.Readings noted reading) (w : World σ) :
    (0 < t.backoff.initial.nanos → StrictMono (t.backoff.instant w.now) ∧
      t.EndsAfter reads w (t.limit.ceilMillis + 1)) ∧
    (t.backoff.initial = ⟨0⟩ → t.backoff.multiplier = .infinity false →
      t.backoff.instant w.now 0 = w.now ∧
      (∀ k, t.backoff.instant w.now (k + 1) = w.now + k * 60000) ∧
      t.EndsAfter reads w (t.limit.ceilMillis + 2)) ∧
    (t.backoff.initial = ⟨0⟩ → t.backoff.multiplier ≠ .infinity false →
      (∀ k, t.backoff.instant w.now k = w.now) ∧
      (t.limit = ⟨0⟩ → t.EndsAfter reads w 1) ∧
      (0 < t.limit.nanos → ∀ turns,
        (∀ k < turns, t.result? (reads.answers t.backoff (t.begun w) k) = none) →
        ∃ w', (t.poll o reading turns w).run = .unsettled w' ∧ w'.now = w.now ∧
          noted w'.state = noted w.state ++ reads.calls t.backoff (t.begun w) turns)) := by
  refine ⟨fun hinitial => ⟨Backoff.instant_strictMono hinitial w.now, ?_⟩,
    fun hinitial infinite => ⟨rfl, Backoff.instant_of_infinite hinitial infinite w.now, ?_⟩,
    fun hinitial finite => ?_⟩
  · exact run_poll_ends reads (lt_turnsFor (Nat.le_succ _))
      (not_goes_of_le (Backoff.add_le_instant hinitial w.now t.limit.ceilMillis))
  · refine run_poll_ends reads (lt_turnsFor (Nat.le_refl _)) (not_goes_of_le ?_)
    rw [Backoff.instant_of_infinite hinitial infinite]
    exact Nat.add_le_add_left (Nat.le_mul_of_pos_right _ (by decide)) _
  · have still := Backoff.instant_of_zero hinitial finite w.now
    refine ⟨still, fun hlimit => ?_, fun hlimit turns undecided => ⟨_, run_poll_goes reads undecided
      fun j _ => goes_of_instant_eq still hlimit j, ?_, reads.noted_world t.backoff _ turns⟩⟩
    · refine run_poll_ends reads (lt_turnsFor (Nat.zero_le _)) (not_goes_of_le ?_)
      rw [due, hlimit]
      exact Nat.le_refl _
    · exact (reads.now_world t.backoff (t.begun w) turns).trans (still turns)

open BatchTerms (pod)

/-- Polling for a pod without a first delay, for a millisecond. -/
def podAtOnce (multiplier : Binary64) : WaitTerms :=
  ⟨pod "a", fun _ => true, ⟨⟨0⟩, multiplier⟩, .ofMillis 1⟩

/-- The pod is there from the fourth reading on. -/
def fourth (k : Nat) : Except Failure (Option Resource) :=
  .ok (if 3 ≤ k then some (pod "a") else none)

theorem calls_podAtOnce (replies : Nat → Except Failure (Option Resource)) {multiplier : Binary64}
    (finite : multiplier ≠ .infinity false) (n : Nat) :
    (Outside.scripted replies "pods" false none (pod "a")).calls (podAtOnce multiplier).backoff
      ((podAtOnce multiplier).begun ⟨0, 0, []⟩) n = readAt replies (List.replicate n 0) := by
  have still : (podAtOnce multiplier).backoff.instant 0 = fun _ => 0 :=
    funext (Backoff.instant_of_zero rfl finite 0)
  have instants : (List.range n).map ((podAtOnce multiplier).backoff.instant 0) =
      List.replicate n 0 := by
    rw [still, List.map_const', List.length_range]
  exact (calls_pod replies _ rfl n).trans (congrArg (readAt replies) instants)

/-- With a first delay of 5 ms, and with none and an infinite factor, polling ends; with none and
any other factor it does not, if the pod is not there. -/
theorem poll_progress_pod :
    (0 < podPolled.backoff.initial.nanos ∧ StrictMono (podPolled.backoff.instant 0) ∧
      podPolled.EndsAfter (Outside.scripted (fun _ => .ok none) "pods" false none (pod "a"))
        ⟨0, 0, []⟩ 101) ∧
    ((podAtOnce (.infinity false)).backoff.instant 0 2 = 60000 ∧
      (podAtOnce (.infinity false)).EndsAfter
        (Outside.scripted (fun _ => .ok none) "pods" false none (pod "a")) ⟨0, 0, []⟩ 3) ∧
    ∃ w, ((podAtOnce .nan).poll (.replying fun _ => .ok none) podReading 4 ⟨0, 0, []⟩).run =
        .unsettled w ∧ w.now = 0 ∧ w.state = readAt (fun _ => .ok none) [0, 0, 0, 0] := by
  have progress (t : WaitTerms) := poll_progress (t := t)
    (Outside.scripted (fun _ => .ok none) "pods" false none (pod "a")) ⟨0, 0, []⟩
  have hinitial : 0 < podPolled.backoff.initial.nanos := by decide
  have finite : Binary64.nan ≠ .infinity false := by decide
  obtain ⟨mono, ends⟩ := (progress podPolled).1 hinitial
  obtain ⟨-, instants, endsLate⟩ := (progress (podAtOnce (.infinity false))).2.1 rfl rfl
  obtain ⟨-, -, spins⟩ := (progress (podAtOnce .nan)).2.2 rfl finite
  refine ⟨⟨hinitial, mono, ends⟩, ⟨instants 1, endsLate⟩, ?_⟩
  obtain ⟨w, hrun, hnow, hstate⟩ := spins (by decide) 4 fun k _ =>
    congrArg (podAtOnce .nan).result?
      (Outside.answers_scripted _ "pods" false none (pod "a") (podAtOnce .nan).backoff rfl k)
  exact ⟨w, hrun, hnow, hstate.trans (calls_podAtOnce (fun _ => .ok none) finite 4)⟩

/-- Without a first delay, doubled: if the pod is there from the fourth reading on, then all four
fall on the instant at which the wait begins, and the wait ends at this instant although it had a
millisecond for them; and if it is never there, there are as many readings as turns, at this instant
all of them. -/
theorem poll_stands_still :
    (∃ w, ((podAtOnce (.ofNat 2)).poll (.replying fourth) podReading
        (Activity.turnsFor (podAtOnce (.ofNat 2)).limit) ⟨0, 0, []⟩).run =
        .ended w (.ok (pod "a")) ∧
      w.now = 0 ∧ w.state = readAt fourth [0, 0, 0, 0]) ∧
    ∀ turns, ∃ w, ((podAtOnce (.ofNat 2)).poll (.replying fun _ => .ok none) podReading turns
        ⟨0, 0, []⟩).run = .unsettled w ∧
      w.now = 0 ∧ w.state = readAt (fun _ => .ok none) (List.replicate turns 0) := by
  have finite : Binary64.ofNat 2 ≠ .infinity false := by decide +kernel
  -- Nothing else about the factor is used.
  generalize Binary64.ofNat 2 = multiplier at finite ⊢
  have still := Backoff.instant_of_zero (b := (podAtOnce multiplier).backoff) rfl finite 0
  have goes (k : Nat) := goes_of_instant_eq (t := podAtOnce multiplier)
    (w := (⟨0, 0, []⟩ : World (List (Nat × Event)))) still
    (by decide : 0 < (Duration.ofMillis 1).nanos) k
  have answers (replies) := Outside.answers_scripted replies "pods" false none (pod "a")
    (podAtOnce multiplier).backoff (w := (podAtOnce multiplier).begun ⟨0, 0, []⟩) rfl
  constructor
  · let reads := Outside.scripted fourth "pods" false none (pod "a")
    have turns : 3 < Activity.turnsFor (podAtOnce multiplier).limit :=
      Nat.lt_add_left _ (by decide : 3 < Activity.patience)
    have before : ∀ j < 3, (podAtOnce multiplier).result? (fourth j) = none := by
      intro j hj
      rw [fourth, if_neg (Nat.not_le.2 hj)]
      rfl
    refine ⟨_, run_poll_result reads turns (fun j hj => ?_) (fun j _ => goes j)
      (congrArg (podAtOnce multiplier).result? (answers fourth 3)), ?_, ?_⟩
    · exact (congrArg (podAtOnce multiplier).result? (answers fourth j)).trans (before j hj)
    · exact (reads.now_after _ _ 3).trans (still 3)
    · exact (reads.noted_after _ _ 3).trans (calls_podAtOnce fourth finite 4)
  · intro turns
    let reads := Outside.scripted (fun _ => .ok none) "pods" false none (pod "a")
    refine ⟨_, run_poll_goes reads (fun j _ => ?_) (fun j _ => goes j), ?_, ?_⟩
    · exact congrArg (podAtOnce multiplier).result? (answers (fun _ => .ok none) j)
    · exact (reads.now_world _ _ turns).trans (still turns)
    · exact (reads.noted_world _ _ turns).trans (calls_podAtOnce _ finite turns)

end WaitTerms

end Rollout
