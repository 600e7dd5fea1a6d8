/-
  The delays that polling sleeps through.

  Whatever the readings answer and however long they take, polling sleeps through the delays that
  the backoff counts off from the first one (`poll_eq_pollThrough`). From the second delay on they
  are steady: at most a minute, and never shorter than before. The first delay is taken as it was
  set, so that a wait with a longer one sleeps through a long delay and then through shorter ones
  (`poll_delays`).
-/
import Rollout.Proofs.Wait.Cadence

namespace Rollout

variable {σ : Type}

namespace WaitTerms

/-- Reads until a reading decides the result, and sleeps through one of `delays` behind each reading
that does not. -/
def pollThrough (t : WaitTerms) (o : Outside σ) (reading : Action (Option Resource)) :
    List Duration → Activity σ (Except Failure Resource)
  | [] => Activity.giveUp
  | delay :: delays => do
    match t.result? (← Action.perform o reading) with
    | some result => return result
    | none => do
      Activity.sleep delay
      t.pollThrough o reading delays

variable (t : WaitTerms) (o : Outside σ) (reading : Action (Option Resource))

/-- A turn of polling and what comes behind it. -/
theorem repeated_succ_pollOnce (n : Nat) (delay : Duration) :
    Activity.repeated (t.pollOnce o reading) (n + 1) delay = (do
      match t.result? (← Action.perform o reading) with
      | some result => return result
      | none => do
        Activity.sleep delay
        Activity.repeated (t.pollOnce o reading) n (t.backoff.next delay)) := by
  funext w
  refine (Course.bind_assoc _ _ _).trans (congrArg (Course.bind _) ?_)
  funext answer w'
  cases answer with
  | error f => rfl
  | ok current =>
    simp only [result?]
    cases current.filter t.accepts with
    | none => rfl
    | some state => rfl

theorem repeated_pollOnce (n : Nat) (delay : Duration) :
    Activity.repeated (t.pollOnce o reading) (n + 1) delay =
      t.pollThrough o reading (delay :: t.backoff.delays n delay) := by
  induction n generalizing delay with
  | zero =>
    rw [repeated_succ_pollOnce]
    rfl
  | succ n ih =>
    rw [repeated_succ_pollOnce, ih]
    rfl

theorem poll_eq_pollThrough (n : Nat) : t.poll o reading (n + 1) = t.bounded
    (t.pollThrough o reading (t.backoff.initial :: t.backoff.delays n t.backoff.initial)) :=
  congrArg t.bounded (t.repeated_pollOnce o reading n t.backoff.initial)

/-- Polling sleeps through the delays of the backoff, one after the other. All but the first one are
steady; all of them are if and only if the first one is at most a minute. If it is not shorter than
a minute, all others are of a minute. -/
theorem poll_delays (n : Nat) :
    t.poll o reading (n + 1) = t.bounded
      (t.pollThrough o reading (t.backoff.initial :: t.backoff.delays n t.backoff.initial)) ∧
    Backoff.Steady (t.backoff.delays n t.backoff.initial) ∧
    (Backoff.Steady (t.backoff.initial :: t.backoff.delays n t.backoff.initial) ↔
      t.backoff.initial ≤ .ofSeconds 60) ∧
    (.ofSeconds 60 ≤ t.backoff.initial →
      t.backoff.delays n t.backoff.initial = List.replicate n (.ofSeconds 60)) := by
  refine ⟨t.poll_eq_pollThrough o reading n, t.backoff.steady_delays _ n, ⟨fun steady => ?_,
    fun h => t.backoff.steady_cons_delays h n⟩, fun h => t.backoff.delays_eq_replicate h n⟩
  exact steady.capped t.backoff.initial List.mem_cons_self

open BatchTerms (pod)

/-- Polling for a pod, after 100 s first, for five minutes. -/
def podLate : WaitTerms := ⟨pod "a", fun _ => true, ⟨.ofSeconds 100, .ofNat 2⟩, .ofSeconds 300⟩

/-- With a first delay of 5 ms the delays are steady; with one of 100 s the others are of a
minute. -/
theorem poll_delays_pod :
    (podPolled.backoff.initial ≤ .ofSeconds 60 ∧ Backoff.Steady
      (podPolled.backoff.initial :: podPolled.backoff.delays 3 podPolled.backoff.initial)) ∧
    .ofSeconds 60 ≤ podLate.backoff.initial ∧
    podLate.poll (.replying third) podReading 3 = podLate.bounded
      (podLate.pollThrough (.replying third) podReading
        [.ofSeconds 100, .ofSeconds 60, .ofSeconds 60]) := by
  have hpolled : podPolled.backoff.initial ≤ .ofSeconds 60 := by decide
  have hlate : .ofSeconds 60 ≤ podLate.backoff.initial := by decide
  obtain ⟨-, -, steady, -⟩ := podPolled.poll_delays (.replying third) podReading 3
  obtain ⟨through, -, -, minutes⟩ := podLate.poll_delays (.replying third) podReading 2
  rw [minutes hlate] at through
  exact ⟨⟨hpolled, steady.2 hpolled⟩, hlate, through⟩

/-- With a first delay of 100 s, doubled, the second reading comes 100 s after the first one, and
the third one 60 s after the second: the first delay is longer than a minute, and the second one is
shorter than the first. -/
theorem poll_shortens :
    ∃ w, (podLate.poll (.replying third) podReading (Activity.turnsFor podLate.limit)
        ⟨0, 0, []⟩).run = .ended w (.ok (pod "a")) ∧ w.now = 160000 ∧
      w.state = readAt third [0, 100000, 160000] ∧
      podLate.backoff.delays 1 podLate.backoff.initial = [.ofSeconds 60] ∧
      ¬ podLate.backoff.initial ≤ .ofSeconds 60 := by
  let reads := Outside.scripted third "pods" false none (pod "a")
  have hinitial : 0 < podLate.backoff.initial.nanos := by decide
  have instants : (List.range 3).map (podLate.backoff.instant 0) = [0, 100000, 160000] := by
    decide +kernel
  have last : podLate.backoff.instant 0 2 = 160000 := by decide +kernel
  have inTime : podLate.InTime (⟨0, 0, []⟩ : World (List (Nat × Event))) 2 := by
    refine .inr ?_
    rw [last]
    decide
  have answers := Outside.answers_scripted third "pods" false none (pod "a") podLate.backoff
    (w := podLate.begun ⟨0, 0, []⟩) rfl
  have before : ∀ j < 2, podLate.result? (third j) = none := by decide
  refine ⟨_, run_poll_result reads (inTime.lt_turnsFor hinitial)
    (fun j hj => (congrArg podLate.result? (answers j)).trans (before j hj)) (inTime.goes hinitial)
    (congrArg podLate.result? (answers 2)), (reads.now_after _ _ 2).trans last, ?_,
    Backoff.delays_eq_replicate _ (by decide) 1, by decide⟩
  refine (reads.noted_after _ _ 2).trans ?_
  exact (calls_pod third _ rfl 3).trans (congrArg (readAt third) instants)

end WaitTerms

end Rollout
