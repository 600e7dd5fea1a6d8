/-
  Seats: where the tasks of a batch stand.

  A seat changes when its task arrives, when it is admitted from the queue, or when it goes on. Each
  change consumes a part of the task's course, so no seat changes for ever, and neither does any
  number of seats of which one after the other changes (`wf_oneFollows`).
-/
import Rollout.Activity

namespace Rollout

/-- The place of a task in a batch. -/
inductive Seat (σ α : Type) : Type where
  /-- Asks for a permit when the timer fires. -/
  | arriving (timer : Timer) (start : Activity σ α)
  /-- Has asked for a permit. -/
  | queued (start : Activity σ α)
  | running (timer : Timer) (resume : Activity σ α)
  /-- Waits for what never comes. -/
  | idle
  | finished (result : α)
  | lost

namespace Seat

variable {σ α : Type}

/-- The timer for which the seat waits. -/
def timer? : Seat σ α → Option Timer
  | arriving t _ | running t _ => some t
  | _ => none

/-- The task is finished or lost. -/
def isSettled : Seat σ α → Bool
  | finished _ | lost => true
  | _ => false

/-- The task has a permit. -/
def isBusy : Seat σ α → Bool
  | running .. | idle => true
  | _ => false

/-- The seat waits for a permit. -/
def isQueued : Seat σ α → Bool
  | queued _ => true
  | _ => false

def result? : Seat σ α → Option α
  | finished a => some a
  | _ => none

/-- The seat of a task that has taken this course; none for a course that gave up. -/
def of? : Course σ α → Option (Seat σ α)
  | .ended _ a => some (.finished a)
  | .asleep _ t resume => some (.running t resume)
  | .stuck _ => some .idle
  | .crashed _ => some .lost
  | .unsettled _ => none

/-! ## Changes -/

/-- The first seat is what the second one may change into. -/
inductive Follows : Seat σ α → Seat σ α → Prop where
  | queued (t : Timer) (start : Activity σ α) : Follows (.queued start) (.arriving t start)
  | started (t : Timer) {start : Activity σ α} {w : World σ} {s : Seat σ α}
      (h : of? (start w) = some s) : Follows s (.arriving t start)
  | admitted (t : Timer) (start : Activity σ α) : Follows (.running t start) (.queued start)
  | resumed (t : Timer) {resume : Activity σ α} {w : World σ} {s : Seat σ α}
      (h : of? (resume w) = some s) : Follows s (.running t resume)

theorem acc_of_of? {c : Course σ α} {s : Seat σ α} (h : of? c = some s) : Acc Follows s := by
  induction c generalizing s with
  | asleep w t resume ih =>
    obtain rfl := Option.some.inj h
    refine Acc.intro _ fun s hs => ?_
    cases hs with
    | resumed _ h => exact ih _ h
  | unsettled w => cases h
  | _ =>
    obtain rfl := Option.some.inj h
    exact Acc.intro _ fun s hs => by cases hs

theorem acc_running (t : Timer) (resume : Activity σ α) : Acc Follows (running t resume) :=
  Acc.intro _ fun s hs => by
    cases hs with
    | resumed _ h => exact acc_of_of? h

theorem acc_queued (start : Activity σ α) : Acc Follows (queued start) :=
  Acc.intro _ fun s hs => by
    cases hs with
    | admitted t start => exact acc_running t start

/-- No seat changes for ever. -/
theorem wf_follows : WellFounded (Follows (σ := σ) (α := α)) := by
  refine ⟨fun s => ?_⟩
  cases s with
  | arriving t start =>
    refine Acc.intro _ fun s hs => ?_
    cases hs with
    | queued t start => exact acc_queued start
    | started _ h => exact acc_of_of? h
  | queued start => exact acc_queued start
  | running t resume => exact acc_running t resume
  | _ => exact Acc.intro _ fun s hs => by cases hs

/-- The first list of seats is what the second one may change into by a change of one seat. -/
inductive OneFollows : List (Seat σ α) → List (Seat σ α) → Prop where
  | head {s' s : Seat σ α} (rest : List (Seat σ α)) (h : Follows s' s) :
      OneFollows (s' :: rest) (s :: rest)
  | tail (s : Seat σ α) {seats' seats : List (Seat σ α)} (h : OneFollows seats' seats) :
      OneFollows (s :: seats') (s :: seats)

theorem acc_cons {s : Seat σ α} (hs : Acc Follows s) {seats : List (Seat σ α)}
    (hseats : Acc OneFollows seats) : Acc OneFollows (s :: seats) := by
  induction hs generalizing seats with
  | intro s _ ihs =>
    induction hseats with
    | intro seats hseats ih =>
      refine Acc.intro _ fun l hl => ?_
      cases hl with
      | head _ h => exact ihs _ h (Acc.intro _ hseats)
      | tail _ h => exact ih _ h

/-- No seats change for ever, one after the other. -/
theorem wf_oneFollows : WellFounded (OneFollows (σ := σ) (α := α)) := by
  refine ⟨fun seats => ?_⟩
  induction seats with
  | nil => exact Acc.intro _ fun l hl => by cases hl
  | cons s rest ih => exact acc_cons (wf_follows.apply s) ih

theorem oneFollows_set {seats : List (Seat σ α)} {i : Nat} {s s' : Seat σ α}
    (hs : seats[i]? = some s) (h : Follows s' s) : OneFollows (seats.set i s') seats := by
  induction seats generalizing i with
  | nil => simp at hs
  | cons x rest ih =>
    cases i with
    | zero =>
      obtain rfl : x = s := by simpa using hs
      exact .head rest h
    | succ i => exact .tail x (ih (by simpa using hs))

end Seat

end Rollout
