/-
  Activities: what runs in time.

  Time is counted in whole milliseconds and moves only while everything waits for a timer. An
  activity, started in a world, takes its course: it ends, sleeps until a timer fires and goes on
  in the world of that moment, waits for what never comes, or crashes. Timers of one instant fire
  in the order in which they were set. `within` bounds an activity by a deadline.

  Loops are written over a number of turns, since nothing else bounds them; a course that uses up
  its turns is `unsettled`.
-/
import Rollout.Program

namespace Rollout

/-! ## Worlds and courses -/

/-- A timer: the instant at which it fires, and its place among those of that instant. -/
structure Timer where
  due : Nat
  order : Nat
deriving DecidableEq, Repr

/-- `s` fires before `t`. -/
def Timer.before (s t : Timer) : Bool := s.due < t.due || (s.due = t.due && s.order < t.order)

/-- The time, how many timers were set so far, and the state of everything else. -/
structure World (σ : Type) where
  now : Nat
  timers : Nat
  state : σ

namespace World

variable {σ : Type}

/-- The world at the moment that `t` fires. -/
def reach (w : World σ) (t : Timer) : World σ := { w with now := max w.now t.due }

/-- Sets a timer that fires once `d` is over. -/
def setTimer (w : World σ) (d : Duration) : Timer × World σ :=
  (⟨w.now + d.ceilMillis, w.timers⟩, { w with timers := w.timers + 1 })

end World

/-- How an activity goes on from some moment. -/
inductive Course (σ α : Type) : Type where
  | ended (w : World σ) (result : α)
  | asleep (w : World σ) (timer : Timer) (resume : World σ → Course σ α)
  | stuck (w : World σ)
  | crashed (w : World σ)
  | unsettled (w : World σ)

/-- What takes its course once it is started in a world. -/
def Activity (σ α : Type) : Type := World σ → Course σ α

namespace Course

variable {σ α β : Type}

/-- Goes on with `f` where the course ends. -/
def bind (c : Course σ α) (f : α → Activity σ β) : Course σ β :=
  match c with
  | .ended w a => f a w
  | .asleep w t resume => .asleep w t fun w => (resume w).bind f
  | .stuck w => .stuck w
  | .crashed w => .crashed w
  | .unsettled w => .unsettled w

/-- The course up to the timer `t`: what is not over by then has no result. Work that is due at the
same instant as `t` comes first, but work that sets out to sleep at that instant is cut off. -/
def upTo (t : Timer) : Course σ α → Course σ (Option α)
  | .ended w a => .ended w (some a)
  | .asleep w s resume =>
    if w.now < t.due ∧ s.due ≤ t.due then .asleep w s fun w => (resume w).upTo t
    else .asleep w t fun w => .ended w none
  | .stuck w => .asleep w t fun w => .ended w none
  | .crashed w => .crashed w
  | .unsettled w => .unsettled w

/-- Lets the course run: every timer fires in its time. None of the courses that come out of this
is asleep. -/
def run : Course σ α → Course σ α
  | .asleep w t resume => (resume (w.reach t)).run
  | c => c

/-- The world in which the course stands. -/
def world : Course σ α → World σ
  | .ended w _ | .asleep w _ _ | .stuck w | .crashed w | .unsettled w => w

end Course

/-! ## Activities -/

namespace Activity

variable {σ α β : Type}

instance : Monad (Activity σ) where
  pure a := fun w => .ended w a
  bind a f := fun w => (a w).bind f

/-- Sleeps for a while. -/
def sleep (d : Duration) : Activity σ Unit := fun w =>
  .asleep (w.setTimer d).2 (w.setTimer d).1 fun w => .ended w ()

/-- Waits for what never comes. -/
def never : Activity σ α := .stuck

def crash : Activity σ α := .crashed

/-- Gives up for lack of turns. -/
def giveUp : Activity σ α := .unsettled

def now : Activity σ Nat := fun w => .ended w w.now

/-- Changes the state and answers what the change yields. -/
def change (f : σ → α × σ) : Activity σ α := fun w =>
  .ended { w with state := (f w.state).2 } (f w.state).1

/-- The activity if it is over within `limit`. -/
def within (limit : Duration) (a : Activity σ α) : Activity σ (Option α) := fun w =>
  (a (w.setTimer limit).2).upTo (w.setTimer limit).1

/-- Takes turns until one of them yields a result. A turn without result yields what the next one
starts from. -/
def repeated (turn : β → Activity σ (β ⊕ α)) : Nat → β → Activity σ α
  | 0, _ => giveUp
  | n + 1, b => do
    match ← turn b with
    | .inl b => repeated turn n b
    | .inr a => return a

/-- How many turns a loop may take, in all, without letting time pass. -/
def patience : Nat := 65536

/-- The turns of a loop that is bounded by `limit`: one per millisecond, and `patience` more. -/
def turnsFor (limit : Duration) : Nat := limit.ceilMillis + patience

end Activity

/-! ## The outside -/

/-- How the outside answers calls: the answer may take time and change the state. -/
structure Outside (σ : Type) where
  answer : (c : Call) → Activity σ c.Answer

/-- Carries out a program: each call is answered by the outside before the program goes on. -/
def Program.perform {σ α : Type} (o : Outside σ) : Program α → Activity σ α
  | .done a => pure a
  | .call c next => o.answer c >>= fun answer => (next answer).perform o

/-- Carries out an action. -/
def Action.perform {σ α : Type} (o : Outside σ) (a : Action α) : Activity σ (Except Failure α) :=
  Program.perform o a.run

end Rollout
