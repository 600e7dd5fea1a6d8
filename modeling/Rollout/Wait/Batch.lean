/-
  Batches: tasks that run side by side under one deadline.

  Every task has a seat. A task asks for a permit when its turn comes for the first time, in the
  order of the batch, and gives it back when it is finished or lost; with no permit left it queues.
  Of all timers the one that fires first decides which seat acts next. The batch ends when every
  task is finished or lost, or else at its deadline, at which nothing new starts. The result has one
  slot per seat: what the task came to, or nothing.

  A batch needs no bound on its turns: every turn changes seats, which none of them do for ever.
-/
import Rollout.Wait.Seat

namespace Rollout

/-- The seats of a batch and the permits that nobody has; none for any number. -/
structure Batch (σ α : Type) where
  seats : List (Seat σ α)
  permits : Option Nat

namespace Batch

variable {σ α : Type}

def isSettled (b : Batch σ α) : Bool := b.seats.all Seat.isSettled

def results (b : Batch σ α) : List (Option α) := b.seats.map Seat.result?

/-! ## Turns -/

/-- The first of two optional timers, each with a place. -/
def earlier : Option (Nat × Timer) → Option (Nat × Timer) → Option (Nat × Timer)
  | some (i, s), some (j, t) => if t.before s then some (j, t) else some (i, s)
  | some x, none => some x
  | none, y => y

/-- The seat that acts next, counted from `i`, and the timer that it waits for. -/
def nextFrom (i : Nat) : List (Seat σ α) → Option (Nat × Timer)
  | [] => none
  | s :: rest => earlier (s.timer?.map (i, ·)) (nextFrom (i + 1) rest)

def next? (b : Batch σ α) : Option (Nat × Timer) := nextFrom 0 b.seats

/-- Gives back a permit: to the first seat in the queue, which starts at once, or to the rest. -/
def release (b : Batch σ α) (w : World σ) : Batch σ α × World σ :=
  match b.seats.findIdx? Seat.isQueued with
  | some i =>
    match b.seats[i]? with
    | some (.queued start) =>
      ({ b with seats := b.seats.set i (.running (w.setTimer ⟨0⟩).1 start) }, (w.setTimer ⟨0⟩).2)
    | _ => (b, w)
  | none => ({ b with permits := b.permits.map (· + 1) }, w)

/-- Takes the seat `i`, whose task gives back its permit if that settles it. -/
def settle (b : Batch σ α) (i : Nat) (s : Seat σ α) (w : World σ) : Batch σ α × World σ :=
  let b := { b with seats := b.seats.set i s }
  if s.isSettled then b.release w else (b, w)

/-- Records the course that the task of seat `i` has taken; none if it gave up. -/
def record? (b : Batch σ α) (i : Nat) (c : Course σ α) : Option (Batch σ α × World σ) :=
  (Seat.of? c).map fun s => b.settle i s c.world

/-- Lets the seat `i` act: an arriving one takes a permit or queues, a running one goes on. None if
its task gave up, or if the seat waits for no timer. -/
def act? (b : Batch σ α) (i : Nat) (w : World σ) : Option (Batch σ α × World σ) :=
  match b.seats[i]? with
  | some (.arriving _ start) =>
    if b.permits = some 0 then some ({ b with seats := b.seats.set i (.queued start) }, w)
    else { b with permits := b.permits.map (· - 1) }.record? i (start w)
  | some (.running _ resume) => b.record? i (resume w)
  | _ => none

/-! ## Every turn changes seats -/

/-- The first batch has seats that those of the second one may change into. -/
def Follows (b' b : Batch σ α) : Prop := Relation.TransGen Seat.OneFollows b'.seats b.seats

instance : WellFoundedRelation (Batch σ α) :=
  ⟨Follows, InvImage.wf seats Seat.wf_oneFollows.transGen⟩

theorem seats_release (b : Batch σ α) (w : World σ) :
    (b.release w).1.seats = b.seats ∨ Seat.OneFollows (b.release w).1.seats b.seats := by
  unfold release
  split
  · split
    · next h => exact .inr (Seat.oneFollows_set h (.admitted _ _))
    · exact .inl rfl
  · exact .inl rfl

theorem follows_settle {b : Batch σ α} {i : Nat} {s s' : Seat σ α} (w : World σ)
    (hs : b.seats[i]? = some s) (h : s'.Follows s) : (b.settle i s' w).1.Follows b := by
  have one : Seat.OneFollows (b.seats.set i s') b.seats := Seat.oneFollows_set hs h
  unfold settle
  dsimp only
  split
  · rcases seats_release { b with seats := b.seats.set i s' } w with heq | hfollows
    · exact .single (heq ▸ one)
    · exact .tail (.single hfollows) one
  · exact .single one

theorem follows_record? {b b' : Batch σ α} {i : Nat} {s : Seat σ α} {c : Course σ α} {w' : World σ}
    (hs : b.seats[i]? = some s) (h : ∀ s', Seat.of? c = some s' → s'.Follows s)
    (hb : b.record? i c = some (b', w')) : b'.Follows b := by
  obtain ⟨s', hs', heq⟩ := Option.map_eq_some_iff.1 hb
  have hfollows := follows_settle c.world hs (h s' hs')
  rwa [heq] at hfollows

theorem follows_act? {b b' : Batch σ α} {i : Nat} {w w' : World σ}
    (h : b.act? i w = some (b', w')) : b'.Follows b := by
  unfold act? at h
  split at h
  · next t start hs =>
    split at h
    · obtain ⟨rfl, rfl⟩ := h
      exact .single (Seat.oneFollows_set hs (.queued t start))
    · exact follows_record? (b := { b with permits := b.permits.map (· - 1) }) hs
        (fun _ hs' => .started t hs') h
  · next t resume hs => exact follows_record? hs (fun _ hs' => .resumed t hs') h
  · cases h

/-! ## Running -/

/-- Lets the batch take its turns up to the deadline. The result tells whether it was cut off. -/
def run (deadline : Timer) (b : Batch σ α) : Activity σ (List (Option α) × Bool) := fun w =>
  if b.isSettled then .ended w (b.results, false)
  else
    match b.next? with
    | some (i, t) =>
      if t.before deadline then
        .asleep w t fun w =>
          match _h : b.act? i w with
          | some (b', w') => run deadline b' w'
          | none => .unsettled w
      else .asleep w deadline fun w => .ended w (b.results, true)
    | none => .asleep w deadline fun w => .ended w (b.results, true)
termination_by b
decreasing_by exact follows_act? _h

/-- Takes seats for tasks, each of which arrives at once. -/
def seat : List (Activity σ α) → World σ → List (Seat σ α) × World σ
  | [], w => ([], w)
  | a :: rest, w =>
    let (t, w) := w.setTimer ⟨0⟩
    let (seats, w) := seat rest w
    (.arriving t a :: seats, w)

end Batch

namespace Activity

variable {σ α : Type}

/-- The last instant that the clock can name, in nanoseconds. -/
def lastInstant : Nat := twoTo 63 * Duration.nanosPerSecond - 1

/-- The largest number of permits. -/
def maxPermits : Nat := twoTo 61 - 1

/-- The nanoseconds since the clock started. -/
def nanosNow (w : World σ) : Nat := w.now * Duration.nanosPerMilli

/-- The activity of `task`, which is told what is left until `deadline` when it starts. -/
def told (deadline : Nat) (task : Duration → Activity σ α) : Activity σ α := fun w =>
  task ⟨deadline - nanosNow w⟩ w

/-- Runs `tasks` side by side for at most `limit`, of which every task is told what is left when it
starts, and at most `cap` of them at the same time. An instant that the clock cannot name and a
number of permits beyond the largest one crash. -/
def batchFor (limit : Duration) (cap : Option Nat) (tasks : List (Duration → Activity σ α)) :
    Activity σ (List (Option α) × Bool) := fun w =>
  let deadline := nanosNow w + limit.nanos
  if lastInstant < deadline || cap.any (maxPermits < ·) then .crashed w
  else
    let (t, w) := w.setTimer limit
    let (seats, w) := Batch.seat (tasks.map (told deadline)) w
    Batch.run t ⟨seats, cap⟩ w

end Activity

end Rollout
