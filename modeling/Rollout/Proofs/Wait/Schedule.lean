/-
  Schedules of a batch: its turns in any order.

  `Batch.run` lets the seat act whose timer fires first. A schedule lets any seat act whose timer
  fires before the deadline, in any world, and stops anywhere; so it covers whatever the tasks and
  the clock do, and every state in which the deadline may find the batch. Its log tells which tasks
  left, in which order, and what each of them came to.

  Every turn is the change of one seat, after which a queued seat may be admitted
  (`act?_eq_some_turns`). From this the log is exact: seat for seat, what is left at the end is what
  the log says (`Schedule.left?_eq`), and each entry was reported by the task of that very seat
  (`Schedule.reports`). In a batch of tasks that never run out of turns, whichever seat is due can
  act (`tireless_act?`).
-/
import Rollout.Proofs.Activity.Course
import Rollout.Wait.Batch

namespace Rollout

variable {σ α : Type}

namespace Seat

/-! ## Seats -/

/-- What the task of a settled seat came to, nothing if it was lost. -/
def left? : Seat σ α → Option (Option α)
  | finished a => some (some a)
  | lost => some none
  | _ => none

theorem isSettled_eq (s : Seat σ α) : s.isSettled = s.left?.isSome := by cases s <;> rfl

theorem result?_eq (s : Seat σ α) : s.result? = s.left?.join := by cases s <;> rfl

/-- The task may still come to `a`, or has come to it. -/
def Reports (a : α) : Seat σ α → Prop
  | arriving _ start | queued start => start.Reports a
  | running _ resume => resume.Reports a
  | finished b => b = a
  | _ => False

/-- The task never runs out of turns. -/
def Tireless : Seat σ α → Prop
  | arriving _ start | queued start => start.Tireless
  | running t resume => ∀ w : World σ, t.due ≤ w.now → (resume w).Tireless
  | _ => True

theorem reports_of_left? {s : Seat σ α} {a : α} (h : s.left? = some (some a)) : s.Reports a := by
  cases s with
  | finished b => exact Option.some.inj (Option.some.inj h)
  | _ => cases h

theorem Reports.of_of? {c : Course σ α} {s : Seat σ α} {a : α} (h : of? c = some s)
    (hs : s.Reports a) : c.Reports a := by
  cases c with
  | unsettled w => cases h
  | _ =>
    obtain rfl := Option.some.inj h
    exact hs

theorem Follows.left?_eq_none {s s' : Seat σ α} (h : s'.Follows s) : s.left? = none := by
  cases h <;> rfl

theorem Follows.reports {s s' : Seat σ α} {a : α} (h : s'.Follows s) (hs : s'.Reports a) :
    s.Reports a := by
  cases h with
  | queued t start => exact hs
  | started t h => exact ⟨_, hs.of_of? h⟩
  | admitted t start => exact hs
  | resumed t h => exact ⟨_, hs.of_of? h⟩

/-- In the world `w`, the seat changes, and the world becomes the second one. -/
inductive Turns (w : World σ) : Seat σ α → Seat σ α → World σ → Prop where
  | queued (t : Timer) (start : Activity σ α) : Turns w (.arriving t start) (.queued start) w
  | started (t : Timer) {start : Activity σ α} {s : Seat σ α} (h : of? (start w) = some s) :
      Turns w (.arriving t start) s (start w).world
  | resumed (t : Timer) {resume : Activity σ α} {s : Seat σ α} (h : of? (resume w) = some s) :
      Turns w (.running t resume) s (resume w).world

theorem Turns.follows {s s' : Seat σ α} {w w' : World σ} (h : Turns w s s' w') : s'.Follows s := by
  cases h with
  | queued t start => exact .queued t start
  | started t h => exact .started t h
  | resumed t h => exact .resumed t h

theorem exists_of?_of_tireless {c : Course σ α} (h : c.Tireless) :
    ∃ s, of? c = some s ∧ s.Tireless := by
  cases c with
  | asleep w t resume => exact ⟨_, rfl, h⟩
  | unsettled w => exact h.elim
  | _ => exact ⟨_, rfl, trivial⟩

end Seat

namespace Batch

/-! ## One turn -/

/-- A queued seat may have been admitted. -/
def Admits (seats seats' : List (Seat σ α)) : Prop :=
  seats' = seats ∨
    ∃ i t start, seats[i]? = some (.queued start) ∧ seats' = seats.set i (.running t start)

theorem admits_release (b : Batch σ α) (w : World σ) : Admits b.seats (b.release w).1.seats := by
  unfold release
  split
  · split
    · next h => exact .inr ⟨_, _, _, h, rfl⟩
    · exact .inl rfl
  · exact .inl rfl

theorem admits_settle (b : Batch σ α) (i : Nat) (s : Seat σ α) (w : World σ) :
    Admits (b.seats.set i s) (b.settle i s w).1.seats := by
  unfold settle
  dsimp only
  split
  · exact admits_release { b with seats := b.seats.set i s } w
  · exact .inl rfl

/-- Setting a timer leaves the state as it is. -/
theorem state_release (b : Batch σ α) (w : World σ) : (b.release w).2.state = w.state := by
  unfold release
  split
  · split <;> rfl
  · rfl

theorem state_settle (b : Batch σ α) (i : Nat) (s : Seat σ α) (w : World σ) :
    (b.settle i s w).2.state = w.state := by
  unfold settle
  dsimp only
  split
  · exact state_release _ _
  · rfl

theorem record?_eq_some {b b' : Batch σ α} {i : Nat} {c : Course σ α} {w' : World σ}
    (h : b.record? i c = some (b', w')) :
    ∃ s, Seat.of? c = some s ∧ Admits (b.seats.set i s) b'.seats ∧ w'.state = c.world.state := by
  obtain ⟨s, hs, heq⟩ := Option.map_eq_some_iff.1 h
  have hadmits := admits_settle b i s c.world
  have hstate := state_settle b i s c.world
  rw [heq] at hadmits hstate
  exact ⟨s, hs, hadmits, hstate⟩

/-- What a turn can do, and to the state of its world. -/
theorem act?_eq_some_turns {b b' : Batch σ α} {i : Nat} {w w' : World σ}
    (h : b.act? i w = some (b', w')) :
    ∃ s s' w₁, b.seats[i]? = some s ∧ Seat.Turns w s s' w₁ ∧
      Admits (b.seats.set i s') b'.seats ∧ w'.state = w₁.state := by
  unfold act? at h
  split at h
  · next t start hs =>
    split at h
    · obtain ⟨rfl, rfl⟩ := h
      exact ⟨_, _, w, hs, .queued t start, .inl rfl, rfl⟩
    · obtain ⟨s', hs', hadmits, hstate⟩ := record?_eq_some h
      exact ⟨_, s', _, hs, .started t hs', hadmits, hstate⟩
  · next t resume hs =>
    obtain ⟨s', hs', hadmits, hstate⟩ := record?_eq_some h
    exact ⟨_, s', _, hs, .resumed t hs', hadmits, hstate⟩
  · cases h

theorem act?_eq_some {b b' : Batch σ α} {i : Nat} {w w' : World σ}
    (h : b.act? i w = some (b', w')) :
    ∃ s s', b.seats[i]? = some s ∧ s'.Follows s ∧ Admits (b.seats.set i s') b'.seats := by
  obtain ⟨s, s', w₁, hs, turns, hadmits, -⟩ := act?_eq_some_turns h
  exact ⟨s, s', hs, turns.follows, hadmits⟩

/-- What the task of the seat `i` came to, nothing if it was lost; none if it is not settled. -/
def left? (b : Batch σ α) (i : Nat) : Option (Option α) := b.seats[i]?.bind Seat.left?

/-- The task of the seat `i` may still come to `a`, or has come to it. -/
def Reports (b : Batch σ α) (i : Nat) (a : α) : Prop := ∃ s, b.seats[i]? = some s ∧ s.Reports a

theorem Admits.length {seats seats' : List (Seat σ α)} (h : Admits seats seats') :
    seats'.length = seats.length := by
  obtain rfl | ⟨i, t, start, -, rfl⟩ := h
  · rfl
  · exact List.length_set

theorem Admits.left? {seats seats' : List (Seat σ α)} (h : Admits seats seats') (j : Nat) :
    seats'[j]?.bind Seat.left? = seats[j]?.bind Seat.left? := by
  obtain rfl | ⟨i, t, start, hqueued, rfl⟩ := h
  · rfl
  · by_cases hij : i = j
    · subst hij
      have hi : i < seats.length := (List.getElem?_eq_some_iff.1 hqueued).1
      rw [List.getElem?_set_self hi, hqueued]
      rfl
    · rw [List.getElem?_set_ne hij]

theorem Admits.reports {seats seats' : List (Seat σ α)} (h : Admits seats seats') {j : Nat}
    {s' : Seat σ α} {a : α} (hs' : seats'[j]? = some s') (ha : s'.Reports a) :
    ∃ s, seats[j]? = some s ∧ s.Reports a := by
  obtain rfl | ⟨i, t, start, hqueued, rfl⟩ := h
  · exact ⟨s', hs', ha⟩
  · by_cases hij : i = j
    · subst hij
      have hi : i < seats.length := (List.getElem?_eq_some_iff.1 hqueued).1
      rw [List.getElem?_set_self hi] at hs'
      obtain rfl := Option.some.inj hs'
      exact ⟨_, hqueued, ha⟩
    · rw [List.getElem?_set_ne hij] at hs'
      exact ⟨s', hs', ha⟩

section Turn

variable {b b' : Batch σ α} {i : Nat} {w w' : World σ}

theorem length_of_act? (h : b.act? i w = some (b', w')) : b'.seats.length = b.seats.length := by
  obtain ⟨s, s', -, -, hadmits⟩ := act?_eq_some h
  rw [hadmits.length, List.length_set]

/-- The seat that acts is not settled, and no other seat becomes so. -/
theorem left?_of_act? (h : b.act? i w = some (b', w')) :
    i < b.seats.length ∧ b.left? i = none ∧ ∀ j, j ≠ i → b'.left? j = b.left? j := by
  obtain ⟨s, s', hs, hfollows, hadmits⟩ := act?_eq_some h
  refine ⟨(List.getElem?_eq_some_iff.1 hs).1, ?_, fun j hj => ?_⟩
  · rw [left?, hs]
    exact hfollows.left?_eq_none
  · rw [left?, hadmits.left?, List.getElem?_set_ne hj.symm, left?]

theorem reports_of_act? (h : b.act? i w = some (b', w')) {j : Nat} {a : α}
    (hb' : b'.Reports j a) : b.Reports j a := by
  obtain ⟨s, s', hs, hfollows, hadmits⟩ := act?_eq_some h
  obtain ⟨u, hu, ha⟩ := hb'
  obtain ⟨v, hv, ha⟩ := hadmits.reports hu ha
  by_cases hij : i = j
  · subst hij
    rw [List.getElem?_set_self (List.getElem?_eq_some_iff.1 hs).1] at hv
    obtain rfl := Option.some.inj hv
    exact ⟨s, hs, hfollows.reports ha⟩
  · rw [List.getElem?_set_ne hij] at hv
    exact ⟨v, hv, ha⟩

end Turn

/-! ## Schedules -/

/-- Which tasks left, in order: the seat of each and what it came to, nothing if it was lost. -/
abbrev Log (α : Type) := List (Nat × Option α)

/-- The seat `i` waits for a timer that fires before the deadline. -/
def MayAct (deadline : Timer) (b : Batch σ α) (i : Nat) : Prop :=
  ∃ s t, b.seats[i]? = some s ∧ s.timer? = some t ∧ t.before deadline = true

/-- Turn by turn and before the deadline, the first batch becomes the second one. The log has an
entry for each task that settles. -/
inductive Schedule (deadline : Timer) : Batch σ α → Log α → Batch σ α → Prop where
  | rest (b : Batch σ α) : Schedule deadline b [] b
  | turn {b b' b'' : Batch σ α} {i : Nat} {w w' : World σ} {log : Log α}
      (may : b.MayAct deadline i) (act : b.act? i w = some (b', w')) (stays : b'.left? i = none)
      (next : Schedule deadline b' log b'') : Schedule deadline b log b''
  | leave {b b' b'' : Batch σ α} {i : Nat} {w w' : World σ} {x : Option α}
      {log : Log α} (may : b.MayAct deadline i)
      (act : b.act? i w = some (b', w')) (left : b'.left? i = some x)
      (next : Schedule deadline b' log b'') : Schedule deadline b ((i, x) :: log) b''

namespace Schedule

variable {deadline : Timer} {b b' : Batch σ α} {log : Log α}

theorem length (h : Schedule deadline b log b') : b'.seats.length = b.seats.length := by
  induction h with
  | rest b => rfl
  | turn _ act _ _ ih => rw [ih, length_of_act? act]
  | leave _ act _ _ ih => rw [ih, length_of_act? act]

/-- Nothing that left changes, and nothing leaves but what is in the log. -/
theorem left?_eq (h : Schedule deadline b log b') (j : Nat) :
    b'.left? j = (b.left? j).or (log.lookup j) := by
  induction h with
  | rest b => rw [List.lookup_nil, Option.or_none]
  | @turn b b' b'' i w w' log _ act stays _ ih =>
    obtain ⟨-, hi, hne⟩ := left?_of_act? act
    rw [ih]
    by_cases hj : j = i
    · rw [hj, stays, hi]
    · rw [hne j hj]
  | @leave b b' b'' i w w' x log _ act left _ ih =>
    obtain ⟨-, hi, hne⟩ := left?_of_act? act
    rw [ih]
    by_cases hj : j = i
    · rw [hj, left, hi, List.lookup_cons_self, Option.some_or, Option.none_or]
    · rw [hne j hj, List.lookup_cons, beq_false_of_ne hj]

/-- A task leaves from a seat that is not settled. -/
theorem unsettled_of_mem (h : Schedule deadline b log b') {e : Nat × Option α} (he : e ∈ log) :
    e.1 < b.seats.length ∧ b.left? e.1 = none := by
  have back {b b' : Batch σ α} {i : Nat} {w w' : World σ} (act : b.act? i w = some (b', w'))
      (hb' : e.1 < b'.seats.length ∧ b'.left? e.1 = none) :
      e.1 < b.seats.length ∧ b.left? e.1 = none := by
    obtain ⟨hi, hnone, hne⟩ := left?_of_act? act
    refine ⟨length_of_act? act ▸ hb'.1, ?_⟩
    by_cases hj : e.1 = i
    · rw [hj, hnone]
    · rw [← hne _ hj, hb'.2]
  induction h with
  | rest b => cases he
  | turn _ act _ _ ih => exact back act (ih he)
  | leave _ act _ _ ih =>
    rcases List.mem_cons.1 he with rfl | he
    · exact ⟨(left?_of_act? act).1, (left?_of_act? act).2.1⟩
    · exact back act (ih he)

/-- No task leaves twice. -/
theorem nodup (h : Schedule deadline b log b') : (log.map Prod.fst).Nodup := by
  induction h with
  | rest b => exact List.nodup_nil
  | turn _ _ _ _ ih => exact ih
  | leave _ act left next ih =>
    refine List.nodup_cons.2 ⟨fun hmem => ?_, ih⟩
    obtain ⟨e, he, hi⟩ := List.mem_map.1 hmem
    have hnone := (next.unsettled_of_mem he).2
    rw [hi, left] at hnone
    cases hnone

/-- What holds of every seat holds of it still, if it stays true as the seat changes. -/
theorem forall_seats {P : Nat → Seat σ α → Prop}
    (closed : ∀ i s s', s'.Follows s → P i s → P i s') (h : Schedule deadline b log b')
    (hb : ∀ (i : Nat) s, b.seats[i]? = some s → P i s) :
    ∀ (i : Nat) s, b'.seats[i]? = some s → P i s := by
  have set {seats : List (Seat σ α)} (hseats : ∀ (i : Nat) s, seats[i]? = some s → P i s) {i : Nat}
      {s s' : Seat σ α} (hs : seats[i]? = some s) (hfollows : s'.Follows s) :
      ∀ (j : Nat) u, (seats.set i s')[j]? = some u → P j u := by
    intro j u hu
    by_cases hij : i = j
    · subst hij
      rw [List.getElem?_set_self (List.getElem?_eq_some_iff.1 hs).1] at hu
      obtain rfl := Option.some.inj hu
      exact closed i s _ hfollows (hseats i s hs)
    · rw [List.getElem?_set_ne hij] at hu
      exact hseats j u hu
  have turn {b b' : Batch σ α} {i : Nat} {w w' : World σ} (act : b.act? i w = some (b', w'))
      (hb : ∀ (i : Nat) s, b.seats[i]? = some s → P i s) :
      ∀ (i : Nat) s, b'.seats[i]? = some s → P i s := by
    obtain ⟨s, s', hs, hfollows, hadmits⟩ := act?_eq_some act
    have hset := set hb hs hfollows
    obtain heq | ⟨j, t, start, hqueued, heq⟩ := hadmits
    · rwa [heq]
    · rw [heq]
      exact set hset hqueued (.admitted t start)
  induction h with
  | rest b => exact hb
  | turn _ act _ _ ih => exact ih (turn act hb)
  | leave _ act _ _ ih => exact ih (turn act hb)

/-- What a task came to is what the task of that seat reported. -/
theorem reports (h : Schedule deadline b log b') {j : Nat} {a : α} (he : (j, some a) ∈ log) :
    b.Reports j a := by
  induction h with
  | rest b => cases he
  | turn _ act _ _ ih => exact reports_of_act? act (ih he)
  | leave _ act left _ ih =>
    rcases List.mem_cons.1 he with heq | he
    · obtain ⟨rfl, rfl⟩ := Prod.mk.inj heq
      obtain ⟨s, hs, hleft⟩ := Option.bind_eq_some_iff.1 left
      exact reports_of_act? act ⟨s, hs, Seat.reports_of_left? hleft⟩
    · exact reports_of_act? act (ih he)

end Schedule

/-! ## The next turn -/

end Batch

namespace Timer

theorem not_before_self (t : Timer) : t.before t = false := by
  unfold before
  simp

theorem not_before_of_before {s t : Timer} (h : s.before t = true) : t.before s = false := by
  simp only [before, Bool.or_eq_true, Bool.and_eq_true, decide_eq_true_eq, Bool.or_eq_false_iff,
    Bool.and_eq_false_iff, decide_eq_false_iff_not] at *
  omega

theorem not_before_trans {s t u : Timer} (hst : s.before t = false) (htu : t.before u = false) :
    s.before u = false := by
  simp only [before, Bool.or_eq_false_iff, Bool.and_eq_false_iff, decide_eq_false_iff_not] at *
  omega

end Timer

namespace Batch

/-- No seat waits for a timer that fires before the deadline. -/
def Quiet (deadline : Timer) (seats : List (Seat σ α)) : Prop :=
  ∀ s ∈ seats, ∀ t, s.timer? = some t → t.before deadline = false

theorem Quiet.mono {seats : List (Seat σ α)} {t u : Timer} (h : Quiet t seats)
    (htu : t.before u = false) : Quiet u seats :=
  fun s hs t' ht' => Timer.not_before_trans (h s hs t' ht') htu

theorem quiet_cons {deadline : Timer} {s : Seat σ α} {rest : List (Seat σ α)} :
    Quiet deadline (s :: rest) ↔
      (∀ t, s.timer? = some t → t.before deadline = false) ∧ Quiet deadline rest :=
  List.forall_mem_cons

theorem nextFrom_eq_none {seats : List (Seat σ α)} {k : Nat} (h : nextFrom k seats = none)
    (deadline : Timer) : Quiet deadline seats := by
  induction seats generalizing k with
  | nil => intro s hs; cases hs
  | cons s rest ih =>
    rw [nextFrom] at h
    cases hs : s.timer? with
    | none =>
      rw [hs] at h
      exact quiet_cons.2 ⟨fun t ht => (by rw [hs] at ht; cases ht), ih h⟩
    | some t =>
      rw [hs] at h
      cases hrest : nextFrom (k + 1) rest with
      | none => rw [hrest] at h; cases h
      | some y =>
        rw [hrest, Option.map_some, earlier] at h
        split at h <;> cases h

/-- The timer that fires next is the one of its seat, and none fires before it. -/
theorem nextFrom_eq_some {seats : List (Seat σ α)} {k i : Nat} {t : Timer}
    (h : nextFrom k seats = some (i, t)) :
    (∃ j s, i = k + j ∧ seats[j]? = some s ∧ s.timer? = some t) ∧ Quiet t seats := by
  induction seats generalizing k i t with
  | nil => cases h
  | cons s rest ih =>
    rw [nextFrom] at h
    -- The timer of the first seat against the next one of the rest.
    cases hs : s.timer? with
    | none =>
      rw [hs, Option.map_none, earlier] at h
      obtain ⟨⟨j, s', rfl, hs', ht⟩, hquiet⟩ := ih h
      refine ⟨⟨j + 1, s', by omega, hs', ht⟩, quiet_cons.2 ⟨fun t ht => ?_, hquiet⟩⟩
      rw [hs] at ht
      cases ht
    | some t' =>
      have head (u : Timer) (h : t'.before u = false) (v : Timer) (hv : s.timer? = some v) :
          v.before u = false := by
        rw [hs] at hv
        rwa [← Option.some.inj hv]
      rw [hs, Option.map_some] at h
      cases hrest : nextFrom (k + 1) rest with
      | none =>
        rw [hrest, earlier] at h
        obtain ⟨rfl, rfl⟩ := Prod.mk.inj (Option.some.inj h)
        exact ⟨⟨0, s, rfl, rfl, hs⟩,
          quiet_cons.2 ⟨head _ (Timer.not_before_self t'), nextFrom_eq_none hrest t'⟩⟩
      | some next =>
        obtain ⟨j, u⟩ := next
        obtain ⟨⟨j', s', rfl, hs', hu⟩, hquiet⟩ := ih hrest
        rw [hrest, earlier] at h
        split at h
        · next hbefore =>
          obtain ⟨rfl, rfl⟩ := Prod.mk.inj (Option.some.inj h)
          exact ⟨⟨j' + 1, s', by omega, hs', hu⟩,
            quiet_cons.2 ⟨head _ (Timer.not_before_of_before hbefore), hquiet⟩⟩
        · next hbefore =>
          obtain ⟨rfl, rfl⟩ := Prod.mk.inj (Option.some.inj h)
          rw [Bool.not_eq_true] at hbefore
          exact ⟨⟨0, s, rfl, rfl, hs⟩,
            quiet_cons.2 ⟨head _ (Timer.not_before_self t'), hquiet.mono hbefore⟩⟩

/-- The seat that acts next waits for the timer of its turn, and no timer fires before it. -/
theorem next?_eq_some {b : Batch σ α} {i : Nat} {t : Timer} (h : b.next? = some (i, t)) :
    (∃ s, b.seats[i]? = some s ∧ s.timer? = some t) ∧ Quiet t b.seats := by
  obtain ⟨⟨j, s, rfl, hs, ht⟩, hquiet⟩ := nextFrom_eq_some h
  rw [Nat.zero_add]
  exact ⟨⟨s, hs, ht⟩, hquiet⟩

/-! ## The run of a batch -/

/-- No task runs out of turns. -/
def Tireless (b : Batch σ α) : Prop := ∀ s ∈ b.seats, s.Tireless

theorem Admits.tireless {seats seats' : List (Seat σ α)} (h : Admits seats seats')
    (hseats : ∀ s ∈ seats, s.Tireless) : ∀ s ∈ seats', s.Tireless := by
  obtain rfl | ⟨i, t, start, hqueued, rfl⟩ := h
  · exact hseats
  · intro s hs
    rcases List.mem_or_eq_of_mem_set hs with hs | rfl
    · exact hseats s hs
    · exact fun w _ => hseats _ (List.mem_of_getElem? hqueued) w

theorem tireless_set {seats : List (Seat σ α)} (h : ∀ s ∈ seats, s.Tireless) (i : Nat)
    {s' : Seat σ α} (hs' : s'.Tireless) : ∀ s ∈ seats.set i s', s.Tireless := by
  intro s hs
  rcases List.mem_or_eq_of_mem_set hs with hs | rfl
  · exact h s hs
  · exact hs'

theorem tireless_record? {b : Batch σ α} (h : b.Tireless) (i : Nat) {c : Course σ α}
    (hc : c.Tireless) : ∃ b' w', b.record? i c = some (b', w') ∧ b'.Tireless := by
  obtain ⟨s', hs', htireless⟩ := Seat.exists_of?_of_tireless hc
  refine ⟨(b.settle i s' c.world).1, (b.settle i s' c.world).2, ?_, ?_⟩
  · rw [record?, hs', Option.map_some]
  · exact (admits_settle b i s' c.world).tireless (tireless_set h i htireless)

/-- A seat can act once its timer has fired. -/
theorem tireless_act? {b : Batch σ α} (h : b.Tireless) {i : Nat} {s : Seat σ α} {t : Timer}
    (hs : b.seats[i]? = some s) (ht : s.timer? = some t) {w : World σ} (due : t.due ≤ w.now) :
    ∃ b' w', b.act? i w = some (b', w') ∧ b'.Tireless := by
  have htireless := h s (List.mem_of_getElem? hs)
  cases s with
  | arriving t' start =>
    simp only [act?, hs]
    split
    · exact ⟨_, _, rfl, tireless_set h i htireless⟩
    · exact tireless_record? (b := { b with permits := b.permits.map (· - 1) }) h i (htireless w)
  | running t' resume =>
    obtain rfl : t' = t := Option.some.inj ht
    simp only [act?, hs]
    exact tireless_record? h i (htireless w due)
  | _ => cases ht

/-- The deadline leaves the batch as it stands: nothing was to happen before it, and unless all of
it is settled, the deadline has passed. -/
def Rests (deadline : Timer) (b : Batch σ α) (w : World σ) : Prop :=
  Quiet deadline b.seats ∧ (b.isSettled = false → deadline.due ≤ w.now)

theorem quiet_of_isSettled {b : Batch σ α} (h : b.isSettled = true) (deadline : Timer) :
    Quiet deadline b.seats := by
  intro s hs t ht
  have hsettled : s.isSettled = true := List.all_eq_true.1 h s hs
  cases s with
  | arriving _ _ | running _ _ => cases hsettled
  | _ => cases ht

/-- The turns that `Batch.run` takes: of all timers the one that fires first, as soon as it does. -/
inductive Leads (deadline : Timer) : Batch σ α → World σ → Batch σ α → World σ → Prop where
  | rest (b : Batch σ α) (w : World σ) : Leads deadline b w b w
  | turn {b b' b'' : Batch σ α} {i : Nat} {t : Timer} {w w' w'' : World σ}
      (next : b.next? = some (i, t)) (before : t.before deadline = true)
      (act : b.act? i (w.reach t) = some (b', w')) (leads : Leads deadline b' w' b'' w'') :
      Leads deadline b w b'' w''

/-- The world in which a batch ends that was left in `w`: if it was cut off, the deadline has come.
-/
def closing (deadline : Timer) (b : Batch σ α) (w : World σ) : World σ :=
  if b.isSettled then w else w.reach deadline

/-- A batch of tasks that never run out of turns ends where its turns lead to. -/
theorem run_eq_closing (deadline : Timer) {b : Batch σ α} (h : b.Tireless) (w : World σ) :
    ∃ b' w', Leads deadline b w b' w' ∧ Quiet deadline b'.seats ∧
      (Batch.run deadline b w).run =
        .ended (b'.closing deadline w') (b'.results, !b'.isSettled) := by
  -- Every turn leads to a batch that follows, as in the recursion of `Batch.run`.
  have acc : Acc Follows b := WellFoundedRelation.wf.apply b
  induction acc generalizing w with
  | intro b _ ih =>
    have cutOff (hb : b.isSettled = false) (hquiet : Quiet deadline b.seats) : ∃ b' w',
        Leads deadline b w b' w' ∧ Quiet deadline b'.seats ∧
          (Course.asleep w deadline fun w => .ended w (b.results, true)).run =
            .ended (b'.closing deadline w') (b'.results, !b'.isSettled) := by
      refine ⟨b, w, .rest b w, hquiet, ?_⟩
      rw [closing, hb]
      rfl
    rw [Batch.run]
    split
    · next hb =>
      refine ⟨b, w, .rest b w, quiet_of_isSettled hb deadline, ?_⟩
      rw [closing, if_pos hb, hb]
      rfl
    · next hb =>
      rw [Bool.not_eq_true] at hb
      split
      · next i t hnext =>
        obtain ⟨⟨s, hs, ht⟩, hquiet⟩ := next?_eq_some hnext
        split
        · next hbefore =>
          have due : t.due ≤ (w.reach t).now := Nat.le_max_right _ _
          obtain ⟨b', w', hact, hb'⟩ := tireless_act? h hs ht due
          obtain ⟨b'', w'', hleads, hquiet'', hrun⟩ := ih b' (follows_act? hact) hb' w'
          refine ⟨b'', w'', .turn hnext hbefore hact hleads, hquiet'', ?_⟩
          rw [Course.run]
          split
          · next b₁ w₁ heq =>
            rw [hact] at heq
            obtain ⟨rfl, rfl⟩ := heq
            exact hrun
          · next heq =>
            rw [hact] at heq
            cases heq
        · next hbefore =>
          rw [Bool.not_eq_true] at hbefore
          exact cutOff hb (hquiet.mono hbefore)
      · next hnext => exact cutOff hb (nextFrom_eq_none hnext deadline)

/-! ## The beginning and the end -/

/-- The batch of tasks that all have yet to start. -/
def opening (permits : Option Nat) (tasks : List (Activity σ α)) (w : World σ) : Batch σ α :=
  ⟨(seat tasks w).1, permits⟩

theorem seat_getElem? (tasks : List (Activity σ α)) (w : World σ) (i : Nat) :
    ∃ t, (seat tasks w).1[i]? = tasks[i]?.map (.arriving t) := by
  induction tasks generalizing w i with
  | nil => exact ⟨⟨0, 0⟩, rfl⟩
  | cons task rest ih =>
    cases i with
    | zero => exact ⟨_, rfl⟩
    | succ i => exact ih _ i

section Opening

variable (permits : Option Nat) (tasks : List (Activity σ α)) (w : World σ)

theorem left?_opening (i : Nat) : (opening permits tasks w).left? i = none := by
  obtain ⟨t, ht⟩ := seat_getElem? tasks w i
  rw [left?, opening, ht]
  cases tasks[i]? <;> rfl

theorem length_opening : (opening permits tasks w).seats.length = tasks.length := by
  show (seat tasks w).1.length = _
  induction tasks generalizing w with
  | nil => rfl
  | cons task rest ih => exact congrArg (· + 1) (ih _)

theorem reports_opening {i : Nat} {a : α} (h : (opening permits tasks w).Reports i a) :
    ∃ task, tasks[i]? = some task ∧ task.Reports a := by
  obtain ⟨s, hs, ha⟩ := h
  obtain ⟨t, ht⟩ := seat_getElem? tasks w i
  rw [opening, ht] at hs
  obtain ⟨task, htask, rfl⟩ := Option.map_eq_some_iff.1 hs
  exact ⟨task, htask, ha⟩

theorem tireless_opening (h : ∀ task ∈ tasks, task.Tireless) :
    (opening permits tasks w).Tireless := by
  intro s hs
  obtain ⟨i, hi⟩ := List.mem_iff_getElem?.1 hs
  obtain ⟨t, ht⟩ := seat_getElem? tasks w i
  rw [opening, ht] at hi
  obtain ⟨task, htask, rfl⟩ := Option.map_eq_some_iff.1 hi
  exact h task (List.mem_of_getElem? htask)

end Opening

theorem results_getElem? {b : Batch σ α} {i : Nat} (hi : i < b.seats.length) :
    b.results[i]? = some (b.left? i).join := by
  rw [results, List.getElem?_map, left?, List.getElem?_eq_getElem hi, Option.map_some,
    Seat.result?_eq, Option.bind_some]

theorem isSettled_iff (b : Batch σ α) :
    b.isSettled ↔ ∀ i < b.seats.length, b.left? i ≠ none := by
  have seat (i : Nat) (hi : i < b.seats.length) :
      b.left? i ≠ none ↔ (b.seats[i]).isSettled = true := by
    rw [left?, List.getElem?_eq_getElem hi, Option.bind_some, Seat.isSettled_eq,
      Option.isSome_iff_ne_none]
  rw [isSettled, List.all_eq_true]
  refine ⟨fun h i hi => (seat i hi).2 (h _ (List.getElem_mem hi)), fun h s hs => ?_⟩
  obtain ⟨i, hi, rfl⟩ := List.getElem_of_mem hs
  exact (seat i hi).1 (h i hi)

end Batch

end Rollout
