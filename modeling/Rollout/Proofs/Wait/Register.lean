/-
  The register of a batch: when its handlers are asked to wait, and when their waits are over.

  Each wait marks in a register, part of the state, that it was called, at which time and with which
  budget, and marks that it is over when it ends or crashes (`BatchTerms.Registers`). Any wait can
  be made to do so (`BatchTerms.marked`).

  A seat is calling if its task has started and is not over. Whatever a turn does, what it adds to
  the register tells how the seat that acts has changed in this (`Mark.Turned`, `marks_act?`); so
  the seats that are calling are counted by the register, and each call is made in time, with a
  budget that reaches up to the deadline (`Timely.marks`).
-/
import Mathlib.Data.List.Forall2
import Rollout.Proofs.Activity.Record
import Rollout.Proofs.Wait.Terms
import Rollout.Proofs.Wait.Timely

namespace Rollout

variable {σ α β γ : Type}

/-! ## Marks -/

/-- An entry in the register. -/
inductive Mark where
  /-- A handler was called to wait for a resource, at this time, for this long at most. -/
  | called (r : Resource) (time : Nat) (budget : Duration)
  /-- A wait is over. -/
  | ended
deriving DecidableEq

namespace Mark

def isCalled : Mark → Bool
  | called .. => true
  | ended => false

def isEnded : Mark → Bool
  | called .. => false
  | ended => true

/-- How many waits are in progress. -/
def inProgress (marks : List Mark) : Nat := marks.countP isCalled - marks.countP isEnded

/-- The marks that a turn adds, at this time and up to this deadline, by whether the seat that acts
is calling before and after. -/
inductive Turned (time deadline : Nat) : Bool → List Mark → Bool → Prop where
  | stays (calling : Bool) : Turned time deadline calling [] calling
  | called (r : Resource) : Turned time deadline false [.called r time ⟨deadline - time⟩] true
  | ended : Turned time deadline true [.ended] false
  | passes (r : Resource) :
      Turned time deadline false [.called r time ⟨deadline - time⟩, .ended] false

end Mark

/-! ## Courses and seats -/

/-- The course leaves the register as it is, `before`, but marks where it ends or crashes that it is
over. While it sleeps, others may add to the register. -/
def Course.Marks (register : σ → List Mark) (before : List Mark) : Course σ α → Prop
  | .ended w _ | .crashed w => register w.state = before ++ [.ended]
  | .asleep w _ resume => register w.state = before ∧
      ∀ w' : World σ, (resume w').Marks register (register w'.state)
  | .stuck w | .unsettled w => register w.state = before

/-- The activity marks that it calls, with what is left of the time up to the deadline, and then
that it is over. -/
def Activity.Calls (register : σ → List Mark) (deadline : Nat) (act : Activity σ α) : Prop :=
  ∃ r, ∀ w, (act w).Marks register
    (register w.state ++ [.called r (nanosNow w) ⟨deadline - nanosNow w⟩])

namespace Seat

/-- The task of the seat is calling, or not, and will mark what it does. One that does not wait for
a permit and is yet to call is due. -/
def Marks (register : σ → List Mark) (deadline now : Nat) : Bool → Seat σ α → Prop
  | false, .arriving t start | false, .running t start =>
    t.due ≤ now ∧ start.Calls register deadline
  | false, .queued start => start.Calls register deadline
  | true, .running _ resume => ∀ w, (resume w).Marks register (register w.state)
  | true, .idle | false, .finished _ | false, .lost => True
  | _, _ => False

variable {register : σ → List Mark} {deadline now : Nat}

theorem Marks.later {now' : Nat} {calling : Bool} {s : Seat σ α}
    (h : s.Marks register deadline now calling) (hnow : now ≤ now') :
    s.Marks register deadline now' calling := by
  cases s with
  | arriving t start | running t start =>
    cases calling with
    | false => exact ⟨Nat.le_trans h.1 hnow, h.2⟩
    | true => exact h
  | _ => cases calling <;> exact h

/-- After a part of its course, a task is calling, or it has marked that it is over. -/
theorem marks_of_of? {before : List Mark} {c : Course σ α} {s : Seat σ α}
    (h : c.Marks register before) (hs : of? c = some s) :
    (s.Marks register deadline now true ∧ register c.world.state = before) ∨
      (s.Marks register deadline now false ∧ register c.world.state = before ++ [.ended]) := by
  cases c with
  | ended w a | crashed w =>
    obtain rfl := Option.some.inj hs
    exact .inr ⟨trivial, h⟩
  | asleep w t resume =>
    obtain rfl := Option.some.inj hs
    exact .inl ⟨h.2, h.1⟩
  | stuck w =>
    obtain rfl := Option.some.inj hs
    exact .inl ⟨trivial, h⟩
  | unsettled w => cases hs

/-- A task that starts marks that it calls, and perhaps at once that it is over. -/
theorem turned_of_calls {start : Activity σ α} (h : start.Calls register deadline) {w : World σ}
    {s : Seat σ α} (hs : of? (start w) = some s) :
    ∃ calling marks, Mark.Turned (Activity.nanosNow w) deadline false marks calling ∧
      s.Marks register deadline now calling ∧
      register (start w).world.state = register w.state ++ marks := by
  obtain ⟨r, hr⟩ := h
  obtain ⟨hcalling, hregister⟩ | ⟨hended, hregister⟩ := marks_of_of? (hr w) hs
  · exact ⟨true, _, .called r, hcalling, hregister⟩
  · exact ⟨false, _, .passes r, hended, hregister.trans (List.append_assoc _ _ _)⟩

/-- A task that goes on marks at most that it is over. -/
theorem turned_of_marks {resume : Activity σ α} {w : World σ} {s : Seat σ α}
    (h : (resume w).Marks register (register w.state)) (hs : of? (resume w) = some s) (time : Nat) :
    ∃ calling marks, Mark.Turned time deadline true marks calling ∧
      s.Marks register deadline now calling ∧
      register (resume w).world.state = register w.state ++ marks := by
  obtain ⟨hcalling, hregister⟩ | ⟨hended, hregister⟩ := marks_of_of? h hs
  · exact ⟨true, [], .stays true, hcalling, hregister.trans (List.append_nil _).symm⟩
  · exact ⟨false, _, .ended, hended, hregister⟩

end Seat

/-! ## Turns -/

section Forall₂

variable {R : β → γ → Prop} {xs : List β} {ys : List γ}

theorem forall₂_set (h : List.Forall₂ R xs ys) (i : Nat) {x : β} {y : γ} (hxy : R x y) :
    List.Forall₂ R (xs.set i x) (ys.set i y) := by
  induction h generalizing i with
  | nil => exact .nil
  | cons hab hrest ih =>
    cases i with
    | zero => exact .cons hxy hrest
    | succ i => exact .cons hab (ih i)

theorem exists_of_forall₂ (h : List.Forall₂ R xs ys) {i : Nat} {y : γ} (hy : ys[i]? = some y) :
    ∃ x, xs[i]? = some x ∧ R x y := by
  obtain ⟨hi, rfl⟩ := List.getElem?_eq_some_iff.1 hy
  have hi' : i < xs.length := h.length_eq ▸ hi
  exact ⟨xs[i], List.getElem?_eq_getElem hi', h.get hi' hi⟩

theorem forall₂_set_right (h : List.Forall₂ R xs ys) {i : Nat} {x : β} {y : γ}
    (hx : xs[i]? = some x) (hxy : R x y) : List.Forall₂ R xs (ys.set i y) := by
  obtain ⟨hi, rfl⟩ := List.getElem?_eq_some_iff.1 hx
  have := forall₂_set h i hxy
  rwa [List.set_getElem_self] at this

end Forall₂

namespace Batch

variable {register : σ → List Mark} {deadline : Nat} {calling : List Bool}
  {b b' : Batch σ α} {i : Nat} {w w' : World σ}

/-- For every seat it is told whether its task is calling. -/
def Marks (register : σ → List Mark) (deadline : Nat) (calling : List Bool) (b : Batch σ α)
    (w : World σ) : Prop :=
  List.Forall₂ (fun c s => s.Marks register deadline w.now c) calling b.seats

/-- A seat that is admitted is yet to call. -/
theorem marks_release (h : b.Marks register deadline calling w) :
    (b.release w).1.Marks register deadline calling (b.release w).2 := by
  obtain ⟨j, start, hqueued, hrelease⟩ | ⟨-, hrelease⟩ := b.release_cases w
  · obtain ⟨c, hc, hmarks⟩ := exists_of_forall₂ h hqueued
    rw [hrelease]
    cases c with
    | false => exact forall₂_set_right h hc ⟨Nat.le_refl _, hmarks⟩
    | true => exact hmarks.elim
  · rw [hrelease]
    exact h

theorem marks_settle (h : b.Marks register deadline calling w) {c : Bool} {s : Seat σ α}
    (hs : s.Marks register deadline w.now c) :
    (b.settle i s w).1.Marks register deadline (calling.set i c) (b.settle i s w).2 := by
  unfold settle
  dsimp only
  split
  · exact marks_release (b := { b with seats := b.seats.set i s }) (forall₂_set h i hs)
  · exact forall₂_set h i hs

/-- A seat that acts has a permit if it is busy; one that is not can have one if any are left. -/
def MayHold (b : Batch σ α) (i : Nat) : Prop :=
  b.permits ≠ some 0 ∨ ∃ s, b.seats[i]? = some s ∧ s.isBusy = true

/-- What a turn adds to the register, and how the seat that acts changes by it. Without a permit it
adds nothing. -/
theorem marks_act? (h : b.Marks register deadline calling w) (act : b.act? i w = some (b', w'))
    (hnow : w.now ≤ w'.now) :
    ∃ before marks after, calling[i]? = some before ∧
      Mark.Turned (Activity.nanosNow w) deadline before marks after ∧
      (marks = [] ∨ b.MayHold i) ∧ register w'.state = register w.state ++ marks ∧
      b'.Marks register deadline (calling.set i after) w' := by
  -- What the seat does comes first, and then its permit may admit another one.
  have settled {permits : Option Nat} {c : Course σ α} {s : Seat σ α}
      (heq : (b', w') = Batch.settle ⟨b.seats, permits⟩ i s c.world) {marks : List Mark}
      {after : Bool} (hs : s.Marks register deadline c.world.now after)
      (hregister : register c.world.state = register w.state ++ marks) :
      register w'.state = register w.state ++ marks ∧
        b'.Marks register deadline (calling.set i after) w' := by
    have hstate := state_settle ⟨b.seats, permits⟩ i s c.world
    have hatOnce := (Batch.atOnce_settle ⟨b.seats, permits⟩ i s c.world).now
    rw [← heq] at hstate hatOnce
    have later : Batch.Marks register deadline calling ⟨b.seats, permits⟩ c.world :=
      h.imp fun _ _ hs => hs.later (hatOnce ▸ hnow)
    have hb' := marks_settle (i := i) later hs
    rw [← heq] at hb'
    exact ⟨hstate ▸ hregister, hb'⟩
  obtain ⟨t, start, hs, -, rfl, rfl⟩ | ⟨t, start, s, hs, free, hof, heq⟩ |
      ⟨t, resume, s, hs, hof, heq⟩ := act?_cases act
  · obtain ⟨c, hc, hmarks⟩ := exists_of_forall₂ h hs
    cases c with
    | true => exact hmarks.elim
    | false =>
      exact ⟨false, [], false, hc, .stays false, .inl rfl, (List.append_nil _).symm,
        forall₂_set h i hmarks.2⟩
  · obtain ⟨c, hc, hmarks⟩ := exists_of_forall₂ h hs
    cases c with
    | true => exact hmarks.elim
    | false =>
      obtain ⟨after, marks, turned, hs', hregister⟩ := Seat.turned_of_calls hmarks.2 hof
      exact ⟨false, marks, after, hc, turned, .inr (.inl free), settled heq hs' hregister⟩
  · have busy : b.MayHold i := .inr ⟨_, hs, rfl⟩
    obtain ⟨c, hc, hmarks⟩ := exists_of_forall₂ h hs
    cases c with
    | false =>
      obtain ⟨after, marks, turned, hs', hregister⟩ := Seat.turned_of_calls hmarks.2 hof
      exact ⟨false, marks, after, hc, turned, .inr busy, settled heq hs' hregister⟩
    | true =>
      obtain ⟨after, marks, turned, hs', hregister⟩ := Seat.turned_of_marks (hmarks w) hof _
      exact ⟨true, marks, after, hc, turned, .inr busy, settled heq hs' hregister⟩

/-! ## Passages -/

/-- The register counts the seats that are calling. -/
theorem count_set_of_turned {time : Nat} {before after : Bool} {marks : List Mark}
    (h : Mark.Turned time deadline before marks after) (hbefore : calling[i]? = some before) :
    (calling.set i after).count true + marks.countP Mark.isEnded =
      calling.count true + marks.countP Mark.isCalled := by
  obtain ⟨hi, rfl⟩ := List.getElem?_eq_some_iff.1 hbefore
  have hpos : calling[i] = true → 0 < calling.count true := fun hc =>
    List.count_pos_iff.2 (hc ▸ List.getElem_mem hi)
  rw [List.count_set hi]
  generalize calling[i] = before at h hpos
  cases h with
  | stays => cases after <;> simp_all
  | called r | ended | passes r => simp_all [Mark.isCalled, Mark.isEnded, List.countP_cons]

end Batch

/-- A call is made at an instant of the batch that began at `start`, before the deadline if that is
a later one, and its budget reaches up to the time `last`. -/
def Mark.InTime (start : Nat) (deadline : Timer) (last : Nat) : Mark → Prop
  | called _ time budget => ∃ now, time = now * Duration.nanosPerMilli ∧ start ≤ now ∧
      (now = start ∨ now < deadline.due) ∧ budget = ⟨last - time⟩
  | ended => True

theorem Mark.Turned.inTime {start : Nat} {deadline : Timer} {last now : Nat} {before after : Bool}
    {marks : List Mark} (h : Turned (now * Duration.nanosPerMilli) last before marks after)
    (hstart : start ≤ now) (hnow : now = start ∨ now < deadline.due) :
    ∀ m ∈ marks, m.InTime start deadline last := by
  have hcalled (r : Resource) : (Mark.called r (now * Duration.nanosPerMilli)
      ⟨last - now * Duration.nanosPerMilli⟩).InTime start deadline last :=
    ⟨now, rfl, hstart, hnow, rfl⟩
  intro m hm
  cases h with
  | stays _ => cases hm
  | called r =>
    rw [List.mem_singleton.1 hm]
    exact hcalled r
  | ended =>
    rw [List.mem_singleton.1 hm]
    trivial
  | passes r =>
    rcases List.mem_cons.1 hm with rfl | hm
    · exact hcalled r
    · rw [List.mem_singleton.1 hm]
      trivial

namespace Batch

variable {register : σ → List Mark} {deadline : Timer} {last start : Nat} {calling : List Bool}
  {b b' : Batch σ α} {w w₁ w' : World σ}

/-- The batch is in time, and for every seat it is told whether its task is calling. -/
structure Registered (register : σ → List Mark) (deadline : Timer) (last start : Nat)
    (calling : List Bool) (b : Batch σ α) (w : World σ) : Prop where
  inTime : InTime deadline start b w
  marks : b.Marks register last calling w

/-- A timely turn marks calls in time. -/
theorem Registered.turn (h : Registered register deadline last start calling b w) {i : Nat}
    {s : Seat σ α} {t : Timer} (hs : b.seats[i]? = some s) (ht : s.timer? = some t)
    (before : t.before deadline = true) (fires : Fires register t w w₁)
    (act : b.act? i w₁ = some (b', w')) :
    ∃ before marks after, calling[i]? = some before ∧
      Mark.Turned (Activity.nanosNow w₁) last before marks after ∧
      (marks = [] ∨ b.MayHold i) ∧ register w'.state = register w.state ++ marks ∧
      (∀ m ∈ marks, m.InTime start deadline last) ∧
      Registered register deadline last start (calling.set i after) b' w' := by
  have due : t.due ≤ w₁.now := fires.now ▸ Nat.le_max_right _ _
  have now_le : w.now ≤ w₁.now := fires.now ▸ Nat.le_max_left _ _
  have fired := h.inTime.fires hs ht before fires
  have atOnce := (punctual_act? fired.punctual hs ht due fired.later act).2
  have marks₁ : b.Marks register last calling w₁ := h.marks.imp fun _ _ hs => hs.later now_le
  obtain ⟨c, marks, c', hc, turned, may, hregister, hmarks⟩ :=
    marks_act? marks₁ act (Nat.le_of_eq atOnce.now.symm)
  exact ⟨c, marks, c', hc, turned, may, fires.register ▸ hregister,
    turned.inTime fired.start_le fired.inTime, fired.act? hs ht due act, hmarks⟩

/-- In a timely passage of punctual tasks every call is marked in time, and the register goes on
counting the seats that are calling. -/
theorem Timely.registered (h : Timely register deadline b w b' w')
    (hb : Registered register deadline last start calling b w) :
    ∃ new calling', register w'.state = register w.state ++ new ∧
      Registered register deadline last start calling' b' w' ∧
      calling'.count true + new.countP Mark.isEnded =
        calling.count true + new.countP Mark.isCalled ∧
      ∀ m ∈ new, m.InTime start deadline last := by
  induction h generalizing calling with
  | rest b w =>
    exact ⟨[], calling, (List.append_nil _).symm, hb, rfl, List.forall_mem_nil _⟩
  | @turn b b' b'' i s t w w₁ w' w'' hs ht before fires act _ ih =>
    obtain ⟨c, marks, c', hc, turned, -, hregister, marked, hb'⟩ := hb.turn hs ht before fires act
    obtain ⟨new, calling', hnew, hb'', hcount, inTime⟩ := ih hb'
    refine ⟨marks ++ new, calling', ?_, hb'', ?_, List.forall_mem_append.2 ⟨marked, inTime⟩⟩
    · rw [hnew, hregister, List.append_assoc]
    · have := count_set_of_turned turned hc
      rw [List.countP_append, List.countP_append]
      omega

/-- No task of a batch that begins is calling. -/
theorem registered_opening (permits : Option Nat) {tasks : List (Activity σ α)}
    (punctual : ∀ task ∈ tasks, task.Punctual) (calls : ∀ task ∈ tasks, task.Calls register last)
    (w : World σ) (limit : Duration) :
    Registered register (w.setTimer limit).1 last w.now
      ((seat tasks (w.setTimer limit).2).1.map fun _ => false)
      (opening permits tasks (w.setTimer limit).2) (seat tasks (w.setTimer limit).2).2 := by
  refine ⟨inTime_opening permits punctual w limit, ?_⟩
  refine List.forall₂_map_left_iff.2 (List.forall₂_same.2 fun s hs => ?_)
  obtain ⟨t, task, rfl, htask, hdue, -⟩ := mem_seat hs
  exact ⟨Nat.le_of_eq (hdue.trans (atOnce_seat tasks _).now.symm), calls task htask⟩

end Batch

/-! ## Waits -/

namespace BatchTerms

variable {rs : List Resource} {t : BatchTerms} {reg : Registry} {g : Goal} {wait : Waits σ rs}
  {handlers : List Handler} {w w' : World σ} {b : Batch σ (Except Failure Resource)}

/-- From the world `w` on, in some order of turns that are taken as their timers fire before the
deadline, the batch comes to stand as `b` in the world `w'`. Nobody else changes the register. -/
def Timely {ρ : Type} (t : BatchTerms) (register : σ → ρ) (reg : Registry) (wait : Waits σ rs)
    (w : World σ) (b : Batch σ (Except Failure Resource)) (w' : World σ) : Prop :=
  ∃ handlers, rs.mapM reg.resolveFor = .ok handlers ∧
    Batch.Timely register (w.setTimer t.limit).1
      (Batch.opening t.permits (t.tasks wait handlers w) (w.setTimer t.limit).2)
      (Batch.seat (t.tasks wait handlers w) (w.setTimer t.limit).2).2 b w'

/-- The waits of the batch let time pass only while they sleep. -/
def Punctual (reg : Registry) (wait : Waits σ rs) : Prop :=
  ∀ r handler budget, reg.resolveFor r.1 = .ok handler → (wait handler r budget).Punctual

/-- The waits of the batch mark in the register that they are called, when and with which budget,
and that they are over. -/
def Registers (register : σ → List Mark) (reg : Registry) (wait : Waits σ rs) : Prop :=
  ∀ r handler budget, reg.resolveFor r.1 = .ok handler → ∀ w, (wait handler r budget w).Marks
    register (register w.state ++ [.called r.1 (Activity.nanosNow w) budget])

theorem punctual_tasks (h : rs.mapM reg.resolveFor = .ok handlers) (punctual : Punctual reg wait) :
    ∀ task ∈ t.tasks wait handlers w, task.Punctual := by
  intro task htask
  obtain ⟨r, handler, hresolve, rfl⟩ := exists_of_mem_tasks h htask
  exact fun first w' => punctual r handler _ hresolve first w'

theorem calls_tasks {register : σ → List Mark} (h : rs.mapM reg.resolveFor = .ok handlers)
    (registers : Registers register reg wait) : ∀ task ∈ t.tasks wait handlers w,
      task.Calls register (Activity.nanosNow w + t.limit.nanos) := by
  intro task htask
  obtain ⟨r, handler, hresolve, rfl⟩ := exists_of_mem_tasks h htask
  exact ⟨r.1, fun w' => registers r handler _ hresolve w'⟩

/-- No task of a batch that begins is calling. -/
theorem registered_tasks {register : σ → List Mark} (t : BatchTerms) (w : World σ)
    (h : rs.mapM reg.resolveFor = .ok handlers) (punctual : Punctual reg wait)
    (registers : Registers register reg wait) :
    Batch.Registered register (w.setTimer t.limit).1 (Activity.nanosNow w + t.limit.nanos) w.now
      ((Batch.seat (t.tasks wait handlers w) (w.setTimer t.limit).2).1.map fun _ => false)
      (Batch.opening t.permits (t.tasks wait handlers w) (w.setTimer t.limit).2)
      (Batch.seat (t.tasks wait handlers w) (w.setTimer t.limit).2).2 :=
  Batch.registered_opening t.permits (punctual_tasks h punctual) (calls_tasks h registers) w t.limit

theorem Timely.unfolds {ρ : Type} {register : σ → ρ} (h : t.Timely register reg wait w b w') :
    ∃ log, t.Unfolds reg wait w log b := by
  obtain ⟨handlers, hhandlers, htimely⟩ := h
  obtain ⟨log, hschedule⟩ := htimely.schedule
  exact ⟨log, handlers, hhandlers, hschedule⟩

/-- A batch that fits runs through a timely passage until no timer is left that fires before the
deadline, and reports on where it stands then. -/
theorem run_waitBy_timely {ρ : Type} (register : σ → ρ) (nonempty : rs ≠ [])
    (resolves : ∀ r ∈ rs, ∃ h, reg.resolveFor r = .ok h) (fits : t.Fits w)
    (tireless : Tireless reg wait) :
    ∃ b w', t.Timely register reg wait w b w' ∧ Batch.Quiet (w.setTimer t.limit).1 b.seats ∧
      (t.waitBy reg g rs wait w).run =
        .ended (b.closing (w.setTimer t.limit).1 w') (.ok (t.reportOn g rs b)) := by
  obtain ⟨handlers, hhandlers⟩ := exists_mapM_eq_ok resolves
  obtain ⟨b, w', hleads, hquiet, hrun⟩ :=
    Batch.run_eq_closing (w.setTimer t.limit).1 (Batch.tireless_opening t.permits _
      (w.setTimer t.limit).2 (tireless_tasks hhandlers tireless))
      (Batch.seat (t.tasks wait handlers w) (w.setTimer t.limit).2).2
  refine ⟨b, w', ⟨handlers, hhandlers, hleads.timely register⟩, hquiet, ?_⟩
  rw [run_waitBy_eq_bind nonempty hhandlers fits, hrun]
  rfl

/-! ## Making waits keep a register -/

end BatchTerms

/-- The world with one more mark. -/
def World.mark (w : World (σ × List Mark)) (m : Mark) : World (σ × List Mark) :=
  { w with state := (w.state.1, w.state.2 ++ [m]) }

/-- The course, which marks where it ends or crashes that it is over. -/
def Course.markingEnd : Course (σ × List Mark) α → Course (σ × List Mark) α
  | .ended w a => .ended (w.mark .ended) a
  | .asleep w t resume => .asleep w t fun w' => (resume w').markingEnd
  | .stuck w => .stuck w
  | .crashed w => .crashed (w.mark .ended)
  | .unsettled w => .unsettled w

theorem Course.marks_markingEnd (record : List Mark) (c : Course σ α) :
    (c.besideRecord record).markingEnd.Marks Prod.snd record := by
  induction c generalizing record with
  | asleep w t resume ih => exact ⟨rfl, fun w' => ih w'.withoutRecord w'.state.2⟩
  | _ => rfl

theorem Course.Punctual.markingEnd {c : Course σ α} {first : Nat} {since : World σ}
    (h : c.Punctual first since) (record : List Mark) {before : List Mark} :
    (c.besideRecord record).markingEnd.Punctual first (since.withRecord before) := by
  induction c generalizing since record before with
  | asleep w t resume ih =>
    exact ⟨⟨h.1.now, h.1.timers⟩, h.2.1, fun w' due hw' =>
      ih w'.withoutRecord (h.2.2 w'.withoutRecord due hw') w'.state.2⟩
  | _ => exact ⟨h.now, h.timers⟩

theorem Course.Tireless.markingEnd {c : Course σ α} (h : c.Tireless) (record : List Mark) :
    (c.besideRecord record).markingEnd.Tireless := by
  induction c generalizing record with
  | asleep w t resume ih => exact fun w' due => ih w'.withoutRecord (h _ due) w'.state.2
  | unsettled w => exact h.elim
  | _ => trivial

namespace BatchTerms

variable {rs : List Resource} {reg : Registry} {wait : Waits σ rs}

/-- The waits with a register beside the state. -/
def marked (wait : Waits σ rs) : Waits (σ × List Mark) rs := fun handler r budget w =>
  ((wait handler r budget w.withoutRecord).besideRecord
    (w.state.2 ++ [.called r.1 (Activity.nanosNow w) budget])).markingEnd

theorem registers_marked (reg : Registry) (wait : Waits σ rs) :
    Registers Prod.snd reg (marked wait) :=
  fun _ _ _ _ _ => Course.marks_markingEnd _ _

theorem punctual_marked (h : Punctual reg wait) : Punctual reg (marked wait) :=
  fun r handler budget hresolve first w hw =>
    (h r handler budget hresolve first w.withoutRecord hw).markingEnd _

theorem tireless_marked (h : Tireless reg wait) : Tireless reg (marked wait) :=
  fun r handler budget hresolve w => (h r handler budget hresolve w.withoutRecord).markingEnd _

end BatchTerms

end Rollout
