/-
  Timely passages of a batch: every turn is taken as its timer fires.

  In a timely passage any seat whose timer fires before the deadline may act next, in the world in
  which the timer fires: at its instant, or at once if that is over. Others may set timers and
  change the state in between, but not the register that is read off it. `Batch.run` takes the turns
  of such a passage (`Leads.timely`), and a passage forgets all but the turns (`Timely.schedule`).

  A turn of punctual tasks takes no time, and all their timers were set after the deadline's. So a
  passage never gets to the deadline, unless it begins there (`Timely.inTime`).
-/
import Rollout.Proofs.Activity.Punctual
import Rollout.Proofs.Wait.Schedule

namespace Rollout

variable {σ α ρ : Type}

/-! ## Punctual seats -/

namespace Seat

/-- The task of the seat lets time pass only while it sleeps, for timers from `first` on. -/
def Punctual (first : Nat) : Seat σ α → Prop
  | .arriving t start => first ≤ t.order ∧ start.Punctual
  | .queued start => start.Punctual
  | .running t resume => first ≤ t.order ∧
      ∀ w : World σ, t.due ≤ w.now → first ≤ w.timers → (resume w).Punctual first w
  | .idle | .finished _ | .lost => True

theorem Punctual.first_le {first : Nat} {s : Seat σ α} (h : s.Punctual first) {t : Timer}
    (ht : s.timer? = some t) : first ≤ t.order := by
  cases s with
  | arriving t' _ | running t' _ =>
    obtain rfl := Option.some.inj ht
    exact h.1
  | _ => cases ht

theorem punctual_of_of? {first : Nat} {since : World σ} {c : Course σ α} {s : Seat σ α}
    (h : c.Punctual first since) (hs : of? c = some s) : s.Punctual first := by
  cases c with
  | asleep w t resume =>
    obtain rfl := Option.some.inj hs
    exact h.2
  | unsettled w => cases hs
  | _ =>
    obtain rfl := Option.some.inj hs
    trivial

end Seat

namespace Batch

/-! ## What a turn does to the world -/

/-- A permit that is given back goes to the first seat in the queue, or, with none there, to the
rest. -/
theorem release_cases (b : Batch σ α) (w : World σ) :
    (∃ i start, b.seats[i]? = some (.queued start) ∧ b.release w =
      ({ b with seats := b.seats.set i (.running (w.setTimer ⟨0⟩).1 start) }, (w.setTimer ⟨0⟩).2)) ∨
    ((∀ s ∈ b.seats, s.isQueued = false) ∧
      b.release w = ({ b with permits := b.permits.map (· + 1) }, w)) := by
  cases hfind : b.seats.findIdx? Seat.isQueued with
  | none =>
    refine .inr ⟨List.findIdx?_eq_none_iff.1 hfind, ?_⟩
    rw [release, hfind]
  | some i =>
    obtain ⟨hi, hqueued, -⟩ := List.findIdx?_eq_some_iff_getElem.1 hfind
    have hget := List.getElem?_eq_getElem hi
    cases hs : b.seats[i] with
    | queued start =>
      rw [hs] at hget
      refine .inl ⟨i, start, hget, ?_⟩
      simp only [release, hfind, hget]
    | _ =>
      rw [hs] at hqueued
      cases hqueued

theorem atOnce_release (b : Batch σ α) (w : World σ) : w.AtOnce (b.release w).2 := by
  obtain ⟨i, start, -, hrelease⟩ | ⟨-, hrelease⟩ := b.release_cases w
  · rw [hrelease]
    exact .setTimer w ⟨0⟩
  · rw [hrelease]
    exact .refl w

theorem atOnce_settle (b : Batch σ α) (i : Nat) (s : Seat σ α) (w : World σ) :
    w.AtOnce (b.settle i s w).2 := by
  unfold settle
  dsimp only
  split
  · exact atOnce_release _ w
  · exact .refl w

/-- A seat that acts asks for a permit and queues, starts with a permit, or goes on. -/
theorem act?_cases {b b' : Batch σ α} {i : Nat} {w w' : World σ}
    (h : b.act? i w = some (b', w')) :
    (∃ t start, b.seats[i]? = some (.arriving t start) ∧ b.permits = some 0 ∧
      b' = { b with seats := b.seats.set i (.queued start) } ∧ w' = w) ∨
    (∃ t start s, b.seats[i]? = some (.arriving t start) ∧ b.permits ≠ some 0 ∧
      Seat.of? (start w) = some s ∧
      (b', w') = { b with permits := b.permits.map (· - 1) }.settle i s (start w).world) ∨
    ∃ t resume s, b.seats[i]? = some (.running t resume) ∧ Seat.of? (resume w) = some s ∧
      (b', w') = b.settle i s (resume w).world := by
  unfold act? at h
  split at h
  · next t start hs =>
    split at h
    · next full =>
      obtain ⟨rfl, rfl⟩ := h
      exact .inl ⟨t, start, hs, full, rfl, rfl⟩
    · next free =>
      obtain ⟨s, hof, hsettle⟩ := Option.map_eq_some_iff.1 h
      exact .inr (.inl ⟨t, start, s, hs, free, hof, hsettle.symm⟩)
  · next t resume hs =>
    obtain ⟨s, hof, hsettle⟩ := Option.map_eq_some_iff.1 h
    exact .inr (.inr ⟨t, resume, s, hs, hof, hsettle.symm⟩)
  · cases h

/-- The task of every seat lets time pass only while it sleeps. -/
def Punctual (first : Nat) (b : Batch σ α) : Prop := ∀ s ∈ b.seats, s.Punctual first

section Turn

variable {b b' : Batch σ α} {first i : Nat} {w w' : World σ}

theorem punctual_set {seats : List (Seat σ α)} {s' : Seat σ α}
    (h : ∀ s ∈ seats, s.Punctual first) (hs' : s'.Punctual first) :
    ∀ s ∈ seats.set i s', s.Punctual first := by
  intro s hs
  rcases List.mem_or_eq_of_mem_set hs with hs | rfl
  · exact h s hs
  · exact hs'

theorem punctual_release (h : b.Punctual first) (hw : first ≤ w.timers) :
    (b.release w).1.Punctual first := by
  obtain ⟨j, start, hqueued, hrelease⟩ | ⟨-, hrelease⟩ := b.release_cases w
  · have hstart : start.Punctual := h _ (List.mem_of_getElem? hqueued)
    rw [hrelease]
    exact punctual_set h ⟨hw, fun w' _ hw' => hstart first w' hw'⟩
  · rw [hrelease]
    exact h

theorem punctual_settle (h : b.Punctual first) (i : Nat) {s : Seat σ α} (hs : s.Punctual first)
    (hw : first ≤ w.timers) : (b.settle i s w).1.Punctual first := by
  unfold settle
  dsimp only
  split
  · exact punctual_release (b := { b with seats := b.seats.set i s }) (punctual_set h hs) hw
  · exact punctual_set h hs

/-- The turn of a punctual task takes no time. -/
theorem punctual_act? (h : b.Punctual first) {s : Seat σ α} {t : Timer}
    (hs : b.seats[i]? = some s) (ht : s.timer? = some t) (due : t.due ≤ w.now)
    (hw : first ≤ w.timers) (act : b.act? i w = some (b', w')) :
    b'.Punctual first ∧ w.AtOnce w' := by
  have settled {b : Batch σ α} (h : b.Punctual first) {c : Course σ α} {s : Seat σ α}
      (hc : c.Punctual first w) (hof : Seat.of? c = some s)
      (heq : (b', w') = b.settle i s c.world) : b'.Punctual first ∧ w.AtOnce w' := by
    have hb' := punctual_settle h i (Seat.punctual_of_of? hc hof)
      (Nat.le_trans hw hc.atOnce.timers)
    have hw' := b.atOnce_settle i s c.world
    rw [← heq] at hb' hw'
    exact ⟨hb', hc.atOnce.trans hw'⟩
  have hpunctual := h s (List.mem_of_getElem? hs)
  obtain ⟨t', start, hs', -, rfl, rfl⟩ | ⟨t', start, s', hs', -, hof, heq⟩ |
      ⟨t', resume, s', hs', hof, heq⟩ := act?_cases act
  · obtain rfl := Option.some.inj (hs.symm.trans hs')
    exact ⟨punctual_set h hpunctual.2, .refl _⟩
  · obtain rfl := Option.some.inj (hs.symm.trans hs')
    exact settled (b := { b with permits := b.permits.map (· - 1) }) h (hpunctual.2 first w hw) hof
      heq
  · obtain rfl := Option.some.inj (hs.symm.trans hs')
    obtain rfl := Option.some.inj ht
    exact settled h (hpunctual.2 w due hw) hof heq

end Turn

/-! ## Timely passages -/

/-- As the timer fires, the first world has become the second one. Others may have acted, but did
not change the register. -/
structure Fires (register : σ → ρ) (t : Timer) (w w₁ : World σ) : Prop where
  now : w₁.now = max w.now t.due
  timers : w.timers ≤ w₁.timers
  register : register w₁.state = register w.state

theorem fires_reach (register : σ → ρ) (t : Timer) (w : World σ) : Fires register t w (w.reach t) :=
  ⟨rfl, Nat.le_refl _, rfl⟩

/-- Turn by turn, each as its timer fires before the deadline, the first batch becomes the second
one, and the first world the second one. -/
inductive Timely (register : σ → ρ) (deadline : Timer) :
    Batch σ α → World σ → Batch σ α → World σ → Prop where
  | rest (b : Batch σ α) (w : World σ) : Timely register deadline b w b w
  | turn {b b' b'' : Batch σ α} {i : Nat} {s : Seat σ α} {t : Timer} {w w₁ w' w'' : World σ}
      (hs : b.seats[i]? = some s) (ht : s.timer? = some t) (before : t.before deadline = true)
      (fires : Fires register t w w₁) (act : b.act? i w₁ = some (b', w'))
      (next : Timely register deadline b' w' b'' w'') : Timely register deadline b w b'' w''

variable {register : σ → ρ} {deadline : Timer} {b b' : Batch σ α} {w w' : World σ}

theorem Leads.timely (h : Leads deadline b w b' w') (register : σ → ρ) :
    Timely register deadline b w b' w' := by
  induction h with
  | rest b w => exact .rest b w
  | @turn b b' b'' i t w w' w'' next before act _ ih =>
    obtain ⟨⟨s, hs, ht⟩, -⟩ := next?_eq_some next
    exact .turn hs ht before (fires_reach register t w) act ih

theorem Timely.schedule (h : Timely register deadline b w b' w') :
    ∃ log, Schedule deadline b log b' := by
  induction h with
  | rest b w => exact ⟨[], .rest b⟩
  | @turn b b' b'' i s t w w₁ w' w'' hs ht before _ act _ ih =>
    obtain ⟨log, hschedule⟩ := ih
    have may : b.MayAct deadline i := ⟨s, t, hs, ht, before⟩
    cases hleft : b'.left? i with
    | none => exact ⟨log, .turn may act hleft hschedule⟩
    | some x => exact ⟨_, .leave may act hleft hschedule⟩

/-! ## Time -/

/-- The batch of punctual tasks that began at the instant `start` stands at an instant before the
deadline, or at that one still; all its timers were set after the deadline's. -/
structure InTime (deadline : Timer) (start : Nat) (b : Batch σ α) (w : World σ) : Prop where
  punctual : b.Punctual (deadline.order + 1)
  later : deadline.order < w.timers
  start_le : start ≤ w.now
  inTime : w.now = start ∨ w.now < deadline.due

namespace InTime

variable {start : Nat} {w₁ : World σ} {i : Nat} {s : Seat σ α} {t : Timer}

/-- A timer that fires before the deadline fires at an earlier instant. -/
theorem due_lt (h : InTime deadline start b w) (hs : b.seats[i]? = some s)
    (ht : s.timer? = some t) (before : t.before deadline = true) : t.due < deadline.due := by
  have horder := (h.punctual s (List.mem_of_getElem? hs)).first_le ht
  simp only [Timer.before, Bool.or_eq_true, Bool.and_eq_true, decide_eq_true_eq] at before
  omega

/-- As a timer fires, the batch is still in time. -/
theorem fires (h : InTime deadline start b w) (hs : b.seats[i]? = some s) (ht : s.timer? = some t)
    (before : t.before deadline = true) (hfires : Fires register t w w₁) :
    InTime deadline start b w₁ := by
  have hdue := h.due_lt hs ht before
  have hnow := hfires.now
  have hstart := h.start_le
  refine ⟨h.punctual, Nat.lt_of_lt_of_le h.later hfires.timers, by omega, ?_⟩
  rcases h.inTime with hw | hw <;> omega

theorem act? (h : InTime deadline start b w) (hs : b.seats[i]? = some s) (ht : s.timer? = some t)
    (due : t.due ≤ w.now) (act : b.act? i w = some (b', w')) : InTime deadline start b' w' := by
  obtain ⟨hpunctual, hw'⟩ := punctual_act? h.punctual hs ht due h.later act
  refine ⟨hpunctual, Nat.lt_of_lt_of_le h.later hw'.timers, ?_, ?_⟩
  · rw [hw'.now]
    exact h.start_le
  · rw [hw'.now]
    exact h.inTime

end InTime

/-- A timely passage of punctual tasks stays in time. -/
theorem Timely.inTime {start : Nat} (h : Timely register deadline b w b' w')
    (hb : InTime deadline start b w) : InTime deadline start b' w' := by
  induction h with
  | rest b w => exact hb
  | turn hs ht before fires act _ ih =>
    have due := fires.now ▸ Nat.le_max_right _ _
    exact ih ((hb.fires hs ht before fires).act? hs ht due act)

/-! ## Beginning -/

theorem atOnce_seat (tasks : List (Activity σ α)) (w : World σ) :
    w.AtOnce (seat tasks w).2 := by
  induction tasks generalizing w with
  | nil => exact .refl w
  | cons task rest ih => exact (World.AtOnce.setTimer w ⟨0⟩).trans (ih _)

/-- The seats of a batch that begins wait for timers that were set one after the other. -/
theorem mem_seat {tasks : List (Activity σ α)} {w : World σ} {s : Seat σ α}
    (hs : s ∈ (seat tasks w).1) :
    ∃ t task, s = .arriving t task ∧ task ∈ tasks ∧ t.due = w.now ∧ w.timers ≤ t.order := by
  induction tasks generalizing w with
  | nil => cases hs
  | cons task rest ih =>
    rcases List.mem_cons.1 hs with rfl | hs
    · exact ⟨_, task, rfl, List.mem_cons_self, rfl, Nat.le_refl _⟩
    · obtain ⟨t, task', rfl, htask, hdue, horder⟩ := ih hs
      exact ⟨t, task', rfl, List.mem_cons_of_mem _ htask, hdue, Nat.le_of_succ_le horder⟩

/-- A batch of punctual tasks begins in time. -/
theorem inTime_opening (permits : Option Nat) {tasks : List (Activity σ α)}
    (h : ∀ task ∈ tasks, task.Punctual) (w : World σ) (limit : Duration) :
    InTime (w.setTimer limit).1 w.now (opening permits tasks (w.setTimer limit).2)
      (seat tasks (w.setTimer limit).2).2 := by
  have begun := atOnce_seat tasks (w.setTimer limit).2
  refine ⟨fun s hs => ?_, begun.timers, Nat.le_of_eq begun.now.symm, .inl begun.now⟩
  obtain ⟨t, task, rfl, htask, -, horder⟩ := mem_seat hs
  exact ⟨horder, h task htask⟩

end Batch

end Rollout
