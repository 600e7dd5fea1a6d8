/-
  Batches without a limit: as many permits as there are tasks.

  A batch without a limit to its concurrency takes its turns as one that has a permit for every task
  (`Timely.limited`). For nobody ever queues in it, and of as many permits as there are tasks one is
  left whenever a task arrives. So what limited batches do is true of it with this limit: when no
  task is due, all waits that are not settled are in progress (`Timely.inProgress_unlimited`).
-/
import Rollout.Proofs.Wait.Permits

namespace Rollout

variable {σ α : Type}

namespace Batch

variable {b b' : Batch σ α} {i n : Nat} {w w' : World σ}

/-- The batch has no limit, nobody queues in it, and `n` permits are enough for all of its tasks. -/
structure Unlimited (n : Nat) (b : Batch σ α) : Prop where
  permits : b.permits = none
  queue : ∀ s ∈ b.seats, s.isQueued = false
  enough : b.seats.length ≤ n

/-- The batch with a limit: of `n` permits, those that no seat has are left. -/
def limited (n : Nat) (b : Batch σ α) : Batch σ α := { b with permits := some (n - busy b.seats) }

/-- With nobody in the queue, a permit that is given back is left. -/
theorem settle_of_no_queue {s : Seat σ α} (queue : ∀ s' ∈ b.seats.set i s, s'.isQueued = false)
    (w : World σ) : b.settle i s w = (⟨b.seats.set i s,
      if s.isSettled then b.permits.map (· + 1) else b.permits⟩, w) := by
  unfold settle
  dsimp only
  split
  · obtain ⟨j, start, hqueued, -⟩ | ⟨-, hrelease⟩ :=
      release_cases { b with seats := b.seats.set i s } w
    · have := queue _ (List.mem_of_getElem? hqueued)
      cases this
    · exact hrelease
  · rfl

/-- A seat that takes or keeps a permit, or gives it back, does so with and without a limit. -/
theorem settle_limited {left : Nat} {s s' : Seat σ α} (h : b.Unlimited n)
    (hs : b.seats[i]? = some s) (hs' : s'.isBusy = !s'.isSettled ∧ s'.isQueued = false)
    (hleft : left + 1 + busy b.seats = n + s.isBusy.toNat) (w : World σ) :
    (⟨b.seats, some left⟩ : Batch σ α).settle i s' w =
        ((b.settle i s' w).1.limited n, (b.settle i s' w).2) ∧
      (b.settle i s' w).1.Unlimited n := by
  have queue : ∀ s ∈ b.seats.set i s', s.isQueued = false := not_queued_set h.queue hs'.2
  have limited_settle := settle_of_no_queue (b := ⟨b.seats, some left⟩) queue w
  have unlimited_settle := settle_of_no_queue (b := b) queue w
  have hbusy := busy_set hs s'
  have enough : (b.seats.set i s').length ≤ n := by
    rw [List.length_set]
    exact h.enough
  have kept : (if s'.isSettled then (some left).map (· + 1) else some left) =
      some (n - busy (b.seats.set i s')) := by
    cases settled : s'.isSettled with
    | true =>
      have idle : s'.isBusy.toNat = 0 := by rw [hs'.1, settled]; rfl
      show some (left + 1) = _
      congr 1
      omega
    | false =>
      have taken : s'.isBusy.toNat = 1 := by rw [hs'.1, settled]; rfl
      show some left = _
      congr 1
      omega
  rw [limited_settle, unlimited_settle, h.permits]
  refine ⟨congrArg (fun permits => (Batch.mk (b.seats.set i s') permits, w)) kept, ?_, queue,
    enough⟩
  cases s'.isSettled <;> rfl

/-- A task that has no permit finds one left. -/
theorem Unlimited.busy_lt (h : b.Unlimited n) {s : Seat σ α} (hs : b.seats[i]? = some s)
    (hbusy : s.isBusy = false) : busy b.seats < n := by
  have more : busy (b.seats.set i .idle) + s.isBusy.toNat = busy b.seats + 1 := busy_set hs .idle
  have le : busy (b.seats.set i .idle) ≤ (b.seats.set i .idle).length := List.countP_le_length
  rw [List.length_set] at le
  rw [hbusy] at more
  have := h.enough
  simp only [Bool.toNat_false] at more
  omega

/-- A turn of a batch without a limit is one with as many permits as tasks. -/
theorem act?_limited (h : b.Unlimited n) (act : b.act? i w = some (b', w')) :
    (b.limited n).act? i w = some (b'.limited n, w') ∧ b'.Unlimited n := by
  have le : busy b.seats ≤ n := Nat.le_trans List.countP_le_length h.enough
  obtain ⟨t, start, hs, full, -⟩ | ⟨t, start, s', hs, -, hof, heq⟩ |
      ⟨t, resume, s', hs, hof, heq⟩ := act?_cases act
  · cases h.permits.symm.trans full
  · have free : busy b.seats < n := h.busy_lt hs rfl
    have hleft : n - busy b.seats - 1 + 1 + busy b.seats = n + 0 := by omega
    have left : some (n - busy b.seats) ≠ some 0 := by
      intro hnone
      have := Option.some.inj hnone
      omega
    have same : { b with permits := b.permits.map (· - 1) } = b := by
      rw [h.permits]
      exact congrArg (Batch.mk b.seats) h.permits.symm
    obtain ⟨hsettle, hb'⟩ := settle_limited h hs (Seat.isBusy_of_of? hof) hleft (start w).world
    rw [same] at heq
    rw [← heq] at hsettle hb'
    refine ⟨?_, hb'⟩
    unfold act?
    rw [show (b.limited n).seats[i]? = _ from hs]
    show (if some (n - busy b.seats) = some 0 then _ else _) = _
    rw [if_neg left, record?, hof]
    exact congrArg some hsettle
  · have hleft : n - busy b.seats + 1 + busy b.seats = n + 1 := by omega
    obtain ⟨hsettle, hb'⟩ := settle_limited h hs (Seat.isBusy_of_of? hof) hleft (resume w).world
    rw [← heq] at hsettle hb'
    refine ⟨?_, hb'⟩
    unfold act?
    rw [show (b.limited n).seats[i]? = _ from hs]
    show record? _ i (resume w) = _
    rw [record?, hof]
    exact congrArg some hsettle

/-- A timely passage of a batch without a limit is one with as many permits as tasks. -/
theorem Timely.limited {ρ : Type} {register : σ → ρ} {deadline : Timer}
    (h : Timely register deadline b w b' w') (hb : b.Unlimited n) :
    Timely register deadline (b.limited n) w (b'.limited n) w' := by
  induction h with
  | rest b w => exact .rest _ w
  | turn hs ht before fires act _ ih =>
    obtain ⟨hact, hb'⟩ := act?_limited hb act
    exact .turn hs ht before fires hact (ih hb')

/-- As the batch begins, all of the permits are left. -/
theorem unlimited_opening {tasks : List (Activity σ α)} (enough : tasks.length ≤ n) (w : World σ) :
    (opening none tasks w).Unlimited n ∧
      (opening none tasks w).limited n = opening (some n) tasks w := by
  refine ⟨⟨rfl, fun s hs => (arriving_of_mem_seat hs).2, ?_⟩, ?_⟩
  · rwa [length_opening]
  · show Batch.mk (seat tasks w).1 (some (n - busy (seat tasks w).1)) = _
    rw [busy_seat]
    rfl

end Batch

namespace BatchTerms

variable {rs : List Resource} {t : BatchTerms} {reg : Registry} {wait : Waits σ rs}
  {w w' : World σ} {b : Batch σ (Except Failure Resource)}

/-- What a batch without a limit may do, it may do with the number of its resources as the limit. -/
theorem Timely.limited {ρ : Type} {register : σ → ρ} (unlimited : t.concurrency = none)
    (h : t.Timely register reg wait w b w') :
    { t with concurrency := some rs.length }.Timely register reg wait w
      (b.limited (max 1 rs.length)) w' := by
  obtain ⟨handlers, hhandlers, htimely⟩ := h
  have enough : (t.tasks wait handlers w).length ≤ max 1 rs.length := by
    rw [length_tasks hhandlers]
    exact Nat.le_max_right _ _
  have free : t.permits = none := congrArg (Option.map _) unlimited
  obtain ⟨hopening, hlimited⟩ := Batch.unlimited_opening enough (w.setTimer t.limit).2
  rw [free] at htimely
  refine ⟨handlers, hhandlers, ?_⟩
  have := htimely.limited hopening
  rw [hlimited] at this
  exact this

/-- Without a limit, at no moment more waits are in progress than there are resources; when no task
is due, all that are not settled. -/
theorem Timely.inProgress_unlimited {register : σ → List Mark} (unlimited : t.concurrency = none)
    (h : t.Timely register reg wait w b w') (punctual : Punctual reg wait)
    (registers : Registers register reg wait) :
    ∃ new, register w'.state = register w.state ++ new ∧
      (∀ past, past <+: new → Mark.inProgress past ≤ max 1 rs.length) ∧
      (b.Blocked w' → Mark.inProgress new = b.seats.countP fun s => !s.isSettled) := by
  obtain ⟨log, hunfolds⟩ := h.unfolds
  have le : (b.seats.countP fun s => !s.isSettled) ≤ max 1 rs.length := by
    have := List.countP_le_length (p := fun s => !s.isSettled) (l := b.seats)
    rw [hunfolds.length] at this
    omega
  obtain ⟨new, hnew, hpasts, hblocked⟩ := (h.limited unlimited).inProgress rfl punctual registers
  refine ⟨new, hnew, hpasts, fun blocked => ?_⟩
  have hmin := hblocked blocked
  change Mark.inProgress new = min _ (b.seats.countP fun s => !s.isSettled) at hmin
  omega

end BatchTerms

end Rollout
