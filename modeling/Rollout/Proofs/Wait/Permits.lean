/-
  Permits: how many waits of a batch are in progress at the same time.

  A seat is busy if its task has a permit. The permits that seats have and those that nobody has are
  always as many as there were at first, and nobody queues while there are any left
  (`Batch.Permitted`). Only a busy seat calls; so at no moment of a timely passage are more waits in
  progress than there are permits, and when no task is due, as many as there may be: all that are
  not settled, or else one for each permit. Whether a wait succeeds, fails or crashes makes no
  difference to this.

  If what a wait comes to does not depend on when it starts, the order of turns does not matter, and
  so neither does the number of permits (`reportOn_eq_of_comesTo`).
-/
import Rollout.Proofs.Wait.Budget

namespace Rollout

variable {σ α : Type}

namespace Seat

theorem isBusy_of_of? {c : Course σ α} {s : Seat σ α} (h : of? c = some s) :
    s.isBusy = !s.isSettled ∧ s.isQueued = false := by
  cases c with
  | unsettled w => cases h
  | _ =>
    obtain rfl := Option.some.inj h
    exact ⟨rfl, rfl⟩

end Seat

namespace Batch

/-! ## Permits -/

/-- As many seats as this have a permit. -/
def busy (seats : List (Seat σ α)) : Nat := seats.countP Seat.isBusy

theorem busy_set {seats : List (Seat σ α)} {i : Nat} {s : Seat σ α} (hs : seats[i]? = some s)
    (s' : Seat σ α) :
    busy (seats.set i s') + s.isBusy.toNat = busy seats + s'.isBusy.toNat := by
  obtain ⟨hi, rfl⟩ := List.getElem?_eq_some_iff.1 hs
  have hpos : seats[i].isBusy = true → 0 < busy seats := fun h =>
    List.countP_pos_iff.2 ⟨_, List.getElem_mem hi, h⟩
  unfold busy at *
  rw [List.countP_set hi]
  cases h : seats[i].isBusy with
  | true =>
    have := hpos h
    cases s'.isBusy <;> simp <;> omega
  | false => cases s'.isBusy <;> rfl

/-- Each of the `n` permits is with a seat or left, and if one is left, nobody queues. -/
def Permitted (n : Nat) (b : Batch σ α) : Prop :=
  ∃ left, b.permits = some left ∧ busy b.seats + left = n ∧
    (0 < left → ∀ s ∈ b.seats, s.isQueued = false)

theorem not_queued_set {seats : List (Seat σ α)} {i : Nat} {s' : Seat σ α}
    (h : ∀ s ∈ seats, s.isQueued = false) (hs' : s'.isQueued = false) :
    ∀ s ∈ seats.set i s', s.isQueued = false := by
  intro s hs
  rcases List.mem_or_eq_of_mem_set hs with hs | rfl
  · exact h s hs
  · exact hs'

variable {b b' : Batch σ α} {i n : Nat} {w w' : World σ}

/-- A seat that was given a permit keeps it, or gives it back as it is settled. -/
theorem permitted_settle {left : Nat} {s s' : Seat σ α} (hs : b.seats[i]? = some s)
    (hpermits : b.permits = some left) (hbusy : busy b.seats + left + 1 = n + s.isBusy.toNat)
    (hqueue : 0 < left → ∀ s ∈ b.seats, s.isQueued = false)
    (hs' : s'.isBusy = !s'.isSettled ∧ s'.isQueued = false) (w : World σ) :
    (b.settle i s' w).1.Permitted n := by
  have hset := busy_set hs s'
  have hqueue' : 0 < left → ∀ s ∈ b.seats.set i s', s.isQueued = false :=
    fun h => not_queued_set (hqueue h) hs'.2
  unfold settle
  dsimp only
  split
  · next settled =>
    have idle : s'.isBusy.toNat = 0 := by rw [hs'.1, settled]; rfl
    obtain ⟨j, start, hqueued, hrelease⟩ | ⟨hnone, hrelease⟩ :=
      release_cases { b with seats := b.seats.set i s' } w
    · have hadmit : busy ((b.seats.set i s').set j (.running (w.setTimer ⟨0⟩).1 start)) + 0 =
        busy (b.seats.set i s') + 1 := busy_set hqueued (.running (w.setTimer ⟨0⟩).1 start)
      rw [hrelease]
      refine ⟨left, hpermits, ?_, fun h => not_queued_set (hqueue' h) rfl⟩
      show busy ((b.seats.set i s').set j _) + left = n
      omega
    · rw [hrelease]
      refine ⟨left + 1, by rw [hpermits]; rfl, ?_, fun _ => hnone⟩
      show busy (b.seats.set i s') + (left + 1) = n
      omega
  · next settled =>
    have kept : s'.isBusy.toNat = 1 := by rw [hs'.1, Bool.eq_false_iff.2 settled]; rfl
    refine ⟨left, hpermits, ?_, hqueue'⟩
    show busy (b.seats.set i s') + left = n
    omega

/-- A turn moves permits, but none is lost. -/
theorem permitted_act? (h : b.Permitted n) (act : b.act? i w = some (b', w')) :
    b'.Permitted n := by
  obtain ⟨left, hpermits, hbusy, hqueue⟩ := h
  obtain ⟨t, start, hs, full, rfl, -⟩ | ⟨t, start, s', hs, free, hof, heq⟩ |
      ⟨t, resume, s', hs, hof, heq⟩ := act?_cases act
  · -- There is no permit left, and one more seat queues for one.
    obtain rfl := Option.some.inj (hpermits.symm.trans full)
    have same : busy (b.seats.set i (.queued start)) = busy b.seats := busy_set hs (.queued start)
    exact ⟨0, hpermits, same ▸ hbusy, nofun⟩
  · cases left with
    | zero => exact absurd hpermits free
    | succ left =>
      have taken : busy b.seats + left + 1 = n + 0 := hbusy
      have hb' := permitted_settle (b := { b with permits := b.permits.map (· - 1) }) hs
        (by rw [hpermits]; rfl) taken (fun _ => hqueue (Nat.succ_pos left)) (Seat.isBusy_of_of? hof)
        (start w).world
      rwa [← heq] at hb'
  · have held : busy b.seats + left + 1 = n + 1 := congrArg (· + 1) hbusy
    have hb' := permitted_settle hs hpermits held hqueue (Seat.isBusy_of_of? hof) (resume w).world
    rwa [← heq] at hb'

/-- As a batch begins, nobody has a permit, and nobody queues for one. -/
theorem arriving_of_mem_seat {tasks : List (Activity σ α)} {w : World σ} {s : Seat σ α}
    (hs : s ∈ (seat tasks w).1) : s.isBusy = false ∧ s.isQueued = false := by
  obtain ⟨t, task, rfl, -⟩ := mem_seat hs
  exact ⟨rfl, rfl⟩

theorem busy_seat (tasks : List (Activity σ α)) (w : World σ) : busy (seat tasks w).1 = 0 :=
  List.countP_eq_zero.2 fun _ hs => Bool.eq_false_iff.1 (arriving_of_mem_seat hs).1

theorem permitted_opening (n : Nat) (tasks : List (Activity σ α)) (w : World σ) :
    (opening (some n) tasks w).Permitted n := by
  refine ⟨n, rfl, ?_, fun _ s hs => (arriving_of_mem_seat hs).2⟩
  show busy (seat tasks w).1 + n = n
  rw [busy_seat, Nat.zero_add]

/-- A task on its own that ends as it starts gives its permit back. -/
theorem act?_of_one {t : Timer} {start : Activity σ α} {permits : Option Nat} {w w' : World σ}
    {a : α} (free : permits ≠ some 0) (h : start w = .ended w' a) :
    Batch.act? ⟨[.arriving t start], permits⟩ 0 w =
      some (⟨[.finished a], (permits.map (· - 1)).map (· + 1)⟩, w') := by
  show (if permits = some 0 then _ else _) = _
  rw [if_neg free, h]
  rfl

/-! ## Waits in progress -/

variable {register : σ → List Mark} {deadline : Timer} {last start : Nat} {calling : List Bool}

theorem count_le_busy {seats : List (Seat σ α)}
    (h : List.Forall₂ (fun c s => c = true → s.isBusy = true) calling seats) :
    calling.count true ≤ busy seats := by
  induction h with
  | nil => exact Nat.le_refl _
  | @cons c s calling seats hcs _ ih =>
    unfold busy at *
    rw [List.count_cons, List.countP_cons]
    cases c with
    | false => exact Nat.le_trans ih (Nat.le_add_right _ _)
    | true =>
      rw [hcs rfl]
      exact Nat.succ_le_succ ih

theorem isBusy_of_calling {now : Nat} {c : Bool} {s : Seat σ α}
    (h : s.Marks register last now c) (hc : c = true) : s.isBusy = true := by
  subst hc
  cases s with
  | running t resume | idle => rfl
  | _ => exact h.elim

/-- Only who has a permit calls. -/
theorem Registered.count_le_busy (h : Registered register deadline last start calling b w) :
    calling.count true ≤ busy b.seats :=
  Batch.count_le_busy (h.marks.imp fun _ _ => isBusy_of_calling)

/-- A seat that may hold a permit and is not calling can call without there being too many. -/
theorem Registered.count_lt (h : Registered register deadline last start calling b w)
    (permitted : b.Permitted n) (may : b.MayHold i) (hi : calling[i]? = some false) :
    calling.count true < n := by
  obtain ⟨left, hpermits, hbusy, -⟩ := permitted
  rcases may with free | ⟨s, hs, hsbusy⟩
  · have := h.count_le_busy
    have : left ≠ 0 := fun hleft => free (hleft ▸ hpermits)
    omega
  · -- If it called as well, still only busy seats would call.
    have more := forall₂_set (h.marks.imp fun _ _ => isBusy_of_calling) i
      (x := true) (y := s) fun _ => hsbusy
    obtain ⟨hi', rfl⟩ := List.getElem?_eq_some_iff.1 hs
    rw [List.set_getElem_self] at more
    have le := Batch.count_le_busy more
    obtain ⟨hi'', hfalse⟩ := List.getElem?_eq_some_iff.1 hi
    rw [List.count_set hi'', hfalse] at le
    simp only [Bool.false_beq, Bool.not_true, Bool.false_eq_true, if_false, beq_self_eq_true,
      if_true, Nat.sub_zero] at le
    omega

/-- Every call of a turn finds a permit. -/
theorem Registered.count_add_le (h : Registered register deadline last start calling b w)
    (permitted : b.Permitted n) {time : Nat} {before after : Bool} {marks : List Mark}
    (hbefore : calling[i]? = some before) (turned : Mark.Turned time last before marks after)
    (may : marks = [] ∨ b.MayHold i) : calling.count true + marks.countP Mark.isCalled ≤ n := by
  have le : calling.count true ≤ n := by
    obtain ⟨left, -, hbusy, -⟩ := permitted
    exact Nat.le_trans h.count_le_busy (hbusy ▸ Nat.le_add_right _ _)
  cases turned with
  | stays | ended => exact le
  | called r | passes r =>
    exact h.count_lt permitted (may.resolve_left (List.cons_ne_nil _ _)) hbefore

theorem Timely.permitted (h : Timely register deadline b w b' w') (hb : b.Permitted n) :
    b'.Permitted n := by
  induction h with
  | rest b w => exact hb
  | turn _ _ _ _ act _ ih => exact ih (permitted_act? hb act)

/-- At no moment of a timely passage are there more waits in progress than permits. -/
theorem Timely.atMost (h : Timely register deadline b w b' w')
    (hb : Registered register deadline last start calling b w) (permitted : b.Permitted n) :
    ∃ new, register w'.state = register w.state ++ new ∧ ∀ past, past <+: new →
      calling.count true + past.countP Mark.isCalled ≤ n + past.countP Mark.isEnded := by
  induction h generalizing calling with
  | rest b w =>
    refine ⟨[], (List.append_nil _).symm, fun past hpast => ?_⟩
    obtain rfl := List.prefix_nil.1 hpast
    obtain ⟨left, -, hbusy, -⟩ := permitted
    exact Nat.le_trans hb.count_le_busy (hbusy ▸ Nat.le_add_right _ _)
  | @turn b b' b'' i s t w w₁ w' w'' hs ht before fires act _ ih =>
    obtain ⟨c, marks, c', hc, turned, may, hregister, -, hb'⟩ := hb.turn hs ht before fires act
    obtain ⟨new, hnew, hpasts⟩ := ih hb' (permitted_act? permitted act)
    refine ⟨marks ++ new, by rw [hnew, hregister, List.append_assoc], fun past hpast => ?_⟩
    -- The moment lies within this turn or after it.
    rcases List.prefix_or_prefix_of_prefix hpast (List.prefix_append marks new) with
      hwithin | hafter
    · have := hb.count_add_le permitted hc turned may
      have := hwithin.sublist.countP_le (p := Mark.isCalled)
      omega
    · obtain ⟨past', rfl⟩ := hafter
      have := hpasts past' ((List.prefix_append_right_inj marks).1 hpast)
      have := count_set_of_turned turned hc
      rw [List.countP_append, List.countP_append]
      omega

/-! ## When no task is due -/

/-- No task is due: all timers are still to fire. -/
def Blocked (b : Batch σ α) (w : World σ) : Prop :=
  ∀ s ∈ b.seats, ∀ t, s.timer? = some t → w.now < t.due

/-- Before the deadline, no task is due if no timer fires before it. -/
theorem blocked_of_quiet (h : Quiet deadline b.seats) (hw : w.now < deadline.due) :
    b.Blocked w := by
  intro s hs t ht
  have hbefore := h s hs t ht
  simp only [Timer.before, Bool.or_eq_false_iff, decide_eq_false_iff_not] at hbefore
  omega

theorem Registered.eq_isBusy (h : Registered register deadline last start calling b w)
    (blocked : b.Blocked w) :
    List.Forall₂ (fun c s => c = s.isBusy ∧ (!s.isSettled) = (s.isBusy || s.isQueued)) calling
      b.seats := by
  obtain ⟨hlength, hmarks⟩ := List.forall₂_iff_zip.1 h.marks
  refine List.forall₂_iff_zip.2 ⟨hlength, fun {c s} hmem => ?_⟩
  have hs := hmarks hmem
  have hblocked := blocked s (List.of_mem_zip hmem).2
  cases s with
  | arriving t start | running t start =>
    cases c with
    | true => first | exact ⟨rfl, rfl⟩ | exact hs.elim
    | false => exact absurd hs.1 (Nat.not_le.2 (hblocked t rfl))
  | _ =>
    cases c with
    | true => first | exact ⟨rfl, rfl⟩ | exact hs.elim
    | false => first | exact ⟨rfl, rfl⟩ | exact hs.elim

/-- When no task is due, everyone who has a permit calls. -/
theorem Registered.count_eq_busy (h : Registered register deadline last start calling b w)
    (blocked : b.Blocked w) : calling.count true = busy b.seats := by
  have heq : calling = b.seats.map Seat.isBusy := by
    rw [← List.forall₂_eq_eq_eq, List.forall₂_map_right_iff]
    exact (h.eq_isBusy blocked).imp fun _ _ hcs => hcs.1
  rw [heq, List.count_eq_countP, List.countP_map]
  exact List.countP_congr fun s _ => by simp

/-- When no task is due, all unsettled tasks have a permit, or else all permits are taken. -/
theorem Registered.busy_eq_min (h : Registered register deadline last start calling b w)
    (permitted : b.Permitted n) (blocked : b.Blocked w) :
    busy b.seats = min n (b.seats.countP fun s => !s.isSettled) := by
  obtain ⟨left, -, hbusy, hqueue⟩ := permitted
  have unsettled : ∀ s ∈ b.seats, (!s.isSettled) = (s.isBusy || s.isQueued) := by
    intro s hs
    obtain ⟨i, hi, rfl⟩ := List.getElem_of_mem hs
    exact ((h.eq_isBusy blocked).get ((h.eq_isBusy blocked).length_eq ▸ hi) hi).2
  rcases Nat.eq_zero_or_pos left with rfl | hleft
  · have : busy b.seats ≤ b.seats.countP fun s => !s.isSettled :=
      List.countP_mono_left fun s hs hbusy => by rw [unsettled s hs, hbusy, Bool.true_or]
    omega
  · have : busy b.seats = b.seats.countP fun s => !s.isSettled :=
      List.countP_congr fun s hs => by rw [unsettled s hs, hqueue hleft s hs, Bool.or_false]
    omega

end Batch

/-! ## What does not depend on the order -/

/-- Whatever the course comes to, it is `x`: a result, or nothing if it crashes. -/
def Course.ComesTo (x : Option α) : Course σ α → Prop
  | .ended _ a => x = some a
  | .asleep _ _ resume => ∀ w, (resume w).ComesTo x
  | .crashed _ => x = none
  | .stuck _ | .unsettled _ => True

namespace Seat

/-- Whatever the task of the seat comes to, it is `x`. -/
def ComesTo (x : Option α) : Seat σ α → Prop
  | .arriving _ start | .queued start | .running _ start => ∀ w, (start w).ComesTo x
  | .idle => True
  | .finished a => x = some a
  | .lost => x = none

theorem comesTo_of_of? {x : Option α} {c : Course σ α} {s : Seat σ α} (h : c.ComesTo x)
    (hs : of? c = some s) : s.ComesTo x := by
  cases c with
  | unsettled w => cases hs
  | _ =>
    obtain rfl := Option.some.inj hs
    exact h

theorem Follows.comesTo {x : Option α} {s s' : Seat σ α} (h : s'.Follows s) (hs : s.ComesTo x) :
    s'.ComesTo x := by
  cases h with
  | queued t start | admitted t start => exact hs
  | started t h | resumed t h => exact comesTo_of_of? (hs _) h

theorem ComesTo.left? {x y : Option α} {s : Seat σ α} (h : s.ComesTo x) (hs : s.left? = some y) :
    y = x := by
  cases s with
  | finished a | lost =>
    obtain rfl := Option.some.inj hs
    exact h.symm
  | _ => cases hs

end Seat

namespace BatchTerms

variable {rs : List Resource} {t : BatchTerms} {reg : Registry} {g : Goal} {wait : Waits σ rs}
  {w w' : World σ} {b : Batch σ (Except Failure Resource)}

/-- Whatever the wait for a resource comes to, wherever it starts and with whatever budget, is its
outcome. -/
def ComesTo (reg : Registry) (wait : Waits σ rs)
    (outcome : { r // r ∈ rs } → Option (Except Failure Resource)) : Prop :=
  ∀ r handler budget, reg.resolveFor r.1 = .ok handler →
    ∀ w, (wait handler r budget w).ComesTo (outcome r)

/-- The seat of a resource has come to nothing but the outcome of the resource. -/
theorem Unfolds.comesTo {log : Batch.Log (Except Failure Resource)}
    {outcome : { r // r ∈ rs } → Option (Except Failure Resource)}
    (h : t.Unfolds reg wait w log b) (comesTo : ComesTo reg wait outcome) (i : Nat)
    (s : Seat σ (Except Failure Resource)) (hs : b.seats[i]? = some s) :
    ∃ hi : i < rs.length, s.ComesTo (outcome ⟨rs[i], List.getElem_mem hi⟩) := by
  obtain ⟨handlers, hhandlers, hschedule⟩ := h
  refine hschedule.forall_seats
    (P := fun i s => ∃ hi : i < rs.length, s.ComesTo (outcome ⟨rs[i], List.getElem_mem hi⟩))
    (fun i s s' hfollows ⟨hi, hs⟩ => ⟨hi, hfollows.comesTo hs⟩) (fun i s hs => ?_) i s hs
  obtain ⟨timer, htimer⟩ := Batch.seat_getElem? (t.tasks wait handlers w) (w.setTimer t.limit).2 i
  rw [Batch.opening, htimer] at hs
  obtain ⟨task, htask, rfl⟩ := Option.map_eq_some_iff.1 hs
  have hi : i < rs.length := length_tasks hhandlers ▸ (List.getElem?_eq_some_iff.1 htask).1
  obtain ⟨handler, hresolve, hget⟩ := tasks_getElem? t wait w hhandlers hi
  obtain rfl := Option.some.inj (htask.symm.trans hget)
  exact ⟨hi, fun w' => comesTo ⟨rs[i], _⟩ handler _ hresolve w'⟩

/-- If all tasks are settled, each has come to the outcome of its resource. -/
theorem Unfolds.results_eq {log : Batch.Log (Except Failure Resource)}
    {outcome : { r // r ∈ rs } → Option (Except Failure Resource)}
    (h : t.Unfolds reg wait w log b) (settled : b.isSettled = true)
    (comesTo : ComesTo reg wait outcome) : b.results = rs.attach.map outcome := by
  refine List.ext_getElem (by rw [Batch.results, List.length_map, h.length]; simp)
    fun i hi hi' => ?_
  rw [Batch.results, List.length_map] at hi
  obtain ⟨hi'', hs⟩ := h.comesTo comesTo i _ (List.getElem?_eq_getElem hi)
  have hleft : b.seats[i].left?.isSome = true :=
    Seat.isSettled_eq _ ▸ List.all_eq_true.1 settled _ (List.getElem_mem hi)
  obtain ⟨y, hy⟩ := Option.isSome_iff_exists.1 hleft
  simp only [Batch.results, List.getElem_map, List.getElem_attach, Seat.result?_eq, hy,
    Option.join_some]
  exact hs.left? hy

/-- The number of permits does not show in the report on a batch that is settled, if what each wait
comes to does not depend on when it starts. -/
theorem reportOn_eq_of_comesTo {b₁ b₂ : Batch σ (Except Failure Resource)} {cap : Option Nat}
    {log₁ log₂ : Batch.Log (Except Failure Resource)} {w₁ w₂ : World σ}
    {outcome : { r // r ∈ rs } → Option (Except Failure Resource)}
    (comesTo : ComesTo reg wait outcome) (h₁ : t.Unfolds reg wait w₁ log₁ b₁)
    (h₂ : { t with concurrency := cap }.Unfolds reg wait w₂ log₂ b₂)
    (settled₁ : b₁.isSettled = true) (settled₂ : b₂.isSettled = true) :
    t.reportOn g rs b₁ = { t with concurrency := cap }.reportOn g rs b₂ := by
  rw [reportOn, reportOn, h₁.results_eq settled₁ comesTo, h₂.results_eq settled₂ comesTo, settled₁,
    settled₂]

/-- With `n` permits, at no moment more than `n` waits are in progress; when no task is due, as many
as are not settled, or else `n`. -/
theorem Timely.inProgress {register : σ → List Mark} {n : Nat}
    (h : t.Timely register reg wait w b w') (capped : t.permits = some n)
    (punctual : Punctual reg wait) (registers : Registers register reg wait) :
    ∃ new, register w'.state = register w.state ++ new ∧
      (∀ past, past <+: new → Mark.inProgress past ≤ n) ∧
      (b.Blocked w' →
        Mark.inProgress new = min n (b.seats.countP fun s => !s.isSettled)) := by
  obtain ⟨handlers, hhandlers, htimely⟩ := h
  rw [capped] at htimely
  have begun := registered_tasks t w hhandlers punctual registers
  rw [capped] at begun
  have permitted := Batch.permitted_opening n (t.tasks wait handlers w) (w.setTimer t.limit).2
  have nobody : (((Batch.seat (t.tasks wait handlers w) (w.setTimer t.limit).2).1.map
      fun _ => false).count true) = 0 := by
    rw [List.count_eq_zero]
    intro hmem
    obtain ⟨_, -, hfalse⟩ := List.mem_map.1 hmem
    cases hfalse
  obtain ⟨new, hnew, hpasts⟩ := htimely.atMost begun permitted
  obtain ⟨new', calling, hnew', hb, hcount, -⟩ := htimely.registered begun
  obtain rfl : new = new' := List.append_cancel_left (hnew.symm.trans hnew')
  rw [Batch.state_seat] at hnew
  rw [nobody] at hcount
  refine ⟨new, hnew, fun past hpast => ?_, fun blocked => ?_⟩
  · have := hpasts past hpast
    unfold Mark.inProgress
    omega
  · rw [← hb.busy_eq_min (htimely.permitted permitted) blocked, ← hb.count_eq_busy blocked]
    unfold Mark.inProgress
    omega

/-- Of a batch with a limit to its concurrency: no more waits than that are ever in progress. When
no task is due, or none before the deadline, as many are in progress as are not settled, or else as
the limit allows. The report does not depend on the limit if what the waits come to does not depend
on when they start, and all tasks are settled. -/
theorem waitBy_concurrency (t : BatchTerms) (n : Nat) (limited : t.concurrency = some n)
    (reg : Registry) (g : Goal) (rs : List Resource) (wait : Waits σ rs)
    (register : σ → List Mark) (w : World σ) (punctual : Punctual reg wait)
    (registers : Registers register reg wait) :
    (∀ b w', t.Timely register reg wait w b w' →
      ∃ new, register w'.state = register w.state ++ new ∧
        (∀ past, past <+: new → Mark.inProgress past ≤ max 1 n) ∧
        (b.Blocked w' ∨
            Batch.Quiet (w.setTimer t.limit).1 b.seats ∧ w'.now < (w.setTimer t.limit).1.due →
          Mark.inProgress new = min (max 1 n) (b.seats.countP fun s => !s.isSettled))) ∧
    (rs ≠ [] → (∀ r ∈ rs, ∃ handler, reg.resolveFor r = .ok handler) → t.Fits w →
      Tireless reg wait → ∃ b w' w'', t.Timely register reg wait w b w' ∧
        (t.waitBy reg g rs wait w).run = .ended w'' (.ok (t.reportOn g rs b)) ∧
        register w''.state = register w'.state) ∧
    ∀ outcome, ComesTo reg wait outcome → ∀ b₁ w₁ b₂ w₂,
      t.Timely register reg wait w b₁ w₁ →
      { t with concurrency := none }.Timely register reg wait w b₂ w₂ →
      b₁.isSettled = true → b₂.isSettled = true →
      t.reportOn g rs b₁ = { t with concurrency := none }.reportOn g rs b₂ := by
  have capped : t.permits = some (max 1 n) := congrArg (Option.map _) limited
  refine ⟨fun b w' h => ?_, fun nonempty resolves fits tireless => ?_,
    fun outcome comesTo b₁ w₁ b₂ w₂ h₁ h₂ hb₁ hb₂ => ?_⟩
  · obtain ⟨new, hnew, hpasts, hblocked⟩ := h.inProgress capped punctual registers
    refine ⟨new, hnew, hpasts, fun waits => hblocked ?_⟩
    rcases waits with blocked | ⟨quiet, hw'⟩
    · exact blocked
    · exact Batch.blocked_of_quiet quiet hw'
  · obtain ⟨b, w', htimely, -, hrun⟩ :=
      run_waitBy_timely (g := g) register nonempty resolves fits tireless
    exact ⟨b, w', _, htimely, hrun, congrArg register (state_closing _ _ _)⟩
  · obtain ⟨log₁, hunfolds₁⟩ := h₁.unfolds
    obtain ⟨log₂, hunfolds₂⟩ := h₂.unfolds
    exact reportOn_eq_of_comesTo comesTo hunfolds₁ hunfolds₂ hb₁ hb₂

/-! ## Pods -/

theorem podWaits_ready (budget : Duration) (w : World (Unit × List Mark)) :
    podWaits ["ready"] (.remote (.collaborator "pods" true))
      ⟨pod "ready", List.mem_singleton_self _⟩ budget w =
        .ended ⟨w.now, w.timers, (), w.state.2 ++
          [.called (pod "ready") (Activity.nanosNow w) budget] ++ [.ended]⟩
        (.ok (pod "ready")) := by
  show Course.markingEnd (Course.besideRecord _ (Handler.wait pods .ready _ _ _ _ _ _)) = _
  rw [Handler.wait]
  rfl

/-- Whatever the limit is, the wait for a pod that is ready is over in its first turn. -/
theorem timely_podWaits (limit : Option Nat) : ∃ b w',
    { podTerms 1 with concurrency := limit }.Timely Prod.snd podRegistry (podWaits ["ready"])
      ⟨0, 0, (), []⟩ b w' ∧ b.isSettled = true := by
  have free : limit.map (max 1) ≠ some 0 := by
    cases limit with
    | none => exact nofun
    | some n =>
      intro h
      have := Option.some.inj h
      omega
  have lasts : 0 < (Duration.ofMillis 100).ceilMillis := by decide
  have before : Timer.before ⟨0, 1⟩ ⟨0 + (Duration.ofMillis 100).ceilMillis, 0⟩ = true :=
    Bool.or_eq_true_iff.2 (.inl (decide_eq_true (Nat.lt_add_of_pos_right lasts)))
  have started : Activity.told (0 + (Duration.ofMillis 100).nanos) (podWaits ["ready"]
      (.remote (.collaborator "pods" true)) ⟨pod "ready", List.mem_singleton_self _⟩)
      ⟨0, 2, (), []⟩ = .ended _ _ := podWaits_ready _ ⟨0, 2, (), []⟩
  have turn := Batch.act?_of_one (t := ⟨0, 1⟩) free started
  exact ⟨_, _, ⟨[.remote (.collaborator "pods" true)], rfl, .turn rfl rfl before
    (Batch.fires_reach _ _ _) turn (.rest _ _)⟩, rfl⟩

theorem comesTo_podWaits :
    ComesTo podRegistry (podWaits ["ready"]) fun _ => some (.ok (pod "ready")) := by
  intro r handler budget hresolve w
  obtain rfl : r = ⟨pod "ready", List.mem_singleton_self _⟩ :=
    Subtype.ext (List.mem_singleton.1 r.2)
  rw [resolveFor_pod] at hresolve
  obtain rfl := Except.ok.inj hresolve
  rw [podWaits_ready]
  rfl

/-- Three pods are waited for one at a time, of which the second one is never ready. The report on
one that is ready is the same with and without the limit. -/
theorem waitBy_concurrency_pods :
    (∃ w' report, ((podTerms 1).waitBy podRegistry .ready (["ready", "stuck", "ready"].map pod)
        (podWaits _) ⟨0, 0, (), []⟩).run = .ended w' (.ok report) ∧
      ∀ past, past <+: w'.state.2 → Mark.inProgress past ≤ 1) ∧
    ∃ b₁ w₁ b₂ w₂,
      (podTerms 1).Timely Prod.snd podRegistry (podWaits ["ready"]) ⟨0, 0, (), []⟩ b₁ w₁ ∧
      { podTerms 1 with concurrency := none }.Timely Prod.snd podRegistry (podWaits ["ready"])
        ⟨0, 0, (), []⟩ b₂ w₂ ∧
      (podTerms 1).reportOn .ready [pod "ready"] b₁ =
        { podTerms 1 with concurrency := none }.reportOn .ready [pod "ready"] b₂ := by
  constructor
  · obtain ⟨atMost, returns, -⟩ := waitBy_concurrency (podTerms 1) 1 rfl podRegistry .ready
      (["ready", "stuck", "ready"].map pod) (podWaits _) Prod.snd ⟨0, 0, (), []⟩
      (punctual_podWaits _) (registers_marked _ _)
    obtain ⟨b, w', w'', htimely, hrun, hregister⟩ := returns (List.cons_ne_nil _ _)
      (resolves_pods _) ((fits_podTerms_iff 1).2 (by decide +kernel))
      (tireless_marked (tireless_wait_pods _ _))
    obtain ⟨new, hnew, hpasts, -⟩ := atMost b w' htimely
    refine ⟨w'', _, hrun, fun past hpast => hpasts past ?_⟩
    rwa [hregister, hnew] at hpast
  · obtain ⟨-, -, same⟩ := waitBy_concurrency (podTerms 1) 1 rfl podRegistry .ready
      (["ready"].map pod) (podWaits _) Prod.snd ⟨0, 0, (), []⟩ (punctual_podWaits _)
      (registers_marked _ _)
    obtain ⟨b₁, w₁, h₁, settled₁⟩ := timely_podWaits (some 1)
    obtain ⟨b₂, w₂, h₂, settled₂⟩ := timely_podWaits none
    exact ⟨b₁, w₁, b₂, w₂, h₁, h₂, same _ comesTo_podWaits b₁ w₁ b₂ w₂ h₁ h₂ settled₁ settled₂⟩

end BatchTerms

end Rollout
