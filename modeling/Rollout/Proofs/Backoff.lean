/-
  How the delays of a backoff grow, and when the attempts fall that they keep apart.

  The seconds of which the next delay is made are a number from 0 to 60, whatever the delay before
  and the multiplier, so there is always a next delay, of at most a minute (`next_bounds`). The
  factor is at least one, so none of the numbers on the way has a sign; one of them is no number if
  an infinite factor meets a delay of nothing, and the minute stands for it.

  Behind the first delay, no delay is longer than a minute and none is shorter than one before it
  (`steady_delays`). The first one is as it was set: if it is longer than a minute, all others are
  shorter (`delays_eq_replicate`). If it is not zero, none is, so attempts that take no time still
  fall on one instant after the other (`instant_strictMono`). If it is zero, so are all others,
  except that an infinite factor makes a minute of nothing.
-/
import Mathlib.Logic.Function.Iterate
import Mathlib.Order.Bounds.Basic
import Mathlib.Order.Monotone.Basic
import Rollout.Backoff

namespace Rollout

/-! ## Doubles -/

namespace Binary64

theorem roundDiv_zero (den : Nat) : roundDiv 0 den = 0 := by
  unfold roundDiv
  rw [Nat.zero_div, Nat.zero_mod]
  cases den <;> rfl

/-- Nothing is rounded to nothing. -/
theorem ofUnits_zero (negative : Bool) (den : Nat) :
    ∃ s, ofUnits negative 0 den = .finite s 0 := by
  have units : roundUnits 0 den = 0 := by
    rw [roundUnits, roundDiv_zero]
    exact Nat.zero_mul _
  rw [ofUnits, units]
  exact ⟨negative, if_pos (Nat.zero_le _)⟩

/-- Infinity or so many units, without a sign. -/
inductive Unsigned : Binary64 → Prop where
  | infinity : Unsigned (.infinity false)
  | finite (units : Nat) : Unsigned (.finite false units)

theorem unsigned_ofUnits (num den : Nat) : (ofUnits false num den).Unsigned := by
  unfold ofUnits
  dsimp only
  split
  · exact .finite _
  · exact .infinity

theorem Unsigned.add {x y : Binary64} (hx : x.Unsigned) (hy : y.Unsigned) :
    (x.add y).Unsigned := by
  cases hx with
  | infinity => cases hy <;> exact .infinity
  | finite u =>
    cases hy with
    | infinity => exact .infinity
    | finite v => exact unsigned_ofUnits (u + v) 1

/-- A product of zero and infinity is no number; any other one has no sign either. -/
theorem Unsigned.mul {x y : Binary64} (hx : x.Unsigned) (hy : y.Unsigned) :
    x.mul y = nan ∨ (x.mul y).Unsigned := by
  have unbounded (u : Nat) : (if u = 0 then nan else .infinity false) = nan ∨
      (if u = 0 then nan else Binary64.infinity false).Unsigned := by
    split
    · exact .inl rfl
    · exact .inr .infinity
  cases hx with
  | infinity =>
    cases hy with
    | infinity => exact .inr .infinity
    | finite v => exact unbounded v
  | finite u =>
    cases hy with
    | infinity => exact unbounded u
    | finite v => exact .inr (unsigned_ofUnits (u * v) unitsPerOne)

/-- What is cut to a limit is a number from zero to the limit, which stands for what is no
number. -/
theorem exists_min {x : Binary64} (hx : x = nan ∨ x.Unsigned) (limit : Nat) :
    ∃ units ≤ limit, x.min (.finite false limit) = .finite false units := by
  rcases hx with rfl | hx
  · exact ⟨limit, Nat.le_refl limit, rfl⟩
  cases hx with
  | infinity => exact ⟨limit, Nat.le_refl limit, rfl⟩
  | finite u =>
    have cut : (finite false u).min (.finite false limit) =
        if limit < u then .finite false limit else .finite false u := by
      simp only [min, isNaN, lt, Bool.false_eq_true, if_false, decide_eq_true_eq]
    rw [cut]
    split
    · exact ⟨limit, Nat.le_refl limit, rfl⟩
    · next h => exact ⟨u, Nat.not_lt.1 h, rfl⟩

end Binary64

/-! ## Durations -/

namespace Duration

theorem le_refl (d : Duration) : d ≤ d := Nat.le_refl d.nanos

theorem eq_of_le_of_le {a b : Duration} (h : a ≤ b) (h' : b ≤ a) : a = b :=
  congrArg Duration.mk (Nat.le_antisymm h h')

theorem min_eq_left {a b : Duration} (h : a ≤ b) : a.min b = a := if_pos h

theorem min_eq_right {a b : Duration} (h : b ≤ a) : a.min b = b := by
  unfold min
  split
  · next h' => exact eq_of_le_of_le h' h
  · rfl

theorem ceilMillis_pos {d : Duration} (h : 0 < d.nanos) : 0 < d.ceilMillis := by
  have := d.le_ceilMillis
  rcases Nat.eq_zero_or_pos d.ceilMillis with hzero | hpos
  · rw [hzero, Nat.zero_mul] at this
    omega
  · exact hpos

theorem unsigned_toSeconds (d : Duration) : d.toSeconds.Unsigned :=
  (Binary64.unsigned_ofUnits _ _).add (Binary64.unsigned_ofUnits _ _)

end Duration

namespace Backoff

variable (b : Backoff)

/-! ## The next delay -/

theorem toSeconds_maxDelay : maxDelay.toSeconds = .finite false (60 * Binary64.unitsPerOne) := by
  decide +kernel

/-- The factor is a number without a sign, since it is at least one, unless the multiplier is
infinite. -/
theorem factor_cases : (b.multiplier = .infinity false ∧ b.factor = .infinity false) ∨
    ∃ units, b.factor = .finite false units := by
  unfold factor
  cases b.multiplier with
  | nan => exact .inr ⟨Binary64.unitsPerOne, rfl⟩
  | infinity negative =>
    cases negative with
    | true => exact .inr ⟨Binary64.unitsPerOne, rfl⟩
    | false => exact .inl ⟨rfl, rfl⟩
  | finite negative u =>
    refine .inr ?_
    show ∃ units, (if (Binary64.finite negative u).lt .one then Binary64.one
      else .finite negative u) = .finite false units
    cases negative with
    | true =>
      have less : (Binary64.finite true u).lt .one = true := by
        show (0 < u || 0 < Binary64.unitsPerOne) = true
        simp [Binary64.unitsPerOne_pos]
      rw [if_pos less]
      exact ⟨Binary64.unitsPerOne, rfl⟩
    | false =>
      split
      · exact ⟨Binary64.unitsPerOne, rfl⟩
      · exact ⟨u, rfl⟩

theorem unsigned_factor : b.factor.Unsigned := by
  rcases b.factor_cases with ⟨-, h⟩ | ⟨units, h⟩
  · exact h ▸ .infinity
  · exact h ▸ .finite units

/-- The seconds of which the delay after `current` is made. -/
def wanted (current : Duration) : Binary64 :=
  (current.toSeconds.mul b.factor).min maxDelay.toSeconds

theorem exists_wanted (current : Duration) :
    ∃ units ≤ 60 * Binary64.unitsPerOne, b.wanted current = .finite false units := by
  rw [wanted, toSeconds_maxDelay]
  exact Binary64.exists_min (current.unsigned_toSeconds.mul b.unsigned_factor) _

/-- There is a duration of these seconds, so the next delay is never the one that stands in for
it. -/
theorem exists_next (current : Duration) :
    ∃ d ≤ maxDelay, Duration.ofDouble? (b.wanted current) = some d ∧
      b.next current = d.max (current.min maxDelay) := by
  obtain ⟨units, hunits, hwanted⟩ := b.exists_wanted current
  obtain ⟨d, hd, hle⟩ := Duration.exists_ofDouble? hunits (by decide)
  rw [← hwanted] at hd
  refine ⟨d, hle, hd, ?_⟩
  show ((Duration.ofDouble? (b.wanted current)).getD maxDelay).max _ = _
  rw [hd]
  rfl

theorem next_le_maxDelay (current : Duration) : b.next current ≤ maxDelay := by
  obtain ⟨d, hd, -, hnext⟩ := b.exists_next current
  rw [hnext]
  exact Duration.max_le hd (Duration.min_le_right _ _)

theorem le_next {current : Duration} (h : current ≤ maxDelay) : current ≤ b.next current := by
  have := b.min_le_next current
  rwa [Duration.min_eq_left h] at this

theorem next_eq_maxDelay {current : Duration} (h : maxDelay ≤ current) :
    b.next current = maxDelay := by
  have := b.min_le_next current
  rw [Duration.min_eq_right h] at this
  exact Duration.eq_of_le_of_le (b.next_le_maxDelay current) this

/-- A delay that is not zero is followed by one that is not. -/
theorem next_pos {d : Duration} (h : 0 < d.nanos) : 0 < (b.next d).nanos := by
  refine Nat.lt_of_lt_of_le ?_ (b.min_le_next d)
  unfold Duration.min
  split
  · exact h
  · decide

theorem next_zero (h : b.multiplier ≠ .infinity false) : b.next ⟨0⟩ = ⟨0⟩ := by
  obtain ⟨u, hfactor⟩ := b.factor_cases.resolve_left fun infinite => h infinite.1
  have nothing : Duration.toSeconds ⟨0⟩ = .finite false 0 := by decide +kernel
  obtain ⟨s', product⟩ : ∃ s', (Binary64.finite false 0).mul b.factor = .finite s' 0 := by
    rw [hfactor, Binary64.mul, Nat.zero_mul]
    exact Binary64.ofUnits_zero _ _
  have least : (Binary64.finite s' 0).min maxDelay.toSeconds = .finite s' 0 := by
    rw [toSeconds_maxDelay]
    cases s' <;> rfl
  rw [next, nothing, product, least]
  cases s' <;> decide +kernel

theorem next_zero_of_infinite (h : b.multiplier = .infinity false) : b.next ⟨0⟩ = maxDelay := by
  have nothing : Duration.toSeconds ⟨0⟩ = .finite false 0 := by decide +kernel
  have hfactor : b.factor = .infinity false := by
    rw [factor, h]
    rfl
  rw [next, nothing, hfactor]
  decide +kernel

/-! ## Runs of delays -/

/-- No delay is longer than a minute, and none is shorter than one before it. -/
structure Steady (delays : List Duration) : Prop where
  capped : ∀ d ∈ delays, d ≤ .ofSeconds 60
  grows : delays.Pairwise (· ≤ ·)

theorem Steady.cons {d e : Duration} {rest : List Duration} (h : d ≤ e)
    (steady : Steady (e :: rest)) : Steady (d :: e :: rest) where
  capped := List.forall_mem_cons.2
    ⟨Nat.le_trans h (steady.capped e List.mem_cons_self), steady.capped⟩
  grows := by
    refine List.pairwise_cons.2 ⟨List.forall_mem_cons.2 ⟨h, fun d' hd' => ?_⟩, steady.grows⟩
    exact Nat.le_trans h (List.rel_of_pairwise_cons steady.grows hd')

theorem steady_cons_delays {d : Duration} (h : d ≤ maxDelay) (n : Nat) :
    Steady (d :: b.delays n d) := by
  induction n generalizing d with
  | zero => exact ⟨List.forall_mem_singleton.2 h, List.pairwise_singleton _ d⟩
  | succ n ih => exact (ih (b.next_le_maxDelay d)).cons (b.le_next h)

/-- Whatever delay comes first, the others are steady. -/
theorem steady_delays (d : Duration) (n : Nat) : Steady (b.delays n d) := by
  cases n with
  | zero => exact ⟨List.forall_mem_nil _, .nil⟩
  | succ n => exact b.steady_cons_delays (b.next_le_maxDelay d) n

/-- Behind a delay of a minute or more all delays are of a minute. -/
theorem delays_eq_replicate {d : Duration} (h : maxDelay ≤ d) (n : Nat) :
    b.delays n d = List.replicate n maxDelay := by
  induction n generalizing d with
  | zero => rfl
  | succ n ih =>
    rw [delays, b.next_eq_maxDelay h, ih (Duration.le_refl _)]
    rfl

theorem iterate_next_le_maxDelay (current : Duration) (k : Nat) :
    b.next^[k + 1] current ≤ maxDelay := by
  rw [Function.iterate_succ_apply']
  exact b.next_le_maxDelay _

/-- Whatever the delay and the multiplier, the seconds of which the next delay is made are a number
from 0 to 60, and there is a duration of them. The next delay is at most a minute, and no shorter
than the one before, or than a minute if that is less. So from the second delay on none is longer
than a minute, and none is shorter than one before it. -/
theorem next_bounds (current : Duration) :
    (∃ units d, units ≤ 60 * Binary64.unitsPerOne ∧ b.wanted current = .finite false units ∧
      Duration.ofDouble? (b.wanted current) = some d ∧
      b.next current = d.max (current.min (.ofSeconds 60))) ∧
    current.min (.ofSeconds 60) ≤ b.next current ∧ b.next current ≤ .ofSeconds 60 ∧
    (∀ k, b.next^[k + 1] current ≤ .ofSeconds 60) ∧
    Monotone fun k => (b.next^[k + 1] current).nanos := by
  obtain ⟨units, hunits, hwanted⟩ := b.exists_wanted current
  obtain ⟨d, -, hd, hnext⟩ := b.exists_next current
  refine ⟨⟨units, d, hunits, hwanted, hd, hnext⟩, b.min_le_next current,
    b.next_le_maxDelay current, b.iterate_next_le_maxDelay current,
    monotone_nat_of_le_succ fun k => ?_⟩
  rw [Function.iterate_succ_apply' b.next (k + 1)]
  exact b.le_next (b.iterate_next_le_maxDelay current k)

/-- An infinite factor makes no number of a delay of nothing, and a minute of that. -/
example : (Duration.toSeconds ⟨0⟩).mul (Backoff.factor ⟨⟨0⟩, .infinity false⟩) = .nan ∧
    Backoff.next ⟨⟨0⟩, .infinity false⟩ ⟨0⟩ = .ofSeconds 60 := by
  decide +kernel

/-! ## Delays -/

/-- The delay behind the attempt `k`. -/
def delay : Nat → Duration
  | 0 => b.initial
  | k + 1 => b.next (delay k)

variable {b}

theorem delay_pos (h : 0 < b.initial.nanos) (k : Nat) : 0 < (b.delay k).nanos := by
  induction k with
  | zero => exact h
  | succ k ih => exact b.next_pos ih

theorem delay_eq_zero (h : b.initial = ⟨0⟩) (finite : b.multiplier ≠ .infinity false) (k : Nat) :
    b.delay k = ⟨0⟩ := by
  induction k with
  | zero => exact h
  | succ k ih => rw [delay, ih, b.next_zero finite]

theorem delay_of_infinite (h : b.initial = ⟨0⟩) (infinite : b.multiplier = .infinity false)
    (k : Nat) : b.delay (k + 1) = maxDelay := by
  induction k with
  | zero => rw [delay, delay, h, b.next_zero_of_infinite infinite]
  | succ k ih => rw [delay, ih, b.next_eq_maxDelay (Duration.le_refl _)]

/-! ## Instants -/

variable (b)

/-- The instant of the attempt `k`, if attempts take no time and the first one is made at `start`:
each delay is over at the first whole millisecond that is not before its end. -/
def instant (start : Nat) : Nat → Nat
  | 0 => start
  | k + 1 => instant start k + (b.delay k).ceilMillis

theorem isLeast_instant (start k : Nat) :
    IsLeast {ms | b.instant start k * Duration.nanosPerMilli + (b.delay k).nanos ≤
      ms * Duration.nanosPerMilli} (b.instant start (k + 1)) := by
  constructor
  · show _ ≤ (b.instant start k + (b.delay k).ceilMillis) * _
    rw [Nat.add_mul]
    exact Nat.add_le_add_left (b.delay k).le_ceilMillis _
  · intro ms (hms : _ ≤ ms * Duration.nanosPerMilli)
    obtain ⟨rest, rfl⟩ : ∃ rest, ms = b.instant start k + rest := by
      refine Nat.exists_eq_add_of_le (Nat.le_of_mul_le_mul_right ?_
        (by decide : 0 < Duration.nanosPerMilli))
      exact Nat.le_trans (Nat.le_add_right _ _) hms
    rw [Nat.add_mul] at hms
    exact Nat.add_le_add_left (Duration.ceilMillis_le (Nat.le_of_add_le_add_left hms)) _

variable {b}

theorem instant_strictMono (h : 0 < b.initial.nanos) (start : Nat) :
    StrictMono (b.instant start) :=
  strictMono_nat_of_lt_succ fun k =>
    Nat.lt_add_of_pos_right (Duration.ceilMillis_pos (delay_pos h k))

theorem add_le_instant (h : 0 < b.initial.nanos) (start k : Nat) :
    start + k ≤ b.instant start k := by
  induction k with
  | zero => exact Nat.le_refl _
  | succ k ih => exact Nat.lt_of_le_of_lt ih (instant_strictMono h start (Nat.lt_succ_self k))

theorem instant_of_zero (h : b.initial = ⟨0⟩) (finite : b.multiplier ≠ .infinity false)
    (start k : Nat) : b.instant start k = start := by
  induction k with
  | zero => rfl
  | succ k ih => rw [instant, ih, delay_eq_zero h finite k]; rfl

theorem instant_of_infinite (h : b.initial = ⟨0⟩) (infinite : b.multiplier = .infinity false)
    (start k : Nat) : b.instant start (k + 1) = start + k * 60000 := by
  induction k with
  | zero => rw [instant, instant, delay, h]; rfl
  | succ k ih =>
    rw [instant, ih, delay_of_infinite h infinite k, Nat.succ_mul, ← Nat.add_assoc]
    rfl

end Backoff

end Rollout
