/-
  Durations: spans of time in whole nanoseconds.

  A duration is a natural number of nanoseconds, so adding, comparing and taking the smaller one
  are those of `Nat`. The seconds of a duration fit 64 bits; `max` is the longest one. Timers fire
  on whole milliseconds, the first one that is not before the end of the span (`ceilMillis`).
-/
import Rollout.Binary64

namespace Rollout

/-- A span of time in nanoseconds. -/
structure Duration where
  nanos : Nat
deriving DecidableEq, Repr, Inhabited

namespace Duration

def nanosPerSecond : Nat := 1000000000
def nanosPerMilli : Nat := 1000000

def ofSeconds (n : Nat) : Duration := ⟨n * nanosPerSecond⟩
def ofMillis (n : Nat) : Duration := ⟨n * nanosPerMilli⟩

/-- Whole seconds. -/
def seconds (d : Duration) : Nat := d.nanos / nanosPerSecond

/-- Nanoseconds beyond the whole seconds. -/
def subsecond (d : Duration) : Nat := d.nanos % nanosPerSecond

/-- The longest duration: seconds up to `2^64 - 1` and all nanoseconds. -/
def longest : Duration := ⟨twoTo 64 * nanosPerSecond - 1⟩

/-- The first whole millisecond at or after the end of the span. -/
def ceilMillis (d : Duration) : Nat := (d.nanos + (nanosPerMilli - 1)) / nanosPerMilli

instance : LE Duration := ⟨fun a b => a.nanos ≤ b.nanos⟩

instance (a b : Duration) : Decidable (a ≤ b) := inferInstanceAs (Decidable (a.nanos ≤ b.nanos))

def min (a b : Duration) : Duration := if a ≤ b then a else b
def max (a b : Duration) : Duration := if a ≤ b then b else a

theorem le_max_right (a b : Duration) : b ≤ a.max b := by
  unfold max
  split
  · exact Nat.le_refl b.nanos
  · next h => exact Nat.le_of_lt (Nat.lt_of_not_le h)

theorem max_le {a b c : Duration} (ha : a ≤ c) (hb : b ≤ c) : a.max b ≤ c := by
  unfold max
  split
  · exact hb
  · exact ha

theorem min_le_right (a b : Duration) : a.min b ≤ b := by
  unfold min
  split
  · next h => exact h
  · exact Nat.le_refl b.nanos

theorem le_ceilMillis (d : Duration) : d.nanos ≤ d.ceilMillis * nanosPerMilli := by
  have h := Nat.div_add_mod (d.nanos + (nanosPerMilli - 1)) nanosPerMilli
  have h' := Nat.mod_lt (d.nanos + (nanosPerMilli - 1)) (by decide : 0 < nanosPerMilli)
  unfold ceilMillis
  rw [Nat.mul_comm]
  unfold nanosPerMilli at *
  omega

theorem ceilMillis_le {d : Duration} {ms : Nat} (h : d.nanos ≤ ms * nanosPerMilli) :
    d.ceilMillis ≤ ms := by
  unfold ceilMillis
  unfold nanosPerMilli at *
  omega

/-! ## Seconds as doubles -/

/-- The seconds as a double: the sum of the rounded whole seconds and the rounded fraction. -/
def toSeconds (d : Duration) : Binary64 :=
  (Binary64.ofNat d.seconds).add (Binary64.ofRatio false d.subsecond nanosPerSecond)

/-- The duration nearest to a number of seconds, a tie to the even nanosecond; none for negative
numbers, for what is not a number and for more than `longest`. -/
def ofDouble? : Binary64 → Option Duration
  | .finite negative units =>
    if negative && units != 0 then none
    else
      let d : Duration := ⟨Binary64.roundDiv (units * nanosPerSecond) Binary64.unitsPerOne⟩
      if d ≤ longest then some d else none
  | _ => none

/-- A number of at most `n` seconds makes a duration of at most `n` seconds. -/
theorem exists_ofDouble? {units n : Nat} (h : units ≤ n * Binary64.unitsPerOne)
    (hn : ofSeconds n ≤ longest) :
    ∃ d, ofDouble? (.finite false units) = some d ∧ d ≤ ofSeconds n := by
  have hpos := Binary64.unitsPerOne_pos
  simp only [ofDouble?, Bool.false_and, Bool.false_eq_true, if_false]
  generalize Binary64.unitsPerOne = one at h hpos ⊢
  have hd : (⟨Binary64.roundDiv (units * nanosPerSecond) one⟩ : Duration) ≤ ofSeconds n := by
    refine Binary64.roundDiv_le_of_le_mul hpos ?_
    calc units * nanosPerSecond
        ≤ n * one * nanosPerSecond := Nat.mul_le_mul_right _ h
      _ = n * nanosPerSecond * one := Nat.mul_right_comm _ _ _
  exact ⟨_, if_pos (Nat.le_trans hd hn), hd⟩

/-! ## Text -/

/-- `value` with the fraction `part / 10^places` behind a point, zeros at its end dropped. -/
def fractionText (value part places : Nat) : String :=
  let digits := Nat.toDigits 10 part
  let padded := List.replicate (places - digits.length) '0' ++ digits
  let kept := (padded.reverse.dropWhile (· == '0')).reverse
  toString value ++ (if kept.isEmpty then "" else "." ++ String.ofList kept)

/-- The duration in its largest unit of at least one: `1.5s`, `100ms`, `1µs`, `0ns`. -/
def text (d : Duration) : String :=
  if nanosPerSecond ≤ d.nanos then fractionText d.seconds d.subsecond 9 ++ "s"
  else if nanosPerMilli ≤ d.nanos then
    fractionText (d.nanos / nanosPerMilli) (d.nanos % nanosPerMilli) 6 ++ "ms"
  else if 1000 ≤ d.nanos then fractionText (d.nanos / 1000) (d.nanos % 1000) 3 ++ "µs"
  else toString d.nanos ++ "ns"

end Duration

end Rollout
