/-
  Double precision numbers (IEEE 754 binary64) with exact arithmetic on natural numbers.

  A finite number is a sign and a whole number of *units*, the unit being the smallest
  subnormal, 2^-1074. Sums, products and quotients are computed exactly in units and rounded
  once, to the nearest representable number, ties to the even one. The shortest decimal form
  of a number is found by testing decimal grids of one to seventeen digits in exact arithmetic.
-/
import Rollout.Power

namespace Rollout

/-- A double. Only magnitudes with at most 53 significant bits arise from the operations below. -/
inductive Binary64 where
  | nan
  | infinity (negative : Bool)
  | finite (negative : Bool) (units : Nat)
deriving DecidableEq, Repr, Inhabited

namespace Binary64

/-- Units in the number one. -/
def unitsPerOne : Nat := twoTo 1074

theorem unitsPerOne_pos : 0 < unitsPerOne := twoTo_pos 1074

/-- The largest finite magnitude. -/
def maxUnits : Nat := (twoTo 53 - 1) * twoTo 2045

/-! ## Rounding -/

/-- `num / den` to the nearest integer, a tie to the even one. -/
def roundDiv (num den : Nat) : Nat :=
  let q := num / den
  let r := num % den
  if 2 * r < den then q
  else if 2 * r = den then q + q % 2
  else q + 1

theorem roundDiv_le_of_le_mul {num den k : Nat} (hden : 0 < den) (h : num ≤ k * den) :
    roundDiv num den ≤ k := by
  have hdm : den * (num / den) + num % den = num := Nat.div_add_mod num den
  have hr : num % den < den := Nat.mod_lt _ hden
  have hq : num / den ≤ k := Nat.div_le_of_le_mul (by rw [Nat.mul_comm]; exact h)
  rcases Nat.lt_or_eq_of_le hq with hlt | heq
  · unfold roundDiv; dsimp only; split
    · omega
    · split
      · have := Nat.mod_lt (num / den) (by decide : 0 < 2); omega
      · omega
  · have hz : num % den = 0 := by
      rw [heq] at hdm; rw [Nat.mul_comm] at hdm; omega
    unfold roundDiv; dsimp only; rw [hz]
    split
    · omega
    · omega

/-- The bits that a magnitude of `q` whole units has beyond the 53 that are kept. -/
def surplusBits (q : Nat) : Nat := q.log2 + 1 - 53

/-- The representable number of units nearest to `num / den`, the exponent unbounded. -/
def roundUnits (num den : Nat) : Nat :=
  let step := twoTo (surplusBits (num / den))
  roundDiv num (den * step) * step

/-- The double nearest to `num / den` units. -/
def ofUnits (negative : Bool) (num den : Nat) : Binary64 :=
  let u := roundUnits num den
  if u ≤ maxUnits then finite negative u else infinity negative

/-- The double nearest to the quotient of two naturals. -/
def ofRatio (negative : Bool) (num den : Nat) : Binary64 :=
  ofUnits negative (num * unitsPerOne) den

def ofNat (n : Nat) : Binary64 := ofRatio false n 1

def zero : Binary64 := finite false 0
def one : Binary64 := finite false unitsPerOne

/-! ## Signs, order and arithmetic -/

def neg : Binary64 → Binary64
  | nan => nan
  | infinity s => infinity !s
  | finite s u => finite (!s) u

def isNaN : Binary64 → Bool
  | nan => true
  | _ => false

/-- `a < b`; false when either is not a number, and the two zeros are equal. -/
def lt : Binary64 → Binary64 → Bool
  | nan, _ => false
  | _, nan => false
  | infinity s, infinity t => s && !t
  | infinity s, finite .. => s
  | finite .., infinity t => !t
  | finite s u, finite t v =>
    match s, t with
    | false, false => u < v
    | true, true => v < u
    | true, false => 0 < u || 0 < v
    | false, true => false

/-- Equality of numbers: the two zeros are equal and nothing equals `nan`. -/
def same : Binary64 → Binary64 → Bool
  | infinity s, infinity t => s == t
  | finite s u, finite t v => u == v && (s == t || u == 0)
  | _, _ => false

/-- The larger number; `nan` counts as absent. -/
def max (a b : Binary64) : Binary64 :=
  if a.isNaN then b else if b.isNaN then a else if a.lt b then b else a

/-- The smaller number; `nan` counts as absent. -/
def min (a b : Binary64) : Binary64 :=
  if a.isNaN then b else if b.isNaN then a else if b.lt a then b else a

def mul : Binary64 → Binary64 → Binary64
  | nan, _ => nan
  | _, nan => nan
  | infinity s, infinity t => infinity (s != t)
  | infinity s, finite t v => if v = 0 then nan else infinity (s != t)
  | finite s u, infinity t => if u = 0 then nan else infinity (s != t)
  | finite s u, finite t v => ofUnits (s != t) (u * v) unitsPerOne

def div : Binary64 → Binary64 → Binary64
  | nan, _ => nan
  | _, nan => nan
  | infinity _, infinity _ => nan
  | infinity s, finite t _ => infinity (s != t)
  | finite s _, infinity t => finite (s != t) 0
  | finite s u, finite t v =>
    if v = 0 then (if u = 0 then nan else infinity (s != t)) else ofRatio (s != t) u v

def add : Binary64 → Binary64 → Binary64
  | nan, _ => nan
  | _, nan => nan
  | infinity s, infinity t => if s = t then infinity s else nan
  | infinity s, finite .. => infinity s
  | finite .., infinity t => infinity t
  | finite s u, finite t v =>
    if s = t then ofUnits s (u + v) 1
    else if v < u then ofUnits s (u - v) 1
    else if u < v then ofUnits t (v - u) 1
    else zero

/-! ## Decimal forms -/

/-- The number of decimal digits of `n`, at least one. -/
def digitCount (n : Nat) : Nat := (Nat.toDigits 10 n).length

/-- The double nearest to `digits · 10^exponent`. Magnitudes outside the range of doubles are
recognised by their number of digits, so no huge power is computed. -/
def ofDecimal (negative : Bool) (digits : Nat) (exponent : Int) : Binary64 :=
  if digits = 0 then finite negative 0
  else
    let magnitude := exponent + digitCount digits
    if 310 < magnitude then infinity negative
    else if magnitude < -330 then finite negative 0
    else if 0 ≤ exponent then ofRatio negative (digits * tenTo exponent.toNat) 1
    else ofRatio negative digits (tenTo (-exponent).toNat)

/-- The `e` with `10^e ≤ u < 10^(e+1)`, `u` in units and positive. -/
def decimalExponent (u : Nat) : Int :=
  if unitsPerOne ≤ u then digitCount (u / unitsPerOne) - 1
  else
    match (List.range 330).find? fun k => unitsPerOne ≤ u * tenTo k with
    | some k => -(k : Int)
    | none => 0

/-- Decimals `digits · 10^exponent` that read back as `u` units, ends of the interval included
when `u` is the even choice. -/
def readsBackAs (u digits : Nat) (exponent : Int) : Bool :=
  let step := twoTo (u.log2 - 52)
  let below := if u = twoTo u.log2 && 1 < step then step / 2 else step
  let scaledUp := digits * tenTo exponent.toNat * unitsPerOne * 4
  let low := (4 * u - 2 * below) * tenTo (-exponent).toNat
  let high := (4 * u + 2 * step) * tenTo (-exponent).toNat
  if (u / step) % 2 = 0 then low ≤ scaledUp && scaledUp ≤ high
  else low < scaledUp && scaledUp < high

/-- Drops the zeros at the end of a decimal, at most `n` of them. -/
def dropZeros : Nat → Nat → Int → Nat × Int
  | 0, digits, exponent => (digits, exponent)
  | n + 1, digits, exponent =>
    if digits % 10 = 0 && digits != 0 then dropZeros n (digits / 10) (exponent + 1)
    else (digits, exponent)

/-- The decimal of at most `count` digits nearest to `u` units, if it reads back as `u`. -/
def nearestDecimal? (u count : Nat) : Option (Nat × Int) :=
  let exponent := decimalExponent u - (count - 1)
  let num := u * tenTo (-exponent).toNat
  let den := unitsPerOne * tenTo exponent.toNat
  let down := num / den
  let fits d := readsBackAs u d exponent
  if fits down && fits (down + 1) then some (roundDiv num den, exponent)
  else if fits down then some (down, exponent)
  else if fits (down + 1) then some (down + 1, exponent)
  else none

/-- The fewest digits that read back as `u` units, and of those the nearest. -/
def shortestDecimal (u : Nat) : Nat × Int :=
  match (List.range 17).findSome? fun n => nearestDecimal? u (n + 1) with
  | some (digits, exponent) => dropZeros 17 digits exponent
  | none => (u, 0)

/-- Where a decimal is written positionally: when its point stands more than `lowest` and at most
`highest` places after the place before its first digit. -/
structure Layout where
  lowest : Int
  highest : Int

/-- A positive decimal in a layout: always with a point or an exponent. -/
def Layout.render (layout : Layout) (digits : Nat) (exponent : Int) : String :=
  let ds := Nat.toDigits 10 digits
  let n := ds.length
  let point : Int := n + exponent
  let zeros (k : Int) : List Char := List.replicate k.toNat '0'
  if 0 < point && point ≤ layout.highest then
    if 0 ≤ exponent then String.ofList (ds ++ zeros exponent ++ ".0".toList)
    else String.ofList (ds.take point.toNat ++ '.' :: ds.drop point.toNat)
  else if layout.lowest < point && point ≤ 0 then
    String.ofList ("0.".toList ++ zeros (-point) ++ ds)
  else
    let mantissa := match ds with
      | [] => []
      | [d] => [d]
      | d :: rest => d :: '.' :: rest
    String.ofList mantissa ++ "e" ++ toString (point - 1)

/-- The text of a double in a layout. -/
def Layout.text (layout : Layout) : Binary64 → String
  | nan => "NaN"
  | infinity s => (if s then "-" else "") ++ "inf"
  | finite s u =>
    let body := if u = 0 then "0.0" else
      let (digits, exponent) := shortestDecimal u
      layout.render digits exponent
    (if s then "-" else "") ++ body

/-- Settings print their factors positionally from `0.0001` up to sixteen digits. -/
def settingLayout : Layout := ⟨-4, 16⟩

/-- Data prints numbers positionally from `0.00001` up to sixteen digits. -/
def dataLayout : Layout := ⟨-5, 16⟩

end Binary64

end Rollout
