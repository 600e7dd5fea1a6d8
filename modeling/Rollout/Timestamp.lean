/-
  Timestamps: points in time, read as RFC 3339 with any offset and kept in UTC.

  A fraction of a second is kept to the nanosecond, but it is never written. Reading is lenient in
  the ways the metadata of resources allows: blanks around the fields, fewer digits than usual, a
  blank instead of the `T`, and `UTC` instead of the `Z`.
-/
import Rollout.Power
import Rollout.Text.Blank

namespace Rollout

/-- A point in time in UTC, to the nanosecond. Second sixty is a leap second. -/
structure Timestamp where
  year : Int
  month : Nat
  day : Nat
  hour : Nat
  minute : Nat
  second : Nat
  nanos : Nat := 0
deriving DecidableEq, Repr

namespace Timestamp

/-! ## Calendar -/

def isLeapYear (y : Int) : Bool := y % 4 = 0 && (y % 100 != 0 || y % 400 = 0)

def daysInMonth (y : Int) (m : Nat) : Nat :=
  if m = 2 then (if isLeapYear y then 29 else 28)
  else if m = 4 || m = 6 || m = 9 || m = 11 then 30
  else 31

def nextDay (t : Timestamp) : Timestamp :=
  if t.day < daysInMonth t.year t.month then { t with day := t.day + 1 }
  else if t.month < 12 then { t with month := t.month + 1, day := 1 }
  else { t with year := t.year + 1, month := 1, day := 1 }

def previousDay (t : Timestamp) : Timestamp :=
  if 1 < t.day then { t with day := t.day - 1 }
  else if 1 < t.month then
    { t with month := t.month - 1, day := daysInMonth t.year (t.month - 1) }
  else { t with year := t.year - 1, month := 12, day := 31 }

/-- The time `minutes` earlier, for less than a day either way. -/
def earlier (t : Timestamp) (minutes : Int) : Timestamp :=
  let m : Int := t.hour * 60 + t.minute - minutes
  let at' (t : Timestamp) (m : Int) : Timestamp :=
    { t with hour := (m / 60).toNat, minute := (m % 60).toNat }
  if m < 0 then at' t.previousDay (m + 1440)
  else if 1440 ≤ m then at' t.nextDay (m - 1440)
  else at' t m

/-- The calendar has this point in time. -/
def isValid (t : Timestamp) : Bool :=
  -262143 ≤ t.year && t.year ≤ 262142 && 1 ≤ t.month && t.month ≤ 12 &&
    1 ≤ t.day && t.day ≤ daysInMonth t.year t.month &&
    t.hour ≤ 23 && t.minute ≤ 59 && t.second ≤ 60

/-- The point in time that is `t` at an offset of `minutes` from UTC; `none` if the calendar has no
such time there, or does not have it in UTC. -/
def inUtc? (t : Timestamp) (minutes : Int) : Option Timestamp :=
  let utc := if minutes = 0 then t else t.earlier minutes
  if t.isValid && utc.isValid then some utc else none

/-! ## Text -/

/-- `n` in decimal with at least `width` digits. -/
def padded (width n : Nat) : List Char :=
  let ds := Nat.toDigits 10 n
  List.replicate (width - ds.length) '0' ++ ds

/-- The year, with a sign when four digits do not hold it. -/
def yearText (y : Int) : List Char :=
  if 0 ≤ y ∧ y ≤ 9999 then padded 4 y.toNat
  else (if y < 0 then '-' else '+') :: padded 4 y.natAbs

/-- The text of a point in time, without the fraction of its second. -/
def text (t : Timestamp) : String :=
  String.ofList <|
    yearText t.year ++ '-' :: padded 2 t.month ++ '-' :: padded 2 t.day
      ++ 'T' :: padded 2 t.hour ++ ':' :: padded 2 t.minute ++ ':' :: padded 2 t.second ++ ['Z']

/-- Reads one to `width` digits. -/
def readNat (width : Nat) (s : List Char) : Option (Nat × List Char) :=
  let ds := (s.take width).takeWhile Char.isDigit
  if ds.isEmpty then none
  else some (ds.foldl (fun n c => n * 10 + (c.toNat - '0'.toNat)) 0, s.drop ds.length)

def readChar (c : Char) : List Char → Option (List Char)
  | d :: s => if c = d then some s else none
  | [] => none

def readYear (s : List Char) : Option (Int × List Char) :=
  match s with
  | '-' :: s => (readNat s.length s).map fun (n, s) => (-(n : Int), s)
  | '+' :: s => (readNat s.length s).map fun (n, s) => ((n : Int), s)
  | s => (readNat 4 s).map fun (n, s) => ((n : Int), s)

/-- Reads a field of up to two digits, blanks allowed before and after it. -/
def readField (s : List Char) : Option (Nat × List Char) :=
  (readNat 2 (Text.skipBlank s)).map fun (n, s) => (n, Text.skipBlank s)

/-- Reads a fraction of a second, in nanoseconds. A point needs a digit; digits beyond the ninth are
dropped. -/
def readFraction (s : List Char) : Option (Nat × List Char) :=
  match s with
  | '.' :: s => (readNat 9 s).map fun (n, rest) =>
    (n * tenTo (9 - (s.length - rest.length)), rest.dropWhile Char.isDigit)
  | s => some (0, s)

/-- Reads the offset from UTC, in minutes. -/
def readOffset (s : List Char) : Option (Int × List Char) := do
  let signed (negative : Bool) (s : List Char) : Option (Int × List Char) := do
    let [h₁, h₂] := s.take 2 | none
    if !(h₁.isDigit && h₂.isDigit) then none
    let s := (s.drop 2).dropWhile fun c => c = ':' || Text.isBlank c
    let [m₁, m₂] := s.take 2 | none
    if !('0' ≤ m₁ && m₁ ≤ '5' && m₂.isDigit) then none
    let digit (c : Char) : Int := c.toNat - '0'.toNat
    let minutes := (digit h₁ * 10 + digit h₂) * 60 + (digit m₁ * 10 + digit m₂)
    if 1440 ≤ minutes then none
    return (if negative then -minutes else minutes, s.drop 2)
  match s with
  | 'Z' :: s | 'z' :: s => return (0, s)
  | '+' :: s => signed false s
  | '-' :: s | '−' :: s => signed true s
  | a :: b :: c :: s =>
    if [a, b, c].map Char.toUpper = ['U', 'T', 'C'] then return (0, s) else none
  | _ => none

/-- Reads a timestamp; `none` for a text that is none or names no point in time. -/
def parse? (text : String) : Option Timestamp := do
  let (year, s) ← readYear (Text.skipBlank text.toList)
  let s ← readChar '-' (Text.skipBlank s)
  let (month, s) ← readField s
  let s ← readChar '-' s
  let (day, s) ← readNat 2 (Text.skipBlank s)
  let s ← match s with
    | 'T' :: s | 't' :: s | ' ' :: s => some s
    | _ => none
  let (hour, s) ← readField s
  let s ← readChar ':' s
  let (minute, s) ← readField s
  let s ← readChar ':' s
  let (second, s) ← readNat 2 (Text.skipBlank s)
  let (nanos, s) ← readFraction s
  let (offset, s) ← readOffset (Text.skipBlank s)
  if !(Text.skipBlank s).isEmpty then none
  inUtc? ⟨year, month, day, hour, minute, second, nanos⟩ offset

end Timestamp

end Rollout
