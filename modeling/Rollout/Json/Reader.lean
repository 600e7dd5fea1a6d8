/-
  Except Fault (JSON × List Char) text.

  The reader distinguishes text that ends too early (`cutOff`) from text that no continuation
  could mend (`malformed`). Whole numbers that fit 64 bits stay whole, all other numbers become
  doubles: the digits that fit 64 bits, as a double, times or divided by a double power of ten.
  Of equal keys in one object the last counts.
-/
import Rollout.Json.Basic

namespace Rollout.Json

/-- Why a text is no JSON value. A reading step yields a value and the rest of the text, or this. -/
inductive Fault where
  | cutOff
  | malformed
deriving DecidableEq, Repr

def isBlank (c : Char) : Bool := c = ' ' || c = '\t' || c = '\n' || c = '\r'

def skipBlank (s : List Char) : List Char := s.dropWhile isBlank

/-- Reads the exact characters `word`. -/
def readWord : List Char → List Char → Except Fault (List Char)
  | [], s => .ok s
  | _ :: _, [] => .error .cutOff
  | w :: ws, c :: s => if w = c then readWord ws s else .error .malformed

/-! ## Strings -/

def hexDigit? (c : Char) : Option Nat :=
  if c.isDigit then some (c.toNat - '0'.toNat)
  else if 'a' ≤ c ∧ c ≤ 'f' then some (c.toNat - 'a'.toNat + 10)
  else if 'A' ≤ c ∧ c ≤ 'F' then some (c.toNat - 'A'.toNat + 10)
  else none

/-- Reads `n` hexadecimal digits onto `acc`. -/
def readHex : Nat → Nat → List Char → Except Fault (Nat × List Char)
  | 0, acc, s => .ok (acc, s)
  | _ + 1, _, [] => .error .cutOff
  | n + 1, acc, c :: s =>
    match hexDigit? c with
    | some d => readHex n (acc * 16 + d) s
    | none => .error .malformed

/-- The character that a one-letter escape stands for. -/
def shortEscape? : Char → Option Char
  | '"' => some '"'
  | '\\' => some '\\'
  | '/' => some '/'
  | 'b' => some '\x08'
  | 'f' => some '\x0c'
  | 'n' => some '\n'
  | 'r' => some '\r'
  | 't' => some '\t'
  | _ => none

/-- Reads the four digits after `\u`, and the second half of a surrogate pair. -/
def readUnicode (s : List Char) : Except Fault (Char × List Char) := do
  let (high, s) ← readHex 4 0 s
  if 0xD800 ≤ high ∧ high < 0xDC00 then
    let s ← readWord ['\\', 'u'] s
    let (low, s) ← readHex 4 0 s
    if 0xDC00 ≤ low ∧ low < 0xE000 then
      return (Char.ofNat (0x10000 + (high - 0xD800) * 0x400 + (low - 0xDC00)), s)
    else .error .malformed
  else if 0xDC00 ≤ high ∧ high < 0xE000 then .error .malformed
  else return (Char.ofNat high, s)

/-- Reads the inside of a string and its closing quote; `acc` holds the characters so far,
reversed. -/
def readText : Nat → List Char → List Char → Except Fault (String × List Char)
  | 0, _, _ => .error .cutOff
  | _ + 1, _, [] => .error .cutOff
  | fuel + 1, acc, c :: s =>
    if c = '"' then .ok (String.ofList acc.reverse, s)
    else if c = '\\' then
      match s with
      | [] => .error .cutOff
      | 'u' :: s => do
        let (e, s) ← readUnicode s
        readText fuel (e :: acc) s
      | e :: s =>
        match shortEscape? e with
        | some e => readText fuel (e :: acc) s
        | none => .error .malformed
    else if c.toNat < 0x20 then .error .malformed
    else readText fuel (c :: acc) s

/-! ## Numbers -/

def natOfDigits (ds : List Char) : Nat :=
  ds.foldl (fun n c => n * 10 + (c.toNat - '0'.toNat)) 0

/-- The leading digits whose number fits 64 bits, as that number, and how many there are. -/
def significand (ds : List Char) : Nat × Nat :=
  go ds 0 0
where
  go : List Char → Nat → Nat → Nat × Nat
    | [], n, count => (n, count)
    | c :: cs, n, count =>
      let next := n * 10 + (c.toNat - '0'.toNat)
      if next < twoTo 64 then go cs next (count + 1) else (n, count)

/-- `digits · 10^exponent` with one rounding for the digits, one for the power and one for the
product or quotient; none beyond the largest double. -/
def scaled? (negative : Bool) (digits : Nat) (exponent : Int) : Option Binary64 :=
  let sign (x : Binary64) := if negative then x.neg else x
  let x := Binary64.ofNat digits
  if digits = 0 then some (sign x)
  else if 308 < exponent then none
  else if 0 ≤ exponent then
    match x.mul (.ofDecimal false 1 exponent) with
    | .infinity _ => none
    | y => some (sign y)
  else if -308 ≤ exponent then some (sign (x.div (.ofDecimal false 1 (-exponent))))
  else if exponent < -700 then some (sign Binary64.zero)
  else
    let step (y : Binary64) := y.div (.ofDecimal false 1 308)
    if -616 ≤ exponent then
      some (sign ((step x).div (.ofDecimal false 1 (-exponent - 308))))
    else some (sign ((step (step x)).div (.ofDecimal false 1 (-exponent - 616))))

/-- Reads the digits of an exponent with its sign; the sign letter is already read. -/
def readExponent (s : List Char) : Except Fault (Int × List Char) := do
  let (negative, s) := match s with
    | '-' :: s => (true, s)
    | '+' :: s => (false, s)
    | s => (false, s)
  match s with
  | [] => .error .cutOff
  | c :: _ =>
    if c.isDigit then
      let n : Int := natOfDigits (s.takeWhile Char.isDigit)
      return (if negative then -n else n, s.dropWhile Char.isDigit)
    else .error .malformed

/-- Splits off the leading digits, of which there must be at least one. -/
def readDigits (s : List Char) : Except Fault (List Char × List Char) :=
  match s with
  | [] => .error .cutOff
  | c :: _ =>
    if c.isDigit then .ok (s.takeWhile Char.isDigit, s.dropWhile Char.isDigit)
    else .error .malformed

/-- Reads the digits before the point: a zero alone, or digits that do not start with zero. -/
def readWhole : List Char → Except Fault (List Char × List Char)
  | [] => .error .malformed
  | '0' :: s =>
    match s with
    | c :: _ => if c.isDigit then .error .malformed else .ok (['0'], s)
    | [] => .ok (['0'], s)
  | s => readDigits s

/-- Reads the digits after the point, none when there is no point. -/
def readFraction : List Char → Except Fault (List Char × List Char)
  | '.' :: s => readDigits s
  | s => .ok ([], s)

/-- Reads an exponent, none when no letter starts one. -/
def readScale : List Char → Except Fault (Option Int × List Char)
  | 'e' :: s | 'E' :: s => do
    let (e, s) ← readExponent s
    return (some e, s)
  | s => .ok (none, s)

/-- The whole number with a sign and a magnitude, when it fits 64 bits; `-0` does not. -/
def wholeNumber? (negative : Bool) (n : Nat) : Option Int :=
  if negative then (if 0 < n ∧ n ≤ twoTo 63 then some (-(n : Int)) else none)
  else if n < twoTo 64 then some n
  else none

/-- The number with the given parts. -/
def assemble (negative : Bool) (whole fraction : List Char) (exponent : Option Int) :
    Except Fault Number :=
  let plain := if fraction.isEmpty && exponent.isNone then
      wholeNumber? negative (natOfDigits whole)
    else none
  match plain with
  | some n => .ok (.whole n)
  | none =>
    let (n, taken) := significand (whole ++ fraction)
    match scaled? negative n (exponent.getD 0 + (whole.length - taken)) with
    | some x => .ok (.real x)
    | none => .error .malformed

/-- Reads a number; its minus sign is already read. -/
def readNumber (negative : Bool) (s : List Char) : Except Fault (Json × List Char) := do
  let (whole, s) ← readWhole s
  let (fraction, s) ← readFraction s
  let (exponent, s) ← readScale s
  let n ← assemble negative whole fraction exponent
  return (.num n, s)

/-! ## Values -/

mutual

/-- Reads a value that starts at the first character; `depth` more levels may open. -/
def readValue : Nat → Nat → List Char → Except Fault (Json × List Char)
  | 0, _, _ => .error .cutOff
  | fuel + 1, depth, s =>
    match s with
    | [] => .error .cutOff
    | 'n' :: s => do return (.null, ← readWord ['u', 'l', 'l'] s)
    | 't' :: s => do return (.bool true, ← readWord ['r', 'u', 'e'] s)
    | 'f' :: s => do return (.bool false, ← readWord ['a', 'l', 's', 'e'] s)
    | '"' :: s => do
      let (text, s) ← readText (s.length + 1) [] s
      return (.str text, s)
    | '[' :: s =>
      if depth ≤ 1 then .error .malformed
      else
        match skipBlank s with
        | ']' :: s => .ok (.arr [], s)
        | s => do
          let (items, s) ← readItems fuel (depth - 1) [] s
          return (.arr items, s)
    | '{' :: s =>
      if depth ≤ 1 then .error .malformed
      else
        match skipBlank s with
        | '}' :: s => .ok (.obj [], s)
        | s => do
          let (members, s) ← readMembers fuel (depth - 1) [] s
          return (.obj (Entries.ofList members), s)
    | '-' :: s => readNumber true s
    | c :: s => if c.isDigit then readNumber false (c :: s) else .error .malformed

/-- Reads the items of an array from the first of them to the closing bracket. -/
def readItems : Nat → Nat → List Json → List Char → Except Fault (List Json × List Char)
  | 0, _, _, _ => .error .cutOff
  | fuel + 1, depth, acc, s => do
    let (item, s) ← readValue fuel depth s
    match skipBlank s with
    | [] => .error .cutOff
    | ']' :: s => .ok ((item :: acc).reverse, s)
    | ',' :: s => readItems fuel depth (item :: acc) (skipBlank s)
    | _ => .error .malformed

/-- Reads the members of an object from the first of them to the closing brace. -/
def readMembers : Nat → Nat → List (String × Json) → List Char →
    Except Fault (List (String × Json) × List Char)
  | 0, _, _, _ => .error .cutOff
  | fuel + 1, depth, acc, s =>
    match s with
    | [] => .error .cutOff
    | '"' :: s => do
      let (key, s) ← readText (s.length + 1) [] s
      match skipBlank s with
      | [] => .error .cutOff
      | ':' :: s =>
        let (value, s) ← readValue fuel depth (skipBlank s)
        match skipBlank s with
        | [] => .error .cutOff
        | '}' :: s => .ok (((key, value) :: acc).reverse, s)
        | ',' :: s => readMembers fuel depth ((key, value) :: acc) (skipBlank s)
        | _ => .error .malformed
      | _ => .error .malformed
    | _ => .error .malformed

end

/-- Reads a text that holds one value, of fewer than `depth` levels. -/
def parseWithin (depth : Nat) (text : String) : Except Fault Json := do
  let s := text.toList
  let (value, rest) ← readValue (s.length + 1) depth (skipBlank s)
  if (skipBlank rest).isEmpty then .ok value else .error .malformed

/-- Reads a text that holds one value, of fewer than 128 levels. -/
def parse (text : String) : Except Fault Json := parseWithin 128 text

end Rollout.Json
