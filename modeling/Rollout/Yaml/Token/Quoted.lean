/-
  Quoted scalars: in single quotes, where only a doubled quote is special, or in double quotes,
  where a backslash escapes.
-/
import Rollout.Yaml.Gap

namespace Rollout.Yaml.Quoted

def hexValue? (c : Char) : Option Nat :=
  if c.isDigit then some (c.toNat - 48)
  else if 'a' ≤ c ∧ c ≤ 'f' then some (c.toNat - 87)
  else if 'A' ≤ c ∧ c ≤ 'F' then some (c.toNat - 55)
  else none

/-- The number that exactly `n` hexadecimal digits denote. -/
def hex? (n : Nat) (cs : List Char) : Option Nat :=
  if cs.length < n then none
  else (cs.take n).foldlM (fun v c => (hexValue? c).map (v * 16 + ·)) 0

/-- The character that a single letter behind a backslash stands for. -/
def shortEscape? : Char → Option Char
  | '0' => some '\x00'
  | 'a' => some '\x07'
  | 'b' => some '\x08'
  | 't' | '\t' => some '\t'
  | 'n' => some '\n'
  | 'v' => some '\x0b'
  | 'f' => some '\x0c'
  | 'r' => some '\r'
  | 'e' => some '\x1b'
  | ' ' => some ' '
  | '"' => some '"'
  | '/' => some '/'
  | '\\' => some '\\'
  | 'N' => some '\u0085'
  | '_' => some '\u00a0'
  | 'L' => some '\u2028'
  | 'P' => some '\u2029'
  | _ => none

/-- How many hexadecimal digits follow a letter behind a backslash. -/
def hexLength? : Char → Option Nat
  | 'x' => some 2
  | 'u' => some 4
  | 'U' => some 8
  | _ => none

/-- The character of a number, unless it is a surrogate or too large. -/
def charOf? (n : Nat) : Option Char := if h : n.isValidChar then some ⟨n.toUInt32, by
  simpa [UInt32.isValidChar, Nat.toUInt32] using (by
    have : n < 4294967296 := by rcases h with h | h <;> omega
    rw [UInt32.toNat_ofNat']
    rwa [Nat.mod_eq_of_lt this] : (UInt32.ofNat n).toNat.isValidChar)⟩ else none

/-- Reads an escape: the character and the number of characters that make it up. -/
def escape? (c : Cursor) : Option (Char × Nat) := do
  let letter ← c.charAt? 1
  match hexLength? letter with
  | some n => return (← charOf? (← hex? n (c.rest.drop 2)), 2 + n)
  | none => return (← shortEscape? letter, 2)

/-- A character that stands for itself. -/
def isOrdinary (single : Bool) (c : Char) : Bool :=
  !(isBlank c || isBreak c || c = (if single then '\'' else '"') || (!single && c = '\\'))

/-- Reads up to the next gap or to the closing quote. An escaped line end stops the reading, with
the line end passed; the answer tells whether there was one. -/
def run? (single : Bool) : Nat → Cursor → List Char → Option (List Char × Cursor × Bool)
  | 0, c, text => some (text, c, false)
  | n + 1, c, text =>
    let chars := c.take (isOrdinary single)
    let text := text ++ chars
    let c := c.skip chars.length
    if single && c.isAt '\'' && c.charAt? 1 = some '\'' then
      run? single n (c.skip 2) (text ++ ['\''])
    else if !single && c.isAt '\\' then
      if (c.charAt? 1).any isBreak then some (text, (c.skip 1).skipBreak, true)
      else match escape? c with
        | some (ch, length) => run? single n (c.skip length) (text ++ [ch])
        | none => none
    else some (text, c, false)

/-- Reads the rest of a scalar of which `text` is read. -/
def readFrom? (single : Bool) : Nat → Cursor → List Char → Option (List Char × Cursor)
  | 0, _, _ => none
  | n + 1, c, text =>
    if c.isAtDocumentMark || c.isAtEnd then none
    else
      match run? single (c.rest.length + 1) c text with
      | none => none
      | some (text, c, escaped) =>
        if c.isAt (if single then '\'' else '"') then some (text, c.skip 1)
        else
          match Gap.read? 0 (c.rest.length + 1) c { broken := escaped } with
          | none => none
          | some (gap, c) => readFrom? single n c (text ++ gap.text)

/-- Reads the scalar whose opening quote the cursor stands at. -/
def read? (single : Bool) (c : Cursor) : Option (List Char × Cursor) :=
  readFrom? single (c.rest.length + 1) (c.skip 1) []

end Rollout.Yaml.Quoted
