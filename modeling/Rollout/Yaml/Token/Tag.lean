/-
  Tags, anchors and directives.

  A tag is a handle and a suffix, `!` alone, or a whole name between angle brackets, for which the
  handle is empty. Bytes of a suffix may be written as two hexadecimal digits behind a percent sign.
-/
import Rollout.Yaml.Token.Quoted

namespace Rollout.Yaml.Tag

/-- A tag as it is written. -/
structure Written where
  handle : String
  suffix : String
deriving DecidableEq, Repr

def isNameChar (c : Char) : Bool :=
  isWordChar c || ";/?:@&=+$.%!~*'()".toList.contains c

/-- The characters of a name between angle brackets. -/
def isLongNameChar (c : Char) : Bool := isNameChar c || c = ',' || c = '[' || c = ']'

/-- The bytes that hexadecimal escapes at the beginning stand for, and how many there are. -/
def escapedBytes? : Nat → List Char → Option (List UInt8)
  | 0, _ => some []
  | n + 1, '%' :: a :: b :: rest => do
    let x ← Quoted.hexValue? a
    let y ← Quoted.hexValue? b
    return UInt8.ofNat (x * 16 + y) :: (← escapedBytes? n rest)
  | _ + 1, _ => none

/-- How many bytes the character has that begins with this byte. -/
def byteCount? (b : UInt8) : Option Nat :=
  if b < 0x80 then some 1
  else if b &&& 0xE0 = 0xC0 then some 2
  else if b &&& 0xF0 = 0xE0 then some 3
  else if b &&& 0xF8 = 0xF0 then some 4
  else none

/-- The character that escapes stand for, and the number of characters that make it up. -/
def escape? (cs : List Char) : Option (List Char × Nat) := do
  let first ← (← escapedBytes? 1 cs).head?
  let count ← byteCount? first
  let text ← String.fromUTF8? ⟨(← escapedBytes? count cs).toArray⟩
  return (text.toList, 3 * count)

/-- Reads a name of the given characters. -/
def name? (p : Char → Bool) : Nat → Cursor → List Char → Option (List Char × Cursor)
  | 0, c, text => some (text, c)
  | n + 1, c, text =>
    match c.char? with
    | some '%' =>
      match escape? c.rest with
      | some (chars, length) => name? p n (c.skip length) (text ++ chars)
      | none => none
    | some ch => if p ch then name? p n (c.skip 1) (text ++ [ch]) else some (text, c)
    | none => some (text, c)

def readName? (p : Char → Bool) (c : Cursor) : Option (List Char × Cursor) :=
  name? p (c.rest.length + 1) c []

/-- Reads a handle: an exclamation mark, word characters, and perhaps another mark. -/
def readHandle? (c : Cursor) : Option (List Char × Cursor) :=
  if c.isAt '!' then
    let word := (c.skip 1).take isWordChar
    let after := c.skip (1 + word.length)
    if after.isAt '!' then some ('!' :: word ++ ['!'], after.skip 1) else some ('!' :: word, after)
  else none

/-- A handle that is closed by a mark, and not the single mark. -/
def isClosed (handle : List Char) : Bool := 1 < handle.length && handle.getLast? = some '!'

private def readWritten? (c : Cursor) : Option (Written × Cursor) := do
  if c.charAt? 1 = some '<' then
    let (name, c) ← readName? isLongNameChar (c.skip 2)
    if name.isEmpty || !c.isAt '>' then none
    return (⟨"", String.ofList name⟩, c.skip 1)
  let (handle, c) ← readHandle? c
  let (name, c) ← readName? isNameChar c
  if isClosed handle then
    if name.isEmpty then none
    return (⟨String.ofList handle, String.ofList name⟩, c)
  let suffix := handle.drop 1 ++ name
  if suffix.isEmpty then return (⟨"", "!"⟩, c)
  return (⟨"!", String.ofList suffix⟩, c)

/-- Reads the tag that the cursor stands at. A gap follows it, or a comma between brackets. -/
def read? (inFlow : Bool) (c : Cursor) : Option (Written × Cursor) := do
  let (tag, c) ← readWritten? c
  if c.isGapAt 0 || (inFlow && c.isAt ',') then return (tag, c) else none

/-- Reads the name behind the mark of an anchor or an alias. -/
def readAnchor? (c : Cursor) : Option (String × Cursor) :=
  let word := (c.skip 1).take isWordChar
  let after := c.skip (1 + word.length)
  if word.isEmpty then none
  else if after.isGapAt 0 || after.isAtAny ['?', ':', ',', ']', '}', '%', '@', '`'] then
    some (String.ofList word, after)
  else none

/-! ## Directives -/

/-- A directive in front of a document. -/
inductive Directive where
  | version (major minor : Nat)
  | tag (handle expansion : String)

/-- A number of at most nine digits. -/
private def number? (c : Cursor) : Option (Nat × Cursor) :=
  let digits := c.take Char.isDigit
  if digits.isEmpty || 9 < digits.length then none
  else some (digits.foldl (fun n d => n * 10 + (d.toNat - 48)) 0, c.skip digits.length)

private def version? (c : Cursor) : Option (Directive × Cursor) := do
  let (major, c) ← number? c.skipBlanks
  if !c.isAt '.' then none
  let (minor, c) ← number? (c.skip 1)
  return (.version major minor, c)

private def expansion? (c : Cursor) : Option (Directive × Cursor) := do
  let (handle, c) ← readHandle? c.skipBlanks
  if handle != ['!'] && !isClosed handle then none
  if !c.isAtBlank then none
  let (name, c) ← readName? isLongNameChar c.skipBlanks
  if name.isEmpty || !c.isGapAt 0 then none
  return (.tag (String.ofList handle) (String.ofList name), c)

/-- Reads the directive that the cursor stands at, with its line. -/
def readDirective? (c : Cursor) : Option (Directive × Cursor) := do
  let word := (c.skip 1).take isWordChar
  let after := c.skip (1 + word.length)
  if word.isEmpty || !after.isGapAt 0 then none
  let (directive, c) ←
    if String.ofList word = "YAML" then version? after
    else if String.ofList word = "TAG" then expansion? after
    else none
  let c := c.skipBlanks.skipComment
  if !c.isAtLineEnd then none
  return (directive, c.skipBreak)

end Rollout.Yaml.Tag
