/-
  Cursors: places in a YAML text.

  A cursor knows its line and its column, both counted from zero. Five characters end a line; a
  carriage return and a line feed together end one.
-/
namespace Rollout.Yaml

def isBreak (c : Char) : Bool :=
  c = '\r' || c = '\n' || c = '\u0085' || c = '\u2028' || c = '\u2029'

def isBlank (c : Char) : Bool := c = ' ' || c = '\t'

/-- The characters of anchors and of the handles of tags. -/
def isWordChar (c : Char) : Bool := c.isAlphanum || c = '_' || c = '-'

/-- The characters that a YAML text may hold. -/
def isAllowed (c : Char) : Bool :=
  let n := c.toNat
  n = 0x09 || n = 0x0A || n = 0x0D || (0x20 ≤ n && n ≤ 0x7E) || n = 0x85
    || (0xA0 ≤ n && n ≤ 0xD7FF) || (0xE000 ≤ n && n ≤ 0xFFFD) || 0x10000 ≤ n

/-- A place in a text, with what follows it. -/
structure Cursor where
  rest : List Char
  index : Nat := 0
  line : Nat := 0
  column : Nat := 0

namespace Cursor

/-- The character at the cursor. -/
def char? (c : Cursor) : Option Char := c.rest.head?

/-- The character `n` places behind the cursor. -/
def charAt? (c : Cursor) (n : Nat) : Option Char := c.rest[n]?

def isAt (c : Cursor) (ch : Char) : Bool := c.char? = some ch

def isAtAny (c : Cursor) (chars : List Char) : Bool := c.char?.any (chars.contains ·)

/-- The cursor stands at the end of the text. -/
def isAtEnd (c : Cursor) : Bool := c.rest.isEmpty

def isAtBreak (c : Cursor) : Bool := c.char?.any isBreak

def isAtBlank (c : Cursor) : Bool := c.char?.any isBlank

/-- A blank, the end of the line or of the text is `n` places behind the cursor. -/
def isGapAt (c : Cursor) (n : Nat) : Bool := (c.charAt? n).all fun ch => isBlank ch || isBreak ch

/-- The line or the text ends at the cursor. -/
def isAtLineEnd (c : Cursor) : Bool := c.char?.all isBreak

/-- The cursor after `n` characters that end no line. -/
def skip (c : Cursor) (n : Nat) : Cursor :=
  { c with rest := c.rest.drop n, index := c.index + n, column := c.column + n }

/-- The cursor after the end of the line that it stands at. -/
def skipBreak (c : Cursor) : Cursor :=
  match c.rest with
  | '\r' :: '\n' :: rest => ⟨rest, c.index + 2, c.line + 1, 0⟩
  | ch :: rest => if isBreak ch then ⟨rest, c.index + 1, c.line + 1, 0⟩ else c
  | [] => c

/-- The end of the line at the cursor as it counts in a value: a line feed, but for the two
separators of Unicode, which stand for themselves. -/
def breakText (c : Cursor) : List Char :=
  match c.char? with
  | some '\u2028' => ['\u2028']
  | some '\u2029' => ['\u2029']
  | some ch => if isBreak ch then ['\n'] else []
  | none => []

/-- The characters up to the first that does not satisfy `p`, none of which ends a line. -/
def take (c : Cursor) (p : Char → Bool) : List Char := c.rest.takeWhile p

def skipWhile (c : Cursor) (p : Char → Bool) : Cursor := c.skip (c.take p).length

def skipBlanks (c : Cursor) : Cursor := c.skipWhile isBlank

/-- The cursor after a comment, if there is one. -/
def skipComment (c : Cursor) : Cursor :=
  if c.isAt '#' then c.skipWhile fun ch => !isBreak ch else c

/-- The mark `word` stands at the beginning of a line, and a gap behind it. -/
def isAtMark (c : Cursor) (word : String) : Bool :=
  c.column = 0 && word.toList.isPrefixOf c.rest && c.isGapAt word.length

def isAtDocumentMark (c : Cursor) : Bool := c.isAtMark "---" || c.isAtMark "..."

end Cursor

end Rollout.Yaml
