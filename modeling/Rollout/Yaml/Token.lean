/-
  Tokens: the parts of a YAML text.

  Indentation becomes explicit: where it deepens a block collection starts, where it recedes one
  ends. A mapping key is known as one only by the colon behind it, so the place of a token that may
  turn out to be a key is kept until the colon comes or cannot come any more: a key lies on one line
  and has less than 1024 characters.
-/
import Rollout.Yaml.Token.Block
import Rollout.Yaml.Token.Plain
import Rollout.Yaml.Token.Tag

namespace Rollout.Yaml

/-- A part of a YAML text. -/
inductive Token where
  | streamEnd
  | directive (d : Tag.Directive)
  | documentStart
  | documentEnd
  | blockSequenceStart
  | blockMappingStart
  | blockEnd
  | flowSequenceStart
  | flowSequenceEnd
  | flowMappingStart
  | flowMappingEnd
  | blockEntry
  | flowEntry
  | key
  | value
  | anchor (name : String)
  | alias (name : String)
  | tag (written : Tag.Written)
  | scalar (text : String) (plain : Bool)

/-- The place of a token that may turn out to be a key. -/
structure KeyPlace where
  /-- How many tokens precede it. -/
  number : Nat
  /-- It has to turn out to be a key. -/
  required : Bool
  line : Nat
  index : Nat
  column : Nat

/-- How far a text is read. -/
structure Scanner where
  cursor : Cursor
  /-- The tokens so far, the latest first, and their number. -/
  tokens : List Token := []
  count : Nat := 0
  /-- The indentation of the block collections that are open, the innermost first. -/
  indents : List Nat := []
  /-- For the block level and every open bracket, the innermost first, the possible key. -/
  places : List (Option KeyPlace) := [none]
  keyAllowed : Bool := true
  finished : Bool := false

namespace Scanner

/-- A bracket is open. -/
def inFlow (s : Scanner) : Bool := 1 < s.places.length

/-- The indentation of the innermost block collection. -/
def indent? (s : Scanner) : Option Nat := s.indents.head?

def emit (s : Scanner) (t : Token) : Scanner :=
  { s with tokens := t :: s.tokens, count := s.count + 1 }

/-- Puts a token in front of all but the first `number` tokens. -/
def insertAt (s : Scanner) (number : Nat) (t : Token) : Scanner :=
  let later := s.count - number
  { s with tokens := s.tokens.take later ++ t :: s.tokens.drop later, count := s.count + 1 }

def moveTo (s : Scanner) (c : Cursor) : Scanner := { s with cursor := c }

/-- Passes `n` characters and emits a token for them. -/
def pass (s : Scanner) (n : Nat) (t : Token) : Scanner := (s.moveTo (s.cursor.skip n)).emit t

def allowKey (s : Scanner) (allowed : Bool) : Scanner := { s with keyAllowed := allowed }

/-! ## Possible keys -/

/-- Gives up the possible key of the innermost level. -/
def dropPlace? (s : Scanner) : Option Scanner :=
  match s.places with
  | some place :: rest => if place.required then none else some { s with places := none :: rest }
  | _ => some s

/-- The next token may turn out to be a key, if keys are allowed. -/
def savePlace? (s : Scanner) : Option Scanner :=
  if s.keyAllowed then
    s.dropPlace?.map fun s =>
      let c := s.cursor
      let required := !s.inFlow && s.indent? = some c.column
      let place : KeyPlace := ⟨s.count, required, c.line, c.index, c.column⟩
      { s with places := some place :: s.places.drop 1 }
  else some s

/-- No colon can make it a key any more. -/
def isStale (c : Cursor) (place : KeyPlace) : Bool :=
  place.line < c.line || place.index + 1024 < c.index

/-- Gives up the places that are stale. -/
def dropStale? (s : Scanner) : Option Scanner :=
  let stale (place : Option KeyPlace) : Bool := place.any (isStale s.cursor)
  if s.places.any fun p => stale p && p.any (·.required) then none
  else some { s with places := s.places.map fun p => if stale p then none else p }

/-! ## Indentation -/

/-- Starts a block collection, if the indentation deepens to `column`; its token is the one with
the given number. -/
def deepen (s : Scanner) (column number : Nat) (t : Token) : Scanner :=
  if !s.inFlow && s.indent?.all (· < column) then
    { s.insertAt number t with indents := column :: s.indents }
  else s

/-- Ends the block collections that are indented by more than `column`, all of them for none. -/
def recede (s : Scanner) (column : Option Nat) : Scanner :=
  if s.inFlow then s
  else
    let deeper := s.indents.takeWhile fun indent => column.all (· < indent)
    let s' := { s with indents := s.indents.drop deeper.length }
    deeper.foldl (fun s _ => s.emit .blockEnd) s'

/-! ## Tokens -/

/-- Passes blanks, comments and line ends. A new line may start with a key. -/
def toNext : Nat → Scanner → Scanner
  | 0, s => s
  | n + 1, s =>
    let c := s.cursor
    let c := if c.column = 0 && c.isAt '\uFEFF' then c.skip 1 else c
    let tabs := s.inFlow || !s.keyAllowed
    let c := (c.skipWhile fun ch => ch = ' ' || (tabs && ch = '\t')).skipComment
    if c.isAtBreak then
      toNext n { s with cursor := c.skipBreak, keyAllowed := s.keyAllowed || !s.inFlow }
    else s.moveTo c

/-- The end of the text ends everything. -/
def finish? (s : Scanner) : Option Scanner := do
  let s ← (s.recede none).dropPlace?
  return { (s.emit .streamEnd).allowKey false with finished := true }

/-- A mark between documents ends every collection. -/
def document? (s : Scanner) (t : Token) : Option Scanner := do
  return ((← (s.recede none).dropPlace?).allowKey false).pass 3 t

def directive? (s : Scanner) : Option Scanner := do
  let s ← (s.recede none).dropPlace?
  let (d, c) ← Tag.readDirective? s.cursor
  return ((s.allowKey false).moveTo c).emit (.directive d)

def open? (s : Scanner) (t : Token) : Option Scanner := do
  let s ← s.savePlace?
  return ({ s with places := none :: s.places }.allowKey true).pass 1 t

def close? (s : Scanner) (t : Token) : Option Scanner := do
  let s ← s.dropPlace?
  let places := if s.inFlow then s.places.drop 1 else s.places
  return ({ s with places }.allowKey false).pass 1 t

def flowEntry? (s : Scanner) : Option Scanner := do
  return ((← s.dropPlace?).allowKey true).pass 1 .flowEntry

def blockEntry? (s : Scanner) : Option Scanner := do
  if !s.inFlow && !s.keyAllowed then none
  let s ← (s.deepen s.cursor.column s.count .blockSequenceStart).dropPlace?
  return (s.allowKey true).pass 1 .blockEntry

/-- A question mark announces a key. -/
def key? (s : Scanner) : Option Scanner := do
  if !s.inFlow && !s.keyAllowed then none
  let s ← (s.deepen s.cursor.column s.count .blockMappingStart).dropPlace?
  return (s.allowKey !s.inFlow).pass 1 .key

/-- A colon makes a key of the token at the possible place; without one it follows an announced or
an empty key. -/
def value? (s : Scanner) : Option Scanner :=
  match s.places with
  | some place :: rest =>
    let s := { s.insertAt place.number .key with places := none :: rest }
    let s := s.deepen place.column place.number .blockMappingStart
    some ((s.allowKey false).pass 1 .value)
  | _ =>
    if !s.inFlow && !s.keyAllowed then none
    else
      let s := s.deepen s.cursor.column s.count .blockMappingStart
      some ((s.allowKey !s.inFlow).pass 1 .value)

def anchor? (s : Scanner) (t : String → Token) : Option Scanner := do
  let s ← s.savePlace?
  let (name, c) ← Tag.readAnchor? s.cursor
  return ((s.allowKey false).moveTo c).emit (t name)

def tag? (s : Scanner) : Option Scanner := do
  let s ← s.savePlace?
  let (tag, c) ← Tag.read? s.inFlow s.cursor
  return ((s.allowKey false).moveTo c).emit (.tag tag)

def blockScalar? (s : Scanner) (folded : Bool) : Option Scanner := do
  let s ← s.dropPlace?
  let (text, c) ← Block.read? folded s.indent? s.cursor
  return ((s.allowKey true).moveTo c).emit (.scalar (String.ofList text) false)

def quotedScalar? (s : Scanner) (single : Bool) : Option Scanner := do
  let s ← s.savePlace?
  let (text, c) ← Quoted.read? single s.cursor
  return ((s.allowKey false).moveTo c).emit (.scalar (String.ofList text) false)

def plainScalar? (s : Scanner) : Option Scanner := do
  let s ← s.savePlace?
  let indent := (s.indent?.map (· + 1)).getD 0
  let (text, c, broken) ← Plain.read? s.inFlow indent s.cursor
  return ((s.allowKey broken).moveTo c).emit (.scalar (String.ofList text) true)

/-- The characters that no plain scalar begins with, unless an exception is made. -/
def isIndicator (c : Char) : Bool := "-?:,[]{}#&*!|>'\"%@`".toList.contains c

/-- Reads the next token. -/
def next? (s : Scanner) : Option Scanner := do
  let s ← (toNext (s.cursor.rest.length + 1) s).dropStale?
  let s := s.recede (some s.cursor.column)
  let c := s.cursor
  let gap := c.isGapAt 1
  match c.char? with
  | none => s.finish?
  | some ch =>
    if c.column = 0 && ch = '%' then s.directive?
    else if c.isAtMark "---" then s.document? .documentStart
    else if c.isAtMark "..." then s.document? .documentEnd
    else if ch = '[' then s.open? .flowSequenceStart
    else if ch = '{' then s.open? .flowMappingStart
    else if ch = ']' then s.close? .flowSequenceEnd
    else if ch = '}' then s.close? .flowMappingEnd
    else if ch = ',' then s.flowEntry?
    else if ch = '-' && gap then s.blockEntry?
    else if ch = '?' && (s.inFlow || gap) then s.key?
    else if ch = ':' && (s.inFlow || gap) then s.value?
    else if ch = '*' then s.anchor? .alias
    else if ch = '&' then s.anchor? .anchor
    else if ch = '!' then s.tag?
    else if ch = '|' && !s.inFlow then s.blockScalar? false
    else if ch = '>' && !s.inFlow then s.blockScalar? true
    else if ch = '\'' then s.quotedScalar? true
    else if ch = '"' then s.quotedScalar? false
    else if !(isBlank ch || isIndicator ch) || ch = '-'
        || (!s.inFlow && (ch = '?' || ch = ':')) then
      s.plainScalar?
    else none

/-- Reads tokens to the end, or up to a place where none can be read. -/
def scan : Nat → Scanner → Scanner
  | 0, s => s
  | n + 1, s =>
    if s.finished then s
    else match s.next? with
      | some s => scan n s
      | none => s

end Scanner

/-- The tokens of a text, up to a place where none can be read. A text with a character that YAML
does not allow has none. -/
def tokens (text : String) : List Token :=
  let chars := match text.toList with
    | '\uFEFF' :: rest => rest
    | chars => chars
  if chars.all isAllowed then
    (Scanner.scan (chars.length + 2) { cursor := ⟨chars, 0, 0, 0⟩ }).tokens.reverse
  else []

end Rollout.Yaml
