/-
  Block scalars: values that are written on lines of their own, kept line by line or folded.

  The header may fix the indentation and tells what becomes of the line ends behind the value.
-/
import Rollout.Yaml.Cursor

namespace Rollout.Yaml.Block

/-- What becomes of the line ends behind the value. -/
inductive Chomping where
  | strip
  | clip
  | keep
deriving DecidableEq

/-- The header of a block scalar: the chomping and the explicit indentation. -/
structure Header where
  chomping : Chomping := .clip
  increment : Option Nat := none

def chomping? (c : Cursor) : Option Chomping :=
  match c.char? with
  | some '+' => some .keep
  | some '-' => some .strip
  | _ => none

/-- The indentation indicator at the cursor, which may not be zero. -/
def increment? (c : Cursor) : Option (Option Nat) :=
  match c.char? with
  | some ch => if ch.isDigit then (if ch = '0' then none else some (some (ch.toNat - 48)))
    else some none
  | none => some none

/-- Reads a header, the two indicators in either order. -/
def header? (c : Cursor) : Option (Header × Cursor) :=
  match chomping? c with
  | some chomping => do
    let increment ← increment? (c.skip 1)
    return (⟨chomping, increment⟩, c.skip (if increment.isSome then 2 else 1))
  | none => do
    match ← increment? c with
    | some n =>
      let c := c.skip 1
      match chomping? c with
      | some chomping => return (⟨chomping, some n⟩, c.skip 1)
      | none => return (⟨.clip, some n⟩, c)
    | none => return ({}, c)

/-- Passes indentation and empty lines. The answer has the line ends, the deepest indentation and
the cursor; a tab in the place of indentation is refused. -/
def breaks? (indent : Option Nat) : Nat → Cursor → List Char → Nat →
    Option (List Char × Nat × Cursor)
  | 0, c, text, deepest => some (text, deepest, c)
  | n + 1, c, text, deepest =>
    let room := (c.take (· = ' ')).length
    let c := c.skip (match indent with
      | some indent => min room (indent - c.column)
      | none => room)
    let deepest := max deepest c.column
    if c.isAt '\t' && indent.all (c.column < ·) then none
    else if c.isAtBreak then breaks? indent n c.skipBreak (text ++ c.breakText) deepest
    else some (text, deepest, c)

def readBreaks? (indent : Option Nat) (c : Cursor) : Option (List Char × Nat × Cursor) :=
  breaks? indent (c.rest.length + 1) c [] 0

/-- What is read of a value: its text, the line end behind its last line, the empty lines behind
that, and whether the last line began with a blank. -/
structure Lines where
  text : List Char := []
  last : List Char := []
  empty : List Char := []
  blankBefore : Bool := false

/-- The value with the line ends that are between its lines, the next one starting with a blank or
not. -/
def Lines.joined (l : Lines) (folded blankAfter : Bool) : List Char :=
  if folded && l.last = ['\n'] && !l.blankBefore && !blankAfter then
    l.text ++ (if l.empty.isEmpty then [' '] else []) ++ l.empty
  else l.text ++ l.last ++ l.empty

/-- Reads the lines that are indented by `indent`. -/
def lines? (folded : Bool) (indent : Nat) : Nat → Cursor → Lines → Option (Lines × Cursor)
  | 0, c, l => some (l, c)
  | n + 1, c, l =>
    if c.column = indent && !c.isAtEnd then
      let run := c.take fun ch => !isBreak ch
      let text := l.joined folded c.isAtBlank ++ run
      let after := c.skip run.length
      match readBreaks? (some indent) after.skipBreak with
      | none => none
      | some (empty, _, next) =>
        lines? folded indent n next ⟨text, after.breakText, empty, c.isAtBlank⟩
    else some (l, c)

def chomped (chomping : Chomping) (l : Lines) : List Char :=
  match chomping with
  | .strip => l.text
  | .clip => l.text ++ l.last
  | .keep => l.text ++ l.last ++ l.empty

/-- Reads the block scalar whose indicator the cursor stands at, inside a collection that is
indented by `parent`, none for no collection. -/
def read? (folded : Bool) (parent : Option Nat) (c : Cursor) : Option (List Char × Cursor) := do
  let (header, c) ← header? (c.skip 1)
  let c := c.skipBlanks.skipComment
  if !c.isAtLineEnd then none
  let c := c.skipBreak
  let explicit := header.increment.map (parent.getD 0 + ·)
  let (empty, deepest, c) ← readBreaks? explicit c
  let indent := explicit.getD (max (max deepest ((parent.map (· + 1)).getD 0)) 1)
  let (l, c) ← lines? folded indent (c.rest.length + 1) c ⟨[], [], empty, false⟩
  return (chomped header.chomping l, c)

end Rollout.Yaml.Block
