/-
  Gaps: the blanks and line ends between two parts of a scalar.

  Blanks within a line stand for themselves. Where a line ends, one line end is folded into a blank
  and of several the first is dropped.
-/
import Rollout.Yaml.Cursor

namespace Rollout.Yaml

/-- Blanks, and the line ends among them. -/
structure Gap where
  blanks : List Char := []
  /-- The first line end. -/
  first : List Char := []
  /-- All further line ends. -/
  further : List Char := []
  broken : Bool := false

namespace Gap

/-- What the gap stands for in the value. -/
def text (g : Gap) : List Char :=
  if g.broken then
    if g.first = ['\n'] then (if g.further.isEmpty then [' '] else g.further)
    else g.first ++ g.further
  else g.blanks

def withBreak (g : Gap) (text : List Char) : Gap :=
  if g.broken then { g with further := g.further ++ text }
  else { g with blanks := [], first := text, broken := true }

/-- Reads a gap. A tab before the column `indent` of a new line is refused. -/
def read? (indent : Nat) : Nat → Cursor → Gap → Option (Gap × Cursor)
  | 0, c, g => some (g, c)
  | n + 1, c, g =>
    match c.char? with
    | some ch =>
      if isBlank ch then
        if g.broken then
          if c.column < indent && ch = '\t' then none else read? indent n (c.skip 1) g
        else read? indent n (c.skip 1) { g with blanks := g.blanks ++ [ch] }
      else if isBreak ch then read? indent n c.skipBreak (g.withBreak c.breakText)
      else some (g, c)
    | none => some (g, c)

end Gap

end Rollout.Yaml
