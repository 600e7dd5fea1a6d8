/-
  Plain scalars: values without quotes.

  A plain scalar ends at a colon with a gap behind it, at a comment, at a line that is indented less
  and at a document mark; between brackets also at a comma and at a bracket.
-/
import Rollout.Yaml.Gap

namespace Rollout.Yaml.Plain

def isBracket (c : Char) : Bool := c = '[' || c = ']' || c = '{' || c = '}'

private def isGap? (c : Option Char) : Bool := c.all fun ch => isBlank ch || isBreak ch

/-- The characters up to the next gap or the end of the scalar; none for a colon that may not
stand where it does. -/
def run? (inFlow : Bool) : List Char → Option (List Char)
  | [] => some []
  | c :: rest =>
    if isBlank c || isBreak c then some []
    else if c = ':' && inFlow && rest.head?.any fun d => d = ',' || d = '?' || isBracket d then none
    else if (c = ':' && isGap? rest.head?) || (inFlow && (c = ',' || isBracket c)) then some []
    else (run? inFlow rest).map (c :: ·)

/-- Reads the rest of a scalar of which `text` is read, with the gap behind it. The answer has the
text, the cursor, and whether a line ended behind the scalar. -/
def readFrom? (inFlow : Bool) (indent : Nat) :
    Nat → Cursor → List Char → Gap → Option (List Char × Cursor × Bool)
  | 0, c, text, gap => some (text, c, gap.broken)
  | n + 1, c, text, gap =>
    if c.isAtDocumentMark || c.isAt '#' then some (text, c, gap.broken)
    else
      match run? inFlow c.rest with
      | none => none
      | some run =>
        let text := if run.isEmpty then text else text ++ gap.text ++ run
        let c := c.skip run.length
        if !(c.isAtBlank || c.isAtBreak) then
          some (text, c, if run.isEmpty then gap.broken else false)
        else
          match Gap.read? indent (c.rest.length + 1) c (if run.isEmpty then gap else {}) with
          | none => none
          | some (gap, c) =>
            if !inFlow && c.column < indent then some (text, c, gap.broken)
            else readFrom? inFlow indent n c text gap

/-- Reads a plain scalar; its further lines are indented by at least `indent`. -/
def read? (inFlow : Bool) (indent : Nat) (c : Cursor) : Option (List Char × Cursor × Bool) :=
  readFrom? inFlow indent (c.rest.length + 1) c [] {}

end Rollout.Yaml.Plain
