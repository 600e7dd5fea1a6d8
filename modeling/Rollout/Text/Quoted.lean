/-
  Quoted text: the form in which messages show a text, with quotes and escapes.

  A quote and a backslash are escaped, as are the control characters that have a short name;
  every other character that does not print is written by its number.
-/
import Rollout.Text.Printable

namespace Rollout.Text

def escape (c : Char) : List Char :=
  if c = '"' then ['\\', '"']
  else if c = '\\' then ['\\', '\\']
  else if c = '\n' then ['\\', 'n']
  else if c = '\r' then ['\\', 'r']
  else if c = '\t' then ['\\', 't']
  else if c = '\x00' then ['\\', '0']
  else if isPrintable c then [c]
  else "\\u".toList ++ '{' :: Nat.toDigits 16 c.toNat ++ ['}']

/-- The text in quotes. -/
def quoted (s : String) : String := "\"" ++ String.ofList (s.toList.flatMap escape) ++ "\""

/-- An optional text in quotes. -/
def quotedOption : Option String → String
  | some s => "Some(" ++ quoted s ++ ")"
  | none => "None"

end Rollout.Text
