/-
  Writing JSON text: compact, members in the order of their keys, doubles with the fewest digits
  that read back and always with a point or an exponent.
-/
import Rollout.Json.Basic

namespace Rollout.Json

/-- A character inside a JSON string. -/
def escapeChar (c : Char) : List Char :=
  if c = '"' then ['\\', '"']
  else if c = '\\' then ['\\', '\\']
  else if c = '\n' then ['\\', 'n']
  else if c = '\r' then ['\\', 'r']
  else if c = '\t' then ['\\', 't']
  else if c = '\x08' then ['\\', 'b']
  else if c = '\x0c' then ['\\', 'f']
  else if c.toNat < 0x20 then
    let ds := Nat.toDigits 16 c.toNat
    '\\' :: 'u' :: List.replicate (4 - ds.length) '0' ++ ds
  else [c]

def quote (s : String) : String :=
  "\"" ++ String.ofList (s.toList.flatMap escapeChar) ++ "\""

def Number.text : Number → String
  | .whole n => toString n
  | .real x =>
    match x with
    | .finite .. => Binary64.dataLayout.text x
    | _ => "null"

mutual

/-- The text of a value. -/
def print : Json → String
  | .null => "null"
  | .bool b => if b then "true" else "false"
  | .num n => Number.text n
  | .str s => quote s
  | .arr items => "[" ++ String.intercalate "," (printItems items) ++ "]"
  | .obj members => "\x7b" ++ String.intercalate "," (printMembers members) ++ "\x7d"

def printItems : List Json → List String
  | [] => []
  | j :: js => print j :: printItems js

def printMembers : List (String × Json) → List String
  | [] => []
  | (k, j) :: ms => (quote k ++ ":" ++ print j) :: printMembers ms

end

end Rollout.Json
