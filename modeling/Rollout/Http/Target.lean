/-
  Request targets: a path with parameters, as text and read back.

  Parameters are form encoded: a blank is written as a plus sign, and every byte that is not a
  letter, a digit or one of `*-._` as two hexadecimal digits. A path is written as it is, so a `?`
  or a `#` inside it ends it early; other characters that no target may hold are refused.
-/
import Rollout.Http

namespace Rollout.Http.Target

/-! ## Form encoding -/

def isPlain (b : UInt8) : Bool :=
  let c := Char.ofNat b.toNat
  c.isAlphanum || c = '*' || c = '-' || c = '.' || c = '_'

def hexDigit (n : Nat) : Char := if n < 10 then Char.ofNat (48 + n) else Char.ofNat (55 + n)

def encodeByte (b : UInt8) : List Char :=
  if isPlain b then [Char.ofNat b.toNat]
  else if b = 32 then ['+']
  else ['%', hexDigit (b.toNat / 16), hexDigit (b.toNat % 16)]

def encode (s : String) : List Char := s.toUTF8.toList.flatMap encodeByte

def encodeQuery (params : List (String × String)) : List Char :=
  ((params.map fun (k, v) => encode k ++ '=' :: encode v).intersperse ['&']).flatten

def hexValue? (c : Char) : Option Nat :=
  if c.isDigit then some (c.toNat - 48)
  else if 'a' ≤ c ∧ c ≤ 'f' then some (c.toNat - 87)
  else if 'A' ≤ c ∧ c ≤ 'F' then some (c.toNat - 55)
  else none

/-- The bytes that encoded text stands for; a percent sign without two digits is kept. -/
def decodeBytes : List Char → List UInt8
  | [] => []
  | '%' :: a :: b :: rest =>
    match hexValue? a, hexValue? b with
    | some x, some y => UInt8.ofNat (x * 16 + y) :: decodeBytes rest
    | _, _ => 37 :: decodeBytes (a :: b :: rest)
  | '+' :: rest => 32 :: decodeBytes rest
  | c :: rest => (String.singleton c).toUTF8.toList ++ decodeBytes rest

/-- The text that encoded text stands for. -/
def decode (s : List Char) : String :=
  (String.fromUTF8? ⟨(decodeBytes s).toArray⟩).getD "\uFFFD"

/-- The pieces between separators. -/
def splitOn (separator : Char) (s : List Char) : List (List Char) :=
  s.foldr (fun c pieces =>
    if c = separator then [] :: pieces
    else match pieces with
      | piece :: rest => (c :: piece) :: rest
      | [] => [[c]]) [[]]

def decodeQuery (s : List Char) : List (String × String) :=
  ((splitOn '&' s).filter fun piece => !piece.isEmpty).map fun piece =>
    (decode (piece.takeWhile (· != '=')), decode ((piece.dropWhile (· != '=')).drop 1))

/-! ## Targets -/

def isPathChar (c : Char) : Bool :=
  let n := c.toNat
  n = 0x21 || n = 0x22 || (0x24 ≤ n && n ≤ 0x3B) || n = 0x3D || (0x40 ≤ n && n ≤ 0x5F)
    || (0x61 ≤ n && n ≤ 0x7E) || 0x7F ≤ n

def isQueryChar (c : Char) : Bool :=
  let n := c.toNat
  n = 0x21 || (0x24 ≤ n && n ≤ 0x3B) || n = 0x3D || 0x3F ≤ n

/-- Reads a target: path and parameters, what follows a `#` dropped. -/
def read? (target : List Char) : Option (String × List (String × String)) :=
  let shown := target.takeWhile (· != '#')
  let path := shown.takeWhile (· != '?')
  let query := (shown.dropWhile (· != '?')).drop 1
  if path.all isPathChar && query.all isQueryChar then some (String.ofList path, decodeQuery query)
  else none

/-- A request for `path` with `params`; none when they make no target. -/
def request? (method : Method) (path : String) (params : List (String × String))
    (body : Option Json) : Option Request :=
  (read? (path.toList ++ '?' :: encodeQuery params)).map fun (path, query) =>
    { method, path, query, body }

end Rollout.Http.Target
