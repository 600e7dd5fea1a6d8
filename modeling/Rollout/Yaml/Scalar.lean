/-
  Scalars: what the text of a scalar stands for.

  A plain scalar without a tag is null, a boolean, a whole number or a double if it is spelled like
  one, and a text otherwise. Digits behind a leading zero are no number. Whole numbers have 64 bits;
  one that fits only 128 bits has no value at all.
-/
import Rollout.Binary64

namespace Rollout.Yaml

/-- The value of a scalar. -/
inductive Scalar where
  | null
  | bool (b : Bool)
  | whole (n : Int)
  | real (x : Binary64)
  | text (s : String)
deriving DecidableEq, Repr

namespace Scalar

/-! ## Spellings -/

def isNull (s : String) : Bool := s = "null" || s = "Null" || s = "NULL" || s = "~"

def bool? (s : String) : Option Bool :=
  if s = "true" || s = "True" || s = "TRUE" then some true
  else if s = "false" || s = "False" || s = "FALSE" then some false
  else none

def digit? (radix : Nat) (c : Char) : Option Nat :=
  let value :=
    if c.isDigit then some (c.toNat - 48)
    else if 'a' ≤ c ∧ c ≤ 'f' then some (c.toNat - 87)
    else if 'A' ≤ c ∧ c ≤ 'F' then some (c.toNat - 55)
    else none
  value.filter (· < radix)

/-- The number that one or more digits denote. -/
def digits? (radix : Nat) (cs : List Char) : Option Nat :=
  if cs.isEmpty then none
  else cs.foldlM (fun n c => (digit? radix c).map (n * radix + ·)) 0

/-- The digits behind the mark of a radix, if there is one. -/
def radix? : List Char → Option (Nat × List Char)
  | '0' :: 'x' :: cs => some (16, cs)
  | '0' :: 'o' :: cs => some (8, cs)
  | '0' :: 'b' :: cs => some (2, cs)
  | _ => none

/-- A leading zero before more digits, and nothing else. -/
def hasLeadingZero : List Char → Bool
  | '0' :: c :: cs => (c :: cs).all Char.isDigit
  | _ => false

/-- The magnitude of a whole number without sign. -/
def magnitude? (cs : List Char) : Option Nat :=
  match radix? cs with
  | some (radix, ds) => digits? radix ds
  | none => if hasLeadingZero cs then none else digits? 10 cs

/-- A whole number of at most 128 bits. -/
def whole? : List Char → Option Int
  | '-' :: cs => (magnitude? cs).bind fun n => if n ≤ twoTo 127 then some (-(n : Int)) else none
  | cs =>
    let cs := match cs with
      | '+' :: cs => cs
      | cs => cs
    (magnitude? cs).bind fun n => if n < twoTo 128 then some (n : Int) else none

/-- The decimal exponent of a double. -/
def exponent? : List Char → Option Int
  | '-' :: cs => (digits? 10 cs).map fun n => -(n : Int)
  | '+' :: cs => (digits? 10 cs).map fun n => (n : Int)
  | cs => (digits? 10 cs).map fun n => (n : Int)

/-- A finite double in decimal, without sign. -/
def decimal? (negative : Bool) (cs : List Char) : Option Binary64 := do
  let whole := cs.takeWhile Char.isDigit
  let rest := cs.dropWhile Char.isDigit
  let (fraction, rest) := match rest with
    | '.' :: rest => (rest.takeWhile Char.isDigit, rest.dropWhile Char.isDigit)
    | rest => ([], rest)
  let digits ← digits? 10 (whole ++ fraction)
  let exponent ← match rest with
    | [] => some 0
    | 'e' :: rest | 'E' :: rest => exponent? rest
    | _ => none
  match Binary64.ofDecimal negative digits (exponent - fraction.length) with
  | .finite negative units => some (.finite negative units)
  | _ => none

def isInfinity (cs : List Char) : Bool :=
  [".inf", ".Inf", ".INF"].any fun s => s.toList = cs

def isNaN (cs : List Char) : Bool := [".nan", ".NaN", ".NAN"].any fun s => s.toList = cs

/-- A double. -/
def real? (cs : List Char) : Option Binary64 :=
  match cs with
  | '-' :: rest => if isInfinity rest then some (.infinity true) else decimal? true rest
  | '+' :: rest => if isInfinity rest then some (.infinity false) else decimal? false rest
  | _ =>
    if isInfinity cs then some (.infinity false)
    else if isNaN cs then some .nan
    else decimal? false cs

/-! ## Values -/

/-- The whole number, if it has 64 bits. -/
def ofWhole? (n : Int) : Option Scalar :=
  if -(twoTo 63 : Int) ≤ n ∧ n < twoTo 64 then some (.whole n) else none

/-- The value of a plain scalar without a tag. -/
def ofPlain? (s : String) : Option Scalar :=
  let unsigned := match s.toList with
    | '-' :: cs | '+' :: cs => cs
    | cs => cs
  if s.isEmpty || isNull s then some .null
  else match bool? s with
    | some b => some (.bool b)
    | none =>
      match whole? s.toList with
      | some n => ofWhole? n
      | none =>
        if hasLeadingZero unsigned then some (.text s)
        else match real? s.toList with
          | some x => some (.real x)
          | none => some (.text s)

/-- The name of a tag of the core schema. -/
def coreTag (name : String) : String := "tag:yaml.org,2002:" ++ name

/-- The value of a scalar: a core tag has to fit its text, and any other tag makes a text. -/
def of? (tag : Option String) (text : String) (plain : Bool) : Option Scalar :=
  match tag with
  | none => if plain then ofPlain? text else some (.text text)
  | some tag =>
    if tag = coreTag "bool" then (bool? text).map .bool
    else if tag = coreTag "int" then (whole? text.toList).bind ofWhole?
    else if tag = coreTag "float" then (real? text.toList).map .real
    else if tag = coreTag "null" then if isNull text then some .null else none
    else some (.text text)

end Scalar

end Rollout.Yaml
