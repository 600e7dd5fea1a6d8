/-
  Values: what a YAML document holds once its aliases are resolved.

  Collections may be nested 128 deep and aliases may be followed a hundred times as often as the
  document has parts, so a document that refers to itself or that grows without measure has no
  value. The keys of a mapping are all different.
-/
import Rollout.Json.Basic
import Rollout.Yaml.Node
import Rollout.Yaml.Scalar

namespace Rollout.Yaml

/-- A value. -/
inductive Value where
  | scalar (s : Scalar)
  | sequence (items : List Value)
  | mapping (members : List (Value × Value))
  /-- A value with a tag of its own. -/
  | tagged (tag : String) (v : Value)
deriving Inhabited

namespace Value

/-! ## Equality of keys -/

/-- Scalars are equal as keys; for doubles the zeros are, and what is no number is. -/
def sameScalar : Scalar → Scalar → Bool
  | .real x, .real y => x.same y || (x.isNaN && y.isNaN)
  | a, b => a == b

mutual

/-- Values are equal as keys; the members of a mapping in any order. -/
def same : Value → Value → Bool
  | .scalar a, .scalar b => sameScalar a b
  | .sequence a, .sequence b => sameItems a b
  | .mapping a, .mapping b => a.length == b.length && allIn a b
  | .tagged s a, .tagged t b => s == t && same a b
  | _, _ => false

def sameItems : List Value → List Value → Bool
  | [], [] => true
  | a :: as, b :: bs => same a b && sameItems as bs
  | _, _ => false

def allIn : List (Value × Value) → List (Value × Value) → Bool
  | [], _ => true
  | (k, v) :: rest, b => b.any (fun m => same k m.1 && same v m.2) && allIn rest b

end

/-- No two keys are equal. -/
def keysDiffer : List (Value × Value) → Bool
  | [] => true
  | (k, _) :: rest => rest.all (fun m => !same k m.1) && keysDiffer rest

/-! ## Resolving a document -/

/-- How deep collections may be nested. -/
def maxDepth : Nat := 128

/-- Follows aliases at most `get` more times; or fails. -/
abbrev Resolver := StateT Nat Option

/-- The name of a tag of its own, without the mark; the mark alone is one. -/
def ownTag? (tag : Option String) : Option String :=
  tag.bind fun tag =>
    match tag.toList with
    | ['!'] => some "!"
    | '!' :: name => some (String.ofList name)
    | _ => none

private def withTag (tag : Option String) (v : Value) : Value :=
  match ownTag? tag with
  | some name => .tagged name v
  | none => v

/-- A scalar with its tag. -/
def ofScalar? (tag : Option String) (text : String) (plain : Bool) : Option Value :=
  match ownTag? tag with
  | some name => (Scalar.of? none text plain).map fun s => .tagged name (.scalar s)
  | none => (Scalar.of? tag text plain).map .scalar

/-- The node that stands at a place: an alias is followed. -/
def follow (d : Document) : Node → Resolver Node
  | .alias number => do
    match ← get, d.anchored? number with
    | left + 1, some node => set left; return node
    | _, _ => failure
  | node => return node

/-- Resolves a node below which collections may be nested `depth` deep. -/
def resolve (d : Document) : Nat → Node → Resolver Value
  | 0, node => do
    match ← follow d node with
    | .scalar tag text plain => liftM (ofScalar? tag text plain)
    | _ => failure
  | depth + 1, node => do
    match ← follow d node with
    | .scalar tag text plain => liftM (ofScalar? tag text plain)
    | .sequence tag items => return withTag tag (.sequence (← items.mapM (resolve d depth)))
    | .mapping tag entries => do
      let members ← entries.mapM fun (k, v) => do
        return (← resolve d depth k, ← resolve d depth v)
      if keysDiffer members then return withTag tag (.mapping members) else failure
    | .alias _ => failure

/-- The value of a document. -/
def ofDocument? (d : Document) : Option Value :=
  ((resolve d maxDepth d.root).run (d.parts * 100)).map (·.1)

/-- The values of the documents of a text; the last one is none if it cannot be read. -/
def ofText (text : String) : List (Option Value) :=
  (Document.ofText text).map fun d => d.bind ofDocument?

/-- Null, with or without a tag. -/
def isNull : Value → Bool
  | .scalar .null => true
  | .tagged _ v => isNull v
  | _ => false

/-! ## As JSON -/

/-- The text of a key; nulls, doubles that are no numbers, collections and tagged values have
none. -/
def keyText? : Value → Option String
  | .scalar (.text s) => some s
  | .scalar (.bool b) => some (if b then "true" else "false")
  | .scalar (.whole n) => some (toString n)
  | .scalar (.real x) =>
    match x with
    | .finite .. => some (Binary64.dataLayout.text x)
    | _ => none
  | _ => none

def scalarJson : Scalar → Json
  | .null => .null
  | .bool b => .bool b
  | .whole n => .num (.whole n)
  | .real x =>
    match x with
    | .finite .. => .num (.real x)
    | _ => .null
  | .text s => .str s

mutual

/-- The value as JSON; none if one of its keys has no text. A tagged value is an object with the
tag as its only key. -/
def toJson? : Value → Option Json
  | .scalar s => some (scalarJson s)
  | .sequence items => (itemsJson? items).map .arr
  | .mapping members => (membersJson? members).map Json.object
  | .tagged tag v => (toJson? v).map fun j => .obj [("!" ++ tag, j)]

def itemsJson? : List Value → Option (List Json)
  | [] => some []
  | v :: rest => do return (← toJson? v) :: (← itemsJson? rest)

def membersJson? : List (Value × Value) → Option (List (String × Json))
  | [] => some []
  | (k, v) :: rest => do return (← keyText? k, ← toJson? v) :: (← membersJson? rest)

end

end Value

end Rollout.Yaml
