/-
  Shapes: which JSON values a typed reader accepts.

  A record accepts an object whose known fields are absent, `null` or of their shape; unknown
  fields do not matter. A resource is a record that may name its types and have metadata.
-/
import Rollout.Metadata

namespace Rollout

/-- The shape of a JSON value. -/
inductive Shape where
  | any
  | text
  | flag
  | int32
  | int64
  | time
  | intOrText
  | metadata
  | list (item : Shape)
  | map (value : Shape)
  | record (fields : List (String × Shape))
  /-- An object of a kind, with these fields beside its types and metadata. -/
  | resource (apiVersion kind : String) (fields : List (String × Shape))

namespace Shape

/-- The members name no other type than this one. -/
def typedAs (apiVersion kind : String) (ms : Entries Json) : Bool :=
  (Entries.find? "apiVersion" ms).all (· == .str apiVersion)
    && (Entries.find? "kind" ms).all (· == .str kind)

mutual

/-- The value has the shape. -/
def accepts : Shape → Json → Bool
  | .any, _ => true
  | .text, j => j.str?.isSome
  | .flag, j => j.bool?.isSome
  | .int32, j => j.int32?.isSome
  | .int64, j => j.int64?.isSome
  | .time, j => (Json.timestamp? j).isSome
  | .intOrText, j => j.str?.isSome || j.int32?.isSome
  | .metadata, j => (Metadata.ofJson? j).isSome
  | .list item, .arr items => items.all fun j => accepts item j
  | .map value, .obj ms => ms.all fun m => accepts value m.2
  | .record fields, .obj ms => acceptsFields fields ms
  | .resource apiVersion kind fields, .obj ms =>
    typedAs apiVersion kind ms
      && (Entries.find? "metadata" ms).all (fun j => (Metadata.ofJson? j).isSome)
      && acceptsFields fields ms
  | _, _ => false

/-- Each known field is absent, `null` or of its shape. -/
def acceptsFields : List (String × Shape) → Entries Json → Bool
  | [], _ => true
  | (key, shape) :: rest, ms =>
    (match Entries.find? key ms with
      | none | some .null => true
      | some j => accepts shape j) && acceptsFields rest ms

end

/-- Fields of one shape. -/
def fields (shape : Shape) (keys : List String) : List (String × Shape) := keys.map (·, shape)

end Shape

end Rollout
