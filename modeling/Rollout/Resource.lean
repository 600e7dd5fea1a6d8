/-
  Resources: what is applied to a cluster, deleted from it and waited for.

  A resource has type information (if both its `apiVersion` and its `kind` are texts), metadata,
  and all other members as data. Its key, kind and apiVersion, selects the handler that owns it.
  A resource read from JSON always has an object as data; one whose data was replaced by anything
  but an object or `null` has no JSON form.
-/
import Rollout.Metadata

namespace Rollout

/-- What kind of resource this is, and in which version of which group. -/
structure TypeInfo where
  apiVersion : String
  kind : String
deriving DecidableEq, Repr

/-- A resource. -/
structure Resource where
  types : Option TypeInfo
  metadata : Metadata
  data : Json
deriving DecidableEq, Repr, Inhabited

/-- The kind and apiVersion that handlers are registered for. -/
structure ResourceKey where
  kind : String
  apiVersion : String
deriving DecidableEq, Repr

namespace Resource

/-! ## JSON form -/

/-- The type information among the members of an object, and the members that remain. The members
are visited in the order of their keys; what was read is taken away, also when it does not make up
type information, and an `apiVersion` that is no text ends the reading. -/
def takeTypes (ms : Entries Json) : Option TypeInfo × Entries Json :=
  let withoutVersion := Entries.erase "apiVersion" ms
  let withoutBoth := Entries.erase "kind" withoutVersion
  match Entries.find? "apiVersion" ms, Entries.find? "kind" ms with
  | some (.str v), some (.str k) => (some ⟨v, k⟩, withoutBoth)
  | some (.str _), _ => (none, withoutBoth)
  | some _, _ => (none, withoutVersion)
  | none, _ => (none, withoutBoth)

/-- The metadata among the members of an object, empty when there is none. -/
def takeMetadata? (ms : Entries Json) : Option Metadata :=
  match Entries.find? "metadata" ms with
  | some m => Metadata.ofJson? m
  | none => some {}

/-- Reads a resource; `none` for anything but an object with readable metadata. -/
def ofJson? (j : Json) : Option Resource := do
  let ms ← j.obj?
  let metadata ← takeMetadata? (takeTypes ms).2
  return ⟨(takeTypes ms).1, metadata, .obj (Entries.erase "metadata" (takeTypes ms).2)⟩

/-- The JSON form: type information, metadata and the members of the data in one object, the data
winning a key that repeats. -/
def toJson? (r : Resource) : Option Json := do
  let rest ← match r.data with
    | .obj ms => some ms
    | .null => some []
    | _ => none
  let types := match r.types with
    | some t => [("apiVersion", .str t.apiVersion), ("kind", .str t.kind)]
    | none => []
  return .object (types ++ ("metadata", r.metadata.toJson) :: rest)

/-! ## Identity -/

/-- The name, or the stem that a name is to be generated from. -/
def name (r : Resource) : String := (r.metadata.name <|> r.metadata.generateName).getD ""

/-- The namespace as set, an empty one included. -/
def ns (r : Resource) : Option String := r.metadata.ns

def version (r : Resource) : Option String := r.metadata.resourceVersion

def kind (r : Resource) : String := (r.types.map (·.kind)).getD "Unknown"

def withNamespace (r : Resource) (ns : String) : Resource :=
  { r with metadata := { r.metadata with ns := some ns } }

def withVersion (r : Resource) (v : Option String) : Resource :=
  { r with metadata := { r.metadata with resourceVersion := v } }

@[simp] theorem ns_withVersion (r : Resource) (v : Option String) : (r.withVersion v).ns = r.ns :=
  rfl

@[simp] theorem version_withVersion (r : Resource) (v : Option String) :
    (r.withVersion v).version = v := rfl

@[simp] theorem withVersion_withVersion (r : Resource) (v w : Option String) :
    (r.withVersion v).withVersion w = r.withVersion w := rfl

theorem withVersion_self (r : Resource) : r.withVersion r.version = r := rfl

/-- The identity for messages: kind, namespace if there is one, and name. -/
def describe (r : Resource) : String :=
  match r.ns with
  | some ns => if ns.isEmpty then r.kind ++ " " ++ r.name else r.kind ++ " " ++ ns ++ "/" ++ r.name
  | none => r.kind ++ " " ++ r.name

def describeAll (rs : List Resource) : String := String.intercalate ", " (rs.map describe)

end Resource

/-- Kinds whose name ends in `List` hold other resources. -/
def isListKind (kind : String) : Bool := kind.endsWith "List"

namespace ResourceKey

def isList (k : ResourceKey) : Bool := isListKind k.kind

def text (k : ResourceKey) : String := k.kind ++ " (" ++ k.apiVersion ++ ")"

/-- The key of a resource that has a kind and an apiVersion. -/
def of? (r : Resource) : Option ResourceKey :=
  match r.types with
  | some t => if t.kind.isEmpty || t.apiVersion.isEmpty then none else some ⟨t.kind, t.apiVersion⟩
  | none => none

end ResourceKey

end Rollout
