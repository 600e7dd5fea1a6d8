/-
  Discovery: which kinds an API server serves.

  The server lists its groups, the versions of every group and the kinds of every version. Of each
  group the preferred version counts; without a preference it is the best one by priority: stable
  versions before beta before alpha, and higher ones first. Names that hold a slash are parts of
  other resources and are passed over.
-/
import Rollout.Registry
import Rollout.Shape

namespace Rollout.Discovery

/-! ## Version priority -/

/-- The priority of a version: its stability, its number and the number of the stage. -/
structure Priority where
  stability : Nat
  major : Nat
  minor : Option Nat
  /-- The name of a version without a number; of two such names the smaller one comes first. -/
  name : String

def readDigits? (cs : List Char) : Option Nat :=
  if cs.isEmpty || !cs.all Char.isDigit then none
  else (String.ofList cs).toNat?.filter (· < twoTo 32)

/-- The number of a stage, with an optional plus sign. -/
def readStage? : List Char → Option (Option Nat)
  | [] => some none
  | '+' :: cs => (readDigits? cs).map some
  | cs => (readDigits? cs).map some

def after? (word : String) (cs : List Char) : Option (List Char) :=
  if word.toList.isPrefixOf cs then some (cs.drop word.length) else none

def numbered? (version : String) : Option Priority := do
  let cs ← after? "v" version.toList
  let major ← readDigits? (cs.takeWhile Char.isDigit)
  let rest := cs.dropWhile Char.isDigit
  if rest.isEmpty then return ⟨3, major, none, ""⟩
  match after? "alpha" rest, after? "beta" rest with
  | some stage, _ => return ⟨1, major, ← readStage? stage, ""⟩
  | none, some stage => return ⟨2, major, ← readStage? stage, ""⟩
  | none, none => none

def Priority.of (version : String) : Priority := (numbered? version).getD ⟨0, 0, none, version⟩

/-- `p` is at least as good as `q`. -/
def Priority.atLeast (p q : Priority) : Bool :=
  let rank (p : Priority) : List Nat := [p.stability, p.major, (p.minor.map (· + 1)).getD 0]
  if rank p = rank q then decide (p.name ≤ q.name) else decide (rank q < rank p)

/-! ## Listings -/

/-- A version of a group. -/
structure GroupVersion where
  groupVersion : String
  version : String

/-- A group as the server lists it. -/
structure Group where
  name : String
  preferred : Option String
  versions : List GroupVersion

/-- A kind as the server lists it in a version of a group. -/
structure Listed where
  name : String
  kind : String
  group : Option String
  namespaced : Bool

/-- The kinds of a version of a group. -/
structure Listing where
  groupVersion : String
  kinds : List Listed

private def addresses : Shape :=
  .list (.record (Shape.fields .text ["clientCIDR", "serverAddress"]))

private def groupVersionShape : Shape := .record (Shape.fields .text ["groupVersion", "version"])

private def text (j : Json) (key : String) : String := ((j.field? key).bind Json.str?).getD ""

private def items (ms : Entries Json) (key : String) : List Json :=
  ((Entries.find? key ms).bind Json.arr?).getD []

private def groupVersion (j : Json) : GroupVersion := ⟨text j "groupVersion", text j "version"⟩

def group? (j : Json) : Option Group := do
  let ms ← j.obj?
  let shape := ("preferredVersion", groupVersionShape) :: ("versions", .list groupVersionShape)
    :: ("serverAddressByClientCIDRs", addresses) :: Shape.fields .text ["name"]
  if Shape.typedAs "v1" "APIGroup" ms && Shape.acceptsFields shape ms then
    return {
      name := text j "name"
      preferred :=
        ((Entries.find? "preferredVersion" ms).filter (· != .null)).map (text · "version")
      versions := (items ms "versions").map groupVersion }
  else none

def groups? (j : Json) : Option (List Group) := do
  let ms ← j.obj?
  if Shape.typedAs "v1" "APIGroupList" ms && Shape.acceptsFields [("groups", .list .any)] ms then
    (items ms "groups").mapM group?
  else none

private def listedShape : List (String × Shape) :=
  Shape.fields .text ["group", "kind", "name", "singularName", "storageVersionHash", "version"]
    ++ Shape.fields (.list .text) ["categories", "shortNames", "verbs"] ++ [("namespaced", .flag)]

private def listed (j : Json) : Listed where
  name := text j "name"
  kind := text j "kind"
  group := (j.field? "group").bind Json.str?
  namespaced := ((j.field? "namespaced").bind Json.bool?).getD false

def listing? (j : Json) : Option Listing := do
  let ms ← j.obj?
  let shape := ("resources", .list (.record listedShape)) :: Shape.fields .text ["groupVersion"]
  if Shape.typedAs "v1" "APIResourceList" ms && Shape.acceptsFields shape ms then
    return ⟨text j "groupVersion", (items ms "resources").map listed⟩
  else none

def coreVersions? (j : Json) : Option (List String) := do
  let ms ← j.obj?
  let shape := [("serverAddressByClientCIDRs", addresses), ("versions", .list .text)]
  if Shape.typedAs "v1" "APIVersions" ms && Shape.acceptsFields shape ms then
    (items ms "versions").mapM Json.str?
  else none

/-! ## Discovering -/

/-- The group that an apiVersion names. -/
def groupOf (apiVersion : String) : String :=
  match apiVersion.splitOn "/" with
  | [] | [_] => ""
  | group :: _ => group

/-- The kinds that a listing offers, with their keys. -/
def Listing.served (l : Listing) (defaultNamespace : String) : List (ResourceKey × ServedKind) :=
  (l.kinds.filter fun k => !k.name.contains '/').map fun k =>
    (⟨k.kind, l.groupVersion⟩, {
      group := k.group.getD (groupOf l.groupVersion)
      apiVersion := l.groupVersion
      plural := k.name
      namespaced := (l.kinds.find? fun other => other.name = k.name).any (·.namespaced)
      defaultNamespace })

/-- The listing that counts among those of the versions of a group. -/
def recommended (preferred : Option String) (listings : List (String × Listing)) : Option Listing :=
  let ranked := listings.mergeSort fun a b => (Priority.of a.1).atLeast (Priority.of b.1)
  match preferred with
  | some version => ranked.lookup version
  | none => ranked.head?.map (·.2)

/-- Fetches what lies under a path. -/
def fetch {α : Type} (path : String) (read : Json → Option α) : Action α := do
  match Http.Target.read? path.toList with
  | none => throw (.api .transport)
  | some (path, query) => do
    let response ← ServedKind.send (some { method := .get, path, query, body := none })
    match response.decoded read with
    | .ok a => return a
    | .error fault => throw (.api fault)

/-- Fetches the listings of the versions of a group; there has to be one. -/
def fetchListings (root : String) (versions : List GroupVersion) :
    Action (List (String × Listing)) := do
  if versions.isEmpty then throw (.api .discovery)
  versions.mapM fun v => return (v.version, ← fetch (root ++ v.groupVersion) listing?)

/-- The kinds of the core group, which lies apart from the others. -/
def fetchCore : Action (Option Listing) := do
  let versions ← fetch "/api" coreVersions?
  let listings ← fetchListings "/api/" (versions.map fun v => ⟨v, v⟩)
  return recommended (some "v1") listings

/-- Registers every kind that the server behind a connection serves. Of a group that is listed
twice the last listing counts. -/
def registry (defaultNamespace : String) : Action Registry := do
  let groups ← fetch "/apis" groups?
  let named ← groups.mapM fun g =>
    return (g.name, recommended g.preferred (← fetchListings "/apis/" g.versions))
  let core ← fetchCore
  let listings := (Entries.ofList (named ++ [("", core)])).filterMap (·.2)
  let served := listings.flatMap (Listing.served · defaultNamespace)
  return served.foldl (fun reg (key, k) => reg.insert key (.served none k)) {}

end Rollout.Discovery
