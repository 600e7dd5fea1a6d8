/-
  Object metadata: the identity and bookkeeping fields that every resource carries.

  Reading keeps the known fields that are set, drops unknown fields and `null`, and refuses a
  field of the wrong type. Writing gives back exactly the fields that are set.
-/
import Rollout.Json.Basic
import Rollout.Timestamp

namespace Rollout

/-! ## Reading typed members -/

namespace Json

variable {α : Type}

/-- An optional member: absent or `null` is none, anything else must be readable. -/
def optional (key : String) (read : Json → Option α) (members : Entries Json) :
    Option (Option α) :=
  match Entries.find? key members with
  | none | some .null => some none
  | some j => (read j).map some

/-- A member of text that counts as empty when it is absent or `null`. -/
def textOrEmpty (key : String) (members : Entries Json) : Option String :=
  (optional key str? members).map (·.getD "")

def listOf (read : Json → Option α) (j : Json) : Option (List α) :=
  j.arr?.bind (·.mapM read)

/-- An object whose members all have one type. -/
def entriesOf (read : Json → Option α) (j : Json) : Option (Entries α) :=
  j.obj?.bind (·.mapM fun (k, v) => (read v).map (k, ·))

def timestamp? (j : Json) : Option Timestamp := j.str?.bind Timestamp.parse?

/-- What is read from many values is read from one of them each. -/
theorem exists_of_mem_mapM {β : Type} {read : β → Option α} {xs : List β} {as : List α}
    (h : xs.mapM read = some as) {a : α} (ha : a ∈ as) : ∃ x ∈ xs, read x = some a := by
  induction xs generalizing as with
  | nil => simp at h; subst h; simp at ha
  | cons x xs ih =>
    simp only [List.mapM_cons, Option.bind_eq_bind, Option.bind_eq_some_iff, Option.pure_def,
      Option.some.injEq] at h
    obtain ⟨b, hb, bs, hbs, rfl⟩ := h
    rcases List.mem_cons.1 ha with rfl | ha
    · exact ⟨x, by simp, hb⟩
    · obtain ⟨x', hx', ha'⟩ := ih hbs ha
      exact ⟨x', by simp [hx'], ha'⟩

end Json

/-! ## Parts of the metadata -/

/-- The resource that owns another one. -/
structure OwnerReference where
  apiVersion : String
  blockOwnerDeletion : Option Bool
  controller : Option Bool
  kind : String
  name : String
  uid : String
deriving DecidableEq, Repr

/-- Which manager set which fields of a resource. -/
structure ManagedFields where
  apiVersion : Option String
  fieldsType : Option String
  fieldsV1 : Option Json
  manager : Option String
  operation : Option String
  subresource : Option String
  time : Option Timestamp
deriving DecidableEq, Repr

namespace OwnerReference

def ofJson? (j : Json) : Option OwnerReference := do
  let ms ← j.obj?
  return {
    apiVersion := ← Json.textOrEmpty "apiVersion" ms
    blockOwnerDeletion := ← Json.optional "blockOwnerDeletion" Json.bool? ms
    controller := ← Json.optional "controller" Json.bool? ms
    kind := ← Json.textOrEmpty "kind" ms
    name := ← Json.textOrEmpty "name" ms
    uid := ← Json.textOrEmpty "uid" ms }

def toJson (o : OwnerReference) : Json :=
  .obj <|
    [("apiVersion", .str o.apiVersion)]
      ++ Json.member? "blockOwnerDeletion" (o.blockOwnerDeletion.map .bool)
      ++ Json.member? "controller" (o.controller.map .bool)
      ++ [("kind", .str o.kind), ("name", .str o.name), ("uid", .str o.uid)]

end OwnerReference

namespace ManagedFields

def ofJson? (j : Json) : Option ManagedFields := do
  let ms ← j.obj?
  return {
    apiVersion := ← Json.optional "apiVersion" Json.str? ms
    fieldsType := ← Json.optional "fieldsType" Json.str? ms
    fieldsV1 := ← Json.optional "fieldsV1" some ms
    manager := ← Json.optional "manager" Json.str? ms
    operation := ← Json.optional "operation" Json.str? ms
    subresource := ← Json.optional "subresource" Json.str? ms
    time := ← Json.optional "time" Json.timestamp? ms }

def toJson (f : ManagedFields) : Json :=
  .obj <|
    Json.member? "apiVersion" (f.apiVersion.map .str)
      ++ Json.member? "fieldsType" (f.fieldsType.map .str)
      ++ Json.member? "fieldsV1" f.fieldsV1
      ++ Json.member? "manager" (f.manager.map .str)
      ++ Json.member? "operation" (f.operation.map .str)
      ++ Json.member? "subresource" (f.subresource.map .str)
      ++ Json.member? "time" (f.time.map fun t => .str t.text)

end ManagedFields

/-! ## Metadata -/

/-- The metadata of a resource; a field that is none is not set. -/
structure Metadata where
  annotations : Option (Entries String) := none
  creationTimestamp : Option Timestamp := none
  deletionGracePeriodSeconds : Option Int := none
  deletionTimestamp : Option Timestamp := none
  finalizers : Option (List String) := none
  generateName : Option String := none
  generation : Option Int := none
  labels : Option (Entries String) := none
  managedFields : Option (List ManagedFields) := none
  name : Option String := none
  ns : Option String := none
  ownerReferences : Option (List OwnerReference) := none
  resourceVersion : Option String := none
  selfLink : Option String := none
  uid : Option String := none
deriving DecidableEq, Repr, Inhabited

namespace Metadata

/-- Reads metadata from an object; `none` when a known field has the wrong type. -/
def ofJson? (j : Json) : Option Metadata := do
  let ms ← j.obj?
  return {
    annotations := ← Json.optional "annotations" (Json.entriesOf Json.str?) ms
    creationTimestamp := ← Json.optional "creationTimestamp" Json.timestamp? ms
    deletionGracePeriodSeconds := ← Json.optional "deletionGracePeriodSeconds" Json.int64? ms
    deletionTimestamp := ← Json.optional "deletionTimestamp" Json.timestamp? ms
    finalizers := ← Json.optional "finalizers" (Json.listOf Json.str?) ms
    generateName := ← Json.optional "generateName" Json.str? ms
    generation := ← Json.optional "generation" Json.int64? ms
    labels := ← Json.optional "labels" (Json.entriesOf Json.str?) ms
    managedFields := ← Json.optional "managedFields" (Json.listOf ManagedFields.ofJson?) ms
    name := ← Json.optional "name" Json.str? ms
    ns := ← Json.optional "namespace" Json.str? ms
    ownerReferences := ← Json.optional "ownerReferences" (Json.listOf OwnerReference.ofJson?) ms
    resourceVersion := ← Json.optional "resourceVersion" Json.str? ms
    selfLink := ← Json.optional "selfLink" Json.str? ms
    uid := ← Json.optional "uid" Json.str? ms }

def texts (es : Entries String) : Json := .obj (es.map fun (k, v) => (k, .str v))

/-- The object that holds the fields that are set. -/
def toJson (m : Metadata) : Json :=
  .obj <|
    Json.member? "annotations" (m.annotations.map texts)
      ++ Json.member? "creationTimestamp" (m.creationTimestamp.map fun t => .str t.text)
      ++ Json.member? "deletionGracePeriodSeconds"
        (m.deletionGracePeriodSeconds.map fun n => .num (.whole n))
      ++ Json.member? "deletionTimestamp" (m.deletionTimestamp.map fun t => .str t.text)
      ++ Json.member? "finalizers" (m.finalizers.map fun fs => .arr (fs.map .str))
      ++ Json.member? "generateName" (m.generateName.map .str)
      ++ Json.member? "generation" (m.generation.map fun n => .num (.whole n))
      ++ Json.member? "labels" (m.labels.map texts)
      ++ Json.member? "managedFields"
        (m.managedFields.map fun fs => .arr (fs.map ManagedFields.toJson))
      ++ Json.member? "name" (m.name.map .str)
      ++ Json.member? "namespace" (m.ns.map .str)
      ++ Json.member? "ownerReferences"
        (m.ownerReferences.map fun os => .arr (os.map OwnerReference.toJson))
      ++ Json.member? "resourceVersion" (m.resourceVersion.map .str)
      ++ Json.member? "selfLink" (m.selfLink.map .str)
      ++ Json.member? "uid" (m.uid.map .str)

end Metadata

end Rollout
