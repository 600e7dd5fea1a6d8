/-
  Resources that are encoded come back as they were, but for the fractions of seconds.

  The JSON form of a resource puts its type information, its metadata and its data into one object,
  and the reader takes them apart by their keys. So a resource whose data leaves these keys alone is
  read as it was written (`Apart.reread`): its points in time are those of whole seconds then, and
  nothing else is lost (`settled`). One that also says what it is has all that is asked of a member
  (`Whole`), and a container that is given such members holds them in this form
  (`withMembers_of_whole`). A resource that was read and says what it is, is whole, and labels,
  annotations and namespaces keep it so. What is inside a container is what its members are
  flattened to (`leaves_of_members?_eq_ok`).
-/
import Rollout.Pipeline
import Rollout.Proofs.Metadata
import Rollout.Proofs.Traversal

namespace Rollout

namespace Resource

/-! ## Whole resources -/

/-- The keys that do not belong to the data of a resource. -/
def ownKeys : List String := ["apiVersion", "kind", "metadata"]

/-- The resource says what it is, its metadata has only values that can be read, and its data is an
object: with its keys in order, as objects have them, and without any of the `ownKeys`. -/
structure Whole (r : Resource) : Prop where
  types : ∃ t, r.types = some t
  metadata : r.metadata.Legible
  data : ∃ fields, r.data = .obj fields ∧ Entries.Ordered fields ∧
    ∀ key ∈ ownKeys, Entries.find? key fields = none

/-- The data is an object, with its keys in order, and without any of the `ownKeys`. -/
def Apart (r : Resource) : Prop :=
  ∃ fields, r.data = .obj fields ∧ Entries.Ordered fields ∧
    ∀ key ∈ ownKeys, Entries.find? key fields = none

theorem mem_ownKeys_iff {key : String} :
    key ∈ ownKeys ↔ key = "apiVersion" ∨ key = "kind" ∨ key = "metadata" := by
  simp [ownKeys]

/-- The resource as it is read again: its points in time are those of whole seconds, and what is not
set when it is `null` is not set. -/
def settled (r : Resource) : Resource := { r with metadata := r.metadata.settled }

theorem settled_of_valid {r : Resource} (h : r.metadata.Valid) : r.settled = r := by
  rw [settled, h.settled_eq]

theorem settled_eq_self_iff {r : Resource} (h : r.metadata.Legible) :
    r.settled = r ↔ r.metadata.InSeconds := by
  rw [← h.settled_eq_self_iff]
  constructor
  · exact congrArg metadata
  · intro heq
    rw [settled, heq]

theorem settled_settled (r : Resource) : r.settled.settled = r.settled := by
  rw [settled, settled, Metadata.settled_settled]

theorem toJson?_settled {r : Resource} (h : r.metadata.Legible) :
    r.settled.toJson? = r.toJson? := by
  unfold toJson?
  rw [settled, h.toJson_settled]

/-- The data among the members of the JSON form of a resource. -/
def dataOf (ms : Entries Json) : Entries Json :=
  Entries.erase "metadata" (Entries.erase "kind" (Entries.erase "apiVersion" ms))

theorem ordered_dataOf {ms : Entries Json} (h : Entries.Ordered ms) :
    Entries.Ordered (dataOf ms) :=
  Entries.ordered_erase (Entries.ordered_erase (Entries.ordered_erase h))

theorem find?_dataOf (key : String) (ms : Entries Json) :
    Entries.find? key (dataOf ms) = if key ∈ ownKeys then none else Entries.find? key ms := by
  unfold dataOf
  by_cases hm : key = "metadata"
  · rw [hm, Entries.find?_erase_self, if_pos (by decide)]
  rw [Entries.find?_erase_of_ne hm]
  by_cases hk : key = "kind"
  · rw [hk, Entries.find?_erase_self, if_pos (by decide)]
  rw [Entries.find?_erase_of_ne hk]
  by_cases hv : key = "apiVersion"
  · rw [hv, Entries.find?_erase_self, if_pos (by decide)]
  rw [Entries.find?_erase_of_ne hv, if_neg fun h => ?_]
  rcases mem_ownKeys_iff.1 h with h | h | h <;> contradiction

theorem takeTypes_eq_some {ms : Entries Json} {t : TypeInfo} (h : (takeTypes ms).1 = some t) :
    (takeTypes ms).2 = Entries.erase "kind" (Entries.erase "apiVersion" ms) := by
  unfold takeTypes at h ⊢
  split <;> simp_all

/-- An object from which the type information was taken is read as a resource of that type. -/
theorem ofJson?_obj {ms : Entries Json} {types : Option TypeInfo}
    (h : takeTypes ms = (types, Entries.erase "kind" (Entries.erase "apiVersion" ms))) :
    ofJson? (.obj ms) =
      (takeMetadata? ms).map fun metadata => ⟨types, metadata, .obj (dataOf ms)⟩ := by
  have metadata : takeMetadata? (Entries.erase "kind" (Entries.erase "apiVersion" ms)) =
      takeMetadata? ms := by
    rw [takeMetadata?, Entries.find?_erase_of_ne (by decide), Entries.find?_erase_of_ne (by decide)]
    rfl
  simp only [ofJson?, Json.obj?, Option.bind_eq_bind, Option.bind_some, h, metadata]
  cases takeMetadata? ms <;> rfl

/-- Metadata that was taken from an object can be read, also if there was none. -/
theorem legible_of_takeMetadata? {ms : Entries Json} {metadata : Metadata}
    (h : takeMetadata? ms = some metadata) : metadata.Legible := by
  unfold takeMetadata? at h
  split at h
  · exact Metadata.legible_of_ofJson? h
  · obtain rfl := Option.some.inj h
    exact ⟨nofun, nofun, nofun, nofun, nofun⟩

theorem types_of_ofJson? {ms : Entries Json} {r : Resource} (h : ofJson? (.obj ms) = some r) :
    (takeTypes ms).1 = r.types := by
  obtain ⟨metadata, -, hr⟩ := Option.bind_eq_some_iff.1 h
  obtain rfl := Option.some.inj hr
  rfl

/-- What is read from an object, apart from the type information. -/
theorem eq_of_ofJson?_obj {ms : Entries Json} {m : Resource} (h : ofJson? (.obj ms) = some m) :
    m.metadata.Legible ∧ m.data = .obj (Entries.erase "metadata" (takeTypes ms).2) := by
  obtain ⟨metadata, hmetadata, hm⟩ := Option.bind_eq_some_iff.1 h
  obtain rfl := Option.some.inj hm
  exact ⟨legible_of_takeMetadata? hmetadata, rfl⟩

/-- A resource that was read from an object and says what it is, is whole. -/
theorem whole_of_ofJson? {ms : Entries Json} {r : Resource} (h : ofJson? (.obj ms) = some r)
    (hordered : Entries.Ordered ms) {t : TypeInfo} (ht : r.types = some t) : r.Whole := by
  have taken := (types_of_ofJson? h).trans ht
  obtain ⟨legible, hdata⟩ := eq_of_ofJson?_obj h
  rw [takeTypes_eq_some taken] at hdata
  refine ⟨⟨t, ht⟩, legible, dataOf ms, hdata, ordered_dataOf hordered, fun key hkey => ?_⟩
  rw [find?_dataOf, if_pos hkey]

/-- The members of the JSON form of a resource with such type information, metadata and data. -/
def encoded (types : Option TypeInfo) (metadata : Json) (fields : Entries Json) : Entries Json :=
  Entries.ofList ((match types with
    | some t => [("apiVersion", .str t.apiVersion), ("kind", .str t.kind)]
    | none => []) ++ ("metadata", metadata) :: fields)

theorem find?_encoded (types : Option TypeInfo) (metadata : Json) {fields : Entries Json}
    (hordered : Entries.Ordered fields) (hown : ∀ key ∈ ownKeys, Entries.find? key fields = none)
    (key : String) : Entries.find? key (encoded types metadata fields) =
      if key = "apiVersion" then types.map fun t => .str t.apiVersion
      else if key = "kind" then types.map fun t => .str t.kind
      else if key = "metadata" then some metadata
      else Entries.find? key fields := by
  have apart {own : String} (h : own ∈ ownKeys) : ∀ e ∈ fields, own ≠ e.1 := fun e he =>
    (Entries.find?_eq_none_iff.1 (hown own h) e he).symm
  obtain ⟨hvk, hvm, hkm⟩ : "apiVersion" ≠ "kind" ∧ "apiVersion" ≠ "metadata" ∧
      "kind" ≠ "metadata" := by decide
  have version := mem_ownKeys_iff.2 (.inl rfl)
  have kind := mem_ownKeys_iff.2 (.inr (.inl rfl))
  have rest : (("metadata", metadata) :: fields).Pairwise fun p q => p.1 ≠ q.1 :=
    .cons (apart (mem_ownKeys_iff.2 (.inr (.inr rfl)))) hordered.pairwise_ne
  cases types with
  | some t =>
    rw [encoded, Entries.find?_ofList]
    · simp only [List.cons_append, List.nil_append, Entries.find?, Option.map_some, eq_comm]
    · refine .cons ?_ (.cons ?_ rest)
      · exact List.forall_mem_cons.2 ⟨hvk, List.forall_mem_cons.2 ⟨hvm, apart version⟩⟩
      · exact List.forall_mem_cons.2 ⟨hkm, apart kind⟩
  | none =>
    rw [encoded, List.nil_append, Entries.find?_ofList rest, Entries.find?]
    by_cases hv : key = "apiVersion"
    · rw [if_pos hv, hv, if_neg hvm.symm, hown _ version, Option.map_none]
    by_cases hk : key = "kind"
    · rw [if_neg hv, if_pos hk, hk, if_neg hkm.symm, hown _ kind, Option.map_none]
    rw [if_neg hv, if_neg hk]
    simp only [eq_comm]

/-- Without type information, a version is found in the JSON form only if there is one in the
data. -/
theorem find?_apiVersion_encoded {metadata : Json} {fields : Entries Json}
    (hordered : Entries.Ordered fields) (hmetadata : Entries.find? "metadata" fields = none) :
    Entries.find? "apiVersion" (encoded none metadata fields) =
      Entries.find? "apiVersion" fields := by
  have different : (("metadata", metadata) :: fields).Pairwise fun p q => p.1 ≠ q.1 :=
    .cons (fun e he => (Entries.find?_eq_none_iff.1 hmetadata e he).symm) hordered.pairwise_ne
  rw [encoded, List.nil_append, Entries.find?_ofList different, Entries.find?, if_neg (by decide)]

/-- A resource whose data keeps apart has a JSON form. -/
theorem Apart.exists_written {r : Resource} (h : r.Apart) : ∃ j, r.toJson? = some j := by
  obtain ⟨types, metadata, data⟩ := r
  obtain ⟨fields, rfl, -⟩ := h
  exact ⟨.obj (encoded types metadata.toJson fields), rfl⟩

/-- A resource whose data keeps apart is read from its JSON form as it was, but for fractions of
seconds and for what is not set when it is `null`. -/
theorem Apart.reread {r : Resource} (h : r.Apart) (hmetadata : r.metadata.InRange) {j : Json}
    (hwrite : r.toJson? = some j) : ofJson? j = some r.settled := by
  obtain ⟨types, metadata, data⟩ := r
  obtain ⟨fields, rfl, hordered, hown⟩ := h
  obtain rfl : Json.obj (encoded types metadata.toJson fields) = j := Option.some.inj hwrite
  have find := find?_encoded types metadata.toJson hordered hown
  have taken : takeTypes (encoded types metadata.toJson fields) = (types, Entries.erase "kind"
      (Entries.erase "apiVersion" (encoded types metadata.toJson fields))) := by
    unfold takeTypes
    rw [find, find]
    cases types <;> rfl
  have rest : dataOf (encoded types metadata.toJson fields) = fields := by
    refine Entries.Ordered.ext (ordered_dataOf (Entries.ordered_ofList _)) hordered fun key => ?_
    rw [find?_dataOf]
    split
    · next hkey => exact (hown key hkey).symm
    · next hkey =>
      rw [mem_ownKeys_iff, not_or, not_or] at hkey
      rw [find, if_neg hkey.1, if_neg hkey.2.1, if_neg hkey.2.2]
  have own : takeMetadata? (encoded types metadata.toJson fields) = some metadata.settled := by
    rw [takeMetadata?, find]
    exact Metadata.ofJson?_toJson_of_inRange hmetadata
  rw [ofJson?_obj taken, own, rest, Option.map_some]
  rfl

/-- The resource has a JSON form from which it is read again as it was. -/
def Rereads (r : Resource) : Prop := ∃ j, r.toJson? = some j ∧ ofJson? j = some r

theorem Apart.rereads {r : Resource} (h : r.Apart) (valid : r.metadata.Valid) : r.Rereads := by
  obtain ⟨j, hwrite⟩ := h.exists_written
  have hread := h.reread valid.legible.inRange hwrite
  rw [settled_of_valid valid] at hread
  exact ⟨j, hwrite, hread⟩

theorem Whole.apart {r : Resource} (h : r.Whole) : r.Apart := h.data

theorem Whole.reread {r : Resource} (h : r.Whole) {j : Json} (hwrite : r.toJson? = some j) :
    ofJson? j = some r.settled := h.apart.reread h.metadata.inRange hwrite

/-! ## Resources that do not say what they are -/

/-- The resource does not say what it is, and neither does its data, which is an object. -/
structure Untyped (r : Resource) : Prop where
  types : r.types = none
  data : ∃ fields, r.data = .obj fields ∧ Entries.Ordered fields ∧
    Entries.find? "apiVersion" fields = none ∧ Entries.find? "metadata" fields = none

theorem takeTypes_eq_none {ms : Entries Json} (h : Entries.find? "apiVersion" ms = none) :
    (takeTypes ms).1 = none := by
  unfold takeTypes
  rw [h]

/-- The version is always taken away, and nothing comes out of order. -/
theorem takeTypes_rest (ms : Entries Json) :
    Entries.find? "apiVersion" (takeTypes ms).2 = none ∧
      (Entries.Ordered ms → Entries.Ordered (takeTypes ms).2) := by
  have both : Entries.find? "apiVersion" (Entries.erase "kind" (Entries.erase "apiVersion" ms)) =
      none := by
    rw [Entries.find?_erase_of_ne (by decide), Entries.find?_erase_self]
  unfold takeTypes
  split
  · exact ⟨both, fun h => Entries.ordered_erase (Entries.ordered_erase h)⟩
  · exact ⟨both, fun h => Entries.ordered_erase (Entries.ordered_erase h)⟩
  · exact ⟨Entries.find?_erase_self _ _, Entries.ordered_erase⟩
  · exact ⟨both, fun h => Entries.ordered_erase (Entries.ordered_erase h)⟩

/-- A resource that was read from an object is whole, unless it does not say what it is. -/
theorem whole_or_untyped_of_ofJson? {ms : Entries Json} {r : Resource}
    (h : ofJson? (.obj ms) = some r) (hordered : Entries.Ordered ms) : r.Whole ∨ r.Untyped := by
  cases htypes : r.types with
  | some t => exact .inl (whole_of_ofJson? h hordered htypes)
  | none =>
    obtain ⟨hversion, hrest⟩ := takeTypes_rest ms
    refine .inr ⟨htypes, Entries.erase "metadata" (takeTypes ms).2, (eq_of_ofJson?_obj h).2,
      Entries.ordered_erase (hrest hordered), ?_, Entries.find?_erase_self _ _⟩
    rwa [Entries.find?_erase_of_ne (by decide)]

/-- What does not say what it is does not do so when it is read back. -/
theorem Untyped.types_of_reread {r r' : Resource} {j : Json} (h : r.Untyped)
    (hwrite : r.toJson? = some j) (hread : ofJson? j = some r') : r'.types = none := by
  obtain ⟨types, metadata, data⟩ := r
  obtain ⟨rfl, fields, rfl, hordered, hversion, hmetadata⟩ := h
  obtain rfl := Option.some.inj hwrite
  refine (types_of_ofJson? hread).symm.trans (takeTypes_eq_none ?_)
  show Entries.find? "apiVersion" (encoded none metadata.toJson fields) = none
  rw [find?_apiVersion_encoded hordered hmetadata, hversion]

/-- Of resources that are read back, those that say what they are come back settled. -/
theorem eq_of_reread {ms ms' : List Resource} {items : List Json}
    (h : ∀ m ∈ ms, m.Whole ∨ m.Untyped) (hwrite : ms.mapM toJson? = some items)
    (hread : items.mapM ofJson? = some ms') (htypes : ∀ m ∈ ms', m.types ≠ none) :
    ms' = ms.map settled := by
  induction ms generalizing items ms' with
  | nil =>
    obtain rfl := Option.some.inj hwrite
    exact (Option.some.inj hread).symm
  | cons m ms ih =>
    simp only [List.mapM_cons, Option.bind_eq_bind, Option.bind_eq_some_iff, Option.pure_def,
      Option.some.injEq] at hwrite
    obtain ⟨j, hj, rest, hrest, rfl⟩ := hwrite
    simp only [List.mapM_cons, Option.bind_eq_bind, Option.bind_eq_some_iff, Option.pure_def,
      Option.some.injEq] at hread
    obtain ⟨m', hm', ms'', hms'', rfl⟩ := hread
    obtain ⟨hm, hms⟩ := List.forall_mem_cons.1 h
    obtain ⟨hm'types, hms''types⟩ := List.forall_mem_cons.1 htypes
    rw [ih hms hrest hms'' hms''types]
    rcases hm with whole | untyped
    · rw [Option.some.inj (hm'.symm.trans (whole.reread hj)), List.map_cons]
    · exact absurd (untyped.types_of_reread hj hm') hm'types

/-! ## Members -/

/-- `l` is the container `c` with these members in place of its own. -/
structure Regrouped (c : Resource) (ms : List Resource) (l : Resource) : Prop where
  members : l.members = .ok ms
  types : l.types = c.types
  metadata : l.metadata = c.metadata
  data : ∃ fields items, c.data = .obj fields ∧ ms.mapM toJson? = some items ∧
    l.data = .obj (Entries.insert "items" (.arr items) fields)

/-- `l` is the container `c` with the JSON forms of these for its items. Its members are then what
comes back from them. -/
structure Refilled (c : Resource) (ms : List Resource) (l : Resource) : Prop where
  types : l.types = c.types
  metadata : l.metadata = c.metadata
  data : ∃ fields items, c.data = .obj fields ∧ ms.mapM toJson? = some items ∧
    l.data = .obj (Entries.insert "items" (.arr items) fields)
  settled : (∀ m ∈ ms, m.metadata.InRange) → l.members = .ok (ms.map settled)

/-- What can be written and read again comes back as it was. -/
theorem Refilled.regrouped {c l : Resource} {ms : List Resource} (h : c.Refilled ms l)
    (valid : ∀ m ∈ ms, m.metadata.Valid) : c.Regrouped ms l := by
  refine ⟨?_, h.types, h.metadata, h.data⟩
  rw [h.settled fun m hm => (valid m hm).legible.inRange,
    List.map_congr_left fun m hm => settled_of_valid (valid m hm), List.map_id']

theorem exists_items {ms : List Resource} (h : ∀ m ∈ ms, ∃ j, m.toJson? = some j) :
    ∃ items, ms.mapM toJson? = some items := Json.exists_mapM h

/-- Resources that are written are read back one by one. -/
theorem reread_items {ms : List Resource} {items : List Json} {g : Resource → Resource}
    (hwrite : ms.mapM toJson? = some items)
    (h : ∀ m ∈ ms, ∀ j, m.toJson? = some j → ofJson? j = some (g m)) :
    items.mapM ofJson? = some (ms.map g) := by
  induction ms generalizing items with
  | nil =>
    obtain rfl := Option.some.inj hwrite
    rfl
  | cons m ms ih =>
    simp only [List.mapM_cons, Option.bind_eq_bind, Option.bind_eq_some_iff, Option.pure_def,
      Option.some.injEq] at hwrite
    obtain ⟨j, hj, rest, hrest, rfl⟩ := hwrite
    obtain ⟨hm, hms⟩ := List.forall_mem_cons.1 h
    rw [List.mapM_cons, hm j hj, ih hrest hms]
    rfl

/-- Resources come back one by one. -/
theorem exists_items_of_rereads {ms : List Resource} (h : ∀ m ∈ ms, m.Rereads) :
    ∃ items, ms.mapM toJson? = some items ∧ items.mapM ofJson? = some ms := by
  obtain ⟨items, hwrite⟩ := exists_items fun m hm => (h m hm).imp fun _ hj => hj.1
  have hread : items.mapM ofJson? = some (ms.map id) := reread_items hwrite fun m hm j hj => by
    obtain ⟨j', hj', hm'⟩ := h m hm
    obtain rfl := Option.some.inj (hj.symm.trans hj')
    exact hm'
  exact ⟨items, hwrite, hread.trans (congrArg some (List.map_id ms))⟩

theorem rawMembers?_eq_some_iff {c : Resource} {items : List Json} :
    c.rawMembers? = some items ↔ ∃ t fields, c.types = some t ∧ isListKind t.kind = true ∧
      c.data = .obj fields ∧ Entries.find? "items" fields = some (.arr items) := by
  obtain ⟨types, metadata, data⟩ := c
  constructor
  · intro h
    unfold rawMembers? at h
    split at h
    · next t htypes =>
      split at h
      · next hlist =>
        obtain ⟨j, hj, hitems⟩ := Option.bind_eq_some_iff.1 h
        cases data <;> cases j <;> try contradiction
        next fields _ =>
          obtain rfl := Option.some.inj hitems
          exact ⟨t, fields, htypes, hlist, rfl, hj⟩
      · cases h
    · cases h
  · rintro ⟨t, fields, rfl, hlist, rfl, hfind⟩
    show (if isListKind t.kind = true then (Entries.find? "items" fields).bind Json.arr?
      else none) = _
    rw [if_pos hlist, hfind]
    rfl

theorem members?_eq_ok_iff {c : Resource} {ms : List Resource} : c.members? = some (.ok ms) ↔
    ∃ items, c.rawMembers? = some items ∧ items.mapM ofJson? = some ms := by
  unfold members?
  cases c.rawMembers? with
  | none => exact ⟨nofun, fun ⟨_, h, _⟩ => nomatch h⟩
  | some items =>
    rw [Option.map_some]
    constructor
    · intro h
      split at h
      · next ms' hms' =>
        exact ⟨items, rfl, hms'.trans (congrArg some (Except.ok.inj (Option.some.inj h)))⟩
      · cases h
    · rintro ⟨_, heq, hms⟩
      obtain rfl := Option.some.inj heq
      rw [hms]

theorem members_eq_ok_iff_members? {c : Resource} {ms : List Resource} :
    c.members = .ok ms ↔ c.members? = some (.ok ms) := by
  unfold members
  cases c.members? with
  | none => exact ⟨nofun, nofun⟩
  | some opened => rw [Option.getD_some, Option.some.injEq]

theorem members_eq_ok_iff {c : Resource} {ms : List Resource} : c.members = .ok ms ↔
    ∃ items, c.rawMembers? = some items ∧ items.mapM ofJson? = some ms :=
  members_eq_ok_iff_members?.trans members?_eq_ok_iff

theorem members?_of_plain {r : Resource} (h : r.rawMembers? = none) : r.members? = none := by
  rw [members?, h, Option.map_none]

theorem members?_of_unreadable {r : Resource} {items : List Json}
    (hraw : r.rawMembers? = some items) (hms : items.mapM ofJson? = none) :
    r.members? = some (.error .serialization) := by
  rw [members?, hraw, Option.map_some, hms]

/-- A member of a container whose members are encoded in order is whole, unless it does not say what
it is. -/
theorem whole_or_untyped_of_members {c : Resource} {ms : List Resource} (hc : c.members = .ok ms)
    (ordered : ∀ items fields, c.rawMembers? = some items → Json.obj fields ∈ items →
      Entries.Ordered fields) : ∀ m ∈ ms, m.Whole ∨ m.Untyped := by
  intro m hm
  obtain ⟨items, hraw, hms⟩ := members_eq_ok_iff.1 hc
  obtain ⟨j, hj, hread⟩ := Json.exists_of_mem_mapM hms hm
  cases j with
  | obj fields => exact whole_or_untyped_of_ofJson? hread (ordered items fields hraw hj)
  | _ => cases hread

/-- A container that is given members holds their JSON forms and keeps the rest of its data, if that
is an object. -/
theorem withMembers_of_written (c : Resource) {ms : List Resource} {items : List Json}
    (hwrite : ms.mapM toJson? = some items) : c.withMembers ms = .ok
      { c with data := .obj (Entries.insert "items" (.arr items) (c.data.obj?.getD [])) } := by
  obtain ⟨types, metadata, data⟩ := c
  unfold withMembers
  rw [hwrite]
  cases data <;> rfl

theorem withMembers_eq_ok_iff {c l : Resource} {ms : List Resource} : c.withMembers ms = .ok l ↔
    ∃ items, ms.mapM toJson? = some items ∧
      l = { c with data := .obj (Entries.insert "items" (.arr items) (c.data.obj?.getD [])) } := by
  constructor
  · intro h
    cases hwrite : ms.mapM toJson? with
    | none =>
      rw [withMembers, hwrite] at h
      cases h
    | some items =>
      exact ⟨items, rfl, Except.ok.inj (h.symm.trans (withMembers_of_written c hwrite))⟩
  · rintro ⟨items, hwrite, rfl⟩
    exact withMembers_of_written c hwrite

/-- A container that is given members holds their JSON forms, and is otherwise as it was. -/
theorem withMembers_of_items {c : Resource} {ms ms' : List Resource} {items : List Json}
    (hc : c.members = .ok ms') (hwrite : ms.mapM toJson? = some items) :
    ∃ fields l, c.data = .obj fields ∧ c.withMembers ms = .ok l ∧ l.rawMembers? = some items ∧
      l = { c with data := .obj (Entries.insert "items" (.arr items) fields) } := by
  obtain ⟨_, hraw, -⟩ := members_eq_ok_iff.1 hc
  obtain ⟨t, fields, htypes, hlist, hdata, -⟩ := rawMembers?_eq_some_iff.1 hraw
  refine ⟨fields, { c with data := .obj (Entries.insert "items" (.arr items) fields) }, hdata, ?_,
    rawMembers?_eq_some_iff.2 ?_, rfl⟩
  · rw [withMembers_of_written c hwrite, hdata]
    rfl
  · exact ⟨t, _, htypes, hlist, rfl, Entries.find?_insert_self "items" _ fields⟩

/-- A container is filled again with whatever keeps apart from what is written beside it. -/
theorem refilled_of_apart {c : Resource} {ms ms' : List Resource} (hc : c.members = .ok ms')
    (apart : ∀ m ∈ ms, m.Apart) : ∃ l, c.withMembers ms = .ok l ∧ c.Refilled ms l := by
  obtain ⟨items, hwrite⟩ := exists_items fun m hm => (apart m hm).exists_written
  obtain ⟨fields, l, hdata, hput, hraw, rfl⟩ := withMembers_of_items hc hwrite
  refine ⟨_, hput, rfl, rfl, ⟨fields, items, hdata, hwrite, rfl⟩, fun inRange => ?_⟩
  exact members_eq_ok_iff.2 ⟨items, hraw,
    reread_items hwrite fun m hm j hj => (apart m hm).reread (inRange m hm) hj⟩

theorem mapM_toJson?_settled {ms : List Resource} (legible : ∀ m ∈ ms, m.metadata.Legible) :
    (ms.map settled).mapM toJson? = ms.mapM toJson? := by
  induction ms with
  | nil => rfl
  | cons m ms ih =>
    obtain ⟨hm, hms⟩ := List.forall_mem_cons.1 legible
    rw [List.map_cons, List.mapM_cons, List.mapM_cons, toJson?_settled hm, ih hms]

/-- A container that is given whole members holds their JSON forms, and so it holds them settled. -/
theorem refilled_of_whole {c : Resource} {ms ms' : List Resource} (hc : c.members = .ok ms')
    (h : ∀ m ∈ ms, m.Whole) :
    ∃ l, c.withMembers ms = .ok l ∧ c.Refilled ms l ∧ l.members = .ok (ms.map settled) := by
  obtain ⟨l, hput, refilled⟩ := refilled_of_apart hc fun m hm => (h m hm).apart
  exact ⟨l, hput, refilled, refilled.settled fun m hm => (h m hm).metadata.inRange⟩

theorem withMembers_of_whole {c : Resource} {ms ms' : List Resource} (hc : c.members = .ok ms')
    (h : ∀ m ∈ ms, m.Whole) :
    ∃ l, c.withMembers ms = .ok l ∧ c.Regrouped (ms.map settled) l := by
  obtain ⟨l, hput, refilled, hmembers⟩ := refilled_of_whole hc h
  obtain ⟨fields, items, hdata, hwrite, hl⟩ := refilled.data
  refine ⟨l, hput, hmembers, refilled.types, refilled.metadata, fields, items, hdata, ?_, hl⟩
  rw [mapM_toJson?_settled fun m hm => (h m hm).metadata, hwrite]

/-- A container that is given members is otherwise as it was. -/
theorem eq_of_withMembers {c l : Resource} {ms : List Resource} (h : c.withMembers ms = .ok l) :
    l.types = c.types ∧ l.metadata = c.metadata := by
  obtain ⟨items, -, rfl⟩ := withMembers_eq_ok_iff.1 h
  exact ⟨rfl, rfl⟩

/-- A container encodes the members that it was given. -/
theorem items_of_withMembers {c l : Resource} {ms : List Resource} {items : List Json}
    (h : c.withMembers ms = .ok l) (hraw : l.rawMembers? = some items) :
    ms.mapM toJson? = some items := by
  obtain ⟨written, hwrite, rfl⟩ := withMembers_eq_ok_iff.1 h
  obtain ⟨t, fields, -, -, hdata, hfind⟩ := rawMembers?_eq_some_iff.1 hraw
  obtain rfl := Json.obj.inj hdata
  rw [Entries.find?_insert_self] at hfind
  rw [hwrite, Json.arr.inj (Option.some.inj hfind)]

/-- The members that a container holds are the ones that it was given, read back. -/
theorem reread_of_withMembers {c l : Resource} {ms ms' : List Resource}
    (h : c.withMembers ms = .ok l) (hl : l.members = .ok ms') :
    ∃ items, ms.mapM toJson? = some items ∧ items.mapM ofJson? = some ms' := by
  obtain ⟨items, hraw, hms'⟩ := members_eq_ok_iff.1 hl
  exact ⟨items, items_of_withMembers h hraw, hms'⟩

theorem isListKind_of_members {c : Resource} {ms : List Resource} (h : c.members = .ok ms) :
    isListKind c.kind = true := by
  obtain ⟨items, hraw, -⟩ := members_eq_ok_iff.1 h
  obtain ⟨t, fields, htypes, hlist, -⟩ := rawMembers?_eq_some_iff.1 hraw
  rwa [kind, htypes]

/-- Of the members that a container is given one after the other, the last ones stay. -/
theorem withMembers_withMembers {c l : Resource} {ms : List Resource} (h : c.withMembers ms = .ok l)
    (ms' : List Resource) : l.withMembers ms' = c.withMembers ms' := by
  obtain ⟨items, -, rfl⟩ := withMembers_eq_ok_iff.1 h
  cases hwrite : ms'.mapM toJson? with
  | none => rw [withMembers, withMembers, hwrite]
  | some items' =>
    rw [withMembers_of_written _ hwrite, withMembers_of_written c hwrite]
    simp only [Json.obj?, Option.getD_some, Entries.insert_insert]

/-! ## Flattening -/

theorem kind_eq {r : Resource} {t : TypeInfo} (h : r.types = some t) : r.kind = t.kind := by
  rw [kind, h]
  rfl

/-! ## Leaves -/

/-- Nothing is inside a resource that has no members but itself. -/
theorem leaves_of_members?_eq_none {r : Resource} (h : r.members? = none) : r.leaves = .ok [r] := by
  rw [leaves]
  split
  · rfl
  · next heq => cases h.symm.trans heq
  · next heq => cases h.symm.trans heq

theorem leaves_of_members?_eq_error {r : Resource} {f : Failure}
    (h : r.members? = some (.error f)) : r.leaves = .error f := by
  rw [leaves]
  split
  · next heq => cases h.symm.trans heq
  · next heq => exact congrArg _ (Except.error.inj (Option.some.inj (heq.symm.trans h)))
  · next heq => cases h.symm.trans heq

/-- What is inside a container is what its members are flattened to. -/
theorem leaves_of_members?_eq_ok {r : Resource} {ms : List Resource}
    (h : r.members? = some (.ok ms)) : r.leaves = flatten ms := by
  have attached : (ms.attach.mapM fun m => m.1.leaves) = ms.mapM leaves := by
    show ms.attach.mapM (leaves ∘ Subtype.val) = _
    rw [← List.mapM_map, List.attach_map_subtype_val]
  rw [leaves]
  split
  · next heq => cases h.symm.trans heq
  · next heq => cases h.symm.trans heq
  · next ms' heq =>
    obtain rfl := Except.ok.inj (Option.some.inj (h.symm.trans heq))
    exact congrArg
      (fun parts : Except Failure (List (List Resource)) => do return (← parts).flatten) attached

theorem flatten_nil : flatten [] = .ok [] := rfl

theorem flatten_cons (r : Resource) (rs : List Resource) :
    flatten (r :: rs) = do return (← r.leaves) ++ (← flatten rs) := by
  unfold flatten
  rw [List.mapM_cons]
  simp only [bind_assoc, pure_bind, List.flatten_cons]

/-- Leaves are flattened to themselves. -/
theorem flatten_of_leaves {rs : List Resource} (h : ∀ r ∈ rs, r.leaves = .ok [r]) :
    flatten rs = .ok rs := by
  induction rs with
  | nil => rfl
  | cons r rs ih =>
    obtain ⟨hr, hrs⟩ := List.forall_mem_cons.1 h
    rw [flatten_cons, hr, ih hrs]
    rfl

theorem leaves_of_not_list {r : Resource} (h : isListKind r.kind = false) : r.leaves = .ok [r] := by
  refine leaves_of_members?_eq_none ?_
  unfold members? rawMembers?
  split
  · next t ht =>
    rw [kind_eq ht] at h
    rw [if_neg (Bool.eq_false_iff.1 h)]
    rfl
  · rfl

/-- Members that are no containers are what is inside a container. -/
theorem flatten_container {c : Resource} {ms : List Resource} (hc : c.members = .ok ms)
    (hplain : ∀ m ∈ ms, isListKind m.kind = false) : flatten [c] = .ok ms := by
  have inside : c.leaves = .ok ms :=
    (leaves_of_members?_eq_ok (members_eq_ok_iff_members?.1 hc)).trans
      (flatten_of_leaves fun m hm => leaves_of_not_list (hplain m hm))
  rw [flatten_cons, inside, flatten_nil]
  show Except.ok (ms ++ []) = _
  rw [List.append_nil]

end Resource

/-! ## Marks -/

namespace Visitor

/-- The visitor sets a label, an annotation or the namespace. -/
def IsMark : Visitor → Prop
  | .edit _ => False
  | _ => True

/-- Only the metadata is changed, and nothing in it that could not be read. -/
theorem IsMark.visit_eq {v : Visitor} (h : v.IsMark) (r : Resource) :
    ∃ metadata, v.visit r = { r with metadata := metadata } ∧
      (r.metadata.Legible → metadata.Legible) := by
  cases v with
  | edit => cases h
  | label key value => exact ⟨_, rfl, fun h => ⟨h.1, h.2, h.3, h.4, h.5⟩⟩
  | annotate key value => exact ⟨_, rfl, fun h => ⟨h.1, h.2, h.3, h.4, h.5⟩⟩
  | resolveNamespace explicit fallback =>
    have moved (ns : String) : ∃ metadata, r.withNamespace ns = { r with metadata := metadata } ∧
        (r.metadata.Legible → metadata.Legible) :=
      ⟨_, rfl, fun h => ⟨h.1, h.2, h.3, h.4, h.5⟩⟩
    cases explicit with
    | some ns => exact moved ns
    | none =>
      simp only [visit]
      split
      · cases fallback with
        | some ns => exact moved ns
        | none => exact ⟨_, rfl, id⟩
      · exact ⟨_, rfl, id⟩

theorem IsMark.visit_settled {v : Visitor} (h : v.IsMark) (r : Resource) :
    v.visit r.settled = (v.visit r).settled := by
  cases v with
  | edit => cases h
  | label | annotate => rfl
  | resolveNamespace explicit fallback =>
    cases explicit with
    | some ns => rfl
    | none =>
      have own : r.settled.ns = r.ns := rfl
      simp only [visit, own]
      split
      · cases fallback <;> rfl
      · rfl

end Visitor

namespace Pipeline

/-- The resource after every visitor of the pipeline. -/
def visit (p : Pipeline) (r : Resource) : Resource := p.visitors.foldl (fun r v => v.visit r) r

theorem run_plain (p : Pipeline) (r : Resource) : p.run (.plain r) = .ok (p.visit r) := by
  obtain ⟨visitors⟩ := p
  induction visitors generalizing r with
  | nil => rfl
  | cons v visitors ih => exact ih (v.visit r)

theorem run_container (p : Pipeline) (c : Resource) (ms : List Resource) :
    p.run (.container c ms) = c.withMembers (ms.map p.visit) := by
  obtain ⟨visitors⟩ := p
  induction visitors generalizing ms with
  | nil => exact congrArg c.withMembers (List.map_id' ms).symm
  | cons v visitors ih =>
    refine (ih (ms.map v.visit)).trans (congrArg c.withMembers ?_)
    rw [List.map_map]
    rfl

/-- A pipeline of marks changes only the metadata, and nothing in it that could not be read. -/
theorem visit_eq {p : Pipeline} (h : ∀ v ∈ p.visitors, v.IsMark) (r : Resource) :
    ∃ metadata, p.visit r = { r with metadata := metadata } ∧
      (r.metadata.Legible → metadata.Legible) := by
  obtain ⟨visitors⟩ := p
  induction visitors generalizing r with
  | nil => exact ⟨_, rfl, id⟩
  | cons v visitors ih =>
    obtain ⟨hv, hvisitors⟩ := List.forall_mem_cons.1 h
    obtain ⟨metadata, heq, hlegible⟩ := hv.visit_eq r
    obtain ⟨metadata', heq', hlegible'⟩ := ih (v.visit r) hvisitors
    rw [heq] at heq' hlegible'
    exact ⟨metadata', (congrArg (visit ⟨visitors⟩) heq).trans heq', hlegible' ∘ hlegible⟩

/-- Marks and points in time do not meet. -/
theorem visit_settled {p : Pipeline} (h : ∀ v ∈ p.visitors, v.IsMark) (r : Resource) :
    p.visit r.settled = (p.visit r).settled := by
  obtain ⟨visitors⟩ := p
  induction visitors generalizing r with
  | nil => rfl
  | cons v visitors ih =>
    obtain ⟨hv, hvisitors⟩ := List.forall_mem_cons.1 h
    refine Eq.trans ?_ (ih (v.visit r) hvisitors)
    exact congrArg (visit ⟨visitors⟩) (hv.visit_settled r)

theorem whole_visit {p : Pipeline} (h : ∀ v ∈ p.visitors, v.IsMark) {r : Resource} (hr : r.Whole) :
    (p.visit r).Whole := by
  obtain ⟨metadata, hvisit, hlegible⟩ := visit_eq h r
  rw [hvisit]
  exact ⟨hr.types, hlegible hr.metadata, hr.data⟩

theorem untyped_visit {p : Pipeline} (h : ∀ v ∈ p.visitors, v.IsMark) {r : Resource}
    (hr : r.Untyped) : (p.visit r).Untyped := by
  obtain ⟨metadata, hvisit, -⟩ := visit_eq h r
  rw [hvisit]
  exact ⟨hr.types, hr.data⟩

end Pipeline

end Rollout
