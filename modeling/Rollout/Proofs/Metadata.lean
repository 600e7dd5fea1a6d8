/-
  Metadata that is written is read back, but for the fractions of seconds.

  Each field is written under its own key if it is set and left out if it is not, so it is read back
  if its value is (`Json.optional_eq`). Not every value is: a point in time has to be one that the
  calendar has, and a whole number has to fit 64 bits (`InRange`). What is read then is the same
  metadata with its points in time to the second, and without fields that are `null` (`settled`).
  Metadata that was read has only values that can be read (`Legible`). So it comes back as it was
  if and only if none of its points in time has a fraction (`Legible.settled_eq_self_iff`), and
  always from the second time on.
-/
import Rollout.Proofs.Entries
import Rollout.Proofs.Timestamp
import Rollout.Metadata

namespace Rollout

/-! ## Typed members -/

namespace Json

variable {α : Type}

theorem bind_some {β : Type} {x : Option α} {f : α → Option β} {a : α} {b : β} (hx : x = some a)
    (hf : f a = some b) : x >>= f = some b := by
  rw [hx]
  exact hf

theorem find?_member? (key k : String) (value : Option Json) :
    Entries.find? key (member? k value) = if k = key then value else none := by
  cases value with
  | none => exact (ite_self none).symm
  | some v => rfl

/-- A member is read as what becomes of its value when that is written and read. -/
theorem optional_map {key : String} {read : Json → Option α} {ms : Entries Json} {value : Option α}
    {write : α → Json} {g : α → α} (hfind : Entries.find? key ms = value.map write)
    (hread : ∀ a ∈ value, read (write a) = some (g a) ∧ write a ≠ .null) :
    optional key read ms = some (value.map g) := by
  unfold optional
  rw [hfind]
  cases value with
  | none => rfl
  | some a =>
    obtain ⟨hread, hnull⟩ := hread a rfl
    split
    · next heq => cases heq
    · next heq => exact absurd (Option.some.inj heq) hnull
    · next heq => rw [← Option.some.inj heq, hread, Option.map_some, Option.map_some]

/-- A member is read as the value that it was written from. -/
theorem optional_eq {key : String} {read : Json → Option α} {ms : Entries Json} {value : Option α}
    {write : α → Json} (hfind : Entries.find? key ms = value.map write)
    (hread : ∀ a ∈ value, read (write a) = some a ∧ write a ≠ .null) :
    optional key read ms = some value := by
  rw [optional_map (g := id) hfind hread, Option.map_id_apply]

/-- A member that may be anything is read as it is, and as not set if it is `null`. -/
theorem optional_some {key : String} {ms : Entries Json} {value : Option Json}
    (hfind : Entries.find? key ms = value) :
    optional key some ms = some (value.filter (· ≠ .null)) := by
  unfold optional
  rw [hfind]
  cases value with
  | none => rfl
  | some j => cases j <;> rfl

/-- A member that is read is not set, or it has a value. -/
theorem optional_cases {key : String} {read : Json → Option α} {ms : Entries Json}
    {value : Option α} (h : optional key read ms = some value) :
    ((Entries.find? key ms = none ∨ Entries.find? key ms = some .null) ∧ value = none) ∨
      ∃ j a, Entries.find? key ms = some j ∧ j ≠ .null ∧ read j = some a ∧ value = some a := by
  unfold optional at h
  split at h
  · next hfind => exact .inl ⟨.inl hfind, (Option.some.inj h).symm⟩
  · next hfind => exact .inl ⟨.inr hfind, (Option.some.inj h).symm⟩
  · next j hnull hfind =>
    obtain ⟨a, hread, rfl⟩ := Option.map_eq_some_iff.1 h
    exact .inr ⟨j, a, hfind, fun hj => hnull (hj ▸ rfl), hread, rfl⟩

/-- The value of a member was read from something. -/
theorem exists_of_optional {key : String} {read : Json → Option α} {ms : Entries Json}
    {value : Option α} (h : optional key read ms = some value) {a : α} (ha : a ∈ value) :
    ∃ j, j ≠ .null ∧ read j = some a := by
  obtain ⟨-, rfl⟩ | ⟨j, a', -, hnull, hread, rfl⟩ := optional_cases h
  · cases ha
  · obtain rfl := Option.some.inj ha
    exact ⟨j, hnull, hread⟩

theorem optional_str {key : String} {ms : Entries Json} {value : Option String}
    (h : Entries.find? key ms = value.map .str) : optional key str? ms = some value :=
  optional_eq h fun _ _ => ⟨rfl, nofun⟩

theorem optional_bool {key : String} {ms : Entries Json} {value : Option Bool}
    (h : Entries.find? key ms = value.map .bool) : optional key bool? ms = some value :=
  optional_eq h fun _ _ => ⟨rfl, nofun⟩

theorem textOrEmpty_eq {key s : String} {ms : Entries Json}
    (h : Entries.find? key ms = some (.str s)) : textOrEmpty key ms = some s := by
  have read : optional key str? ms = some (some s) := optional_str h
  rw [textOrEmpty, read, Option.map_some, Option.getD_some]

/-- What can each be read can be read one by one. -/
theorem exists_mapM {β : Type} {read : β → Option α} {xs : List β}
    (h : ∀ x ∈ xs, ∃ a, read x = some a) : ∃ as, xs.mapM read = some as := by
  induction xs with
  | nil => exact ⟨[], rfl⟩
  | cons x xs ih =>
    obtain ⟨hx, hxs⟩ := List.forall_mem_cons.1 h
    obtain ⟨a, ha⟩ := hx
    obtain ⟨as, has⟩ := ih hxs
    refine ⟨a :: as, ?_⟩
    rw [List.mapM_cons, ha, has]
    rfl

theorem mapM_map {β : Type} {read : β → Option α} {write : α → β} {g : α → α} {as : List α}
    (h : ∀ a ∈ as, read (write a) = some (g a)) : (as.map write).mapM read = some (as.map g) := by
  induction as with
  | nil => rfl
  | cons a as ih =>
    obtain ⟨ha, has⟩ := List.forall_mem_cons.1 h
    rw [List.map_cons, List.mapM_cons, ha, ih has]
    rfl

theorem mapM_map_eq {β : Type} {read : β → Option α} {write : α → β} {as : List α}
    (h : ∀ a ∈ as, read (write a) = some a) : (as.map write).mapM read = some as := by
  rw [mapM_map (g := id) h, List.map_id]

theorem optional_texts {key : String} {ms : Entries Json} {value : Option (Entries String)}
    (h : Entries.find? key ms = value.map Metadata.texts) :
    optional key (entriesOf str?) ms = some value := by
  refine optional_eq h fun es _ => ⟨?_, nofun⟩
  show (es.map _).mapM _ = _
  exact mapM_map_eq fun _ _ => rfl

theorem optional_list {key : String} {read : Json → Option α} {ms : Entries Json}
    {value : Option (List α)} {write : α → Json} {g : α → α}
    (h : Entries.find? key ms = value.map fun as => .arr (as.map write))
    (hread : ∀ as ∈ value, ∀ a ∈ as, read (write a) = some (g a)) :
    optional key (listOf read) ms = some (value.map (·.map g)) :=
  optional_map h fun as has => ⟨mapM_map (hread as has), nofun⟩

theorem optional_list_eq {key : String} {read : Json → Option α} {ms : Entries Json}
    {value : Option (List α)} {write : α → Json}
    (h : Entries.find? key ms = value.map fun as => .arr (as.map write))
    (hread : ∀ a, read (write a) = some a) : optional key (listOf read) ms = some value :=
  optional_eq h fun _ _ => ⟨mapM_map_eq fun a _ => hread a, nofun⟩

theorem optional_strs {key : String} {ms : Entries Json} {value : Option (List String)}
    (h : Entries.find? key ms = value.map fun as => .arr (as.map .str)) :
    optional key (listOf str?) ms = some value :=
  optional_list_eq h fun _ => rfl

theorem timestamp?_str (s : String) : timestamp? (.str s) = Timestamp.parse? s := rfl

theorem optional_timestamp {key : String} {ms : Entries Json} {value : Option Timestamp}
    (h : Entries.find? key ms = value.map fun t => .str t.text)
    (hvalid : ∀ t ∈ value, t.isValid = true) :
    optional key timestamp? ms = some (value.map Timestamp.toSecond) :=
  optional_map h fun t ht => ⟨(timestamp?_str t.text).trans (Timestamp.parse?_text (hvalid t ht)),
    nofun⟩

/-- The whole numbers that 64 bits hold. -/
def IsInt64 (n : Int) : Prop := -9223372036854775808 ≤ n ∧ n ≤ 9223372036854775807

theorem optional_int64 {key : String} {ms : Entries Json} {value : Option Int}
    (h : Entries.find? key ms = value.map fun n => .num (.whole n))
    (hvalid : ∀ n ∈ value, IsInt64 n) : optional key int64? ms = some value := by
  refine optional_eq h fun n hn => ⟨?_, nofun⟩
  obtain ⟨hlow, hhigh⟩ := hvalid n hn
  simp [int64?, intWithin?, int?, hlow, hhigh]

theorem isInt64_of_int64? {j : Json} {n : Int} (h : int64? j = some n) : IsInt64 n := by
  simpa [IsInt64] using (Option.filter_eq_some_iff.1 h).2

theorem isValid_of_timestamp? {j : Json} {t : Timestamp} (h : timestamp? j = some t) :
    t.isValid = true := by
  obtain ⟨s, -, hs⟩ := Option.bind_eq_some_iff.1 h
  exact Timestamp.isValid_of_parse? hs

theorem exists_of_optional_list {key : String} {read : Json → Option α} {ms : Entries Json}
    {value : Option (List α)} (h : optional key (listOf read) ms = some value) {as : List α}
    (has : as ∈ value) {a : α} (ha : a ∈ as) : ∃ j, read j = some a := by
  obtain ⟨j, -, hj⟩ := exists_of_optional h has
  obtain ⟨js, -, hjs⟩ := Option.bind_eq_some_iff.1 hj
  obtain ⟨j', -, hj'⟩ := exists_of_mem_mapM hjs ha
  exact ⟨j', hj'⟩

end Json

/-! ## Parts of the metadata -/

namespace OwnerReference

theorem ofJson?_toJson (o : OwnerReference) : ofJson? o.toJson = some o := by
  unfold ofJson? toJson
  refine Json.bind_some rfl <| Json.bind_some (Json.textOrEmpty_eq ?_) <|
    Json.bind_some (Json.optional_bool ?_) <| Json.bind_some (Json.optional_bool ?_) <|
    Json.bind_some (Json.textOrEmpty_eq ?_) <| Json.bind_some (Json.textOrEmpty_eq ?_) <|
    Json.bind_some (Json.textOrEmpty_eq ?_) rfl
  all_goals simp [Entries.find?_append, Json.find?_member?, Entries.find?]

end OwnerReference

namespace ManagedFields

/-- The entry has only values that can be read. -/
structure Legible (f : ManagedFields) : Prop where
  time : ∀ t ∈ f.time, t.isValid = true
  fieldsV1 : f.fieldsV1 ≠ some .null

/-- The time of the entry, if it has one, is that of a whole second. -/
def InSeconds (f : ManagedFields) : Prop := ∀ t ∈ f.time, t.nanos = 0

/-- The entry as it is read again: its time is that of a second, and fields that are `null` are not
set. -/
def settled (f : ManagedFields) : ManagedFields :=
  { f with fieldsV1 := f.fieldsV1.filter (· ≠ .null), time := f.time.map Timestamp.toSecond }

theorem filter_fieldsV1 {f : ManagedFields} (h : f.fieldsV1 ≠ some .null) :
    f.fieldsV1.filter (· ≠ .null) = f.fieldsV1 := by
  cases hfields : f.fieldsV1 with
  | none => rfl
  | some j =>
    have hj : j ≠ .null := fun hnull => h (hfields.trans (congrArg some hnull))
    exact if_pos (decide_eq_true hj)

theorem inSeconds_settled (f : ManagedFields) : f.settled.InSeconds :=
  Timestamp.nanos_of_mem_map_toSecond

theorem Legible.settled_eq {f : ManagedFields} (h : f.Legible) (seconds : f.InSeconds) :
    f.settled = f := by
  rw [settled, filter_fieldsV1 h.fieldsV1, Timestamp.map_toSecond_eq_self seconds]

theorem settled_settled (f : ManagedFields) : f.settled.settled = f.settled := by
  have kept : f.settled.fieldsV1 ≠ some .null := fun hnull => by
    simpa using (Option.filter_eq_some_iff.1 hnull).2
  rw [settled, filter_fieldsV1 kept, Timestamp.map_toSecond_eq_self f.inSeconds_settled]

/-- Fractions of seconds are not written. -/
theorem Legible.toJson_settled {f : ManagedFields} (h : f.Legible) :
    f.settled.toJson = f.toJson := by
  rw [settled, filter_fieldsV1 h.fieldsV1]
  unfold toJson
  rw [Option.map_map]
  rfl

theorem ofJson?_toJson_of_time {f : ManagedFields} (htime : ∀ t ∈ f.time, t.isValid = true) :
    ofJson? f.toJson = some f.settled := by
  unfold ofJson? toJson
  refine Json.bind_some rfl <| Json.bind_some (Json.optional_str ?_) <|
    Json.bind_some (Json.optional_str ?_) <| Json.bind_some (Json.optional_some ?_) <|
    Json.bind_some (Json.optional_str ?_) <| Json.bind_some (Json.optional_str ?_) <|
    Json.bind_some (Json.optional_str ?_) <|
    Json.bind_some (Json.optional_timestamp ?_ htime) rfl
  all_goals simp [Entries.find?_append, Json.find?_member?]

theorem legible_of_ofJson? {j : Json} {f : ManagedFields} (h : ofJson? j = some f) :
    f.Legible := by
  obtain ⟨ms, -, h⟩ := Option.bind_eq_some_iff.1 h
  iterate 2 obtain ⟨_, -, h⟩ := Option.bind_eq_some_iff.1 h
  obtain ⟨fieldsV1, hfieldsV1, h⟩ := Option.bind_eq_some_iff.1 h
  iterate 3 obtain ⟨_, -, h⟩ := Option.bind_eq_some_iff.1 h
  obtain ⟨time, htime, h⟩ := Option.bind_eq_some_iff.1 h
  obtain rfl := Option.some.inj h
  refine ⟨fun t ht => ?_, fun hnull => ?_⟩
  · obtain ⟨j, -, hj⟩ := Json.exists_of_optional htime ht
    exact Json.isValid_of_timestamp? hj
  · obtain ⟨j, hj, heq⟩ := Json.exists_of_optional hfieldsV1 hnull
    exact hj (Option.some.inj heq)

end ManagedFields

/-! ## Metadata -/

namespace Metadata

/-- The metadata has only values that can be read. -/
structure Legible (m : Metadata) : Prop where
  creationTimestamp : ∀ t ∈ m.creationTimestamp, t.isValid = true
  deletionGracePeriodSeconds : ∀ n ∈ m.deletionGracePeriodSeconds, Json.IsInt64 n
  deletionTimestamp : ∀ t ∈ m.deletionTimestamp, t.isValid = true
  generation : ∀ n ∈ m.generation, Json.IsInt64 n
  managedFields : ∀ fs ∈ m.managedFields, ∀ f ∈ fs, f.Legible

/-- The points in time are in the calendar and the whole numbers fit 64 bits. -/
structure InRange (m : Metadata) : Prop where
  creationTimestamp : ∀ t ∈ m.creationTimestamp, t.isValid = true
  deletionGracePeriodSeconds : ∀ n ∈ m.deletionGracePeriodSeconds, Json.IsInt64 n
  deletionTimestamp : ∀ t ∈ m.deletionTimestamp, t.isValid = true
  generation : ∀ n ∈ m.generation, Json.IsInt64 n
  managedFields : ∀ fs ∈ m.managedFields, ∀ f ∈ fs, ∀ t ∈ f.time, t.isValid = true

/-- No point in time has a fraction of a second. -/
structure InSeconds (m : Metadata) : Prop where
  creationTimestamp : ∀ t ∈ m.creationTimestamp, t.nanos = 0
  deletionTimestamp : ∀ t ∈ m.deletionTimestamp, t.nanos = 0
  managedFields : ∀ fs ∈ m.managedFields, ∀ f ∈ fs, f.InSeconds

/-- The metadata can be written and read again as it was. -/
structure Valid (m : Metadata) : Prop where
  legible : m.Legible
  inSeconds : m.InSeconds

/-- The metadata as it is read again: its points in time are those of whole seconds, and managed
fields that are `null` are not set. -/
def settled (m : Metadata) : Metadata :=
  { m with
    creationTimestamp := m.creationTimestamp.map Timestamp.toSecond
    deletionTimestamp := m.deletionTimestamp.map Timestamp.toSecond
    managedFields := m.managedFields.map (·.map ManagedFields.settled) }

theorem Legible.inRange {m : Metadata} (h : m.Legible) : m.InRange :=
  ⟨h.1, h.2, h.3, h.4, fun fs hfs f hf => (h.managedFields fs hfs f hf).time⟩

theorem inSeconds_settled (m : Metadata) : m.settled.InSeconds := by
  refine ⟨Timestamp.nanos_of_mem_map_toSecond, Timestamp.nanos_of_mem_map_toSecond,
    fun fs hfs f hf => ?_⟩
  obtain ⟨fs', -, rfl⟩ := Option.map_eq_some_iff.1 hfs
  obtain ⟨f', -, rfl⟩ := List.mem_map.1 hf
  exact f'.inSeconds_settled

theorem settled_settled (m : Metadata) : m.settled.settled = m.settled := by
  obtain ⟨created, deleted, -⟩ := m.inSeconds_settled
  have managed : m.settled.managedFields.map (·.map ManagedFields.settled) =
      m.settled.managedFields := by
    show (m.managedFields.map _).map _ = m.managedFields.map _
    rw [Option.map_map]
    refine Option.map_congr fun fs _ => ?_
    rw [Function.comp_apply, List.map_map]
    exact List.map_congr_left fun f _ => f.settled_settled
  rw [settled, Timestamp.map_toSecond_eq_self created, Timestamp.map_toSecond_eq_self deleted,
    managed]

theorem Valid.settled_eq {m : Metadata} (h : m.Valid) : m.settled = m := by
  obtain ⟨legible, seconds⟩ := h
  have managed : m.managedFields.map (·.map ManagedFields.settled) = m.managedFields := by
    cases hmanaged : m.managedFields with
    | none => rfl
    | some fs =>
      have each : ∀ f ∈ fs, f.settled = f := fun f hf =>
        (legible.managedFields fs hmanaged f hf).settled_eq (seconds.managedFields fs hmanaged f hf)
      rw [Option.map_some, List.map_congr_left each, List.map_id']
  rw [settled, Timestamp.map_toSecond_eq_self seconds.creationTimestamp,
    Timestamp.map_toSecond_eq_self seconds.deletionTimestamp, managed]

/-- What can be read comes back as it was if and only if it is without fractions of seconds. -/
theorem Legible.settled_eq_self_iff {m : Metadata} (h : m.Legible) :
    m.settled = m ↔ m.InSeconds :=
  ⟨fun heq => heq ▸ m.inSeconds_settled, fun seconds => Valid.settled_eq ⟨h, seconds⟩⟩

/-- Fractions of seconds are not written. -/
theorem Legible.toJson_settled {m : Metadata} (h : m.Legible) : m.settled.toJson = m.toJson := by
  have managed : (m.managedFields.map (·.map ManagedFields.settled)).map
      (fun fs => Json.arr (fs.map ManagedFields.toJson)) =
        m.managedFields.map fun fs => .arr (fs.map ManagedFields.toJson) := by
    rw [Option.map_map]
    refine Option.map_congr fun fs hfs => congrArg Json.arr ?_
    rw [List.map_map]
    exact List.map_congr_left fun f hf => (h.managedFields fs hfs f hf).toJson_settled
  unfold toJson
  rw [settled, managed, Option.map_map, Option.map_map]
  rfl

/-- What is written is read as what it was, but for fractions of seconds and for what is not set
when it is `null`. -/
theorem ofJson?_toJson_of_inRange {m : Metadata} (h : m.InRange) :
    ofJson? m.toJson = some m.settled := by
  have managed : ∀ fs ∈ m.managedFields, ∀ f ∈ fs,
      ManagedFields.ofJson? f.toJson = some f.settled :=
    fun fs hfs f hf => ManagedFields.ofJson?_toJson_of_time (h.managedFields fs hfs f hf)
  unfold ofJson? toJson
  refine Json.bind_some rfl <| Json.bind_some (Json.optional_texts ?_) <|
    Json.bind_some (Json.optional_timestamp ?_ h.creationTimestamp) <|
    Json.bind_some (Json.optional_int64 ?_ h.deletionGracePeriodSeconds) <|
    Json.bind_some (Json.optional_timestamp ?_ h.deletionTimestamp) <|
    Json.bind_some (Json.optional_strs ?_) <| Json.bind_some (Json.optional_str ?_) <|
    Json.bind_some (Json.optional_int64 ?_ h.generation) <|
    Json.bind_some (Json.optional_texts ?_) <| Json.bind_some (Json.optional_list ?_ managed) <|
    Json.bind_some (Json.optional_str ?_) <| Json.bind_some (Json.optional_str ?_) <|
    Json.bind_some (Json.optional_list_eq ?_ OwnerReference.ofJson?_toJson) <|
    Json.bind_some (Json.optional_str ?_) <| Json.bind_some (Json.optional_str ?_) <|
    Json.bind_some (Json.optional_str ?_) rfl
  all_goals simp [Entries.find?_append, Json.find?_member?]

/-- Metadata that was read has only values that can be read. -/
theorem legible_of_ofJson? {j : Json} {m : Metadata} (h : ofJson? j = some m) : m.Legible := by
  obtain ⟨ms, -, h⟩ := Option.bind_eq_some_iff.1 h
  obtain ⟨_, -, h⟩ := Option.bind_eq_some_iff.1 h
  obtain ⟨created, hcreated, h⟩ := Option.bind_eq_some_iff.1 h
  obtain ⟨grace, hgrace, h⟩ := Option.bind_eq_some_iff.1 h
  obtain ⟨deleted, hdeleted, h⟩ := Option.bind_eq_some_iff.1 h
  iterate 2 obtain ⟨_, -, h⟩ := Option.bind_eq_some_iff.1 h
  obtain ⟨generation, hgeneration, h⟩ := Option.bind_eq_some_iff.1 h
  obtain ⟨_, -, h⟩ := Option.bind_eq_some_iff.1 h
  obtain ⟨managed, hmanaged, h⟩ := Option.bind_eq_some_iff.1 h
  iterate 6 obtain ⟨_, -, h⟩ := Option.bind_eq_some_iff.1 h
  obtain rfl := Option.some.inj h
  have time {key : String} {value : Option Timestamp}
      (h : Json.optional key Json.timestamp? ms = some value) : ∀ t ∈ value, t.isValid = true := by
    intro t ht
    obtain ⟨j, -, hj⟩ := Json.exists_of_optional h ht
    exact Json.isValid_of_timestamp? hj
  have int64 {key : String} {value : Option Int}
      (h : Json.optional key Json.int64? ms = some value) : ∀ n ∈ value, Json.IsInt64 n := by
    intro n hn
    obtain ⟨j, -, hj⟩ := Json.exists_of_optional h hn
    exact Json.isInt64_of_int64? hj
  refine ⟨time hcreated, int64 hgrace, time hdeleted, int64 hgeneration, fun fs hfs f hf => ?_⟩
  obtain ⟨j, hj⟩ := Json.exists_of_optional_list hmanaged hfs hf
  exact ManagedFields.legible_of_ofJson? hj

end Metadata

end Rollout
