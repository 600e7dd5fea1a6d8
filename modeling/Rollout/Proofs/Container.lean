/-
  A container gives back the members that it is given, but for the fractions of seconds.

  The members of a container are encoded in its data, and opening it decodes them. A resource comes
  back from its JSON form as it was if and only if its data is an object that keeps apart from type
  information and metadata, and its metadata has only such values as can be read and no fractions of
  seconds (`rereads_iff`); whether it has type information does not matter. So a container of a list
  kind, whatever its data, gives back a sequence of members if and only if each of them is such a
  resource (`members?_withMembers_iff`). All that was read as metadata once is such if the points in
  time are those of whole seconds; a fraction is kept when it is read, but it is never written
  (`fraction_lost`).
-/
import Rollout.Proofs.Resource

namespace Rollout.Resource

/-! ## One member -/

/-- What comes back as it was keeps apart from what is written beside it. -/
theorem Rereads.apart_and_legible {m : Resource} (h : m.Rereads) :
    m.Apart ∧ m.metadata.Legible := by
  obtain ⟨j, hwrite, hread⟩ := h
  obtain ⟨types, metadata, data⟩ := m
  cases data with
  | obj fields =>
    obtain rfl : Json.obj (encoded types metadata.toJson fields) = j := Option.some.inj hwrite
    obtain ⟨legible, hdata⟩ := eq_of_ofJson?_obj hread
    have hfields := Json.obj.inj hdata
    have ordered : Entries.Ordered (encoded types metadata.toJson fields) :=
      Entries.ordered_ofList _
    -- Whether there is type information or not, both of its keys are taken away.
    have taken : (takeTypes (encoded types metadata.toJson fields)).2 = Entries.erase "kind"
        (Entries.erase "apiVersion" (encoded types metadata.toJson fields)) := by
      cases types with
      | some t => exact takeTypes_eq_some (types_of_ofJson? hread)
      | none =>
        obtain ⟨hversion, hrest⟩ := takeTypes_rest (encoded none metadata.toJson fields)
        have missing : Entries.find? "apiVersion" (encoded none metadata.toJson fields) = none := by
          rw [find?_apiVersion_encoded]
          · rw [hfields, Entries.find?_erase_of_ne (by decide), hversion]
          · exact hfields ▸ Entries.ordered_erase (hrest ordered)
          · rw [hfields, Entries.find?_erase_self]
        unfold takeTypes
        rw [missing]
    rw [taken] at hfields
    refine ⟨⟨fields, rfl, hfields ▸ ordered_dataOf ordered, fun key hkey => ?_⟩, legible⟩
    have own := find?_dataOf key (encoded types metadata.toJson fields)
    rw [if_pos hkey] at own
    exact hfields ▸ own
  | null =>
    obtain rfl := Option.some.inj hwrite
    cases (eq_of_ofJson?_obj hread).2
  | _ => cases hwrite

theorem rereads_iff {m : Resource} : m.Rereads ↔ m.Apart ∧ m.metadata.Valid := by
  refine ⟨fun h => ?_, fun ⟨apart, valid⟩ => apart.rereads valid⟩
  obtain ⟨apart, legible⟩ := h.apart_and_legible
  obtain ⟨j, hwrite, hread⟩ := h
  have settled : m.settled = m :=
    Option.some.inj ((apart.reread legible.inRange hwrite).symm.trans hread)
  exact ⟨apart, legible, (settled_eq_self_iff legible).1 settled⟩

/-! ## Members -/

/-- Resources come back one by one. -/
theorem reread_each_iff {ms : List Resource} :
    (∃ items, ms.mapM toJson? = some items ∧ items.mapM ofJson? = some ms) ↔
      ∀ m ∈ ms, m.Rereads := by
  constructor
  · rintro ⟨items, hwrite, hread⟩
    induction ms generalizing items with
    | nil => exact List.forall_mem_nil _
    | cons m ms ih =>
      simp only [List.mapM_cons, Option.bind_eq_bind, Option.bind_eq_some_iff, Option.pure_def,
        Option.some.injEq] at hwrite
      obtain ⟨j, hj, rest, hrest, rfl⟩ := hwrite
      simp only [List.mapM_cons, Option.bind_eq_bind, Option.bind_eq_some_iff, Option.pure_def,
        Option.some.injEq, List.cons.injEq] at hread
      obtain ⟨m', hm', ms', hms', rfl, rfl⟩ := hread
      exact List.forall_mem_cons.2 ⟨⟨j, hj, hm'⟩, ih rest hrest hms'⟩
  · exact exists_items_of_rereads

/-- A container of a list kind is one with whatever members it is given. -/
theorem rawMembers?_of_withMembers {c l : Resource} {ms : List Resource} {t : TypeInfo}
    (htypes : c.types = some t) (hlist : isListKind t.kind = true)
    (h : c.withMembers ms = .ok l) : ∃ items, ms.mapM toJson? = some items ∧
      l.rawMembers? = some items := by
  obtain ⟨items, hwrite, rfl⟩ := withMembers_eq_ok_iff.1 h
  exact ⟨items, hwrite, rawMembers?_eq_some_iff.2
    ⟨t, _, htypes, hlist, rfl, Entries.find?_insert_self "items" _ _⟩⟩

/-- A container of a list kind gives back these members if and only if each of them comes back from
its JSON form. -/
theorem members?_withMembers_iff {c : Resource} {t : TypeInfo} (htypes : c.types = some t)
    (hlist : isListKind t.kind = true) {ms : List Resource} :
    (∃ l, c.withMembers ms = .ok l ∧ l.members? = some (.ok ms)) ↔
      ∀ m ∈ ms, m.Apart ∧ m.metadata.Valid := by
  simp only [← rereads_iff, ← reread_each_iff]
  constructor
  · rintro ⟨l, hput, hmembers⟩
    obtain ⟨items, hwrite, hraw⟩ := rawMembers?_of_withMembers htypes hlist hput
    obtain ⟨items', hraw', hread⟩ := members?_eq_ok_iff.1 hmembers
    obtain rfl := Option.some.inj (hraw.symm.trans hraw')
    exact ⟨items, hwrite, hread⟩
  · rintro ⟨items, hwrite, hread⟩
    have hput := withMembers_of_written c hwrite
    obtain ⟨items', hwrite', hraw⟩ := rawMembers?_of_withMembers htypes hlist hput
    obtain rfl := Option.some.inj (hwrite.symm.trans hwrite')
    exact ⟨_, hput, members?_eq_ok_iff.2 ⟨items, hraw, hread⟩⟩

theorem field?_of_withMembers {c l : Resource} {ms : List Resource} (h : c.withMembers ms = .ok l)
    {key : String} (hkey : key ≠ "items") : l.data.field? key = c.data.field? key := by
  obtain ⟨types, metadata, data⟩ := c
  obtain ⟨items, -, rfl⟩ := withMembers_eq_ok_iff.1 h
  cases data with
  | obj fields => exact Entries.find?_insert_of_ne hkey _ fields
  | _ => exact Entries.find?_insert_of_ne hkey _ []

/-- A container of a list kind gives back what keeps apart as it is read again. -/
theorem members?_of_withMembers {c l : Resource} {t : TypeInfo} (htypes : c.types = some t)
    (hlist : isListKind t.kind = true) {ms : List Resource} (apart : ∀ m ∈ ms, m.Apart)
    (inRange : ∀ m ∈ ms, m.metadata.InRange) (hput : c.withMembers ms = .ok l) :
    l.members? = some (.ok (ms.map settled)) := by
  obtain ⟨items, hwrite, hraw⟩ := rawMembers?_of_withMembers htypes hlist hput
  exact members?_eq_ok_iff.2 ⟨items, hraw,
    reread_items hwrite fun m hm j hj => (apart m hm).reread (inRange m hm) hj⟩

/-- A container of a list kind, whatever its data, takes any sequence of resources whose data are
objects without the keys of type information and metadata, with type information or without it, and
with any metadata that was read from something. It then holds these resources, in this order, except
that their points in time are those of whole seconds; so it gives them back as they were if and only
if there were no fractions of seconds. Its type information, its metadata and all its data but the
items are as they were. -/
theorem members_roundTrip {c : Resource} {t : TypeInfo} (htypes : c.types = some t)
    (hlist : isListKind t.kind = true) {ms : List Resource} (apart : ∀ m ∈ ms, m.Apart)
    (read : ∀ m ∈ ms, ∃ j, Metadata.ofJson? j = some m.metadata) :
    ∃ l, c.withMembers ms = .ok l ∧ l.members? = some (.ok (ms.map settled)) ∧
      (l.members? = some (.ok ms) ↔ ∀ m ∈ ms, m.metadata.InSeconds) ∧ l.types = c.types ∧
      l.metadata = c.metadata ∧ ∀ key, key ≠ "items" → l.data.field? key = c.data.field? key := by
  have legible : ∀ m ∈ ms, m.metadata.Legible := fun m hm => by
    obtain ⟨j, hj⟩ := read m hm
    exact Metadata.legible_of_ofJson? hj
  obtain ⟨items, hwrite⟩ := exists_items fun m hm => (apart m hm).exists_written
  have hput := withMembers_of_written c hwrite
  have hmembers := members?_of_withMembers htypes hlist apart
    (fun m hm => (legible m hm).inRange) hput
  obtain ⟨htypes', hmetadata'⟩ := eq_of_withMembers hput
  refine ⟨_, hput, hmembers, ⟨fun same m hm => ?_, fun seconds => ?_⟩, htypes', hmetadata',
    fun key => field?_of_withMembers hput⟩
  · exact ((members?_withMembers_iff htypes hlist).1 ⟨_, hput, same⟩ m hm).2.inSeconds
  · have unchanged : ∀ m ∈ ms, m.settled = m := fun m hm =>
      settled_of_valid ⟨legible m hm, seconds m hm⟩
    rw [hmembers, List.map_congr_left unchanged, List.map_id']

/-! ### A resource with type information and one without -/

/-- Metadata with an empty map, a leap second, an owner that says little and a manager's fields. -/
def variedJson : Json := .obj
  [("annotations", .obj []), ("creationTimestamp", .str "2016-12-31T23:59:60Z"),
    ("labels", .null),
    ("managedFields", .arr [.obj [("fieldsV1", .obj [("f:data", .obj [])]),
      ("manager", .str "kubectl")]]),
    ("name", .str "a"), ("ownerReferences", .arr [.obj [("kind", .str "Pod")]])]

def varied : Metadata where
  annotations := some []
  creationTimestamp := some ⟨2016, 12, 31, 23, 59, 60, 0⟩
  managedFields := some [⟨none, none, some (.obj [("f:data", .obj [])]), some "kubectl", none, none,
    none⟩]
  name := some "a"
  ownerReferences := some [⟨"", none, none, "Pod", "", ""⟩]

theorem ofJson?_variedJson : Metadata.ofJson? variedJson = some varied := by decide +kernel

/-- A config map, and something that does not say what it is and has items of its own. -/
def mixed : List Resource :=
  [⟨some ⟨"v1", "ConfigMap"⟩, varied, .obj [("data", .obj [("kind", .str "old")])]⟩,
    ⟨none, {}, .obj [("items", .arr [.null]), ("spec", .num (.whole 1))]⟩]

/-- A list whose data is `data`. -/
def listWith (data : Json) : Resource :=
  ⟨some ⟨"v1", "List"⟩, { resourceVersion := some "7" }, data⟩

theorem apart_mixed : ∀ m ∈ mixed, m.Apart := by
  refine List.forall_mem_cons.2 ⟨⟨_, rfl, List.pairwise_singleton _ _, by decide⟩,
    List.forall_mem_singleton.2 ⟨_, rfl, ?_, by decide⟩⟩
  exact List.pairwise_pair.2 (by decide)

theorem read_mixed : ∀ m ∈ mixed, ∃ j, Metadata.ofJson? j = some m.metadata :=
  List.forall_mem_cons.2 ⟨⟨_, ofJson?_variedJson⟩, List.forall_mem_singleton.2 ⟨.obj [], rfl⟩⟩

theorem inSeconds_mixed : ∀ m ∈ mixed, m.metadata.InSeconds := by
  refine List.forall_mem_cons.2 ⟨⟨?_, nofun, ?_⟩,
    List.forall_mem_singleton.2 ⟨nofun, nofun, nofun⟩⟩
  · exact fun t ht => Option.some.inj ht ▸ rfl
  · rintro fs hfs f hf
    obtain rfl := Option.some.inj hfs
    obtain rfl := List.mem_singleton.1 hf
    exact nofun

/-- A list of nothing and a text that is called a list both come to hold the two. -/
theorem members_roundTrip_mixed :
    (∃ l, (listWith (.obj [("items", .null), ("page", .str "1")])).withMembers mixed = .ok l ∧
      l.members? = some (.ok mixed) ∧ l.version = some "7" ∧
      l.data.field? "page" = some (.str "1")) ∧
    ∃ l, (listWith (.str "text")).withMembers mixed = .ok l ∧ l.members? = some (.ok mixed) ∧
      l.version = some "7" ∧ l.data.field? "page" = none := by
  have kind : isListKind "List" = true := by decide +kernel
  have holds (data : Json) : ∃ l, (listWith data).withMembers mixed = .ok l ∧
      l.members? = some (.ok mixed) ∧ l.version = some "7" ∧
      l.data.field? "page" = data.field? "page" := by
    obtain ⟨l, hput, -, hmembers, -, hmetadata, hdata⟩ :=
      members_roundTrip (c := listWith data) rfl kind apart_mixed read_mixed
    exact ⟨l, hput, hmembers.2 inSeconds_mixed, congrArg Metadata.resourceVersion hmetadata,
      hdata "page" (by decide)⟩
  exact ⟨holds _, holds _⟩

/-! ### A fraction of a second -/

def halfJson : Json := .obj
  [("creationTimestamp", .str "2024-01-01T00:00:00.5Z"), ("name", .str "a")]

/-- A config map that was created half a second into the year. -/
def half : Resource :=
  ⟨some ⟨"v1", "ConfigMap"⟩,
    { creationTimestamp := some ⟨2024, 1, 1, 0, 0, 0, 500000000⟩, name := some "a" }, .obj []⟩

theorem ofJson?_halfJson : Metadata.ofJson? halfJson = some half.metadata := by decide +kernel

/-- The config map is such as may be a member, but a list does not give it back: it gives back one
that was created at the beginning of the second. -/
theorem fraction_lost : half.Apart ∧ Metadata.ofJson? halfJson = some half.metadata ∧
    ∃ l, (listWith (.obj [])).withMembers [half] = .ok l ∧ l.members? = some (.ok [half.settled]) ∧
      half.settled.metadata.creationTimestamp = some ⟨2024, 1, 1, 0, 0, 0, 0⟩ ∧
      l.members? ≠ some (.ok [half]) := by
  have apart : half.Apart := ⟨[], rfl, .nil, fun _ _ => rfl⟩
  have legible := Metadata.legible_of_ofJson? ofJson?_halfJson
  obtain ⟨items, hwrite⟩ := exists_items (List.forall_mem_singleton.2 apart.exists_written)
  have hput := withMembers_of_written (listWith (.obj [])) hwrite
  have hmembers := members?_of_withMembers (t := ⟨"v1", "List"⟩) rfl (by decide +kernel)
    (List.forall_mem_singleton.2 apart) (List.forall_mem_singleton.2 legible.inRange) hput
  refine ⟨apart, ofJson?_halfJson, _, hput, hmembers, rfl, fun same => ?_⟩
  have unchanged := Except.ok.inj (Option.some.inj (hmembers.symm.trans same))
  have seconds := (settled_eq_self_iff legible).1 (List.head_eq_of_cons_eq unchanged)
  exact absurd (seconds.creationTimestamp _ rfl) (by decide)

end Rollout.Resource
