/-
  What typed readers find.

  A member of an object is read as not set, or as a value of its type (`Json.optional_cases`). Who
  looks for it without minding its type then finds the same (`Json.find?_bind_of_optional`). A shape
  accepts no object but one whose known fields can be read with their types
  (`Shape.exists_optional`).
-/
import Rollout.Proofs.Metadata
import Rollout.Shape

namespace Rollout

/-! ## Typed members -/

namespace Json

variable {α β : Type}

/-- An object, by its members. -/
def recordOf (read : Entries Json → Option α) (j : Json) : Option α := j.obj?.bind read

/-- A 32-bit number that counts as zero when it is absent or `null`. -/
def int32OrZero (key : String) (members : Entries Json) : Option Int :=
  (optional key int32? members).map (·.getD 0)

/-- Who does not mind the type of a member finds what is read there. -/
theorem find?_bind_of_optional {key : String} {read : Json → Option α} {ms : Entries Json}
    {value : Option α} (h : optional key read ms = some value) {look : Json → Option β}
    {g : α → Option β} (hnull : look .null = none) (hlook : ∀ j a, read j = some a → look j = g a) :
    (Entries.find? key ms).bind look = value.bind g := by
  obtain ⟨hfind | hfind, rfl⟩ | ⟨j, a, hfind, -, hread, rfl⟩ := optional_cases h
  · rw [hfind]
    rfl
  · rw [hfind]
    exact hnull
  · rw [hfind]
    exact hlook j a hread

/-- As `find?_bind_of_optional`, if what is looked for is the very value that is read. -/
theorem find?_bind_eq_of_optional {key : String} {read look : Json → Option α} {ms : Entries Json}
    {value : Option α} (h : optional key read ms = some value) (hnull : look .null = none)
    (hlook : ∀ j a, read j = some a → look j = some a) :
    (Entries.find? key ms).bind look = value :=
  (find?_bind_of_optional h hnull hlook).trans (Option.bind_fun_some value)

/-- Something is so of one of the items if it is so of what is read from one of them. -/
theorem any_of_mapM {read : Json → Option α} {p : Json → Bool} {q : α → Bool}
    (hread : ∀ j a, read j = some a → p j = q a) {items : List Json} {as : List α}
    (h : items.mapM read = some as) : items.any p = as.any q := by
  induction items generalizing as with
  | nil =>
    obtain rfl := Option.some.inj h
    rfl
  | cons j items ih =>
    simp only [List.mapM_cons, Option.bind_eq_bind, Option.bind_eq_some_iff, Option.pure_def,
      Option.some.injEq] at h
    obtain ⟨a, ha, as, has, rfl⟩ := h
    rw [List.any_cons, List.any_cons, hread j a ha, ih has]

/-- Something is so of one of the items of a member if it is so of what is read from one of them. -/
theorem any_of_optional_listOf {key : String} {read : Json → Option α} {ms : Entries Json}
    {value : Option (List α)} (h : optional key (listOf read) ms = some value) {p : Json → Bool}
    {q : α → Bool} (hread : ∀ j a, read j = some a → p j = q a) :
    (((Entries.find? key ms).bind arr?).getD []).any p = (value.getD []).any q := by
  obtain ⟨hfind | hfind, rfl⟩ | ⟨j, as, hfind, -, has, rfl⟩ := optional_cases h
  · rw [hfind]
    rfl
  · rw [hfind]
    rfl
  · obtain ⟨items, hitems, has⟩ := Option.bind_eq_some_iff.1 has
    rw [hfind, Option.bind_some, hitems]
    exact any_of_mapM hread has

theorem recordOf_eq_some_iff {read : Entries Json → Option α} {j : Json} {a : α} :
    recordOf read j = some a ↔ ∃ ms, j = .obj ms ∧ read ms = some a := by
  cases j with
  | obj ms => exact ⟨fun h => ⟨ms, rfl, h⟩, fun ⟨_, heq, h⟩ => Json.obj.inj heq ▸ h⟩
  | _ => exact ⟨nofun, fun ⟨_, heq, _⟩ => nomatch heq⟩

theorem int?_of_int32? {j : Json} {n : Int} (h : int32? j = some n) : int? j = some n :=
  (Option.filter_eq_some_iff.1 h).1

end Json

/-! ## Shapes -/

namespace Shape

variable {α : Type} {fs : List (String × Shape)} {ms : Entries Json}

theorem acceptsFields_cons_iff {key : String} {s : Shape} :
    acceptsFields ((key, s) :: fs) ms = true ↔
      (∀ j, Entries.find? key ms = some j → j = .null ∨ s.accepts j = true) ∧
        acceptsFields fs ms = true := by
  rw [acceptsFields, Bool.and_eq_true]
  refine and_congr_left fun _ => ?_
  cases Entries.find? key ms with
  | none => exact ⟨fun _ => nofun, fun _ => rfl⟩
  | some j => cases j <;> simp

/-- A known field that is accepted is not set, or it has its shape. -/
theorem accepts_of_lookup {key : String} {s : Shape} (h : acceptsFields fs ms = true)
    (hs : fs.lookup key = some s) {j : Json} (hj : Entries.find? key ms = some j) :
    j = .null ∨ s.accepts j = true := by
  induction fs with
  | nil => cases hs
  | cons f fs ih =>
    obtain ⟨hf, hfs⟩ := acceptsFields_cons_iff.1 h
    rw [List.lookup_cons] at hs
    split at hs
    · next heq =>
      obtain rfl := eq_of_beq heq
      obtain rfl := Option.some.inj hs
      exact hf j hj
    · exact ih hfs hs

/-- What reads a shape reads a known field of this shape. -/
theorem exists_optional {key : String} {s : Shape} {read : Json → Option α}
    (h : acceptsFields fs ms = true) (hs : fs.lookup key = some s)
    (hread : ∀ j, s.accepts j = true → ∃ a, read j = some a) :
    ∃ value, Json.optional key read ms = some value := by
  unfold Json.optional
  split
  · exact ⟨none, rfl⟩
  · exact ⟨none, rfl⟩
  · next j hnull hj =>
    rcases accepts_of_lookup h hs hj with rfl | haccepts
    · exact absurd rfl hnull
    · obtain ⟨a, ha⟩ := hread j haccepts
      exact ⟨some a, by rw [ha, Option.map_some]⟩

theorem exists_int32 {j : Json} (h : accepts .int32 j = true) : ∃ n, j.int32? = some n := by
  rw [accepts] at h
  exact Option.isSome_iff_exists.1 h

theorem exists_recordOf {read : Entries Json → Option α}
    (hread : ∀ ms, acceptsFields fs ms = true → ∃ a, read ms = some a) {j : Json}
    (h : accepts (.record fs) j = true) : ∃ a, Json.recordOf read j = some a := by
  cases j with
  | obj ms =>
    rw [accepts] at h
    exact hread ms h
  | _ => simp [accepts] at h

theorem exists_listOf {s : Shape} {read : Json → Option α}
    (hread : ∀ j, s.accepts j = true → ∃ a, read j = some a) {j : Json}
    (h : accepts (.list s) j = true) : ∃ as, Json.listOf read j = some as := by
  cases j with
  | arr items =>
    rw [accepts, List.all_eq_true] at h
    exact Json.exists_mapM fun j hj => hread j (h j hj)
  | _ => simp [accepts] at h

theorem exists_int32OrZero {key : String} (h : acceptsFields fs ms = true)
    (hkey : fs.lookup key = some .int32) : ∃ n, Json.int32OrZero key ms = some n := by
  obtain ⟨value, hvalue⟩ := exists_optional h hkey fun _ => exists_int32
  exact ⟨_, congrArg (Option.map _) hvalue⟩

theorem exists_textOrEmpty {key : String} (h : acceptsFields fs ms = true)
    (hkey : fs.lookup key = some .text) : ∃ s, Json.textOrEmpty key ms = some s := by
  have read (j : Json) (hj : accepts .text j = true) : ∃ s, j.str? = some s := by
    rw [accepts] at hj
    exact Option.isSome_iff_exists.1 hj
  obtain ⟨value, hvalue⟩ := exists_optional h hkey read
  exact ⟨_, congrArg (Option.map _) hvalue⟩

end Shape

end Rollout
