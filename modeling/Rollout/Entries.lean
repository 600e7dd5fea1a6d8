/-
  Entries: values under text keys, kept in the order of the keys, each key once.

  Labels, annotations and the members of JSON objects are entries. `Ordered` is the invariant;
  `insert` keeps it, and the `lookup` lemmas say what each operation does to the value found
  under a key.
-/
namespace Rollout

/-- Values under text keys, in the order of the keys. -/
abbrev Entries (α : Type) := List (String × α)

namespace Entries

variable {α : Type}

/-- The keys are strictly increasing. -/
def Ordered (es : Entries α) : Prop := es.Pairwise fun a b => a.1 < b.1

/-- The value under `key`. -/
def find? (key : String) : Entries α → Option α
  | [] => none
  | (k, v) :: rest => if k = key then some v else find? key rest

/-- Puts `value` under `key`, replacing a value that is there. -/
def insert (key : String) (value : α) : Entries α → Entries α
  | [] => [(key, value)]
  | (k, v) :: rest =>
    if k = key then (key, value) :: rest
    else if key < k then (key, value) :: (k, v) :: rest
    else (k, v) :: insert key value rest

/-- Drops the value under `key`. -/
def erase (key : String) (es : Entries α) : Entries α := es.filter fun e => e.1 != key

/-- Entries from pairs in any order; of equal keys the last counts. -/
def ofList (pairs : List (String × α)) : Entries α :=
  pairs.foldl (fun es p => insert p.1 p.2 es) []

@[simp] theorem find?_nil (key : String) : find? key ([] : Entries α) = none := rfl

theorem find?_insert_self (key : String) (value : α) (es : Entries α) :
    find? key (insert key value es) = some value := by
  induction es with
  | nil => simp [insert, find?]
  | cons e rest ih =>
    obtain ⟨k, v⟩ := e
    by_cases h : k = key
    · simp [insert, find?, h]
    · by_cases h' : key < k <;> simp [insert, find?, h, h', ih]

theorem find?_insert_of_ne {key other : String} (h : other ≠ key) (value : α) (es : Entries α) :
    find? other (insert key value es) = find? other es := by
  induction es with
  | nil => simp [insert, find?, Ne.symm h]
  | cons e rest ih =>
    obtain ⟨k, v⟩ := e
    by_cases hk : k = key
    · subst hk; simp [insert, find?, Ne.symm h]
    · by_cases h' : key < k
      · simp [insert, find?, hk, h', Ne.symm h]
      · simp only [insert, if_neg hk, if_neg h', find?, ih]

theorem find?_erase_self (key : String) (es : Entries α) : find? key (erase key es) = none := by
  induction es with
  | nil => rfl
  | cons e rest ih =>
    obtain ⟨k, v⟩ := e
    by_cases h : k = key
    · simpa [erase, h] using ih
    · have : erase key ((k, v) :: rest) = (k, v) :: erase key rest := by simp [erase, h]
      rw [this]; simp [find?, h, ih]

theorem find?_erase_of_ne {key other : String} (h : other ≠ key) (es : Entries α) :
    find? other (erase key es) = find? other es := by
  induction es with
  | nil => rfl
  | cons e rest ih =>
    obtain ⟨k, v⟩ := e
    by_cases hk : k = key
    · have : erase key ((k, v) :: rest) = erase key rest := by simp [erase, hk]
      rw [this, ih]; subst hk; simp [find?, Ne.symm h]
    · have : erase key ((k, v) :: rest) = (k, v) :: erase key rest := by simp [erase, hk]
      rw [this]; by_cases ho : k = other <;> simp [find?, ho, ih]

theorem mem_of_mem_erase {key : String} {e : String × α} {es : Entries α} (h : e ∈ erase key es) :
    e ∈ es := (List.mem_filter.1 h).1

theorem mem_of_find? {key : String} {value : α} {es : Entries α} (h : find? key es = some value) :
    (key, value) ∈ es := by
  induction es with
  | nil => simp at h
  | cons e rest ih =>
    obtain ⟨k, v⟩ := e
    by_cases hk : k = key
    · subst hk; simp [find?] at h; simp [h]
    · simp [find?, hk] at h; exact List.mem_cons_of_mem _ (ih h)

theorem ordered_erase {key : String} {es : Entries α} (h : Ordered es) : Ordered (erase key es) :=
  List.Pairwise.filter _ h

end Entries

end Rollout
