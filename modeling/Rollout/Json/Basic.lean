/-
  JSON values.

  Numbers are whole numbers or doubles and the two never mix: `1` and `1.0` are different
  values. Objects keep their members as entries, in the order of the keys.
-/
import Rollout.Binary64
import Rollout.Entries

namespace Rollout

/-- A JSON number as data carries it. -/
inductive Number where
  | whole (n : Int)
  | real (x : Binary64)
deriving DecidableEq, Repr

/-- Numeric equality within each sort of number; the two zeros of the doubles are equal. -/
def Number.same : Number → Number → Bool
  | .whole a, .whole b => a == b
  | .real a, .real b => a.same b
  | _, _ => false

/-- A JSON value. -/
inductive Json where
  | null
  | bool (b : Bool)
  | num (n : Number)
  | str (s : String)
  | arr (items : List Json)
  | obj (members : List (String × Json))
deriving Repr, Inhabited

namespace Json

/-! ## Equality -/

mutual

/-- Structural equality of values, decided. -/
def decEq : (a b : Json) → Decidable (a = b)
  | .null, .null => isTrue rfl
  | .bool a, .bool b => if h : a = b then isTrue (by rw [h]) else isFalse (by simp [h])
  | .num a, .num b => if h : a = b then isTrue (by rw [h]) else isFalse (by simp [h])
  | .str a, .str b => if h : a = b then isTrue (by rw [h]) else isFalse (by simp [h])
  | .arr a, .arr b =>
    match decEqItems a b with
    | isTrue h => isTrue (by rw [h])
    | isFalse h => isFalse (by simpa using h)
  | .obj a, .obj b =>
    match decEqMembers a b with
    | isTrue h => isTrue (by rw [h])
    | isFalse h => isFalse (by simpa using h)
  | .null, .bool _ | .null, .num _ | .null, .str _ | .null, .arr _ | .null, .obj _
  | .bool _, .null | .bool _, .num _ | .bool _, .str _ | .bool _, .arr _ | .bool _, .obj _
  | .num _, .null | .num _, .bool _ | .num _, .str _ | .num _, .arr _ | .num _, .obj _
  | .str _, .null | .str _, .bool _ | .str _, .num _ | .str _, .arr _ | .str _, .obj _
  | .arr _, .null | .arr _, .bool _ | .arr _, .num _ | .arr _, .str _ | .arr _, .obj _
  | .obj _, .null | .obj _, .bool _ | .obj _, .num _ | .obj _, .str _ | .obj _, .arr _ =>
    isFalse (by simp)

def decEqItems : (a b : List Json) → Decidable (a = b)
  | [], [] => isTrue rfl
  | [], _ :: _ | _ :: _, [] => isFalse (by simp)
  | x :: xs, y :: ys =>
    match decEq x y, decEqItems xs ys with
    | isTrue h, isTrue h' => isTrue (by rw [h, h'])
    | isFalse h, _ => isFalse (by simp [h])
    | _, isFalse h => isFalse (by simp [h])

def decEqMembers : (a b : List (String × Json)) → Decidable (a = b)
  | [], [] => isTrue rfl
  | [], _ :: _ | _ :: _, [] => isFalse (by simp)
  | (k, x) :: xs, (l, y) :: ys =>
    if hk : k = l then
      match decEq x y, decEqMembers xs ys with
      | isTrue h, isTrue h' => isTrue (by rw [hk, h, h'])
      | isFalse h, _ => isFalse (by simp [h])
      | _, isFalse h => isFalse (by simp [h])
    else isFalse (by simp [hk])

end

instance : DecidableEq Json := decEq

mutual

/-- Equality of values as data compares them: numbers by `Number.same`. -/
def same : Json → Json → Bool
  | .null, .null => true
  | .bool a, .bool b => a == b
  | .num a, .num b => a.same b
  | .str a, .str b => a == b
  | .arr a, .arr b => sameItems a b
  | .obj a, .obj b => sameMembers a b
  | _, _ => false

def sameItems : List Json → List Json → Bool
  | [], [] => true
  | x :: xs, y :: ys => same x y && sameItems xs ys
  | _, _ => false

def sameMembers : List (String × Json) → List (String × Json) → Bool
  | [], [] => true
  | (k, x) :: xs, (l, y) :: ys => k == l && same x y && sameMembers xs ys
  | _, _ => false

end

/-! ## Nesting -/

mutual

/-- How deep arrays and objects are nested. -/
def depth : Json → Nat
  | .arr items => depthOfItems items + 1
  | .obj members => depthOfMembers members + 1
  | _ => 0

def depthOfItems : List Json → Nat
  | [] => 0
  | j :: js => max j.depth (depthOfItems js)

def depthOfMembers : List (String × Json) → Nat
  | [] => 0
  | (_, j) :: ms => max j.depth (depthOfMembers ms)

end

theorem depth_le_depthOfItems {j : Json} {items : List Json} (h : j ∈ items) :
    j.depth ≤ depthOfItems items := by
  induction items with
  | nil => simp at h
  | cons x xs ih =>
    rw [depthOfItems]
    rcases List.mem_cons.1 h with rfl | h
    · exact Nat.le_max_left _ _
    · exact Nat.le_trans (ih h) (Nat.le_max_right _ _)

theorem depth_le_depthOfMembers {k : String} {j : Json} {members : Entries Json}
    (h : (k, j) ∈ members) : j.depth ≤ depthOfMembers members := by
  induction members with
  | nil => simp at h
  | cons m ms ih =>
    obtain ⟨l, x⟩ := m
    rw [depthOfMembers]
    rcases List.mem_cons.1 h with h | h
    · obtain ⟨-, rfl⟩ := Prod.mk.injEq .. ▸ h
      exact Nat.le_max_left _ _
    · exact Nat.le_trans (ih h) (Nat.le_max_right _ _)

theorem depthOfMembers_le {members : Entries Json} {n : Nat}
    (h : ∀ k j, (k, j) ∈ members → j.depth ≤ n) : depthOfMembers members ≤ n := by
  induction members with
  | nil => simp [depthOfMembers]
  | cons m ms ih =>
    obtain ⟨l, x⟩ := m
    rw [depthOfMembers]
    exact Nat.max_le.2 ⟨h l x (by simp), ih fun k j hm => h k j (List.mem_cons_of_mem _ hm)⟩

theorem depthOfMembers_erase_le (key : String) (members : Entries Json) :
    depthOfMembers (members.erase key) ≤ depthOfMembers members :=
  depthOfMembers_le fun _ _ h => depth_le_depthOfMembers (Entries.mem_of_mem_erase h)

/-! ## Access -/

/-- The member of an object under `key`. -/
def field? (key : String) : Json → Option Json
  | .obj members => Entries.find? key members
  | _ => none

def str? : Json → Option String
  | .str s => some s
  | _ => none

def bool? : Json → Option Bool
  | .bool b => some b
  | _ => none

def arr? : Json → Option (List Json)
  | .arr items => some items
  | _ => none

def obj? : Json → Option (Entries Json)
  | .obj members => some members
  | _ => none

/-- A whole number. -/
def int? : Json → Option Int
  | .num (.whole n) => some n
  | _ => none

/-- A whole number from `low` to `high`. -/
def intWithin? (low high : Int) (j : Json) : Option Int :=
  j.int?.filter fun n => low ≤ n && n ≤ high

def int32? : Json → Option Int := intWithin? (-2147483648) 2147483647

def int64? : Json → Option Int := intWithin? (-9223372036854775808) 9223372036854775807

/-- The value that a JSON pointer names, `none` for a pointer that leads nowhere. Array positions
are decimal without leading zeros. -/
def pointer? (path : String) (value : Json) : Option Json :=
  if path = "" then some value
  else
    match (path.splitOn "/") with
    | "" :: steps => steps.foldlM step value
    | _ => none
where
  unescape (s : String) : String := (s.replace "~1" "/").replace "~0" "~"
  index? (s : String) : Option Nat :=
    if s = "0" then some 0
    else
      match s.toList with
      | [] | '0' :: _ => none
      | cs => if cs.all Char.isDigit then s.toNat? else none
  step (value : Json) (token : String) : Option Json :=
    match value with
    | .obj members => Entries.find? (unescape token) members
    | .arr items => (index? (unescape token)).bind (items[·]?)
    | _ => none

/-- An object with `members`, given in any order. -/
def object (members : List (String × Json)) : Json := .obj (Entries.ofList members)

def ofNat (n : Nat) : Json := .num (.whole n)

/-- An optional member: present when there is a value. -/
def member? (key : String) (value : Option Json) : List (String × Json) :=
  match value with
  | some v => [(key, v)]
  | none => []

/-- `null` for an absent value. -/
def orNull : Option Json → Json
  | some v => v
  | none => .null

end Json

end Rollout
