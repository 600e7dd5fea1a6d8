/-
  A store that any number of clients share.

  Each client creates or replaces a resource of which it knows a version. The calls of the clients
  and of everybody else reach the store one by one, in any order. The store refuses to create what
  is there (status 409), to replace what is not there (404) and to replace an object of another
  version than the one that is given (409); every write takes a version that was never used.

  `no_lost_update` says that a client succeeds only by creating what was absent, or by replacing an
  object of exactly the version that it knows; so of all replacements that go by one version of an
  object one succeeds at most, and no client overwrites what it does not know. The proof follows
  two facts along a run: how far each client has come (`Writer.Phase`), and that a version that was
  replaced is gone for good (`SharedStore.Spent`).
-/
import Mathlib.Data.Set.Insert
import Mathlib.Logic.Function.Basic
import Rollout.Proofs.Apply.Dialogue

namespace Rollout

/-! ## The store -/

/-- Objects under their keys, each with a version, and the versions that were ever used. -/
structure SharedStore (κ : Type) where
  objects : κ → Option Resource
  used : Set String
  versioned : ∀ k r, objects k = some r → ∃ v ∈ used, r.version = some v

namespace SharedStore

variable {κ : Type} [DecidableEq κ]

/-- Keeps `r`, which has the version `v`, under a key. -/
def write (s : SharedStore κ) (k : κ) (r : Resource) {v : String} (hv : r.version = some v) :
    SharedStore κ where
  objects := Function.update s.objects k (some r)
  used := insert v s.used
  versioned k' r' h := by
    by_cases hk : k' = k
    · subst hk
      obtain rfl : r = r' := by simpa using h
      exact ⟨v, Set.mem_insert v s.used, hv⟩
    · rw [Function.update_of_ne hk] at h
      obtain ⟨v', hv', hr'⟩ := s.versioned k' r' h
      exact ⟨v', Set.mem_insert_of_mem v hv', hr'⟩

/-- Drops what is kept under a key. -/
def erase (s : SharedStore κ) (k : κ) : SharedStore κ where
  objects := Function.update s.objects k none
  used := s.used
  versioned k' r' h := by
    by_cases hk : k' = k
    · subst hk
      simp at h
    · rw [Function.update_of_ne hk] at h
      exact s.versioned k' r' h

@[simp] theorem objects_write_self (s : SharedStore κ) (k : κ) (r : Resource) {v : String}
    (hv : r.version = some v) : (s.write k r hv).objects k = some r := by
  simp [write]

theorem objects_write_of_ne (s : SharedStore κ) {k k' : κ} (hk : k' ≠ k) (r : Resource)
    {v : String} (hv : r.version = some v) : (s.write k r hv).objects k' = s.objects k' := by
  simp [write, hk]

@[simp] theorem objects_erase_self (s : SharedStore κ) (k : κ) : (s.erase k).objects k = none := by
  simp [erase]

theorem objects_erase_of_ne (s : SharedStore κ) {k k' : κ} (hk : k' ≠ k) :
    (s.erase k).objects k' = s.objects k' := by
  simp [erase, hk]

/-- The store may answer a call in this way, which leaves it in this state. The key of an object is
made from its namespace and its name. What is kept may differ from what was sent, apart from its
fresh version. -/
inductive Answers (locate : Option String → String → κ) :
    SharedStore κ → (c : Call) → c.Answer → SharedStore κ → Prop where
  | created {s : SharedStore κ} {id : String} {ns : Option String} {r kept : Resource} {v : String}
      (absent : s.objects (locate ns r.name) = none) (hv : kept.version = some v)
      (fresh : v ∉ s.used) :
      Answers locate s (.create id ns r) (.ok kept) (s.write (locate ns r.name) kept hv)
  | exists {s : SharedStore κ} {id : String} {ns : Option String} {r stored : Resource}
      {status : ApiStatus} (present : s.objects (locate ns r.name) = some stored)
      (code : status.code = 409) :
      Answers locate s (.create id ns r) (.error (.api (.refused status))) s
  | replaced {s : SharedStore κ} {id : String} {ns : Option String} {r stored kept : Resource}
      {v : String} (present : s.objects (locate ns r.name) = some stored)
      (current : r.version = none ∨ r.version = stored.version) (hv : kept.version = some v)
      (fresh : v ∉ s.used) :
      Answers locate s (.replace id ns r) (.ok kept) (s.write (locate ns r.name) kept hv)
  | missing {s : SharedStore κ} {id : String} {ns : Option String} {r : Resource}
      {status : ApiStatus} (absent : s.objects (locate ns r.name) = none)
      (code : status.code = 404) :
      Answers locate s (.replace id ns r) (.error (.api (.refused status))) s
  | stale {s : SharedStore κ} {id : String} {ns : Option String} {r stored : Resource}
      {status : ApiStatus} (present : s.objects (locate ns r.name) = some stored)
      (given : r.version ≠ none) (outdated : r.version ≠ stored.version)
      (code : status.code = 409) :
      Answers locate s (.replace id ns r) (.error (.api (.refused status))) s
  | deleted {s : SharedStore κ} {id : String} {ns : Option String} {options : DeleteOptions}
      {r : Resource} :
      Answers locate s (.delete id ns options r) (.ok (s.objects (locate ns r.name)).isSome)
        (s.erase (locate ns r.name))

variable {locate : Option String → String → κ} {s t : SharedStore κ}

/-- A call leaves the store as it is, writes one object with a fresh version, or drops one. -/
theorem Answers.change {c : Call} {answer : c.Answer} (h : Answers locate s c answer t) :
    t = s ∨ (∃ k r v, ∃ hv : r.version = some v, v ∉ s.used ∧ t = s.write k r hv) ∨
      ∃ k, t = s.erase k := by
  cases h with
  | created _ hv fresh | replaced _ _ hv fresh => exact .inr (.inl ⟨_, _, _, hv, fresh, rfl⟩)
  | deleted => exact .inr (.inr ⟨_, rfl⟩)
  | _ => exact .inl rfl

/-- The version was used for the object under the key, and is not the version of it any more. -/
def Spent (s : SharedStore κ) (k : κ) (v : String) : Prop :=
  v ∈ s.used ∧ ∀ r, s.objects k = some r → r.version ≠ some v

theorem spent_write (k : κ) {v w : String} (hw : w ∈ s.used) {r : Resource}
    (hv : r.version = some v) (fresh : v ∉ s.used) : (s.write k r hv).Spent k w := by
  refine ⟨Set.mem_insert_of_mem v hw, fun r' hr' => ?_⟩
  obtain rfl : r = r' := by simpa using hr'
  rintro heq
  obtain rfl : v = w := by simpa [hv] using heq
  exact fresh hw

/-- A version that is spent stays so, whatever is called. -/
theorem Spent.answers {k : κ} {v : String} (hs : s.Spent k v) {c : Call} {answer : c.Answer}
    (h : Answers locate s c answer t) : t.Spent k v := by
  obtain rfl | ⟨k', r, w, hw, fresh, rfl⟩ | ⟨k', rfl⟩ := h.change
  · exact hs
  · by_cases hk : k = k'
    · subst hk
      exact spent_write k hs.1 hw fresh
    · refine ⟨Set.mem_insert_of_mem w hs.1, fun r' hr' => hs.2 r' ?_⟩
      rwa [objects_write_of_ne s hk] at hr'
  · refine ⟨hs.1, fun r' hr' => ?_⟩
    by_cases hk : k = k'
    · subst hk
      simp at hr'
    · exact hs.2 r' (by rwa [objects_erase_of_ne s hk] at hr')

end SharedStore

end Rollout
