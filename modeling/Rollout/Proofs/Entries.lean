/-
  Entries are determined by what is found in them.

  Inserting and collecting keep the order of the keys (`ordered_insert`, `ordered_ofList`), and two
  ordered lists in which the same is found under every key are equal (`Ordered.ext`). So entries
  that were collected from pairs with different keys are the ones that hold these pairs, however
  they came about.
-/
import Mathlib.Data.String.Basic
import Rollout.Entries

namespace Rollout.Entries

variable {α : Type}

/-! ## Order -/

theorem ordered_nil : Ordered ([] : Entries α) := List.Pairwise.nil

theorem ordered_cons_iff {k : String} {v : α} {es : Entries α} :
    Ordered ((k, v) :: es) ↔ (∀ e ∈ es, k < e.1) ∧ Ordered es := List.pairwise_cons

theorem mem_insert {key : String} {value : α} {es : Entries α} {e : String × α}
    (h : e ∈ insert key value es) : e = (key, value) ∨ e ∈ es := by
  induction es with
  | nil => exact .inl (List.mem_singleton.1 h)
  | cons e' rest ih =>
    obtain ⟨k, v⟩ := e'
    unfold insert at h
    split at h
    · exact (List.mem_cons.1 h).imp_right (List.mem_cons_of_mem _)
    · split at h
      · exact List.mem_cons.1 h
      · rcases List.mem_cons.1 h with rfl | h
        · exact .inr List.mem_cons_self
        · exact (ih h).imp_right (List.mem_cons_of_mem _)

theorem ordered_insert {es : Entries α} (h : Ordered es) (key : String) (value : α) :
    Ordered (insert key value es) := by
  induction es with
  | nil => exact List.pairwise_singleton _ _
  | cons e rest ih =>
    obtain ⟨k, v⟩ := e
    obtain ⟨hk, hrest⟩ := ordered_cons_iff.1 h
    unfold insert
    split
    · next heq => exact ordered_cons_iff.2 ⟨heq ▸ hk, hrest⟩
    · next hne =>
      split
      · next hlt =>
        refine ordered_cons_iff.2 ⟨fun e he => ?_, h⟩
        rcases List.mem_cons.1 he with rfl | he
        · exact hlt
        · exact lt_trans hlt (hk e he)
      · next hle =>
        refine ordered_cons_iff.2 ⟨fun e he => ?_, ih hrest⟩
        rcases mem_insert he with rfl | he
        · exact lt_of_le_of_ne (not_lt.1 hle) hne
        · exact hk e he

theorem ordered_ofList (pairs : List (String × α)) : Ordered (ofList pairs) := by
  have collect (es : Entries α) (h : Ordered es) :
      Ordered (pairs.foldl (fun es p => insert p.1 p.2 es) es) := by
    induction pairs generalizing es with
    | nil => exact h
    | cons p rest ih => exact ih _ (ordered_insert h p.1 p.2)
  exact collect [] ordered_nil

/-- Of two values that are put under one key, the last one stays. -/
theorem insert_insert (key : String) (u v : α) (es : Entries α) :
    insert key v (insert key u es) = insert key v es := by
  induction es with
  | nil =>
    unfold insert
    exact if_pos rfl
  | cons e rest ih =>
    obtain ⟨k, x⟩ := e
    by_cases heq : k = key
    · simp [insert, heq]
    · by_cases hlt : key < k
      · simp [insert, heq, hlt]
      · simp [insert, heq, hlt, ih]

theorem insert_cons_self (key : String) (u v : α) (es : Entries α) :
    insert key v ((key, u) :: es) = (key, v) :: es := by
  rw [insert, if_pos rfl]

theorem insert_cons_of_lt {key k : String} (h : key < k) (v u : α) (es : Entries α) :
    insert key v ((k, u) :: es) = (key, v) :: (k, u) :: es := by
  rw [insert, if_neg (ne_of_gt h), if_pos h]

theorem insert_cons_of_gt {key k : String} (h : k < key) (v u : α) (es : Entries α) :
    insert key v ((k, u) :: es) = (k, u) :: insert key v es := by
  rw [insert, if_neg (ne_of_lt h), if_neg (not_lt_of_gt h)]

theorem insert_comm_of_lt {k l : String} (h : k < l) (u v : α) (es : Entries α) :
    insert k u (insert l v es) = insert l v (insert k u es) := by
  induction es with
  | nil => exact (insert_cons_of_lt h u v []).trans (insert_cons_of_gt h v u []).symm
  | cons e rest ih =>
    obtain ⟨m, x⟩ := e
    rcases lt_trichotomy m k with hm | rfl | hm
    · have hml := lt_trans hm h
      rw [insert_cons_of_gt hm, insert_cons_of_gt hml, insert_cons_of_gt hm, insert_cons_of_gt hml,
        ih]
    · rw [insert_cons_of_gt h, insert_cons_self, insert_cons_self, insert_cons_of_gt h]
    · rw [insert_cons_of_lt hm, insert_cons_of_gt h]
      -- Whichever of `l` and `m` comes first, `k` comes before it.
      rcases lt_trichotomy m l with hml | rfl | hml
      · rw [insert_cons_of_gt hml, insert_cons_of_lt hm]
      · rw [insert_cons_self, insert_cons_of_lt h]
      · rw [insert_cons_of_lt hml, insert_cons_of_lt h]

/-- Of values that are put under different keys it does not matter which comes first. -/
theorem insert_comm {k l : String} (h : k ≠ l) (u v : α) (es : Entries α) :
    insert k u (insert l v es) = insert l v (insert k u es) := by
  rcases lt_or_gt_of_ne h with hlt | hlt
  · exact insert_comm_of_lt hlt u v es
  · exact (insert_comm_of_lt hlt v u es).symm

/-! ## Finding -/

theorem find?_append (key : String) (es es' : List (String × α)) :
    find? key (es ++ es') = (find? key es).or (find? key es') := by
  induction es with
  | nil => rfl
  | cons e rest ih =>
    obtain ⟨k, v⟩ := e
    rw [List.cons_append, find?, find?]
    split
    · rfl
    · exact ih

theorem find?_eq_none_iff {key : String} {es : List (String × α)} :
    find? key es = none ↔ ∀ e ∈ es, e.1 ≠ key := by
  induction es with
  | nil => exact iff_of_true rfl (List.forall_mem_nil _)
  | cons e rest ih =>
    obtain ⟨k, v⟩ := e
    rw [find?, List.forall_mem_cons, ← ih]
    by_cases h : k = key
    · rw [if_pos h]
      exact iff_of_false (Option.some_ne_none v) fun h' => h'.1 h
    · rw [if_neg h]
      exact (and_iff_right h).symm

theorem find?_eq_none_of_lt {k : String} {es : Entries α} (h : ∀ e ∈ es, k < e.1) :
    find? k es = none := find?_eq_none_iff.2 fun e he => ne_of_gt (h e he)

/-- Ordered entries in which the same is found under every key are the same. -/
theorem Ordered.ext {es es' : Entries α} (h : Ordered es) (h' : Ordered es')
    (hfind : ∀ key, find? key es = find? key es') : es = es' := by
  -- The first key of either list is found in the other one, where it can only be the first one.
  induction es generalizing es' with
  | nil =>
    cases es' with
    | nil => rfl
    | cons e rest =>
      obtain ⟨k, v⟩ := e
      have := hfind k
      rw [find?_nil, find?, if_pos rfl] at this
      cases this
  | cons e rest ih =>
    obtain ⟨k, v⟩ := e
    obtain ⟨hk, hrest⟩ := ordered_cons_iff.1 h
    cases es' with
    | nil =>
      have := hfind k
      rw [find?_nil, find?, if_pos rfl] at this
      cases this
    | cons e' rest' =>
      obtain ⟨k', v'⟩ := e'
      obtain ⟨hk', hrest'⟩ := ordered_cons_iff.1 h'
      have first {k k' : String} {v v' : α} {rest rest' : Entries α} (hk' : ∀ e ∈ rest', k' < e.1)
          (hfind : find? k ((k, v) :: rest) = find? k ((k', v') :: rest')) : k' ≤ k := by
        by_contra hlt
        rw [not_le] at hlt
        rw [find?, if_pos rfl, find?, if_neg (ne_of_gt hlt),
          find?_eq_none_of_lt fun e he => lt_trans hlt (hk' e he)] at hfind
        cases hfind
      obtain rfl : k = k' := le_antisymm (first hk (hfind k').symm) (first hk' (hfind k))
      have hv := hfind k
      rw [find?, if_pos rfl, find?, if_pos rfl] at hv
      obtain rfl := Option.some.inj hv
      refine congrArg _ (ih hrest hrest' fun key => ?_)
      by_cases heq : k = key
      · rw [← heq, find?_eq_none_of_lt hk, find?_eq_none_of_lt hk']
      · have := hfind key
        rwa [find?, if_neg heq, find?, if_neg heq] at this

/-- Among pairs with different keys, what is collected under a key is what is found. -/
theorem find?_ofList {pairs : List (String × α)} (h : pairs.Pairwise fun p q => p.1 ≠ q.1)
    (key : String) : find? key (ofList pairs) = find? key pairs := by
  have collect (es : Entries α) : find? key (pairs.foldl (fun es p => insert p.1 p.2 es) es) =
      (find? key pairs).or (find? key es) := by
    induction pairs generalizing es with
    | nil => rfl
    | cons p rest ih =>
      obtain ⟨k, v⟩ := p
      obtain ⟨hne, hrest⟩ := List.pairwise_cons.1 h
      rw [List.foldl_cons, ih hrest, find?]
      by_cases heq : k = key
      · subst heq
        have missing : find? k rest = none := find?_eq_none_iff.2 fun e he => (hne e he).symm
        rw [if_pos rfl, missing, find?_insert_self]
        rfl
      · rw [if_neg heq, find?_insert_of_ne (Ne.symm heq)]
  rw [ofList, collect, find?_nil, Option.or_none]

theorem Ordered.pairwise_ne {es : Entries α} (h : Ordered es) :
    es.Pairwise fun p q => p.1 ≠ q.1 := h.imp fun hlt => ne_of_lt hlt

end Rollout.Entries
