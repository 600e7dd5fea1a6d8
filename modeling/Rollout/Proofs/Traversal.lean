/-
  Traversals: what `mapM` comes to when each step may fail.

  A traversal succeeds if every step does, with one result per step, in order. It fails with the
  first failure (`mapM_eq_error_iff`).
-/

namespace Rollout

variable {ε β γ : Type}

/-- `f` fails with `e` for the first of these values for which it fails at all. -/
def FailsFirst (f : β → Except ε γ) (xs : List β) (e : ε) : Prop :=
  ∃ before x after, xs = before ++ x :: after ∧ (∀ y ∈ before, ∃ z, f y = .ok z) ∧ f x = .error e

theorem mapM_eq_ok_cons_iff {f : β → Except ε γ} {x : β} {xs : List β} {zs : List γ} :
    (x :: xs).mapM f = .ok zs ↔ ∃ y ys, f x = .ok y ∧ xs.mapM f = .ok ys ∧ zs = y :: ys := by
  rw [List.mapM_cons]
  cases f x with
  | error e => exact ⟨fun h => (by cases h), fun ⟨_, _, h, _⟩ => (by cases h)⟩
  | ok y =>
    cases hxs : xs.mapM f with
    | error e => exact ⟨fun h => (by cases h), fun ⟨_, _, _, h, _⟩ => (by cases h)⟩
    | ok ys =>
      refine ⟨fun h => ⟨y, ys, rfl, rfl, (Except.ok.inj h).symm⟩, ?_⟩
      rintro ⟨_, _, h, h', rfl⟩
      obtain rfl := Except.ok.inj h
      obtain rfl := Except.ok.inj h'
      rfl

theorem mapM_congr {m : Type → Type} [Monad m] [LawfulMonad m] {f g : β → m γ} {xs : List β}
    (h : ∀ x ∈ xs, f x = g x) : xs.mapM f = xs.mapM g := by
  induction xs with
  | nil => rfl
  | cons x xs ih =>
    obtain ⟨hx, hxs⟩ := List.forall_mem_cons.1 h
    rw [List.mapM_cons, List.mapM_cons, hx, ih hxs]

theorem exists_mapM_eq_ok {f : β → Except ε γ} {xs : List β} (h : ∀ x ∈ xs, ∃ y, f x = .ok y) :
    ∃ ys, xs.mapM f = .ok ys := by
  induction xs with
  | nil => exact ⟨[], rfl⟩
  | cons x xs ih =>
    obtain ⟨y, hy⟩ := h x List.mem_cons_self
    obtain ⟨ys, hys⟩ := ih fun x hx => h x (List.mem_cons_of_mem _ hx)
    exact ⟨y :: ys, mapM_eq_ok_cons_iff.2 ⟨y, ys, hy, hys, rfl⟩⟩

theorem getElem?_of_mapM_eq_ok {f : β → Except ε γ} {xs : List β} {ys : List γ}
    (h : xs.mapM f = .ok ys) {i : Nat} (hi : i < xs.length) :
    ∃ y, ys[i]? = some y ∧ f xs[i] = .ok y := by
  induction xs generalizing ys i with
  | nil => cases hi
  | cons x xs ih =>
    obtain ⟨y, ys, hy, hys, rfl⟩ := mapM_eq_ok_cons_iff.1 h
    cases i with
    | zero => exact ⟨y, rfl, hy⟩
    | succ i => exact ih hys (Nat.lt_of_succ_lt_succ hi)

theorem exists_of_mapM_eq_ok {f : β → Except ε γ} {xs : List β} {ys : List γ}
    (h : xs.mapM f = .ok ys) {x : β} (hx : x ∈ xs) : ∃ y, f x = .ok y := by
  obtain ⟨i, hi, rfl⟩ := List.getElem_of_mem hx
  exact (getElem?_of_mapM_eq_ok h hi).imp fun _ hy => hy.2

theorem exists_of_mem_of_mapM_eq_ok {f : β → Except ε γ} {xs : List β} {ys : List γ}
    (h : xs.mapM f = .ok ys) {y : γ} (hy : y ∈ ys) : ∃ x ∈ xs, f x = .ok y := by
  induction xs generalizing ys with
  | nil =>
    obtain rfl := Except.ok.inj h
    cases hy
  | cons x xs ih =>
    obtain ⟨y', ys, hx, hxs, rfl⟩ := mapM_eq_ok_cons_iff.1 h
    rcases List.mem_cons.1 hy with rfl | hy
    · exact ⟨x, List.mem_cons_self, hx⟩
    · obtain ⟨x', hx', hy'⟩ := ih hxs hy
      exact ⟨x', List.mem_cons_of_mem _ hx', hy'⟩

/-- A result beside a value is what the step came to for it. -/
theorem of_mem_zip_of_mapM_eq_ok {f : β → Except ε γ} {xs : List β} {ys : List γ}
    (h : xs.mapM f = .ok ys) {x : β} {y : γ} (hmem : (y, x) ∈ ys.zip xs) : f x = .ok y := by
  obtain ⟨i, hget⟩ := List.mem_iff_getElem?.1 hmem
  obtain ⟨hy, hx⟩ := List.getElem?_zip_eq_some.1 hget
  obtain ⟨hi, rfl⟩ := List.getElem?_eq_some_iff.1 hx
  obtain ⟨y', hy', hstep⟩ := getElem?_of_mapM_eq_ok h hi
  obtain rfl := Option.some.inj (hy.symm.trans hy')
  exact hstep

theorem length_of_mapM_eq_ok {f : β → Except ε γ} {xs : List β} {ys : List γ}
    (h : xs.mapM f = .ok ys) : ys.length = xs.length := by
  induction xs generalizing ys with
  | nil =>
    obtain rfl := Except.ok.inj h
    rfl
  | cons x xs ih =>
    obtain ⟨y, ys, -, hys, rfl⟩ := mapM_eq_ok_cons_iff.1 h
    exact congrArg (· + 1) (ih hys)

/-- What holds of all results holds of what each step came to. -/
theorem all_iff_of_mapM_eq_ok {f : β → Except ε γ} {xs : List β} {ys : List γ} {q : γ → Bool}
    (h : xs.mapM f = .ok ys) : ys.all q = true ↔ ∀ x ∈ xs, ∃ y, f x = .ok y ∧ q y = true := by
  rw [List.all_eq_true]
  constructor
  · intro hall x hx
    obtain ⟨i, hi, rfl⟩ := List.getElem_of_mem hx
    obtain ⟨y, hy, hstep⟩ := getElem?_of_mapM_eq_ok h hi
    exact ⟨y, hstep, hall y (List.mem_of_getElem? hy)⟩
  · intro hall y hy
    obtain ⟨x, hx, hstep⟩ := exists_of_mem_of_mapM_eq_ok h hy
    obtain ⟨y', hstep', hq⟩ := hall x hx
    obtain rfl := Except.ok.inj (hstep.symm.trans hstep')
    exact hq

theorem mapM_eq_error_cons_iff {f : β → Except ε γ} {x : β} {xs : List β} {e : ε} :
    (x :: xs).mapM f = .error e ↔
      f x = .error e ∨ ∃ y, f x = .ok y ∧ xs.mapM f = .error e := by
  rw [List.mapM_cons]
  cases f x with
  | error e' =>
    constructor
    · intro h
      exact .inl (congrArg _ (Except.error.inj h))
    · rintro (h | ⟨_, h, _⟩)
      · exact congrArg _ (Except.error.inj h)
      · cases h
  | ok y =>
    cases hxs : xs.mapM f with
    | error e' =>
      refine ⟨fun h => .inr ⟨y, rfl, h⟩, ?_⟩
      rintro (h | ⟨_, _, h⟩)
      · cases h
      · exact h
    | ok ys =>
      refine ⟨fun h => (by cases h), ?_⟩
      rintro (h | ⟨_, _, h⟩) <;> cases h

theorem not_failsFirst_nil {f : β → Except ε γ} {e : ε} : ¬ FailsFirst f [] e := by
  rintro ⟨before, x, after, h, -⟩
  exact List.append_ne_nil_of_right_ne_nil before (List.cons_ne_nil x after) h.symm

theorem failsFirst_cons_iff {f : β → Except ε γ} {x : β} {xs : List β} {e : ε} :
    FailsFirst f (x :: xs) e ↔ f x = .error e ∨ ∃ y, f x = .ok y ∧ FailsFirst f xs e := by
  constructor
  · rintro ⟨before, z, after, h, hbefore, hz⟩
    cases before with
    | nil =>
      obtain ⟨rfl, rfl⟩ := List.cons.inj h
      exact .inl hz
    | cons x' before =>
      obtain ⟨rfl, rfl⟩ := List.cons.inj h
      obtain ⟨hx, hbefore⟩ := List.forall_mem_cons.1 hbefore
      obtain ⟨y, hy⟩ := hx
      exact .inr ⟨y, hy, before, z, after, rfl, hbefore, hz⟩
  · rintro (hx | ⟨y, hy, before, z, after, rfl, hbefore, hz⟩)
    · exact ⟨[], x, xs, rfl, List.forall_mem_nil _, hx⟩
    · exact ⟨x :: before, z, after, rfl, List.forall_mem_cons.2 ⟨⟨y, hy⟩, hbefore⟩, hz⟩

theorem mapM_eq_error_iff {f : β → Except ε γ} {xs : List β} {e : ε} :
    xs.mapM f = .error e ↔ FailsFirst f xs e := by
  induction xs with
  | nil => exact ⟨fun h => (by cases h), fun h => absurd h not_failsFirst_nil⟩
  | cons x xs ih => rw [mapM_eq_error_cons_iff, failsFirst_cons_iff, ih]

/-- What fails for one of these values fails for a first one. -/
theorem exists_failsFirst {f : β → Except ε γ} {xs : List β} (h : ∃ x ∈ xs, ∃ e, f x = .error e) :
    ∃ e, FailsFirst f xs e := by
  obtain ⟨x, hx, e, he⟩ := h
  cases hxs : xs.mapM f with
  | error e' => exact ⟨e', mapM_eq_error_iff.1 hxs⟩
  | ok ys =>
    obtain ⟨y, hy⟩ := exists_of_mapM_eq_ok hxs hx
    cases he.symm.trans hy

end Rollout
