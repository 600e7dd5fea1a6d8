/-
  The text of a point in time is read as the second that this is in.

  The fields are written with their full width, so each is read back up to the mark behind it. Only
  a year beyond four digits is longer; its sign tells that all its digits are to be read. Whatever
  text a point in time was read from, the calendar has it (`isValid_of_parse?`), so writing what was
  read and reading it again loses the fraction of the second (`toSecond`) and nothing else.
-/
import Rollout.Timestamp

namespace Rollout

/-! ## Blanks -/

namespace Text

theorem isBlank_of_isDigit {c : Char} (h : c.isDigit = true) : isBlank c = false := by
  have h₁ : 48 ≤ c.toNat ∧ c.toNat ≤ 57 := by
    simp only [Char.isDigit, Bool.and_eq_true, decide_eq_true_eq, ge_iff_le,
      UInt32.le_iff_toNat_le] at h
    exact h
  simp only [isBlank, Bool.or_eq_false_iff, Bool.and_eq_false_iff, decide_eq_false_iff_not]
  omega

theorem skipBlank_cons {c : Char} (h : isBlank c = false) (s : List Char) :
    skipBlank (c :: s) = c :: s := by
  rw [skipBlank, List.dropWhile_cons_of_neg (Bool.eq_false_iff.1 h)]

end Text

namespace Timestamp

open Text

/-! ## Digits -/

theorem isDigit_of_mem_padded {width n : Nat} {c : Char} (h : c ∈ padded width n) :
    c.isDigit = true := by
  rcases List.mem_append.1 h with h | h
  · rw [List.eq_of_mem_replicate h]
    rfl
  · exact Nat.isDigit_of_mem_toDigits (by decide) (by decide) h

theorem length_padded {width n : Nat} (h : (Nat.toDigits 10 n).length ≤ width) :
    (padded width n).length = width := by
  rw [padded, List.length_append, List.length_replicate]
  omega

theorem padded_ne_nil (width n : Nat) : padded width n ≠ [] :=
  List.append_ne_nil_of_right_ne_nil _ Nat.toDigits_ne_nil

theorem foldl_padded (width n : Nat) :
    (padded width n).foldl (fun n c => n * 10 + (c.toNat - '0'.toNat)) 0 = n := by
  have value : Nat.ofDigitChars 10 (padded width n) 0 = n := by
    rw [padded, Nat.ofDigitChars_append, Nat.ofDigitChars_replicate_zero, Nat.mul_zero,
      Nat.ofDigitChars_ten_toDigits]
  rw [Nat.ofDigitChars_eq_foldl] at value
  simpa only [Nat.mul_comm 10] using value

/-- Digits are read as far as they are allowed to go, or as far as they go. -/
theorem readNat_padded {width n limit : Nat} {rest : List Char}
    (h : (padded width n).length = limit ∨
      (padded width n).length ≤ limit ∧ ∀ c ∈ rest.head?, c.isDigit = false) :
    readNat limit (padded width n ++ rest) = some (n, rest) := by
  have digits : ∀ c ∈ padded width n, c.isDigit = true := fun c => isDigit_of_mem_padded
  have stops {l : List Char} (hl : ∀ c ∈ l.head?, c.isDigit = false) :
      l.takeWhile Char.isDigit = [] := by
    cases l with
    | nil => rfl
    | cons c l => exact List.takeWhile_cons_of_neg (Bool.eq_false_iff.1 (hl c rfl))
  have taken : ((padded width n ++ rest).take limit).takeWhile Char.isDigit = padded width n := by
    rw [List.take_append, List.take_of_length_le (by omega), List.takeWhile_append_of_pos digits,
      stops, List.append_nil]
    intro c hc
    rcases h with rfl | ⟨hle, hrest⟩
    · rw [Nat.sub_self] at hc
      cases hc
    · cases hk : limit - (padded width n).length with
      | zero =>
        rw [hk] at hc
        cases hc
      | succ k =>
        rw [hk, List.head?_take, if_neg (Nat.succ_ne_zero k)] at hc
        exact hrest c hc
  unfold readNat
  rw [taken, if_neg, foldl_padded, List.drop_left']
  · rfl
  · simp [padded_ne_nil]

/-! ## Fields -/

theorem exists_padded_eq_cons (width n : Nat) :
    ∃ d ds, padded width n = d :: ds ∧ d.isDigit = true := by
  obtain ⟨d, ds, h⟩ := List.exists_cons_of_ne_nil (padded_ne_nil width n)
  exact ⟨d, ds, h, isDigit_of_mem_padded (h ▸ List.mem_cons_self)⟩

theorem skipBlank_padded (width n : Nat) (rest : List Char) :
    skipBlank (padded width n ++ rest) = padded width n ++ rest := by
  obtain ⟨d, ds, h, hd⟩ := exists_padded_eq_cons width n
  rw [h]
  exact skipBlank_cons (isBlank_of_isDigit hd) _

theorem readNat_two {n : Nat} (h : n < 100) (rest : List Char) :
    readNat 2 (padded 2 n ++ rest) = some (n, rest) :=
  readNat_padded (.inl (length_padded ((Nat.length_toDigits_le_iff (by decide) (by decide)).2 h)))

theorem readField_padded {n : Nat} (h : n < 100) {c : Char} (hc : isBlank c = false)
    (rest : List Char) : readField (padded 2 n ++ c :: rest) = some (n, c :: rest) := by
  rw [readField, skipBlank_padded, readNat_two h]
  show some (n, skipBlank (c :: rest)) = _
  rw [skipBlank_cons hc]

/-- A year is read up to the mark behind it. -/
theorem readYear_yearText (y : Int) (rest : List Char) :
    readYear (yearText y ++ '-' :: rest) = some (y, '-' :: rest) := by
  have all (n : Nat) : readNat (padded 4 n ++ '-' :: rest).length (padded 4 n ++ '-' :: rest) =
      some (n, '-' :: rest) := by
    refine readNat_padded (.inr ⟨by rw [List.length_append]; omega, fun c hc => ?_⟩)
    obtain rfl := Option.some.inj hc
    rfl
  unfold yearText
  split
  · next hy =>
    obtain ⟨d, ds, h, hd⟩ := exists_padded_eq_cons 4 y.toNat
    have four : readNat 4 (padded 4 y.toNat ++ '-' :: rest) = some (y.toNat, '-' :: rest) :=
      readNat_padded (.inl (length_padded
        ((Nat.length_toDigits_le_iff (by decide) (by decide)).2 (by omega))))
    rw [h, List.cons_append] at four ⊢
    unfold readYear
    split
    · next heq =>
      obtain ⟨rfl, -⟩ := List.cons.inj heq
      cases hd
    · next heq =>
      obtain ⟨rfl, -⟩ := List.cons.inj heq
      cases hd
    · rw [four]
      show some ((y.toNat : Int), _) = _
      rw [Int.toNat_of_nonneg hy.1]
  · next hy =>
    split
    · next hneg =>
      refine (congrArg (Option.map _) (all y.natAbs)).trans ?_
      show some (-(y.natAbs : Int), _) = _
      rw [show -(y.natAbs : Int) = y by omega]
    · next hneg =>
      refine (congrArg (Option.map _) (all y.natAbs)).trans ?_
      show some ((y.natAbs : Int), _) = _
      rw [show (y.natAbs : Int) = y by omega]

theorem skipBlank_yearText (y : Int) (rest : List Char) :
    skipBlank (yearText y ++ rest) = yearText y ++ rest := by
  unfold yearText
  split
  · exact skipBlank_padded 4 _ rest
  · split <;> exact skipBlank_cons rfl _

/-! ## Texts -/

/-- Two digits hold every field but the year. -/
theorem fields_lt {t : Timestamp} (h : t.isValid = true) :
    t.month < 100 ∧ t.day < 100 ∧ t.hour < 100 ∧ t.minute < 100 ∧ t.second < 100 := by
  have days : daysInMonth t.year t.month ≤ 31 := by
    unfold daysInMonth
    split
    · split <;> decide
    · split <;> decide
  simp only [isValid, Bool.and_eq_true, decide_eq_true_eq] at h
  omega

/-- The second that a point in time is in. -/
def toSecond (t : Timestamp) : Timestamp := { t with nanos := 0 }

theorem isValid_toSecond (t : Timestamp) : t.toSecond.isValid = t.isValid := rfl

theorem toSecond_eq_self_iff {t : Timestamp} : t.toSecond = t ↔ t.nanos = 0 := by
  cases t
  simp [toSecond, eq_comm]

theorem nanos_of_mem_map_toSecond {value : Option Timestamp} :
    ∀ t ∈ value.map toSecond, t.nanos = 0 := by
  intro t ht
  obtain ⟨t', -, rfl⟩ := Option.map_eq_some_iff.1 ht
  rfl

theorem map_toSecond_eq_self {value : Option Timestamp} (h : ∀ t ∈ value, t.nanos = 0) :
    value.map toSecond = value := by
  cases value with
  | none => rfl
  | some t => exact congrArg some (toSecond_eq_self_iff.2 (h t rfl))

/-- What is written is read as what it was, but for the fraction of its second. -/
theorem parse?_text {t : Timestamp} (h : t.isValid = true) : parse? t.text = some t.toSecond := by
  obtain ⟨hmonth, hday, hhour, hminute, hsecond⟩ := fields_lt h
  have shape : t.text.toList = yearText t.year ++ '-' :: (padded 2 t.month ++ '-' :: (padded 2 t.day
      ++ 'T' :: (padded 2 t.hour ++ ':' :: (padded 2 t.minute ++ ':' ::
        (padded 2 t.second ++ ['Z']))))) := by
    simp [text]
  have day {n : Nat} (hn : n < 100) (rest : List Char) :
      readNat 2 (skipBlank (padded 2 n ++ rest)) = some (n, rest) := by
    rw [skipBlank_padded, readNat_two hn]
  unfold parse?
  rw [shape, skipBlank_yearText, readYear_yearText]
  -- The year is read; every other field and mark is read in its turn.
  refine Option.bind_eq_some_iff.2 ⟨_, rfl, ?_⟩
  refine Option.bind_eq_some_iff.2 ⟨_, rfl, ?_⟩
  refine Option.bind_eq_some_iff.2 ⟨_, readField_padded hmonth rfl _, ?_⟩
  refine Option.bind_eq_some_iff.2 ⟨_, rfl, ?_⟩
  refine Option.bind_eq_some_iff.2 ⟨_, day hday _, ?_⟩
  refine Option.bind_eq_some_iff.2 ⟨_, rfl, ?_⟩
  refine Option.bind_eq_some_iff.2 ⟨_, readField_padded hhour rfl _, ?_⟩
  refine Option.bind_eq_some_iff.2 ⟨_, rfl, ?_⟩
  refine Option.bind_eq_some_iff.2 ⟨_, readField_padded hminute rfl _, ?_⟩
  refine Option.bind_eq_some_iff.2 ⟨_, rfl, ?_⟩
  refine Option.bind_eq_some_iff.2 ⟨_, day hsecond _, ?_⟩
  refine Option.bind_eq_some_iff.2 ⟨_, rfl, ?_⟩
  refine Option.bind_eq_some_iff.2 ⟨_, rfl, ?_⟩
  show inUtc? t.toSecond 0 = some t.toSecond
  simp [inUtc?, isValid_toSecond, h]

theorem isValid_of_inUtc? {t u : Timestamp} {minutes : Int} (h : inUtc? t minutes = some u) :
    u.isValid = true := by
  rw [inUtc?, Option.ite_none_right_eq_some, Bool.and_eq_true] at h
  obtain ⟨⟨-, hvalid⟩, hu⟩ := h
  exact Option.some.inj hu ▸ hvalid

/-- Only points in time that the calendar has are read. -/
theorem isValid_of_parse? {s : String} {t : Timestamp} (h : parse? s = some t) :
    t.isValid = true := by
  unfold parse? at h
  obtain ⟨⟨_, _⟩, -, h⟩ := Option.bind_eq_some_iff.1 h
  obtain ⟨_, -, h⟩ := Option.bind_eq_some_iff.1 h
  obtain ⟨⟨_, _⟩, -, h⟩ := Option.bind_eq_some_iff.1 h
  obtain ⟨_, -, h⟩ := Option.bind_eq_some_iff.1 h
  obtain ⟨⟨_, s⟩, -, h⟩ := Option.bind_eq_some_iff.1 h
  dsimp only at h
  -- Whatever mark stands between the date and the time, the time is read in one way.
  split at h
  case h_4 => cases h
  all_goals
    obtain ⟨_, -, h⟩ := Option.bind_eq_some_iff.1 h
    obtain ⟨⟨_, _⟩, -, h⟩ := Option.bind_eq_some_iff.1 h
    obtain ⟨_, -, h⟩ := Option.bind_eq_some_iff.1 h
    obtain ⟨⟨_, _⟩, -, h⟩ := Option.bind_eq_some_iff.1 h
    obtain ⟨_, -, h⟩ := Option.bind_eq_some_iff.1 h
    iterate 3 obtain ⟨⟨_, _⟩, -, h⟩ := Option.bind_eq_some_iff.1 h
    dsimp only at h
    split at h
    · cases h
    · exact isValid_of_inUtc? h

end Timestamp

end Rollout
