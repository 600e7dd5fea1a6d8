/-
  Which variables make a configuration, and which one.

  A variable that stands for a number is set to an optional plus sign and one or more decimal
  digits, whose number is below `2^64` (`Denotes`): nothing else is read, and nothing is read as
  another number (`readNumber?_eq_some_iff`). A variable offends if it cannot be read (`Offends`).
  The reading fails if and only if one does, and then with the first of them (`FirstOffence`);
  otherwise each field is what its variable stands for (`AsSet`). Of the settings for operations a
  configuration names three, and leaves the others as they are by default.
-/
import Mathlib.Data.Option.Basic
import Rollout.Environment

namespace Rollout.Environment

/-! ## Numbers -/

/-- The text is an optional plus sign and decimal digits, whose number is `n` and fits 64 bits. -/
def Denotes (s : String) (n : Nat) : Prop :=
  ∃ digits : List Char, digits ≠ [] ∧ (∀ c ∈ digits, c.isDigit = true) ∧
    (s.toList = digits ∨ s.toList = '+' :: digits) ∧
    n = Nat.ofDigitChars 10 digits 0 ∧ n < twoTo 64

/-- Reading goes on with `n`, the number of what was read so far. -/
theorem foldlM_digits_eq_some_iff {digits : List Char} {n k : Nat} :
    digits.foldlM (fun n c => if c.isDigit then some (n * 10 + (c.toNat - '0'.toNat)) else none) n =
        some k ↔
      (∀ c ∈ digits, c.isDigit = true) ∧ k = Nat.ofDigitChars 10 digits n := by
  induction digits generalizing n with
  | nil => exact ⟨fun h => ⟨List.forall_mem_nil _, (Option.some.inj h).symm⟩, fun h => h.2 ▸ rfl⟩
  | cons c digits ih =>
    rw [List.foldlM_cons, List.forall_mem_cons, Nat.ofDigitChars_cons, Nat.mul_comm 10 n]
    by_cases hc : c.isDigit = true
    · rw [if_pos hc, Option.bind_eq_bind, Option.bind_some, ih, and_iff_right hc]
    · rw [if_neg hc]
      exact ⟨nofun, fun h => absurd h.1.1 hc⟩

theorem readDigits?_eq_some_iff {digits : List Char} {n : Nat} :
    readDigits? digits = some n ↔
      digits ≠ [] ∧ (∀ c ∈ digits, c.isDigit = true) ∧ n = Nat.ofDigitChars 10 digits 0 := by
  cases digits with
  | nil => exact ⟨nofun, fun h => absurd rfl h.1⟩
  | cons c digits =>
    rw [readDigits?, List.isEmpty_cons, if_neg Bool.false_ne_true, foldlM_digits_eq_some_iff,
      and_iff_right (List.cons_ne_nil c digits)]

theorem readNumber?_eq_some_iff {s : String} {n : Nat} : readNumber? s = some n ↔ Denotes s n := by
  have fits : decide (n < twoTo 64) = true ↔ n < twoTo 64 := decide_eq_true_iff
  unfold readNumber? Denotes
  rw [Option.filter_eq_some_iff, fits]
  constructor
  · rintro ⟨h, hn⟩
    split at h
    · next cs hs =>
      obtain ⟨nonempty, digits, hval⟩ := readDigits?_eq_some_iff.1 h
      exact ⟨cs, nonempty, digits, .inr hs, hval, hn⟩
    · obtain ⟨nonempty, digits, hval⟩ := readDigits?_eq_some_iff.1 h
      exact ⟨s.toList, nonempty, digits, .inl rfl, hval, hn⟩
  · rintro ⟨cs, nonempty, digits, hs, hval, hn⟩
    refine ⟨?_, hn⟩
    have read : readDigits? cs = some n := readDigits?_eq_some_iff.2 ⟨nonempty, digits, hval⟩
    rcases hs with hs | hs
    · -- What begins with a digit does not begin with a plus sign.
      rw [hs]
      split
      · exact absurd (digits '+' List.mem_cons_self) (by decide)
      · exact read
    · rw [hs]
      exact read

example : readNumber? "+007" = some 7 ∧ readNumber? "18446744073709551616" = none := by decide

theorem readNumber?_eq_none_iff {s : String} :
    readNumber? s = none ↔ ∀ n, ¬ Denotes s n := by
  rw [Option.eq_none_iff_forall_ne_some]
  exact forall_congr' fun n => not_congr readNumber?_eq_some_iff

/-- A text is one number at most. -/
theorem Denotes.unique {s : String} {m n : Nat} (hm : Denotes s m) (hn : Denotes s n) : m = n :=
  Option.some.inj ((readNumber?_eq_some_iff.2 hm).symm.trans (readNumber?_eq_some_iff.2 hn))

/-- Every number that fits can be written down. -/
theorem denotes_repr {n : Nat} (h : n < twoTo 64) : Denotes n.repr n :=
  ⟨Nat.toDigits 10 n, Nat.toDigits_ne_nil,
    fun _ hc => Nat.isDigit_of_mem_toDigits (by decide) (by decide) hc,
    .inl Nat.toList_repr, Nat.ofDigitChars_ten_toDigits.symm, h⟩

/-! ## Faults -/

namespace Fault

/-- The variable that cannot be read. -/
def subject : Fault → String
  | manifestPath => "MANIFEST_PATH"
  | deleteExisting => "DELETE_EXISTING"
  | waitTimeout => "WAIT_TIMEOUT_SECS"
  | waitConcurrency => "WAIT_CONCURRENCY"

/-- How many variables are read before it. -/
def rank : Fault → Nat
  | manifestPath => 0
  | deleteExisting => 1
  | waitTimeout => 2
  | waitConcurrency => 3

theorem eq_of_rank_eq {f g : Fault} (h : f.rank = g.rank) : f = g := by
  cases f <;> cases g <;> first | rfl | cases h

/-- Every message begins with the variable that it is about. -/
theorem subject_prefix_message (f : Fault) : f.subject.toList <+: f.message.toList := by
  cases f <;> decide

end Fault

variable {lookup : String → Option String}

/-- The variable cannot be read: it has to be set and is not, or it is set to no text that it may
be set to. -/
def Offends (lookup : String → Option String) (f : Fault) : Prop :=
  match f with
  | .manifestPath => lookup f.subject = none
  | .deleteExisting => ∃ s, lookup f.subject = some s ∧ s ≠ "true" ∧ s ≠ "false"
  | .waitTimeout | .waitConcurrency => ∃ s, lookup f.subject = some s ∧ ∀ n, ¬ Denotes s n

/-- None of the first `n` variables offends. -/
def Clear (lookup : String → Option String) (n : Nat) : Prop :=
  ∀ f : Fault, f.rank < n → ¬ Offends lookup f

/-- Of the variables that cannot be read, it is the one that is read first. -/
def FirstOffence (lookup : String → Option String) (f : Fault) : Prop :=
  Offends lookup f ∧ Clear lookup f.rank

theorem clear_zero : Clear lookup 0 := fun _ h => absurd h (Nat.not_lt_zero _)

theorem Clear.succ {f : Fault} (h : Clear lookup f.rank) (hf : ¬ Offends lookup f) :
    Clear lookup (f.rank + 1) := by
  intro g hg
  rcases Nat.lt_succ_iff_lt_or_eq.1 hg with hlt | heq
  · exact h g hlt
  · exact Fault.eq_of_rank_eq heq ▸ hf

theorem FirstOffence.unique {f g : Fault} (hf : FirstOffence lookup f)
    (hg : FirstOffence lookup g) : f = g := by
  rcases Nat.lt_trichotomy f.rank g.rank with hlt | heq | hlt
  · exact absurd hf.1 (hg.2 f hlt)
  · exact Fault.eq_of_rank_eq heq
  · exact absurd hg.1 (hf.2 g hlt)

/-! ## Optional variables -/

section Rel

variable {α β γ : Type} {r : α → β → Prop} {r' : α → γ → Prop}

theorem rel_map {f : β → γ} (hf : ∀ a b, r a b → r' a (f b)) {v : Option α} {x : Option β}
    (h : Option.Rel r v x) : Option.Rel r' v (x.map f) := by
  cases h with
  | none => exact .none
  | some h => exact .some (hf _ _ h)

theorem exists_of_rel {a : α} {x : Option β} (h : Option.Rel r (some a) x) : ∃ b, r a b := by
  cases h with
  | some h => exact ⟨_, h⟩

theorem rel_unique (hr : ∀ a b c, r a b → r a c → b = c) {v : Option α} {x y : Option β}
    (hx : Option.Rel r v x) (hy : Option.Rel r v y) : x = y := by
  cases hx with
  | none =>
    cases hy
    rfl
  | some hb =>
    cases hy with
    | some hc => exact congrArg some (hr _ _ _ hb hc)

end Rel

/-! ## Reading -/

/-- Each field of the configuration is what its variable stands for, or what stands for a variable
that is not set. -/
structure AsSet (lookup : String → Option String) (e : Environment) : Prop where
  manifestPath : lookup "MANIFEST_PATH" = some e.manifestPath
  defaultNamespace : e.defaultNamespace = (lookup "DEFAULT_NAMESPACE").getD "default"
  deleteExisting : lookup "DELETE_EXISTING" = some (if e.deleteExisting then "true" else "false") ∨
    lookup "DELETE_EXISTING" = none ∧ e.deleteExisting = false
  waitTimeout : Option.Rel (fun s d => ∃ n, Denotes s n ∧ d = Duration.ofSeconds n)
    (lookup "WAIT_TIMEOUT_SECS") e.waitTimeout
  waitConcurrency : Option.Rel Denotes (lookup "WAIT_CONCURRENCY") e.waitConcurrency
  kubeconfigPath : e.kubeconfigPath = lookup "KUBECONFIG_PATH"

section Optional

variable {α : Type} {fault : Fault} {read : String → Option α}

theorem optional_some_of_some {s : String} {x : α} (h : read s = some x) :
    optional fault read (some s) = .ok (some x) := by
  rw [optional, h]

theorem optional_some_of_none {s : String} (h : read s = none) :
    optional fault read (some s) = .error fault := by
  rw [optional, h]

/-- A variable is read, or it is set to a text that cannot be. -/
theorem optional_cases (fault : Fault) (read : String → Option α) (v : Option String) :
    (∃ a, optional fault read v = .ok a ∧ Option.Rel (fun s x => read s = some x) v a) ∨
      optional fault read v = .error fault ∧ ∃ s, v = some s ∧ read s = none := by
  cases v with
  | none => exact .inl ⟨none, rfl, .none⟩
  | some s =>
    cases h : read s with
    | some x => exact .inl ⟨some x, optional_some_of_some h, .some h⟩
    | none => exact .inr ⟨optional_some_of_none h, s, rfl, h⟩

theorem not_unreadable {v : Option String} {a : Option α}
    (h : Option.Rel (fun s x => read s = some x) v a) : ¬ ∃ s, v = some s ∧ read s = none := by
  rintro ⟨s, rfl, hnone⟩
  cases h with
  | some hsome => cases hsome.symm.trans hnone

/-- If nothing before it offends, a variable is read and the next one comes, or it is the first
offence. -/
theorem optional_turn {v : Option String}
    (offends : Offends lookup fault ↔ ∃ s, v = some s ∧ read s = none)
    (clear : Clear lookup fault.rank) :
    (∃ a, optional fault read v = .ok a ∧ Option.Rel (fun s x => read s = some x) v a ∧
        Clear lookup (fault.rank + 1)) ∨
      optional fault read v = .error fault ∧ FirstOffence lookup fault := by
  rcases optional_cases fault read v with ⟨a, hread, ha⟩ | ⟨hread, unreadable⟩
  · exact .inl ⟨a, hread, ha, clear.succ (offends.not.2 (not_unreadable ha))⟩
  · exact .inr ⟨hread, offends.2 unreadable, clear⟩

end Optional

theorem readBool?_eq_some_iff {s : String} {b : Bool} :
    readBool? s = some b ↔ s = if b then "true" else "false" := by
  unfold readBool?
  split
  · next h => cases b <;> simp [h]
  · next h =>
    split
    · next h' => cases b <;> simp [h']
    · next h' => cases b <;> simp [h, h']

theorem readBool?_eq_none_iff {s : String} : readBool? s = none ↔ s ≠ "true" ∧ s ≠ "false" := by
  rw [Option.eq_none_iff_forall_ne_some, Bool.forall_bool, and_comm]
  exact and_congr (not_congr readBool?_eq_some_iff) (not_congr readBool?_eq_some_iff)

theorem offends_manifestPath_iff : Offends lookup .manifestPath ↔ lookup "MANIFEST_PATH" = none :=
  Iff.rfl

theorem offends_deleteExisting_iff : Offends lookup .deleteExisting ↔
    ∃ s, lookup "DELETE_EXISTING" = some s ∧ readBool? s = none :=
  exists_congr fun _ => and_congr_right fun _ => readBool?_eq_none_iff.symm

theorem offends_waitTimeout_iff : Offends lookup .waitTimeout ↔
    ∃ s, lookup "WAIT_TIMEOUT_SECS" = some s ∧ readNumber? s = none :=
  exists_congr fun _ => and_congr_right fun _ => readNumber?_eq_none_iff.symm

theorem offends_waitConcurrency_iff : Offends lookup .waitConcurrency ↔
    ∃ s, lookup "WAIT_CONCURRENCY" = some s ∧ readNumber? s = none :=
  exists_congr fun _ => and_congr_right fun _ => readNumber?_eq_none_iff.symm

/-- What was read of every variable makes up the configuration. -/
theorem asSet_of_rel {path : String} {deleteExisting : Option Bool}
    {waitTimeout waitConcurrency : Option Nat} (hpath : lookup "MANIFEST_PATH" = some path)
    (delete : Option.Rel (fun s b => readBool? s = some b) (lookup "DELETE_EXISTING")
      deleteExisting)
    (timeout : Option.Rel (fun s n => readNumber? s = some n) (lookup "WAIT_TIMEOUT_SECS")
      waitTimeout)
    (concurrency : Option.Rel (fun s n => readNumber? s = some n) (lookup "WAIT_CONCURRENCY")
      waitConcurrency) :
    AsSet lookup ⟨path, (lookup "DEFAULT_NAMESPACE").getD "default", deleteExisting.getD false,
      waitTimeout.map Duration.ofSeconds, waitConcurrency, lookup "KUBECONFIG_PATH"⟩ where
  manifestPath := hpath
  defaultNamespace := rfl
  deleteExisting := by
    generalize lookup "DELETE_EXISTING" = v at delete ⊢
    cases delete with
    | none => exact .inr ⟨rfl, rfl⟩
    | some h => exact .inl (congrArg some (readBool?_eq_some_iff.1 h))
  waitTimeout := rel_map (fun _ n h => ⟨n, readNumber?_eq_some_iff.1 h, rfl⟩) timeout
  waitConcurrency := by
    simpa only [readNumber?_eq_some_iff] using concurrency
  kubeconfigPath := rfl

/-- The reading fails with the first offence, or it yields the configuration as it is set. -/
theorem read_cases (lookup : String → Option String) :
    (∃ f, read lookup = .error f ∧ FirstOffence lookup f) ∨
      ∃ e, read lookup = .ok e ∧ AsSet lookup e := by
  -- The variables are looked at in the order in which they are read.
  cases path : lookup "MANIFEST_PATH" with
  | none => exact .inl ⟨.manifestPath, by simp [read, path], path, clear_zero⟩
  | some manifestPath =>
    have clear : Clear lookup 1 :=
      clear_zero.succ (f := .manifestPath) (by simp [offends_manifestPath_iff, path])
    rcases optional_turn offends_deleteExisting_iff clear with
      ⟨deleteExisting, hdelete, delete, clear⟩ | ⟨hdelete, first⟩
    case inr =>
      exact .inl ⟨.deleteExisting, by simp [read, path, hdelete, bind, Except.bind], first⟩
    rcases optional_turn offends_waitTimeout_iff clear with
      ⟨waitTimeout, htimeout, timeout, clear⟩ | ⟨htimeout, first⟩
    case inr =>
      exact .inl ⟨.waitTimeout, by simp [read, path, hdelete, htimeout, bind, Except.bind], first⟩
    rcases optional_turn offends_waitConcurrency_iff clear with
      ⟨waitConcurrency, hconcurrency, concurrency, -⟩ | ⟨hconcurrency, first⟩
    case inr =>
      exact .inl ⟨.waitConcurrency,
        by simp [read, path, hdelete, htimeout, hconcurrency, bind, Except.bind], first⟩
    refine .inr ⟨_, ?_, asSet_of_rel path delete timeout concurrency⟩
    simp [read, path, hdelete, htimeout, hconcurrency, bind, Except.bind, pure, Except.pure]

namespace AsSet

variable {e e' : Environment}

/-- Of a variable that offends, no configuration tells. -/
theorem not_offends (h : AsSet lookup e) (f : Fault) : ¬ Offends lookup f := by
  cases f with
  | manifestPath =>
    rintro hnone
    cases h.manifestPath.symm.trans hnone
  | deleteExisting =>
    rintro ⟨s, hs, htrue, hfalse⟩
    rcases h.deleteExisting with hset | ⟨hset, -⟩
    · obtain rfl := Option.some.inj (hs.symm.trans hset)
      cases hb : e.deleteExisting <;> simp [hb] at htrue hfalse
    · cases hs.symm.trans hset
  | waitTimeout =>
    rintro ⟨s, hs, hnot⟩
    have hset : lookup "WAIT_TIMEOUT_SECS" = some s := hs
    obtain ⟨_, n, hn, -⟩ := exists_of_rel (hset ▸ h.waitTimeout)
    exact hnot n hn
  | waitConcurrency =>
    rintro ⟨s, hs, hnot⟩
    have hset : lookup "WAIT_CONCURRENCY" = some s := hs
    obtain ⟨n, hn⟩ := exists_of_rel (hset ▸ h.waitConcurrency)
    exact hnot n hn

/-- The variables tell of one configuration at most. -/
theorem unique (h : AsSet lookup e) (h' : AsSet lookup e') : e = e' := by
  have path := Option.some.inj (h.manifestPath.symm.trans h'.manifestPath)
  have ns := h.defaultNamespace.trans h'.defaultNamespace.symm
  have kubeconfig := h.kubeconfigPath.trans h'.kubeconfigPath.symm
  have delete : e.deleteExisting = e'.deleteExisting := by
    rcases h.deleteExisting with hset | ⟨hset, hdelete⟩ <;>
      rcases h'.deleteExisting with hset' | ⟨hset', hdelete'⟩
    · have htext := Option.some.inj (hset.symm.trans hset')
      cases hb : e.deleteExisting <;> cases hb' : e'.deleteExisting <;> simp [hb, hb'] at htext ⊢
    · cases hset.symm.trans hset'
    · cases hset.symm.trans hset'
    · rw [hdelete, hdelete']
  have timeout : e.waitTimeout = e'.waitTimeout :=
    rel_unique (fun _ _ _ ⟨_, hm, hd⟩ ⟨_, hn, hd'⟩ => by rw [hd, hd', hm.unique hn])
      h.waitTimeout h'.waitTimeout
  have concurrency : e.waitConcurrency = e'.waitConcurrency :=
    rel_unique (fun _ _ _ hm hn => hm.unique hn) h.waitConcurrency h'.waitConcurrency
  cases e
  cases e'
  congr 1

end AsSet

/-- The reading fails with a variable if and only if that is the first one that offends. -/
theorem read_eq_error_iff {f : Fault} : read lookup = .error f ↔ FirstOffence lookup f := by
  rcases read_cases lookup with ⟨g, hread, hg⟩ | ⟨e, hread, he⟩
  · rw [hread]
    exact ⟨fun h => Except.error.inj h ▸ hg, fun h => congrArg _ (hg.unique h)⟩
  · rw [hread]
    exact ⟨nofun, fun h => absurd h.1 (he.not_offends f)⟩

/-- The reading yields the configuration that is set. -/
theorem read_eq_ok_iff {e : Environment} : read lookup = .ok e ↔ AsSet lookup e := by
  rcases read_cases lookup with ⟨f, hread, hf⟩ | ⟨e', hread, he'⟩
  · rw [hread]
    exact ⟨nofun, fun h => absurd hf.1 (h.not_offends f)⟩
  · rw [hread]
    exact ⟨fun h => Except.ok.inj h ▸ he', fun h => congrArg _ (he'.unique h)⟩

theorem exists_read_eq_error_iff :
    (∃ f, read lookup = .error f) ↔ ∃ f, Offends lookup f := by
  constructor
  · rintro ⟨f, hread⟩
    exact ⟨f, (read_eq_error_iff.1 hread).1⟩
  · rintro ⟨f, hf⟩
    rcases read_cases lookup with ⟨g, hread, -⟩ | ⟨e, -, he⟩
    · exact ⟨g, hread⟩
    · exact absurd hf (he.not_offends f)

/-! ## Settings -/

/-- A configuration names the fallback namespace and whether existing resources are deleted, and it
may limit the concurrency, to one at least; all else is as it is by default. -/
theorem settings_eq (e : Environment) : e.settings =
    { fallbackNamespace := some e.defaultNamespace
      deletingExisting := e.deleteExisting
      concurrency := e.waitConcurrency.map (max · 1) } := by
  obtain ⟨_, _, deleteExisting, _, waitConcurrency, _⟩ := e
  cases deleteExisting <;> cases waitConcurrency <;> rfl

/-- The reading fails if and only if a variable offends, and then with the first one that does, the
message of which begins with its name. Otherwise the configuration is as it is set, and so are the
settings that it asks for. -/
theorem read_exact (lookup : String → Option String) :
    ((∃ f, read lookup = .error f) ↔ ∃ f, Offends lookup f) ∧
    (∀ f, read lookup = .error f ↔ FirstOffence lookup f) ∧
    (∀ f : Fault, f.subject.toList <+: f.message.toList) ∧
    (∀ e, read lookup = .ok e ↔ AsSet lookup e) ∧
    ∀ e : Environment, e.settings =
      { fallbackNamespace := some e.defaultNamespace
        deletingExisting := e.deleteExisting
        concurrency := e.waitConcurrency.map (max · 1) } :=
  ⟨exists_read_eq_error_iff, fun _ => read_eq_error_iff, Fault.subject_prefix_message,
    fun _ => read_eq_ok_iff, settings_eq⟩

end Rollout.Environment
