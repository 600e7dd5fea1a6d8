/-
  Which manifests are read, and what is read from them.

  A document is unreadable or a value; a value is null, describes one resource (`Describes`) or
  offends in one of four ways (`Offends`). A manifest is read if and only if none of its documents
  offends, and then it yields one resource for each document that is not null, in order. Otherwise
  the first document that offends gives the failure, whatever comes behind it. Reading a single
  resource is reading all of them and finding one.
-/
import Mathlib.Data.List.Forall2
import Rollout.Manifest
import Rollout.Proofs.Traversal

namespace Rollout

/-- The resource says which kind it is and in which version. -/
def Resource.IsTyped (r : Resource) : Prop :=
  ∃ t, r.types = some t ∧ t.kind ≠ "" ∧ t.apiVersion ≠ ""

theorem Resource.exists_key_iff {r : Resource} : (∃ k, r.key = .ok k) ↔ r.IsTyped := by
  unfold key ResourceKey.of? IsTyped
  cases r.types with
  | none => exact ⟨nofun, fun ⟨_, h, _⟩ => nomatch h⟩
  | some t =>
    by_cases hkind : t.kind = ""
    · simp [hkind]
    · by_cases hversion : t.apiVersion = "" <;> simp [hkind, hversion]

theorem Resource.key_of_not_isTyped {r : Resource} (h : ¬ r.IsTyped) :
    r.key = .error (.invalidResource (r.name ++ " has no apiVersion/kind")) := by
  rw [← exists_key_iff] at h
  unfold key at h ⊢
  cases hkey : ResourceKey.of? r with
  | none => rfl
  | some k => exact absurd ⟨k, by rw [hkey]⟩ h

namespace Manifest

/-! ## Documents -/

/-- The document is null, as an empty one is. -/
def isEmpty (document : Option Yaml.Value) : Bool := document.any Yaml.Value.isNull

/-- The document has a value that is not null and that is, as JSON, a resource of some kind. -/
inductive Describes : Option Yaml.Value → Resource → Prop where
  | intro {v : Yaml.Value} {j : Json} {r : Resource} (present : v.isNull = false)
      (json : v.toJson? = some j) (resource : Resource.ofJson? j = some r) (typed : r.IsTyped) :
      Describes (some v) r

/-- The document makes the reading fail. -/
inductive Offends : Option Yaml.Value → Failure → Prop where
  | unreadable : Offends none (.manifest none)
  | noJson {v : Yaml.Value} (present : v.isNull = false) (json : v.toJson? = none) :
      Offends (some v) .serialization
  | noResource {v : Yaml.Value} {j : Json} (present : v.isNull = false)
      (json : v.toJson? = some j) (resource : Resource.ofJson? j = none) :
      Offends (some v) (.manifest none)
  | untyped {v : Yaml.Value} {j : Json} {r : Resource} (present : v.isNull = false)
      (json : v.toJson? = some j) (resource : Resource.ofJson? j = some r) (typed : ¬ r.IsTyped) :
      Offends (some v) (.invalidResource (r.name ++ " has no apiVersion/kind"))

/-- A document is empty, describes a resource or offends. -/
theorem document_cases (document : Option Yaml.Value) :
    isEmpty document = true ∨ (∃ r, Describes document r) ∨ ∃ f, Offends document f := by
  cases document with
  | none => exact .inr (.inr ⟨_, .unreadable⟩)
  | some v =>
    cases present : v.isNull with
    | true => exact .inl present
    | false =>
      cases json : v.toJson? with
      | none => exact .inr (.inr ⟨_, .noJson present json⟩)
      | some j =>
        cases resource : Resource.ofJson? j with
        | none => exact .inr (.inr ⟨_, .noResource present json resource⟩)
        | some r =>
          by_cases typed : r.IsTyped
          · exact .inr (.inl ⟨r, .intro present json resource typed⟩)
          · exact .inr (.inr ⟨_, .untyped present json resource typed⟩)

theorem resource?_of_isEmpty {document : Option Yaml.Value} (h : isEmpty document = true) :
    resource? document = .ok none := by
  cases document with
  | none => cases h
  | some v =>
    have present : v.isNull = true := h
    simp [resource?, present, pure, Except.pure]

theorem Describes.resource?_eq {document : Option Yaml.Value} {r : Resource}
    (h : Describes document r) : resource? document = .ok (some r) := by
  obtain ⟨present, json, resource, typed⟩ := h
  obtain ⟨k, hkey⟩ := Resource.exists_key_iff.2 typed
  simp [resource?, present, json, resource, hkey, bind, Except.bind, pure, Except.pure]

theorem Offends.resource?_eq {document : Option Yaml.Value} {f : Failure}
    (h : Offends document f) : resource? document = .error f := by
  cases h with
  | unreadable => rfl
  | noJson present json => simp [resource?, present, json]
  | noResource present json resource => simp [resource?, present, json, resource]
  | untyped present json resource typed =>
    simp [resource?, present, json, resource, Resource.key_of_not_isTyped typed, bind, Except.bind]

theorem resource?_eq_ok_none_iff {document : Option Yaml.Value} :
    resource? document = .ok none ↔ isEmpty document = true := by
  refine ⟨fun h => ?_, resource?_of_isEmpty⟩
  rcases document_cases document with hempty | ⟨r, hr⟩ | ⟨f, hf⟩
  · exact hempty
  · cases h.symm.trans hr.resource?_eq
  · cases h.symm.trans hf.resource?_eq

theorem resource?_eq_ok_some_iff {document : Option Yaml.Value} {r : Resource} :
    resource? document = .ok (some r) ↔ Describes document r := by
  refine ⟨fun h => ?_, Describes.resource?_eq⟩
  rcases document_cases document with hempty | ⟨r', hr⟩ | ⟨f, hf⟩
  · cases h.symm.trans (resource?_of_isEmpty hempty)
  · cases h.symm.trans hr.resource?_eq
    exact hr
  · cases h.symm.trans hf.resource?_eq

theorem resource?_eq_error_iff {document : Option Yaml.Value} {f : Failure} :
    resource? document = .error f ↔ Offends document f := by
  refine ⟨fun h => ?_, Offends.resource?_eq⟩
  rcases document_cases document with hempty | ⟨r, hr⟩ | ⟨f', hf⟩
  · cases h.symm.trans (resource?_of_isEmpty hempty)
  · cases h.symm.trans hr.resource?_eq
  · cases h.symm.trans hf.resource?_eq
    exact hf

/-- What can be read of a document. -/
theorem exists_resource?_eq_ok_iff {document : Option Yaml.Value} :
    (∃ o, resource? document = .ok o) ↔
      isEmpty document = true ∨ ∃ r, Describes document r := by
  rw [Option.exists, resource?_eq_ok_none_iff]
  exact or_congr_right (exists_congr fun _ => resource?_eq_ok_some_iff)

/-! ## Sequences of documents -/

theorem ofDocuments_nil : ofDocuments [] = .ok [] := rfl

theorem ofDocuments_cons_eq_ok_iff {document : Option Yaml.Value}
    {documents : List (Option Yaml.Value)} {rs : List Resource} :
    ofDocuments (document :: documents) = .ok rs ↔
      ∃ o rs', resource? document = .ok o ∧ ofDocuments documents = .ok rs' ∧
        rs = o.toList ++ rs' := by
  have read (ds : List (Option Yaml.Value)) (rs : List Resource) :
      ofDocuments ds = .ok rs ↔ ∃ os, ds.mapM resource? = .ok os ∧ rs = os.filterMap id := by
    unfold ofDocuments
    cases ds.mapM resource? with
    | error f => exact ⟨nofun, fun ⟨_, h, _⟩ => nomatch h⟩
    | ok os =>
      refine ⟨fun h => ⟨os, rfl, (Except.ok.inj h).symm⟩, ?_⟩
      rintro ⟨_, ⟨⟩, rfl⟩
      rfl
  have joined (o : Option Resource) (os : List (Option Resource)) :
      (o :: os).filterMap id = o.toList ++ os.filterMap id := by
    cases o <;> rfl
  constructor
  · intro h
    obtain ⟨_, hmap, rfl⟩ := (read _ _).1 h
    obtain ⟨o, os, ho, hos, rfl⟩ := mapM_eq_ok_cons_iff.1 hmap
    exact ⟨o, _, ho, (read _ _).2 ⟨os, hos, rfl⟩, joined o os⟩
  · rintro ⟨o, rs', ho, h, rfl⟩
    obtain ⟨os, hos, rfl⟩ := (read _ _).1 h
    exact (read _ _).2 ⟨o :: os, mapM_eq_ok_cons_iff.2 ⟨o, os, ho, hos, rfl⟩, (joined o os).symm⟩

/-- Of the documents, those that are not empty describe the resources, one each, in order. -/
theorem ofDocuments_eq_ok_iff {documents : List (Option Yaml.Value)} {rs : List Resource} :
    ofDocuments documents = .ok rs ↔
      List.Forall₂ Describes (documents.filter fun d => !isEmpty d) rs := by
  induction documents generalizing rs with
  | nil =>
    rw [ofDocuments_nil, List.filter_nil, List.forall₂_nil_left_iff, Except.ok.injEq, eq_comm]
  | cons d documents ih =>
    rw [ofDocuments_cons_eq_ok_iff]
    by_cases hd : isEmpty d = true
    · -- An empty document is passed over.
      rw [List.filter_cons_of_neg (by simp [hd]), ← ih]
      constructor
      · rintro ⟨o, rs', ho, hrs', rfl⟩
        cases ho.symm.trans (resource?_of_isEmpty hd)
        exact hrs'
      · intro h
        exact ⟨none, rs, resource?_of_isEmpty hd, h, rfl⟩
    · rw [List.filter_cons_of_pos (by simp [hd]), List.forall₂_cons_left_iff]
      constructor
      · rintro ⟨o, rs', ho, hrs', rfl⟩
        cases o with
        | none => exact absurd (resource?_eq_ok_none_iff.1 ho) hd
        | some r => exact ⟨r, rs', resource?_eq_ok_some_iff.1 ho, ih.1 hrs', rfl⟩
      · rintro ⟨r, rs', hr, hrs', rfl⟩
        exact ⟨some r, rs', hr.resource?_eq, ih.2 hrs', rfl⟩

/-- The first document that offends, the documents before it being empty or describing resources. -/
def FirstOffence (documents : List (Option Yaml.Value)) (f : Failure) : Prop :=
  ∃ before document after, documents = before ++ document :: after ∧
    (∀ d ∈ before, isEmpty d = true ∨ ∃ r, Describes d r) ∧ Offends document f

theorem ofDocuments_eq_error_iff {documents : List (Option Yaml.Value)} {f : Failure} :
    ofDocuments documents = .error f ↔ FirstOffence documents f := by
  have first : FailsFirst resource? documents f ↔ FirstOffence documents f := by
    unfold FailsFirst FirstOffence
    simp only [exists_resource?_eq_ok_iff, resource?_eq_error_iff]
  rw [← first, ← mapM_eq_error_iff]
  unfold ofDocuments
  cases documents.mapM resource? with
  | error f' =>
    exact ⟨fun h => congrArg _ (Except.error.inj h), fun h => congrArg _ (Except.error.inj h)⟩
  | ok os => exact ⟨nofun, nofun⟩

theorem exists_ofDocuments_eq_ok_iff {documents : List (Option Yaml.Value)} :
    (∃ rs, ofDocuments documents = .ok rs) ↔
      ∀ d ∈ documents, isEmpty d = true ∨ ∃ r, Describes d r := by
  induction documents with
  | nil => exact ⟨fun _ => List.forall_mem_nil _, fun _ => ⟨[], rfl⟩⟩
  | cons d documents ih =>
    rw [List.forall_mem_cons, ← ih, ← exists_resource?_eq_ok_iff]
    constructor
    · rintro ⟨_, h⟩
      obtain ⟨o, rs, ho, hrs, -⟩ := ofDocuments_cons_eq_ok_iff.1 h
      exact ⟨⟨o, ho⟩, rs, hrs⟩
    · rintro ⟨⟨o, ho⟩, rs, hrs⟩
      exact ⟨_, ofDocuments_cons_eq_ok_iff.2 ⟨o, rs, ho, hrs, rfl⟩⟩

/-! ## Single resources -/

theorem parse_eq (source : String) : parse source = (parseAll source).bind single := rfl

theorem single_eq_ok_iff {rs : List Resource} {r : Resource} : single rs = .ok r ↔ rs = [r] := by
  cases rs with
  | nil => exact ⟨nofun, nofun⟩
  | cons s rest =>
    cases rest with
    | nil => exact ⟨fun h => congrArg (fun r => [r]) (Except.ok.inj h),
        fun h => congrArg Except.ok (List.cons.inj h).1⟩
    | cons t rest => exact ⟨nofun, nofun⟩

/-- What is not a single resource fails with how many there are. -/
theorem single_of_length_ne_one {rs : List Resource} (h : rs.length ≠ 1) :
    single rs = .error (.manifest (some (if rs = [] then "manifest contains no resource"
      else "expected one resource, found " ++ toString rs.length))) := by
  cases rs with
  | nil => rfl
  | cons s rest =>
    cases rest with
    | nil => exact absurd rfl h
    | cons t rest => rfl

theorem parse_eq_ok_iff {source : String} {r : Resource} :
    parse source = .ok r ↔ parseAll source = .ok [r] := by
  rw [parse_eq]
  cases parseAll source with
  | error f => exact ⟨nofun, nofun⟩
  | ok rs => exact single_eq_ok_iff.trans ⟨congrArg Except.ok, Except.ok.inj⟩

/-- A sequence of documents is read if and only if each of them is empty or describes a resource,
and then to one resource for each that is not empty, in order; otherwise it fails with the first
that offends. A manifest is the sequence of its documents. It has a single resource if and only if
that is all there is to it; else the failure is that of reading all, or tells how many there are. -/
theorem read_documents (documents : List (Option Yaml.Value)) (source : String) :
    ((∃ rs, ofDocuments documents = .ok rs) ↔
      ∀ d ∈ documents, isEmpty d = true ∨ ∃ r, Describes d r) ∧
    (∀ rs, ofDocuments documents = .ok rs ↔
      List.Forall₂ Describes (documents.filter fun d => !isEmpty d) rs) ∧
    (∀ f, ofDocuments documents = .error f ↔ FirstOffence documents f) ∧
    parseAll source = ofDocuments (Yaml.Value.ofText source) ∧
    (∀ r, parse source = .ok r ↔ parseAll source = .ok [r]) ∧
    (∀ f, parseAll source = .error f → parse source = .error f) ∧
    ∀ rs, parseAll source = .ok rs → rs.length ≠ 1 → parse source =
      .error (.manifest (some (if rs = [] then "manifest contains no resource"
        else "expected one resource, found " ++ toString rs.length))) := by
  refine ⟨exists_ofDocuments_eq_ok_iff, fun _ => ofDocuments_eq_ok_iff,
    fun _ => ofDocuments_eq_error_iff, rfl, fun _ => parse_eq_ok_iff, fun f h => ?_,
    fun rs h several => ?_⟩
  · rw [parse_eq, h]
    rfl
  · rw [parse_eq, h]
    exact single_of_length_ne_one several

end Manifest

end Rollout
