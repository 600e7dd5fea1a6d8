/-
  A pipeline of marks makes nothing new of what it has made.

  The marks are labels, annotations and namespaces. Each of the three is settled by its own
  visitors, in order: of the values for one key the last one stays, and what is put under different
  keys does not depend on the order (`putAll_putAll`). A namespace is either the last one that is
  imposed, whatever was there before, or every visitor leaves it as it is once the last one has been
  (`resolveAll_resolveAll`). So a pipeline leaves a resource as it is that has the labels, the
  annotations and the namespace of something that went through it (`Pipeline.visit_eq_self`).
-/
import Mathlib.Data.List.Induction
import Rollout.Proofs.Resource

namespace Rollout

/-! ## Labels and annotations -/

/-- The entries after all pairs were put in, in order. -/
def putAll (pairs : List (String × String)) (es : Option (Entries String)) :
    Option (Entries String) := pairs.foldl (fun es p => Visitor.addTo es p.1 p.2) es

theorem putAll_cons (p : String × String) (pairs : List (String × String))
    (es : Option (Entries String)) :
    putAll (p :: pairs) es = putAll pairs (Visitor.addTo es p.1 p.2) := rfl

theorem Visitor.addTo_addTo (es : Option (Entries String)) (key u v : String) :
    addTo (addTo es key u) key v = addTo es key v :=
  congrArg some (Entries.insert_insert key u v _)

theorem Visitor.addTo_comm {k l : String} (h : k ≠ l) (es : Option (Entries String))
    (u v : String) : addTo (addTo es k u) l v = addTo (addTo es l v) k u :=
  congrArg some (Entries.insert_comm h u v _).symm

/-- What is there under a key gives way to the pairs that come in under it. -/
theorem putAll_addTo {pairs : List (String × String)} {key : String}
    (h : key ∈ pairs.map Prod.fst) (es : Option (Entries String)) (value : String) :
    putAll pairs (Visitor.addTo es key value) = putAll pairs es := by
  induction pairs generalizing es with
  | nil => cases h
  | cons p pairs ih =>
    rw [putAll_cons, putAll_cons]
    by_cases heq : key = p.1
    · rw [heq, Visitor.addTo_addTo]
    · have later : key ∈ pairs.map Prod.fst := (List.mem_cons.1 h).resolve_left heq
      rw [Visitor.addTo_comm heq, ih later]

/-- Pairs under keys that come in again make no difference. -/
theorem putAll_of_subset {pairs first : List (String × String)}
    (h : ∀ p ∈ first, p.1 ∈ pairs.map Prod.fst) (es : Option (Entries String)) :
    putAll pairs (putAll first es) = putAll pairs es := by
  induction first generalizing es with
  | nil => rfl
  | cons p first ih =>
    obtain ⟨hp, hfirst⟩ := List.forall_mem_cons.1 h
    rw [putAll_cons, ih hfirst, putAll_addTo hp]

theorem putAll_putAll (pairs : List (String × String)) (es : Option (Entries String)) :
    putAll pairs (putAll pairs es) = putAll pairs es :=
  putAll_of_subset (fun _ hp => List.mem_map_of_mem hp) es

/-! ## Namespaces -/

namespace Visitor

/-- What the visitor makes of a namespace. -/
def resolve : Visitor → Option String → Option String
  | .resolveNamespace (some explicit) _, _ => some explicit
  | .resolveNamespace none fallback, ns => if (ns.getD "").isEmpty then fallback.or ns else ns
  | _, ns => ns

theorem visit_resolveNamespace (explicit fallback : Option String) (r : Resource) :
    (resolveNamespace explicit fallback).visit r = { r with metadata := { r.metadata with
      ns := (resolveNamespace explicit fallback).resolve r.ns } } := by
  cases explicit with
  | some explicit => rfl
  | none =>
    simp only [visit, resolve]
    split
    · cases fallback <;> rfl
    · rfl

/-- The visitor imposes a namespace. -/
def Imposes (v : Visitor) : Prop :=
  ∃ explicit fallback, v = .resolveNamespace (some explicit) fallback

theorem Imposes.resolve_eq {v : Visitor} (h : v.Imposes) (ns ns' : Option String) :
    v.resolve ns = v.resolve ns' := by
  obtain ⟨explicit, fallback, rfl⟩ := h
  rfl

/-- A visitor that imposes nothing sets a namespace only where there is none. -/
theorem resolve_of_not_imposes {v : Visitor} (h : ¬ v.Imposes) : ∃ fallback : Option String,
    ∀ ns, v.resolve ns = if (ns.getD "").isEmpty then fallback.or ns else ns := by
  cases v with
  | resolveNamespace explicit fallback =>
    cases explicit with
    | some explicit => exact absurd ⟨explicit, fallback, rfl⟩ h
    | none => exact ⟨fallback, fun _ => rfl⟩
  | _ => exact ⟨none, fun ns => (ite_self ns).symm⟩

theorem resolve_resolve {v : Visitor} (h : ¬ v.Imposes) (ns : Option String) :
    v.resolve (v.resolve ns) = v.resolve ns := by
  obtain ⟨fallback, hv⟩ := resolve_of_not_imposes h
  rw [hv, hv]
  by_cases hns : (ns.getD "").isEmpty = true
  · rw [if_pos hns]
    cases fallback with
    | none => exact ite_self _
    | some ns' => exact ite_self _
  · rw [if_neg hns, if_neg hns]

/-- What one visitor leaves as it is, it leaves as it is after another one, if neither imposes
anything. -/
theorem resolve_resolve_of_eq {u v : Visitor} (hu : ¬ u.Imposes) (hv : ¬ v.Imposes)
    {ns : Option String} (h : u.resolve ns = ns) : u.resolve (v.resolve ns) = v.resolve ns := by
  obtain ⟨a, ha⟩ := resolve_of_not_imposes hu
  obtain ⟨b, hb⟩ := resolve_of_not_imposes hv
  rw [ha] at h
  rw [ha, hb]
  by_cases hns : (ns.getD "").isEmpty = true
  · rw [if_pos hns] at h ⊢
    cases b with
    | none => rw [Option.none_or, if_pos hns, h]
    | some c =>
      rw [Option.some_or]
      by_cases hc : c.isEmpty = true
      · cases a with
        | none => exact ite_self _
        | some d =>
          -- Both are empty, so it does not matter which of them it is.
          rw [Option.some_or] at h
          rw [← h] at hns
          have same : d = c := (String.isEmpty_iff.1 hns).trans (String.isEmpty_iff.1 hc).symm
          rw [Option.some_or, same]
          exact ite_self _
      · exact if_neg hc
  · rw [if_neg hns, if_neg hns]

end Visitor

/-- The namespace after all visitors, in order. -/
def resolveAll (visitors : List Visitor) (ns : Option String) : Option String :=
  visitors.foldl (fun ns v => v.resolve ns) ns

theorem resolveAll_cons (v : Visitor) (visitors : List Visitor) (ns : Option String) :
    resolveAll (v :: visitors) ns = resolveAll visitors (v.resolve ns) := rfl

theorem resolveAll_concat (visitors : List Visitor) (v : Visitor) (ns : Option String) :
    resolveAll (visitors ++ [v]) ns = v.resolve (resolveAll visitors ns) :=
  List.foldl_append

/-- If a namespace is imposed, it does not matter what was there before. -/
theorem resolveAll_eq_of_imposes {visitors : List Visitor} (h : ∃ v ∈ visitors, v.Imposes)
    (ns ns' : Option String) : resolveAll visitors ns = resolveAll visitors ns' := by
  induction visitors generalizing ns ns' with
  | nil =>
    obtain ⟨v, hv, -⟩ := h
    cases hv
  | cons v visitors ih =>
    obtain ⟨u, hu, himposes⟩ := h
    rcases List.mem_cons.1 hu with rfl | hu
    · rw [resolveAll_cons, himposes.resolve_eq ns ns']
      rfl
    · exact ih ⟨u, hu, himposes⟩ _ _

/-- If none is imposed, every visitor leaves what has come of them as it is. -/
theorem resolve_resolveAll {visitors : List Visitor} (h : ∀ v ∈ visitors, ¬ v.Imposes)
    (ns : Option String) : ∀ v ∈ visitors, v.resolve (resolveAll visitors ns) =
      resolveAll visitors ns := by
  induction visitors using List.reverseRecOn with
  | nil => exact List.forall_mem_nil _
  | append_singleton visitors u ih =>
    have hu : ¬ u.Imposes := h u (List.mem_concat_self)
    have hvisitors : ∀ v ∈ visitors, ¬ v.Imposes := fun v hv => h v (List.mem_append_left _ hv)
    intro v hv
    rw [resolveAll_concat]
    rcases List.mem_append.1 hv with hv | hv
    · exact Visitor.resolve_resolve_of_eq (hvisitors v hv) hu (ih hvisitors v hv)
    · rw [List.mem_singleton.1 hv]
      exact Visitor.resolve_resolve hu _

theorem resolveAll_resolveAll (visitors : List Visitor) (ns : Option String) :
    resolveAll visitors (resolveAll visitors ns) = resolveAll visitors ns := by
  by_cases himposes : ∃ v ∈ visitors, v.Imposes
  · exact resolveAll_eq_of_imposes himposes _ _
  · have fixed := resolve_resolveAll (fun v hv h => himposes ⟨v, hv, h⟩) ns
    exact List.foldlRecOn visitors _ (motive := (· = resolveAll visitors ns)) rfl
      fun ns' h v hv => by rw [h, fixed v hv]

/-! ## Pipelines of marks -/

namespace Visitor

/-- The label that the visitor sets. -/
def label? : Visitor → Option (String × String)
  | .label key value => some (key, value)
  | _ => none

/-- The annotation that the visitor sets. -/
def annotation? : Visitor → Option (String × String)
  | .annotate key value => some (key, value)
  | _ => none

end Visitor

namespace Pipeline

variable {p : Pipeline}

/-- What a pipeline of marks makes of a resource: labels, annotations and the namespace come about
apart from each other, and nothing else changes. -/
theorem visit_of_marks (marks : ∀ v ∈ p.visitors, v.IsMark) (r : Resource) :
    p.visit r = { r with metadata := { r.metadata with
      labels := putAll (p.visitors.filterMap Visitor.label?) r.metadata.labels
      annotations := putAll (p.visitors.filterMap Visitor.annotation?) r.metadata.annotations
      ns := resolveAll p.visitors r.ns } } := by
  obtain ⟨visitors⟩ := p
  induction visitors generalizing r with
  | nil => rfl
  | cons v visitors ih =>
    obtain ⟨hv, hvisitors⟩ := List.forall_mem_cons.1 marks
    refine (ih (v.visit r) hvisitors).trans ?_
    cases v with
    | edit => cases hv
    | label key value => rfl
    | annotate key value => rfl
    | resolveNamespace explicit fallback =>
      rw [Visitor.visit_resolveNamespace]
      rfl

/-- A pipeline of marks leaves a resource as it is that has the labels, the annotations and the
namespace of one that has gone through it. -/
theorem visit_eq_self (marks : ∀ v ∈ p.visitors, v.IsMark) {r r' : Resource}
    (hlabels : r'.metadata.labels = (p.visit r).metadata.labels)
    (hannotations : r'.metadata.annotations = (p.visit r).metadata.annotations)
    (hns : r'.ns = (p.visit r).ns) : p.visit r' = r' := by
  rw [visit_of_marks marks r] at hlabels hannotations hns
  have labels : putAll (p.visitors.filterMap Visitor.label?) r'.metadata.labels =
      r'.metadata.labels := by
    rw [hlabels]
    exact putAll_putAll _ _
  have annotations : putAll (p.visitors.filterMap Visitor.annotation?) r'.metadata.annotations =
      r'.metadata.annotations := by
    rw [hannotations]
    exact putAll_putAll _ _
  have ns : resolveAll p.visitors r'.ns = r'.ns := by
    rw [hns]
    exact resolveAll_resolveAll _ _
  rw [visit_of_marks marks r', labels, annotations, ns]
  rfl

end Pipeline

end Rollout
