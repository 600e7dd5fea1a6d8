/-
  Settings after any sequence of changes.

  Every field is what the last change that names it put there, or what it was before if none does;
  the visitors are those from before with the accepted ones behind them, in order. So no change
  leaks into a field that it does not name, and two sequences come to the same settings if they end
  alike in every field and accept the same visitors. What depends on the settings, how a delete is
  carried out and the pipeline, is told from the fields.
-/
import Rollout.Settings

namespace Rollout

/-! ## Fields -/

/-- A field of settings that a change sets as a whole. -/
inductive Settings.Field where
  | fallbackNamespace
  | explicitNamespace
  | fromServer
  | deletingExisting
  | cascading
  | graceSeconds
  | propagation
  | backoff
  | concurrency

/-- What such a field holds. -/
abbrev Settings.Field.Value : Settings.Field → Type
  | fallbackNamespace | explicitNamespace => Option String
  | fromServer | deletingExisting | cascading => Bool
  | graceSeconds | concurrency => Option Nat
  | propagation => Option Propagation
  | backoff => Backoff

def Settings.get (s : Settings) : (f : Settings.Field) → f.Value
  | .fallbackNamespace => s.fallbackNamespace
  | .explicitNamespace => s.explicitNamespace
  | .fromServer => s.fromServer
  | .deletingExisting => s.deletingExisting
  | .cascading => s.cascading
  | .graceSeconds => s.graceSeconds
  | .propagation => s.propagation
  | .backoff => s.backoff
  | .concurrency => s.concurrency

namespace Setting

/-- What the change puts into a field, none if it does not name the field. A limit to the
concurrency is at least one. -/
def put? : Setting → (f : Settings.Field) → Option f.Value
  | .fallbackNamespace ns, .fallbackNamespace => some (some ns)
  | .inNamespace ns, .explicitNamespace => some (some ns)
  | .fromServer, .fromServer => some true
  | .deletingExisting, .deletingExisting => some true
  | .cascading on, .cascading => some on
  | .graceSeconds n, .graceSeconds => some (some n)
  | .propagation policy, .propagation => some (some policy)
  | .backoff b, .backoff => some b
  | .concurrency limit, .concurrency => some (some (max limit 1))
  | _, _ => none

def visitor? : Setting → Option Visitor
  | .accept v => some v
  | _ => none

/-- What the last of the changes that name the field puts there. -/
def lastPut? (changes : List Setting) (f : Settings.Field) : Option f.Value :=
  (changes.filterMap (put? · f)).getLast?

/-- The visitors that are accepted, in order. -/
def accepted (changes : List Setting) : List Visitor := changes.filterMap visitor?

/-- The first change counts for the fields that no later one names. -/
theorem lastPut?_cons (c : Setting) (changes : List Setting) (f : Settings.Field) :
    lastPut? (c :: changes) f = (lastPut? changes f).or (c.put? f) := by
  rw [lastPut?, lastPut?, List.filterMap_cons]
  cases c.put? f with
  | none => exact Option.or_none.symm
  | some x =>
    dsimp only
    rw [List.getLast?_cons]
    cases (changes.filterMap (put? · f)).getLast? <;> rfl

theorem accepted_cons (c : Setting) (changes : List Setting) :
    accepted (c :: changes) = c.visitor?.toList ++ accepted changes := by
  rw [accepted, List.filterMap_cons]
  cases c.visitor? <;> rfl

end Setting

namespace Settings

open Setting

/-! ## Changes -/

/-- Settings are their fields and their visitors. -/
theorem ext_get {s s' : Settings} (h : ∀ f, s.get f = s'.get f) (hv : s.visitors = s'.visitors) :
    s = s' := by
  have fallbackNamespace := h .fallbackNamespace
  have explicitNamespace := h .explicitNamespace
  have fromServer := h .fromServer
  have deletingExisting := h .deletingExisting
  have cascading := h .cascading
  have graceSeconds := h .graceSeconds
  have propagation := h .propagation
  have backoff := h .backoff
  have concurrency := h .concurrency
  cases s
  cases s'
  simp only [get] at *
  congr

theorem get_change (s : Settings) (c : Setting) (f : Field) :
    (s.change c).get f = (c.put? f).getD (s.get f) := by
  cases c <;> cases f <;> rfl

theorem visitors_change (s : Settings) (c : Setting) :
    (s.change c).visitors = s.visitors ++ c.visitor?.toList := by
  cases c with
  | accept v => rfl
  | _ => exact (List.append_nil _).symm

theorem changeAll_cons (s : Settings) (c : Setting) (changes : List Setting) :
    s.changeAll (c :: changes) = (s.change c).changeAll changes := rfl

/-- A field is what the last change that names it put there. -/
theorem get_changeAll (s : Settings) (changes : List Setting) (f : Field) :
    (s.changeAll changes).get f = (lastPut? changes f).getD (s.get f) := by
  induction changes generalizing s with
  | nil => rfl
  | cons c changes ih => rw [changeAll_cons, ih, get_change, lastPut?_cons, Option.getD_or]

theorem visitors_changeAll (s : Settings) (changes : List Setting) :
    (s.changeAll changes).visitors = s.visitors ++ accepted changes := by
  induction changes generalizing s with
  | nil => exact (List.append_nil _).symm
  | cons c changes ih =>
    rw [changeAll_cons, ih, visitors_change, List.append_assoc, accepted_cons]

/-! ## What depends on the settings -/

/-- What a field holds after the changes: what they put there last, or else what it held before. -/
def after (s : Settings) (changes : List Setting) (f : Field) : f.Value :=
  (lastPut? changes f).getD (s.get f)

/-- The policy of a delete: the one that is set, or else the one that goes with cascading or not. -/
def effectivePolicy : Option Propagation → Bool → Propagation
  | some policy, _ => policy
  | none, true => .background
  | none, false => .orphan

/-- A namespace that is set to something. -/
def given (ns : Option String) : Option String := ns.filter fun s => !s.isEmpty

theorem given_eq (ns : Option String) :
    given ns = if (ns.getD "").isEmpty then none else ns := by
  cases ns with
  | none => rfl
  | some s =>
    show (if !s.isEmpty then some s else none) = if s.isEmpty then none else some s
    cases s.isEmpty <;> rfl

theorem deleteOptions_eq (s : Settings) : s.deleteOptions =
    ⟨some (effectivePolicy s.propagation s.cascading), s.graceSeconds⟩ := by
  unfold deleteOptions
  cases s.propagation <;> cases s.cascading <;> rfl

theorem pipeline_eq (s : Settings) : s.pipeline = ⟨s.visitors ++
    [.resolveNamespace (given s.explicitNamespace) (given s.fallbackNamespace)]⟩ := rfl

/-- Changes that end alike in every field and accept the same visitors come to the same settings. -/
theorem changeAll_congr (s : Settings) {changes changes' : List Setting}
    (hfields : ∀ f, lastPut? changes f = lastPut? changes' f)
    (hvisitors : accepted changes = accepted changes') :
    s.changeAll changes = s.changeAll changes' := by
  refine ext_get (fun f => ?_) ?_
  · rw [get_changeAll, get_changeAll, hfields]
  · rw [visitors_changeAll, visitors_changeAll, hvisitors]

/-- After any changes, every field holds what the last change that names it put there, or what it
held before; the accepted visitors are behind those from before, and the resolution of the namespace
is behind all of them. Nothing else about the changes shows, neither in the settings nor in how a
delete is carried out nor in the pipeline. -/
theorem changeAll_fieldwise (s : Settings) (changes : List Setting) :
    (∀ f, (s.changeAll changes).get f = s.after changes f) ∧
    (s.changeAll changes).visitors = s.visitors ++ accepted changes ∧
    (s.changeAll changes).deleteOptions =
      ⟨some (effectivePolicy (s.after changes .propagation) (s.after changes .cascading)),
        s.after changes .graceSeconds⟩ ∧
    (s.changeAll changes).pipeline.visitors = s.visitors ++ accepted changes ++
      [.resolveNamespace (given (s.after changes .explicitNamespace))
        (given (s.after changes .fallbackNamespace))] ∧
    ∀ changes', (∀ f, lastPut? changes f = lastPut? changes' f) →
      accepted changes = accepted changes' →
      s.changeAll changes = s.changeAll changes' ∧
        (s.changeAll changes).deleteOptions = (s.changeAll changes').deleteOptions ∧
        (s.changeAll changes).pipeline = (s.changeAll changes').pipeline := by
  have field (f : Field) : (s.changeAll changes).get f = s.after changes f :=
    get_changeAll s changes f
  have visitors := visitors_changeAll s changes
  refine ⟨field, visitors, ?_, ?_, fun changes' hfields hvisitors => ?_⟩
  · rw [deleteOptions_eq, ← field .propagation, ← field .cascading, ← field .graceSeconds]
    rfl
  · rw [pipeline_eq, ← visitors, ← field .explicitNamespace, ← field .fallbackNamespace]
    rfl
  · have same := changeAll_congr s hfields hvisitors
    exact ⟨same, congrArg deleteOptions same, congrArg pipeline same⟩

/-- A namespace that is set twice, with a visitor accepted in between. -/
theorem changeAll_fieldwise_twice :
    (({} : Settings).changeAll [.inNamespace "a", .cascading false,
        .accept (.label "app" "web"), .inNamespace "b"]).pipeline =
      (({} : Settings).changeAll
        [.accept (.label "app" "web"), .inNamespace "b", .cascading false]).pipeline := by
  obtain ⟨-, -, -, -, same⟩ := changeAll_fieldwise {}
    [.inNamespace "a", .cascading false, .accept (.label "app" "web"), .inNamespace "b"]
  refine (same [.accept (.label "app" "web"), .inNamespace "b", .cascading false] ?_ rfl).2.2
  intro f
  cases f <;> rfl

end Settings

end Rollout
