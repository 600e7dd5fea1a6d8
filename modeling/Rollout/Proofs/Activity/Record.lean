/-
  Outsides that keep a record of what they were asked.

  An answer is added to the record at the moment at which it is given, and nothing else changes the
  record (`Outside.Records`). Any outside can be made to keep one (`Outside.recorded`). A program
  that is carried out makes one of its runs, and the calls of this run are added to the record, in
  order, though others may add theirs in between (`Program.ensures_perform`).
-/
import Rollout.Proofs.Activity.Ensures

namespace Rollout

variable {σ α ρ : Type}

/-! ## What was added to a record -/

/-- Since the record was `before`, these events were added to it, in order, perhaps among others. -/
def Added (before record events : List Event) : Prop :=
  ∃ new, record = before ++ new ∧ events.Sublist new

namespace Added

variable {before record after events events' : List Event}

theorem nil (h : before <+: record) : Added before record [] := by
  obtain ⟨new, rfl⟩ := h
  exact ⟨new, rfl, List.nil_sublist new⟩

theorem trans (h : Added before record events) (h' : Added record after events') :
    Added before after (events ++ events') := by
  obtain ⟨new, rfl, hnew⟩ := h
  obtain ⟨new', rfl, hnew'⟩ := h'
  exact ⟨new ++ new', List.append_assoc _ _ _, hnew.append hnew'⟩

theorem later (h : Added before record events) (hafter : record <+: after) :
    Added before after events := by
  have := h.trans (.nil hafter)
  rwa [List.append_nil] at this

theorem earlier (h : Added record after events) (hbefore : before <+: record) :
    Added before after events := (nil hbefore).trans h

theorem sublist {part : List Event} (h : Added before record events) (hpart : part.Sublist events) :
    Added before record part := by
  obtain ⟨new, heq, hnew⟩ := h
  exact ⟨new, heq, hpart.trans hnew⟩

theorem mem {e : Event} (h : Added before record [e]) :
    ∃ new, record = before ++ new ∧ e ∈ new := by
  obtain ⟨new, heq, hnew⟩ := h
  exact ⟨new, heq, List.singleton_sublist.1 hnew⟩

end Added

/-! ## Keeping a record -/

/-- The course leaves the record as it is, `before`, but where it ends, it adds its answer to the
call `c`. While it sleeps, others may change the record. -/
def Course.Notes (heard : σ → List Event) (c : Call) (before : List Event) :
    Course σ c.Answer → Prop
  | .ended w answer => heard w.state = before ++ [⟨c, answer⟩]
  | .asleep w _ resume => heard w.state = before ∧
      ∀ w' : World σ, (resume w').Notes heard c (heard w'.state)
  | .stuck w | .crashed w | .unsettled w => heard w.state = before

/-- The outside keeps the record that `heard` reads off its state. -/
def Outside.Records (o : Outside σ) (heard : σ → List Event) : Prop :=
  ∀ c w, (o.answer c w).Notes heard c (heard w.state)

theorem Course.Notes.ensures {heard : σ → List Event} {c : Call} {before : List Event}
    {course : Course σ c.Answer} (h : course.Notes heard c before) :
    course.Ensures heard (fun record answer => Added before record [⟨c, answer⟩]) before := by
  induction course generalizing before with
  | ended w answer => exact ⟨⟨_, h.symm⟩, _, h, .refl _⟩
  | asleep w t resume ih =>
    obtain ⟨hbefore, hresume⟩ := h
    subst hbefore
    exact ⟨List.prefix_rfl, fun w' hw' => (ih w' (hresume w')).mono fun _ _ _ hadded =>
      hadded.earlier hw'⟩
  | _ => exact h ▸ List.prefix_rfl

/-- A program that is carried out makes one of its runs. -/
theorem Program.ensures_perform {o : Outside σ} {heard : σ → List Event} (records : o.Records heard)
    (p : Program α) (w : World σ) : (p.perform o w).Ensures heard
      (fun record a => ∃ events, p.Runs events a ∧ Added (heard w.state) record events)
      (heard w.state) := by
  induction p generalizing w with
  | done a => exact ⟨List.prefix_rfl, [], .done a, .nil List.prefix_rfl⟩
  | call c next ih =>
    refine (records c w).ensures.bind fun answer w' _ hanswer => (ih answer w').mono ?_
    rintro record a - ⟨events, hruns, hadded⟩
    exact ⟨_, .call hruns, hanswer.trans hadded⟩

/-! ## Making an outside keep a record -/

/-- The world with a record beside the state. -/
def World.withRecord (w : World σ) (record : ρ) : World (σ × ρ) :=
  ⟨w.now, w.timers, (w.state, record)⟩

def World.withoutRecord (w : World (σ × ρ)) : World σ := ⟨w.now, w.timers, w.state.1⟩

/-- The course with a record beside the state, on which it has no influence. -/
def Course.besideRecord (record : ρ) : Course σ α → Course (σ × ρ) α
  | .ended w a => .ended (w.withRecord record) a
  | .asleep w t resume => .asleep (w.withRecord record) t fun w' =>
      (resume w'.withoutRecord).besideRecord w'.state.2
  | .stuck w => .stuck (w.withRecord record)
  | .crashed w => .crashed (w.withRecord record)
  | .unsettled w => .unsettled (w.withRecord record)

/-- The outside with a record beside its state. -/
def Outside.recorded (o : Outside σ) : Outside (σ × List Event) where
  answer c := fun w => ((o.answer c w.withoutRecord).besideRecord w.state.2).bind fun answer w =>
    .ended { w with state := (w.state.1, w.state.2 ++ [⟨c, answer⟩]) } answer

theorem Outside.records_recorded (o : Outside σ) : o.recorded.Records Prod.snd := by
  intro c w
  show ((Course.besideRecord w.state.2 (o.answer c w.withoutRecord)).bind _).Notes _ _ _
  generalize o.answer c w.withoutRecord = course, w.state.2 = record
  induction course generalizing record with
  | asleep w t resume ih => exact ⟨rfl, fun w' => ih w'.withoutRecord w'.state.2⟩
  | _ => rfl

end Rollout
