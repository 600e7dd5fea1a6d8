/-
  What activities ensure while others act beside them.

  `heard` reads a record off the state: what was asked of the outside so far, with the answers.
  While an activity sleeps, others may change the state in any way that only adds to the record. An
  activity ensures `post` if it only adds to the record itself, and `post` holds of the record and
  the result where it ends. Nothing is said of an activity that does not end.
-/
import Rollout.Proofs.Activity.Course
import Rollout.Proofs.Program.Run

namespace Rollout

variable {σ α β : Type}

namespace Course

/-- From a moment on at which the record was `before`, the course ensures `post`. -/
def Ensures (heard : σ → List Event) (post : List Event → α → Prop) (before : List Event) :
    Course σ α → Prop
  | .ended w a => before <+: heard w.state ∧ post (heard w.state) a
  | .asleep w _ resume => before <+: heard w.state ∧
      ∀ w' : World σ, heard w.state <+: heard w'.state →
        (resume w').Ensures heard post (heard w'.state)
  | .stuck w | .crashed w | .unsettled w => before <+: heard w.state

namespace Ensures

variable {heard : σ → List Event} {post : List Event → α → Prop}
  {post' : List Event → β → Prop} {before : List Event} {c : Course σ α}

theorem prefix_world (h : c.Ensures heard post before) : before <+: heard c.world.state := by
  cases c with
  | ended w a | asleep w t resume => exact h.1
  | _ => exact h

/-- What is ensured from a moment on is ensured from an earlier one on. -/
theorem earlier {first : List Event} (h : c.Ensures heard post before) (hfirst : first <+: before) :
    c.Ensures heard post first := by
  cases c with
  | ended w a | asleep w t resume => exact ⟨hfirst.trans h.1, h.2⟩
  | _ => exact hfirst.trans h

theorem mono {post' : List Event → α → Prop} (h : c.Ensures heard post before)
    (hpost : ∀ record a, before <+: record → post record a → post' record a) :
    c.Ensures heard post' before := by
  induction c generalizing before with
  | ended w a => exact ⟨h.1, hpost _ a h.1 h.2⟩
  | asleep w t resume ih =>
    exact ⟨h.1, fun w' hw' => ih w' (h.2 w' hw') fun record a hrecord =>
      hpost record a ((h.1.trans hw').trans hrecord)⟩
  | _ => exact h

theorem bind {f : α → Activity σ β} (h : c.Ensures heard post before)
    (hf : ∀ a (w : World σ), before <+: heard w.state → post (heard w.state) a →
      (f a w).Ensures heard post' (heard w.state)) : (c.bind f).Ensures heard post' before := by
  induction c generalizing before with
  | ended w a => exact (hf a w h.1 h.2).earlier h.1
  | asleep w t resume ih =>
    exact ⟨h.1, fun w' hw' => ih w' (h.2 w' hw') fun a w'' hw'' =>
      hf a w'' ((h.1.trans hw').trans hw'')⟩
  | _ => exact h

/-- Nothing is ensured of a course that was cut off. -/
theorem upTo (t : Timer) (h : c.Ensures heard post before) :
    (c.upTo t).Ensures heard (fun record result => ∀ a, result = some a → post record a)
      before := by
  have cutOff {since : List Event} {w : World σ} (hw : since <+: heard w.state) :
      (Course.asleep w t fun w => .ended w none).Ensures heard
        (fun record result => ∀ a, result = some a → post record a) since :=
    ⟨hw, fun w' _ => ⟨List.prefix_rfl, fun a ha => by cases ha⟩⟩
  induction c generalizing before with
  | ended w a => exact ⟨h.1, fun a' ha => Option.some.inj ha ▸ h.2⟩
  | asleep w s resume ih =>
    rw [Course.upTo]
    split
    · exact ⟨h.1, fun w' hw' => ih w' (h.2 w' hw')⟩
    · exact cutOff h.1
  | stuck w => exact cutOff h
  | _ => exact h

/-- Where the course runs to, what it ensures holds. -/
theorem run {w : World σ} {a : α} (h : c.Ensures heard post before) (hrun : c.run = .ended w a) :
    before <+: heard w.state ∧ post (heard w.state) a := by
  induction c generalizing before with
  | ended w' a' =>
    obtain ⟨rfl, rfl⟩ := Course.ended.inj hrun
    exact h
  | asleep w' t resume ih =>
    obtain ⟨hw, hpost⟩ := ih (w'.reach t) (h.2 (w'.reach t) List.prefix_rfl) hrun
    exact ⟨h.1.trans hw, hpost⟩
  | _ => cases hrun

end Ensures

end Course

namespace Activity

/-- Started at a moment at which the record begins with `first`, the activity ensures `post`. -/
def Ensures (heard : σ → List Event) (first : List Event) (post : List Event → α → Prop)
    (act : Activity σ α) : Prop :=
  ∀ w : World σ, first <+: heard w.state → (act w).Ensures heard post (heard w.state)

variable {heard : σ → List Event} {first : List Event} {post : List Event → α → Prop}
  {post' : List Event → β → Prop}

theorem Ensures.app {act : Activity σ α} (h : act.Ensures heard first post) {w : World σ}
    (hw : first <+: heard w.state) : (act w).Ensures heard post (heard w.state) := h w hw

theorem ensures_pure {a : α} (h : ∀ record, first <+: record → post record a) :
    (pure a : Activity σ α).Ensures heard first post :=
  fun _ hw => ⟨List.prefix_rfl, h _ hw⟩

theorem Ensures.bind {act : Activity σ α} {f : α → Activity σ β}
    (hact : act.Ensures heard first post)
    (hf : ∀ a (w : World σ), first <+: heard w.state → post (heard w.state) a →
      (f a w).Ensures heard post' (heard w.state)) : (act >>= f).Ensures heard first post' :=
  fun w hw => (hact w hw).bind fun a w' hw' => hf a w' (hw.trans hw')

theorem ensures_sleep (d : Duration) :
    (sleep d : Activity σ Unit).Ensures heard first fun _ _ => True :=
  fun _ _ => ⟨List.prefix_rfl, fun _ _ => ⟨List.prefix_rfl, trivial⟩⟩

/-- Turns that ensure `post` of what they yield at last make a loop that does. -/
theorem ensures_repeated {turn : β → Activity σ (β ⊕ α)}
    (h : ∀ b, (turn b).Ensures heard first fun record next => ∀ a, next = .inr a → post record a)
    (n : Nat) (b : β) : (repeated turn n b).Ensures heard first post := by
  induction n generalizing b with
  | zero => exact fun w _ => List.prefix_rfl
  | succ n ih =>
    refine (h b).bind fun next w hw hnext => ?_
    cases next with
    | inl b => exact ih b w hw
    | inr a => exact ⟨List.prefix_rfl, hnext a rfl⟩

theorem Ensures.within {act : Activity σ α} (h : act.Ensures heard first post) (limit : Duration) :
    (act.within limit).Ensures heard first fun record result =>
      ∀ a, result = some a → post record a :=
  fun w hw => (h (w.setTimer limit).2 hw).upTo (w.setTimer limit).1

end Activity

end Rollout
