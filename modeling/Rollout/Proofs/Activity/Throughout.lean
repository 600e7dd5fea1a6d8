/-
  What holds at all times of a record that an activity keeps to itself.

  The record stands beside the state. While the activity sleeps, others may change the state in any
  way, but not the record. `Throughout` says what holds of the record at every moment before the
  activity ends, and of the record and the result where it ends. An activity with a record is the
  activity that is left when the record is forgotten (`Forgets`).
-/
import Rollout.Proofs.Activity.Record

namespace Rollout

variable {σ ρ α β : Type}

/-! ## Holding throughout -/

namespace Course

/-- As long as the course has not ended, `held` holds of the record; where it ends, `post` does. -/
def Throughout (held : ρ → Prop) (post : ρ → α → Prop) : Course (σ × ρ) α → Prop
  | .ended w a => post w.state.2 a
  | .asleep w _ resume => held w.state.2 ∧
      ∀ w' : World (σ × ρ), w'.state.2 = w.state.2 → (resume w').Throughout held post
  | .stuck w | .crashed w | .unsettled w => held w.state.2

namespace Throughout

variable {held : ρ → Prop} {post : ρ → α → Prop} {c : Course (σ × ρ) α}

theorem bind {post' : ρ → β → Prop} {f : α → Activity (σ × ρ) β} (h : c.Throughout held post)
    (hf : ∀ a (w : World (σ × ρ)), post w.state.2 a → (f a w).Throughout held post') :
    (c.bind f).Throughout held post' := by
  induction c with
  | ended w a => exact hf a w h
  | asleep w t resume ih => exact ⟨h.1, fun w' hw' => ih w' (h.2 w' hw')⟩
  | _ => exact h

theorem mono {held' : ρ → Prop} {post' : ρ → α → Prop} (h : c.Throughout held post)
    (hheld : ∀ record, held record → held' record)
    (hpost : ∀ record a, post record a → post' record a) : c.Throughout held' post' := by
  induction c with
  | ended w a => exact hpost _ a h
  | asleep w t resume ih => exact ⟨hheld _ h.1, fun w' hw' => ih w' (h.2 w' hw')⟩
  | _ => exact hheld _ h

/-- A course that is cut off had not ended, so what held before it ended still holds. -/
theorem upTo (t : Timer) (h : c.Throughout held post) :
    (c.upTo t).Throughout held fun record result =>
      result.elim (held record) (post record) := by
  have cutOff {w : World (σ × ρ)} (hw : held w.state.2) :
      (Course.asleep w t fun w => .ended w (none : Option α)).Throughout held
        fun record result => result.elim (held record) (post record) :=
    ⟨hw, fun w' hw' => show held w'.state.2 from hw' ▸ hw⟩
  induction c with
  | ended w a => exact h
  | asleep w s resume ih =>
    rw [Course.upTo]
    split
    · exact ⟨h.1, fun w' hw' => ih w' (h.2 w' hw')⟩
    · exact cutOff h.1
  | stuck w => exact cutOff h
  | _ => exact h

/-- Where the course runs to, what it comes to holds. -/
theorem run {w : World (σ × ρ)} {a : α} (h : c.Throughout held post) (hrun : c.run = .ended w a) :
    post w.state.2 a := by
  induction c with
  | ended w' a' =>
    obtain ⟨rfl, rfl⟩ := Course.ended.inj hrun
    exact h
  | asleep w' t resume ih => exact ih (w'.reach t) (h.2 _ rfl) hrun
  | _ => cases hrun

/-- A course whose record is set aside, and held at `record`, throughout holds what does there. -/
theorem besideRecord {record : ρ} (hrecord : held record) (c : Course σ α)
    (hpost : ∀ a, post record a) : (c.besideRecord record).Throughout held post := by
  induction c with
  | ended w a => exact hpost a
  | asleep w t resume ih =>
    refine ⟨hrecord, fun w' hw' => ?_⟩
    obtain rfl : w'.state.2 = record := hw'
    exact ih _
  | _ => exact hrecord

end Throughout

end Course

namespace Activity

/-- Started with a record of which `pre` holds, the activity keeps to `held`, and to `post` where it
ends. -/
def Throughout (pre held : ρ → Prop) (post : ρ → α → Prop) (act : Activity (σ × ρ) α) : Prop :=
  ∀ w : World (σ × ρ), pre w.state.2 → (act w).Throughout held post

variable {pre held : ρ → Prop} {post : ρ → α → Prop} {post' : ρ → β → Prop}

theorem throughout_pure {a : α} (h : ∀ record, pre record → post record a) :
    (pure a : Activity (σ × ρ) α).Throughout pre held post := fun _ hw => h _ hw

theorem Throughout.bind {act : Activity (σ × ρ) α} {f : α → Activity (σ × ρ) β}
    (hact : act.Throughout pre held post)
    (hf : ∀ a, (f a).Throughout (fun record => post record a) held post') :
    (act >>= f).Throughout pre held post' :=
  fun w hw => (hact w hw).bind fun a w' hw' => hf a w' hw'

theorem throughout_sleep (d : Duration) (h : ∀ record, pre record → held record) :
    (sleep d : Activity (σ × ρ) Unit).Throughout pre held fun record _ => pre record :=
  fun _ hw => ⟨h _ hw, fun w' hw' => show pre w'.state.2 from hw' ▸ hw⟩

/-- Turns that lead from `inv` of what they start from to `inv` of what they yield, or to `post`,
make a loop that leads to `post`. -/
theorem throughout_repeated {turn : β → Activity (σ × ρ) (β ⊕ α)} {inv : β → ρ → Prop}
    (hturn : ∀ b, (turn b).Throughout (inv b) held fun record next =>
      Sum.elim (fun b => inv b record) (post record) next)
    (hinv : ∀ b record, inv b record → held record) (n : Nat) (b : β) :
    (repeated turn n b).Throughout (inv b) held post := by
  induction n generalizing b with
  | zero => exact fun w hw => hinv b _ hw
  | succ n ih =>
    refine (hturn b).bind fun next => ?_
    cases next with
    | inl b => exact ih b
    | inr a => exact throughout_pure fun _ h => h

theorem Throughout.within {act : Activity (σ × ρ) α} (h : act.Throughout pre held post)
    (limit : Duration) : (act.within limit).Throughout pre held fun record result =>
      result.elim (held record) (post record) :=
  fun w hw => (h (w.setTimer limit).2 hw).upTo (w.setTimer limit).1

end Activity

/-! ## Forgetting the record -/

namespace Course

/-- The course that is left when the record is forgotten, which nobody else changes. -/
def forget : Course (σ × ρ) α → Course σ α
  | .ended w a => .ended w.withoutRecord a
  | .asleep w t resume => .asleep w.withoutRecord t fun w' =>
      (resume (w'.withRecord w.state.2)).forget
  | .stuck w => .stuck w.withoutRecord
  | .crashed w => .crashed w.withoutRecord
  | .unsettled w => .unsettled w.withoutRecord

theorem forget_besideRecord (c : Course σ α) (record : ρ) :
    (c.besideRecord record).forget = c := by
  induction c with
  | asleep w t resume ih => exact congrArg (Course.asleep w t) (funext ih)
  | _ => rfl

theorem forget_bind (c : Course (σ × ρ) α) {f : α → Activity (σ × ρ) β} {g : α → Activity σ β}
    (h : ∀ a w, (f a w).forget = g a w.withoutRecord) : (c.bind f).forget = c.forget.bind g := by
  induction c with
  | ended w a => exact h a w
  | asleep w t resume ih => exact congrArg (Course.asleep _ t) (funext fun w' => ih _)
  | _ => rfl

theorem forget_upTo (c : Course (σ × ρ) α) (t : Timer) : (c.upTo t).forget = c.forget.upTo t := by
  induction c with
  | asleep w s resume ih =>
    rw [forget, Course.upTo, Course.upTo]
    by_cases h : w.now < t.due ∧ s.due ≤ t.due
    · rw [if_pos h, if_pos (show w.withoutRecord.now < t.due ∧ _ from h)]
      exact congrArg (Course.asleep _ s) (funext fun w' => ih _)
    · rw [if_neg h, if_neg (show ¬ (w.withoutRecord.now < t.due ∧ _) from h)]
      rfl
  | _ => rfl

end Course

namespace Activity

/-- `act` is `plain` with a record beside it. -/
def Forgets (act : Activity (σ × ρ) α) (plain : Activity σ α) : Prop :=
  ∀ w, (act w).forget = plain w.withoutRecord

theorem forgets_pure (a : α) : (pure a : Activity (σ × ρ) α).Forgets (pure a) := fun _ => rfl

theorem forgets_sleep (d : Duration) : (sleep d : Activity (σ × ρ) Unit).Forgets (sleep d) :=
  fun _ => rfl

theorem Forgets.bind {act : Activity (σ × ρ) α} {plain : Activity σ α}
    {f : α → Activity (σ × ρ) β} {g : α → Activity σ β} (h : act.Forgets plain)
    (hf : ∀ a, (f a).Forgets (g a)) : (act >>= f).Forgets (plain >>= g) := by
  intro w
  show ((act w).bind f).forget = (plain w.withoutRecord).bind g
  rw [Course.forget_bind (act w) hf, h w]

theorem forgets_repeated {turn : β → Activity (σ × ρ) (β ⊕ α)} {plain : β → Activity σ (β ⊕ α)}
    (h : ∀ b, (turn b).Forgets (plain b)) (n : Nat) (b : β) :
    (repeated turn n b).Forgets (repeated plain n b) := by
  induction n generalizing b with
  | zero => exact fun w => rfl
  | succ n ih =>
    refine (h b).bind fun next => ?_
    cases next with
    | inl b => exact ih b
    | inr a => exact forgets_pure a

theorem Forgets.within {act : Activity (σ × ρ) α} {plain : Activity σ α} (h : act.Forgets plain)
    (limit : Duration) : (act.within limit).Forgets (plain.within limit) := by
  intro w
  show ((act (w.setTimer limit).2).upTo _).forget = (plain _).upTo _
  rw [Course.forget_upTo, h]
  rfl

end Activity

end Rollout
