/-
  Punctual activities: time passes only while they sleep.

  Between two sleeps a punctual course stands still at one instant, and it sleeps only for timers
  that were set after a given number of them. Activities are put together from punctual parts, and
  nothing but the outside takes time or sets timers beside `sleep` and `within`; so whatever is
  carried out is punctual if the outside is (`Program.punctual_perform`).
-/
import Rollout.Proofs.Activity.Course

namespace Rollout

variable {σ α β : Type}

/-- The second world is at the instant of the first one; timers may have been set in between. -/
structure World.AtOnce (w w' : World σ) : Prop where
  now : w'.now = w.now
  timers : w.timers ≤ w'.timers

namespace World.AtOnce

theorem refl (w : World σ) : w.AtOnce w := ⟨rfl, Nat.le_refl _⟩

theorem trans {w w₁ w₂ : World σ} (h : w.AtOnce w₁) (h' : w₁.AtOnce w₂) : w.AtOnce w₂ :=
  ⟨h'.now.trans h.now, Nat.le_trans h.timers h'.timers⟩

theorem setTimer (w : World σ) (d : Duration) : w.AtOnce (w.setTimer d).2 := ⟨rfl, Nat.le_succ _⟩

end World.AtOnce

/-! ## Courses -/

namespace Course

/-- The course begins at the instant of `since` and goes on, whenever a timer that it sleeps for has
fired, at the instant of that moment. Its timers are those from `first` on. -/
def Punctual (first : Nat) (since : World σ) : Course σ α → Prop
  | .asleep w t resume => since.AtOnce w ∧ first ≤ t.order ∧
      ∀ w' : World σ, t.due ≤ w'.now → first ≤ w'.timers → (resume w').Punctual first w'
  | .ended w _ | .stuck w | .crashed w | .unsettled w => since.AtOnce w

namespace Punctual

variable {first : Nat} {since : World σ} {c : Course σ α}

theorem atOnce (h : c.Punctual first since) : since.AtOnce c.world := by
  cases c with
  | asleep w t resume => exact h.1
  | _ => exact h

theorem earlier {w : World σ} (h : c.Punctual first w) (hw : since.AtOnce w) :
    c.Punctual first since := by
  cases c with
  | asleep w' t resume => exact ⟨hw.trans h.1, h.2⟩
  | _ => exact hw.trans h

theorem bind {f : α → Activity σ β} (h : c.Punctual first since) (hsince : first ≤ since.timers)
    (hf : ∀ a w, first ≤ w.timers → (f a w).Punctual first w) :
    (c.bind f).Punctual first since := by
  induction c generalizing since with
  | ended w a => exact (hf a w (Nat.le_trans hsince h.timers)).earlier h
  | asleep w t resume ih => exact ⟨h.1, h.2.1, fun w' due hw' => ih w' (h.2.2 w' due hw') hw'⟩
  | _ => exact h

theorem upTo {t : Timer} (h : c.Punctual first since) (ht : first ≤ t.order) :
    (c.upTo t).Punctual first since := by
  have cutOff {since w : World σ} (hw : since.AtOnce w) :
      (asleep w t fun w => .ended w (none : Option α)).Punctual first since :=
    ⟨hw, ht, fun w' _ _ => .refl w'⟩
  induction c generalizing since with
  | asleep w s resume ih =>
    rw [Course.upTo]
    split
    · exact ⟨h.1, h.2.1, fun w' due hw' => ih w' (h.2.2 w' due hw')⟩
    · exact cutOff h.1
  | stuck w => exact cutOff h
  | _ => exact h

end Punctual

end Course

/-! ## Activities -/

namespace Activity

/-- Wherever it starts, the activity lets time pass only while it sleeps, for timers of its own. -/
def Punctual (act : Activity σ α) : Prop :=
  ∀ first w, first ≤ w.timers → (act w).Punctual first w

theorem punctual_pure (a : α) : (pure a : Activity σ α).Punctual := fun _ w _ => .refl w

theorem punctual_giveUp : (giveUp : Activity σ α).Punctual := fun _ w _ => .refl w

theorem punctual_sleep (d : Duration) : (sleep d : Activity σ Unit).Punctual :=
  fun _ w hw => ⟨.setTimer w d, hw, fun w' _ _ => .refl w'⟩

theorem Punctual.bind {act : Activity σ α} {f : α → Activity σ β} (h : act.Punctual)
    (hf : ∀ a, (f a).Punctual) : (act >>= f).Punctual :=
  fun first w hw => (h first w hw).bind hw fun a => hf a first

theorem Punctual.within {act : Activity σ α} (h : act.Punctual) (limit : Duration) :
    (act.within limit).Punctual := fun first w hw =>
  have later := h first (w.setTimer limit).2 (Nat.le_trans hw (Nat.le_succ _))
  (later.earlier (.setTimer w limit)).upTo hw

theorem punctual_repeated {turn : β → Activity σ (β ⊕ α)} (h : ∀ b, (turn b).Punctual) (n : Nat)
    (b : β) : (repeated turn n b).Punctual := by
  induction n generalizing b with
  | zero => exact punctual_giveUp
  | succ n ih =>
    refine (h b).bind fun next => ?_
    cases next with
    | inl b => exact ih b
    | inr a => exact punctual_pure a

end Activity

/-! ## What is carried out -/

/-- Whoever answers a call lets time pass only while it sleeps. -/
def Outside.Punctual (o : Outside σ) : Prop := ∀ c, (o.answer c).Punctual

theorem Program.punctual_perform {o : Outside σ} (ho : o.Punctual) (p : Program α) :
    (p.perform o).Punctual := by
  induction p with
  | done a => exact Activity.punctual_pure a
  | call c next ih => exact (ho c).bind ih

end Rollout
