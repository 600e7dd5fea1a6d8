/-
  What holds of every course: how it runs, and what may come of it.

  A course is a tree with one branch for every world in which a timer may fire. `Reports` looks for
  a result anywhere in the tree. `Tireless` looks only at the worlds in which a timer may fire at
  all, those that have reached its instant: there a tireless course ends, sleeps, waits for what
  never comes or crashes, but it never runs out of turns.
-/
import Rollout.Activity

namespace Rollout

variable {σ α β : Type}

namespace Course

/-! ## Running -/

theorem run_bind (c : Course σ α) (f : α → Activity σ β) :
    (c.bind f).run = (c.run.bind f).run := by
  induction c with
  | asleep w t resume ih => exact ih _
  | _ => rfl

/-- A course that is only told what to make of its result comes to what was made of it. -/
theorem run_bind_pure_iff {c : Course σ α} {f : α → β} {w : World σ} {b : β} :
    (c.bind fun a => pure (f a)).run = .ended w b ↔ ∃ a, c.run = .ended w a ∧ b = f a := by
  induction c with
  | ended w' a =>
    constructor
    · intro h
      obtain ⟨rfl, rfl⟩ := Course.ended.inj h
      exact ⟨a, rfl, rfl⟩
    · rintro ⟨a', h, rfl⟩
      obtain ⟨rfl, rfl⟩ := Course.ended.inj h
      rfl
  | asleep w' t resume ih => exact ih _
  | _ => exact ⟨nofun, fun ⟨_, h, _⟩ => nomatch h⟩

/-! ## What may come of a course -/

/-- The course ends with `a` if its timers fire in the right worlds. -/
def Reports (a : α) : Course σ α → Prop
  | .ended _ b => b = a
  | .asleep _ _ resume => ∃ w, (resume w).Reports a
  | _ => False

/-- The course never runs out of turns. -/
def Tireless : Course σ α → Prop
  | .asleep _ t resume => ∀ w : World σ, t.due ≤ w.now → (resume w).Tireless
  | .unsettled _ => False
  | _ => True

theorem Tireless.bind {c : Course σ α} {f : α → Activity σ β} (hc : c.Tireless)
    (hf : ∀ a w, (f a w).Tireless) : (c.bind f).Tireless := by
  induction c with
  | ended w a => exact hf a w
  | asleep w t resume ih => exact fun w' hw' => ih w' (hc w' hw')
  | unsettled w => exact hc.elim
  | _ => trivial

end Course

namespace Activity

/-- Somewhere and in some world, the activity ends with `a`. -/
def Reports (act : Activity σ α) (a : α) : Prop := ∃ w, (act w).Reports a

/-- The activity never runs out of turns, wherever it starts. -/
def Tireless (act : Activity σ α) : Prop := ∀ w, (act w).Tireless

/-- A program never runs out of turns if nobody who answers it does. -/
theorem tireless_perform {o : Outside σ} (ho : ∀ c, (o.answer c).Tireless) (p : Program α) :
    (p.perform o).Tireless := by
  induction p with
  | done a => exact fun w => trivial
  | call c next ih => exact fun w => (ho c w).bind fun answer => ih answer

end Activity

end Rollout
