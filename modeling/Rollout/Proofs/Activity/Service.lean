/-
  What a program comes to is one of its runs, with the answers of the outside.

  `Outside.Serves` is what the outside does while a program runs: it answers the calls one after the
  other, and each answer leads from one world to the next. A program leads to a result if the
  outside serves a run with this result (`leadsTo_iff`); so what is known of runs, whatever the
  answers are, can be put together with what is known of the answers.
-/
import Rollout.Proofs.Activity.Result
import Rollout.Proofs.Program.Run

namespace Rollout

variable {σ α β : Type}

/-- What follows a course ends if both end. -/
theorem Course.run_bind_eq_ended_iff {c : Course σ α} {f : α → Activity σ β} {w : World σ} {b : β} :
    (c.bind f).run = .ended w b ↔ ∃ w₁ a, c.run = .ended w₁ a ∧ (f a w₁).run = .ended w b := by
  induction c with
  | ended w₁ a =>
    refine ⟨fun h => ⟨w₁, a, rfl, h⟩, ?_⟩
    rintro ⟨_, _, heq, h⟩
    obtain ⟨rfl, rfl⟩ := Course.ended.inj heq
    exact h
  | asleep w' t resume ih => exact ih _
  | _ => exact ⟨nofun, fun ⟨_, _, h, _⟩ => nomatch h⟩

/-- From `w` to `w'`, the outside answers these calls one after the other. -/
inductive Outside.Serves (o : Outside σ) : World σ → List Event → World σ → Prop where
  | nil (w : World σ) : Serves o w [] w
  | cons {c : Call} {answer : c.Answer} {w w₁ w' : World σ} {events : List Event}
      (h : (o.answer c w).run = .ended w₁ answer) (hrest : Serves o w₁ events w') :
      Serves o w (⟨c, answer⟩ :: events) w'

theorem Outside.Serves.append {o : Outside σ} {w w₁ w' : World σ} {events events' : List Event}
    (h : o.Serves w events w₁) (h' : o.Serves w₁ events' w') :
    o.Serves w (events ++ events') w' := by
  induction h with
  | nil w => exact h'
  | cons h _ ih => exact .cons h (ih h')

theorem Program.leadsTo_iff {o : Outside σ} {p : Program α} {w w' : World σ} {a : α} :
    p.LeadsTo o w w' a ↔ ∃ events, p.Runs events a ∧ o.Serves w events w' := by
  induction p generalizing w with
  | done b =>
    constructor
    · intro h
      obtain ⟨rfl, rfl⟩ := Course.ended.inj h
      exact ⟨[], .done _, .nil _⟩
    · rintro ⟨events, hrun, hserves⟩
      obtain ⟨rfl, rfl⟩ := runs_done_iff.1 hrun
      cases hserves
      rfl
  | call c next ih =>
    show ((o.answer c w).bind fun answer => (next answer).perform o).run = _ ↔ _
    rw [Course.run_bind_eq_ended_iff]
    constructor
    · rintro ⟨w₁, answer, hanswer, hnext⟩
      obtain ⟨events, hrun, hserves⟩ := (ih answer).1 hnext
      exact ⟨_, .call hrun, .cons hanswer hserves⟩
    · rintro ⟨events, hrun, hserves⟩
      obtain ⟨answer, rest, rfl, hnext⟩ := runs_call_iff.1 hrun
      cases hserves with
      | cons hanswer hrest => exact ⟨_, answer, hanswer, (ih answer).2 ⟨rest, hnext, hrest⟩⟩

end Rollout
