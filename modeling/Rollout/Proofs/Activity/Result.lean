/-
  What a program comes to when it is carried out and nobody interferes.

  `LeadsTo` is the whole course of a program, timers included: it begins in one world and ends in
  another one with a result. A sequence of programs leads through the worlds of its parts.
-/
import Rollout.Proofs.Activity.Course

namespace Rollout

variable {σ α β : Type}

theorem Course.bind_ended (c : Course σ α) : (c.bind fun a w => .ended w a) = c := by
  induction c with
  | asleep w t resume ih => exact congrArg (Course.asleep w t) (funext ih)
  | _ => rfl

theorem Course.bind_assoc {γ : Type} (c : Course σ α) (f : α → Activity σ β)
    (g : β → Activity σ γ) : (c.bind f).bind g = c.bind fun a w => (f a w).bind g := by
  induction c with
  | asleep w t resume ih => exact congrArg (Course.asleep w t) (funext ih)
  | _ => rfl

namespace Program

theorem perform_bind (o : Outside σ) (p : Program α) (f : α → Program β) (w : World σ) :
    (p.bind f).perform o w = (p.perform o w).bind fun a => (f a).perform o := by
  induction p generalizing w with
  | done a => rfl
  | call c next ih =>
    have step : ((o.answer c w).bind fun answer => ((next answer).bind f).perform o) =
        ((o.answer c w).bind fun answer => (next answer).perform o).bind
          fun a => (f a).perform o := by
      rw [Course.bind_assoc]
      exact congrArg _ (funext fun answer => funext fun w' => ih answer w')
    exact step

/-- Carried out in `w`, the program ends in `w'` with `a`. -/
def LeadsTo (o : Outside σ) (p : Program α) (w w' : World σ) (a : α) : Prop :=
  (p.perform o w).run = .ended w' a

variable {o : Outside σ} {p : Program α} {f : α → Program β} {w w₁ w₂ : World σ} {a : α} {b : β}

theorem leadsTo_done (o : Outside σ) (a : α) (w : World σ) : (done a).LeadsTo o w w a := rfl

theorem LeadsTo.bind (hp : p.LeadsTo o w w₁ a) (hf : (f a).LeadsTo o w₁ w₂ b) :
    (p.bind f).LeadsTo o w w₂ b := by
  rw [LeadsTo, perform_bind, Course.run_bind, hp]
  exact hf

/-- One call leads to where its answer does. -/
theorem leadsTo_ask {c : Call} {answer : c.Answer} (h : (o.answer c w).run = .ended w₁ answer) :
    (ask c).LeadsTo o w w₁ answer := by
  show ((o.answer c w).bind fun a => pure a).run = _
  rw [Course.run_bind, h]
  rfl

end Program

/-! ## Actions -/

namespace Action

theorem perform_bind (o : Outside σ) (a : Action α) (f : α → Action β) (w : World σ) :
    Action.perform o (a >>= f) w = (Action.perform o a w).bind fun
      | .ok x => Action.perform o (f x)
      | .error e => pure (.error e) := by
  refine (Program.perform_bind o a.run _ w).trans (congrArg _ (funext fun result => ?_))
  cases result <;> rfl

theorem perform_map (o : Outside σ) (f : α → β) (a : Action α) (w : World σ) :
    Action.perform o (f <$> a) w = (Action.perform o a w).bind fun result =>
      pure (result.map f) := by
  refine (perform_bind o a (fun x => pure (f x)) w).trans (congrArg _ (funext fun result => ?_))
  cases result <;> rfl

/-- To attempt an action is to take its failure as a result. -/
theorem perform_attempt (o : Outside σ) (a : Action α) (w : World σ) :
    Action.perform o a.attempt w = (Action.perform o a w).bind fun result =>
      pure (.ok result) :=
  Program.perform_bind o a.run _ w

end Action

end Rollout
