/-
  Runs of programs: a run is a path through the tree of calls, given by the calls made, each with
  its answer, and by the result.

  A run of a sequence of programs is a run of the first followed by a run of the second
  (`runs_bind_iff`). What a program asks is decided by the answers so far, so two runs that begin
  alike are the same as far as the shorter one goes (`Runs.eq_of_append_eq`).
-/
import Rollout.Program

namespace Rollout

/-- A call with the answer that it got. -/
abbrev Event : Type := (c : Call) × c.Answer

namespace Program

variable {α β : Type}

/-- The program may make these calls, get these answers to them and come to this result. -/
inductive Runs : Program α → List Event → α → Prop where
  | done (a : α) : Runs (.done a) [] a
  | call {c : Call} {next : c.Answer → Program α} {answer : c.Answer} {events : List Event} {a : α}
      (h : Runs (next answer) events a) : Runs (.call c next) (⟨c, answer⟩ :: events) a

@[simp] theorem runs_done_iff {a b : α} {events : List Event} :
    Runs (.done a) events b ↔ events = [] ∧ b = a := by
  constructor
  · intro h
    cases h
    exact ⟨rfl, rfl⟩
  · rintro ⟨rfl, rfl⟩
    exact .done b

theorem runs_call_iff {c : Call} {next : c.Answer → Program α} {events : List Event} {a : α} :
    Runs (.call c next) events a ↔
      ∃ answer rest, events = ⟨c, answer⟩ :: rest ∧ Runs (next answer) rest a := by
  constructor
  · intro h
    cases h with
    | call h => exact ⟨_, _, rfl, h⟩
  · rintro ⟨answer, rest, rfl, h⟩
    exact .call h

theorem runs_ask_iff {c : Call} {events : List Event} {answer : c.Answer} :
    (ask c).Runs events answer ↔ events = [⟨c, answer⟩] := by
  constructor
  · intro h
    obtain ⟨_, _, rfl, hdone⟩ := runs_call_iff.1 h
    obtain ⟨rfl, rfl⟩ := runs_done_iff.1 hdone
    rfl
  · rintro rfl
    exact .call (.done answer)

theorem runs_bind_iff {p : Program α} {f : α → Program β} {events : List Event} {b : β} :
    (p.bind f).Runs events b ↔
      ∃ first rest a, events = first ++ rest ∧ p.Runs first a ∧ (f a).Runs rest b := by
  induction p generalizing events with
  | done a =>
    constructor
    · intro h
      exact ⟨[], events, a, rfl, .done a, h⟩
    · rintro ⟨first, rest, a', rfl, hp, hf⟩
      obtain ⟨rfl, rfl⟩ := runs_done_iff.1 hp
      exact hf
  | call c next ih =>
    simp only [call_bind, runs_call_iff, ih]
    constructor
    · rintro ⟨answer, _, rfl, first, rest, a, rfl, hp, hf⟩
      exact ⟨⟨c, answer⟩ :: first, rest, a, rfl, ⟨answer, first, rfl, hp⟩, hf⟩
    · rintro ⟨_, rest, a, rfl, ⟨answer, first, rfl, hp⟩, hf⟩
      exact ⟨answer, first ++ rest, rfl, first, rest, a, rfl, hp, hf⟩

theorem runs_bind_done_iff {p : Program α} {g : α → β} {events : List Event} {b : β} :
    (p.bind fun a => .done (g a)).Runs events b ↔ ∃ a, p.Runs events a ∧ b = g a := by
  rw [runs_bind_iff]
  constructor
  · rintro ⟨first, rest, a, rfl, hp, hdone⟩
    obtain ⟨rfl, rfl⟩ := runs_done_iff.1 hdone
    exact ⟨a, by rwa [List.append_nil], rfl⟩
  · rintro ⟨a, hp, rfl⟩
    exact ⟨events, [], a, (List.append_nil events).symm, hp, .done _⟩

/-- Of two runs of a program neither is a proper beginning of the other. -/
theorem Runs.eq_of_append_eq {p : Program α} {first first' rest rest' : List Event} {a a' : α}
    (h : p.Runs first a) (h' : p.Runs first' a') (heq : first ++ rest = first' ++ rest') :
    first = first' ∧ rest = rest' ∧ a = a' := by
  induction h generalizing first' with
  | done a =>
    obtain ⟨rfl, rfl⟩ := runs_done_iff.1 h'
    exact ⟨rfl, heq, rfl⟩
  | @call c next answer events a _ ih =>
    obtain ⟨answer', events', rfl, hnext⟩ := runs_call_iff.1 h'
    simp only [List.cons_append, List.cons.injEq, Sigma.mk.injEq, heq_eq_eq, true_and] at heq
    obtain ⟨rfl, heq⟩ := heq
    obtain ⟨rfl, hrest, ha⟩ := ih hnext heq
    exact ⟨rfl, hrest, ha⟩

end Program

namespace Action

variable {α β : Type}

/-- An attempt goes on with the result, a failure included. -/
theorem run_attempt_bind (a : Action α) (f : Except Failure α → Action β) :
    (attempt a >>= f).run = a.run.bind fun result => (f result).run := by
  simp only [attempt, ExceptT.run_bind, ExceptT.run_lift, Program.bind_eq, map_eq_pure_bind,
    Program.bind_assoc]
  rfl

/-- A sequence goes on with a value and ends with a failure. -/
theorem run_bind (a : Action α) (f : α → Action β) :
    (a >>= f).run = a.run.bind fun
      | .ok value => (f value).run
      | .error failure => .done (.error failure) := by
  rw [ExceptT.run_bind, Program.bind_eq]
  congr
  funext result
  cases result <;> rfl

end Action

end Rollout
