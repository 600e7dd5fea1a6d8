/-
  Runs of actions that are carried out one after the other.

  An action of a sequence begins once the one before it has succeeded, and a failure ends the
  sequence. So the calls of a sequence are those of its actions, one after the other, and none is
  made for an action behind the one that fails.
-/
import Rollout.Proofs.Program.Run

namespace Rollout.Action

variable {α β γ : Type}

/-- `f` succeeds for each of these values, in order, with these calls in all and these results. -/
inductive RunsEach (f : β → Action γ) : List β → List Event → List γ → Prop where
  | nil : RunsEach f [] [] []
  | cons {x : β} {xs : List β} {y : γ} {ys : List γ} {first rest : List Event}
      (hx : (f x).run.Runs first (.ok y)) (hxs : RunsEach f xs rest ys) :
      RunsEach f (x :: xs) (first ++ rest) (y :: ys)

/-- `f` succeeds for the values up to one for which it fails: with these calls in all, with `ys` so
far, and with this failure. -/
def RunsUpTo (f : β → Action γ) (xs : List β) (events : List Event) (ys : List γ) (e : Failure) :
    Prop :=
  ∃ before x after first last, xs = before ++ x :: after ∧ events = first ++ last ∧
    RunsEach f before first ys ∧ (f x).run.Runs last (.error e)

variable {f : β → Action γ}

theorem runsEach_nil_iff {events : List Event} {ys : List γ} :
    RunsEach f [] events ys ↔ events = [] ∧ ys = [] := by
  constructor
  · intro h
    cases h
    exact ⟨rfl, rfl⟩
  · rintro ⟨rfl, rfl⟩
    exact .nil

theorem runsEach_cons_iff {x : β} {xs : List β} {events : List Event} {ys : List γ} :
    RunsEach f (x :: xs) events ys ↔ ∃ first rest y ys', events = first ++ rest ∧ ys = y :: ys' ∧
      (f x).run.Runs first (.ok y) ∧ RunsEach f xs rest ys' := by
  constructor
  · intro h
    cases h with
    | cons hx hxs => exact ⟨_, _, _, _, rfl, rfl, hx, hxs⟩
  · rintro ⟨first, rest, y, ys', rfl, rfl, hx, hxs⟩
    exact .cons hx hxs

theorem not_runsUpTo_nil {events : List Event} {ys : List γ} {e : Failure} :
    ¬ RunsUpTo f [] events ys e := by
  rintro ⟨before, x, after, first, last, hxs, -⟩
  exact List.append_ne_nil_of_right_ne_nil before (List.cons_ne_nil x after) hxs.symm

/-- The first action fails, or it succeeds and a later one fails. -/
theorem runsUpTo_cons_iff {x : β} {xs : List β} {events : List Event} {ys : List γ} {e : Failure} :
    RunsUpTo f (x :: xs) events ys e ↔
      (ys = [] ∧ (f x).run.Runs events (.error e)) ∨
        ∃ first rest y ys', events = first ++ rest ∧ ys = y :: ys' ∧
          (f x).run.Runs first (.ok y) ∧ RunsUpTo f xs rest ys' e := by
  constructor
  · rintro ⟨before, z, after, first, last, hxs, rfl, hbefore, hz⟩
    cases hbefore with
    | nil =>
      obtain ⟨rfl, rfl⟩ := List.cons.inj hxs
      exact .inl ⟨rfl, hz⟩
    | @cons x' before y ys first rest hx hbefore =>
      obtain ⟨rfl, rfl⟩ := List.cons.inj hxs
      exact .inr ⟨first, rest ++ last, y, ys, List.append_assoc _ _ _, rfl, hx,
        before, z, after, rest, last, rfl, rfl, hbefore, hz⟩
  · rintro (⟨rfl, hx⟩ | ⟨first, rest, y, ys', rfl, rfl, hx, before, z, after, rest', last, rfl, rfl,
      hbefore, hz⟩)
    · exact ⟨[], x, xs, [], events, rfl, rfl, .nil, hx⟩
    · exact ⟨x :: before, z, after, first ++ rest', last, rfl, (List.append_assoc _ _ _).symm,
        .cons hx hbefore, hz⟩

namespace RunsEach

variable {xs : List β} {events : List Event} {ys : List γ}

theorem singleton {x : β} {y : γ} (hx : (f x).run.Runs events (.ok y)) :
    RunsEach f [x] events [y] := by
  rw [← List.append_nil events]
  exact .cons hx .nil

theorem length_eq (h : RunsEach f xs events ys) : ys.length = xs.length := by
  induction h with
  | nil => rfl
  | cons _ _ ih => exact congrArg (· + 1) ih

/-- The result at a place is what `f` came to for the value there, in a part of the run. -/
theorem getElem? (h : RunsEach f xs events ys) {i : Nat} {x : β} {y : γ} (hx : xs[i]? = some x)
    (hy : ys[i]? = some y) : ∃ part, part <:+: events ∧ (f x).run.Runs part (.ok y) := by
  induction h generalizing i with
  | nil => cases hx
  | @cons x' xs y' ys first rest hrun _ ih =>
    cases i with
    | zero =>
      obtain rfl := Option.some.inj hx
      obtain rfl := Option.some.inj hy
      exact ⟨first, (List.prefix_append _ _).isInfix, hrun⟩
    | succ i =>
      obtain ⟨part, hpart, hrun⟩ := ih hx hy
      exact ⟨part, hpart.trans (List.suffix_append _ _).isInfix, hrun⟩

/-- For each of the values `f` has come to one of the results, in a part of the run. -/
theorem exists_of_mem_left (h : RunsEach f xs events ys) {x : β} (hx : x ∈ xs) :
    ∃ y ∈ ys, ∃ part, part <:+: events ∧ (f x).run.Runs part (.ok y) := by
  obtain ⟨i, hi, rfl⟩ := List.getElem_of_mem hx
  have hi' : i < ys.length := h.length_eq ▸ hi
  exact ⟨ys[i], List.getElem_mem hi',
    h.getElem? (List.getElem?_eq_getElem hi) (List.getElem?_eq_getElem hi')⟩

end RunsEach

/-! ## Sequences of actions -/

theorem runs_bind_ok_iff {a : Action α} {g : α → Action β} {events : List Event} {b : β} :
    (a >>= g).run.Runs events (.ok b) ↔ ∃ first rest value, events = first ++ rest ∧
      a.run.Runs first (.ok value) ∧ (g value).run.Runs rest (.ok b) := by
  rw [run_bind, Program.runs_bind_iff]
  constructor
  · rintro ⟨first, rest, result, rfl, ha, hg⟩
    cases result with
    | ok value => exact ⟨first, rest, value, rfl, ha, hg⟩
    | error e => cases hg
  · rintro ⟨first, rest, value, rfl, ha, hg⟩
    exact ⟨first, rest, .ok value, rfl, ha, hg⟩

theorem runs_pure_iff {a : α} {events : List Event} {result : Except Failure α} :
    (pure a : Action α).run.Runs events result ↔ events = [] ∧ result = .ok a :=
  Program.runs_done_iff

theorem runs_map_ok_iff {a : Action α} {g : α → β} {events : List Event} {b : β} :
    (g <$> a).run.Runs events (.ok b) ↔ ∃ value, a.run.Runs events (.ok value) ∧ g value = b := by
  rw [map_eq_pure_bind, runs_bind_ok_iff]
  constructor
  · rintro ⟨first, rest, value, rfl, ha, hpure⟩
    obtain ⟨rfl, hb⟩ := runs_pure_iff.1 hpure
    rw [List.append_nil]
    exact ⟨value, ha, (Except.ok.inj hb).symm⟩
  · rintro ⟨value, ha, rfl⟩
    exact ⟨events, [], value, (List.append_nil events).symm, ha, .done _⟩

/-- An attempt succeeds with what the action comes to, a failure included. -/
theorem runs_attempt_iff {a : Action α} {events : List Event} {result : Except Failure α} :
    (attempt a).run.Runs events (.ok result) ↔ a.run.Runs events result := by
  rw [← bind_pure (attempt a), run_attempt_bind, Program.runs_bind_iff]
  constructor
  · rintro ⟨first, rest, result', rfl, ha, hpure⟩
    obtain ⟨rfl, hresult⟩ := runs_pure_iff.1 hpure
    obtain rfl := Except.ok.inj hresult
    rwa [List.append_nil]
  · intro ha
    exact ⟨events, [], result, (List.append_nil events).symm, ha, .done _⟩

theorem runs_ofExcept_iff {x : Except Failure α} {events : List Event}
    {result : Except Failure α} : (ofExcept x).run.Runs events result ↔ events = [] ∧ result = x :=
  Program.runs_done_iff

theorem ofExcept_bind (a : α) (g : α → Action β) : (ofExcept (.ok a) >>= g) = g a := rfl

theorem runs_mapM_ok_iff {xs : List β} {events : List Event} {ys : List γ} :
    (xs.mapM f).run.Runs events (.ok ys) ↔ RunsEach f xs events ys := by
  induction xs generalizing events ys with
  | nil => rw [List.mapM_nil, runs_pure_iff, runsEach_nil_iff, Except.ok.injEq]
  | cons x xs ih =>
    rw [List.mapM_cons, runs_bind_ok_iff, runsEach_cons_iff]
    constructor
    · rintro ⟨first, rest, y, rfl, hx, hrest⟩
      obtain ⟨middle, last, ys', rfl, hxs, hpure⟩ := runs_bind_ok_iff.1 hrest
      obtain ⟨rfl, hys⟩ := runs_pure_iff.1 hpure
      rw [List.append_nil]
      exact ⟨first, middle, y, ys', rfl, Except.ok.inj hys, hx, ih.1 hxs⟩
    · rintro ⟨first, rest, y, ys', rfl, rfl, hx, hxs⟩
      exact ⟨first, rest, y, rfl, hx, runs_bind_ok_iff.2
        ⟨rest, [], ys', (List.append_nil rest).symm, ih.2 hxs, .done _⟩⟩

theorem runs_bind_error_iff {a : Action α} {g : α → Action β} {events : List Event} {e : Failure} :
    (a >>= g).run.Runs events (.error e) ↔ a.run.Runs events (.error e) ∨
      ∃ first rest value, events = first ++ rest ∧ a.run.Runs first (.ok value) ∧
        (g value).run.Runs rest (.error e) := by
  rw [run_bind, Program.runs_bind_iff]
  constructor
  · rintro ⟨first, rest, result, rfl, ha, hg⟩
    cases result with
    | ok value => exact .inr ⟨first, rest, value, rfl, ha, hg⟩
    | error e' =>
      obtain ⟨rfl, he⟩ := Program.runs_done_iff.1 hg
      obtain rfl := Except.error.inj he
      rw [List.append_nil]
      exact .inl ha
  · rintro (ha | ⟨first, rest, value, rfl, ha, hg⟩)
    · exact ⟨events, [], .error e, (List.append_nil events).symm, ha, .done _⟩
    · exact ⟨first, rest, .ok value, rfl, ha, hg⟩

theorem runs_mapM_error_iff {xs : List β} {events : List Event} {e : Failure} :
    (xs.mapM f).run.Runs events (.error e) ↔ ∃ ys, RunsUpTo f xs events ys e := by
  induction xs generalizing events with
  | nil =>
    rw [List.mapM_nil, runs_pure_iff]
    exact ⟨nofun, fun ⟨_, h⟩ => absurd h not_runsUpTo_nil⟩
  | cons x xs ih =>
    simp only [List.mapM_cons, runs_bind_error_iff, runsUpTo_cons_iff, ih]
    constructor
    · rintro (hx | ⟨first, rest, y, rfl, hx, ⟨ys, hxs⟩ | ⟨middle, last, ys, rfl, hxs, hpure⟩⟩)
      · exact ⟨[], .inl ⟨rfl, hx⟩⟩
      · exact ⟨y :: ys, .inr ⟨first, rest, y, ys, rfl, rfl, hx, hxs⟩⟩
      · cases (runs_pure_iff.1 hpure).2
    · rintro ⟨_, ⟨rfl, hx⟩ | ⟨first, rest, y, ys, rfl, rfl, hx, hxs⟩⟩
      · exact .inl hx
      · exact .inr ⟨first, rest, y, rfl, hx, .inl ⟨ys, hxs⟩⟩

end Rollout.Action
