/-
  Searches for the first value that is not so.

  A search asks for one value after the other and goes on while the answer is true. So it asks for
  the values of a beginning of the list, and comes to the last answer (`runs_allM_iff`). A failure
  ends it like an answer that is false: what comes behind a value that cannot be asked for is not
  reached (`allM_append_throw`).
-/
import Rollout.Proofs.Program.Sequence

namespace Rollout.Action

/-! ## Answers -/

/-- `f` is asked for each of these values, in order, with these calls in all and these answers. -/
inductive RunsThrough {β γ : Type} (f : β → Action γ) :
    List β → List Event → List (Except Failure γ) → Prop where
  | nil : RunsThrough f [] [] []
  | cons {x : β} {xs : List β} {answer : Except Failure γ} {answers : List (Except Failure γ)}
      {first rest : List Event} (hx : (f x).run.Runs first answer)
      (hxs : RunsThrough f xs rest answers) :
      RunsThrough f (x :: xs) (first ++ rest) (answer :: answers)

/-- A search among `n` values ends with these answers: all but the last are true, and the last one
is not unless all values were asked for. -/
structure Halts (n : Nat) (answers : List (Except Failure Bool)) : Prop where
  before : ∀ answer ∈ answers.dropLast, answer = .ok true
  last : answers.length < n → ∃ answer, answers.getLast? = some answer ∧ answer ≠ .ok true

/-- The last answer, true if there is none. -/
def verdict (answers : List (Except Failure Bool)) : Except Failure Bool :=
  answers.getLast?.getD (.ok true)

theorem RunsThrough.length_eq {β γ : Type} {f : β → Action γ} {xs : List β} {events : List Event}
    {answers : List (Except Failure γ)} (h : RunsThrough f xs events answers) :
    answers.length = xs.length := by
  induction h with
  | nil => rfl
  | cons _ _ ih => exact congrArg (· + 1) ih

theorem not_halts_nil {n : Nat} : ¬ Halts (n + 1) [] := by
  intro h
  obtain ⟨answer, hlast, -⟩ := h.last (Nat.succ_pos n)
  cases hlast

theorem halts_zero : Halts 0 [] := ⟨nofun, fun h => absurd h (Nat.lt_irrefl 0)⟩

/-- An answer that is not true ends the search, and one that is true leaves it to the rest. -/
theorem halts_cons_iff {n : Nat} {answer : Except Failure Bool}
    {answers : List (Except Failure Bool)} : Halts (n + 1) (answer :: answers) ↔
      (answer ≠ .ok true ∧ answers = []) ∨ (answer = .ok true ∧ Halts n answers) := by
  cases answers with
  | nil =>
    constructor
    · intro h
      by_cases ht : answer = .ok true
      · refine .inr ⟨ht, nofun, fun hn => ?_⟩
        obtain ⟨_, hlast, hne⟩ := h.last (Nat.succ_lt_succ hn)
        obtain rfl := Option.some.inj hlast
        exact absurd ht hne
      · exact .inl ⟨ht, rfl⟩
    · rintro (⟨hne, -⟩ | ⟨-, h⟩)
      · exact ⟨nofun, fun _ => ⟨answer, rfl, hne⟩⟩
      · refine ⟨nofun, fun hn => ?_⟩
        obtain ⟨_, hlast, -⟩ := h.last (Nat.lt_of_succ_lt_succ hn)
        cases hlast
  | cons answer' answers =>
    constructor
    · intro h
      have ht : answer = .ok true := h.before _ List.mem_cons_self
      refine .inr ⟨ht, fun a ha => h.before a (List.mem_cons_of_mem _ ha), fun hn => ?_⟩
      obtain ⟨a, hlast, hne⟩ := h.last (Nat.succ_lt_succ hn)
      exact ⟨a, hlast, hne⟩
    · rintro (⟨-, h⟩ | ⟨ht, h⟩)
      · cases h
      · exact ⟨List.forall_mem_cons.2 ⟨ht, h.before⟩, fun hn => h.last (Nat.lt_of_succ_lt_succ hn)⟩

theorem verdict_cons (answer : Except Failure Bool) {answers : List (Except Failure Bool)}
    (h : answer = .ok true) : verdict (answer :: answers) = verdict answers := by
  cases answers with
  | nil => exact h
  | cons answer' answers => rfl

/-! ## Searches -/

variable {β : Type} {f : β → Action Bool}

/-- A search for what is not so asks for one value after the other, up to the first one for which
the answer is not true. It comes to this answer. -/
theorem runs_allM_iff {xs : List β} {events : List Event} {result : Except Failure Bool} :
    (xs.allM f).run.Runs events result ↔ ∃ answers,
      RunsThrough f (xs.take answers.length) events answers ∧ Halts xs.length answers ∧
        result = verdict answers := by
  induction xs generalizing events result with
  | nil =>
    show (pure true : Action Bool).run.Runs events result ↔ _
    rw [runs_pure_iff]
    constructor
    · rintro ⟨rfl, rfl⟩
      exact ⟨[], .nil, halts_zero, rfl⟩
    · rintro ⟨answers, h, -, rfl⟩
      rw [List.take_nil] at h
      cases h
      exact ⟨rfl, rfl⟩
  | cons x xs ih =>
    rw [List.allM_cons, run_bind, Program.runs_bind_iff]
    constructor
    · rintro ⟨first, rest, answer, rfl, hx, hrest⟩
      by_cases ht : answer = .ok true
      · rw [ht] at hrest
        obtain ⟨answers, hxs, hhalts, rfl⟩ := ih.1 hrest
        exact ⟨answer :: answers, .cons hx hxs, halts_cons_iff.2 (.inr ⟨ht, hhalts⟩),
          (verdict_cons answer ht).symm⟩
      · have stopped : rest = [] ∧ result = answer := by
          rcases answer with e | _ | _
          · exact Program.runs_done_iff.1 hrest
          · exact runs_pure_iff.1 hrest
          · exact absurd rfl ht
        obtain ⟨rfl, rfl⟩ := stopped
        exact ⟨[result], .cons hx .nil, halts_cons_iff.2 (.inl ⟨ht, rfl⟩), rfl⟩
    · rintro ⟨answers, h, hhalts, rfl⟩
      cases answers with
      | nil => exact absurd hhalts not_halts_nil
      | cons answer answers =>
        cases h with
        | @cons _ _ _ _ first rest hx hxs =>
          refine ⟨first, rest, answer, rfl, hx, ?_⟩
          rcases halts_cons_iff.1 hhalts with ⟨hne, rfl⟩ | ⟨rfl, hrest⟩
          · cases hxs
            rcases answer with e | _ | _
            · exact .done _
            · exact .done _
            · exact absurd rfl hne
          · exact ih.2 ⟨answers, hxs, hrest, verdict_cons _ rfl⟩

/-- The calls tell what was answered for each value. -/
theorem RunsThrough.unique {xs : List β} {answers answers' : List (Except Failure Bool)}
    {events events' : List Event}
    (h : RunsThrough f (xs.take answers.length) events answers)
    (h' : RunsThrough f (xs.take answers'.length) events' answers')
    (hhalts : Halts xs.length answers) (hhalts' : Halts xs.length answers')
    (heq : events = events') : answers = answers' := by
  induction xs generalizing answers answers' events events' with
  | nil =>
    rw [List.take_nil] at h h'
    cases h
    cases h'
    rfl
  | cons x xs ih =>
    cases answers with
    | nil => exact absurd hhalts not_halts_nil
    | cons answer answers =>
      cases answers' with
      | nil => exact absurd hhalts' not_halts_nil
      | cons answer' answers' =>
        cases h with
        | cons hx hxs =>
          cases h' with
          | cons hx' hxs' =>
            obtain ⟨rfl, heq, rfl⟩ := hx.eq_of_append_eq hx' heq
            congr 1
            rcases halts_cons_iff.1 hhalts with ⟨hne, rfl⟩ | ⟨ht, hhalts⟩
            · rcases halts_cons_iff.1 hhalts' with ⟨-, rfl⟩ | ⟨ht', -⟩
              · rfl
              · exact absurd ht' hne
            · rcases halts_cons_iff.1 hhalts' with ⟨hne', -⟩ | ⟨-, hhalts'⟩
              · exact absurd ht hne'
              · exact ih hxs hxs' hhalts hhalts' heq

/-- A search for what is not so comes to the end if everything is so. -/
theorem runs_allM_true_iff {xs : List β} {events : List Event} :
    (xs.allM f).run.Runs events (.ok true) ↔
      ∃ ys, RunsEach f xs events ys ∧ ∀ y ∈ ys, y = true := by
  induction xs generalizing events with
  | nil =>
    show (pure true : Action Bool).run.Runs events (.ok true) ↔ _
    rw [runs_pure_iff]
    constructor
    · rintro ⟨rfl, -⟩
      exact ⟨[], .nil, nofun⟩
    · rintro ⟨ys, h, -⟩
      exact ⟨(runsEach_nil_iff.1 h).1, rfl⟩
  | cons x xs ih =>
    simp only [List.allM_cons, runs_bind_ok_iff, runsEach_cons_iff]
    constructor
    · rintro ⟨first, rest, y, rfl, hx, hrest⟩
      cases y with
      | false => cases (runs_pure_iff.1 hrest).2
      | true =>
        obtain ⟨ys, hxs, hys⟩ := ih.1 hrest
        exact ⟨true :: ys, ⟨first, rest, true, ys, rfl, rfl, hx, hxs⟩,
          List.forall_mem_cons.2 ⟨rfl, hys⟩⟩
    · rintro ⟨_, ⟨first, rest, y, ys, rfl, rfl, hx, hxs⟩, hall⟩
      obtain ⟨rfl, hys⟩ := List.forall_mem_cons.1 hall
      exact ⟨first, rest, true, rfl, hx, ih.2 ⟨ys, hxs, hys⟩⟩

theorem runs_allM_error {xs : List β} {events : List Event} {ys : List Bool} {e : Failure}
    (h : RunsUpTo f xs events ys e) (hall : ∀ y ∈ ys, y = true) :
    (xs.allM f).run.Runs events (.error e) := by
  induction xs generalizing events ys with
  | nil => exact absurd h not_runsUpTo_nil
  | cons x xs ih =>
    rw [List.allM_cons]
    refine runs_bind_error_iff.2 ?_
    rcases runsUpTo_cons_iff.1 h with ⟨rfl, hx⟩ | ⟨first, rest, y, ys, rfl, rfl, hx, hxs⟩
    · exact .inl hx
    · obtain ⟨rfl, hys⟩ := List.forall_mem_cons.1 hall
      exact .inr ⟨first, rest, true, rfl, hx, ih hxs hys⟩

/-- What comes behind a value for which `f` fails is not reached. -/
theorem allM_append_throw {x : β} {e : Failure} (hx : f x = throw e) (before after : List β) :
    (before ++ x :: after).allM f = (do
      if ← before.allM f then throw e
      return false) := by
  induction before with
  | nil =>
    rw [List.nil_append, List.allM_cons, hx]
    rfl
  | cons y before ih =>
    rw [List.cons_append, List.allM_cons, List.allM_cons, ih, bind_assoc]
    refine bind_congr fun answer => ?_
    cases answer <;> rfl

/-- What fails behind a search does so only if the search comes to the end. -/
theorem runs_bind_throw_iff {a : Action Bool} {e : Failure} {events : List Event}
    {result : Except Failure Bool} :
    (do if ← a then throw e
        return false : Action Bool).run.Runs events result ↔ ∃ verdict,
      a.run.Runs events verdict ∧ (verdict = .ok true → result = .error e) ∧
        (verdict ≠ .ok true → result = verdict) := by
  rw [run_bind, Program.runs_bind_iff]
  constructor
  · rintro ⟨first, rest, verdict, rfl, ha, hrest⟩
    have ended : rest = [] ∧ (verdict = .ok true → result = .error e) ∧
        (verdict ≠ .ok true → result = verdict) := by
      rcases verdict with e' | _ | _
      · obtain ⟨rfl, rfl⟩ := Program.runs_done_iff.1 hrest
        exact ⟨rfl, nofun, fun _ => rfl⟩
      · obtain ⟨rfl, rfl⟩ := Program.runs_done_iff.1 hrest
        exact ⟨rfl, nofun, fun _ => rfl⟩
      · obtain ⟨rfl, rfl⟩ := Program.runs_done_iff.1 hrest
        exact ⟨rfl, fun _ => rfl, fun hne => absurd rfl hne⟩
    obtain ⟨rfl, hresult⟩ := ended
    rw [List.append_nil]
    exact ⟨verdict, ha, hresult⟩
  · rintro ⟨verdict, ha, htrue, hother⟩
    refine ⟨events, [], verdict, (List.append_nil events).symm, ha, ?_⟩
    rcases verdict with e' | _ | _
    · rw [hother nofun]
      exact .done _
    · rw [hother nofun]
      exact .done _
    · rw [htrue rfl]
      exact .done _

end Rollout.Action
