/-
  Which calls a program or an activity may make.

  A program may make a call if some answers lead it there (`Program.Makes`). An activity has no such
  tree: what it asks depends on the time and on the state, too. But it is carried out by an outside,
  and it makes no calls but certain ones if outsides that answer these alike are all one to it,
  whatever they do with the others, even if they crash (`AsksOnly`). A program that is confined to
  certain calls is such an activity when it is carried out (`Program.ConfinedTo.perform`), and so is
  whatever is put together from such activities.
-/
import Rollout.Proofs.Activity.Result
import Rollout.Proofs.Program.Run

namespace Rollout

variable {σ α β : Type} {P Q : Call → Prop}

/-! ## Programs -/

namespace Program

/-- Some answers lead the program to this call. -/
inductive Makes (c : Call) : Program α → Prop where
  | here (next : c.Answer → Program α) : Makes c (.call c next)
  | later {c' : Call} {next : c'.Answer → Program α} (answer : c'.Answer)
      (h : Makes c (next answer)) : Makes c (.call c' next)

/-- The program makes no calls but those in `P`. -/
def ConfinedTo (P : Call → Prop) (p : Program α) : Prop := ∀ c, p.Makes c → P c

/-- The calls of a run are calls that the program may make. -/
theorem Runs.makes {p : Program α} {events : List Event} {a : α} (h : p.Runs events a) {e : Event}
    (he : e ∈ events) : p.Makes e.1 := by
  induction h with
  | done a => cases he
  | call _ ih =>
    rcases List.mem_cons.1 he with rfl | he
    · exact .here _
    · exact .later _ (ih he)

theorem makes_ask_iff {c c' : Call} : (ask c').Makes c ↔ c = c' := by
  constructor
  · intro h
    cases h with
    | here => rfl
    | later answer h => cases h
  · rintro rfl
    exact .here _

theorem makes_of_makes_bind {p : Program α} {f : α → Program β} {c : Call}
    (h : (p.bind f).Makes c) : p.Makes c ∨ ∃ events a, p.Runs events a ∧ (f a).Makes c := by
  induction p with
  | done a => exact .inr ⟨[], a, .done a, h⟩
  | call c' next ih =>
    cases h with
    | here => exact .inl (.here next)
    | later answer h =>
      rcases ih answer h with hp | ⟨events, a, hrun, hf⟩
      · exact .inl (.later answer hp)
      · exact .inr ⟨_, a, .call hrun, hf⟩

theorem confinedTo_done (a : α) : (done a).ConfinedTo P := fun _ h => nomatch h

theorem ConfinedTo.mono {p : Program α} (h : p.ConfinedTo P) (hPQ : ∀ c, P c → Q c) :
    p.ConfinedTo Q := fun c hc => hPQ c (h c hc)

/-- What comes behind a program is confined if it is for all that the program may come to. -/
theorem ConfinedTo.bind {p : Program α} {f : α → Program β} (hp : p.ConfinedTo P)
    (hf : ∀ events a, p.Runs events a → (f a).ConfinedTo P) : (p.bind f).ConfinedTo P := by
  intro c hc
  rcases makes_of_makes_bind hc with hc | ⟨events, a, hrun, hc⟩
  · exact hp c hc
  · exact hf events a hrun c hc

end Program

namespace Action

open Program

theorem confinedTo_bind {a : Action α} {f : α → Action β} (ha : a.run.ConfinedTo P)
    (hf : ∀ value, (f value).run.ConfinedTo P) : (a >>= f).run.ConfinedTo P := by
  rw [run_bind]
  refine ha.bind fun _ result _ => ?_
  cases result with
  | ok value => exact hf value
  | error f => exact confinedTo_done _

theorem confinedTo_map {a : Action α} {f : α → β} (ha : a.run.ConfinedTo P) :
    (f <$> a).run.ConfinedTo P := by
  rw [map_eq_pure_bind]
  exact confinedTo_bind ha fun _ => confinedTo_done _

theorem confinedTo_attempt {a : Action α} (ha : a.run.ConfinedTo P) :
    (attempt a).run.ConfinedTo P := by
  rw [← bind_pure (attempt a), run_attempt_bind]
  exact ha.bind fun _ _ _ => confinedTo_done _

end Action

/-! ## Activities -/

/-- Both outsides answer the calls in `P` alike. -/
def Outside.AlikeOn (P : Call → Prop) (o o' : Outside σ) : Prop :=
  ∀ c, P c → o.answer c = o'.answer c

/-- Whoever carries it out, the activity makes no calls but those in `P`: outsides that answer these
alike are all one to it. -/
def AsksOnly (P : Call → Prop) (act : Outside σ → Activity σ α) : Prop :=
  ∀ o o', o.AlikeOn P o' → act o = act o'

theorem Program.ConfinedTo.perform {p : Program α} (h : p.ConfinedTo P) :
    AsksOnly P fun o : Outside σ => p.perform o := by
  intro o o' alike
  induction p with
  | done a => rfl
  | call c next ih =>
    show o.answer c >>= (fun answer => (next answer).perform o) = o'.answer c >>= _
    rw [alike c (h c (.here next))]
    exact bind_congr fun answer => ih answer fun c' hc' => h c' (.later answer hc')

namespace AsksOnly

theorem const (act : Activity σ α) : AsksOnly P fun _ : Outside σ => act := fun _ _ _ => rfl

theorem mono {act : Outside σ → Activity σ α} (h : AsksOnly P act) (hPQ : ∀ c, P c → Q c) :
    AsksOnly Q act := fun o o' alike => h o o' fun c hc => alike c (hPQ c hc)

theorem bind {act : Outside σ → Activity σ α} {f : Outside σ → α → Activity σ β}
    (h : AsksOnly P act) (hf : ∀ a, AsksOnly P fun o => f o a) :
    AsksOnly P fun o => act o >>= f o := by
  intro o o' alike
  have same : f o = f o' := funext fun a => hf a o o' alike
  show act o >>= f o = act o' >>= f o'
  rw [h o o' alike, same]

/-- What comes behind a program matters only for what the program may come to. -/
theorem perform_bind {p : Program α} {f : Outside σ → α → Activity σ β} (hp : p.ConfinedTo P)
    (hf : ∀ events a, p.Runs events a → AsksOnly P fun o => f o a) :
    AsksOnly P fun o => p.perform o >>= f o := by
  intro o o' alike
  induction p with
  | done a => exact hf [] a (.done a) o o' alike
  | call c next ih =>
    have first : o.answer c = o'.answer c := alike c (hp c (.here next))
    funext w
    show ((o.answer c w).bind fun answer => (next answer).perform o).bind (f o) =
      ((o'.answer c w).bind fun answer => (next answer).perform o').bind (f o')
    rw [Course.bind_assoc, Course.bind_assoc, first]
    exact congrArg _ (funext fun answer => ih answer (fun c' hc' => hp c' (.later answer hc'))
      fun events a hrun => hf _ a (.call hrun))

/-- Turns that ask only for such calls make a loop that does. -/
theorem repeated {turn : Outside σ → β → Activity σ (β ⊕ α)}
    (h : ∀ b, AsksOnly P fun o => turn o b) (n : Nat) (b : β) :
    AsksOnly P fun o => Activity.repeated (turn o) n b := by
  intro o o' alike
  have same : turn o = turn o' := funext fun b => h b o o' alike
  show Activity.repeated (turn o) n b = Activity.repeated (turn o') n b
  rw [same]

theorem within {act : Outside σ → Activity σ α} (h : AsksOnly P act) (limit : Duration) :
    AsksOnly P fun o => (act o).within limit := by
  intro o o' alike
  show (act o).within limit = (act o').within limit
  rw [h o o' alike]

end AsksOnly

end Rollout
