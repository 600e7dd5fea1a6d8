/-
  How long following sleeps between two watches.

  A watch is quiet if it told of no addition and of no modification: it was refused, or cut off, or
  just closed, or told of deletions and bookmarks only. Every quiet watch but the first one of all
  is a setback (`setbacks`). Behind each watch, following sleeps through the first delay, with the
  backoff applied once for each setback since the last watch that was not quiet (`follow_delays`).

  The loop does not count setbacks. What it carries along is the delay that is due if the next watch
  is quiet too (`dueIfQuiet`), and it goes back to the first delay when a watch tells of a change.
-/
import Mathlib.Data.List.DropRight
import Mathlib.Logic.Function.Iterate
import Rollout.Proofs.Wait.Inquiry

namespace Rollout

variable {σ : Type}

/-! ## Quiet watches -/

/-- The resource was added or modified. -/
def WatchEvent.isUpdate : WatchEvent → Bool
  | .added _ | .modified _ => true
  | .deleted _ | .bookmark _ | .error _ => false

/-- The watch delivered no report that the resource was added or modified. -/
def Finding.isQuiet (f : Finding) : Bool := !f.reports.any WatchEvent.isUpdate

theorem delivered_ne_error {items : List WatchItem} {e : WatchEvent} (h : e ∈ delivered items)
    (s : ApiStatus) : e ≠ .error s := by
  induction items with
  | nil => cases h
  | cons item rest ih =>
    match item with
    | .ok (.added r) | .ok (.modified r) | .ok (.deleted r) | .ok (.bookmark v) =>
      rcases List.mem_cons.1 h with rfl | h
      · exact nofun
      · exact ih h
    | .ok (.error s') => cases h
    | .error fault => cases h

theorem Finding.isQuiet_iff (f : Finding) : f.isQuiet = true ↔
    ∀ e ∈ f.reports, (∃ r, e = .deleted r) ∨ ∃ v, e = .bookmark v := by
  have reported {e : WatchEvent} (h : e ∈ f.reports) (s : ApiStatus) : e ≠ .error s := by
    unfold reports at h
    split at h
    · exact delivered_ne_error h s
    · cases h
  simp only [isQuiet, Bool.not_eq_true', List.any_eq_false]
  refine forall₂_congr fun e he => ?_
  cases e with
  | error s => exact absurd rfl (reported he s)
  | _ => simp [WatchEvent.isUpdate]

/-- The setbacks since the last of these watches that was not quiet: the quiet watches at their end,
without the first one of all. -/
def setbacks (watches : List Finding) : Nat := (watches.tail.rtakeWhile Finding.isQuiet).length

theorem setbacks_concat (watches : List Finding) (f : Finding) : setbacks (watches ++ [f]) =
    if watches.isEmpty || !f.isQuiet then 0 else setbacks watches + 1 := by
  cases watches with
  | nil => rfl
  | cons first rest =>
    show ((rest ++ [f]).rtakeWhile Finding.isQuiet).length = _
    rw [List.rtakeWhile_concat]
    cases f.isQuiet with
    | true => exact List.length_append
    | false => rfl

/-- Behind a watch that was not quiet, or the first one of all, only the quiet ones after it
count. -/
theorem setbacks_append {before quiet : List Finding} {f : Finding}
    (hf : before = [] ∨ f.isQuiet = false) (hquiet : ∀ g ∈ quiet, g.isQuiet = true) :
    setbacks (before ++ f :: quiet) = quiet.length := by
  induction quiet using List.reverseRecOn with
  | nil =>
    rw [setbacks_concat]
    rcases hf with rfl | hf
    · rfl
    · rw [hf, Bool.not_false, Bool.or_true]
      rfl
  | append_singleton quiet g ih =>
    have hg : g.isQuiet = true := hquiet g (List.mem_append_right _ List.mem_cons_self)
    have split : before ++ f :: (quiet ++ [g]) = (before ++ f :: quiet) ++ [g] := by simp
    rw [split, setbacks_concat, hg, ih fun g' hg' => hquiet g' (List.mem_append_left _ hg')]
    simp

/-! ## What was heard -/

namespace WaitTerms

variable {t : WaitTerms}

theorem changed_endedBy (h : Heard) (s : ApiStatus) : (h.endedBy s).changed = h.changed := by
  unfold Heard.endedBy
  split <;> rfl

theorem changed_of_listen {accepts : Resource → Bool} {items : List WatchItem} {h heard : Heard}
    (hlisten : Heard.listen accepts items h = .inl heard) :
    heard.changed = (h.changed || (delivered items).any WatchEvent.isUpdate) := by
  have unchanged (h : Heard) : h.changed = (h.changed || [].any WatchEvent.isUpdate) :=
    (Bool.or_false _).symm
  induction items generalizing h with
  | nil =>
    obtain rfl := Sum.inl.inj hlisten
    exact unchanged h
  | cons item rest ih =>
    match item with
    | .ok (.added r) | .ok (.modified r) =>
      rw [Heard.listen] at hlisten
      split at hlisten
      · cases hlisten
      · rw [ih hlisten]
        exact (Bool.or_true _).symm
    | .ok (.deleted r) | .ok (.bookmark v) =>
      rw [Heard.listen] at hlisten
      rw [ih hlisten]
      rfl
    | .ok (.error s) =>
      obtain rfl := Sum.inl.inj hlisten
      exact (changed_endedBy h s).trans (unchanged h)
    | .error fault =>
      cases fault with
      | refused s =>
        obtain rfl := Sum.inl.inj hlisten
        exact (changed_endedBy h s).trans (unchanged h)
      | _ =>
        obtain rfl := Sum.inl.inj hlisten
        exact unchanged h

/-- A watch that led to no accepted state is remembered to have told of a change if and only if it
was not quiet. -/
theorem changed_of_heard {since : String} {answer : Except Failure (List WatchItem)}
    {heard : Heard} (h : t.heard since answer = .inl heard) :
    heard.changed = !Finding.isQuiet ⟨.changes since, answer⟩ := by
  rw [Finding.isQuiet, Bool.not_not]
  cases answer with
  | ok items => exact (changed_of_listen h).trans (Bool.false_or _)
  | error f =>
    cases f with
    | api fault =>
      cases fault with
      | refused s =>
        obtain rfl := Sum.inl.inj h
        exact changed_endedBy _ s
      | _ =>
        obtain rfl := Sum.inl.inj h
        rfl
    | _ =>
      obtain rfl := Sum.inl.inj h
      rfl

/-! ## The delays -/

/-- Follows a resource by what a source answers, and sleeps through `delayBehind watches` behind
the watches so far, in order, with what was answered to each. -/
def followThrough (t : WaitTerms) (src : Source σ) (delayBehind : List Finding → Duration) :
    Nat → List Finding → Option String → Activity σ (Except Failure Resource)
  | 0, _, _ => Activity.giveUp
  | n + 1, watches, version => do
    match ← t.sinceBy src version with
    | .error f => return .error f
    | .ok (.inr r) => return .ok r
    | .ok (.inl since) => do
      let answer ← src.answer (.changes since)
      match t.heard since answer with
      | .inr r => return .ok r
      | .inl h => do
        Activity.sleep (delayBehind (watches ++ [⟨.changes since, answer⟩]))
        t.followThrough src delayBehind n (watches ++ [⟨.changes since, answer⟩]) h.version

/-- The first delay, with the backoff applied once for each setback. -/
def setBack (t : WaitTerms) (watches : List Finding) : Duration :=
  t.backoff.next^[setbacks watches] t.backoff.initial

/-- The delay behind the next watch, if that is quiet. -/
def dueIfQuiet (t : WaitTerms) (watches : List Finding) : Duration :=
  if watches.isEmpty then t.backoff.initial else t.backoff.next (t.setBack watches)

theorem setBack_concat (watches : List Finding) (f : Finding) : t.setBack (watches ++ [f]) =
    if f.isQuiet then t.dueIfQuiet watches else t.backoff.initial := by
  rw [setBack, setbacks_concat, dueIfQuiet]
  cases f.isQuiet with
  | false => simp
  | true =>
    cases watches.isEmpty with
    | true => simp
    | false => simp [setBack, Function.iterate_succ_apply']

theorem dueIfQuiet_concat (watches : List Finding) (f : Finding) :
    t.dueIfQuiet (watches ++ [f]) = t.backoff.next (t.setBack (watches ++ [f])) :=
  if_neg (by simp)

/-- The loop sleeps through the delay that the setbacks set. -/
theorem delayAfter_eq_setBack {p : Progress} {watches : List Finding}
    (hp : p.delay = t.dueIfQuiet watches) {since : String}
    {answer : Except Failure (List WatchItem)} {heard : Heard}
    (h : t.heard since answer = .inl heard) :
    t.delayAfter p heard = t.setBack (watches ++ [⟨.changes since, answer⟩]) := by
  rw [delayAfter, changed_of_heard h, setBack_concat, hp]
  cases Finding.isQuiet ⟨.changes since, answer⟩ with
  | true => simp
  | false => simp

variable (t) (src : Source σ)

/-- A turn of following and what comes behind it. -/
theorem repeated_succ_followOnceBy (n : Nat) (p : Progress) :
    Activity.repeated (t.followOnceBy src) (n + 1) p = (do
      match ← t.sinceBy src p.version with
      | .error f => return .error f
      | .ok (.inr r) => return .ok r
      | .ok (.inl since) => do
        match t.heard since (← src.answer (.changes since)) with
        | .inr r => return .ok r
        | .inl h => do
          Activity.sleep (t.delayAfter p h)
          Activity.repeated (t.followOnceBy src) n
            ⟨h.version, t.backoff.next (t.delayAfter p h)⟩) := by
  funext w
  refine (Course.bind_assoc _ _ _).trans ((Course.bind_assoc _ _ _).trans ?_)
  refine congrArg (Course.bind _) (funext fun start => funext fun w₁ => ?_)
  match start with
  | .error f | .ok (.inr r) => rfl
  | .ok (.inl since) =>
    refine (Course.bind_assoc _ _ _).trans ?_
    refine congrArg (Course.bind _) (funext fun answer => funext fun w₂ => ?_)
    cases t.heard since answer with
    | inr r => rfl
    | inl h => rfl

/-- The loop that carries a delay along sleeps as one that remembers all its watches. -/
theorem repeated_followOnceBy (turns : Nat) {watches : List Finding} {p : Progress}
    (hp : p.delay = t.dueIfQuiet watches) : Activity.repeated (t.followOnceBy src) turns p =
      t.followThrough src t.setBack turns watches p.version := by
  -- Each turn leaves the delay that is due if the next watch is quiet.
  induction turns generalizing watches p with
  | zero => rfl
  | succ turns ih =>
    rw [repeated_succ_followOnceBy, followThrough]
    refine congrArg (_ >>= ·) (funext fun start => ?_)
    match start with
    | .error f | .ok (.inr r) => rfl
    | .ok (.inl since) =>
      refine congrArg (_ >>= ·) (funext fun answer => ?_)
      cases h : t.heard since answer with
      | inr r => rfl
      | inl heard =>
        have slept := delayAfter_eq_setBack hp h
        simp only [slept]
        refine congrArg (_ >>= ·) (funext fun _ => ?_)
        exact ih (dueIfQuiet_concat _ _).symm

/-- To follow a resource at an API server is to follow it by a source. Whatever a source answers,
behind each watch following sleeps through the first delay, with the backoff applied once for each
setback. The first watch of all, and a watch that told of an addition or a modification, leave no
setback; any other one leaves one more than there were before it. So there are as many as there were
watches since then, which told of deletions and bookmarks at most. -/
theorem follow_delays (t : WaitTerms) (version : Option String) (turns : Nat) :
    (∀ (o : Outside σ) (k : ServedKind) (ns : Option String),
      t.follow o k ns version turns = t.followBy (k.source o ns t.given) version turns) ∧
    (∀ src : Source σ, t.followBy src version turns = t.bounded (t.followThrough src
      (fun watches => t.backoff.next^[setbacks watches] t.backoff.initial) turns [] version)) ∧
    (∀ watches f, setbacks (watches ++ [f]) =
      if watches.isEmpty || !f.isQuiet then 0 else setbacks watches + 1) ∧
    (∀ f : Finding, f.isQuiet = true ↔
      ∀ e ∈ f.reports, (∃ r, e = .deleted r) ∨ ∃ v, e = .bookmark v) ∧
    ∀ before f quiet, (before = [] ∨ f.isQuiet = false) → (∀ g ∈ quiet, g.isQuiet = true) →
      setbacks (before ++ f :: quiet) = quiet.length := by
  refine ⟨fun o k ns => t.follow_eq_followBy o k ns version turns, fun src => ?_, setbacks_concat,
    Finding.isQuiet_iff, fun before f quiet => setbacks_append⟩
  have first : t.backoff.initial = t.dueIfQuiet [] := rfl
  exact congrArg t.bounded (t.repeated_followOnceBy src turns first)

/-- A server whose first, second and fourth watches are closed at once. -/
def podRestless : Source Nat where
  answer
    | .state => pure (.ok (some (podAt "1")))
    | .changes _ => do
      let watch ← Activity.change fun n => (n, n + 1)
      match watch with
      | 0 | 1 | 3 => return .ok []
      | 2 => return .ok [.ok (.modified (podAt "2"))]
      | _ => return .ok [.ok (.modified (podAt "3"))]

/-- The delays between its five watches are of 5, 10, 5 and 10 ms. -/
example : (podAwaited.followBy podRestless none 5 ⟨0, 0, 0⟩).run.world.now = 30 := by
  decide +kernel

end WaitTerms

end Rollout
