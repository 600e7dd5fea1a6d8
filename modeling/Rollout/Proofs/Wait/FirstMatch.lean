/-
  Following ends with the first state that is accepted.

  A state is shown by a reading, or by a report of a watch that the resource was added or modified;
  deletions and bookmarks show none. As long as following goes on, no state that was shown is
  accepted. It ends with the first one that is, with a reading that fails, or when its time is over;
  what becomes of a watch never ends it.
-/
import Rollout.Proofs.Wait.Inquiry
import Rollout.Proofs.Wait.Polling
import Rollout.Wait

namespace Rollout

variable {σ : Type}

/-! ## What is shown -/

/-- The state that a report shows. -/
def WatchEvent.state? : WatchEvent → Option Resource
  | .added r | .modified r => some r
  | .deleted _ | .bookmark _ | .error _ => none

/-- The states that an answer shows, in order. -/
def Finding.shown : Finding → List Resource
  | ⟨.state, .ok current⟩ => current.toList
  | ⟨.state, .error _⟩ => []
  | ⟨.changes since, answer⟩ => (reports ⟨.changes since, answer⟩).filterMap WatchEvent.state?

/-- All states that were shown, in order. -/
def Journal.shown (j : Journal) : List Resource := j.answered.flatMap Finding.shown

theorem Journal.find?_shown_note (j : Journal) (f : Finding) (accepts : Resource → Bool) :
    (j.note f).shown.find? accepts = (j.shown.find? accepts).or (f.shown.find? accepts) := by
  show ((j.answered ++ [f]).flatMap Finding.shown).find? accepts = _
  rw [List.flatMap_append, List.find?_append, List.flatMap_singleton]
  rfl

/-! ## What is accepted -/

namespace WaitTerms

variable {t : WaitTerms}

theorem getRight?_startFrom (t : WaitTerms) (current : Option Resource) :
    (t.startFrom current).getRight? = current.toList.find? t.accepts := by
  cases current with
  | none => rfl
  | some r =>
    rw [startFrom, Option.toList_some, List.find?_singleton]
    split <;> rfl

theorem getRight?_listen (accepts : Resource → Bool) (items : List WatchItem) (h : Heard) :
    (Heard.listen accepts items h).getRight? =
      ((delivered items).filterMap WatchEvent.state?).find? accepts := by
  induction items generalizing h with
  | nil => rfl
  | cons item rest ih =>
    match item with
    | .ok (.added r) | .ok (.modified r) =>
      show _ = (r :: (delivered rest).filterMap WatchEvent.state?).find? accepts
      rw [Heard.listen, List.find?_cons]
      cases hr : accepts r with
      | true => rfl
      | false => exact ih _
    | .ok (.deleted r) | .ok (.bookmark v) => exact ih _
    | .ok (.error s) => rfl
    | .error fault => cases fault <;> rfl

/-- What an attempt comes to is the first accepted state that its watch shows. -/
theorem getRight?_heard (t : WaitTerms) (v : String) (answer : Except Failure (List WatchItem)) :
    (t.heard v answer).getRight? = (Finding.shown ⟨.changes v, answer⟩).find? t.accepts := by
  cases answer with
  | ok items => exact getRight?_listen t.accepts items _
  | error f =>
    cases f with
    | api fault => cases fault <;> rfl
    | _ => rfl

/-- What following has come to: the first accepted state that was shown; or else no state that was
shown is accepted, and a reading has failed or the time is over. -/
def Verdict (t : WaitTerms) (j : Journal) : Except Failure Resource → Prop
  | .ok r => j.shown.find? t.accepts = some r
  | .error f => j.shown.find? t.accepts = none ∧
      (j.answered.getLast? = some ⟨.state, .error f⟩ ∨ f = t.timeout)

theorem carries_verdict (t : WaitTerms) :
    t.Carries (fun _ j => j.shown.find? t.accepts = none)
      (fun j => j.shown.find? t.accepts = none) t.Verdict where
  idle h := h
  ask h := h
  read {j} answer h := by
    have noted := j.find?_shown_note ⟨.state, answer⟩ t.accepts
    rw [h, Option.none_or] at noted
    cases answer with
    | error f => exact ⟨noted, .inl List.getLast?_concat⟩
    | ok current =>
      have shown : (j.note ⟨.state, .ok current⟩).shown.find? t.accepts =
          (t.startFrom current).getRight? := noted.trans (t.getRight?_startFrom current).symm
      show Reached _ _ _ (.ok (t.startFrom current))
      cases hstart : t.startFrom current with
      | inl v => rwa [hstart] at shown
      | inr r => rwa [hstart] at shown
  watch {v j} answer h := by
    have shown : (j.note ⟨.changes v, answer⟩).shown.find? t.accepts =
        (t.heard v answer).getRight? := by
      rw [j.find?_shown_note, h, Option.none_or, t.getRight?_heard]
    cases hheard : t.heard v answer with
    | inl heard => rwa [hheard] at shown
    | inr r => rwa [hheard] at shown
  late h := ⟨h, .inr rfl⟩

end WaitTerms

/-! ## Turns -/

/-- Nobody who answers an inquiry takes time back or runs out of turns. -/
def Source.Steady (src : Source σ) : Prop := ∀ q w, (src.answer q w).Steady w.now

theorem Outside.Steady.source {o : Outside σ} (ho : o.Steady) (k : ServedKind) (ns : Option String)
    (given : Resource) : (k.source o ns given).Steady := by
  have perform {α : Type} (a : Action α) (w : World σ) : (Action.perform o a w).Steady w.now :=
    ho.perform a.run w
  intro q w
  cases q <;> simp only [ServedKind.source, perform]

namespace WaitTerms

variable {t : WaitTerms} {src : Source σ}

theorem steady_attemptBy (hsrc : src.Steady) (t : WaitTerms) (version : Option String)
    (w : World σ) : (t.attemptBy src version w).Steady w.now := by
  have since (w : World σ) : (t.sinceBy src version w).Steady w.now := by
    cases version with
    | some v => exact Nat.le_refl w.now
    | none => exact (hsrc .state w).bind fun _ w' => Nat.le_refl w'.now
  refine (since w).bind fun start w' => ?_
  match start with
  | .error f | .ok (.inr r) => exact Nat.le_refl w'.now
  | .ok (.inl v) => exact (hsrc (.changes v) w').bind fun _ w'' => Nat.le_refl w''.now

/-- Following has enough turns up to a timer if it has more than there are milliseconds up to it. -/
theorem tireless_upTo_following (hsrc : src.Steady) (hinitial : 0 < t.backoff.initial.nanos)
    (timer : Timer) {turns : Nat} {p : Progress} (hdelay : 0 < p.delay.nanos) {w : World σ}
    (h : timer.due - w.now < turns) :
    ((Activity.repeated (t.followOnceBy src) turns p w).upTo timer).Tireless := by
  induction turns generalizing p w with
  | zero => exact absurd h (Nat.not_lt_zero _)
  | succ turns ih =>
    show (Course.upTo timer (Course.bind (Course.bind _ _) _)).Tireless
    rw [Course.bind_assoc]
    refine (steady_attemptBy hsrc t p.version w).tireless_upTo_bind fun attempted w' hw' => ?_
    match attempted with
    | .error f | .ok (.inr r) => trivial
    | .ok (.inl heard) =>
      have hslept : 0 < (t.delayAfter p heard).nanos := by
        unfold delayAfter
        split <;> assumption
      let next : Progress := ⟨heard.version, t.backoff.next (t.delayAfter p heard)⟩
      have hnext : 0 < next.delay.nanos := t.backoff.next_pos hslept
      exact Activity.tireless_upTo_sleep hslept h (fun _ => ih hnext) hw'

theorem tireless_followBy (hsrc : src.Steady) (hinitial : 0 < t.backoff.initial.nanos)
    (version : Option String) :
    (t.followBy src version (Activity.turnsFor t.limit)).Tireless :=
  t.tireless_bounded fun timer _ h => tireless_upTo_following hsrc hinitial timer hinitial h

end WaitTerms

/-! ## Waits for a condition -/

/-- A condition that is waited for, on the changes after a version if there is one. -/
def Goal.on (accepts : Resource → Bool) : Option String → Goal
  | none => .condition accepts
  | some version => .conditionFrom accepts version

/-- To wait for a condition at an API server is to follow the resource by a source. Whatever the
source answers, no state that was shown is accepted as long as the wait goes on, and it ends with
the first state that is accepted, with the failure of a reading, or with its time. -/
theorem Remote.wait_firstMatch (t : WaitTerms) (version : Option String) :
    (∀ (o : Outside σ) (id : Option String) (k : ServedKind) (ns : Option String),
      (served id k).wait o (.on t.accepts version) ns t.given t.limit t.backoff =
        t.followBy (k.source o ns t.given) version (Activity.turnsFor t.limit) ∧
      (o.Steady → 0 < t.backoff.initial.nanos →
        (t.followBy (k.source o ns t.given) version (Activity.turnsFor t.limit)).Tireless)) ∧
    ∀ (src : Source σ) (turns : Nat),
      (t.followBy src.journaled version turns).Forgets (t.followBy src version turns) ∧
      (t.followBy src.journaled version turns).Throughout (· = {})
        (fun j => j.shown.find? t.accepts = none) t.Verdict := by
  refine ⟨fun o id k ns => ⟨?_, fun ho hinitial => ?_⟩, fun src turns =>
    ⟨t.forgets_followBy src version turns, fun w hw => ?_⟩⟩
  · cases version with
    | none => exact t.follow_eq_followBy o k ns none (Activity.turnsFor t.limit)
    | some v => exact t.follow_eq_followBy o k ns (some v) (Activity.turnsFor t.limit)
  · exact WaitTerms.tireless_followBy (ho.source k ns t.given) hinitial version
  · refine t.carries_verdict.followBy src version turns w ?_
    rw [hw]
    rfl

/-- The pod is followed past two states that are not accepted. -/
theorem Remote.wait_firstMatch_pod :
    ∃ w, podFollowed.run = .ended w (.ok (podAt "3")) ∧
      w.state.2.shown = [podAt "1", podAt "2", podAt "3"] ∧
      w.state.2.shown.find? podAwaited.accepts = some (podAt "3") := by
  have throughout := ((wait_firstMatch podAwaited none).2 podSource 5).2 ⟨0, 0, (), {}⟩ rfl
  exact ⟨podFollowed.run.world, rfl, rfl, throughout.run rfl⟩

end Rollout
