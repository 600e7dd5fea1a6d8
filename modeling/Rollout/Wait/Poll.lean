/-
  Polling: the state of a resource is read again and again until it is accepted.

  The delay between two readings grows by the backoff. A resource that is absent and a state that
  is not accepted never end the wait; a reading that fails does.
-/
import Rollout.Activity

namespace Rollout

/-- A resource that is waited for: which states are accepted, how delays grow, and how long the
wait may take. -/
structure WaitTerms where
  given : Resource
  accepts : Resource → Bool
  backoff : Backoff
  limit : Duration

namespace WaitTerms

variable {σ : Type}

/-- The failure of a wait that was not over in time. -/
def timeout (t : WaitTerms) : Failure := .waitTimeout [t.given] t.limit

/-- Bounds a wait by its time. -/
def bounded (t : WaitTerms) (a : Activity σ (Except Failure Resource)) :
    Activity σ (Except Failure Resource) := do
  match ← a.within t.limit with
  | some result => return result
  | none => return .error t.timeout

/-- Reads the state once; if it is not accepted, sleeps and yields the next delay. -/
def pollOnce (t : WaitTerms) (o : Outside σ) (reading : Action (Option Resource))
    (delay : Duration) : Activity σ (Duration ⊕ Except Failure Resource) := do
  match ← Action.perform o reading with
  | .error f => return .inr (.error f)
  | .ok current =>
    match current.filter t.accepts with
    | some r => return .inr (.ok r)
    | none => do
      Activity.sleep delay
      return .inl (t.backoff.next delay)

/-- Polls until the state is accepted. -/
def poll (t : WaitTerms) (o : Outside σ) (reading : Action (Option Resource)) (turns : Nat) :
    Activity σ (Except Failure Resource) :=
  t.bounded (Activity.repeated (t.pollOnce o reading) turns t.backoff.initial)

end WaitTerms

end Rollout
