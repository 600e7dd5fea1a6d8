/-
  Reports: what became of a batch of resources that was waited for.

  A report has one outcome per resource, in the order of the batch. As a verdict on readiness it
  fails only when time ran out; as a verdict on a condition it fails unless every resource matched.
  The two failures name the resources that are to blame and the time that the batch was given.
-/
import Rollout.Failure

namespace Rollout

/-- What became of one resource. -/
inductive WaitOutcome where
  /-- The condition held in this state. -/
  | matched (state : Resource)
  /-- The kind has no notion of readiness. -/
  | skipped (given : Resource)
  /-- The wait for it failed, or, without a failure, was not over in time. -/
  | unmatched (given : Resource) (failure : Option Failure)
deriving Repr

namespace WaitOutcome

def matched? : WaitOutcome → Option Resource
  | matched state => some state
  | _ => none

def unmatched? : WaitOutcome → Option Resource
  | unmatched given _ => some given
  | _ => none

/-- The resource, unless it matched. -/
def missed? : WaitOutcome → Option Resource
  | matched _ => none
  | skipped given | unmatched given _ => some given

/-- The wait ran out of the time that it was given. -/
def ranOut : WaitOutcome → Bool
  | unmatched _ (some f) => f.isWaitTimeout
  | _ => false

/-- The resource, if it had not settled when time ran out. -/
def pending? (o : WaitOutcome) : Option Resource :=
  match o with
  | unmatched given none => some given
  | unmatched given (some f) => if f.isWaitTimeout then some given else none
  | _ => none

end WaitOutcome

/-- What became of a batch. -/
structure WaitReport where
  outcomes : List WaitOutcome
  /-- Time ran out before every resource had settled. -/
  timedOut : Bool
  /-- The time that the batch was given. -/
  limit : Duration

namespace WaitReport

/-- The report on a batch; `expired` says that it was cut off at its deadline. -/
def of (outcomes : List WaitOutcome) (expired : Bool) (limit : Duration) : WaitReport :=
  ⟨outcomes, expired || outcomes.any WaitOutcome.ranOut, limit⟩

def matched (r : WaitReport) : List Resource := r.outcomes.filterMap WaitOutcome.matched?

def unmatched (r : WaitReport) : List Resource := r.outcomes.filterMap WaitOutcome.unmatched?

def pending (r : WaitReport) : List Resource := r.outcomes.filterMap WaitOutcome.pending?

/-- Every resource matched. -/
def isMatched (r : WaitReport) : Bool := r.outcomes.all fun o => o.matched?.isSome

/-- The verdict on readiness: what was skipped or failed is left out. -/
def ready (r : WaitReport) : Except Failure (List Resource) :=
  if r.timedOut then .error (.waitTimeout r.pending r.limit) else .ok r.matched

/-- The verdict on a condition. -/
def met (r : WaitReport) : Except Failure (List Resource) :=
  if r.isMatched then .ok r.matched
  else .error (.waitTimeout (r.outcomes.filterMap WaitOutcome.missed?) r.limit)

end WaitReport

end Rollout
