/-
  Waiting: until a resource is ready, or until a condition holds of it.

  A remote waits for its resource in its own way: a collaborator by its own notion of readiness or
  by polling, an API server by following. A container waits for its members, each by its own
  handler, side by side under one deadline, and so does a batch. A resource whose kind has no notion
  of readiness is skipped in a batch that waits for readiness.
-/
import Rollout.Handler
import Rollout.Readiness
import Rollout.Wait.Batch
import Rollout.Wait.Follow
import Rollout.Wait.Report

namespace Rollout

/-- What is waited for. -/
inductive Goal where
  | ready
  | condition (accepts : Resource → Bool)
  /-- A condition on the changes after a version. -/
  | conditionFrom (accepts : Resource → Bool) (version : String)

namespace Goal

def isReady : Goal → Bool
  | ready => true
  | _ => false

/-- What became of a resource whose wait came to `result`, or was not over in time. -/
def outcome (g : Goal) (given : Resource) : Option (Except Failure Resource) → WaitOutcome
  | none => .unmatched given none
  | some (.ok state) => .matched state
  | some (.error f) =>
    if g.isReady && f.isNotSupported then .skipped given else .unmatched given (some f)

/-- The report on `rs`, whose waits came to `results`; `expired` says that they were cut off. -/
def report (g : Goal) (rs : List Resource) (results : List (Option (Except Failure Resource)))
    (expired : Bool) (limit : Duration) : WaitReport :=
  .of ((rs.zip results).map fun (r, result) => g.outcome r result) expired limit

/-- The verdict on a batch. -/
def verdict (g : Goal) (r : WaitReport) : Except Failure (List Resource) :=
  if g.isReady then r.ready else r.met

end Goal

variable {σ : Type}

/-! ## One resource -/

/-- Waits for a resource of a remote. -/
def Remote.wait (o : Outside σ) (g : Goal) (x : Remote) (ns : Option String) (r : Resource)
    (limit : Duration) (backoff : Backoff) : Activity σ (Except Failure Resource) :=
  let terms (accepts : Resource → Bool) : WaitTerms := ⟨r, accepts, backoff, limit⟩
  match x with
  | .collaborator id ownReadiness =>
    match g with
    | .ready =>
      if ownReadiness then Program.perform o (.ask (.awaitReady id ns r limit))
      else return .error (.unsupported "readiness" r)
    | .condition accepts | .conditionFrom accepts _ =>
      (terms accepts).poll o (x.reload ns r) (Activity.turnsFor limit)
  | .served _ k =>
    match g with
    | .ready =>
      if supportsReadiness r.kind then
        (terms Resource.isReady).follow o k ns none (Activity.turnsFor limit)
      else return .error (.unsupported "readiness" r)
    | .condition accepts => (terms accepts).follow o k ns none (Activity.turnsFor limit)
    | .conditionFrom accepts version =>
      (terms accepts).follow o k ns (some version) (Activity.turnsFor limit)

/-! ## Batches -/

/-- How a batch waits. -/
structure BatchTerms where
  limit : Duration
  backoff : Backoff := Backoff.default
  /-- How many waits may run at the same time, any number if none. -/
  concurrency : Option Nat := none

/-- The number of permits; at least one wait may always run. -/
def BatchTerms.permits (t : BatchTerms) : Option Nat := t.concurrency.map (max 1)

/-- Waits for a batch, each resource by `wait` with what is left of the time. All handlers are
resolved first. -/
def BatchTerms.waitBy (t : BatchTerms) (reg : Registry) (g : Goal) (rs : List Resource)
    (wait : Handler → { r // r ∈ rs } → Duration → Activity σ (Except Failure Resource)) :
    Activity σ (Except Failure WaitReport) :=
  if rs.isEmpty then return .ok (.of [] false t.limit)
  else
    match rs.mapM reg.resolveFor with
    | .error f => return .error f
    | .ok handlers => do
      let tasks := (handlers.zip rs.attach).map fun (h, r) => wait h r
      let (results, expired) ← Activity.batchFor t.limit t.permits tasks
      return .ok (g.report rs results expired t.limit)

/-- Waits for a resource, of a container for its members. -/
def Handler.wait (o : Outside σ) (g : Goal) (h : Handler) (ns : Option String) (r : Resource)
    (limit : Duration) (backoff : Backoff) : Activity σ (Except Failure Resource) :=
  match h with
  | .remote x => x.wait o g ns r limit backoff
  | .members reg =>
    match _h : r.members with
    | .error f => return .error f
    | .ok ms => do
      let report ← BatchTerms.waitBy ⟨limit, backoff, none⟩ reg g ms fun h ⟨m, _⟩ budget =>
        Handler.wait o g h m.ns m budget backoff
      return (report.bind g.verdict).bind r.withMembers
termination_by r.data.depth
decreasing_by exact Resource.depth_of_members_eq_ok ‹_› ‹_›

/-- Waits for a batch of resources. -/
def BatchTerms.wait (t : BatchTerms) (o : Outside σ) (reg : Registry) (g : Goal)
    (rs : List Resource) : Activity σ (Except Failure WaitReport) :=
  t.waitBy reg g rs fun h r budget => h.wait o g r.1.ns r.1 budget t.backoff

end Rollout
