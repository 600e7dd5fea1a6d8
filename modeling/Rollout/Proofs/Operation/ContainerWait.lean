/-
  A container waits like its members.

  An operation on a container waits for the members inside it and puts what they come to back into
  the container; an operation on the batch of its members waits for each of them. Both run the same
  waits side by side, by the same handlers, in the same namespaces, with the same time and backoff,
  and differ only in what they make of the verdict (`Groups.wait_eq`, `batch_wait_eq`), and in the
  fractions of seconds, which a container does not hold. A verdict holds no states but those that
  the waits came to (`BatchTerms.ensures_states`), so the container can be put together if these are
  whole.
-/
import Rollout.Proofs.Activity.Result
import Rollout.Proofs.Operation.ContainerApply
import Rollout.Proofs.Wait.Attainment

namespace Rollout

variable {σ α : Type}

/-! ## States of a verdict -/

namespace Operation

/-- Waits for these members side by side, for each by its handler and in its namespace, with what is
left of the time. -/
def waits (o : Outside σ) (g : Goal) (reg : Registry) (limit : Duration) (backoff : Backoff)
    (ms : List Resource) : Activity σ (Except Failure WaitReport) :=
  BatchTerms.waitBy ⟨limit, backoff, none⟩ reg g ms fun h m budget =>
    h.wait o g m.1.ns m.1 budget backoff

/-- Waits for the members of a container, and makes of the verdict a container. -/
def waitMembers (o : Outside σ) (g : Goal) (reg : Registry) (limit : Duration) (backoff : Backoff)
    (c : Resource) : Activity σ (Except Failure Resource) :=
  match c.members with
  | .ok ms => do return ((← waits o g reg limit backoff ms).bind g.verdict).bind c.withMembers
  | .error f => return .error f

theorem wait_members (o : Outside σ) (g : Goal) (reg : Registry) (ns : Option String)
    (r : Resource) (limit : Duration) (backoff : Backoff) :
    (Handler.members reg).wait o g ns r limit backoff = waitMembers o g reg limit backoff r := by
  rw [Handler.wait, waitMembers]
  split
  · next f hms => rw [hms]
  · next ms hms =>
    rw [hms]
    rfl

/-- Once it has what to wait for, an operation on a container waits for its members. -/
theorem wait_of_members (reg : Registry) (s : Settings) (c : Resource) (o : Outside σ) (g : Goal)
    (limit : Duration) : (⟨reg, s, c, .members reg⟩ : Operation).wait o g limit = (do
      match ← Action.perform o (⟨reg, s, c, .members reg⟩ : Operation).waitTarget with
      | .ok target => waitMembers o g reg limit s.backoff target
      | .error f => return .error f) := by
  rw [wait]
  refine bind_congr fun found => ?_
  cases found with
  | ok target => exact wait_members o g reg target.ns target limit s.backoff
  | error f => rfl

namespace Groups

variable {reg : Registry} {s : Settings} {c : Resource} {ms : List Resource}

theorem wait_eq (h : Groups reg c ms) (hmarks : ∀ v ∈ s.visitors, v.IsMark)
    (own : s.fromServer = false) (o : Outside σ) (g : Goal) (limit : Duration) :
    (⟨reg, s, c, .members reg⟩ : Operation).wait o g limit =
      waits o g reg limit s.backoff ((ms.map Resource.settled).map s.pipeline.visit) >>=
        fun report => pure ((report.bind g.verdict).bind c.withMembers) := by
  obtain ⟨target, htarget, hmembers, hput⟩ := h.exists_target hmarks
  have found : (⟨reg, s, c, .members reg⟩ : Operation).waitTarget.run = .done (.ok target) := by
    rw [waitTarget, get, htarget, Action.ofExcept_bind, own]
    rfl
  have opened : (⟨reg, s, c, .members reg⟩ : Operation).wait o g limit =
      (Handler.members reg).wait o g target.ns target limit s.backoff := by
    rw [Operation.wait, Action.perform, found]
    rfl
  rw [opened, wait_members, waitMembers, hmembers, funext hput]

end Groups

open BatchTerms (podRegistry pods podStart resolveFor_pod)

end Operation

end Rollout
