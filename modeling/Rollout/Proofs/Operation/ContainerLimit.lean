/-
  The limit of the settings does not reach the waits for the members of a container.

  The handler of a container is not told how many waits may run at the same time, and waits for all
  of its members at once. So an operation on a container waits in the same way whatever the limit
  is, and when no task is due, all waits for members that are not over are in progress
  (`wait_unlimited`). The limit is kept if there are no more members than that, and not beyond it
  (`wait_exceeds_limit`); the operation on the batch of the members keeps it.
-/
import Rollout.Proofs.Operation.Namespace
import Rollout.Proofs.Wait.Condition
import Rollout.Proofs.Wait.Unlimited

namespace Rollout.Operation

variable {σ : Type}

/-- How the members of a container are waited for: all at once. -/
def memberTerms (s : Settings) (limit : Duration) : BatchTerms := ⟨limit, s.backoff, none⟩

/-- The waits for members, each by the handler of the member and in its namespace. -/
abbrev memberWaits (o : Outside σ) (g : Goal) (s : Settings) (limit : Duration)
    (ms : List Resource) : BatchTerms.Waits σ ms := (memberTerms s limit).ownWaits o g ms

theorem punctual_memberWaits {o : Outside σ} (punctual : o.Punctual) (reg : Registry) (g : Goal)
    (s : Settings) (limit : Duration) (ms : List Resource) :
    BatchTerms.Punctual reg (memberWaits o g s limit ms) :=
  fun m h budget _ => h.punctual_wait punctual g m.1.ns m.1 budget s.backoff

/-- When the waits for members have come to their report, all that are not over are in progress. -/
theorem exists_run_waits {reg : Registry} {s : Settings} {o : Outside σ} (punctual : o.Punctual)
    (g : Goal) {limit : Duration} {ms : List Resource} {register : σ → List Mark} {w : World σ}
    (nonempty : ms ≠ []) (resolves : ∀ m ∈ ms, ∃ h, reg.resolveFor m = .ok h)
    (registers : BatchTerms.Registers register reg (memberWaits o g s limit ms))
    (tireless : BatchTerms.Tireless reg (memberWaits o g s limit ms))
    (fits : (memberTerms s limit).Fits w) :
    ∃ b w' w'' new, (memberTerms s limit).Timely register reg (memberWaits o g s limit ms) w b w' ∧
      (waits o g reg limit s.backoff ms w).run =
        .ended w'' (.ok ((memberTerms s limit).reportOn g ms b)) ∧
      register w''.state = register w.state ++ new ∧
      (∀ past, past <+: new → Mark.inProgress past ≤ max 1 ms.length) ∧
      (0 < limit.ceilMillis →
        Mark.inProgress new = b.seats.countP fun seat => !seat.isSettled) := by
  have own := punctual_memberWaits punctual reg g s limit ms
  obtain ⟨b, w', htimely, hquiet, hrun⟩ :=
    BatchTerms.run_waitBy_timely (g := g) register nonempty resolves fits tireless
  obtain ⟨new, hnew, hpasts, hblocked⟩ := htimely.inProgress_unlimited rfl own registers
  refine ⟨b, w', _, new, htimely, hrun, ?_, hpasts, fun lasts =>
    hblocked (Batch.blocked_of_quiet hquiet ?_)⟩
  · rw [BatchTerms.state_closing, hnew]
  · have begun : w.now < (w.setTimer limit).1.due := Nat.lt_add_of_pos_right lasts
    rcases (htimely.inTime own).inTime with hw' | hw'
    · rw [hw']
      exact begun
    · exact hw'

/-- An operation on a container waits without regard to the limit of its settings: once it has what
to wait for, it waits for the members side by side. Of these waits, which may be marked as they
begin and end, at no moment more are in progress than there are members, and when no task is due, or
none before the deadline, all that are not over. If they keep a register themselves, it tells the
same of the run of the waits. -/
theorem wait_unlimited {reg : Registry} {s : Settings} {c : Resource} {op : Operation}
    (hop : Operation.of reg s c = .ok op)
    (unregistered : ∀ key, ResourceKey.of? c = some key → reg.find? key = none)
    {o : Outside σ} (punctual : o.Punctual) (g : Goal) (limit : Duration) :
    (∀ cap, { op with settings := { s with concurrency := cap } }.wait o g limit =
      op.wait o g limit) ∧
    op.wait o g limit = (do
      match ← Action.perform o op.waitTarget with
      | .ok target => waitMembers o g reg limit s.backoff target
      | .error f => return .error f) ∧
    (∀ ms w b w', (memberTerms s limit).Timely Prod.snd reg
        (BatchTerms.marked (memberWaits o g s limit ms)) w b w' →
      ∃ new, w'.state.2 = w.state.2 ++ new ∧
        (∀ past, past <+: new → Mark.inProgress past ≤ max 1 ms.length) ∧
        (b.Blocked w' ∨ Batch.Quiet (w.setTimer limit).1 b.seats ∧
            w'.now < (w.setTimer limit).1.due →
          Mark.inProgress new = b.seats.countP fun seat => !seat.isSettled)) ∧
    ∀ ms (register : σ → List Mark) w, ms ≠ [] → (∀ m ∈ ms, ∃ h, reg.resolveFor m = .ok h) →
      BatchTerms.Registers register reg (memberWaits o g s limit ms) →
      BatchTerms.Tireless reg (memberWaits o g s limit ms) → (memberTerms s limit).Fits w →
      ∃ b w' w'' new,
        (memberTerms s limit).Timely register reg (memberWaits o g s limit ms) w b w' ∧
        (waits o g reg limit s.backoff ms w).run =
          .ended w'' (.ok ((memberTerms s limit).reportOn g ms b)) ∧
        register w''.state = register w.state ++ new ∧
        (∀ past, past <+: new → Mark.inProgress past ≤ max 1 ms.length) ∧
        (0 < limit.ceilMillis →
          Mark.inProgress new = b.seats.countP fun seat => !seat.isSettled) := by
  obtain ⟨rfl, -⟩ := eq_of_unregistered hop unregistered
  refine ⟨fun cap => rfl, wait_of_members reg s c o g limit, fun ms w b w' h => ?_,
    fun ms register w nonempty resolves registers tireless fits =>
      exists_run_waits punctual g nonempty resolves registers tireless fits⟩
  have own := punctual_memberWaits punctual reg g s limit ms
  obtain ⟨new, hnew, hpasts, hblocked⟩ := h.inProgress_unlimited rfl
    (BatchTerms.punctual_marked own) (BatchTerms.registers_marked reg _)
  refine ⟨new, hnew, hpasts, fun waits => hblocked ?_⟩
  rcases waits with blocked | ⟨quiet, hw'⟩
  · exact blocked
  · exact Batch.blocked_of_quiet quiet hw'

/-! ## Pods that are never ready -/

open BatchTerms (pod podRegistry resolveFor_pod)

/-- No pod is ever ready. The outside notes when it is asked to wait for one. -/
def unready : Outside (List Mark) where
  answer
    | .awaitReady _ _ r limit => fun w =>
      .stuck ⟨w.now, w.timers, w.state ++ [.called r (Activity.nanosNow w) limit]⟩
    | _ => Activity.crash

/-- One wait at a time. -/
def oneByOne : Settings := { concurrency := some 1 }

theorem of_podList_oneByOne (names : List String) :
    Operation.of podRegistry oneByOne (podList names) =
      .ok ⟨podRegistry, oneByOne, podList names, .members podRegistry⟩ :=
  of_eq_ok (resolveFor_podList names)

theorem punctual_unready : unready.Punctual := by
  intro c first w hw
  cases c with
  | awaitReady id ns r limit => exact ⟨rfl, Nat.le_refl _⟩
  | _ => exact .refl w

/-- The wait for a pod notes that it has begun, and is never over. -/
theorem wait_unready {names : List String} {m : { m // m ∈ names.map pod }} {h : Handler}
    (hh : podRegistry.resolveFor m.1 = .ok h) (limit budget : Duration) (w : World (List Mark)) :
    memberWaits unready .ready oneByOne limit (names.map pod) h m budget w =
      .stuck ⟨w.now, w.timers, w.state ++ [.called m.1 (Activity.nanosNow w) budget]⟩ := by
  obtain ⟨name, -, hname⟩ := List.mem_map.1 m.2
  rw [← hname, resolveFor_pod] at hh
  obtain rfl := Except.ok.inj hh
  show Handler.wait _ _ _ _ _ _ _ w = _
  rw [Handler.wait]
  rfl

theorem registers_unready (names : List String) (limit : Duration) :
    BatchTerms.Registers id podRegistry
      (memberWaits unready .ready oneByOne limit (names.map pod)) := by
  intro m h budget hh w
  rw [wait_unready hh]
  rfl

theorem tireless_unready (names : List String) (limit : Duration) :
    BatchTerms.Tireless podRegistry
      (memberWaits unready .ready oneByOne limit (names.map pod)) := by
  intro m h budget hh w
  rw [wait_unready hh]
  trivial

/-- None of the waits for these pods is ever over. -/
theorem countP_unready {names : List String} {limit : Duration} {w w' : World (List Mark)}
    {b : Batch (List Mark) (Except Failure Resource)}
    (h : (memberTerms oneByOne limit).Timely id podRegistry
      (memberWaits unready .ready oneByOne limit (names.map pod)) w b w') :
    (b.seats.countP fun seat => !seat.isSettled) = names.length := by
  obtain ⟨log, hunfolds⟩ := h.unfolds
  -- What is never over may be said to come to anything.
  have anything (x : Option (Except Failure Resource)) : BatchTerms.ComesTo podRegistry
      (memberWaits unready .ready oneByOne limit (names.map pod)) fun _ => x := by
    intro m h budget hh w
    rw [wait_unready hh]
    trivial
  have unsettled : ∀ seat ∈ b.seats, (!seat.isSettled) = true := by
    intro seat hseat
    obtain ⟨i, hi⟩ := List.mem_iff_getElem?.1 hseat
    rw [Seat.isSettled_eq]
    cases hleft : seat.left? with
    | none => rfl
    | some y =>
      obtain ⟨-, hnone⟩ := hunfolds.comesTo (anything none) i seat hi
      obtain ⟨-, hsome⟩ := hunfolds.comesTo (anything (some (.ok (pod "a")))) i seat hi
      cases (hnone.left? hleft).symm.trans (hsome.left? hleft)
  rw [List.countP_eq_length.2 unsettled, hunfolds.length, List.length_map]

theorem fits_memberTerms : (memberTerms oneByOne (.ofMillis 100)).Fits
    (⟨0, 0, []⟩ : World (List Mark)) := by
  have inTime : Activity.nanosNow (⟨0, 0, []⟩ : World (List Mark)) +
      (Duration.ofMillis 100).nanos ≤ Activity.lastInstant := by decide +kernel
  exact ⟨inTime, nofun⟩

/-- The wait of a list of two pods has a limit of one, and waits for both of them at once. -/
theorem wait_unlimited_pods : ∃ op,
    Operation.of podRegistry oneByOne (podList ["a", "b"]) = .ok op ∧ unready.Punctual ∧
    (∀ m ∈ ["a", "b"].map pod, ∃ h, podRegistry.resolveFor m = .ok h) ∧
    BatchTerms.Registers id podRegistry
      (memberWaits unready .ready oneByOne (.ofMillis 100) (["a", "b"].map pod)) ∧
    BatchTerms.Tireless podRegistry
      (memberWaits unready .ready oneByOne (.ofMillis 100) (["a", "b"].map pod)) ∧
    { op with settings := {} }.wait unready .ready (.ofMillis 100) =
      op.wait unready .ready (.ofMillis 100) ∧
    ∃ w' report, (waits unready .ready podRegistry (.ofMillis 100) oneByOne.backoff
        (["a", "b"].map pod) ⟨0, 0, []⟩).run = .ended w' (.ok report) ∧
      Mark.inProgress w'.state = 2 := by
  have hop := of_podList_oneByOne ["a", "b"]
  have registers := registers_unready ["a", "b"] (.ofMillis 100)
  have tireless := tireless_unready ["a", "b"] (.ofMillis 100)
  have resolves := BatchTerms.resolves_pods ["a", "b"]
  have nonempty : ["a", "b"].map pod ≠ [] := List.cons_ne_nil _ _
  obtain ⟨same, -, -, runs⟩ := wait_unlimited hop (groups_podList ["a", "b"]).unregistered
    punctual_unready .ready (.ofMillis 100)
  obtain ⟨b, w', w'', new, htimely, hrun, hstate, -, hinProgress⟩ := runs _ id ⟨0, 0, []⟩
    nonempty resolves registers tireless fits_memberTerms
  have hnew : w''.state = new := hstate
  refine ⟨_, hop, punctual_unready, resolves, registers, tireless, same none, w'', _, hrun, ?_⟩
  rw [hnew, hinProgress (by decide +kernel), countP_unready htimely]
  rfl

/-- Although at most one wait at a time is allowed, two waits for the members of a list are in
progress at the same time. -/
theorem wait_exceeds_limit : ∃ op w' result,
    Operation.of podRegistry oneByOne (podList ["a", "b"]) = .ok op ∧
    op.settings.concurrency = some 1 ∧
    (op.wait unready .ready (.ofMillis 100) ⟨0, 0, []⟩).run = .ended w' result ∧
    Mark.inProgress w'.state = 2 := by
  have visited : ["a", "b"].map pod =
      ((["a", "b"].map pod).map Resource.settled).map oneByOne.pipeline.visit := by
    rw [List.map_map, List.map_map]
    exact List.map_congr_left fun name _ => (visit_of_no_settings (pod name)).symm
  have hmarks : ∀ v ∈ oneByOne.visitors, v.IsMark := List.forall_mem_nil _
  have same := (groups_podList ["a", "b"]).wait_eq hmarks rfl unready .ready (.ofMillis 100)
  have nonempty : ["a", "b"].map pod ≠ [] := List.cons_ne_nil _ _
  obtain ⟨b, w', w'', new, htimely, hrun, hstate, -, hinProgress⟩ := exists_run_waits
    punctual_unready .ready nonempty (BatchTerms.resolves_pods ["a", "b"])
    (registers_unready ["a", "b"] (.ofMillis 100)) (tireless_unready ["a", "b"] _) fits_memberTerms
  have hnew : w''.state = new := hstate
  rw [← visited] at same
  let report := (memberTerms oneByOne (.ofMillis 100)).reportOn .ready (["a", "b"].map pod) b
  refine ⟨_, w'', (Goal.ready.verdict report).bind (podList ["a", "b"]).withMembers,
    of_podList_oneByOne _, rfl, ?_, ?_⟩
  · rw [same]
    exact Course.run_bind_pure_iff.2 ⟨_, hrun, rfl⟩
  · rw [hnew, hinProgress (by decide +kernel), countP_unready htimely]
    rfl

end Rollout.Operation
