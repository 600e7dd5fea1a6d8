/-
  When a wait for a batch is over.

  A wait first reads what there is of the items, and its time begins when this is done. Reading
  takes no time unless the server is asked; then the items are read one after the other, each for as
  long as the server takes. So the wait is over no later than its time after the reading, and not
  before the reading is (`BatchOperation.wait_overBy`). It may be longer than its time, and if an
  answer never comes, it is never over (`BatchOperation.wait_overruns`).
-/
import Rollout.Proofs.Operation.EveryItem
import Rollout.Proofs.Wait.Deadline

namespace Rollout

variable {σ : Type}

namespace BatchOperation

variable {op : BatchOperation} {o : Outside σ} {g : Goal} {limit : Duration} {w : World σ}

/-- What a wait does with what was read. -/
def waitFor (op : BatchOperation) (o : Outside σ) (g : Goal) (limit : Duration) :
    Except Failure (List Resource) → Activity σ (Except Failure (List Resource))
  | .ok items => do return (← (op.waitTerms limit).wait o op.registry g items).bind g.verdict
  | .error f => return .error f

/-- A wait reads, and then it waits for what it has read. -/
theorem wait_eq (op : BatchOperation) (o : Outside σ) (g : Goal) (limit : Duration) :
    op.wait o g limit = Action.perform o op.get >>= op.waitFor o g limit := by
  refine bind_congr fun read => ?_
  cases read <;> rfl

/-- Unless the server is asked, there is nothing to wait for while reading. -/
theorem exists_perform_get_own (own : op.settings.fromServer = false) (o : Outside σ)
    (w : World σ) : ∃ read, Action.perform o op.get w = .ended w read := by
  rw [get, own]
  cases op.targets <;> exact ⟨_, rfl⟩

theorem punctual_ownWaits (ho : o.Punctual) (t : BatchTerms) (reg : Registry) (g : Goal)
    (rs : List Resource) : BatchTerms.Punctual reg (t.ownWaits o g rs) :=
  fun r handler budget _ => handler.punctual_wait ho g r.1.ns r.1 budget t.backoff

theorem tireless_ownWaits (ho : o.Steady) {t : BatchTerms} (hdelay : 0 < t.backoff.initial.nanos)
    (reg : Registry) (g : Goal) (rs : List Resource) :
    BatchTerms.Tireless reg (t.ownWaits o g rs) :=
  fun r handler budget _ => handler.tireless_wait ho hdelay g r.1.ns r.1 budget

theorem overBy_waitFor (ho : o.Punctual) (read : Except Failure (List Resource)) (w : World σ) :
    (op.waitFor o g limit read w).OverBy (w.now + limit.ceilMillis) := by
  cases read with
  | error f => exact Nat.le_add_right _ _
  | ok items =>
    have waited : ((op.waitTerms limit).wait o op.registry g items w).OverBy _ :=
      BatchTerms.overBy_waitBy (punctual_ownWaits ho _ _ g items) w
    exact waited.bind (Nat.le_refl _) fun _ _ hw => hw

theorem punctual_waitFor (ho : o.Punctual) (read : Except Failure (List Resource)) :
    (op.waitFor o g limit read).Punctual := by
  cases read with
  | error f => exact Activity.punctual_pure _
  | ok items =>
    have waited : ((op.waitTerms limit).wait o op.registry g items).Punctual :=
      BatchTerms.punctual_waitBy _ g (punctual_ownWaits ho _ _ g items)
    exact waited.bind fun _ => Activity.punctual_pure _

/-- No wait is over before it begins. -/
theorem le_of_overBy_waitFor (ho : o.Punctual) {read : Except Failure (List Resource)} {n : Nat}
    (h : (op.waitFor o g limit read w).OverBy n) : w.now ≤ n := by
  have punctual : (op.waitFor o g limit read w).Punctual 0 w :=
    punctual_waitFor ho read 0 w (Nat.zero_le _)
  exact punctual.le_of_overBy (Nat.zero_le _) h

theorem tireless_waitFor (ho : o.Steady) (hdelay : 0 < op.settings.backoff.initial.nanos)
    (read : Except Failure (List Resource)) : (op.waitFor o g limit read).Tireless := by
  intro w
  cases read with
  | error f => trivial
  | ok items =>
    have waited : ((op.waitTerms limit).wait o op.registry g items w).Tireless :=
      BatchTerms.tireless_waitBy (tireless_ownWaits ho hdelay _ g items) w
    exact waited.bind fun _ _ => trivial

/-- Whatever is waited for, and however long answers take: without the server, the wait is over by
its time. Otherwise it is over by its time from the end of the reading on, and not before this end;
and if the reading never ends, the wait never does. It does not run out of turns if nobody takes
time back and the first delay is not zero; so it comes to an end by then, or crashes. -/
theorem wait_overBy (op : BatchOperation) {o : Outside σ} (ho : o.Punctual) (g : Goal)
    (limit : Duration) (w : World σ) :
    (op.settings.fromServer = false →
      (op.wait o g limit w).OverBy (w.now + limit.ceilMillis)) ∧
    (∀ n, (Action.perform o op.get w).OverBy n →
      (op.wait o g limit w).OverBy (n + limit.ceilMillis)) ∧
    (∀ w₁ read, (Action.perform o op.get w).run = .ended w₁ read →
      ∀ n, (op.wait o g limit w).OverBy n → w₁.now ≤ n) ∧
    (∀ w₁, (Action.perform o op.get w).run = .stuck w₁ → (op.wait o g limit w).run = .stuck w₁) ∧
    (o.Steady → 0 < op.settings.backoff.initial.nanos → (op.wait o g limit).Tireless ∧
      ∀ n, (Action.perform o op.get w).OverBy n →
        (∃ w' result, (op.wait o g limit w).run = .ended w' result ∧
          w'.now ≤ n + limit.ceilMillis) ∨
        ∃ w', (op.wait o g limit w).run = .crashed w' ∧ w'.now ≤ n + limit.ceilMillis) := by
  have late (n : Nat) (h : (Action.perform o op.get w).OverBy n) :
      (op.wait o g limit w).OverBy (n + limit.ceilMillis) := by
    rw [wait_eq]
    exact Course.OverBy.bind h (Nat.le_add_right _ _) fun read w₁ hw₁ =>
      (overBy_waitFor ho read w₁).mono (Nat.add_le_add_right hw₁ _)
  have tireless (steady : o.Steady) (hdelay : 0 < op.settings.backoff.initial.nanos) :
      (op.wait o g limit).Tireless := by
    rw [wait_eq]
    exact fun w₁ => Course.Tireless.bind (steady.tireless_perform op.get.run w₁)
      fun read => tireless_waitFor steady hdelay read
  refine ⟨fun own => late w.now ?_, late, fun w₁ read hread n hover => ?_, fun w₁ hread => ?_,
    fun steady hdelay => ⟨tireless steady hdelay, fun n hread =>
      (late n hread).run (tireless steady hdelay w)⟩⟩
  · obtain ⟨read, hread⟩ := exists_perform_get_own own o w
    rw [hread]
    exact Nat.le_refl _
  · rw [wait_eq] at hover
    exact le_of_overBy_waitFor ho (Course.OverBy.of_bind hover hread)
  · rw [wait_eq]
    show (Course.bind (Action.perform o op.get w) _).run = _
    rw [Course.run_bind, hread]
    rfl

/-! ### A server that is slow -/

open BatchTerms (pod podRegistry podStart)

/-- Every reading takes longer than a wait may. -/
def slow : Outside Unit where
  answer
    | .reload _ _ r => do
      Activity.sleep (.ofMillis 160)
      return .ok (some r)
    | _ => Activity.never

/-- Nothing is ever answered. -/
def silent : Outside Unit where
  answer _ := Activity.never

theorem punctual_slow : slow.Punctual := by
  intro c
  cases c with
  | reload id ns r =>
    exact (Activity.punctual_sleep _).bind fun _ => Activity.punctual_pure _
  | _ => exact fun _ w _ => .refl w

theorem steady_slow : slow.Steady := by
  intro c w
  cases c with
  | reload id ns r => exact ⟨Nat.le_add_right _ _, fun w' _ => Nat.le_refl w'.now⟩
  | _ => trivial

/-- To read a batch of one pod is to read the pod. -/
theorem get_ofPods_singleton (name : String) : (ofPods [name]).get = do
    let state ← Apply.reload (.remote (.collaborator "pods" true)) (ofPods []).settings.pipeline
      (pod name)
    return state.toList := by
  show (do
    let states ← [name].mapM fun name => Apply.reload (.remote (.collaborator "pods" true))
      (ofPods []).settings.pipeline (pod name)
    return states.filterMap id) = _
  rw [List.mapM_cons, List.mapM_nil]
  simp only [bind_assoc, pure_bind]
  refine bind_congr fun state => ?_
  cases state <;> rfl

theorem perform_get_slow : Action.perform slow (ofPods ["there"]).get podStart =
    .asleep ⟨0, 1, ()⟩ ⟨160, 0⟩ fun w => .ended w (.ok [pod "there"]) := by
  rw [get_ofPods_singleton]
  simp only [Apply.reload, Handler.reload]
  rfl

theorem perform_get_silent :
    Action.perform silent (ofPods ["there"]).get podStart = .stuck podStart := by
  rw [get_ofPods_singleton]
  simp only [Apply.reload, Handler.reload]
  rfl

/-- The wait for a pod that is read after 160 ms is over 100 ms later, and does not run out of
turns; that for a pod that need not be read is over after 100 ms. -/
theorem wait_overBy_slow : slow.Punctual ∧ slow.Steady ∧
    ((ofPods ["there"]).wait slow (.condition fun _ => true) (.ofMillis 100) podStart).OverBy 260 ∧
    ((ofPods ["there"]).wait slow (.condition fun _ => true) (.ofMillis 100)).Tireless ∧
    ((⟨podRegistry, {}, [pod "there"]⟩ : BatchOperation).wait slow (.condition fun _ => true)
      (.ofMillis 100) podStart).OverBy 100 := by
  have read : (Action.perform slow (ofPods ["there"]).get podStart).OverBy 160 := by
    rw [perform_get_slow]
    exact fun w' hw' _ => Nat.le_of_eq hw'
  obtain ⟨-, late, -, -, tireless⟩ := wait_overBy (ofPods ["there"]) punctual_slow
    (.condition fun _ => true) (.ofMillis 100) podStart
  obtain ⟨own, -⟩ := wait_overBy ⟨podRegistry, {}, [pod "there"]⟩ punctual_slow
    (.condition fun _ => true) (.ofMillis 100) podStart
  exact ⟨punctual_slow, steady_slow, late 160 read, (tireless steady_slow (by decide)).1, own rfl⟩

/-- A wait of 100 ms for a pod is not over after 100 ms, and another one is never over. -/
theorem wait_overruns :
    ¬ ((ofPods ["there"]).wait slow (.condition fun _ => true) (.ofMillis 100) podStart).OverBy
      100 ∧
    ((ofPods ["there"]).wait silent (.condition fun _ => true) (.ofMillis 100) podStart).run =
      .stuck podStart := by
  refine ⟨fun hover => ?_, ?_⟩
  · rw [wait_eq] at hover
    have hread : (Action.perform slow (ofPods ["there"]).get podStart).run =
        .ended ⟨160, 1, ()⟩ (.ok [pod "there"]) := by
      rw [perform_get_slow]
      rfl
    have begun := Course.OverBy.of_bind hover hread
    have late : 160 ≤ 100 := le_of_overBy_waitFor punctual_slow begun
    exact absurd late (by decide)
  · rw [wait_eq]
    show (Course.bind (Action.perform silent _ podStart) _).run = _
    rw [perform_get_silent]
    rfl

end BatchOperation

end Rollout
