/-
  A batch with a resource that nobody handles never reaches a remote.

  A resource has no handler if it has no key, or if nobody is registered for its key and its kind is
  no list kind (`Registry.Lacks`). If a batch has such a resource at any place, every verb is done
  before its first call, whatever the settings are: it fails with the resolution failure of the
  first such resource, as it is and not as that of an aborted batch, and the deletion, which fails
  for nothing, answers that nothing was deleted (`BatchOperation.failFast`). A wait ends in the
  world in which it was started.
-/
import Rollout.Operation.Batch
import Rollout.Proofs.Apply.Abort
import Rollout.Proofs.Registry
import Rollout.Proofs.Wait.Terms

namespace Rollout

namespace BatchOperation

variable {op : BatchOperation} {f : Failure}

theorem targets_eq_error (h : op.items.mapM op.registry.resolveFor = .error f) :
    op.targets = .error f := by
  rw [targets, Apply.prepare_eq, h]
  rfl

theorem run_get_of_targets (h : op.targets = .error f) : op.get.run = .done (.error f) := by
  rw [get, Action.run_bind, h]
  rfl

theorem run_createOrReplace_of_targets (h : op.targets = .error f) :
    op.createOrReplace.run = .done (.error f) := by
  rw [createOrReplace, Action.run_bind, h]
  rfl

theorem run_isReady_of_get (h : op.get.run = .done (.error f)) :
    op.isReady.run = .done (.error f) := by
  rw [isReady, Action.run_bind, h]
  rfl

theorem run_delete_of_resolve (h : op.items.mapM op.registry.resolveFor = .error f) :
    op.delete.run = .done (.ok false) := by
  rw [delete, Apply.deleteAll, h]
  rfl

theorem wait_of_get {σ : Type} (h : op.get.run = .done (.error f)) (o : Outside σ) (g : Goal)
    (limit : Duration) (w : World σ) : op.wait o g limit w = .ended w (.error f) := by
  show Course.bind (Program.perform o op.get.run w) _ = _
  rw [h]
  rfl

/-- If a resource of the batch has no handler, every verb is done without a call, with the failure
of the first such resource. -/
theorem failFast (op : BatchOperation) (h : ∃ r ∈ op.items, op.registry.Lacks r) :
    ∃ before r after, op.items = before ++ r :: after ∧ (∀ y ∈ before, ¬ op.registry.Lacks y) ∧
      op.registry.Lacks r ∧ op.registry.resolveFor r = .error (Registry.lackOf r) ∧
      op.get.run = .done (.error (Registry.lackOf r)) ∧
      op.createOrReplace.run = .done (.error (Registry.lackOf r)) ∧
      op.isReady.run = .done (.error (Registry.lackOf r)) ∧
      op.delete.run = .done (.ok false) ∧
      ∀ (σ : Type) (o : Outside σ) g limit w,
        op.wait o g limit w = .ended w (.error (Registry.lackOf r)) := by
  obtain ⟨before, r, after, hsplit, hbefore, lacks, hresolve⟩ := Registry.failsFirst_of_lacks h
  have htargets := targets_eq_error hresolve
  have hget := run_get_of_targets htargets
  exact ⟨before, r, after, hsplit, hbefore, lacks, Registry.resolveFor_eq_error_iff.2 ⟨lacks, rfl⟩,
    hget, run_createOrReplace_of_targets htargets, run_isReady_of_get hget,
    run_delete_of_resolve hresolve, fun _ => wait_of_get hget⟩

/-- A pod, and behind it a resource that says neither what it is nor in which version. -/
def withStray : BatchOperation :=
  ⟨BatchTerms.podRegistry, {}, [BatchTerms.pod "a", ⟨none, { name := some "stray" }, .obj []⟩]⟩

theorem failFast_withStray : (∃ r ∈ withStray.items, withStray.registry.Lacks r) ∧
    withStray.createOrReplace.run =
      .done (.error (.invalidResource "stray has no apiVersion/kind")) ∧
    withStray.delete.run = .done (.ok false) := by
  have lacks : ∃ r ∈ withStray.items, withStray.registry.Lacks r :=
    ⟨_, List.mem_cons_of_mem _ List.mem_cons_self, nofun⟩
  obtain ⟨before, r, after, hsplit, -, hr, -, -, hcreate, -, hdelete, -⟩ := failFast withStray lacks
  refine ⟨lacks, ?_, hdelete⟩
  have hmem : r ∈ withStray.items := hsplit ▸ List.mem_append_right _ List.mem_cons_self
  rcases List.mem_cons.1 hmem with rfl | hstray
  · exact absurd hr (Registry.exists_resolveFor_iff.1 ⟨_, BatchTerms.resolveFor_pod "a"⟩)
  · rw [List.mem_singleton.1 hstray] at hcreate
    exact hcreate

end BatchOperation

end Rollout
