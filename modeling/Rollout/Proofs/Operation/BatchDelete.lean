/-
  A batch is deleted up to the first item that does not come through the pipeline.

  All handlers are resolved before the first deletion, but each item is run through the pipeline
  when its turn has come. A container without members has a handler and does not come through the
  pipeline. So such an item keeps those behind it from being deleted, but not those before it
  (`delete_unopened`): these may be gone by the time the deletion fails (`delete_before_unopened`).
  The verbs that run all pipelines first fail without a call.
-/
import Rollout.Proofs.Apply.Deletion
import Rollout.Proofs.Operation.ContainerApply
import Rollout.Proofs.Operation.FailFast

namespace Rollout.BatchOperation

open Apply

variable {op : BatchOperation} {f : Failure}

/-- The deletion of a batch deletes the items before one that does not come through the pipeline,
and fails behind them. -/
theorem delete_eq {before after : List Resource} {r : Resource} {batch : List Prepared}
    (resolves : ∃ handlers, op.items.mapM op.registry.resolveFor = .ok handlers)
    (hitems : op.items = before ++ r :: after)
    (hbefore : before.mapM (prepareItem op.registry op.settings.pipeline) = .ok batch)
    (hr : prepareItem op.registry op.settings.pipeline r = .error f) :
    op.delete = (do
      if ← batch.allM (deletePrepared op.settings.deleteOptions) then throw f
      return false) := by
  obtain ⟨handlers, hhandlers⟩ := resolves
  have failing : deleteItem op.registry op.settings.pipeline op.settings.deleteOptions r =
      throw f := by
    rw [deleteItem, hr]
    rfl
  rw [delete, deleteAll_eq hhandlers, hitems, Action.allM_append_throw failing,
    allM_deleteItem hbefore]

/-- If the pipeline fails for an item of a batch, and all items have a handler, the deletion of the
batch is that of the items before the first such item, and fails with the failure of this one behind
them, unless one of them was not deleted. So no call is made if this is the first item. The other
verbs fail without a call, and so does the deletion if an item has no handler. -/
theorem delete_unopened (op : BatchOperation) (fails : ∃ r ∈ op.items, ∃ h f,
    op.registry.resolveFor r = .ok h ∧ h.edit op.settings.pipeline r = .error f) :
    ((∃ r ∈ op.items, op.registry.Lacks r) → op.delete.run = .done (.ok false)) ∧
    ((∀ r ∈ op.items, ¬ op.registry.Lacks r) → ∃ before r after h f batch,
      op.items = before ++ r :: after ∧ op.registry.resolveFor r = .ok h ∧
      h.edit op.settings.pipeline r = .error f ∧
      List.Forall₂ (fun r out => op.registry.resolveFor r = .ok out.1 ∧
        out.1.edit op.settings.pipeline r = .ok out.2) before batch ∧
      (∀ events result, op.delete.run.Runs events result ↔ ∃ answers verdict,
        Deletion op.settings.deleteOptions batch answers events verdict ∧
          (verdict = .ok true → result = .error f) ∧ (verdict ≠ .ok true → result = verdict)) ∧
      (before = [] → op.delete.run = .done (.error f)) ∧
      op.get.run = .done (.error f) ∧ op.createOrReplace.run = .done (.error f)) := by
  refine ⟨fun lacks => ?_, fun resolves => ?_⟩
  · obtain ⟨_, _, _, _, _, _, hresolve⟩ := Registry.failsFirst_of_lacks lacks
    exact run_delete_of_resolve hresolve
  have handlers : ∀ r ∈ op.items, ∃ h, op.registry.resolveFor r = .ok h := fun r hr =>
    Registry.exists_resolveFor_iff.2 (resolves r hr)
  have failing : ∃ r ∈ op.items, ∃ f,
      prepareItem op.registry op.settings.pipeline r = .error f := by
    obtain ⟨r, hr, h, f, hresolve, hedit⟩ := fails
    exact ⟨r, hr, f, (prepareItem_eq_error_iff hresolve).2 hedit⟩
  obtain ⟨f, unopened⟩ := exists_failsFirst failing
  have htargets : op.targets = .error f := prepare_eq_error_iff.2 (.inr ⟨handlers, unopened⟩)
  obtain ⟨before, r, after, hitems, hbefore, hr⟩ := unopened
  obtain ⟨batch, hbatch⟩ := exists_mapM_eq_ok hbefore
  obtain ⟨h, hresolve⟩ := handlers r (hitems ▸ List.mem_append_right before List.mem_cons_self)
  have same := delete_eq (exists_mapM_eq_ok handlers) hitems hbatch hr
  refine ⟨before, r, after, h, f, batch, hitems, hresolve,
    (prepareItem_eq_error_iff hresolve).1 hr,
    (mapM_eq_ok_iff_forall₂.1 hbatch).imp fun _ _ => prepareItem_eq_ok_iff.1,
    fun events result => ?_, ?_, run_get_of_targets htargets,
    run_createOrReplace_of_targets htargets⟩
  · rw [same, Action.runs_bind_throw_iff]
    simp only [runs_allM_deletePrepared_iff]
    constructor
    · rintro ⟨verdict, ⟨answers, deletion, -⟩, hresult⟩
      exact ⟨answers, verdict, deletion, hresult⟩
    · rintro ⟨answers, verdict, deletion, hresult⟩
      exact ⟨verdict, ⟨answers, deletion, fun _ h => h.unique deletion⟩, hresult⟩
  · rintro rfl
    obtain rfl := Except.ok.inj hbatch
    rw [same]
    rfl

/-! ## A list without members -/

open BatchTerms (pod podRegistry resolveFor_pod)
open Operation (isListKind_podList)

/-- A list of pods that has no items, and so is no list of pods. -/
def bareList : Resource := ⟨some ⟨"v1", "PodList"⟩, { name := some "l" }, .obj []⟩

/-- A pod, and behind it a list without items. -/
def withBareList : BatchOperation := ⟨podRegistry, {}, [pod "a", bareList]⟩

theorem resolveFor_bareList : podRegistry.resolveFor bareList = .ok (.members podRegistry) :=
  Registry.resolveFor_of_isList rfl rfl isListKind_podList

theorem edit_bareList (reg : Registry) (p : Pipeline) :
    (Handler.members reg).edit p bareList = .error (.invalidResource "PodList l has no items") := by
  have bare : bareList.members? = none := by decide +kernel
  have text : bareList.describe ++ " has no items" = "PodList l has no items" := by decide +kernel
  have members : bareList.members = .error (.invalidResource "PodList l has no items") := by
    rw [Resource.members, bare, text]
    rfl
  rw [Handler.edit_members, members]
  rfl

/-- A list without items is not expanded when the operation is made. -/
theorem of_withBareList :
    BatchOperation.of podRegistry {} [pod "a", bareList] = .ok withBareList := by
  have bare : bareList.members? = none := by decide +kernel
  have leaves : ∀ r ∈ [pod "a", bareList], r.leaves = .ok [r] :=
    List.forall_mem_cons.2 ⟨Resource.leaves_of_not_list (by decide +kernel),
      List.forall_mem_singleton.2 (Resource.leaves_of_members?_eq_none bare)⟩
  rw [BatchOperation.of, Resource.flatten_of_leaves leaves]
  rfl

theorem unopened_bareList : ∃ r ∈ withBareList.items, ∃ h f,
    withBareList.registry.resolveFor r = .ok h ∧
      h.edit withBareList.settings.pipeline r = .error f :=
  ⟨bareList, List.mem_cons_of_mem _ List.mem_cons_self, _, _, resolveFor_bareList,
    edit_bareList _ _⟩

/-- While the deletion gets as far as the pod, creating or replacing the same batch does not. -/
theorem delete_unopened_bareList : (∃ r ∈ withBareList.items, ∃ h f,
      withBareList.registry.resolveFor r = .ok h ∧
        h.edit withBareList.settings.pipeline r = .error f) ∧
    ∃ f, withBareList.createOrReplace.run = .done (.error f) := by
  have lacks : ∀ r ∈ withBareList.items, ¬ withBareList.registry.Lacks r :=
    List.forall_mem_cons.2 ⟨Registry.exists_resolveFor_iff.1 ⟨_, resolveFor_pod "a"⟩,
      List.forall_mem_singleton.2 (Registry.exists_resolveFor_iff.1 ⟨_, resolveFor_bareList⟩)⟩
  refine ⟨unopened_bareList, ?_⟩
  obtain ⟨-, -, -, -, f, -, -, -, -, -, -, -, -, hcreate⟩ :=
    (delete_unopened withBareList unopened_bareList).2 lacks
  exact ⟨f, hcreate⟩

/-- Although the pipeline fails for an item of the batch, its deletion may delete a pod. -/
theorem delete_before_unopened :
    BatchOperation.of podRegistry {} [pod "a", bareList] = .ok withBareList ∧
    (∃ r ∈ withBareList.items, ∃ h f, withBareList.registry.resolveFor r = .ok h ∧
      h.edit withBareList.settings.pipeline r = .error f) ∧
    withBareList.delete.run.Runs
      [⟨.delete "pods" none ({} : Settings).deleteOptions (pod "a"), .ok true⟩]
      (.error (.invalidResource "PodList l has no items")) := by
  refine ⟨of_withBareList, unopened_bareList, ?_⟩
  have prepared : prepareItem podRegistry ({} : Settings).pipeline (pod "a") =
      .ok (.remote (.collaborator "pods" true), pod "a") :=
    prepareItem_eq_ok_iff.2 ⟨resolveFor_pod "a", rfl⟩
  have failing : prepareItem podRegistry ({} : Settings).pipeline bareList =
      .error (.invalidResource "PodList l has no items") :=
    (prepareItem_eq_error_iff resolveFor_bareList).2 (edit_bareList _ _)
  have resolved : withBareList.items.mapM podRegistry.resolveFor =
      .ok [.remote (.collaborator "pods" true), .members podRegistry] :=
    mapM_eq_ok_cons_iff.2 ⟨_, _, resolveFor_pod "a",
      mapM_eq_ok_cons_iff.2 ⟨_, _, resolveFor_bareList, rfl, rfl⟩, rfl⟩
  have hbatch : [pod "a"].mapM (prepareItem podRegistry ({} : Settings).pipeline) =
      .ok [(.remote (.collaborator "pods" true), pod "a")] :=
    mapM_eq_ok_cons_iff.2 ⟨_, _, prepared, rfl, rfl⟩
  have deleted : (deletePrepared ({} : Settings).deleteOptions
      (.remote (.collaborator "pods" true), pod "a")).run.Runs
        [⟨.delete "pods" none ({} : Settings).deleteOptions (pod "a"), .ok true⟩] (.ok true) :=
    Handler.runs_delete_iff.2 rfl
  have hitems : withBareList.items = [pod "a"] ++ [bareList] := rfl
  have same := delete_eq ⟨_, resolved⟩ hitems hbatch failing
  rw [same, Action.runs_bind_throw_iff]
  exact ⟨.ok true, Action.runs_allM_true_iff.2
    ⟨[true], .singleton deleted, List.forall_mem_singleton.2 rfl⟩,
    fun _ => rfl, fun hne => absurd rfl hne⟩

end Rollout.BatchOperation
