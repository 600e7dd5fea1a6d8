/-
  Batches are applied in order, up to the first failure.

  The calls of a batch are those of its items, one item after the other, and the items behind one
  that fails are never called for. The failure of a batch carries what was applied before it, and
  the failure of the item as it was. An operation on a batch adds to this only that nothing is
  called for at all when a handler is missing or a pipeline fails; that failure is not wrapped.
-/
import Rollout.Operation.Batch
import Rollout.Proofs.Program.Sequence
import Rollout.Proofs.Traversal

namespace Rollout.Apply

/-! ## Items -/

/-- Applies one item of a batch. -/
def createOrReplaceItem (o : ApplyOptions) (p : Prepared) : Action Resource :=
  createOrReplace p.1 o p.2

/-- Makes one resource ready to go out. -/
def prepareItem (reg : Registry) (p : Pipeline) (r : Resource) : Except Failure Prepared :=
  (reg.resolveFor r).bind fun h => (h.edit p r).map (Prod.mk h)

theorem mapM_edit_eq {reg : Registry} (p : Pipeline) {rs : List Resource}
    {handlers : List Handler} (h : rs.mapM reg.resolveFor = .ok handlers) :
    ((handlers.zip rs).mapM fun (h, r) => return (h, ← h.edit p r)) =
      rs.mapM (prepareItem reg p) := by
  induction rs generalizing handlers with
  | nil =>
    obtain rfl := Except.ok.inj h
    rfl
  | cons r rs ih =>
    obtain ⟨h', handlers, hr, hrs, rfl⟩ := mapM_eq_ok_cons_iff.1 h
    rw [List.zip_cons_cons, List.mapM_cons, List.mapM_cons, ih hrs, prepareItem, hr]
    rfl

/-- All handlers are resolved before the first pipeline runs. -/
theorem prepare_eq (reg : Registry) (p : Pipeline) (rs : List Resource) :
    prepare reg p rs =
      (rs.mapM reg.resolveFor).bind fun _ => rs.mapM (prepareItem reg p) := by
  unfold prepare
  cases h : rs.mapM reg.resolveFor with
  | error f => rfl
  | ok handlers => exact mapM_edit_eq p h

theorem prepareItem_eq_ok_iff {reg : Registry} {p : Pipeline} {r : Resource} {out : Prepared} :
    prepareItem reg p r = .ok out ↔ reg.resolveFor r = .ok out.1 ∧ out.1.edit p r = .ok out.2 := by
  constructor
  · intro h
    unfold prepareItem at h
    cases hr : reg.resolveFor r with
    | error f =>
      rw [hr] at h
      cases h
    | ok handler =>
      rw [hr] at h
      cases hedit : handler.edit p r with
      | error f =>
        rw [Except.bind, hedit] at h
        cases h
      | ok edited =>
        rw [Except.bind, hedit] at h
        obtain rfl := Except.ok.inj h
        exact ⟨rfl, hedit⟩
  · rintro ⟨hr, hedit⟩
    rw [prepareItem, hr, Except.bind, hedit]
    rfl

theorem prepareItem_eq_error_iff {reg : Registry} {p : Pipeline} {r : Resource} {h : Handler}
    {f : Failure} (hr : reg.resolveFor r = .ok h) :
    prepareItem reg p r = .error f ↔ h.edit p r = .error f := by
  rw [prepareItem, hr, Except.bind]
  cases h.edit p r with
  | error f' =>
    show Except.error f' = _ ↔ _
    rw [Except.error.injEq, Except.error.injEq]
  | ok edited => exact ⟨nofun, nofun⟩

theorem prepare_eq_ok_iff {reg : Registry} {p : Pipeline} {rs : List Resource}
    {batch : List Prepared} :
    prepare reg p rs = .ok batch ↔ rs.mapM (prepareItem reg p) = .ok batch := by
  rw [prepare_eq]
  cases h : rs.mapM reg.resolveFor with
  | ok handlers => rfl
  | error f =>
    -- A resource without a handler is not made ready to go out either.
    refine ⟨fun h' => (by cases h'), fun hbatch => ?_⟩
    obtain ⟨before, r, after, rfl, -, hr⟩ := mapM_eq_error_iff.1 h
    obtain ⟨out, -, hout⟩ := getElem?_of_mapM_eq_ok hbatch (i := before.length) (by simp)
    rw [List.getElem_append_right (Nat.le_refl _)] at hout
    simp [prepareItem, hr, Except.bind] at hout

/-- The failure of a batch that cannot go out is that of the first resource without a handler, or
else that of the first pipeline that fails. -/
theorem prepare_eq_error_iff {reg : Registry} {p : Pipeline} {rs : List Resource} {f : Failure} :
    prepare reg p rs = .error f ↔ FailsFirst reg.resolveFor rs f ∨
      ((∀ r ∈ rs, ∃ h, reg.resolveFor r = .ok h) ∧ FailsFirst (prepareItem reg p) rs f) := by
  rw [prepare_eq, ← mapM_eq_error_iff, ← mapM_eq_error_iff]
  cases h : rs.mapM reg.resolveFor with
  | ok handlers =>
    have resolves : ∀ r ∈ rs, ∃ h, reg.resolveFor r = .ok h := fun r hr => exists_of_mapM_eq_ok h hr
    refine ⟨fun hf => .inr ⟨resolves, hf⟩, ?_⟩
    rintro (hf | ⟨-, hf⟩)
    · cases hf
    · exact hf
  | error f' =>
    refine ⟨fun hf => .inl (congrArg _ (Except.error.inj hf)), ?_⟩
    rintro (hf | ⟨resolves, -⟩)
    · exact congrArg _ (Except.error.inj hf)
    · obtain ⟨handlers, hhandlers⟩ := exists_mapM_eq_ok resolves
      cases h.symm.trans hhandlers

/-! ## Batches -/

theorem runs_go_iff {o : ApplyOptions} {applied : List Resource} {batch : List Prepared}
    {events : List Event} {result : Except Failure (List Resource)} :
    (createOrReplaceAll.go o applied batch).run.Runs events result ↔
      (∃ states, Action.RunsEach (createOrReplaceItem o) batch events states ∧
        result = .ok (applied ++ states)) ∨
      ∃ states f, Action.RunsUpTo (createOrReplaceItem o) batch events states f ∧
        result = .error (.batchAborted (applied ++ states) f) := by
  -- What has been applied grows with each item, so the induction is for any of it.
  induction batch generalizing applied events with
  | nil =>
    rw [createOrReplaceAll.go, Action.runs_pure_iff]
    constructor
    · rintro ⟨rfl, rfl⟩
      exact .inl ⟨[], .nil, by rw [List.append_nil]⟩
    · rintro (⟨states, h, rfl⟩ | ⟨states, f, h, -⟩)
      · obtain ⟨rfl, rfl⟩ := Action.runsEach_nil_iff.1 h
        exact ⟨rfl, by rw [List.append_nil]⟩
      · exact absurd h Action.not_runsUpTo_nil
  | cons p batch ih =>
    obtain ⟨h, r⟩ := p
    rw [createOrReplaceAll.go, Action.run_attempt_bind, Program.runs_bind_iff]
    simp only [Action.runsEach_cons_iff, Action.runsUpTo_cons_iff]
    constructor
    · rintro ⟨first, rest, answer, rfl, hfirst, hrest⟩
      cases answer with
      | ok state =>
        rcases ih.1 hrest with ⟨states, hstates, rfl⟩ | ⟨states, f, hstates, rfl⟩
        · exact .inl ⟨_, ⟨first, rest, state, states, rfl, rfl, hfirst, hstates⟩,
            by rw [List.append_assoc, List.singleton_append]⟩
        · exact .inr ⟨_, f, .inr ⟨first, rest, state, states, rfl, rfl, hfirst, hstates⟩,
            by rw [List.append_assoc, List.singleton_append]⟩
      | error f =>
        obtain ⟨rfl, rfl⟩ := Program.runs_done_iff.1 hrest
        rw [List.append_nil]
        exact .inr ⟨[], f, .inl ⟨rfl, hfirst⟩, by rw [List.append_nil]⟩
    · rintro (⟨_, ⟨first, rest, state, states, rfl, rfl, hfirst, hstates⟩, rfl⟩ |
        ⟨_, f, ⟨rfl, hfirst⟩ | ⟨first, rest, state, states, rfl, rfl, hfirst, hstates⟩, rfl⟩)
      · refine ⟨first, rest, .ok state, rfl, hfirst, ih.2 (.inl ⟨states, hstates, ?_⟩)⟩
        rw [List.append_assoc, List.singleton_append]
      · refine ⟨events, [], .error f, (List.append_nil _).symm, hfirst, ?_⟩
        rw [List.append_nil]
        exact .done _
      · refine ⟨first, rest, .ok state, rfl, hfirst, ih.2 (.inr ⟨states, f, hstates, ?_⟩)⟩
        rw [List.append_assoc, List.singleton_append]

theorem runs_createOrReplace_targets_iff {op : BatchOperation} {events : List Event}
    {result : Except Failure (List Resource)} :
    op.createOrReplace.run.Runs events result ↔
      (∃ f, op.targets = .error f ∧ events = [] ∧ result = .error f) ∨
      ∃ batch, op.targets = .ok batch ∧
        (createOrReplaceAll (.of op.settings) batch).run.Runs events result := by
  rw [BatchOperation.createOrReplace, Action.run_bind, Program.runs_bind_iff]
  constructor
  · rintro ⟨first, rest, targets, rfl, hfirst, hrest⟩
    obtain ⟨rfl, rfl⟩ := Action.runs_ofExcept_iff.1 hfirst
    rw [List.nil_append]
    cases htargets : op.targets with
    | ok batch =>
      rw [htargets] at hrest
      exact .inr ⟨batch, rfl, hrest⟩
    | error f =>
      rw [htargets] at hrest
      exact .inl ⟨f, rfl, Program.runs_done_iff.1 hrest⟩
  · rintro (⟨f, htargets, rfl, rfl⟩ | ⟨batch, htargets, hbatch⟩)
    · exact ⟨[], [], .error f, rfl, Action.runs_ofExcept_iff.2 ⟨rfl, htargets.symm⟩, .done _⟩
    · exact ⟨[], events, .ok batch, rfl, Action.runs_ofExcept_iff.2 ⟨rfl, htargets.symm⟩, hbatch⟩

/-- The runs of a batch: all items succeed, with the calls of each in turn and one state for each;
or the items succeed up to one that fails, and the batch fails with their states and that failure,
which is a conflict if that one is. An operation runs this batch, unless a resource has no handler
or a pipeline fails: then it fails as the first such resource does, and calls for nothing. -/
theorem createOrReplaceAll_abort :
    (∀ (o : ApplyOptions) batch events result,
      (createOrReplaceAll o batch).run.Runs events result ↔
        (∃ states, Action.RunsEach (createOrReplaceItem o) batch events states ∧
          result = .ok states) ∨
        ∃ states f, Action.RunsUpTo (createOrReplaceItem o) batch events states f ∧
          result = .error (.batchAborted states f) ∧
          (Failure.batchAborted states f).isConflict = f.isConflict) ∧
    ∀ op : BatchOperation,
      (∀ events result, op.createOrReplace.run.Runs events result ↔
        (∃ f, op.targets = .error f ∧ events = [] ∧ result = .error f) ∨
        ∃ batch, op.targets = .ok batch ∧
          (createOrReplaceAll (.of op.settings) batch).run.Runs events result) ∧
      (∀ batch, op.targets = .ok batch ↔
        op.items.mapM (prepareItem op.registry op.settings.pipeline) = .ok batch) ∧
      ∀ f, op.targets = .error f ↔ FailsFirst op.registry.resolveFor op.items f ∨
        ((∀ r ∈ op.items, ∃ h, op.registry.resolveFor r = .ok h) ∧
          FailsFirst (prepareItem op.registry op.settings.pipeline) op.items f) := by
  refine ⟨fun o batch events result => ?_, fun op => ⟨fun events result => ?_, fun batch => ?_,
    fun f => ?_⟩⟩
  · rw [createOrReplaceAll, runs_go_iff]
    simp only [List.nil_append]
    exact or_congr_right <| exists₂_congr fun states f => and_congr_right fun _ =>
      (and_iff_left rfl).symm
  · exact runs_createOrReplace_targets_iff
  · exact prepare_eq_ok_iff
  · exact prepare_eq_error_iff

end Rollout.Apply
