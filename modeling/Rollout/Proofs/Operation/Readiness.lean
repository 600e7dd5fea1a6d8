/-
  What it takes for an operation to be ready.

  An operation on a batch reads each of its items as an operation on the item alone does
  (`BatchOperation.isReady_eq`), and leaves out those that are not there. So it is ready if each
  item is either ready by itself or missing, though an item that is missing is not ready by itself
  (`BatchOperation.isReady_iff_each`). An operation on a container looks at the container, which is
  of no kind that has a notion of readiness: it is ready whatever its members are, while the
  operation on the batch of its members is ready if all of them are
  (`Operation.isReady_container`).
-/
import Rollout.Proofs.Operation.Registered
import Rollout.Proofs.Readiness

namespace Rollout

/-! ## What is there -/

/-- What every call is answered as long as nothing changes. -/
abbrev Content := (c : Call) → c.Answer

/-- What the program comes to as long as nothing changes. -/
def Program.resultBy {α : Type} (content : Content) : Program α → α
  | .done a => a
  | .call c next => (next (content c)).resultBy content

/-- What the action comes to as long as nothing changes. -/
def Action.resultBy {α : Type} (content : Content) (a : Action α) : Except Failure α :=
  Program.resultBy content a.run

section ResultBy

variable {α β : Type} {content : Content}

theorem Program.resultBy_bind (p : Program α) (f : α → Program β) :
    (p.bind f).resultBy content = (f (p.resultBy content)).resultBy content := by
  induction p with
  | done a => rfl
  | call c next ih => exact ih (content c)

theorem Action.resultBy_bind (a : Action α) (f : α → Action β) :
    (a >>= f).resultBy content = (a.resultBy content).bind fun x => (f x).resultBy content := by
  rw [Action.resultBy, Action.run_bind, Program.resultBy_bind, Action.resultBy]
  cases Program.resultBy content a.run <;> rfl

theorem Action.resultBy_mapM (f : α → Action β) (xs : List α) :
    (xs.mapM f).resultBy content = xs.mapM fun x => (f x).resultBy content := by
  induction xs with
  | nil => rfl
  | cons x xs ih =>
    rw [List.mapM_cons, List.mapM_cons, Action.resultBy_bind]
    refine congrArg (Except.bind _) (funext fun y => ?_)
    rw [Action.resultBy_bind, ih]
    rfl

end ResultBy

/-! ## A batch is read item by item -/

namespace Operation

/-- What an operation on the resource alone reads. -/
def reading (reg : Registry) (s : Settings) (r : Resource) : Action (Option Resource) :=
  Action.ofExcept (Operation.of reg s r) >>= get

variable {reg : Registry} {s : Settings} {r : Resource}

theorem reading_of {op : Operation} (hop : Operation.of reg s r = .ok op) :
    reading reg s r = op.get := by
  rw [reading, hop, Action.ofExcept_bind]

theorem eq_of_of {op : Operation} (hop : Operation.of reg s r = .ok op) :
    op.settings = s ∧ op.item = r ∧ reg.resolveFor r = .ok op.handler := by
  unfold Operation.of at hop
  cases hr : reg.resolveFor r with
  | error f =>
    rw [hr] at hop
    cases hop
  | ok handler =>
    rw [hr] at hop
    obtain rfl := Except.ok.inj hop
    exact ⟨rfl, rfl, rfl⟩

/-- What is of no list kind is edited as it is. -/
theorem exists_remote_of_plain (hr : ∃ h, reg.resolveFor r = .ok h)
    (plain : isListKind r.kind = false) : ∃ x, Operation.of reg s r = .ok ⟨reg, s, r, .remote x⟩ ∧
      Apply.prepareItem reg s.pipeline r = .ok (.remote x, s.pipeline.visit r) := by
  obtain ⟨h, hr⟩ := hr
  obtain ⟨x, rfl⟩ := Registry.exists_remote_of_resolveFor hr plain
  refine ⟨x, of_eq_ok hr, ?_⟩
  rw [Apply.prepareItem, hr]
  show (Handler.edit _ _ _).map _ = _
  rw [Handler.edit_remote]
  rfl

/-- An operation that is made ready to go out reads what goes out, or the state that is there. -/
theorem reading_of_prepared {p : Prepared} (h : Apply.prepareItem reg s.pipeline r = .ok p) :
    reading reg s r =
      if s.fromServer then Apply.reload p.1 s.pipeline p.2 else pure (some p.2) := by
  obtain ⟨hresolve, hedit⟩ := Apply.prepareItem_eq_ok_iff.1 h
  rw [reading_of (of_eq_ok hresolve), get]
  show (Action.ofExcept (p.1.edit s.pipeline r) >>= _) = _
  rw [hedit, Action.ofExcept_bind]

/-- Without the server, an operation on what is of no list kind reads what goes out. -/
theorem reading_own (hr : ∃ h, reg.resolveFor r = .ok h) (plain : isListKind r.kind = false)
    (own : s.fromServer = false) : reading reg s r = pure (some (s.pipeline.visit r)) := by
  obtain ⟨x, -, hprepare⟩ := exists_remote_of_plain hr plain
  rw [reading_of_prepared hprepare, own]
  rfl

/-- An operation is ready by itself if it reads something, and this is ready. -/
theorem resultBy_isReady {content : Content} {op : Operation} {found : Option Resource}
    (hget : op.get.resultBy content = .ok found) :
    op.isReady.resultBy content = .ok (found.any Resource.isReady) := by
  rw [isReady, Action.resultBy_bind, hget]
  rfl

theorem all_isReady_iff {content : Content} {op : Operation} {found : Option Resource}
    (hget : op.get.resultBy content = .ok found) : found.all Resource.isReady = true ↔
      op.isReady.resultBy content = .ok true ∨ op.get.resultBy content = .ok none := by
  rw [resultBy_isReady hget, hget]
  cases found with
  | none => exact iff_of_true rfl (.inr rfl)
  | some r => exact ⟨fun h => .inl (congrArg _ h), fun h => Except.ok.inj (h.resolve_right nofun)⟩

end Operation

namespace BatchOperation

open Operation (reading)

variable {reg : Registry} {s : Settings} {rs : List Resource}

/-- Resources of no list kinds are made ready to go out one by one. -/
theorem exists_targets_of_plain (plain : ∀ r ∈ rs, isListKind r.kind = false)
    (resolves : ∀ r ∈ rs, ∃ h, reg.resolveFor r = .ok h) :
    ∃ batch, (⟨reg, s, rs⟩ : BatchOperation).targets = .ok batch := by
  have prepares : ∀ r ∈ rs, ∃ p, Apply.prepareItem reg s.pipeline r = .ok p := fun r hr => by
    obtain ⟨x, -, hprepare⟩ := Operation.exists_remote_of_plain (resolves r hr) (plain r hr)
    exact ⟨_, hprepare⟩
  obtain ⟨batch, hbatch⟩ := exists_mapM_eq_ok prepares
  exact ⟨batch, Apply.prepare_eq_ok_iff.2 hbatch⟩

theorem of_plain (plain : ∀ r ∈ rs, isListKind r.kind = false) :
    BatchOperation.of reg s rs = .ok ⟨reg, s, rs⟩ := by
  rw [BatchOperation.of,
    Resource.flatten_of_leaves fun r hr => Resource.leaves_of_not_list (plain r hr)]
  rfl

/-- A batch that can go out reads what its items read, each by itself, and leaves out what is not
there. -/
theorem get_eq {batch : List Prepared}
    (htargets : (⟨reg, s, rs⟩ : BatchOperation).targets = .ok batch) :
    (⟨reg, s, rs⟩ : BatchOperation).get = do
      return (← rs.mapM (reading reg s)).filterMap id := by
  have each : rs.mapM (reading reg s) = batch.mapM fun p =>
      if s.fromServer then Apply.reload p.1 s.pipeline p.2 else pure (some p.2) := by
    have prepared := Apply.prepare_eq_ok_iff.1 htargets
    clear htargets
    induction rs generalizing batch with
    | nil =>
      obtain rfl := Except.ok.inj prepared
      rfl
    | cons r rs ih =>
      obtain ⟨p, batch, hp, hbatch, rfl⟩ := mapM_eq_ok_cons_iff.1 prepared
      rw [List.mapM_cons, List.mapM_cons, Operation.reading_of_prepared hp, ih hbatch]
  rw [get, htargets, Action.ofExcept_bind, each]
  dsimp only
  split
  · rfl
  · rw [List.mapM_pure, pure_bind, List.filterMap_map]
    show pure _ = pure (batch.filterMap fun p => some p.2)
    rw [List.filterMap_eq_map']

theorem isReady_eq {batch : List Prepared}
    (htargets : (⟨reg, s, rs⟩ : BatchOperation).targets = .ok batch) :
    (⟨reg, s, rs⟩ : BatchOperation).isReady = do
      return (← rs.mapM (reading reg s)).all fun found => found.all Resource.isReady := by
  rw [isReady, get_eq htargets, bind_assoc]
  refine bind_congr fun found => ?_
  rw [pure_bind, List.all_filterMap]
  rfl

/-- Without the server, a batch is ready if all that goes out is. -/
theorem run_isReady_own (plain : ∀ r ∈ rs, isListKind r.kind = false)
    (resolves : ∀ r ∈ rs, ∃ h, reg.resolveFor r = .ok h) (own : s.fromServer = false) :
    (⟨reg, s, rs⟩ : BatchOperation).isReady.run =
      .done (.ok (rs.all fun r => (s.pipeline.visit r).isReady)) := by
  have each : rs.mapM (reading reg s) = pure (rs.map fun r => some (s.pipeline.visit r)) := by
    rw [← List.mapM_pure]
    exact mapM_congr fun r hr => Operation.reading_own (resolves r hr) (plain r hr) own
  obtain ⟨batch, htargets⟩ := exists_targets_of_plain plain resolves
  rw [isReady_eq htargets, each, pure_bind, List.all_map]
  rfl

/-- A batch is ready if none of its items is there without being ready. So it is ready if each item
is ready by itself or missing; but an item that is missing, which takes the server, is not ready by
itself. -/
theorem isReady_iff_each (content : Content) (plain : ∀ r ∈ rs, isListKind r.kind = false)
    (answered : ∀ r ∈ rs, ∃ op found, Operation.of reg s r = .ok op ∧
      op.get.resultBy content = .ok found) :
    ∃ batch ready, BatchOperation.of reg s rs = .ok batch ∧
      batch.isReady.resultBy content = .ok ready ∧
      (ready = true ↔ ∀ r ∈ rs, ∃ op, Operation.of reg s r = .ok op ∧
        (op.isReady.resultBy content = .ok true ∨ op.get.resultBy content = .ok none)) ∧
      ∀ r ∈ rs, ∀ op, Operation.of reg s r = .ok op → op.get.resultBy content = .ok none →
        s.fromServer = true ∧ op.isReady.resultBy content = .ok false := by
  have resolves : ∀ r ∈ rs, ∃ h, reg.resolveFor r = .ok h := fun r hr => by
    obtain ⟨op, -, hop, -⟩ := answered r hr
    exact ⟨_, (Operation.eq_of_of hop).2.2⟩
  have reads {r : Resource} {op : Operation} (hop : Operation.of reg s r = .ok op) :
      (reading reg s r).resultBy content = op.get.resultBy content :=
    congrArg _ (Operation.reading_of hop)
  have found : ∀ r ∈ rs, ∃ found, (reading reg s r).resultBy content = .ok found := fun r hr => by
    obtain ⟨op, found, hop, hget⟩ := answered r hr
    exact ⟨found, (reads hop).trans hget⟩
  obtain ⟨batch, htargets⟩ := exists_targets_of_plain plain resolves
  obtain ⟨found, hfound⟩ := exists_mapM_eq_ok found
  refine ⟨_, found.all fun x => x.all Resource.isReady, of_plain plain, ?_, ?_,
    fun r hr op hop hmissing => ⟨?_, Operation.resultBy_isReady hmissing⟩⟩
  · rw [isReady_eq htargets, Action.resultBy_bind, Action.resultBy_mapM, hfound]
    rfl
  · rw [all_iff_of_mapM_eq_ok hfound]
    refine forall₂_congr fun r hr => ?_
    constructor
    · rintro ⟨x, hx, hready⟩
      obtain ⟨op, -, hop, -⟩ := answered r hr
      exact ⟨op, hop, (Operation.all_isReady_iff ((reads hop).symm.trans hx)).1 hready⟩
    · rintro ⟨op, hop, hready⟩
      obtain ⟨_, x, hop', hx⟩ := answered r hr
      obtain rfl := Except.ok.inj (hop.symm.trans hop')
      exact ⟨x, (reads hop).trans hx, (Operation.all_isReady_iff hx).2 hready⟩
  · -- Without the server, the item itself is what is read.
    refine Bool.of_not_eq_false fun own => ?_
    have hread := Operation.reading_own (resolves r hr) (plain r hr) own
    cases (congrArg (Action.resultBy content) hread).symm.trans ((reads hop).trans hmissing)

/-! ### Pods -/

open BatchTerms (pod podRegistry resolveFor_pod)

/-- Pods are read from the server. -/
def asking : Settings := { fromServer := true }

/-- A pod that is ready. -/
def readyPod : Resource := { pod "there" with data := .obj [("status", .obj
  [("conditions", .arr [.obj [("status", .str "True"), ("type", .str "Ready")]])])] }

/-- One pod is there, and it is ready. -/
def podContent : Content
  | .reload _ _ r => .ok (if r.name = "there" then some readyPod else none)
  | .create .. | .replace .. | .delete .. | .watch .. | .awaitReady .. => .error .serialization
  | .request _ => ⟨404, ""⟩

/-- The operation on one pod as the server has it. -/
def askingFor (name : String) : Operation :=
  ⟨podRegistry, asking, pod name, .remote (.collaborator "pods" true)⟩

theorem of_pod (name : String) :
    Operation.of podRegistry asking (pod name) = .ok (askingFor name) :=
  Operation.of_eq_ok (resolveFor_pod name)

theorem resultBy_get_pod (name : String) : (askingFor name).get.resultBy podContent =
    .ok (if name = "there" then some readyPod else none) := by
  have read : (askingFor name).get = Option.map asking.pipeline.visit <$> Remote.reload
      (.collaborator "pods" true) (askingFor name).edited.ns (askingFor name).edited :=
    (Operation.get_of_remote rfl).trans (if_pos rfl)
  have same : asking.pipeline.visit = id := funext Operation.visit_of_no_settings
  rw [read, map_eq_pure_bind, Action.resultBy_bind, Operation.edited]
  simp only [askingFor, same, Option.map_id]
  rfl

theorem isReady_readyPod : readyPod.isReady = true := by decide +kernel

theorem plain_pods (names : List String) : ∀ r ∈ names.map pod, isListKind r.kind = false :=
  (Operation.groups_podList names).plain

/-- Of two pods one is there and ready, and so is the batch of both. -/
theorem isReady_iff_each_pod :
    (∀ r ∈ ["there", "absent"].map pod, ∃ op found, Operation.of podRegistry asking r = .ok op ∧
      op.get.resultBy podContent = .ok found) ∧
    ∃ batch, BatchOperation.of podRegistry asking (["there", "absent"].map pod) = .ok batch ∧
      batch.isReady.resultBy podContent = .ok true := by
  have answered : ∀ r ∈ ["there", "absent"].map pod, ∃ op found,
      Operation.of podRegistry asking r = .ok op ∧ op.get.resultBy podContent = .ok found := by
    intro r hr
    obtain ⟨name, -, rfl⟩ := List.mem_map.1 hr
    exact ⟨_, _, of_pod name, resultBy_get_pod name⟩
  obtain ⟨batch, ready, hbatch, hready, iff, -⟩ :=
    isReady_iff_each podContent (plain_pods ["there", "absent"]) answered
  refine ⟨answered, batch, hbatch, hready.trans (congrArg _ (iff.2 ?_))⟩
  refine List.forall_mem_cons.2 ⟨⟨_, of_pod "there", .inl ?_⟩,
    List.forall_mem_singleton.2 ⟨_, of_pod "absent", .inr (resultBy_get_pod "absent")⟩⟩
  rw [Operation.resultBy_isReady (resultBy_get_pod "there"), if_pos rfl]
  exact congrArg _ isReady_readyPod

/-- A pod that is missing is not ready, and yet the batch of this pod is. -/
theorem isReady_of_absent : ∃ op batch, Operation.of podRegistry asking (pod "absent") = .ok op ∧
    BatchOperation.of podRegistry asking [pod "absent"] = .ok batch ∧
    op.get.resultBy podContent = .ok none ∧
    op.isReady.resultBy podContent = .ok false ∧
    batch.isReady.resultBy podContent = .ok true := by
  have hget := resultBy_get_pod "absent"
  have plain := plain_pods ["absent"]
  obtain ⟨batch, htargets⟩ : ∃ batch,
      (⟨podRegistry, asking, [pod "absent"]⟩ : BatchOperation).targets = .ok batch :=
    exists_targets_of_plain plain (BatchTerms.resolves_pods ["absent"])
  refine ⟨_, _, of_pod "absent", of_plain plain, hget, Operation.resultBy_isReady hget, ?_⟩
  rw [isReady_eq htargets, Action.resultBy_bind, Action.resultBy_mapM]
  show (Except.bind ([pod "absent"].mapM _) _) = _
  rw [List.mapM_cons, Operation.reading_of (of_pod "absent"), hget]
  rfl

end BatchOperation

/-! ## Containers -/

namespace Operation

variable {reg : Registry} {s : Settings} {c : Resource} {ms : List Resource}

/-- Without the server, an operation is ready if what goes out is. -/
theorem run_isReady_own {op : Operation} (own : op.settings.fromServer = false) :
    op.isReady.run = .done (op.target.map Resource.isReady) := by
  rw [isReady, get, own]
  cases op.target <;> rfl

/-- What goes out is of a list kind, and so it is ready. -/
theorem run_isReady_of_isListKind {op : Operation} {target : Resource}
    (own : op.settings.fromServer = false) (htarget : op.target = .ok target)
    (list : isListKind target.kind = true) : op.isReady.run = .done (.ok true) := by
  rw [run_isReady_own own, htarget, Except.map, Resource.isReady_of_isListKind list]

/-- Without the server, an operation on a container, whoever handles it, is ready if the container
is, as it goes out; and as long as it is of a list kind, it is. The operation on its members is
ready if all of them are, as they go out. So the two agree if and only if this is so. -/
theorem isReady_container {op : Operation} (hop : Operation.of reg s c = .ok op)
    (hms : c.members = .ok ms) (plain : ∀ m ∈ ms, isListKind m.kind = false)
    (resolves : ∀ m ∈ ms, ∃ h, reg.resolveFor m = .ok h) (own : s.fromServer = false) :
    ∃ batch, BatchOperation.of reg s [c] = .ok batch ∧
      batch.isReady.run = .done (.ok (ms.all fun m => (s.pipeline.visit m).isReady)) ∧
      op.isReady.run = .done (op.target.map Resource.isReady) ∧
      ∀ target, op.target = .ok target →
        ((∀ key, ResourceKey.of? c = some key → reg.find? key = none) →
          isListKind target.kind = true) ∧
        (isListKind target.kind = true → op.isReady.run = .done (.ok true) ∧
          (op.isReady.run = batch.isReady.run ↔
            ∀ m ∈ ms, (s.pipeline.visit m).isReady = true)) := by
  have own' : op.settings.fromServer = false :=
    (congrArg Settings.fromServer (eq_of_of hop).1).trans own
  have hbatch := BatchOperation.run_isReady_own plain resolves own
  refine ⟨⟨reg, s, ms⟩, ?_, hbatch, run_isReady_own own', fun target htarget =>
    ⟨fun unregistered => ?_, fun list => ?_⟩⟩
  · rw [BatchOperation.of, Resource.flatten_container hms plain]
    rfl
  · obtain ⟨rfl, container⟩ := eq_of_unregistered hop unregistered
    exact (congrArg isListKind (eq_of_target htarget).1).trans container
  · have ready := run_isReady_of_isListKind own' htarget list
    refine ⟨ready, ?_⟩
    rw [ready, hbatch, Program.done.injEq, Except.ok.injEq, eq_comm, List.all_eq_true]

/-! ### A list of a pod -/

open BatchTerms (pod podRegistry)

theorem isReady_pod : (pod "a").isReady = false := by decide +kernel

theorem exists_target_podList : ∃ target,
    (⟨podRegistry, {}, podList ["a"], .members podRegistry⟩ : Operation).target = .ok target := by
  have hmarks : ∀ v ∈ ({} : Settings).visitors, v.IsMark := List.forall_mem_nil _
  obtain ⟨target, htarget, -⟩ := (groups_podList ["a"]).exists_target hmarks
  exact ⟨target, htarget⟩

/-- The operation on a list of a pod that is not ready, and the one on the batch of this pod. -/
theorem isReady_container_podList : (podList ["a"]).members = .ok [pod "a"] ∧
    ∃ op batch, Operation.of podRegistry {} (podList ["a"]) = .ok op ∧
      BatchOperation.of podRegistry {} [podList ["a"]] = .ok batch ∧
      op.isReady.run = .done (.ok true) ∧ op.isReady.run ≠ batch.isReady.run := by
  have groups := groups_podList ["a"]
  have hop : Operation.of podRegistry {} (podList ["a"]) = _ := of_eq_ok (resolveFor_podList ["a"])
  obtain ⟨target, htarget⟩ := exists_target_podList
  obtain ⟨batch, hbatch, -, -, agree⟩ :=
    isReady_container hop groups.members groups.plain groups.resolves rfl
  obtain ⟨list, ready⟩ := agree target htarget
  obtain ⟨ready, iff⟩ := ready (list groups.unregistered)
  refine ⟨groups.members, _, batch, hop, hbatch, ready, fun same => ?_⟩
  have hpod := iff.1 same (pod "a") List.mem_cons_self
  rw [visit_of_no_settings, isReady_pod] at hpod
  cases hpod

/-- A pod is not ready, and neither is the batch of the pod in a list, and yet the list is. -/
theorem isReady_of_unready_member : ∃ op batch,
    Operation.of podRegistry {} (podList ["a"]) = .ok op ∧
    BatchOperation.of podRegistry {} [podList ["a"]] = .ok batch ∧
    (({} : Settings).pipeline.visit (pod "a")).isReady = false ∧
    batch.isReady.run = .done (.ok false) ∧ op.isReady.run = .done (.ok true) := by
  have groups := groups_podList ["a"]
  have unready : (({} : Settings).pipeline.visit (pod "a")).isReady = false :=
    (congrArg Resource.isReady (visit_of_no_settings _)).trans isReady_pod
  obtain ⟨target, htarget⟩ := exists_target_podList
  have list : isListKind target.kind = true :=
    (congrArg isListKind (eq_of_target htarget).1).trans isListKind_podList
  refine ⟨_, _, of_eq_ok (resolveFor_podList ["a"]), groups.of_batch, unready, ?_,
    run_isReady_of_isListKind rfl htarget list⟩
  rw [BatchOperation.run_isReady_own groups.plain groups.resolves rfl]
  show Program.done (Except.ok ((({} : Settings).pipeline.visit (pod "a")).isReady && true)) = _
  rw [unready]
  rfl

end Operation

end Rollout
