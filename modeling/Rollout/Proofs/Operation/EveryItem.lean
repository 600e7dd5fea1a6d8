/-
  Which items an operation on a batch waits for.

  A wait begins with what the operation finds of its items (`BatchOperation.Found`): the items after
  the pipeline, or, if the server is asked, the states that are there. Items that are not there are
  left out before the wait begins. So a wait for a condition that succeeds comes to one state for
  each item that was found, in order, attained by that item since; and to one state for each item
  if and only if none was missing (`wait_everyItem`). It does not fail for an item that is missing.
-/
import Mathlib.Data.List.Forall2
import Rollout.Operation.Batch
import Rollout.Proofs.Apply.Abort
import Rollout.Proofs.Wait.Condition

namespace Rollout

variable {σ : Type}

namespace BatchOperation

/-! ## What is found of the items -/

/-- Of the item, `x` is found: the resource after the pipeline, or, if the server is asked, what a
reload in these events answers. -/
def Found (op : BatchOperation) (events : List Event) (item : Resource) (x : Option Resource) :
    Prop :=
  ∃ handler target, op.registry.resolveFor item = .ok handler ∧
    handler.edit op.settings.pipeline item = .ok target ∧
    if op.settings.fromServer then
      ∃ part, part.Sublist events ∧
        (Apply.reload handler op.settings.pipeline target).run.Runs part (.ok x)
    else x = some target

theorem found_target {op : BatchOperation} {batch : List Prepared} (h : op.targets = .ok batch)
    {i : Nat} {item : Resource} (hitem : op.items[i]? = some item) :
    ∃ p, batch[i]? = some p ∧ op.registry.resolveFor item = .ok p.1 ∧
      p.1.edit op.settings.pipeline item = .ok p.2 := by
  obtain ⟨hi, rfl⟩ := List.getElem?_eq_some_iff.1 hitem
  obtain ⟨p, hp, hprepare⟩ := getElem?_of_mapM_eq_ok (Apply.prepare_eq_ok_iff.1 h) hi
  exact ⟨p, hp, Apply.prepareItem_eq_ok_iff.1 hprepare⟩

/-- A reading of a batch answers what is found of the items, in order. -/
theorem found_of_runs_get {op : BatchOperation} {events : List Event} {items : List Resource}
    (h : op.get.run.Runs events (.ok items)) :
    ∃ found, List.Forall₂ (op.Found events) op.items found ∧ items = found.filterMap id := by
  obtain ⟨first, rest, batch, rfl, hfirst, hrest⟩ := Action.runs_bind_ok_iff.1 h
  obtain ⟨rfl, htargets⟩ := Action.runs_ofExcept_iff.1 hfirst
  have length : batch.length = op.items.length :=
    length_of_mapM_eq_ok (Apply.prepare_eq_ok_iff.1 htargets.symm)
  rw [List.nil_append]
  split at hrest
  · -- Reloads run one after another, so each item has its own part of the events.
    next fromServer =>
    obtain ⟨reading, last, states, rfl, hstates, hpure⟩ := Action.runs_bind_ok_iff.1 hrest
    obtain ⟨rfl, hitems⟩ := Action.runs_pure_iff.1 hpure
    have each := Action.runs_mapM_ok_iff.1 hstates
    refine ⟨states, List.forall₂_iff_get.2 ⟨?_, fun i hi hi' => ?_⟩, Except.ok.inj hitems⟩
    · rw [each.length_eq, length]
    · obtain ⟨p, hp, hresolve, hedit⟩ :=
        found_target htargets.symm (List.getElem?_eq_getElem hi)
      obtain ⟨part, hpart, hruns⟩ := each.getElem? hp (List.getElem?_eq_getElem hi')
      refine ⟨p.1, p.2, hresolve, hedit, ?_⟩
      rw [if_pos fromServer, List.append_nil]
      exact ⟨part, hpart.sublist, hruns⟩
  · next fromServer =>
    obtain ⟨rfl, hitems⟩ := Action.runs_pure_iff.1 hrest
    refine ⟨batch.map fun p => some p.2, List.forall₂_iff_get.2 ⟨?_, fun i hi hi' => ?_⟩, ?_⟩
    · rw [List.length_map, length]
    · obtain ⟨p, hp, hresolve, hedit⟩ :=
        found_target htargets.symm (List.getElem?_eq_getElem hi)
      obtain ⟨hi'', rfl⟩ := List.getElem?_eq_some_iff.1 hp
      refine ⟨batch[i].1, batch[i].2, hresolve, hedit, ?_⟩
      rw [if_neg fromServer, List.get_eq_getElem, List.getElem_map]
    · rw [Except.ok.inj hitems, List.filterMap_map]
      show _ = batch.filterMap fun p => some p.2
      rw [List.filterMap_eq_map']

/-- Unless the server is asked, an item is found. -/
theorem Found.isSome {op : BatchOperation} {events : List Event} {item : Resource}
    {x : Option Resource} (h : op.Found events item x) (own : op.settings.fromServer = false) :
    x.isSome = true := by
  obtain ⟨handler, target, -, -, hfound⟩ := h
  rw [own] at hfound
  rw [show x = some target from hfound]
  rfl

/-! ## Waiting -/

/-- A wait that is carried out reads first, and then waits for what was found. -/
theorem ensures_wait (op : BatchOperation) {o : Outside σ} {heard : σ → List Event}
    (records : o.Records heard) {g : Goal} {accepts : Resource → Bool}
    (hg : g.condition? = some accepts) (limit : Duration) (w : World σ) :
    (op.wait o g limit w).Ensures heard (fun after result => ∀ states, result = .ok states →
      ∃ events record items, op.get.run.Runs events (.ok items) ∧
        Added (heard w.state) record events ∧
        AttainedEach accepts record after op.registry items states) (heard w.state) := by
  -- What is attained is attained since the record after the reading, not since the start.
  refine (Program.ensures_perform records op.get.run w).bind fun read w₁ _ hread => ?_
  obtain ⟨events, hruns, hadded⟩ := hread
  cases read with
  | error f => exact ⟨List.prefix_rfl, fun states hstates => nomatch hstates⟩
  | ok items =>
    have ensures : BatchTerms.Ensures heard (heard w₁.state) op.registry
        ((op.waitTerms limit).ownWaits o g items) fun handler r =>
          Attains accepts (heard w₁.state) handler r.1.ns r.1 := fun handler r budget _ =>
      handler.ensures_wait records hg (heard w₁.state) r.1.ns r.1 budget op.settings.backoff
    have waited := BatchTerms.ensures_verdict (t := op.waitTerms limit) hg ensures
    refine (waited.app List.prefix_rfl).bind fun result w₂ _ hresult => ?_
    exact ⟨List.prefix_rfl, fun states hstates =>
      ⟨events, heard w₁.state, items, hruns, hadded, hresult states hstates⟩⟩

/-- A wait for a condition that succeeds comes to one state for each item that was found, attained
by it since; and to one state for each item if and only if no item was missing. -/
theorem wait_everyItem (op : BatchOperation) {o : Outside σ} {heard : σ → List Event}
    (records : o.Records heard) {g : Goal} {accepts : Resource → Bool}
    (hg : g.condition? = some accepts) (limit : Duration) {w w' : World σ}
    {states : List Resource} (hrun : (op.wait o g limit w).run = .ended w' (.ok states)) :
    ∃ events record found, Added (heard w.state) record events ∧
      List.Forall₂ (op.Found events) op.items found ∧
      AttainedEach accepts record (heard w'.state) op.registry (found.filterMap id) states ∧
      (states.length = op.items.length ↔ none ∉ found) ∧
      (op.settings.fromServer = false → none ∉ found) := by
  obtain ⟨-, hstates⟩ := (op.ensures_wait records hg limit w).run hrun
  obtain ⟨events, record, items, hruns, hadded, hattained⟩ := hstates states rfl
  obtain ⟨found, hfound, rfl⟩ := found_of_runs_get hruns
  have all_iff : (∀ x ∈ found, (id x).isSome = true) ↔ none ∉ found := by
    refine ⟨fun h hnone => (nomatch h none hnone), fun h x hx => ?_⟩
    cases x with
    | none => exact absurd hx h
    | some r => rfl
  refine ⟨events, record, found, hadded, hfound, hattained, ?_, fun own => all_iff.1 fun x hx => ?_⟩
  · rw [hattained.1, hfound.length_eq, List.filterMap_length_eq_length, all_iff]
  · obtain ⟨i, hi, rfl⟩ := List.getElem_of_mem hx
    exact (List.Forall₂.get hfound (hfound.length_eq ▸ hi) hi).isSome own

/-- A wait reads, and then has the verdict on what it has found. -/
theorem run_wait {op : BatchOperation} {o : Outside σ} {g : Goal} {limit : Duration}
    {w w₁ w' : World σ} {items : List Resource} {report : WaitReport}
    (hget : op.get.perform o w = .ended w₁ (.ok items))
    (hwait : ((op.waitTerms limit).wait o op.registry g items w₁).run = .ended w' (.ok report)) :
    (op.wait o g limit w).run = .ended w' (g.verdict report) := by
  show Course.run (Course.bind (op.get.perform o w) _) = _
  rw [hget]
  show Course.run (Course.bind ((op.waitTerms limit).wait o op.registry g items w₁) _) = _
  rw [Course.run_bind, hwait]
  rfl

/-! ## Pods -/

open BatchTerms

/-- The operation on pods as the server has them. -/
def ofPods (names : List String) : BatchOperation :=
  ⟨podRegistry, { fromServer := true }, names.map pod⟩

/-- Of two pods, the one that is there is found. -/
theorem perform_get_ofPods : ∃ s, (ofPods ["there", "absent"]).get.perform readings.recorded
    ⟨0, 0, (), []⟩ = .ended ⟨0, 0, (), s⟩ (.ok [pod "there"]) := by
  refine ⟨[⟨.reload "pods" none (pod "there"), .ok (some (pod "there"))⟩,
    ⟨.reload "pods" none (pod "absent"), .ok none⟩], ?_⟩
  show Action.perform readings.recorded (do
    let states ← ["there", "absent"].mapM fun name => Apply.reload
      (.remote (.collaborator "pods" true)) (ofPods []).settings.pipeline (pod name)
    return states.filterMap id) _ = _
  rw [List.mapM_cons, List.mapM_cons, List.mapM_nil]
  simp only [Apply.reload, Handler.reload]
  rfl

theorem run_wait_ofPods : ∃ w', ((ofPods ["there", "absent"]).wait readings.recorded
    (.condition fun _ => true) (.ofMillis 100) ⟨0, 0, (), []⟩).run =
      .ended w' (.ok [pod "there"]) := by
  obtain ⟨s, hget⟩ := perform_get_ofPods
  have fits : ((ofPods ["there", "absent"]).waitTerms (.ofMillis 100)).Fits
      (⟨0, 0, (), s⟩ : World (Unit × List Event)) :=
    ⟨((fits_podTerms_iff (s := ((), s)) 1).2 (by decide +kernel)).1, fun n hn => nomatch hn⟩
  have hg : (Goal.condition fun _ => true).condition? = some fun _ => true := rfl
  have waited : ownWaits ((ofPods ["there", "absent"]).waitTerms (.ofMillis 100))
      readings.recorded (.condition fun _ => true) [pod "there"]
      (.remote (.collaborator "pods" true)) ⟨pod "there", List.mem_singleton_self _⟩
      (.ofMillis 100) ⟨0, 2, (), s⟩ = .ended ⟨0, 3, (), s ++ [⟨.reload "pods" none (pod "there"),
        .ok (some (pod "there"))⟩]⟩ (.ok (pod "there")) := by
    rw [ownWaits, Handler.wait, Remote.wait_collaborator hg]
    exact WaitTerms.poll_eq_ended _ _ rfl rfl
  exact ⟨_, run_wait hget
    (run_waitBy_of_one (resolveFor_pod "there") rfl fits (by decide) waited)⟩

/-- Of two pods one is there, and the wait comes to the state that it has attained. -/
theorem wait_everyItem_ofPods : ∃ w' events record found,
    ((ofPods ["there", "absent"]).wait readings.recorded (.condition fun _ => true) (.ofMillis 100)
      ⟨0, 0, (), []⟩).run = .ended w' (.ok [pod "there"]) ∧
    Added [] record events ∧
    List.Forall₂ ((ofPods ["there", "absent"]).Found events) (["there", "absent"].map pod) found ∧
    AttainedEach (fun _ => true) record w'.state.2 podRegistry (found.filterMap id)
      [pod "there"] ∧
    none ∈ found := by
  obtain ⟨w', hrun⟩ := run_wait_ofPods
  have hg : (Goal.condition fun _ => true).condition? = some fun _ => true := rfl
  obtain ⟨events, record, found, hadded, hfound, hattained, hlength, -⟩ :=
    wait_everyItem (ofPods ["there", "absent"]) readings.records_recorded hg (.ofMillis 100) hrun
  exact ⟨w', events, record, found, hrun, hadded, hfound, hattained,
    Decidable.not_not.1 (mt hlength.2 (by decide))⟩

/-- Of two pods only one is there, and yet the wait for both of them succeeds. -/
theorem wait_leaves_out_absent :
    ¬ ∀ w' states, ((ofPods ["there", "absent"]).wait readings.recorded (.condition fun _ => true)
      (.ofMillis 100) ⟨0, 0, (), []⟩).run = .ended w' (.ok states) →
        states.length = (ofPods ["there", "absent"]).items.length := by
  intro h
  obtain ⟨w', hrun⟩ := run_wait_ofPods
  exact absurd (h w' _ hrun) (by decide)

end BatchOperation

end Rollout
