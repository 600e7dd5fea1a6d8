/-
  Batches are deleted in order, up to the first item that is not deleted.

  If all items have a handler and come through the pipeline, a batch is deleted item by item: the
  handler of each is asked to delete what the pipeline made of the item, in the namespace that this
  has. The deletion goes on while the answer is true, so the items asked for are a beginning of the
  batch, and the last answer is what the deletion of the batch comes to (`Deletion`). The runs of
  `deleteAll` are these deletions, for every handler and all its answers (`deleteAll_deletion`).
-/
import Mathlib.Data.List.Forall2
import Mathlib.Logic.ExistsUnique
import Rollout.Proofs.Apply.Abort
import Rollout.Proofs.Apply.Dialogue
import Rollout.Proofs.Program.Search
import Rollout.Proofs.Wait.Terms

namespace Rollout

theorem mapM_eq_ok_iff_forall₂ {ε β γ : Type} {f : β → Except ε γ} {xs : List β} {ys : List γ} :
    xs.mapM f = .ok ys ↔ List.Forall₂ (fun x y => f x = .ok y) xs ys := by
  induction xs generalizing ys with
  | nil =>
    rw [List.forall₂_nil_left_iff]
    exact ⟨fun h => (Except.ok.inj h).symm, fun h => congrArg Except.ok h.symm⟩
  | cons x xs ih =>
    rw [mapM_eq_ok_cons_iff, List.forall₂_cons_left_iff]
    constructor
    · rintro ⟨y, ys, hx, hxs, rfl⟩
      exact ⟨y, ys, hx, ih.1 hxs, rfl⟩
    · rintro ⟨y, ys, hx, hxs, rfl⟩
      exact ⟨y, ys, hx, ih.2 hxs, rfl⟩

/-- A collaborator is called once for a deletion, and its answer is that of the handler. -/
theorem Handler.runs_delete_iff {id : String} {own : Bool} {ns : Option String}
    {options : DeleteOptions} {r : Resource} {events : List Event} {answer : Except Failure Bool} :
    ((remote (.collaborator id own)).delete ns options r).run.Runs events answer ↔
      events = [⟨.delete id ns options r, answer⟩] := by
  rw [delete]
  show (Program.ask (.delete id ns options r)).Runs events answer ↔ _
  rw [Program.ask, Program.runs_call_iff]
  constructor
  · rintro ⟨answer', rest, rfl, h⟩
    obtain ⟨rfl, rfl⟩ := Program.runs_done_iff.1 h
    rfl
  · rintro rfl
    exact ⟨answer, [], rfl, .done _⟩

namespace Apply

variable {options : DeleteOptions} {batch : List Prepared}

/-- Deletes what is ready to go out, in its own namespace. -/
def deletePrepared (options : DeleteOptions) (out : Prepared) : Action Bool :=
  out.1.delete out.2.ns options out.2

/-! ## Deletions -/

/-- A batch is deleted with these calls in all, with these answers of its handlers and with this
result. -/
structure Deletion (options : DeleteOptions) (batch : List Prepared)
    (answers : List (Except Failure Bool)) (events : List Event) (result : Except Failure Bool) :
    Prop where
  /-- The items of a beginning of the batch are deleted, one after the other and each once. -/
  asked : Action.RunsThrough (deletePrepared options) (batch.take answers.length) events answers
  /-- The deletion goes on while the answer is true, to the end of the batch. -/
  halts : Action.Halts batch.length answers
  result_eq : result = Action.verdict answers

namespace Deletion

variable {answers answers' : List (Except Failure Bool)} {events : List Event}
  {result result' : Except Failure Bool}

theorem unique (h : Deletion options batch answers events result)
    (h' : Deletion options batch answers' events result') : answers = answers' :=
  h.asked.unique h'.asked h.halts h'.halts rfl

theorem length_le (h : Deletion options batch answers events result) :
    answers.length ≤ batch.length := by
  have := h.asked.length_eq
  rw [List.length_take] at this
  omega

/-- The deletion comes to true if every item of the batch was deleted. -/
theorem eq_true_iff (h : Deletion options batch answers events result) :
    result = .ok true ↔ answers = List.replicate batch.length (.ok true) := by
  rw [h.result_eq, List.eq_replicate_iff]
  constructor
  · intro hverdict
    have last : ∀ answer, answers.getLast? = some answer → answer = .ok true := by
      intro answer hlast
      rwa [Action.verdict, hlast] at hverdict
    refine ⟨?_, fun answer hmem => ?_⟩
    · by_contra hlength
      obtain ⟨answer, hlast, hne⟩ := h.halts.last (Nat.lt_of_le_of_ne h.length_le hlength)
      exact hne (last answer hlast)
    · have hne := List.ne_nil_of_mem hmem
      rw [← List.dropLast_concat_getLast hne, List.mem_append, List.mem_singleton] at hmem
      rcases hmem with hbefore | hlast
      · exact h.halts.before answer hbefore
      · exact last answer (hlast ▸ List.getLast?_eq_some_getLast hne)
  · rintro ⟨-, hall⟩
    unfold Action.verdict
    cases hlast : answers.getLast? with
    | none => rfl
    | some answer => exact hall answer (List.mem_of_getLast? hlast)

/-- The deletion comes to anything else if the last item that was asked for came to it. -/
theorem eq_iff (h : Deletion options batch answers events result) {answer : Except Failure Bool}
    (hne : answer ≠ .ok true) : result = answer ↔ answers.getLast? = some answer := by
  rw [h.result_eq, Action.verdict]
  cases answers.getLast? with
  | none => exact ⟨fun heq => absurd heq.symm hne, nofun⟩
  | some last => exact Option.some_inj.symm

/-- From collaborators, the calls are the deletions themselves, with their answers. -/
theorem events_eq (h : Deletion options batch answers events result) (id : Prepared → String)
    (collaborates : ∀ out ∈ batch, ∃ own, out.1 = .remote (.collaborator (id out) own)) :
    events = List.zipWith
      (fun out answer => ⟨.delete (id out) out.2.ns options out.2, answer⟩) batch answers := by
  obtain ⟨asked, -, -⟩ := h
  induction batch generalizing answers events with
  | nil =>
    rw [List.take_nil] at asked
    cases asked
    rfl
  | cons out batch ih =>
    cases answers with
    | nil =>
      cases asked
      rfl
    | cons answer answers =>
      obtain ⟨⟨own, hout⟩, hbatch⟩ := List.forall_mem_cons.1 collaborates
      cases asked with
      | cons hfirst hrest =>
        rw [deletePrepared, hout] at hfirst
        rw [Handler.runs_delete_iff.1 hfirst, ih hbatch hrest]
        rfl

end Deletion

/-! ## The deletion of items -/

variable {reg : Registry} {p : Pipeline} {rs : List Resource}

/-- Deletes one item of a batch. -/
def deleteItem (reg : Registry) (p : Pipeline) (options : DeleteOptions) (r : Resource) :
    Action Bool := do
  let out ← Action.ofExcept (prepareItem reg p r)
  deletePrepared options out

/-- If all items have a handler, one item is deleted after the other. -/
theorem deleteAll_eq {handlers : List Handler} (h : rs.mapM reg.resolveFor = .ok handlers) :
    deleteAll reg p options rs = rs.allM (deleteItem reg p options) := by
  rw [deleteAll, h]
  show ((handlers.zip rs).allM fun item => delete item.1 p options item.2) = _
  induction rs generalizing handlers with
  | nil =>
    obtain rfl := Except.ok.inj h
    rfl
  | cons r rs ih =>
    obtain ⟨handler, handlers, hr, hrs, rfl⟩ := mapM_eq_ok_cons_iff.1 h
    have item : delete handler p options r = deleteItem reg p options r := by
      rw [deleteItem, prepareItem, hr, delete, Except.bind]
      cases handler.edit p r <;> rfl
    rw [List.zip_cons_cons, List.allM_cons, List.allM_cons, ← item]
    exact congrArg _ (funext fun answer => by rw [← ih hrs])

theorem deleteItem_of_prepareItem {r : Resource} {out : Prepared}
    (h : prepareItem reg p r = .ok out) :
    deleteItem reg p options r = deletePrepared options out := by
  rw [deleteItem, h, Action.ofExcept_bind]

/-- Items that are ready to go out are deleted as they go out. -/
theorem allM_deleteItem (h : rs.mapM (prepareItem reg p) = .ok batch) :
    rs.allM (deleteItem reg p options) = batch.allM (deletePrepared options) := by
  induction rs generalizing batch with
  | nil =>
    obtain rfl := Except.ok.inj h
    rfl
  | cons r rs ih =>
    obtain ⟨out, batch, hr, hrs, rfl⟩ := mapM_eq_ok_cons_iff.1 h
    rw [List.allM_cons, List.allM_cons, deleteItem_of_prepareItem hr, ih hrs]

/-- The runs of the deletion of a batch are those of `Deletion`, in one way each. -/
theorem runs_allM_deletePrepared_iff {events : List Event} {result : Except Failure Bool} :
    (batch.allM (deletePrepared options)).run.Runs events result ↔
      ∃! answers, Deletion options batch answers events result := by
  rw [Action.runs_allM_iff]
  constructor
  · rintro ⟨answers, asked, halts, heq⟩
    have deletion : Deletion options batch answers events result := ⟨asked, halts, heq⟩
    exact ⟨answers, deletion, fun _ h => h.unique deletion⟩
  · rintro ⟨answers, ⟨asked, halts, heq⟩, -⟩
    exact ⟨answers, asked, halts, heq⟩

/-- If all items of a batch have a handler and come through the pipeline, the runs of its deletion
are the deletions of what the pipeline made of them, in their namespaces and with these options, in
one way each. Such a deletion comes to true if all items were deleted, and to anything else if the
last item that was asked for came to it. From collaborators, its calls are these deletions. -/
theorem deleteAll_deletion (options : DeleteOptions) (prepares : ∀ r ∈ rs, ∃ h image,
    reg.resolveFor r = .ok h ∧ h.edit p r = .ok image) :
    ∃ batch, List.Forall₂ (fun r out => reg.resolveFor r = .ok out.1 ∧
        out.1.edit p r = .ok out.2) rs batch ∧
      (∀ events result, (deleteAll reg p options rs).run.Runs events result ↔
        ∃! answers, Deletion options batch answers events result) ∧
      ∀ answers events result, Deletion options batch answers events result →
        (result = .ok true ↔ answers = List.replicate batch.length (.ok true)) ∧
        (result = .ok false ↔ answers.getLast? = some (.ok false)) ∧
        (∀ f, result = .error f ↔ answers.getLast? = some (.error f)) ∧
        ∀ id : Prepared → String,
          (∀ out ∈ batch, ∃ own, out.1 = .remote (.collaborator (id out) own)) →
          events = List.zipWith (fun out answer =>
            ⟨.delete (id out) out.2.ns options out.2, answer⟩) batch answers := by
  have resolves : ∀ r ∈ rs, ∃ h, reg.resolveFor r = .ok h := fun r hr =>
    let ⟨h, _, hresolve, _⟩ := prepares r hr
    ⟨h, hresolve⟩
  have prepared : ∀ r ∈ rs, ∃ out, prepareItem reg p r = .ok out := by
    intro r hr
    obtain ⟨h, image, hresolve, hedit⟩ := prepares r hr
    exact ⟨(h, image), prepareItem_eq_ok_iff.2 ⟨hresolve, hedit⟩⟩
  obtain ⟨handlers, hhandlers⟩ := exists_mapM_eq_ok resolves
  obtain ⟨batch, hbatch⟩ := exists_mapM_eq_ok prepared
  refine ⟨batch, (mapM_eq_ok_iff_forall₂.1 hbatch).imp fun _ _ =>
    prepareItem_eq_ok_iff.1,
    fun events result => ?_, fun answers events result h => ⟨h.eq_true_iff, h.eq_iff nofun,
      fun f => h.eq_iff nofun, h.events_eq⟩⟩
  rw [deleteAll_eq hhandlers, allM_deleteItem hbatch, runs_allM_deletePrepared_iff]

/-! ## Pods -/

open BatchTerms (pod podRegistry resolveFor_pod)

/-- What goes out is to be in one namespace. -/
def intoProd : Settings := { explicitNamespace := some "prod" }

def prodPod (name : String) : Resource := (pod name).withNamespace "prod"

theorem prepares_pod (name : String) :
    podRegistry.resolveFor (pod name) = .ok (.remote (.collaborator "pods" true)) ∧
      (Handler.remote (.collaborator "pods" true)).edit intoProd.pipeline (pod name) =
        .ok (prodPod name) :=
  ⟨resolveFor_pod name, rfl⟩

/-- An operation deletes two pods, both in the namespace that its settings give, and one of them is
not there. -/
theorem deleteAll_deletion_pods :
    (∀ r ∈ [pod "a", pod "b"], ∃ h image, podRegistry.resolveFor r = .ok h ∧
      h.edit intoProd.pipeline r = .ok image) ∧
    (⟨podRegistry, intoProd, [pod "a", pod "b"]⟩ : BatchOperation).delete.run.Runs
      [⟨.delete "pods" (some "prod") ⟨some .background, none⟩ (prodPod "a"), .ok true⟩,
        ⟨.delete "pods" (some "prod") ⟨some .background, none⟩ (prodPod "b"), .ok false⟩]
      (.ok false) := by
  have prepares : ∀ r ∈ [pod "a", pod "b"], ∃ h image, podRegistry.resolveFor r = .ok h ∧
      h.edit intoProd.pipeline r = .ok image :=
    List.forall_mem_cons.2 ⟨⟨_, _, prepares_pod "a"⟩,
      List.forall_mem_singleton.2 ⟨_, _, prepares_pod "b"⟩⟩
  refine ⟨prepares, ?_⟩
  obtain ⟨batch, hbatch, hruns, -⟩ := deleteAll_deletion intoProd.deleteOptions prepares
  have hbatch := mapM_eq_ok_iff_forall₂.2 (hbatch.imp fun _ _ => prepareItem_eq_ok_iff.2)
  obtain rfl := Except.ok.inj hbatch
  have deleted (name : String) (answer : Except Failure Bool) :
      (deletePrepared intoProd.deleteOptions
        (.remote (.collaborator "pods" true), prodPod name)).run.Runs
          [⟨.delete "pods" (some "prod") ⟨some .background, none⟩ (prodPod name), answer⟩] answer :=
    Handler.runs_delete_iff.2 rfl
  have deletion : Deletion intoProd.deleteOptions
      [(.remote (.collaborator "pods" true), prodPod "a"),
        (.remote (.collaborator "pods" true), prodPod "b")] [.ok true, .ok false] _ (.ok false) :=
    ⟨.cons (deleted "a" (.ok true)) (.cons (deleted "b" (.ok false)) .nil),
      ⟨List.forall_mem_singleton.2 rfl, fun h => absurd h (Nat.lt_irrefl 2)⟩, rfl⟩
  exact (hruns _ _).2 ⟨_, deletion, fun _ h => h.unique deletion⟩

end Apply

end Rollout
