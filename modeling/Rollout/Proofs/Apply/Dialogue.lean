/-
  Dialogues with a handler: what is asked of it while a resource is created or replaced.

  A handler is asked for verbs and answers each of them, whatever calls it makes for that. The
  verbs asked, each with its answer, are a dialogue. `Dialogue` lists the dialogues by which a
  resource may be created or replaced: one create; or a create that met a conflict, and then a
  replace, a delete, or a delete and another create. `runs_createOrReplace_iff` says that the runs
  of `createOrReplace` are the dialogues of this list, for every handler and all its answers.
-/
import Mathlib.Logic.ExistsUnique
import Rollout.Apply
import Rollout.Proofs.Program.Run

namespace Rollout

/-! ## Conflicts -/

/-- The failure is an API status 409, at the bottom of any number of aborted batches. -/
inductive Failure.FromConflict : Failure → Prop where
  | refused (s : ApiStatus) (h : s.code = 409) : FromConflict (.api (.refused s))
  | aborted (applied : List Resource) {source : Failure} (h : FromConflict source) :
      FromConflict (.batchAborted applied source)

theorem Failure.isConflict_iff (f : Failure) : f.isConflict = true ↔ f.FromConflict := by
  constructor
  · intro h
    induction f with
    | api fault =>
      cases fault with
      | refused s => exact .refused s (by simpa [isConflict] using h)
      | _ => simp [isConflict] at h
    | batchAborted applied source ih => exact .aborted applied (ih h)
    | _ => simp [isConflict] at h
  · intro h
    induction h with
    | refused s hs => simp [isConflict, hs]
    | aborted applied _ ih => exact ih

/-! ## Demands and exchanges -/

/-- A verb that is asked of a handler, with all that it carries. -/
inductive Demand where
  | create (ns : Option String) (r : Resource)
  | replace (ns : Option String) (r : Resource)
  | delete (ns : Option String) (options : DeleteOptions) (r : Resource)
deriving DecidableEq

/-- What a handler answers to a verb. -/
abbrev Demand.Answer : Demand → Type
  | .create .. => Except Failure Resource
  | .replace .. => Except Failure Resource
  | .delete .. => Except Failure Bool

/-- A verb with the handler's answer to it. -/
abbrev Exchange : Type := (d : Demand) × d.Answer

namespace Handler

/-- How a handler comes to its answer. -/
def meet (h : Handler) : (d : Demand) → Program d.Answer
  | .create ns r => (h.create ns r).run
  | .replace ns r => (h.replace ns r).run
  | .delete ns options r => (h.delete ns options r).run

/-- The handler, asked for these verbs one after the other, gives these answers and makes these
calls for them. -/
inductive Conducts (h : Handler) : List Exchange → List Event → Prop where
  | nil : Conducts h [] []
  | cons {d : Demand} {answer : d.Answer} {exchanges : List Exchange} {first rest : List Event}
      (hfirst : (h.meet d).Runs first answer) (hrest : Conducts h exchanges rest) :
      Conducts h (⟨d, answer⟩ :: exchanges) (first ++ rest)

theorem conducts_nil_iff {h : Handler} {events : List Event} :
    h.Conducts [] events ↔ events = [] := by
  constructor
  · intro hc
    cases hc
    rfl
  · rintro rfl
    exact .nil

theorem conducts_cons_iff {h : Handler} {d : Demand} {answer : d.Answer}
    {exchanges : List Exchange} {events : List Event} :
    h.Conducts (⟨d, answer⟩ :: exchanges) events ↔
      ∃ first rest, events = first ++ rest ∧ (h.meet d).Runs first answer ∧
        h.Conducts exchanges rest := by
  constructor
  · intro hc
    cases hc with
    | cons hfirst hrest => exact ⟨_, _, rfl, hfirst, hrest⟩
  · rintro ⟨first, rest, rfl, hfirst, hrest⟩
    exact .cons hfirst hrest

theorem conducts_singleton_iff {h : Handler} {d : Demand} {answer : d.Answer}
    {events : List Event} : h.Conducts [⟨d, answer⟩] events ↔ (h.meet d).Runs events answer := by
  simp only [conducts_cons_iff, conducts_nil_iff]
  constructor
  · rintro ⟨first, _, rfl, hfirst, rfl⟩
    rwa [List.append_nil]
  · intro hfirst
    exact ⟨events, [], (List.append_nil events).symm, hfirst, rfl⟩

/-- The calls tell what was answered to a verb, and which calls were made after it. -/
theorem Conducts.uncons {h : Handler} {d : Demand} {answer answer' : d.Answer}
    {exchanges exchanges' : List Exchange} {events : List Event}
    (hc : h.Conducts (⟨d, answer⟩ :: exchanges) events)
    (hc' : h.Conducts (⟨d, answer'⟩ :: exchanges') events) :
    answer = answer' ∧ ∃ rest, h.Conducts exchanges rest ∧ h.Conducts exchanges' rest := by
  obtain ⟨first, rest, rfl, hfirst, hrest⟩ := conducts_cons_iff.1 hc
  obtain ⟨first', rest', heq, hfirst', hrest'⟩ := conducts_cons_iff.1 hc'
  obtain ⟨rfl, rfl, rfl⟩ := hfirst.eq_of_append_eq hfirst' heq
  exact ⟨rfl, rest, hrest, hrest'⟩

/-! ### Collaborators -/

section Collaborator

variable (id : String) (ownReadiness : Bool) (ns : Option String) (r : Resource)

theorem runs_create (answer : Except Failure Resource) :
    ((remote (.collaborator id ownReadiness)).meet (.create ns r)).Runs
      [⟨.create id ns r, answer⟩] answer := by
  rw [meet, create]
  exact .call (.done _)

end Collaborator

end Handler

/-! ## Creating or replacing -/

namespace Apply

/-- What is asked, and what comes out of it, once a create has met a conflict. -/
inductive Resolution (o : ApplyOptions) (r : Resource) :
    List Exchange → Except Failure Resource → Prop where
  /-- The resource is replaced, with the version that it came with. -/
  | replaced (ho : o.deletingExisting = false) (answer : Except Failure Resource) :
      Resolution o r [⟨.replace r.ns r, answer⟩] answer
  | notDeleted (ho : o.deletingExisting = true) (f : Failure) :
      Resolution o r [⟨.delete r.ns o.deletion (r.withVersion none), .error f⟩] (.error f)
  /-- There was nothing to delete. -/
  | absent (ho : o.deletingExisting = true) :
      Resolution o r [⟨.delete r.ns o.deletion (r.withVersion none), .ok false⟩]
        (.error (.deleteFailed r.describe))
  /-- The second create is the last word, also when it meets a conflict again. -/
  | recreated (ho : o.deletingExisting = true) (answer : Except Failure Resource) :
      Resolution o r [⟨.delete r.ns o.deletion (r.withVersion none), .ok true⟩,
        ⟨.create r.ns (r.withVersion none), answer⟩] answer

/-- The dialogues by which a resource is created or replaced, each with its result. -/
inductive Dialogue (o : ApplyOptions) (r : Resource) :
    List Exchange → Except Failure Resource → Prop where
  /-- The create succeeds, or fails for another reason than a conflict. -/
  | settled (answer : Except Failure Resource) (h : ∀ f, answer = .error f → ¬ f.FromConflict) :
      Dialogue o r [⟨.create r.ns (r.withVersion none), answer⟩] answer
  | conflict {f : Failure} (hf : f.FromConflict) {rest : List Exchange}
      {result : Except Failure Resource} (h : Resolution o r rest result) :
      Dialogue o r (⟨.create r.ns (r.withVersion none), .error f⟩ :: rest) result

/-- The verbs of a dialogue. -/
def verbs (exchanges : List Exchange) : List Demand := exchanges.map (·.1)

theorem run_resolveConflict (h : Handler) (o : ApplyOptions) (r : Resource) :
    (resolveConflict h o r).run =
      if o.deletingExisting then
        (h.meet (.delete r.ns o.deletion (r.withVersion none))).bind fun
          | .ok true => h.meet (.create r.ns (r.withVersion none))
          | .ok false => .done (.error (.deleteFailed r.describe))
          | .error f => .done (.error f)
      else h.meet (.replace r.ns r) := by
  unfold resolveConflict
  split
  · rw [Action.run_bind]
    congr
    funext answer
    rcases answer with f | _ | _ <;> rfl
  · rfl

theorem run_createOrReplace (h : Handler) (o : ApplyOptions) (r : Resource) :
    (createOrReplace h o r).run =
      (h.meet (.create r.ns (r.withVersion none))).bind fun
        | .ok created => .done (.ok created)
        | .error f => if f.isConflict then (resolveConflict h o r).run else .done (.error f) := by
  unfold createOrReplace
  rw [Action.run_attempt_bind]
  congr
  funext answer
  cases answer with
  | ok created => rfl
  | error f =>
    dsimp only
    split <;> rfl

theorem runs_resolveConflict_iff (h : Handler) (o : ApplyOptions) (r : Resource)
    (events : List Event) (result : Except Failure Resource) :
    (resolveConflict h o r).run.Runs events result ↔
      ∃ exchanges, Resolution o r exchanges result ∧ h.Conducts exchanges events := by
  rw [run_resolveConflict]
  constructor
  · intro hr
    by_cases ho : o.deletingExisting = true
    · rw [if_pos ho, Program.runs_bind_iff] at hr
      obtain ⟨first, rest, answer, rfl, hfirst, hrest⟩ := hr
      rcases answer with f | _ | _
      · obtain ⟨rfl, rfl⟩ := Program.runs_done_iff.1 hrest
        exact ⟨_, .notDeleted ho f, .cons hfirst .nil⟩
      · obtain ⟨rfl, rfl⟩ := Program.runs_done_iff.1 hrest
        exact ⟨_, .absent ho, .cons hfirst .nil⟩
      · exact ⟨_, .recreated ho result, .cons hfirst (Handler.conducts_singleton_iff.2 hrest)⟩
    · rw [if_neg ho] at hr
      exact ⟨_, .replaced (by simpa using ho) result, Handler.conducts_singleton_iff.2 hr⟩
  · rintro ⟨exchanges, hd, hc⟩
    cases hd with
    | replaced ho =>
      rw [ho]
      exact Handler.conducts_singleton_iff.1 hc
    | notDeleted ho f =>
      rw [if_pos ho, Program.runs_bind_iff]
      exact ⟨events, [], _, (List.append_nil events).symm,
        Handler.conducts_singleton_iff.1 hc, .done _⟩
    | absent ho =>
      rw [if_pos ho, Program.runs_bind_iff]
      exact ⟨events, [], _, (List.append_nil events).symm,
        Handler.conducts_singleton_iff.1 hc, .done _⟩
    | recreated ho =>
      rw [if_pos ho, Program.runs_bind_iff]
      obtain ⟨first, rest, rfl, hfirst, hrest⟩ := Handler.conducts_cons_iff.1 hc
      exact ⟨first, rest, _, rfl, hfirst, Handler.conducts_singleton_iff.1 hrest⟩

theorem runs_createOrReplace_iff (h : Handler) (o : ApplyOptions) (r : Resource)
    (events : List Event) (result : Except Failure Resource) :
    (createOrReplace h o r).run.Runs events result ↔
      ∃ exchanges, Dialogue o r exchanges result ∧ h.Conducts exchanges events := by
  rw [run_createOrReplace, Program.runs_bind_iff]
  constructor
  · rintro ⟨first, rest, answer, rfl, hfirst, hrest⟩
    cases answer with
    | ok created =>
      obtain ⟨rfl, rfl⟩ := Program.runs_done_iff.1 hrest
      exact ⟨_, .settled _ (by simp), .cons hfirst .nil⟩
    | error f =>
      dsimp only at hrest
      by_cases hf : f.isConflict = true
      · rw [if_pos hf, runs_resolveConflict_iff] at hrest
        obtain ⟨exchanges, hd, hc⟩ := hrest
        exact ⟨_, .conflict (f.isConflict_iff.1 hf) hd, .cons hfirst hc⟩
      · rw [if_neg hf] at hrest
        obtain ⟨rfl, rfl⟩ := Program.runs_done_iff.1 hrest
        refine ⟨_, .settled _ ?_, .cons hfirst .nil⟩
        rintro f' heq hf'
        obtain rfl := Except.error.inj heq
        exact hf (f.isConflict_iff.2 hf')
  · rintro ⟨exchanges, hd, hc⟩
    cases hd with
    | settled _ hs =>
      refine ⟨events, [], result, (List.append_nil events).symm,
        Handler.conducts_singleton_iff.1 hc, ?_⟩
      cases result with
      | ok created => exact .done _
      | error f =>
        have hf : ¬ f.isConflict = true := fun hf => hs f rfl (f.isConflict_iff.1 hf)
        dsimp only
        rw [if_neg hf]
        exact .done _
    | @conflict f hf rest _ hd =>
      obtain ⟨first, last, rfl, hfirst, hrest⟩ := Handler.conducts_cons_iff.1 hc
      refine ⟨first, last, .error f, rfl, hfirst, ?_⟩
      dsimp only
      rw [if_pos (f.isConflict_iff.2 hf), runs_resolveConflict_iff]
      exact ⟨rest, hd, hrest⟩

/-! ## One dialogue for each run -/

theorem Resolution.unique {o : ApplyOptions} {r : Resource} {h : Handler} {events : List Event}
    {exchanges exchanges' : List Exchange} {result result' : Except Failure Resource}
    (hd : Resolution o r exchanges result) (hd' : Resolution o r exchanges' result')
    (hc : h.Conducts exchanges events) (hc' : h.Conducts exchanges' events) :
    exchanges = exchanges' := by
  cases hd with
  | replaced ho =>
    cases hd' with
    | replaced => rw [(hc.uncons hc').1]
    | _ ho' => simp [ho] at ho'
  | notDeleted ho f =>
    cases hd' with
    | replaced ho' => simp [ho] at ho'
    | notDeleted => rw [(hc.uncons hc').1]
    | absent | recreated => exact nomatch (hc.uncons hc').1
  | absent ho =>
    cases hd' with
    | replaced ho' => simp [ho] at ho'
    | absent => rfl
    | notDeleted | recreated => exact nomatch (hc.uncons hc').1
  | recreated ho answer =>
    cases hd' with
    | replaced ho' => simp [ho] at ho'
    | notDeleted | absent => exact nomatch (hc.uncons hc').1
    | recreated =>
      obtain ⟨-, rest, hrest, hrest'⟩ := hc.uncons hc'
      rw [(hrest.uncons hrest').1]

theorem Dialogue.unique {o : ApplyOptions} {r : Resource} {h : Handler} {events : List Event}
    {exchanges exchanges' : List Exchange} {result result' : Except Failure Resource}
    (hd : Dialogue o r exchanges result) (hd' : Dialogue o r exchanges' result')
    (hc : h.Conducts exchanges events) (hc' : h.Conducts exchanges' events) :
    exchanges = exchanges' := by
  cases hd with
  | settled _ hs =>
    cases hd' with
    | settled => rw [(hc.uncons hc').1]
    | conflict hf => exact absurd hf (hs _ (hc.uncons hc').1)
  | conflict hf hd =>
    cases hd' with
    | settled _ hs => exact absurd hf (hs _ (hc.uncons hc').1.symm)
    | conflict hf' hd' =>
      obtain ⟨heq, rest, hrest, hrest'⟩ := hc.uncons hc'
      obtain rfl := Except.error.inj heq
      rw [hd.unique hd' hrest hrest']

/-- The runs of `createOrReplace` are the dialogues of the list above, one dialogue for each run,
and what a dialogue asks for is one of four sequences of verbs. -/
theorem createOrReplace_dialogue (h : Handler) (o : ApplyOptions) (r : Resource) :
    (∀ events result, (createOrReplace h o r).run.Runs events result ↔
      ∃! exchanges, Dialogue o r exchanges result ∧ h.Conducts exchanges events) ∧
    ∀ exchanges result, Dialogue o r exchanges result →
      verbs exchanges ∈
        [[.create r.ns (r.withVersion none)],
          [.create r.ns (r.withVersion none), .replace r.ns r],
          [.create r.ns (r.withVersion none), .delete r.ns o.deletion (r.withVersion none)],
          [.create r.ns (r.withVersion none), .delete r.ns o.deletion (r.withVersion none),
            .create r.ns (r.withVersion none)]] := by
  refine ⟨fun events result => ?_, fun exchanges result hd => ?_⟩
  · rw [runs_createOrReplace_iff]
    constructor
    · rintro ⟨exchanges, hd, hc⟩
      exact ⟨exchanges, ⟨hd, hc⟩, fun _ ⟨hd', hc'⟩ => hd'.unique hd hc' hc⟩
    · rintro ⟨exchanges, ⟨hd, hc⟩, -⟩
      exact ⟨exchanges, hd, hc⟩
  · cases hd with
    | settled => simp [verbs]
    | conflict hf hd => cases hd <;> simp [verbs]

end Apply

end Rollout
