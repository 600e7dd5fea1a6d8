/-
  What the handler of a container asks of the handlers of its members.

  The verbs of a container ask for its members one by one, and differ in what they ask, in the
  answers after which they go on, and in what they make of the answers: each of them is
  `Action.mapWhile` with something made of the answers. `Delegates` says who is asked, in which
  order and in which namespace, and where that ends. Each run of a verb is one delegation, and each
  delegation is a run of it (`members_delegate`), so the handlers of the members may do whatever
  they like.
-/
import Rollout.Proofs.Container
import Rollout.Proofs.Handler.Members
import Rollout.Proofs.Registry

namespace Rollout

/-! ## Sequences that can be cut short -/

namespace Action

variable {α β γ : Type}

/-- The values of `f`, up to the first one that `goesOn` is not true of. -/
def mapWhile (f : α → Action β) (goesOn : β → Bool) : List α → Action (List β)
  | [] => pure []
  | x :: xs => do
    let y ← f x
    if goesOn y then (y :: ·) <$> mapWhile f goesOn xs else pure [y]

theorem mapM_eq_mapWhile (f : α → Action β) (xs : List α) :
    xs.mapM f = mapWhile f (fun _ => true) xs := by
  induction xs with
  | nil => rfl
  | cons x xs ih =>
    rw [List.mapM_cons, mapWhile, ih]
    exact bind_congr fun y => (map_eq_pure_bind (y :: ·) _).symm

theorem allM_eq_mapWhile (f : α → Action Bool) (xs : List α) :
    xs.allM f = (do return (← mapWhile f id xs).all id) := by
  induction xs with
  | nil => rfl
  | cons x xs ih =>
    rw [List.allM_cons, mapWhile, ih, bind_assoc]
    refine bind_congr fun y => ?_
    cases y with
    | false => rfl
    | true => exact (bind_map_left (true :: ·) (mapWhile f id xs) fun ys => pure (ys.all id)).symm

theorem map_ofExcept (g : α → β) (x : Except Failure α) :
    g <$> ofExcept x = ofExcept (x.map g) := by
  cases x <;> rfl

/-- What is made of the value of an action makes no calls. -/
theorem runs_bind_ofExcept_iff {a : Action α} {g : α → Except Failure β} {events : List Event}
    {result : Except Failure β} : (a >>= fun x => ofExcept (g x)).run.Runs events result ↔
      ∃ value, a.run.Runs events value ∧ result = value.bind g := by
  rw [run_bind]
  refine Iff.trans ?_ Program.runs_bind_done_iff
  refine iff_of_eq (congrArg (Program.Runs · events result) (congrArg a.run.bind ?_))
  funext value
  cases value <;> rfl

end Action

namespace Handler

variable {γ δ : Type}

/-! ## Delegations -/

/-- The members are asked for one after the other, each of its own handler and in its own namespace
or else in `ns`, as long as `goesOn` is true of the answer. That ends at a member that has no
handler, whose handler fails, or whose answer is not such. The calls are those of the handlers that
were asked; the answers and the failure, if there is one, are theirs. -/
inductive Delegates (reg : Registry) (ns : Option String)
    (verb : Handler → Option String → Resource → Action γ) (goesOn : γ → Bool) :
    List Resource → List Event → List γ → Option Failure → Prop where
  | finished : Delegates reg ns verb goesOn [] [] [] none
  | unresolved {m : Resource} {ms : List Resource} {f : Failure}
      (hm : reg.resolveFor m = .error f) : Delegates reg ns verb goesOn (m :: ms) [] [] (some f)
  | failed {m : Resource} {ms : List Resource} {h : Handler} {f : Failure} {events : List Event}
      (hm : reg.resolveFor m = .ok h)
      (hverb : (verb h (m.nsWithin ns) m).run.Runs events (.error f)) :
      Delegates reg ns verb goesOn (m :: ms) events [] (some f)
  | stopped {m : Resource} {ms : List Resource} {h : Handler} {y : γ} {events : List Event}
      (hm : reg.resolveFor m = .ok h)
      (hverb : (verb h (m.nsWithin ns) m).run.Runs events (.ok y)) (hy : goesOn y = false) :
      Delegates reg ns verb goesOn (m :: ms) events [y] none
  | answered {m : Resource} {ms : List Resource} {h : Handler} {y : γ} {ys : List γ}
      {first rest : List Event} {failure : Option Failure} (hm : reg.resolveFor m = .ok h)
      (hverb : (verb h (m.nsWithin ns) m).run.Runs first (.ok y)) (hy : goesOn y = true)
      (hms : Delegates reg ns verb goesOn ms rest ys failure) :
      Delegates reg ns verb goesOn (m :: ms) (first ++ rest) (y :: ys) failure

variable {reg : Registry} {ns : Option String}
  {verb : Handler → Option String → Resource → Action γ} {goesOn : γ → Bool} {ms : List Resource}
  {events : List Event}

/-- The turn of a member: it has no handler, its handler fails, or the rest begins with what its
handler answers. -/
theorem runs_forMember_bind_iff {m : Resource} {k : γ → Action δ} {result : Except Failure δ} :
    (forMember reg ns verb m >>= k).run.Runs events result ↔
      (∃ f, reg.resolveFor m = .error f ∧ events = [] ∧ result = .error f) ∨
      ∃ h, reg.resolveFor m = .ok h ∧
        ((∃ f, (verb h (m.nsWithin ns) m).run.Runs events (.error f) ∧ result = .error f) ∨
          ∃ first rest y, events = first ++ rest ∧
            (verb h (m.nsWithin ns) m).run.Runs first (.ok y) ∧ (k y).run.Runs rest result) := by
  unfold forMember
  cases reg.resolveFor m with
  | error f =>
    show (Program.done (Except.error f)).Runs events result ↔ _
    rw [Program.runs_done_iff]
    constructor
    · exact fun hend => .inl ⟨f, rfl, hend⟩
    · rintro (⟨_, heq, hend⟩ | ⟨_, heq, -⟩)
      · obtain rfl := Except.error.inj heq
        exact hend
      · cases heq
  | ok h =>
    rw [Action.ofExcept_bind, Action.run_bind, Program.runs_bind_iff]
    constructor
    · rintro ⟨first, rest, answer, rfl, hverb, hrest⟩
      cases answer with
      | error f =>
        obtain ⟨rfl, rfl⟩ := Program.runs_done_iff.1 hrest
        rw [List.append_nil]
        exact .inr ⟨h, rfl, .inl ⟨f, hverb, rfl⟩⟩
      | ok y => exact .inr ⟨h, rfl, .inr ⟨first, rest, y, rfl, hverb, hrest⟩⟩
    · rintro (⟨_, heq, -⟩ | ⟨_, heq, hturn⟩)
      · cases heq
      · obtain rfl := Except.ok.inj heq
        rcases hturn with ⟨f, hverb, rfl⟩ | ⟨first, rest, y, rfl, hverb, hrest⟩
        · exact ⟨events, [], _, (List.append_nil events).symm, hverb, .done _⟩
        · exact ⟨first, rest, .ok y, rfl, hverb, hrest⟩

/-- What is asked for the members is a delegation. -/
theorem delegates_of_runs {result : Except Failure (List γ)}
    (hrun : (Action.mapWhile (forMember reg ns verb) goesOn ms).run.Runs events result) :
    ∃ answers failure, Delegates reg ns verb goesOn ms events answers failure ∧
      result = failure.elim (.ok answers) .error := by
  induction ms generalizing events result with
  | nil =>
    obtain ⟨rfl, rfl⟩ := Action.runs_pure_iff.1 hrun
    exact ⟨[], none, .finished, rfl⟩
  | cons m ms ih =>
    rw [Action.mapWhile, runs_forMember_bind_iff] at hrun
    obtain ⟨f, hm, rfl, rfl⟩ | ⟨h, hm, ⟨f, hverb, rfl⟩ | ⟨first, rest, y, rfl, hverb, hrest⟩⟩ :=
      hrun
    · exact ⟨[], some f, .unresolved hm, rfl⟩
    · exact ⟨[], some f, .failed hm hverb, rfl⟩
    -- The answer decides whether the other members are asked for at all.
    · cases hy : goesOn y with
      | false =>
        rw [hy] at hrest
        obtain ⟨rfl, rfl⟩ := Action.runs_pure_iff.1 hrest
        rw [List.append_nil]
        exact ⟨[y], none, .stopped hm hverb hy, rfl⟩
      | true =>
        rw [hy, if_pos rfl, map_eq_pure_bind] at hrest
        obtain ⟨value, hothers, rfl⟩ :=
          (Action.runs_bind_ofExcept_iff (g := fun ys => .ok (y :: ys))).1 hrest
        obtain ⟨answers, failure, hms, rfl⟩ := ih hothers
        refine ⟨y :: answers, failure, .answered hm hverb hy hms, ?_⟩
        cases failure <;> rfl

/-- Each delegation may be what is asked for the members. -/
theorem Delegates.runs {answers : List γ} {failure : Option Failure}
    (h : Delegates reg ns verb goesOn ms events answers failure) :
    (Action.mapWhile (forMember reg ns verb) goesOn ms).run.Runs events
      (failure.elim (.ok answers) .error) := by
  induction h with
  | finished => exact .done _
  | unresolved hm =>
    rw [Action.mapWhile, runs_forMember_bind_iff]
    exact .inl ⟨_, hm, rfl, rfl⟩
  | failed hm hverb =>
    rw [Action.mapWhile, runs_forMember_bind_iff]
    exact .inr ⟨_, hm, .inl ⟨_, hverb, rfl⟩⟩
  | @stopped m ms h y events hm hverb hy =>
    rw [Action.mapWhile, runs_forMember_bind_iff]
    refine .inr ⟨h, hm, .inr ⟨events, [], y, (List.append_nil events).symm, hverb, ?_⟩⟩
    rw [hy]
    exact .done _
  | @answered m ms h y ys first rest failure hm hverb hy hms ih =>
    rw [Action.mapWhile, runs_forMember_bind_iff]
    refine .inr ⟨h, hm, .inr ⟨first, rest, y, rfl, hverb, ?_⟩⟩
    rw [hy, if_pos rfl, map_eq_pure_bind]
    refine (Action.runs_bind_ofExcept_iff (g := fun ys => .ok (y :: ys))).2 ⟨_, ih, ?_⟩
    cases failure <;> rfl

/-- A member whose handler makes one call. -/
theorem Delegates.answered_call {m : Resource} {h : Handler} {y : γ} {ys : List γ} {e : Event}
    {rest : List Event} {failure : Option Failure} (hm : reg.resolveFor m = .ok h)
    (hverb : (verb h (m.nsWithin ns) m).run.Runs [e] (.ok y)) (hy : goesOn y = true)
    (hms : Delegates reg ns verb goesOn ms rest ys failure) :
    Delegates reg ns verb goesOn (m :: ms) (e :: rest) (y :: ys) failure :=
  .answered hm hverb hy hms

/-- Something is made of the answers, and nothing of a failure. -/
theorem runs_delegation_iff {g : List γ → Except Failure δ} {result : Except Failure δ} :
    (Action.mapWhile (forMember reg ns verb) goesOn ms >>= fun ys =>
        Action.ofExcept (g ys)).run.Runs events result ↔ ∃ answers failure,
      Delegates reg ns verb goesOn ms events answers failure ∧
        result = failure.elim (g answers) .error := by
  rw [Action.runs_bind_ofExcept_iff]
  constructor
  · rintro ⟨value, hrun, rfl⟩
    obtain ⟨answers, failure, h, rfl⟩ := delegates_of_runs hrun
    refine ⟨answers, failure, h, ?_⟩
    cases failure <;> rfl
  · rintro ⟨answers, failure, h, rfl⟩
    refine ⟨_, h.runs, ?_⟩
    cases failure <;> rfl

/-! ## Containers -/

/-- The verbs of a container are delegations to the handlers of its members. What is created is
asked for without a version, and everything else as it is. A failure is passed on. Otherwise what is
created or replaced is the container with the answers for its members, and what is reloaded is the
one with those that are there; a deletion stops at the first member that is not there, and it is
true if all were. Any answers whose data are objects without the keys of type information and
metadata can be the members of the container, which is otherwise as it was. -/
theorem members_delegate (reg : Registry) (ns : Option String) {c : Resource} {ms : List Resource}
    (hc : c.members = .ok ms) :
    (∀ events result, ((members reg).create ns c).run.Runs events result ↔ ∃ answers failure,
      Delegates reg ns (fun h ns m => h.create ns (m.withVersion none)) (fun _ => true) ms events
          answers failure ∧
        result = failure.elim (c.withMembers answers) .error) ∧
    (∀ events result, ((members reg).replace ns c).run.Runs events result ↔ ∃ answers failure,
      Delegates reg ns replace (fun _ => true) ms events answers failure ∧
        result = failure.elim (c.withMembers answers) .error) ∧
    (∀ events result, ((members reg).reload ns c).run.Runs events result ↔ ∃ answers failure,
      Delegates reg ns reload (fun _ => true) ms events answers failure ∧
        result = failure.elim ((c.withMembers (answers.filterMap id)).map some) .error) ∧
    (∀ options events result, ((members reg).delete ns options c).run.Runs events result ↔
      ∃ answers failure,
        Delegates reg ns (fun h ns m => h.delete ns options m) id ms events answers failure ∧
          result = failure.elim (.ok (answers.all id)) .error) ∧
    ∀ answers, (∀ m ∈ answers, m.Apart) → ∃ l, c.withMembers answers = .ok l ∧
      c.Refilled answers l ∧ ((∀ m ∈ answers, m.metadata.Valid) → c.Regrouped answers l) := by
  refine ⟨fun events result => ?_, fun events result => ?_, fun events result => ?_,
    fun options events result => ?_, fun answers apart => ?_⟩
  · rw [create_members, hc, Action.ofExcept_bind, Action.mapM_eq_mapWhile]
    exact runs_delegation_iff
  · rw [replace_members, hc, Action.ofExcept_bind, Action.mapM_eq_mapWhile]
    exact runs_delegation_iff
  · simp only [reload_members, hc, Action.ofExcept_bind, Action.mapM_eq_mapWhile,
      Action.map_ofExcept]
    exact runs_delegation_iff (g := fun states => (c.withMembers (states.filterMap id)).map some)
  · rw [delete_members, hc, Action.ofExcept_bind, Action.allM_eq_mapWhile]
    exact runs_delegation_iff (g := fun answers => .ok (answers.all id))
  · obtain ⟨l, hput, refilled⟩ := Resource.refilled_of_apart hc apart
    exact ⟨l, hput, refilled, refilled.regrouped⟩

/-! ### Two pods -/

/-- Pods have a handler. -/
def podStore : Registry := ⟨[(⟨"Pod", "v1"⟩, .collaborator "pods" false)]⟩

def podOf (name : String) (ns version : Option String) : Resource :=
  ⟨some ⟨"v1", "Pod"⟩, { name := some name, ns := ns, resourceVersion := version }, .obj []⟩

/-- A list of a pod that is in a namespace and has a version, and one that is not and has none. -/
def podPair : Resource :=
  ⟨some ⟨"v1", "List"⟩, {}, .obj
    [("items", .arr
      [.obj [("apiVersion", .str "v1"), ("kind", .str "Pod"), ("metadata", .obj
          [("name", .str "a"), ("namespace", .str "stage"), ("resourceVersion", .str "41")])],
        .obj [("apiVersion", .str "v1"), ("kind", .str "Pod"),
          ("metadata", .obj [("name", .str "b")])]])]⟩

theorem members_podPair :
    podPair.members = .ok [podOf "a" (some "stage") (some "41"), podOf "b" none none] := by
  have list : isListKind "List" = true := by decide +kernel
  exact Resource.members_eq_ok_iff.2
    ⟨_, Resource.rawMembers?_eq_some_iff.2 ⟨_, _, rfl, list, rfl, rfl⟩, rfl⟩

theorem apart_podOf (name : String) (ns version : Option String) : (podOf name ns version).Apart :=
  ⟨[], rfl, .nil, fun _ _ => rfl⟩

theorem valid_podOf (name : String) (ns version : Option String) :
    (podOf name ns version).metadata.Valid :=
  ⟨⟨nofun, nofun, nofun, nofun, nofun⟩, nofun, nofun, nofun⟩

/-- Both pods are created, one in its own namespace. The second is not replaced if the first cannot
be, and not deleted if the first is not there; it is all that is reloaded then. -/
theorem members_delegate_podPair :
    podPair.members = .ok [podOf "a" (some "stage") (some "41"), podOf "b" none none] ∧
    (∃ l, ((members podStore).create (some "dev") podPair).run.Runs
        [⟨.create "pods" (some "stage") (podOf "a" (some "stage") none),
            .ok (podOf "a" (some "stage") (some "42"))⟩,
          ⟨.create "pods" (some "dev") (podOf "b" none none), .ok (podOf "b" (some "dev") none)⟩]
        (.ok l) ∧
      l.members = .ok [podOf "a" (some "stage") (some "42"), podOf "b" (some "dev") none]) ∧
    ((members podStore).replace (some "dev") podPair).run.Runs
      [⟨.replace "pods" (some "stage") (podOf "a" (some "stage") (some "41")),
        .error (.notFound "a")⟩] (.error (.notFound "a")) ∧
    (∃ l, ((members podStore).reload (some "dev") podPair).run.Runs
        [⟨.reload "pods" (some "stage") (podOf "a" (some "stage") (some "41")), .ok none⟩,
          ⟨.reload "pods" (some "dev") (podOf "b" none none),
            .ok (some (podOf "b" (some "dev") none))⟩] (.ok (some l)) ∧
      l.members = .ok [podOf "b" (some "dev") none]) ∧
    ∀ options, ((members podStore).delete (some "dev") options podPair).run.Runs
      [⟨.delete "pods" (some "stage") options (podOf "a" (some "stage") (some "41")), .ok false⟩]
      (.ok false) := by
  obtain ⟨created, replaced, reloaded, deleted, refilled⟩ :=
    members_delegate podStore (some "dev") members_podPair
  have stored (name : String) (ns version : Option String) : podStore.resolveFor
      (podOf name ns version) = .ok (.remote (.collaborator "pods" false)) := rfl
  have filled {pods : List Resource} (h : ∀ m ∈ pods, m.Apart ∧ m.metadata.Valid) :
      ∃ l, podPair.withMembers pods = .ok l ∧ l.members = .ok pods := by
    obtain ⟨l, hput, -, regrouped⟩ := refilled pods fun m hm => (h m hm).1
    exact ⟨l, hput, (regrouped fun m hm => (h m hm).2).members⟩
  have whole (name : String) (ns version : Option String) :
      (podOf name ns version).Apart ∧ (podOf name ns version).metadata.Valid :=
    ⟨apart_podOf name ns version, valid_podOf name ns version⟩
  refine ⟨members_podPair, ?_, ?_, ?_, fun options => ?_⟩
  · obtain ⟨l, hput, hmembers⟩ := filled (List.forall_mem_cons.2
      ⟨whole "a" (some "stage") (some "42"),
        List.forall_mem_singleton.2 (whole "b" (some "dev") none)⟩)
    refine ⟨l, (created _ _).2 ⟨[podOf "a" (some "stage") (some "42"), podOf "b" (some "dev") none],
      none, ?_, hput.symm⟩, hmembers⟩
    refine .answered_call (stored _ _ _) ?_ rfl (.answered_call (stored _ _ _) ?_ rfl .finished)
    · rw [create]
      exact .call (.done _)
    · rw [create]
      exact .call (.done _)
  · refine (replaced _ _).2 ⟨[], some _, .failed (stored _ _ _) ?_, rfl⟩
    rw [replace]
    exact .call (.done _)
  · obtain ⟨l, hput, hmembers⟩ := filled (List.forall_mem_singleton.2 (whole "b" (some "dev") none))
    refine ⟨l, (reloaded _ _).2 ⟨[none, some (podOf "b" (some "dev") none)], none, ?_,
      (congrArg (Except.map some) hput).symm⟩, hmembers⟩
    refine .answered_call (stored _ _ _) ?_ rfl (.answered_call (stored _ _ _) ?_ rfl .finished)
    · rw [reload]
      exact .call (.done _)
    · rw [reload]
      exact .call (.done _)
  · refine (deleted options _ _).2 ⟨[false], none, .stopped (stored _ _ _) ?_ rfl, rfl⟩
    rw [delete]
    exact .call (.done _)

end Handler

end Rollout
