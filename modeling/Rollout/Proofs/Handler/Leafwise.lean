/-
  What is carried out for a container is carried out leaf by leaf.

  The handler of a container has a verb carried out for the members in turn, as long as all goes
  well (`Registry.Traverses`); so it is with creating, replacing and deleting. However deep the
  containers are nested, this comes down to the leaves of the survey: nothing but these is asked
  for, and a survey with a lack ends in a failure (`Traverses.asks`, `Traverses.complete`). If all
  goes well with the leaves, so it does with the container, and a leaf that fails, or what cuts the
  survey short, makes the container fail in the same way (`Traverses.ends`).
-/
import Rollout.Proofs.Handler.Errand
import Rollout.Proofs.Handler.Leaves
import Rollout.Proofs.Program.Search

namespace Rollout

variable {β γ : Type} {P : Handler → Errand → Prop}

/-! ## Loops that end early -/

namespace Action

/-- The action may come to a value of this kind. -/
def MayCome (good : γ → Prop) (a : Action γ) : Prop :=
  ∃ events y, a.run.Runs events (.ok y) ∧ good y

/-- `f` asks for nothing else as far as a loop gets that goes on only with values of this kind. -/
def AsksUpTo (f : β → Action γ) (proceeds : γ → Prop) (P : Handler → Errand → Prop) :
    List β → Prop
  | [] => True
  | x :: xs => (f x).run.Asks P ∧ ((f x).MayCome proceeds → AsksUpTo f proceeds P xs)

variable {f : β → Action γ} {proceeds : γ → Prop} {xs : List β}

theorem AsksUpTo.mono {Q : Handler → Errand → Prop} (h : AsksUpTo f proceeds P xs)
    (hP : ∀ h e, P h e → Q h e) : AsksUpTo f proceeds Q xs := by
  induction xs with
  | nil => trivial
  | cons x xs ih => exact ⟨h.1.mono hP, fun hx => ih (h.2 hx)⟩

/-- What follows an action matters only for the values that it comes to. -/
theorem asks_bind_of_runs {α : Type} {a : Action α} {g : α → Action γ} (ha : a.run.Asks P)
    (hg : ∀ events value, a.run.Runs events (.ok value) → (g value).run.Asks P) :
    (a >>= g).run.Asks P := by
  intro events result hrun
  rw [run_bind] at hrun
  obtain ⟨first, rest, answer, rfl, hfirst, hrest⟩ := Program.runs_bind_iff.1 hrun
  refine (ha first answer hfirst).append ?_
  cases answer with
  | ok value => exact hg first value hfirst rest result hrest
  | error e =>
    rw [(Program.runs_done_iff.1 hrest).1]
    exact .nil

theorem asks_mapM_upTo (h : AsksUpTo f (fun _ => True) P xs) : (xs.mapM f).run.Asks P := by
  induction xs with
  | nil => exact Program.asks_done _
  | cons x xs ih =>
    rw [List.mapM_cons]
    refine asks_bind_of_runs h.1 fun events y hy => ?_
    exact asks_bind (ih (h.2 ⟨events, y, hy, trivial⟩)) fun _ => Program.asks_done _

theorem asks_allM_upTo {f : β → Action Bool} (h : AsksUpTo f (· = true) P xs) :
    (xs.allM f).run.Asks P := by
  induction xs with
  | nil => exact Program.asks_done _
  | cons x xs ih =>
    rw [List.allM_cons]
    refine asks_bind_of_runs h.1 fun events y hy => ?_
    cases y with
    | true => exact ih (h.2 ⟨events, true, hy, rfl⟩)
    | false => exact Program.asks_done _

/-- What is asked for a list of values, one after the other. -/
theorem RunsEach.asked {events : List Event} {ys : List γ} (h : RunsEach f xs events ys)
    (hf : ∀ x ∈ xs, (f x).run.Asks P) : Asked P events := by
  induction h with
  | nil => exact .nil
  | cons hx _ ih =>
    obtain ⟨hfx, hf⟩ := List.forall_mem_cons.1 hf
    exact (hfx _ _ hx).append (ih hf)

/-! ## How actions end -/

/-- With these calls, the action comes to a good value or to this failure. -/
def Ends (good : γ → Prop) (a : Action γ) (events : List Event) : Option Failure → Prop
  | none => ∃ y, a.run.Runs events (.ok y) ∧ good y
  | some e => a.run.Runs events (.error e)

/-- With these calls, `f` comes to good values for all of these, or for those before one for which
it fails in this way. -/
def EachEnds (good : γ → Prop) (f : β → Action γ) (xs : List β) (events : List Event) :
    Option Failure → Prop
  | none => ∃ ys, RunsEach f xs events ys ∧ ∀ y ∈ ys, good y
  | some e => ∃ ys, RunsUpTo f xs events ys e ∧ ∀ y ∈ ys, good y

variable {good : γ → Prop} {x : β} {first rest events : List Event} {out : Option Failure}

theorem EachEnds.nil : EachEnds good f [] [] none := ⟨[], .nil, List.forall_mem_nil _⟩

theorem EachEnds.stop {e : Failure} (hx : (f x).Ends good events (some e)) (xs : List β) :
    EachEnds good f (x :: xs) events (some e) :=
  ⟨[], runsUpTo_cons_iff.2 (.inl ⟨rfl, hx⟩), List.forall_mem_nil _⟩

theorem EachEnds.cons (hx : (f x).Ends good first none) (hxs : EachEnds good f xs rest out) :
    EachEnds good f (x :: xs) (first ++ rest) out := by
  obtain ⟨y, hrun, hy⟩ := hx
  cases out with
  | none =>
    obtain ⟨ys, hruns, hys⟩ := hxs
    exact ⟨y :: ys, .cons hrun hruns, List.forall_mem_cons.2 ⟨hy, hys⟩⟩
  | some e =>
    obtain ⟨ys, hruns, hys⟩ := hxs
    exact ⟨y :: ys, runsUpTo_cons_iff.2 (.inr ⟨first, rest, y, ys, rfl, rfl, hrun, hruns⟩),
      List.forall_mem_cons.2 ⟨hy, hys⟩⟩

end Action

/-! ## Walks through surveys -/

/-- Asks the remote of the leaf. -/
def Leaf.ask (verb : Handler → Option String → Resource → Action γ) (l : Leaf) : Action γ :=
  verb (.remote l.remote) l.ns l.resource

namespace Survey

open Rollout.Action

/-- With these calls, `ask` comes to good values for the leaves in turn: for those before one for
which it fails, or for all of them, and then what the survey lacks is in the way. -/
inductive Walks (ask : Leaf → Action γ) (good : γ → Prop) :
    Survey → List Event → Option Failure → Prop where
  | done (lack : Option Failure) : Walks ask good ⟨[], lack⟩ [] lack
  | failed {l : Leaf} {events : List Event} {f : Failure} (h : (ask l).run.Runs events (.error f))
      (ls : List Leaf) (lack : Option Failure) : Walks ask good ⟨l :: ls, lack⟩ events (some f)
  | next {l : Leaf} {ls : List Leaf} {lack : Option Failure} {first rest : List Event} {y : γ}
      {out : Option Failure} (h : (ask l).run.Runs first (.ok y)) (hy : good y)
      (hrest : Walks ask good ⟨ls, lack⟩ rest out) :
      Walks ask good ⟨l :: ls, lack⟩ (first ++ rest) out

variable {ask : Leaf → Action γ} {good : γ → Prop} {events : List Event} {out : Option Failure}

/-- A walk goes on behind leaves with which all has gone well. -/
theorem Walks.after {ls rest : List Leaf} {lack : Option Failure} {first : List Event} {ys : List γ}
    (h : RunsEach ask ls first ys) (hys : ∀ y ∈ ys, good y)
    (hrest : Walks ask good ⟨rest, lack⟩ events out) :
    Walks ask good ⟨ls ++ rest, lack⟩ (first ++ events) out := by
  induction h with
  | nil => exact hrest
  | cons hx _ ih =>
    obtain ⟨hy, hys⟩ := List.forall_mem_cons.1 hys
    rw [List.append_assoc]
    exact .next hx hy (ih hys)

theorem Walks.of_runsEach {ls : List Leaf} {ys : List γ} (h : RunsEach ask ls events ys)
    (hys : ∀ y ∈ ys, good y) (lack : Option Failure) : Walks ask good ⟨ls, lack⟩ events lack := by
  have walk := Walks.after h hys (.done lack)
  rwa [List.append_nil, List.append_nil] at walk

theorem Walks.ends_single {l : Leaf} (h : (single l).Walks ask good events out) :
    (ask l).Ends good events out := by
  cases h with
  | failed h => exact h
  | next h hy hrest =>
    cases hrest
    rw [List.append_nil]
    exact ⟨_, h, hy⟩

theorem Walks.eq_of_lacking {f : Failure} (h : (lacking f).Walks ask good events out) :
    events = [] ∧ out = some f := by
  cases h
  exact ⟨rfl, rfl⟩

theorem Walks.out_ne_none {s : Survey} (h : s.Walks ask good events out) (hs : s.lack ≠ none) :
    out ≠ none := by
  induction h with
  | done lack => exact hs
  | failed h ls lack => exact nofun
  | next _ _ _ ih => exact ih hs

/-- A walk through two surveys ends in the first, or goes on with the second. -/
theorem Walks.of_append {s t : Survey} (h : (s.append t).Walks ask good events out) :
    (s.Walks ask good events out ∧ out ≠ none) ∨
      ∃ first rest, events = first ++ rest ∧ s.Walks ask good first none ∧
        t.Walks ask good rest out := by
  obtain ⟨ls, lack⟩ := s
  cases lack with
  | some f =>
    rw [append_of_lack rfl] at h
    exact .inl ⟨h, h.out_ne_none nofun⟩
  | none =>
    rw [append_of_complete rfl] at h
    induction ls generalizing events with
    | nil => exact .inr ⟨[], events, rfl, .done none, h⟩
    | cons l ls ih =>
      cases h with
      | failed h => exact .inl ⟨.failed h _ _, nofun⟩
      | next h hy hrest =>
        rcases ih hrest with ⟨hrest, hout⟩ | ⟨first, rest, rfl, hfirst, hrest⟩
        · exact .inl ⟨.next h hy hrest, hout⟩
        · exact .inr ⟨_, rest, (List.append_assoc _ _ _).symm, .next h hy hfirst, hrest⟩

/-- What ends like the walks through the parts ends in turn like the walk through all of them, of
which only the last part may end in another way than well. -/
theorem Walks.eachEnds {survey : β → Survey} {f : β → Action γ} {xs : List β}
    (h : (join (xs.map survey)).Walks ask good events out)
    (hf : ∀ x ∈ xs, ∀ part last, last = none ∨ last = out →
      (survey x).Walks ask good part last → (f x).Ends good part last) :
    EachEnds good f xs events out := by
  induction xs generalizing events with
  | nil =>
    cases h
    exact .nil
  | cons x xs ih =>
    obtain ⟨hx, hxs⟩ := List.forall_mem_cons.1 hf
    rw [List.map_cons, join_cons] at h
    rcases h.of_append with ⟨hwalk, hout⟩ | ⟨first, rest, rfl, hfirst, hrest⟩
    · obtain ⟨e, rfl⟩ := Option.ne_none_iff_exists'.1 hout
      exact .stop (hx _ _ (.inr rfl) hwalk) xs
    · exact .cons (hx _ _ (.inl rfl) hfirst) (ih hrest hxs)

/-- A loop through these parts asks only for the leaves of their surveys. -/
theorem asksUpTo_join {survey : β → Survey} {f : β → Action γ} {proceeds : γ → Prop}
    {P : Leaf → Handler → Errand → Prop} {xs : List β}
    (hasks : ∀ x ∈ xs, (f x).run.Asks fun h e => ∃ l ∈ (survey x).leaves, P l h e)
    (hcomplete : ∀ x ∈ xs, (f x).MayCome proceeds → (survey x).lack = none) :
    AsksUpTo f proceeds (fun h e => ∃ l ∈ (join (xs.map survey)).leaves, P l h e) xs := by
  induction xs with
  | nil => trivial
  | cons x xs ih =>
    obtain ⟨hx, hxs⟩ := List.forall_mem_cons.1 hasks
    obtain ⟨hlack, hlacks⟩ := List.forall_mem_cons.1 hcomplete
    rw [List.map_cons, join_cons]
    refine ⟨hx.mono ?_, fun hcome => (ih hxs hlacks).mono ?_⟩
    · rintro h e ⟨l, hl, he⟩
      exact ⟨l, mem_leaves_append_left hl _, he⟩
    · rintro h e ⟨l, hl, he⟩
      rw [append_of_complete (hlack hcome)]
      exact ⟨l, List.mem_append_right _ hl, he⟩

end Survey

/-! ## Verbs of containers -/

namespace Registry

open Rollout.Action Handler

/-- The verb, asked of the handler of the resource. -/
def ask (reg : Registry) (verb : Handler → Option String → Resource → Action γ)
    (ns : Option String) (r : Resource) : Action γ := do
  let h ← Action.ofExcept (reg.resolveFor r)
  verb h ns r

theorem ask_of_ok {reg : Registry} {verb : Handler → Option String → Resource → Action γ}
    {r : Resource} {h : Handler} (hr : reg.resolveFor r = .ok h) (ns : Option String) :
    reg.ask verb ns r = verb h ns r := by
  rw [ask, hr]
  rfl

/-- The handler of a container has `verb` carried out for the members in turn. It goes on behind a
member with a value that `proceeds`, and all goes well as long as the values are `good`. -/
structure Traverses (reg : Registry) (verb : Handler → Option String → Resource → Action γ)
    (proceeds good : γ → Prop) : Prop where
  unreadable {ns : Option String} {r : Resource} {f : Failure} (h : r.members = .error f) :
    (verb (.members reg) ns r).run = .done (.error f)
  members_ends {ns : Option String} {r : Resource} {ms : List Resource} {events : List Event}
    {out : Option Failure} (hms : r.members = .ok ms)
    (h : EachEnds good (forMember reg ns verb) ms events out) :
    (verb (.members reg) ns r).Ends good events out
  members_asks {ns : Option String} {r : Resource} {ms : List Resource}
    {P : Handler → Errand → Prop} (hms : r.members = .ok ms)
    (h : AsksUpTo (forMember reg ns verb) proceeds P ms) : (verb (.members reg) ns r).run.Asks P
  members_come {ns : Option String} {r : Resource} {ms : List Resource} (hms : r.members = .ok ms)
    (h : (verb (.members reg) ns r).MayCome proceeds) :
    ∀ m ∈ ms, (forMember reg ns verb m).MayCome proceeds

namespace Traverses

variable {reg : Registry} {verb : Handler → Option String → Resource → Action γ}
  {proceeds good : γ → Prop} {ns : Option String} {r : Resource}

/-- The container ends as the walk through its survey does. -/
theorem ends (ht : reg.Traverses verb proceeds good) {events : List Event} {out : Option Failure}
    (h : (reg.survey ns r).Walks (Leaf.ask verb) good events out) :
    (reg.ask verb ns r).Ends good events out := by
  induction ns, r using nested_induction reg generalizing events out with
  | lacking ns r f hr =>
    rw [survey_of_error hr] at h
    obtain ⟨rfl, rfl⟩ := h.eq_of_lacking
    rw [ask, hr]
    exact .done _
  | remote ns r x hr =>
    rw [survey_of_remote hr] at h
    rw [ask_of_ok hr]
    exact h.ends_single
  | unreadable ns r f hr hms =>
    rw [survey_of_unreadable hr hms] at h
    obtain ⟨rfl, rfl⟩ := h.eq_of_lacking
    rw [ask_of_ok hr, Ends, ht.unreadable hms]
    exact .done _
  | members ns r ms hr hms ih =>
    rw [survey_of_members hr hms] at h
    rw [ask_of_ok hr]
    exact ht.members_ends hms (h.eachEnds fun m hm _ _ _ => ih m hm)

theorem ends_of_survey (ht : reg.Traverses verb proceeds good) {s : Survey}
    (hs : reg.survey ns r = s) {events : List Event} {out : Option Failure}
    (h : s.Walks (Leaf.ask verb) good events out) : (reg.ask verb ns r).Ends good events out :=
  ht.ends (hs ▸ h)

/-- Only a survey without a lack lets a verb proceed. -/
theorem complete (ht : reg.Traverses verb proceeds good)
    (h : (reg.ask verb ns r).MayCome proceeds) :
    (reg.survey ns r).lack = none := by
  induction ns, r using nested_induction reg with
  | lacking ns r f hr =>
    obtain ⟨events, y, hrun, -⟩ := h
    rw [ask, hr] at hrun
    cases (Program.runs_done_iff.1 hrun).2
  | remote ns r x hr =>
    rw [survey_of_remote hr]
    rfl
  | unreadable ns r f hr hms =>
    obtain ⟨events, y, hrun, -⟩ := h
    rw [ask_of_ok hr, ht.unreadable hms] at hrun
    cases (Program.runs_done_iff.1 hrun).2
  | members ns r ms hr hms ih =>
    rw [ask_of_ok hr] at h
    rw [survey_of_members hr hms, Survey.lack_join_eq_none_iff]
    intro s hs
    obtain ⟨m, hm, rfl⟩ := List.mem_map.1 hs
    exact ih m hm (ht.members_come hms h m hm)

/-- Nothing is asked for but the leaves of the survey. -/
theorem asks (ht : reg.Traverses verb proceeds good) {P : Leaf → Handler → Errand → Prop}
    (hP : ∀ l : Leaf, (l.ask verb).run.Asks (P l)) (ns : Option String) (r : Resource) :
    (reg.ask verb ns r).run.Asks fun h e => ∃ l ∈ (reg.survey ns r).leaves, P l h e := by
  induction ns, r using nested_induction reg with
  | lacking ns r f hr =>
    rw [ask, hr]
    exact Program.asks_done _
  | remote ns r x hr =>
    rw [survey_of_remote hr, ask_of_ok hr]
    exact (hP ⟨x, ns, r⟩).mono fun h e he => ⟨_, List.mem_singleton_self _, he⟩
  | unreadable ns r f hr hms =>
    rw [ask_of_ok hr, ht.unreadable hms]
    exact Program.asks_done _
  | members ns r ms hr hms ih =>
    rw [survey_of_members hr hms, ask_of_ok hr]
    exact ht.members_asks hms (Survey.asksUpTo_join ih fun m _ hcome => ht.complete hcome)

end Traverses

end Registry

/-! ## Creating, replacing and deleting -/

/-- The resource has a JSON form. -/
def Resource.Writable (r : Resource) : Prop := ∃ j, r.toJson? = some j

theorem Resource.withMembers_of_writable (r : Resource) {ms : List Resource}
    (h : ∀ m ∈ ms, m.Writable) : ∃ l, r.withMembers ms = .ok l ∧ l.Writable := by
  obtain ⟨items, hitems⟩ := exists_items h
  exact ⟨_, withMembers_of_written r hitems, _, rfl⟩

namespace Handler

open Rollout.Action

variable {reg : Registry}

/-- Asks for a resource to be created, without a version. -/
def creating (h : Handler) (ns : Option String) (r : Resource) : Action Resource :=
  h.create ns (r.withVersion none)

def deleting (options : DeleteOptions) (h : Handler) (ns : Option String) (r : Resource) :
    Action Bool := h.delete ns options r

/-- A verb that puts what the members come to into the container traverses containers. -/
theorem traverses_of_mapM {verb : Handler → Option String → Resource → Action Resource}
    (container : Resource → Resource)
    (hverb : ∀ ns r, verb (.members reg) ns r = (do
      let ms ← Action.ofExcept r.members
      let ys ← ms.mapM (forMember reg ns verb)
      Action.ofExcept ((container r).withMembers ys))) :
    reg.Traverses verb (fun _ => True) Resource.Writable where
  unreadable h := by
    rw [hverb, h]
    rfl
  members_ends {ns r ms events out} hms h := by
    rw [hverb, hms, ofExcept_bind]
    cases out with
    | none =>
      obtain ⟨ys, hruns, hys⟩ := h
      obtain ⟨l, hl, hwritable⟩ := (container r).withMembers_of_writable hys
      exact ⟨l, runs_bind_ok_iff.2 ⟨events, [], ys, (List.append_nil _).symm,
        runs_mapM_ok_iff.2 hruns, runs_ofExcept_iff.2 ⟨rfl, hl.symm⟩⟩, hwritable⟩
    | some e =>
      obtain ⟨ys, hruns, -⟩ := h
      exact runs_bind_error_iff.2 (.inl (runs_mapM_error_iff.2 ⟨ys, hruns⟩))
  members_asks hms h := by
    rw [hverb, hms, ofExcept_bind]
    exact asks_bind (asks_mapM_upTo h) fun _ => Program.asks_done _
  members_come hms h m hm := by
    rw [hverb, hms, ofExcept_bind] at h
    obtain ⟨events, y, hrun, -⟩ := h
    obtain ⟨first, rest, ys, -, hruns, -⟩ := runs_bind_ok_iff.1 hrun
    obtain ⟨z, -, part, -, hpart⟩ := (runs_mapM_ok_iff.1 hruns).exists_of_mem_left hm
    exact ⟨part, z, hpart, trivial⟩

theorem traverses_creating (reg : Registry) :
    reg.Traverses creating (fun _ => True) Resource.Writable :=
  traverses_of_mapM (·.withVersion none) fun ns r => create_members reg ns (r.withVersion none)

theorem traverses_replace (reg : Registry) :
    reg.Traverses replace (fun _ => True) Resource.Writable :=
  traverses_of_mapM id fun ns r => replace_members reg ns r

theorem traverses_deleting (reg : Registry) (options : DeleteOptions) :
    reg.Traverses (deleting options) (· = true) (· = true) where
  unreadable h := by
    rw [deleting, delete_members, h]
    rfl
  members_ends {ns r ms events out} hms h := by
    rw [deleting, delete_members, hms, ofExcept_bind]
    cases out with
    | none => exact ⟨true, runs_allM_true_iff.2 h, rfl⟩
    | some e =>
      obtain ⟨ys, hruns, hys⟩ := h
      exact runs_allM_error hruns hys
  members_asks hms h := by
    rw [deleting, delete_members, hms, ofExcept_bind]
    exact asks_allM_upTo h
  members_come hms h m hm := by
    rw [deleting, delete_members, hms, ofExcept_bind] at h
    obtain ⟨events, _, hrun, rfl⟩ := h
    obtain ⟨ys, hruns, hys⟩ := runs_allM_true_iff.1 hrun
    obtain ⟨z, hz, part, -, hpart⟩ := hruns.exists_of_mem_left hm
    exact ⟨part, z, hpart, hys z hz⟩

end Handler

end Rollout
