/-
  Errands: the verbs that handlers are asked for while something is carried out.

  `Program.Asks` says that a program makes no calls but those of errands of a certain kind: the
  calls of each of its runs are the calls of such errands, one errand after the other. What a
  program asks is put together from what its parts ask, and an errand gives way to those that its
  handler asks for in its turn (`Asked.refine`). So an errand to the handler of a container comes
  down to errands for its members (`asks_carryOut_members`), and, however deep the members are
  nested, to errands of remotes (`asks_carryOut`).
-/
import Rollout.Proofs.Apply.Dialogue
import Rollout.Proofs.Handler.Members
import Rollout.Proofs.Registry

namespace Rollout

/-! ## Errands -/

/-- A verb that is asked of a handler: one that changes a resource, or that reads it. -/
inductive Errand where
  | change (d : Demand)
  | reload (ns : Option String) (r : Resource)

namespace Demand

/-- The namespace in which the verb is asked. -/
def ns : Demand → Option String
  | .create ns _ | .replace ns _ | .delete ns _ _ => ns

/-- The resource that the verb is asked for. -/
def subject : Demand → Resource
  | .create _ r | .replace _ r | .delete _ _ r => r

end Demand

namespace Errand

/-- What a handler answers. -/
abbrev Answer : Errand → Type
  | .change d => d.Answer
  | .reload .. => Except Failure (Option Resource)

def ns : Errand → Option String
  | .change d => d.ns
  | .reload ns _ => ns

def subject : Errand → Resource
  | .change d => d.subject
  | .reload _ r => r

/-- The errand is for `r`, in whatever version. -/
def Concerns (e : Errand) (r : Resource) : Prop :=
  e.subject.withVersion none = r.withVersion none

end Errand

/-- How a handler carries out an errand. -/
def Handler.carryOut (h : Handler) : (e : Errand) → Program e.Answer
  | .change d => h.meet d
  | .reload ns r => (h.reload ns r).run

/-- The calls are those of errands that `P` allows, one after the other. -/
inductive Asked (P : Handler → Errand → Prop) : List Event → Prop where
  | nil : Asked P []
  | cons {h : Handler} {e : Errand} {answer : e.Answer} {first rest : List Event} (he : P h e)
      (hfirst : (h.carryOut e).Runs first answer) (hrest : Asked P rest) : Asked P (first ++ rest)

/-- In every run, the program makes no calls but those of errands that `P` allows. -/
def Program.Asks {α : Type} (p : Program α) (P : Handler → Errand → Prop) : Prop :=
  ∀ events a, p.Runs events a → Asked P events

variable {α β γ : Type} {P Q : Handler → Errand → Prop}

namespace Asked

theorem append {first rest : List Event} (hfirst : Asked P first) (hrest : Asked P rest) :
    Asked P (first ++ rest) := by
  induction hfirst with
  | nil => exact hrest
  | cons he hrun _ ih =>
    rw [List.append_assoc]
    exact .cons he hrun ih

/-- Errands give way to what their handlers ask for in their turn. -/
theorem refine {events : List Event} (h : Asked P events)
    (hP : ∀ h e, P h e → (h.carryOut e).Asks Q) : Asked Q events := by
  induction h with
  | nil => exact .nil
  | cons he hrun _ ih => exact (hP _ _ he _ _ hrun).append ih

end Asked

namespace Program

theorem asks_done (a : α) : (done a).Asks P := by
  intro events b h
  rw [(runs_done_iff.1 h).1]
  exact .nil

theorem Asks.bind {p : Program α} {f : α → Program β} (hp : p.Asks P) (hf : ∀ a, (f a).Asks P) :
    (p.bind f).Asks P := by
  intro events b h
  obtain ⟨first, rest, a, rfl, hfirst, hrest⟩ := runs_bind_iff.1 h
  exact (hp first a hfirst).append (hf a rest b hrest)

theorem Asks.refine {p : Program α} (h : p.Asks P)
    (hP : ∀ h e, P h e → (h.carryOut e).Asks Q) : p.Asks Q :=
  fun events a hrun => (h events a hrun).refine hP

/-- An errand asks for itself. -/
theorem asks_errand {h : Handler} {e : Errand} (he : P h e) : (h.carryOut e).Asks P := by
  intro events a hrun
  rw [← List.append_nil events]
  exact .cons he hrun .nil

theorem Asks.mono {p : Program α} (h : p.Asks P) (hP : ∀ h e, P h e → Q h e) : p.Asks Q :=
  h.refine fun h e he => asks_errand (hP h e he)

end Program

/-! ## Actions -/

namespace Action

open Program

theorem asks_bind {a : Action α} {f : α → Action β} (ha : a.run.Asks P)
    (hf : ∀ value, (f value).run.Asks P) : (a >>= f).run.Asks P := by
  rw [run_bind]
  refine ha.bind fun result => ?_
  cases result with
  | ok value => exact hf value
  | error f => exact asks_done _

theorem asks_ofExcept_bind {x : Except Failure α} {f : α → Action β}
    (hf : ∀ value, x = .ok value → (f value).run.Asks P) : (ofExcept x >>= f).run.Asks P := by
  cases x with
  | ok value => exact hf value rfl
  | error f => exact asks_done _

theorem asks_map {a : Action α} {f : α → β} (ha : a.run.Asks P) : (f <$> a).run.Asks P := by
  rw [map_eq_pure_bind]
  exact asks_bind ha fun _ => asks_done _

theorem asks_mapM {f : β → Action γ} {xs : List β} (h : ∀ x ∈ xs, (f x).run.Asks P) :
    (xs.mapM f).run.Asks P := by
  induction xs with
  | nil => exact asks_done _
  | cons x xs ih =>
    obtain ⟨hx, hxs⟩ := List.forall_mem_cons.1 h
    rw [List.mapM_cons]
    exact asks_bind hx fun _ => asks_bind (ih hxs) fun _ => asks_done _

theorem asks_allM {f : β → Action Bool} {xs : List β} (h : ∀ x ∈ xs, (f x).run.Asks P) :
    (xs.allM f).run.Asks P := by
  induction xs with
  | nil => exact asks_done _
  | cons x xs ih =>
    obtain ⟨hx, hxs⟩ := List.forall_mem_cons.1 h
    rw [List.allM_cons]
    refine asks_bind hx fun answer => ?_
    cases answer with
    | true => exact ih hxs
    | false => exact asks_done _

end Action

/-! ## Members -/

namespace Errand

/-- The errand is for `m`, asked of this handler in this namespace. -/
def For (m : Resource) (handler : Handler) (ns : Option String) (h : Handler) (e : Errand) : Prop :=
  h = handler ∧ e.Concerns m ∧ e.ns = ns

/-- The errand is for a member of `c`, asked of the handler of this member, in the namespace that
`ns` gives for it. -/
def OfMember (reg : Registry) (c : Resource) (ns : Resource → Option String) (h : Handler)
    (e : Errand) : Prop :=
  ∃ ms m, c.members = .ok ms ∧ m ∈ ms ∧ reg.resolveFor m = .ok h ∧ e.Concerns m ∧ e.ns = ns m

end Errand

variable {reg : Registry} {ns : Option String}

theorem asks_forMember {c m : Resource} {ms : List Resource}
    {verb : Handler → Option String → Resource → Action γ} (hms : c.members = .ok ms) (hm : m ∈ ms)
    (hverb : ∀ h, (verb h (m.nsWithin ns) m).run.Asks (Errand.For m h (m.nsWithin ns))) :
    (Handler.forMember reg ns verb m).run.Asks (Errand.OfMember reg c fun m => m.nsWithin ns) := by
  refine Action.asks_ofExcept_bind fun h hh => (hverb h).mono ?_
  rintro _ e ⟨rfl, he, hns⟩
  exact ⟨ms, m, hms, hm, hh, he, hns⟩

/-- A container passes an errand on to the handlers of its members, for each member in its own
namespace or else in that of the errand. -/
theorem Handler.asks_carryOut_members (reg : Registry) (e : Errand) :
    ((Handler.members reg).carryOut e).Asks
      (Errand.OfMember reg e.subject fun m => m.nsWithin e.ns) := by
  cases e with
  | change d =>
    cases d with
    | create ns r =>
      show ((members reg).create ns r).run.Asks _
      rw [create_members]
      refine Action.asks_ofExcept_bind fun ms hms =>
        Action.asks_bind (Action.asks_mapM fun m hm => ?_) fun _ => Program.asks_done _
      exact asks_forMember hms hm
        fun h => Program.asks_errand (e := .change (.create _ _)) ⟨rfl, rfl, rfl⟩
    | replace ns r =>
      show ((members reg).replace ns r).run.Asks _
      rw [replace_members]
      refine Action.asks_ofExcept_bind fun ms hms =>
        Action.asks_bind (Action.asks_mapM fun m hm => ?_) fun _ => Program.asks_done _
      exact asks_forMember hms hm
        fun h => Program.asks_errand (e := .change (.replace _ _)) ⟨rfl, rfl, rfl⟩
    | delete ns options r =>
      show ((members reg).delete ns options r).run.Asks _
      rw [delete_members]
      refine Action.asks_ofExcept_bind fun ms hms => Action.asks_allM fun m hm => ?_
      exact asks_forMember hms hm
        fun h => Program.asks_errand (e := .change (.delete _ _ _)) ⟨rfl, rfl, rfl⟩
  | reload ns r =>
    show ((members reg).reload ns r).run.Asks _
    rw [reload_members]
    refine Action.asks_ofExcept_bind fun ms hms => Action.asks_bind
      (Action.asks_mapM fun m hm => ?_) fun _ => Action.asks_map (Program.asks_done _)
    exact asks_forMember hms hm fun h => Program.asks_errand (e := .reload _ _) ⟨rfl, rfl, rfl⟩

/-! ## Leaves -/

/-- A remote looks after a resource inside `r`, or after `r` itself. The path leads there: the
members on the way, the outermost first. -/
inductive Registry.Reaches (reg : Registry) :
    Resource → List Resource → Resource → Remote → Prop where
  | here {r : Resource} {x : Remote} (h : reg.resolveFor r = .ok (.remote x)) : Reaches reg r [] r x
  | inside {r m leaf : Resource} {ms path : List Resource} {x : Remote}
      (hr : reg.resolveFor r = .ok (.members reg)) (hms : r.members = .ok ms) (hm : m ∈ ms)
      (h : Reaches reg m path leaf x) : Reaches reg r (m :: path) leaf x

/-- The namespace of the innermost resource on the path that has one, or else `ns`. -/
def Resource.nsAlong (path : List Resource) (ns : Option String) : Option String :=
  path.foldl (fun ns m => m.nsWithin ns) ns

/-- The errand is for a resource inside `r`, or for `r`, and asked of the remote that looks after
it, in the namespace of the innermost resource on the way that has one, or else in `ns`. -/
def Errand.OfLeaf (reg : Registry) (r : Resource) (ns : Option String) (h : Handler) (e : Errand) :
    Prop :=
  ∃ path leaf x, reg.Reaches r path leaf x ∧
    Errand.For leaf (.remote x) (Resource.nsAlong path ns) h e

theorem Errand.Concerns.members {e : Errand} {r : Resource} {ms : List Resource} (h : e.Concerns r)
    (hms : e.subject.members = .ok ms) : r.members = .ok ms := by
  have same : (e.subject.withVersion none).rawMembers? = (r.withVersion none).rawMembers? :=
    congrArg Resource.rawMembers? h
  obtain ⟨items, hraw, hitems⟩ := Resource.members_eq_ok_iff.1 hms
  exact Resource.members_eq_ok_iff.2 ⟨items, same.symm.trans hraw, hitems⟩

/-- However deep the resources inside `r` are nested, an errand for `r` comes down to errands for
these resources, asked of the remotes that look after them. -/
theorem Handler.asks_carryOut {reg : Registry} {h : Handler} {e : Errand} {r : Resource}
    (hr : reg.resolveFor r = .ok h) (he : e.Concerns r) :
    (h.carryOut e).Asks (Errand.OfLeaf reg r e.ns) := by
  cases h with
  | remote x => exact Program.asks_errand ⟨[], r, x, .here hr, rfl, he, rfl⟩
  | members reg' =>
    obtain rfl := (Registry.eq_of_resolveFor_members hr).2
    refine (asks_carryOut_members reg' e).refine ?_
    rintro h' e' ⟨ms, m, hopened, hm, hh', he', hns'⟩
    have hms := he.members hopened
    refine (Handler.asks_carryOut hh' he').mono ?_
    rintro h'' e'' ⟨path, leaf, x, hreaches, hfor⟩
    rw [hns'] at hfor
    exact ⟨m :: path, leaf, x, .inside hr hms hm hreaches, hfor⟩
termination_by r.data.depth
decreasing_by exact Resource.depth_of_members_eq_ok hms hm

/-! ## Creating or replacing -/

theorem Handler.Conducts.asked {h : Handler} {exchanges : List Exchange} {events : List Event}
    (hc : h.Conducts exchanges events)
    (hP : ∀ d ∈ Apply.verbs exchanges, P h (.change d)) : Asked P events := by
  induction hc with
  | nil => exact .nil
  | cons hfirst _ ih =>
    obtain ⟨hd, hrest⟩ := List.forall_mem_cons.1 hP
    exact .cons hd hfirst (ih hrest)

/-- All that is asked while a resource is created or replaced is for it, in its own namespace. -/
theorem Apply.asks_createOrReplace (h : Handler) (o : ApplyOptions) (r : Resource) :
    (createOrReplace h o r).run.Asks (Errand.For r h r.ns) := by
  intro events result hrun
  obtain ⟨exchanges, hd, hc⟩ := (runs_createOrReplace_iff h o r events result).1 hrun
  refine hc.asked fun d hmem => ?_
  cases hd with
  | settled =>
    obtain rfl := List.mem_singleton.1 hmem
    exact ⟨rfl, rfl, rfl⟩
  | conflict hf hd =>
    cases hd <;> simp only [verbs, List.map_cons, List.map_nil, List.mem_cons, List.not_mem_nil,
      or_false] at hmem
    all_goals
      rcases hmem with rfl | rfl | rfl
      all_goals exact ⟨rfl, rfl, rfl⟩

/-- All that is asked while the members of a container are applied is for one of them, asked of the
handler of this member, in the namespace that it has. -/
theorem Apply.asks_members (reg : Registry) (o : ApplyOptions) (r : Resource) :
    (createOrReplaceMembers reg o r).run.Asks (Errand.OfMember reg r Resource.ns) := by
  refine Action.asks_ofExcept_bind fun ms hms => Action.asks_ofExcept_bind fun handlers hhandlers =>
    Action.asks_bind (Action.asks_mapM fun ⟨h, m⟩ hmem => ?_) fun _ => Program.asks_done _
  refine (asks_createOrReplace h o m).mono ?_
  rintro _ e ⟨rfl, he, hns⟩
  exact ⟨ms, m, hms, (List.of_mem_zip hmem).2, of_mem_zip_of_mapM_eq_ok hhandlers hmem, he, hns⟩

end Rollout
