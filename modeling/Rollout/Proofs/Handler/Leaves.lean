/-
  What is inside a resource, in the order in which it is worked through.

  The handlers of containers work through the members one after the other, and look up the handler
  of a member when its turn has come. `Registry.survey` tells beforehand what they come across: the
  leaves, each with its remote and the namespace in which it is asked for, up to the first thing
  that cannot be handled. A survey is cut short by whatever has no handler, at any depth
  (`survey_lack_ne_none`), and what cuts it short is such a thing, or a container whose members
  cannot be read (`exists_of_survey_lack`).
-/
import Rollout.Proofs.Handler.Members
import Rollout.Proofs.Registry

namespace Rollout

/-! ## Surveys -/

/-- A resource that a remote looks after, in the namespace in which it is asked for. -/
structure Leaf where
  remote : Remote
  ns : Option String
  resource : Resource

/-- What is found in order: the leaves up to the first thing that cannot be handled, and why it
cannot. -/
structure Survey where
  leaves : List Leaf
  lack : Option Failure

namespace Survey

variable {s t : Survey} {l : Leaf} {f : Failure}

/-- What cannot be handled. -/
def lacking (f : Failure) : Survey := ⟨[], some f⟩

def single (l : Leaf) : Survey := ⟨[l], none⟩

/-- One survey after the other. Behind a lack nothing is found. -/
def append (s t : Survey) : Survey :=
  match s.lack with
  | some _ => s
  | none => ⟨s.leaves ++ t.leaves, t.lack⟩

/-- Surveys one after the other. -/
def join (ss : List Survey) : Survey := ss.foldr append ⟨[], none⟩

theorem append_of_lack (h : s.lack = some f) (t : Survey) : s.append t = s := by
  rw [append, h]

theorem append_of_complete (h : s.lack = none) (t : Survey) :
    s.append t = ⟨s.leaves ++ t.leaves, t.lack⟩ := by
  rw [append, h]

@[simp] theorem join_nil : join [] = ⟨[], none⟩ := rfl

@[simp] theorem join_cons (s : Survey) (ss : List Survey) :
    join (s :: ss) = s.append (join ss) := rfl

theorem lack_append_eq_none_iff : (s.append t).lack = none ↔ s.lack = none ∧ t.lack = none := by
  cases hs : s.lack with
  | some f => rw [append_of_lack hs, hs]; simp
  | none => rw [append_of_complete hs]; simp

theorem lack_join_eq_none_iff {ss : List Survey} :
    (join ss).lack = none ↔ ∀ s ∈ ss, s.lack = none := by
  induction ss with
  | nil => simp
  | cons s ss ih => rw [join_cons, lack_append_eq_none_iff, ih, List.forall_mem_cons]

/-- A lack among surveys is that of one of them. -/
theorem exists_of_lack_join {ss : List Survey} (h : (join ss).lack = some f) :
    ∃ s ∈ ss, s.lack = some f := by
  induction ss with
  | nil => cases h
  | cons s ss ih =>
    rw [join_cons] at h
    cases hs : s.lack with
    | some f' =>
      rw [append_of_lack hs] at h
      exact ⟨s, List.mem_cons_self, h⟩
    | none =>
      rw [append_of_complete hs] at h
      obtain ⟨t, ht, hf⟩ := ih h
      exact ⟨t, List.mem_cons_of_mem _ ht, hf⟩

theorem mem_leaves_append_left (h : l ∈ s.leaves) (t : Survey) : l ∈ (s.append t).leaves := by
  unfold append
  split
  · exact h
  · exact List.mem_append_left _ h

theorem exists_of_mem_join {ss : List Survey} (h : l ∈ (join ss).leaves) :
    ∃ s ∈ ss, l ∈ s.leaves := by
  induction ss with
  | nil => cases h
  | cons s ss ih =>
    rw [join_cons] at h
    cases hs : s.lack with
    | some f =>
      rw [append_of_lack hs] at h
      exact ⟨s, List.mem_cons_self, h⟩
    | none =>
      rw [append_of_complete hs] at h
      rcases List.mem_append.1 h with h | h
      · exact ⟨s, List.mem_cons_self, h⟩
      · obtain ⟨t, ht, hl⟩ := ih h
        exact ⟨t, List.mem_cons_of_mem _ ht, hl⟩

/-- Of surveys without a lack all leaves are found. -/
theorem leaves_join {ss : List Survey} (h : (join ss).lack = none) :
    (join ss).leaves = ss.flatMap leaves := by
  induction ss with
  | nil => rfl
  | cons s ss ih =>
    obtain ⟨hs, hss⟩ := lack_append_eq_none_iff.1 h
    rw [join_cons, append_of_complete hs, ih hss, List.flatMap_cons]

end Survey

/-! ## The survey of a resource -/

namespace Registry

/-- What the handler of `r` comes across when it is asked for `r` in the namespace `ns`. -/
def survey (reg : Registry) (ns : Option String) (r : Resource) : Survey :=
  match reg.resolveFor r with
  | .error f => .lacking f
  | .ok (.remote x) => .single ⟨x, ns, r⟩
  | .ok (.members _) =>
    match _h : r.members with
    | .error f => .lacking f
    | .ok ms => .join (ms.attach.map fun ⟨m, _⟩ => survey reg (m.nsWithin ns) m)
termination_by r.data.depth
decreasing_by exact Resource.depth_of_members_eq_ok (m := m) ‹_› ‹_›

/-- What is come across in resources that are asked for one after the other, each in its own
namespace. -/
def surveyAll (reg : Registry) (rs : List Resource) : Survey :=
  .join (rs.map fun r => reg.survey r.ns r)

variable {reg : Registry} {ns : Option String} {r : Resource} {f : Failure}

theorem survey_of_error (h : reg.resolveFor r = .error f) : reg.survey ns r = .lacking f := by
  rw [survey, h]

theorem survey_of_remote {x : Remote} (h : reg.resolveFor r = .ok (.remote x)) :
    reg.survey ns r = .single ⟨x, ns, r⟩ := by
  rw [survey, h]

theorem survey_of_unreadable (h : reg.resolveFor r = .ok (.members reg))
    (hms : r.members = .error f) : reg.survey ns r = .lacking f := by
  rw [survey, h]
  dsimp only
  split
  · next heq =>
    obtain rfl := Except.error.inj (hms.symm.trans heq)
    rfl
  · next heq => cases hms.symm.trans heq

theorem survey_of_members {ms : List Resource} (h : reg.resolveFor r = .ok (.members reg))
    (hms : r.members = .ok ms) :
    reg.survey ns r = .join (ms.map fun m => reg.survey (m.nsWithin ns) m) := by
  rw [survey, h]
  dsimp only
  split
  · next heq => cases hms.symm.trans heq
  · next heq =>
    obtain rfl := Except.ok.inj (hms.symm.trans heq)
    exact congrArg Survey.join (List.attach_map_val (f := fun m => reg.survey (m.nsWithin ns) m))

/-- What holds of whatever cannot be handled, of what a remote looks after, and of a container if it
holds of its members, holds of every resource. -/
theorem nested_induction (reg : Registry) {motive : Option String → Resource → Prop}
    (lacking : ∀ ns r f, reg.resolveFor r = .error f → motive ns r)
    (remote : ∀ ns r x, reg.resolveFor r = .ok (.remote x) → motive ns r)
    (unreadable : ∀ ns r f, reg.resolveFor r = .ok (.members reg) → r.members = .error f →
      motive ns r)
    (members : ∀ ns r ms, reg.resolveFor r = .ok (.members reg) → r.members = .ok ms →
      (∀ m ∈ ms, motive (m.nsWithin ns) m) → motive ns r)
    (ns : Option String) (r : Resource) : motive ns r := by
  cases hr : reg.resolveFor r with
  | error f => exact lacking ns r f hr
  | ok h =>
    cases h with
    | remote x => exact remote ns r x hr
    | members reg' =>
      obtain rfl := (eq_of_resolveFor_members hr).2
      cases hms : r.members with
      | error f => exact unreadable ns r f hr hms
      | ok ms =>
        exact members ns r ms hr hms fun m hm =>
          nested_induction reg' lacking remote unreadable members (m.nsWithin ns) m
termination_by r.data.depth
decreasing_by exact Resource.depth_of_members_eq_ok hms hm

/-! ## What cuts a survey short -/

/-- Something inside `r`, or `r` itself, on the way of the handlers that work through members. -/
inductive Holds (reg : Registry) : Resource → Resource → Prop where
  | here (r : Resource) : Holds reg r r
  | inside {r m x : Resource} {ms : List Resource} (hr : reg.resolveFor r = .ok (.members reg))
      (hms : r.members = .ok ms) (hm : m ∈ ms) (h : Holds reg m x) : Holds reg r x

/-- A survey is cut short by whatever has no handler. -/
theorem survey_lack_ne_none {x : Resource} (h : reg.Holds r x) (lacks : reg.Lacks x)
    (ns : Option String) : (reg.survey ns r).lack ≠ none := by
  induction h generalizing ns with
  | here r =>
    rw [survey_of_error (resolveFor_eq_error_iff.2 ⟨lacks, rfl⟩)]
    exact nofun
  | @inside r m x ms hr hms hm _ ih =>
    rw [survey_of_members hr hms, Ne, Survey.lack_join_eq_none_iff]
    exact fun complete => ih lacks (m.nsWithin ns) (complete _ (List.mem_map_of_mem hm))

theorem not_lacks_of_complete (h : (reg.survey ns r).lack = none) : ¬ reg.Lacks r :=
  fun lacks => survey_lack_ne_none (.here r) lacks ns h

/-- What cuts a survey short has no handler, or is a container whose members cannot be read. -/
theorem exists_of_survey_lack (h : (reg.survey ns r).lack = some f) : ∃ x, reg.Holds r x ∧
    (reg.Lacks x ∧ f = lackOf x ∨
      reg.resolveFor x = .ok (.members reg) ∧ x.members = .error f) := by
  induction ns, r using nested_induction reg with
  | lacking ns r f' hr =>
    rw [survey_of_error hr] at h
    obtain rfl := Option.some.inj h
    exact ⟨r, .here r, .inl (resolveFor_eq_error_iff.1 hr)⟩
  | remote ns r x hr =>
    rw [survey_of_remote hr] at h
    cases h
  | unreadable ns r f' hr hms =>
    rw [survey_of_unreadable hr hms] at h
    obtain rfl := Option.some.inj h
    exact ⟨r, .here r, .inr ⟨hr, hms⟩⟩
  | members ns r ms hr hms ih =>
    rw [survey_of_members hr hms] at h
    obtain ⟨s, hs, hf⟩ := Survey.exists_of_lack_join h
    obtain ⟨m, hm, rfl⟩ := List.mem_map.1 hs
    obtain ⟨x, hx, hlack⟩ := ih m hm hf
    exact ⟨x, .inside hr hms hm hx, hlack⟩

end Registry

end Rollout
