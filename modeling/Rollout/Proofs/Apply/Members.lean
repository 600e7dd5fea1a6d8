/-
  The members of a container are applied one after the other.

  Nothing is asked for if a member has no handler. Otherwise each member is created, and a conflict
  is resolved for the member as a whole, containers included. What is asked for in doing so are the
  leaves of the member (`asks_createOrReplaceMember`). A member of which something lacks cannot be
  applied (`complete_of_createOrReplaceMember`), and a conflict is that of a leaf, which was met
  while leaves were created (`exists_of_conflict`).
-/
import Rollout.Proofs.Handler.Leafwise

namespace Rollout

/-- The errand is for the leaf, asked of its remote, in the namespace of the leaf. -/
def Leaf.Own (l : Leaf) (h : Handler) (e : Errand) : Prop :=
  Errand.For l.resource (.remote l.remote) l.ns h e

/-- The errand is to create the leaf. -/
def Leaf.Creates (l : Leaf) (h : Handler) (e : Errand) : Prop :=
  h = .remote l.remote ∧ e = .change (.create l.ns (l.resource.withVersion none))

theorem Leaf.Creates.own {l : Leaf} {h : Handler} {e : Errand} (he : l.Creates h e) :
    l.Own h e := by
  obtain ⟨rfl, rfl⟩ := he
  exact ⟨rfl, rfl, rfl⟩

namespace Apply

open Rollout.Action Handler Registry

variable {reg : Registry} {o : ApplyOptions} {m c : Resource} {ms : List Resource}
  {ns : Option String}

/-! ## What members are asked for -/

theorem asks_creating (reg : Registry) (ns : Option String) (r : Resource) :
    (reg.ask creating ns r).run.Asks fun h e => ∃ l ∈ (reg.survey ns r).leaves, l.Creates h e :=
  (traverses_creating reg).asks
    (fun _ => Program.asks_errand (e := .change (.create _ _)) ⟨rfl, rfl⟩) ns r

theorem asks_replace (reg : Registry) (ns : Option String) (r : Resource) :
    (reg.ask Handler.replace ns r).run.Asks fun h e =>
      ∃ l ∈ (reg.survey ns r).leaves, l.Own h e :=
  (traverses_replace reg).asks
    (fun _ => Program.asks_errand (e := .change (.replace _ _)) ⟨rfl, rfl, rfl⟩) ns r

theorem asks_deleting (reg : Registry) (options : DeleteOptions) (ns : Option String)
    (r : Resource) : (reg.ask (deleting options) ns r).run.Asks fun h e =>
      ∃ l ∈ (reg.survey ns r).leaves, l.Own h e :=
  (traverses_deleting reg options).asks
    (fun _ => Program.asks_errand (e := .change (.delete _ _ _)) ⟨rfl, rfl, rfl⟩) ns r

/-- A container in another version holds the same leaves; a leaf goes with its version. -/
theorem survey_withVersion (reg : Registry) (ns : Option String) (r : Resource)
    (v : Option String) : reg.survey ns (r.withVersion v) = reg.survey ns r ∨
      ∃ x, reg.survey ns r = .single ⟨x, ns, r⟩ ∧
        reg.survey ns (r.withVersion v) = .single ⟨x, ns, r.withVersion v⟩ := by
  have same : reg.resolveFor (r.withVersion v) = reg.resolveFor r := rfl
  cases hr : reg.resolveFor r with
  | error f => exact .inl ((survey_of_error (same.trans hr)).trans (survey_of_error hr).symm)
  | ok h =>
    cases h with
    | remote x => exact .inr ⟨x, survey_of_remote hr, survey_of_remote (same.trans hr)⟩
    | members reg' =>
      obtain rfl := (eq_of_resolveFor_members hr).2
      cases hms : r.members with
      | error f =>
        exact .inl ((survey_of_unreadable (same.trans hr) hms).trans
          (survey_of_unreadable hr hms).symm)
      | ok ms =>
        exact .inl ((survey_of_members (same.trans hr) hms).trans (survey_of_members hr hms).symm)

/-- The verbs that are asked for while a member is applied. -/
def IsVerbFor (o : ApplyOptions) (m : Resource) (d : Demand) : Prop :=
  d = .create m.ns (m.withVersion none) ∨ d = .replace m.ns m ∨
    d = .delete m.ns o.deletion (m.withVersion none)

theorem Resolution.isVerbFor {exchanges : List Exchange} {result : Except Failure Resource}
    (h : Resolution o m exchanges result) : ∀ d ∈ verbs exchanges, IsVerbFor o m d := by
  cases h with
  | replaced => exact List.forall_mem_singleton.2 (.inr (.inl rfl))
  | notDeleted | absent => exact List.forall_mem_singleton.2 (.inr (.inr rfl))
  | recreated =>
    exact List.forall_mem_cons.2 ⟨.inr (.inr rfl), List.forall_mem_singleton.2 (.inl rfl)⟩

theorem Dialogue.isVerbFor {exchanges : List Exchange} {result : Except Failure Resource}
    (h : Dialogue o m exchanges result) : ∀ d ∈ verbs exchanges, IsVerbFor o m d := by
  cases h with
  | settled => exact List.forall_mem_singleton.2 (.inl rfl)
  | conflict _ h => exact List.forall_mem_cons.2 ⟨.inl rfl, h.isVerbFor⟩

theorem IsVerbFor.asks {handler : Handler} {d : Demand} (h : IsVerbFor o m d)
    (hr : reg.resolveFor m = .ok handler) : (handler.carryOut (.change d)).Asks fun h e =>
      ∃ l ∈ (reg.survey m.ns m).leaves, l.Own h e := by
  rcases h with rfl | rfl | rfl
  · have asks := asks_creating reg m.ns m
    rw [ask_of_ok hr] at asks
    exact asks.mono fun h e ⟨l, hl, he⟩ => ⟨l, hl, he.own⟩
  · have asks := asks_replace reg m.ns m
    rwa [ask_of_ok hr] at asks
  · have asks := asks_deleting reg o.deletion m.ns (m.withVersion none)
    rw [ask_of_ok (show reg.resolveFor (m.withVersion none) = _ from hr)] at asks
    refine asks.mono fun h e ⟨l, hl, he⟩ => ?_
    rcases survey_withVersion reg m.ns m none with same | ⟨x, hx, hx'⟩
    · exact ⟨l, same ▸ hl, he⟩
    · rw [hx'] at hl
      obtain rfl := List.mem_singleton.1 hl
      rw [hx]
      exact ⟨_, List.mem_singleton_self _, he⟩

/-- Verbs for a member come down to verbs for its leaves. -/
theorem asked_of_conducts {handler : Handler} {exchanges : List Exchange} {events : List Event}
    (hr : reg.resolveFor m = .ok handler) (hverbs : ∀ d ∈ verbs exchanges, IsVerbFor o m d)
    (hc : handler.Conducts exchanges events) :
    Asked (fun h e => ∃ l ∈ (reg.survey m.ns m).leaves, l.Own h e) events := by
  have asked : Asked (fun h e => h = handler ∧ ∃ d, e = .change d ∧ IsVerbFor o m d) events :=
    hc.asked fun d hd => ⟨rfl, d, rfl, hverbs d hd⟩
  refine asked.refine ?_
  rintro _ _ ⟨rfl, d, rfl, hd⟩
  exact hd.asks hr

/-- Applies a member of a container. -/
def createOrReplaceMember (reg : Registry) (o : ApplyOptions) (m : Resource) : Action Resource := do
  let h ← Action.ofExcept (reg.resolveFor m)
  createOrReplace h o m

/-- All that is asked for while a member is applied is for its leaves. -/
theorem asks_createOrReplaceMember (reg : Registry) (o : ApplyOptions) (m : Resource) :
    (createOrReplaceMember reg o m).run.Asks fun h e =>
      ∃ l ∈ (reg.survey m.ns m).leaves, l.Own h e := by
  refine asks_ofExcept_bind fun handler hr events result hrun => ?_
  obtain ⟨exchanges, hd, hc⟩ := (runs_createOrReplace_iff handler o m events result).1 hrun
  exact asked_of_conducts hr hd.isVerbFor hc

/-! ## How members end -/

/-- What can be applied lacks nothing. -/
theorem complete_of_createOrReplaceMember
    (h : (createOrReplaceMember reg o m).MayCome fun _ => True) :
    (reg.survey m.ns m).lack = none := by
  obtain ⟨events, state, hrun, -⟩ := h
  cases hr : reg.resolveFor m with
  | error f =>
    rw [createOrReplaceMember, hr] at hrun
    cases (Program.runs_done_iff.1 hrun).2
  | ok handler =>
    rw [createOrReplaceMember, hr, ofExcept_bind] at hrun
    obtain ⟨exchanges, hd, hc⟩ := (runs_createOrReplace_iff handler o m events _).1 hrun
    -- The last verb of the dialogue, a create or a replace, has succeeded.
    have created {part : List Event} (hpart : (creating handler m.ns m).run.Runs part (.ok state)) :
        (reg.survey m.ns m).lack = none :=
      (traverses_creating reg).complete ⟨part, state, by rwa [ask_of_ok hr], trivial⟩
    cases hd with
    | settled => exact created (conducts_singleton_iff.1 hc)
    | conflict hf hd =>
      obtain ⟨first, rest, rfl, -, hrest⟩ := conducts_cons_iff.1 hc
      cases hd with
      | replaced =>
        have replaced : (Handler.replace handler m.ns m).run.Runs rest (.ok state) :=
          conducts_singleton_iff.1 hrest
        exact (traverses_replace reg).complete ⟨rest, state, by rwa [ask_of_ok hr], trivial⟩
      | recreated =>
        obtain ⟨second, last, rfl, -, hlast⟩ := conducts_cons_iff.1 hrest
        exact created (conducts_singleton_iff.1 hlast)

/-- A create that succeeds is all that is asked. -/
theorem runs_createOrReplace_of_ok {h : Handler} {r created : Resource} {events : List Event}
    (hcreate : (creating h r.ns r).run.Runs events (.ok created)) :
    (createOrReplace h o r).run.Runs events (.ok created) := by
  have settled : ∀ f : Failure, Except.ok created = .error f → ¬ f.FromConflict :=
    fun _ heq => by cases heq
  exact (runs_createOrReplace_iff _ _ _ _ _).2
    ⟨_, .settled _ settled, conducts_singleton_iff.2 hcreate⟩

/-- A member is applied like it is created, unless there is a conflict. -/
theorem ends_createOrReplaceMember {events : List Event} {out : Option Failure}
    (h : (reg.survey m.ns m).Walks (Leaf.ask creating) Resource.Writable events out)
    (hout : ∀ f, out = some f → ¬ f.FromConflict) :
    (createOrReplaceMember reg o m).Ends Resource.Writable events out := by
  have created := (traverses_creating reg).ends h
  cases hr : reg.resolveFor m with
  | error f =>
    rw [Registry.ask, hr] at created
    rwa [createOrReplaceMember, hr]
  | ok handler =>
    rw [ask_of_ok hr] at created
    rw [createOrReplaceMember, hr, ofExcept_bind]
    cases out with
    | none =>
      obtain ⟨y, hrun, hy⟩ := created
      exact ⟨y, runs_createOrReplace_of_ok hrun, hy⟩
    | some f =>
      refine (runs_createOrReplace_iff _ _ _ _ _).2
        ⟨_, .settled _ fun f' heq => ?_, conducts_singleton_iff.2 created⟩
      obtain rfl := Except.error.inj heq
      exact hout f rfl

/-! ## Conflicts -/

/-- What is lacking is no conflict. -/
theorem not_fromConflict_lackOf (r : Resource) : ¬ (lackOf r).FromConflict := by
  unfold lackOf
  split <;> exact nofun

theorem not_fromConflict_of_members {f : Failure} (h : c.members = .error f) :
    ¬ f.FromConflict := by
  unfold Resource.members Resource.members? at h
  cases hraw : c.rawMembers? with
  | none =>
    rw [hraw] at h
    obtain rfl := Except.error.inj h
    exact nofun
  | some items =>
    rw [hraw, Option.map_some, Option.getD_some] at h
    split at h
    · cases h
    · obtain rfl := Except.error.inj h
      exact nofun

theorem not_fromConflict_of_withMembers {f : Failure} (h : c.withMembers ms = .error f) :
    ¬ f.FromConflict := by
  unfold Resource.withMembers at h
  split at h
  · obtain rfl := Except.error.inj h
    exact nofun
  · split at h <;> cases h

theorem not_fromConflict_of_survey {r : Resource} {f : Failure}
    (h : (reg.survey ns r).lack = some f) : ¬ f.FromConflict := by
  obtain ⟨x, -, ⟨-, rfl⟩ | ⟨-, hms⟩⟩ := exists_of_survey_lack h
  · exact not_fromConflict_lackOf x
  · exact not_fromConflict_of_members hms

/-- A conflict in creating what lacks nothing is that of a leaf, and nothing was asked for before
but to create leaves. -/
theorem exists_of_conflict {r : Resource} {events : List Event} {f : Failure}
    (complete : (reg.survey ns r).lack = none)
    (hrun : (reg.ask creating ns r).run.Runs events (.error f)) (hf : f.FromConflict) :
    ∃ l ∈ (reg.survey ns r).leaves, ∃ first last, events = first ++ last ∧
      Asked (fun h e => ∃ l ∈ (reg.survey ns r).leaves, l.Creates h e) first ∧
      (l.ask creating).run.Runs last (.error f) := by
  induction ns, r using nested_induction reg generalizing events with
  | lacking ns r f' hr =>
    rw [survey_of_error hr] at complete
    cases complete
  | remote ns r x hr =>
    rw [ask_of_ok hr] at hrun
    rw [survey_of_remote hr]
    exact ⟨_, List.mem_singleton_self _, [], events, rfl, .nil, hrun⟩
  | unreadable ns r f' hr hms =>
    rw [survey_of_unreadable hr hms] at complete
    cases complete
  | members ns r ms hr hms ih =>
    rw [survey_of_members hr hms] at complete ⊢
    have leaves := Survey.leaves_join complete
    rw [Survey.lack_join_eq_none_iff] at complete
    -- The leaves of each member are among all leaves.
    have part (m : Resource) (hm : m ∈ ms) (l : Leaf)
        (hl : l ∈ (reg.survey (m.nsWithin ns) m).leaves) :
        l ∈ (Survey.join (ms.map fun m => reg.survey (m.nsWithin ns) m)).leaves := by
      rw [leaves]
      exact List.mem_flatMap.2 ⟨_, List.mem_map_of_mem hm, hl⟩
    rw [ask_of_ok hr] at hrun
    have hrun : ((Handler.members reg).create ns (r.withVersion none)).run.Runs events (.error f) :=
      hrun
    rw [create_members, show (r.withVersion none).members = .ok ms from hms, ofExcept_bind] at hrun
    rcases runs_bind_error_iff.1 hrun with hrun | ⟨first, rest, ys, -, -, hput⟩
    · obtain ⟨ys, before, m, after, first, last, rfl, rfl, hbefore, hlast⟩ :=
        runs_mapM_error_iff.1 hrun
      have hm : m ∈ before ++ m :: after := List.mem_append_right _ List.mem_cons_self
      obtain ⟨l, hl, first', last', rfl, hfirst', hlast'⟩ :=
        ih m hm (complete _ (List.mem_map_of_mem hm)) hlast
      refine ⟨l, part m hm l hl, first ++ first', last', (List.append_assoc _ _ _).symm,
        (hbefore.asked fun y hy => ?_).append (hfirst'.refine fun h e he => ?_), hlast'⟩
      · have hy : y ∈ before ++ m :: after := List.mem_append_left _ hy
        exact (asks_creating reg (y.nsWithin ns) y).mono fun h e ⟨l, hl, he⟩ =>
          ⟨l, part y hy l hl, he⟩
      · obtain ⟨l, hl, he⟩ := he
        exact Program.asks_errand ⟨l, part m hm l hl, he⟩
    · exact absurd hf (not_fromConflict_of_withMembers (runs_ofExcept_iff.1 hput).2.symm)

/-! ## All members -/

theorem mapM_zip_handlers (o : ApplyOptions) {handlers : List Handler}
    (h : ms.mapM reg.resolveFor = .ok handlers) :
    ((handlers.zip ms).mapM fun (h, m) => createOrReplace h o m) =
      ms.mapM (createOrReplaceMember reg o) := by
  induction ms generalizing handlers with
  | nil =>
    obtain rfl := Except.ok.inj h
    rfl
  | cons m ms ih =>
    obtain ⟨h', handlers, hr, hrest, rfl⟩ := mapM_eq_ok_cons_iff.1 h
    rw [List.zip_cons_cons, List.mapM_cons, List.mapM_cons, ih hrest, createOrReplaceMember, hr]
    rfl

/-- If all members have handlers, they are applied in turn and put back into the container. -/
theorem createOrReplaceMembers_eq (hms : c.members = .ok ms) (resolved : ∀ m ∈ ms, ¬ reg.Lacks m) :
    createOrReplaceMembers reg o c = (do
      let applied ← ms.mapM (createOrReplaceMember reg o)
      Action.ofExcept (c.withMembers applied)) := by
  obtain ⟨handlers, hhandlers⟩ :=
    exists_mapM_eq_ok fun m hm => exists_resolveFor_iff.2 (resolved m hm)
  rw [createOrReplaceMembers, hms, ofExcept_bind, hhandlers, ofExcept_bind,
    mapM_zip_handlers o hhandlers]

/-- Nothing is asked for if a member has no handler. The first such member decides the failure. -/
theorem createOrReplaceMembers_of_lacks (hms : c.members = .ok ms) (lacks : ∃ m ∈ ms, reg.Lacks m) :
    ∃ before m after, ms = before ++ m :: after ∧ (∀ y ∈ before, ¬ reg.Lacks y) ∧ reg.Lacks m ∧
      (createOrReplaceMembers reg o c).run = .done (.error (lackOf m)) := by
  obtain ⟨before, m, after, hsplit, hbefore, hm, hfails⟩ := failsFirst_of_lacks lacks
  refine ⟨before, m, after, hsplit, hbefore, hm, ?_⟩
  rw [createOrReplaceMembers, hms, ofExcept_bind, hfails]
  rfl

end Apply

end Rollout
