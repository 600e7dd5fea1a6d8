/-
  Whoever is registered for a resource is asked by every verb but one.

  If a remote is registered for the key of a resource, whatever its kind, the operation on the
  resource asks this remote for the resource after the pipeline when it deletes it, reads it,
  watches it and waits for it (`Honours`). It does so when it creates or replaces it, too, unless
  the resource that goes out is of a list kind. Then its members are applied instead, each by its
  own handler, and the remote that is registered for the list may never be asked
  (`createOrReplace_bypasses_lists`); and what holds no members cannot be applied at all.
-/
import Rollout.Proofs.Operation.Namespace
import Rollout.Proofs.Program.Confined

namespace Rollout

open Program (confinedTo_done)

variable {σ : Type}

/-! ## The calls of a remote -/

/-- The collaborator that a call goes to. -/
def Call.collaborator? : Call → Option String
  | .create id .. | .replace id .. | .delete id .. | .reload id .. | .watch id ..
  | .awaitReady id .. => some id
  | .request _ => none

namespace Remote

/-- The remote may make this call when it is asked for one of its verbs for `r`, in whatever
version, in the namespace `ns`. -/
inductive Makes (x : Remote) (ns : Option String) (r : Resource) (c : Call) : Prop where
  | change (d : Demand) (hns : d.ns = ns) (hr : d.subject.withVersion none = r.withVersion none)
      (h : ((Handler.remote x).meet d).Makes c)
  | reload (h : (x.reload ns r).run.Makes c)
  | watch (options : WatchOptions) (h : (x.watch ns r options).run.Makes c)
  | awaitReady (id : String) (limit : Duration) (hx : x = .collaborator id true)
      (hc : c = .awaitReady id ns r limit)

variable {x : Remote} {ns : Option String} {r : Resource}

theorem confinedTo_meet {d : Demand} (hns : d.ns = ns)
    (hr : d.subject.withVersion none = r.withVersion none) :
    ((Handler.remote x).meet d).ConfinedTo (x.Makes ns r) := fun _ h => .change d hns hr h

theorem confinedTo_reload : (x.reload ns r).run.ConfinedTo (x.Makes ns r) := fun _ h => .reload h

theorem confinedTo_watch (options : WatchOptions) :
    (x.watch ns r options).run.ConfinedTo (x.Makes ns r) := fun _ h => .watch options h

/-- All that is asked to create or replace a resource is asked for this resource. -/
theorem confinedTo_createOrReplace (o : ApplyOptions) :
    (Apply.createOrReplace (.remote x) o r).run.ConfinedTo (x.Makes r.ns r) := by
  have create : ((Handler.remote x).meet (.create r.ns (r.withVersion none))).ConfinedTo
      (x.Makes r.ns r) := confinedTo_meet rfl rfl
  rw [Apply.run_createOrReplace]
  refine create.bind fun _ answer _ => ?_
  cases answer with
  | ok created => exact confinedTo_done _
  | error f =>
    dsimp only
    split
    · rw [Apply.run_resolveConflict]
      split
      · have delete : ((Handler.remote x).meet
            (.delete r.ns o.deletion (r.withVersion none))).ConfinedTo (x.Makes r.ns r) :=
          confinedTo_meet rfl rfl
        refine delete.bind fun _ answer _ => ?_
        match answer with
        | .ok true => exact create
        | .ok false | .error f => exact confinedTo_done _
      · exact confinedTo_meet rfl rfl
    · exact confinedTo_done _

/-- The calls of a collaborator go to it. -/
theorem Makes.collaborator?_eq {id : String} {ownReadiness : Bool} {c : Call}
    (h : (collaborator id ownReadiness).Makes ns r c) : c.collaborator? = some id := by
  cases h with
  | change d _ _ h =>
    cases d
    all_goals
      rw [Handler.meet] at h
      simp only [Handler.create, Handler.replace, Handler.delete] at h
      rw [Program.makes_ask_iff.1 h]
      rfl
  | reload h | watch _ h =>
    rw [Program.makes_ask_iff.1 h]
    rfl
  | awaitReady id' limit hx hc =>
    obtain ⟨rfl, -⟩ := Remote.collaborator.inj hx
    rw [hc]
    rfl

/-! ### Waiting -/

/-- A wait that polls makes the calls of its readings. -/
theorem asksOnly_poll {P : Call → Prop} (t : WaitTerms) {reading : Action (Option Resource)}
    (h : reading.run.ConfinedTo P) (turns : Nat) :
    AsksOnly P fun o : Outside σ => t.poll o reading turns := by
  refine ((AsksOnly.repeated (fun delay => ?_) turns _).within t.limit).bind fun result => ?_
  · refine h.perform.bind fun answer => ?_
    cases answer with
    | error f => exact .const _
    | ok current => cases current.filter t.accepts <;> exact .const _
  · cases result <;> exact .const _

/-- A server that is followed is asked to read and to watch. -/
theorem asksOnly_follow (t : WaitTerms) (id : Option String) (k : ServedKind) (ns : Option String)
    (version : Option String) (turns : Nat) : AsksOnly ((served id k).Makes ns t.given)
      fun o : Outside σ => t.follow o k ns version turns := by
  have attempt (version : Option String) :
      (t.attempt k ns version).run.ConfinedTo ((served id k).Makes ns t.given) := by
    refine Action.confinedTo_bind ?_ fun start => ?_
    · cases version with
      | some v => exact confinedTo_done _
      | none => exact Action.confinedTo_map (confinedTo_reload (x := .served id k))
    · cases start with
      | inr r => exact confinedTo_done _
      | inl since =>
        exact Action.confinedTo_map (Action.confinedTo_attempt
          (confinedTo_watch (x := .served id k) { version := some since }))
  refine ((AsksOnly.repeated (fun p => ?_) turns _).within t.limit).bind fun result => ?_
  · refine (attempt p.version).perform.bind fun answer => ?_
    match answer with
    | .error f | .ok (.inr r) | .ok (.inl h) => exact .const _
  · cases result <;> exact .const _

/-- A remote waits for a resource by its own verbs for it. -/
theorem asksOnly_wait (x : Remote) (g : Goal) (ns : Option String) (r : Resource)
    (limit : Duration) (backoff : Backoff) :
    AsksOnly (x.Makes ns r) fun o : Outside σ => x.wait o g ns r limit backoff := by
  cases x with
  | collaborator id ownReadiness =>
    cases g with
    | ready =>
      cases ownReadiness with
      | true =>
        refine Program.ConfinedTo.perform (p := .ask (.awaitReady id ns r limit)) fun c hc => ?_
        exact .awaitReady id limit rfl (Program.makes_ask_iff.1 hc)
      | false => exact .const _
    | condition accepts | conditionFrom accepts version =>
      exact asksOnly_poll _ confinedTo_reload _
  | served id k =>
    cases g with
    | ready =>
      simp only [wait]
      split
      · exact asksOnly_follow ⟨r, Resource.isReady, backoff, limit⟩ id k ns none _
      · exact .const _
    | condition accepts => exact asksOnly_follow ⟨r, accepts, backoff, limit⟩ id k ns none _
    | conditionFrom accepts version =>
      exact asksOnly_follow ⟨r, accepts, backoff, limit⟩ id k ns (some version) _

end Remote

/-! ## The operation on a registered resource -/

namespace Operation

/-- The resource of the operation, edited as it is, also if it is a container. -/
def edited (op : Operation) : Resource := op.settings.pipeline.visit op.item

/-- A wait begins with `r`: with the edited resource, or, if the server is asked, with a state of it
that the remote may answer, edited again. -/
def BeginsWith (op : Operation) (x : Remote) (r : Resource) : Prop :=
  if op.settings.fromServer then ∃ events state, r = op.settings.pipeline.visit state ∧
    (x.reload op.edited.ns op.edited).run.Runs events (.ok (some state))
  else r = op.edited

/-- The verbs of the operation are those of the remote, for the edited resource; but if this is of a
list kind, the operation creates or replaces its members, by their handlers. -/
structure Honours (op : Operation) (x : Remote) : Prop where
  target : op.target = .ok op.edited
  delete : op.delete = x.delete op.edited.ns op.settings.deleteOptions op.edited
  get : op.get = if op.settings.fromServer then
      Option.map op.settings.pipeline.visit <$> x.reload op.edited.ns op.edited
    else pure (some op.edited)
  watch (options : WatchOptions) : op.watch options = x.watch op.edited.ns op.edited options
  wait {σ : Type} (o : Outside σ) (g : Goal) (limit : Duration) : op.wait o g limit = do
    match ← Action.perform o op.waitTarget with
    | .ok r => x.wait o g r.ns r limit op.settings.backoff
    | .error f => return .error f
  /-- All that is asked while the operation waits. -/
  asks_wait {σ : Type} (g : Goal) (limit : Duration) : AsksOnly (fun c =>
      x.Makes op.edited.ns op.edited c ∨ ∃ r, op.BeginsWith x r ∧ x.Makes r.ns r c)
    fun o : Outside σ => op.wait o g limit
  createOrReplace (plain : isListKind op.edited.kind = false) :
    op.createOrReplace = Apply.createOrReplace (.remote x) (.of op.settings) op.edited ∧
      op.createOrReplace.run.ConfinedTo (x.Makes op.edited.ns op.edited)
  members (list : isListKind op.edited.kind = true) :
    op.createOrReplace = Apply.createOrReplaceMembers op.registry (.of op.settings) op.edited ∧
      op.createOrReplace.run.Asks (Errand.OfMember op.registry op.edited Resource.ns) ∧
      ∀ f, op.edited.members = .error f → op.createOrReplace.run = .done (.error f)

section Remote

variable {op : Operation} {x : Remote}

theorem target_of_remote (hop : op.handler = .remote x) : op.target = .ok op.edited := by
  rw [target, hop]
  exact Handler.edit_remote x _ _

theorem get_of_remote (hop : op.handler = .remote x) :
    op.get = if op.settings.fromServer then
        Option.map op.settings.pipeline.visit <$> x.reload op.edited.ns op.edited
      else pure (some op.edited) := by
  rw [get, target_of_remote hop, Action.ofExcept_bind, hop]
  split
  · rw [map_eq_pure_bind, Apply.reload, Handler.reload]
    refine bind_congr fun current => ?_
    cases current with
    | none => rfl
    | some state => simp only [Handler.edit_remote]; rfl
  · rfl

/-- The remote is asked for no more than the edited resource to find what to wait for. -/
theorem confinedTo_waitTarget (hop : op.handler = .remote x) :
    op.waitTarget.run.ConfinedTo (x.Makes op.edited.ns op.edited) := by
  refine Action.confinedTo_bind ?_ fun found => ?_
  · rw [get_of_remote hop]
    split
    · exact Action.confinedTo_map Remote.confinedTo_reload
    · exact confinedTo_done _
  · cases found <;> exact confinedTo_done _

theorem beginsWith_of_runs (hop : op.handler = .remote x) {events : List Event} {r : Resource}
    (hrun : op.waitTarget.run.Runs events (.ok r)) : op.BeginsWith x r := by
  obtain ⟨first, rest, found, -, hget, hrest⟩ := Action.runs_bind_ok_iff.1 hrun
  cases found with
  | none => cases (Program.runs_done_iff.1 hrest).2
  | some current =>
    obtain rfl := Except.ok.inj (Action.runs_pure_iff.1 hrest).2
    rw [get_of_remote hop] at hget
    unfold BeginsWith
    split at hget
    · next fromServer =>
      rw [if_pos fromServer]
      obtain ⟨state, hstate, hvisit⟩ := Action.runs_map_ok_iff.1 hget
      obtain ⟨state, rfl, rfl⟩ := Option.map_eq_some_iff.1 hvisit
      exact ⟨first, state, rfl, hstate⟩
    · next own =>
      rw [if_neg own]
      exact Option.some.inj (Except.ok.inj (Action.runs_pure_iff.1 hget).2)

theorem wait_of_remote (hop : op.handler = .remote x) (o : Outside σ) (g : Goal)
    (limit : Duration) : op.wait o g limit = do
      match ← Action.perform o op.waitTarget with
      | .ok r => x.wait o g r.ns r limit op.settings.backoff
      | .error f => return .error f := by
  rw [wait, hop]
  refine bind_congr fun found => ?_
  cases found with
  | ok r =>
    dsimp only
    rw [Handler.wait]
  | error f => rfl

theorem asksOnly_wait (hop : op.handler = .remote x) (g : Goal) (limit : Duration) :
    AsksOnly (fun c =>
        x.Makes op.edited.ns op.edited c ∨ ∃ r, op.BeginsWith x r ∧ x.Makes r.ns r c)
      fun o : Outside σ => op.wait o g limit := by
  simp only [wait_of_remote hop]
  refine AsksOnly.perform_bind ((confinedTo_waitTarget hop).mono fun _ => .inl)
    fun events a hrun => ?_
  cases a with
  | error f => exact .const _
  | ok r =>
    exact (x.asksOnly_wait g r.ns r limit op.settings.backoff).mono fun c hc =>
      .inr ⟨r, beginsWith_of_runs hop hrun, hc⟩

/-- An operation that has a remote as its handler asks this remote, but for the members of what goes
out. -/
theorem honours (hop : op.handler = .remote x) : op.Honours x where
  target := target_of_remote hop
  delete := by
    show (Action.ofExcept op.target >>= _) = _
    rw [target_of_remote hop, Action.ofExcept_bind, hop, Handler.delete]
  get := get_of_remote hop
  watch options := by
    rw [watch, target_of_remote hop, Action.ofExcept_bind, hop, Handler.watch]
  wait := wait_of_remote hop
  asks_wait := asksOnly_wait hop
  createOrReplace plain := by
    have same : op.createOrReplace =
        Apply.createOrReplace (.remote x) (.of op.settings) op.edited := by
      rw [createOrReplace, target_of_remote hop, Action.ofExcept_bind, plain, hop]
      rfl
    exact ⟨same, same ▸ Remote.confinedTo_createOrReplace _⟩
  members list := by
    have same : op.createOrReplace =
        Apply.createOrReplaceMembers op.registry (.of op.settings) op.edited := by
      rw [createOrReplace, target_of_remote hop, Action.ofExcept_bind, list]
      rfl
    refine ⟨same, same ▸ Apply.asks_members _ _ _, fun f hms => ?_⟩
    rw [same, Apply.createOrReplaceMembers, hms]
    rfl

end Remote

/-- If a remote is registered for the key of a resource, there is an operation on the resource, and
its verbs are those of the remote, except that members are applied in the place of what is of a list
kind. The same is so after any changes of the settings, and of the operation on an applied state. -/
theorem honours_registered {reg : Registry} {item : Resource} {key : ResourceKey} {x : Remote}
    (hkey : ResourceKey.of? item = some key) (registered : reg.find? key = some x) (s : Settings) :
    ∃ op, Operation.of reg s item = .ok op ∧ op.registry = reg ∧ op.settings = s ∧ op.item = item ∧
      op.Honours x ∧ (∀ changes, (op.changed changes).Honours x) ∧
      ∀ events op', op.createOrReplaceAnd.run.Runs events (.ok op') → op'.Honours x := by
  have resolved : reg.resolveFor item = .ok (.remote x) := by
    refine Registry.resolveFor_eq_ok_iff.2 ⟨key, hkey, ?_⟩
    rw [Registry.resolve, registered]
  refine ⟨_, of_eq_ok resolved, rfl, rfl, rfl, honours rfl, fun changes => honours rfl,
    fun events op' hrun => ?_⟩
  obtain ⟨first, rest, applied, -, -, hpure⟩ := Action.runs_bind_ok_iff.1 hrun
  obtain rfl := Except.ok.inj (Action.runs_pure_iff.1 hpure).2
  exact honours rfl

/-! ## A list that somebody is registered for -/

open BatchTerms (pod)

/-- Who keeps lists of pods as such. -/
def lists : Remote := .collaborator "lists" false

def listRegistry : Registry :=
  ⟨[(⟨"PodList", "v1"⟩, lists), (⟨"Pod", "v1"⟩, .collaborator "pods" true)]⟩

/-- The list is deleted as such, by whoever keeps such lists. -/
theorem honours_registered_list : ResourceKey.of? (podList ["a"]) = some ⟨"PodList", "v1"⟩ ∧
    listRegistry.find? ⟨"PodList", "v1"⟩ = some lists ∧
    ∃ op, Operation.of listRegistry {} (podList ["a"]) = .ok op ∧
      op.delete = lists.delete none ({} : Settings).deleteOptions (podList ["a"]) := by
  have hkey : ResourceKey.of? (podList ["a"]) = some ⟨"PodList", "v1"⟩ := rfl
  have registered : listRegistry.find? ⟨"PodList", "v1"⟩ = some lists := rfl
  obtain ⟨op, hop, -, hs, hitem, honours, -⟩ := honours_registered hkey registered {}
  refine ⟨hkey, registered, op, hop, ?_⟩
  rw [honours.delete, edited, hs, hitem, visit_of_no_settings]
  rfl

theorem runs_createOrReplace_list : ∃ l, Program.Runs
    (⟨listRegistry, {}, podList ["a"], .remote lists⟩ : Operation).createOrReplace.run
    [⟨.create "pods" none (pod "a"), .ok (pod "a")⟩] (.ok l) := by
  have groups := groups_podList ["a"]
  have resolved : [pod "a"].mapM listRegistry.resolveFor =
      .ok [.remote (.collaborator "pods" true)] := rfl
  have created : Action.RunsEach (fun p => Apply.createOrReplace p.1 (.of {}) p.2)
      [(.remote (.collaborator "pods" true), pod "a")]
      [⟨.create "pods" none (pod "a"), .ok (pod "a")⟩] [pod "a"] :=
    .singleton ((Apply.runs_createOrReplace_iff _ _ _ _ _).2
      ⟨_, .settled _ nofun, Handler.conducts_singleton_iff.2 (Handler.runs_create ..)⟩)
  obtain ⟨l, hl, -⟩ := Resource.withMembers_of_whole groups.members
    (List.forall_mem_singleton.2 (whole_pod "a"))
  refine ⟨l, ?_⟩
  let op : Operation := ⟨listRegistry, {}, podList ["a"], .remote lists⟩
  have same : op.edited = podList ["a"] := visit_of_no_settings _
  have list : isListKind op.edited.kind = true := same ▸ isListKind_podList
  show op.createOrReplace.run.Runs _ _
  rw [((honours rfl).members list).1, same, Apply.createOrReplaceMembers, groups.members,
    Action.ofExcept_bind]
  show (Action.ofExcept ([pod "a"].mapM listRegistry.resolveFor) >>= _).run.Runs _ _
  rw [resolved, Action.ofExcept_bind]
  exact Action.runs_bind_ok_iff.2 ⟨_, [], [pod "a"], (List.append_nil _).symm,
    Action.runs_mapM_ok_iff.2 created, Action.runs_ofExcept_iff.2 ⟨rfl, hl.symm⟩⟩

/-- Although somebody is registered for lists of pods, to apply such a list is to create the pod in
it, and to ask somebody else for that. -/
theorem createOrReplace_bypasses_lists : listRegistry.find? ⟨"PodList", "v1"⟩ = some lists ∧
    ∃ op, Operation.of listRegistry {} (podList ["a"]) = .ok op ∧ op.handler = .remote lists ∧
      (∃ l, op.createOrReplace.run.Runs [⟨.create "pods" none (pod "a"), .ok (pod "a")⟩] (.ok l)) ∧
      ¬ op.createOrReplace.run.ConfinedTo (lists.Makes op.edited.ns op.edited) := by
  refine ⟨rfl, _, rfl, rfl, runs_createOrReplace_list, fun confined => ?_⟩
  obtain ⟨l, hrun⟩ := runs_createOrReplace_list
  have asked := (confined _ (hrun.makes List.mem_cons_self)).collaborator?_eq
  exact absurd asked (by decide)

end Operation

end Rollout
