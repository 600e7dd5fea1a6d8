/-
  What a wait for a condition comes to was seen while it lasted.

  A remote sees a state of a resource when it reads it, or when a watch tells of it
  (`Remote.Observes`). Polling and following end with a state only if the state is accepted and was
  seen since they began (`Sighted`); everything else that ends them is a failure. Nothing is said
  here of waits that do not end.
-/
import Rollout.Proofs.Activity.Record
import Rollout.Proofs.Program.Sequence
import Rollout.Wait

namespace Rollout

variable {σ : Type}

/-- The condition that is waited for, if it is one. -/
def Goal.condition? : Goal → Option (Resource → Bool)
  | .ready => none
  | .condition accepts | .conditionFrom accepts _ => some accepts

/-- These events show the remote the state of the resource, which was `given`. -/
inductive Remote.Observes (x : Remote) (ns : Option String) (given state : Resource)
    (events : List Event) : Prop where
  | read (h : (x.reload ns given).run.Runs events (.ok (some state)))
  | told {id : Option String} {k : ServedKind} (hx : x = .served id k) {version : String}
      {items : List WatchItem}
      (h : (k.watchFrom ns given.name version {}).run.Runs events (.ok items))
      (mem : .ok (.added state) ∈ items ∨ .ok (.modified state) ∈ items)

/-- A state that a wait came to is accepted, and events that show it were added to the record. -/
def Sighted (accepts : Resource → Bool) (shows : Resource → List Event → Prop)
    (before record : List Event) (result : Except Failure Resource) : Prop :=
  ∀ state, result = .ok state →
    accepts state = true ∧ ∃ events, shows state events ∧ Added before record events

section Sighted

variable {accepts : Resource → Bool} {shows : Resource → List Event → Prop}
  {before record : List Event}

theorem sighted_error (f : Failure) : Sighted accepts shows before record (.error f) :=
  fun _ h => nomatch h

end Sighted

namespace WaitTerms

variable {t : WaitTerms} {o : Outside σ} {heard : σ → List Event} {before : List Event}
  {shows : Resource → List Event → Prop}

/-- A wait that is cut off comes to no state. -/
theorem ensures_bounded {act : Activity σ (Except Failure Resource)}
    (h : act.Ensures heard before (Sighted t.accepts shows before)) :
    (t.bounded act).Ensures heard before (Sighted t.accepts shows before) := by
  refine (h.within t.limit).bind fun result w _ hresult => ?_
  cases result with
  | none => exact ⟨List.prefix_rfl, sighted_error _⟩
  | some result => exact ⟨List.prefix_rfl, hresult result rfl⟩

/-! ## Polling -/

theorem ensures_pollOnce (records : o.Records heard) (reading : Action (Option Resource))
    (delay : Duration) :
    (t.pollOnce o reading delay).Ensures heard before fun record next =>
      ∀ result, next = .inr result →
        Sighted t.accepts (fun state events => reading.run.Runs events (.ok (some state))) before
          record result := by
  intro w hw
  refine (Program.ensures_perform records reading.run w).bind fun answer w' _ hanswer => ?_
  obtain ⟨events, hruns, hadded⟩ := hanswer
  cases answer with
  | error f =>
    refine ⟨List.prefix_rfl, fun result hresult => ?_⟩
    obtain rfl := Sum.inr.inj hresult
    exact sighted_error f
  | ok current =>
    cases hfilter : current.filter t.accepts with
    | some r =>
      obtain ⟨rfl, haccepts⟩ := Option.filter_eq_some_iff.1 hfilter
      simp only [hfilter]
      refine ⟨List.prefix_rfl, fun result hresult => ?_⟩
      obtain rfl := Sum.inr.inj hresult
      intro state hstate
      obtain rfl := Except.ok.inj hstate
      exact ⟨haccepts, events, hruns, hadded.earlier hw⟩
    | none =>
      simp only [hfilter]
      refine (Activity.ensures_sleep delay w' List.prefix_rfl).bind fun _ w'' _ _ => ?_
      exact ⟨List.prefix_rfl, fun result hresult => nomatch hresult⟩

/-- A poll comes to a state only if a reading since it began has answered it. -/
theorem ensures_poll (records : o.Records heard) (reading : Action (Option Resource))
    (turns : Nat) : (t.poll o reading turns).Ensures heard before
      (Sighted t.accepts (fun state events => reading.run.Runs events (.ok (some state))) before) :=
  ensures_bounded <| Activity.ensures_repeated (ensures_pollOnce records reading) turns _

/-! ## Following -/

theorem listen_eq_inr {accepts : Resource → Bool} {items : List WatchItem} {h : Heard}
    {state : Resource} (hlisten : Heard.listen accepts items h = .inr state) :
    accepts state = true ∧ (.ok (.added state) ∈ items ∨ .ok (.modified state) ∈ items) := by
  induction items generalizing h with
  | nil => cases hlisten
  | cons item rest ih =>
    have later {h : Heard} (hrest : Heard.listen accepts rest h = .inr state) :
        accepts state = true ∧
          (.ok (.added state) ∈ item :: rest ∨ .ok (.modified state) ∈ item :: rest) :=
      (ih hrest).imp_right <| Or.imp (List.mem_cons_of_mem _) (List.mem_cons_of_mem _)
    unfold Heard.listen at hlisten
    split at hlisten
    · split at hlisten
      · next haccepts =>
        obtain rfl := Sum.inr.inj hlisten
        exact ⟨haccepts, .inl List.mem_cons_self⟩
      · exact later hlisten
    · split at hlisten
      · next haccepts =>
        obtain rfl := Sum.inr.inj hlisten
        exact ⟨haccepts, .inr List.mem_cons_self⟩
      · exact later hlisten
    · exact later hlisten
    · exact later hlisten
    · cases hlisten
    · cases hlisten
    · cases hlisten

theorem heard_eq_inr {version : String} {items : Except Failure (List WatchItem)}
    {state : Resource} (h : t.heard version items = .inr state) :
    t.accepts state = true ∧
      ∃ told, items = .ok told ∧ (.ok (.added state) ∈ told ∨ .ok (.modified state) ∈ told) := by
  unfold heard at h
  split at h
  · exact (listen_eq_inr h).imp_right fun mem => ⟨_, rfl, mem⟩
  · cases h
  · cases h

theorem startFrom_eq_inr {current : Option Resource} {state : Resource}
    (h : t.startFrom current = .inr state) : t.accepts state = true ∧ current = some state := by
  unfold startFrom at h
  split at h
  · cases h
  · split at h
    · next haccepts =>
      obtain rfl := Sum.inr.inj h
      exact ⟨haccepts, rfl⟩
    · cases h

/-- An attempt at following comes to a state by reading it or by watching. -/
theorem runs_attempt_inr {k : ServedKind} {ns : Option String} {version : Option String}
    {events : List Event} {state : Resource} (id : Option String)
    (h : (t.attempt k ns version).run.Runs events (.ok (.inr state))) :
    t.accepts state = true ∧ ∃ part, part.Sublist events ∧
      (Remote.served id k).Observes ns t.given state part := by
  obtain ⟨first, rest, start, rfl, hsince, hrest⟩ := Action.runs_bind_ok_iff.1 h
  cases start with
  | inr r =>
    obtain ⟨rfl, hr⟩ := Action.runs_pure_iff.1 hrest
    obtain rfl := Sum.inr.inj (Except.ok.inj hr)
    cases version with
    | some v =>
      obtain ⟨-, hv⟩ := Action.runs_pure_iff.1 hsince
      cases Except.ok.inj hv
    | none =>
      obtain ⟨current, hreload, hstart⟩ := Action.runs_map_ok_iff.1 hsince
      obtain ⟨haccepts, rfl⟩ := startFrom_eq_inr hstart
      exact ⟨haccepts, first, List.sublist_append_left _ _, .read hreload⟩
  | inl v =>
    obtain ⟨items, hattempt, hheard⟩ := Action.runs_map_ok_iff.1 hrest
    obtain ⟨haccepts, told, rfl, mem⟩ := heard_eq_inr hheard
    exact ⟨haccepts, rest, List.sublist_append_right _ _,
      .told rfl (Action.runs_attempt_iff.1 hattempt) mem⟩

theorem ensures_followOnce (records : o.Records heard) (id : Option String) (k : ServedKind)
    (ns : Option String) (p : Progress) :
    (t.followOnce o k ns p).Ensures heard before fun record next =>
      ∀ result, next = .inr result →
        Sighted t.accepts ((Remote.served id k).Observes ns t.given) before record result := by
  intro w hw
  refine (Program.ensures_perform records (t.attempt k ns p.version).run w).bind
    fun answer w' _ hanswer => ?_
  obtain ⟨events, hruns, hadded⟩ := hanswer
  cases answer with
  | error f =>
    refine ⟨List.prefix_rfl, fun result hresult => ?_⟩
    obtain rfl := Sum.inr.inj hresult
    exact sighted_error f
  | ok attempted =>
    cases attempted with
    | inr r =>
      refine ⟨List.prefix_rfl, fun result hresult => ?_⟩
      obtain rfl := Sum.inr.inj hresult
      intro state hstate
      obtain rfl := Except.ok.inj hstate
      obtain ⟨haccepts, part, hpart, hobserves⟩ := runs_attempt_inr id hruns
      exact ⟨haccepts, part, hobserves, (hadded.sublist hpart).earlier hw⟩
    | inl h =>
      refine (Activity.ensures_sleep (t.delayAfter p h) w' List.prefix_rfl).bind fun _ w'' _ _ => ?_
      exact ⟨List.prefix_rfl, fun result hresult => nomatch hresult⟩

/-- Following comes to a state only if it was read or watched since it began. -/
theorem ensures_follow (records : o.Records heard) (id : Option String) (k : ServedKind)
    (ns : Option String) (version : Option String) (turns : Nat) :
    (t.follow o k ns version turns).Ensures heard before
      (Sighted t.accepts ((Remote.served id k).Observes ns t.given) before) :=
  ensures_bounded <| Activity.ensures_repeated (ensures_followOnce records id k ns) turns _

end WaitTerms

/-! ## Remotes -/

namespace Remote

variable {g : Goal} {accepts : Resource → Bool}

/-- A collaborator waits for a condition by polling. -/
theorem wait_collaborator (hg : g.condition? = some accepts) (o : Outside σ) (id : String)
    (ownReadiness : Bool) (ns : Option String) (r : Resource) (limit : Duration)
    (backoff : Backoff) : (collaborator id ownReadiness).wait o g ns r limit backoff =
      (⟨r, accepts, backoff, limit⟩ : WaitTerms).poll o ((collaborator id ownReadiness).reload ns r)
        (Activity.turnsFor limit) := by
  cases g with
  | ready => cases hg
  | condition _ | conditionFrom _ _ =>
    obtain rfl := Option.some.inj hg
    rfl

/-- An API server waits for a condition by following. -/
theorem wait_served (hg : g.condition? = some accepts) (o : Outside σ) (id : Option String)
    (k : ServedKind) (ns : Option String) (r : Resource) (limit : Duration) (backoff : Backoff) :
    ∃ version, (served id k).wait o g ns r limit backoff =
      (⟨r, accepts, backoff, limit⟩ : WaitTerms).follow o k ns version
        (Activity.turnsFor limit) := by
  cases g with
  | ready => cases hg
  | condition _ =>
    obtain rfl := Option.some.inj hg
    exact ⟨none, rfl⟩
  | conditionFrom _ version =>
    obtain rfl := Option.some.inj hg
    exact ⟨some version, rfl⟩

/-- A remote that waits for a condition comes to a state that it has seen since. -/
theorem ensures_wait {o : Outside σ} {heard : σ → List Event} (records : o.Records heard)
    (hg : g.condition? = some accepts) (x : Remote) (before : List Event) (ns : Option String)
    (r : Resource) (limit : Duration) (backoff : Backoff) :
    (x.wait o g ns r limit backoff).Ensures heard before
      (Sighted accepts (x.Observes ns r) before) := by
  cases x with
  | collaborator id ownReadiness =>
    rw [wait_collaborator hg]
    intro w hw
    have polled := WaitTerms.ensures_poll (t := ⟨r, accepts, backoff, limit⟩) records
      ((collaborator id ownReadiness).reload ns r) (Activity.turnsFor limit) w hw
    refine polled.mono fun record result _ h state hstate => ?_
    exact (h state hstate).imp_right fun ⟨events, hread, hadded⟩ => ⟨events, .read hread, hadded⟩
  | served id k =>
    obtain ⟨version, hwait⟩ := wait_served hg o id k ns r limit backoff
    rw [hwait]
    exact WaitTerms.ensures_follow (t := ⟨r, accepts, backoff, limit⟩) records id k ns version
      (Activity.turnsFor limit)

end Remote

end Rollout
