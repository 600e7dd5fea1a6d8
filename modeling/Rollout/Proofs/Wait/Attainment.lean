/-
  What a wait for a condition attains.

  A resource of a remote attains a state that is accepted and was seen; a container attains the
  container of what its members attain, each by its own handler (`Attained`). Whatever a wait for a
  condition comes to, it is a failure or a state that the resource has attained since
  (`Handler.ensures_wait`), and this holds of every resource of a batch, in any order of turns
  (`BatchTerms.Passes.ensures`) and while others act (`BatchTerms.ensures_waitBy`).
-/
import Rollout.Proofs.Wait.Observation
import Rollout.Proofs.Wait.Verdict

namespace Rollout

variable {σ : Type}

/-! ## Attained states -/

/-- Since the record was `before`, the resource has attained this state: of a remote, a state that
is accepted and was seen; of a container, what its members have attained. -/
inductive Attained (accepts : Resource → Bool) (before record : List Event) :
    Handler → Option String → Resource → Resource → Prop where
  | remote {x : Remote} {ns : Option String} {r state : Resource} {events : List Event}
      (accepted : accepts state = true) (observes : x.Observes ns r state events)
      (added : Added before record events) : Attained accepts before record (.remote x) ns r state
  | members {reg : Registry} {ns : Option String} {r result : Resource} {ms states : List Resource}
      (opened : r.members = .ok ms) (length : states.length = ms.length)
      (resolved : ∀ m ∈ ms, ∃ h, reg.resolveFor m = .ok h)
      (each : ∀ (i : Nat) (h : Handler) (m state : Resource), ms[i]? = some m →
        reg.resolveFor m = .ok h → states[i]? = some state →
        Attained accepts before record h m.ns m state)
      (closed : r.withMembers states = .ok result) :
      Attained accepts before record (.members reg) ns r result

/-- What a wait came to is a failure or a state that the resource has attained. -/
def Attains (accepts : Resource → Bool) (before : List Event) (h : Handler) (ns : Option String)
    (r : Resource) (record : List Event) (result : Except Failure Resource) : Prop :=
  ∀ state, result = .ok state → Attained accepts before record h ns r state

section Attained

variable {accepts : Resource → Bool} {before record : List Event}

theorem Attained.later {h : Handler} {ns : Option String} {r state : Resource}
    (attained : Attained accepts before record h ns r state) {record' : List Event}
    (grows : record <+: record') : Attained accepts before record' h ns r state := by
  induction attained with
  | remote accepted observes added => exact .remote accepted observes (added.later grows)
  | members opened length resolved _ closed ih => exact .members opened length resolved ih closed

theorem lasting_attains (accepts : Resource → Bool) (before : List Event) (h : Handler)
    (ns : Option String) (r : Resource) : Seat.Lasting (Attains accepts before h ns r) :=
  fun _ _ _ grows attains state hstate => (attains state hstate).later grows

/-- Of a resource of a collaborator, the state that it has attained was answered to a reload. -/
theorem Attained.of_collaborator {id : String} {ownReadiness : Bool} {ns : Option String}
    {r state : Resource}
    (h : Attained accepts before record (.remote (.collaborator id ownReadiness)) ns r state) :
    accepts state = true ∧ ∃ new, record = before ++ new ∧
      ⟨.reload id ns r, .ok (some state)⟩ ∈ new := by
  cases h with
  | remote accepted observes added =>
    refine ⟨accepted, ?_⟩
    cases observes with
    | read hruns =>
      obtain rfl := Program.runs_ask_iff.1 hruns
      exact added.mem
    | told hx => cases hx

end Attained

/-! ## Batches -/

namespace WaitReport

variable {r : WaitReport}

theorem met_eq_ok_iff {states : List Resource} :
    r.met = .ok states ↔ r.outcomes.map WaitOutcome.matched? = states.map some := by
  have kept : r.matched.map some = (r.outcomes.map WaitOutcome.matched?).filter Option.isSome :=
    List.map_filterMap_some_eq_filter_map_isSome
  unfold met
  split
  · next hmatched =>
    have all : (r.outcomes.map WaitOutcome.matched?).filter Option.isSome =
        r.outcomes.map WaitOutcome.matched? := by
      refine List.filter_eq_self.2 fun x hx => ?_
      obtain ⟨o, ho, rfl⟩ := List.mem_map.1 hx
      exact List.all_eq_true.1 hmatched o ho
    rw [← all, ← kept, Except.ok.injEq, List.map_inj_right fun _ _ => Option.some.inj]
  · next hmatched =>
    refine ⟨fun h => (by cases h), fun h => absurd (List.all_eq_true.2 fun o ho => ?_) hmatched⟩
    have hmem := List.mem_map_of_mem (f := WaitOutcome.matched?) ho
    rw [h] at hmem
    obtain ⟨state, -, hstate⟩ := List.mem_map.1 hmem
    rw [← hstate]
    rfl

theorem exists_met_iff :
    (∃ states, r.met = .ok states) ↔ ∀ o ∈ r.outcomes, o.matched?.isSome = true := by
  rw [← List.all_eq_true]
  unfold met isMatched
  split
  · next h => exact ⟨fun _ => h, fun _ => ⟨_, rfl⟩⟩
  · next h => exact ⟨fun ⟨_, hstates⟩ => (nomatch hstates), fun h' => absurd h' h⟩

theorem met_eq_error (h : ¬ ∃ states, r.met = .ok states) :
    r.met = .error (.waitTimeout (r.outcomes.filterMap WaitOutcome.missed?) r.limit) := by
  unfold met at h ⊢
  split at h
  · exact absurd ⟨_, rfl⟩ h
  · next hmatched => rw [if_neg hmatched]

end WaitReport

theorem bind_toOption_eq_some_iff {x : Option (Except Failure Resource)} {state : Resource} :
    x.bind Except.toOption = some state ↔ x = some (.ok state) := by
  rcases x with _ | _ | state'
  · exact ⟨fun h => (nomatch h), fun h => (nomatch h)⟩
  · exact ⟨fun h => (nomatch h), fun h => (nomatch h)⟩
  · exact ⟨fun h => Option.some.inj h ▸ rfl, fun h => Except.ok.inj (Option.some.inj h) ▸ rfl⟩

/-- A condition is met by the states that the waits came to, if all of them came to one. -/
theorem Goal.met_report_iff {g : Goal} {rs : List Resource}
    {results : List (Option (Except Failure Resource))} (length : results.length = rs.length)
    (expired : Bool) (limit : Duration) {states : List Resource} :
    (g.report rs results expired limit).met = .ok states ↔
      results = states.map fun state => some (.ok state) := by
  have outcomes : (g.report rs results expired limit).outcomes.map WaitOutcome.matched? =
      results.map fun x => x.bind Except.toOption := by
    show ((rs.zip results).map _).map _ = _
    conv_rhs => rw [← List.map_snd_zip (Nat.le_of_eq length), List.map_map]
    rw [List.map_map]
    exact List.map_congr_left fun p _ => g.matched?_outcome p.1 p.2
  rw [WaitReport.met_eq_ok_iff, outcomes]
  constructor
  · intro h
    refine List.ext_getElem? fun i => ?_
    have hi := congrArg (·[i]?) h
    simp only [List.getElem?_map] at hi ⊢
    cases hstate : states[i]? with
    | none =>
      rw [hstate] at hi
      exact Option.map_eq_none_iff.1 hi
    | some state =>
      rw [hstate] at hi
      obtain ⟨x, hx, hbind⟩ := Option.map_eq_some_iff.1 hi
      rw [hx, bind_toOption_eq_some_iff.1 hbind]
      rfl
  · rintro rfl
    rw [List.map_map]
    rfl

namespace BatchTerms

variable {rs : List Resource} {t : BatchTerms} {reg : Registry} {g : Goal} {wait : Waits σ rs}
  {heard : σ → List Event} {before : List Event}
  {post : Handler → { r // r ∈ rs } → List Event → Except Failure Resource → Prop}

/-- Every wait ensures what is asked of it, by the handler of its resource. -/
def Ensures (heard : σ → List Event) (before : List Event) (reg : Registry) (wait : Waits σ rs)
    (post : Handler → { r // r ∈ rs } → List Event → Except Failure Resource → Prop) : Prop :=
  ∀ handler r budget, reg.resolveFor r.1 = .ok handler →
    (wait handler r budget).Ensures heard before (post handler r)

/-- What is asked of a place of the batch: what is asked of the wait for the resource there, by the
handler of it. -/
def Placed (reg : Registry)
    (post : Handler → { r // r ∈ rs } → List Event → Except Failure Resource → Prop) (i : Nat)
    (record : List Event) (result : Except Failure Resource) : Prop :=
  ∃ handler, ∃ hi : i < rs.length, reg.resolveFor rs[i] = .ok handler ∧
    post handler ⟨rs[i], List.getElem_mem hi⟩ record result

theorem lasting_placed (lasting : ∀ handler r, Seat.Lasting (post handler r)) (i : Nat) :
    Seat.Lasting (Placed reg post i) := by
  rintro record record' result grows ⟨handler, hi, hresolve, hpost⟩
  exact ⟨handler, hi, hresolve, lasting handler _ _ _ _ grows hpost⟩

/-- The task at a place ensures what is asked of the place. -/
theorem Ensures.task (h : Ensures heard before reg wait post) {handlers : List Handler}
    (hhandlers : rs.mapM reg.resolveFor = .ok handlers) {i : Nat}
    {task : Duration → Activity σ (Except Failure Resource)}
    (htask : ((handlers.zip rs.attach).map fun (h, r) => wait h r)[i]? = some task)
    (budget : Duration) : (task budget).Ensures heard before (Placed reg post i) := by
  obtain ⟨⟨handler, r⟩, hzip, rfl⟩ := List.getElem?_map ▸ htask |> Option.map_eq_some_iff.1
  obtain ⟨hhandler, hr⟩ := List.getElem?_zip_eq_some.1 hzip
  obtain ⟨hi, hr⟩ := List.getElem?_eq_some_iff.1 hr
  rw [List.length_attach] at hi
  rw [List.getElem_attach] at hr
  subst hr
  obtain ⟨handler', hhandler', hresolve⟩ := getElem?_of_mapM_eq_ok hhandlers hi
  rw [hhandler] at hhandler'
  obtain rfl := Option.some.inj hhandler'
  intro w hw
  exact (h handler _ budget hresolve w hw).mono fun record result _ hpost =>
    ⟨handler, hi, hresolve, hpost⟩

/-- In every order of turns, a wait that comes to something comes to what it ensures. -/
theorem Passes.ensures {w w' : World σ} {log : Batch.Log (Except Failure Resource)}
    {b : Batch σ (Except Failure Resource)} (h : t.Passes heard reg wait w log b w')
    (lasting : ∀ handler r, Seat.Lasting (post handler r))
    (ensures : Ensures heard (heard w.state) reg wait post) {i : Nat}
    {result : Except Failure Resource} (hresult : log.lookup i = some (some result)) :
    Placed reg post i (heard w'.state) result := by
  have hleft := h.unfolds.left?_eq i
  obtain ⟨handlers, hhandlers, hpassage⟩ := h
  have opening : Batch.Ensures heard (Placed reg post) (heard w.state)
      (Batch.opening t.permits (t.tasks wait handlers w) (w.setTimer t.limit).2).seats := by
    refine Batch.ensures_opening _ _ fun i task htask => ?_
    rw [tasks, List.getElem?_map, Option.map_eq_some_iff] at htask
    obtain ⟨task', htask', rfl⟩ := htask
    exact Activity.ensures_told _ (ensures.task hhandlers htask')
  have state : (Batch.seat (t.tasks wait handlers w) (w.setTimer t.limit).2).2.state = w.state :=
    Batch.state_seat _ _
  rw [← state] at opening
  exact (hpassage.ensures (lasting_placed lasting) opening).2.left? (hleft.trans hresult)

/-- While others act, too, a condition is met by one state per resource, which its wait ensures. -/
theorem ensures_waitBy (lasting : ∀ handler r, Seat.Lasting (post handler r))
    (ensures : Ensures heard before reg wait post) :
    (t.waitBy reg g rs wait).Ensures heard before fun record result =>
      ∀ report states, result = .ok report → report.met = .ok states →
        states.length = rs.length ∧ ∀ (i : Nat) state, states[i]? = some state →
          Placed reg post i record (.ok state) := by
  unfold waitBy
  split
  · next hempty =>
    obtain rfl := List.isEmpty_iff.1 hempty
    refine Activity.ensures_pure fun record _ report states hreport hmet => ?_
    obtain rfl := Except.ok.inj hreport
    obtain rfl := Except.ok.inj hmet
    exact ⟨rfl, fun i state hstate => nomatch hstate⟩
  · split
    · exact Activity.ensures_pure fun record _ report states hreport => nomatch hreport
    · next handlers hhandlers =>
      have tasks := Activity.ensures_batchFor (lasting_placed lasting) t.limit t.permits
        fun i task htask => ensures.task hhandlers htask
      refine tasks.bind fun ⟨results, expired⟩ w _ hresults => ?_
      obtain ⟨hlength, hplaced⟩ := hresults
      rw [List.length_map, List.length_zip, length_of_mapM_eq_ok hhandlers, List.length_attach,
        Nat.min_self] at hlength
      refine ⟨List.prefix_rfl, fun report states hreport hmet => ?_⟩
      obtain rfl := Except.ok.inj hreport
      have hresults : results = states.map fun state => some (.ok state) :=
        (Goal.met_report_iff hlength _ _).1 hmet
      rw [hresults, List.length_map] at hlength
      refine ⟨hlength, fun i state hstate => hplaced i _ ?_⟩
      show results[i]? = _
      rw [hresults, List.getElem?_map, hstate, Option.map_some]

end BatchTerms

/-! ## Handlers -/

theorem Goal.verdict_eq_met {g : Goal} {accepts : Resource → Bool}
    (hg : g.condition? = some accepts) (r : WaitReport) : g.verdict r = r.met := by
  cases g with
  | ready => cases hg
  | _ => rfl

/-- The states of a batch whose condition is met, each attained by its own resource. -/
def AttainedEach (accepts : Resource → Bool) (before record : List Event) (reg : Registry)
    (rs states : List Resource) : Prop :=
  states.length = rs.length ∧ ∀ (i : Nat) (state : Resource), states[i]? = some state →
    ∃ handler, ∃ hi : i < rs.length, reg.resolveFor rs[i] = .ok handler ∧
      Attained accepts before record handler rs[i].ns rs[i] state

/-- A container attains what its members attain. -/
theorem AttainedEach.members {accepts : Resource → Bool} {before record : List Event}
    {reg : Registry} {ns : Option String} {r result : Resource} {ms states : List Resource}
    (h : AttainedEach accepts before record reg ms states) (opened : r.members = .ok ms)
    (closed : r.withMembers states = .ok result) :
    Attained accepts before record (.members reg) ns r result := by
  obtain ⟨hlength, heach⟩ := h
  refine .members opened hlength (fun m hm => ?_) (fun i h m state hm hresolve hstate => ?_) closed
  · obtain ⟨i, hi, rfl⟩ := List.getElem_of_mem hm
    obtain ⟨handler, _, hresolve, -⟩ := heach i _ (List.getElem?_eq_getElem (hlength ▸ hi))
    exact ⟨handler, hresolve⟩
  · obtain ⟨handler, hi, hresolve', hattained⟩ := heach i state hstate
    obtain rfl : ms[i] = m := Option.some.inj ((List.getElem?_eq_getElem hi).symm.trans hm)
    obtain rfl := Except.ok.inj (hresolve'.symm.trans hresolve)
    exact hattained

/-- A batch of waits that attain states has a verdict only if every resource has attained one. -/
theorem BatchTerms.ensures_verdict {t : BatchTerms} {reg : Registry} {g : Goal}
    {accepts : Resource → Bool} (hg : g.condition? = some accepts) {rs : List Resource}
    {wait : Waits σ rs} {heard : σ → List Event} {before : List Event}
    (ensures : Ensures heard before reg wait fun handler r =>
      Attains accepts before handler r.1.ns r.1) :
    (t.waitBy reg g rs wait).Ensures heard before fun record result =>
      ∀ states, result.bind g.verdict = .ok states →
        AttainedEach accepts before record reg rs states := by
  intro w hw
  refine (ensures_waitBy (fun handler r => lasting_attains accepts before handler r.1.ns r.1)
    ensures w hw).mono fun record result _ h states hstates => ?_
  cases result with
  | error f => cases hstates
  | ok report =>
    have hmet : report.met = .ok states := (Goal.verdict_eq_met hg report).symm.trans hstates
    obtain ⟨hlength, hplaced⟩ := h report states rfl hmet
    refine ⟨hlength, fun i state hstate => ?_⟩
    obtain ⟨handler, hi, hresolve, hattains⟩ := hplaced i state hstate
    exact ⟨handler, hi, hresolve, hattains state rfl⟩

/-- A wait for a condition comes to a failure or to a state that the resource has attained since. -/
theorem Handler.ensures_wait {o : Outside σ} {heard : σ → List Event} (records : o.Records heard)
    {g : Goal} {accepts : Resource → Bool} (hg : g.condition? = some accepts) (before : List Event)
    (h : Handler) (ns : Option String) (r : Resource) (limit : Duration) (backoff : Backoff) :
    (h.wait o g ns r limit backoff).Ensures heard before (Attains accepts before h ns r) := by
  intro w hw
  show (Handler.wait o g h ns r limit backoff w).Ensures heard _ _
  -- The members of a container are waited for as a batch, each by a handler that may be a container
  -- again; the data of a member is less deep than that of its container.
  cases h with
  | remote x =>
    rw [Handler.wait]
    refine (x.ensures_wait records hg before ns r limit backoff w hw).mono ?_
    intro record result _ sighted state hstate
    obtain ⟨accepted, events, observes, added⟩ := sighted state hstate
    exact .remote accepted observes added
  | members reg =>
    rw [Handler.wait]
    refine Activity.Ensures.app ?_ hw
    split
    · refine Activity.ensures_pure fun record _ state hstate => ?_
      cases hstate
    · next ms hms =>
      refine (BatchTerms.ensures_verdict hg fun handler m budget _ =>
        Handler.ensures_wait records hg before handler m.1.ns m.1 budget backoff).bind
          fun result w _ hresult => ⟨List.prefix_rfl, fun state hstate => ?_⟩
      cases hverdict : result.bind g.verdict with
      | error f =>
        rw [hverdict] at hstate
        cases hstate
      | ok states =>
        rw [hverdict] at hstate
        exact (hresult states hverdict).members hms hstate
termination_by r.data.depth
decreasing_by exact Resource.depth_of_members_eq_ok ‹_› m.2

end Rollout
