/-
  The verdict on a condition of a batch.

  The resources are those of collaborators, which wait for a condition by polling. The verdict is a
  success only if the wait for every resource came to a state, and then each state was accepted and
  was answered to a reload of its own resource while the batch was waited for. Otherwise it fails
  with the time of the batch and names, in order, all resources whose wait came to no state, whether
  it failed, was lost, ran out of its own time or was cut off (`ConditionVerdict`).

  This holds in every order of turns, and whatever else is asked of the outside at the same time.
  That a batch runs to such a verdict needs a deadline and permits that fit, and waits that do not
  run out of turns: those are waits whose first delay is not zero, if nobody takes time back.
-/
import Rollout.Proofs.Wait.Attainment
import Rollout.Proofs.Wait.Polling

namespace Rollout

variable {σ : Type}

theorem Goal.missed?_outcome (g : Goal) (r : Resource) (x : Option (Except Failure Resource)) :
    (g.outcome r x).missed? = if (x.bind Except.toOption).isNone then some r else none := by
  refine outcome_cases (motive := fun x o =>
    o.missed? = if (x.bind Except.toOption).isNone then some r else none) rfl ?_ ?_ ?_ x
  all_goals intros; rfl

namespace BatchTerms

variable {rs : List Resource}

/-- The waits of a batch, each by the handler of its resource. -/
def ownWaits (t : BatchTerms) (o : Outside σ) (g : Goal) (rs : List Resource) : Waits σ rs :=
  fun handler r budget => handler.wait o g r.1.ns r.1 budget t.backoff

/-- In order, the resources whose wait came to no state. -/
def missed (rs : List Resource) (log : Batch.Log (Except Failure Resource)) : List Resource :=
  (rs.zipIdx.filter fun p => ((log.lookup p.2).join.bind Except.toOption).isNone).map Prod.fst

/-- The verdict is what the log says of a batch that was given the time `limit`, and what was added
to the record since it was `before`. -/
structure ConditionVerdict (accepts : Resource → Bool) (reg : Registry) (rs : List Resource)
    (limit : Duration) (before record : List Event) (log : Batch.Log (Except Failure Resource))
    (verdict : Except Failure (List Resource)) : Prop where
  ok_iff : (∃ states, verdict = .ok states) ↔
    ∀ i < rs.length, ∃ state, log.lookup i = some (some (.ok state))
  ok (states : List Resource) (h : verdict = .ok states) : states.length = rs.length ∧
    ∀ (i : Nat) (hi : i < rs.length), ∃ state id ownReadiness, states[i]? = some state ∧
      log.lookup i = some (some (.ok state)) ∧ accepts state = true ∧
      reg.resolveFor rs[i] = .ok (.remote (.collaborator id ownReadiness)) ∧
      ∃ new, record = before ++ new ∧ ⟨.reload id rs[i].ns rs[i], .ok (some state)⟩ ∈ new
  otherwise (h : ¬ ∃ states, verdict = .ok states) :
    verdict = .error (.waitTimeout (missed rs log) limit) ∧ missed rs log ≠ []

variable {t : BatchTerms} {reg : Registry} {g : Goal} {w : World σ} {wait : Waits σ rs}
  {log : Batch.Log (Except Failure Resource)} {b : Batch σ (Except Failure Resource)}

/-! ## What the log says -/

theorem join_bind_toOption_eq_some_iff {x : Option (Option (Except Failure Resource))}
    {state : Resource} :
    x.join.bind Except.toOption = some state ↔ x = some (some (.ok state)) := by
  rw [bind_toOption_eq_some_iff, Option.join_eq_some_iff]

namespace Unfolds

theorem missed_reportOn (h : t.Unfolds reg wait w log b) :
    (t.reportOn g rs b).outcomes.filterMap WaitOutcome.missed? = missed rs log := by
  rw [h.outcomes_eq, List.mapIdx_eq_zipIdx_map, List.filterMap_map, missed,
    ← List.filterMap_eq_map, List.filterMap_filter]
  simp only [Function.comp_def, Goal.missed?_outcome]

/-- The condition is met by these states if, place by place, they are what the waits came to. -/
theorem met_eq_ok_iff (h : t.Unfolds reg wait w log b) {states : List Resource} :
    (t.reportOn g rs b).met = .ok states ↔ states.length = rs.length ∧
      ∀ i < rs.length, ∃ state, states[i]? = some state ∧
        log.lookup i = some (some (.ok state)) := by
  have length : b.results.length = rs.length := by rw [Batch.results, List.length_map, h.length]
  rw [reportOn, Goal.met_report_iff length]
  constructor
  · intro heq
    rw [heq, List.length_map] at length
    refine ⟨length, fun i hi => ?_⟩
    have hstate : states[i]? = some states[i] := List.getElem?_eq_getElem (length ▸ hi)
    have hresult := h.results_getElem? hi
    rw [heq, List.getElem?_map, hstate, Option.map_some] at hresult
    exact ⟨states[i], hstate, Option.join_eq_some_iff.1 (Option.some.inj hresult).symm⟩
  · rintro ⟨hlength, hstates⟩
    refine List.ext_getElem? fun i => ?_
    rw [List.getElem?_map]
    by_cases hi : i < rs.length
    · obtain ⟨state, hstate, hlog⟩ := hstates i hi
      rw [h.results_getElem? hi, hstate, hlog]
      rfl
    · rw [List.getElem?_eq_none (length ▸ Nat.not_lt.1 hi),
        List.getElem?_eq_none (hlength ▸ Nat.not_lt.1 hi)]
      rfl

theorem exists_met_iff (h : t.Unfolds reg wait w log b) :
    (∃ states, (t.reportOn g rs b).met = .ok states) ↔
      ∀ i < rs.length, ∃ state, log.lookup i = some (some (.ok state)) := by
  have matched (i : Nat) (r : Resource) : (g.outcome r (log.lookup i).join).matched?.isSome = true ↔
      ∃ state, log.lookup i = some (some (.ok state)) := by
    rw [Goal.matched?_outcome, Option.isSome_iff_exists]
    exact exists_congr fun _ => join_bind_toOption_eq_some_iff
  rw [WaitReport.exists_met_iff, h.outcomes_eq]
  constructor
  · exact fun hall i hi => (matched i rs[i]).1 (hall _ (List.mem_mapIdx.2 ⟨i, hi, rfl⟩))
  · intro hall o ho
    obtain ⟨i, hi, rfl⟩ := List.mem_mapIdx.1 ho
    exact (matched i rs[i]).2 (hall i hi)

theorem missed_ne_nil (h : ¬ ∀ i < rs.length, ∃ state, log.lookup i = some (some (.ok state))) :
    missed rs log ≠ [] := by
  obtain ⟨i, hmissed⟩ := Classical.not_forall.1 h
  obtain ⟨hi, hnone⟩ := Classical.not_imp.1 hmissed
  have hmem : rs[i] ∈ missed rs log := by
    refine List.mem_map.2 ⟨(rs[i], i), List.mem_filter.2 ⟨?_, ?_⟩, rfl⟩
    · exact List.mk_mem_zipIdx_iff_getElem?.2 (List.getElem?_eq_getElem hi)
    · rw [Option.isNone_iff_eq_none, Option.eq_none_iff_forall_ne_some]
      exact fun state hstate => hnone ⟨state, join_bind_toOption_eq_some_iff.1 hstate⟩
  exact List.ne_nil_of_mem hmem

end Unfolds

/-! ## What the record says -/

variable {o : Outside σ} {heard : σ → List Event} {accepts : Resource → Bool}

/-- In every order of turns, a state that a wait came to was attained by its own resource. -/
theorem Passes.attained (records : o.Records heard) (hg : g.condition? = some accepts)
    {w' : World σ} (h : t.Passes heard reg (t.ownWaits o g rs) w log b w') {i : Nat}
    {state : Resource} (hstate : log.lookup i = some (some (.ok state))) :
    ∃ handler, ∃ hi : i < rs.length, reg.resolveFor rs[i] = .ok handler ∧
      Attained accepts (heard w.state) (heard w'.state) handler rs[i].ns rs[i] state := by
  have ensures : Ensures heard (heard w.state) reg (t.ownWaits o g rs) fun handler r =>
      Attains accepts (heard w.state) handler r.1.ns r.1 := fun handler r budget _ =>
    handler.ensures_wait records hg (heard w.state) r.1.ns r.1 budget t.backoff
  obtain ⟨handler, hi, hresolve, hattains⟩ := h.ensures
    (fun handler r => lasting_attains accepts (heard w.state) handler r.1.ns r.1) ensures hstate
  exact ⟨handler, hi, hresolve, hattains state rfl⟩

theorem Passes.conditionVerdict (records : o.Records heard) (hg : g.condition? = some accepts)
    (polled : ∀ r ∈ rs, ∃ id ownReadiness,
      reg.resolveFor r = .ok (.remote (.collaborator id ownReadiness)))
    {w' : World σ} (h : t.Passes heard reg (t.ownWaits o g rs) w log b w') :
    ConditionVerdict accepts reg rs t.limit (heard w.state) (heard w'.state) log
      (t.reportOn g rs b).met := by
  have unfolds := h.unfolds
  refine ⟨unfolds.exists_met_iff, fun states hstates => ?_, fun hnone => ?_⟩
  · obtain ⟨length, heach⟩ := unfolds.met_eq_ok_iff.1 hstates
    refine ⟨length, fun i hi => ?_⟩
    obtain ⟨state, hstate, hlog⟩ := heach i hi
    obtain ⟨handler, _, hresolve, hattained⟩ := h.attained records hg hlog
    obtain ⟨id, ownReadiness, hpolled⟩ := polled rs[i] (List.getElem_mem hi)
    obtain rfl := Except.ok.inj (hresolve.symm.trans hpolled)
    obtain ⟨haccepts, new, hnew, hmem⟩ := hattained.of_collaborator
    exact ⟨state, id, ownReadiness, hstate, hlog, haccepts, hpolled, new, hnew, hmem⟩
  · refine ⟨?_, Unfolds.missed_ne_nil (mt unfolds.exists_met_iff.2 hnone)⟩
    rw [WaitReport.met_eq_error hnone, unfolds.missed_reportOn]
    rfl

/-! ## Running -/

/-- The waits of a batch of polled resources never run out of turns. -/
theorem tireless_ownWaits (steady : o.Steady) (hg : g.condition? = some accepts)
    (hdelay : 0 < t.backoff.initial.nanos)
    (polled : ∀ r ∈ rs, ∃ id ownReadiness,
      reg.resolveFor r = .ok (.remote (.collaborator id ownReadiness))) :
    Tireless reg (t.ownWaits o g rs) := by
  intro r handler budget hresolve w
  obtain ⟨id, ownReadiness, hpolled⟩ := polled r.1 r.2
  obtain rfl := Except.ok.inj (hresolve.symm.trans hpolled)
  show (Handler.wait o g _ r.1.ns r.1 budget t.backoff w).Tireless
  rw [Handler.wait, Remote.wait_collaborator hg]
  exact WaitTerms.tireless_poll steady ⟨r.1, accepts, t.backoff, budget⟩ hdelay _ w

/-- A batch runs to its report, also if it is empty, for which nothing has to fit. -/
theorem run_waitBy_of_fits (heard : σ → List Event)
    (resolves : ∀ r ∈ rs, ∃ h, reg.resolveFor r = .ok h) (fits : rs ≠ [] → t.Fits w)
    (tireless : Tireless reg wait) :
    ∃ w' log b, (t.waitBy reg g rs wait w).run = .ended w' (.ok (t.reportOn g rs b)) ∧
      t.Passes heard reg wait w log b w' ∧ b.Rests (w.setTimer t.limit).1 w' := by
  by_cases hrs : rs = []
  · subst hrs
    refine ⟨w, [], ⟨[], t.permits⟩, rfl, ⟨[], rfl, .rest _ List.prefix_rfl⟩, ?_, fun h => ?_⟩
    · exact Batch.quiet_of_isSettled rfl _
    · cases h
  · exact run_waitBy_passes heard hrs resolves (fits hrs) tireless

/-- The verdict on a condition of a batch of polled resources. -/
theorem wait_condition (t : BatchTerms) (o : Outside σ) {heard : σ → List Event}
    (records : o.Records heard) (reg : Registry) {g : Goal} {accepts : Resource → Bool}
    (hg : g.condition? = some accepts) (rs : List Resource)
    (polled : ∀ r ∈ rs, ∃ id ownReadiness,
      reg.resolveFor r = .ok (.remote (.collaborator id ownReadiness))) :
    (o.Steady → 0 < t.backoff.initial.nanos → Tireless reg (t.ownWaits o g rs)) ∧
    (∀ w : World σ, (rs ≠ [] → t.Fits w) → Tireless reg (t.ownWaits o g rs) →
      ∃ w' log b, (t.wait o reg g rs w).run = .ended w' (.ok (t.reportOn g rs b)) ∧
        t.Passes heard reg (t.ownWaits o g rs) w log b w' ∧
        b.Rests (w.setTimer t.limit).1 w') ∧
    ∀ (w : World σ) log b w', t.Passes heard reg (t.ownWaits o g rs) w log b w' →
      ConditionVerdict accepts reg rs t.limit (heard w.state) (heard w'.state) log
        (t.reportOn g rs b).met := by
  refine ⟨fun steady hdelay => tireless_ownWaits steady hg hdelay polled,
    fun w fits tireless => ?_, fun w log b w' h => h.conditionVerdict records hg polled⟩
  have resolves : ∀ r ∈ rs, ∃ h, reg.resolveFor r = .ok h := fun r hr => by
    obtain ⟨id, ownReadiness, hpolled⟩ := polled r hr
    exact ⟨_, hpolled⟩
  exact run_waitBy_of_fits heard resolves fits tireless

/-- Pods that are read: one is there, another one cannot be read, and no other one is there. -/
def readings : Outside Unit where
  answer
    | .reload _ _ r => fun w =>
      if r.name = "there" then .ended w (.ok (some r))
      else if r.name = "broken" then .ended w (.error .serialization)
      else .ended w (.ok none)
    | _ => Activity.never

theorem steady_readings : readings.Steady := by
  intro c w
  cases c with
  | reload id ns r =>
    simp only [readings]
    split
    · exact Nat.le_refl w.now
    · split <;> exact Nat.le_refl w.now
  | _ => trivial

theorem polled_pods (names : List String) : ∀ r ∈ names.map pod, ∃ id ownReadiness,
    podRegistry.resolveFor r = .ok (.remote (.collaborator id ownReadiness)) := by
  intro r hr
  obtain ⟨name, -, rfl⟩ := List.mem_map.1 hr
  exact ⟨_, _, resolveFor_pod name⟩

/-- Three pods, each waited for on its own: one is there, one cannot be read, one never comes. -/
theorem wait_condition_pods :
    ∃ w' log report, ((podTerms 1).wait readings.recorded podRegistry (.condition fun _ => true)
        (["there", "broken", "absent"].map pod) ⟨0, 0, (), []⟩).run = .ended w' (.ok report) ∧
      ConditionVerdict (fun _ => true) podRegistry (["there", "broken", "absent"].map pod)
        (.ofMillis 100) [] w'.state.2 log report.met := by
  obtain ⟨tireless, run, verdict⟩ := wait_condition (podTerms 1) readings.recorded
    readings.records_recorded podRegistry (g := .condition fun _ => true) rfl
    (["there", "broken", "absent"].map pod) (polled_pods _)
  have fits : (podTerms 1).Fits (⟨0, 0, (), []⟩ : World (Unit × List Event)) :=
    (fits_podTerms_iff 1).2 (by decide +kernel)
  obtain ⟨w', log, b, hrun, hpasses, -⟩ := run ⟨0, 0, (), []⟩ (fun _ => fits)
    (tireless steady_readings.recorded (by decide))
  exact ⟨w', log, _, hrun, verdict _ log b w' hpasses⟩

/-- With one permit more than there may be, there is no verdict on a pod that is there. -/
theorem no_condition_beyond_maxPermits :
    ¬ ∃ w' report, (overfullTerms.wait readings podRegistry (.condition fun _ => true)
        (["there"].map pod) podStart).run = .ended w' (.ok report) ∧
      ((∃ states, report.met = .ok states) ∨
        ∃ us d, report.met = .error (.waitTimeout us d)) := by
  rintro ⟨w', report, hrun, -⟩
  cases (run_wait_overfull readings _ (List.cons_ne_nil _ _) ()).symm.trans hrun

end BatchTerms

end Rollout
