/-
  What `BatchTerms.waitBy` comes to, whatever the waits of the single resources do.

  The waits are a parameter: any function of a handler, a resource and what is left of the time. A
  batch unfolds by a schedule of the tasks of its resources (`Unfolds`), and its report is read off
  the seats (`reportOn`). Everything in the report is determined by the log of the schedule: the
  outcomes (`Unfolds.outcomes_eq`) and whether time ran out (`Unfolds.timedOut_iff`).
-/
import Rollout.Proofs.Traversal
import Rollout.Proofs.Wait.Passage
import Rollout.Wait

namespace Rollout

/-! ## Outcomes -/

/-- What becomes of a resource, by what its wait came to. -/
theorem Goal.outcome_cases {g : Goal} {r : Resource}
    {motive : Option (Except Failure Resource) → WaitOutcome → Prop}
    (missing : motive none (.unmatched r none))
    (matched : ∀ state, motive (some (.ok state)) (.matched state))
    (skipped : ∀ f, f.isNotSupported = true → motive (some (.error f)) (.skipped r))
    (unmatched : ∀ f, motive (some (.error f)) (.unmatched r (some f)))
    (x : Option (Except Failure Resource)) : motive x (g.outcome r x) := by
  cases x with
  | none => exact missing
  | some result =>
    cases result with
    | ok state => exact matched state
    | error f =>
      simp only [outcome]
      split
      · next h => exact skipped f (Bool.and_eq_true_iff.1 h).2
      · exact unmatched f

namespace BatchTerms

variable {σ : Type} {rs : List Resource}

/-! ## The tasks of a batch -/

/-- How the resources of a batch are waited for, by a handler and with what is left of the time. -/
abbrev Waits (σ : Type) (rs : List Resource) :=
  Handler → { r // r ∈ rs } → Duration → Activity σ (Except Failure Resource)

/-- The clock can name the deadline, and the permits are not more than there may be. -/
def Fits (t : BatchTerms) (w : World σ) : Prop :=
  Activity.nanosNow w + t.limit.nanos ≤ Activity.lastInstant ∧
    ∀ n, t.permits = some n → n ≤ Activity.maxPermits

/-- One task per resource. When it starts, it is told what is left of the time that began in `w`. -/
def tasks (t : BatchTerms) (wait : Waits σ rs) (handlers : List Handler) (w : World σ) :
    List (Activity σ (Except Failure Resource)) :=
  ((handlers.zip rs.attach).map fun (h, r) => wait h r).map
    (Activity.told (Activity.nanosNow w + t.limit.nanos))

/-- From the world `w` on, in some order of turns before the deadline, the batch comes to stand as
`b`; `log` tells which tasks left, and what they came to. -/
def Unfolds (t : BatchTerms) (reg : Registry) (wait : Waits σ rs) (w : World σ)
    (log : Batch.Log (Except Failure Resource)) (b : Batch σ (Except Failure Resource)) : Prop :=
  ∃ handlers, rs.mapM reg.resolveFor = .ok handlers ∧
    Batch.Schedule (w.setTimer t.limit).1
      (Batch.opening t.permits (t.tasks wait handlers w) (w.setTimer t.limit).2) log b

/-- As `Unfolds`, through worlds that lead from `w` to `w'`, while others do no more to the record
than add to it. -/
def Passes (t : BatchTerms) (heard : σ → List Event) (reg : Registry) (wait : Waits σ rs)
    (w : World σ) (log : Batch.Log (Except Failure Resource))
    (b : Batch σ (Except Failure Resource)) (w' : World σ) : Prop :=
  ∃ handlers, rs.mapM reg.resolveFor = .ok handlers ∧
    Batch.Passage heard (w.setTimer t.limit).1
      (Batch.opening t.permits (t.tasks wait handlers w) (w.setTimer t.limit).2)
      (Batch.seat (t.tasks wait handlers w) (w.setTimer t.limit).2).2 log b w'

/-- The report on a batch that stands as `b` and goes no further. -/
def reportOn (t : BatchTerms) (g : Goal) (rs : List Resource)
    (b : Batch σ (Except Failure Resource)) : WaitReport :=
  g.report rs b.results (!b.isSettled) t.limit

variable {t : BatchTerms} {reg : Registry} {g : Goal} {wait : Waits σ rs}
  {handlers : List Handler} {w : World σ}

theorem length_tasks (h : rs.mapM reg.resolveFor = .ok handlers) :
    (t.tasks wait handlers w).length = rs.length := by
  rw [tasks, List.length_map, List.length_map, List.length_zip, length_of_mapM_eq_ok h,
    List.length_attach, Nat.min_self]

/-- The task at a place waits for the resource at that place, by the handler of it. -/
theorem tasks_getElem? (t : BatchTerms) (wait : Waits σ rs) (w : World σ)
    (h : rs.mapM reg.resolveFor = .ok handlers) {i : Nat} (hi : i < rs.length) :
    ∃ handler, reg.resolveFor rs[i] = .ok handler ∧
      (t.tasks wait handlers w)[i]? = some (Activity.told (Activity.nanosNow w + t.limit.nanos)
        (wait handler ⟨rs[i], List.getElem_mem hi⟩)) := by
  obtain ⟨handler, hget, hresolve⟩ := getElem?_of_mapM_eq_ok h hi
  have hr : rs.attach[i]? = some ⟨rs[i], List.getElem_mem hi⟩ := by
    rw [List.getElem?_eq_getElem (by rwa [List.length_attach]), List.getElem_attach]
  refine ⟨handler, hresolve, ?_⟩
  rw [tasks, List.getElem?_map, List.getElem?_map,
    List.getElem?_zip_eq_some (z := (handler, ⟨rs[i], _⟩)) |>.2 ⟨hget, hr⟩]
  rfl

/-- Every resource of the batch has its own handler. -/
theorem resolveFor_of_mem_zip (h : rs.mapM reg.resolveFor = .ok handlers) {handler : Handler}
    {r : { r // r ∈ rs }} (hmem : (handler, r) ∈ handlers.zip rs.attach) :
    reg.resolveFor r.1 = .ok handler := by
  obtain ⟨i, hget⟩ := List.mem_iff_getElem?.1 hmem
  obtain ⟨hhandler, hr⟩ := List.getElem?_zip_eq_some.1 hget
  obtain ⟨hi, hr⟩ := List.getElem?_eq_some_iff.1 hr
  rw [List.length_attach] at hi
  rw [List.getElem_attach] at hr
  obtain ⟨handler', hhandler', hresolve⟩ := getElem?_of_mapM_eq_ok h hi
  obtain rfl := Option.some.inj (hhandler.symm.trans hhandler')
  exact congrArg Subtype.val hr ▸ hresolve

/-- Every task waits for a resource of the batch, by the handler of it. -/
theorem exists_of_mem_tasks (h : rs.mapM reg.resolveFor = .ok handlers)
    {task : Activity σ (Except Failure Resource)} (htask : task ∈ t.tasks wait handlers w) :
    ∃ r handler, reg.resolveFor r.1 = .ok handler ∧
      task = Activity.told (Activity.nanosNow w + t.limit.nanos) (wait handler r) := by
  obtain ⟨_, hwait, rfl⟩ := List.mem_map.1 htask
  obtain ⟨⟨handler, r⟩, hmem, rfl⟩ := List.mem_map.1 hwait
  exact ⟨r, handler, resolveFor_of_mem_zip h hmem, rfl⟩

/-- The waits of the batch, each by the handler of its resource, never run out of turns. -/
def Tireless (reg : Registry) (wait : Waits σ rs) : Prop :=
  ∀ r handler budget, reg.resolveFor r.1 = .ok handler → (wait handler r budget).Tireless

theorem tireless_tasks (h : rs.mapM reg.resolveFor = .ok handlers) (tireless : Tireless reg wait) :
    ∀ task ∈ t.tasks wait handlers w, task.Tireless := by
  intro task htask
  obtain ⟨r, handler, hresolve, rfl⟩ := exists_of_mem_tasks h htask
  exact fun w' => tireless r handler _ hresolve w'

/-! ## Running -/

theorem not_fits_iff : ¬ t.Fits w ↔
    (decide (Activity.lastInstant < Activity.nanosNow w + t.limit.nanos) ||
      t.permits.any fun n => decide (Activity.maxPermits < n)) = true := by
  rw [Bool.or_eq_true, decide_eq_true_eq, Option.any_eq_true, Fits,
    Classical.not_and_iff_not_or_not, Nat.not_le]
  refine or_congr_right ?_
  simp only [Classical.not_forall, Nat.not_le, exists_prop, decide_eq_true_eq]

/-- A batch whose handlers are resolved runs its tasks and reports. -/
theorem waitBy_eq_bind (nonempty : rs ≠ []) (h : rs.mapM reg.resolveFor = .ok handlers) :
    t.waitBy reg g rs wait w = (Activity.batchFor t.limit t.permits
      ((handlers.zip rs.attach).map fun (h, r) => wait h r) w).bind
        fun (results, expired) => pure (.ok (g.report rs results expired t.limit)) := by
  unfold waitBy
  rw [if_neg (mt List.isEmpty_iff.1 nonempty), h]
  -- What the batch does is left open, since unfolding it would take long.
  generalize (Activity.batchFor : Duration → _ → _ → Activity σ _) = batchFor
  rfl

/-- A batch that fits runs from where all of its tasks have yet to start, and reports. -/
theorem run_waitBy_eq_bind (nonempty : rs ≠ []) (h : rs.mapM reg.resolveFor = .ok handlers)
    (fits : t.Fits w) : (t.waitBy reg g rs wait w).run =
      ((Batch.run (w.setTimer t.limit).1
        (Batch.opening t.permits (t.tasks wait handlers w) (w.setTimer t.limit).2)
        (Batch.seat (t.tasks wait handlers w) (w.setTimer t.limit).2).2).run.bind
          fun (results, expired) => pure (.ok (g.report rs results expired t.limit))).run := by
  have begun : Activity.batchFor t.limit t.permits
      ((handlers.zip rs.attach).map fun (h, r) => wait h r) w =
      Batch.run (w.setTimer t.limit).1
        (Batch.opening t.permits (t.tasks wait handlers w) (w.setTimer t.limit).2)
        (Batch.seat (t.tasks wait handlers w) (w.setTimer t.limit).2).2 :=
    if_neg (mt not_fits_iff.2 (not_not_intro fits))
  rw [waitBy_eq_bind nonempty h, Course.run_bind, begun]

theorem Passes.unfolds {heard : σ → List Event} {w' : World σ}
    {log : Batch.Log (Except Failure Resource)} {b : Batch σ (Except Failure Resource)}
    (h : t.Passes heard reg wait w log b w') : t.Unfolds reg wait w log b := by
  obtain ⟨handlers, hhandlers, hpassage⟩ := h
  exact ⟨handlers, hhandlers, hpassage.schedule⟩

/-- A batch runs to the report on what it passes to, and rests there until its deadline. -/
theorem run_waitBy_passes (heard : σ → List Event) (nonempty : rs ≠ [])
    (resolves : ∀ r ∈ rs, ∃ h, reg.resolveFor r = .ok h) (fits : t.Fits w)
    (tireless : Tireless reg wait) :
    ∃ w' log b, (t.waitBy reg g rs wait w).run = .ended w' (.ok (t.reportOn g rs b)) ∧
      t.Passes heard reg wait w log b w' ∧ b.Rests (w.setTimer t.limit).1 w' := by
  obtain ⟨handlers, hhandlers⟩ := exists_mapM_eq_ok resolves
  obtain ⟨w', log, b, hrun, hpassage, hrests⟩ :=
    Batch.run_eq_ended heard (w.setTimer t.limit).1 (Batch.tireless_opening t.permits _
      (w.setTimer t.limit).2 (tireless_tasks hhandlers tireless))
      (Batch.seat (t.tasks wait handlers w) (w.setTimer t.limit).2).2
  refine ⟨w', log, b, ?_, ⟨handlers, hhandlers, hpassage⟩, hrests⟩
  rw [run_waitBy_eq_bind nonempty hhandlers fits, hrun]
  rfl

/-- A batch runs to the report on what it unfolds to, and rests there until its deadline. -/
theorem run_waitBy (nonempty : rs ≠ []) (resolves : ∀ r ∈ rs, ∃ h, reg.resolveFor r = .ok h)
    (fits : t.Fits w) (tireless : Tireless reg wait) :
    ∃ w' log b, (t.waitBy reg g rs wait w).run = .ended w' (.ok (t.reportOn g rs b)) ∧
      t.Unfolds reg wait w log b ∧ b.Rests (w.setTimer t.limit).1 w' := by
  obtain ⟨w', log, b, hrun, hpasses, hrests⟩ :=
    run_waitBy_passes (g := g) (fun _ => []) nonempty resolves fits tireless
  exact ⟨w', log, b, hrun, hpasses.unfolds, hrests⟩

/-- A batch of one resource, whose wait ends at once. -/
theorem run_waitBy_of_one {r : Resource} {wait : Waits σ [r]} {handler : Handler} {w' : World σ}
    {a : Except Failure Resource} (resolved : reg.resolveFor r = .ok handler)
    (unlimited : t.permits = none) (fits : t.Fits w) (lasts : 0 < t.limit.ceilMillis)
    (h : wait handler ⟨r, List.mem_singleton_self r⟩ t.limit { w with timers := w.timers + 2 } =
      .ended w' a) :
    (t.waitBy reg g [r] wait w).run = .ended w' (.ok (g.report [r] [some a] false t.limit)) := by
  have hhandlers : [r].mapM reg.resolveFor = .ok [handler] :=
    mapM_eq_ok_cons_iff.2 ⟨handler, [], resolved, rfl, rfl⟩
  have before : Timer.before ⟨w.now, w.timers + 1⟩ (w.setTimer t.limit).1 = true :=
    Bool.or_eq_true_iff.2 (.inl (decide_eq_true (Nat.lt_add_of_pos_right lasts)))
  have left : (⟨Activity.nanosNow w + t.limit.nanos - w.now * Duration.nanosPerMilli⟩ : Duration) =
      t.limit := congrArg Duration.mk (Nat.add_sub_cancel_left ..)
  have started : Activity.told (Activity.nanosNow w + t.limit.nanos)
      (wait handler ⟨r, List.mem_singleton_self r⟩)
      (World.reach { w with timers := w.timers + 2 } ⟨w.now, w.timers + 1⟩) = .ended w' a := by
    show wait _ _ ⟨_ - max w.now w.now * _⟩ ⟨max w.now w.now, _, _⟩ = _
    rw [Nat.max_self, left]
    exact h
  have opening : Batch.opening t.permits (t.tasks wait [handler] w) (w.setTimer t.limit).2 =
      ⟨[.arriving ⟨w.now, w.timers + 1⟩ (Activity.told (Activity.nanosNow w + t.limit.nanos)
        (wait handler ⟨r, List.mem_singleton_self r⟩))], none⟩ := by
    rw [unlimited]
    rfl
  rw [run_waitBy_eq_bind (List.cons_ne_nil _ _) hhandlers fits, opening]
  show (Course.bind (Batch.run _ _ { w with timers := w.timers + 2 }).run _).run = _
  rw [Batch.run_eq_ended_of_one before started]
  rfl

/-- A batch that does not fit crashes as it begins. -/
theorem run_waitBy_eq_crashed (nonempty : rs ≠ [])
    (resolves : ∀ r ∈ rs, ∃ h, reg.resolveFor r = .ok h) (h : ¬ t.Fits w) :
    (t.waitBy reg g rs wait w).run = .crashed w := by
  obtain ⟨handlers, hhandlers⟩ := exists_mapM_eq_ok resolves
  have crashed : Activity.batchFor t.limit t.permits
      ((handlers.zip rs.attach).map fun (h, r) => wait h r) w = .crashed w :=
    if_pos (not_fits_iff.1 h)
  rw [waitBy_eq_bind nonempty hhandlers, Course.run_bind, crashed]
  rfl

/-! ## What a log determines -/

section Unfolds

variable {log : Batch.Log (Except Failure Resource)}
  {b : Batch σ (Except Failure Resource)}

namespace Unfolds

theorem length (h : t.Unfolds reg wait w log b) : b.seats.length = rs.length := by
  obtain ⟨handlers, hhandlers, hschedule⟩ := h
  rw [hschedule.length, Batch.length_opening, length_tasks hhandlers]

theorem left?_eq (h : t.Unfolds reg wait w log b) (i : Nat) : b.left? i = log.lookup i := by
  obtain ⟨handlers, -, hschedule⟩ := h
  rw [hschedule.left?_eq, Batch.left?_opening, Option.none_or]

theorem nodup (h : t.Unfolds reg wait w log b) : (log.map Prod.fst).Nodup := by
  obtain ⟨handlers, -, hschedule⟩ := h
  exact hschedule.nodup

theorem isSettled_iff (h : t.Unfolds reg wait w log b) :
    b.isSettled = true ↔ ∀ i < rs.length, log.lookup i ≠ none := by
  rw [Batch.isSettled_iff, h.length]
  exact forall₂_congr fun i _ => by rw [h.left?_eq]

/-- What a task came to is what the wait for its own resource reported. -/
theorem reports (h : t.Unfolds reg wait w log b) {i : Nat} {a : Except Failure Resource}
    (hi : i < rs.length) (ha : (i, some a) ∈ log) :
    ∃ handler budget, reg.resolveFor rs[i] = .ok handler ∧
      (wait handler ⟨rs[i], List.getElem_mem hi⟩ budget).Reports a := by
  obtain ⟨handlers, hhandlers, hschedule⟩ := h
  obtain ⟨task, htask, w', hreports⟩ := Batch.reports_opening _ _ _ (hschedule.reports ha)
  obtain ⟨handler, hresolve, hget⟩ := tasks_getElem? t wait w hhandlers hi
  rw [hget] at htask
  obtain rfl := Option.some.inj htask
  exact ⟨handler, _, hresolve, w', hreports⟩

theorem results_getElem? (h : t.Unfolds reg wait w log b) {i : Nat} (hi : i < rs.length) :
    b.results[i]? = some (log.lookup i).join := by
  rw [Batch.results_getElem? (h.length ▸ hi), h.left?_eq]

/-- One outcome per resource, at its place: what the log says of it. -/
theorem outcomes_eq (h : t.Unfolds reg wait w log b) :
    (t.reportOn g rs b).outcomes = rs.mapIdx fun i r => g.outcome r (log.lookup i).join := by
  refine List.ext_getElem? fun i => ?_
  show ((rs.zip b.results).map _)[i]? = _
  rw [List.getElem?_map, List.getElem?_mapIdx]
  by_cases hi : i < rs.length
  · rw [List.getElem?_zip_eq_some (z := (rs[i], (log.lookup i).join)) |>.2
      ⟨List.getElem?_eq_getElem hi, h.results_getElem? hi⟩, List.getElem?_eq_getElem hi]
    rfl
  · rw [List.getElem?_eq_none (by rw [List.length_zip]; omega),
      List.getElem?_eq_none (Nat.not_lt.1 hi)]
    rfl

/-- Time ran out if a task was cut off, or if one reported that its own time ran out. -/
theorem timedOut_iff (h : t.Unfolds reg wait w log b) :
    (t.reportOn g rs b).timedOut = true ↔
      (∃ i < rs.length, log.lookup i = none) ∨
        (t.reportOn g rs b).outcomes.any WaitOutcome.ranOut = true := by
  show (!b.isSettled || _) = true ↔ _
  rw [Bool.or_eq_true, Bool.not_eq_true', ← Bool.not_eq_true, h.isSettled_iff]
  simp only [Classical.not_forall, ne_eq, Classical.not_not, exists_prop]
  rfl

end Unfolds

end Unfolds

/-! ## Pods -/

/-- Pods with a collaborator that has a notion of readiness of its own. -/
def podRegistry : Registry := ⟨[(⟨"Pod", "v1"⟩, .collaborator "pods" true)]⟩

def pod (name : String) : Resource := ⟨some ⟨"v1", "Pod"⟩, { name := some name }, .obj []⟩

/-- One pod is ready at once, and another one never is. The wait for a third one runs out of its
time at once, and that for any other one crashes. -/
def pods : Outside Unit where
  answer
    | .awaitReady _ _ r limit => fun w =>
      if r.name = "ready" then .ended w (.ok r)
      else if r.name = "stuck" then .stuck w
      else if r.name = "late" then .ended w (.error (.waitTimeout [r] limit))
      else .crashed w
    | _ => Activity.never

/-- A batch of pods has 100 ms. -/
def podTerms (permits : Nat) : BatchTerms := ⟨.ofMillis 100, .default, some permits⟩

def podStart : World Unit := ⟨0, 0, ()⟩

theorem resolveFor_pod (name : String) :
    podRegistry.resolveFor (pod name) = .ok (.remote (.collaborator "pods" true)) := rfl

theorem resolves_pods (names : List String) :
    ∀ r ∈ names.map pod, ∃ handler, podRegistry.resolveFor r = .ok handler := by
  intro r hr
  obtain ⟨name, -, rfl⟩ := List.mem_map.1 hr
  exact ⟨_, resolveFor_pod name⟩

/-- Pods fit as long as the permits do. -/
theorem fits_podTerms_iff {s : σ} (permits : Nat) :
    (podTerms permits).Fits (⟨0, 0, s⟩ : World σ) ↔ max 1 permits ≤ Activity.maxPermits := by
  have inTime : Activity.nanosNow podStart + (Duration.ofMillis 100).nanos ≤
      Activity.lastInstant := by decide +kernel
  refine ⟨fun h => h.2 _ rfl, fun h => ⟨inTime, fun n hn => ?_⟩⟩
  obtain rfl := Option.some.inj hn
  exact h

/-- A batch of pods with one permit more than there may be. -/
def overfullTerms : BatchTerms := podTerms (Activity.maxPermits + 1)

theorem run_wait_overfull (o : Outside σ) (g : Goal) {names : List String} (nonempty : names ≠ [])
    (s : σ) : (overfullTerms.wait o podRegistry g (names.map pod) ⟨0, 0, s⟩).run =
      .crashed ⟨0, 0, s⟩ := by
  have overfull : ¬ overfullTerms.Fits (⟨0, 0, s⟩ : World σ) :=
    mt (fits_podTerms_iff _).1 (by omega)
  exact run_waitBy_eq_crashed (mt List.map_eq_nil_iff.1 nonempty) (resolves_pods names) overfull

theorem tireless_pods (c : Call) : (pods.answer c).Tireless := by
  intro w
  cases c with
  | awaitReady id ns r limit =>
    simp only [pods]
    split
    · trivial
    · split
      · trivial
      · split <;> trivial
  | _ => trivial

/-- The waits for pods never run out of turns. -/
theorem tireless_wait_pods (names : List String) (backoff : Backoff) :
    Tireless podRegistry fun handler (r : { r // r ∈ names.map pod }) budget =>
      handler.wait pods .ready r.1.ns r.1 budget backoff := by
  intro r handler budget hresolve
  obtain ⟨name, -, hname⟩ := List.mem_map.1 r.2
  rw [← hname, resolveFor_pod] at hresolve
  obtain rfl := Except.ok.inj hresolve
  intro w
  show (Handler.wait _ _ _ _ _ _ _ w).Tireless
  rw [Handler.wait]
  exact Activity.tireless_perform tireless_pods _ w

end BatchTerms

end Rollout
