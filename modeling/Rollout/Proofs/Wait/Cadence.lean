/-
  When polling reads, and what ends it, if readings take no time.

  The readings fall on the instants of the backoff (`Backoff.instant`), counted from the instant at
  which the wait begins. A turn of polling ends with the result that its reading decides; or it goes
  on with the next reading if that is in time; or it is cut off (`run_polling_result`,
  `run_polling_next`, `run_polling_cut`). So polling comes to the first reading in time that decides
  anything, and to its timeout if there is none (`poll_cadence`).
-/
import Mathlib.Data.Nat.Find
import Rollout.Proofs.Activity.Punctual
import Rollout.Proofs.Activity.Result
import Rollout.Proofs.Backoff
import Rollout.Proofs.Program.Run
import Rollout.Proofs.Wait.Terms

namespace Rollout

variable {σ α : Type}

/-! ## Outsides that answer at once -/

/-- The calls of one instant. -/
def stamped (now : Nat) (events : List Event) : List (Nat × Event) := events.map (now, ·)

/-- Every call is answered at once, and noted, with the answer and the instant. -/
def Outside.Prompt (o : Outside σ) (noted : σ → List (Nat × Event)) : Prop :=
  ∀ c w, ∃ w' answer, o.answer c w = .ended w' answer ∧ w.AtOnce w' ∧
    noted w'.state = noted w.state ++ [(w.now, ⟨c, answer⟩)]

/-- A program is carried out at once if its calls are answered at once. -/
theorem Outside.Prompt.perform {o : Outside σ} {noted : σ → List (Nat × Event)}
    (prompt : o.Prompt noted) (p : Program α) (w : World σ) : ∃ w' a events,
      p.perform o w = .ended w' a ∧ w.AtOnce w' ∧ p.Runs events a ∧
        noted w'.state = noted w.state ++ stamped w.now events := by
  induction p generalizing w with
  | done a => exact ⟨w, a, [], rfl, .refl w, .done a, (List.append_nil _).symm⟩
  | call c next ih =>
    obtain ⟨w₁, answer, hanswer, hw₁, hnoted₁⟩ := prompt c w
    obtain ⟨w', a, events, hperform, hw', hruns, hnoted'⟩ := ih answer w₁
    refine ⟨w', a, ⟨c, answer⟩ :: events, ?_, hw₁.trans hw', .call hruns, ?_⟩
    · show (o.answer c w).bind (fun answer => (next answer).perform o) = _
      rw [hanswer]
      exact hperform
    · rw [hnoted', hnoted₁, hw₁.now, List.append_assoc]
      rfl

/-- How a state is read at once: in every world, the world in which the reading is over, what it
answers, and the calls that it makes. -/
structure Outside.Readings (o : Outside σ) (noted : σ → List (Nat × Event))
    (reading : Action (Option Resource)) where
  after : World σ → World σ
  answer : World σ → Except Failure (Option Resource)
  events : World σ → List Event
  ends (w : World σ) : reading.perform o w = .ended (after w) (answer w)
  atOnce (w : World σ) : w.AtOnce (after w)
  runs (w : World σ) : reading.run.Runs (events w) (answer w)
  notes (w : World σ) : noted (after w).state = noted w.state ++ stamped w.now (events w)

/-- Whatever is read is read at once if all calls are answered at once. -/
theorem Outside.Prompt.readings {o : Outside σ} {noted : σ → List (Nat × Event)}
    (prompt : o.Prompt noted) (reading : Action (Option Resource)) :
    Nonempty (o.Readings noted reading) := by
  choose after answer events ends atOnce runs notes using prompt.perform reading.run
  exact ⟨⟨after, answer, events, ends, atOnce, runs, notes⟩⟩

/-! ## Reading after reading -/

namespace Outside.Readings

variable {o : Outside σ} {noted : σ → List (Nat × Event)} {reading : Action (Option Resource)}
  (reads : o.Readings noted reading) (b : Backoff) (w : World σ)

/-- The world in which the reading `k` begins, if the first one begins in `w` and nothing but the
delays comes between them. -/
def world : Nat → World σ
  | 0 => w
  | k + 1 => ((reads.after (world k)).setTimer (b.delay k)).2.reach
      ((reads.after (world k)).setTimer (b.delay k)).1

/-- What the reading `k` answers. -/
def answers (k : Nat) : Except Failure (Option Resource) := reads.answer (reads.world b w k)

/-- The calls of the first `n` readings, each with its instant. -/
def calls (n : Nat) : List (Nat × Event) :=
  (List.range n).flatMap fun k =>
    stamped (b.instant w.now k) (reads.events (reads.world b w k))

theorem now_world (k : Nat) : (reads.world b w k).now = b.instant w.now k := by
  induction k with
  | zero => rfl
  | succ k ih =>
    show Nat.max (reads.after _).now ((reads.after _).now + (b.delay k).ceilMillis) = _
    rw [(reads.atOnce _).now, ih]
    exact Nat.max_eq_right (Nat.le_add_right _ _)

theorem calls_succ (n : Nat) : reads.calls b w (n + 1) = reads.calls b w n ++
    stamped (b.instant w.now n) (reads.events (reads.world b w n)) := by
  rw [calls, calls, List.range_succ, List.flatMap_append, List.flatMap_singleton]

theorem noted_world (k : Nat) :
    noted (reads.world b w k).state = noted w.state ++ reads.calls b w k := by
  induction k with
  | zero => exact (List.append_nil _).symm
  | succ k ih =>
    show noted (reads.after _).state = _
    rw [reads.notes, ih, reads.now_world, calls_succ, List.append_assoc]

theorem noted_after (k : Nat) : noted (reads.after (reads.world b w k)).state =
    noted w.state ++ reads.calls b w (k + 1) := reads.noted_world b w (k + 1)

theorem now_after (k : Nat) : (reads.after (reads.world b w k)).now = b.instant w.now k :=
  (reads.atOnce _).now.trans (reads.now_world b w k)

/-- Each reading makes one call. -/
theorem calls_eq_map {event : World σ → Event} (h : ∀ w, reads.events w = [event w]) (n : Nat) :
    reads.calls b w n =
      (List.range n).map fun k => (b.instant w.now k, event (reads.world b w k)) := by
  induction n with
  | zero => rfl
  | succ n ih =>
    rw [calls_succ, ih, h, List.range_succ, List.map_append]
    rfl

end Outside.Readings

/-- A collaborator is asked for the resource itself. -/
theorem Handler.eq_of_runs_reload {id : String} {own : Bool} {ns : Option String} {r : Resource}
    {events : List Event} {answer : Except Failure (Option Resource)}
    (h : ((remote (.collaborator id own)).reload ns r).run.Runs events answer) :
    events = [⟨.reload id ns r, answer⟩] := by
  rw [reload] at h
  exact Program.runs_ask_iff.1 h

/-! ## Turns -/

namespace WaitTerms

/-- The result of a wait that a reading decides: its failure, or the state, if that is accepted. -/
def result? (t : WaitTerms) : Except Failure (Option Resource) → Option (Except Failure Resource)
  | .error f => some (.error f)
  | .ok current => (current.filter t.accepts).map .ok

variable {o : Outside σ} {noted : σ → List (Nat × Event)} {reading : Action (Option Resource)}
  (t : WaitTerms) (reads : o.Readings noted reading) (timer : Timer) (n : Nat)

/-- A reading that decides the result ends the turn. -/
theorem pollOnce_of_result (delay : Duration) {w : World σ} {result : Except Failure Resource}
    (h : t.result? (reads.answer w) = some result) :
    t.pollOnce o reading delay w = .ended (reads.after w) (.inr result) := by
  show Course.bind (reading.perform o w) _ = _
  rw [reads.ends, Course.bind]
  cases hanswer : reads.answer w with
  | error f =>
    rw [hanswer] at h
    obtain rfl := Option.some.inj h
    rfl
  | ok current =>
    rw [hanswer] at h
    obtain ⟨state, hstate, rfl⟩ := Option.map_eq_some_iff.1 h
    simp only [hstate]
    rfl

/-- A turn whose reading decides nothing ends with a sleep. -/
theorem pollOnce_of_none (delay : Duration) {w : World σ} (h : t.result? (reads.answer w) = none) :
    t.pollOnce o reading delay w = .asleep ((reads.after w).setTimer delay).2
      ((reads.after w).setTimer delay).1 fun w' => .ended w' (.inl (t.backoff.next delay)) := by
  show Course.bind (reading.perform o w) _ = _
  rw [reads.ends, Course.bind]
  cases hanswer : reads.answer w with
  | error f =>
    rw [hanswer] at h
    cases h
  | ok current =>
    rw [hanswer] at h
    simp only [Option.map_eq_none_iff.1 h]
    rfl

/-- What polling comes to with `n` turns left, up to the timer, from a reading on that begins in
`w`. -/
def polling (t : WaitTerms) (o : Outside σ) (reading : Action (Option Resource)) (timer : Timer)
    (n : Nat) (delay : Duration) (w : World σ) : Course σ (Option (Except Failure Resource)) :=
  ((Activity.repeated (t.pollOnce o reading) n delay w).upTo timer).run

theorem polling_result (delay : Duration) {w : World σ} {result : Except Failure Resource}
    (h : t.result? (reads.answer w) = some result) :
    t.polling o reading timer (n + 1) delay w = .ended (reads.after w) (some result) := by
  show ((Course.bind (t.pollOnce o reading delay w) _).upTo timer).run = _
  rw [t.pollOnce_of_result reads delay h]
  rfl

/-- The next reading is in time. -/
theorem polling_next (delay : Duration) {w : World σ} (h : t.result? (reads.answer w) = none)
    (goes : w.now < timer.due ∧ w.now + delay.ceilMillis ≤ timer.due) :
    t.polling o reading timer (n + 1) delay w =
      t.polling o reading timer n (t.backoff.next delay)
        (((reads.after w).setTimer delay).2.reach ((reads.after w).setTimer delay).1) := by
  show ((Course.bind (t.pollOnce o reading delay w) _).upTo timer).run = _
  rw [t.pollOnce_of_none reads delay h, Course.bind, Course.upTo, if_pos]
  · rfl
  · show (reads.after w).now < timer.due ∧ (reads.after w).now + delay.ceilMillis ≤ timer.due
    rwa [(reads.atOnce w).now]

/-- The sleep before the next reading is cut off. -/
theorem polling_cut (delay : Duration) {w : World σ} (h : t.result? (reads.answer w) = none)
    (cut : ¬ (w.now < timer.due ∧ w.now + delay.ceilMillis ≤ timer.due)) :
    t.polling o reading timer (n + 1) delay w =
      .ended (((reads.after w).setTimer delay).2.reach timer) none := by
  show ((Course.bind (t.pollOnce o reading delay w) _).upTo timer).run = _
  rw [t.pollOnce_of_none reads delay h, Course.bind, Course.upTo, if_neg]
  · rfl
  · show ¬ ((reads.after w).now < timer.due ∧ (reads.after w).now + delay.ceilMillis ≤ timer.due)
    rwa [(reads.atOnce w).now]

/-! ## Runs -/

/-- The reading behind the reading `k` is in time. -/
def Goes (b : Backoff) (start due k : Nat) : Prop :=
  b.instant start k < due ∧ b.instant start (k + 1) ≤ due

/-- Polling comes to a reading if none before it decides anything and all are in time. -/
theorem polling_reaches {w : World σ} {k : Nat}
    (before : ∀ j < k, t.result? (reads.answers t.backoff w j) = none)
    (goes : ∀ j < k, Goes t.backoff w.now timer.due j) :
    t.polling o reading timer (n + k) t.backoff.initial w =
      t.polling o reading timer n (t.backoff.delay k) (reads.world t.backoff w k) := by
  induction k generalizing n with
  | zero => rfl
  | succ k ih =>
    have hk := goes k (Nat.lt_succ_self k)
    rw [← Nat.succ_add_eq_add_succ, ih (n + 1) (fun j hj => before j (Nat.lt_succ_of_lt hj))
      fun j hj => goes j (Nat.lt_succ_of_lt hj)]
    rw [t.polling_next reads timer n _ (before k (Nat.lt_succ_self k))]
    · rfl
    · rw [reads.now_world]
      exact hk

/-- The world in which the first reading begins: the timer of the wait is set. -/
def begun (t : WaitTerms) (w : World σ) : World σ := (w.setTimer t.limit).2

/-- The instant at which the timer of a wait that begins in `w` fires. -/
def due (t : WaitTerms) (w : World σ) : Nat := w.now + t.limit.ceilMillis

/-- The poll is what polling comes to, and the timeout if it is cut off. -/
theorem run_poll (o : Outside σ) (reading : Action (Option Resource)) (turns : Nat) (w : World σ) :
    (t.poll o reading turns w).run =
      ((t.polling o reading (w.setTimer t.limit).1 turns t.backoff.initial (t.begun w)).bind
        fun result w' => .ended w' (result.getD (.error t.timeout))).run := by
  refine (Course.run_bind _ _).trans ?_
  congr
  funext result
  cases result <;> rfl

variable {t} {turns k : Nat} {w : World σ}

theorem run_poll_result {result : Except Failure Resource} (hturns : k < turns)
    (before : ∀ j < k, t.result? (reads.answers t.backoff (t.begun w) j) = none)
    (goes : ∀ j < k, Goes t.backoff w.now (t.due w) j)
    (h : t.result? (reads.answers t.backoff (t.begun w) k) = some result) :
    (t.poll o reading turns w).run =
      .ended (reads.after (reads.world t.backoff (t.begun w) k)) result := by
  obtain ⟨n, rfl⟩ := Nat.exists_eq_add_of_lt hturns
  have turned : k + n + 1 = n + 1 + k := by omega
  rw [run_poll, turned, t.polling_reaches reads (w.setTimer t.limit).1 (n + 1) before goes,
    t.polling_result reads _ n _ h]
  rfl

theorem run_poll_cut (hturns : k < turns)
    (before : ∀ j ≤ k, t.result? (reads.answers t.backoff (t.begun w) j) = none)
    (goes : ∀ j < k, Goes t.backoff w.now (t.due w) j)
    (cut : ¬ Goes t.backoff w.now (t.due w) k) : ∃ w',
      (t.poll o reading turns w).run = .ended w' (.error t.timeout) ∧
      w'.now = max (t.backoff.instant w.now k) (t.due w) ∧
      noted w'.state = noted w.state ++ reads.calls t.backoff (t.begun w) (k + 1) := by
  obtain ⟨n, rfl⟩ := Nat.exists_eq_add_of_lt hturns
  have turned : k + n + 1 = n + 1 + k := by omega
  have earlier : ∀ j < k, t.result? (reads.answers t.backoff (t.begun w) j) = none :=
    fun j hj => before j (Nat.le_of_lt hj)
  rw [run_poll, turned, t.polling_reaches reads (w.setTimer t.limit).1 (n + 1) earlier goes,
    t.polling_cut reads _ n _ (before k (Nat.le_refl k))]
  · refine ⟨_, rfl, ?_, reads.noted_after t.backoff (t.begun w) k⟩
    exact congrArg (max · (t.due w)) (reads.now_after t.backoff (t.begun w) k)
  · rw [reads.now_world]
    exact cut

/-- If no reading decides anything and all are in time, the poll runs out of turns. -/
theorem run_poll_goes (none : ∀ j < turns, t.result? (reads.answers t.backoff (t.begun w) j) = none)
    (goes : ∀ j < turns, Goes t.backoff w.now (t.due w) j) : (t.poll o reading turns w).run =
      .unsettled (reads.world t.backoff (t.begun w) turns) := by
  have reached := t.polling_reaches reads (w.setTimer t.limit).1 0 none goes
  rw [Nat.zero_add] at reached
  rw [run_poll, reached]
  rfl

/-! ## Readings in time -/

/-- The reading `k` comes before the timer of the wait fires; the first one always does. -/
def InTime (t : WaitTerms) (w : World σ) (k : Nat) : Prop :=
  k = 0 ∨ t.backoff.instant w.now k < t.due w

theorem lt_turnsFor {limit : Duration} (h : k ≤ limit.ceilMillis + 1) :
    k < Activity.turnsFor limit :=
  Nat.lt_of_le_of_lt h (Nat.add_lt_add_left (by decide) _)

theorem InTime.lt_turnsFor (hinitial : 0 < t.backoff.initial.nanos) (h : t.InTime w k) :
    k < Activity.turnsFor t.limit := by
  refine WaitTerms.lt_turnsFor ?_
  rcases h with rfl | h
  · exact Nat.zero_le _
  · have reached := Nat.lt_of_le_of_lt (Backoff.add_le_instant hinitial w.now k) h
    exact Nat.le_succ_of_le (Nat.le_of_lt (Nat.lt_of_add_lt_add_left reached))

theorem InTime.goes (hinitial : 0 < t.backoff.initial.nanos) (h : t.InTime w k) :
    ∀ j < k, Goes t.backoff w.now (t.due w) j := by
  intro j hj
  have mono := Backoff.instant_strictMono hinitial w.now
  have hk : t.backoff.instant w.now k < t.due w := h.resolve_left (Nat.ne_zero_of_lt hj)
  exact ⟨Nat.lt_trans (mono hj) hk, Nat.le_trans (mono.monotone hj) (Nat.le_of_lt hk)⟩

/-- There is a last reading in time. -/
theorem exists_last (hinitial : 0 < t.backoff.initial.nanos)
    (untied : ∀ k, t.backoff.instant w.now (k + 1) ≠ t.due w) :
    ∃ last, t.due w < t.backoff.instant w.now (last + 1) ∧ ∀ k, k ≤ last ↔ t.InTime w k := by
  have mono := Backoff.instant_strictMono hinitial w.now
  have late : ∃ k, t.due w < t.backoff.instant w.now (k + 1) := by
    have reached := Backoff.add_le_instant hinitial w.now (t.limit.ceilMillis + 1)
    rw [← Nat.add_assoc] at reached
    exact ⟨_, reached⟩
  refine ⟨Nat.find late, Nat.find_spec late, fun k => ⟨fun hk => ?_, fun hk => ?_⟩⟩
  · cases k with
    | zero => exact .inl rfl
    | succ k => exact .inr (Nat.lt_of_le_of_ne (Nat.not_lt.1 (Nat.find_min late hk)) (untied k))
  · rcases hk with rfl | hk
    · exact Nat.zero_le _
    · by_contra hlt
      have := mono.monotone (Nat.succ_le_of_lt (Nat.not_le.1 hlt))
      exact absurd (Nat.find_spec late) (Nat.not_lt.2 (Nat.le_of_lt (Nat.lt_of_le_of_lt this hk)))

/-- If all calls are answered at once and the first delay is not zero, polling reads at the instants
of the backoff, each of which is the first whole millisecond that is not before the end of the delay
behind the one before it. It ends with the first reading in time that fails or answers an accepted
state, at that instant, after this reading and those before it. If there is none, then it ends with
the timeout when this is due, after all readings in time, unless one falls on this very instant. -/
theorem poll_cadence (hinitial : 0 < t.backoff.initial.nanos) (prompt : o.Prompt noted)
    (h : Handler) (ns : Option String) :
    Nonempty (o.Readings noted (h.reload ns t.given)) ∧
    ∀ (reads : o.Readings noted (h.reload ns t.given)) (w : World σ),
      (∀ k, IsLeast {ms | t.backoff.instant w.now k * Duration.nanosPerMilli +
          (t.backoff.delay k).nanos ≤ ms * Duration.nanosPerMilli}
        (t.backoff.instant w.now (k + 1))) ∧
      (∀ id own, h = .remote (.collaborator id own) → ∀ n, reads.calls t.backoff (t.begun w) n =
        (List.range n).map fun k => (t.backoff.instant w.now k,
          ⟨.reload id ns t.given, reads.answers t.backoff (t.begun w) k⟩)) ∧
      (∀ k result, t.InTime w k →
        (∀ j < k, t.result? (reads.answers t.backoff (t.begun w) j) = none) →
        t.result? (reads.answers t.backoff (t.begun w) k) = some result → ∃ w',
          (t.poll o (h.reload ns t.given) (Activity.turnsFor t.limit) w).run = .ended w' result ∧
          w'.now = t.backoff.instant w.now k ∧
          noted w'.state = noted w.state ++ reads.calls t.backoff (t.begun w) (k + 1)) ∧
      ((∀ k, t.InTime w k → t.result? (reads.answers t.backoff (t.begun w) k) = none) →
        (∀ k, t.backoff.instant w.now (k + 1) ≠ t.due w) → ∃ w' n,
          (t.poll o (h.reload ns t.given) (Activity.turnsFor t.limit) w).run =
            .ended w' (.error (.waitTimeout [t.given] t.limit)) ∧
          w'.now = t.due w ∧ (∀ k, k < n ↔ t.InTime w k) ∧
          noted w'.state = noted w.state ++ reads.calls t.backoff (t.begun w) n) := by
  refine ⟨prompt.readings _, fun reads w => ⟨t.backoff.isLeast_instant w.now, ?_, ?_, ?_⟩⟩
  · rintro id own rfl n
    exact reads.calls_eq_map t.backoff (t.begun w)
      (fun w => Handler.eq_of_runs_reload (reads.runs w)) n
  · intro k result inTime before hresult
    refine ⟨_, run_poll_result reads (inTime.lt_turnsFor hinitial) before (inTime.goes hinitial)
      hresult, reads.now_after t.backoff (t.begun w) k, reads.noted_after t.backoff (t.begun w) k⟩
  · intro undecided untied
    obtain ⟨last, late, hlast⟩ := exists_last hinitial untied
    have inTime : t.InTime w last := (hlast last).1 (Nat.le_refl last)
    obtain ⟨w', hrun, hnow, hnoted⟩ := run_poll_cut reads (inTime.lt_turnsFor hinitial)
      (fun j hj => undecided j ((hlast j).1 hj)) (inTime.goes hinitial)
      fun goes => Nat.not_lt.2 goes.2 late
    refine ⟨w', last + 1, hrun, hnow.trans ?_, fun k => Nat.lt_succ_iff.trans (hlast k), hnoted⟩
    rcases inTime with rfl | inTime
    · exact Nat.max_eq_right (Nat.le_add_right _ _)
    · exact Nat.max_eq_right (Nat.le_of_lt inTime)

end WaitTerms

/-! ## Scripted readings -/

/-- What is answered to a call if `n` calls were made before. -/
def reply (replies : Nat → Except Failure (Option Resource)) (n : Nat) : (c : Call) → c.Answer
  | .reload .. => replies n
  | .create .. | .replace .. | .delete .. | .watch .. | .awaitReady .. => .error .serialization
  | .request _ => ⟨404, ""⟩

/-- Readings are answered at once, one after the other as it is written. -/
def Outside.replying (replies : Nat → Except Failure (Option Resource)) :
    Outside (List (Nat × Event)) where
  answer c := fun w =>
    .ended { w with state := w.state ++ [(w.now, ⟨c, reply replies w.state.length c⟩)] }
      (reply replies w.state.length c)

namespace Outside

variable (replies : Nat → Except Failure (Option Resource))

theorem prompt_replying : (replying replies).Prompt id :=
  fun _ _ => ⟨_, _, rfl, ⟨rfl, Nat.le_refl _⟩, rfl⟩

/-- The readings of a collaborator. -/
def scripted (i : String) (own : Bool) (ns : Option String) (r : Resource) :
    (replying replies).Readings id ((Handler.remote (.collaborator i own)).reload ns r) where
  after w := { w with state := w.state ++ [(w.now, ⟨.reload i ns r, replies w.state.length⟩)] }
  answer w := replies w.state.length
  events w := [⟨.reload i ns r, replies w.state.length⟩]
  ends w := by
    rw [Handler.reload]
    rfl
  atOnce _ := ⟨rfl, Nat.le_refl _⟩
  runs w := by
    rw [Handler.reload]
    exact .call (.done _)
  notes _ := rfl

theorem answers_scripted (i : String) (own : Bool) (ns : Option String) (r : Resource) (b : Backoff)
    {w : World (List (Nat × Event))} (h : w.state = []) (k : Nat) :
    (scripted replies i own ns r).answers b w k = replies k := by
  have length : ((scripted replies i own ns r).world b w k).state.length = k := by
    have state := (scripted replies i own ns r).noted_world b w k
    rw [Readings.calls_eq_map _ b w fun _ => rfl, h, id, id, List.nil_append] at state
    rw [state, List.length_map, List.length_range]
  exact congrArg replies length

theorem calls_scripted (i : String) (own : Bool) (ns : Option String) (r : Resource) (b : Backoff)
    {w : World (List (Nat × Event))} (h : w.state = []) (n : Nat) :
    (scripted replies i own ns r).calls b w n =
      (List.range n).map fun k => (b.instant w.now k, ⟨.reload i ns r, replies k⟩) := by
  rw [Readings.calls_eq_map _ b w fun _ => rfl]
  refine List.map_congr_left fun k _ => ?_
  have answered := answers_scripted replies i own ns r b h k
  exact congrArg (fun answer => (_, (⟨.reload i ns r, answer⟩ : Event))) answered

end Outside

namespace WaitTerms

open BatchTerms (pod)

/-- Polling for a pod, after 5 ms first. -/
def podPolled : WaitTerms := ⟨pod "a", fun _ => true, .default, .ofMillis 100⟩

def podReading : Action (Option Resource) :=
  (Handler.remote (.collaborator "pods" false)).reload none (pod "a")

/-- The pod is read at these instants. -/
def readAt (replies : Nat → Except Failure (Option Resource)) (instants : List Nat) :
    List (Nat × Event) :=
  instants.zipIdx.map fun (now, k) => (now, ⟨.reload "pods" none (pod "a"), replies k⟩)

/-- The pod is there from the third reading on. -/
def third (k : Nat) : Except Failure (Option Resource) :=
  .ok (if 2 ≤ k then some (pod "a") else none)

/-- The readings of an outside that is empty at first. -/
theorem calls_pod (replies : Nat → Except Failure (Option Resource)) (b : Backoff)
    {w : World (List (Nat × Event))} (h : w.state = []) (n : Nat) :
    (Outside.scripted replies "pods" false none (pod "a")).calls b w n =
      readAt replies ((List.range n).map (b.instant w.now)) := by
  rw [Outside.calls_scripted _ _ _ _ _ _ h, readAt]
  refine List.ext_getElem (by simp) fun k _ _ => ?_
  simp only [List.getElem_map, List.getElem_range, List.getElem_zipIdx, Nat.zero_add]

theorem instants_podPolled :
    (List.range 6).map (podPolled.backoff.instant 0) = [0, 5, 15, 35, 75, 155] := by
  decide +kernel

theorem calls_podPolled (replies : Nat → Except Failure (Option Resource)) {n : Nat} (hn : n ≤ 6) :
    (Outside.scripted replies "pods" false none (pod "a")).calls podPolled.backoff
      (podPolled.begun ⟨0, 0, []⟩) n = readAt replies ([0, 5, 15, 35, 75, 155].take n) := by
  have start : (podPolled.begun (⟨0, 0, []⟩ : World (List (Nat × Event)))).now = 0 := rfl
  rw [calls_pod _ _ rfl, start, ← instants_podPolled, ← List.map_take, List.take_range,
    Nat.min_eq_left hn]

/-- The pod is found by the third reading, and is never found if it is not there. -/
theorem poll_cadence_pod : 0 < podPolled.backoff.initial.nanos ∧
    (∀ replies, (Outside.replying replies).Prompt id) ∧
    (∃ w, (podPolled.poll (.replying third) podReading (Activity.turnsFor podPolled.limit)
        ⟨0, 0, []⟩).run = .ended w (.ok (pod "a")) ∧ w.now = 15 ∧
      w.state = readAt third [0, 5, 15]) ∧
    ∃ w, (podPolled.poll (.replying fun _ => .ok none) podReading
        (Activity.turnsFor podPolled.limit) ⟨0, 0, []⟩).run =
        .ended w (.error (.waitTimeout [pod "a"] (.ofMillis 100))) ∧ w.now = 100 ∧
      w.state = readAt (fun _ => .ok none) [0, 5, 15, 35, 75] := by
  have hinitial : 0 < podPolled.backoff.initial.nanos := by decide
  have mono := Backoff.instant_strictMono hinitial 0
  have instants := instants_podPolled
  simp only [List.range_succ, List.range_zero, List.nil_append, List.cons_append, List.map_cons,
    List.map_nil, List.cons.injEq, and_true] at instants
  obtain ⟨h₀, h₁, h₂, h₃, h₄, h₅⟩ := instants
  have answers (replies) := Outside.answers_scripted replies "pods" false none (pod "a")
    podPolled.backoff (w := podPolled.begun ⟨0, 0, []⟩) rfl
  have cadence (replies) := (poll_cadence (t := podPolled) hinitial
    (Outside.prompt_replying replies) (.remote (.collaborator "pods" false)) none).2
    (Outside.scripted replies "pods" false none (pod "a")) ⟨0, 0, []⟩
  refine ⟨hinitial, Outside.prompt_replying, ?_, ?_⟩
  · have inTime : podPolled.InTime (⟨0, 0, []⟩ : World (List (Nat × Event))) 2 := by
      refine .inr ?_
      rw [h₂]
      decide
    have before : ∀ j < 2, podPolled.result? (third j) = none := by decide
    obtain ⟨w, hrun, hnow, hstate⟩ := (cadence third).2.2.1 2 (.ok (pod "a")) inTime
      (fun j hj => (congrArg podPolled.result? (answers third j)).trans (before j hj))
      (congrArg podPolled.result? (answers third 2))
    exact ⟨w, hrun, hnow.trans h₂, hstate.trans (calls_podPolled third (by decide : 3 ≤ 6))⟩
  · have due : podPolled.due (⟨0, 0, []⟩ : World (List (Nat × Event))) = 100 := by decide
    have untied (k : Nat) : podPolled.backoff.instant 0 (k + 1) ≠ 100 := by
      rcases Nat.lt_or_ge (k + 1) 5 with hk | hk
      · have : podPolled.backoff.instant 0 (k + 1) ≤ podPolled.backoff.instant 0 4 :=
          mono.monotone (Nat.le_of_lt_succ hk)
        omega
      · have : podPolled.backoff.instant 0 5 ≤ podPolled.backoff.instant 0 (k + 1) :=
          mono.monotone hk
        omega
    obtain ⟨w, n, hrun, hnow, hn, hstate⟩ := (cadence fun _ => .ok none).2.2.2
      (fun k _ => congrArg podPolled.result? (answers (fun _ => .ok none) k)) untied
    obtain rfl : n = 5 := by
      have fourth : 4 < n := (hn 4).2 (.inr (by rw [h₄]; decide))
      have fifth : ¬ 5 < n := by
        intro h
        have inTime := ((hn 5).1 h).resolve_left (by decide)
        rw [h₅, due] at inTime
        exact absurd inTime (by decide)
      omega
    exact ⟨w, hrun, hnow.trans due, hstate.trans (calls_podPolled _ (by decide : 5 ≤ 6))⟩

end WaitTerms

end Rollout
