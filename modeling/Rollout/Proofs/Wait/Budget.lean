/-
  One budget for a whole batch.

  However long the waits take and in whatever order they end, every call of a handler's wait is made
  between the beginning of the batch and the end of its time, and is given exactly what is left of
  the time then. So a resource that has queued for a permit gets no more than the others. The batch
  comes to its result no later than a timer for the whole time fires, and what was not over by then
  is dropped: nothing but what follows the wait acts after it (`waitBy_sharedBudget`).

  The result needs a batch that gets going (`BatchTerms.Fits`) and waits that do not run for ever at
  one instant (`BatchTerms.Tireless`).
-/
import Rollout.Proofs.Wait.Punctual

namespace Rollout

/-- What is before the first millisecond at or after the end of a span is before the end of it. -/
theorem Duration.lt_of_lt_ceilMillis {d : Duration} {n : Nat} (h : n < d.ceilMillis) :
    n * nanosPerMilli < d.nanos := by
  have le : (n + 1) * nanosPerMilli ≤ d.nanos + (nanosPerMilli - 1) :=
    (Nat.le_div_iff_mul_le (by decide)).1 h
  have pos : 0 < nanosPerMilli := by decide
  rw [Nat.succ_mul] at le
  omega

/-- A mark of a call within the time that begins at `first` and lasts up to `last`, with what is
left of it as its budget. -/
def Mark.Shares (first last : Nat) : Mark → Prop
  | called _ time budget => first ≤ time ∧ time ≤ last ∧ budget.nanos = last - time
  | ended => True

variable {σ : Type}

theorem Mark.InTime.shares {w : World σ} {limit : Duration} {m : Mark}
    (h : m.InTime w.now (w.setTimer limit).1 (Activity.nanosNow w + limit.nanos)) :
    m.Shares (Activity.nanosNow w) (Activity.nanosNow w + limit.nanos) := by
  cases m with
  | ended => trivial
  | called r time budget =>
    obtain ⟨now, rfl, hstart, hnow, rfl⟩ := h
    refine ⟨Nat.mul_le_mul_right _ hstart, ?_, rfl⟩
    rcases hnow with rfl | hnow
    · exact Nat.le_add_right _ _
    · have hlt : now - w.now < limit.ceilMillis := by
        have : now < w.now + limit.ceilMillis := hnow
        omega
      have := Duration.lt_of_lt_ceilMillis hlt
      rw [Nat.sub_mul] at this
      unfold Activity.nanosNow
      omega

namespace BatchTerms

variable {rs : List Resource} {t : BatchTerms} {reg : Registry} {g : Goal} {wait : Waits σ rs}
  {register : σ → List Mark} {w w' : World σ} {b : Batch σ (Except Failure Resource)}

theorem Timely.inTime {ρ : Type} {register : σ → ρ} (h : t.Timely register reg wait w b w')
    (punctual : Punctual reg wait) : Batch.InTime (w.setTimer t.limit).1 w.now b w' := by
  obtain ⟨handlers, hhandlers, htimely⟩ := h
  exact htimely.inTime (Batch.inTime_opening _ (punctual_tasks hhandlers punctual) w t.limit)

/-- In every timely passage, every call shares the time of the batch. -/
theorem Timely.shares (h : t.Timely register reg wait w b w') (punctual : Punctual reg wait)
    (registers : Registers register reg wait) :
    ∃ new, register w'.state = register w.state ++ new ∧
      ∀ m ∈ new, m.Shares (Activity.nanosNow w) (Activity.nanosNow w + t.limit.nanos) := by
  obtain ⟨handlers, hhandlers, htimely⟩ := h
  obtain ⟨new, -, hnew, -, -, inTime⟩ :=
    htimely.registered (registered_tasks t w hhandlers punctual registers)
  rw [Batch.state_seat] at hnew
  exact ⟨new, hnew, fun m hm => (inTime m hm).shares⟩

/-- A batch ends no later than a timer for its time fires. -/
theorem closing_le (inTime : Batch.InTime (w.setTimer t.limit).1 w.now b w') :
    (b.closing (w.setTimer t.limit).1 w').now ≤ (w.setTimer t.limit).1.due := by
  have begun : w.now ≤ (w.setTimer t.limit).1.due := Nat.le_add_right _ _
  have le : w'.now ≤ (w.setTimer t.limit).1.due := by
    rcases inTime.inTime with h | h
    · exact h ▸ begun
    · exact Nat.le_of_lt h
  unfold Batch.closing
  split
  · exact le
  · exact Nat.max_le.2 ⟨le, Nat.le_refl _⟩

theorem state_closing (deadline : Timer) (b : Batch σ (Except Failure Resource)) (w : World σ) :
    (b.closing deadline w).state = w.state := by
  unfold Batch.closing
  split <;> rfl

/-- Every call of a batch is made within its time, with what is left of it. The batch comes to its
report by the time that a timer for the whole time fires, and nothing acts any more but what
follows. -/
theorem waitBy_sharedBudget (t : BatchTerms) (reg : Registry) (g : Goal) (rs : List Resource)
    (wait : Waits σ rs) (register : σ → List Mark) (w : World σ) (punctual : Punctual reg wait)
    (registers : Registers register reg wait) :
    (∀ b w', t.Timely register reg wait w b w' →
      ∃ new, register w'.state = register w.state ++ new ∧
        ∀ m ∈ new, m.Shares (Activity.nanosNow w) (Activity.nanosNow w + t.limit.nanos)) ∧
    (rs ≠ [] → (∀ r ∈ rs, ∃ handler, reg.resolveFor r = .ok handler) → t.Fits w →
      Tireless reg wait → ∃ b w' w'', t.Timely register reg wait w b w' ∧
        (t.waitBy reg g rs wait w).run = .ended w'' (.ok (t.reportOn g rs b)) ∧
        w''.now ≤ (w.setTimer t.limit).1.due ∧ register w''.state = register w'.state ∧
        ∀ (β : Type) (next : Except Failure WaitReport → Activity σ β),
          ((t.waitBy reg g rs wait >>= next) w).run =
            (next (.ok (t.reportOn g rs b)) w'').run) ∧
    (rs = [] ∨ (∃ f, rs.mapM reg.resolveFor = .error f) →
      ∃ result, t.waitBy reg g rs wait w = .ended w result) := by
  refine ⟨fun b w' h => h.shares punctual registers, fun nonempty resolves fits tireless => ?_,
    fun h => ?_⟩
  · obtain ⟨b, w', htimely, -, hrun⟩ :=
      run_waitBy_timely (g := g) register nonempty resolves fits tireless
    refine ⟨b, w', _, htimely, hrun, closing_le (htimely.inTime punctual),
      congrArg register (state_closing _ _ _), fun β next => ?_⟩
    show (Course.bind _ _).run = _
    rw [Course.run_bind, hrun]
    rfl
  · rw [waitBy]
    split
    · exact ⟨_, rfl⟩
    · next hempty =>
      rcases h with rfl | ⟨f, hf⟩
      · exact absurd rfl hempty
      · rw [hf]
        exact ⟨_, rfl⟩

/-! ## Pods -/

theorem punctual_pods : pods.Punctual := by
  intro c first w _
  cases c with
  | awaitReady id ns r limit =>
    simp only [pods]
    split
    · exact .refl w
    · split
      · exact .refl w
      · split <;> exact .refl w
  | _ => exact .refl w

/-- The waits for pods, with a register beside the state. -/
def podWaits (names : List String) : Waits (Unit × List Mark) (names.map pod) :=
  marked fun handler r budget => handler.wait pods .ready r.1.ns r.1 budget .default

theorem punctual_podWaits (names : List String) : Punctual podRegistry (podWaits names) :=
  punctual_marked fun r handler _ _ => handler.punctual_wait punctual_pods .ready r.1.ns r.1 _ _

/-- Of three pods that are waited for one at a time, the second one is never ready. -/
theorem waitBy_sharedBudget_pods :
    ∃ w' report, ((podTerms 1).waitBy podRegistry .ready (["ready", "stuck", "ready"].map pod)
        (podWaits _) ⟨0, 0, (), []⟩).run = .ended w' (.ok report) ∧
      w'.now ≤ 100 ∧ ∀ m ∈ w'.state.2, m.Shares 0 100000000 := by
  obtain ⟨shares, returns, -⟩ := waitBy_sharedBudget (podTerms 1) podRegistry .ready
    (["ready", "stuck", "ready"].map pod) (podWaits _) Prod.snd ⟨0, 0, (), []⟩
    (punctual_podWaits _) (registers_marked _ _)
  obtain ⟨b, w', w'', htimely, hrun, hnow, hregister, -⟩ := returns (List.cons_ne_nil _ _)
    (resolves_pods _) ((fits_podTerms_iff 1).2 (by decide +kernel))
    (tireless_marked (tireless_wait_pods _ _))
  obtain ⟨new, hnew, hshares⟩ := shares b w' htimely
  refine ⟨w'', _, hrun, hnow, ?_⟩
  rw [hregister, hnew]
  exact hshares

/-- With one permit more than there may be, the wait for a pod never comes to anything. -/
theorem no_return_beyond_maxPermits :
    ¬ ∃ w' result, (overfullTerms.wait pods podRegistry .ready (["ready"].map pod) podStart).run =
        .ended w' result ∧ w'.now ≤ (podStart.setTimer (.ofMillis 100)).1.due := by
  rintro ⟨w', result, hrun, -⟩
  cases (run_wait_overfull pods .ready (List.cons_ne_nil _ _) ()).symm.trans hrun

end BatchTerms

end Rollout
