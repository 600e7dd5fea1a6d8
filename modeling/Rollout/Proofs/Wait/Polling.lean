/-
  Polling never runs out of turns.

  A loop has one turn for every millisecond of its time, and some to spare. A turn of polling ends
  with a sleep of a millisecond at least, if the first delay is not zero, since delays do not
  shrink to nothing. So the time is over before the turns are, as long as nobody who answers a
  reading takes time back (`Outside.Steady`).
-/
import Rollout.Proofs.Activity.Record
import Rollout.Proofs.Activity.Result
import Rollout.Proofs.Backoff
import Rollout.Wait.Poll

namespace Rollout

variable {σ α β : Type}

/-! ## Time -/

namespace Course

/-- From the instant `n` on, the course does not take time back, and does not run out of turns. -/
def Steady (n : Nat) : Course σ α → Prop
  | .ended w _ => n ≤ w.now
  | .asleep _ t resume => n ≤ t.due ∧
      ∀ w : World σ, t.due ≤ w.now → (resume w).Steady w.now
  | .stuck _ | .crashed _ => True
  | .unsettled _ => False

theorem Steady.earlier {c : Course σ α} {m n : Nat} (h : c.Steady n) (hmn : m ≤ n) :
    c.Steady m := by
  cases c with
  | ended w a => exact Nat.le_trans hmn h
  | asleep w t resume => exact ⟨Nat.le_trans hmn h.1, h.2⟩
  | unsettled w => exact h.elim
  | _ => trivial

theorem Steady.bind {c : Course σ α} {f : α → Activity σ β} {n : Nat} (h : c.Steady n)
    (hf : ∀ a w, (f a w).Steady w.now) : (c.bind f).Steady n := by
  induction c generalizing n with
  | ended w a => exact (hf a w).earlier h
  | asleep w t resume ih => exact ⟨h.1, fun w' hw' => ih w' (h.2 w' hw')⟩
  | unsettled w => exact h.elim
  | _ => trivial

/-- A course that is cut off has enough turns if what follows a steady part of it has. -/
theorem Steady.tireless_upTo_bind {c : Course σ α} {f : α → Activity σ β} {n : Nat} {t : Timer}
    (h : c.Steady n) (hf : ∀ a w, n ≤ w.now → ((f a w).upTo t).Tireless) :
    ((c.bind f).upTo t).Tireless := by
  induction c generalizing n with
  | ended w a => exact hf a w h
  | asleep w s resume ih =>
    rw [Course.bind, Course.upTo]
    split
    · exact fun w' hw' => ih w' (h.2 w' hw') fun a w'' hw'' =>
        hf a w'' (Nat.le_trans h.1 (Nat.le_trans hw' hw''))
    · exact fun w' _ => trivial
  | stuck w => exact fun w' _ => trivial
  | crashed w => trivial
  | unsettled w => exact h.elim

end Course

/-- Nobody who answers a call takes time back or runs out of turns. -/
def Outside.Steady (o : Outside σ) : Prop := ∀ c w, (o.answer c w).Steady w.now

theorem Outside.Steady.perform {o : Outside σ} (ho : o.Steady) (p : Program α) (w : World σ) :
    (p.perform o w).Steady w.now := by
  induction p generalizing w with
  | done a => exact Nat.le_refl w.now
  | call c next ih => exact (ho c w).bind fun answer w' => ih answer w'

theorem Course.Steady.besideRecord {ρ : Type} {c : Course σ α} {n : Nat} (h : c.Steady n)
    (record : ρ) : (c.besideRecord record).Steady n := by
  induction c generalizing n record with
  | ended w a => exact h
  | asleep w t resume ih => exact ⟨h.1, fun w' hw' => ih w'.withoutRecord (h.2 _ hw') w'.state.2⟩
  | unsettled w => exact h.elim
  | _ => trivial

/-- Keeping a record takes no time. -/
theorem Outside.Steady.recorded {o : Outside σ} (ho : o.Steady) : o.recorded.Steady :=
  fun c w => ((ho c w.withoutRecord).besideRecord w.state.2).bind fun _ w' => Nat.le_refl w'.now

/-- A turn that ends with a sleep leaves enough turns up to a timer, if there were enough. -/
theorem Activity.tireless_upTo_sleep {f : Activity σ α} {timer : Timer} {turns n : Nat}
    {delay : Duration} (hdelay : 0 < delay.nanos) (h : timer.due - n < turns + 1)
    (hf : ∀ w : World σ, timer.due - w.now < turns → ((f w).upTo timer).Tireless) {w : World σ}
    (hw : n ≤ w.now) : (((sleep delay >>= fun _ => f) w).upTo timer).Tireless := by
  show (Course.upTo timer (.asleep (w.setTimer delay).2 (w.setTimer delay).1 fun w => f w)).Tireless
  rw [Course.upTo]
  split
  · next hin =>
    refine fun w' hw' => hf w' ?_
    have hnow : w.now < timer.due := hin.1
    have hdue : w.now + delay.ceilMillis ≤ w'.now := hw'
    have := Duration.ceilMillis_pos hdelay
    omega
  · exact fun w' _ => trivial

/-! ## Polling -/

namespace WaitTerms

variable {o : Outside σ}

/-- A loop that has enough turns up to any timer has enough of them for its own time. -/
theorem tireless_bounded (t : WaitTerms) {act : Activity σ (Except Failure Resource)}
    (h : ∀ (timer : Timer) (w : World σ), timer.due - w.now < Activity.turnsFor t.limit →
      ((act w).upTo timer).Tireless) : (t.bounded act).Tireless := by
  intro w
  refine Course.Tireless.bind (h _ (w.setTimer t.limit).2 ?_) fun result w' => ?_
  · show w.now + t.limit.ceilMillis - w.now < t.limit.ceilMillis + Activity.patience
    rw [Nat.add_sub_cancel_left]
    exact Nat.lt_add_of_pos_right (Nat.succ_pos _)
  · cases result <;> trivial

/-- Polling has enough turns up to a timer if it has more than there are milliseconds up to it. -/
theorem tireless_upTo_polling (ho : o.Steady) (t : WaitTerms) (reading : Action (Option Resource))
    (timer : Timer) {turns : Nat} {delay : Duration} (hdelay : 0 < delay.nanos) {w : World σ}
    (h : timer.due - w.now < turns) :
    ((Activity.repeated (t.pollOnce o reading) turns delay w).upTo timer).Tireless := by
  induction turns generalizing delay w with
  | zero => exact absurd h (Nat.not_lt_zero _)
  | succ turns ih =>
    show (Course.upTo timer (Course.bind (Course.bind _ _) _)).Tireless
    rw [Course.bind_assoc]
    refine (ho.perform reading.run w).tireless_upTo_bind fun answer w' hw' => ?_
    cases answer with
    | error f => trivial
    | ok current =>
      cases hfilter : current.filter t.accepts with
      | some r =>
        simp only [hfilter]
        trivial
      | none =>
        simp only [hfilter]
        -- The sleep, and then the turns that are left.
        exact Activity.tireless_upTo_sleep hdelay h (fun w => ih (t.backoff.next_pos hdelay)) hw'

/-- A poll never runs out of turns. -/
theorem tireless_poll (ho : o.Steady) (t : WaitTerms) (hdelay : 0 < t.backoff.initial.nanos)
    (reading : Action (Option Resource)) :
    (t.poll o reading (Activity.turnsFor t.limit)).Tireless :=
  t.tireless_bounded fun timer _ h => tireless_upTo_polling ho t reading timer hdelay h

/-- A poll whose first reading is accepted ends with it. -/
theorem poll_eq_ended (t : WaitTerms) {reading : Action (Option Resource)} (turns : Nat)
    {w w' : World σ} {r : Resource}
    (h : reading.perform o (w.setTimer t.limit).2 = .ended w' (.ok (some r)))
    (accepted : t.accepts r = true) : t.poll o reading (turns + 1) w = .ended w' (.ok r) := by
  have found : Option.filter t.accepts (some r) = some r := Option.filter_some_pos accepted
  have once : t.pollOnce o reading t.backoff.initial (w.setTimer t.limit).2 =
      .ended w' (.inr (.ok r)) := by
    show Course.bind (reading.perform o (w.setTimer t.limit).2) _ = _
    rw [h, Course.bind]
    simp only [found]
    rfl
  show ((Course.bind (t.pollOnce o reading t.backoff.initial (w.setTimer t.limit).2) _).upTo
    _).bind _ = _
  rw [once]
  rfl

end WaitTerms

end Rollout
