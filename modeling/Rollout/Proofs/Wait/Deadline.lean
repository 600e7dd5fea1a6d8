/-
  A batch of waits is over by its deadline.

  A course is over by an instant if, whatever others do while it sleeps, it comes to an end or
  crashes no later than at this instant (`Course.OverBy`). Every timer of punctual tasks was set
  after that of the deadline; so a batch stands at an instant before its deadline as long as it acts
  at all, and is cut off there (`Batch.overBy_run`). This does not need tasks that ever end.

  A batch does not go on for ever at one instant, either: no wait of a handler runs out of turns if
  nobody takes time back and the first delay is not zero (`Handler.tireless_wait`).
-/
import Rollout.Proofs.Wait.FirstMatch
import Rollout.Proofs.Wait.Punctual

namespace Rollout

variable {σ α β : Type}

/-! ## Courses that are over -/

namespace Course

/-- Whenever the timers fire that the course sleeps for, it has come to an end by the instant `n`.
While it sleeps, others may set timers and change the state. -/
def OverBy (n : Nat) : Course σ α → Prop
  | .asleep w t resume => ∀ w' : World σ, w'.now = max w.now t.due → w.timers ≤ w'.timers →
      (resume w').OverBy n
  | .ended w _ | .crashed w | .unsettled w => w.now ≤ n
  | .stuck _ => False

namespace OverBy

variable {c : Course σ α} {m n : Nat}

theorem mono (h : c.OverBy m) (hmn : m ≤ n) : c.OverBy n := by
  induction c with
  | asleep w t resume ih => exact fun w' hw' ht => ih w' (h w' hw' ht)
  | stuck w => exact h.elim
  | _ => exact Nat.le_trans h hmn

/-- What follows a course that is over by `m` begins by `m`. -/
theorem bind {f : α → Activity σ β} (h : c.OverBy m) (hmn : m ≤ n)
    (hf : ∀ a w, w.now ≤ m → (f a w).OverBy n) : (c.bind f).OverBy n := by
  induction c with
  | ended w a => exact hf a w h
  | asleep w t resume ih => exact fun w' hw' ht => ih w' (h w' hw' ht)
  | stuck w => exact h.elim
  | crashed w | unsettled w => exact Nat.le_trans h hmn

theorem of_bind {f : α → Activity σ β} {w : World σ} {a : α} (h : (c.bind f).OverBy n)
    (hc : c.run = .ended w a) : (f a w).OverBy n := by
  induction c with
  | ended w' a' =>
    obtain ⟨rfl, rfl⟩ := Course.ended.inj hc
    exact h
  | asleep w' t resume ih => exact ih _ (h (w'.reach t) rfl (Nat.le_refl _)) hc
  | _ => cases hc

/-- Unless others do something, a course that is over by `n` ends or crashes by `n`. -/
theorem run (h : c.OverBy n) (tireless : c.Tireless) :
    (∃ w a, c.run = .ended w a ∧ w.now ≤ n) ∨ ∃ w, c.run = .crashed w ∧ w.now ≤ n := by
  induction c with
  | ended w a => exact .inl ⟨w, a, rfl, h⟩
  | asleep w t resume ih =>
    exact ih _ (h (w.reach t) rfl (Nat.le_refl _)) (tireless _ (Nat.le_max_right _ _))
  | stuck w => exact h.elim
  | crashed w => exact .inr ⟨w, rfl, h⟩
  | unsettled w => exact tireless.elim

end OverBy

/-- A punctual course is not over before it begins. -/
theorem Punctual.le_of_overBy {c : Course σ α} {first n : Nat} {since : World σ}
    (h : c.Punctual first since) (hsince : first ≤ since.timers) (hover : c.OverBy n) :
    since.now ≤ n := by
  induction c generalizing since with
  | ended w a | crashed w | unsettled w => exact h.now ▸ hover
  | stuck w => exact hover.elim
  | asleep w t resume ih =>
    have htimers : first ≤ w.timers := Nat.le_trans hsince h.1.timers
    have later := ih _ (h.2.2 (w.reach t) (Nat.le_max_right _ _) htimers) htimers
      (hover (w.reach t) rfl (Nat.le_refl _))
    rw [← h.1.now]
    exact Nat.le_trans (Nat.le_max_left _ _) later

/-- Whoever takes no time back and never runs out of turns does not run out of turns. -/
theorem Steady.tireless {c : Course σ α} {n : Nat} (h : c.Steady n) : c.Tireless := by
  induction c generalizing n with
  | asleep w t resume ih => exact fun w' hw' => ih w' (h.2 w' hw')
  | unsettled w => exact h.elim
  | _ => trivial

end Course

/-! ## Batches -/

namespace Batch

/-- A batch of punctual tasks is over by its deadline, whatever its tasks come to. -/
theorem overBy_run {deadline : Timer} {start : Nat} (hstart : start ≤ deadline.due)
    {b : Batch σ α} {w : World σ} (h : InTime deadline start b w) :
    (Batch.run deadline b w).OverBy deadline.due := by
  -- Every turn leads to a batch that follows, as in the recursion of `Batch.run`.
  have acc : Acc Follows b := WellFoundedRelation.wf.apply b
  induction acc generalizing w with
  | intro b _ ih =>
    have inTime {b : Batch σ α} {w : World σ} (h : InTime deadline start b w) :
        w.now ≤ deadline.due := by
      rcases h.inTime with hw | hw <;> omega
    have cutOff : (Course.asleep w deadline fun w => .ended w (b.results, true)).OverBy
        deadline.due := by
      intro w' hw' _
      show w'.now ≤ deadline.due
      exact Nat.le_of_eq (hw'.trans (Nat.max_eq_right (inTime h)))
    rw [Batch.run]
    split
    · exact inTime h
    · split
      · next i t hnext =>
        obtain ⟨⟨s, hs, ht⟩, -⟩ := next?_eq_some hnext
        split
        · next before =>
          intro w₁ hnow htimers
          have fires : Fires (fun _ => ()) t w w₁ := ⟨hnow, htimers, rfl⟩
          have h₁ := h.fires hs ht before fires
          dsimp only
          split
          · next b' w' hact =>
            have due : t.due ≤ w₁.now := hnow ▸ Nat.le_max_right _ _
            exact ih b' (follows_act? hact) (h₁.act? hs ht due hact)
          · exact inTime h₁
        · exact cutOff
      · exact cutOff

theorem tireless_run {deadline : Timer} {b : Batch σ α} (h : b.Tireless) (w : World σ) :
    (Batch.run deadline b w).Tireless := by
  have acc : Acc Follows b := WellFoundedRelation.wf.apply b
  induction acc generalizing w with
  | intro b _ ih =>
    rw [Batch.run]
    split
    · trivial
    · split
      · next i t hnext =>
        obtain ⟨⟨s, hs, ht⟩, -⟩ := next?_eq_some hnext
        split
        · intro w₁ due
          obtain ⟨b₁, w₁', hact₁, hb₁⟩ := tireless_act? h hs ht due
          dsimp only
          split
          · next b' w' hact =>
            obtain ⟨rfl, rfl⟩ := hact₁.symm.trans hact
            exact ih _ (follows_act? hact) hb₁ _
          · next hact => cases hact₁.symm.trans hact
        · exact fun w' _ => trivial
      · exact fun w' _ => trivial

end Batch

namespace Activity

variable {tasks : List (Duration → Activity σ α)} {limit : Duration} {cap : Option Nat}

theorem overBy_batchFor (h : ∀ task ∈ tasks, ∀ budget, (task budget).Punctual) (w : World σ) :
    (batchFor limit cap tasks w).OverBy (w.now + limit.ceilMillis) := by
  have told : ∀ task ∈ tasks.map (told (nanosNow w + limit.nanos)), task.Punctual := by
    intro task htask
    obtain ⟨task', htask', rfl⟩ := List.mem_map.1 htask
    exact fun first w' => h task' htask' _ first w'
  unfold batchFor
  dsimp only
  split
  · exact Nat.le_add_right _ _
  · exact Batch.overBy_run (Nat.le_add_right _ _) (Batch.inTime_opening cap told w limit)

theorem tireless_batchFor (h : ∀ task ∈ tasks, ∀ budget, (task budget).Tireless) :
    (batchFor limit cap tasks).Tireless := by
  intro w
  have told : ∀ task ∈ tasks.map (told (nanosNow w + limit.nanos)), task.Tireless := by
    intro task htask
    obtain ⟨task', htask', rfl⟩ := List.mem_map.1 htask
    exact fun w' => h task' htask' _ w'
  unfold batchFor
  dsimp only
  split
  · trivial
  · exact Batch.tireless_run (Batch.tireless_opening cap _ _ told) _

end Activity

namespace BatchTerms

variable {t : BatchTerms} {reg : Registry} {g : Goal} {rs : List Resource} {wait : Waits σ rs}

/-- A batch has its result at once, or runs the waits of its resources. -/
theorem waitBy_cases (t : BatchTerms) (reg : Registry) (g : Goal) (wait : Waits σ rs)
    (w : World σ) : (∃ result, t.waitBy reg g rs wait w = .ended w result) ∨
      ∃ (tasks : List (Duration → Activity σ (Except Failure Resource)))
          (f : _ → Except Failure WaitReport),
        (∀ task ∈ tasks, ∃ r handler, reg.resolveFor r.1 = .ok handler ∧ task = wait handler r) ∧
        t.waitBy reg g rs wait w =
          (Activity.batchFor t.limit t.permits tasks w).bind fun x => pure (f x) := by
  by_cases empty : rs = []
  · subst empty
    exact .inl ⟨_, rfl⟩
  · cases hresolve : rs.mapM reg.resolveFor with
    | error f =>
      refine .inl ⟨.error f, ?_⟩
      rw [waitBy, if_neg (mt List.isEmpty_iff.1 empty), hresolve]
      rfl
    | ok handlers =>
      refine .inr ⟨_, _, fun task htask => ?_, waitBy_eq_bind empty hresolve⟩
      obtain ⟨⟨handler, r⟩, hmem, rfl⟩ := List.mem_map.1 htask
      exact ⟨r, handler, resolveFor_of_mem_zip hresolve hmem, rfl⟩

/-- Punctual waits for a batch are over by the time of the batch. -/
theorem overBy_waitBy (h : Punctual reg wait) (w : World σ) :
    (t.waitBy reg g rs wait w).OverBy (w.now + t.limit.ceilMillis) := by
  obtain ⟨result, heq⟩ | ⟨tasks, f, htasks, heq⟩ := waitBy_cases t reg g wait w
  · rw [heq]
    exact Nat.le_add_right _ _
  · rw [heq]
    have punctual : ∀ task ∈ tasks, ∀ budget, (task budget).Punctual := by
      intro task htask budget
      obtain ⟨r, handler, hresolve, rfl⟩ := htasks task htask
      exact h r handler budget hresolve
    exact (Activity.overBy_batchFor punctual w).bind (Nat.le_refl _) fun _ _ hw => hw

theorem tireless_waitBy (h : Tireless reg wait) : (t.waitBy reg g rs wait).Tireless := by
  intro w
  obtain ⟨result, heq⟩ | ⟨tasks, f, htasks, heq⟩ := waitBy_cases t reg g wait w
  · rw [heq]
    trivial
  · rw [heq]
    have tireless : ∀ task ∈ tasks, ∀ budget, (task budget).Tireless := by
      intro task htask budget
      obtain ⟨r, handler, hresolve, rfl⟩ := htasks task htask
      exact h r handler budget hresolve
    exact (Activity.tireless_batchFor tireless w).bind fun _ _ => trivial

end BatchTerms

/-! ## Handlers -/

section Tireless

variable {o : Outside σ} {backoff : Backoff}

theorem Outside.Steady.tireless_perform (ho : o.Steady) (p : Program α) :
    (p.perform o).Tireless := Activity.tireless_perform (fun c w => (ho c w).tireless) p

theorem Remote.tireless_wait (ho : o.Steady) (hdelay : 0 < backoff.initial.nanos) (g : Goal)
    (x : Remote) (ns : Option String) (r : Resource) (limit : Duration) :
    (x.wait o g ns r limit backoff).Tireless := by
  cases x with
  | collaborator id ownReadiness =>
    cases g with
    | ready =>
      rw [Remote.wait]
      split
      · exact ho.tireless_perform _
      · exact fun w => trivial
    | condition accepts | conditionFrom accepts version =>
      exact WaitTerms.tireless_poll ho _ hdelay _
  | served id k =>
    have follow (accepts : Resource → Bool) (version : Option String) :
        ((⟨r, accepts, backoff, limit⟩ : WaitTerms).follow o k ns version
          (Activity.turnsFor limit)).Tireless := by
      rw [WaitTerms.follow_eq_followBy]
      exact WaitTerms.tireless_followBy (ho.source k ns r) hdelay version
    cases g with
    | ready =>
      rw [Remote.wait]
      split
      · exact follow _ _
      · exact fun w => trivial
    | condition accepts | conditionFrom accepts version => exact follow _ _

/-- The wait of a handler never runs out of turns. -/
theorem Handler.tireless_wait (ho : o.Steady) (hdelay : 0 < backoff.initial.nanos) (g : Goal)
    (h : Handler) (ns : Option String) (r : Resource) (limit : Duration) :
    (h.wait o g ns r limit backoff).Tireless := by
  -- The data of a member is less deep than that of its container.
  cases h with
  | remote x =>
    rw [Handler.wait]
    exact x.tireless_wait ho hdelay g ns r limit
  | members reg =>
    rw [Handler.wait]
    split
    · exact fun w => trivial
    · next ms hms =>
      refine fun w => Course.Tireless.bind (BatchTerms.tireless_waitBy (fun m handler budget _ =>
        Handler.tireless_wait ho hdelay g handler m.1.ns m.1 budget) w) fun _ _ => trivial
termination_by r.data.depth
decreasing_by exact Resource.depth_of_members_eq_ok ‹_› m.2

end Tireless

end Rollout
