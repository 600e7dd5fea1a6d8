/-
  Waiting is punctual: a wait lets time pass only while it sleeps, if the outside does so.

  This holds of every wait of a handler, whatever it waits for: polling and following are loops of
  calls and sleeps, and a batch acts only as its timers fire. A container waits for its members as a
  batch does.
-/
import Rollout.Proofs.Wait.Register

namespace Rollout

variable {σ α : Type}

/-! ## Batches -/

namespace Batch

/-- A batch acts only as its timers fire. -/
theorem punctual_run {first : Nat} {deadline : Timer} (hdeadline : first ≤ deadline.order)
    {b : Batch σ α} (h : b.Punctual first) {w : World σ} (hw : first ≤ w.timers) :
    (Batch.run deadline b w).Punctual first w := by
  -- Every turn leads to a batch that follows, as in the recursion of `Batch.run`.
  have acc : Acc Follows b := WellFoundedRelation.wf.apply b
  induction acc generalizing w with
  | intro b _ ih =>
    have cutOff : (Course.asleep w deadline fun w => .ended w (b.results, true)).Punctual first w :=
      ⟨.refl w, hdeadline, fun w' _ _ => .refl w'⟩
    rw [Batch.run]
    split
    · exact .refl w
    · split
      · next i t hnext =>
        obtain ⟨⟨s, hs, ht⟩, -⟩ := next?_eq_some hnext
        split
        · refine ⟨.refl w, (h s (List.mem_of_getElem? hs)).first_le ht, fun w₁ due hw₁ => ?_⟩
          dsimp only
          split
          · next b' w' hact =>
            obtain ⟨hb', hw'⟩ := punctual_act? h hs ht due hw₁ hact
            exact (ih b' (follows_act? hact) hb' (Nat.le_trans hw₁ hw'.timers)).earlier hw'
          · exact .refl w₁
        · exact cutOff
      · exact cutOff

end Batch

theorem Activity.punctual_batchFor (limit : Duration) (cap : Option Nat)
    {tasks : List (Duration → Activity σ α)}
    (h : ∀ task ∈ tasks, ∀ budget, (task budget).Punctual) :
    (batchFor limit cap tasks).Punctual := by
  intro first w hw
  unfold batchFor
  dsimp only
  split
  · exact .refl w
  · have told : ∀ task ∈ tasks.map (told (nanosNow w + limit.nanos)), task.Punctual := by
      intro task htask
      obtain ⟨task', htask', rfl⟩ := List.mem_map.1 htask
      exact fun first w' => h task' htask' _ first w'
    have begun := Batch.atOnce_seat (tasks.map (Activity.told (nanosNow w + limit.nanos)))
      (w.setTimer limit).2
    have set := World.AtOnce.setTimer w limit
    refine (Batch.punctual_run hw (fun s hs => ?_) ?_).earlier (set.trans begun)
    · obtain ⟨t, task, rfl, htask, -, horder⟩ := Batch.mem_seat hs
      exact ⟨Nat.le_trans hw (Nat.le_of_succ_le horder), told task htask⟩
    · exact Nat.le_trans hw (Nat.le_trans set.timers begun.timers)

theorem BatchTerms.punctual_waitBy (t : BatchTerms) {reg : Registry} (g : Goal)
    {rs : List Resource} {wait : Waits σ rs} (h : Punctual reg wait) :
    (t.waitBy reg g rs wait).Punctual := by
  unfold waitBy
  split
  · exact Activity.punctual_pure _
  · split
    · exact Activity.punctual_pure _
    · next handlers hhandlers =>
      refine Activity.Punctual.bind (Activity.punctual_batchFor _ _ fun task htask budget => ?_)
        fun result => Activity.punctual_pure _
      obtain ⟨⟨handler, r⟩, hmem, rfl⟩ := List.mem_map.1 htask
      exact h r handler budget (resolveFor_of_mem_zip hhandlers hmem)

/-! ## Handlers -/

namespace WaitTerms

variable {o : Outside σ}

theorem punctual_bounded (t : WaitTerms) {act : Activity σ (Except Failure Resource)}
    (h : act.Punctual) : (t.bounded act).Punctual :=
  (h.within t.limit).bind fun result => by
    cases result with
    | some result => exact Activity.punctual_pure _
    | none => exact Activity.punctual_pure _

theorem punctual_poll (ho : o.Punctual) (t : WaitTerms) (reading : Action (Option Resource))
    (turns : Nat) : (t.poll o reading turns).Punctual := by
  refine t.punctual_bounded (Activity.punctual_repeated (fun delay => ?_) turns _)
  refine (Program.punctual_perform ho _).bind fun answer => ?_
  cases answer with
  | error f => exact Activity.punctual_pure _
  | ok current =>
    cases hfilter : current.filter t.accepts with
    | some r =>
      simp only [hfilter]
      exact Activity.punctual_pure _
    | none =>
      simp only [hfilter]
      exact (Activity.punctual_sleep delay).bind fun _ => Activity.punctual_pure _

theorem punctual_follow (ho : o.Punctual) (t : WaitTerms) (k : ServedKind) (ns : Option String)
    (version : Option String) (turns : Nat) : (t.follow o k ns version turns).Punctual := by
  refine t.punctual_bounded (Activity.punctual_repeated (fun p => ?_) turns _)
  refine (Program.punctual_perform ho _).bind fun answer => ?_
  cases answer with
  | error f => exact Activity.punctual_pure _
  | ok heard =>
    cases heard with
    | inl h => exact (Activity.punctual_sleep _).bind fun _ => Activity.punctual_pure _
    | inr r => exact Activity.punctual_pure _

end WaitTerms

theorem Remote.punctual_wait {o : Outside σ} (ho : o.Punctual) (g : Goal) (x : Remote)
    (ns : Option String) (r : Resource) (limit : Duration) (backoff : Backoff) :
    (x.wait o g ns r limit backoff).Punctual := by
  cases x with
  | collaborator id ownReadiness =>
    cases g with
    | ready =>
      rw [Remote.wait]
      split
      · exact Program.punctual_perform ho _
      · exact Activity.punctual_pure _
    | condition accepts | conditionFrom accepts version =>
      exact WaitTerms.punctual_poll ho _ _ _
  | served id k =>
    cases g with
    | ready =>
      rw [Remote.wait]
      split
      · exact WaitTerms.punctual_follow ho _ _ _ _ _
      · exact Activity.punctual_pure _
    | condition accepts | conditionFrom accepts version =>
      exact WaitTerms.punctual_follow ho _ _ _ _ _

/-- A wait of a handler lets time pass only while it sleeps. -/
theorem Handler.punctual_wait {o : Outside σ} (ho : o.Punctual) (g : Goal) (h : Handler)
    (ns : Option String) (r : Resource) (limit : Duration) (backoff : Backoff) :
    (h.wait o g ns r limit backoff).Punctual := by
  -- The data of a member is less deep than that of its container.
  cases h with
  | remote x =>
    rw [Handler.wait]
    exact x.punctual_wait ho g ns r limit backoff
  | members reg =>
    rw [Handler.wait]
    split
    · exact Activity.punctual_pure _
    · next ms hms =>
      refine Activity.Punctual.bind (BatchTerms.punctual_waitBy _ g fun m handler budget _ =>
        Handler.punctual_wait ho g handler m.1.ns m.1 budget backoff) fun report =>
          Activity.punctual_pure _
termination_by r.data.depth
decreasing_by exact Resource.depth_of_members_eq_ok ‹_› m.2

end Rollout
