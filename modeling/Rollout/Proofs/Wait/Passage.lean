/-
  Passages of a batch: its turns in any order, through the worlds in which they are taken.

  A passage is a schedule of which every turn begins in a world that comes after the one in which
  the turn before it has ended: time may have passed, and others may have changed the state in any
  way that only adds to the record. `Batch.run` runs through a passage, up to where nothing more is
  due before the deadline (`run_eq_ended`).

  If every task ensures something of what it comes to, so does its seat, in every turn
  (`Ensures.act?`). This holds of a passage, and of a batch that runs while others act.
-/
import Rollout.Proofs.Activity.Ensures
import Rollout.Proofs.Wait.Schedule

namespace Rollout

variable {σ α : Type}

namespace Batch

/-! ## Passages -/

/-- The entry in the log for the seat `i` that has acted: none if it is not settled. -/
def entry (b : Batch σ α) (i : Nat) : Log α := ((b.left? i).map (i, ·)).toList

/-- Turn by turn and before the deadline, the first batch becomes the second one, and the first
world the second one. -/
inductive Passage (heard : σ → List Event) (deadline : Timer) :
    Batch σ α → World σ → Log α → Batch σ α → World σ → Prop where
  | rest (b : Batch σ α) {w w' : World σ} (grows : heard w.state <+: heard w'.state) :
      Passage heard deadline b w [] b w'
  | turn {b b' b'' : Batch σ α} {i : Nat} {w w₁ w' w'' : World σ} {log : Log α}
      (grows : heard w.state <+: heard w₁.state) (may : b.MayAct deadline i)
      (act : b.act? i w₁ = some (b', w')) (next : Passage heard deadline b' w' log b'' w'') :
      Passage heard deadline b w (b'.entry i ++ log) b'' w''

theorem Passage.schedule {heard : σ → List Event} {deadline : Timer} {b b' : Batch σ α}
    {w w' : World σ} {log : Log α} (h : Passage heard deadline b w log b' w') :
    Schedule deadline b log b' := by
  induction h with
  | rest b _ => exact .rest b
  | @turn b b' b'' i w w₁ w' w'' log _ may act _ ih =>
    rw [entry]
    cases hleft : b'.left? i with
    | none => exact .turn may act hleft ih
    | some x => exact .leave may act hleft ih

/-- The turns that a batch takes as it runs are a passage, whoever keeps the record. -/
theorem Leads.passage (heard : σ → List Event) {deadline : Timer} {b b' : Batch σ α}
    {w w' w'' : World σ} (h : Leads deadline b w b' w')
    (grows : heard w'.state <+: heard w''.state) :
    ∃ log, Passage heard deadline b w log b' w'' := by
  induction h with
  | rest b w => exact ⟨[], .rest b grows⟩
  | @turn b b' b'' i t w w' w'' next before act _ ih =>
    obtain ⟨⟨s, hs, ht⟩, -⟩ := next?_eq_some next
    obtain ⟨log, hpassage⟩ := ih grows
    have unchanged : heard w.state <+: heard (w.reach t).state := List.prefix_rfl
    exact ⟨_, .turn unchanged ⟨s, t, hs, ht, before⟩ act hpassage⟩

/-- A batch of tasks that never run out of turns ends with the results of a passage that its
deadline leaves as it stands. -/
theorem run_eq_ended (heard : σ → List Event) (deadline : Timer) {b : Batch σ α} (h : b.Tireless)
    (w : World σ) : ∃ w' log b',
      (Batch.run deadline b w).run = .ended w' (b'.results, !b'.isSettled) ∧
        Passage heard deadline b w log b' w' ∧ b'.Rests deadline w' := by
  obtain ⟨b', w', hleads, hquiet, hrun⟩ := run_eq_closing deadline h w
  have state : (b'.closing deadline w').state = w'.state := by
    unfold closing
    split <;> rfl
  have grows : heard w'.state <+: heard (b'.closing deadline w').state := state ▸ List.prefix_rfl
  obtain ⟨log, hpassage⟩ := hleads.passage heard grows
  refine ⟨_, log, b', hrun, hpassage, hquiet, fun hb' => ?_⟩
  rw [closing, hb']
  exact Nat.le_max_right _ _

/-- A task on its own that ends as it starts. -/
theorem run_eq_ended_of_one {deadline t : Timer} {start : Activity σ α} {w w' : World σ} {a : α}
    (before : t.before deadline = true) (h : start (w.reach t) = .ended w' a) :
    (Batch.run deadline ⟨[.arriving t start], none⟩ w).run = .ended w' ([some a], false) := by
  have act : Batch.act? ⟨[.arriving t start], none⟩ 0 (w.reach t) =
      some (⟨[.finished a], none⟩, w') := by
    show Batch.record? _ 0 (start (w.reach t)) = _
    rw [h]
    rfl
  rw [Batch.run]
  show Course.run (if t.before deadline = true then _ else _) = _
  rw [if_pos before, Course.run]
  split
  · next b₁ w₁ heq =>
    rw [act] at heq
    obtain ⟨rfl, rfl⟩ := heq
    rw [Batch.run]
    rfl
  · next heq =>
    rw [act] at heq
    cases heq

end Batch

/-! ## What tasks ensure -/

namespace Seat

/-- Since the record was `record`, the task of the seat ensures `post`. -/
def Ensures (heard : σ → List Event) (post : List Event → α → Prop) (record : List Event) :
    Seat σ α → Prop
  | .arriving _ start | .queued start => start.Ensures heard record post
  | .running _ resume => resume.Ensures heard record post
  | .finished a => post record a
  | .idle | .lost => True

/-- What holds of a record holds of a longer one. -/
def Lasting (post : List Event → α → Prop) : Prop :=
  ∀ record record' a, record <+: record' → post record a → post record' a

variable {heard : σ → List Event} {post : List Event → α → Prop} {record record' : List Event}

theorem Ensures.later {s : Seat σ α} (h : s.Ensures heard post record) (lasting : Lasting post)
    (hrecord : record <+: record') : s.Ensures heard post record' := by
  cases s with
  | arriving t start | queued start | running t start => exact fun w hw => h w (hrecord.trans hw)
  | finished a => exact lasting _ _ _ hrecord h
  | _ => trivial

theorem Ensures.of_of? {c : Course σ α} {s : Seat σ α} (h : c.Ensures heard post record)
    (hs : of? c = some s) : s.Ensures heard post (heard c.world.state) := by
  cases c with
  | ended w a =>
    obtain rfl := Option.some.inj hs
    exact h.2
  | asleep w t resume =>
    obtain rfl := Option.some.inj hs
    exact h.2
  | unsettled w => cases hs
  | _ =>
    obtain rfl := Option.some.inj hs
    trivial

theorem Ensures.turns {s s' : Seat σ α} {w w' : World σ} (h : s.Ensures heard post (heard w.state))
    (turns : Turns w s s' w') :
    heard w.state <+: heard w'.state ∧ s'.Ensures heard post (heard w'.state) := by
  cases turns with
  | queued t start => exact ⟨List.prefix_rfl, h⟩
  | started t hs | resumed t hs =>
    have hcourse := h w List.prefix_rfl
    exact ⟨hcourse.prefix_world, .of_of? hcourse hs⟩

end Seat

namespace Batch

variable {heard : σ → List Event} {post : Nat → List Event → α → Prop}
  {record record' : List Event}

/-- The task of every seat ensures what is asked of that seat. -/
def Ensures (heard : σ → List Event) (post : Nat → List Event → α → Prop) (record : List Event)
    (seats : List (Seat σ α)) : Prop :=
  ∀ i (s : Seat σ α), seats[i]? = some s → s.Ensures heard (post i) record

theorem Ensures.set {seats : List (Seat σ α)} (h : Ensures heard post record seats) {i : Nat}
    {s : Seat σ α} (hs : s.Ensures heard (post i) record) :
    Ensures heard post record (seats.set i s) := by
  intro j s' hs'
  by_cases hij : i = j
  · subst hij
    have hi := (List.getElem?_eq_some_iff.1 hs').1
    rw [List.getElem?_set_self (List.length_set ▸ hi)] at hs'
    exact Option.some.inj hs' ▸ hs
  · rw [List.getElem?_set_ne hij] at hs'
    exact h j s' hs'

theorem Ensures.admits {seats seats' : List (Seat σ α)} (h : Ensures heard post record seats)
    (hadmits : Admits seats seats') : Ensures heard post record seats' := by
  obtain rfl | ⟨i, t, start, hqueued, rfl⟩ := hadmits
  · exact h
  · have hstart : (Seat.queued start).Ensures heard (post i) record := h i _ hqueued
    exact h.set (s := .running t start) hstart

/-- A turn keeps what the tasks ensure, and only adds to the record. -/
theorem Ensures.act? {b b' : Batch σ α} {i : Nat} {w w' : World σ}
    (h : Ensures heard post (heard w.state) b.seats) (lasting : ∀ i, Seat.Lasting (post i))
    (act : b.act? i w = some (b', w')) :
    heard w.state <+: heard w'.state ∧ Ensures heard post (heard w'.state) b'.seats := by
  obtain ⟨s, s', w₁, hs, turns, hadmits, hstate⟩ := act?_eq_some_turns act
  obtain ⟨hgrows, hs'⟩ := (h i s hs).turns turns
  rw [hstate]
  have later : Ensures heard post (heard w₁.state) b.seats :=
    fun j s hs => (h j s hs).later (lasting j) hgrows
  exact ⟨hgrows, (later.set hs').admits hadmits⟩

theorem Ensures.left? {b : Batch σ α} (h : Ensures heard post record b.seats) {i : Nat} {a : α}
    (ha : b.left? i = some (some a)) : post i record a := by
  obtain ⟨s, hs, hleft⟩ := Option.bind_eq_some_iff.1 ha
  have hpost := h i s hs
  cases s with
  | finished a' =>
    obtain rfl := Option.some.inj (Option.some.inj hleft)
    exact hpost
  | _ => cases hleft

theorem Ensures.results {b : Batch σ α} (h : Ensures heard post record b.seats) {i : Nat} {a : α}
    (ha : b.results[i]? = some (some a)) : post i record a := by
  have hi : i < b.seats.length := by
    have := (List.getElem?_eq_some_iff.1 ha).1
    rwa [Batch.results, List.length_map] at this
  rw [results_getElem? hi] at ha
  exact h.left? (Option.join_eq_some_iff.1 (Option.some.inj ha))

/-- A passage keeps what the tasks ensure. -/
theorem Passage.ensures {deadline : Timer} {b b' : Batch σ α} {w w' : World σ} {log : Log α}
    (h : Passage heard deadline b w log b' w') (lasting : ∀ i, Seat.Lasting (post i))
    (hb : Ensures heard post (heard w.state) b.seats) :
    heard w.state <+: heard w'.state ∧ Ensures heard post (heard w'.state) b'.seats := by
  have later {b : Batch σ α} {w w' : World σ} (hb : Ensures heard post (heard w.state) b.seats)
      (grows : heard w.state <+: heard w'.state) : Ensures heard post (heard w'.state) b.seats :=
    fun i s hs => (hb i s hs).later (lasting i) grows
  induction h with
  | rest b grows => exact ⟨grows, later hb grows⟩
  | turn grows _ act _ ih =>
    obtain ⟨hact, hb'⟩ := (later hb grows).act? lasting act
    obtain ⟨hgrows, hb''⟩ := ih hb'
    exact ⟨(grows.trans hact).trans hgrows, hb''⟩

/-- A batch that runs while others act ensures what its tasks ensure. -/
theorem ensures_run (deadline : Timer) (lasting : ∀ i, Seat.Lasting (post i)) {b : Batch σ α}
    {w : World σ} (h : Ensures heard post (heard w.state) b.seats) :
    (Batch.run deadline b w).Ensures heard
      (fun record r => r.1.length = b.seats.length ∧
        ∀ i a, r.1[i]? = some (some a) → post i record a) (heard w.state) := by
  -- The induction is that of `run_eq_ended`; while the batch sleeps, the record may grow, which the
  -- seats stand as all they ensure is lasting.
  have acc : Acc Follows b := WellFoundedRelation.wf.apply b
  induction acc generalizing w with
  | intro b _ ih =>
    have later {w' : World σ} (hw' : heard w.state <+: heard w'.state) :
        Ensures heard post (heard w'.state) b.seats :=
      fun i s hs => (h i s hs).later (lasting i) hw'
    have ended {w' : World σ} (hw' : heard w.state <+: heard w'.state) (expired : Bool) :
        (Course.ended w' (b.results, expired)).Ensures heard
          (fun record r => r.1.length = b.seats.length ∧
            ∀ i a, r.1[i]? = some (some a) → post i record a) (heard w'.state) :=
      ⟨List.prefix_rfl, List.length_map _, fun i a ha => (later hw').results ha⟩
    rw [Batch.run]
    split
    · exact ended List.prefix_rfl _
    · split
      · next i t hnext =>
        split
        · refine ⟨List.prefix_rfl, fun w' hw' => ?_⟩
          dsimp only
          split
          · next b' w'' hact =>
            obtain ⟨hgrows, hb'⟩ := (later hw').act? lasting hact
            refine (ih b' (follows_act? hact) hb').earlier hgrows |>.mono ?_
            rintro record r - ⟨hlength, hpost⟩
            exact ⟨hlength.trans (length_of_act? hact), hpost⟩
          · exact List.prefix_rfl
        · exact ⟨List.prefix_rfl, fun w' hw' => ended hw' true⟩
      · exact ⟨List.prefix_rfl, fun w' hw' => ended hw' true⟩

/-- Tasks that have yet to start ensure what they ensure wherever they start. -/
theorem ensures_opening (permits : Option Nat) {tasks : List (Activity σ α)} (w : World σ)
    (h : ∀ i (task : Activity σ α), tasks[i]? = some task → task.Ensures heard record (post i)) :
    Ensures heard post record (opening permits tasks w).seats := by
  intro i s hs
  obtain ⟨t, ht⟩ := seat_getElem? tasks w i
  rw [opening, ht] at hs
  obtain ⟨task, htask, rfl⟩ := Option.map_eq_some_iff.1 hs
  exact h i task htask

theorem state_seat (tasks : List (Activity σ α)) (w : World σ) :
    (seat tasks w).2.state = w.state := by
  induction tasks generalizing w with
  | nil => rfl
  | cons task rest ih => exact ih _

end Batch

theorem Activity.ensures_told {heard : σ → List Event} {first : List Event}
    {post : List Event → α → Prop} {task : Duration → Activity σ α} (deadline : Nat)
    (h : ∀ budget, (task budget).Ensures heard first post) :
    (told deadline task).Ensures heard first post :=
  fun w hw => h _ w hw

/-- Tasks side by side ensure what each of them ensures. -/
theorem Activity.ensures_batchFor {heard : σ → List Event} {first : List Event}
    {post : Nat → List Event → α → Prop} (lasting : ∀ i, Seat.Lasting (post i)) (limit : Duration)
    (cap : Option Nat) {tasks : List (Duration → Activity σ α)}
    (h : ∀ i (task : Duration → Activity σ α), tasks[i]? = some task → ∀ budget,
      (task budget).Ensures heard first (post i)) :
    (batchFor limit cap tasks).Ensures heard first fun record r =>
      r.1.length = tasks.length ∧ ∀ i a, r.1[i]? = some (some a) → post i record a := by
  intro w hw
  unfold batchFor
  dsimp only
  split
  · exact List.prefix_rfl
  · have opening : Batch.Ensures heard post (heard w.state)
        (Batch.opening cap (tasks.map (told (nanosNow w + limit.nanos)))
          (w.setTimer limit).2).seats := by
      refine Batch.ensures_opening cap (w.setTimer limit).2 fun i task htask => ?_
      rw [List.getElem?_map, Option.map_eq_some_iff] at htask
      obtain ⟨task', htask', rfl⟩ := htask
      exact fun w' hw' => ensures_told _ (h i task' htask') w' (hw.trans hw')
    have state : (Batch.seat (tasks.map (told (nanosNow w + limit.nanos)))
        (w.setTimer limit).2).2.state = w.state := Batch.state_seat _ _
    rw [← state] at opening
    have hrun := Batch.ensures_run (w.setTimer limit).1 lasting opening
    rw [state, Batch.length_opening, List.length_map] at hrun
    exact hrun

end Rollout
