/-
  What a wait that follows a resource inquires, one inquiry after the other.

  An inquiry reads the state, or watches for the changes after a version. A source answers in any
  way: it may fail to read, refuse a watch, or cut one off. Following a resource at an API server
  is following it by one such source (`follow_eq_followBy`). Any source can be made to keep a
  journal of what it was asked and what it answered (`Source.journaled`); this changes nothing else
  (`forgets_followBy`), and what the journal comes to say follows from what one inquiry adds to it
  (`Carries.followBy`).
-/
import Rollout.Proofs.Activity.Result
import Rollout.Proofs.Activity.Throughout
import Rollout.Wait.Follow

namespace Rollout

variable {σ : Type}

/-! ## Inquiries -/

inductive Inquiry where
  | state
  | changes (since : String)
deriving DecidableEq, Repr

abbrev Inquiry.Answer : Inquiry → Type
  | .state => Except Failure (Option Resource)
  | .changes _ => Except Failure (List WatchItem)

/-- What is inquired to go on from a version: the changes after it, or the state if there is none.
-/
def Inquiry.due : Option String → Inquiry
  | none => .state
  | some v => .changes v

/-- The version that a watch is asked for. -/
def Inquiry.since? : Inquiry → Option String
  | .state => none
  | .changes since => some since

/-- An inquiry with what was answered to it. -/
abbrev Finding := (q : Inquiry) × q.Answer

/-- The reports of a watch, up to the first one that is an error or could not be had. -/
def delivered : List WatchItem → List WatchEvent
  | [] | .error _ :: _ | .ok (.error _) :: _ => []
  | .ok e :: rest => e :: delivered rest

/-- What cut a watch off, if it was not just closed. -/
def cutOff? : List WatchItem → Option ApiFault
  | [] => none
  | .error fault :: _ => some fault
  | .ok (.error s) :: _ => some (.refused s)
  | .ok _ :: rest => cutOff? rest

/-- The reports that a watch delivered. -/
def Finding.reports : Finding → List WatchEvent
  | ⟨.changes _, .ok items⟩ => delivered items
  | _ => []

/-- How inquiries are answered. -/
structure Source (σ : Type) where
  answer : (q : Inquiry) → Activity σ q.Answer

/-- An API server that is asked about the resource `given`. -/
def ServedKind.source (k : ServedKind) (o : Outside σ) (ns : Option String) (given : Resource) :
    Source σ where
  answer
    | .state => Action.perform o (k.reload ns given)
    | .changes since => Action.perform o (k.watchFrom ns given.name since {})

theorem ServedKind.source_changes (k : ServedKind) (o : Outside σ) (ns : Option String)
    (given : Resource) (since : String) :
    (k.source o ns given).answer (.changes since) =
      Action.perform o (k.watchFrom ns given.name since {}) := by
  simp only [source]

/-- Watches for the changes after a version: by one request with this version, if it can be built.
-/
def ServedKind.watchOnce (k : ServedKind) (o : Outside σ) (ns : Option String)
    (name since : String) : Activity σ (Except Failure (List WatchItem)) :=
  match Http.Target.request? .get (k.collectionPath ns) (watchParameters name since {}) none with
  | some request => do return .ok (WatchEvent.ofBody (← o.answer (.request request)).body)
  | none => return .error (.api .unbuildable)

theorem ServedKind.source_changes_eq_watchOnce (k : ServedKind) (o : Outside σ)
    (ns : Option String) (given : Resource) (since : String) :
    (k.source o ns given).answer (.changes since) = k.watchOnce o ns given.name since := by
  rw [source_changes, watchFrom, watchOnce]
  generalize Http.Target.request? _ _ _ _ = request
  cases request <;> rfl

/-! ## Following by a source -/

namespace WaitTerms

variable (t : WaitTerms)

/-- The version to watch from: the one that is known, else that of the state. -/
def sinceBy (src : Source σ) (version : Option String) :
    Activity σ (Except Failure (String ⊕ Resource)) :=
  match version with
  | some v => return .ok (.inl v)
  | none => return (← src.answer .state).map t.startFrom

/-- One attempt: the reading of the state, if there is no version, and one watch. -/
def attemptBy (src : Source σ) (version : Option String) :
    Activity σ (Except Failure (Heard ⊕ Resource)) := do
  match ← t.sinceBy src version with
  | .error f => return .error f
  | .ok (.inr r) => return .ok (.inr r)
  | .ok (.inl since) => return .ok (t.heard since (← src.answer (.changes since)))

def followOnceBy (src : Source σ) (p : Progress) :
    Activity σ (Progress ⊕ Except Failure Resource) := do
  match ← t.attemptBy src p.version with
  | .error f => return .inr (.error f)
  | .ok (.inr r) => return .inr (.ok r)
  | .ok (.inl h) => do
    Activity.sleep (t.delayAfter p h)
    return .inl ⟨h.version, t.backoff.next (t.delayAfter p h)⟩

/-- Follows a resource by what a source answers, until a state of it is accepted. -/
def followBy (src : Source σ) (version : Option String) (turns : Nat) :
    Activity σ (Except Failure Resource) :=
  t.bounded (Activity.repeated (t.followOnceBy src) turns ⟨version, t.backoff.initial⟩)

variable (o : Outside σ) (k : ServedKind) (ns : Option String)

theorem perform_since (version : Option String) :
    Action.perform o (t.since k ns version) = t.sinceBy (k.source o ns t.given) version := by
  cases version with
  | some v => rfl
  | none => exact funext fun w => Action.perform_map o t.startFrom (k.reload ns t.given) w

theorem perform_attempt (version : Option String) :
    Action.perform o (t.attempt k ns version) = t.attemptBy (k.source o ns t.given) version := by
  funext w
  refine (Action.perform_bind o (t.since k ns version) _ w).trans ?_
  rw [perform_since]
  refine congrArg (Course.bind _) (funext fun start => ?_)
  match start with
  | .error f => rfl
  | .ok (.inr r) => rfl
  | .ok (.inl since) =>
    funext w'
    refine (Action.perform_map o (t.heard since) (Action.attempt _) w').trans ?_
    rw [Action.perform_attempt, Course.bind_assoc, ← ServedKind.source_changes]
    rfl

theorem follow_eq_followBy (version : Option String) (turns : Nat) :
    t.follow o k ns version turns = t.followBy (k.source o ns t.given) version turns := by
  have once : t.followOnce o k ns = t.followOnceBy (k.source o ns t.given) :=
    funext fun p => congrArg (· >>= _) (t.perform_attempt o k ns p.version)
  rw [follow, once]
  rfl

end WaitTerms

/-! ## Journals -/

/-- What was asked and answered so far, and what is asked now. -/
structure Journal where
  answered : List Finding := []
  pending : Option Inquiry := none

namespace Journal

/-- All inquiries, in order. -/
def asked (j : Journal) : List Inquiry := j.answered.map Sigma.fst ++ j.pending.toList

def ask (j : Journal) (q : Inquiry) : Journal := { j with pending := some q }

def note (j : Journal) (f : Finding) : Journal := ⟨j.answered ++ [f], none⟩

end Journal

namespace Source

/-- The source with a journal beside its state. -/
def journaled (src : Source σ) : Source (σ × Journal) where
  answer q := fun w =>
    ((src.answer q w.withoutRecord).besideRecord (w.state.2.ask q)).bind fun answer w =>
      .ended { w with state := (w.state.1, w.state.2.note ⟨q, answer⟩) } answer

variable (src : Source σ)

theorem forgets_journaled (q : Inquiry) : (src.journaled.answer q).Forgets (src.answer q) := by
  intro w
  refine (Course.forget_bind _ (g := fun a w => .ended w a) fun a w => rfl).trans ?_
  rw [Course.forget_besideRecord, Course.bind_ended]

theorem throughout_journaled (q : Inquiry) {pre held : Journal → Prop}
    {post : Journal → q.Answer → Prop} (hask : ∀ j, pre j → held (j.ask q))
    (hnote : ∀ j answer, pre j → post (j.note ⟨q, answer⟩) answer) :
    (src.journaled.answer q).Throughout pre held post := by
  intro w hw
  have asked : ((src.answer q w.withoutRecord).besideRecord (w.state.2.ask q)).Throughout held
      fun j _ => j = w.state.2.ask q :=
    Course.Throughout.besideRecord (hask _ hw) _ fun _ => rfl
  refine asked.bind fun answer w' hw' => ?_
  show post (w'.state.2.note ⟨q, answer⟩) answer
  rw [hw']
  exact hnote w.state.2 answer hw

end Source

namespace WaitTerms

variable {t : WaitTerms}

/-- A journal is kept without any influence on following. -/
theorem forgets_followBy (t : WaitTerms) (src : Source σ) (version : Option String) (turns : Nat) :
    (t.followBy src.journaled version turns).Forgets (t.followBy src version turns) := by
  have since (version : Option String) :
      (t.sinceBy src.journaled version).Forgets (t.sinceBy src version) := by
    cases version with
    | some v => exact Activity.forgets_pure _
    | none => exact (src.forgets_journaled .state).bind fun _ => Activity.forgets_pure _
  have attempt (version : Option String) :
      (t.attemptBy src.journaled version).Forgets (t.attemptBy src version) := by
    refine (since version).bind fun start => ?_
    match start with
    | .error f | .ok (.inr r) => exact Activity.forgets_pure _
    | .ok (.inl since) =>
      exact (src.forgets_journaled (.changes since)).bind fun _ => Activity.forgets_pure _
  have once (p : Progress) : (t.followOnceBy src.journaled p).Forgets (t.followOnceBy src p) := by
    refine (attempt p.version).bind fun attempted => ?_
    match attempted with
    | .error f | .ok (.inr r) => exact Activity.forgets_pure _
    | .ok (.inl h) => exact (Activity.forgets_sleep _).bind fun _ => Activity.forgets_pure _
  refine ((Activity.forgets_repeated once turns _).within t.limit).bind fun result => ?_
  cases result <;> exact Activity.forgets_pure _

/-! ## What a journal comes to say -/

/-- What holds of a journal that an attempt has come to, which yields something to go on from or is
the end. -/
def Reached {β : Type} (inv : β → Journal → Prop) (post : Journal → Except Failure Resource → Prop)
    (j : Journal) : Except Failure (β ⊕ Resource) → Prop
  | .error f => post j (.error f)
  | .ok (.inl b) => inv b j
  | .ok (.inr r) => post j (.ok r)

/-- What holds between two inquiries (`inv`, of the version to go on from), at all times (`held`)
and at the end (`post`), and why it does. -/
structure Carries (t : WaitTerms) (inv : Option String → Journal → Prop) (held : Journal → Prop)
    (post : Journal → Except Failure Resource → Prop) : Prop where
  idle {version : Option String} {j : Journal} (h : inv version j) : held j
  ask {version : Option String} {j : Journal} (h : inv version j) : held (j.ask (.due version))
  read {j : Journal} (answer : Except Failure (Option Resource)) (h : inv none j) :
    Reached (fun v => inv (some v)) post (j.note ⟨.state, answer⟩) (answer.map t.startFrom)
  watch {v : String} {j : Journal} (answer : Except Failure (List WatchItem)) (h : inv (some v) j) :
    Reached (fun heard => inv heard.version) post (j.note ⟨.changes v, answer⟩)
      (.ok (t.heard v answer))
  late {j : Journal} (h : held j) : post j (.error t.timeout)

namespace Carries

variable {inv : Option String → Journal → Prop} {held : Journal → Prop}
  {post : Journal → Except Failure Resource → Prop}

theorem sinceBy (h : t.Carries inv held post) (src : Source σ) (version : Option String) :
    (t.sinceBy src.journaled version).Throughout (inv version) held
      (Reached (fun v => inv (some v)) post) := by
  cases version with
  | some v => exact Activity.throughout_pure fun _ hj => hj
  | none =>
    have read : (src.journaled.answer .state).Throughout (inv none) held fun j answer =>
        Reached (fun v => inv (some v)) post j (answer.map t.startFrom) :=
      src.throughout_journaled .state (fun _ hj => h.ask hj) fun _ answer hj => h.read answer hj
    exact read.bind fun answer => Activity.throughout_pure fun _ hj => hj

theorem attemptBy (h : t.Carries inv held post) (src : Source σ) (version : Option String) :
    (t.attemptBy src.journaled version).Throughout (inv version) held
      (Reached (fun heard => inv heard.version) post) := by
  refine (h.sinceBy src version).bind fun start => ?_
  match start with
  | .error f | .ok (.inr r) => exact Activity.throughout_pure fun _ hj => hj
  | .ok (.inl v) =>
    have watch : (src.journaled.answer (.changes v)).Throughout (inv (some v)) held fun j answer =>
        Reached (fun heard => inv heard.version) post j (.ok (t.heard v answer)) :=
      src.throughout_journaled (.changes v) (fun _ hj => h.ask hj) fun _ answer hj =>
        h.watch answer hj
    exact watch.bind fun answer => Activity.throughout_pure fun _ hj => hj

theorem followBy (h : t.Carries inv held post) (src : Source σ) (version : Option String)
    (turns : Nat) :
    (t.followBy src.journaled version turns).Throughout (inv version) held post := by
  have once (p : Progress) : (t.followOnceBy src.journaled p).Throughout (inv p.version) held
      fun j next => Sum.elim (fun p => inv p.version j) (post j) next := by
    refine (h.attemptBy src p.version).bind fun attempted => ?_
    match attempted with
    | .error f | .ok (.inr r) => exact Activity.throughout_pure fun _ hj => hj
    | .ok (.inl heard) =>
      exact (Activity.throughout_sleep _ fun _ hj => h.idle hj).bind fun _ =>
        Activity.throughout_pure fun _ hj => hj
  have loop := Activity.throughout_repeated once (fun p j hj => h.idle hj) turns
    ⟨version, t.backoff.initial⟩
  refine (loop.within t.limit).bind fun result => ?_
  cases result with
  | none => exact Activity.throughout_pure fun _ hj => h.late hj
  | some result => exact Activity.throughout_pure fun _ hj => hj

end Carries

end WaitTerms

/-! ## A pod that is followed -/

/-- A pod at a version. -/
def podAt (version : String) : Resource :=
  ⟨some ⟨"v1", "Pod"⟩, { name := some "a", resourceVersion := some version }, .obj []⟩

/-- A server that tells of two changes of a pod; the first watch is cut off between them. -/
def podSource : Source Unit where
  answer
    | .state => pure (.ok (some (podAt "1")))
    | .changes "1" => pure (.ok [.ok (.modified (podAt "2")), .error .transport])
    | .changes _ => pure (.ok [.ok (.bookmark "2"), .ok (.modified (podAt "3"))])

/-- The wait for the last version of the pod. -/
def podAwaited : WaitTerms :=
  ⟨podAt "1", fun r => r.version = some "3", Backoff.default, .ofMillis 100000⟩

def podFollowed : Course (Unit × Journal) (Except Failure Resource) :=
  podAwaited.followBy podSource.journaled none 5 ⟨0, 0, (), {}⟩

end Rollout
