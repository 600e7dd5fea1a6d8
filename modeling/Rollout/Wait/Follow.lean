/-
  Following: a resource is watched until a state of it is accepted.

  Without a version to start from the state is read first. Then the changes after the version are
  watched; when the watch ends, however that happens, it is taken up again after a delay, from the
  last version that was heard of. A watch whose version is gone (status 410) starts over from the
  state. An observed change that is not accepted starts the backoff over. Only a reading of the
  state that fails ends the wait with a failure.
-/
import Rollout.Server.Verbs
import Rollout.Wait.Poll

namespace Rollout

/-- The version that a watch is to go on from, none to start over from the state, and the delay
before the next attempt but one. -/
structure Progress where
  version : Option String
  delay : Duration
deriving DecidableEq, Repr

/-- What a watch has told so far: the last version, and whether there was a change. -/
structure Heard where
  version : Option String
  changed : Bool
deriving DecidableEq, Repr

namespace Heard

/-- The status says that the version asked for is no longer there. -/
def isGone (s : ApiStatus) : Bool := s.code = 410

/-- A watch that ended with a status. -/
def endedBy (h : Heard) (s : ApiStatus) : Heard :=
  if isGone s then { h with version := none } else h

/-- Listens to the reports of a watch, up to a state that is accepted or to the end. -/
def listen (accepts : Resource → Bool) : List WatchItem → Heard → Heard ⊕ Resource
  | [], h => .inl h
  | item :: rest, h =>
    match item with
    | .ok (.added r) | .ok (.modified r) =>
      if accepts r then .inr r else listen accepts rest ⟨r.version, true⟩
    | .ok (.deleted r) => listen accepts rest { h with version := r.version }
    | .ok (.bookmark version) => listen accepts rest { h with version := some version }
    | .ok (.error s) | .error (.refused s) => .inl (h.endedBy s)
    | .error _ => .inl h

end Heard

namespace WaitTerms

variable {σ : Type}

/-- The state as a version to watch from, or the state itself if it is accepted. -/
def startFrom (t : WaitTerms) (current : Option Resource) : String ⊕ Resource :=
  match current with
  | none => .inl ServedKind.anyVersion
  | some r => if t.accepts r then .inr r else .inl (r.version.getD ServedKind.anyVersion)

/-- The version to watch from: the one that is known, else that of the state. -/
def since (t : WaitTerms) (k : ServedKind) (ns : Option String) (version : Option String) :
    Action (String ⊕ Resource) :=
  match version with
  | some v => return .inl v
  | none => t.startFrom <$> k.reload ns t.given

/-- What was heard of a watch from `version` on. -/
def heard (t : WaitTerms) (version : String) (items : Except Failure (List WatchItem)) :
    Heard ⊕ Resource :=
  match items with
  | .ok items => Heard.listen t.accepts items ⟨some version, false⟩
  | .error (.api (.refused s)) => .inl (Heard.endedBy ⟨some version, false⟩ s)
  | .error _ => .inl ⟨some version, false⟩

/-- One attempt: the reading of the state, if there is no version, and one watch. -/
def attempt (t : WaitTerms) (k : ServedKind) (ns : Option String) (version : Option String) :
    Action (Heard ⊕ Resource) := do
  match ← t.since k ns version with
  | .inr r => return .inr r
  | .inl version => t.heard version <$> Action.attempt (k.watchFrom ns t.given.name version {})

/-- The delay that is slept after an attempt. -/
def delayAfter (t : WaitTerms) (p : Progress) (h : Heard) : Duration :=
  if h.changed then t.backoff.initial else p.delay

/-- Makes one attempt; if no state was accepted, sleeps and yields what the next one starts from. -/
def followOnce (t : WaitTerms) (o : Outside σ) (k : ServedKind) (ns : Option String)
    (p : Progress) : Activity σ (Progress ⊕ Except Failure Resource) := do
  match ← Action.perform o (t.attempt k ns p.version) with
  | .error f => return .inr (.error f)
  | .ok (.inr r) => return .inr (.ok r)
  | .ok (.inl h) => do
    Activity.sleep (t.delayAfter p h)
    return .inl ⟨h.version, t.backoff.next (t.delayAfter p h)⟩

/-- Follows a resource until a state of it is accepted. -/
def follow (t : WaitTerms) (o : Outside σ) (k : ServedKind) (ns : Option String)
    (version : Option String) (turns : Nat) : Activity σ (Except Failure Resource) :=
  t.bounded (Activity.repeated (t.followOnce o k ns) turns ⟨version, t.backoff.initial⟩)

end WaitTerms

end Rollout
