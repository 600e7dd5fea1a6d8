/-
  Rehearsals: an outside that is kept in memory.

  Collaborators are stand-ins, each with a store and with a script of how single calls turn out. An
  API server is a list of routes with prepared responses. Every call is logged with its time.
-/
import Rollout.Activity
import Rollout.Rehearsal.Store

namespace Rollout

/-! ## Scripts -/

/-- How a call turns out. -/
inductive Effect where
  /-- As it would without a script. -/
  | proceed
  | crash
  | stuck
  /-- The wait uses up its time. -/
  | expire
  | fail (failure : Resource → Failure)
  | state (current : Option Resource)
  | deleted (found : Bool)

/-- How one call is to turn out, and after how long; one that stays counts for all further
calls. -/
structure Cue where
  after : Option Duration
  stays : Bool
  effect : Effect

/-- Cues by verb and name, separated by a slash. -/
abbrev Script := Entries (List Cue)

namespace Script

/-- Takes the cue for a call. -/
def take (s : Script) (key : String) : Option Cue × Script :=
  match Entries.find? key s with
  | some (cue :: rest) => (some cue, if cue.stays then s else Entries.insert key rest s)
  | _ => (none, s)

end Script

/-! ## Routes -/

/-- The responses to a method on a path, used in order; the last one repeats. -/
structure Route where
  method : String
  path : String
  responses : List Http.Response

namespace Route

def matches? (t : Route) (r : Http.Request) : Bool := t.method = r.method.text && t.path = r.path

/-- The route after a use of its first response. -/
def advance (t : Route) : Route :=
  match t.responses with
  | _ :: second :: rest => { t with responses := second :: rest }
  | _ => t

end Route

/-- The response of a server that serves nothing under a path. -/
def Http.Response.notFound : Http.Response where
  status := 404
  body := "\x7b\"apiVersion\":\"v1\",\"code\":404,\"kind\":\"Status\",\"message\":\"not found\","
    ++ "\"reason\":\"NotFound\",\"status\":\"Failure\"\x7d"

/-- The response to a request, and the routes after it. -/
def respond (r : Http.Request) : List Route → Http.Response × List Route
  | [] => (.notFound, [])
  | t :: rest =>
    if t.matches? r then (t.responses.head?.getD .notFound, t.advance :: rest)
    else ((respond r rest).1, t :: (respond r rest).2)

/-! ## The stage -/

/-- A stand-in for a collaborator. -/
structure StandIn where
  store : Store := {}
  script : Script := []

/-- A call and the time at which it was made. -/
structure LogEntry where
  time : Nat
  call : Call

/-- All stand-ins, the routes of the server, and the calls so far, the latest first. -/
structure Stage where
  standIns : Entries StandIn := []
  routes : List Route := []
  log : List LogEntry := []

namespace Stage

/-- Changes the stand-in of a collaborator. -/
def changeStandIn {α : Type} (id : String) (f : StandIn → α × StandIn) : Activity Stage α :=
  Activity.change fun s =>
    let (a, standIn) := f ((Entries.find? id s.standIns).getD {})
    (a, { s with standIns := Entries.insert id standIn s.standIns })

def changeStore {α : Type} (id : String) (f : Store → α × Store) : Activity Stage α :=
  changeStandIn id fun x =>
    let (a, store) := f x.store
    (a, { x with store })

/-- Logs a call. -/
def record (c : Call) : Activity Stage Unit := do
  let time ← Activity.now
  Activity.change fun s => ((), { s with log := ⟨time, c⟩ :: s.log })

/-- Answers a call to a collaborator by its cue, after its delay. Without a cue, and for a cue that
has no value for the verb, the store answers. -/
def play {α : Type} (id verb : String) (r : Resource) (limit : Option Duration)
    (value : Effect → Option α) (act : Store → Except Failure α × Store) :
    Activity Stage (Except Failure α) := do
  let cue ← changeStandIn id fun x =>
    let (cue, script) := x.script.take (verb ++ "/" ++ r.name)
    (cue, { x with script })
  let effect := (cue.map (·.effect)).getD .proceed
  match cue.bind (·.after) with
  | some delay => Activity.sleep delay
  | none => pure ()
  match effect, limit with
  | .crash, _ => Activity.crash
  | .stuck, _ => Activity.never
  | .fail failure, _ => return .error (failure r)
  | .expire, some limit => do
    Activity.sleep limit
    return .error (.waitTimeout [r] limit)
  | _, _ =>
    match value effect with
    | some a => return .ok a
    | none => changeStore id act

private def given? : Effect → Option Resource
  | .state current => current
  | _ => none

/-- The answer to a call. A request is answered at once, but its answer arrives behind whatever else
is due at the same instant. -/
def reply : (c : Call) → Activity Stage c.Answer
  | .create id ns r => play id "create" r none given? fun s => s.create ns r
  | .replace id ns r => play id "replace" r none given? fun s => s.replace ns r
  | .delete id ns _ r =>
    play id "delete" r none (fun | .deleted found => some found | _ => none) fun s =>
      (.ok (s.delete ns r).1, (s.delete ns r).2)
  | .reload id ns r =>
    play id "reload" r none (fun | .state current => some current | _ => none) fun s =>
      (.ok (s.find? ns r.name), s)
  | .watch id ns r _ => play id "watch" r none (fun _ => none) fun s => (.ok (s.watch ns r), s)
  | .awaitReady id ns r limit =>
    play id "ready" r (some limit) given? fun s => (.ok (r.addressedIn ns), s)
  | .request r => do
    let response ← Activity.change fun s =>
      let (response, routes) := respond r s.routes
      (response, { s with routes })
    Activity.sleep ⟨0⟩
    return response

/-- The outside that the stage stands in for. -/
def outside : Outside Stage := ⟨fun c => do record c; reply c⟩

end Stage

end Rollout
