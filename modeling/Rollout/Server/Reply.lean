/-
  Replies of an API server: statuses, resources and the lines of a watch.

  A status that says that a request failed is explained by the status object in the body; if there
  is none, by the status itself. A line of a watch that is cut off is no report; one that holds a
  status object instead of a report is a refusal.
-/
import Rollout.Http
import Rollout.Json.Reader
import Rollout.Text.Quoted
import Rollout.Watch

namespace Rollout

/-! ## Statuses -/

namespace ApiStatus

private def code? (j : Json) : Option Nat := (j.intWithin? 0 65535).map Int.toNat

private def textOr (ms : Entries Json) (key : String) : Option String :=
  match Entries.find? key ms with
  | some j => j.str?
  | none => some ""

/-- Reads a status object. Its status and its code have to be there; the order of the fields is
known, so an array of all four is one as well. -/
def ofJson? : Json → Option ApiStatus
  | .obj ms => do
    return {
      code := ← (Entries.find? "code" ms).bind code?
      reason := ← textOr ms "reason"
      status := ← (Entries.find? "status" ms).bind Json.str?
      message := ← textOr ms "message" }
  | .arr [.str status, .str message, .str reason, code] =>
    (code? code).map fun code => { code, reason, status, message }
  | _ => none

/-- The status that a failed response carries. -/
def ofResponse (r : Http.Response) : ApiStatus :=
  match (Json.parse r.body).toOption.bind ofJson? with
  | some s => s
  | none => {
      code := r.status
      reason := "Failed to parse error data"
      status := Http.statusText r.status
      message := Text.quoted r.body }

end ApiStatus

/-! ## Bodies -/

namespace Http.Response

/-- The body of a successful response as a value. -/
def json (r : Response) : Except ApiFault Json :=
  if r.isFailure then .error (.refused (.ofResponse r))
  else match Json.parse r.body with
    | .ok j => .ok j
    | .error _ => .error .unreadable

/-- The body of a successful response, read by `read`. -/
def decoded {α : Type} (read : Json → Option α) (r : Response) : Except ApiFault α := do
  match read (← r.json) with
  | some a => return a
  | none => throw .unreadable

/-- The resource in a successful response. -/
def resource (r : Response) : Except ApiFault Resource := r.decoded Resource.ofJson?

end Http.Response

/-- The object that reports the outcome of a deletion. -/
def isDeletionReport (j : Json) : Bool :=
  let textOrAbsent (key : String) : Bool := match j.field? key with
    | some v => v.str?.isSome
    | none => true
  let outcome : Bool := match j.field? "status" with
    | none | some .null => true
    | some (.str s) => s = "Success" || s = "Failure"
    | some _ => false
  let code : Bool := match j.field? "code" with
    | some c => (c.intWithin? 0 65535).isSome
    | none => true
  let details : Bool := match j.field? "details" with
    | none | some .null | some (.obj _) => true
    | some _ => false
  outcome && code && details && textOrAbsent "message" && textOrAbsent "reason"

/-- What a server may answer to a deletion: a report of the outcome, or the resource. -/
def isDeletionReply (j : Json) : Bool :=
  if j.field? "kind" = some (.str "Status") then isDeletionReport j
  else (Resource.ofJson? j).isSome

/-! ## Watches -/

namespace WatchEvent

/-- The version in a bookmark, which has type information and a version. -/
def bookmarkVersion? (j : Json) : Option String := do
  let _ ← (← j.field? "apiVersion").str?
  let _ ← (← j.field? "kind").str?
  let metadata ← (← j.field? "metadata").obj?
  match Entries.find? "annotations" metadata with
  | some notes => let _ ← Json.entriesOf Json.str? notes
  | none => pure ()
  (← Entries.find? "resourceVersion" metadata).str?

def ofParts? (type : String) (object : Json) : Option WatchEvent :=
  match type with
  | "ADDED" => (Resource.ofJson? object).map .added
  | "MODIFIED" => (Resource.ofJson? object).map .modified
  | "DELETED" => (Resource.ofJson? object).map .deleted
  | "BOOKMARK" => (bookmarkVersion? object).map .bookmark
  | "ERROR" => (ApiStatus.ofJson? object).map .error
  | _ => none

/-- Reads a report: its type and its object, by name or in this order. -/
def ofJson? : Json → Option WatchEvent
  | .obj ms => do ofParts? (← (← Entries.find? "type" ms).str?) (← Entries.find? "object" ms)
  | .arr [.str type, object] => ofParts? type object
  | _ => none

/-- The report on one line; none for a line that is cut off. -/
def ofLine? (line : String) : Option WatchItem :=
  match Json.parse line with
  | .error .cutOff => none
  | .error .malformed => some (.error .unreadable)
  | .ok j =>
    match ofJson? j, ApiStatus.ofJson? j with
    | some event, _ => some (.ok event)
    | none, some status => some (.error (.refused status))
    | none, none => some (.error .unreadable)

/-- The reports in the body of a watch, one a line. -/
def ofBody (body : String) : List WatchItem := (body.splitOn "\n").filterMap ofLine?

end WatchEvent

end Rollout
