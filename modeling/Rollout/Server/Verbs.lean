/-
  The verbs of an API server, as actions.

  Each verb is one request. A request that cannot be built is a failure without a call.
-/
import Rollout.Http.Target
import Rollout.Program
import Rollout.Server.Kind
import Rollout.Server.Reply

namespace Rollout.ServedKind

/-- Sends a request, if it can be built. -/
def send (request : Option Http.Request) : Action Http.Response :=
  match request with
  | some r => Action.of ((Program.ask (.request r)).bind fun answer => .done (.ok answer))
  | none => throw (.api .unbuildable)

private def reading {α : Type} (e : Except ApiFault α) : Action α :=
  Action.ofExcept (e.mapError .api)

/-- The body that a resource is sent as. -/
def encoded (r : Resource) : Action Json :=
  match r.toJson? with
  | some j => return j
  | none => throw (.api .unreadable)

private def itemRequest? (k : ServedKind) (method : Http.Method) (ns : Option String) (r : Resource)
    (body : Option Json) : Option Http.Request :=
  (k.itemPath? ns r.name).bind fun path => Http.Target.request? method path [] body

def create (k : ServedKind) (ns : Option String) (r : Resource) : Action Resource := do
  let body ← encoded r
  let response ← send (Http.Target.request? .post (k.collectionPath ns) [] (some body))
  reading response.resource

def replace (k : ServedKind) (ns : Option String) (r : Resource) : Action Resource := do
  let body ← encoded r
  let response ← send (k.itemRequest? .put ns r (some body))
  reading response.resource

/-- The body that tells how to delete. -/
def deleteBody (options : DeleteOptions) : Json :=
  .object <|
    Json.member? "gracePeriodSeconds" (options.graceSeconds.map Json.ofNat)
      ++ Json.member? "propagationPolicy" (options.policy.map fun p => .str p.text)

/-- Deletes a resource; false when there is none. -/
def delete (k : ServedKind) (ns : Option String) (options : DeleteOptions) (r : Resource) :
    Action Bool := do
  let response ← send (k.itemRequest? .delete ns r (some (deleteBody options)))
  match response.decoded fun j => if isDeletionReply j then some () else none with
  | .ok () => return true
  | .error (.refused s) => if s.code = 404 then return false else throw (.api (.refused s))
  | .error fault => throw (.api fault)

/-- Reads a resource; none when the server has no such one. -/
def reload (k : ServedKind) (ns : Option String) (r : Resource) : Action (Option Resource) := do
  let response ← send (k.itemRequest? .get ns r none)
  match response.resource with
  | .ok current => return some current
  | .error (.refused s) => if s.reason = "NotFound" then return none else throw (.api (.refused s))
  | .error fault => throw (.api fault)

/-- The version that is never too old to watch from. -/
def anyVersion : String := "0"

/-- The longest time that a watch may be kept open, exclusive. -/
def watchTimeoutLimit : Nat := 295

def watchParameters (name since : String) (options : WatchOptions) : List (String × String) :=
  [("watch", "true"), ("timeoutSeconds", toString (options.timeoutSeconds.getD 290)),
    ("fieldSelector", "metadata.name=" ++ name)]
    ++ (match options.labels with
      | some labels => [("labelSelector", labels)]
      | none => [])
    ++ (if options.bookmarks then [("allowWatchBookmarks", "true")] else [])
    ++ [("resourceVersion", since)]

/-- Watches the resource of a name for changes after the version `since`. -/
def watchFrom (k : ServedKind) (ns : Option String) (name since : String)
    (options : WatchOptions) : Action (List WatchItem) := do
  if watchTimeoutLimit ≤ options.timeoutSeconds.getD 0 then throw (.api .unbuildable)
  let response ← send <|
    Http.Target.request? .get (k.collectionPath ns) (watchParameters name since options) none
  return WatchEvent.ofBody response.body

/-- Watches a resource, from the version asked for, else from its own, else from any. -/
def watch (k : ServedKind) (ns : Option String) (r : Resource) (options : WatchOptions) :
    Action (List WatchItem) :=
  k.watchFrom ns r.name ((options.version <|> r.version).getD anyVersion) options

end Rollout.ServedKind
