/-
  Failures: why a verb did not succeed, and the wording of those that are worded here.

  What a server, a request or a text reader said in its own words is not repeated: such failures
  keep their cause and have no message.
-/
import Rollout.Duration
import Rollout.Resource

namespace Rollout

/-- The status by which an API server refuses a request. -/
structure ApiStatus where
  code : Nat
  reason : String
  status : String
  message : String
deriving DecidableEq, Repr

/-- What went wrong between the client and the API server. -/
inductive ApiFault where
  | refused (status : ApiStatus)
  | unreadable
  | unbuildable
  | discovery
  | transport
  | other
deriving DecidableEq, Repr

/-- Why a verb failed. -/
inductive Failure where
  | api (fault : ApiFault)
  | handlerNotFound (key : ResourceKey)
  | invalidResource (text : String)
  /-- A manifest that cannot be read; `none` when the words are the text reader's. -/
  | manifest (text : Option String)
  | deleteFailed (text : String)
  | notSupported (text : String)
  | interrupted (text : String)
  | notFound (text : String)
  | waitTimeout (unmatched : List Resource) (timeout : Duration)
  | batchAborted (applied : List Resource) (source : Failure)
  /-- A kubeconfig that yields no client, with the step that failed. -/
  | kubeconfig (step : String)
  | serialization
deriving Repr

namespace Failure

/-- The failure came from a store that already holds the object, status 409. -/
def isConflict : Failure → Bool
  | .api (.refused s) => s.code = 409
  | .batchAborted _ source => source.isConflict
  | _ => false

/-- The wording, `none` when it is not this library's. -/
def message? : Failure → Option String
  | .api _ | .kubeconfig _ | .serialization => none
  | .handlerNotFound key => some ("No handler registered for " ++ key.text)
  | .invalidResource text => some ("Invalid resource: " ++ text)
  | .manifest text => text.map ("Failed to parse manifest: " ++ ·)
  | .deleteFailed text => some ("Failed to delete existing item: " ++ text)
  | .notSupported text => some ("Not supported: " ++ text)
  | .interrupted text => some ("Wait interrupted: " ++ text)
  | .notFound text => some ("Resource not found: " ++ text)
  | .waitTimeout unmatched timeout =>
    some ("Timed out after " ++ timeout.text ++ " waiting for " ++ toString unmatched.length
      ++ " resource(s): [" ++ Resource.describeAll unmatched ++ "]")
  | .batchAborted applied source =>
    source.message?.map fun text =>
      "Batch aborted after applying " ++ toString applied.length ++ " resource(s): " ++ text

/-- The resource's kind does not offer what was asked for. -/
def unsupported (what : String) (r : Resource) : Failure :=
  .notSupported (what ++ " for " ++ r.describe)

def isWaitTimeout : Failure → Bool
  | .waitTimeout .. => true
  | _ => false

def isNotSupported : Failure → Bool
  | .notSupported _ => true
  | _ => false

end Failure

/-- The key of a resource, or why it has none. -/
def Resource.key (r : Resource) : Except Failure ResourceKey :=
  match ResourceKey.of? r with
  | some k => .ok k
  | none => .error (.invalidResource (r.name ++ " has no apiVersion/kind"))

end Rollout
