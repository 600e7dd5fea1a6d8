/-
  Watching: what changes of a resource a watch reports, and from where on.
-/
import Rollout.Failure

namespace Rollout

/-- What a watch is asked for. -/
structure WatchOptions where
  /-- The version after which changes are reported. -/
  version : Option String := none
  labels : Option String := none
  /-- How long the server keeps the watch open. -/
  timeoutSeconds : Option Nat := none
  bookmarks : Bool := true
deriving DecidableEq, Repr

/-- One report of a watch. -/
inductive WatchEvent where
  | added (r : Resource)
  | modified (r : Resource)
  | deleted (r : Resource)
  /-- Nothing changed up to this version. -/
  | bookmark (version : String)
  | error (status : ApiStatus)
deriving DecidableEq, Repr

/-- A report, or why it could not be had. -/
abbrev WatchItem := Except ApiFault WatchEvent

end Rollout
