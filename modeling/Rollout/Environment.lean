/-
  Configuration from the environment: which manifest to roll out and how.

  The variables are read in a fixed order and the first one that cannot be read is the failure.
  Numbers are decimal digits with an optional plus sign, and fit 64 bits.
-/
import Rollout.Settings

namespace Rollout

/-- The configuration of a rollout. -/
structure Environment where
  manifestPath : String
  defaultNamespace : String
  deleteExisting : Bool
  waitTimeout : Option Duration
  waitConcurrency : Option Nat
  kubeconfigPath : Option String

namespace Environment

/-- The variable that cannot be read. -/
inductive Fault where
  | manifestPath
  | deleteExisting
  | waitTimeout
  | waitConcurrency
deriving DecidableEq, Repr

def Fault.message : Fault → String
  | .manifestPath => "MANIFEST_PATH environment variable not set"
  | .deleteExisting => "DELETE_EXISTING must be true or false"
  | .waitTimeout => "WAIT_TIMEOUT_SECS must be a number of seconds"
  | .waitConcurrency => "WAIT_CONCURRENCY must be a positive number"

def readBool? (s : String) : Option Bool :=
  if s = "true" then some true else if s = "false" then some false else none

/-- The number that decimal digits denote; none for no digits and other characters. -/
def readDigits? (cs : List Char) : Option Nat :=
  if cs.isEmpty then none
  else cs.foldlM (fun n c => if c.isDigit then some (n * 10 + (c.toNat - '0'.toNat)) else none) 0

/-- A number below `2^64`. -/
def readNumber? (s : String) : Option Nat :=
  let digits := match s.toList with
    | '+' :: cs => cs
    | cs => cs
  (readDigits? digits).filter (· < twoTo 64)

/-- An optional variable that has to be readable if it is set. -/
def optional {α : Type} (fault : Fault) (read : String → Option α) :
    Option String → Except Fault (Option α)
  | none => .ok none
  | some s =>
    match read s with
    | some a => .ok (some a)
    | none => .error fault

/-- Reads the configuration; `lookup` gives the value of a variable that is set. -/
def read (lookup : String → Option String) : Except Fault Environment := do
  let some manifestPath := lookup "MANIFEST_PATH" | .error .manifestPath
  let deleteExisting ← optional .deleteExisting readBool? (lookup "DELETE_EXISTING")
  let waitTimeout ← optional .waitTimeout readNumber? (lookup "WAIT_TIMEOUT_SECS")
  let waitConcurrency ← optional .waitConcurrency readNumber? (lookup "WAIT_CONCURRENCY")
  return {
    manifestPath
    defaultNamespace := (lookup "DEFAULT_NAMESPACE").getD "default"
    deleteExisting := deleteExisting.getD false
    waitTimeout := waitTimeout.map Duration.ofSeconds
    waitConcurrency
    kubeconfigPath := lookup "KUBECONFIG_PATH" }

/-- The settings of the operations that this configuration asks for. -/
def settings (e : Environment) : Settings :=
  (Settings.withFallback e.defaultNamespace).changeAll <|
    (if e.deleteExisting then [.deletingExisting] else [])
      ++ (match e.waitConcurrency with
        | some limit => [.concurrency limit]
        | none => [])

end Environment

end Rollout
