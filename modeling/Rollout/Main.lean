/-
  The command: rehearses the delivery of the manifest that the environment names and tells what it
  came to.
-/
import Rollout.Kubeconfig
import Rollout.Rehearsal.Delivery

namespace Rollout

/-- The variables that are read. -/
def variableNames : List String :=
  ["MANIFEST_PATH", "DEFAULT_NAMESPACE", "DELETE_EXISTING", "WAIT_TIMEOUT_SECS", "WAIT_CONCURRENCY",
    "KUBECONFIG_PATH"]

/-- The text of a file, or `none` if it cannot be read. -/
def readText? (path : String) : IO (Option String) := do
  try return some (← IO.FS.readFile path)
  catch _ => return none

def refuse (message : String) : IO UInt32 := do
  IO.eprintln ("Error: " ++ message)
  return 1

/-- The wording of a failure on the command line. -/
def Failure.shown (f : Failure) : String :=
  match f with
  | .kubeconfig step => step
  | _ => f.message?.getD "The delivery failed"

/-- Checks the kubeconfig, if there is one. -/
def checkKubeconfig (path : Option String) : IO (Except Failure Unit) := do
  let some path := path | return .ok ()
  let some source ← readText? path | return .error (Kubeconfig.unreadable path)
  return (Kubeconfig.connect source).map fun _ => ()

def deliver (e : Environment) : IO UInt32 := do
  if let .error f ← checkKubeconfig e.kubeconfigPath then return ← refuse f.shown
  let some manifest ← readText? e.manifestPath
    | refuse ("Failed to read manifest " ++ e.manifestPath)
  match Delivery.rehearse e manifest with
  | some (.ok d) => d.lines.forM IO.println; return 0
  | some (.error f) => refuse f.shown
  | none => refuse "The delivery does not end"

end Rollout

open Rollout in
def main : IO UInt32 := do
  let values ← variableNames.mapM fun name => return (name, ← IO.getEnv name)
  match Environment.read fun name => (values.lookup name).join with
  | .ok e => deliver e
  | .error fault => refuse fault.message
