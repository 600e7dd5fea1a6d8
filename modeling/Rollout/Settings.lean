/-
  Settings: how the verbs of an operation behave.

  Settings are a value; every change gives new settings and leaves the old ones as they are.
  `Setting` names one change, so a sequence of changes is a list, applied from left to right.
-/
import Rollout.Backoff
import Rollout.Pipeline

namespace Rollout

/-- What happens to the dependents of a deleted resource. -/
inductive Propagation where
  | orphan
  | background
  | foreground
deriving DecidableEq, Repr

def Propagation.text : Propagation → String
  | .orphan => "Orphan"
  | .background => "Background"
  | .foreground => "Foreground"

/-- How a delete is carried out. -/
structure DeleteOptions where
  policy : Option Propagation
  graceSeconds : Option Nat
deriving DecidableEq, Repr

/-- The settings of an operation. -/
structure Settings where
  fallbackNamespace : Option String := none
  explicitNamespace : Option String := none
  fromServer : Bool := false
  deletingExisting : Bool := false
  cascading : Bool := true
  graceSeconds : Option Nat := none
  propagation : Option Propagation := none
  backoff : Backoff := Backoff.default
  visitors : List Visitor := []
  /-- How many waits may run at the same time, any number if none. -/
  concurrency : Option Nat := none

/-- One change to settings. -/
inductive Setting where
  | fallbackNamespace (ns : String)
  | inNamespace (ns : String)
  | fromServer
  | deletingExisting
  | cascading (on : Bool)
  | graceSeconds (n : Nat)
  | propagation (policy : Propagation)
  | backoff (b : Backoff)
  | concurrency (limit : Nat)
  | accept (v : Visitor)

namespace Settings

/-- The default settings with a fallback namespace. -/
def withFallback (ns : String) : Settings := { fallbackNamespace := some ns }

/-- The settings after one change. At least one wait may always run. -/
def change (s : Settings) : Setting → Settings
  | .fallbackNamespace ns => { s with fallbackNamespace := some ns }
  | .inNamespace ns => { s with explicitNamespace := some ns }
  | .fromServer => { s with fromServer := true }
  | .deletingExisting => { s with deletingExisting := true }
  | .cascading on => { s with cascading := on }
  | .graceSeconds n => { s with graceSeconds := some n }
  | .propagation policy => { s with propagation := some policy }
  | .backoff b => { s with backoff := b }
  | .concurrency limit => { s with concurrency := some (max limit 1) }
  | .accept v => { s with visitors := s.visitors ++ [v] }

def changeAll (s : Settings) (changes : List Setting) : Settings := changes.foldl change s

/-- The visitors with the resolution of the namespace behind them. -/
def pipeline (s : Settings) : Pipeline :=
  .of s.visitors s.explicitNamespace s.fallbackNamespace

/-- The policy that is set; else cascading deletes run in the background and others orphan. -/
def deleteOptions (s : Settings) : DeleteOptions where
  policy := some (s.propagation.getD (if s.cascading then .background else .orphan))
  graceSeconds := s.graceSeconds

private def optionText {α : Type} (text : α → String) : Option α → String
  | some a => "Some(" ++ text a ++ ")"
  | none => "None"

private def boolText (b : Bool) : String := if b then "true" else "false"

/-- The settings as one line of text. -/
def text (s : Settings) : String :=
  "OperationConfig \x7b fallback_namespace: " ++ Text.quotedOption s.fallbackNamespace
    ++ ", explicit_namespace: " ++ Text.quotedOption s.explicitNamespace
    ++ ", from_server: " ++ boolText s.fromServer
    ++ ", deleting_existing: " ++ boolText s.deletingExisting
    ++ ", cascading: " ++ boolText s.cascading
    ++ ", grace_period_seconds: " ++ optionText toString s.graceSeconds
    ++ ", propagation_policy: " ++ optionText Propagation.text s.propagation
    ++ ", backoff: RetryBackoff \x7b initial: " ++ s.backoff.initial.text
    ++ ", multiplier: " ++ Binary64.settingLayout.text s.backoff.multiplier
    ++ " \x7d, visitors: [" ++ String.intercalate ", " (s.visitors.map Visitor.text)
    ++ "], wait_concurrency: " ++ optionText toString s.concurrency ++ " \x7d"

end Settings

end Rollout
