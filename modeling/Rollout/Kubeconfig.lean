/-
  Kubeconfigs: how to reach a cluster, written down in YAML.

  The current context names a cluster and perhaps a user and a namespace. A connection needs the
  context, its cluster with the address of the server, and the user if one is named.
-/
import Rollout.Failure
import Rollout.Yaml.Node

namespace Rollout

/-- A context: a cluster, and who works in which namespace of it. -/
structure KubeContext where
  cluster : String
  user : Option String
  defaultNamespace : Option String

/-- A kubeconfig: named parts, each of which may be empty. -/
structure Kubeconfig where
  current : Option String := none
  contexts : List (String × Option KubeContext) := []
  /-- The address of the server of each cluster. -/
  clusters : List (String × Option (Option String)) := []
  users : List (String × Option Unit) := []

namespace Kubeconfig

open Yaml (Node Document)

/-! ## Reading -/

/-- A node, an alias followed. -/
def target? (d : Document) : Node → Option Node
  | .alias number => d.anchored? number
  | node => some node

def isMissing : Node → Bool
  | .scalar none text true => text.isEmpty || text = "~" || ["null", "Null", "NULL"].contains text
  | _ => false

def text? (d : Document) (n : Node) : Option String :=
  match target? d n with
  | some (.scalar _ text _) => some text
  | _ => none

/-- The members of a mapping, of which an empty text is one too. -/
def fields? (d : Document) (n : Node) : Option (List (String × Node)) :=
  match target? d n with
  | some (.mapping _ entries) => entries.mapM fun (k, v) => return (← text? d k, v)
  | some (.scalar none "" true) => some []
  | _ => none

/-- A member that may be missing. -/
def optional {α : Type} (d : Document) (read : Node → Option α) (fields : List (String × Node))
    (key : String) : Option (Option α) :=
  match fields.lookup key with
  | none => some none
  | some n => (target? d n).bind fun n => if isMissing n then some none else (read n).map some

/-- The items of a sequence that may be missing. -/
def items {α : Type} (d : Document) (read : Node → Option α) (fields : List (String × Node))
    (key : String) : Option (List α) :=
  let list (n : Node) : Option (List α) := match n with
    | .sequence _ ns => ns.mapM read
    | _ => none
  (optional d list fields key).map (·.getD [])

/-- A part under a name. -/
def named? {α : Type} (d : Document) (key : String) (read : Node → Option α) (n : Node) :
    Option (String × Option α) := do
  let fields ← fields? d n
  return (← text? d (← fields.lookup "name"), ← optional d read fields key)

def context? (d : Document) (n : Node) : Option KubeContext := do
  let fields ← fields? d n
  return {
    cluster := ← text? d (← fields.lookup "cluster")
    user := ← optional d (text? d) fields "user"
    defaultNamespace := ← optional d (text? d) fields "namespace" }

def server? (d : Document) (n : Node) : Option (Option String) := do
  optional d (text? d) (← fields? d n) "server"

/-- Reads the kubeconfig in a document. -/
def ofDocument? (d : Document) : Option Kubeconfig := do
  let fields ← fields? d d.root
  return {
    current := ← optional d (text? d) fields "current-context"
    contexts := ← items d (named? d "context" (context? d)) fields "contexts"
    clusters := ← items d (named? d "cluster" (server? d)) fields "clusters"
    users := ← items d (named? d "user" fun n => (fields? d n).map fun _ => ()) fields "users" }

/-- Reads a text with at most one document. -/
def parse? (source : String) : Option Kubeconfig :=
  match Document.ofText source with
  | [] => some {}
  | [some d] => ofDocument? d
  | _ => none

/-! ## Connecting -/

/-- The address names a server. -/
def isAddress (server : String) : Bool :=
  !server.isEmpty && server.toList.all fun c => 0x21 ≤ c.toNat

/-- The default namespace of the connection; none if there is no connection. -/
def defaultNamespace? (k : Kubeconfig) : Option String := do
  let context ← (← k.contexts.lookup (← k.current))
  let server ← (← (← k.clusters.lookup context.cluster))
  if !isAddress server then none
  match context.user with
  | some user => let () ← (← k.users.lookup user)
  | none => pure ()
  return context.defaultNamespace.getD "default"

/-- The default namespace of the connection that a kubeconfig describes. -/
def connect (source : String) : Except Failure String :=
  match parse? source with
  | none => .error (.kubeconfig "Failed to parse kubeconfig")
  | some k =>
    match k.defaultNamespace? with
    | none => .error (.kubeconfig "Failed to create config")
    | some ns => .ok ns

/-- The failure of a kubeconfig that cannot be read from its file. -/
def unreadable (path : String) : Failure := .kubeconfig ("Failed to read kubeconfig " ++ path)

end Kubeconfig

end Rollout
