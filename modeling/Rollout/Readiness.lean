/-
  Readiness: whether the observed state of a resource is what its specification asks for.

  Seven workload kinds have a notion of readiness. A resource of one of them is ready when it can
  be read as its kind, in that kind's own apiVersion, and its status passes the kind's test; a
  resource of any other kind is always ready.
-/
import Rollout.Readiness.Shapes
import Rollout.Resource

namespace Rollout

/-- The kinds with a notion of readiness. -/
inductive Workload where
  | deployment
  | replicaSet
  | replicationController
  | statefulSet
  | pod
  | node
  | endpoints
deriving DecidableEq, Repr

namespace Workload

def ofKind? : String → Option Workload
  | "Deployment" => some .deployment
  | "ReplicaSet" => some .replicaSet
  | "ReplicationController" => some .replicationController
  | "StatefulSet" => some .statefulSet
  | "Pod" => some .pod
  | "Node" => some .node
  | "Endpoints" => some .endpoints
  | _ => none

def kind : Workload → String
  | .deployment => "Deployment"
  | .replicaSet => "ReplicaSet"
  | .replicationController => "ReplicationController"
  | .statefulSet => "StatefulSet"
  | .pod => "Pod"
  | .node => "Node"
  | .endpoints => "Endpoints"

theorem ofKind?_kind (w : Workload) : ofKind? w.kind = some w := by cases w <;> rfl

def apiVersion : Workload → String
  | .deployment | .replicaSet | .statefulSet => "apps/v1"
  | .replicationController | .pod | .node | .endpoints => "v1"

/-- The shapes of the members that readiness looks at. -/
def shape : Workload → List (String × Shape)
  | .deployment => Shape.deployment
  | .replicaSet => Shape.replicaSet
  | .replicationController => Shape.replicationController
  | .statefulSet => Shape.statefulSet
  | .pod => Shape.pod
  | .node => Shape.node
  | .endpoints => Shape.endpoints

/-- The members can be read as a resource of this kind. -/
def readable (w : Workload) (ms : Entries Json) : Bool :=
  Shape.accepts (.resource w.apiVersion w.kind w.shape) (.obj ms)

/-! ## Verdicts -/

/-- The wanted number of replicas, one unless the specification gives a number. -/
def desired (ms : Entries Json) : Int :=
  ((Entries.find? "spec" ms).bind fun spec => (spec.field? "replicas").bind Json.int?).getD 1

/-- A counter of the status, zero if it is absent. -/
def counter (status : Json) (key : String) : Int :=
  ((status.field? key).bind Json.int?).getD 0

/-- Some condition of the status has type `Ready` and status `True`. -/
def hasReadyCondition (status : Json) : Bool :=
  (((status.field? "conditions").bind Json.arr?).getD []).any fun c =>
    (c.field? "type").bind Json.str? = some "Ready"
      && (c.field? "status").bind Json.str? = some "True"

/-- Some subset has an address. -/
def hasAddress (ms : Entries Json) : Bool :=
  (((Entries.find? "subsets" ms).bind Json.arr?).getD []).any fun s =>
    !(((s.field? "addresses").bind Json.arr?).getD []).isEmpty

/-- The status, if there is one. -/
def status? (ms : Entries Json) : Option Json :=
  (Entries.find? "status" ms).filter (· != .null)

/-- The test of the kind, on members that are readable as the kind. -/
def verdict (w : Workload) (ms : Entries Json) : Bool :=
  let n := desired ms
  match w with
  | .endpoints => hasAddress ms
  | .deployment => (status? ms).any fun s =>
      counter s "replicas" = n && n ≤ counter s "availableReplicas"
  | .statefulSet => (status? ms).any fun s =>
      counter s "replicas" = n && n ≤ counter s "readyReplicas"
  | .replicaSet | .replicationController => (status? ms).any fun s => n ≤ counter s "readyReplicas"
  | .pod | .node => (status? ms).any hasReadyCondition

end Workload

/-- The kind has a notion of readiness. -/
def supportsReadiness (kind : String) : Bool := (Workload.ofKind? kind).isSome

/-- The observed state is ready. -/
def Resource.isReady (r : Resource) : Bool :=
  match Workload.ofKind? r.kind with
  | none => true
  | some w =>
    match r.toJson? with
    | some (.obj ms) => w.readable ms && w.verdict ms
    | _ => false

end Rollout
