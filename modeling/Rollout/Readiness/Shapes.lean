/-
  The shapes of the workload kinds: their specification and status, as typed readers have them.
-/
import Rollout.Readiness.PodShape

namespace Rollout.Shape

/-! ## Shared parts -/

/-- A list of conditions with the given timestamps. -/
private def conditions (times : List String) : Shape :=
  .list (.record (fields .time times ++ fields .text ["message", "reason", "status", "type"]))

/-! ## The workload kinds -/

/-- The specification and status of a `Deployment`. -/
def deployment : List (String × Shape) :=
  [("spec", .record <|
      fields .int32 ["minReadySeconds", "progressDeadlineSeconds", "replicas",
        "revisionHistoryLimit"]
      ++ [("paused", .flag), ("selector", labelSelector), ("template", podTemplate),
        ("strategy", .record [("type", .text), ("rollingUpdate", .record
          [("maxSurge", .intOrText), ("maxUnavailable", .intOrText)])])]),
    ("status", .record <|
      ("conditions", conditions ["lastTransitionTime", "lastUpdateTime"])
        :: ("observedGeneration", .int64)
        :: fields .int32 ["availableReplicas", "collisionCount", "readyReplicas", "replicas",
          "unavailableReplicas", "updatedReplicas"])]

private def replicaSetStatus : Shape :=
  .record <|
    ("conditions", conditions ["lastTransitionTime"]) :: ("observedGeneration", .int64)
      :: fields .int32 ["availableReplicas", "fullyLabeledReplicas", "readyReplicas", "replicas"]

/-- The specification and status of a `ReplicaSet`. -/
def replicaSet : List (String × Shape) :=
  [("spec", .record [("minReadySeconds", .int32), ("replicas", .int32),
      ("selector", labelSelector), ("template", podTemplate)]),
    ("status", replicaSetStatus)]

/-- The specification and status of a `ReplicationController`. -/
def replicationController : List (String × Shape) :=
  [("spec", .record [("minReadySeconds", .int32), ("replicas", .int32), ("selector", .map .text),
      ("template", podTemplate)]),
    ("status", replicaSetStatus)]

/-- A claim of a volume, with what has become of it. -/
private def volumeClaim : Shape :=
  .resource "v1" "PersistentVolumeClaim" [("spec", claimSpec),
    ("status", .record <|
      fields .text ["currentVolumeAttributesClassName", "phase"]
      ++ fields (.map .text) ["allocatedResourceStatuses", "allocatedResources", "capacity"]
      ++ [("accessModes", .list .text),
        ("conditions", conditions ["lastProbeTime", "lastTransitionTime"]),
        ("modifyVolumeStatus", .record
          (fields .text ["status", "targetVolumeAttributesClassName"]))])]

/-- The specification and status of a `StatefulSet`. -/
def statefulSet : List (String × Shape) :=
  [("spec", .record <|
      fields .int32 ["minReadySeconds", "replicas", "revisionHistoryLimit"]
      ++ fields .text ["podManagementPolicy", "serviceName"]
      ++ [("ordinals", .record [("start", .int32)]), ("selector", labelSelector),
        ("persistentVolumeClaimRetentionPolicy", .record
          [("whenDeleted", .text), ("whenScaled", .text)]),
        ("template", podTemplate),
        ("updateStrategy", .record [("type", .text), ("rollingUpdate", .record
          [("maxUnavailable", .intOrText), ("partition", .int32)])]),
        ("volumeClaimTemplates", .list volumeClaim)]),
    ("status", .record <|
      ("conditions", conditions ["lastTransitionTime"]) :: ("observedGeneration", .int64)
        :: fields .text ["currentRevision", "updateRevision"]
        ++ fields .int32 ["availableReplicas", "collisionCount", "currentReplicas",
          "readyReplicas", "replicas", "updatedReplicas"])]

/-- A container that waits, runs or has come to its end. -/
private def containerState : Shape :=
  .record [("running", .record [("startedAt", .time)]),
    ("terminated", .record <|
      fields .int32 ["exitCode", "signal"] ++ fields .time ["finishedAt", "startedAt"]
        ++ fields .text ["containerID", "message", "reason"]),
    ("waiting", .record (fields .text ["message", "reason"]))]

private def containerStatuses : Shape :=
  .list (.record <|
    fields .text ["containerID", "image", "imageID", "name"] ++ fields .flag ["ready", "started"]
      ++ fields containerState ["lastState", "state"]
      ++ [("allocatedResources", .map .text), ("resources", resources), ("restartCount", .int32),
        ("volumeMounts", .list (.record <|
          ("readOnly", .flag) :: fields .text ["mountPath", "name", "recursiveReadOnly"]))])

/-- The specification and status of a `Pod`. -/
def pod : List (String × Shape) :=
  [("spec", podSpec),
    ("status", .record <|
      fields .text ["hostIP", "message", "nominatedNodeName", "phase", "podIP", "qosClass",
        "reason", "resize"]
      ++ fields containerStatuses ["containerStatuses", "ephemeralContainerStatuses",
        "initContainerStatuses"]
      ++ fields (.list (.record [("ip", .text)])) ["hostIPs", "podIPs"]
      ++ [("conditions", conditions ["lastProbeTime", "lastTransitionTime"]),
        ("resourceClaimStatuses", .list (.record [("name", .text),
          ("resourceClaimName", .text)])),
        ("startTime", .time)])]

/-- Where a node finds its configuration. -/
private def configSource : Shape :=
  .record [("configMap", .record
    (fields .text ["kubeletConfigKey", "name", "namespace", "resourceVersion", "uid"]))]

/-- The specification and status of a `Node`. -/
def node : List (String × Shape) :=
  [("spec", .record <|
      fields .text ["externalID", "podCIDR", "providerID"]
      ++ [("configSource", configSource), ("podCIDRs", .list .text), ("unschedulable", .flag),
        ("taints", .list (.record (("timeAdded", .time)
          :: fields .text ["effect", "key", "value"])))]),
    ("status", .record
      [("addresses", .list (.record [("address", .text), ("type", .text)])),
        ("allocatable", .map .text), ("capacity", .map .text),
        ("conditions", conditions ["lastHeartbeatTime", "lastTransitionTime"]),
        ("config", .record <|
          ("error", .text) :: fields configSource ["active", "assigned", "lastKnownGood"]),
        ("daemonEndpoints", .record [("kubeletEndpoint", .record [("Port", .int32)])]),
        ("images", .list (.record [("names", .list .text), ("sizeBytes", .int64)])),
        ("nodeInfo", .record (fields .text ["architecture", "bootID", "containerRuntimeVersion",
          "kernelVersion", "kubeProxyVersion", "kubeletVersion", "machineID", "operatingSystem",
          "osImage", "systemUUID"])),
        ("phase", .text),
        ("runtimeHandlers", .list (.record
          [("features", .record [("recursiveReadOnlyMounts", .flag)]), ("name", .text)])),
        ("volumesAttached", .list (.record [("devicePath", .text), ("name", .text)])),
        ("volumesInUse", .list .text)])]

private def addresses : Shape :=
  .list (.record <|
    ("targetRef", .record (fields .text ["apiVersion", "fieldPath", "kind", "name", "namespace",
      "resourceVersion", "uid"]))
    :: fields .text ["hostname", "ip", "nodeName"])

/-- The subsets of `Endpoints`. -/
def endpoints : List (String × Shape) :=
  [("subsets", .list (.record
    [("addresses", addresses), ("notReadyAddresses", addresses),
      ("ports", .list (.record [("appProtocol", .text), ("name", .text), ("port", .int32),
        ("protocol", .text)]))]))]

end Rollout.Shape
