/-
  The shape of the specification of pods, with all that it is made of.

  Workload kinds embed it, in their templates. A part that more than one other part is made of has a
  name; a source of volumes differs from the next one only in its fields, and is spelled out where
  volumes are.
-/
import Rollout.Shape

namespace Rollout.Shape

/-! ## Selectors -/

/-- A requirement that a selector makes: the values that a key is to have, or not to have. -/
private def requirement : Shape :=
  .record [("key", .text), ("operator", .text), ("values", .list .text)]

def labelSelector : Shape :=
  .record [("matchExpressions", .list requirement), ("matchLabels", .map .text)]

/-! ## Names of other things -/

private def named : Shape := .record [("name", .text)]

/-- A key of a config map or of a secret. -/
private def keyOfNamed : Shape :=
  .record [("key", .text), ("name", .text), ("optional", .flag)]

private def optionalNamed : Shape := .record [("name", .text), ("optional", .flag)]

/-- A field of the pod itself. -/
private def fieldRef : Shape := .record (fields .text ["apiVersion", "fieldPath"])

/-- What a container of the pod has been given of something; amounts are texts. -/
private def resourceFieldRef : Shape :=
  .record (fields .text ["containerName", "divisor", "resource"])

/-! ## Where a pod may run -/

private def nodeSelectorTerm : Shape :=
  .record (fields (.list requirement) ["matchExpressions", "matchFields"])

private def podAffinityTerm : Shape :=
  .record <|
    ("topologyKey", .text) :: fields labelSelector ["labelSelector", "namespaceSelector"]
      ++ fields (.list .text) ["matchLabelKeys", "mismatchLabelKeys", "namespaces"]

/-- To run with, or without, some other pods. -/
private def podAffinity : Shape :=
  .record [("preferredDuringSchedulingIgnoredDuringExecution",
      .list (.record [("podAffinityTerm", podAffinityTerm), ("weight", .int32)])),
    ("requiredDuringSchedulingIgnoredDuringExecution", .list podAffinityTerm)]

private def nodeAffinity : Shape :=
  .record [("preferredDuringSchedulingIgnoredDuringExecution",
      .list (.record [("preference", nodeSelectorTerm), ("weight", .int32)])),
    ("requiredDuringSchedulingIgnoredDuringExecution",
      .record [("nodeSelectorTerms", .list nodeSelectorTerm)])]

private def affinity : Shape :=
  .record (("nodeAffinity", nodeAffinity) :: fields podAffinity ["podAffinity", "podAntiAffinity"])

private def toleration : Shape :=
  .record (("tolerationSeconds", .int64) :: fields .text ["effect", "key", "operator", "value"])

private def topologySpread : Shape :=
  .record <|
    [("labelSelector", labelSelector), ("matchLabelKeys", .list .text)]
      ++ fields .int32 ["maxSkew", "minDomains"]
      ++ fields .text ["nodeAffinityPolicy", "nodeTaintsPolicy", "topologyKey",
        "whenUnsatisfiable"]

/-! ## Rights -/

/-- A profile of what may be done, at the node or given by the runtime. -/
private def profile : Shape := .record (fields .text ["localhostProfile", "type"])

/-- What a pod and a container can both be told about their rights. -/
private def sharedRights : List (String × Shape) :=
  fields .int64 ["runAsGroup", "runAsUser"] ++ fields profile ["appArmorProfile", "seccompProfile"]
    ++ [("runAsNonRoot", .flag),
      ("seLinuxOptions", .record (fields .text ["level", "role", "type", "user"])),
      ("windowsOptions", .record (("hostProcess", .flag)
        :: fields .text ["gmsaCredentialSpec", "gmsaCredentialSpecName", "runAsUserName"]))]

private def containerRights : Shape :=
  .record <|
    ("capabilities", .record (fields (.list .text) ["add", "drop"])) :: ("procMount", .text)
      :: fields .flag ["allowPrivilegeEscalation", "privileged", "readOnlyRootFilesystem"]
      ++ sharedRights

private def podRights : Shape :=
  .record <|
    ("fsGroup", .int64) :: ("fsGroupChangePolicy", .text) :: ("supplementalGroups", .list .int64)
      :: ("sysctls", .list (.record (fields .text ["name", "value"]))) :: sharedRights

/-! ## Containers -/

/-- Limits and requests of resources; amounts are texts. -/
private def amounts : List (String × Shape) := fields (.map .text) ["limits", "requests"]

/-- What a container asks for. -/
def resources : Shape := .record (("claims", .list named) :: amounts)

/-- Ways to ask something of a container: to run a command, or to connect to it. -/
private def demands : List (String × Shape) :=
  [("exec", .record [("command", .list .text)]),
    ("httpGet", .record <|
      ("httpHeaders", .list (.record (fields .text ["name", "value"]))) :: ("port", .intOrText)
        :: fields .text ["host", "path", "scheme"]),
    ("tcpSocket", .record [("host", .text), ("port", .intOrText)])]

private def probe : Shape :=
  .record <|
    ("grpc", .record [("port", .int32), ("service", .text)])
      :: ("terminationGracePeriodSeconds", .int64)
      :: fields .int32 ["failureThreshold", "initialDelaySeconds", "periodSeconds",
        "successThreshold", "timeoutSeconds"]
      ++ demands

private def hook : Shape := .record (("sleep", .record [("seconds", .int64)]) :: demands)

private def envVar : Shape :=
  .record [("name", .text), ("value", .text),
    ("valueFrom", .record <|
      [("fieldRef", fieldRef), ("resourceFieldRef", resourceFieldRef)]
        ++ fields keyOfNamed ["configMapKeyRef", "secretKeyRef"])]

private def envSource : Shape :=
  .record (("prefix", .text) :: fields optionalNamed ["configMapRef", "secretRef"])

private def container : List (String × Shape) :=
  fields .text ["image", "imagePullPolicy", "name", "restartPolicy", "terminationMessagePath",
    "terminationMessagePolicy", "workingDir"]
  ++ fields (.list .text) ["args", "command"]
  ++ fields .flag ["stdin", "stdinOnce", "tty"]
  ++ fields probe ["livenessProbe", "readinessProbe", "startupProbe"]
  ++ [("env", .list envVar), ("envFrom", .list envSource),
    ("lifecycle", .record (fields hook ["postStart", "preStop"])),
    ("ports", .list (.record <| fields .int32 ["containerPort", "hostPort"]
      ++ fields .text ["hostIP", "name", "protocol"])),
    ("resizePolicy", .list (.record (fields .text ["resourceName", "restartPolicy"]))),
    ("resources", resources), ("securityContext", containerRights),
    ("volumeDevices", .list (.record (fields .text ["devicePath", "name"]))),
    ("volumeMounts", .list (.record <| ("readOnly", .flag) :: fields .text ["mountPath",
      "mountPropagation", "name", "recursiveReadOnly", "subPath", "subPathExpr"]))]

/-- A container that is put into a pod that runs. -/
private def ephemeralContainer : List (String × Shape) :=
  ("targetContainerName", .text) :: container

/-! ## Volumes -/

/-- What is asked for in a claim of a volume. -/
def claimSpec : Shape :=
  .record <|
    fields .text ["storageClassName", "volumeAttributesClassName", "volumeMode", "volumeName"]
    ++ [("accessModes", .list .text),
      ("dataSource", .record (fields .text ["apiGroup", "kind", "name"])),
      ("dataSourceRef", .record (fields .text ["apiGroup", "kind", "name", "namespace"])),
      ("resources", .record amounts), ("selector", labelSelector)]

/-- Keys of a config map or of a secret, and the files that they become. -/
private def files : Shape :=
  .list (.record [("key", .text), ("mode", .int32), ("path", .text)])

/-- Facts about the pod, and the files that they become. -/
private def ownFiles : Shape :=
  .list (.record [("fieldRef", fieldRef), ("mode", .int32), ("path", .text),
    ("resourceFieldRef", resourceFieldRef)])

/-- A source of files, one of several that make up a volume. -/
private def projection : Shape :=
  .record <|
    fields (.record [("items", files), ("name", .text), ("optional", .flag)])
      ["configMap", "secret"]
    ++ [("clusterTrustBundle", .record (("labelSelector", labelSelector) :: ("optional", .flag)
        :: fields .text ["name", "path", "signerName"])),
      ("downwardAPI", .record [("items", ownFiles)]),
      ("serviceAccountToken", .record
        [("audience", .text), ("expirationSeconds", .int64), ("path", .text)])]

/-- A source of volumes that is described by texts, and may be for reading only. -/
private def mounted (texts : List String) : Shape :=
  .record (("readOnly", .flag) :: fields .text texts)

/-- As `mounted`, with the name of a secret and some more fields. -/
private def securely (texts : List String) (more : List (String × Shape)) : Shape :=
  .record (("readOnly", .flag) :: ("secretRef", named) :: fields .text texts ++ more)

/-- A disk of which a partition may be chosen. -/
private def disk (id : String) : Shape :=
  .record [("fsType", .text), ("partition", .int32), ("readOnly", .flag), (id, .text)]

/-- The sources of volumes that the cluster holds or makes itself. -/
private def clusterVolumes : List (String × Shape) :=
  [("configMap", .record
      [("defaultMode", .int32), ("items", files), ("name", .text), ("optional", .flag)]),
    ("csi", .record <| ("nodePublishSecretRef", named) :: ("readOnly", .flag)
      :: ("volumeAttributes", .map .text) :: fields .text ["driver", "fsType"]),
    ("downwardAPI", .record [("defaultMode", .int32), ("items", ownFiles)]),
    ("emptyDir", .record (fields .text ["medium", "sizeLimit"])),
    ("ephemeral", .record
      [("volumeClaimTemplate", .record [("metadata", .metadata), ("spec", claimSpec)])]),
    ("gitRepo", .record (fields .text ["directory", "repository", "revision"])),
    ("hostPath", .record (fields .text ["path", "type"])),
    ("persistentVolumeClaim", mounted ["claimName"]),
    ("projected", .record [("defaultMode", .int32), ("sources", .list projection)]),
    ("secret", .record
      [("defaultMode", .int32), ("items", files), ("optional", .flag), ("secretName", .text)])]

/-- The sources of volumes that others hold. -/
private def foreignVolumes : List (String × Shape) :=
  [("awsElasticBlockStore", disk "volumeID"),
    ("azureDisk", mounted ["cachingMode", "diskName", "diskURI", "fsType", "kind"]),
    ("azureFile", mounted ["secretName", "shareName"]),
    ("cephfs", securely ["path", "secretFile", "user"] [("monitors", .list .text)]),
    ("cinder", securely ["fsType", "volumeID"] []),
    ("fc", .record <| ("fsType", .text) :: ("lun", .int32) :: ("readOnly", .flag)
      :: fields (.list .text) ["targetWWNs", "wwids"]),
    ("flexVolume", securely ["driver", "fsType"] [("options", .map .text)]),
    ("flocker", .record (fields .text ["datasetName", "datasetUUID"])),
    ("gcePersistentDisk", disk "pdName"),
    ("glusterfs", mounted ["endpoints", "path"]),
    ("iscsi", securely ["fsType", "initiatorName", "iqn", "iscsiInterface", "targetPortal"]
      [("chapAuthDiscovery", .flag), ("chapAuthSession", .flag), ("lun", .int32),
        ("portals", .list .text)]),
    ("nfs", mounted ["path", "server"]),
    ("photonPersistentDisk", .record (fields .text ["fsType", "pdID"])),
    ("portworxVolume", mounted ["fsType", "volumeID"]),
    ("quobyte", mounted ["group", "registry", "tenant", "user", "volume"]),
    ("rbd", securely ["fsType", "image", "keyring", "pool", "user"] [("monitors", .list .text)]),
    ("scaleIO", securely ["fsType", "gateway", "protectionDomain", "storageMode", "storagePool",
      "system", "volumeName"] [("sslEnabled", .flag)]),
    ("storageos", securely ["fsType", "volumeName", "volumeNamespace"] []),
    ("vsphereVolume", .record
      (fields .text ["fsType", "storagePolicyID", "storagePolicyName", "volumePath"]))]

private def volume : Shape := .record (("name", .text) :: clusterVolumes ++ foreignVolumes)

/-! ## Pods -/

/-- What a pod is asked to be. -/
def podSpec : Shape :=
  .record <|
    fields .int64 ["activeDeadlineSeconds", "terminationGracePeriodSeconds"]
    ++ fields .flag ["automountServiceAccountToken", "enableServiceLinks", "hostIPC",
      "hostNetwork", "hostPID", "hostUsers", "setHostnameAsFQDN", "shareProcessNamespace"]
    ++ fields .text ["dnsPolicy", "hostname", "nodeName", "preemptionPolicy", "priorityClassName",
      "restartPolicy", "runtimeClassName", "schedulerName", "serviceAccount",
      "serviceAccountName", "subdomain"]
    ++ fields (.map .text) ["nodeSelector", "overhead"]
    ++ fields (.list (.record container)) ["containers", "initContainers"]
    ++ fields (.list named) ["imagePullSecrets", "schedulingGates"]
    ++ [("affinity", affinity),
      ("dnsConfig", .record <|
        ("options", .list (.record (fields .text ["name", "value"])))
          :: fields (.list .text) ["nameservers", "searches"]),
      ("ephemeralContainers", .list (.record ephemeralContainer)),
      ("hostAliases", .list (.record [("hostnames", .list .text), ("ip", .text)])),
      ("os", named), ("priority", .int32),
      ("readinessGates", .list (.record [("conditionType", .text)])),
      ("resourceClaims", .list (.record [("name", .text),
        ("source", .record (fields .text ["resourceClaimName", "resourceClaimTemplateName"]))])),
      ("securityContext", podRights), ("tolerations", .list toleration),
      ("topologySpreadConstraints", .list topologySpread), ("volumes", .list volume)]

/-- The pod that a workload makes. -/
def podTemplate : Shape := .record [("metadata", .metadata), ("spec", podSpec)]

end Rollout.Shape
