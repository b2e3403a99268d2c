import Keck.Lib.Table
/-!
# The operator's objects

The `KeckCluster` resource (`types.go`) and the Kubernetes objects the operator
makes from it, with the fields it sets or reads. A field that is `nil` or empty
in Go is `none` or empty here. Quantities and durations are their texts.
-/

namespace Keck.Operator
open Keck.Lib

/-- A `map[string]string`. -/
abbrev Labels := Table String String

def Labels.of (pairs : List (String × String)) : Labels := pairs.foldl (fun m e => m.insert e.1 e.2) ∅

/-! ## Pods -/

inductive PullPolicy
  | always | ifNotPresent | never

inductive Protocol
  | tcp | udp | sctp

inductive TolerationOperator
  | opExists | opEqual

inductive TaintEffect
  | noSchedule | preferNoSchedule | noExecute

structure Toleration where
  key : String := ""
  operator : Option TolerationOperator := none
  value : String := ""
  effect : Option TaintEffect := none
  tolerationSeconds : Option Int := none

/-- `limits` and `requests` map a resource name to a quantity. -/
structure ResourceRequirements where
  requests : Option Labels := none
  limits : Option Labels := none

inductive EnvVarSource
  | value (text : String)
  | fieldRef (fieldPath : String)
  | secretKeyRef (secret key : String)

structure EnvVar where
  name : String
  source : EnvVarSource

structure HTTPGet where
  path : String
  port : Nat
  scheme : String := "HTTP"

structure Probe where
  httpGet : HTTPGet
  initialDelaySeconds : Nat
  periodSeconds : Nat
  timeoutSeconds : Nat
  failureThreshold : Nat

structure SecurityContext where
  capabilitiesAdd : List String := []
  capabilitiesDrop : List String := []
  readOnlyRootFilesystem : Option Bool := none
  runAsNonRoot : Option Bool := none

structure VolumeMount where
  name : String
  mountPath : String
  subPath : String := ""
  readOnly : Bool

structure ContainerPort where
  name : String
  containerPort : Nat
  protocol : Protocol := .tcp

structure Container where
  name : String
  image : String
  imagePullPolicy : Option PullPolicy := none
  command : List String
  args : List String := []
  ports : List ContainerPort
  env : List EnvVar := []
  securityContext : SecurityContext
  livenessProbe : Option Probe := none
  readinessProbe : Option Probe := none
  resources : ResourceRequirements := {}
  volumeMounts : List VolumeMount := []

inductive VolumeSource
  | hostPath (path : String)
  | secret (secretName : String)
  | configMap (name : String)

structure Volume where
  name : String
  source : VolumeSource

structure PodSpec where
  serviceAccountName : String
  hostPID : Bool := false
  nodeSelector : Labels := ∅
  tolerations : List Toleration := []
  containers : List Container
  volumes : List Volume

structure PodTemplateSpec where
  labels : Labels
  spec : PodSpec

/-! ## Children of a KeckCluster -/

structure Namespace where
  labels : Labels

structure ServiceAccount where
  labels : Labels

structure Secret where
  labels : Labels
  type : String
  data : Labels

structure PolicyRule where
  apiGroups : List String
  resources : List String
  verbs : List String
deriving DecidableEq

structure ClusterRole where
  labels : Labels
  rules : List PolicyRule

structure RoleRef where
  apiGroup : String
  kind : String
  name : String

structure Subject where
  kind : String
  name : String
  ns : String

structure ClusterRoleBinding where
  labels : Labels
  roleRef : RoleRef
  subjects : List Subject

structure DaemonSetSpec where
  selector : Labels
  template : PodTemplateSpec

structure DaemonSetStatus where
  numberReady : Int := 0
  desiredNumberScheduled : Int := 0

structure DaemonSet where
  labels : Labels
  spec : DaemonSetSpec
  status : DaemonSetStatus := {}

structure DeploymentSpec where
  replicas : Int
  selector : Labels
  template : PodTemplateSpec

structure DeploymentStatus where
  readyReplicas : Int := 0

structure Deployment where
  labels : Labels
  spec : DeploymentSpec
  status : DeploymentStatus := {}

structure ConfigMap where
  labels : Labels
  data : Labels

structure ServicePort where
  name : String
  port : Nat
  targetPort : Option Nat := none
  protocol : Protocol := .tcp

structure ServiceSpec where
  selector : Labels
  ports : List ServicePort

structure Service where
  labels : Labels
  annotations : Labels
  spec : ServiceSpec

structure Endpoint where
  port : String
  path : String
  interval : String

structure ServiceMonitor where
  labels : Labels
  selector : Labels
  endpoints : List Endpoint

structure NetworkPolicyPeer where
  podSelector : Option Labels := none
  namespaceSelector : Option Labels := none

structure NetworkPolicyPort where
  port : Nat
  protocol : Protocol := .tcp

structure NetworkPolicyIngressRule where
  peers : List NetworkPolicyPeer
  ports : List NetworkPolicyPort

inductive PolicyType
  | ingress | egress

structure NetworkPolicySpec where
  podSelector : Labels
  policyTypes : List PolicyType
  ingress : List NetworkPolicyIngressRule

structure NetworkPolicy where
  labels : Labels
  spec : NetworkPolicySpec

structure PodDisruptionBudgetSpec where
  minAvailable : Int
  selector : Labels

structure PodDisruptionBudget where
  labels : Labels
  spec : PodDisruptionBudgetSpec

/-! ## KeckCluster -/

structure NodeBMCEntry where
  serial : String
  endpoint : String

structure RedfishSpec where
  credentialsSecret : String
  nodeBMCMap : List NodeBMCEntry

structure AgentSpec where
  defaultProfile : String := ""
  nodeSelector : Labels := ∅
  tolerations : List Toleration := []
  resources : ResourceRequirements := {}
  gpuEnabled : Bool := false
  capturedLabels : List String := []
  redfish : Option RedfishSpec := none

structure ControllerSpec where
  replicas : Int := 0
  resources : ResourceRequirements := {}
  schedulerEnabled : Bool := false
  carbonAPIEndpoint : String := ""
  carbonRegion : String := ""

structure ImageSpec where
  repository : String := ""
  tag : String := ""
  pullPolicy : Option PullPolicy := none

structure KeckClusterSpec where
  agent : AgentSpec := {}
  controller : ControllerSpec := {}
  fleetEndpoint : String := ""
  image : ImageSpec := {}

inductive Phase
  | unset | pending | installing | running | error
deriving DecidableEq

structure KeckClusterStatus where
  phase : Phase := .unset
  agentReady : Int := 0
  agentDesired : Int := 0
  controllerReady : Bool := false
  lastUpdated : Int := 0
  message : String := ""

/-- A KeckCluster; `deleting` says that its deletion timestamp is set. -/
structure KeckCluster where
  deleting : Bool := false
  finalizers : List String := []
  spec : KeckClusterSpec := {}
  status : KeckClusterStatus := {}

end Keck.Operator
