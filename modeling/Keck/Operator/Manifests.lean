import Keck.Operator.Objects
/-!
# What the operator wants in the cluster

The objects each `ensure` function builds before it looks at the cluster, from
the KeckCluster's spec and the operator's defaults
(`keckcluster_controller.go`).
-/

namespace Keck.Operator
open Keck.Lib

def keckNamespace : String := "keck-system"

def finalizerName : String := "keck.io/finalizer"

/-! ## Labels, images, resources -/

def commonLabels : Labels :=
  .of [("app.kubernetes.io/managed-by", "keck-operator"), ("app.kubernetes.io/part-of", "keck")]

def agentLabels : Labels :=
  (commonLabels.insert "app.kubernetes.io/name" "keck-agent").insert "app.kubernetes.io/component" "agent"

def controllerLabels : Labels :=
  (commonLabels.insert "app.kubernetes.io/name" "keck-controller").insert
    "app.kubernetes.io/component" "controller"

/-- The selector of the agent's pods. -/
def agentSelector : Labels :=
  .of [("app.kubernetes.io/name", "keck-agent"), ("app.kubernetes.io/component", "agent")]

/-- The selector of the controller's pods. -/
def controllerSelector : Labels :=
  .of [("app.kubernetes.io/name", "keck-controller"), ("app.kubernetes.io/component", "controller")]

def imageRepo (spec : KeckClusterSpec) : String :=
  if spec.image.repository ≠ "" then spec.image.repository else "quay.io/aguetta"

def imageTag (spec : KeckClusterSpec) : String :=
  if spec.image.tag ≠ "" then spec.image.tag else "latest"

def agentImage (spec : KeckClusterSpec) : String := imageRepo spec ++ "/keck-agent:" ++ imageTag spec

def controllerImage (spec : KeckClusterSpec) : String := imageRepo spec ++ "/keck-controller:" ++ imageTag spec

def agentTolerations (spec : KeckClusterSpec) : List Toleration :=
  if spec.agent.tolerations.length > 0 then spec.agent.tolerations
  else
    -- control plane nodes are metered too
    ["node-role.kubernetes.io/control-plane", "node-role.kubernetes.io/master"].map fun key =>
      { key, operator := some .opExists, effect := some .noSchedule }

/-- The user's resources if they set limits, otherwise the given defaults. -/
def resourcesOr (resources : ResourceRequirements) (requests limits : List (String × String)) :
    ResourceRequirements :=
  if resources.limits.isSome then resources
  else { requests := some (.of requests), limits := some (.of limits) }

def agentResources (spec : KeckClusterSpec) : ResourceRequirements :=
  resourcesOr spec.agent.resources [("cpu", "50m"), ("memory", "64Mi")] [("cpu", "200m"), ("memory", "256Mi")]

def controllerResources (spec : KeckClusterSpec) : ResourceRequirements :=
  resourcesOr spec.controller.resources [("cpu", "100m"), ("memory", "128Mi")]
    [("cpu", "500m"), ("memory", "512Mi")]

/-- The `/healthz` probe of both components. -/
def healthProbe (port initialDelay period : Nat) : Probe where
  httpGet := { path := "/healthz", port }
  initialDelaySeconds := initialDelay
  periodSeconds := period
  timeoutSeconds := 3
  failureThreshold := 3

/-- The API key, as both components get it. -/
def apiKeyEnv : EnvVar := ⟨"KECK_API_KEY", .secretKeyRef "keck-api-key" "api-key"⟩

/-! ## Namespace, accounts, key, access -/

def desiredNamespace : Namespace where
  labels := .of [("app.kubernetes.io/managed-by", "keck-operator"), ("app.kubernetes.io/part-of", "keck")]

def desiredServiceAccount : ServiceAccount where
  labels := commonLabels

/-- `hex.EncodeToString`. -/
def encodeToString (bytes : List UInt8) : String :=
  String.ofList (bytes.flatMap fun b => [Nat.digitChar (b.toNat / 16), Nat.digitChar (b.toNat % 16)])

def desiredSecret (keyBytes : Vector UInt8 32) : Secret where
  labels := commonLabels
  type := "Opaque"
  data := .of [("api-key", encodeToString keyBytes.toList)]

def desiredClusterRole : ClusterRole where
  labels := commonLabels
  rules :=
    [{ apiGroups := [""], resources := ["nodes", "pods", "namespaces", "endpoints"],
       verbs := ["get", "list", "watch"] },
     { apiGroups := ["keck.io"], resources := ["powerbudgets", "powerprofiles"],
       verbs := ["get", "list", "watch"] }]

def desiredClusterRoleBinding : ClusterRoleBinding where
  labels := commonLabels
  roleRef := { apiGroup := "rbac.authorization.k8s.io", kind := "ClusterRole", name := "keck-agent" }
  subjects := [{ kind := "ServiceAccount", name := "keck-agent", ns := keckNamespace }]

/-! ## Agent -/

/-- `REDFISH_MAP`: `SERIAL1=https://ip1,SERIAL2=https://ip2`. -/
def redfishMap (entries : List NodeBMCEntry) : String :=
  ",".intercalate (entries.map fun entry => entry.serial ++ "=" ++ entry.endpoint)

def redfishEnv (rf : RedfishSpec) : List EnvVar :=
  (if rf.nodeBMCMap.length > 0 then [⟨"REDFISH_MAP", .value (redfishMap rf.nodeBMCMap)⟩] else []) ++
  (if rf.credentialsSecret ≠ "" then
    [⟨"REDFISH_USERNAME", .secretKeyRef rf.credentialsSecret "username"⟩,
     ⟨"REDFISH_PASSWORD", .secretKeyRef rf.credentialsSecret "password"⟩]
  else [])

def agentEnv (spec : KeckClusterSpec) : List EnvVar :=
  [⟨"NODE_NAME", .fieldRef "spec.nodeName"⟩,
   ⟨"KECK_CONTROLLER_URL", .value "http://keck-controller.keck-system.svc:8080"⟩,
   apiKeyEnv] ++
  (if spec.agent.defaultProfile ≠ "" then [⟨"KECK_PROFILE", .value spec.agent.defaultProfile⟩] else []) ++
  (if spec.agent.gpuEnabled then [⟨"KECK_GPU_ENABLED", .value "true"⟩] else []) ++
  (if spec.agent.capturedLabels.length > 0 then
    [⟨"KECK_CAPTURED_LABELS", .value (",".intercalate spec.agent.capturedLabels)⟩]
  else []) ++
  match spec.agent.redfish with
  | some rf => redfishEnv rf
  | none => []

def agentContainer (spec : KeckClusterSpec) : Container where
  name := "keck-agent"
  image := agentImage spec
  imagePullPolicy := spec.image.pullPolicy
  command := ["/usr/bin/keck-agent"]
  env := agentEnv spec
  securityContext :=
    { capabilitiesAdd := ["SYS_ADMIN", "PERFMON", "BPF", "SYS_RESOURCE"], capabilitiesDrop := ["ALL"],
      readOnlyRootFilesystem := some true }
  livenessProbe := some (healthProbe 9100 30 30)
  readinessProbe := some (healthProbe 9100 10 10)
  resources := agentResources spec
  volumeMounts :=
    [{ name := "proc", mountPath := "/host/proc", readOnly := true },
     { name := "sys", mountPath := "/host/sys", readOnly := true },
     { name := "tracefs", mountPath := "/sys/kernel/tracing", readOnly := true }]
  ports := [{ name := "metrics", containerPort := 9100 }]

def desiredDaemonSet (spec : KeckClusterSpec) : DaemonSet where
  labels := agentLabels
  spec :=
    { selector := agentSelector
      template :=
        { labels := agentLabels
          spec :=
            { serviceAccountName := "keck-agent"
              hostPID := true
              nodeSelector := spec.agent.nodeSelector
              tolerations := agentTolerations spec
              containers := [agentContainer spec]
              volumes :=
                [⟨"proc", .hostPath "/proc"⟩, ⟨"sys", .hostPath "/sys"⟩,
                 ⟨"tracefs", .hostPath "/sys/kernel/tracing"⟩] } } }

/-! ## Controller -/

def controllerArgs (spec : KeckClusterSpec) : List String :=
  (if spec.controller.schedulerEnabled then ["--scheduler-enabled"] else []) ++
  (if spec.controller.carbonAPIEndpoint ≠ "" then ["--carbon-api=" ++ spec.controller.carbonAPIEndpoint] else []) ++
  (if spec.controller.carbonRegion ≠ "" then ["--carbon-region=" ++ spec.controller.carbonRegion] else []) ++
  (if spec.fleetEndpoint ≠ "" then ["--fleet-endpoint=" ++ spec.fleetEndpoint] else [])

/-- The security context of the controller and of its TLS proxy. -/
def unprivileged : SecurityContext where
  readOnlyRootFilesystem := some true
  runAsNonRoot := some true
  capabilitiesDrop := ["ALL"]

def controllerContainer (spec : KeckClusterSpec) : Container where
  name := "keck-controller"
  image := controllerImage spec
  imagePullPolicy := spec.image.pullPolicy
  command := ["/usr/bin/keck-controller"]
  args := controllerArgs spec
  ports := [{ name := "grpc", containerPort := 9090 }, { name := "http", containerPort := 8080 }]
  env := [apiKeyEnv, ⟨"KEPLER_ENABLED", .value "true"⟩]
  livenessProbe := some (healthProbe 8080 15 15)
  readinessProbe := some (healthProbe 8080 5 10)
  securityContext := unprivileged
  resources := controllerResources spec

def tlsProxy : Container where
  name := "tls-proxy"
  image := "nginxinc/nginx-unprivileged:1.27-alpine"
  command := ["nginx", "-g", "daemon off;"]
  ports := [{ name := "https", containerPort := 9443 }]
  securityContext := unprivileged
  volumeMounts :=
    [{ name := "tls", mountPath := "/etc/tls", readOnly := true },
     { name := "nginx-conf", mountPath := "/etc/nginx/nginx.conf", subPath := "nginx.conf", readOnly := true }]

def desiredDeployment (spec : KeckClusterSpec) : Deployment where
  labels := controllerLabels
  spec :=
    { replicas := if spec.controller.replicas = 0 then 1 else spec.controller.replicas
      selector := controllerSelector
      template :=
        { labels := controllerLabels
          spec :=
            { serviceAccountName := "keck-controller"
              containers := [controllerContainer spec, tlsProxy]
              volumes :=
                [⟨"tls", .secret "keck-controller-tls"⟩, ⟨"nginx-conf", .configMap "keck-controller-nginx"⟩] } } }

def nginxConf : String := "\n".intercalate
  ["pid /tmp/nginx.pid;",
   "worker_processes 1;",
   "events \x7b worker_connections 1024; \x7d",
   "http \x7b",
   "    client_body_temp_path /tmp/client_body;",
   "    proxy_temp_path /tmp/proxy;",
   "    fastcgi_temp_path /tmp/fastcgi;",
   "    uwsgi_temp_path /tmp/uwsgi;",
   "    scgi_temp_path /tmp/scgi;",
   "    server \x7b",
   "        listen 9443 ssl;",
   "        ssl_certificate /etc/tls/tls.crt;",
   "        ssl_certificate_key /etc/tls/tls.key;",
   "        location / \x7b",
   "            proxy_pass http://localhost:8080;",
   "        \x7d",
   "    \x7d",
   "\x7d",
   ""]

def desiredConfigMap : ConfigMap where
  labels := commonLabels
  data := .of [("nginx.conf", nginxConf)]

/-- The annotation that has OpenShift issue the proxy's certificate. -/
def servingCert : String × String := ("service.beta.openshift.io/serving-cert-secret-name", "keck-controller-tls")

def desiredService : Service where
  labels := controllerLabels
  annotations := .of [servingCert]
  spec :=
    { selector := controllerSelector
      ports :=
        [{ name := "grpc", port := 9090 }, { name := "http", port := 8080 },
         { name := "https", port := 9443, targetPort := some 9443 }] }

def desiredPDB : PodDisruptionBudget where
  labels := commonLabels
  spec := { minAvailable := 1, selector := controllerSelector }

/-- A peer in the namespace called `name`. -/
def fromNamespace (name : String) : NetworkPolicyPeer where
  namespaceSelector := some (.of [("kubernetes.io/metadata.name", name)])

/-- A pod called `name` in the controller's own namespace. -/
def fromPods (name : String) : NetworkPolicyPeer where
  podSelector := some (.of [("app.kubernetes.io/name", name)])

def desiredNetworkPolicy : NetworkPolicy where
  labels := commonLabels
  spec :=
    { podSelector := controllerSelector
      policyTypes := [.ingress]
      ingress :=
        -- reports, metrics scraping, the console plugin's TLS proxy
        [{ peers := [fromPods "keck-agent"], ports := [{ port := 8080 }] },
         { peers := [fromNamespace "openshift-monitoring", fromNamespace "openshift-user-workload-monitoring"],
           ports := [{ port := 8080 }] },
         { peers := [fromNamespace "openshift-console", fromPods "keck-power-management"],
           ports := [{ port := 9443 }] }] }

def desiredServiceMonitor : ServiceMonitor where
  labels := commonLabels
  selector := controllerSelector
  endpoints := [{ port := "http", path := "/metrics", interval := "30s" }]

end Keck.Operator
