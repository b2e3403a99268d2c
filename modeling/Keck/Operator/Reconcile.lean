import Keck.Operator.Cluster
/-!
# Reconcile

`KeckClusterReconciler.Reconcile` and the functions it calls, as programs over
API requests. The `ensure` functions share one shape, get, create if it is not
there, else update or leave alone; `ensureAPIKeySecret` and the ClusterRole part
of `ensureRBAC` have bodies of their own.
-/

namespace Keck.Operator
open Keck.Lib Keck.Lib.Effects

/-- Programs over API requests. -/
abbrev M (α : Type) : Type := Prog Ans α

/-! ## Single requests -/

/-- The error of a request that answers nothing else. -/
def errOf : Except Err Unit → Option Err
  | .error e => some e
  | .ok _ => none

def send (op : Op) : M (Ans op) := .request op

def get (r : Ref) : M (Except Err (Obj r)) := send (.get .main r)

def create (r : Ref) (x : Obj r) : M (Option Err) := do
  return errOf (← send (.create r x))

def update (r : Ref) (x : Obj r) : M (Option Err) := do
  return errOf (← send (.update r x))

def delete (r : Ref) : M (Option Err) := do
  return errOf (← send (.delete r))

def updateKeck (name : String) (keck : KeckCluster) : M (Option Err) := do
  return errOf (← send (.updateKeck name keck))

def updateKeckStatus (site : Site) (name : String) (status : KeckClusterStatus) : M (Option Err) := do
  return errOf (← send (.updateKeckStatus site name status))

/-! ## Ensuring one object -/

/-- Get the object; create it if it is not there, otherwise store it as
`refresh` changes it, or leave it alone. -/
def ensure (r : Ref) (desired : Obj r) (refresh : Option (Obj r → Obj r)) : M (Option Err) := do
  match ← get r with
  | .error e => if e.notFound then create r desired else return some e
  | .ok existing =>
    match refresh with
    | some f => update r (f existing)
    | none => return none

/-- The namespace keeps its other labels. -/
def mergeLabels (labels : Labels) : Labels :=
  (labels.insert "app.kubernetes.io/managed-by" "keck-operator").insert "app.kubernetes.io/part-of" "keck"

def ensureNamespace : M (Option Err) :=
  ensure .ns desiredNamespace <| some fun existing => { existing with labels := mergeLabels existing.labels }

def ensureServiceAccount : M (Option Err) :=
  (ensure .agentAccount desiredServiceAccount none).orReturn some <|
  ensure .controllerAccount desiredServiceAccount none

def ensureAPIKeySecret (rand : Except Err (Vector UInt8 32)) : M (Option Err) := do
  match ← get .apiKey with
  | .ok _ => return none -- already there, the key is not regenerated
  | .error e =>
    if !e.notFound then return some e
    else
      match rand with
      | .error e => return some (e.wrap "generating API key")
      | .ok keyBytes => create .apiKey (desiredSecret keyBytes)

/-- The ClusterRole as it is stored when it was there before. -/
def refreshRole (existing : ClusterRole) : ClusterRole :=
  { existing with rules := desiredClusterRole.rules, labels := desiredClusterRole.labels }

/-- The first half of `ensureRBAC`: an error other than not-found is dropped. -/
def ensureClusterRole : M (Option Err) := do
  match ← get .clusterRole with
  | .error e => if e.notFound then create .clusterRole desiredClusterRole else return none
  | .ok existing => update .clusterRole (refreshRole existing)

def ensureClusterRoleBinding : M (Option Err) :=
  ensure .clusterRoleBinding desiredClusterRoleBinding <| some fun existing =>
    { existing with
      subjects := desiredClusterRoleBinding.subjects, labels := desiredClusterRoleBinding.labels }

def ensureRBAC : M (Option Err) := ensureClusterRole.orReturn some ensureClusterRoleBinding

def ensureAgentDaemonSet (spec : KeckClusterSpec) : M (Option Err) :=
  ensure .daemonSet (desiredDaemonSet spec) <| some fun existing =>
    { existing with spec := (desiredDaemonSet spec).spec }

def ensureNginxConfig : M (Option Err) := ensure .nginxConfig desiredConfigMap none

def ensureControllerDeployment (spec : KeckClusterSpec) : M (Option Err) :=
  ensure .deployment (desiredDeployment spec) <| some fun existing =>
    { existing with spec := (desiredDeployment spec).spec }

def ensureControllerService : M (Option Err) :=
  ensure .service desiredService <| some fun existing =>
    { existing with
      spec := { existing.spec with ports := desiredService.spec.ports }
      annotations := existing.annotations.insert servingCert.1 servingCert.2 }

def ensureServiceMonitor : M (Option Err) := ensure .serviceMonitor desiredServiceMonitor none

def ensureNetworkPolicy : M (Option Err) :=
  ensure .networkPolicy desiredNetworkPolicy <| some fun existing =>
    { existing with spec := desiredNetworkPolicy.spec }

def ensurePDB : M (Option Err) :=
  ensure .pdb desiredPDB <| some fun existing => { existing with spec := desiredPDB.spec }

/-! ## Cleanup -/

/-- Get the object and, if that succeeds, delete it. -/
def remove (r : Ref) (context : String) : M (Option Err) := do
  match ← get r with
  | .error _ => return none
  | .ok _ =>
    match ← delete r with
    | some e => if e.notFound then return none else return some (e.wrap context)
    | none => return none

def removeAll : List (Ref × String) → M (Option Err)
  | [] => .ret none
  | (r, context) :: rest => (remove r context).orReturn some (removeAll rest)

/-- Reverse creation order, the namespace last. -/
def cleaned : List (Ref × String) :=
  [(.service, "deleting Service"), (.deployment, "deleting Deployment"), (.daemonSet, "deleting DaemonSet"),
   (.apiKey, "deleting Secret"), (.clusterRoleBinding, "deleting ClusterRoleBinding"),
   (.clusterRole, "deleting ClusterRole"), (.agentAccount, "deleting ServiceAccount"),
   (.ns, "deleting Namespace")]

def cleanupResources : M (Option Err) := removeAll cleaned

/-! ## Status -/

/-- The status computed from what was read of the two workloads. -/
def nextStatus (status : KeckClusterStatus) (ds : Except Err DaemonSet) (deploy : Except Err Deployment)
    (now : Int) : KeckClusterStatus :=
  let status := match ds with
    | .ok ds =>
      { status with agentReady := ds.status.numberReady, agentDesired := ds.status.desiredNumberScheduled }
    | .error _ => status
  let status := match deploy with
    | .ok deploy => { status with controllerReady := decide (deploy.status.readyReplicas > 0) }
    | .error _ => status
  let status :=
    if status.agentReady > 0 ∧ status.controllerReady = true then
      { status with
        phase := .running
        message := toString status.agentReady ++ "/" ++ toString status.agentDesired ++
          " agents ready, controller running" }
    else { status with phase := .installing, message := "Waiting for components to become ready" }
  { status with lastUpdated := now }

def updateStatus (name : String) (status : KeckClusterStatus) (now : Int) : M (Option Err) := do
  let ds ← send (.get .status .daemonSet)
  let deploy ← send (.get .status .deployment)
  updateKeckStatus .status name (nextStatus status ds deploy now)

/-! ## Reconcile -/

inductive EventType
  | normal | warning
deriving DecidableEq

structure Event where
  type : EventType
  reason : String
  message : String
deriving DecidableEq

/-- What `Reconcile` returns, with the event it records last, if any. -/
structure Result where
  err : Option Err
  event : Option Event

def Result.done : Result := ⟨none, none⟩

def Result.returned (e : Err) : Result := ⟨some e, none⟩

def Result.failed (context : String) (e : Err) : Result := ⟨some (e.wrap context), none⟩

def Result.warned (what : String) (e : Err) : Result :=
  ⟨some (e.wrap ("ensuring " ++ what)),
    some ⟨.warning, "ReconcileFailed", "Failed to ensure " ++ what ++ ": " ++ e.text⟩⟩

def Result.reconciled : Result :=
  ⟨none, some ⟨.normal, "Reconciled", "Successfully reconciled all Keck resources"⟩⟩

/-- What a reconcile takes from outside the cluster: the bytes (or the error) of
`rand.Read`, and the time. -/
structure Env where
  rand : Except Err (Vector UInt8 32)
  now : Int

/-- The deletion branch. -/
def finalize (name : String) (keck : KeckCluster) : M Result :=
  if finalizerName ∈ keck.finalizers then
    cleanupResources.orReturn (.failed "cleanup failed") <|
    (updateKeck name { keck with finalizers := keck.finalizers.filter (· ≠ finalizerName) }).orReturn .returned <|
    .ret .done
  else .ret .done

/-- The best-effort steps; their errors are only logged. -/
def finish (name : String) (status : KeckClusterStatus) (now : Int) : M Result := do
  let _ ← ensureServiceMonitor
  let _ ← ensureNetworkPolicy
  let _ ← ensurePDB
  let _ ← updateStatus name status now
  return .reconciled

def install (name : String) (spec : KeckClusterSpec) (status : KeckClusterStatus) (env : Env) : M Result :=
  ensureNamespace.orReturn (.failed "ensuring namespace") <|
  ensureServiceAccount.orReturn (.failed "ensuring service account") <|
  (ensureAPIKeySecret env.rand).orReturn (.failed "ensuring API key secret") <|
  ensureRBAC.orReturn (.failed "ensuring RBAC") <|
  (ensureAgentDaemonSet spec).orReturn (.warned "agent DaemonSet") <|
  ensureNginxConfig.orReturn (.warned "nginx config") <|
  (ensureControllerDeployment spec).orReturn (.warned "controller Deployment") <|
  ensureControllerService.orReturn (.warned "controller Service") <|
  finish name status env.now

/-- Add the finalizer on the first reconcile. -/
def addFinalizer (name : String) (keck : KeckCluster) : M (Option Err) :=
  if finalizerName ∈ keck.finalizers then .ret none
  else updateKeck name { keck with finalizers := keck.finalizers ++ [finalizerName] }

/-- Set the phase on the first reconcile. The new status is used even when it
could not be stored. -/
def markInstalling (name : String) (status : KeckClusterStatus) : M KeckClusterStatus :=
  if status.phase = .unset then do
    let _ ← updateKeckStatus .main name { status with phase := .installing }
    return { status with phase := .installing }
  else .ret status

/-- The branch of a KeckCluster that is not under deletion. -/
def reconcileLive (name : String) (keck : KeckCluster) (env : Env) : M Result :=
  (addFinalizer name keck).orReturn .returned do
    let status ← markInstalling name keck.status
    install name keck.spec status env

def reconcile (name : String) (env : Env) : M Result := do
  match ← send (.getKeck name) with
  | .error e => if e.notFound then return .done else return .returned e
  | .ok keck => if keck.deleting then finalize name keck else reconcileLive name keck env

end Keck.Operator
