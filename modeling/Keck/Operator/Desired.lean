import Keck.Operator.Reconcile
/-!
# The desired state

What a reconcile is for, said without requests: a child that is missing is
created as `desired`, one that is there becomes `refreshed`. Converging twice is
converging once.
-/

namespace Keck.Operator
open Keck.Lib

/-- The child as the operator creates it. -/
def desired (spec : KeckClusterSpec) (keyBytes : Vector UInt8 32) : (r : Ref) → Obj r
  | .ns => desiredNamespace
  | .agentAccount | .controllerAccount => desiredServiceAccount
  | .apiKey => desiredSecret keyBytes
  | .clusterRole => desiredClusterRole
  | .clusterRoleBinding => desiredClusterRoleBinding
  | .daemonSet => desiredDaemonSet spec
  | .nginxConfig => desiredConfigMap
  | .deployment => desiredDeployment spec
  | .service => desiredService
  | .serviceMonitor => desiredServiceMonitor
  | .networkPolicy => desiredNetworkPolicy
  | .pdb => desiredPDB

/-- The child as the operator leaves it when it was there before. -/
def refreshed (spec : KeckClusterSpec) : (r : Ref) → Obj r → Obj r
  | .ns, x => { x with labels := mergeLabels x.labels }
  | .clusterRole, x => refreshRole x
  | .clusterRoleBinding, x =>
    { x with subjects := desiredClusterRoleBinding.subjects, labels := desiredClusterRoleBinding.labels }
  | .daemonSet, x => { x with spec := (desiredDaemonSet spec).spec }
  | .deployment, x => { x with spec := (desiredDeployment spec).spec }
  | .service, x =>
    { x with
      spec := { x.spec with ports := desiredService.spec.ports }
      annotations := x.annotations.insert servingCert.1 servingCert.2 }
  | .networkPolicy, x => { x with spec := desiredNetworkPolicy.spec }
  | .pdb, x => { x with spec := desiredPDB.spec }
  | .agentAccount, x | .controllerAccount, x | .apiKey, x | .nginxConfig, x | .serviceMonitor, x => x

def converged (spec : KeckClusterSpec) (keyBytes : Vector UInt8 32) (r : Ref) : Option (Obj r) → Obj r
  | none => desired spec keyBytes r
  | some x => refreshed spec r x

theorem mergeLabels_mergeLabels (labels : Labels) : mergeLabels (mergeLabels labels) = mergeLabels labels :=
  AList.insert_pair_again (by decide) _ _ _

theorem refreshed_refreshed (spec : KeckClusterSpec) (r : Ref) (x : Obj r) :
    refreshed spec r (refreshed spec r x) = refreshed spec r x := by
  cases r with
  | ns => simp only [refreshed, mergeLabels_mergeLabels]
  | service => simp only [refreshed, AList.insert_insert]
  | _ => rfl

theorem refreshed_desired (spec : KeckClusterSpec) (keyBytes : Vector UInt8 32) (r : Ref) :
    refreshed spec r (desired spec keyBytes r) = desired spec keyBytes r := by
  cases r with
  | ns => exact congrArg Namespace.mk (mergeLabels_mergeLabels ∅)
  | service =>
    simp only [refreshed, desired, desiredService, Labels.of, List.foldl_cons, List.foldl_nil,
      AList.insert_insert]
  | _ => rfl

/-- The desired state is reached at once, whatever key a second round draws. -/
theorem converged_converged (spec : KeckClusterSpec) (keyBytes keyBytes' : Vector UInt8 32) (r : Ref)
    (o : Option (Obj r)) :
    converged spec keyBytes' r (some (converged spec keyBytes r o)) = converged spec keyBytes r o := by
  cases o with
  | none => exact refreshed_desired spec keyBytes r
  | some x => exact refreshed_refreshed spec r x

/-- A cluster whose children are all as desired. -/
def settled (spec : KeckClusterSpec) (keyBytes : Vector UInt8 32) (kecks : Table String KeckCluster) : Cluster where
  kecks := kecks
  objs := fun r => some (desired spec keyBytes r)
  monitoring := true
  housed := fun _ _ _ => rfl

/-- A cluster with one KeckCluster, before its first reconcile. -/
def freshCluster (name : String) (keck : KeckCluster) : Cluster where
  kecks := AList.singleton name keck
  objs := fun _ => none
  monitoring := false
  housed := fun _ _ h => by cases h

def sampleEnv : Env := ⟨.ok (Vector.replicate 32 7), 100⟩

end Keck.Operator
