import Mathlib
/-!
# Attribution results

The types of `keck-agent/src/attribution/types.rs` that the engine fills, the
Kubernetes enrichment regroups and the local store keeps. Powers are
microwatts, energies microjoules, times nanoseconds.
-/
namespace Keck.Attribution

/-- Power by component. -/
@[ext]
structure PowerBreakdown where
  cpuUw : Nat := 0
  memoryUw : Nat := 0
  gpuUw : Nat := 0
  nicUw : Nat := 0
  storageUw : Nat := 0
  deriving DecidableEq

namespace PowerBreakdown

def totalUw (p : PowerBreakdown) : Nat := p.cpuUw + p.memoryUw + p.gpuUw + p.nicUw + p.storageUw

instance : Zero PowerBreakdown := ⟨{}⟩

/-- Powers add up component by component. -/
instance : Add PowerBreakdown where
  add p q :=
    { cpuUw := p.cpuUw + q.cpuUw
      memoryUw := p.memoryUw + q.memoryUw
      gpuUw := p.gpuUw + q.gpuUw
      nicUw := p.nicUw + q.nicUw
      storageUw := p.storageUw + q.storageUw }

@[simp] theorem cpuUw_add (p q : PowerBreakdown) : (p + q).cpuUw = p.cpuUw + q.cpuUw := rfl
@[simp] theorem memoryUw_add (p q : PowerBreakdown) : (p + q).memoryUw = p.memoryUw + q.memoryUw := rfl
@[simp] theorem gpuUw_add (p q : PowerBreakdown) : (p + q).gpuUw = p.gpuUw + q.gpuUw := rfl
@[simp] theorem nicUw_add (p q : PowerBreakdown) : (p + q).nicUw = p.nicUw + q.nicUw := rfl
@[simp] theorem storageUw_add (p q : PowerBreakdown) : (p + q).storageUw = p.storageUw + q.storageUw := rfl

instance : AddCommMonoid PowerBreakdown where
  add_assoc p q r := by ext <;> simp [add_assoc]
  zero_add p := by ext <;> exact Nat.zero_add _
  add_zero p := rfl
  add_comm p q := by ext <;> simp [add_comm]
  nsmul := nsmulRec

end PowerBreakdown

/-- How a process's CPU power was found. -/
inductive AttributionMethod where
  | fullModel
  | frequencyWeighted
  | cpuTimeRatio
  deriving DecidableEq

/-- A process's part of one core. -/
structure CoreAttribution where
  core : Nat
  timeNs : Nat
  avgFreqKhz : Nat
  energyUj : Nat
  instructions : Nat
  cycles : Nat
  cacheMisses : Nat
  deriving DecidableEq

structure ProcessPower where
  pid : Nat
  comm : String
  cgroupId : Nat
  power : PowerBreakdown
  coreDetail : List CoreAttribution
  attributionMethod : AttributionMethod
  deriving DecidableEq

structure ContainerPower where
  containerId : String
  name : String
  cgroupId : Nat
  power : PowerBreakdown
  processes : List ProcessPower
  deriving DecidableEq

structure PodPower where
  podUid : String
  name : String
  ns : String
  power : PowerBreakdown
  containers : List ContainerPower
  deriving DecidableEq

structure NamespacePower where
  ns : String
  power : PowerBreakdown
  podCount : Nat
  deriving DecidableEq

structure NodePower where
  measured : PowerBreakdown
  platformUw : Option Nat
  attributedTotalUw : Nat

structure Reconciliation where
  platformUw : Option Nat
  componentSumUw : Nat
  attributedSumUw : Nat
  unaccountedUw : Int
  errorRatio : ℚ

/-- One interval's attribution. -/
structure AttributionSnapshot where
  timestamp : Nat
  intervalNs : Nat
  node : NodePower
  processes : List ProcessPower
  pods : List PodPower
  namespaces : List NamespacePower
  idlePower : PowerBreakdown
  reconciliation : Reconciliation

end Keck.Attribution
