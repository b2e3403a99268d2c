import Keck.Lib.Groups
import Keck.Lib.Meter
import Keck.Attribution.Snapshot
/-!
# The attribution engine

`AttributionEngine::attribute` from `keck-agent/src/attribution/engine.rs` with
the weight models of `model.rs`: socket energies are split over cores, each
core's energy over the processes seen on it, DRAM energy by cache misses.
`f64` values are rationals and `as u64` is the floor; core indices are natural
numbers. The rounds of a nested loop that only adds to hash maps are listed
first (`coreAttributions`, `pidCounters`) and then folded into the map.
-/
namespace Keck.Attribution

open Keck.Lib

/-! ## Inputs -/

structure PidCpuKey where
  cpu : Nat
  pid : Nat

structure CpuFreqKey where
  cpu : Nat
  freqKhz : Nat

structure CoreCounters where
  instructions : Nat
  cycles : Nat
  cacheMisses : Nat
  cacheRefs : Nat

structure ObservationSnapshot where
  pidCpuTimes : List (PidCpuKey × Nat)
  cpuFreqTimes : List (CpuFreqKey × Nat)
  coreCounters : List (Nat × CoreCounters)
  pidCgroups : Table Nat Nat

structure EnergyInput where
  socketEnergyUj : List Nat
  dramEnergyUj : List Nat
  gpuEnergyUj : List Nat
  platformEnergyUj : Option Nat
  intervalNs : Nat

/-! ## Weight models -/

structure PidCoreObservation where
  pid : Nat
  timeNs : Nat
  instructions : Nat
  cycles : Nat
  cacheMisses : Nat

structure PidCoreWeight where
  pid : Nat
  rawWeight : ℚ

inductive AttributionModel where
  | full (alpha beta : ℚ)
  | frequencyWeighted
  | cpuTimeRatio

namespace AttributionModel

def freqFactor (avgFreqKhz : Nat) : ℚ := ((avgFreqKhz : ℚ) / 1000000) ^ 2

def rawWeight (model : AttributionModel) (avgFreqKhz : Nat) (obs : PidCoreObservation) : ℚ :=
  match model with
  | .full alpha beta =>
    let ipc : ℚ := if obs.cycles > 0 then obs.instructions / obs.cycles else 0
    let missRatio : ℚ := if obs.instructions > 0 then obs.cacheMisses / obs.instructions else 0
    obs.timeNs * freqFactor avgFreqKhz * (1 + alpha * ipc + beta * missRatio)
  | .frequencyWeighted => obs.timeNs * freqFactor avgFreqKhz
  | .cpuTimeRatio => obs.timeNs

def computeWeights (model : AttributionModel) (observations : List PidCoreObservation) (avgFreqKhz : Nat) :
    List PidCoreWeight :=
  observations.map fun obs => ⟨obs.pid, model.rawWeight avgFreqKhz obs⟩

def method : AttributionModel → AttributionMethod
  | .full _ _ => .fullModel
  | .frequencyWeighted => .frequencyWeighted
  | .cpuTimeRatio => .cpuTimeRatio

end AttributionModel

def selectModel (hasFreqData hasPerfCounters : Bool) : AttributionModel :=
  match hasPerfCounters, hasFreqData with
  | true, true => .full (3 / 10) (3 / 2)
  | false, true => .frequencyWeighted
  | _, _ => .cpuTimeRatio

/-! ## What the observations say about each core -/

namespace ObservationSnapshot
variable (obs : ObservationSnapshot)

/-- A core's average frequency, as the socket split takes it. -/
def splitFreq (cpu : Nat) : ℚ :=
  let times := obs.cpuFreqTimes.filter fun x => x.1.cpu = cpu
  let wsum : ℚ := (times.map fun x => (x.1.freqKhz : ℚ) * x.2).sum
  let tsum : ℚ := (times.map fun x => (x.2 : ℚ)).sum
  if tsum > 0 then wsum / tsum else 1000000

/-- Each core's weight in the split of its socket's energy. -/
def coreWeight : Table Nat ℚ :=
  groupFold (fun x => x.1.cpu) (fun _ => 0) (fun w x => w + x.2 * (obs.splitFreq x.1.cpu / 1000000) ^ 2)
    obs.pidCpuTimes

/-- Frequency times time and time, summed over each core's frequencies. -/
def coreFreqWeighted : Table Nat (ℚ × ℚ) :=
  groupFold (fun x => x.1.cpu) (fun _ => (0, 0)) (fun e x => (e.1 + x.1.freqKhz * x.2, e.2 + x.2)) obs.cpuFreqTimes

def coreAvgFreq (core : Nat) : Option Nat :=
  (obs.coreFreqWeighted.lookup core).map fun e => if e.2 > 0 then ⌊e.1 / e.2⌋₊ else 1000000

/-- Each core's processes with the time they ran on it; a later entry of the
same process replaces an earlier one. -/
def corePidObservations : Table Nat (Table Nat Nat) :=
  groupFold (fun x => x.1.cpu) (fun _ => ∅) (fun t x => t.insert x.1.pid x.2) obs.pidCpuTimes

/-- A part of a core's counters. -/
def scaled (counters : CoreCounters) (ratio : ℚ) : CoreCounters where
  instructions := ⌊(counters.instructions : ℚ) * ratio⌋₊
  cycles := ⌊(counters.cycles : ℚ) * ratio⌋₊
  cacheMisses := ⌊(counters.cacheMisses : ℚ) * ratio⌋₊
  cacheRefs := ⌊(counters.cacheRefs : ℚ) * ratio⌋₊

def addCoreCounters (m : Table Nat (Table Nat CoreCounters)) (x : Nat × CoreCounters) :
    Table Nat (Table Nat CoreCounters) :=
  match obs.corePidObservations.lookup x.1 with
  | none => m
  | some pidTimes =>
    let totalTime := pidTimes.values.sum
    if totalTime = 0 then m
    else m.insert x.1 (pidTimes.entries.foldl (fun t e => t.insert e.1 (scaled x.2 (e.2 / totalTime)))
      ((m.lookup x.1).getD ∅))

/-- Each core's counters, split over its processes by time. -/
def coreCounterMap : Table Nat (Table Nat CoreCounters) :=
  if obs.coreCounters.isEmpty then ∅ else obs.coreCounters.foldl obs.addCoreCounters ∅

/-- The model's input for one core. -/
def coreObservations (core : Nat) : List PidCoreObservation :=
  match obs.corePidObservations.lookup core with
  | none => []
  | some pidTimes => pidTimes.entries.map fun e =>
    let counters := ((obs.coreCounterMap.lookup core).bind (·.lookup e.1)).getD ⟨0, 0, 0, 0⟩
    ⟨e.1, e.2, counters.instructions, counters.cycles, counters.cacheMisses⟩

/-- A counter of each core, split over the core's processes by time. -/
def pidCounters (field : CoreCounters → Nat) : List (Nat × Nat) :=
  obs.coreCounters.flatMap fun x =>
    match obs.corePidObservations.lookup x.1 with
    | none => []
    | some pidTimes =>
      let totalTime := pidTimes.values.sum
      if totalTime = 0 then []
      else pidTimes.entries.map fun e => (e.1, ⌊(field x.2 : ℚ) * (e.2 / totalTime)⌋₊)

def aggregatePidCounter (field : CoreCounters → Nat) : Table Nat Nat :=
  groupFold (·.1) (fun _ => 0) (fun s x => s + x.2) (obs.pidCounters field)

end ObservationSnapshot

/-! ## The engine -/

structure AttributionEngine where
  model : AttributionModel
  numCores : Nat
  coresPerSocket : Nat

namespace AttributionEngine

def new (numCores numSockets : Nat) : AttributionEngine where
  model := selectModel false false
  numCores := numCores
  coresPerSocket := if numSockets > 0 then numCores / numSockets else numCores

variable (engine : AttributionEngine) (obs : ObservationSnapshot) (energy : EnergyInput)

def socketCores (socketIdx : Nat) : List Nat := List.range' (socketIdx * engine.coresPerSocket) engine.coresPerSocket

/-- What a core gets of its socket's energy: evenly if the socket did no work,
else by weight. -/
def socketShare (socketIdx socketEnergy core : Nat) : Nat :=
  let socketTotalWeight := ((engine.socketCores socketIdx).filterMap fun c => obs.coreWeight.lookup c).sum
  if socketTotalWeight ≤ 0 then socketEnergy / engine.coresPerSocket
  else ⌊(socketEnergy : ℚ) * ((obs.coreWeight.lookup core).getD 0 / socketTotalWeight)⌋₊

def splitSocket (coreEnergies : Table Nat Nat) (socket : Nat × Nat) : Table Nat Nat :=
  (engine.socketCores socket.2).foldl
    (fun m core => m.insert core (engine.socketShare obs socket.2 socket.1 core)) coreEnergies

def splitSocketToCores : Table Nat Nat := energy.socketEnergyUj.zipIdx.foldl (engine.splitSocket obs) ∅

/-- What the loop over the cores adds for one core, by process. -/
def coreAttributions (core : Nat) : List (Nat × CoreAttribution) :=
  let coreEnergyUj := ((engine.splitSocketToCores obs energy).lookup core).getD 0
  if coreEnergyUj = 0 then []
  else
    let avgFreq := (obs.coreAvgFreq core).getD 1000000
    let observations := obs.coreObservations core
    if observations.isEmpty then []
    else
      let weights := engine.model.computeWeights observations avgFreq
      let totalWeight : ℚ := (weights.map fun w => w.rawWeight).sum
      if totalWeight ≤ 0 then []
      else (weights.zip observations).map fun x =>
        (x.1.pid,
          { core := core
            timeNs := x.2.timeNs
            avgFreqKhz := avgFreq
            energyUj := ⌊(coreEnergyUj : ℚ) * (x.1.rawWeight / totalWeight)⌋₊
            instructions := x.2.instructions
            cycles := x.2.cycles
            cacheMisses := x.2.cacheMisses })

def attributions : List (Nat × CoreAttribution) :=
  (List.range engine.numCores).flatMap (engine.coreAttributions obs energy)

def processCpuEnergy : Table Nat Nat :=
  groupFold (·.1) (fun _ => 0) (fun e x => e + x.2.energyUj) (engine.attributions obs energy)

def processCoreDetail : Table Nat (List CoreAttribution) :=
  collect (·.1) (·.2) (engine.attributions obs energy)

/-- DRAM energy by cache misses, or by CPU energy if there are none. -/
def attributeMemory : Table Nat Nat :=
  let totalDramEnergy := energy.dramEnergyUj.sum
  let processCpuEnergy := engine.processCpuEnergy obs energy
  let byCpu : Table Nat Nat :=
    let totalCpu := processCpuEnergy.values.sum
    if totalCpu = 0 then ∅
    else processCpuEnergy.mapValues fun cpuE => ⌊(totalDramEnergy : ℚ) * (cpuE / totalCpu)⌋₊
  if totalDramEnergy = 0 then ∅
  else if obs.coreCounters.isEmpty then byCpu
  else
    let pidCacheMisses := obs.aggregatePidCounter (·.cacheMisses)
    let totalMisses := pidCacheMisses.values.sum
    if totalMisses > 0 then
      pidCacheMisses.mapValues fun misses => ⌊(totalDramEnergy : ℚ) * (misses / totalMisses)⌋₊
    else byCpu

def process (pid : Nat) : ProcessPower where
  pid := pid
  comm := ""
  cgroupId := (obs.pidCgroups.lookup pid).getD 0
  power :=
    { cpuUw := energyToPower (((engine.processCpuEnergy obs energy).lookup pid).getD 0) energy.intervalNs
      memoryUw := energyToPower (((engine.attributeMemory obs energy).lookup pid).getD 0) energy.intervalNs }
  coreDetail := ((engine.processCoreDetail obs energy).lookup pid).getD []
  attributionMethod := engine.model.method

def totalCoreEnergy : Nat := (engine.splitSocketToCores obs energy).values.sum

def totalAttributed : Nat := (engine.processCpuEnergy obs energy).values.sum

def idleEnergy : Nat := engine.totalCoreEnergy obs energy - engine.totalAttributed obs energy

def componentSum : Nat := engine.totalCoreEnergy obs energy + energy.dramEnergyUj.sum + energy.gpuEnergyUj.sum

def attributedSum : Nat := engine.totalAttributed obs energy + engine.idleEnergy obs energy

/-- The platform's energy less the components', in the units of the inputs,
and its part of the platform's. -/
def unaccounted : Int × ℚ :=
  match energy.platformEnergyUj with
  | none => (0, 0)
  | some platform =>
    let unaccounted : Int := platform - engine.componentSum obs energy
    (unaccounted, if platform > 0 then unaccounted.natAbs / platform else 0)

/-- The snapshot an engine with its model already chosen makes at time `now`. -/
def snapshot (now : Nat) : AttributionSnapshot where
  timestamp := now
  intervalNs := energy.intervalNs
  node :=
    { measured :=
        { cpuUw := energyToPower (engine.totalCoreEnergy obs energy) energy.intervalNs
          memoryUw := energyToPower energy.dramEnergyUj.sum energy.intervalNs
          gpuUw := energyToPower energy.gpuEnergyUj.sum energy.intervalNs }
      platformUw := energy.platformEnergyUj.map fun e => energyToPower e energy.intervalNs
      attributedTotalUw := energyToPower (engine.attributedSum obs energy) energy.intervalNs }
  processes := (engine.processCpuEnergy obs energy).keys.map (engine.process obs energy)
  pods := []
  namespaces := []
  idlePower := { cpuUw := energyToPower (engine.idleEnergy obs energy) energy.intervalNs }
  reconciliation :=
    { platformUw := energy.platformEnergyUj.map fun e => energyToPower e energy.intervalNs
      componentSumUw := energyToPower (engine.componentSum obs energy) energy.intervalNs
      attributedSumUw := energyToPower (engine.attributedSum obs energy) energy.intervalNs
      unaccountedUw := (engine.unaccounted obs energy).1
      errorRatio := (engine.unaccounted obs energy).2 }

def withModel (model : AttributionModel) : AttributionEngine := ⟨model, engine.numCores, engine.coresPerSocket⟩

/-- Choose the model the observations allow. -/
def upgraded : AttributionEngine :=
  engine.withModel (selectModel (!obs.cpuFreqTimes.isEmpty) (!obs.coreCounters.isEmpty))

/-- One interval: the engine with its new model, and the snapshot. -/
def attributeInterval (now : Nat) : AttributionEngine × AttributionSnapshot :=
  (engine.upgraded obs, (engine.upgraded obs).snapshot obs energy now)

end AttributionEngine

end Keck.Attribution
