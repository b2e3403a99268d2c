import Keck.Attribution.Energy
import Keck.Lib.Checked
/-!
# Every division of an interval

`attribute?` is `attribute` of `keck-agent/src/attribution/engine.rs` once more,
with every division checked: it gives nothing if a divisor is zero, where the
source panics for integers and goes on with a NaN or an infinity for floats. All
divisors but one are guarded where they are used. The exception is the number of
cores of a socket, by which the energy of a socket without work is divided
(`splitSocket?`): it is zero if an engine is made for more sockets than cores
(`attribute?_eq`).
-/
namespace Keck.Attribution

open Keck.Lib

/-! ## Checked computations -/

/-- `if b > 0 { a as f64 / b as f64 } else { 0.0 }`. -/
def ratio? (a b : Nat) : Option ℚ := if b > 0 then div? (a : ℚ) b else some 0

/-- `energy_to_power`, checked. -/
def energyToPower? (energyUj intervalNs : Nat) : Option Nat :=
  if intervalNs = 0 then some 0 else (div? (energyUj * 1000000000) intervalNs).map (· % 2 ^ 64)

namespace AttributionModel

def freqFactor? (avgFreqKhz : Nat) : Option ℚ := (div? (avgFreqKhz : ℚ) 1000000).map (· ^ 2)

def computeWeights? (model : AttributionModel) (observations : List PidCoreObservation) (avgFreqKhz : Nat) :
    Option (List PidCoreWeight) :=
  match model with
  | .full alpha beta => do
    let freqFactor ← freqFactor? avgFreqKhz
    observations.mapM fun obs => do
      let ipc ← ratio? obs.instructions obs.cycles
      let missRatio ← ratio? obs.cacheMisses obs.instructions
      return ⟨obs.pid, obs.timeNs * freqFactor * (1 + alpha * ipc + beta * missRatio)⟩
  | .frequencyWeighted => do
    let freqFactor ← freqFactor? avgFreqKhz
    return observations.map fun obs => ⟨obs.pid, obs.timeNs * freqFactor⟩
  | .cpuTimeRatio => some (observations.map fun obs => ⟨obs.pid, obs.timeNs⟩)

end AttributionModel

namespace ObservationSnapshot
variable (obs : ObservationSnapshot)

def splitFreq? (cpu : Nat) : Option ℚ :=
  let times := obs.cpuFreqTimes.filter fun x => x.1.cpu = cpu
  let wsum : ℚ := (times.map fun x => (x.1.freqKhz : ℚ) * x.2).sum
  let tsum : ℚ := (times.map fun x => (x.2 : ℚ)).sum
  if tsum > 0 then div? wsum tsum else some 1000000

def coreWeight? : Option (Table Nat ℚ) :=
  groupFold? (fun x => x.1.cpu) (fun _ => 0) (fun w x => do
    let avgFreq ← obs.splitFreq? x.1.cpu
    let ghz ← div? avgFreq 1000000
    return w + x.2 * ghz ^ 2) obs.pidCpuTimes

/-- A core's average frequency, of its frequencies times time and its time. -/
def avgFreq? (e : ℚ × ℚ) : Option Nat := if e.2 > 0 then (div? e.1 e.2).map fun f => ⌊f⌋₊ else some 1000000

/-- `compute_core_avg_freq`, as the list of its entries. -/
def coreAvgFreqs? : Option (List (Nat × Nat)) :=
  obs.coreFreqWeighted.entries.mapM fun e => (avgFreq? e.2).map (Prod.mk e.1)

def addCoreCounters? (m : Table Nat (Table Nat CoreCounters)) (x : Nat × CoreCounters) :
    Option (Table Nat (Table Nat CoreCounters)) :=
  match obs.corePidObservations.lookup x.1 with
  | none => some m
  | some pidTimes => do
    let totalTime := pidTimes.values.sum
    if totalTime = 0 then return m
    let perPid ← pidTimes.entries.foldlM (fun t e => do
      let ratio ← div? (e.2 : ℚ) totalTime
      return t.insert e.1 (scaled x.2 ratio)) ((m.lookup x.1).getD ∅)
    return m.insert x.1 perPid

def coreCounterMap? : Option (Table Nat (Table Nat CoreCounters)) :=
  if obs.coreCounters.isEmpty then some ∅ else obs.coreCounters.foldlM obs.addCoreCounters? ∅

/-- The model's input for one core, given the counters. -/
def coreObservationsOf (counterMap : Table Nat (Table Nat CoreCounters)) (core : Nat) : List PidCoreObservation :=
  match obs.corePidObservations.lookup core with
  | none => []
  | some pidTimes => pidTimes.entries.map fun e =>
    let counters := ((counterMap.lookup core).bind (·.lookup e.1)).getD ⟨0, 0, 0, 0⟩
    ⟨e.1, e.2, counters.instructions, counters.cycles, counters.cacheMisses⟩

/-- What one core's counter adds for each process. -/
def corePidCounters? (field : CoreCounters → Nat) (x : Nat × CoreCounters) : Option (List (Nat × Nat)) :=
  match obs.corePidObservations.lookup x.1 with
  | none => some []
  | some pidTimes =>
    let totalTime := pidTimes.values.sum
    if totalTime = 0 then some []
    else pidTimes.entries.mapM fun e => do
      let ratio ← div? (e.2 : ℚ) totalTime
      return (e.1, ⌊(field x.2 : ℚ) * ratio⌋₊)

def aggregatePidCounter? (field : CoreCounters → Nat) : Option (Table Nat Nat) := do
  let added ← obs.coreCounters.mapM (obs.corePidCounters? field)
  return groupFold (·.1) (fun _ => 0) (fun s x => s + x.2) added.flatten

end ObservationSnapshot

namespace AttributionEngine

def new? (numCores numSockets : Nat) : Option AttributionEngine := do
  let coresPerSocket ← if numSockets > 0 then div? numCores numSockets else some numCores
  return ⟨selectModel false false, numCores, coresPerSocket⟩

variable (engine : AttributionEngine) (obs : ObservationSnapshot) (energy : EnergyInput)

def splitSocket? (coreWeight : Table Nat ℚ) (coreEnergies : Table Nat Nat) (socket : Nat × Nat) :
    Option (Table Nat Nat) := do
  let cores := engine.socketCores socket.2
  let socketTotalWeight := (cores.filterMap fun c => coreWeight.lookup c).sum
  if socketTotalWeight ≤ 0 then
    -- divides even if there is no core to give a share to
    let perCore ← div? socket.1 engine.coresPerSocket
    return cores.foldl (fun m core => m.insert core perCore) coreEnergies
  cores.foldlM (fun m core => do
    let ratio ← div? ((coreWeight.lookup core).getD 0) socketTotalWeight
    return m.insert core ⌊(socket.1 : ℚ) * ratio⌋₊) coreEnergies

def splitSocketToCores? : Option (Table Nat Nat) := do
  let coreWeight ← obs.coreWeight?
  energy.socketEnergyUj.zipIdx.foldlM (engine.splitSocket? coreWeight) ∅

def coreAttributions? (coreEnergies : Table Nat Nat) (avgFreqs : List (Nat × Nat))
    (counterMap : Table Nat (Table Nat CoreCounters)) (core : Nat) : Option (List (Nat × CoreAttribution)) := do
  let coreEnergyUj := (coreEnergies.lookup core).getD 0
  if coreEnergyUj = 0 then return []
  let avgFreq := (avgFreqs.lookup core).getD 1000000
  let observations := obs.coreObservationsOf counterMap core
  if observations.isEmpty then return []
  let weights ← engine.model.computeWeights? observations avgFreq
  let totalWeight : ℚ := (weights.map fun w => w.rawWeight).sum
  if totalWeight ≤ 0 then return []
  (weights.zip observations).mapM fun x => do
    let ratio ← div? x.1.rawWeight totalWeight
    return (x.1.pid,
      { core := core
        timeNs := x.2.timeNs
        avgFreqKhz := avgFreq
        energyUj := ⌊(coreEnergyUj : ℚ) * ratio⌋₊
        instructions := x.2.instructions
        cycles := x.2.cycles
        cacheMisses := x.2.cacheMisses })

/-- An energy split over the rows of a map by their part of its sum. -/
def shares? (total : Nat) (m : Table Nat Nat) : Option (List (Nat × Nat)) :=
  m.entries.mapM fun e => do
    let ratio ← div? (e.2 : ℚ) m.values.sum
    return (e.1, ⌊(total : ℚ) * ratio⌋₊)

/-- `attribute_memory`, as the list of its entries. -/
def attributeMemory? (processCpuEnergy : Table Nat Nat) : Option (List (Nat × Nat)) :=
  let totalDramEnergy := energy.dramEnergyUj.sum
  let byCpu := if processCpuEnergy.values.sum = 0 then some [] else shares? totalDramEnergy processCpuEnergy
  if totalDramEnergy = 0 then some []
  else if obs.coreCounters.isEmpty then byCpu
  else do
    let pidCacheMisses ← obs.aggregatePidCounter? (·.cacheMisses)
    if pidCacheMisses.values.sum > 0 then shares? totalDramEnergy pidCacheMisses else byCpu

def process? (cpuEnergy : Table Nat Nat) (memEnergy : List (Nat × Nat)) (coreDetail : Table Nat (List CoreAttribution))
    (pid : Nat) : Option ProcessPower := do
  let cpuUw ← energyToPower? ((cpuEnergy.lookup pid).getD 0) energy.intervalNs
  let memoryUw ← energyToPower? ((memEnergy.lookup pid).getD 0) energy.intervalNs
  return {
    pid := pid
    comm := ""
    cgroupId := (obs.pidCgroups.lookup pid).getD 0
    power := { cpuUw := cpuUw, memoryUw := memoryUw }
    coreDetail := (coreDetail.lookup pid).getD []
    attributionMethod := engine.model.method }

def unaccounted? (componentSum : Nat) : Option (Int × ℚ) :=
  match energy.platformEnergyUj with
  | none => some (0, 0)
  | some platform => do
    let unaccounted : Int := platform - componentSum
    let errorRatio ← ratio? unaccounted.natAbs platform
    return (unaccounted, errorRatio)

def platformPower? : Option (Option Nat) :=
  energy.platformEnergyUj.mapM fun e => energyToPower? e energy.intervalNs

/-- The snapshot, with every step of the source in its order. -/
def snapshot? (now : Nat) : Option AttributionSnapshot := do
  let coreEnergies ← engine.splitSocketToCores? obs energy
  let avgFreqs ← obs.coreAvgFreqs?
  let counterMap ← obs.coreCounterMap?
  let attributed ← (List.range engine.numCores).mapM (engine.coreAttributions? obs coreEnergies avgFreqs counterMap)
  let cpuEnergy : Table Nat Nat := groupFold (·.1) (fun _ => 0) (fun e x => e + x.2.energyUj) attributed.flatten
  let coreDetail : Table Nat (List CoreAttribution) := collect (·.1) (·.2) attributed.flatten
  let memEnergy ← attributeMemory? obs energy cpuEnergy
  let processes ← cpuEnergy.keys.mapM (engine.process? obs energy cpuEnergy memEnergy coreDetail)
  let totalAttributed := cpuEnergy.values.sum
  let totalCoreEnergy := coreEnergies.values.sum
  let idleEnergy := totalCoreEnergy - totalAttributed
  let componentSum := totalCoreEnergy + energy.dramEnergyUj.sum + energy.gpuEnergyUj.sum
  let attributedSum := totalAttributed + idleEnergy
  let (unaccounted, errorRatio) ← unaccounted? energy componentSum
  let cpuUw ← energyToPower? totalCoreEnergy energy.intervalNs
  let memoryUw ← energyToPower? energy.dramEnergyUj.sum energy.intervalNs
  let gpuUw ← energyToPower? energy.gpuEnergyUj.sum energy.intervalNs
  let platformUw ← platformPower? energy
  let attributedUw ← energyToPower? attributedSum energy.intervalNs
  let idleUw ← energyToPower? idleEnergy energy.intervalNs
  let componentUw ← energyToPower? componentSum energy.intervalNs
  return {
    timestamp := now
    intervalNs := energy.intervalNs
    node :=
      { measured := { cpuUw := cpuUw, memoryUw := memoryUw, gpuUw := gpuUw }
        platformUw := platformUw
        attributedTotalUw := attributedUw }
    processes := processes
    pods := []
    namespaces := []
    idlePower := { cpuUw := idleUw }
    reconciliation :=
      { platformUw := platformUw
        componentSumUw := componentUw
        attributedSumUw := attributedUw
        unaccountedUw := unaccounted
        errorRatio := errorRatio } }

/-- One interval, checked. -/
def attribute? (now : Nat) : Option (AttributionEngine × AttributionSnapshot) := do
  let snapshot ← (engine.upgraded obs).snapshot? obs energy now
  return (engine.upgraded obs, snapshot)

end AttributionEngine

/-! ## Guarded divisions -/

theorem energyToPower?_eq (energyUj intervalNs : Nat) :
    energyToPower? energyUj intervalNs = some (energyToPower energyUj intervalNs) := by
  rw [energyToPower?, energyToPower]
  split
  · rfl
  · next hns => rw [div?_eq_some _ hns, Option.map_some]

theorem ratio?_eq (a b : Nat) : ratio? a b = some (if b > 0 then (a : ℚ) / b else 0) := by
  rw [ratio?]
  split
  · next hb => exact div?_eq_some _ (Nat.cast_ne_zero.2 hb.ne')
  · rfl

theorem AttributionModel.computeWeights?_eq (model : AttributionModel) (os : List PidCoreObservation) (freq : Nat) :
    model.computeWeights? os freq = some (model.computeWeights os freq) := by
  have hfactor : freqFactor? freq = some (freqFactor freq) := by
    rw [freqFactor?, div?_eq_some _ (by norm_num)]
    rfl
  cases model with
  | full alpha beta =>
    simp only [computeWeights?, hfactor, ratio?_eq, Option.bind_eq_bind, Option.bind_some]
    exact mapM_eq_some fun _ _ => rfl
  | frequencyWeighted =>
    simp only [computeWeights?, hfactor, Option.bind_eq_bind, Option.bind_some]
    rfl
  | cpuTimeRatio => rfl

namespace ObservationSnapshot
variable (obs : ObservationSnapshot)

theorem splitFreq?_eq (cpu : Nat) : obs.splitFreq? cpu = some (obs.splitFreq cpu) := by
  simp only [splitFreq?, splitFreq]
  split
  · next hpos => exact div?_eq_some _ hpos.ne'
  · rfl

theorem coreWeight?_eq : obs.coreWeight? = some obs.coreWeight := by
  refine groupFold?_eq_some (P := fun _ => True) (fun w x _ => ?_) fun _ _ _ _ _ => trivial
  rw [splitFreq?_eq, Option.bind_eq_bind, Option.bind_some, div?_eq_some _ (by norm_num)]
  rfl

def avgFreq (e : ℚ × ℚ) : Nat := if e.2 > 0 then ⌊e.1 / e.2⌋₊ else 1000000

theorem avgFreq?_eq (e : ℚ × ℚ) : avgFreq? e = some (avgFreq e) := by
  rw [avgFreq?, avgFreq]
  split
  · next hpos => rw [div?_eq_some _ hpos.ne', Option.map_some]
  · rfl

/-- The average frequencies are found under their cores. -/
theorem coreAvgFreqs?_eq :
    ∃ freqs, obs.coreAvgFreqs? = some freqs ∧ ∀ core, freqs.lookup core = obs.coreAvgFreq core := by
  refine ⟨obs.coreFreqWeighted.entries.map fun e => (e.1, avgFreq e.2), mapM_eq_some fun e _ => ?_, fun core => ?_⟩
  · rw [avgFreq?_eq, Option.map_some]
  · exact AList.lookup_map_entries avgFreq _ core

theorem addCoreCounters?_eq (m : Table Nat (Table Nat CoreCounters)) (x : Nat × CoreCounters) :
    obs.addCoreCounters? m x = some (obs.addCoreCounters m x) := by
  rw [addCoreCounters?, addCoreCounters]
  cases obs.corePidObservations.lookup x.1 with
  | none => rfl
  | some pidTimes =>
    dsimp only
    split
    · rfl
    · next htime =>
      have hsplit : ∀ t : Table Nat CoreCounters, pidTimes.entries.foldlM (fun t e => do
          let ratio ← div? (e.2 : ℚ) pidTimes.values.sum
          return t.insert e.1 (scaled x.2 ratio)) t =
          some (pidTimes.entries.foldl (fun t e => t.insert e.1 (scaled x.2 (e.2 / pidTimes.values.sum))) t) := by
        intro t
        refine foldlM_eq_some_of_forall (fun t e _ => ?_) t
        rw [div?_eq_some _ (Nat.cast_ne_zero.2 htime)]
        rfl
      rw [hsplit]
      rfl

theorem coreCounterMap?_eq : obs.coreCounterMap? = some obs.coreCounterMap := by
  rw [coreCounterMap?, coreCounterMap]
  split
  · rfl
  · exact foldlM_eq_some_of_forall (fun m x _ => obs.addCoreCounters?_eq m x) ∅

def corePidCounters (field : CoreCounters → Nat) (x : Nat × CoreCounters) : List (Nat × Nat) :=
  match obs.corePidObservations.lookup x.1 with
  | none => []
  | some pidTimes =>
    let totalTime := pidTimes.values.sum
    if totalTime = 0 then []
    else pidTimes.entries.map fun e => (e.1, ⌊(field x.2 : ℚ) * (e.2 / totalTime)⌋₊)

theorem corePidCounters?_eq (field : CoreCounters → Nat) (x : Nat × CoreCounters) :
    obs.corePidCounters? field x = some (obs.corePidCounters field x) := by
  rw [corePidCounters?, corePidCounters]
  cases obs.corePidObservations.lookup x.1 with
  | none => rfl
  | some pidTimes =>
    dsimp only
    split
    · rfl
    · next htime =>
      refine mapM_eq_some fun e _ => ?_
      rw [div?_eq_some _ (Nat.cast_ne_zero.2 htime)]
      rfl

theorem aggregatePidCounter?_eq (field : CoreCounters → Nat) :
    obs.aggregatePidCounter? field = some (obs.aggregatePidCounter field) := by
  have hadded : obs.pidCounters field = (obs.coreCounters.map (obs.corePidCounters field)).flatten := List.flatMap_def
  rw [aggregatePidCounter?, aggregatePidCounter, hadded, mapM_eq_some fun x _ => obs.corePidCounters?_eq field x]
  rfl

end ObservationSnapshot

namespace AttributionEngine
variable (engine : AttributionEngine) (obs : ObservationSnapshot) (energy : EnergyInput)

/-! ## The split of a socket -/

theorem splitSocket?_eq (hc : 0 < engine.coresPerSocket) (m : Table Nat Nat) (socket : Nat × Nat) :
    engine.splitSocket? obs.coreWeight m socket = some (engine.splitSocket obs m socket) := by
  rw [splitSocket?, splitSocket]
  simp only [socketShare]
  split
  · rw [div?_eq_some _ hc.ne']
    rfl
  · next hwork =>
    refine foldlM_eq_some_of_forall (fun m core _ => ?_) m
    rw [div?_eq_some _ (not_le.1 hwork).ne']
    rfl

/-- A socket without cores has no work, and its energy is divided by zero. -/
theorem splitSocket?_eq_none (hc : engine.coresPerSocket = 0) (coreWeight : Table Nat ℚ) (m : Table Nat Nat)
    (socket : Nat × Nat) : engine.splitSocket? coreWeight m socket = none := by
  simp [splitSocket?, socketCores, hc, div?]

theorem splitSocketToCores?_eq :
    engine.splitSocketToCores? obs energy =
      if energy.socketEnergyUj = [] ∨ 0 < engine.coresPerSocket then some (engine.splitSocketToCores obs energy)
      else none := by
  rw [splitSocketToCores?, splitSocketToCores, obs.coreWeight?_eq, Option.bind_eq_bind, Option.bind_some]
  rcases Nat.eq_zero_or_pos engine.coresPerSocket with hzero | hpos
  · cases hsockets : energy.socketEnergyUj with
    | nil => simp
    | cons e es =>
      rw [if_neg (by simp [hzero]), List.zipIdx_cons, List.foldlM_cons, engine.splitSocket?_eq_none hzero]
      rfl
  · rw [if_pos (.inr hpos)]
    exact foldlM_eq_some_of_forall (fun m socket _ => engine.splitSocket?_eq obs hpos m socket) ∅

/-! ## The interval -/

theorem coreAttributions?_eq {freqs : List (Nat × Nat)} (hfreqs : ∀ core, freqs.lookup core = obs.coreAvgFreq core)
    (core : Nat) :
    engine.coreAttributions? obs (engine.splitSocketToCores obs energy) freqs obs.coreCounterMap core =
      some (engine.coreAttributions obs energy core) := by
  have hobs : obs.coreObservationsOf obs.coreCounterMap core = obs.coreObservations core := rfl
  simp only [coreAttributions?, coreAttributions, hfreqs, hobs, AttributionModel.computeWeights?_eq,
    Option.bind_eq_bind, Option.bind_some]
  split
  · rfl
  · split
    · rfl
    · split
      · rfl
      · next hweight =>
        refine mapM_eq_some fun x _ => ?_
        rw [div?_eq_some _ (not_le.1 hweight).ne']
        rfl

theorem shares?_eq (total : Nat) {m : Table Nat Nat} (hm : m.values.sum ≠ 0) :
    ∃ shares, shares? total m = some shares ∧
      ∀ pid, shares.lookup pid = (m.mapValues fun v => ⌊(total : ℚ) * (v / m.values.sum)⌋₊).lookup pid := by
  refine ⟨m.entries.map fun e => (e.1, ⌊(total : ℚ) * (e.2 / m.values.sum)⌋₊), mapM_eq_some fun e _ => ?_, ?_⟩
  · rw [div?_eq_some _ (Nat.cast_ne_zero.2 hm)]
    rfl
  · intro pid
    rw [AList.lookup_mapValues]
    exact AList.lookup_map_entries (fun v : Nat => ⌊(total : ℚ) * (v / m.values.sum)⌋₊) m pid

theorem guardedShares?_eq (total : Nat) (m : Table Nat Nat) :
    ∃ shares, (if m.values.sum = 0 then some [] else shares? total m) = some shares ∧
      ∀ pid, shares.lookup pid = (if m.values.sum = 0 then (∅ : Table Nat Nat)
        else m.mapValues fun v => ⌊(total : ℚ) * (v / m.values.sum)⌋₊).lookup pid := by
  split
  · exact ⟨[], rfl, fun _ => rfl⟩
  · next hm => exact shares?_eq total hm

theorem attributeMemory?_eq :
    ∃ memory, attributeMemory? obs energy (engine.processCpuEnergy obs energy) = some memory ∧
      ∀ pid, memory.lookup pid = (engine.attributeMemory obs energy).lookup pid := by
  simp only [attributeMemory?, attributeMemory, obs.aggregatePidCounter?_eq, Option.bind_eq_bind, Option.bind_some]
  split
  · exact ⟨[], rfl, fun _ => rfl⟩
  · split
    · exact guardedShares?_eq _ _
    · split
      · next hmisses => exact shares?_eq _ (Nat.ne_of_gt hmisses)
      · exact guardedShares?_eq _ _

theorem unaccounted?_eq :
    unaccounted? energy (engine.componentSum obs energy) = some (engine.unaccounted obs energy) := by
  rw [unaccounted?, unaccounted]
  cases energy.platformEnergyUj with
  | none => rfl
  | some platform =>
    dsimp only
    rw [ratio?_eq]
    rfl

theorem process?_eq {memory : List (Nat × Nat)}
    (hmemory : ∀ pid, memory.lookup pid = (engine.attributeMemory obs energy).lookup pid) (pid : Nat) :
    engine.process? obs energy (engine.processCpuEnergy obs energy) memory (engine.processCoreDetail obs energy) pid =
      some (engine.process obs energy pid) := by
  simp only [process?, energyToPower?_eq, hmemory, Option.bind_eq_bind, Option.bind_some]
  rfl

theorem platformPower?_eq :
    platformPower? energy = some (energy.platformEnergyUj.map fun e => energyToPower e energy.intervalNs) := by
  rw [platformPower?]
  cases energy.platformEnergyUj with
  | none => rfl
  | some platform => simp [energyToPower?_eq]

/-- Apart from the split of the sockets nothing fails. -/
theorem snapshot?_eq (hsplit : engine.splitSocketToCores? obs energy = some (engine.splitSocketToCores obs energy))
    (now : Nat) : engine.snapshot? obs energy now = some (engine.snapshot obs energy now) := by
  obtain ⟨freqs, hfreqs, hfreq⟩ := obs.coreAvgFreqs?_eq
  obtain ⟨memory, hmemory, hmem⟩ := engine.attributeMemory?_eq obs energy
  have hcores : (List.range engine.numCores).mapM
      (engine.coreAttributions? obs (engine.splitSocketToCores obs energy) freqs obs.coreCounterMap) =
      some ((List.range engine.numCores).map (engine.coreAttributions obs energy)) :=
    mapM_eq_some fun core _ => engine.coreAttributions?_eq obs energy hfreq core
  have hflat : ((List.range engine.numCores).map (engine.coreAttributions obs energy)).flatten =
      engine.attributions obs energy := List.flatMap_def.symm
  have hcpu : groupFold (·.1) (fun _ => 0) (fun e x => e + x.2.energyUj) (engine.attributions obs energy) =
      engine.processCpuEnergy obs energy := rfl
  have hdetail : collect (·.1) (·.2) (engine.attributions obs energy) = engine.processCoreDetail obs energy := rfl
  have hprocesses : (engine.processCpuEnergy obs energy).keys.mapM (engine.process? obs energy
      (engine.processCpuEnergy obs energy) memory (engine.processCoreDetail obs energy)) =
      some ((engine.processCpuEnergy obs energy).keys.map (engine.process obs energy)) :=
    mapM_eq_some fun pid _ => engine.process?_eq obs energy hmem pid
  have hunaccounted := engine.unaccounted?_eq obs energy
  rw [componentSum, totalCoreEnergy] at hunaccounted
  simp only [snapshot?, hsplit, hfreqs, obs.coreCounterMap?_eq, hcores, hflat, hcpu, hdetail, hmemory, hprocesses,
    hunaccounted, energyToPower?_eq, platformPower?_eq, Option.bind_eq_bind, Option.bind_some]
  rfl

/-- An interval divides by zero exactly if there is the energy of a socket to
split and the sockets have no cores. -/
theorem attribute?_eq (now : Nat) :
    engine.attribute? obs energy now =
      if energy.socketEnergyUj = [] ∨ 0 < engine.coresPerSocket then some (engine.attributeInterval obs energy now)
      else none := by
  have hsplit := (engine.upgraded obs).splitSocketToCores?_eq obs energy
  have hcores : (engine.upgraded obs).coresPerSocket = engine.coresPerSocket := rfl
  rw [hcores] at hsplit
  rw [attribute?]
  split
  · next hsome =>
    rw [if_pos hsome] at hsplit
    rw [(engine.upgraded obs).snapshot?_eq obs energy hsplit]
    rfl
  · next hnone =>
    rw [if_neg hnone] at hsplit
    rw [snapshot?, hsplit]
    rfl

theorem new?_eq (numCores numSockets : Nat) : new? numCores numSockets = some (new numCores numSockets) := by
  rw [new?, new]
  split
  · next hsockets =>
    rw [div?_eq_some _ hsockets.ne']
    rfl
  · rfl

/-- Making an engine divides by no zero, whatever the numbers of cores and
sockets. Then an interval, whatever model the last one left behind, divides by
none if and only if there is no socket energy, or there are cores and at least
as many as sockets; and without a zero divisor it is the interval of `attribute`. -/
theorem never_divides_by_zero_iff (numCores numSockets : Nat) (model : AttributionModel) (now : Nat) :
    new? numCores numSockets = some (new numCores numSockets) ∧
    ((((new numCores numSockets).withModel model).attribute? obs energy now).isSome = true ↔
      energy.socketEnergyUj = [] ∨ (0 < numCores ∧ numSockets ≤ numCores)) ∧
    ∀ r, ((new numCores numSockets).withModel model).attribute? obs energy now = some r →
      r = ((new numCores numSockets).withModel model).attributeInterval obs energy now := by
  have hcores : ((new numCores numSockets).withModel model).coresPerSocket =
      (new numCores numSockets).coresPerSocket := rfl
  have hinterval := ((new numCores numSockets).withModel model).attribute?_eq obs energy now
  rw [hcores] at hinterval
  refine ⟨new?_eq numCores numSockets, ?_, ?_⟩
  · rw [hinterval, ← coresPerSocket_pos_iff]
    simp
  · intro r hr
    rw [hr] at hinterval
    split at hinterval
    · exact Option.some.inj hinterval
    · cases hinterval

/-- One core counted as two sockets, and one idle interval with the energy of one. -/
theorem one_core_two_sockets :
    ((new 1 2).attribute? ⟨[], [], [], ∅⟩ ⟨[1000], [], [], none, 1000000000⟩ 0).isNone = true := by
  decide +kernel

end AttributionEngine

end Keck.Attribution
