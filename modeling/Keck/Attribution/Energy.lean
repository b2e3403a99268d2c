import Keck.Lib.Shares
import Keck.Attribution.Engine
/-!
# The engine conserves energy

Energy is rounded down three times: from socket to core, from core to process,
from energy to power. What each step loses is less than one for each share it
hands out, and what processes do not get is idle (`attribute_conserves`).
-/
namespace Keck.Attribution

open Keck.Lib

/-! ## Weights -/

/-- A model whose weights are never negative. -/
def AttributionModel.Nonneg (model : AttributionModel) : Prop := ∀ freq obs, 0 ≤ model.rawWeight freq obs

theorem selectModel_nonneg (hasFreqData hasPerfCounters : Bool) : (selectModel hasFreqData hasPerfCounters).Nonneg := by
  intro freq obs
  unfold selectModel
  split
  · unfold AttributionModel.rawWeight AttributionModel.freqFactor
    positivity
  · unfold AttributionModel.rawWeight AttributionModel.freqFactor
    positivity
  · exact Nat.cast_nonneg _

theorem coreWeight_nonneg {obs : ObservationSnapshot} {core : Nat} {w : ℚ} (h : obs.coreWeight.lookup core = some w) :
    0 ≤ w := by
  refine sum_lookup_nonneg (fun x : PidCpuKey × Nat => x.2 * (obs.splitFreq x.1.cpu / 1000000) ^ 2) ?_ h
  intro x
  positivity

theorem sum_getD {α : Type} (f : α → Option ℚ) (l : List α) :
    (l.map fun a => (f a).getD 0).sum = (l.filterMap f).sum := by
  induction l with
  | nil => rfl
  | cons a l ih => cases h : f a <;> simp [h, ih]

namespace AttributionEngine
variable (engine : AttributionEngine) (obs : ObservationSnapshot) (energy : EnergyInput)

/-! ## Sockets -/

theorem length_socketCores (i : Nat) : (engine.socketCores i).length = engine.coresPerSocket := List.length_range'

/-- A socket's cores get its energy, up to less than one for each. -/
theorem sum_socketShare (hc : 0 < engine.coresPerSocket) (i e : Nat) :
    ((engine.socketCores i).map (engine.socketShare obs i e)).sum ≤ e ∧
      e < ((engine.socketCores i).map (engine.socketShare obs i e)).sum + engine.coresPerSocket := by
  have hlen := engine.length_socketCores i
  unfold socketShare
  by_cases hw : ((engine.socketCores i).filterMap fun c => obs.coreWeight.lookup c).sum ≤ 0
  · -- The even split loses the remainder.
    simp only [if_pos hw, List.map_const', List.sum_replicate, smul_eq_mul, hlen]
    have hdiv := Nat.div_add_mod e engine.coresPerSocket
    have hmod := Nat.mod_lt e hc
    omega
  · simp only [if_neg hw]
    rw [← sum_getD, not_le] at hw
    rw [← sum_getD]
    have hnonneg : ∀ c ∈ engine.socketCores i, 0 ≤ (obs.coreWeight.lookup c).getD 0 /
        ((engine.socketCores i).map fun c => (obs.coreWeight.lookup c).getD 0).sum := by
      intro c _
      refine div_nonneg ?_ hw.le
      cases h : obs.coreWeight.lookup c with
      | none => exact le_refl 0
      | some w => exact coreWeight_nonneg h
    have hne : engine.socketCores i ≠ [] := by
      intro h
      rw [h, List.length_nil] at hlen
      omega
    have hnear := Shares.floors_near hnonneg hne (Shares.sum_share hw) e
    rw [hlen] at hnear
    exact hnear

/-- The cores of all sockets, in the order the split goes over them. -/
theorem flatMap_socketCores (n : Nat) :
    (List.range n).flatMap engine.socketCores = List.range (n * engine.coresPerSocket) := by
  induction n with
  | zero => simp
  | succ n ih =>
    have happend := List.range'_append_1 (s := 0) (m := n * engine.coresPerSocket) (n := engine.coresPerSocket)
    rw [Nat.zero_add] at happend
    rw [List.range_succ, List.flatMap_append, ih, List.flatMap_singleton, Nat.succ_mul, List.range_eq_range',
      List.range_eq_range', ← happend]
    rfl

/-- What the split writes, core by core. -/
def socketWrites : List (Nat × Nat) :=
  energy.socketEnergyUj.zipIdx.flatMap fun s =>
    (engine.socketCores s.2).map fun core => (core, engine.socketShare obs s.2 s.1 core)

theorem splitSocketToCores_eq :
    engine.splitSocketToCores obs energy =
      (engine.socketWrites obs energy).foldl (fun m x => m.insert x.1 x.2) ∅ := by
  unfold splitSocketToCores socketWrites
  rw [List.foldl_flatMap]
  congr 1
  funext m s
  rw [splitSocket, List.foldl_map]

theorem nodup_socketWrites : ((engine.socketWrites obs energy).map (·.1)).Nodup := by
  have h : (engine.socketWrites obs energy).map (·.1) =
      List.range (energy.socketEnergyUj.length * engine.coresPerSocket) := by
    rw [← flatMap_socketCores, socketWrites, List.map_flatMap, List.range_eq_range', ← List.zipIdx_map_snd,
      List.flatMap_map]
    congr 1
    funext s
    rw [List.map_map]
    exact List.map_id _
  rw [h]
  exact List.nodup_range

theorem entries_splitSocketToCores :
    (engine.splitSocketToCores obs energy).entries =
      ((engine.socketWrites obs energy).map fun x => (⟨x.1, x.2⟩ : Σ _ : Nat, Nat)).reverse := by
  rw [splitSocketToCores_eq, AList.entries_foldl_insert _ (engine.nodup_socketWrites obs energy)]
  · exact List.append_nil _
  · intro x _
    exact AList.notMem_empty _

theorem lookup_splitSocketToCores {i e core : Nat} (hi : energy.socketEnergyUj[i]? = some e)
    (hc : core ∈ engine.socketCores i) :
    (engine.splitSocketToCores obs energy).lookup core = some (engine.socketShare obs i e core) := by
  rw [← AList.mem_entries, entries_splitSocketToCores, List.mem_reverse, List.mem_map]
  refine ⟨(core, engine.socketShare obs i e core), ?_, rfl⟩
  refine List.mem_flatMap.2 ⟨(e, i), List.mk_mem_zipIdx_iff_getElem?.2 hi, ?_⟩
  exact List.mem_map.2 ⟨core, hc, rfl⟩

/-- The energy the engine gives to the cores of a socket. -/
def socketEnergy (i : Nat) : Nat :=
  ((engine.socketCores i).map fun core => ((engine.splitSocketToCores obs energy).lookup core).getD 0).sum

theorem socketEnergy_near (hc : 0 < engine.coresPerSocket) {i e : Nat} (hi : energy.socketEnergyUj[i]? = some e) :
    engine.socketEnergy obs energy i ≤ e ∧ e < engine.socketEnergy obs energy i + engine.coresPerSocket := by
  have h : engine.socketEnergy obs energy i = ((engine.socketCores i).map (engine.socketShare obs i e)).sum := by
    unfold socketEnergy
    congr 1
    apply List.map_congr_left
    intro core hcore
    rw [engine.lookup_splitSocketToCores obs energy hi hcore, Option.getD_some]
  rw [h]
  exact engine.sum_socketShare obs hc i e

/-! ## Cores -/

/-- A core's energy over the processes seen on it, by weight. -/
def coreShares (model : AttributionModel) (core coreEnergy freq : Nat) (os : List PidCoreObservation) :
    List (Nat × CoreAttribution) :=
  let totalWeight := (os.map (model.rawWeight freq)).sum
  if coreEnergy = 0 ∨ totalWeight ≤ 0 then []
  else os.map fun o =>
    (o.pid,
      { core := core
        timeNs := o.timeNs
        avgFreqKhz := freq
        energyUj := ⌊(coreEnergy : ℚ) * (model.rawWeight freq o / totalWeight)⌋₊
        instructions := o.instructions
        cycles := o.cycles
        cacheMisses := o.cacheMisses })

/-- The loop for one core, over its observations: without any the weights add up to nothing. -/
theorem coreAttributions_eq (core : Nat) :
    engine.coreAttributions obs energy core =
      coreShares engine.model core (((engine.splitSocketToCores obs energy).lookup core).getD 0)
        ((obs.coreAvgFreq core).getD 1000000) (obs.coreObservations core) := by
  unfold coreAttributions coreShares AttributionModel.computeWeights
  generalize ((engine.splitSocketToCores obs energy).lookup core).getD 0 = e
  generalize (obs.coreAvgFreq core).getD 1000000 = freq
  generalize obs.coreObservations core = os
  have hweights : ((os.map fun o => (⟨o.pid, engine.model.rawWeight freq o⟩ : PidCoreWeight)).map
      fun w => w.rawWeight) = os.map (engine.model.rawWeight freq) := by
    rw [List.map_map]
    rfl
  have hzip : (os.map fun o => (⟨o.pid, engine.model.rawWeight freq o⟩ : PidCoreWeight)).zip os =
      os.map fun o => (⟨o.pid, engine.model.rawWeight freq o⟩, o) := by
    have h := @List.zip_map' PidCoreObservation _ _
      (fun o => (⟨o.pid, engine.model.rawWeight freq o⟩ : PidCoreWeight)) id os
    rwa [List.map_id] at h
  simp only [hweights, hzip, List.map_map]
  by_cases he : e = 0
  · simp [he]
  by_cases ho : os = []
  · simp [ho]
  by_cases hw : (os.map (engine.model.rawWeight freq)).sum ≤ 0
  · simp [hw]
  simp only [he, hw, or_self, if_false, List.isEmpty_iff, ho]
  rfl

/-- The processes on a core together get no more than its energy. -/
theorem sum_coreAttributions_le (hm : engine.model.Nonneg) (core : Nat) :
    ((engine.coreAttributions obs energy core).map (·.2.energyUj)).sum ≤
      ((engine.splitSocketToCores obs energy).lookup core).getD 0 := by
  rw [coreAttributions_eq, coreShares]
  generalize ((engine.splitSocketToCores obs energy).lookup core).getD 0 = e
  generalize (obs.coreAvgFreq core).getD 1000000 = freq
  split
  · exact Nat.zero_le e
  · next hnone =>
    have hw := not_le.1 (not_or.1 hnone).2
    rw [List.map_map]
    refine (Shares.floors_le_iff ?_).2 (Shares.sum_share hw).le e
    intro o _
    exact div_nonneg (hm freq o) hw.le

/-! ## Processes -/

theorem totalAttributed_eq :
    engine.totalAttributed obs energy = ((engine.attributions obs energy).map (·.2.energyUj)).sum := by
  have h := AList.sum_values (id : Nat → Nat) (engine.processCpuEnergy obs energy)
  rw [List.map_id] at h
  rw [totalAttributed, h]
  exact total_groupFold (f := id) (g := fun x : Nat × CoreAttribution => x.2.energyUj) (fun _ _ => rfl)
    (fun _ => rfl) _

/-- Processes never get more than there is, so what is left is idle. -/
theorem totalAttributed_le (hm : engine.model.Nonneg) :
    engine.totalAttributed obs energy ≤ engine.totalCoreEnergy obs energy := by
  rw [totalAttributed_eq, attributions, sum_map_flatMap]
  refine le_trans ?_ (AList.sum_getD_le (fun _ v _ => Nat.zero_le v) (List.nodup_range (n := engine.numCores)))
  apply List.sum_le_sum
  intro core _
  exact engine.sum_coreAttributions_le obs energy hm core

theorem attributed_add_idle (hm : engine.model.Nonneg) :
    engine.totalAttributed obs energy + engine.idleEnergy obs energy = engine.totalCoreEnergy obs energy := by
  unfold idleEnergy
  exact Nat.add_sub_cancel' (engine.totalAttributed_le obs energy hm)

/-- A process's energy is the sum over the cores it ran on. -/
theorem processCpuEnergy_detail (pid : Nat) :
    ((engine.processCpuEnergy obs energy).lookup pid).getD 0 =
      ((((engine.processCoreDetail obs energy).lookup pid).getD []).map (·.energyUj)).sum := by
  unfold processCpuEnergy processCoreDetail
  rw [getD_groupFold_add (·.1) (fun x : Nat × CoreAttribution => x.2.energyUj), getD_collect, List.map_map]
  rfl

theorem energy_of_mem_processes {now : Nat} {p : ProcessPower}
    (hp : p ∈ (engine.snapshot obs energy now).processes) :
    (engine.processCpuEnergy obs energy).lookup p.pid = some (p.coreDetail.map (·.energyUj)).sum := by
  obtain ⟨pid, hpid, rfl⟩ := List.mem_map.1 hp
  obtain ⟨e, he⟩ := Option.isSome_iff_exists.1 (AList.lookup_isSome.2 (AList.mem_keys.2 hpid))
  have hdetail := engine.processCpuEnergy_detail obs energy pid
  rw [he, Option.getD_some] at hdetail
  exact he.trans (congrArg some hdetail)

/-! ## Powers -/

/-- The parts of an energy, each turned into a power, against the whole. -/
theorem sum_energyToPower_near {ns : Nat} (hns : 0 < ns) {es : List Nat} (hes : es ≠ [])
    (h : es.sum * 1000000000 / ns < 2 ^ 64) :
    (es.map fun e => energyToPower e ns).sum ≤ energyToPower es.sum ns ∧
      energyToPower es.sum ns < (es.map fun e => energyToPower e ns).sum + es.length := by
  have hpart : (es.map fun e => energyToPower e ns) = (es.map (· * 1000000000)).map (· / ns) := by
    rw [List.map_map]
    apply List.map_congr_left
    intro e he
    have hle : e * 1000000000 / ns ≤ es.sum * 1000000000 / ns :=
      Nat.div_le_div_right (Nat.mul_le_mul_right _ (List.le_sum_of_mem he))
    exact energyToPower_eq hns (hle.trans_lt h)
  have hne : es.map (· * 1000000000) ≠ [] := by simpa using hes
  have hnear := Shares.sum_div_near hns hne
  rw [List.sum_map_mul_right, List.map_id', List.length_map] at hnear
  rw [hpart, energyToPower_eq hns h]
  exact hnear

/-- What the processes are sent as power, energy by energy. -/
theorem map_cpuUw_processes (now : Nat) :
    ((engine.snapshot obs energy now).processes.map (·.power.cpuUw)) =
      (engine.processCpuEnergy obs energy).values.map fun e => energyToPower e energy.intervalNs := by
  rw [← AList.map_keys_getD _ 0, List.map_map, snapshot, List.map_map]
  rfl

theorem powers_near (hm : engine.model.Nonneg) (hns : 0 < energy.intervalNs)
    (h : engine.totalCoreEnergy obs energy * 1000000000 / energy.intervalNs < 2 ^ 64) (now : Nat) :
    ((engine.snapshot obs energy now).processes.map (·.power.cpuUw)).sum +
        (engine.snapshot obs energy now).idlePower.cpuUw ≤ (engine.snapshot obs energy now).node.measured.cpuUw ∧
      (engine.snapshot obs energy now).node.measured.cpuUw <
        ((engine.snapshot obs energy now).processes.map (·.power.cpuUw)).sum +
          (engine.snapshot obs energy now).idlePower.cpuUw +
          ((engine.snapshot obs energy now).processes.length + 1) := by
  have hsum : ((engine.processCpuEnergy obs energy).values ++ [engine.idleEnergy obs energy]).sum =
      engine.totalCoreEnergy obs energy := by
    rw [List.sum_append, List.sum_singleton]
    exact engine.attributed_add_idle obs energy hm
  have hlen : (engine.snapshot obs energy now).processes.length =
      (engine.processCpuEnergy obs energy).values.length := by
    rw [← AList.map_keys_getD _ 0, snapshot, List.length_map, List.length_map]
  have hne : (engine.processCpuEnergy obs energy).values ++ [engine.idleEnergy obs energy] ≠ [] := by simp
  have hnear := sum_energyToPower_near hns hne (hsum ▸ h)
  rw [hsum, List.map_append, List.sum_append, List.map_singleton, List.sum_singleton, List.length_append,
    List.length_singleton] at hnear
  rw [map_cpuUw_processes, hlen]
  exact hnear

end AttributionEngine

open AttributionEngine

theorem coresPerSocket_pos_iff {numCores numSockets : Nat} :
    0 < (AttributionEngine.new numCores numSockets).coresPerSocket ↔ 0 < numCores ∧ numSockets ≤ numCores := by
  rw [AttributionEngine.new]
  dsimp only
  split
  · next hsockets =>
    rw [Nat.div_pos_iff]
    omega
  · omega

/-- For every engine with at least one core per socket, whatever model it used
last, and every interval whose powers fit: processes and idle together get the
cores' energy; each socket's cores get its energy up to less than one each;
a process's energy is the sum of its core details; the powers of processes and
idle add up to the measured one, up to less than one each. -/
theorem attribute_conserves {numCores numSockets : Nat} (hs : 1 ≤ numSockets) (hc : numSockets ≤ numCores)
    (model : AttributionModel) (obs : ObservationSnapshot) (energy : EnergyInput) (now : Nat)
    (hns : 0 < energy.intervalNs) {engine : AttributionEngine} {snap : AttributionSnapshot}
    (h : ((AttributionEngine.new numCores numSockets).withModel model).attributeInterval obs energy now =
      (engine, snap))
    (hfit : engine.totalCoreEnergy obs energy * 1000000000 / energy.intervalNs < 2 ^ 64) :
    engine.totalAttributed obs energy + engine.idleEnergy obs energy = engine.totalCoreEnergy obs energy ∧
    (∀ i e, energy.socketEnergyUj[i]? = some e →
      engine.socketEnergy obs energy i ≤ e ∧ e < engine.socketEnergy obs energy i + engine.coresPerSocket) ∧
    (∀ p ∈ snap.processes, (engine.processCpuEnergy obs energy).lookup p.pid =
      some (p.coreDetail.map (·.energyUj)).sum) ∧
    (snap.processes.map (·.power.cpuUw)).sum + snap.idlePower.cpuUw ≤ snap.node.measured.cpuUw ∧
    snap.node.measured.cpuUw <
      (snap.processes.map (·.power.cpuUw)).sum + snap.idlePower.cpuUw + (snap.processes.length + 1) := by
  unfold attributeInterval at h
  obtain ⟨hengine, hsnap⟩ := Prod.mk.inj h
  rw [hengine] at hsnap
  subst hsnap
  have hm : engine.model.Nonneg := by
    rw [← hengine]
    exact selectModel_nonneg _ _
  have hpos : 0 < engine.coresPerSocket := by
    rw [← hengine]
    exact coresPerSocket_pos_iff.2 ⟨hs.trans hc, hc⟩
  refine ⟨engine.attributed_add_idle obs energy hm, ?_, ?_, engine.powers_near obs energy hm hns hfit now⟩
  · intro i e hi
    exact engine.socketEnergy_near obs energy hpos hi
  · intro p hp
    exact engine.energy_of_mem_processes obs energy hp

/-- Two processes on one of two cores, at two frequencies. -/
def sampleObs : ObservationSnapshot where
  pidCpuTimes := [(⟨0, 7⟩, 300), (⟨0, 9⟩, 500)]
  cpuFreqTimes := [(⟨0, 2000000⟩, 600), (⟨0, 1000000⟩, 200)]
  coreCounters := []
  pidCgroups := ∅

def sampleEnergy : EnergyInput where
  socketEnergyUj := [1001]
  dramEnergyUj := []
  gpuEnergyUj := []
  platformEnergyUj := none
  intervalNs := 1000000000

def sampleEngine : AttributionEngine := (AttributionEngine.new 2 1).upgraded sampleObs

/-- Process 7 gets 375 of the 1001 microjoules and process 9 gets 625. -/
theorem sample_conserves :
    sampleEngine.totalCoreEnergy sampleObs sampleEnergy = 1001 ∧
      (sampleEngine.processCpuEnergy sampleObs sampleEnergy).lookup 9 = some 625 ∧
      sampleEngine.totalAttributed sampleObs sampleEnergy + sampleEngine.idleEnergy sampleObs sampleEnergy =
        sampleEngine.totalCoreEnergy sampleObs sampleEnergy := by
  have htotal : sampleEngine.totalCoreEnergy sampleObs sampleEnergy = 1001 := by decide +kernel
  have hns : sampleEnergy.intervalNs = 1000000000 := rfl
  have hfit : sampleEngine.totalCoreEnergy sampleObs sampleEnergy * 1000000000 / sampleEnergy.intervalNs < 2 ^ 64 := by
    rw [htotal, hns]
    norm_num
  have hpos : 0 < sampleEnergy.intervalNs := by
    rw [hns]
    norm_num
  have hpid : (sampleEngine.processCpuEnergy sampleObs sampleEnergy).lookup 9 = some 625 := by decide +kernel
  refine ⟨htotal, hpid, ?_⟩
  exact (@attribute_conserves 2 1 (le_refl 1) (Nat.le_succ 1) (selectModel false false) sampleObs sampleEnergy 0 hpos
    sampleEngine _ rfl hfit).1

end Keck.Attribution
