import Keck.Attribution.Energy
/-!
# Frequency cancels within a core

Without hardware counters the engine weighs a process by its time on the core,
times the square of the core's frequency if it has one. All processes on a core
have that factor in common, and each gets its part of the sum, so the two models
hand out the same energies on every core whose frequency is not rounded down to
nothing (`frequency_cancels`). What frequency does change is how a socket's
energy is split over its cores, and no model has a part in that.
-/
namespace Keck.Attribution

open Keck.Lib AttributionEngine

/-- A common factor of the weights. -/
theorem coreShares_frequency {freq : Nat} (hfreq : 1 ≤ freq) (core coreEnergy : Nat) (os : List PidCoreObservation) :
    coreShares .frequencyWeighted core coreEnergy freq os = coreShares .cpuTimeRatio core coreEnergy freq os := by
  have hpos : 0 < AttributionModel.freqFactor freq := by
    unfold AttributionModel.freqFactor
    positivity
  have htotal : (os.map (AttributionModel.frequencyWeighted.rawWeight freq)).sum =
      (os.map (AttributionModel.cpuTimeRatio.rawWeight freq)).sum * AttributionModel.freqFactor freq :=
    List.sum_map_mul_right _ _ _
  have hratio : ∀ o, AttributionModel.frequencyWeighted.rawWeight freq o /
      (os.map (AttributionModel.frequencyWeighted.rawWeight freq)).sum =
      AttributionModel.cpuTimeRatio.rawWeight freq o / (os.map (AttributionModel.cpuTimeRatio.rawWeight freq)).sum := by
    intro o
    rw [htotal]
    exact mul_div_mul_right _ _ hpos.ne'
  have hidle : (os.map (AttributionModel.frequencyWeighted.rawWeight freq)).sum ≤ 0 ↔
      (os.map (AttributionModel.cpuTimeRatio.rawWeight freq)).sum ≤ 0 := by
    rw [htotal, ← not_lt, ← not_lt, mul_pos_iff_of_pos_right hpos]
  unfold coreShares
  simp only [hratio, hidle]

section
variable (engine : AttributionEngine) {obs : ObservationSnapshot} (energy : EnergyInput)

theorem AttributionEngine.attributions_frequency (hfreq : ∀ core f, obs.coreAvgFreq core = some f → 1 ≤ f) :
    (engine.withModel .frequencyWeighted).attributions obs energy =
      (engine.withModel .cpuTimeRatio).attributions obs energy := by
  unfold attributions
  refine congrArg (List.flatMap · _) (funext fun core => ?_)
  have hcore : 1 ≤ (obs.coreAvgFreq core).getD 1000000 := by
    cases h : obs.coreAvgFreq core with
    | none => decide
    | some f => exact hfreq core f h
  rw [coreAttributions_eq, coreAttributions_eq]
  exact coreShares_frequency hcore core _ _

/-- Without counters, and with every average frequency at least 1 kHz: both
models are given the same core energies and give every process the same, and so
does the model `attribute` chooses. -/
theorem AttributionEngine.frequency_cancels (hcounters : obs.coreCounters = [])
    (hfreq : ∀ core f, obs.coreAvgFreq core = some f → 1 ≤ f) :
    (engine.withModel .frequencyWeighted).splitSocketToCores obs energy =
        (engine.withModel .cpuTimeRatio).splitSocketToCores obs energy ∧
      (engine.withModel .frequencyWeighted).processCpuEnergy obs energy =
        (engine.withModel .cpuTimeRatio).processCpuEnergy obs energy ∧
      (engine.upgraded obs).processCpuEnergy obs energy =
        (engine.withModel .cpuTimeRatio).processCpuEnergy obs energy := by
  have hsame : (engine.withModel .frequencyWeighted).processCpuEnergy obs energy =
      (engine.withModel .cpuTimeRatio).processCpuEnergy obs energy := by
    unfold processCpuEnergy
    rw [engine.attributions_frequency energy hfreq]
  refine ⟨rfl, hsame, ?_⟩
  rw [upgraded, hcounters]
  cases obs.cpuFreqTimes.isEmpty with
  | true => rfl
  | false => exact hsame

end

/-- Process 9 gets 625 uJ by either model. -/
theorem sample_frequency_cancels :
    ((AttributionEngine.new 2 1).withModel .frequencyWeighted).processCpuEnergy sampleObs sampleEnergy =
        ((AttributionEngine.new 2 1).withModel .cpuTimeRatio).processCpuEnergy sampleObs sampleEnergy ∧
      (((AttributionEngine.new 2 1).withModel .cpuTimeRatio).processCpuEnergy sampleObs sampleEnergy).lookup 9 =
        some 625 := by
  have hfreq : ∀ core f, sampleObs.coreAvgFreq core = some f → 1 ≤ f := by
    have hentries : ∀ e ∈ sampleObs.coreFreqWeighted.entries,
        1 ≤ if e.2.2 > 0 then ⌊e.2.1 / e.2.2⌋₊ else 1000000 := by decide +kernel
    intro core f h
    obtain ⟨e, he, rfl⟩ := Option.map_eq_some_iff.1 h
    exact hentries ⟨core, e⟩ (AList.mem_entries.2 he)
  exact ⟨((AttributionEngine.new 2 1).frequency_cancels sampleEnergy rfl hfreq).2.1, by decide +kernel⟩

end Keck.Attribution
