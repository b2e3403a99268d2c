import Keck.Attribution.Energy
/-!
# The units of a reconciliation

`attribute` turns the platform's and the components' energy into powers, and
reports their difference as `unaccounted_uw`. That difference is taken from the
energies and never divided by the time, so it is microjoules under a name for
microwatts: the three numbers fit together if the interval is a second, and
otherwise only as far as `InUnits` says (`reconciliation_iff`).
-/
namespace Keck.Attribution

open AttributionEngine
open Keck.Lib (energyToPower energyToPower_eq)

/-- The unaccounted power is the platform's less the components', up to one
for rounding. -/
def Reconciliation.Consistent (r : Reconciliation) : Prop :=
  ∃ platform, r.platformUw = some platform ∧ |r.unaccountedUw - ((platform : Int) - r.componentSumUw)| ≤ 1

/-- A difference of energies is that of their powers: times what the interval
has more or less than a second, and with the remainders of both roundings, it
is no more than the interval. -/
def InUnits (platform component ns : Nat) : Prop :=
  |((platform : Int) - component) * ((ns : Int) - 1000000000) +
    ((platform * 1000000000 % ns : Nat) - (component * 1000000000 % ns : Nat) : Int)| ≤ ns

/-- Two amounts scaled by `k / n` and rounded, against their difference. -/
theorem sub_scaled_eq (a b n k : Nat) :
    ((a : Int) - b) * ((n : Int) - k) + ((a * k % n : Nat) - (b * k % n : Nat) : Int) =
      n * (((a : Int) - b) - (((a * k / n : Nat) : Int) - (b * k / n : Nat))) := by
  have ha : (n : Int) * (a * k / n : Nat) + (a * k % n : Nat) = a * k := by exact_mod_cast Nat.div_add_mod (a * k) n
  have hb : (n : Int) * (b * k / n : Nat) + (b * k % n : Nat) = b * k := by exact_mod_cast Nat.div_add_mod (b * k) n
  linear_combination ha - hb

theorem inUnits_iff {platform component ns : Nat} (hns : 0 < ns) :
    InUnits platform component ns ↔
      |((platform : Int) - component) -
        (((platform * 1000000000 / ns : Nat) : Int) - (component * 1000000000 / ns : Nat))| ≤ 1 := by
  have hpos : (0 : Int) < ns := Int.natCast_pos.2 hns
  have hfactor := sub_scaled_eq platform component ns 1000000000
  rw [Nat.cast_ofNat] at hfactor
  rw [InUnits, hfactor, abs_mul, abs_of_pos hpos]
  constructor
  · intro h
    exact le_of_mul_le_mul_left (h.trans_eq (mul_one _).symm) hpos
  · intro h
    exact (mul_le_mul_of_nonneg_left h hpos.le).trans_eq (mul_one _)

/-- Over a second, a microjoule is a microwatt. -/
theorem inUnits_of_second (platform component : Nat) : InUnits platform component 1000000000 := by
  simp [InUnits]

/-- For every engine and interval with a platform energy, whose powers fit:
the reconciliation is consistent if and only if its energies are in units; it
is over a second. The sign of the unaccounted power is right in any case. -/
theorem reconciliation_iff (engine : AttributionEngine) (obs : ObservationSnapshot) (energy : EnergyInput) (now : Nat)
    (platform : Nat) (hplatform : energy.platformEnergyUj = some platform) (hns : 0 < energy.intervalNs)
    (hp : platform * 1000000000 / energy.intervalNs < 2 ^ 64)
    (hc : engine.componentSum obs energy * 1000000000 / energy.intervalNs < 2 ^ 64) :
    ((engine.attributeInterval obs energy now).2.reconciliation.Consistent ↔
      InUnits platform (engine.componentSum obs energy) energy.intervalNs) ∧
    (energy.intervalNs = 1000000000 → (engine.attributeInterval obs energy now).2.reconciliation.Consistent) ∧
    (engine.attributeInterval obs energy now).2.reconciliation.unaccountedUw.sign =
      ((platform : Int) - engine.componentSum obs energy).sign := by
  have hunaccounted : (engine.attributeInterval obs energy now).2.reconciliation.unaccountedUw =
      (platform : Int) - engine.componentSum obs energy := by
    show ((engine.upgraded obs).unaccounted obs energy).1 = _
    rw [unaccounted, hplatform]
    rfl
  have hpower : (engine.attributeInterval obs energy now).2.reconciliation.platformUw =
      some (platform * 1000000000 / energy.intervalNs) := by
    show energy.platformEnergyUj.map (fun e => energyToPower e energy.intervalNs) = _
    rw [hplatform, Option.map_some, energyToPower_eq hns hp]
  have hcomponent : (engine.attributeInterval obs energy now).2.reconciliation.componentSumUw =
      engine.componentSum obs energy * 1000000000 / energy.intervalNs := energyToPower_eq hns hc
  have hiff : (engine.attributeInterval obs energy now).2.reconciliation.Consistent ↔
      InUnits platform (engine.componentSum obs energy) energy.intervalNs := by
    rw [inUnits_iff hns, Reconciliation.Consistent, hpower, hunaccounted, hcomponent]
    constructor
    · rintro ⟨p, heq, h⟩
      cases heq
      exact h
    · intro h
      exact ⟨_, rfl, h⟩
  refine ⟨hiff, ?_, ?_⟩
  · intro hsecond
    rw [hiff, hsecond]
    exact inUnits_of_second _ _
  · rw [hunaccounted]

/-- Sixty of a hundred joules are components', over ten seconds. -/
def tenSecondEnergy : EnergyInput where
  socketEnergyUj := [60000000]
  dramEnergyUj := []
  gpuEnergyUj := []
  platformEnergyUj := some 100000000
  intervalNs := 10000000000

/-- Platform and components differ by 4 W, and 40 W are reported as missing. -/
theorem ten_seconds_inconsistent :
    let r := ((AttributionEngine.new 2 1).attributeInterval sampleObs tenSecondEnergy 0).2.reconciliation
    r.platformUw = some 10000000 ∧ r.componentSumUw = 6000000 ∧ r.unaccountedUw = 40000000 ∧ ¬r.Consistent := by
  have hp : ((AttributionEngine.new 2 1).attributeInterval sampleObs tenSecondEnergy
      0).2.reconciliation.platformUw = some 10000000 := by decide +kernel
  have hc : ((AttributionEngine.new 2 1).attributeInterval sampleObs tenSecondEnergy
      0).2.reconciliation.componentSumUw = 6000000 := by decide +kernel
  have hu : ((AttributionEngine.new 2 1).attributeInterval sampleObs tenSecondEnergy
      0).2.reconciliation.unaccountedUw = 40000000 := by decide +kernel
  refine ⟨hp, hc, hu, ?_⟩
  rintro ⟨p, heq, h⟩
  rw [hp] at heq
  cases heq
  rw [hu, hc] at h
  norm_num at h

/-- The same energies over one second. -/
def oneSecondEnergy : EnergyInput := { tenSecondEnergy with intervalNs := 1000000000 }

theorem reconciliation_of_one_second :
    oneSecondEnergy.platformEnergyUj = some 100000000 ∧
    ((AttributionEngine.new 2 1).attributeInterval sampleObs oneSecondEnergy 0).2.reconciliation.Consistent := by
  have hc : (AttributionEngine.new 2 1).componentSum sampleObs oneSecondEnergy * 1000000000 /
      oneSecondEnergy.intervalNs < 2 ^ 64 := by decide +kernel
  have hiff := (reconciliation_iff (.new 2 1) sampleObs oneSecondEnergy 0 100000000 rfl (by decide) (by decide) hc).1
  exact ⟨rfl, hiff.2 (inUnits_of_second _ _)⟩

end Keck.Attribution
