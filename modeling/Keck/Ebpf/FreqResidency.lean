import Keck.Lib.Charge
import Keck.Ebpf.Handlers
/-!
# Time per core and frequency

`handle_cpu_frequency` keeps the current frequency in the record of the CPU it
runs on, and charges the core the event names. Where each core's changes are
all handled on one CPU that handles no other core's, an entry is the time that
core spent at that frequency: `cpuFreqTime_of_local`. Where a governor changes
another core's frequency, it is not: `remote_governor_mischarges`.
-/
namespace Keck.Ebpf

open Keck.Lib Keck.Lib.Trace

/-- Times are positive and do not go back. -/
def FreqClockOk (tr : List CpuFrequency) : Prop := (∀ e ∈ tr, 0 < e.now) ∧ tr.Pairwise fun a b => a.now ≤ b.now

instance (tr : List CpuFrequency) : Decidable (FreqClockOk tr) := inferInstanceAs (Decidable (_ ∧ _))

/-- The time between consecutive changes of core `c` while its announced
frequency was `f`. -/
def residency (tr : List CpuFrequency) (c f : Nat) : Nat :=
  pairSum CpuFrequency.cpuId (fun a b => if a.newFreqKhz = f then b.now - a.now else 0) c tr

/-- The core and frequency a change announces. -/
def CpuFrequency.announces (e : CpuFrequency) : CpuFreqKey := ⟨e.cpuId, e.newFreqKhz⟩

/-- The changes the code accounts for rightly: one CPU handles all changes of a
core and of no other, no core spends time at an announced frequency of zero,
and the map has room for what is announced. -/
structure LocalGovernor (caps : Caps) (tr : List CpuFrequency) : Prop where
  one_cpu : ∀ a ∈ tr, ∀ b ∈ tr, a.execCpu = b.execCpu ↔ a.cpuId = b.cpuId
  running : Linked CpuFrequency.cpuId (fun a b => a.newFreqKhz = 0 → b.now ≤ a.now) tr
  room : (tr.map CpuFrequency.announces).toFinset.card ≤ caps.cpuFreq

def freqCharging : Charging CpuFrequency Nat CpuFreqKey Nat where
  cell := CpuFrequency.execCpu
  fires a e := a.newFreqKhz != 0 && a.now != 0 && decide (e.now - a.now > 0)
  key a e := ⟨e.cpuId, a.newFreqKhz⟩
  amount a e := e.now - a.now

variable {caps : Caps}

/-- A CPU's record is that of the last change it handled. -/
theorem freqState_run (ops : List Op) (d : Nat) :
    ((run caps ops).cpuFreqState d).currentFreqKhz = (last CpuFrequency.execCpu d (freqs ops)).elim 0 (·.newFreqKhz) ∧
    ((run caps ops).cpuFreqState d).startTimeNs = (last CpuFrequency.execCpu d (freqs ops)).elim 0 (·.now) := by
  induction ops using List.reverseRecOn with
  | nil => exact ⟨rfl, rfl⟩
  | append_singleton ops op ih =>
    cases h : op.freq? with
    | none =>
      rw [run_concat, (step_of_not_freq _ h).1, freqs_concat, h]
      simpa using ih
    | some e =>
      obtain rfl : op = .cpuFrequency e := by cases op <;> simp_all [Op.freq?]
      rw [run_concat, freqs_concat, h, Option.toList_some, last_concat]
      by_cases hd : e.execCpu = d
      · simp [Kernel.step, Kernel.handleCpuFrequency, hd]
      · simpa [Kernel.step, Kernel.handleCpuFrequency, hd, Function.update_of_ne (Ne.symm hd)] using ih

theorem cpuFreqTime_after (ops : List Op) : freqCharging.After (run caps ops).cpuFreqTime (freqs ops) := by
  induction ops using List.reverseRecOn with
  | nil => exact .nil
  | append_singleton ops op ih =>
    cases h : op.freq? with
    | none =>
      rw [run_concat, (step_of_not_freq _ h).2, freqs_concat, h, Option.toList_none, List.append_nil]
      exact ih
    | some e =>
      obtain rfl : op = .cpuFrequency e := by cases op <;> simp_all [Op.freq?]
      have hstep : (run caps (ops ++ [.cpuFrequency e])).cpuFreqTime =
          freqCharging.step (run caps ops).cpuFreqTime (freqs ops) e := by
        obtain ⟨hf, hs⟩ := @freqState_run caps ops e.execCpu
        rw [run_concat, Charging.step]
        simp only [Kernel.step, Kernel.handleCpuFrequency, hf, hs, freqCharging]
        cases last CpuFrequency.execCpu e.execCpu (freqs ops) <;> rfl
      rw [hstep, freqs_concat, h]
      exact .concat e ih

section Local
variable {tr : List CpuFrequency}

theorem LocalGovernor.room_for_charges (hg : LocalGovernor caps tr) :
    Linked freqCharging.cell (fun a e => freqCharging.fires a e = true →
      freqCharging.key a e ∈ (tr.map CpuFrequency.announces).toFinset) tr := by
  intro d p hp _
  obtain ⟨ha, he⟩ := mem_pairs_on _ hp
  have hcore : p.1.cpuId = p.2.cpuId := (hg.one_cpu p.1 ha.1 p.2 he.1).1 (ha.2.trans he.2.symm)
  refine List.mem_toFinset.2 (List.mem_map.2 ⟨p.1, ha.1, ?_⟩)
  simp [freqCharging, CpuFrequency.announces, hcore]

/-- The changes of a core are those its CPU handles. -/
theorem LocalGovernor.on_eq (hg : LocalGovernor caps tr) {e : CpuFrequency} (he : e ∈ tr) :
    on CpuFrequency.execCpu e.execCpu tr = on CpuFrequency.cpuId e.cpuId tr := by
  refine List.filter_congr fun a ha => ?_
  simp only [hg.one_cpu a ha e he]

theorem charge_eq_residency (hpos : ∀ e ∈ tr, 0 < e.now) (hg : LocalGovernor caps tr) {e : CpuFrequency}
    (he : e ∈ tr) (f : Nat) :
    pairSum CpuFrequency.execCpu (freqCharging.charge id ⟨e.cpuId, f⟩) e.execCpu tr = residency tr e.cpuId f := by
  have hon : pairSum CpuFrequency.execCpu (freqCharging.charge id ⟨e.cpuId, f⟩) e.execCpu tr =
      pairSum CpuFrequency.cpuId (freqCharging.charge id ⟨e.cpuId, f⟩) e.cpuId tr := by
    rw [pairSum, pairSum, hg.on_eq he]
  rw [hon]
  refine pairSum_congr _ fun q hq => ?_
  obtain ⟨ha, hb⟩ := mem_pairs_on _ hq
  have hp := hpos _ ha.1
  have hz := hg.running _ q hq
  simp only [Charging.charge, freqCharging, hb.2, CpuFreqKey.mk.injEq, true_and, id_eq, Bool.and_eq_true, bne_iff_ne,
    decide_eq_true_eq]
  by_cases h : q.1.newFreqKhz = f
  · simp only [h, and_true, if_true] at hz ⊢
    split <;> omega
  · simp [h]

end Local

/-- In every trace whose frequency changes are local, an entry is the time its
core spent at its frequency. -/
theorem cpuFreqTime_of_local (ops : List Op) (hclock : FreqClockOk (freqs ops))
    (hg : LocalGovernor caps (freqs ops)) (c f : Nat) :
    ((run caps ops).cpuFreqTime.lookup ⟨c, f⟩).getD 0 = residency (freqs ops) c f := by
  have hafter := @cpuFreqTime_after caps ops
  have hget : ((run caps ops).cpuFreqTime.lookup ⟨c, f⟩).getD 0 =
      ((run caps ops).cpuFreqTime.lookup ⟨c, f⟩).elim 0 id := by
    cases (run caps ops).cpuFreqTime.lookup ⟨c, f⟩ <;> rfl
  rw [hget]
  by_cases hex : ∃ e ∈ freqs ops, e.cpuId = c
  · obtain ⟨e, he, rfl⟩ := hex
    rw [← charge_eq_residency hclock.1 hg he f]
    refine hafter.weight_eq (fun _ _ => rfl) (fun d p hp _ hk => ?_) hg.room hg.room_for_charges
    obtain ⟨-, hb⟩ := mem_pairs_on _ hp
    exact (hg.one_cpu p.2 hb.1 e he).2 (CpuFreqKey.mk.inj hk).1
  · -- no change names `c`: nothing is charged to it, and nothing should be
    have hno : on CpuFrequency.cpuId c (freqs ops) = [] :=
      List.filter_eq_nil_iff.2 fun e he h => hex ⟨e, he, by simpa using h⟩
    have hcore : ∀ d, ∀ p ∈ pairs (on CpuFrequency.execCpu d (freqs ops)), freqCharging.key p.1 p.2 ≠ ⟨c, f⟩ :=
      fun d p hp hk => hex ⟨p.2, (mem_pairs_on _ hp).2.1, (CpuFreqKey.mk.inj hk).1⟩
    have hle := hafter.weight_le (w := id) (fun _ _ => rfl) (k := ⟨c, f⟩) (c := 0)
      fun d p hp _ hk => absurd hk (hcore d p hp)
    have hsum : pairSum freqCharging.cell (freqCharging.charge id ⟨c, f⟩) 0 (freqs ops) = 0 := by
      rw [pairSum, List.sum_eq_zero]
      intro x hx
      obtain ⟨p, hp, rfl⟩ := List.mem_map.1 hx
      simp [Charging.charge, hcore 0 p hp]
    rw [residency, pairSum, hno]
    exact Nat.le_zero.1 (hle.trans hsum.le)

/-- Two cores, each changing its own frequency. -/
def localChanges : List Op :=
  [.cpuFrequency ⟨0, 10, 2000, 0⟩, .cpuFrequency ⟨1, 12, 1000, 1⟩, .cpuFrequency ⟨0, 30, 3000, 0⟩]

theorem cpuFreqTime_localChanges :
    FreqClockOk (freqs localChanges) ∧ LocalGovernor {} (freqs localChanges) ∧
      ((run {} localChanges).cpuFreqTime.lookup ⟨0, 2000⟩).getD 0 = 20 := by
  have hclock : FreqClockOk (freqs localChanges) := by decide
  have hg : LocalGovernor {} (freqs localChanges) := ⟨by decide, by decide, by decide⟩
  refine ⟨hclock, hg, ?_⟩
  rw [cpuFreqTime_of_local localChanges hclock hg]
  decide

/-! ## A governor on another CPU -/

/-- CPU 0 sets its own frequency and then core 1's. -/
def remoteChanges : List Op := [.cpuFrequency ⟨0, 10, 2000, 0⟩, .cpuFrequency ⟨0, 20, 1000, 1⟩]

/-- Core 1 is charged for the time core 0 spent at its frequency, though core 1
was never announced at it. -/
theorem remote_governor_mischarges :
    FreqClockOk (freqs remoteChanges) ∧ (run {} remoteChanges).cpuFreqTime.lookup ⟨1, 2000⟩ = some 10 ∧
      residency (freqs remoteChanges) 1 2000 = 0 := by
  refine ⟨by decide, by decide, by decide⟩

end Keck.Ebpf
