import Keck.Lib.Charge
import Keck.Ebpf.Handlers
/-!
# CPU time per process

`handle_sched_switch` charges the time since the last switch on its CPU to the
event's `prev_pid`, but decides whether to charge at all by the pid it saved.
Over a whole trace, with any number of CPUs interleaved, the entry of a process
on a CPU is the time it ran there: `pidCpuTime_exact`.
-/
namespace Keck.Ebpf

open Keck.Lib Keck.Lib.Trace

/-- Times are positive and do not go back on a CPU, and each switch leaves the
task the previous switch on its CPU started. -/
structure Consistent (tr : List SchedSwitch) : Prop where
  pos : ∀ e ∈ tr, 0 < e.now
  linked : Linked SchedSwitch.cpu (fun a b => b.prevPid = a.nextPid ∧ a.now ≤ b.now) tr

def SchedSwitch.key (e : SchedSwitch) : PidCpuKey := ⟨e.cpu, e.prevPid⟩

/-- The time between consecutive switches on `c` while `p` ran. -/
def runTime (tr : List SchedSwitch) (c p : Nat) : Nat :=
  pairSum SchedSwitch.cpu (fun a b => if a.nextPid = p then b.now - a.now else 0) c tr

/-- The time between consecutive switches on `c` while it was not idle. -/
def busyTime (tr : List SchedSwitch) (c : Nat) : Nat :=
  pairSum SchedSwitch.cpu (fun a b => if a.nextPid ≠ 0 then b.now - a.now else 0) c tr

theorem Consistent.of_concat {tr : List SchedSwitch} {e : SchedSwitch} (h : Consistent (tr ++ [e])) :
    Consistent tr ∧ 0 < e.now ∧
      ∀ a, last SchedSwitch.cpu e.cpu tr = some a → e.prevPid = a.nextPid ∧ a.now ≤ e.now := by
  obtain ⟨hl, he⟩ := (linked_concat _ _ tr e).1 h.linked
  exact ⟨⟨fun a ha => h.pos a (by simp [ha]), hl⟩, h.pos e (by simp), he⟩

variable {caps : Caps}

/-- A CPU's record is that of its last switch. -/
theorem schedState_run (ops : List Op) (c : Nat) :
    ((run caps ops).cpuSchedState c).currentPid = (last SchedSwitch.cpu c (switches ops)).elim 0 (·.nextPid) ∧
    ((run caps ops).cpuSchedState c).startTimeNs = (last SchedSwitch.cpu c (switches ops)).elim 0 (·.now) := by
  induction ops using List.reverseRecOn with
  | nil => exact ⟨rfl, rfl⟩
  | append_singleton ops op ih =>
    cases h : op.switch? with
    | none =>
      rw [run_concat, (step_of_not_switch _ h).1, switches_concat, h]
      simpa using ih
    | some e =>
      obtain rfl : op = .schedSwitch e := by cases op <;> simp_all [Op.switch?]
      rw [run_concat, switches_concat, h, Option.toList_some, last_concat]
      by_cases hc : e.cpu = c
      · simp [Kernel.step, Kernel.handleSchedSwitch, hc]
      · simpa [Kernel.step, Kernel.handleSchedSwitch, hc, Function.update_of_ne (Ne.symm hc)] using ih

/-- What a switch after `a` on its CPU charges: the time since `a`, unless the
idle task ran. -/
def timeCharging : Charging SchedSwitch Nat PidCpuKey Nat where
  cell := SchedSwitch.cpu
  fires a e := a.nextPid != 0 && a.now != 0 && decide (e.now - a.now > 0)
  key _ e := e.key
  amount a e := e.now - a.now

/-- The handler charges along the trace's switches. -/
theorem pidCpuTime_after (ops : List Op) : timeCharging.After (run caps ops).pidCpuTime (switches ops) := by
  induction ops using List.reverseRecOn with
  | nil => exact .nil
  | append_singleton ops op ih =>
    cases h : op.switch? with
    | none =>
      rw [run_concat, (step_of_not_switch _ h).2.1, switches_concat, h, Option.toList_none, List.append_nil]
      exact ih
    | some e =>
      obtain rfl : op = .schedSwitch e := by cases op <;> simp_all [Op.switch?]
      have hstep : (run caps (ops ++ [.schedSwitch e])).pidCpuTime =
          timeCharging.step (run caps ops).pidCpuTime (switches ops) e := by
        obtain ⟨hp, hs⟩ := @schedState_run caps ops e.cpu
        rw [run_concat, Charging.step]
        simp only [Kernel.step, Kernel.handleSchedSwitch, hp, hs, timeCharging, SchedSwitch.key]
        cases last SchedSwitch.cpu e.cpu (switches ops) <;> rfl
      rw [hstep, switches_concat, h]
      exact .concat e ih

section Exact
variable {tr : List SchedSwitch}

/-- A fact about consecutive switches of a consistent trace. -/
theorem Consistent.linked_of (hc : Consistent tr) {R : SchedSwitch → SchedSwitch → Prop}
    (h : ∀ a ∈ tr, ∀ e ∈ tr, e.cpu = a.cpu → e.prevPid = a.nextPid → 0 < a.now → R a e) :
    Linked SchedSwitch.cpu R tr := by
  intro c p hp
  obtain ⟨ha, he⟩ := mem_pairs_on _ hp
  exact h p.1 ha.1 p.2 he.1 (he.2.trans ha.2.symm) (hc.linked c p hp).1 (hc.pos _ ha.1)

theorem timeCharging_room (hc : Consistent tr) :
    Linked timeCharging.cell (fun a e => timeCharging.fires a e = true → timeCharging.key a e ∈
      (tr.map SchedSwitch.key).toFinset) tr :=
  hc.linked_of fun _ _ e he _ _ _ _ => List.mem_toFinset.2 (List.mem_map.2 ⟨e, he, rfl⟩)

/-- Along a consistent trace, the charges to a process are the time it ran. -/
theorem charge_eq_runTime (hc : Consistent tr) {c p : Nat} (hp : p ≠ 0) :
    pairSum SchedSwitch.cpu (timeCharging.charge id ⟨c, p⟩) c tr = runTime tr c p := by
  refine pairSum_congr _ fun q hq => ?_
  obtain ⟨ha, he⟩ := mem_pairs_on _ hq
  have hpos := hc.pos _ ha.1
  have hpid := (hc.linked c q hq).1
  simp only [Charging.charge, timeCharging, SchedSwitch.key, he.2, hpid, PidCpuKey.mk.injEq, true_and, id_eq,
    Bool.and_eq_true, bne_iff_ne, decide_eq_true_eq]
  by_cases h : q.1.nextPid = p
  · subst h
    simp only [and_true, if_true]
    split <;> omega
  · simp [h]

theorem charge_eq_busyTime (hc : Consistent tr) (c : Nat) :
    pairSum SchedSwitch.cpu (fun a e => if timeCharging.fires a e = true then
      (if (timeCharging.key a e).cpu = c then timeCharging.amount a e else 0) else 0) c tr = busyTime tr c := by
  refine pairSum_congr _ fun q hq => ?_
  obtain ⟨ha, he⟩ := mem_pairs_on _ hq
  have hpos := hc.pos _ ha.1
  simp only [timeCharging, SchedSwitch.key, he.2, if_true, Bool.and_eq_true, bne_iff_ne, decide_eq_true_eq]
  by_cases h : q.1.nextPid = 0
  · simp [h]
  · simp only [h, ne_eq, not_false_iff, if_true, true_and]
    split <;> omega

theorem key_cpu (hc : Consistent tr) (c p : Nat) :
    Linked timeCharging.cell (fun a e => timeCharging.fires a e = true → timeCharging.key a e = ⟨c, p⟩ →
      timeCharging.cell e = c) tr :=
  hc.linked_of fun _ _ _ _ _ _ _ _ hk => (PidCpuKey.mk.inj hk).1

/-- A charged task is one its CPU ran, so not the idle one. -/
theorem idle_not_charged (ops : List Op) (hc : Consistent (switches ops)) (c : Nat) :
    (run caps ops).pidCpuTime.lookup ⟨c, 0⟩ = none := by
  cases h : (run caps ops).pidCpuTime.lookup ⟨c, 0⟩ with
  | none => rfl
  | some v =>
    have hmem : (⟨c, 0⟩ : PidCpuKey) ∈ (run caps ops).pidCpuTime.table :=
      AList.lookup_isSome.1 (Option.isSome_iff_exists.2 ⟨v, h⟩)
    refine absurd rfl ((pidCpuTime_after ops).key_of_mem (P := fun k => k.pid ≠ 0) ?_ hmem)
    refine hc.linked_of fun a _ e _ _ hpid _ hf => ?_
    simp only [timeCharging, Bool.and_eq_true, bne_iff_ne] at hf
    simpa [timeCharging, SchedSwitch.key, hpid] using hf.1.1

end Exact

/-- In every consistent trace, interleaved over any CPUs and with anything
else the kernel handles, and with room for its tasks: a process's entry on a
CPU is the time it ran there, the idle task has none, and a CPU's entries add
up to its busy time. -/
theorem pidCpuTime_exact (ops : List Op) (hc : Consistent (switches ops))
    (hroom : ((switches ops).map SchedSwitch.key).toFinset.card ≤ caps.pidCpu) :
    (∀ c p, p ≠ 0 → ((run caps ops).pidCpuTime.lookup ⟨c, p⟩).getD 0 = runTime (switches ops) c p) ∧
    (∀ c, (run caps ops).pidCpuTime.lookup ⟨c, 0⟩ = none) ∧
    (∀ c, (run caps ops).pidCpuTime.table.total (fun k v => if k.cpu = c then v else 0) =
      busyTime (switches ops) c) := by
  have hafter := @pidCpuTime_after caps ops
  refine ⟨fun c p hp => ?_, idle_not_charged ops hc, fun c => ?_⟩
  · have e := hafter.weight_eq (w := id) (fun _ _ => rfl) (key_cpu hc c p) hroom (timeCharging_room hc)
    refine Eq.trans ?_ (e.trans (charge_eq_runTime hc hp))
    cases (run caps ops).pidCpuTime.lookup ⟨c, p⟩ <;> rfl
  · refine Eq.trans ?_ (charge_eq_busyTime hc c)
    refine hafter.total_eq (c := c) (fun k v d => by split <;> rfl) hroom (timeCharging_room hc) ?_
    exact hc.linked_of fun a _ e _ _ _ _ _ hne => if_neg hne

/-- Two CPUs: process 7 runs on CPU 0 from 10 to 30 and process 8 after it,
while CPU 1 goes from process 9 to idle and back. -/
def twoCpus : List Op :=
  [.schedSwitch ⟨0, 10, 0, 7, 0, {}, {}⟩, .schedSwitch ⟨1, 12, 0, 9, 0, {}, {}⟩,
   .schedSwitch ⟨1, 20, 9, 0, 0, {}, {}⟩, .schedSwitch ⟨0, 30, 7, 8, 0, {}, {}⟩,
   .schedSwitch ⟨1, 34, 0, 9, 0, {}, {}⟩, .schedSwitch ⟨0, 35, 8, 7, 0, {}, {}⟩]

theorem pidCpuTime_twoCpus :
    Consistent (switches twoCpus) ∧ ((run {} twoCpus).pidCpuTime.lookup ⟨0, 7⟩).getD 0 = 20 := by
  have hc : Consistent (switches twoCpus) := ⟨by decide, by decide⟩
  refine ⟨hc, ?_⟩
  rw [(@pidCpuTime_exact {} twoCpus hc (by decide)).1 0 7 (by decide)]
  decide

/-! ## No overflow -/

theorem runTime_le_clock (tr : List SchedSwitch) (hc : Consistent tr) (c p : Nat) :
    runTime tr c p ≤ (last SchedSwitch.cpu c tr).elim 0 (·.now) := by
  induction tr using List.reverseRecOn with
  | nil => exact Nat.le_refl 0
  | append_singleton tr e ih =>
    obtain ⟨hc', -, hlast⟩ := hc.of_concat
    have hi := ih hc'
    rw [runTime, pairSum_concat, ← runTime, last_concat]
    by_cases h : e.cpu = c
    · subst h
      cases ha : last SchedSwitch.cpu e.cpu tr with
      | none => simp_all
      | some a =>
        have := (hlast a ha).2
        simp only [ha, Option.elim_some, if_true] at hi ⊢
        split <;> omega
    · simpa [h] using hi

/-- An entry never exceeds the clock of its CPU's last switch, so a 64-bit sum
does not wrap. -/
theorem pidCpuTime_le_clock (ops : List Op) (hc : Consistent (switches ops)) (c p : Nat) :
    ((run caps ops).pidCpuTime.lookup ⟨c, p⟩).getD 0 ≤ (last SchedSwitch.cpu c (switches ops)).elim 0 (·.now) := by
  by_cases hp : p = 0
  · subst hp
    rw [idle_not_charged ops hc]
    exact Nat.zero_le _
  · have hle := (@pidCpuTime_after caps ops).weight_le (w := id) (fun _ _ => rfl) (key_cpu hc c p)
    have hr := runTime_le_clock _ hc c p
    rw [← charge_eq_runTime hc hp] at hr
    refine le_trans (le_of_eq ?_) (hle.trans hr)
    cases (run caps ops).pidCpuTime.lookup ⟨c, p⟩ <;> rfl

end Keck.Ebpf
