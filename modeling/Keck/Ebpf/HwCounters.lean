import Keck.Lib.Charge
import Keck.Ebpf.Handlers
/-!
# Hardware counters per process

While `PMC_ENABLED` is set, `handle_sched_switch` records the counters when a
task starts and charges the difference when it stops. A start that was not
recorded, because the flag was not set yet, counts as zero, and the task is
then charged the counter's whole value. A read that fails gives its error code,
close to `2 ^ 64`: at the start nothing is charged then, at the end the code
is. Where both ends of every charged run are known, no process is charged more
than the counter advanced while it ran: `hwCounters_le_increase`.
-/
namespace Keck.Ebpf

open Keck.Lib Keck.Lib.Trace

inductive Pmc where
  | instructions
  | cycles
  | cacheMisses

def Pmc.of : Pmc → PidCpuCounters → Nat
  | .instructions, v => v.instructions
  | .cycles, v => v.cycles
  | .cacheMisses, v => v.cacheMisses

/-- Whether the read returns this counter. -/
def Pmc.ok (m : Pmc) (r : PerfRead) : Bool := m.of r.result == m.of r.count

theorem Pmc.of_add (m : Pmc) (v d : PidCpuCounters) : m.of (v + d) = m.of v + m.of d := by cases m <;> rfl

theorem Pmc.of_sub (m : Pmc) (v d : PidCpuCounters) : m.of (v - d) = m.of v - m.of d := by cases m <;> rfl

theorem readPerfCounter_eq (result : Nat) : readPerfCounter result = result := if_neg (Nat.not_lt_zero result)

/-- A read is what the helper returns, failed or not. -/
theorem Pmc.of_value (m : Pmc) (r : PerfRead) : m.of r.value = m.of r.result := by
  cases m <;> exact readPerfCounter_eq _

/-! ## Switches with the flag they see -/

structure Observed where
  active : Bool
  ev : SchedSwitch

def observe : Bool × List Observed → Op → Bool × List Observed
  | (active, tr), .schedSwitch e => (active, tr ++ [⟨active, e⟩])
  | (_, tr), .enablePmc => (true, tr)
  | s, _ => s

/-- The flag after a trace, and its switches with the flag each saw. -/
def flagged (ops : List Op) : Bool × List Observed := ops.foldl observe (false, [])

def observed (ops : List Op) : List Observed := (flagged ops).2

def Observed.cpu (o : Observed) : Nat := o.ev.cpu

/-- The start values a switch leaves for the task it starts. -/
def Observed.start (o : Observed) : PidCpuCounters := if o.active then o.ev.into.value else {}

theorem flagged_concat (ops : List Op) (op : Op) : flagged (ops ++ [op]) = observe (flagged ops) op := by
  simp [flagged]

theorem flagged_of_not_switch (ops : List Op) {op : Op} (h : op.switch? = none) :
    observed (ops ++ [op]) = observed ops := by
  rw [observed, flagged_concat]
  cases op <;> first | rfl | cases h

variable {caps : Caps}

/-- The flag the handler reads. -/
theorem pmcEnabled_run (ops : List Op) : ((run caps ops).pmcEnabled != 0) = (flagged ops).1 := by
  induction ops using List.reverseRecOn with
  | nil => rfl
  | append_singleton ops op ih =>
    rw [run_concat, flagged_concat]
    cases op with
    | schedSwitch e => exact ih
    | cpuFrequency e => exact ih
    | tcpSendmsg pid arg => simp only [Kernel.step]; rw [tcpSendmsg_frame]; exact ih
    | tcpRecvmsg pid ret => simp only [Kernel.step]; rw [tcpRecvmsg_frame]; exact ih
    | enablePmc => rfl

/-- A CPU's record is that of its last switch; while the flag is off, no start
has been recorded anywhere. -/
theorem counterState_run (ops : List Op) :
    (∀ c, (run caps ops).cpuSchedState c = (last Observed.cpu c (observed ops)).elim {} fun a =>
      ⟨a.ev.nextPid, a.ev.now, a.start⟩) ∧
    ((flagged ops).1 = false → ∀ c, ((run caps ops).cpuSchedState c).start = {}) := by
  induction ops using List.reverseRecOn with
  | nil => exact ⟨fun _ => rfl, fun _ _ => rfl⟩
  | append_singleton ops op ih =>
    obtain ⟨hst, hoff⟩ := ih
    cases h : op.switch? with
    | none =>
      rw [run_concat, (step_of_not_switch _ h).1, flagged_of_not_switch ops h]
      refine ⟨hst, fun hf => hoff ?_⟩
      rw [flagged_concat] at hf
      cases op <;> simp_all [observe, Op.switch?]
    | some e =>
      obtain rfl : op = .schedSwitch e := by cases op <;> simp_all [Op.switch?]
      have hobs : observed (ops ++ [.schedSwitch e]) = observed ops ++ [⟨(flagged ops).1, e⟩] := by
        rw [observed, flagged_concat]; rfl
      have hstart :
          (if (run caps ops).pmcEnabled != 0 then e.into.value else ((run caps ops).cpuSchedState e.cpu).start)
          = Observed.start ⟨(flagged ops).1, e⟩ := by
        rw [pmcEnabled_run, Observed.start]
        cases hf : (flagged ops).1 with
        | true => rfl
        | false => exact hoff hf e.cpu
      refine ⟨fun c => ?_, fun hf c => ?_⟩
      · rw [run_concat, hobs, last_concat]
        by_cases hc : e.cpu = c
        · subst hc
          simp [Kernel.step, Kernel.handleSchedSwitch, Observed.cpu, ← hstart]
        · simpa [Kernel.step, Kernel.handleSchedSwitch, Observed.cpu, hc, Function.update_of_ne (Ne.symm hc)]
            using hst c
      · rw [flagged_concat] at hf
        have hf' : (flagged ops).1 = false := hf
        rw [run_concat]
        by_cases hc : c = e.cpu
        · subst hc
          simp only [Kernel.step, Kernel.handleSchedSwitch, Function.update_self]
          rw [hstart, Observed.start, hf']
          rfl
        · simpa [Kernel.step, Kernel.handleSchedSwitch, Function.update_of_ne hc] using hoff hf' c

/-- What a switch after `a` on its CPU charges. -/
def hwCharging : Charging Observed Nat PidCpuKey PidCpuCounters where
  cell := Observed.cpu
  fires a e :=
    a.ev.nextPid != 0 && a.ev.now != 0 && decide (e.ev.now - a.ev.now > 0) && e.active &&
      (decide ((e.ev.out.value - a.start).instructions > 0) || decide ((e.ev.out.value - a.start).cycles > 0))
  key _ e := ⟨e.ev.cpu, e.ev.prevPid⟩
  amount a e := e.ev.out.value - a.start

theorem pidHwCounters_after (ops : List Op) : hwCharging.After (run caps ops).pidHwCounters (observed ops) := by
  induction ops using List.reverseRecOn with
  | nil => exact .nil
  | append_singleton ops op ih =>
    cases h : op.switch? with
    | none =>
      rw [run_concat, (step_of_not_switch _ h).2.2, flagged_of_not_switch ops h]
      exact ih
    | some e =>
      obtain rfl : op = .schedSwitch e := by cases op <;> simp_all [Op.switch?]
      have hobs : observed (ops ++ [.schedSwitch e]) = observed ops ++ [⟨(flagged ops).1, e⟩] := by
        rw [observed, flagged_concat]; rfl
      have hstep : (run caps (ops ++ [.schedSwitch e])).pidHwCounters =
          hwCharging.step (run caps ops).pidHwCounters (observed ops) ⟨(flagged ops).1, e⟩ := by
        have hcell : hwCharging.cell ⟨(flagged ops).1, e⟩ = e.cpu := rfl
        rw [run_concat, Charging.step, hcell]
        simp only [Kernel.step, Kernel.handleSchedSwitch, (@counterState_run caps ops).1, pmcEnabled_run, hwCharging]
        cases last Observed.cpu e.cpu (observed ops) <;> rfl
      rw [hstep, hobs]
      exact .concat _ ih

/-! ## No over-charge -/

/-- How far the counter advanced on `c` while `p` ran. -/
def increase (m : Pmc) (tr : List Observed) (c p : Nat) : Nat :=
  pairSum Observed.cpu (fun a e => if a.ev.nextPid = p then m.of e.ev.out.count - m.of a.ev.into.count else 0) c tr

/-- If the switch `e` charges the task that `a` started, then the counter is
known at both ends of the run: `e` reads it, and so did `a` with the flag set,
or it stood at zero then. Otherwise `e` reads no more than the start on
record, as after a start read that failed, and charges nothing. -/
def EndsKnown (m : Pmc) (a e : Observed) : Prop :=
  e.active = true → a.ev.nextPid ≠ 0 → a.ev.now < e.ev.now →
    (m.ok e.ev.out = true ∧ ((a.active = true ∧ m.ok a.ev.into = true) ∨ m.of a.ev.into.count = 0)) ∨
    m.of e.ev.out.result ≤ m.of a.start

instance (m : Pmc) (a e : Observed) : Decidable (EndsKnown m a e) := inferInstanceAs (Decidable (_ → _))

/-- Each switch leaves the task the previous switch on its CPU started. -/
def TasksLinked (tr : List Observed) : Prop :=
  Linked Observed.cpu (fun a e => e.ev.prevPid = a.ev.nextPid ∧ a.ev.now ≤ e.ev.now) tr

instance (tr : List Observed) : Decidable (TasksLinked tr) := inferInstanceAs (Decidable (Linked _ _ _))

theorem amount_le {m : Pmc} {a e : Observed} (h : EndsKnown m a e) (hf : hwCharging.fires a e = true) :
    m.of (hwCharging.amount a e) ≤ m.of e.ev.out.count - m.of a.ev.into.count := by
  simp only [hwCharging, Bool.and_eq_true, bne_iff_ne, decide_eq_true_eq] at hf
  obtain ⟨⟨⟨⟨hn, -⟩, ht⟩, hact⟩, -⟩ := hf
  simp only [hwCharging, Pmc.of_sub, Pmc.of_value]
  rcases h hact hn (by omega) with ⟨hout, hstart⟩ | hle
  · rw [beq_iff_eq.1 hout]
    rcases hstart with ⟨ha, hinto⟩ | hzero
    · rw [Observed.start, if_pos ha, Pmc.of_value, beq_iff_eq.1 hinto]
    · rw [hzero]
      omega
  · rw [Nat.sub_eq_zero_of_le hle]
    exact Nat.zero_le _

/-- The counters only rise, within a switch and from one to the next. -/
def CountersRise (tr : List Observed) : Prop :=
  ∀ m : Pmc, (∀ o ∈ tr, m.of o.ev.out.count ≤ m.of o.ev.into.count) ∧
    Linked Observed.cpu (fun a e => m.of a.ev.into.count ≤ m.of e.ev.out.count) tr

/-- A counter that rises has advanced by at most its last value. -/
theorem increase_le_count {tr : List Observed} (hrise : CountersRise tr) (m : Pmc) (c p : Nat) :
    increase m tr c p ≤ (last Observed.cpu c tr).elim 0 fun a => m.of a.ev.into.count := by
  obtain ⟨hwithin, hlinked⟩ := hrise m
  clear hrise
  induction tr using List.reverseRecOn with
  | nil => exact Nat.zero_le _
  | append_singleton tr e ih =>
    obtain ⟨hlinked, hnext⟩ := (linked_concat _ _ _ _).1 hlinked
    have ih := ih (fun o ho => hwithin o (List.mem_append_left _ ho)) hlinked
    unfold increase at ih ⊢
    rw [pairSum_concat, last_concat]
    by_cases hc : e.cpu = c
    · subst hc
      have he : m.of e.ev.out.count ≤ m.of e.ev.into.count := hwithin e (by simp)
      rw [if_pos rfl, if_pos rfl]
      cases hlast : last Observed.cpu e.cpu tr with
      | none =>
        rw [hlast] at ih
        simp only [Option.elim] at ih ⊢
        omega
      | some a =>
        have ha : m.of a.ev.into.count ≤ m.of e.ev.out.count := hnext a hlast
        rw [hlast] at ih
        simp only [Option.elim] at ih ⊢
        split <;> omega
    · rw [if_neg hc, if_neg hc]
      exact ih

/-- In every trace, whatever the size of the map: a process is charged at most
what the counter advanced on that CPU while it ran, if the ends of every
charged run are known. For a counter that rises and is 64 bits wide the sum
then fits as well, so no addition in the map has wrapped. -/
theorem hwCounters_le_increase (ops : List Op) (m : Pmc) (htasks : TasksLinked (observed ops))
    (hends : Linked Observed.cpu (EndsKnown m) (observed ops)) (c p : Nat) :
    ((run caps ops).pidHwCounters.lookup ⟨c, p⟩).elim 0 m.of ≤ increase m (observed ops) c p ∧
    (CountersRise (observed ops) → (∀ o ∈ observed ops, m.of o.ev.into.count < 2 ^ 64) →
      ((run caps ops).pidHwCounters.lookup ⟨c, p⟩).elim 0 m.of < 2 ^ 64) := by
  have hle := (@pidHwCounters_after caps ops).weight_le (w := m.of) (m.of_add) (k := ⟨c, p⟩) (c := c)
    fun _ _ _ _ hk => (PidCpuKey.mk.inj hk).1
  have hincrease : ((run caps ops).pidHwCounters.lookup ⟨c, p⟩).elim 0 m.of ≤ increase m (observed ops) c p := by
    refine hle.trans (List.sum_le_sum fun q hq => ?_)
    unfold Charging.charge
    split
    · rename_i h
      have hpid : q.1.ev.nextPid = p := (htasks c q hq).1.symm.trans (PidCpuKey.mk.inj h.2).2
      exact (amount_le (hends c q hq) h.1).trans_eq (if_pos hpid).symm
    · exact Nat.zero_le _
  refine ⟨hincrease, fun hrise hwide => (hincrease.trans (increase_le_count hrise m c p)).trans_lt ?_⟩
  cases hlast : last Observed.cpu c (observed ops) with
  | none => exact Nat.two_pow_pos 64
  | some a => exact hwide a (List.mem_of_mem_filter (List.mem_of_getLast? hlast))

/-- The flag is set before the first switch; process 7 runs while the counters
advance by 500. Process 9's start read of the instructions fails. -/
def earlyFlag : List Op :=
  [.enablePmc,
   .schedSwitch ⟨0, 1, 0, 7, 0, { count := ⟨100, 100, 10⟩ }, { count := ⟨100, 100, 10⟩ }⟩,
   .schedSwitch ⟨0, 2, 7, 9, 0, { count := ⟨600, 600, 60⟩ },
     { count := ⟨600, 600, 60⟩, result := ⟨2 ^ 64 - 2, 600, 60⟩ }⟩,
   .schedSwitch ⟨0, 3, 9, 0, 0, { count := ⟨700, 700, 70⟩ }, { count := ⟨700, 700, 70⟩ }⟩]

theorem hwCounters_earlyFlag :
    TasksLinked (observed earlyFlag) ∧ Linked Observed.cpu (EndsKnown .instructions) (observed earlyFlag) ∧
    (run {} earlyFlag).pidHwCounters.lookup ⟨0, 7⟩ = some ⟨500, 500, 50⟩ ∧
    (run {} earlyFlag).pidHwCounters.lookup ⟨0, 9⟩ = some ⟨0, 100, 10⟩ ∧
    ((run {} earlyFlag).pidHwCounters.lookup ⟨0, 7⟩).elim 0 Pmc.instructions.of ≤
      increase .instructions (observed earlyFlag) 0 7 := by
  have htasks : TasksLinked (observed earlyFlag) := by decide
  have hends : Linked Observed.cpu (EndsKnown .instructions) (observed earlyFlag) := by decide
  exact ⟨htasks, hends, by decide, by decide, (hwCounters_le_increase earlyFlag .instructions htasks hends 0 7).1⟩

/-- The read of the instructions fails when process 7 stops. -/
def failedStop : List Op :=
  [.enablePmc,
   .schedSwitch ⟨0, 1, 0, 7, 0, { count := ⟨100, 100, 10⟩ }, { count := ⟨100, 100, 10⟩ }⟩,
   .schedSwitch ⟨0, 2, 7, 0, 0, { count := ⟨600, 600, 60⟩, result := ⟨2 ^ 64 - 2, 600, 60⟩ }, {}⟩]

-- The error code is charged.
example : (run {} failedStop).pidHwCounters.lookup ⟨0, 7⟩ = some ⟨2 ^ 64 - 102, 500, 50⟩ := by decide

/-! ## The flag set while a task runs -/

/-- The counters are open from the start; the flag is set while process 8 runs. -/
def lateFlag : List Op :=
  [.schedSwitch ⟨0, 1, 0, 7, 0, {}, {}⟩,
   .schedSwitch ⟨0, 2, 7, 8, 0, { count := ⟨1000, 1000, 100⟩ }, { count := ⟨1000, 1000, 100⟩ }⟩,
   .enablePmc,
   .schedSwitch ⟨0, 3, 8, 0, 0, { count := ⟨1010, 1010, 101⟩ }, { count := ⟨1010, 1010, 101⟩ }⟩]

/-- Process 8 is charged everything the counter has counted, process 7's
instructions included. -/
theorem late_flag_overcharges :
    TasksLinked (observed lateFlag) ∧ CountersRise (observed lateFlag) ∧
    (run {} lateFlag).pidHwCounters.lookup ⟨0, 8⟩ = some ⟨1010, 1010, 101⟩ ∧
    increase .instructions (observed lateFlag) 0 8 = 10 := by
  refine ⟨by decide, ?_, by decide, by decide⟩
  intro m
  cases m <;> exact ⟨by decide, by decide⟩

end Keck.Ebpf
