import Keck.Lib.Table
import Keck.Lib.Trace
/-!
# The kernel side

The eBPF programs of `keck-ebpf/src/main.rs` and the maps they write, with the
types of `keck-common/src/lib.rs`. A handler takes what it reads from its
context, the clock and the helpers as an event. `u32` and `u64` are natural
numbers: the time sums never exceed the clock (`pidCpuTime_le_clock`), and the
counter sums fit where reads do not fail (`hwCounters_le_increase`). The
addition in a map wraps where a sum does not fit.
-/
namespace Keck.Ebpf

open Keck.Lib

structure PidCpuKey where
  cpu : Nat
  pid : Nat
  deriving DecidableEq

structure CpuFreqKey where
  cpu : Nat
  freqKhz : Nat
  deriving DecidableEq

/-- Instructions, cycles and cache misses: a reading, a snapshot or a sum. -/
structure PidCpuCounters where
  instructions : Nat := 0
  cycles : Nat := 0
  cacheMisses : Nat := 0
  deriving DecidableEq

instance : Add PidCpuCounters :=
  ⟨fun a b => ⟨a.instructions + b.instructions, a.cycles + b.cycles, a.cacheMisses + b.cacheMisses⟩⟩

/-- `saturating_sub` in each counter. -/
instance : Sub PidCpuCounters :=
  ⟨fun a b => ⟨a.instructions - b.instructions, a.cycles - b.cycles, a.cacheMisses - b.cacheMisses⟩⟩

structure PidNetBytes where
  txBytes : Nat := 0
  rxBytes : Nat := 0
  deriving DecidableEq

instance : Add PidNetBytes := ⟨fun a b => ⟨a.txBytes + b.txBytes, a.rxBytes + b.rxBytes⟩⟩

structure CpuSchedState where
  currentPid : Nat := 0
  startTimeNs : Nat := 0
  /-- `start_instructions`, `start_cycles` and `start_cache_misses`. -/
  start : PidCpuCounters := {}

structure CpuFreqState where
  currentFreqKhz : Nat := 0
  startTimeNs : Nat := 0

/-- The sizes the hash maps are loaded with. -/
structure Caps where
  pidCpu : Nat := 65536
  cpuFreq : Nat := 32768
  pidCgroup : Nat := 65536
  pidNet : Nat := 65536
  pidHwCounter : Nat := 65536

structure Kernel (caps : Caps) where
  pidCpuTime : BpfMap PidCpuKey Nat caps.pidCpu := .empty
  cpuSchedState : Nat → CpuSchedState := fun _ => {}
  cpuFreqTime : BpfMap CpuFreqKey Nat caps.cpuFreq := .empty
  cpuFreqState : Nat → CpuFreqState := fun _ => {}
  pidCgroup : BpfMap Nat Nat caps.pidCgroup := .empty
  pidNetBytes : BpfMap Nat PidNetBytes caps.pidNet := .empty
  pidHwCounters : BpfMap PidCpuKey PidCpuCounters caps.pidHwCounter := .empty
  pmcEnabled : Nat := 0

/-! ## Events -/

/-- The three counters of a CPU when a handler reads them, and what
`bpf_perf_event_read` returns for each: the counter, or the error code of a
failed read as a `u64`, which is close to `2 ^ 64`. -/
structure PerfRead where
  count : PidCpuCounters := {}
  result : PidCpuCounters := count

-- The result is unsigned, so the test for an error never holds.
def readPerfCounter (result : Nat) : Nat := if result < 0 then 0 else result

def PerfRead.value (r : PerfRead) : PidCpuCounters where
  instructions := readPerfCounter r.result.instructions
  cycles := readPerfCounter r.result.cycles
  cacheMisses := readPerfCounter r.result.cacheMisses

/-- A context switch. `out` is what the counters read when the outgoing task is
charged, `into` when the incoming one's start is recorded. -/
structure SchedSwitch where
  cpu : Nat
  now : Nat
  prevPid : Nat
  nextPid : Nat
  cgroupId : Nat := 0
  out : PerfRead := {}
  into : PerfRead := {}

/-- A frequency change of core `cpuId`, handled on CPU `execCpu`. -/
structure CpuFrequency where
  execCpu : Nat
  now : Nat
  newFreqKhz : Nat
  cpuId : Nat

/-! ## Handlers -/

namespace Kernel
variable {caps : Caps}

def handleSchedSwitch (k : Kernel caps) (e : SchedSwitch) : Kernel caps :=
  let pmcActive := k.pmcEnabled != 0
  let state := k.cpuSchedState e.cpu
  let elapsed := e.now - state.startTimeNs
  let charged := state.currentPid != 0 && state.startTimeNs != 0 && decide (elapsed > 0)
  let key : PidCpuKey := ⟨e.cpu, e.prevPid⟩
  let delta := e.out.value - state.start
  { k with
    pidCpuTime := if charged then k.pidCpuTime.bump key elapsed else k.pidCpuTime
    pidHwCounters :=
      if charged && pmcActive && (decide (delta.instructions > 0) || decide (delta.cycles > 0)) then
        k.pidHwCounters.bump key delta
      else k.pidHwCounters
    cpuSchedState := Function.update k.cpuSchedState e.cpu
      { currentPid := e.nextPid
        startTimeNs := e.now
        start := if pmcActive then e.into.value else state.start }
    pidCgroup := if e.nextPid != 0 then k.pidCgroup.insert e.nextPid e.cgroupId else k.pidCgroup }

-- The state cell is the executing CPU's, the accounting key the named core's.
def handleCpuFrequency (k : Kernel caps) (e : CpuFrequency) : Kernel caps :=
  let state := k.cpuFreqState e.execCpu
  let elapsed := e.now - state.startTimeNs
  let charged := state.currentFreqKhz != 0 && state.startTimeNs != 0 && decide (elapsed > 0)
  { k with
    cpuFreqTime :=
      if charged then k.cpuFreqTime.bump ⟨e.cpuId, state.currentFreqKhz⟩ elapsed else k.cpuFreqTime
    cpuFreqState := Function.update k.cpuFreqState e.execCpu ⟨e.newFreqKhz, e.now⟩ }

def tcpSendmsg (k : Kernel caps) (pid : Nat) (arg : Option Nat) : Kernel caps :=
  match arg with
  | some size => if pid = 0 then k else { k with pidNetBytes := k.pidNetBytes.bump pid ⟨size, 0⟩ }
  | none => k

def tcpRecvmsg (k : Kernel caps) (pid : Nat) (ret : Option Int) : Kernel caps :=
  match ret with
  | some r => if pid = 0 ∨ r ≤ 0 then k else { k with pidNetBytes := k.pidNetBytes.bump pid ⟨0, r.toNat⟩ }
  | none => k

end Kernel

/-! ## Runs -/

inductive Op where
  | schedSwitch (e : SchedSwitch)
  | cpuFrequency (e : CpuFrequency)
  | tcpSendmsg (pid : Nat) (arg : Option Nat)
  | tcpRecvmsg (pid : Nat) (ret : Option Int)
  /-- Userspace has attached the perf events. -/
  | enablePmc

variable {caps : Caps}

def Kernel.step (k : Kernel caps) : Op → Kernel caps
  | .schedSwitch e => k.handleSchedSwitch e
  | .cpuFrequency e => k.handleCpuFrequency e
  | .tcpSendmsg pid arg => k.tcpSendmsg pid arg
  | .tcpRecvmsg pid ret => k.tcpRecvmsg pid ret
  | .enablePmc => { k with pmcEnabled := 1 }

/-- The kernel after a trace, from zeroed state and empty maps. -/
def run (caps : Caps) (ops : List Op) : Kernel caps := ops.foldl Kernel.step {}

@[simp] theorem run_nil : run caps [] = {} := rfl

@[simp] theorem run_concat (ops : List Op) (op : Op) : run caps (ops ++ [op]) = (run caps ops).step op := by
  simp [run]

def Op.switch? : Op → Option SchedSwitch
  | .schedSwitch e => some e
  | _ => none

def Op.freq? : Op → Option CpuFrequency
  | .cpuFrequency e => some e
  | _ => none

/-- The context switches of a trace. -/
def switches (ops : List Op) : List SchedSwitch := ops.filterMap Op.switch?

/-- The frequency changes of a trace. -/
def freqs (ops : List Op) : List CpuFrequency := ops.filterMap Op.freq?

@[simp] theorem switches_concat (ops : List Op) (op : Op) :
    switches (ops ++ [op]) = switches ops ++ op.switch?.toList := by
  cases op <;> simp [switches, Op.switch?]

@[simp] theorem freqs_concat (ops : List Op) (op : Op) : freqs (ops ++ [op]) = freqs ops ++ op.freq?.toList := by
  cases op <;> simp [freqs, Op.freq?]

/-! ## What an operation leaves alone -/

theorem tcpSendmsg_frame (k : Kernel caps) (pid : Nat) (arg : Option Nat) :
    k.tcpSendmsg pid arg = { k with pidNetBytes := (k.tcpSendmsg pid arg).pidNetBytes } := by
  unfold Kernel.tcpSendmsg
  cases arg with
  | none => rfl
  | some size => by_cases h : pid = 0 <;> simp [h]

theorem tcpRecvmsg_frame (k : Kernel caps) (pid : Nat) (ret : Option Int) :
    k.tcpRecvmsg pid ret = { k with pidNetBytes := (k.tcpRecvmsg pid ret).pidNetBytes } := by
  unfold Kernel.tcpRecvmsg
  cases ret with
  | none => rfl
  | some r => by_cases h : pid = 0 ∨ r ≤ 0 <;> simp [h]

/-- Only a context switch changes the scheduler's maps. -/
theorem step_of_not_switch (k : Kernel caps) {op : Op} (h : op.switch? = none) :
    (k.step op).cpuSchedState = k.cpuSchedState ∧ (k.step op).pidCpuTime = k.pidCpuTime ∧
      (k.step op).pidHwCounters = k.pidHwCounters := by
  cases op with
  | schedSwitch e => cases h
  | cpuFrequency e => exact ⟨rfl, rfl, rfl⟩
  | tcpSendmsg pid arg => simp only [Kernel.step]; rw [tcpSendmsg_frame]; exact ⟨rfl, rfl, rfl⟩
  | tcpRecvmsg pid ret => simp only [Kernel.step]; rw [tcpRecvmsg_frame]; exact ⟨rfl, rfl, rfl⟩
  | enablePmc => exact ⟨rfl, rfl, rfl⟩

/-- Only a frequency change changes the residency maps. -/
theorem step_of_not_freq (k : Kernel caps) {op : Op} (h : op.freq? = none) :
    (k.step op).cpuFreqState = k.cpuFreqState ∧ (k.step op).cpuFreqTime = k.cpuFreqTime := by
  cases op with
  | schedSwitch e => exact ⟨rfl, rfl⟩
  | cpuFrequency e => cases h
  | tcpSendmsg pid arg => simp only [Kernel.step]; rw [tcpSendmsg_frame]; exact ⟨rfl, rfl⟩
  | tcpRecvmsg pid ret => simp only [Kernel.step]; rw [tcpRecvmsg_frame]; exact ⟨rfl, rfl⟩
  | enablePmc => exact ⟨rfl, rfl⟩

end Keck.Ebpf
