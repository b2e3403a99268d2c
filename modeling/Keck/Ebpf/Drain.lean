import Keck.Lib.Drain
import Keck.Ebpf.HwCounters
/-!
# Draining the kernel's maps

`EbpfObserver::drain` (`keck-agent/src/ebpf/mod.rs`) reads a map entry by entry
and then removes the keys it read, while the handlers keep adding. `Sys` is the
kernel with the drains of the three counting maps in progress. A handler adds to
each map at most once (`step_increments`), so what a map sees of a run is a
sequence of additions, reads and removals: `View.run_drain`. Draining conserves
what was added exactly if nothing is added to a key between its read and its
removal: `drains_conserve_iff`.
-/
namespace Keck.Ebpf

open Keck.Lib Keck.Lib.Drain

variable {caps : Caps}

/-! ## What the handlers add -/

/-- What an operation adds to `PID_CPU_TIME`. -/
def timeIncrement (k : Kernel caps) : Op → Option (PidCpuKey × Nat)
  | .schedSwitch e =>
    let state := k.cpuSchedState e.cpu
    let elapsed := e.now - state.startTimeNs
    if state.currentPid != 0 && state.startTimeNs != 0 && decide (elapsed > 0) then
      some (⟨e.cpu, e.prevPid⟩, elapsed)
    else none
  | _ => none

/-- What an operation adds to `PID_HW_COUNTERS`. -/
def hwIncrement (k : Kernel caps) : Op → Option (PidCpuKey × PidCpuCounters)
  | .schedSwitch e =>
    let state := k.cpuSchedState e.cpu
    let delta := e.out.value - state.start
    if state.currentPid != 0 && state.startTimeNs != 0 && decide (e.now - state.startTimeNs > 0) &&
        k.pmcEnabled != 0 && (decide (delta.instructions > 0) || decide (delta.cycles > 0)) then
      some (⟨e.cpu, e.prevPid⟩, delta)
    else none
  | _ => none

/-- What an operation adds to `PID_NET_BYTES`. -/
def netIncrement : Op → Option (Nat × PidNetBytes)
  | .tcpSendmsg pid (some size) => if pid = 0 then none else some (pid, ⟨size, 0⟩)
  | .tcpRecvmsg pid (some r) => if pid = 0 ∨ r ≤ 0 then none else some (pid, ⟨0, r.toNat⟩)
  | _ => none

/-- A handler changes each counting map by at most one addition. -/
theorem step_increments (k : Kernel caps) (op : Op) :
    (k.step op).pidCpuTime = (timeIncrement k op).elim k.pidCpuTime (fun i => k.pidCpuTime.bump i.1 i.2) ∧
    (k.step op).pidHwCounters = (hwIncrement k op).elim k.pidHwCounters (fun i => k.pidHwCounters.bump i.1 i.2) ∧
    (k.step op).pidNetBytes = (netIncrement op).elim k.pidNetBytes (fun i => k.pidNetBytes.bump i.1 i.2) := by
  cases op with
  | schedSwitch e =>
    simp only [Kernel.step, Kernel.handleSchedSwitch, timeIncrement, hwIncrement, netIncrement]
    refine ⟨?_, ?_, rfl⟩ <;> split <;> rfl
  | cpuFrequency e => exact ⟨rfl, rfl, rfl⟩
  | tcpSendmsg pid arg =>
    cases arg with
    | none => exact ⟨rfl, rfl, rfl⟩
    | some size =>
      simp only [Kernel.step, Kernel.tcpSendmsg, timeIncrement, hwIncrement, netIncrement]
      split <;> exact ⟨rfl, rfl, rfl⟩
  | tcpRecvmsg pid ret =>
    cases ret with
    | none => exact ⟨rfl, rfl, rfl⟩
    | some r =>
      simp only [Kernel.step, Kernel.tcpRecvmsg, timeIncrement, hwIncrement, netIncrement]
      split <;> exact ⟨rfl, rfl, rfl⟩
  | enablePmc => exact ⟨rfl, rfl, rfl⟩

/-! ## Handlers and drains -/

structure Sys (caps : Caps) where
  kernel : Kernel caps := {}
  time : St PidCpuKey Nat caps.pidCpu := {}
  net : St Nat PidNetBytes caps.pidNet := {}
  hw : St PidCpuKey PidCpuCounters caps.pidHwCounter := {}

inductive DrainStep (κ : Type) where
  | read (k : κ)
  | remove

def DrainStep.toStep {κ : Type} (ν : Type) : DrainStep κ → Step κ ν
  | .read k => .read k
  | .remove => .remove

inductive SysStep where
  | op (op : Op)
  | time (d : DrainStep PidCpuKey)
  | net (d : DrainStep Nat)
  | hw (d : DrainStep PidCpuKey)

def Sys.step? (s : Sys caps) : SysStep → Option (Sys caps)
  | .op op => some
      { kernel := s.kernel.step op
        time := (timeIncrement s.kernel op).elim s.time fun i => s.time.add i.1 i.2
        net := (netIncrement op).elim s.net fun i => s.net.add i.1 i.2
        hw := (hwIncrement s.kernel op).elim s.hw fun i => s.hw.add i.1 i.2 }
  | .time d => (Drain.step? s.time (d.toStep _)).map fun t =>
      { s with time := t, kernel := { s.kernel with pidCpuTime := t.map } }
  | .net d => (Drain.step? s.net (d.toStep _)).map fun t =>
      { s with net := t, kernel := { s.kernel with pidNetBytes := t.map } }
  | .hw d => (Drain.step? s.hw (d.toStep _)).map fun t =>
      { s with hw := t, kernel := { s.kernel with pidHwCounters := t.map } }

def Sys.run? (caps : Caps) (steps : List SysStep) : Option (Sys caps) := steps.foldlM Sys.step? {}

theorem Sys.run?_concat {steps : List SysStep} {a : SysStep} {s' : Sys caps} :
    Sys.run? caps (steps ++ [a]) = some s' ↔ ∃ s, Sys.run? caps steps = some s ∧ s.step? a = some s' := by
  simp [Sys.run?, List.foldlM_append, Option.bind_eq_some_iff]

/-- The maps the handlers write are the ones being drained. -/
structure Sys.Synced (s : Sys caps) : Prop where
  time : s.kernel.pidCpuTime = s.time.map
  net : s.kernel.pidNetBytes = s.net.map
  hw : s.kernel.pidHwCounters = s.hw.map

theorem Sys.synced_step {s s' : Sys caps} {a : SysStep} (hs : s.Synced) (h : s.step? a = some s') : s'.Synced := by
  cases a with
  | op op =>
    obtain rfl := Option.some.inj h
    obtain ⟨ht, hh, hn⟩ := step_increments s.kernel op
    refine ⟨?_, ?_, ?_⟩
    · rw [ht, hs.time]; cases timeIncrement s.kernel op <;> rfl
    · rw [hn, hs.net]; cases netIncrement op <;> rfl
    · rw [hh, hs.hw]; cases hwIncrement s.kernel op <;> rfl
  | time d => obtain ⟨t, -, rfl⟩ := Option.map_eq_some_iff.1 h; exact ⟨rfl, hs.net, hs.hw⟩
  | net d => obtain ⟨t, -, rfl⟩ := Option.map_eq_some_iff.1 h; exact ⟨hs.time, rfl, hs.hw⟩
  | hw d => obtain ⟨t, -, rfl⟩ := Option.map_eq_some_iff.1 h; exact ⟨hs.time, hs.net, rfl⟩

theorem Sys.synced_run {steps : List SysStep} {s : Sys caps} (h : Sys.run? caps steps = some s) : s.Synced := by
  induction steps using List.reverseRecOn generalizing s with
  | nil =>
    obtain rfl := Option.some.inj h
    exact ⟨rfl, rfl, rfl⟩
  | append_singleton steps a ih =>
    obtain ⟨s₀, h₀, hs⟩ := Sys.run?_concat.1 h
    exact Sys.synced_step (ih h₀) hs

/-! ## One map's view of a run -/

/-- A map under drain, and what each step of the system is to it. -/
structure View (caps : Caps) (κ ν : Type) [DecidableEq κ] [Add ν] (cap : Nat) where
  st : Sys caps → St κ ν cap
  proj : Sys caps → SysStep → Option (Step κ ν)
  st_init : st {} = {}
  st_step : ∀ {s s' a}, s.step? a = some s' →
    (proj s a = none ∧ st s' = st s) ∨ ∃ b, proj s a = some b ∧ Drain.step? (st s) b = some (st s')

/-- An optional increment is no step, or an addition. -/
theorem add_or_same {κ ν : Type} [DecidableEq κ] [Add ν] {cap : Nat} (i : Option (κ × ν)) (t : St κ ν cap) :
    (i.map (fun i => Step.add i.1 i.2) = none ∧ i.elim t (fun i => t.add i.1 i.2) = t) ∨
      ∃ b, i.map (fun i => Step.add i.1 i.2) = some b ∧
        Drain.step? t b = some (i.elim t fun i => t.add i.1 i.2) := by
  cases i with
  | none => exact .inl ⟨rfl, rfl⟩
  | some i => exact .inr ⟨_, rfl, rfl⟩

variable (caps) in
def timeView : View caps PidCpuKey Nat caps.pidCpu where
  st := Sys.time
  proj s
    | .op op => (timeIncrement s.kernel op).map fun i => .add i.1 i.2
    | .time d => some (d.toStep _)
    | _ => none
  st_init := rfl
  st_step := by
    intro s s' a h
    cases a with
    | op op =>
      obtain rfl := Option.some.inj h
      exact add_or_same (timeIncrement s.kernel op) _
    | time d => obtain ⟨t, ht, rfl⟩ := Option.map_eq_some_iff.1 h; exact .inr ⟨_, rfl, ht⟩
    | net d => obtain ⟨t, -, rfl⟩ := Option.map_eq_some_iff.1 h; exact .inl ⟨rfl, rfl⟩
    | hw d => obtain ⟨t, -, rfl⟩ := Option.map_eq_some_iff.1 h; exact .inl ⟨rfl, rfl⟩

variable (caps) in
def netView : View caps Nat PidNetBytes caps.pidNet where
  st := Sys.net
  proj _
    | .op op => (netIncrement op).map fun i => .add i.1 i.2
    | .net d => some (d.toStep _)
    | _ => none
  st_init := rfl
  st_step := by
    intro s s' a h
    cases a with
    | op op =>
      obtain rfl := Option.some.inj h
      exact add_or_same (netIncrement op) _
    | time d => obtain ⟨t, -, rfl⟩ := Option.map_eq_some_iff.1 h; exact .inl ⟨rfl, rfl⟩
    | net d => obtain ⟨t, ht, rfl⟩ := Option.map_eq_some_iff.1 h; exact .inr ⟨_, rfl, ht⟩
    | hw d => obtain ⟨t, -, rfl⟩ := Option.map_eq_some_iff.1 h; exact .inl ⟨rfl, rfl⟩

variable (caps) in
def hwView : View caps PidCpuKey PidCpuCounters caps.pidHwCounter where
  st := Sys.hw
  proj s
    | .op op => (hwIncrement s.kernel op).map fun i => .add i.1 i.2
    | .hw d => some (d.toStep _)
    | _ => none
  st_init := rfl
  st_step := by
    intro s s' a h
    cases a with
    | op op =>
      obtain rfl := Option.some.inj h
      exact add_or_same (hwIncrement s.kernel op) _
    | time d => obtain ⟨t, -, rfl⟩ := Option.map_eq_some_iff.1 h; exact .inl ⟨rfl, rfl⟩
    | net d => obtain ⟨t, -, rfl⟩ := Option.map_eq_some_iff.1 h; exact .inl ⟨rfl, rfl⟩
    | hw d => obtain ⟨t, ht, rfl⟩ := Option.map_eq_some_iff.1 h; exact .inr ⟨_, rfl, ht⟩

namespace View
variable {κ ν : Type} [DecidableEq κ] [Add ν] {cap : Nat} (V : View caps κ ν cap)

/-- In this run, a handler adds `d` to `k` while a drain has read `k` and not
yet removed it. -/
def Late (steps : List SysStep) (k : κ) (d : ν) : Prop :=
  ∃ pre post a, ∃ s : Sys caps, steps = pre ++ a :: post ∧ Sys.run? caps pre = some s ∧
    V.proj s a = some (.add k d) ∧ k ∈ (V.st s).toDelete

theorem late_concat {steps : List SysStep} {a : SysStep} {k : κ} {d : ν} {s : Sys caps}
    (h : Sys.run? caps steps = some s) :
    V.Late (steps ++ [a]) k d ↔ V.Late steps k d ∨ (V.proj s a = some (.add k d) ∧ k ∈ (V.st s).toDelete) := by
  constructor
  · rintro ⟨pre, post, b, s₀, he, hr, hp, hk⟩
    rcases Trace.concat_eq_split he with ⟨-, rfl, rfl⟩ | ⟨post', -, hl⟩
    · rw [h] at hr
      obtain rfl := Option.some.inj hr
      exact .inr ⟨hp, hk⟩
    · exact .inl ⟨pre, post', b, s₀, hl, hr, hp, hk⟩
  · rintro (⟨pre, post, b, s₀, rfl, hr, hp, hk⟩ | ⟨hp, hk⟩)
    · exact ⟨pre, post ++ [a], b, s₀, by simp, hr, hp, hk⟩
    · exact ⟨steps, [], a, s, rfl, h, hp, hk⟩

/-- What the map sees of a run is a run of the drain machine, with the same
late additions. -/
theorem run_drain {steps : List SysStep} {s : Sys caps} (h : Sys.run? caps steps = some s) :
    ∃ ts, Drain.run? ts = some (V.st s) ∧ ∀ k d, Exposes cap ts k d ↔ V.Late steps k d := by
  induction steps using List.reverseRecOn generalizing s with
  | nil =>
    obtain rfl := Option.some.inj h
    exact ⟨[], congrArg some V.st_init.symm, fun k d => by simp [Exposes, Late]⟩
  | append_singleton steps a ih =>
    obtain ⟨s₀, h₀, hs⟩ := Sys.run?_concat.1 h
    obtain ⟨ts, hts, hex⟩ := ih h₀
    rcases V.st_step hs with ⟨hp, hst⟩ | ⟨b, hp, hst⟩
    · refine ⟨ts, by rw [hts, hst], fun k d => ?_⟩
      rw [hex, V.late_concat h₀, hp]
      simp
    · refine ⟨ts ++ [b], Drain.run?_concat.2 ⟨_, hts, hst⟩, fun k d => ?_⟩
      rw [exposes_concat hts, hex, V.late_concat h₀, hp, Option.some_inj]

theorem conserved_iff {w : ν → Nat} (hw : ∀ v d, w (v + d) = w v + w d) {steps : List SysStep} {s : Sys caps}
    (h : Sys.run? caps steps = some s) (hidle : (V.st s).toDelete = []) :
    (∀ k, sumAt w k (V.st s).drained + left w (V.st s) k = sumAt w k (V.st s).added) ↔
      ∀ k d, V.Late steps k d → w d = 0 := by
  obtain ⟨ts, hts, hex⟩ := V.run_drain h
  rw [Drain.conserved_iff hw hts hidle]
  simp only [hex]

end View

/-! ## Conservation -/

/-- At every key and in every field, what was drained from a map and what the
kernel still holds there make up all that was added. -/
def Conserved {κ ν : Type} [DecidableEq κ] {cap : Nat} (fields : List (ν → Nat)) (t : St κ ν cap)
    (m : BpfMap κ ν cap) : Prop :=
  ∀ w ∈ fields, ∀ k, sumAt w k t.drained + (m.lookup k).elim 0 w = sumAt w k t.added

def netFields : List (PidNetBytes → Nat) := [PidNetBytes.txBytes, PidNetBytes.rxBytes]

def hwFields : List (PidCpuCounters → Nat) :=
  [PidCpuCounters.instructions, PidCpuCounters.cycles, PidCpuCounters.cacheMisses]

theorem View.conserved_fields_iff {κ ν : Type} [DecidableEq κ] [Add ν] {cap : Nat} (V : View caps κ ν cap)
    (fields : List (ν → Nat)) (hadd : ∀ w ∈ fields, ∀ v d, w (v + d) = w v + w d) {steps : List SysStep}
    {s : Sys caps} (h : Sys.run? caps steps = some s) (hidle : (V.st s).toDelete = []) {m : BpfMap κ ν cap}
    (hm : m = (V.st s).map) :
    Conserved fields (V.st s) m ↔ ∀ k d, V.Late steps k d → ∀ w ∈ fields, w d = 0 := by
  subst hm
  constructor
  · intro hc k d hl w hw
    exact (V.conserved_iff (hadd w hw) h hidle).1 (hc w hw) k d hl
  · intro hz w hw
    exact (V.conserved_iff (hadd w hw) h hidle).2 fun k d hl => hz k d hl w hw

/-- For every interleaving of handlers with the reads and removals of any
number of drains, between drains: the three maps conserve what was added to
them exactly if no handler adds anything to a key that a drain has read and not
yet removed. -/
theorem drains_conserve_iff (steps : List SysStep) (s : Sys caps) (h : Sys.run? caps steps = some s)
    (hidle : s.time.toDelete = [] ∧ s.net.toDelete = [] ∧ s.hw.toDelete = []) :
    (Conserved [id] s.time s.kernel.pidCpuTime ∧ Conserved netFields s.net s.kernel.pidNetBytes ∧
      Conserved hwFields s.hw s.kernel.pidHwCounters) ↔
    ((∀ k d, (timeView caps).Late steps k d → d = 0) ∧
      (∀ pid d, (netView caps).Late steps pid d → ∀ w ∈ netFields, w d = 0) ∧
      (∀ k d, (hwView caps).Late steps k d → ∀ w ∈ hwFields, w d = 0)) := by
  have hsync := Sys.synced_run h
  have hnet : ∀ w ∈ netFields, ∀ v d : PidNetBytes, w (v + d) = w v + w d := by
    intro w hw v d
    simp only [netFields, List.mem_cons, List.not_mem_nil, or_false] at hw
    rcases hw with rfl | rfl <;> rfl
  have hhw : ∀ w ∈ hwFields, ∀ v d : PidCpuCounters, w (v + d) = w v + w d := by
    intro w hw v d
    simp only [hwFields, List.mem_cons, List.not_mem_nil, or_false] at hw
    rcases hw with rfl | rfl | rfl <;> rfl
  have ht := (timeView caps).conserved_fields_iff [id] (by simp) h hidle.1 hsync.time
  refine and_congr (ht.trans ?_) (and_congr ?_ ?_)
  · simp
  · exact (netView caps).conserved_fields_iff _ hnet h hidle.2.1 hsync.net
  · exact (hwView caps).conserved_fields_iff _ hhw h hidle.2.2 hsync.hw

/-- Process 7 runs on CPU 0 from 10 to 30. -/
def ranOnce : List SysStep :=
  [.op (.schedSwitch ⟨0, 10, 0, 7, 0, {}, {}⟩), .op (.schedSwitch ⟨0, 30, 7, 8, 0, {}, {}⟩)]

/-- A drain while nothing happens. -/
def quietDrain : List SysStep := ranOnce ++ [.time (.read ⟨0, 7⟩), .time .remove]

theorem quietDrain_conserve_iff : ∃ s, Sys.run? {} quietDrain = some s ∧ sumAt id ⟨0, 7⟩ s.time.drained = 20 ∧
    ((Conserved [id] s.time s.kernel.pidCpuTime ∧ Conserved netFields s.net s.kernel.pidNetBytes ∧
      Conserved hwFields s.hw s.kernel.pidHwCounters) ↔
    ((∀ k d, (timeView {}).Late quietDrain k d → d = 0) ∧
      (∀ pid d, (netView {}).Late quietDrain pid d → ∀ w ∈ netFields, w d = 0) ∧
      (∀ k d, (hwView {}).Late quietDrain k d → ∀ w ∈ hwFields, w d = 0))) :=
  ⟨_, rfl, by decide, drains_conserve_iff quietDrain _ rfl ⟨by decide, by decide, by decide⟩⟩

/-- A drain during which process 7 runs again, from 31 to 40. -/
def racedDrain : List SysStep :=
  ranOnce ++ [.time (.read ⟨0, 7⟩), .op (.schedSwitch ⟨0, 31, 8, 7, 0, {}, {}⟩),
    .op (.schedSwitch ⟨0, 40, 7, 8, 0, {}, {}⟩), .time .remove]

/-- The 9 ns added between the read and the removal are gone. -/
theorem racedDrain_loses : ∃ s, Sys.run? {} racedDrain = some s ∧
    (s.time.toDelete = [] ∧ s.net.toDelete = [] ∧ s.hw.toDelete = []) ∧
    sumAt id ⟨0, 7⟩ s.time.drained = 20 ∧ s.kernel.pidCpuTime.lookup ⟨0, 7⟩ = none ∧
    sumAt id ⟨0, 7⟩ s.time.added = 29 :=
  ⟨_, rfl, ⟨by decide, by decide, by decide⟩, by decide, by decide, by decide⟩

end Keck.Ebpf
