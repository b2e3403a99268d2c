import Keck.Lib.Groups
import Keck.Agent.Procfs
/-!
# Attributing node power to pods

`enumerate_pods` splits the node's power by what /proc says of each process,
`enumerate_pods_ebpf_weighted` by what the eBPF snapshot says, and the merge in
the collection loop overrides the former's CPU and memory power by the latter's
for the pods it knows (`keck-agent/src/main.rs`). `f64` is ℚ and `as u64` the
floor.
-/
namespace Keck.Agent

open Keck.Lib Keck.Lib.Text

/-! ## Inputs -/

/-- A core's counter deltas. Instructions are not used here. -/
structure CoreCounterDeltas where
  coreId : Nat
  cycles : Nat
  cacheMisses : Nat

inductive WorkloadCategory where
  | platform
  | operator
  | application

def WorkloadCategory.asStr : WorkloadCategory → String
  | .platform => "platform"
  | .operator => "operator"
  | .application => "application"

structure PodIdentity where
  name : String
  ns : String
  workloadUid : String
  workloadName : String
  workloadKind : String
  workloadCategory : WorkloadCategory
  labels : Table String String

/-- An entry of `pid_cpu_times`, with what reading the process's cgroup file at
that point gives. -/
structure TimeEntry where
  cpu : Nat
  pid : Nat
  timeNs : Nat
  cgroup : Option String

structure EbpfSnapshot where
  pidCpuTimes : List TimeEntry := []
  /-- (cpu, frequency in kHz, nanoseconds). -/
  cpuFreqTimes : List (Nat × Nat × Nat) := []
  pidNetBytes : Table Nat (Nat × Nat) := ∅
  /-- (cpu, pid) to (instructions, cycles, cache misses). -/
  pidHwCounters : Table (Nat × Nat) (Nat × Nat × Nat) := ∅
  /-- What reading a process's `smaps_rollup` gives. -/
  smaps : Nat → Option String := fun _ => none

/-- A pod of the agent's report; the timestamp is left out. -/
structure PodPower where
  nodeName : String
  podUid : String
  podName : String
  ns : String
  cpuUw : Nat
  memoryUw : Nat
  gpuUw : Nat := 0
  storageUw : Nat := 0
  ioUw : Nat := 0
  totalUw : Nat
  workloadUid : String
  workloadName : String
  workloadKind : String
  workloadCategory : String
  labels : Table String String

def PodPower.recalculateTotal (p : PodPower) : PodPower :=
  { p with totalUw := p.cpuUw + p.memoryUw + p.gpuUw + p.storageUw + p.ioUw }

/-- A report's pod, with its names from the cache or the defaults. -/
def podReport (nodeName : String) (podCache : Table String PodIdentity) (uid : String)
    (cpu mem storage io : Nat) : PodPower :=
  let identity := podCache.lookup uid
  { nodeName := nodeName
    podUid := uid
    podName := (identity.map (·.name)).getD uid
    ns := (identity.map (·.ns)).getD "unknown"
    cpuUw := cpu
    memoryUw := mem
    storageUw := storage
    ioUw := io
    totalUw := cpu + mem + storage + io
    workloadUid := (identity.map (·.workloadUid)).getD ""
    workloadName := (identity.map (·.workloadName)).getD ""
    workloadKind := (identity.map (·.workloadKind)).getD ""
    workloadCategory := (identity.map (·.workloadCategory.asStr)).getD "application"
    labels := (identity.map (·.labels)).getD ∅ }

/-- `a / b`, or zero where there is nothing to divide by. -/
def ratio (a b : ℚ) : ℚ := if b > 0 then a / b else 0

/-- `(total as f64 * share) as u64`. -/
def portion (total : Nat) (share : ℚ) : Nat := ⌊(total : ℚ) * share⌋₊

/-! ## From /proc -/

structure ProcessMetrics where
  podUid : String
  cpuTicks : Nat
  pssKb : Nat
  pgfaults : Nat
  ioBytes : Nat
  netBytes : Nat

/-- What the agent keeps between ticks, and the sums of the scan so far. -/
structure Scan where
  prevCpuTicks : Table Nat Nat := ∅
  prevPageFaults : Table Nat (Nat × Nat) := ∅
  prevIoBytes : Table Nat Nat := ∅
  pssCache : Table Nat Nat := ∅
  totalCpuTicks : Nat := 0
  totalPss : Nat := 0
  totalPgfaults : Nat := 0
  totalIoBytes : Nat := 0
  processMetrics : List ProcessMetrics := []

/-- PSS, or the resident pages in kilobytes. -/
def freshPss (e : ProcEntry) : Nat := (readPssKb e.smapsRollup).getD ((readRssPages e.statm).getD 0 * 4)

/-- One round of the scan. -/
def scanEntry (refreshPss : Bool) (pidNetBytes : Table Nat (Nat × Nat)) (s : Scan) (e : ProcEntry) : Scan :=
  if !e.name.toList.all Char.isDigit || !isLeader e then s
  else
    match readProcStat e.stat with
    | none => s
    | some stat =>
      let pid := (parseUnsigned 32 e.name.toList).getD 0
      let cpuDelta := stat.cpuTicks - (s.prevCpuTicks.lookup pid).getD stat.cpuTicks
      let prevFaults := (s.prevPageFaults.lookup pid).getD (stat.minflt, stat.majflt)
      let pgfaults := (stat.minflt - prevFaults.1) + (stat.majflt - prevFaults.2) * 10
      let pss := if refreshPss then freshPss e else (s.pssCache.lookup pid).getD (freshPss e)
      let currentIo := (readIoBytes e.io).getD 0
      let ioDelta := currentIo - (s.prevIoBytes.lookup pid).getD currentIo
      { prevCpuTicks := s.prevCpuTicks.insert pid stat.cpuTicks
        prevPageFaults := s.prevPageFaults.insert pid (stat.minflt, stat.majflt)
        prevIoBytes := s.prevIoBytes.insert pid currentIo
        pssCache := s.pssCache.insert pid pss
        totalCpuTicks := s.totalCpuTicks + cpuDelta
        totalPss := s.totalPss + pss
        totalPgfaults := s.totalPgfaults + pgfaults
        totalIoBytes := s.totalIoBytes + ioDelta
        processMetrics := s.processMetrics ++
          ((e.cgroup.bind extractPodUid).map fun uid =>
            ⟨uid, cpuDelta, pss, pgfaults, ioDelta, ((pidNetBytes.lookup pid).map fun b => b.1 + b.2).getD 0⟩).toList }

structure PodMetrics where
  podUid : String
  cpuTicks : Nat := 0
  pssKb : Nat := 0
  pgfaults : Nat := 0
  ioBytes : Nat := 0
  netBytes : Nat := 0

def PodMetrics.add (m : PodMetrics) (p : ProcessMetrics) : PodMetrics :=
  { m with
    cpuTicks := m.cpuTicks + p.cpuTicks
    pssKb := m.pssKb + p.pssKb
    pgfaults := m.pgfaults + p.pgfaults
    ioBytes := m.ioBytes + p.ioBytes
    netBytes := m.netBytes + p.netBytes }

/-- The metrics of each pod, by uid. -/
def podMetrics (s : Scan) : Table String PodMetrics :=
  groupFold (·.podUid) (fun p => { podUid := p.podUid }) PodMetrics.add s.processMetrics

def cpuRatio (s : Scan) (m : PodMetrics) : ℚ := ratio m.cpuTicks s.totalCpuTicks

def memRatio (s : Scan) (hasLlc : Bool) (m : PodMetrics) : ℚ :=
  (if hasLlc then 6 / 10 else 1) * ratio m.pssKb s.totalPss + (if hasLlc then 4 / 10 else 0) * cpuRatio s m

/-- The node's powers in a tick. -/
structure NodePower where
  cpuUw : Nat
  memUw : Nat
  storageUw : Nat := 0
  ioUw : Nat := 0

/-- The pods of a scan with their shares of the node's power. -/
def scanPods (nodeName : String) (node : NodePower) (totalLlcMisses : Nat) (podCache : Table String PodIdentity)
    (s : Scan) : List PodPower :=
  let totalNet := (s.processMetrics.map (·.netBytes)).sum
  (podMetrics s).values.map fun m =>
    let netRatio := if totalNet > 0 then (m.netBytes : ℚ) / totalNet else cpuRatio s m
    podReport nodeName podCache m.podUid (portion node.cpuUw (cpuRatio s m))
      (portion node.memUw (memRatio s (decide (totalLlcMisses > 0)) m))
      (portion node.storageUw (ratio m.ioBytes s.totalIoBytes)) (portion node.ioUw netRatio)

/-- Scan /proc, or nothing if it cannot be listed. -/
def scan (before : Scan) (entries : Option (List ProcEntry)) (pidNetBytes : Table Nat (Nat × Nat))
    (tickCount : Nat) : Scan :=
  (entries.getD []).foldl (scanEntry (tickCount % 5 == 0) pidNetBytes)
    { before with totalCpuTicks := 0, totalPss := 0, totalPgfaults := 0, totalIoBytes := 0, processMetrics := [] }

def enumeratePods (nodeName : String) (node : NodePower) (totalLlcMisses : Nat) (podCache : Table String PodIdentity)
    (before : Scan) (entries : Option (List ProcEntry)) (pidNetBytes : Table Nat (Nat × Nat)) (tickCount : Nat) :
    List PodPower :=
  scanPods nodeName node totalLlcMisses podCache (scan before entries pidNetBytes tickCount)

/-! ## From the eBPF snapshot -/

/-- Step 1: how much of the CPU power each core gets, by cycles, else by squared
frequency and time, else by time. -/
def coreWeight (counters : List CoreCounterDeltas) (snapshot : EbpfSnapshot) : Table Nat ℚ :=
  let byCycles : Table Nat ℚ := (counters.filter fun c => decide (c.cycles > 0)).foldl
    (fun m c => m.insert c.coreId (c.cycles : ℚ)) ∅
  let byFreq : Table Nat ℚ := groupFold (·.1) (fun _ => 0)
    (fun w x => w + ((x.2.1 : ℚ) / 1000000) ^ 2 * x.2.2) snapshot.cpuFreqTimes
  let byTime : Table Nat ℚ := groupFold (·.cpu) (fun _ => 0) (fun w x => w + x.timeNs) snapshot.pidCpuTimes
  if !byCycles.entries.isEmpty then byCycles
  else if !byFreq.entries.isEmpty then byFreq
  else byTime

/-- Step 3: the pod of each process, read on the process's first entry that
resolves. -/
def pidPod (entries : List TimeEntry) : Table Nat String :=
  entries.foldl (fun m e =>
    if (m.lookup e.pid).isSome then m
    else ((e.cgroup.bind extractPodUid).map (m.insert e.pid)).getD m) ∅

/-- Step 3: the entries of each core. -/
def corePidTime (entries : List TimeEntry) : Table Nat (List TimeEntry) :=
  groupFold (·.cpu) (fun _ => []) (fun l e => l ++ [e]) entries

/-- Step 4: the weight of a process on a core. -/
def pidWeight (snapshot : EbpfSnapshot) (α β : ℚ) (e : TimeEntry) : ℚ :=
  if snapshot.pidHwCounters.entries.isEmpty then e.timeNs
  else
    let c := (snapshot.pidHwCounters.lookup (e.cpu, e.pid)).getD (0, 0, 0)
    e.timeNs * (1 + α * ratio c.1 c.2.1 + β * ratio c.2.2 c.1)

/-- Step 4: what a core's power gives to each pod. -/
def coreCharges (snapshot : EbpfSnapshot) (α β ce : ℚ) (es : List TimeEntry) : List (String × ℚ) :=
  let total := (es.map (pidWeight snapshot α β)).sum
  if ce ≤ 0 then []
  else if total ≤ 0 then []
  else es.filterMap fun e => ((pidPod snapshot.pidCpuTimes).lookup e.pid).map fun uid =>
    (uid, ce * (pidWeight snapshot α β e / total))

/-- Step 4: the CPU power of each pod. -/
def podCpuUw (totalCpuUw : Nat) (counters : List CoreCounterDeltas) (snapshot : EbpfSnapshot) (α β : ℚ) :
    Table String ℚ :=
  let weights := coreWeight counters snapshot
  let totalWeight := weights.values.sum
  let coreEnergy := fun cpu => ((weights.lookup cpu).map fun w => (totalCpuUw : ℚ) * (w / totalWeight)).getD 0
  groupFold (·.1) (fun _ => 0) (fun p x => p + x.2)
    ((corePidTime snapshot.pidCpuTimes).entries.flatMap fun c => coreCharges snapshot α β (coreEnergy c.1) c.2)

/-- Step 5: the PSS of each pod. -/
def podPss (snapshot : EbpfSnapshot) : Table String Nat :=
  groupFold (·.2) (fun _ => 0) (fun p x => p + (readPssKb (snapshot.smaps x.1)).getD 0)
    (pidPod snapshot.pidCpuTimes).entries

def enumeratePodsEbpfWeighted (nodeName : String) (totalCpuUw totalMemUw totalLlcMisses : Nat)
    (counters : List CoreCounterDeltas) (podCache : Table String PodIdentity) (snapshot : EbpfSnapshot) (α β : ℚ) :
    List PodPower :=
  if (coreWeight counters snapshot).values.sum ≤ 0 then []
  else
    let podCpu := podCpuUw totalCpuUw counters snapshot α β
    let podPss := podPss snapshot
    let totalPss := podPss.values.sum
    let totalPodCpu := podCpu.values.sum
    (podCpu.keys ++ podPss.keys).dedup.map fun uid =>
      let cpu := (podCpu.lookup uid).getD 0
      let pssRatio := ratio ((podPss.lookup uid).getD 0) totalPss
      let llcRatio := ratio cpu totalPodCpu
      let memRatio := if totalLlcMisses > 0 then 6 / 10 * pssRatio + 4 / 10 * llcRatio else pssRatio
      podReport nodeName podCache uid ⌊cpu⌋₊ (portion totalMemUw memRatio) 0 0

/-! ## The merge -/

/-- The pods the report gets: scanned ones, with CPU and memory power overridden
for those the eBPF attribution knows. -/
def mergePods (pods ebpfPods : List PodPower) : List PodPower :=
  let ebpfMap : Table String (Nat × Nat) :=
    ebpfPods.foldl (fun m p => m.insert p.podUid (p.cpuUw, p.memoryUw)) ∅
  pods.map fun pod =>
    match ebpfMap.lookup pod.podUid with
    | some (cpu, mem) => { pod with cpuUw := cpu, memoryUw := mem }.recalculateTotal
    | none => pod

/-- All a tick reads, apart from the node's power. -/
structure TickInput where
  nodeName : String
  /-- The CPU power is an estimate; only then is the merge made. -/
  cpuEstimated : Bool
  counters : List CoreCounterDeltas
  podCache : Table String PodIdentity
  before : Scan
  entries : Option (List ProcEntry)
  snapshot : Option EbpfSnapshot
  tickCount : Nat
  α : ℚ
  β : ℚ

def TickInput.totalLlcMisses (i : TickInput) : Nat := (i.counters.map (·.cacheMisses)).sum

def TickInput.scan (i : TickInput) : Scan :=
  Agent.scan i.before i.entries ((i.snapshot.map (·.pidNetBytes)).getD ∅) i.tickCount

/-- The pods of the tick's report, before GPU power is added. -/
def TickInput.reportPods (i : TickInput) (node : NodePower) : List PodPower :=
  let pods := enumeratePods i.nodeName node i.totalLlcMisses i.podCache i.before i.entries
    ((i.snapshot.map (·.pidNetBytes)).getD ∅) i.tickCount
  match i.snapshot with
  | none => pods
  | some snapshot =>
    if i.cpuEstimated && !snapshot.pidCpuTimes.isEmpty then
      let ebpfPods := enumeratePodsEbpfWeighted i.nodeName node.cpuUw node.memUw i.totalLlcMisses i.counters
        i.podCache snapshot i.α i.β
      if ebpfPods.isEmpty then pods else mergePods pods ebpfPods
    else pods

end Keck.Agent
