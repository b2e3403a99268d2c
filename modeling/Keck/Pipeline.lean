import Keck.Agent.GpuPods
import Keck.Agent.Loop
import Keck.Agent.Selection
import Keck.Controller.Concurrent
import Keck.Controller.Snapshots
/-!
# From the agents' sensors to the controller's views

What `keck-agent/src/main.rs` makes of a tick is a report; what
`keck-controller` makes of the reports of all agents, in whatever order they
come in, is a set of views. Here the two models are put together, with the
report as the controller reads it.

`fleet_views_within`: if no tick of any agent mixes its two attributions in a
way that spends more than the node has, no view ever shows pods that use more
CPU or memory power than their nodes, whatever else the server is doing.
-/
namespace Keck.Pipeline

open Keck.Lib Keck.Agent Keck.Controller Effects

/-! ## The agent's report -/

/-- An agent as it is started. -/
structure AgentSetup where
  cfg : LoopConfig
  alpha_nonneg : 0 ≤ cfg.alpha
  beta_nonneg : 0 ≤ cfg.beta
  /-- `KECK_AUTO_TUNE` and the tuner's learning rate. -/
  autoTune : Bool := false
  rate : Option ℚ := none
  /-- Nanoseconds between ticks. -/
  intervalNs : Nat
  /-- The sources as they are read before the first tick. -/
  initial : List Source

/-- What a tick reads. -/
structure Reads where
  sources : List Source
  counters : List CoreCounterDeltas := []
  podCache : Table String PodIdentity := ∅
  snapshot : Option EbpfSnapshot := none
  entries : Option (List ProcEntry)
  procNames : Option (List String) := none
  /-- The DCGM exporter's answer, if it gives one. -/
  dcgm : Option (List Char) := none
  /-- `count_processes`. -/
  processCount : Nat := 0
  /-- The clock when the node's and each pod's part of the report are made. -/
  nodeStamp : Int := 0
  podStamp : String → Int := fun _ => 0

/-- `cpu_type`. -/
def cpuType (t : Tick) : String := ((t.best .cpu).map (·.readingType.asStr)).getD "none"

/-- The node's power as it is handed to the attribution. -/
def nodePower (t : Tick) : NodePower where
  cpuUw := t.selected .cpu
  memUw := t.selected .memory
  storageUw := t.selected .storage
  ioUw := t.selected .nic

/-- The tick's reads as the attribution sees them. -/
def Reads.tick (r : Reads) (t : Tick) : TickReads where
  node := nodePower t
  cpuEstimated := cpuType t == "estimated"
  counters := r.counters
  podCache := r.podCache
  snapshot := r.snapshot
  entries := r.entries
  procNames := r.procNames

/-- What an agent keeps between ticks. -/
structure AgentState where
  prevReadings : Table String Nat
  loop : LoopState

namespace AgentSetup
variable (a : AgentSetup)

def start : AgentState where
  prevReadings := initialRead a.initial
  loop := .start a.cfg a.autoTune a.rate

/-- The node's powers in a tick. -/
def hardware (st : AgentState) (r : Reads) : Tick := readSources a.intervalNs st.prevReadings r.sources

def next (st : AgentState) (r : Reads) : AgentState where
  prevReadings := (a.hardware st r).prevReadings
  loop := tickWith cleanupStalePids a.cfg st.loop (r.tick (a.hardware st r))

def after (rs : List Reads) : AgentState := rs.foldl a.next a.start

/-- The input of the attribution in the tick that follows others. -/
def input (before : List Reads) (r : Reads) : TickInput :=
  tickInput a.cfg (a.after before).loop (r.tick (a.hardware (a.after before) r))

/-- The pods of the tick's report. -/
def pods (before : List Reads) (r : Reads) : List PodPower :=
  let t := a.hardware (a.after before) r
  let pods := (a.input before r).reportPods (nodePower t)
  if t.selected .gpu > 0 then
    r.dcgm.elim pods (addGpuPowerToPods a.cfg.nodeName r.podCache pods)
  else pods

end AgentSetup

/-! ## On the wire

Both sides name the fields alike. The agent does not send `metering_method`. -/

def wirePod (stamp : Int) (p : PodPower) : PodPowerReport where
  nodeName := p.nodeName
  podUid := p.podUid
  podName := p.podName
  ns := p.ns
  cpuUw := p.cpuUw
  memoryUw := p.memoryUw
  gpuUw := p.gpuUw
  storageUw := p.storageUw
  ioUw := p.ioUw
  totalUw := p.totalUw
  timestamp := stamp
  workloadUid := p.workloadUid
  workloadName := p.workloadName
  workloadKind := p.workloadKind
  workloadCategory := p.workloadCategory
  labels := p.labels

def wireSource (s : Agent.SourceStatus) : Controller.SourceStatus where
  name := s.name
  nodeName := s.nodeName
  component := s.component
  readingType := s.readingType
  available := s.available
  selected := s.selected
  powerUw := s.powerUw

/-- The report of the tick that follows others, as the controller reads it. -/
def AgentSetup.report (a : AgentSetup) (before : List Reads) (r : Reads) : AgentReport :=
  let t := a.hardware (a.after before) r
  { node :=
      { nodeName := a.cfg.nodeName
        cpuUw := t.selected .cpu
        memoryUw := t.selected .memory
        gpuUw := t.selected .gpu
        platformUw := t.platformReading.map (·.powerUw)
        psuOutputUw := t.psuOutputUw
        idleUw := t.idleUw
        errorRatio := t.errorRatio
        podCount := (a.pods before r).length % 2 ^ 32
        processCount := r.processCount
        timestamp := r.nodeStamp
        cpuSource := t.sourceName .cpu
        memorySource := t.sourceName .memory
        cpuReadingType := cpuType t
        sources := (t.sourcesStatus a.cfg.nodeName).map wireSource }
    pods := (a.pods before r).map fun p => wirePod (r.podStamp p.podUid) p }

/-! ## What every report keeps -/

/-- GPU lines add no CPU or memory power and put no pod on another node. -/
theorem addLine_keeps {nodeName : String} (podCache : Table String PodIdentity) {pods : List PodPower}
    (hnode : ∀ p ∈ pods, p.nodeName = nodeName) (l : GpuLine) :
    (∀ p ∈ addLine PodPower.addGpu nodeName podCache pods l, p.nodeName = nodeName) ∧
    ((addLine PodPower.addGpu nodeName podCache pods l).map (·.cpuUw)).sum = (pods.map (·.cpuUw)).sum ∧
    ((addLine PodPower.addGpu nodeName podCache pods l).map (·.memoryUw)).sum = (pods.map (·.memoryUw)).sum := by
  rcases addLine_cases PodPower.addGpu nodeName podCache pods l with
    ⟨p, front, back, rfl, -, hadd⟩ | ⟨-, uid, identity, -, -, hadd⟩ | ⟨-, hadd⟩
  · rw [hadd]
    refine ⟨?_, by simp [PodPower.addGpu], by simp [PodPower.addGpu]⟩
    intro q hq
    rcases List.mem_append.1 hq with hq | hq
    · exact hnode q (List.mem_append_left _ hq)
    · rcases List.mem_cons.1 hq with rfl | hq
      · exact hnode p (by simp)
      · exact hnode q (by simp [hq])
  · rw [hadd]
    refine ⟨?_, by simp [gpuPod], by simp [gpuPod]⟩
    intro q hq
    rcases List.mem_append.1 hq with hq | hq
    · exact hnode q hq
    · rw [List.mem_singleton.1 hq]
      rfl
  · rw [hadd]
    exact ⟨hnode, rfl, rfl⟩

theorem addLines_keep {nodeName : String} (podCache : Table String PodIdentity) (ls : List GpuLine)
    {pods : List PodPower} (hnode : ∀ p ∈ pods, p.nodeName = nodeName) :
    (∀ p ∈ ls.foldl (addLine PodPower.addGpu nodeName podCache) pods, p.nodeName = nodeName) ∧
    ((ls.foldl (addLine PodPower.addGpu nodeName podCache) pods).map (·.cpuUw)).sum = (pods.map (·.cpuUw)).sum ∧
    ((ls.foldl (addLine PodPower.addGpu nodeName podCache) pods).map (·.memoryUw)).sum =
      (pods.map (·.memoryUw)).sum := by
  induction ls generalizing pods with
  | nil => exact ⟨hnode, rfl, rfl⟩
  | cons l ls ih =>
    obtain ⟨hnode', hcpu, hmem⟩ := addLine_keeps podCache hnode l
    obtain ⟨hnodes, hcpus, hmems⟩ := ih hnode'
    exact ⟨hnodes, hcpus.trans hcpu, hmems.trans hmem⟩

namespace AgentSetup
variable (a : AgentSetup) (before : List Reads) (r : Reads)

theorem pods_keep :
    (∀ p ∈ a.pods before r, p.nodeName = a.cfg.nodeName) ∧
    ((a.pods before r).map (·.cpuUw)).sum =
      (((a.input before r).reportPods (nodePower (a.hardware (a.after before) r))).map (·.cpuUw)).sum ∧
    ((a.pods before r).map (·.memoryUw)).sum =
      (((a.input before r).reportPods (nodePower (a.hardware (a.after before) r))).map (·.memoryUw)).sum := by
  have hnode : ∀ p ∈ (a.input before r).reportPods (nodePower (a.hardware (a.after before) r)),
      p.nodeName = a.cfg.nodeName := by
    intro p hp
    obtain ⟨uid, cpu, mem, storage, io, rfl⟩ := mem_reportPods hp
    rfl
  unfold pods
  dsimp only
  split
  · cases r.dcgm with
    | none => exact ⟨hnode, rfl, rfl⟩
    | some body => exact addLines_keep r.podCache (gpuLines a.cfg.nodeName body) hnode
  · exact ⟨hnode, rfl, rfl⟩

theorem agrees_report : Agrees (a.report before r) := by
  intro uid v hv
  obtain ⟨p, hp, rfl⟩ := List.mem_map.1 (lastPod_some hv).1
  exact ⟨(a.pods_keep before r).1 p hp, .inl rfl⟩

/-- The attribution's state goes through the ticks as in the loop alone. -/
theorem loop_after :
    ∃ rs, (a.after before).loop = afterTicks cleanupStalePids a.cfg (.start a.cfg a.autoTune a.rate) rs := by
  induction before using List.reverseRecOn with
  | nil => exact ⟨[], rfl⟩
  | append_singleton before r ih =>
    obtain ⟨rs, hrs⟩ := ih
    refine ⟨rs ++ [r.tick (a.hardware (a.after before) r)], ?_⟩
    rw [afterTicks_concat, ← hrs]
    simp [after, next]

/-- A balanced tick makes a report within its node's power. -/
theorem within_report (h : (a.input before r).Balanced) : (a.report before r).Within := by
  obtain ⟨rs, hrs⟩ := a.loop_after before
  have hcoefficients : 0 ≤ (a.input before r).α ∧ 0 ≤ (a.input before r).β := by
    rw [input, hrs]
    exact coefficients_nonneg a.cfg a.alpha_nonneg a.beta_nonneg a.autoTune a.rate rs _
  obtain ⟨hcpu, hmem⟩ := conserves_of_balanced hcoefficients.1 hcoefficients.2 h
    (nodePower (a.hardware (a.after before) r))
  obtain ⟨-, hcpus, hmems⟩ := a.pods_keep before r
  rw [← hcpus] at hcpu
  rw [← hmems] at hmem
  constructor
  · simpa [report, Function.comp_def, wirePod, nodePower] using hcpu
  · simpa [report, Function.comp_def, wirePod, nodePower] using hmem

end AgentSetup

/-! ## All agents and the server -/

/-- What is scraped from Kepler agrees with itself too. -/
theorem agrees_of_mem_keplerReports {w : World} {body : String} {r : AgentReport}
    (h : r ∈ Concurrent.keplerReports w body) : Agrees r := by
  obtain ⟨e, he, rfl⟩ := List.mem_map.1 h
  intro uid v hv
  obtain ⟨key, accum, -, hnode, rfl⟩ := pod_of_scraped he (lastPod_some hv).1
  exact ⟨hnode, .inr rfl⟩

/-- The request, if it is a report, is the one of a balanced tick of an agent. -/
def FromAgent {A : Type} (agents : A → AgentSetup) (request : Concurrent.Request) : Prop :=
  ∀ authorization body, request = .report authorization body →
    ∃ x before r, body = (agents x).report before r ∧ ((agents x).input before r).Balanced

section Server
variable {ι A : Type} [DecidableEq ι] {agents : A → AgentSetup} {apiKey : Option String}
  {req : ι → Concurrent.Request} {clock : Int} (hreq : ∀ i, FromAgent agents (req i))
include hreq

/-- Every report that gets to the aggregator agrees with itself and, if it is
not Kepler's, is within its node's power. -/
theorem report_of_lockOrder {schedule : List (ι × Concurrent.Moment)} {t w : Int} {r : AgentReport}
    (h : Event.ingest t w r ∈ (Concurrent.lockOrder apiKey req clock schedule).map (·.2)) :
    Agrees r ∧ (r.method = "keck" → r.Within) := by
  rcases Concurrent.origin_of_report h with ⟨w, body, hr⟩ | ⟨i, authorization, hi, -, -⟩
  · refine ⟨agrees_of_mem_keplerReports hr, fun hm => ?_⟩
    rw [Concurrent.method_of_mem_keplerReports hr] at hm
    exact absurd hm (by decide)
  · obtain ⟨x, before, r', rfl, hbalanced⟩ := hreq i authorization r hi
    exact ⟨(agents x).agrees_report before r', fun _ => (agents x).within_report before r' hbalanced⟩

/-- So are the views of every point of the lock order. -/
theorem viewsWithin_of_lockOrder {schedule : List (ι × Concurrent.Moment)} {seen : List (ι × Event)}
    (h : seen <+: Concurrent.lockOrder apiKey req clock schedule) :
    ViewsWithin (ClusterAggregator.run (seen.map (·.2))) none := by
  have hmem : ∀ {e}, e ∈ seen.map (·.2) → e ∈ (Concurrent.lockOrder apiKey req clock schedule).map (·.2) :=
    fun he => (h.map _).subset he
  exact viewsWithin_run (fun t w r hr => (report_of_lockOrder hreq (hmem hr)).1) none
    fun t w r hr hm => (report_of_lockOrder hreq (hmem hr)).2 hm

end Server

/-- An agent with one energy counter. -/
def oneCounter : AgentSetup where
  cfg := { nodeName := "node-1" }
  alpha_nonneg := by norm_num
  beta_nonneg := by norm_num
  intervalNs := 1000000000
  initial := [⟨"rapl:package:0", "RAPL package 0", .cpu, .socket 0, .estimated, .ok ⟨.estimated, some 10, none, 1000⟩⟩]

/-- A second later it is 40 microjoules on. -/
def secondLater : Reads where
  sources := [⟨"rapl:package:0", "RAPL package 0", .cpu, .socket 0, .estimated, .ok ⟨.estimated, some 50, none, 1000⟩⟩]
  entries := steadyTick.entries

/-- The report of that tick, and a view. -/
def reportAndView : Bool → Concurrent.Request
  | true => .report none (oneCounter.report [] secondLater)
  | false => .view

end Keck.Pipeline
