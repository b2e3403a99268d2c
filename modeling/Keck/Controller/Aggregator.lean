import Keck.Lib.Table
/-!
# The cluster aggregator

The state the controller keeps and the operations that change it, from
`keck-controller/src/aggregator/mod.rs`. Clocks are inputs: `ingest` takes the
monotonic time it reads (one value for the report and its staleness check) and
the wall-clock time `trim_history` reads. `staleness_threshold` and
`history_retention` are set by `new` and never change, so they are constants.
Times are nanoseconds, powers microwatts, `f64` values rationals.
-/
namespace Keck.Controller

open Keck.Lib

def secs (n : Int) : Int := n * 1000000000

/-- One pod of a report. -/
structure PodPowerReport where
  nodeName : String
  podUid : String
  podName : String
  ns : String
  cpuUw : Nat
  memoryUw : Nat
  gpuUw : Nat
  storageUw : Nat := 0
  ioUw : Nat := 0
  totalUw : Nat
  timestamp : Int
  workloadUid : String := ""
  workloadName : String := ""
  workloadKind : String := ""
  workloadCategory : String := ""
  labels : Table String String := ∅
  meteringMethod : String := ""

structure SourceStatus where
  name : String
  nodeName : String := ""
  component : String
  readingType : String
  available : Bool
  selected : Bool
  powerUw : Nat

/-- The node part of a report. -/
structure NodePowerReport where
  nodeName : String
  cpuUw : Nat
  memoryUw : Nat
  gpuUw : Nat
  platformUw : Option Nat
  psuOutputUw : Option Nat := none
  idleUw : Nat
  errorRatio : ℚ
  podCount : Nat
  processCount : Nat
  timestamp : Int
  cpuSource : String := ""
  memorySource : String := ""
  cpuReadingType : String := ""
  sources : List SourceStatus := []
  meteringMethod : String := ""

structure AgentReport where
  node : NodePowerReport
  pods : List PodPowerReport

structure PodState where
  report : PodPowerReport
  receivedAt : Int

structure NodeState where
  report : NodePowerReport
  receivedAt : Int

/-- The aggregator: pods keyed by (pod uid, metering method), nodes keyed by
(node name, metering method), and the recent totals of each namespace. -/
structure ClusterAggregator where
  pods : Table (String × String) PodState
  nodes : Table (String × String) NodeState
  history : Table String (List (Int × Nat))

def stalenessThreshold : Int := secs 60
def historyRetention : Int := secs 3600

namespace ClusterAggregator

def new : ClusterAggregator := ⟨∅, ∅, ∅⟩

end ClusterAggregator

/-- The metering method a report stands for: an empty one means Keck's own. -/
def methodName (m : String) : String := if m.isEmpty then "keck" else m

/-- The slot a report goes into. -/
def AgentReport.method (r : AgentReport) : String := methodName r.node.meteringMethod

/-- The pod as stored: an empty method becomes the report's. -/
def PodPowerReport.stamped (pod : PodPowerReport) (method : String) : PodPowerReport :=
  if pod.meteringMethod.isEmpty then { pod with meteringMethod := method } else pod

namespace ClusterAggregator

/-- Store one pod of a report and append its total to its namespace's history. -/
def storePod (now : Int) (method : String) (agg : ClusterAggregator) (pod : PodPowerReport) : ClusterAggregator :=
  { agg with
    pods := agg.pods.insert (pod.podUid, method) ⟨pod.stamped method, now⟩
    history := agg.history.insert pod.ns ((agg.history.lookup pod.ns).getD [] ++ [(pod.timestamp, pod.totalUw)]) }

/-- Evict pods and nodes that have not reported recently. -/
def evictStale (now : Int) (agg : ClusterAggregator) : ClusterAggregator :=
  { agg with
    pods := agg.pods.retain fun _ state => decide (state.receivedAt > now - stalenessThreshold)
    nodes := agg.nodes.retain fun _ state => decide (state.receivedAt > now - stalenessThreshold) }

/-- Drop history beyond the retention window, and namespaces left without any. -/
def trimHistory (wall : Int) (agg : ClusterAggregator) : ClusterAggregator :=
  { agg with history := (agg.history.mapValues fun entries =>
      entries.filter fun h => decide (h.1 ≥ wall - historyRetention)).retain fun _ entries => !entries.isEmpty }

/-- Take in a report: record the node, drop the pods of the same method that
the node no longer lists, store the listed ones, evict what is stale. -/
def ingest (now wall : Int) (agg : ClusterAggregator) (report : AgentReport) : ClusterAggregator :=
  let nodeName := report.node.nodeName
  let method := report.method
  let agg := { agg with nodes := agg.nodes.insert (nodeName, method) ⟨report.node, now⟩ }
  let reportedUids := report.pods.map (·.podUid)
  let agg := { agg with pods := agg.pods.retain fun key state =>
    !(key.2 == method && state.report.nodeName == nodeName && !reportedUids.contains key.1) }
  let agg := report.pods.foldl (storePod now method) agg
  (agg.evictStale now).trimHistory wall

/-- Remove all data for nodes that no longer exist in the cluster. -/
def evictRemovedNodes (agg : ClusterAggregator) (liveNodeNames : List String) : ClusterAggregator :=
  { agg with
    nodes := agg.nodes.retain fun key _ => liveNodeNames.contains key.1
    pods := agg.pods.retain fun _ state => liveNodeNames.contains state.report.nodeName }

end ClusterAggregator

/-! ## Runs -/

/-- What changes the aggregator: a report, with the clocks read while it is
ingested, or a new list of live nodes. -/
inductive Event where
  | ingest (now wall : Int) (report : AgentReport)
  | evictRemovedNodes (liveNodeNames : List String)

namespace ClusterAggregator

def step (agg : ClusterAggregator) : Event → ClusterAggregator
  | .ingest now wall report => agg.ingest now wall report
  | .evictRemovedNodes live => agg.evictRemovedNodes live

/-- The aggregator after a log of events. -/
def run (evs : List Event) : ClusterAggregator := evs.foldl step new

end ClusterAggregator

/-- The monotonic time of an event, if it reads the clock. -/
def Event.time? : Event → Option Int
  | .ingest now _ _ => some now
  | .evictRemovedNodes _ => none

/-- The monotonic clock never goes back. -/
def ClockOk (evs : List Event) : Prop := (evs.filterMap Event.time?).Pairwise (· ≤ ·)

instance (evs : List Event) : Decidable (ClockOk evs) := inferInstanceAs (Decidable (List.Pairwise _ _))

/-! ## Sample reports

The factories of the source's own tests. -/

def makePod (node uid name ns : String) (cpu mem gpu : Nat) : PodPowerReport where
  nodeName := node
  podUid := uid
  podName := name
  ns := ns
  cpuUw := cpu
  memoryUw := mem
  gpuUw := gpu
  totalUw := cpu + mem + gpu
  timestamp := 0
  workloadCategory := "application"

def makeNode (name : String) (cpu mem gpu : Nat) (platform : Option Nat) (idle : Nat) : NodePowerReport where
  nodeName := name
  cpuUw := cpu
  memoryUw := mem
  gpuUw := gpu
  platformUw := platform
  idleUw := idle
  errorRatio := 5 / 100
  podCount := 0
  processCount := 0
  timestamp := 0
  cpuSource := "rapl"
  memorySource := "estimated"
  cpuReadingType := "estimated"

end Keck.Controller
