import Keck.Controller.Views
/-!
# The controller's own metrics

`handle_metrics` (`keck-controller/src/api/mod.rs`) sets gauges of a registry
that lives as long as the server (`metrics.rs`): a label once set stays until
it is set again. The text encoding of the registry is not modelled.
-/
namespace Keck.Controller

open Keck.Lib

structure Metrics where
  clusterPowerWatts : Table String ℚ := ∅
  namespacePowerWatts : Table (String × String) ℚ := ∅
  nodePowerWatts : Table String ℚ := ∅
  nodeErrorRatio : Table String ℚ := ∅
  agentLastReportSecs : Table String ℚ := ∅
  podCount : Int := 0
  nodeCount : Int := 0

def watts (uw : Nat) : ℚ := uw / 1000000

namespace Metrics

def setCluster (m : Metrics) (cluster : ClusterPower) : Metrics :=
  { m with
    clusterPowerWatts := (((m.clusterPowerWatts.insert "cpu" (watts cluster.cpuUw)).insert "memory"
      (watts cluster.memoryUw)).insert "gpu" (watts cluster.gpuUw)).insert "platform" (watts cluster.platformUw)
    podCount := cluster.podCount
    nodeCount := cluster.nodeCount }

def setNamespace (m : Metrics) (row : NamespacePower) : Metrics :=
  { m with namespacePowerWatts := m.namespacePowerWatts.insert (row.ns, "total") (watts row.totalUw) }

/-- Set a node's gauges, given the sum of its components. -/
def setNode (m : Metrics) (node : NodeSummary) (sum : Nat) : Metrics :=
  { m with
    nodePowerWatts := m.nodePowerWatts.insert node.nodeName (watts sum)
    nodeErrorRatio := m.nodeErrorRatio.insert node.nodeName node.errorRatio
    agentLastReportSecs := m.agentLastReportSecs.insert node.nodeName node.lastSeenSecsAgo }

end Metrics

/-- A scrape at time `now`: what the registry holds when it is rendered. -/
def handleMetrics (agg : ClusterAggregator) (now : Int) (metrics : Metrics) : Metrics :=
  let metrics := metrics.setCluster (agg.clusterPower none)
  let metrics := (agg.namespacePower none).foldl Metrics.setNamespace metrics
  (agg.nodeSummaries now none).foldl (fun m n => m.setNode n (n.cpuUw + n.memoryUw + n.gpuUw)) metrics

end Keck.Controller
