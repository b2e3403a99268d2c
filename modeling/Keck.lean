import Keck.Lib.Table
import Keck.Lib.Groups
import Keck.Lib.Checked
import Keck.Lib.Log
import Keck.Controller.Aggregator
import Keck.Controller.EventLog
import Keck.Controller.Admission
import Keck.Controller.Views
import Keck.Controller.Metrics
import Keck.Controller.Overflow
import Keck.Ebpf.Handlers
import Keck.Ebpf.SchedTime
import Keck.Ebpf.FreqResidency
import Keck.Ebpf.HwCounters
import Keck.Ebpf.Drain
import Keck.Agent.Sources
import Keck.Agent.Attribution
import Keck.Agent.EbpfShares
import Keck.Lib.Shares
import Keck.Agent.Conservation
import Keck.Attribution.Snapshot
import Keck.Attribution.Engine
import Keck.Attribution.Energy
import Keck.Attribution.Enrich
import Keck.Agent.Store
import Keck.Agent.Collector
import Keck.Lib.Effects
import Keck.Operator.Manifests
import Keck.Operator.Cluster
import Keck.Operator.Reconcile
import Keck.Operator.Ensure
import Keck.Operator.Cleanup
import Keck.Operator.Desired
import Keck.Operator.Installed
import Keck.Operator.Idempotent
import Keck.Operator.TwoClusters
import Keck.Agent.Environment
import Keck.Controller.History
import Keck.Ebpf.PidCgroup
import Keck.Lib.Families
import Keck.Lib.Rounding
import Keck.Lib.Json
import Keck.Controller.Gauges
import Keck.Fleet.Registry
import Keck.Fleet.Rollup
import Keck.Controller.KeplerText
import Keck.Controller.Kepler
import Keck.Controller.KeplerView
import Keck.Agent.Splits
import Keck.Controller.GroupViews
import Keck.Controller.Lookup
import Keck.Agent.EnergyRuns
import Keck.Agent.IoRuns
import Keck.Agent.PerfCounters
import Keck.Agent.Selection
import Keck.Agent.GpuPods
import Keck.Attribution.Memory
import Keck.Attribution.Reconciliation
import Keck.Controller.Scheduler
import Keck.Fleet.Policy
import Keck.Agent.OnlineCpus
import Keck.Controller.ClusterOperators
import Keck.Controller.KeplerEscape
import Keck.Controller.KeplerFormat
import Keck.Attribution.Models
import Keck.Agent.ProcText
import Keck.Controller.KeplerLabels
import Keck.Agent.GpuLabels
import Keck.Attribution.Divisions
import Keck.Controller.Concurrent
import Keck.Operator.Converge
import Keck.Operator.ApiKey
import Keck.Lib.Memo
import Keck.Agent.PodCache
import Keck.Lib.Variation
import Keck.Attribution.Tuner
import Keck.Agent.Loop
import Keck.Controller.Snapshots
import Keck.Pipeline
import Keck.Controller.Isolation
import Keck.Agent.SourceOrder
import Keck.Lib.Names
import Keck.Agent.Discovery
import Keck.Agent.Hardware
import Keck.Agent.Priority
