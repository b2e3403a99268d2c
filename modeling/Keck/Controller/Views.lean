import Keck.Lib.Groups
import Keck.Controller.Aggregator
/-!
# The aggregator's views

What the API serves from the aggregator: the cluster summary, the namespace
and group breakdowns, pod lists and the per-category sums of `handle_cluster`
(`keck-controller/src/aggregator/mod.rs`, `api/mod.rs` and `application.rs`).
Every view goes over a hash map in its iteration order; the theorems about
them hold for every state, so for every such order. `sort_by` is a stable
sort, here `sortDesc`.
-/
namespace Keck.Controller

open Keck.Lib

/-! ## Classification -/

inductive Category where
  | platform
  | operator
  | application
  deriving DecidableEq

def Category.asStr : Category → String
  | .platform => "platform"
  | .operator => "operator"
  | .application => "application"

structure ApplicationDef where
  name : String
  namespaces : List String
  labelSelectors : List (Table String String)

structure ClassificationData where
  coNamespaces : Table String String := ∅
  operatorNamespaces : List String := []
  appDefs : List ApplicationDef := []

/-- The category of a namespace's pods, with the cluster operator it belongs
to if it is a platform one. -/
def ClassificationData.classify (cls : ClassificationData) (ns : String) : Category × Option String :=
  match cls.coNamespaces.lookup ns with
  | some co => (.platform, some co)
  | none => if cls.operatorNamespaces.contains ns then (.operator, none) else (.application, none)

/-! ## Views of one method -/

def matchesMethod (reportMethod : String) (filter : Option String) : Bool :=
  methodName reportMethod == filter.getD "keck"

structure NamespacePower where
  ns : String
  cpuUw : Nat := 0
  memoryUw : Nat := 0
  gpuUw : Nat := 0
  storageUw : Nat := 0
  ioUw : Nat := 0
  totalUw : Nat := 0
  podCount : Nat := 0

def NamespacePower.add (row : NamespacePower) (p : PodPowerReport) : NamespacePower :=
  { row with
    cpuUw := row.cpuUw + p.cpuUw
    memoryUw := row.memoryUw + p.memoryUw
    gpuUw := row.gpuUw + p.gpuUw
    storageUw := row.storageUw + p.storageUw
    ioUw := row.ioUw + p.ioUw
    totalUw := row.totalUw + p.totalUw
    podCount := row.podCount + 1 }

structure ClusterPower where
  cpuUw : Nat
  memoryUw : Nat
  gpuUw : Nat
  platformUw : Nat
  psuOutputUw : Nat
  psuLossUw : Nat
  idleUw : Nat
  totalAttributedUw : Nat
  nodeCount : Nat
  podCount : Nat
  avgErrorRatio : ℚ

structure NodeSummary where
  nodeName : String
  cpuUw : Nat
  memoryUw : Nat
  gpuUw : Nat
  platformUw : Option Nat
  psuOutputUw : Option Nat
  idleUw : Nat
  errorRatio : ℚ
  podCount : Nat
  headroomUw : Option Nat
  cpuSource : String
  cpuReadingType : String
  meteringMethod : String
  lastSeen : Int
  lastSeenSecsAgo : Nat

/-- A node's summary at time `now`, given the power it uses. -/
def NodeSummary.of (now : Int) (state : NodeState) (used : Nat) : NodeSummary where
  nodeName := state.report.nodeName
  cpuUw := state.report.cpuUw
  memoryUw := state.report.memoryUw
  gpuUw := state.report.gpuUw
  platformUw := state.report.platformUw
  psuOutputUw := state.report.psuOutputUw
  idleUw := state.report.idleUw
  errorRatio := state.report.errorRatio
  podCount := state.report.podCount
  headroomUw := state.report.platformUw.map (· - used)
  cpuSource := state.report.cpuSource
  cpuReadingType := state.report.cpuReadingType
  meteringMethod := state.report.meteringMethod
  lastSeen := state.receivedAt
  lastSeenSecsAgo := (now - state.receivedAt).toNat / 1000000000

namespace ClusterAggregator

/-- All pod reports of a method. -/
def allPodsFiltered (agg : ClusterAggregator) (method : Option String) : List PodPowerReport :=
  (agg.pods.values.filter fun s => matchesMethod s.report.meteringMethod method).map (·.report)

def clusterPower (agg : ClusterAggregator) (method : Option String) : ClusterPower :=
  let nodes := (agg.nodes.values.filter fun s => matchesMethod s.report.meteringMethod method).map (·.report)
  let cpu := (nodes.map (·.cpuUw)).sum
  let memory := (nodes.map (·.memoryUw)).sum
  let gpu := (nodes.map (·.gpuUw)).sum
  let platform := (nodes.map fun n => n.platformUw.getD 0).sum
  let psuOutput := (nodes.map fun n => n.psuOutputUw.getD 0).sum
  { cpuUw := cpu
    memoryUw := memory
    gpuUw := gpu
    platformUw := platform
    psuOutputUw := psuOutput
    psuLossUw := platform - psuOutput
    idleUw := (nodes.map (·.idleUw)).sum
    totalAttributedUw := cpu + memory + gpu
    nodeCount := nodes.length
    podCount := (agg.pods.values.filter fun s => matchesMethod s.report.meteringMethod method).length
    avgErrorRatio := if nodes.length > 0 then (nodes.map (·.errorRatio)).sum / nodes.length else 0 }

def namespacePower (agg : ClusterAggregator) (method : Option String) : List NamespacePower :=
  let nsMap := groupFold (·.ns) (fun p => { ns := p.ns }) NamespacePower.add (agg.allPodsFiltered method)
  sortDesc (·.totalUw) nsMap.values

def nodeSummaries (agg : ClusterAggregator) (now : Int) (method : Option String) : List NodeSummary :=
  (agg.nodes.values.filter fun s => matchesMethod s.report.meteringMethod method).map fun s =>
    NodeSummary.of now s (s.report.cpuUw + s.report.memoryUw + s.report.gpuUw)

def podsInNamespace (agg : ClusterAggregator) (ns : String) (method : Option String) : List PodPowerReport :=
  (agg.pods.values.filter fun s => s.report.ns == ns && matchesMethod s.report.meteringMethod method).map (·.report)

end ClusterAggregator

structure CategoryPower where
  appUw : Nat := 0
  opUw : Nat := 0
  platUw : Nat := 0

def CategoryPower.add (cls : ClassificationData) (c : CategoryPower) (p : PodPowerReport) : CategoryPower :=
  match (cls.classify p.ns).1 with
  | .platform => { c with platUw := c.platUw + p.totalUw }
  | .operator => { c with opUw := c.opUw + p.totalUw }
  | .application => { c with appUw := c.appUw + p.totalUw }

/-- The category sums `handle_cluster` reports, before they become watts. -/
def categoryPower (agg : ClusterAggregator) (method : Option String) (cls : ClassificationData) : CategoryPower :=
  (agg.allPodsFiltered method).foldl (CategoryPower.add cls) {}

/-! ## Groups -/

inductive GroupBy where
  | workload
  | label (key : String)
  | ns
  | application

structure PodPowerSummary where
  podUid : String
  podName : String
  cpuUw : Nat
  memoryUw : Nat
  gpuUw : Nat
  totalUw : Nat

structure GroupPower where
  groupKey : String
  groupName : String
  groupKind : String
  ns : String
  category : String
  cpuUw : Nat := 0
  memoryUw : Nat := 0
  gpuUw : Nat := 0
  storageUw : Nat := 0
  ioUw : Nat := 0
  totalUw : Nat := 0
  podCount : Nat := 0
  pods : List PodPowerSummary := []

/-- The application whose namespaces or labels match a pod. -/
def matchedApp (cls : ClassificationData) (report : PodPowerReport) : Option String :=
  (cls.coNamespaces.lookup report.ns).or <|
    (cls.appDefs.find? fun app => app.namespaces.contains report.ns || app.labelSelectors.any fun selector =>
      !selector.entries.isEmpty && selector.entries.all fun e => report.labels.lookup e.1 == some e.2).map (·.name)

def workloadGroup (report : PodPowerReport) : String × String × String :=
  if report.workloadUid.isEmpty then (report.podUid, report.podName, "Pod")
  else (report.workloadUid, report.workloadName, report.workloadKind)

/-- A pod's group, as (key, name, kind), or none if the pod is skipped. -/
def groupOf (groupBy : GroupBy) (cls : ClassificationData) (report : PodPowerReport) :
    Option (String × String × String) :=
  match groupBy with
  | .workload => some (workloadGroup report)
  | .label key => (report.labels.lookup key).map fun val => (val, val, key)
  | .ns => some (report.ns, report.ns, "Namespace")
  | .application =>
    match (cls.classify report.ns).2 with
    | some co => some ("co:" ++ co, co, "ClusterOperator")
    | none =>
      match matchedApp cls report with
      | some app => some ("app:" ++ app, app, "KeckApplication")
      | none =>
        match report.labels.lookup "app.kubernetes.io/part-of" with
        | some partOf => some ("auto:" ++ partOf, partOf, "auto-detected")
        | none => some (workloadGroup report)

/-- A pod with the group and category the loop found for it. -/
structure GroupItem where
  report : PodPowerReport
  key : String
  name : String
  kind : String
  category : Category

def groupItem (groupBy : GroupBy) (category : Option String) (cls : ClassificationData) (report : PodPowerReport) :
    Option GroupItem :=
  let cat := (cls.classify report.ns).1
  if category.any fun c => cat.asStr != c then none
  else (groupOf groupBy cls report).map fun g => ⟨report, g.1, g.2.1, g.2.2, cat⟩

def GroupPower.start (x : GroupItem) : GroupPower where
  groupKey := x.key
  groupName := x.name
  groupKind := x.kind
  ns := x.report.ns
  category := x.category.asStr

def GroupPower.add (g : GroupPower) (x : GroupItem) : GroupPower :=
  { g with
    cpuUw := g.cpuUw + x.report.cpuUw
    memoryUw := g.memoryUw + x.report.memoryUw
    gpuUw := g.gpuUw + x.report.gpuUw
    storageUw := g.storageUw + x.report.storageUw
    ioUw := g.ioUw + x.report.ioUw
    totalUw := g.totalUw + x.report.totalUw
    podCount := g.podCount + 1
    pods := g.pods ++ [⟨x.report.podUid, x.report.podName, x.report.cpuUw, x.report.memoryUw, x.report.gpuUw,
      x.report.totalUw⟩]
    ns := if g.ns != x.report.ns then "" else g.ns }

/-- Group all stored pods, of whatever method, and add up each group. -/
def ClusterAggregator.groupPower (agg : ClusterAggregator) (groupBy : GroupBy) (category : Option String)
    (cls : ClassificationData) : List GroupPower :=
  let items := (agg.pods.values.map (·.report)).filterMap (groupItem groupBy category cls)
  let groups := groupFold (·.key) GroupPower.start GroupPower.add items
  sortDesc (·.totalUw) groups.values

/-! ## Summed fields -/

/-- The quantities every breakdown adds up. -/
inductive Field where
  | cpu
  | memory
  | gpu
  | storage
  | io
  | total
  | podCount

def Field.ofPod : Field → PodPowerReport → Nat
  | .cpu, p => p.cpuUw
  | .memory, p => p.memoryUw
  | .gpu, p => p.gpuUw
  | .storage, p => p.storageUw
  | .io, p => p.ioUw
  | .total, p => p.totalUw
  | .podCount, _ => 1

def Field.ofRow : Field → NamespacePower → Nat
  | .cpu, r => r.cpuUw
  | .memory, r => r.memoryUw
  | .gpu, r => r.gpuUw
  | .storage, r => r.storageUw
  | .io, r => r.ioUw
  | .total, r => r.totalUw
  | .podCount, r => r.podCount

def Field.ofGroup : Field → GroupPower → Nat
  | .cpu, g => g.cpuUw
  | .memory, g => g.memoryUw
  | .gpu, g => g.gpuUw
  | .storage, g => g.storageUw
  | .io, g => g.ioUw
  | .total, g => g.totalUw
  | .podCount, g => g.podCount

theorem ofRow_add (f : Field) (row : NamespacePower) (p : PodPowerReport) :
    f.ofRow (row.add p) = f.ofRow row + f.ofPod p := by
  cases f <;> rfl

theorem ofGroup_add (f : Field) (g : GroupPower) (x : GroupItem) :
    f.ofGroup (g.add x) = f.ofGroup g + f.ofPod x.report := by
  cases f <;> rfl

/-! ## The views of one method partition its pods -/

section Rows
variable (agg : ClusterAggregator) (method : Option String)

/-- The map `namespace_power` builds. -/
def nsMap : Table String NamespacePower :=
  groupFold (·.ns) (fun p => { ns := p.ns }) NamespacePower.add (agg.allPodsFiltered method)

theorem namespacePower_perm : (agg.namespacePower method).Perm (nsMap agg method).values := sortDesc_perm _ _

theorem ns_of_lookup {ns : String} {row : NamespacePower} (h : (nsMap agg method).lookup ns = some row) :
    row.ns = ns :=
  key_of_lookup NamespacePower.ns h (fun _ _ => rfl) fun _ => rfl

theorem map_ns_perm : ((agg.namespacePower method).map (·.ns)).Perm (nsMap agg method).keys := by
  rw [← AList.map_values_eq_keys fun _ _ => ns_of_lookup agg method]
  exact (namespacePower_perm agg method).map _

theorem mem_namespacePower {row : NamespacePower} :
    row ∈ agg.namespacePower method ↔ (nsMap agg method).lookup row.ns = some row := by
  rw [(namespacePower_perm agg method).mem_iff, AList.mem_values]
  constructor
  · rintro ⟨ns, h⟩
    rwa [ns_of_lookup agg method h]
  · exact fun h => ⟨_, h⟩

theorem exists_namespacePower {ns : String} :
    (∃ row ∈ agg.namespacePower method, row.ns = ns) ↔ ∃ p ∈ agg.allPodsFiltered method, p.ns = ns := by
  rw [← List.mem_map, (map_ns_perm agg method).mem_iff, ← AList.mem_keys]
  exact mem_groupFold _ _ _

theorem podsInNamespace_eq (ns : String) :
    agg.podsInNamespace ns method = (agg.allPodsFiltered method).filter fun p => p.ns = ns := by
  simp only [ClusterAggregator.podsInNamespace, ClusterAggregator.allPodsFiltered, List.filter_map, List.filter_filter]
  congr 1

theorem ofRow_namespacePower {row : NamespacePower} (h : row ∈ agg.namespacePower method) (f : Field) :
    f.ofRow row = ((agg.podsInNamespace row.ns method).map f.ofPod).sum := by
  rw [podsInNamespace_eq]
  exact field_of_lookup (ofRow_add f) (fun _ => by cases f <;> rfl) ((mem_namespacePower agg method).1 h)

theorem sum_namespacePower (f : Field) :
    ((agg.namespacePower method).map f.ofRow).sum = ((agg.allPodsFiltered method).map f.ofPod).sum := by
  rw [((namespacePower_perm agg method).map f.ofRow).sum_eq, AList.sum_values]
  exact total_groupFold (ofRow_add f) (fun _ => by cases f <;> rfl) _

theorem sum_podCount (ps : List PodPowerReport) : (ps.map Field.podCount.ofPod).sum = ps.length := by
  have h : ps.map Field.podCount.ofPod = ps.map fun _ => 1 := rfl
  simp [h]

theorem categoryPower_sum (cls : ClassificationData) :
    (categoryPower agg method cls).appUw + (categoryPower agg method cls).opUw +
      (categoryPower agg method cls).platUw = ((agg.allPodsFiltered method).map Field.total.ofPod).sum := by
  have step : ∀ (c : CategoryPower) (p : PodPowerReport),
      (c.add cls p).appUw + (c.add cls p).opUw + (c.add cls p).platUw =
        c.appUw + c.opUw + c.platUw + Field.total.ofPod p := by
    intro c p
    unfold CategoryPower.add
    split <;> simp only [Field.ofPod] <;> omega
  have h := foldl_additive (f := fun c : CategoryPower => c.appUw + c.opUw + c.platUw) step
    (agg.allPodsFiltered method) {}
  simpa [categoryPower] using h

/-- In every state, for every method filter and classification: one row per
namespace that has a pod, largest total first; rows, pod lists, the cluster's
pod count and the category sums all account for the same pods. -/
theorem views_partition_pods (cls : ClassificationData) :
    ((agg.namespacePower method).map (·.ns)).Nodup ∧
    (∀ ns, ns ∈ (agg.namespacePower method).map (·.ns) ↔ ∃ p ∈ agg.allPodsFiltered method, p.ns = ns) ∧
    (agg.namespacePower method).Pairwise (fun a b => b.totalUw ≤ a.totalUw) ∧
    (∀ f : Field, ((agg.namespacePower method).map f.ofRow).sum =
      ((agg.allPodsFiltered method).map f.ofPod).sum) ∧
    (∀ row ∈ agg.namespacePower method, ∀ f : Field,
      f.ofRow row = ((agg.podsInNamespace row.ns method).map f.ofPod).sum) ∧
    ((agg.namespacePower method).map (·.podCount)).sum = (agg.clusterPower method).podCount ∧
    (categoryPower agg method cls).appUw + (categoryPower agg method cls).opUw +
      (categoryPower agg method cls).platUw = ((agg.namespacePower method).map (·.totalUw)).sum := by
  refine ⟨?_, fun ns => ?_, sortDesc_sorted _ _, sum_namespacePower agg method,
    fun row h f => ofRow_namespacePower agg method h f, ?_, ?_⟩
  · exact (map_ns_perm agg method).nodup_iff.2 (nsMap agg method).keys_nodup
  · rw [List.mem_map]
    exact exists_namespacePower agg method
  · refine (sum_namespacePower agg method .podCount).trans ?_
    rw [sum_podCount, ClusterAggregator.allPodsFiltered, List.length_map]
    rfl
  · rw [categoryPower_sum]
    exact (sum_namespacePower agg method .total).symm

end Rows

/-! ## The loss of the power supplies -/

namespace NodePowerReport

/-- What a node's power supplies lose, if it reports both sides of them. -/
def psuLoss (n : NodePowerReport) : Option Nat :=
  n.platformUw.bind fun input => n.psuOutputUw.map fun output => input - output

/-- The input power of a node that reports no output. -/
def inputOnly (n : NodePowerReport) : Nat := if n.psuOutputUw.isNone then n.platformUw.getD 0 else 0

/-- The output power of a node beyond the input it reports. -/
def outputBeyond (n : NodePowerReport) : Nat := n.psuOutputUw.getD 0 - n.platformUw.getD 0

end NodePowerReport

/-- The reports of a method's nodes. -/
def nodesOf (agg : ClusterAggregator) (method : Option String) : List NodePowerReport :=
  (agg.nodes.values.filter fun s => matchesMethod s.report.meteringMethod method).map (·.report)

/-- The balance of a node: input on one side, output and loss on the other. -/
theorem psu_balance_node (n : NodePowerReport) :
    n.platformUw.getD 0 + n.outputBeyond = n.psuOutputUw.getD 0 + n.inputOnly + n.psuLoss.getD 0 := by
  unfold NodePowerReport.outputBeyond NodePowerReport.inputOnly NodePowerReport.psuLoss
  cases n.platformUw with
  | none => cases n.psuOutputUw <;> simp
  | some input =>
    cases n.psuOutputUw with
    | none => simp
    | some output =>
      simp only [Option.getD_some, Option.isNone_some, Bool.false_eq_true, if_false, Option.bind_some, Option.map_some]
      omega

theorem psu_balance (ns : List NodePowerReport) :
    (ns.map fun n => n.platformUw.getD 0).sum + (ns.map (·.outputBeyond)).sum =
      (ns.map fun n => n.psuOutputUw.getD 0).sum + (ns.map (·.inputOnly)).sum +
        (ns.filterMap (·.psuLoss)).sum := by
  induction ns with
  | nil => rfl
  | cons n ns ih =>
    have hnode := psu_balance_node n
    have hloss : ((n :: ns).filterMap (·.psuLoss)).sum = n.psuLoss.getD 0 + (ns.filterMap (·.psuLoss)).sum := by
      rw [List.filterMap_cons]
      cases n.psuLoss <;> simp
    rw [hloss]
    simp only [List.map_cons, List.sum_cons]
    omega

/-- A cluster of two nodes, of which one has no sensor on its PSU's output. -/
def mixedSensorsLog : List Event :=
  [.ingest 1 1 ⟨{ makeNode "node-1" 5000 2000 0 (some 9000) 1000 with psuOutputUw := some 8000 }, []⟩,
   .ingest 2 2 ⟨makeNode "node-2" 4000 2000 0 (some 7000) 1000, []⟩]

/-- Every stored report, of whatever method. -/
def allReports (agg : ClusterAggregator) : List PodPowerReport := agg.pods.values.map (·.report)

section Keys
variable (agg : ClusterAggregator) (groupBy : GroupBy) (category : Option String) (cls : ClassificationData)

/-- The map `group_power` builds. -/
def groupMap : Table String GroupPower :=
  groupFold (·.key) GroupPower.start GroupPower.add ((allReports agg).filterMap (groupItem groupBy category cls))

theorem groupPower_perm :
    (agg.groupPower groupBy category cls).Perm (groupMap agg groupBy category cls).values := sortDesc_perm _ _

theorem groupKey_of_lookup {k : String} {g : GroupPower} (h : (groupMap agg groupBy category cls).lookup k = some g) :
    g.groupKey = k :=
  key_of_lookup GroupPower.groupKey h (fun _ _ => rfl) fun _ => rfl

theorem map_groupKey_perm :
    ((agg.groupPower groupBy category cls).map (·.groupKey)).Perm (groupMap agg groupBy category cls).keys := by
  rw [← AList.map_values_eq_keys fun _ _ => groupKey_of_lookup agg groupBy category cls]
  exact (groupPower_perm agg groupBy category cls).map _

theorem mem_groupPower {g : GroupPower} :
    g ∈ agg.groupPower groupBy category cls ↔ (groupMap agg groupBy category cls).lookup g.groupKey = some g := by
  rw [(groupPower_perm agg groupBy category cls).mem_iff, AList.mem_values]
  constructor
  · rintro ⟨k, h⟩
    rwa [groupKey_of_lookup agg groupBy category cls h]
  · exact fun h => ⟨_, h⟩

end Keys

/-! ## The grouped view against the namespace view -/

section Groups
variable (agg : ClusterAggregator) (cls : ClassificationData)

/-- The group a pod goes to when grouping by namespace. -/
def nsItem (p : PodPowerReport) : GroupItem := ⟨p, p.ns, p.ns, "Namespace", (cls.classify p.ns).1⟩

/-- The map `group_power` builds when grouping by namespace. -/
def nsGroups : Table String GroupPower :=
  groupFold (·.key) GroupPower.start GroupPower.add ((allReports agg).map (nsItem cls))

theorem groupMap_ns : groupMap agg .ns none cls = nsGroups agg cls := by
  rw [groupMap, nsGroups, ← List.filterMap_eq_map]
  rfl

theorem mem_groupPower_ns {g : GroupPower} :
    g ∈ agg.groupPower .ns none cls ↔ (nsGroups agg cls).lookup g.groupKey = some g := by
  rw [mem_groupPower, groupMap_ns]

theorem exists_groupPower_ns {ns : String} :
    (∃ g ∈ agg.groupPower .ns none cls, g.groupKey = ns) ↔ ∃ p ∈ allReports agg, p.ns = ns := by
  rw [← List.mem_map, (map_groupKey_perm agg .ns none cls).mem_iff, ← AList.mem_keys, groupMap_ns]
  refine (mem_groupFold _ _ _).trans ?_
  simp [nsItem]

/-- A namespace's group holds the sums over all its pods, of every method. -/
theorem ofGroup_groupPower_ns {g : GroupPower} (h : g ∈ agg.groupPower .ns none cls) (f : Field) :
    f.ofGroup g = (((allReports agg).filter fun p => p.ns = g.groupKey).map f.ofPod).sum := by
  have e := field_of_lookup (ofGroup_add f) (fun _ => by cases f <;> rfl) ((mem_groupPower_ns agg cls).1 h)
  rw [e, List.filter_map, List.map_map]
  rfl

theorem allPodsFiltered_eq (method : Option String) :
    agg.allPodsFiltered method = (allReports agg).filter fun p => matchesMethod p.meteringMethod method := by
  rw [allReports, List.filter_map]
  rfl

/-- Both breakdowns by namespace have the same namespaces, and the same sums
and pod count for each. -/
def NamespaceViewsAgree : Prop :=
  (∀ ns, (∃ g ∈ agg.groupPower .ns none cls, g.groupKey = ns) ↔ ∃ row ∈ agg.namespacePower none, row.ns = ns) ∧
  ∀ g ∈ agg.groupPower .ns none cls, ∀ row ∈ agg.namespacePower none, g.groupKey = row.ns →
    ∀ f : Field, f.ofGroup g = f.ofRow row

/-- A pod of another method is counted in its group and in no row. -/
theorem matches_of_agree (h : NamespaceViewsAgree agg cls) :
    ∀ p ∈ allReports agg, matchesMethod p.meteringMethod none = true := by
  intro p hp
  by_contra hm
  obtain ⟨g, hg, hgk⟩ := (exists_groupPower_ns agg cls).2 ⟨p, hp, rfl⟩
  obtain ⟨row, hrow, hrk⟩ := (h.1 p.ns).1 ⟨g, hg, hgk⟩
  have e := h.2 g hg row hrow (hgk.trans hrk.symm) .podCount
  rw [ofGroup_groupPower_ns agg cls hg, ofRow_namespacePower agg none hrow, podsInNamespace_eq, hgk, hrk,
    sum_podCount, sum_podCount, allPodsFiltered_eq, List.filter_comm] at e
  have hlt : (((allReports agg).filter fun q => q.ns = p.ns).filter fun q =>
      matchesMethod q.meteringMethod none).length < ((allReports agg).filter fun q => q.ns = p.ns).length :=
    List.length_filter_lt_length_iff_exists.2 ⟨p, List.mem_filter.2 ⟨hp, decide_eq_true rfl⟩, hm⟩
  omega

theorem agree_of_matches (h : ∀ p ∈ allReports agg, matchesMethod p.meteringMethod none = true) :
    NamespaceViewsAgree agg cls := by
  have hall : agg.allPodsFiltered none = allReports agg := by
    rw [allPodsFiltered_eq, List.filter_eq_self]
    exact h
  refine ⟨fun ns => ?_, fun g hg row hrow hk f => ?_⟩
  · rw [exists_groupPower_ns, exists_namespacePower, hall]
  · rw [ofGroup_groupPower_ns agg cls hg, ofRow_namespacePower agg none hrow, podsInNamespace_eq, hall, hk]

/-- The two views agree in exactly the states whose stored pods are all Keck's:
`group_power` does not filter by method. -/
theorem namespaceViews_agree_iff :
    NamespaceViewsAgree agg cls ↔
      ∀ s ∈ agg.pods.values, matchesMethod s.report.meteringMethod none = true := by
  have hr : (∀ p ∈ allReports agg, matchesMethod p.meteringMethod none = true) ↔
      ∀ s ∈ agg.pods.values, matchesMethod s.report.meteringMethod none = true := by
    simp [allReports]
  rw [← hr]
  exact ⟨matches_of_agree agg cls, agree_of_matches agg cls⟩

end Groups

/-- One pod, reported by Keck and by Kepler. -/
def twoMethodsLog : List Event :=
  [.ingest 1 1 ⟨makeNode "node-1" 5000 2000 0 none 1000, [makePod "node-1" "uid-a" "web-1" "default" 1000 500 0]⟩,
   .ingest 2 2 ⟨{ makeNode "node-1" 5200 2100 0 none 1000 with meteringMethod := "kepler" },
     [makePod "node-1" "uid-a" "web-1" "default" 1100 400 0]⟩]

/-- Grouped by namespace the pod counts twice, with both methods' power; the
namespace view has it once. -/
theorem two_methods_split_the_views :
    ClockOk twoMethodsLog ∧ ¬NamespaceViewsAgree (ClusterAggregator.run twoMethodsLog) {} := by
  refine ⟨by decide, fun h => ?_⟩
  have := matches_of_agree _ _ h { makePod "node-1" "uid-a" "web-1" "default" 1100 400 0 with
    meteringMethod := "kepler" } (List.mem_cons_self ..)
  revert this
  decide

end Keck.Controller
