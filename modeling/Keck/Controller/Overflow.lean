import Keck.Lib.Checked
import Keck.Controller.Admission
import Keck.Controller.Metrics
/-!
# Room for the sums

The views add up `u64` values. `clusterPower?` and the other checked views do
the same additions one by one and give nothing if one of them overflows, where
the source wraps around or panics. `validate_report` bounds only some of the
summed fields: the node's CPU, memory and GPU power and the pod's total. With
the other fields bounded too (`Bounded`) no sum overflows in any run
(`bounded_runs_never_overflow`); without, two reports are enough
(`two_reports_overflow_idle`).
-/
namespace Keck.Controller

open Keck.Lib ClusterAggregator

/-! ## Checked views -/

/-- The accumulators of `cluster_power`. -/
structure ClusterSums where
  cpu : Nat := 0
  memory : Nat := 0
  gpu : Nat := 0
  platform : Nat := 0
  psuOutput : Nat := 0
  idle : Nat := 0
  errorSum : ℚ := 0
  nodeCount : Nat := 0

def ClusterSums.add? (s : ClusterSums) (n : NodePowerReport) : Option ClusterSums := do
  let cpu ← add64? s.cpu n.cpuUw
  let memory ← add64? s.memory n.memoryUw
  let gpu ← add64? s.gpu n.gpuUw
  let platform ← add64? s.platform (n.platformUw.getD 0)
  let psuOutput ← add64? s.psuOutput (n.psuOutputUw.getD 0)
  let idle ← add64? s.idle n.idleUw
  return ⟨cpu, memory, gpu, platform, psuOutput, idle, s.errorSum + n.errorRatio, s.nodeCount + 1⟩

def NamespacePower.add? (row : NamespacePower) (p : PodPowerReport) : Option NamespacePower := do
  let cpuUw ← add64? row.cpuUw p.cpuUw
  let memoryUw ← add64? row.memoryUw p.memoryUw
  let gpuUw ← add64? row.gpuUw p.gpuUw
  let storageUw ← add64? row.storageUw p.storageUw
  let ioUw ← add64? row.ioUw p.ioUw
  let totalUw ← add64? row.totalUw p.totalUw
  return ⟨row.ns, cpuUw, memoryUw, gpuUw, storageUw, ioUw, totalUw, row.podCount + 1⟩

def GroupPower.add? (g : GroupPower) (x : GroupItem) : Option GroupPower := do
  let cpuUw ← add64? g.cpuUw x.report.cpuUw
  let memoryUw ← add64? g.memoryUw x.report.memoryUw
  let gpuUw ← add64? g.gpuUw x.report.gpuUw
  let storageUw ← add64? g.storageUw x.report.storageUw
  let ioUw ← add64? g.ioUw x.report.ioUw
  let totalUw ← add64? g.totalUw x.report.totalUw
  return { g.add x with cpuUw, memoryUw, gpuUw, storageUw, ioUw, totalUw }

/-- `a + b + c`, left to right. -/
def add64₃? (a b c : Nat) : Option Nat := do add64? (← add64? a b) c

namespace ClusterAggregator

def clusterPower? (agg : ClusterAggregator) (method : Option String) : Option ClusterPower := do
  let nodes := (agg.nodes.values.filter fun s => matchesMethod s.report.meteringMethod method).map (·.report)
  let s ← nodes.foldlM ClusterSums.add? {}
  let totalAttributed ← add64₃? s.cpu s.memory s.gpu
  return {
    cpuUw := s.cpu
    memoryUw := s.memory
    gpuUw := s.gpu
    platformUw := s.platform
    psuOutputUw := s.psuOutput
    psuLossUw := s.platform - s.psuOutput
    idleUw := s.idle
    totalAttributedUw := totalAttributed
    nodeCount := s.nodeCount
    podCount := (agg.pods.values.filter fun s => matchesMethod s.report.meteringMethod method).length
    avgErrorRatio := if s.nodeCount > 0 then s.errorSum / s.nodeCount else 0 }

def namespacePower? (agg : ClusterAggregator) (method : Option String) : Option (List NamespacePower) := do
  let nsMap ← groupFold? (·.ns) (fun p => { ns := p.ns }) NamespacePower.add? (agg.allPodsFiltered method)
  return sortDesc (·.totalUw) nsMap.values

def nodeSummaries? (agg : ClusterAggregator) (now : Int) (method : Option String) : Option (List NodeSummary) :=
  (agg.nodes.values.filter fun s => matchesMethod s.report.meteringMethod method).mapM fun s => do
    let used ← add64₃? s.report.cpuUw s.report.memoryUw s.report.gpuUw
    return NodeSummary.of now s used

def groupPower? (agg : ClusterAggregator) (groupBy : GroupBy) (category : Option String)
    (cls : ClassificationData) : Option (List GroupPower) := do
  let items := (agg.pods.values.map (·.report)).filterMap (groupItem groupBy category cls)
  let groups ← groupFold? (·.key) GroupPower.start GroupPower.add? items
  return sortDesc (·.totalUw) groups.values

end ClusterAggregator

def handleMetrics? (agg : ClusterAggregator) (now : Int) (metrics : Metrics) : Option Metrics := do
  let metrics := metrics.setCluster (← agg.clusterPower? none)
  let metrics := (← agg.namespacePower? none).foldl Metrics.setNamespace metrics
  (← agg.nodeSummaries? now none).foldlM
    (fun m n => do return m.setNode n (← add64₃? n.cpuUw n.memoryUw n.gpuUw)) metrics

/-- No addition of any view overflows: each checked view gives what the plain
one computes. -/
structure NoOverflow (agg : ClusterAggregator) : Prop where
  cluster : ∀ method, agg.clusterPower? method = some (agg.clusterPower method)
  namespaces : ∀ method, agg.namespacePower? method = some (agg.namespacePower method)
  nodes : ∀ now method, agg.nodeSummaries? now method = some (agg.nodeSummaries now method)
  groups : ∀ groupBy category cls,
    agg.groupPower? groupBy category cls = some (agg.groupPower groupBy category cls)
  metrics : ∀ now metrics, handleMetrics? agg now metrics = some (handleMetrics agg now metrics)

/-! ## Loops that fit -/

/-- The quantities `cluster_power` adds up. -/
inductive NodeField where
  | cpu
  | memory
  | gpu
  | platform
  | psuOutput
  | idle

def NodeField.ofNode : NodeField → NodePowerReport → Nat
  | .cpu, n => n.cpuUw
  | .memory, n => n.memoryUw
  | .gpu, n => n.gpuUw
  | .platform, n => n.platformUw.getD 0
  | .psuOutput, n => n.psuOutputUw.getD 0
  | .idle, n => n.idleUw

def NodeField.ofSums : NodeField → ClusterSums → Nat
  | .cpu, s => s.cpu
  | .memory, s => s.memory
  | .gpu, s => s.gpu
  | .platform, s => s.platform
  | .psuOutput, s => s.psuOutput
  | .idle, s => s.idle

def ClusterSums.add (s : ClusterSums) (n : NodePowerReport) : ClusterSums where
  cpu := s.cpu + n.cpuUw
  memory := s.memory + n.memoryUw
  gpu := s.gpu + n.gpuUw
  platform := s.platform + n.platformUw.getD 0
  psuOutput := s.psuOutput + n.psuOutputUw.getD 0
  idle := s.idle + n.idleUw
  errorSum := s.errorSum + n.errorRatio
  nodeCount := s.nodeCount + 1

/-- What the loop of `cluster_power` leaves in its accumulators. -/
theorem foldl_clusterSums (ns : List NodePowerReport) (s : ClusterSums) :
    ns.foldl ClusterSums.add s =
      ⟨s.cpu + (ns.map (·.cpuUw)).sum, s.memory + (ns.map (·.memoryUw)).sum, s.gpu + (ns.map (·.gpuUw)).sum,
        s.platform + (ns.map fun n => n.platformUw.getD 0).sum,
        s.psuOutput + (ns.map fun n => n.psuOutputUw.getD 0).sum, s.idle + (ns.map (·.idleUw)).sum,
        s.errorSum + (ns.map (·.errorRatio)).sum, s.nodeCount + ns.length⟩ := by
  induction ns generalizing s with
  | nil => simp
  | cons n ns ih => simp [ih, ClusterSums.add, add_assoc, add_comm 1]

theorem ofSums_foldl (f : NodeField) (ns : List NodePowerReport) :
    f.ofSums (ns.foldl ClusterSums.add {}) = (ns.map f.ofNode).sum := by
  rw [foldl_clusterSums]
  cases f <;> simp only [NodeField.ofSums, zero_add] <;> rfl

theorem clusterSums_add? {s : ClusterSums} {n : NodePowerReport} (h : ∀ f : NodeField, f.ofSums (s.add n) < 2 ^ 64) :
    s.add? n = some (s.add n) := by
  unfold ClusterSums.add?
  rw [add64?_eq_some (h .cpu), add64?_eq_some (h .memory), add64?_eq_some (h .gpu), add64?_eq_some (h .platform),
    add64?_eq_some (h .psuOutput), add64?_eq_some (h .idle)]
  rfl

theorem namespacePower_add? {row : NamespacePower} {p : PodPowerReport}
    (h : ∀ f : Field, f.ofRow (row.add p) < 2 ^ 64) : row.add? p = some (row.add p) := by
  unfold NamespacePower.add?
  rw [add64?_eq_some (h .cpu), add64?_eq_some (h .memory), add64?_eq_some (h .gpu), add64?_eq_some (h .storage),
    add64?_eq_some (h .io), add64?_eq_some (h .total)]
  rfl

theorem groupPower_add? {g : GroupPower} {x : GroupItem} (h : ∀ f : Field, f.ofGroup (g.add x) < 2 ^ 64) :
    g.add? x = some (g.add x) := by
  unfold GroupPower.add?
  rw [add64?_eq_some (h .cpu), add64?_eq_some (h .memory), add64?_eq_some (h .gpu), add64?_eq_some (h .storage),
    add64?_eq_some (h .io), add64?_eq_some (h .total)]
  rfl

theorem add64₃?_eq_some {a b c : Nat} (h : a + b + c < 2 ^ 64) : add64₃? a b c = some (a + b + c) := by
  unfold add64₃?
  rw [add64?_eq_some (show a + b < 2 ^ 64 by omega)]
  exact add64?_eq_some h

/-! ## States with room -/

/-- The most a field may be, so that 1,000,000 nodes fit. -/
def nodeRoom : Nat := (2 ^ 64 - 1) / 1000000

/-- The most a field may be, so that 100,000,000 pods fit. -/
def podRoom : Nat := (2 ^ 64 - 1) / 100000000

/-- Few enough entries, and every summed field small enough. -/
structure Roomy (agg : ClusterAggregator) : Prop where
  nodes_length : agg.nodes.values.length ≤ 1000000
  pods_length : agg.pods.values.length ≤ 100000000
  node : ∀ s ∈ agg.nodes.values, ∀ f : NodeField, f.ofNode s.report ≤ nodeRoom
  used : ∀ s ∈ agg.nodes.values, s.report.cpuUw ≤ maxPowerUw ∧ s.report.memoryUw ≤ maxPowerUw ∧
    s.report.gpuUw ≤ maxPowerUw
  pod : ∀ s ∈ agg.pods.values, ∀ f : Field, f.ofPod s.report ≤ podRoom

/-- Rows that add up small enough fields of few enough pods fit, whatever the
rows are and however the pods are grouped. -/
theorem groupFold?_pods {α σ : Type} {key : α → String} {init : α → σ} {upd? : σ → α → Option σ} {upd : σ → α → σ}
    {ofRow : Field → σ → Nat} {pod : α → PodPowerReport}
    (hupd : ∀ {s x}, (∀ f, ofRow f (upd s x) < 2 ^ 64) → upd? s x = some (upd s x))
    (hadd : ∀ f s x, ofRow f (upd s x) = ofRow f s + f.ofPod (pod x)) (hinit : ∀ f x, ofRow f (init x) = 0)
    {xs : List α} (hlen : xs.length ≤ 100000000) (hb : ∀ x ∈ xs, ∀ f : Field, f.ofPod (pod x) ≤ podRoom) :
    groupFold? key init upd? xs = some (groupFold key init upd xs) := by
  apply groupFold?_eq_some (P := fun s => ∀ f, ofRow f s < 2 ^ 64)
  · intro s x hs
    exact hupd hs
  · intro ys hys k s hs f
    rw [field_of_lookup (hadd f) (hinit f) hs]
    have hle : ((ys.filter fun x => key x = k).map fun x => f.ofPod (pod x)).sum ≤ 100000000 * podRoom := by
      apply sum_map_le_mul
      · intro x hx
        exact hb x (hys.subset (List.mem_of_mem_filter hx)) f
      · exact (List.length_filter_le _ _).trans (hys.length_le.trans hlen)
    unfold podRoom at hle
    omega

theorem groupItem_report {groupBy : GroupBy} {category : Option String} {cls : ClassificationData}
    {p : PodPowerReport} {x : GroupItem} (h : groupItem groupBy category cls p = some x) : x.report = p := by
  simp only [groupItem, Option.ite_none_left_eq_some, Option.map_eq_some_iff] at h
  obtain ⟨-, g, -, rfl⟩ := h
  rfl

section Views
variable {agg : ClusterAggregator} (h : Roomy agg)
include h

theorem clusterPower?_eq (method : Option String) : agg.clusterPower? method = some (agg.clusterPower method) := by
  unfold clusterPower? clusterPower
  generalize hnodes : (agg.nodes.values.filter fun s => matchesMethod s.report.meteringMethod method).map (·.report) =
    nodes
  have hmem : ∀ n ∈ nodes, ∃ s ∈ agg.nodes.values, s.report = n := by
    intro n hn
    rw [← hnodes] at hn
    obtain ⟨s, hs, rfl⟩ := List.mem_map.1 hn
    exact ⟨s, List.mem_of_mem_filter hs, rfl⟩
  have hlen : nodes.length ≤ 1000000 := by
    rw [← hnodes, List.length_map]
    exact (List.length_filter_le _ _).trans h.nodes_length
  -- Every prefix of the nodes has at most as many entries, so its sums fit.
  have hsum : ∀ ys, ys <+: nodes → ∀ f : NodeField, (ys.map f.ofNode).sum < 2 ^ 64 := by
    intro ys hys f
    have hb : (ys.map f.ofNode).sum ≤ 1000000 * nodeRoom := by
      apply sum_map_le_mul
      · intro n hn
        obtain ⟨s, hs, rfl⟩ := hmem n (hys.subset hn)
        exact h.node s hs f
      · exact hys.length_le.trans hlen
    unfold nodeRoom at hb
    omega
  have hloop : nodes.foldlM ClusterSums.add? {} = some (nodes.foldl ClusterSums.add {}) := by
    apply foldlM_eq_some (P := fun s => ∀ f : NodeField, f.ofSums s < 2 ^ 64)
    · intro s n _ hs
      exact clusterSums_add? hs
    · intro ys hys f
      rw [ofSums_foldl]
      exact hsum ys hys f
  -- `total_attributed` adds three of the sums, whose terms admission bounds.
  have htotal : (nodes.map (·.cpuUw)).sum + (nodes.map (·.memoryUw)).sum + (nodes.map (·.gpuUw)).sum < 2 ^ 64 := by
    have hle : ∀ g : NodePowerReport → Nat, (∀ s ∈ agg.nodes.values, g s.report ≤ maxPowerUw) →
        (nodes.map g).sum ≤ 1000000 * maxPowerUw := by
      intro g hg
      refine sum_map_le_mul ?_ hlen
      intro n hn
      obtain ⟨s, hs, rfl⟩ := hmem n hn
      exact hg s hs
    have hc := hle (·.cpuUw) fun s hs => (h.used s hs).1
    have hm := hle (·.memoryUw) fun s hs => (h.used s hs).2.1
    have hg := hle (·.gpuUw) fun s hs => (h.used s hs).2.2
    unfold maxPowerUw at hc hm hg
    omega
  simp only [hloop, foldl_clusterSums, zero_add, Option.bind_eq_bind, Option.bind_some, add64₃?_eq_some htotal]
  rfl

theorem namespacePower?_eq (method : Option String) :
    agg.namespacePower? method = some (agg.namespacePower method) := by
  have hfold : groupFold? (·.ns) (fun p => { ns := p.ns }) NamespacePower.add? (agg.allPodsFiltered method) =
      some (nsMap agg method) := by
    apply groupFold?_pods namespacePower_add? ofRow_add
    · intro f _
      cases f <;> rfl
    · rw [allPodsFiltered, List.length_map]
      exact (List.length_filter_le _ _).trans h.pods_length
    · intro p hp
      obtain ⟨s, hs, rfl⟩ := List.mem_map.1 hp
      exact h.pod s (List.mem_of_mem_filter hs)
  unfold namespacePower?
  rw [hfold]
  rfl

theorem groupPower?_eq (groupBy : GroupBy) (category : Option String) (cls : ClassificationData) :
    agg.groupPower? groupBy category cls = some (agg.groupPower groupBy category cls) := by
  unfold groupPower? groupPower
  generalize hitems : (agg.pods.values.map (·.report)).filterMap (groupItem groupBy category cls) = items
  have hfold : groupFold? (·.key) GroupPower.start GroupPower.add? items =
      some (groupFold (·.key) GroupPower.start GroupPower.add items) := by
    apply groupFold?_pods groupPower_add? ofGroup_add
    · intro f _
      cases f <;> rfl
    · rw [← hitems]
      refine (List.length_filterMap_le _ _).trans ?_
      rw [List.length_map]
      exact h.pods_length
    · intro x hx
      rw [← hitems] at hx
      obtain ⟨p, hp, hi⟩ := List.mem_filterMap.1 hx
      obtain ⟨s, hs, rfl⟩ := List.mem_map.1 hp
      rw [groupItem_report hi]
      exact h.pod s hs
  simp only [hfold]
  rfl

theorem add64₃?_used {s : NodeState} (hs : s ∈ agg.nodes.values) :
    add64₃? s.report.cpuUw s.report.memoryUw s.report.gpuUw =
      some (s.report.cpuUw + s.report.memoryUw + s.report.gpuUw) := by
  apply add64₃?_eq_some
  obtain ⟨hc, hm, hg⟩ := h.used s hs
  unfold maxPowerUw at hc hm hg
  omega

theorem nodeSummaries?_eq (now : Int) (method : Option String) :
    agg.nodeSummaries? now method = some (agg.nodeSummaries now method) := by
  apply mapM_eq_some
  intro s hs
  rw [add64₃?_used h (List.mem_of_mem_filter hs)]
  rfl

theorem handleMetrics?_eq (now : Int) (metrics : Metrics) :
    handleMetrics? agg now metrics = some (handleMetrics agg now metrics) := by
  unfold handleMetrics?
  rw [clusterPower?_eq h, namespacePower?_eq h, nodeSummaries?_eq h]
  apply foldlM_eq_some (P := fun _ => True)
  · intro m n hn _
    obtain ⟨s, hs, rfl⟩ := List.mem_map.1 hn
    simp only [NodeSummary.of, add64₃?_used h (List.mem_of_mem_filter hs), Option.bind_eq_bind, Option.bind_some]
    rfl
  · intro _ _
    trivial

theorem Roomy.noOverflow : NoOverflow agg where
  cluster := clusterPower?_eq h
  namespaces := namespacePower?_eq h
  nodes := nodeSummaries?_eq h
  groups := groupPower?_eq h
  metrics := handleMetrics?_eq h

end Views

/-! ## Runs with room -/

/-- The (node, method) keys of a log's reports. -/
def nodeKeys (evs : List Event) : List (String × String) :=
  evs.filterMap fun
    | .ingest _ _ r => some (r.node.nodeName, r.method)
    | .evictRemovedNodes _ => none

/-- The (pod, method) keys of a log's reports. -/
def podKeys (evs : List Event) : List (String × String) :=
  evs.flatMap fun
    | .ingest _ _ r => r.pods.map fun p => (p.podUid, r.method)
    | .evictRemovedNodes _ => []

/-- The summed fields that `validate_report` does not check are small enough. -/
structure Bounded (r : AgentReport) : Prop where
  platform : r.node.platformUw.getD 0 ≤ nodeRoom
  psuOutput : r.node.psuOutputUw.getD 0 ≤ nodeRoom
  idle : r.node.idleUw ≤ nodeRoom
  pods : ∀ p ∈ r.pods, p.cpuUw ≤ podRoom ∧ p.memoryUw ≤ podRoom ∧ p.gpuUw ≤ podRoom ∧ p.storageUw ≤ podRoom ∧
    p.ioUw ≤ podRoom

theorem ofPod_stamped (f : Field) (p : PodPowerReport) (m : String) : f.ofPod (p.stamped m) = f.ofPod p := by
  unfold PodPowerReport.stamped
  split <;> cases f <;> rfl

theorem roomy_run {evs : List Event} (ha : Accepted evs) (hn : (nodeKeys evs).toFinset.card ≤ 1000000)
    (hp : (podKeys evs).toFinset.card ≤ 100000000) (hb : ∀ t w r, Event.ingest t w r ∈ evs → Bounded r) :
    Roomy (run evs) where
  nodes_length := by
    refine (AList.length_values_le ?_).trans hn
    intro k s hs
    obtain ⟨t, w, r, hr, -, rfl⟩ := node_of_run hs
    exact List.mem_toFinset.2 (List.mem_filterMap.2 ⟨_, hr, rfl⟩)
  pods_length := by
    refine (AList.length_values_le ?_).trans hp
    intro k s hs
    obtain ⟨t, w, r, p, hr, hpm, -, rfl⟩ := pod_of_run hs
    exact List.mem_toFinset.2 (List.mem_flatMap.2 ⟨_, hr, List.mem_map.2 ⟨p, hpm, rfl⟩⟩)
  node := by
    intro s hs f
    obtain ⟨k, hk⟩ := AList.mem_values.1 hs
    obtain ⟨t, w, r, hr, he, -⟩ := node_of_run hk
    obtain ⟨⟨hc, hm, hg⟩, -⟩ := power_le_of_validateReport (ha t w r hr)
    have hroom : maxPowerUw ≤ nodeRoom := by unfold maxPowerUw nodeRoom; omega
    rw [he]
    cases f with
    | cpu => exact hc.trans hroom
    | memory => exact hm.trans hroom
    | gpu => exact hg.trans hroom
    | platform => exact (hb t w r hr).platform
    | psuOutput => exact (hb t w r hr).psuOutput
    | idle => exact (hb t w r hr).idle
  used := by
    intro s hs
    obtain ⟨k, hk⟩ := AList.mem_values.1 hs
    obtain ⟨t, w, r, hr, he, -⟩ := node_of_run hk
    rw [he]
    exact (power_le_of_validateReport (ha t w r hr)).1
  pod := by
    intro s hs f
    obtain ⟨k, hk⟩ := AList.mem_values.1 hs
    obtain ⟨t, w, r, p, hr, hpm, he, -⟩ := pod_of_run hk
    obtain ⟨hc, hm, hg, hst, hio⟩ := (hb t w r hr).pods p hpm
    have ht := (power_le_of_validateReport (ha t w r hr)).2 p hpm
    rw [he, ofPod_stamped]
    cases f with
    | cpu => exact hc
    | memory => exact hm
    | gpu => exact hg
    | storage => exact hst
    | io => exact hio
    | total => exact ht.trans (by unfold maxPowerUw podRoom; omega)
    | podCount => exact show 1 ≤ podRoom by unfold podRoom; omega

/-- In every run of accepted reports whose unchecked fields are bounded as
well, with at most 1,000,000 node and 100,000,000 pod keys, no addition of any
view overflows. -/
theorem bounded_runs_never_overflow (evs : List Event) (ha : Accepted evs)
    (hn : (nodeKeys evs).toFinset.card ≤ 1000000) (hp : (podKeys evs).toFinset.card ≤ 100000000)
    (hb : ∀ t w r, Event.ingest t w r ∈ evs → Bounded r) : NoOverflow (run evs) :=
  (roomy_run ha hn hp hb).noOverflow

theorem bounded_run_of_agreeingLog :
    Accepted agreeingLog ∧ (∀ t w r, Event.ingest t w r ∈ agreeingLog → Bounded r) ∧ NoOverflow (run agreeingLog) := by
  have hb : ∀ t w r, Event.ingest t w r ∈ agreeingLog → Bounded r := by
    apply forall_reports
    refine List.forall_mem_cons.2 ⟨?_, List.forall_mem_singleton.2 ?_⟩ <;>
    exact ⟨by decide, by decide, by decide, by decide⟩
  refine ⟨accepted_agreeingLog, hb, ?_⟩
  exact bounded_runs_never_overflow agreeingLog accepted_agreeingLog (by decide) (by decide) hb

/-- Two nodes that each report an idle power of 2^63 microwatts. -/
def idleLog : List Event :=
  [.ingest 1 1 ⟨makeNode "node-1" 5000 2000 0 none (2 ^ 63), []⟩,
   .ingest 2 2 ⟨makeNode "node-2" 5000 2000 0 none (2 ^ 63), []⟩]

/-- Both reports are accepted, and `cluster_power` then overflows on their sum. -/
theorem two_reports_overflow_idle :
    Accepted idleLog ∧ (nodeKeys idleLog).toFinset.card ≤ 1000000 ∧ (podKeys idleLog).toFinset.card ≤ 100000000 ∧
      (run idleLog).clusterPower? none = none ∧ ¬NoOverflow (run idleLog) := by
  have hacc : Accepted idleLog := by
    apply forall_reports
    exact List.forall_mem_cons.2 ⟨rfl, List.forall_mem_singleton.2 rfl⟩
  have hnone : (run idleLog).clusterPower? none = none := by decide +kernel
  refine ⟨hacc, by decide, by decide, hnone, ?_⟩
  intro h
  have hsome := h.cluster none
  rw [hnone] at hsome
  cases hsome

end Keck.Controller
