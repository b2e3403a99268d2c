import Keck.Lib.Groups
import Keck.Controller.EventLog
import Keck.Controller.KeplerText
/-!
# Scraping Kepler

`scrape_and_ingest` (`keck-controller/src/kepler_scraper.rs`) adds up the
samples of a scraped body and ingests one report for every node that has a
running pod in it. The reports come out of hash maps, so the order of the pods
in a report and of the reports is any (`World`), and every report is built and
ingested at its own time.

A scrape replaces the Kepler pods of the nodes it has reports for. A node that
the body mentions without a running pod gets no report, so what is stored for
it stays until it is stale; `kepler_view_replaced_iff` says exactly when the
stored Kepler pods of every mentioned node are those running in the body.
-/
namespace Keck.Controller

open Keck.Lib ClusterAggregator

/-! ## Adding up the samples -/

structure PodAccum where
  cpuWatts : F64 := 0
  gpuWatts : F64 := 0

/-- The maps the loop over the lines fills. -/
structure Totals where
  podData : Table PodKey PodAccum := ∅
  nodeCpuWatts : Table String F64 := ∅
  nodeGpuWatts : Table String F64 := ∅
  nodeIdleWatts : Table String F64 := ∅
  nodePlatformWatts : Table String F64 := ∅

/-- `*map.entry(node).or_default() += watts`. -/
def addWatts (m : Table String F64) (node : String) (watts : F64) : Table String F64 :=
  m.insert node (((m.lookup node).getD 0).add watts)

/-- Change a running pod's entry, created on first use. -/
def Totals.updatePod (t : Totals) (key : PodKey) (upd : PodAccum → PodAccum) : Totals :=
  if key.state ≠ "running" then t
  else { t with podData := t.podData.insert key (upd ((t.podData.lookup key).getD {})) }

def Totals.add (t : Totals) : Sample → Totals
  | .podCpu key watts => t.updatePod key fun entry => { entry with cpuWatts := entry.cpuWatts.add watts }
  | .podGpu key watts => t.updatePod key fun entry => { entry with gpuWatts := entry.gpuWatts.add watts }
  | .nodeCpu node watts => { t with nodeCpuWatts := addWatts t.nodeCpuWatts node watts }
  | .nodeIdle node watts => { t with nodeIdleWatts := addWatts t.nodeIdleWatts node watts }
  | .nodeGpu node watts => { t with nodeGpuWatts := addWatts t.nodeGpuWatts node watts }
  | .platform node watts => { t with nodePlatformWatts := addWatts t.nodePlatformWatts node watts }

def totals (body : String) : Totals := (samples body).foldl Totals.add {}

/-! ## The reports -/

/-- `(watts * 1_000_000.0) as u64`. -/
def microwatts (watts : F64) : Nat := (watts.scale 1000000).toUnsigned 64

/-- A pod's report, built at time `stamp`. -/
def keplerPod (stamp : Int) (key : PodKey) (accum : PodAccum) : PodPowerReport where
  nodeName := key.nodeName
  podUid := key.podId
  podName := key.podName
  ns := key.podNamespace
  cpuUw := microwatts accum.cpuWatts
  memoryUw := 0
  gpuUw := microwatts accum.gpuWatts
  totalUw := (microwatts accum.cpuWatts + microwatts accum.gpuWatts) % 2 ^ 64
  timestamp := stamp
  meteringMethod := "kepler"

/-- A node's report, built at time `stamp`. The difference under `unsigned_abs`
is one of `i64`. -/
def keplerNode (t : Totals) (stamp : Int) (nodeName : String) (pods : List PodPowerReport) : AgentReport :=
  let cpuUw := microwatts ((t.nodeCpuWatts.lookup nodeName).getD 0)
  let gpuUw := microwatts ((t.nodeGpuWatts.lookup nodeName).getD 0)
  let idleUw := microwatts ((t.nodeIdleWatts.lookup nodeName).getD 0)
  let platform := t.nodePlatformWatts.lookup nodeName
  let platformUw := platform.map microwatts
  let totalAttributed : Nat := (cpuUw + gpuUw) % 2 ^ 64
  let errorRatio : ℚ := match platformUw with
    | some p =>
      if p > 0 then
        (Int.bmod (Int.bmod p (2 ^ 64) - Int.bmod totalAttributed (2 ^ 64)) (2 ^ 64)).natAbs / p
      else 0
    | none => 0
  { node :=
      { nodeName := nodeName
        cpuUw := cpuUw
        memoryUw := 0
        gpuUw := gpuUw
        platformUw := platformUw
        idleUw := idleUw
        errorRatio := errorRatio
        podCount := pods.length % 2 ^ 32
        processCount := 0
        timestamp := stamp
        cpuSource := if platform.isSome then "kepler (RAPL + Redfish)" else "kepler (RAPL)"
        memorySource := "kepler"
        cpuReadingType := "estimated"
        meteringMethod := "kepler" }
    pods := pods }

@[simp] theorem method_keplerNode (t : Totals) (stamp : Int) (node : String) (pods : List PodPowerReport) :
    (keplerNode t stamp node pods).method = "kepler" := rfl

@[simp] theorem pods_keplerNode (t : Totals) (stamp : Int) (node : String) (pods : List PodPowerReport) :
    (keplerNode t stamp node pods).pods = pods := rfl

/-- What a scrape meets besides its text: in which order the two hash maps are
gone through, and the clocks when each report is built and ingested. -/
structure World where
  pods : Table PodKey PodAccum → List (Σ _ : PodKey, PodAccum)
  pods_perm : ∀ m, (pods m).Perm m.entries
  nodes : Table String (List PodPowerReport) → List (Σ _ : String, List PodPowerReport)
  nodes_perm : ∀ m, (nodes m).Perm m.entries
  podStamp : PodKey → Int
  nodeStamp : String → Int
  now : String → Int
  wall : String → Int

section Scrape
variable (w : World) (body : String)

/-- The pods' reports by node. -/
def podsByNode : Table String (List PodPowerReport) :=
  collect (fun e : Σ _ : PodKey, PodAccum => e.1.nodeName) (fun e => keplerPod (w.podStamp e.1) e.1 e.2)
    (w.pods (totals body).podData)

/-- The nodes that get a report, with their pods, in the order they get it. -/
def scraped : List (Σ _ : String, List PodPowerReport) := w.nodes (podsByNode w body)

/-- The ingest of a node's report. -/
def ingestNode (t : Totals) (e : Σ _ : String, List PodPowerReport) : Event :=
  .ingest (w.now e.1) (w.wall e.1) (keplerNode t (w.nodeStamp e.1) e.1 e.2)

/-- Ingest a scraped body, and count its pods. -/
def scrapeAndIngest (agg : ClusterAggregator) : ClusterAggregator × Nat :=
  (((scraped w body).map (ingestNode w (totals body))).foldl step agg, (totals body).podData.entries.length)

end Scrape

/-! ## Which pods a scrape has -/

/-- The body has a sample that says the pod is running. -/
def Running (body : String) (key : PodKey) : Prop := ∃ x ∈ samples body, x.running? = some key

/-- The body has a sample of the node. -/
def Mentioned (body node : String) : Prop := ∃ x ∈ samples body, x.node = node

/-- A pod of this id is running on the node. -/
def RunsOn (body uid node : String) : Prop := ∃ key, Running body key ∧ key.podId = uid ∧ key.nodeName = node

theorem node_of_running {x : Sample} {key : PodKey} (h : x.running? = some key) : x.node = key.nodeName := by
  cases x <;> simp_all [Sample.running?, Sample.node]

theorem RunsOn.mentioned {body uid node : String} (h : RunsOn body uid node) : Mentioned body node := by
  obtain ⟨key, ⟨x, hx, hk⟩, -, rfl⟩ := h
  exact ⟨x, hx, node_of_running hk⟩

theorem mem_podData_updatePod (t : Totals) (key k : PodKey) (upd : PodAccum → PodAccum) :
    k ∈ (t.updatePod key upd).podData ↔ k ∈ t.podData ∨ (key.state = "running" ∧ key = k) := by
  unfold Totals.updatePod
  split
  · simp_all
  · rw [AList.mem_insert]
    simp_all only [ne_eq, not_not, true_and]
    tauto

theorem mem_podData_add (t : Totals) (x : Sample) (k : PodKey) :
    k ∈ (t.add x).podData ↔ k ∈ t.podData ∨ x.running? = some k := by
  cases x with
  | podCpu key watts => simp [Totals.add, mem_podData_updatePod, Sample.running?]
  | podGpu key watts => simp [Totals.add, mem_podData_updatePod, Sample.running?]
  | _ => simp [Totals.add, Sample.running?]

/-- The accumulated pods are the running ones. -/
theorem mem_podData_totals {body : String} {k : PodKey} : k ∈ (totals body).podData ↔ Running body k := by
  have hfold : ∀ (xs : List Sample) (t : Totals),
      k ∈ (xs.foldl Totals.add t).podData ↔ k ∈ t.podData ∨ ∃ x ∈ xs, x.running? = some k := by
    intro xs
    induction xs with
    | nil => simp
    | cons x xs ih =>
      intro t
      rw [List.foldl_cons, ih, mem_podData_add]
      simp only [List.mem_cons, or_and_right, exists_or, exists_eq_left, or_assoc]
  rw [totals, hfold, Running]
  simp [AList.notMem_empty]

section Scrape
variable {w : World} {body : String}

theorem nodup_scraped : ((scraped w body).map (·.1)).Nodup :=
  ((w.nodes_perm _).map _).nodup_iff.2 (podsByNode w body).keys_nodup

/-- A listed pod is one of the accumulated ones, under its node. -/
theorem pod_of_scraped {e : Σ _ : String, List PodPowerReport} (he : e ∈ scraped w body) {p : PodPowerReport}
    (hp : p ∈ e.2) : ∃ key accum, (totals body).podData.lookup key = some accum ∧ key.nodeName = e.1 ∧
      p = keplerPod (w.podStamp key) key accum := by
  have hl : (podsByNode w body).lookup e.1 = some e.2 := AList.mem_entries.1 ((w.nodes_perm _).mem_iff.1 he)
  rw [(lookup_collect hl).1] at hp
  obtain ⟨⟨key, accum⟩, hmem, rfl⟩ := List.mem_map.1 hp
  obtain ⟨hmem, hnode⟩ := List.mem_filter.1 hmem
  exact ⟨key, accum, AList.mem_entries.1 ((w.pods_perm _).mem_iff.1 hmem), of_decide_eq_true hnode, rfl⟩

/-- Every running pod is listed for its node. -/
theorem scraped_of_runsOn {uid node : String} (h : RunsOn body uid node) :
    ∃ e ∈ scraped w body, e.1 = node ∧ ∃ p ∈ e.2, p.podUid = uid := by
  obtain ⟨key, hrun, rfl, rfl⟩ := h
  obtain ⟨accum, ha⟩ := Option.isSome_iff_exists.1 (AList.lookup_isSome.2 (mem_podData_totals.2 hrun))
  have hmem : (⟨key, accum⟩ : Σ _ : PodKey, PodAccum) ∈ w.pods (totals body).podData :=
    (w.pods_perm _).mem_iff.2 (AList.mem_entries.2 ha)
  obtain ⟨ps, hps⟩ := Option.isSome_iff_exists.1 (AList.lookup_isSome.2
    ((mem_groupFold (fun e : Σ _ : PodKey, PodAccum => e.1.nodeName) (fun _ => [])
      (fun l e => l ++ [keplerPod (w.podStamp e.1) e.1 e.2])).2 ⟨_, hmem, rfl⟩))
  refine ⟨⟨key.nodeName, ps⟩, (w.nodes_perm _).mem_iff.2 (AList.mem_entries.2 hps), rfl,
    keplerPod (w.podStamp key) key accum, ?_, rfl⟩
  rw [show ps = _ from (lookup_collect hps).1]
  exact List.mem_map_of_mem (List.mem_filter.2 ⟨hmem, decide_eq_true rfl⟩)

theorem lists_iff_runsOn {e : Σ _ : String, List PodPowerReport} (he : e ∈ scraped w body) {uid : String} :
    (∃ p ∈ e.2, p.podUid = uid) ↔ RunsOn body uid e.1 := by
  constructor
  · rintro ⟨p, hp, rfl⟩
    obtain ⟨key, accum, ha, hnode, rfl⟩ := pod_of_scraped he hp
    exact ⟨key, mem_podData_totals.1 (AList.lookup_isSome.1 (Option.isSome_of_mem ha)), rfl, hnode⟩
  · intro h
    obtain ⟨e', he', hnode, hp⟩ := scraped_of_runsOn (w := w) h
    rwa [← List.inj_on_of_nodup_map nodup_scraped he' he hnode]

/-- The nodes that get a report are those with a running pod. -/
theorem mem_scraped_iff {node : String} : node ∈ (scraped w body).map (·.1) ↔ ∃ uid, RunsOn body uid node := by
  constructor
  · intro h
    obtain ⟨e, he, rfl⟩ := List.mem_map.1 h
    have hne := (lookup_collect (AList.mem_entries.1 ((w.nodes_perm _).mem_iff.1 he))).2
    obtain ⟨p, hp⟩ := List.exists_mem_of_ne_nil _ hne
    exact ⟨p.podUid, (lists_iff_runsOn he).1 ⟨p, hp, rfl⟩⟩
  · rintro ⟨uid, h⟩
    obtain ⟨e, he, rfl, -⟩ := scraped_of_runsOn (w := w) h
    exact List.mem_map_of_mem he

end Scrape

end Keck.Controller
