import Mathlib.Data.Rat.Defs
import Keck.Lib.Table
/-!
# The fleet's cluster registry

`keck-fleet/src/registry/mod.rs`: the latest report of every cluster, with its
recent power and carbon readings, and the owners of namespaces. The clocks
(`Instant::now`, `Utc::now`) are arguments, in nanoseconds; `f64` is `ℚ`.

Reports carry the time they were generated, but `ingest` goes by the order of
delivery: it keeps the last report delivered and appends its reading. So the
registry is right about a cluster if and only if its reports came in the order
they were generated (`delivery_order_iff`).
-/
namespace Keck.Fleet

open Keck.Lib

structure ClusterPowerSummary where
  totalWatts : ℚ
  cpuWatts : ℚ
  memoryWatts : ℚ
  gpuWatts : ℚ
  idleWatts : ℚ
  platformWatts : Option ℚ

structure NamespaceSummary where
  ns : String
  totalWatts : ℚ
  podCount : Nat

structure CarbonData where
  intensityGramsPerKwh : ℚ
  emissionsGramsPerHour : ℚ
  costPerKwh : ℚ
  currency : String

structure ClusterReport where
  clusterId : String
  clusterName : String
  region : String
  provider : String
  power : ClusterPowerSummary
  namespaces : List NamespaceSummary
  carbon : CarbonData
  nodeCount : Nat
  podCount : Nat
  avgErrorRatio : ℚ
  timestamp : Int

structure ClusterState where
  latestReport : ClusterReport
  receivedAt : Int
  powerHistory : List (Int × ℚ)
  carbonHistory : List (Int × ℚ)

structure ClusterRegistry where
  clusters : Table String ClusterState
  namespaceOwners : Table String String

def stalenessThreshold : Int := 120 * 1000000000
def historyRetention : Int := 86400 * 30 * 1000000000

/-- The readings a report adds to the histories. -/
def ClusterReport.powerSample (r : ClusterReport) : Int × ℚ := (r.timestamp, r.power.totalWatts)

def ClusterReport.carbonSample (r : ClusterReport) : Int × ℚ := (r.timestamp, r.carbon.emissionsGramsPerHour)

/-! ## Operations -/

namespace ClusterRegistry

def new : ClusterRegistry := ⟨∅, ∅⟩

def ingest (reg : ClusterRegistry) (now utcNow : Int) (report : ClusterReport) : ClusterRegistry :=
  let state := (reg.clusters.lookup report.clusterId).getD ⟨report, now, [], []⟩
  let cutoff := utcNow - historyRetention
  let state : ClusterState :=
    { latestReport := report
      receivedAt := now
      powerHistory := (state.powerHistory ++ [report.powerSample]).filter fun s => decide (s.1 ≥ cutoff)
      carbonHistory := (state.carbonHistory ++ [report.carbonSample]).filter fun s => decide (s.1 ≥ cutoff) }
  { reg with clusters := reg.clusters.insert report.clusterId state }

def setNamespaceOwner (reg : ClusterRegistry) (ns team : String) : ClusterRegistry :=
  { reg with namespaceOwners := reg.namespaceOwners.insert ns team }

def evictStale (reg : ClusterRegistry) (now : Int) : ClusterRegistry :=
  { reg with clusters := reg.clusters.retain fun _ state => decide (now - state.receivedAt < stalenessThreshold) }

def clusterPowerHistory (reg : ClusterRegistry) (clusterId : String) (since : Int) : List (Int × ℚ) :=
  ((reg.clusters.lookup clusterId).map fun s => s.powerHistory.filter fun p => decide (p.1 ≥ since)).getD []

end ClusterRegistry

/-! ## Runs -/

inductive Op where
  | ingest (now utcNow : Int) (report : ClusterReport)
  | setNamespaceOwner (ns team : String)
  | evictStale (now : Int)

namespace ClusterRegistry

def step (reg : ClusterRegistry) : Op → ClusterRegistry
  | .ingest now utcNow report => reg.ingest now utcNow report
  | .setNamespaceOwner ns team => reg.setNamespaceOwner ns team
  | .evictStale now => reg.evictStale now

/-- The registry after a log of operations. -/
def run (ops : List Op) : ClusterRegistry := ops.foldl step new

/-- Every report is stored under the id it carries. -/
def KeysOk (reg : ClusterRegistry) : Prop :=
  ∀ id state, reg.clusters.lookup id = some state → state.latestReport.clusterId = id

theorem keysOk_step {reg : ClusterRegistry} (h : reg.KeysOk) (op : Op) : (reg.step op).KeysOk := by
  intro id state hs
  cases op with
  | ingest now utcNow report =>
    simp only [step, ingest, AList.lookup_insert_if] at hs
    split at hs
    · rename_i hid
      cases hs
      exact hid.symm
    · exact h id state hs
  | setNamespaceOwner ns team => exact h id state hs
  | evictStale now =>
    simp only [step, evictStale, AList.lookup_retain, Option.filter_eq_some_iff] at hs
    exact h id state hs.1

theorem keysOk_run (ops : List Op) : (run ops).KeysOk := by
  induction ops using List.reverseRecOn with
  | nil => intro id state hs; cases hs
  | append_singleton ops op ih =>
    rw [run, List.foldl_append]
    exact keysOk_step ih op

end ClusterRegistry

/-! ## Deliveries to one cluster -/

/-- A call of `ingest` and the clocks it reads. -/
structure Delivery where
  now : Int
  utcNow : Int
  report : ClusterReport

def deliver (reg : ClusterRegistry) (ds : List Delivery) : ClusterRegistry :=
  ds.foldl (fun reg d => reg.ingest d.now d.utcNow d.report) reg

/-- Every report is inside the retention window at every delivery. -/
def InWindow (ds : List Delivery) : Prop :=
  ∀ d ∈ ds, ∀ e ∈ ds, e.report.timestamp ≥ d.utcNow - historyRetention

instance (ds : List Delivery) : Decidable (InWindow ds) :=
  inferInstanceAs (Decidable (∀ d ∈ ds, ∀ e ∈ ds, e.report.timestamp ≥ d.utcNow - historyRetention))

/-- What a run of deliveries leaves of a cluster that was not registered: the
last report, and all readings in the order of delivery. -/
theorem lookup_deliver {reg : ClusterRegistry} {id : String} (hnew : reg.clusters.lookup id = none)
    {ds : List Delivery} (hid : ∀ d ∈ ds, d.report.clusterId = id) (hwin : InWindow ds) :
    (deliver reg ds).clusters.lookup id = ds.getLast?.map fun d =>
      ⟨d.report, d.now, ds.map (·.report.powerSample), ds.map (·.report.carbonSample)⟩ := by
  induction ds using List.reverseRecOn with
  | nil => simpa [deliver] using hnew
  | append_singleton ds d ih =>
    have hids : ∀ e ∈ ds, e.report.clusterId = id := fun e he => hid e (List.mem_append_left _ he)
    have hwins : InWindow ds := fun a ha b hb => hwin a (List.mem_append_left _ ha) b (List.mem_append_left _ hb)
    have hd : d.report.clusterId = id := hid d (List.mem_append_right _ List.mem_cons_self)
    -- nothing is trimmed: all timestamps are within the window of this delivery
    have hkeep : ∀ (sample : ClusterReport → Int × ℚ), (∀ r, (sample r).1 = r.timestamp) →
        (ds.map (fun e => sample e.report) ++ [sample d.report]).filter
          (fun s => decide (s.1 ≥ d.utcNow - historyRetention)) =
        (ds ++ [d]).map fun e => sample e.report := by
      intro sample hs
      rw [← List.map_singleton (f := fun e : Delivery => sample e.report), ← List.map_append, List.filter_eq_self]
      intro s hmem
      obtain ⟨e, he, rfl⟩ := List.mem_map.1 hmem
      rw [hs]
      exact decide_eq_true (hwin d (List.mem_append_right _ List.mem_cons_self) e he)
    have hold := ih hids hwins
    rw [deliver, List.foldl_append, List.foldl_cons, List.foldl_nil, ← deliver, ClusterRegistry.ingest, hd,
      AList.lookup_insert, hold, List.getLast?_concat, Option.map_some,
      ← hkeep ClusterReport.powerSample fun _ => rfl, ← hkeep ClusterReport.carbonSample fun _ => rfl]
    cases hl : ds.getLast? with
    | none => rw [List.getLast?_eq_none_iff.1 hl]; rfl
    | some e => rfl

/-- The registry is right about a cluster that sent `reports`: its latest
report is the newest of them, and the power history since any time is their
readings since then in the order they were generated. -/
structure Settled (reg : ClusterRegistry) (id : String) (reports : List ClusterReport) : Prop where
  latest : ∃ state, reg.clusters.lookup id = some state ∧ state.latestReport ∈ reports ∧
    ∀ r ∈ reports, r.timestamp ≤ state.latestReport.timestamp
  history : ∀ since, (reg.clusterPowerHistory id since).Perm
      ((reports.map (·.powerSample)).filter fun s => decide (s.1 ≥ since)) ∧
    (reg.clusterPowerHistory id since).Pairwise fun a b => a.1 < b.1

theorem clusterPowerHistory_deliver {reg : ClusterRegistry} {id : String} (hnew : reg.clusters.lookup id = none)
    {ds : List Delivery} (hid : ∀ d ∈ ds, d.report.clusterId = id) (hwin : InWindow ds) (since : Int) :
    (deliver reg ds).clusterPowerHistory id since =
      (ds.map (·.report.powerSample)).filter fun s => decide (s.1 ≥ since) := by
  rw [ClusterRegistry.clusterPowerHistory, lookup_deliver hnew hid hwin]
  cases hl : ds.getLast? with
  | none => rw [List.getLast?_eq_none_iff.1 hl]; rfl
  | some d => rfl

/-- The last of a strictly increasing list is its greatest. -/
theorem le_getLast_of_pairwise {ds : List Delivery} (h : (ds.map (·.report.timestamp)).Pairwise (· < ·))
    {d e : Delivery} (hlast : ds.getLast? = some d) (he : e ∈ ds) : e.report.timestamp ≤ d.report.timestamp := by
  obtain ⟨ds', rfl⟩ := List.getLast?_eq_some_iff.1 hlast
  rw [List.map_append, List.pairwise_append] at h
  rcases List.mem_append.1 he with hmem | hmem
  · exact (h.2.2 _ (List.mem_map_of_mem hmem) _ List.mem_cons_self).le
  · rw [List.mem_singleton.1 hmem]

/-- For all reports of one cluster inside the retention window and every order
of their delivery: the registry is right about the cluster if and only if they
were delivered in increasing order of their timestamps. -/
theorem delivery_order_iff (reg : ClusterRegistry) (id : String) (hnew : reg.clusters.lookup id = none)
    (ds : List Delivery) (hne : ds ≠ []) (hid : ∀ d ∈ ds, d.report.clusterId = id) (hwin : InWindow ds) :
    Settled (deliver reg ds) id (ds.map (·.report)) ↔ (ds.map (·.report.timestamp)).Pairwise (· < ·) := by
  have hhist := clusterPowerHistory_deliver hnew hid hwin
  have hpair : ∀ l : List Delivery, (l.map (·.report.timestamp)).Pairwise (· < ·) ↔
      (l.map (·.report.powerSample)).Pairwise fun a b => a.1 < b.1 := by
    intro l
    rw [List.pairwise_map, List.pairwise_map]
    rfl
  constructor
  · intro h
    -- the history since the oldest reading is all of it, as delivered
    obtain ⟨d, hd⟩ := List.exists_mem_of_ne_nil _ hne
    have hall := (h.history (d.utcNow - historyRetention)).2
    rw [hhist, List.filter_eq_self.2] at hall
    · exact (hpair ds).2 hall
    · intro s hs
      obtain ⟨e, he, rfl⟩ := List.mem_map.1 hs
      exact decide_eq_true (hwin d hd e he)
  · intro h
    refine ⟨?_, fun since => ?_⟩
    · have hd : ds.getLast? = some (ds.getLast hne) := List.getLast?_eq_some_getLast hne
      generalize ds.getLast hne = d at hd
      refine ⟨_, (lookup_deliver hnew hid hwin).trans (by rw [hd]; rfl), ?_, ?_⟩
      · exact List.mem_map_of_mem (List.mem_of_getLast? hd)
      · intro r hr
        obtain ⟨e, he, rfl⟩ := List.mem_map.1 hr
        exact le_getLast_of_pairwise h hd he
    · rw [hhist, List.map_map]
      exact ⟨List.Perm.refl _, ((hpair ds).1 h).filter _⟩

/-! ## Sample reports -/

/-- The factory of the source's own tests, at a given time. -/
def makeClusterReport (id name region : String) (totalWatts carbonIntensity : ℚ) (timestamp : Int) :
    ClusterReport where
  clusterId := id
  clusterName := name
  region := region
  provider := "bare-metal"
  power := ⟨totalWatts, totalWatts * 6 / 10, totalWatts * 2 / 10, totalWatts / 10, totalWatts / 10,
    some (totalWatts * 12 / 10)⟩
  namespaces := [⟨"prod", totalWatts * 7 / 10, 10⟩, ⟨"staging", totalWatts * 3 / 10, 5⟩]
  carbon := ⟨carbonIntensity, totalWatts / 1000 * carbonIntensity, 1 / 10, "USD"⟩
  nodeCount := 3
  podCount := 15
  avgErrorRatio := 5 / 100
  timestamp := timestamp

theorem in_order_settles :
    let ds : List Delivery := [⟨0, 10, makeClusterReport "c1" "prod" "us-east-1" 1000 400 1⟩,
      ⟨1, 11, makeClusterReport "c1" "prod" "us-east-1" 2000 400 2⟩]
    Settled (deliver .new ds) "c1" (ds.map (·.report)) :=
  (delivery_order_iff .new "c1" rfl _ (by simp) (by decide) (by decide)).2 (by decide)

/-- Two reports delivered newest first: the older one is kept as the latest,
and the history runs backwards. -/
theorem late_report_replaces_newer :
    let older := makeClusterReport "c1" "prod" "us-east-1" 1000 400 1
    let newer := makeClusterReport "c1" "prod" "us-east-1" 2000 400 2
    let reg := deliver .new [⟨0, 10, newer⟩, ⟨1, 11, older⟩]
    (reg.clusters.lookup "c1").map (·.latestReport.timestamp) = some 1 ∧
      reg.clusterPowerHistory "c1" 0 = [(2, 2000), (1, 1000)] := by
  decide +kernel

end Keck.Fleet
