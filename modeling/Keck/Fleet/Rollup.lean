import Mathlib.Algebra.BigOperators.Ring.List
import Mathlib.Algebra.Order.Field.Rat
import Mathlib.Tactic.Ring
import Keck.Lib.Groups
import Keck.Fleet.Registry
/-!
# Fleet roll-ups

The views the registry serves (`fleet_summary`, `team_power`) and the daily
report built from them (`keck-fleet/src/reporting/mod.rs`). Watts, carbon and
cost are three `Quantity`s, and each layer keeps every one of them: the teams
partition the rows of the latest reports, the fleet's totals are the sums over
its clusters, and the report's are those of a day (`rollups_conserve`).
-/
namespace Keck.Fleet

open Keck.Lib

/-- `sort_by` on a power, highest first. -/
def byWatts {σ : Type} (watts : σ → ℚ) (views : List σ) : List σ := views.insertionSort fun a b => watts b ≤ watts a

theorem byWatts_perm {σ : Type} (watts : σ → ℚ) (views : List σ) : (byWatts watts views).Perm views :=
  List.perm_insertionSort _ views

theorem byWatts_sorted {σ : Type} (watts : σ → ℚ) (views : List σ) :
    (byWatts watts views).Pairwise fun a b => watts b ≤ watts a := by
  have : Std.Total fun a b : σ => watts b ≤ watts a := ⟨fun a b => le_total (watts b) (watts a)⟩
  have : IsTrans σ fun a b => watts b ≤ watts a := ⟨fun _ _ _ h h' => le_trans h' h⟩
  exact List.pairwise_insertionSort _ views

/-! ## Clusters -/

structure ClusterView where
  clusterId : String
  clusterName : String
  region : String
  totalWatts : ℚ
  carbonGramsPerHour : ℚ
  carbonIntensity : ℚ
  costPerHour : ℚ
  nodeCount : Nat
  podCount : Nat
  errorRatio : ℚ
  lastSeenSecsAgo : Nat

/-- A cluster's view at time `now`. -/
def ClusterView.of (now : Int) (state : ClusterState) : ClusterView where
  clusterId := state.latestReport.clusterId
  clusterName := state.latestReport.clusterName
  region := state.latestReport.region
  totalWatts := state.latestReport.power.totalWatts
  carbonGramsPerHour := state.latestReport.carbon.emissionsGramsPerHour
  carbonIntensity := state.latestReport.carbon.intensityGramsPerKwh
  costPerHour := state.latestReport.power.totalWatts / 1000 * state.latestReport.carbon.costPerKwh
  nodeCount := state.latestReport.nodeCount
  podCount := state.latestReport.podCount
  errorRatio := state.latestReport.avgErrorRatio
  lastSeenSecsAgo := (now - state.receivedAt).toNat / 1000000000

structure FleetSummary where
  totalWatts : ℚ := 0
  totalCpuWatts : ℚ := 0
  totalMemoryWatts : ℚ := 0
  totalGpuWatts : ℚ := 0
  totalIdleWatts : ℚ := 0
  totalCarbonGramsPerHour : ℚ := 0
  totalCostPerHour : ℚ := 0
  totalCostCurrency : String := "USD"
  clusterCount : Nat := 0
  totalNodes : Nat := 0
  totalPods : Nat := 0
  clusters : List ClusterView := []

/-- One round of the loop of `fleet_summary`; the node and pod counts are `u32`. -/
def FleetSummary.add (now : Int) (s : FleetSummary) (state : ClusterState) : FleetSummary :=
  let r := state.latestReport
  { s with
    totalWatts := s.totalWatts + r.power.totalWatts
    totalCpuWatts := s.totalCpuWatts + r.power.cpuWatts
    totalMemoryWatts := s.totalMemoryWatts + r.power.memoryWatts
    totalGpuWatts := s.totalGpuWatts + r.power.gpuWatts
    totalIdleWatts := s.totalIdleWatts + r.power.idleWatts
    totalCarbonGramsPerHour := s.totalCarbonGramsPerHour + r.carbon.emissionsGramsPerHour
    totalCostPerHour := s.totalCostPerHour + r.power.totalWatts / 1000 * r.carbon.costPerKwh
    totalNodes := (s.totalNodes + r.nodeCount) % 2 ^ 32
    totalPods := (s.totalPods + r.podCount) % 2 ^ 32
    clusters := s.clusters ++ [ClusterView.of now state] }

def ClusterRegistry.fleetSummary (reg : ClusterRegistry) (now : Int) : FleetSummary :=
  let s := reg.clusters.values.foldl (FleetSummary.add now) {}
  { s with
    clusterCount := reg.clusters.entries.length
    clusters := byWatts (·.totalWatts) s.clusters }

/-! ## Teams -/

structure TeamClusterBreakdown where
  clusterName : String
  ns : String
  watts : ℚ

structure TeamPowerView where
  team : String
  totalWatts : ℚ := 0
  carbonGramsPerHour : ℚ := 0
  costPerHour : ℚ := 0
  perCluster : List TeamClusterBreakdown := []

/-- A namespace of a cluster's latest report. -/
structure Row where
  report : ClusterReport
  ns : NamespaceSummary

def Row.breakdown (row : Row) : TeamClusterBreakdown := ⟨row.report.clusterName, row.ns.ns, row.ns.totalWatts⟩

def TeamPowerView.add (view : TeamPowerView) (row : Row) : TeamPowerView :=
  { view with
    totalWatts := view.totalWatts + row.ns.totalWatts
    carbonGramsPerHour :=
      view.carbonGramsPerHour + row.ns.totalWatts / 1000 * row.report.carbon.intensityGramsPerKwh
    costPerHour := view.costPerHour + row.ns.totalWatts / 1000 * row.report.carbon.costPerKwh
    perCluster := view.perCluster ++ [row.breakdown] }

namespace ClusterRegistry

/-- The rows in the order the two nested loops of `team_power` meet them. -/
def rows (reg : ClusterRegistry) : List Row :=
  reg.clusters.values.flatMap fun state => state.latestReport.namespaces.map fun ns => ⟨state.latestReport, ns⟩

def teamOf (reg : ClusterRegistry) (row : Row) : String := (reg.namespaceOwners.lookup row.ns.ns).getD "unassigned"

def teamMap (reg : ClusterRegistry) : Table String TeamPowerView :=
  groupFold reg.teamOf (fun row => { team := reg.teamOf row }) TeamPowerView.add reg.rows

def teamPower (reg : ClusterRegistry) : List TeamPowerView := byWatts (·.totalWatts) reg.teamMap.values

end ClusterRegistry

/-! ## The daily report -/

inductive ReportType where
  | dailySummary
  | monthlyEsg
  | onDemandAudit

structure FleetPeriodSummary where
  energyKwh : ℚ
  carbonKg : ℚ
  cost : ℚ
  costCurrency : String
  avgPowerWatts : ℚ
  peakPowerWatts : ℚ
  avgCarbonIntensity : ℚ

structure ClusterPeriodSummary where
  clusterName : String
  region : String
  energyKwh : ℚ
  carbonKg : ℚ
  cost : ℚ
  avgPowerWatts : ℚ

structure TeamPeriodSummary where
  team : String
  energyKwh : ℚ
  carbonKg : ℚ
  cost : ℚ
  namespaceCount : Nat

structure ReportData where
  fleet : FleetPeriodSummary
  clusters : List ClusterPeriodSummary
  teams : List TeamPeriodSummary

structure Report where
  id : String
  reportType : ReportType
  generatedAt : Int
  periodStart : Int
  periodEnd : Int
  data : ReportData

/-- The report at the given clocks; `format` renders a time for the id. -/
def generateDailyReport (format : Int → String) (reg : ClusterRegistry) (now utcNow : Int) : Report :=
  let fleet := reg.fleetSummary now
  let hours : ℚ := 24
  let fleetEnergyKwh := fleet.totalWatts / 1000 * hours
  let fleetCarbonKg := fleet.totalCarbonGramsPerHour * hours / 1000
  let fleetCost := fleet.totalCostPerHour * hours
  let clusters := fleet.clusters.map fun c =>
    { clusterName := c.clusterName
      region := c.region
      energyKwh := c.totalWatts / 1000 * hours
      carbonKg := c.carbonGramsPerHour * hours / 1000
      cost := c.costPerHour * hours
      avgPowerWatts := c.totalWatts }
  let teams := reg.teamPower.map fun t =>
    { team := t.team
      energyKwh := t.totalWatts / 1000 * hours
      carbonKg := t.carbonGramsPerHour * hours / 1000
      cost := t.costPerHour * hours
      namespaceCount := t.perCluster.length }
  let avgIntensity := if fleetEnergyKwh > 0 then fleetCarbonKg * 1000 / fleetEnergyKwh else 0
  { id := "daily-" ++ format utcNow
    reportType := .dailySummary
    generatedAt := utcNow
    periodStart := utcNow - 24 * 3600 * 1000000000
    periodEnd := utcNow
    data :=
      { fleet :=
          { energyKwh := fleetEnergyKwh
            carbonKg := fleetCarbonKg
            cost := fleetCost
            costCurrency := fleet.totalCostCurrency
            avgPowerWatts := fleet.totalWatts
            peakPowerWatts := fleet.totalWatts
            avgCarbonIntensity := avgIntensity }
        clusters := clusters
        teams := teams } }

/-! ## Three quantities -/

/-- What is rolled up: power (energy, over a day), carbon and cost. -/
inductive Quantity where
  | power
  | carbon
  | cost

namespace Quantity

def ofRow : Quantity → Row → ℚ
  | power, row => row.ns.totalWatts
  | carbon, row => row.ns.totalWatts / 1000 * row.report.carbon.intensityGramsPerKwh
  | cost, row => row.ns.totalWatts / 1000 * row.report.carbon.costPerKwh

def ofTeam : Quantity → TeamPowerView → ℚ
  | power, t => t.totalWatts
  | carbon, t => t.carbonGramsPerHour
  | cost, t => t.costPerHour

def ofView : Quantity → ClusterView → ℚ
  | power, c => c.totalWatts
  | carbon, c => c.carbonGramsPerHour
  | cost, c => c.costPerHour

def ofFleet : Quantity → FleetSummary → ℚ
  | power, s => s.totalWatts
  | carbon, s => s.totalCarbonGramsPerHour
  | cost, s => s.totalCostPerHour

def ofFleetPeriod : Quantity → FleetPeriodSummary → ℚ
  | power, s => s.energyKwh
  | carbon, s => s.carbonKg
  | cost, s => s.cost

def ofClusterPeriod : Quantity → ClusterPeriodSummary → ℚ
  | power, s => s.energyKwh
  | carbon, s => s.carbonKg
  | cost, s => s.cost

/-- A day's worth of a rate, in the report's units. -/
def daily : Quantity → ℚ → ℚ
  | power, x => x / 1000 * 24
  | carbon, x => x * 24 / 1000
  | cost, x => x * 24

theorem daily_sum (q : Quantity) (xs : List ℚ) : q.daily xs.sum = (xs.map q.daily).sum := by
  have hlin : ∀ x, q.daily x = x * q.daily 1 := by
    intro x
    cases q <;> simp only [daily] <;> ring
  induction xs with
  | nil => simp [hlin 0]
  | cons x xs ih => rw [List.sum_cons, List.map_cons, List.sum_cons, ← ih, hlin, hlin x, hlin xs.sum, add_mul]

theorem ofTeam_add (q : Quantity) (view : TeamPowerView) (row : Row) :
    q.ofTeam (view.add row) = q.ofTeam view + q.ofRow row := by
  cases q <;> rfl

theorem ofFleet_add (q : Quantity) (now : Int) (s : FleetSummary) (state : ClusterState) :
    q.ofFleet (s.add now state) = q.ofFleet s + q.ofView (ClusterView.of now state) := by
  cases q <;> rfl

end Quantity

/-! ## Teams partition the rows -/

/-- The views are one per team that owns a row, each with exactly its team's
rows and their sums, and together they are all rows and their totals. -/
structure TeamsPartition (reg : ClusterRegistry) (views : List TeamPowerView) : Prop where
  distinct : (views.map (·.team)).Nodup
  owners : ∀ team, team ∈ views.map (·.team) ↔ ∃ row ∈ reg.rows, reg.teamOf row = team
  rows : ∀ v ∈ views, v.perCluster = (reg.rows.filter fun row => reg.teamOf row = v.team).map Row.breakdown
  sums : ∀ v ∈ views, ∀ q : Quantity,
    q.ofTeam v = ((reg.rows.filter fun row => reg.teamOf row = v.team).map q.ofRow).sum
  all : (views.flatMap (·.perCluster)).Perm (reg.rows.map Row.breakdown)
  totals : ∀ q : Quantity, (views.map q.ofTeam).sum = (reg.rows.map q.ofRow).sum

section Teams
variable (reg : ClusterRegistry)

theorem teamPower_perm : reg.teamPower.Perm reg.teamMap.values := byWatts_perm _ _

theorem team_of_lookup {team : String} {v : TeamPowerView} (h : reg.teamMap.lookup team = some v) : v.team = team :=
  key_of_lookup TeamPowerView.team h (fun _ _ => rfl) fun _ => rfl

theorem map_team_perm : (reg.teamPower.map (·.team)).Perm reg.teamMap.keys := by
  rw [← AList.map_values_eq_keys fun _ _ => team_of_lookup reg]
  exact (teamPower_perm reg).map _

theorem lookup_of_mem_teamPower {v : TeamPowerView} (h : v ∈ reg.teamPower) :
    reg.teamMap.lookup v.team = some v := by
  obtain ⟨team, hv⟩ := AList.mem_values.1 ((teamPower_perm reg).mem_iff.1 h)
  rwa [team_of_lookup reg hv]

theorem perCluster_of_lookup {team : String} {v : TeamPowerView} (h : reg.teamMap.lookup team = some v) :
    v.perCluster = (reg.rows.filter fun row => reg.teamOf row = team).map Row.breakdown := by
  have hfold : ∀ (rows : List Row) (v : TeamPowerView),
      (rows.foldl TeamPowerView.add v).perCluster = v.perCluster ++ rows.map Row.breakdown := by
    intro rows
    induction rows with
    | nil => simp
    | cons row rows ih => simp [ih, TeamPowerView.add]
  rw [ClusterRegistry.teamMap, lookup_groupFold, Option.map_eq_some_iff] at h
  obtain ⟨row, -, rfl⟩ := h
  rw [hfold, List.nil_append]

theorem flatMap_perCluster_perm : (reg.teamPower.flatMap (·.perCluster)).Perm (reg.rows.map Row.breakdown) := by
  have htotal : reg.teamMap.total (fun _ v => (v.perCluster : Multiset TeamClusterBreakdown)) =
      (reg.rows.map fun row => ({row.breakdown} : Multiset TeamClusterBreakdown)).sum := by
    refine total_groupFold (f := fun v : TeamPowerView => (v.perCluster : Multiset TeamClusterBreakdown)) ?_
      (fun _ => rfl) _
    intro v row
    exact (Multiset.coe_add _ _).symm
  refine ((teamPower_perm reg).flatMap_right _).trans ?_
  rw [← Multiset.coe_eq_coe, ← sum_singletons, ← sum_singletons (reg.rows.map _), sum_map_flatMap, List.map_map]
  refine Eq.trans ?_ htotal
  rw [← AList.sum_values]
  simp only [sum_singletons]

theorem teamPower_partition : TeamsPartition reg reg.teamPower where
  distinct := (map_team_perm reg).nodup_iff.2 reg.teamMap.keys_nodup
  owners team := by
    rw [(map_team_perm reg).mem_iff, ← AList.mem_keys]
    exact mem_groupFold _ _ _
  rows v hv := perCluster_of_lookup reg (lookup_of_mem_teamPower reg hv)
  sums v hv q := field_of_lookup q.ofTeam_add (fun _ => by cases q <;> rfl) (lookup_of_mem_teamPower reg hv)
  all := flatMap_perCluster_perm reg
  totals q := by
    rw [((teamPower_perm reg).map q.ofTeam).sum_eq, AList.sum_values]
    exact total_groupFold q.ofTeam_add (fun _ => by cases q <;> rfl) _

end Teams

/-! ## The fleet's totals -/

/-- The summary has one view for each registered cluster, highest power first,
and its totals are the sums over them. -/
structure FleetSums (reg : ClusterRegistry) (now : Int) (s : FleetSummary) : Prop where
  views : s.clusters.Perm (reg.clusters.values.map (ClusterView.of now))
  ids : (s.clusters.map (·.clusterId)).Perm reg.clusters.keys
  count : s.clusterCount = s.clusters.length
  sorted : s.clusters.Pairwise fun a b => b.totalWatts ≤ a.totalWatts
  sums : ∀ q : Quantity, q.ofFleet s = (s.clusters.map q.ofView).sum
  cpu : s.totalCpuWatts = (reg.clusters.values.map (·.latestReport.power.cpuWatts)).sum
  memory : s.totalMemoryWatts = (reg.clusters.values.map (·.latestReport.power.memoryWatts)).sum
  gpu : s.totalGpuWatts = (reg.clusters.values.map (·.latestReport.power.gpuWatts)).sum
  idle : s.totalIdleWatts = (reg.clusters.values.map (·.latestReport.power.idleWatts)).sum
  nodes : s.totalNodes = (s.clusters.map (·.nodeCount)).sum % 2 ^ 32
  pods : s.totalPods = (s.clusters.map (·.podCount)).sum % 2 ^ 32

section Fleet
variable (reg : ClusterRegistry) (now : Int)

theorem clusters_fleetSummary_perm :
    (reg.fleetSummary now).clusters.Perm (reg.clusters.values.map (ClusterView.of now)) := by
  have hfold : ∀ (states : List ClusterState) (s : FleetSummary),
      (states.foldl (FleetSummary.add now) s).clusters = s.clusters ++ states.map (ClusterView.of now) := by
    intro states
    induction states with
    | nil => simp
    | cons state states ih => simp [ih, FleetSummary.add]
  have hall := hfold reg.clusters.values {}
  rw [List.nil_append] at hall
  rw [← hall]
  exact byWatts_perm _ _

/-- What is summed over the views is summed over the stored clusters. -/
theorem sum_views {M : Type} [AddCommMonoid M] (f : ClusterView → M) :
    ((reg.fleetSummary now).clusters.map f).sum =
      (reg.clusters.values.map fun state => f (ClusterView.of now state)).sum := by
  rw [((clusters_fleetSummary_perm reg now).map f).sum_eq, List.map_map]
  rfl

theorem fleetSummary_sums (hreg : reg.KeysOk) : FleetSums reg now (reg.fleetSummary now) where
  views := clusters_fleetSummary_perm reg now
  ids := by
    rw [← AList.map_values_eq_keys hreg]
    refine ((clusters_fleetSummary_perm reg now).map _).trans ?_
    rw [List.map_map]
    exact List.Perm.refl _
  count := by
    rw [(clusters_fleetSummary_perm reg now).length_eq, List.length_map, AList.values, List.length_map]
    rfl
  sorted := byWatts_sorted _ _
  sums q := by
    rw [sum_views, ← zero_add (List.sum _)]
    have hfold := foldl_additive (q.ofFleet_add now) reg.clusters.values {}
    cases q <;> exact hfold
  cpu := (foldl_additive (f := FleetSummary.totalCpuWatts) (fun _ _ => rfl) _ _).trans (zero_add _)
  memory := (foldl_additive (f := FleetSummary.totalMemoryWatts) (fun _ _ => rfl) _ _).trans (zero_add _)
  gpu := (foldl_additive (f := FleetSummary.totalGpuWatts) (fun _ _ => rfl) _ _).trans (zero_add _)
  idle := (foldl_additive (f := FleetSummary.totalIdleWatts) (fun _ _ => rfl) _ _).trans (zero_add _)
  nodes := by
    rw [sum_views]
    exact foldl_additive_mod (f := FleetSummary.totalNodes) (fun _ _ => rfl) _ rfl
  pods := by
    rw [sum_views]
    exact foldl_additive_mod (f := FleetSummary.totalPods) (fun _ _ => rfl) _ rfl

end Fleet

/-! ## The report's totals -/

/-- The report has a row for each cluster view, the fleet's energy, carbon and
cost are the sums over them, and the average intensity, in grams per kWh, is
that of the total. -/
structure DailySums (s : FleetSummary) (data : ReportData) : Prop where
  rows : ∀ q : Quantity, data.clusters.map q.ofClusterPeriod = s.clusters.map fun c => q.daily (q.ofView c)
  fleet : ∀ q : Quantity, q.ofFleetPeriod data.fleet = (data.clusters.map q.ofClusterPeriod).sum
  intensity : 0 < data.fleet.energyKwh →
    data.fleet.avgCarbonIntensity * data.fleet.energyKwh = data.fleet.carbonKg * 1000

theorem generateDailyReport_sums {reg : ClusterRegistry} (hreg : reg.KeysOk) (format : Int → String)
    (now utcNow : Int) :
    DailySums (reg.fleetSummary now) (generateDailyReport format reg now utcNow).data := by
  have hrows : ∀ q : Quantity, (generateDailyReport format reg now utcNow).data.clusters.map q.ofClusterPeriod =
      (reg.fleetSummary now).clusters.map fun c => q.daily (q.ofView c) := by
    intro q
    simp only [generateDailyReport, List.map_map]
    cases q <;> rfl
  refine ⟨hrows, fun q => ?_, fun hpos => ?_⟩
  · have hfleet : q.ofFleetPeriod (generateDailyReport format reg now utcNow).data.fleet =
        q.daily (q.ofFleet (reg.fleetSummary now)) := by
      cases q <;> rfl
    rw [hfleet, hrows, (fleetSummary_sums reg now hreg).sums, Quantity.daily_sum, List.map_map]
    rfl
  · simp only [generateDailyReport] at hpos ⊢
    rw [if_pos hpos, div_mul_cancel₀ _ hpos.ne']

/-- In every registry that ingests, ownership changes and evictions can reach,
each roll-up keeps watts, carbon and cost. -/
theorem rollups_conserve (ops : List Op) (format : Int → String) (now utcNow : Int) :
    let reg := ClusterRegistry.run ops
    TeamsPartition reg reg.teamPower ∧ FleetSums reg now (reg.fleetSummary now) ∧
      DailySums (reg.fleetSummary now) (generateDailyReport format reg now utcNow).data :=
  ⟨teamPower_partition _, fleetSummary_sums _ now (ClusterRegistry.keysOk_run ops),
    generateDailyReport_sums (ClusterRegistry.keysOk_run ops) format now utcNow⟩

end Keck.Fleet
