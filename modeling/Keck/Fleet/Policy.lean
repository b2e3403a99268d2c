import Keck.Lib.Float
import Keck.Fleet.Rollup
/-!
# Fleet policies

`keck-fleet/src/policy/mod.rs`: the five kinds of policy and `evaluate`, which
compares the registry with each enabled one. The monotonic clock (`now`) tells
which clusters are active, the wall clock (`utcNow`) stamps the violations.

Two budgets do not bind as their kinds say. A team's is compared with the watts
of every registered cluster, so clusters that stopped reporting still count
(`teamBudget_iff`). A namespace's carbon budget is compared cluster by cluster,
so a namespace spread over clusters escapes it (`carbonBudget_iff`).
-/
namespace Keck.Fleet

open Keck.Lib

/-- `active_clusters`: the latest reports that are not stale. -/
def ClusterRegistry.activeClusters (reg : ClusterRegistry) (now : Int) : List ClusterReport :=
  (reg.clusters.values.filter fun s => decide (now - s.receivedAt < stalenessThreshold)).map (·.latestReport)

inductive PolicyKind where
  | teamPowerBudget (team : String) (maxWatts : ℚ)
  | namespaceCarbonBudget (ns : String) (maxGramsPerMonth : ℚ)
  | meteringQuality (maxErrorRatio : ℚ)
  | carbonIntensityPreference (maxGramsPerKwh : ℚ)
  | clusterStaleness (maxStaleSecs : Nat)

inductive Severity where
  | info
  | warning
  | critical

structure Policy where
  name : String
  kind : PolicyKind
  severity : Severity
  enabled : Bool

structure PolicyViolation where
  policyName : String
  severity : Severity
  message : String
  currentValue : ℚ
  threshold : ℚ
  timestamp : Int

/-- The violation a policy pushes when its value exceeds the threshold. -/
def Policy.exceeds (policy : Policy) (utcNow : Int) (current threshold : ℚ) (message : String) :
    List PolicyViolation :=
  if current > threshold then [⟨policy.name, policy.severity, message, current, threshold, utcNow⟩] else []

/-- The projected grams of CO2 a month of a namespace's power in its cluster. -/
def carbonPerMonth (cluster : ClusterReport) (ns : NamespaceSummary) : ℚ :=
  let kwhPerMonth := ns.totalWatts / 1000 * 24 * (3044 / 100)
  kwhPerMonth * cluster.carbon.intensityGramsPerKwh

/-- The body of the loop of `evaluate` for an enabled policy. -/
def Policy.violations (reg : ClusterRegistry) (now utcNow : Int) (policy : Policy) : List PolicyViolation :=
  match policy.kind with
  | .teamPowerBudget team maxWatts =>
    match reg.teamPower.find? fun v => v.team == team with
    | some view => policy.exceeds utcNow view.totalWatts maxWatts
        ("Team '" ++ team ++ "' power usage " ++ F64.fixed 0 view.totalWatts ++ "W exceeds budget " ++
          F64.fixed 0 maxWatts ++ "W")
    | none => []
  | .namespaceCarbonBudget name maxGramsPerMonth =>
    (reg.activeClusters now).flatMap fun cluster =>
      match cluster.namespaces.find? fun n => n.ns == name with
      | some ns => policy.exceeds utcNow (carbonPerMonth cluster ns) maxGramsPerMonth
          ("Namespace '" ++ name ++ "' in cluster '" ++ cluster.clusterName ++ "' projected at " ++
            F64.fixed 0 (carbonPerMonth cluster ns) ++ " gCO2/month (budget: " ++
            F64.fixed 0 maxGramsPerMonth ++ ")")
      | none => []
  | .meteringQuality maxErrorRatio =>
    (reg.activeClusters now).flatMap fun cluster =>
      policy.exceeds utcNow cluster.avgErrorRatio maxErrorRatio
        ("Cluster '" ++ cluster.clusterName ++ "' metering error " ++ F64.fixed 1 (cluster.avgErrorRatio * 100) ++
          "% exceeds threshold " ++ F64.fixed 1 (maxErrorRatio * 100) ++ "%")
  | .carbonIntensityPreference maxGramsPerKwh =>
    (reg.activeClusters now).flatMap fun cluster =>
      policy.exceeds utcNow cluster.carbon.intensityGramsPerKwh maxGramsPerKwh
        ("Cluster '" ++ cluster.clusterName ++ "' carbon intensity " ++
          F64.fixed 0 cluster.carbon.intensityGramsPerKwh ++ " gCO2/kWh exceeds preference " ++
          F64.fixed 0 maxGramsPerKwh)
  -- stale clusters included: the views of all registered clusters
  | .clusterStaleness maxStaleSecs =>
    (reg.fleetSummary now).clusters.flatMap fun cluster =>
      policy.exceeds utcNow cluster.lastSeenSecsAgo maxStaleSecs
        ("Cluster '" ++ cluster.clusterName ++ "' last reported " ++ toString cluster.lastSeenSecsAgo ++
          "s ago (threshold: " ++ toString maxStaleSecs ++ "s)")

def evaluate (reg : ClusterRegistry) (now utcNow : Int) (policies : List Policy) : List PolicyViolation :=
  policies.flatMap fun policy => if policy.enabled then policy.violations reg now utcNow else []

theorem exceeds_ne_nil {policy : Policy} {utcNow : Int} {current threshold : ℚ} {message : String} :
    policy.exceeds utcNow current threshold message ≠ [] ↔ threshold < current := by
  unfold Policy.exceeds
  split <;> simp_all

theorem evaluate_enabled (reg : ClusterRegistry) (now utcNow : Int) (name : String) (kind : PolicyKind)
    (severity : Severity) :
    evaluate reg now utcNow [⟨name, kind, severity, true⟩] =
      Policy.violations reg now utcNow ⟨name, kind, severity, true⟩ := by
  simp [evaluate]

/-! ## Team budgets -/

section TeamBudget
variable (reg : ClusterRegistry) (now : Int) (team : String)

def rowsOf (reports : List ClusterReport) : List Row := reports.flatMap fun r => r.namespaces.map (Row.mk r)

/-- The watts of the rows that satisfy a predicate. -/
def wattsOf (p : Row → Bool) (rows : List Row) : ℚ := ((rows.filter p).map fun row => row.ns.totalWatts).sum

def staleClusters : List ClusterReport :=
  (reg.clusters.values.filter fun s => !decide (now - s.receivedAt < stalenessThreshold)).map (·.latestReport)

def ownedBy (row : Row) : Bool := reg.namespaceOwners.lookup row.ns.ns == some team

def countedFor (row : Row) : Bool := reg.teamOf row == team

/-- The watts of the namespaces the team owns in the active clusters. -/
def activeTeamWatts : ℚ := wattsOf (ownedBy reg team) (rowsOf (reg.activeClusters now))

/-- What `team_power` counts for the team beyond that: the rows of stale
clusters, and for the team `unassigned` the namespaces without an owner. -/
def extraTeamWatts : ℚ :=
  wattsOf (fun row => countedFor reg team row && !ownedBy reg team row) (rowsOf (reg.activeClusters now)) +
    wattsOf (countedFor reg team) (rowsOf (staleClusters reg now))

theorem wattsOf_rowsOf (p : Row → Bool) (reports : List ClusterReport) :
    wattsOf p (rowsOf reports) = (reports.map fun r => wattsOf p (r.namespaces.map (Row.mk r))).sum := by
  unfold wattsOf rowsOf
  rw [List.filter_flatMap, sum_map_flatMap]

/-- The rows of all registered clusters are those of the active and of the stale ones. -/
theorem wattsOf_rows (p : Row → Bool) :
    wattsOf p reg.rows = wattsOf p (rowsOf (reg.activeClusters now)) + wattsOf p (rowsOf (staleClusters reg now)) := by
  have hrows : reg.rows = rowsOf (reg.clusters.values.map (·.latestReport)) := by
    rw [ClusterRegistry.rows, rowsOf, List.flatMap_map]
  rw [hrows, wattsOf_rowsOf, wattsOf_rowsOf, wattsOf_rowsOf, ClusterRegistry.activeClusters, staleClusters,
    List.map_map, List.map_map, List.map_map]
  exact sum_filter_split _ _ _

theorem counted_of_owned {row : Row} (h : ownedBy reg team row) : countedFor reg team row := by
  simp only [ownedBy, beq_iff_eq] at h
  simp [countedFor, ClusterRegistry.teamOf, h]

/-- The rows counted for a team in the active clusters, by whether it owns them. -/
theorem wattsOf_counted (rows : List Row) :
    wattsOf (countedFor reg team) rows =
      wattsOf (ownedBy reg team) rows +
        wattsOf (fun row => countedFor reg team row && !ownedBy reg team row) rows := by
  have howned : ∀ row, (ownedBy reg team row && countedFor reg team row) = ownedBy reg team row := by
    intro row
    cases h : ownedBy reg team row with
    | false => rfl
    | true => rw [counted_of_owned reg team h, Bool.and_true]
  unfold wattsOf
  rw [sum_filter_split (ownedBy reg team), List.filter_filter, List.filter_filter]
  simp only [howned, Bool.and_comm]

theorem teamWatts_eq :
    wattsOf (countedFor reg team) reg.rows = activeTeamWatts reg now team + extraTeamWatts reg now team := by
  rw [wattsOf_rows reg now, wattsOf_counted, add_assoc, activeTeamWatts, extraTeamWatts]

/-- What the loop finds for a team: the watts of all rows counted for it. -/
theorem totalWatts_of_find {view : TeamPowerView} (h : (reg.teamPower.find? fun v => v.team == team) = some view) :
    view.totalWatts = wattsOf (countedFor reg team) reg.rows := by
  have hteam : view.team = team := by simpa using List.find?_some h
  have hsum := (teamPower_partition reg).sums view (List.mem_of_find?_eq_some h) .power
  rw [hteam] at hsum
  exact hsum

theorem wattsOf_of_find_none (h : (reg.teamPower.find? fun v => v.team == team) = none) :
    wattsOf (countedFor reg team) reg.rows = 0 := by
  have hnone : reg.rows.filter (countedFor reg team) = [] := by
    rw [List.filter_eq_nil_iff]
    intro row hrow hteam
    have hview := ((teamPower_partition reg).owners team).2 ⟨row, hrow, by simpa [countedFor] using hteam⟩
    obtain ⟨v, hv, hvteam⟩ := List.mem_map.1 hview
    exact List.find?_eq_none.1 h v hv (by simpa using hvteam)
  simp [wattsOf, hnone]

theorem teamBudget_exceeded {maxWatts : ℚ} (hmax : 0 ≤ maxWatts) (utcNow : Int) (name : String)
    (severity : Severity) :
    evaluate reg now utcNow [⟨name, .teamPowerBudget team maxWatts, severity, true⟩] ≠ [] ↔
      maxWatts < wattsOf (countedFor reg team) reg.rows := by
  rw [evaluate_enabled]
  simp only [Policy.violations]
  cases hfind : reg.teamPower.find? fun v => v.team == team with
  | none =>
    rw [wattsOf_of_find_none reg team hfind]
    simp [hmax]
  | some view => rw [exceeds_ne_nil, totalWatts_of_find reg team hfind]

variable {reg now team} in
/-- With every cluster active, a team has just the rows it owns, unless it is the
one that namespaces without an owner go to. -/
theorem extraTeamWatts_eq_zero (hfresh : staleClusters reg now = []) (hteam : team ≠ "unassigned") :
    extraTeamWatts reg now team = 0 := by
  have hrow : ∀ row, (countedFor reg team row && !ownedBy reg team row) = false := by
    intro row
    cases h : reg.namespaceOwners.lookup row.ns.ns with
    | none => simp [countedFor, ClusterRegistry.teamOf, h, Ne.symm hteam]
    | some owner => simp [countedFor, ownedBy, ClusterRegistry.teamOf, h]
  simp only [extraTeamWatts, hrow, hfresh]
  simp [wattsOf, rowsOf]

/-- For such a team the budget is one on its namespaces in the active clusters. -/
theorem teamBudget_of_active {maxWatts : ℚ} (hmax : 0 ≤ maxWatts) (hfresh : staleClusters reg now = [])
    (hteam : team ≠ "unassigned") (utcNow : Int) (name : String) (severity : Severity) :
    evaluate reg now utcNow [⟨name, .teamPowerBudget team maxWatts, severity, true⟩] ≠ [] ↔
      maxWatts < activeTeamWatts reg now team := by
  rw [teamBudget_exceeded reg now team hmax, teamWatts_eq reg now, extraTeamWatts_eq_zero hfresh hteam, add_zero]

end TeamBudget

/-- A report of a cluster with power in one namespace. -/
def webReport (name : String) (watts intensity : ℚ) : ClusterReport where
  clusterId := name
  clusterName := name
  region := "eu"
  provider := "onprem"
  power := ⟨watts, watts, 0, 0, 0, none⟩
  namespaces := [⟨"web", watts, 1⟩]
  carbon := ⟨intensity, watts / 1000 * intensity, 1 / 5, "USD"⟩
  nodeCount := 1
  podCount := 1
  avgErrorRatio := 0
  timestamp := 0

/-- One cluster reported 60 W of a namespace of team `platform`, at time 0. -/
def reportedOnce : ClusterRegistry :=
  (ClusterRegistry.new.setNamespaceOwner "web" "platform").ingest 0 0 (webReport "east" 60 100)

section CarbonBudget
variable (reg : ClusterRegistry) (now : Int) (ns : String)

/-- The projected emissions of a namespace, over all active clusters and rows. -/
def monthlyEmissions : ℚ :=
  ((reg.activeClusters now).map fun cluster =>
    ((cluster.namespaces.filter fun n => n.ns == ns).map (carbonPerMonth cluster)).sum).sum

theorem carbonBudget_exceeded (maxGrams : ℚ) (utcNow : Int) (name : String) (severity : Severity) :
    evaluate reg now utcNow [⟨name, .namespaceCarbonBudget ns maxGrams, severity, true⟩] ≠ [] ↔
      ∃ cluster ∈ reg.activeClusters now, ∃ row,
        (cluster.namespaces.find? fun n => n.ns == ns) = some row ∧ maxGrams < carbonPerMonth cluster row := by
  rw [evaluate_enabled, Policy.violations, ne_eq, List.flatMap_eq_nil_iff]
  simp only [not_forall, exists_prop]
  refine exists_congr fun cluster => and_congr_right fun _ => ?_
  cases cluster.namespaces.find? fun n => n.ns == ns with
  | none => simp
  | some row => simp [exceeds_ne_nil]

variable {reg now}

theorem carbonPerMonth_nonneg {cluster : ClusterReport} {row : NamespaceSummary} (hwatts : 0 ≤ row.totalWatts)
    (hintensity : 0 ≤ cluster.carbon.intensityGramsPerKwh) : 0 ≤ carbonPerMonth cluster row := by
  unfold carbonPerMonth
  positivity

theorem carbonPerMonth_le (hwatts : ∀ c ∈ reg.activeClusters now, ∀ n ∈ c.namespaces, 0 ≤ n.totalWatts)
    (hintensity : ∀ c ∈ reg.activeClusters now, 0 ≤ c.carbon.intensityGramsPerKwh) {cluster : ClusterReport}
    (hcluster : cluster ∈ reg.activeClusters now) {row : NamespaceSummary} (hrow : row ∈ cluster.namespaces)
    (hns : row.ns = ns) : carbonPerMonth cluster row ≤ monthlyEmissions reg now ns := by
  have hnonneg : ∀ c ∈ reg.activeClusters now,
      ∀ x ∈ (c.namespaces.filter fun n => n.ns == ns).map (carbonPerMonth c), 0 ≤ x := by
    intro c hc x hx
    obtain ⟨n, hn, rfl⟩ := List.mem_map.1 hx
    exact carbonPerMonth_nonneg (hwatts c hc n (List.mem_filter.1 hn).1) (hintensity c hc)
  calc carbonPerMonth cluster row
    _ ≤ ((cluster.namespaces.filter fun n => n.ns == ns).map (carbonPerMonth cluster)).sum := by
        refine List.single_le_sum (hnonneg cluster hcluster) _ (List.mem_map_of_mem ?_)
        exact List.mem_filter.2 ⟨hrow, by simpa using hns⟩
    _ ≤ monthlyEmissions reg now ns := by
        refine List.single_le_sum ?_ _ (List.mem_map_of_mem hcluster)
        intro x hx
        obtain ⟨c, hc, rfl⟩ := List.mem_map.1 hx
        exact List.sum_nonneg (hnonneg c hc)

/-- An enabled carbon budget is exceeded exactly when the namespace's emissions
over the fleet exceed it, if and only if they do not, or one cluster's first row
of the namespace exceeds the budget by itself. -/
theorem carbonBudget_iff (hwatts : ∀ c ∈ reg.activeClusters now, ∀ n ∈ c.namespaces, 0 ≤ n.totalWatts)
    (hintensity : ∀ c ∈ reg.activeClusters now, 0 ≤ c.carbon.intensityGramsPerKwh) (maxGrams : ℚ)
    (utcNow : Int) (name : String) (severity : Severity) :
    (evaluate reg now utcNow [⟨name, .namespaceCarbonBudget ns maxGrams, severity, true⟩] ≠ [] ↔
        maxGrams < monthlyEmissions reg now ns) ↔
      monthlyEmissions reg now ns ≤ maxGrams ∨
        ∃ cluster ∈ reg.activeClusters now, ∃ row,
          (cluster.namespaces.find? fun n => n.ns == ns) = some row ∧ maxGrams < carbonPerMonth cluster row := by
  rw [carbonBudget_exceeded]
  constructor
  · intro hexact
    rcases le_or_gt (monthlyEmissions reg now ns) maxGrams with hwithin | hover
    · exact .inl hwithin
    · exact .inr (hexact.2 hover)
  · intro hcond
    constructor
    · rintro ⟨cluster, hcluster, row, hfind, hover⟩
      have hns : row.ns = ns := by simpa using List.find?_some hfind
      exact hover.trans_le (carbonPerMonth_le ns hwatts hintensity hcluster (List.mem_of_find?_eq_some hfind) hns)
    · intro hover
      exact hcond.resolve_left (not_le.2 hover)

end CarbonBudget

/-- Two active clusters with 100 W of a namespace each, at 500 g/kWh. -/
def reportedTwice : ClusterRegistry :=
  (ClusterRegistry.new.ingest 0 0 (webReport "east" 100 500)).ingest 0 0 (webReport "west" 100 500)

theorem one_cluster_over_budget :
    evaluate reportedTwice 0 0 [⟨"cap", .namespaceCarbonBudget "web" 30000, .warning, true⟩] ≠ [] ↔
      30000 < monthlyEmissions reportedTwice 0 "web" :=
  (carbonBudget_iff "web" (by decide +kernel) (by decide +kernel) 30000 0 "cap" .warning).2
    (.inr (by decide +kernel))

/-- Each cluster is projected at 36528 g, so 73056 g pass a budget of 50000 g. -/
theorem two_clusters_within_budget :
    monthlyEmissions reportedTwice 0 "web" = 73056 ∧
      ¬ (evaluate reportedTwice 0 0 [⟨"cap", .namespaceCarbonBudget "web" 50000, .warning, true⟩] ≠ [] ↔
        50000 < monthlyEmissions reportedTwice 0 "web") := by
  decide +kernel

end Keck.Fleet
