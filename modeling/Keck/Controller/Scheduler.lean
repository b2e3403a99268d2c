import Keck.Lib.Float
import Keck.Controller.Views
/-!
# The scheduler extender

`filter` and `prioritize` of `keck-controller/src/scheduler/mod.rs`, over the
Keck view of the nodes. `f64` is `ℚ`, and `as u32` saturates.

A candidate is refused for one reason or passes (`refusal`). The budget of a
namespace is the last thing looked at, after a candidate without power data has
already passed, so it binds exactly on the candidates that have reported
(`budget_enforced_iff`). Scores are monotone in the used power, upwards for
packing and downwards for spreading, and fall with the metering error
(`scores_monotone`).
-/
namespace Keck.Controller

open Keck.Lib

inductive PlacementStrategy where
  | binPack
  | spread
  deriving DecidableEq

/-- `{:?}` -/
def PlacementStrategy.debug : PlacementStrategy → String
  | .binPack => "BinPack"
  | .spread => "Spread"

structure SchedulerConfig where
  headroomWeight : ℚ := 7 / 10
  accuracyWeight : ℚ := 3 / 10
  strategy : PlacementStrategy := .binPack
  namespaceBudgets : Table String ℚ := ∅

structure NodeScore where
  nodeName : String
  score : Nat
  reason : String

structure FilterResult where
  nodes : List String := []
  failed : Table String String := ∅

/-! ## What the scheduler reads -/

/-- The summaries of the nodes Keck meters, by name. -/
def nodeMap (agg : ClusterAggregator) (now : Int) : Table String NodeSummary :=
  (agg.nodeSummaries now (some "keck")).foldl (fun m n => m.insert n.nodeName n) ∅

/-- A namespace's power in watts. -/
def currentNsPower (agg : ClusterAggregator) (ns : String) : ℚ :=
  (((agg.namespacePower (some "keck")).find? fun row => row.ns == ns).map fun row => (row.totalUw : ℚ) / 1000000).getD 0

/-! ## Filter -/

/-- Why a candidate is refused, if it is. -/
def refusal (ns : String) (power : ℚ) (budget : Option ℚ) (summary : Option NodeSummary) : Option String :=
  match summary with
  -- no power data: new nodes have none yet
  | none => none
  | some summary =>
    if summary.errorRatio > 1 / 2 then
      some ("power metering unreliable (error ratio: " ++ F64.fixed 0 (summary.errorRatio * 100) ++ "%)")
    else
      match budget with
      | none => none
      | some budget =>
        if power ≥ budget then
          some ("namespace '" ++ ns ++ "' power budget exceeded (" ++ F64.fixed 0 power ++ "W / " ++
            F64.fixed 0 budget ++ "W)")
        else none

def FilterResult.add (refusal : String → Option String) (r : FilterResult) (nodeName : String) : FilterResult :=
  match refusal nodeName with
  | none => { r with nodes := r.nodes ++ [nodeName] }
  | some reason => { r with failed := r.failed.insert nodeName reason }

def filter (agg : ClusterAggregator) (now : Int) (cfg : SchedulerConfig) (candidateNodes : List String) (ns : String) :
    FilterResult :=
  candidateNodes.foldl (FilterResult.add fun nodeName =>
    refusal ns (currentNsPower agg ns) (cfg.namespaceBudgets.lookup ns) ((nodeMap agg now).lookup nodeName)) {}

theorem nodes_foldl_add (refusal : String → Option String) (names : List String) (r : FilterResult) :
    (names.foldl (FilterResult.add refusal) r).nodes =
      r.nodes ++ names.filter fun name => (refusal name).isNone := by
  induction names generalizing r with
  | nil => simp
  | cons name names ih =>
    rw [List.foldl_cons, ih]
    cases h : refusal name <;> simp [FilterResult.add, h]

theorem failed_foldl_add (refusal : String → Option String) (names : List String) (r : FilterResult) (name : String) :
    (((names.foldl (FilterResult.add refusal) r).failed.lookup name).isSome ↔
      (r.failed.lookup name).isSome ∨ name ∈ names ∧ (refusal name).isSome) := by
  induction names generalizing r with
  | nil => simp
  | cons n names ih =>
    rw [List.foldl_cons, ih]
    cases h : refusal n with
    | none =>
      simp only [FilterResult.add, h, List.mem_cons]
      by_cases hn : name = n
      · simp [hn, h]
      · simp [hn]
    | some reason =>
      simp only [FilterResult.add, h, AList.lookup_insert_if, List.mem_cons]
      by_cases hn : name = n
      · simp [hn, h]
      · simp [hn]

/-- The node has sent a report that Keck's method goes by. -/
def Reported (agg : ClusterAggregator) (nodeName : String) : Prop :=
  ∃ s ∈ agg.nodes.values, matchesMethod s.report.meteringMethod (some "keck") = true ∧ s.report.nodeName = nodeName

theorem lookup_nodeMap (agg : ClusterAggregator) (now : Int) (nodeName : String) :
    (nodeMap agg now).lookup nodeName =
      ((agg.nodeSummaries now (some "keck")).filter fun n => n.nodeName = nodeName).getLast? := by
  unfold nodeMap
  rw [AList.lookup_foldl_insert (fun n : NodeSummary => n.nodeName) (fun n => n)]
  simp

theorem isSome_nodeMap {agg : ClusterAggregator} {now : Int} {nodeName : String} :
    ((nodeMap agg now).lookup nodeName).isSome ↔ Reported agg nodeName := by
  rw [lookup_nodeMap, ← Option.ne_none_iff_isSome, ne_eq, List.getLast?_eq_none_iff, List.filter_eq_nil_iff, not_forall]
  unfold Reported ClusterAggregator.nodeSummaries
  constructor
  · rintro ⟨n, hn⟩
    obtain ⟨hmem, hname⟩ := Classical.not_imp.1 hn
    obtain ⟨s, hs, rfl⟩ := List.mem_map.1 hmem
    obtain ⟨hs, hm⟩ := List.mem_filter.1 hs
    exact ⟨s, hs, hm, of_decide_eq_true (not_not.1 hname)⟩
  · rintro ⟨s, hs, hm, hname⟩
    refine ⟨_, Classical.not_imp.2 ⟨List.mem_map.2 ⟨s, List.mem_filter.2 ⟨hs, hm⟩, rfl⟩, ?_⟩⟩
    exact not_not.2 (decide_eq_true hname)

/-- Over budget, a candidate is refused if and only if it has power data. -/
theorem refusal_isSome_iff {ns : String} {power budget : ℚ} (h : budget ≤ power) (summary : Option NodeSummary) :
    (refusal ns power (some budget) summary).isSome ↔ summary.isSome := by
  cases summary with
  | none => rfl
  | some s =>
    simp only [refusal, ge_iff_le, h, if_true]
    split <;> rfl

/-- In every state, for every configuration and list of candidates: while a
namespace is at or above its budget, no candidate passes and each is refused if
and only if each has reported. -/
theorem budget_enforced_iff (agg : ClusterAggregator) (now : Int) (cfg : SchedulerConfig)
    (candidateNodes : List String) (ns : String) (budget : ℚ) (hbudget : cfg.namespaceBudgets.lookup ns = some budget)
    (hover : budget ≤ currentNsPower agg ns) :
    ((filter agg now cfg candidateNodes ns).nodes = [] ∧
      ∀ name ∈ candidateNodes, ((filter agg now cfg candidateNodes ns).failed.lookup name).isSome) ↔
    ∀ name ∈ candidateNodes, Reported agg name := by
  have hrefused : ∀ name, (refusal ns (currentNsPower agg ns) (cfg.namespaceBudgets.lookup ns)
      ((nodeMap agg now).lookup name)).isSome ↔ Reported agg name := by
    intro name
    rw [hbudget, refusal_isSome_iff hover, isSome_nodeMap]
  have hfailed : ∀ name ∈ candidateNodes,
      (((filter agg now cfg candidateNodes ns).failed.lookup name).isSome ↔ Reported agg name) := by
    intro name hname
    rw [filter, failed_foldl_add, hrefused]
    simp [hname]
  constructor
  · rintro ⟨-, h⟩ name hname
    exact (hfailed name hname).1 (h name hname)
  · intro h
    refine ⟨?_, fun name hname => (hfailed name hname).2 (h name hname)⟩
    rw [filter, nodes_foldl_add, List.nil_append, List.filter_eq_nil_iff]
    intro name hname
    rw [Option.isNone_iff_eq_none, ← ne_eq, Option.ne_none_iff_isSome, hrefused]
    exact h name hname

/-- The source's own test: a pod of 5 W in a namespace with a budget of 1 W. -/
def overBudgetLog : List Event :=
  [.ingest 1 1 ⟨makeNode "node-1" 5000 2000 0 none 1000, [makePod "node-1" "uid-1" "pod-uid-1" "prod" 5000000 0 0]⟩]

def overBudgetConfig : SchedulerConfig := { namespaceBudgets := AList.insert "prod" 1 ∅ }

theorem over_budget_refused :
    overBudgetConfig.namespaceBudgets.lookup "prod" = some 1 ∧
    1 ≤ currentNsPower (.run overBudgetLog) "prod" ∧
    (((filter (.run overBudgetLog) 2 overBudgetConfig ["node-1"] "prod").nodes = [] ∧
      ∀ name ∈ ["node-1"],
        ((filter (.run overBudgetLog) 2 overBudgetConfig ["node-1"] "prod").failed.lookup name).isSome) ↔
    ∀ name ∈ ["node-1"], Reported (.run overBudgetLog) name) := by
  have hover : 1 ≤ currentNsPower (.run overBudgetLog) "prod" := by decide +kernel
  exact ⟨rfl, hover, budget_enforced_iff _ 2 overBudgetConfig ["node-1"] "prod" 1 rfl hover⟩

/-- With a node that has not reported yet, the pod can go there. -/
theorem new_node_escapes_budget :
    overBudgetConfig.namespaceBudgets.lookup "prod" = some 1 ∧
    1 ≤ currentNsPower (.run overBudgetLog) "prod" ∧
    (filter (.run overBudgetLog) 2 overBudgetConfig ["node-1", "node-2"] "prod").nodes = ["node-2"] := by
  refine ⟨rfl, by decide +kernel, by decide +kernel⟩

/-! ## Prioritize -/

/-- `as u32`. -/
def asU32 (q : ℚ) : Nat := (F64.finite q).toUnsigned 32

def NodeSummary.usedUw (s : NodeSummary) : Nat := s.cpuUw + s.memoryUw + s.gpuUw

def NodeSummary.utilization (s : NodeSummary) : ℚ :=
  match s.platformUw with
  -- divided by 0.0 it is infinite or NaN, and the smaller of either and 1.0 is 1.0
  | some 0 => 1
  | some platform => min ((s.usedUw : ℚ) / platform) 1
  | none => 1 / 2

/-- What is left of the platform's power, in percent; zero of zero is NaN,
which becomes 0. -/
def NodeSummary.headroomPct (s : NodeSummary) : Nat :=
  match s.headroomUw, s.platformUw with
  | some headroom, some platform => asU32 ((headroom : ℚ) / platform * 100)
  | _, _ => 50

def NodeSummary.accuracy (s : NodeSummary) : Nat := asU32 ((1 - s.errorRatio) * 100)

def headroomScore (strategy : PlacementStrategy) (s : NodeSummary) : Nat :=
  match strategy with
  | .binPack => asU32 (s.utilization * 100)
  | .spread => s.headroomPct

/-- The weighted sum, at most 100. -/
def combined (cfg : SchedulerConfig) (headroom accuracy : Nat) : Nat :=
  min (asU32 ((headroom : ℚ) * cfg.headroomWeight + (accuracy : ℚ) * cfg.accuracyWeight)) 100

def nodeScore (cfg : SchedulerConfig) (nodeName : String) (summary : Option NodeSummary) : NodeScore :=
  match summary with
  | none => ⟨nodeName, 50, "no power data available"⟩
  | some s =>
    { nodeName := nodeName
      score := combined cfg (headroomScore cfg.strategy s) s.accuracy
      reason := "headroom=" ++ toString (headroomScore cfg.strategy s) ++ ", accuracy=" ++ toString s.accuracy ++
        ", strategy=" ++ cfg.strategy.debug }

def prioritize (agg : ClusterAggregator) (now : Int) (cfg : SchedulerConfig) (candidateNodes : List String) :
    List NodeScore :=
  candidateNodes.map fun name => nodeScore cfg name ((nodeMap agg now).lookup name)

theorem asU32_mono {a b : ℚ} (h : a ≤ b) : asU32 a ≤ asU32 b := F64.toUnsigned_mono 32 h

section Monotone
variable {cfg : SchedulerConfig} {s t : NodeSummary} {platform : Nat}

theorem combined_mono (hw : 0 ≤ cfg.headroomWeight) (ha : 0 ≤ cfg.accuracyWeight) {h h' a a' : Nat} (hh : h ≤ h')
    (haa : a ≤ a') : combined cfg h a ≤ combined cfg h' a' := by
  refine min_le_min (asU32_mono ?_) le_rfl
  have h1 : (h : ℚ) * cfg.headroomWeight ≤ h' * cfg.headroomWeight :=
    mul_le_mul_of_nonneg_right (Nat.cast_le.2 hh) hw
  have h2 : (a : ℚ) * cfg.accuracyWeight ≤ a' * cfg.accuracyWeight :=
    mul_le_mul_of_nonneg_right (Nat.cast_le.2 haa) ha
  exact add_le_add h1 h2

theorem accuracy_anti (h : s.errorRatio ≤ t.errorRatio) : t.accuracy ≤ s.accuracy := by
  apply asU32_mono
  linarith

theorem utilization_eq (hs : s.platformUw = some platform) (hpos : 0 < platform) :
    s.utilization = min ((s.usedUw : ℚ) / platform) 1 := by
  obtain ⟨p, rfl⟩ := Nat.exists_eq_add_one_of_ne_zero hpos.ne'
  unfold NodeSummary.utilization
  rw [hs]
  rfl

theorem binPack_mono (hs : s.platformUw = some platform) (ht : t.platformUw = some platform) (hpos : 0 < platform)
    (hused : s.usedUw ≤ t.usedUw) : headroomScore .binPack s ≤ headroomScore .binPack t := by
  have hdiv : (s.usedUw : ℚ) / platform ≤ t.usedUw / platform :=
    div_le_div_of_nonneg_right (Nat.cast_le.2 hused) (Nat.cast_nonneg _)
  apply asU32_mono
  rw [utilization_eq hs hpos, utilization_eq ht hpos]
  exact mul_le_mul_of_nonneg_right (min_le_min hdiv le_rfl) (by norm_num)

/-- The headroom is what the summary's own powers leave. -/
def NodeSummary.HeadroomOk (s : NodeSummary) : Prop := s.headroomUw = s.platformUw.map (· - s.usedUw)

theorem spread_anti (hs : s.platformUw = some platform) (ht : t.platformUw = some platform) (hsh : s.HeadroomOk)
    (hth : t.HeadroomOk) (hused : s.usedUw ≤ t.usedUw) : headroomScore .spread t ≤ headroomScore .spread s := by
  unfold NodeSummary.HeadroomOk at hsh hth
  rw [hs] at hsh
  rw [ht] at hth
  have hroom : ((platform - t.usedUw : Nat) : ℚ) ≤ (platform - s.usedUw : Nat) := Nat.cast_le.2 (by omega)
  simp only [headroomScore, NodeSummary.headroomPct, hs, ht, hsh, hth, Option.map_some]
  apply asU32_mono
  exact mul_le_mul_of_nonneg_right (div_le_div_of_nonneg_right hroom (Nat.cast_nonneg _)) (by norm_num)

end Monotone

theorem headroomOk_of_lookup {agg : ClusterAggregator} {now : Int} {name : String} {s : NodeSummary}
    (h : (nodeMap agg now).lookup name = some s) : s.HeadroomOk := by
  rw [lookup_nodeMap] at h
  have hmem := (List.mem_filter.1 (List.mem_of_getLast? h)).1
  obtain ⟨state, -, rfl⟩ := List.mem_map.1 hmem
  rfl

/-- The order of two scores a strategy asks for, given that the first node uses
no more power. -/
def PlacementStrategy.Ordered (strategy : PlacementStrategy) (a b : Nat) : Prop :=
  match strategy with
  | .binPack => a ≤ b
  | .spread => b ≤ a

/-- In every state, with the default weights and either strategy: among two
candidates with power data, the same platform power and the same error, the
scores are ordered by the used power; among two with the same use, a larger
error never scores better; and no score is above 100. -/
theorem scores_monotone (agg : ClusterAggregator) (now : Int) (cfg : SchedulerConfig) (hw : cfg.headroomWeight = 7 / 10)
    (ha : cfg.accuracyWeight = 3 / 10) (candidateNodes : List String) :
    (∀ a ∈ prioritize agg now cfg candidateNodes, ∀ b ∈ prioritize agg now cfg candidateNodes, ∀ s t platform,
      (nodeMap agg now).lookup a.nodeName = some s → (nodeMap agg now).lookup b.nodeName = some t →
      s.platformUw = some platform → t.platformUw = some platform → 0 < platform →
      (s.errorRatio = t.errorRatio → s.usedUw ≤ t.usedUw → cfg.strategy.Ordered a.score b.score) ∧
      (s.usedUw = t.usedUw → s.errorRatio ≤ t.errorRatio → b.score ≤ a.score)) ∧
    ∀ a ∈ prioritize agg now cfg candidateNodes, a.score ≤ 100 := by
  have hw0 : 0 ≤ cfg.headroomWeight := by rw [hw]; norm_num
  have ha0 : 0 ≤ cfg.accuracyWeight := by rw [ha]; norm_num
  have hname : ∀ (name : String) (summary : Option NodeSummary), (nodeScore cfg name summary).nodeName = name := by
    intro name summary
    cases summary <;> rfl
  constructor
  · intro a hamem b hbmem s t platform hs ht hsp htp hpos
    obtain ⟨n, -, rfl⟩ := List.mem_map.1 hamem
    obtain ⟨m, -, rfl⟩ := List.mem_map.1 hbmem
    rw [hname] at hs ht
    have hsok := headroomOk_of_lookup hs
    have htok := headroomOk_of_lookup ht
    rw [hs, ht]
    constructor
    · intro herr hused
      have hacc : s.accuracy = t.accuracy := by rw [NodeSummary.accuracy, herr]; rfl
      simp only [nodeScore, hacc]
      cases cfg.strategy with
      | binPack => exact combined_mono hw0 ha0 (binPack_mono hsp htp hpos hused) le_rfl
      | spread => exact combined_mono hw0 ha0 (spread_anti hsp htp hsok htok hused) le_rfl
    · intro hused herr
      refine combined_mono hw0 ha0 ?_ (accuracy_anti herr)
      cases cfg.strategy with
      | binPack => exact binPack_mono htp hsp hpos hused.ge
      | spread => exact spread_anti hsp htp hsok htok hused.le
  · intro a hamem
    obtain ⟨n, -, rfl⟩ := List.mem_map.1 hamem
    cases (nodeMap agg now).lookup n with
    | none => exact Nat.le_of_ble_eq_true rfl
    | some s => exact min_le_right _ _

/-- The source's own test, with its busy and its idle node. -/
def twoNodesLog : List Event :=
  [.ingest 1 1 ⟨makeNode "busy-node" 8000 3000 0 (some 15000) 1000, []⟩,
   .ingest 2 2 ⟨makeNode "idle-node" 1000 500 0 (some 15000) 1000, []⟩]

theorem busy_node_scores_higher :
    (prioritize (.run twoNodesLog) 3 {} ["idle-node", "busy-node"]).map (·.score) = [35, 79] ∧
    (∃ idle busy, prioritize (.run twoNodesLog) 3 {} ["idle-node", "busy-node"] = [idle, busy] ∧
      idle.score ≤ busy.score) ∧
    ∀ a ∈ prioritize (.run twoNodesLog) 3 {} ["idle-node", "busy-node"], a.score ≤ 100 := by
  obtain ⟨hmono, hmax⟩ := scores_monotone (.run twoNodesLog) 3 {} rfl rfl ["idle-node", "busy-node"]
  have hidle : ((nodeMap (.run twoNodesLog) 3).lookup "idle-node").map
      (fun s => (s.platformUw, s.errorRatio, s.usedUw)) = some (some 15000, 5 / 100, 1500) := by decide +kernel
  have hbusy : ((nodeMap (.run twoNodesLog) 3).lookup "busy-node").map
      (fun s => (s.platformUw, s.errorRatio, s.usedUw)) = some (some 15000, 5 / 100, 11000) := by decide +kernel
  obtain ⟨s, hs, hsv⟩ := Option.map_eq_some_iff.1 hidle
  obtain ⟨t, ht, htv⟩ := Option.map_eq_some_iff.1 hbusy
  simp only [Prod.mk.injEq] at hsv htv
  obtain ⟨hsp, hse, hsu⟩ := hsv
  obtain ⟨htp, hte, htu⟩ := htv
  have hlist : prioritize (.run twoNodesLog) 3 {} ["idle-node", "busy-node"] =
      [nodeScore {} "idle-node" (some s), nodeScore {} "busy-node" (some t)] := by
    rw [← hs, ← ht]
    rfl
  refine ⟨by decide +kernel, ⟨_, _, hlist, ?_⟩, hmax⟩
  rw [hlist] at hmono
  have hordered := (hmono (nodeScore {} "idle-node" (some s)) (by simp) (nodeScore {} "busy-node" (some t)) (by simp)
    s t 15000 hs ht hsp htp (by decide)).1 (hse.trans hte.symm) (by omega)
  exact hordered

end Keck.Controller
