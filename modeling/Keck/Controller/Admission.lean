import Keck.Controller.EventLog
/-!
# What admission promises about the stored pods

`validate_report` (from `keck-controller/src/api/mod.rs`) bounds names, counts
and powers, each field on its own. It never compares a pod with its node, so
the keys of the pod map agree with the stored pods only for reports that do
(`Agrees`): `agreeing_runs_keep_repInv` proves they then always agree, and
`accepted_report_breaks_repInv` shows an accepted report that breaks them.
-/
namespace Keck.Controller

open Keck.Lib ClusterAggregator

def maxPodsPerReport : Nat := 2000
def maxNameLen : Nat := 512
def maxPowerUw : Nat := 100000000000

/-- Refuse with a message when a check fails. -/
def refuseIf (bad : Bool) (msg : String) : Except String Unit := if bad then .error msg else .ok ()

/-- The bound on one of the node's component powers. -/
def validatePower (field : String) (uw : Nat) : Except String Unit :=
  refuseIf (decide (uw > maxPowerUw)) (field ++ " exceeds max: " ++ toString uw)

def validatePod (pod : PodPowerReport) : Except String Unit := do
  refuseIf (pod.podUid.isEmpty || decide (pod.podUid.utf8ByteSize > maxNameLen))
    ("invalid pod_uid length: " ++ toString pod.podUid.utf8ByteSize)
  refuseIf (decide (pod.podName.utf8ByteSize > maxNameLen)) ("pod_name too long: " ++ toString pod.podName.utf8ByteSize)
  refuseIf (decide (pod.ns.utf8ByteSize > maxNameLen)) ("namespace too long: " ++ toString pod.ns.utf8ByteSize)
  refuseIf (decide (pod.totalUw > maxPowerUw))
    ("pod " ++ pod.podUid ++ " total_uw exceeds max: " ++ toString pod.totalUw)

/-- Check a report before it is ingested. -/
def validateReport (report : AgentReport) : Except String Unit := do
  refuseIf (report.node.nodeName.isEmpty || decide (report.node.nodeName.utf8ByteSize > maxNameLen))
    ("invalid node_name length: " ++ toString report.node.nodeName.utf8ByteSize)
  validatePower "cpu_uw" report.node.cpuUw
  validatePower "memory_uw" report.node.memoryUw
  validatePower "gpu_uw" report.node.gpuUw
  refuseIf (decide (report.pods.length > maxPodsPerReport))
    ("too many pods: " ++ toString report.pods.length ++ " (max " ++ toString maxPodsPerReport ++ ")")
  report.pods.forM validatePod

theorem refuseIf_ok {bad : Bool} {msg : String} : refuseIf bad msg = .ok () ↔ bad = false := by
  cases bad <;> simp [refuseIf]

/-- A check passes together with those after it exactly if each passes. -/
theorem andThen_ok {x y : Except String Unit} : (do x; y) = .ok () ↔ x = .ok () ∧ y = .ok () := by
  cases x with
  | error e => simp [bind, Except.bind]
  | ok u => simp [bind, Except.bind]

theorem forM_ok {α : Type} {f : α → Except String Unit} {xs : List α} :
    xs.forM f = .ok () ↔ ∀ x ∈ xs, f x = .ok () := by
  induction xs with
  | nil => exact ⟨fun _ _ h => absurd h List.not_mem_nil, fun _ => rfl⟩
  | cons x xs ih =>
    rw [List.forall_mem_cons, ← ih]
    exact andThen_ok

/-- The powers an accepted report may carry in the fields that are checked. -/
theorem power_le_of_validateReport {r : AgentReport} (h : validateReport r = .ok ()) :
    (r.node.cpuUw ≤ maxPowerUw ∧ r.node.memoryUw ≤ maxPowerUw ∧ r.node.gpuUw ≤ maxPowerUw) ∧
      ∀ p ∈ r.pods, p.totalUw ≤ maxPowerUw := by
  simp only [validateReport, validatePower, andThen_ok, forM_ok, refuseIf_ok, decide_eq_false_iff_not, not_lt,
    gt_iff_lt] at h
  obtain ⟨-, hc, hm, hg, -, hp⟩ := h
  refine ⟨⟨hc, hm, hg⟩, ?_⟩
  intro p hpm
  have hpod := hp p hpm
  simp only [validatePod, andThen_ok, refuseIf_ok, decide_eq_false_iff_not, not_lt, gt_iff_lt] at hpod
  exact hpod.2.2.2

/-- Every report of the log passed validation. -/
def Accepted (evs : List Event) : Prop := ∀ t w r, Event.ingest t w r ∈ evs → validateReport r = .ok ()

def Event.report? : Event → Option AgentReport
  | .ingest _ _ r => some r
  | .evictRemovedNodes _ => none

/-- What holds of all reports of a log, one by one. -/
theorem forall_reports {evs : List Event} {P : AgentReport → Prop} (h : ∀ r ∈ evs.filterMap Event.report?, P r) :
    ∀ t w r, Event.ingest t w r ∈ evs → P r :=
  fun _ _ r he => h r (List.mem_filterMap.2 ⟨_, he, rfl⟩)

/-- The keys of the pod map agree with what is stored under them, and every
pod's node is known under the same method. -/
structure RepInv (agg : ClusterAggregator) : Prop where
  uid : ∀ uid m s, agg.pods.lookup (uid, m) = some s → s.report.podUid = uid
  method : ∀ uid m s, agg.pods.lookup (uid, m) = some s → methodName s.report.meteringMethod = m
  node : ∀ uid m s, agg.pods.lookup (uid, m) = some s → (s.report.nodeName, m) ∈ agg.nodes

/-- Each pod the report stores is on the report's node and of its method. -/
def Agrees (r : AgentReport) : Prop :=
  ∀ uid v, r.lastPod uid = some v →
    v.nodeName = r.node.nodeName ∧ (v.meteringMethod = "" ∨ v.meteringMethod = r.method)

/-! ## Methods -/

theorem methodName_ne_empty (m : String) : methodName m ≠ "" := by
  unfold methodName
  split
  · decide
  · simpa using ‹¬m.isEmpty = true›

theorem methodName_of_ne {m : String} (h : m ≠ "") : methodName m = m := by
  unfold methodName
  simp [h]

/-- A stored pod that agrees with its report carries the report's method. -/
theorem methodName_stamped {r : AgentReport} {v : PodPowerReport}
    (h : v.meteringMethod = "" ∨ v.meteringMethod = r.method) :
    methodName (v.stamped r.method).meteringMethod = r.method := by
  have hm := methodName_ne_empty r.node.meteringMethod
  unfold PodPowerReport.stamped
  split
  · exact methodName_of_ne hm
  · rcases h with h | h
    · simp [h] at *
    · rw [h]; exact methodName_of_ne hm

/-! ## The invariant over runs -/

/-- `RepInv`, with nodes at least as fresh as their pods: a node then never
goes stale before its pods do. -/
structure FreshInv (agg : ClusterAggregator) : Prop where
  uid : ∀ uid m s, agg.pods.lookup (uid, m) = some s → s.report.podUid = uid
  method : ∀ uid m s, agg.pods.lookup (uid, m) = some s → methodName s.report.meteringMethod = m
  fresh : ∀ uid m s, agg.pods.lookup (uid, m) = some s →
    ∃ n, agg.nodes.lookup (s.report.nodeName, m) = some n ∧ s.receivedAt ≤ n.receivedAt

theorem FreshInv.repInv {agg : ClusterAggregator} (h : FreshInv agg) : RepInv agg where
  uid := h.uid
  method := h.method
  node uid m s hs := by
    obtain ⟨n, hn, -⟩ := h.fresh uid m s hs
    exact AList.lookup_isSome.1 (by simp [hn])

/-- A pod entry after a report: written by it, or kept from before. -/
theorem pods_ingest_cases {agg : ClusterAggregator} {now wall : Int} {r : AgentReport} {uid m : String} {s : PodState}
    (h : (agg.ingest now wall r).pods.lookup (uid, m) = some s) :
    (∃ v, r.method = m ∧ r.lastPod uid = some v ∧ s = ⟨v.stamped m, now⟩) ∨
      (agg.pods.lookup (uid, m) = some s ∧ s.receivedAt > now - stalenessThreshold) := by
  rw [pods_ingest, Option.or_eq_some_iff] at h
  rcases h with h | ⟨-, h⟩
  · left
    simp only [podWrites, Option.ite_none_right_eq_some, Option.map_eq_some_iff] at h
    obtain ⟨hm, v, hv, rfl⟩ := h
    exact ⟨v, hm, hv, rfl⟩
  · right
    obtain ⟨h, hk⟩ := Option.filter_eq_some_iff.1 h
    simp only [podKeeps, Bool.and_eq_true, decide_eq_true_eq] at hk
    exact ⟨h, hk.2⟩

/-- A report that agrees with itself keeps the invariant, if no stored pod is
newer than it. -/
theorem freshInv_ingest {agg : ClusterAggregator} (hi : FreshInv agg) {now wall : Int} {r : AgentReport}
    (ha : Agrees r) (hold : ∀ uid m s, agg.pods.lookup (uid, m) = some s → s.receivedAt ≤ now) :
    FreshInv (agg.ingest now wall r) := by
  constructor
  · intro uid m s hs
    rcases pods_ingest_cases hs with ⟨v, -, hv, rfl⟩ | ⟨hs, -⟩
    · simpa using (lastPod_some hv).2
    · exact hi.uid uid m s hs
  · intro uid m s hs
    rcases pods_ingest_cases hs with ⟨v, rfl, hv, rfl⟩ | ⟨hs, -⟩
    · exact methodName_stamped (ha uid v hv).2
    · exact hi.method uid m s hs
  · intro uid m s hs
    rw [nodes_ingest]
    rcases pods_ingest_cases hs with ⟨v, rfl, hv, rfl⟩ | ⟨hs, hf⟩
    · refine ⟨⟨r.node, now⟩, ?_, le_refl _⟩
      simp [nodeWrites, (ha uid v hv).1]
    · obtain ⟨n, hn, hle⟩ := hi.fresh uid m s hs
      by_cases hw : r.node.nodeName = s.report.nodeName ∧ r.method = m
      · exact ⟨⟨r.node, now⟩, by simp [nodeWrites, hw], hold uid m s hs⟩
      · -- The node's own entry stays: it is no older than the pod's.
        have : n.receivedAt > now - stalenessThreshold := by omega
        exact ⟨n, by simp [nodeWrites, hw, hn, Option.filter, nodeKeeps, this], hle⟩

theorem freshInv_evictRemovedNodes {agg : ClusterAggregator} (hi : FreshInv agg) (live : List String) :
    FreshInv (agg.evictRemovedNodes live) := by
  have key : ∀ uid m s, (agg.evictRemovedNodes live).pods.lookup (uid, m) = some s →
      agg.pods.lookup (uid, m) = some s ∧ s.report.nodeName ∈ live := by
    intro uid m s hs
    simp only [evictRemovedNodes, AList.lookup_retain] at hs
    simpa using Option.filter_eq_some_iff.1 hs
  constructor
  · exact fun uid m s hs => hi.uid uid m s (key uid m s hs).1
  · exact fun uid m s hs => hi.method uid m s (key uid m s hs).1
  · intro uid m s hs
    obtain ⟨hs, hl⟩ := key uid m s hs
    obtain ⟨n, hn, hle⟩ := hi.fresh uid m s hs
    refine ⟨n, ?_, hle⟩
    simp [evictRemovedNodes, AList.lookup_retain, hn, Option.filter, hl]

/-- No stored pod is newer than the next report. -/
theorem receivedAt_le {evs : List Event} {T W : Int} {R : AgentReport} (hc : ClockOk (evs ++ [.ingest T W R]))
    {uid m : String} {s : PodState} (hs : (run evs).pods.lookup (uid, m) = some s) : s.receivedAt ≤ T := by
  obtain ⟨pre, e, post, rfl, hw, -⟩ := (podLog.get_run_iff evs (uid, m) s).1 hs
  cases e with
  | evictRemovedNodes live => cases hw
  | ingest t w r =>
    simp only [podLog, podWrites, Option.ite_none_right_eq_some, Option.map_eq_some_iff] at hw
    obtain ⟨-, v, -, rfl⟩ := hw
    exact hc.le_last (w := w) (r := r) (by simp)

theorem freshInv_run (evs : List Event) (hc : ClockOk evs) (ha : ∀ t w r, Event.ingest t w r ∈ evs → Agrees r) :
    FreshInv (run evs) := by
  induction evs using List.reverseRecOn with
  | nil => constructor <;> intro _ _ _ h <;> cases h
  | append_singleton evs e ih =>
    have hc' : ClockOk evs := by
      unfold ClockOk at hc ⊢
      rw [List.filterMap_append, List.pairwise_append] at hc
      exact hc.1
    have hi := ih hc' fun t w r h => ha t w r (by simp [h])
    rw [show run (evs ++ [e]) = (run evs).step e by simp [run, List.foldl_append]]
    cases e with
    | ingest now wall r =>
      exact freshInv_ingest hi (ha now wall r (by simp)) fun uid m s hs => receivedAt_le hc hs
    | evictRemovedNodes live => exact freshInv_evictRemovedNodes hi live

/-- In every run of reports that agree with themselves, mixed with any lists of
live nodes, the pod map keeps its representation invariant. -/
theorem agreeing_runs_keep_repInv (evs : List Event) (hc : ClockOk evs)
    (ha : ∀ t w r, Event.ingest t w r ∈ evs → Agrees r) : RepInv (run evs) :=
  (freshInv_run evs hc ha).repInv

/-- Two reports of a node and a list of live nodes in between. -/
def agreeingLog : List Event :=
  [.ingest 1 1 ⟨makeNode "node-1" 5000 2000 0 none 1000, [makePod "node-1" "uid-a" "web-1" "default" 1000 500 0]⟩,
   .evictRemovedNodes ["node-1"],
   .ingest 2 2 ⟨makeNode "node-1" 6000 2500 0 none 1200, [makePod "node-1" "uid-a" "web-1" "default" 1500 600 0]⟩]

theorem accepted_agreeingLog : Accepted agreeingLog := by
  apply forall_reports
  exact List.forall_mem_cons.2 ⟨rfl, List.forall_mem_singleton.2 rfl⟩

theorem agreeingLog_repInv :
    ClockOk agreeingLog ∧ Accepted agreeingLog ∧ (run agreeingLog).pods.keys = [("uid-a", "keck")] ∧
      RepInv (run agreeingLog) := by
  have hc : ClockOk agreeingLog := by decide
  have hag : ∀ t w r, Event.ingest t w r ∈ agreeingLog → Agrees r := by
    apply forall_reports
    refine List.forall_mem_cons.2 ⟨?_, List.forall_mem_singleton.2 ?_⟩ <;>
    · intro uid v hv
      cases List.mem_singleton.1 (lastPod_some hv).1
      exact ⟨rfl, .inl rfl⟩
  exact ⟨hc, accepted_agreeingLog, by decide, agreeing_runs_keep_repInv agreeingLog hc hag⟩

/-! ## A report that agrees with nobody -/

/-- A Keck report of node-1 whose only pod says it was metered by Kepler. -/
def strayLog : List Event :=
  [.ingest 1 1 ⟨makeNode "node-1" 5000 2000 0 none 1000,
    [{ makePod "node-1" "uid-a" "web-1" "default" 1000 500 0 with meteringMethod := "kepler" }]⟩]

/-- `validate_report` accepts it, and the pod is then stored under a method it
does not carry: the Keck views do not show it, yet the next Keck report of the
node evicts it. -/
theorem accepted_report_breaks_repInv : ClockOk strayLog ∧ Accepted strayLog ∧ ¬RepInv (run strayLog) := by
  refine ⟨by decide, ?_, fun h => ?_⟩
  · apply forall_reports
    exact List.forall_mem_singleton.2 rfl
  · have := h.method "uid-a" "keck" _ rfl
    revert this
    decide

end Keck.Controller
