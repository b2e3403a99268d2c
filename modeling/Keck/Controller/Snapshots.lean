import Keck.Controller.Admission
import Keck.Controller.Views
/-!
# Every node is shown as one report has it

Reports of one node replace each other, pods move between nodes, entries go
stale and nodes are removed, each by its own rule. `pods_of_one_report`: after
any log, the pods stored for a node are pods of the one report the node's own
entry is from, namely those that no later report lists. So what holds of each
report by itself holds of the views: `viewsWithin_run` has it for the power of
the pods and of their nodes.
-/
namespace Keck.Controller

open Keck.Lib ClusterAggregator

/-! ## Pods and nodes stay together -/

/-- An event that does not write a pod keeps it exactly if it keeps the pod's
node, of the same time. -/
theorem podKeeps_iff_nodeKeeps {e : Event} {uid name m : String} {s : PodState} {n : NodeState}
    (hnode : s.report.nodeName = name) (hat : n.receivedAt = s.receivedAt) (hw : podWrites e (uid, m) = none) :
    podKeeps e (uid, m) s = true ↔ nodeWrites e (name, m) = none ∧ nodeKeeps e (name, m) n = true := by
  subst hnode
  cases e with
  | evictRemovedNodes live => simp [podKeeps, nodeWrites, nodeKeeps]
  | ingest now wall r =>
    simp only [podKeeps, nodeWrites, nodeKeeps, hat, Bool.and_eq_true, Bool.not_eq_true', decide_eq_true_eq]
    refine and_congr_left fun _ => ?_
    by_cases hm : r.method = m
    · -- A report of the method that does not write the pod does not list it.
      subst hm
      have hlast : r.lastPod uid = none := by simpa [podWrites] using hw
      have hlisted : ¬∃ p ∈ r.pods, p.podUid = uid := by
        rintro ⟨p, hp, he⟩
        exact lastPod_eq_none.1 hlast p hp he
      simpa [hlisted] using not_congr eq_comm
    · simp [hm, Ne.symm hm]

/-- Where a pod's entry is from: a report of its method that lists it, with
nothing after it that writes or drops the entry. -/
theorem pod_split {evs : List Event} {uid m : String} {s : PodState} (h : (run evs).pods.lookup (uid, m) = some s) :
    ∃ pre t w r post v, evs = pre ++ .ingest t w r :: post ∧ r.method = m ∧ r.lastPod uid = some v ∧
      s = ⟨v.stamped m, t⟩ ∧ ∀ e ∈ post, podWrites e (uid, m) = none ∧ podKeeps e (uid, m) s = true := by
  obtain ⟨pre, e, post, he, hw, hpost⟩ := (podLog.get_run_iff evs (uid, m) s).1 h
  cases e with
  | evictRemovedNodes live => cases hw
  | ingest t w r =>
    simp only [podLog, podWrites, Option.ite_none_right_eq_some, Option.map_eq_some_iff] at hw
    obtain ⟨hm, v, hv, rfl⟩ := hw
    exact ⟨pre, t, w, r, post, v, he, hm, hv, rfl, hpost⟩

/-- Where a node's entry is from. -/
theorem node_split {evs : List Event} {name m : String} {n : NodeState}
    (h : (run evs).nodes.lookup (name, m) = some n) :
    ∃ pre t w r post, evs = pre ++ .ingest t w r :: post ∧ r.node.nodeName = name ∧ r.method = m ∧
      n = ⟨r.node, t⟩ ∧ ∀ e ∈ post, nodeWrites e (name, m) = none ∧ nodeKeeps e (name, m) n = true := by
  obtain ⟨pre, e, post, he, hw, hpost⟩ := (nodeLog.get_run_iff evs (name, m) n).1 h
  cases e with
  | evictRemovedNodes live => cases hw
  | ingest t w r =>
    simp only [nodeLog, nodeWrites, Option.ite_none_right_eq_some, Option.some.injEq] at hw
    exact ⟨pre, t, w, r, post, he, hw.1.1, hw.1.2, hw.2.symm, hpost⟩

section Split
variable {evs pre post : List Event} {t w : Int} {r : AgentReport} (he : evs = pre ++ .ingest t w r :: post)
include he

theorem nodes_of_split (hpost : ∀ e ∈ post, nodeWrites e (r.node.nodeName, r.method) = none ∧
      nodeKeeps e (r.node.nodeName, r.method) ⟨r.node, t⟩ = true) :
    (run evs).nodes.lookup (r.node.nodeName, r.method) = some ⟨r.node, t⟩ :=
  (nodeLog.get_run_iff evs _ _).2 ⟨pre, _, post, he, by simp [nodeLog, nodeWrites], hpost⟩

theorem pods_of_split {uid : String} {v : PodPowerReport} (hv : r.lastPod uid = some v)
    (hpost : ∀ e ∈ post, podWrites e (uid, r.method) = none ∧
      podKeeps e (uid, r.method) ⟨v.stamped r.method, t⟩ = true) :
    (run evs).pods.lookup (uid, r.method) = some ⟨v.stamped r.method, t⟩ :=
  (podLog.get_run_iff evs _ _).2 ⟨pre, _, post, he, by simp [podLog, podWrites, hv], hpost⟩

end Split

/-- A pod and its node are stored from one report. -/
theorem node_of_pod {evs : List Event} {m : String}
    (ha : ∀ t w r, Event.ingest t w r ∈ evs → r.method = m → Agrees r) {uid : String} {s : PodState}
    (h : (run evs).pods.lookup (uid, m) = some s) :
    ∃ pre t w r post v, evs = pre ++ .ingest t w r :: post ∧ r.node.nodeName = s.report.nodeName ∧ r.method = m ∧
      r.lastPod uid = some v ∧ s = ⟨v.stamped m, t⟩ ∧ (∀ e ∈ post, podWrites e (uid, m) = none) ∧
      ∀ e ∈ post, nodeWrites e (s.report.nodeName, m) = none ∧
        nodeKeeps e (s.report.nodeName, m) ⟨r.node, t⟩ = true := by
  obtain ⟨pre, t, w, r, post, v, he, hm, hv, rfl, hpost⟩ := pod_split h
  have hagrees : v.nodeName = r.node.nodeName := (ha t w r (by simp [he]) hm uid v hv).1
  refine ⟨pre, t, w, r, post, v, he, by rw [stamped_nodeName, hagrees], hm, hv, rfl, fun e h => (hpost e h).1, ?_⟩
  intro e h
  exact (podKeeps_iff_nodeKeeps (n := ⟨r.node, t⟩) rfl rfl (hpost e h).1).1 (hpost e h).2

/-- The report `r`, received at `t` and followed by `post`, is all that is
stored for its node: the node's entry is its own, and the node's pods are those
it lists, as it lists them, other than pods that a later report of the method
lists. -/
structure Shown (agg : ClusterAggregator) (t : Int) (r : AgentReport) (post : List Event) : Prop where
  node : agg.nodes.lookup (r.node.nodeName, r.method) = some ⟨r.node, t⟩
  pods : ∀ uid s, (agg.pods.lookup (uid, r.method) = some s ∧ s.report.nodeName = r.node.nodeName) ↔
    (∃ v, r.lastPod uid = some v ∧ s = ⟨v.stamped r.method, t⟩) ∧
      ∀ t' w' r', Event.ingest t' w' r' ∈ post → r'.method = r.method → r'.lastPod uid = none

theorem podWrites_eq_none {e : Event} {uid m : String} :
    podWrites e (uid, m) = none ↔ ∀ t w r, e = .ingest t w r → r.method = m → r.lastPod uid = none := by
  cases e with
  | evictRemovedNodes live => simp [podWrites]
  | ingest t w r => simp [podWrites]

/-- The report of a stored node is shown. -/
theorem shown_of_node {evs : List Event} {name m : String}
    (ha : ∀ t w r, Event.ingest t w r ∈ evs → r.method = m → Agrees r) {n : NodeState}
    (h : (run evs).nodes.lookup (name, m) = some n) :
    ∃ pre t w r post, evs = pre ++ .ingest t w r :: post ∧ r.node.nodeName = name ∧ r.method = m ∧
      Shown (run evs) t r post := by
  obtain ⟨pre, t, w, r, post, he, rfl, rfl, rfl, hpost⟩ := node_split h
  refine ⟨pre, t, w, r, post, he, rfl, rfl, h, fun uid s => ⟨?_, ?_⟩⟩
  · rintro ⟨hs, hnode⟩
    obtain ⟨pre', t', w', r', post', v, he', hname, hm, hv, rfl, hlisted, hpost'⟩ := node_of_pod ha hs
    -- Both reports are the last one of the node.
    obtain ⟨rfl, hr, rfl⟩ := Trace.last_split_unique
      (P := fun e => nodeWrites e (r.node.nodeName, r.method) ≠ none) (he.symm.trans he')
      (by simp [nodeWrites]) (by simp [nodeWrites, hname.trans hnode, hm])
      (fun e h => not_not.2 (hpost e h).1) (fun e h => not_not.2 (hnode ▸ (hpost' e h).1))
    cases hr
    exact ⟨⟨v, hv, rfl⟩, fun t' w' r' h => podWrites_eq_none.1 (hlisted _ h) t' w' r' rfl⟩
  · rintro ⟨⟨v, hv, rfl⟩, hlater⟩
    have hnode : (v.stamped r.method).nodeName = r.node.nodeName := by
      rw [stamped_nodeName, (ha t w r (by simp [he]) rfl uid v hv).1]
    refine ⟨pods_of_split he hv fun e h => ?_, hnode⟩
    have hnone : podWrites e (uid, r.method) = none :=
      podWrites_eq_none.2 fun t' w' r' hr => hlater t' w' r' (hr ▸ h)
    exact ⟨hnone, (podKeeps_iff_nodeKeeps (n := ⟨r.node, t⟩) hnode rfl hnone).2 (hpost e h)⟩

/-- What is stored for a node under a method is nothing at all, or is one report
of the log. -/
def StoredAsReported (evs : List Event) (m name : String) : Prop :=
  ((run evs).nodes.lookup (name, m) = none ∧
    ∀ uid s, (run evs).pods.lookup (uid, m) = some s → s.report.nodeName ≠ name) ∨
  ∃ pre t w r post, evs = pre ++ .ingest t w r :: post ∧ r.node.nodeName = name ∧ r.method = m ∧
    Shown (run evs) t r post

/-- After any log whose reports of a method agree with themselves, with any
clock and any lists of live nodes in between, every node is stored as one of
its reports has it. -/
theorem pods_of_one_report (evs : List Event) (m : String)
    (ha : ∀ t w r, Event.ingest t w r ∈ evs → r.method = m → Agrees r) (name : String) :
    StoredAsReported evs m name := by
  cases h : (run evs).nodes.lookup (name, m) with
  | some n => exact .inr (shown_of_node ha h)
  | none =>
    refine .inl ⟨h, ?_⟩
    rintro uid s hs rfl
    obtain ⟨pre, t, w, r, post, v, he, hname, rfl, -, -, -, hpost⟩ := node_of_pod ha hs
    rw [← hname] at hpost h
    rw [nodes_of_split he hpost] at h
    cases h

theorem agrees_movedLog : ∀ t w r, Event.ingest t w r ∈ movedLog → Agrees r := by
  apply forall_reports
  refine List.forall_mem_cons.2 ⟨?_, List.forall_mem_singleton.2 ?_⟩ <;>
  · intro uid v hv
    cases List.mem_singleton.1 (lastPod_some hv).1
    exact ⟨rfl, .inl rfl⟩

/-- The pod that moved is listed by node-1's report and shown on node-2. -/
theorem pods_of_one_report_movedLog :
    (run movedLog).pods.lookup ("uid-a", "keck") =
      some ⟨(makePod "node-2" "uid-a" "web-1" "default" 1200 500 0).stamped "keck", 2⟩ ∧
    StoredAsReported movedLog "keck" "node-1" ∧ StoredAsReported movedLog "keck" "node-2" :=
  ⟨rfl, pods_of_one_report movedLog "keck" (fun t w r h _ => agrees_movedLog t w r h) "node-1",
    pods_of_one_report movedLog "keck" (fun t w r h _ => agrees_movedLog t w r h) "node-2"⟩

/-! ## What the views list -/

section Views
variable {evs : List Event} (ha : ∀ t w r, Event.ingest t w r ∈ evs → Agrees r) (method : Option String)

/-- A stored node carries its key. -/
theorem node_key {k : String × String} {n : NodeState} (h : (run evs).nodes.lookup k = some n) :
    (n.report.nodeName, methodName n.report.meteringMethod) = k := by
  obtain ⟨t, w, r, -, hn, rfl⟩ := node_of_run h
  rw [hn]
  rfl

theorem mem_nodesOf {n : NodePowerReport} : n ∈ nodesOf (run evs) method ↔
    ∃ t, (run evs).nodes.lookup (n.nodeName, method.getD "keck") = some ⟨n, t⟩ := by
  simp only [nodesOf, List.mem_map, List.mem_filter, AList.mem_values, matchesMethod, beq_iff_eq]
  constructor
  · rintro ⟨s, ⟨⟨k, hk⟩, hm⟩, rfl⟩
    refine ⟨s.receivedAt, ?_⟩
    rw [← hm, node_key hk]
    exact hk
  · rintro ⟨t, h⟩
    exact ⟨⟨n, t⟩, ⟨⟨_, h⟩, congrArg Prod.snd (node_key h)⟩, rfl⟩

theorem nodup_nodesOf : ((nodesOf (run evs) method).map (·.nodeName)).Nodup := by
  have h := AList.nodup_of_keys (m := (run evs).nodes)
    (g := fun n => (n.report.nodeName, methodName n.report.meteringMethod)) (fun _ _ => node_key) (method.getD "keck")
  simpa only [nodesOf, matchesMethod, beq_eq_decide, List.map_map, Function.comp_def] using h

include ha

/-- So does a stored pod of reports that agree with themselves. -/
theorem pod_key {k : String × String} {s : PodState} (h : (run evs).pods.lookup k = some s) :
    (s.report.podUid, methodName s.report.meteringMethod) = k := by
  obtain ⟨uid, m⟩ := k
  obtain ⟨pre, t, w, r, post, v, he, rfl, hv, rfl, -⟩ := pod_split h
  have hmethod := methodName_stamped (ha t w r (by simp [he]) uid v hv).2
  simp only [stamped_podUid, (lastPod_some hv).2, hmethod]

theorem mem_allPodsFiltered {p : PodPowerReport} : p ∈ (run evs).allPodsFiltered method ↔
    ∃ t, (run evs).pods.lookup (p.podUid, method.getD "keck") = some ⟨p, t⟩ := by
  simp only [allPodsFiltered, List.mem_map, List.mem_filter, AList.mem_values, matchesMethod, beq_iff_eq]
  constructor
  · rintro ⟨s, ⟨⟨k, hk⟩, hm⟩, rfl⟩
    refine ⟨s.receivedAt, ?_⟩
    rw [← hm, pod_key ha hk]
    exact hk
  · rintro ⟨t, h⟩
    exact ⟨⟨p, t⟩, ⟨⟨_, h⟩, congrArg Prod.snd (pod_key ha h)⟩, rfl⟩

theorem nodup_allPodsFiltered : (((run evs).allPodsFiltered method).map (·.podUid)).Nodup := by
  have h := AList.nodup_of_keys (m := (run evs).pods)
    (g := fun s => (s.report.podUid, methodName s.report.meteringMethod)) (fun _ _ => pod_key ha) (method.getD "keck")
  simpa only [allPodsFiltered, matchesMethod, beq_eq_decide, List.map_map, Function.comp_def] using h

end Views

/-! ## Power -/

/-- The pods the views list for a node. -/
def podsOn (agg : ClusterAggregator) (method : Option String) (node : String) : List PodPowerReport :=
  (agg.allPodsFiltered method).filter fun p => p.nodeName = node

section Power
variable {evs : List Event} (ha : ∀ t w r, Event.ingest t w r ∈ evs → Agrees r) (method : Option String)
  {pf : PodPowerReport → Nat} (hstamp : ∀ p m, pf (p.stamped m) = pf p)
include ha hstamp

/-- The pods listed for a node are different pods of its report. -/
theorem sum_podsOn_le {t : Int} {r : AgentReport} {post : List Event} (hm : r.method = method.getD "keck")
    (h : Shown (run evs) t r post) :
    ((podsOn (run evs) method r.node.nodeName).map pf).sum ≤ (r.pods.map pf).sum := by
  have hnodup : ((podsOn (run evs) method r.node.nodeName).map (·.podUid)).Nodup :=
    (List.filter_sublist.map _).nodup (nodup_allPodsFiltered ha method)
  have hlisted : ∀ p ∈ podsOn (run evs) method r.node.nodeName,
      pf p ≤ ((r.pods.filter fun q => q.podUid = p.podUid).map pf).sum := by
    intro p hp
    obtain ⟨hp, hnode⟩ := List.mem_filter.1 hp
    obtain ⟨t', hs⟩ := (mem_allPodsFiltered ha method).1 hp
    obtain ⟨⟨v, hv, hpv⟩, -⟩ := (h.pods p.podUid ⟨p, t'⟩).1 ⟨hm ▸ hs, of_decide_eq_true hnode⟩
    obtain ⟨hmem, huid⟩ := lastPod_some hv
    have hpf : pf p = pf v := by
      rw [show p = v.stamped r.method from congrArg PodState.report hpv]
      exact hstamp v r.method
    rw [hpf]
    exact List.single_le_sum (by simp) _ (List.mem_map_of_mem (List.mem_filter.2 ⟨hmem, by simpa using huid⟩))
  calc ((podsOn (run evs) method r.node.nodeName).map pf).sum
      ≤ ((podsOn (run evs) method r.node.nodeName).map fun p =>
          ((r.pods.filter fun q => q.podUid = p.podUid).map pf).sum).sum := List.sum_le_sum hlisted
    _ = (((podsOn (run evs) method r.node.nodeName).map (·.podUid)).map fun uid =>
          ((r.pods.filter fun q => q.podUid = uid).map pf).sum).sum := by rw [List.map_map]; rfl
    _ ≤ (r.pods.map pf).sum := sum_fibers_le PodPowerReport.podUid (fun _ => Nat.zero_le _) r.pods hnodup

variable {nf : NodePowerReport → Nat}
  (hwithin : ∀ t w r, Event.ingest t w r ∈ evs → r.method = method.getD "keck" → (r.pods.map pf).sum ≤ nf r.node)
include hwithin

/-- A listed node has the power of the pods listed for it. -/
theorem sum_podsOn_le_node {n : NodePowerReport} (hn : n ∈ nodesOf (run evs) method) :
    ((podsOn (run evs) method n.nodeName).map pf).sum ≤ nf n := by
  obtain ⟨t', hstored⟩ := (mem_nodesOf method).1 hn
  obtain ⟨pre, t, w, r, post, he, hname, hm, hshown⟩ := shown_of_node (fun t w r h _ => ha t w r h) hstored
  have hr : Event.ingest t w r ∈ evs := by simp [he]
  have hnode : r.node = n := by
    have h := hshown.node
    rw [hname, hm, hstored] at h
    cases h
    rfl
  calc ((podsOn (run evs) method n.nodeName).map pf).sum
      = ((podsOn (run evs) method r.node.nodeName).map pf).sum := by rw [hnode]
    _ ≤ (r.pods.map pf).sum := sum_podsOn_le ha method hstamp hm hshown
    _ ≤ nf r.node := hwithin t w r hr hm
    _ = nf n := by rw [hnode]

/-- The listed nodes together have the power of the listed pods together. -/
theorem sum_pods_le_nodes :
    (((run evs).allPodsFiltered method).map pf).sum ≤ ((nodesOf (run evs) method).map nf).sum := by
  have hnodes : ∀ p ∈ (run evs).allPodsFiltered method,
      p.nodeName ∈ (nodesOf (run evs) method).map (·.nodeName) := by
    intro p hp
    obtain ⟨t', hs⟩ := (mem_allPodsFiltered ha method).1 hp
    obtain ⟨pre, t, w, r, post, v, he, hname, hm, -, -, -, hpost⟩ := node_of_pod (fun t w r h _ => ha t w r h) hs
    rw [← hm, ← hname] at hpost
    have hn := nodes_of_split he hpost
    rw [hm] at hn
    exact List.mem_map.2 ⟨r.node, (mem_nodesOf method).2 ⟨t, hn⟩, hname⟩
  calc (((run evs).allPodsFiltered method).map pf).sum
      = (((nodesOf (run evs) method).map (·.nodeName)).map fun name =>
          ((podsOn (run evs) method name).map pf).sum).sum :=
        (sum_fibers PodPowerReport.nodeName pf (nodup_nodesOf method) hnodes).symm
    _ = ((nodesOf (run evs) method).map fun n => ((podsOn (run evs) method n.nodeName).map pf).sum).sum := by
        rw [List.map_map]; rfl
    _ ≤ ((nodesOf (run evs) method).map nf).sum :=
        List.sum_le_sum fun n hn => sum_podsOn_le_node ha method hstamp hwithin hn

end Power

/-- The pods of a report use no more CPU and memory power than its node. -/
structure AgentReport.Within (r : AgentReport) : Prop where
  cpu : (r.pods.map (·.cpuUw)).sum ≤ r.node.cpuUw
  memory : (r.pods.map (·.memoryUw)).sum ≤ r.node.memoryUw

/-- What the views of a method show is within itself. -/
structure ViewsWithin (agg : ClusterAggregator) (method : Option String) : Prop where
  cpu : ((agg.namespacePower method).map (·.cpuUw)).sum ≤ (agg.clusterPower method).cpuUw
  memory : ((agg.namespacePower method).map (·.memoryUw)).sum ≤ (agg.clusterPower method).memoryUw
  nodes : ∀ n ∈ nodesOf agg method, ((podsOn agg method n.nodeName).map (·.cpuUw)).sum ≤ n.cpuUw ∧
    ((podsOn agg method n.nodeName).map (·.memoryUw)).sum ≤ n.memoryUw

theorem stamped_cpuUw (p : PodPowerReport) (m : String) : (p.stamped m).cpuUw = p.cpuUw := by
  unfold PodPowerReport.stamped; split <;> rfl

theorem stamped_memoryUw (p : PodPowerReport) (m : String) : (p.stamped m).memoryUw = p.memoryUw := by
  unfold PodPowerReport.stamped; split <;> rfl

theorem viewsWithin_run {evs : List Event} (ha : ∀ t w r, Event.ingest t w r ∈ evs → Agrees r) (method : Option String)
    (hwithin : ∀ t w r, Event.ingest t w r ∈ evs → r.method = method.getD "keck" → r.Within) :
    ViewsWithin (run evs) method where
  cpu := by
    rw [show (fun row : NamespacePower => row.cpuUw) = Field.cpu.ofRow from rfl, sum_namespacePower]
    exact sum_pods_le_nodes ha method stamped_cpuUw fun t w r h hm => (hwithin t w r h hm).cpu
  memory := by
    rw [show (fun row : NamespacePower => row.memoryUw) = Field.memory.ofRow from rfl, sum_namespacePower]
    exact sum_pods_le_nodes ha method stamped_memoryUw fun t w r h hm => (hwithin t w r h hm).memory
  nodes n hn :=
    ⟨sum_podsOn_le_node ha method stamped_cpuUw (fun t w r h hm => (hwithin t w r h hm).cpu) hn,
      sum_podsOn_le_node ha method stamped_memoryUw (fun t w r h hm => (hwithin t w r h hm).memory) hn⟩

end Keck.Controller
