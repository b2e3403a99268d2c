import Keck.Controller.Kepler
/-!
# What a scrape leaves of the Kepler view

The reports of one scrape, ingested in the order they come: which Kepler pods
are stored afterwards (`lookup_scrape`), that nothing of another method is
touched but by staleness, and when the stored Kepler pods of every node the
body mentions are the ones running on it (`kepler_view_replaced_iff`).
-/
namespace Keck.Controller

open Keck.Lib ClusterAggregator

variable {w : World} {body : String}

/-! ## One report -/

section Report
variable {e : Σ _ : String, List PodPowerReport} {uid : String}

theorem podWrites_eq_none_iff (he : e ∈ scraped w body) :
    podWrites (ingestNode w (totals body) e) (uid, "kepler") = none ↔ ¬RunsOn body uid e.1 := by
  rw [← lists_iff_runsOn he]
  simp only [ingestNode, podWrites, method_keplerNode, if_true, Option.map_eq_none_iff, lastPod_eq_none,
    pods_keplerNode, not_exists, not_and, ne_eq]

/-- What a report writes is one of the scrape's pods on its node. -/
theorem of_podWrites_eq_some (he : e ∈ scraped w body) {s : PodState}
    (h : podWrites (ingestNode w (totals body) e) (uid, "kepler") = some s) :
    ∃ key accum, (totals body).podData.lookup key = some accum ∧ key.podId = uid ∧ key.nodeName = e.1 ∧
      s = ⟨keplerPod (w.podStamp key) key accum, w.now e.1⟩ := by
  simp only [ingestNode, podWrites, method_keplerNode, if_true, Option.map_eq_some_iff] at h
  obtain ⟨p, hp, rfl⟩ := h
  obtain ⟨hmem, rfl⟩ := lastPod_some hp
  obtain ⟨key, accum, ha, hnode, rfl⟩ := pod_of_scraped he hmem
  exact ⟨key, accum, ha, rfl, hnode, rfl⟩

/-- A report without the pod drops it if it is on its node, or stale. -/
theorem podKeeps_iff_of_not_runsOn (he : e ∈ scraped w body) (h : ¬RunsOn body uid e.1) (s : PodState) :
    podKeeps (ingestNode w (totals body) e) (uid, "kepler") s = true ↔
      s.report.nodeName ≠ e.1 ∧ s.receivedAt > w.now e.1 - stalenessThreshold := by
  have hlist : (e.2.map (·.podUid)).contains uid = false := by
    rw [← lists_iff_runsOn he] at h
    simpa using h
  have hk : podKeeps (ingestNode w (totals body) e) (uid, "kepler") s =
      (!("kepler" == "kepler" && s.report.nodeName == e.1 && !(e.2.map (·.podUid)).contains uid) &&
        decide (s.receivedAt > w.now e.1 - stalenessThreshold)) := rfl
  rw [hk, hlist]
  simp

end Report

/-! ## All reports of a scrape -/

/-- The order of the reports, by node. -/
def reportOrder (w : World) (body : String) : List String := (scraped w body).map (·.1)

/-- What is reported after `e` in the order of the reports. -/
theorem later_report_iff {pre post : List (Σ _ : String, List PodPowerReport)} {e : Σ _ : String, List PodPowerReport}
    (hsc : scraped w body = pre ++ e :: post) {node : String} :
    [e.1, node].Sublist (reportOrder w body) ↔ node ∈ post.map (·.1) := by
  have hn : (reportOrder w body).Nodup := nodup_scraped
  rw [reportOrder, hsc, List.map_append, List.map_cons] at hn ⊢
  exact Trace.pair_sublist_iff hn

/-- A Kepler pod that is stored after a scrape was written by the last report
that lists it and has not become stale since, or was there before, is on a
node without a report, is listed by none and has not become stale. -/
theorem lookup_scrape {agg : ClusterAggregator} {uid : String} {s : PodState} :
    (scrapeAndIngest w body agg).1.pods.lookup (uid, "kepler") = some s ↔
      (∃ e ∈ scraped w body, podWrites (ingestNode w (totals body) e) (uid, "kepler") = some s ∧
        ∀ node, [e.1, node].Sublist (reportOrder w body) →
          ¬RunsOn body uid node ∧ w.now e.1 > w.now node - stalenessThreshold) ∨
      (agg.pods.lookup (uid, "kepler") = some s ∧ ∀ node ∈ reportOrder w body,
        ¬RunsOn body uid node ∧ s.report.nodeName ≠ node ∧ s.receivedAt > w.now node - stalenessThreshold) := by
  refine (podLog.get_foldl_iff agg _ (uid, "kepler") s).trans (or_congr ?_ (and_congr_right' ?_))
  · constructor
    · rintro ⟨pre, ev, post, hev, hw, hpost⟩
      obtain ⟨pre', rest, hsc, rfl, hrest⟩ := List.map_eq_append_iff.1 hev
      obtain ⟨e, post', rfl, rfl, rfl⟩ := List.map_eq_cons_iff.1 hrest
      have he : e ∈ scraped w body := hsc ▸ List.mem_append_right _ List.mem_cons_self
      obtain ⟨key, accum, -, -, hnode, rfl⟩ := of_podWrites_eq_some he hw
      refine ⟨e, he, hw, fun node hs => ?_⟩
      obtain ⟨e', he', rfl⟩ := List.mem_map.1 ((later_report_iff hsc).1 hs)
      have hsc' : e' ∈ scraped w body := hsc ▸ List.mem_append_right _ (List.mem_cons_of_mem _ he')
      obtain ⟨hnone, hkeep⟩ := hpost _ (List.mem_map_of_mem he')
      have hnot := (podWrites_eq_none_iff hsc').1 hnone
      exact ⟨hnot, ((podKeeps_iff_of_not_runsOn hsc' hnot _).1 hkeep).2⟩
    · rintro ⟨e, he, hw, hlater⟩
      obtain ⟨pre, post, hsc⟩ := List.append_of_mem he
      obtain ⟨key, accum, -, -, hnode, rfl⟩ := of_podWrites_eq_some he hw
      refine ⟨pre.map _, ingestNode w (totals body) e, post.map _, by rw [hsc, List.map_append, List.map_cons], hw, ?_⟩
      intro ev hev
      obtain ⟨e', he', rfl⟩ := List.mem_map.1 hev
      have hsc' : e' ∈ scraped w body := hsc ▸ List.mem_append_right _ (List.mem_cons_of_mem _ he')
      have hs : [e.1, e'.1].Sublist (reportOrder w body) := (later_report_iff hsc).2 (List.mem_map_of_mem he')
      obtain ⟨hnot, hfresh⟩ := hlater _ hs
      refine ⟨(podWrites_eq_none_iff hsc').2 hnot, (podKeeps_iff_of_not_runsOn hsc' hnot _).2 ⟨?_, hfresh⟩⟩
      -- a later report is of another node
      have hne := hs.nodup nodup_scraped
      intro heq
      have heq' : e.1 = e'.1 := hnode.symm.trans heq
      simp [heq'] at hne
  · rw [reportOrder, List.forall_mem_map, List.forall_mem_map]
    refine forall₂_congr fun e he => ?_
    rw [show podLog.writes = podWrites from rfl, show podLog.keeps = podKeeps from rfl, podWrites_eq_none_iff he]
    exact and_congr_right fun hnot => podKeeps_iff_of_not_runsOn he hnot s

/-- Pods of another method are only checked for staleness. -/
theorem lookup_scrape_other {agg : ClusterAggregator} {uid m : String} (hm : m ≠ "kepler") {s : PodState} :
    (scrapeAndIngest w body agg).1.pods.lookup (uid, m) = some s ↔
      agg.pods.lookup (uid, m) = some s ∧
        ∀ node ∈ reportOrder w body, s.receivedAt > w.now node - stalenessThreshold := by
  have hwrites : ∀ ev ∈ (scraped w body).map (ingestNode w (totals body)), podLog.writes ev (uid, m) = none := by
    rw [List.forall_mem_map]
    exact fun e _ => if_neg hm.symm
  refine (podLog.get_foldl_of_not_written hwrites agg s).trans (and_congr_right' ?_)
  rw [reportOrder, List.forall_mem_map, List.forall_mem_map]
  refine forall₂_congr fun e _ => ?_
  simp [podLog, podKeeps, ingestNode, hm]

/-- And so are nodes of another method. -/
theorem lookup_scrape_node {agg : ClusterAggregator} {name m : String} (hm : m ≠ "kepler") {s : NodeState} :
    (scrapeAndIngest w body agg).1.nodes.lookup (name, m) = some s ↔
      agg.nodes.lookup (name, m) = some s ∧
        ∀ node ∈ reportOrder w body, s.receivedAt > w.now node - stalenessThreshold := by
  have hwrites : ∀ ev ∈ (scraped w body).map (ingestNode w (totals body)), nodeLog.writes ev (name, m) = none := by
    rw [List.forall_mem_map]
    exact fun e _ => if_neg fun h => hm h.2.symm
  refine (nodeLog.get_foldl_of_not_written hwrites agg s).trans (and_congr_right' ?_)
  rw [reportOrder, List.forall_mem_map, List.forall_mem_map]
  exact forall₂_congr fun e _ => decide_eq_true_iff

/-! ## The view of the nodes a body mentions -/

/-- After the scrape the Kepler pods stored for each node of the body are those
running on it, with the body's readings, and entries of other methods are as
before, apart from those that became stale. -/
structure ViewReplaced (w : World) (body : String) (before after : ClusterAggregator) : Prop where
  kepler : ∀ node, Mentioned body node → ∀ uid,
    (∃ s, after.pods.lookup (uid, "kepler") = some s ∧ s.report.nodeName = node) ↔ RunsOn body uid node
  readings : ∀ node, Mentioned body node → ∀ uid s, after.pods.lookup (uid, "kepler") = some s →
    s.report.nodeName = node → ∃ key accum, (totals body).podData.lookup key = some accum ∧
      s.report = keplerPod (w.podStamp key) key accum
  pods : ∀ uid m s, m ≠ "kepler" → (after.pods.lookup (uid, m) = some s ↔ before.pods.lookup (uid, m) = some s ∧
    ∀ node ∈ reportOrder w body, s.receivedAt > w.now node - stalenessThreshold)
  nodes : ∀ name m s, m ≠ "kepler" → (after.nodes.lookup (name, m) = some s ↔
    before.nodes.lookup (name, m) = some s ∧
      ∀ node ∈ reportOrder w body, s.receivedAt > w.now node - stalenessThreshold)

/-- No pod runs on two nodes; a node of the body without a running pod has no
Kepler pod stored, unless it runs elsewhere in the body or is stale at one of
the ingests; and no ingest is a minute or more after an earlier one. -/
structure Covers (w : World) (body : String) (agg : ClusterAggregator) : Prop where
  oneNode : ∀ uid a b, RunsOn body uid a → RunsOn body uid b → a = b
  idle : ∀ node, Mentioned body node → (∀ uid, ¬RunsOn body uid node) → ∀ uid s,
    agg.pods.lookup (uid, "kepler") = some s → s.report.nodeName = node →
      (∃ other, RunsOn body uid other) ∨
        ∃ other ∈ reportOrder w body, s.receivedAt ≤ w.now other - stalenessThreshold
  prompt : (reportOrder w body).Pairwise fun a b => w.now a > w.now b - stalenessThreshold

/-- Which Kepler pods are stored for a node, in terms of what runs where. -/
theorem stored_iff {agg : ClusterAggregator} {uid node : String} :
    (∃ s, (scrapeAndIngest w body agg).1.pods.lookup (uid, "kepler") = some s ∧ s.report.nodeName = node) ↔
      (RunsOn body uid node ∧ ∀ b, [node, b].Sublist (reportOrder w body) →
        ¬RunsOn body uid b ∧ w.now node > w.now b - stalenessThreshold) ∨
      (∃ s, agg.pods.lookup (uid, "kepler") = some s ∧ s.report.nodeName = node ∧ ∀ b ∈ reportOrder w body,
        ¬RunsOn body uid b ∧ node ≠ b ∧ s.receivedAt > w.now b - stalenessThreshold) := by
  constructor
  · rintro ⟨s, hs, rfl⟩
    rcases lookup_scrape.1 hs with ⟨e, he, hw, hlater⟩ | ⟨hold, hall⟩
    · obtain ⟨key, accum, ha, hid, hnode, rfl⟩ := of_podWrites_eq_some he hw
      have hrun : Running body key := mem_podData_totals.1 (AList.lookup_isSome.1 (Option.isSome_of_mem ha))
      refine .inl ⟨⟨key, hrun, hid, rfl⟩, ?_⟩
      rwa [show (keplerPod (w.podStamp key) key accum).nodeName = e.1 from hnode]
    · exact .inr ⟨s, hold, rfl, hall⟩
  · rintro (⟨hrun, hlater⟩ | ⟨s, hold, rfl, hall⟩)
    · obtain ⟨e, he, rfl⟩ := List.mem_map.1 (mem_scraped_iff (w := w).2 ⟨uid, hrun⟩)
      -- the node's report writes the pod, and no later one touches it
      have hne : podWrites (ingestNode w (totals body) e) (uid, "kepler") ≠ none :=
        fun h => (podWrites_eq_none_iff he).1 h hrun
      obtain ⟨s, hw⟩ := Option.ne_none_iff_exists'.1 hne
      refine ⟨s, lookup_scrape.2 (.inl ⟨e, he, hw, hlater⟩), ?_⟩
      obtain ⟨key, accum, -, -, hnode, rfl⟩ := of_podWrites_eq_some he hw
      exact hnode
    · exact ⟨s, lookup_scrape.2 (.inr ⟨hold, hall⟩), rfl⟩

/-- A pod that is running on a node of the body is stored for it exactly if no
later report lists it and none makes it stale. -/
theorem stored_of_runsOn_iff {agg : ClusterAggregator} {uid node : String} (h : RunsOn body uid node) :
    (∃ s, (scrapeAndIngest w body agg).1.pods.lookup (uid, "kepler") = some s ∧ s.report.nodeName = node) ↔
      ∀ b, [node, b].Sublist (reportOrder w body) →
        ¬RunsOn body uid b ∧ w.now node > w.now b - stalenessThreshold := by
  rw [stored_iff, or_iff_left, and_iff_right h]
  rintro ⟨s, -, -, hall⟩
  exact (hall node (mem_scraped_iff.2 ⟨uid, h⟩)).1 h

theorem covers_of_replaced {agg : ClusterAggregator}
    (h : ∀ node, Mentioned body node → ∀ uid, (∃ s, (scrapeAndIngest w body agg).1.pods.lookup (uid, "kepler") =
      some s ∧ s.report.nodeName = node) ↔ RunsOn body uid node) : Covers w body agg := by
  have hstored : ∀ {uid node b}, RunsOn body uid node → [node, b].Sublist (reportOrder w body) →
      ¬RunsOn body uid b ∧ w.now node > w.now b - stalenessThreshold :=
    fun hrun hs => (stored_of_runsOn_iff hrun).1 ((h _ hrun.mentioned _).2 hrun) _ hs
  refine ⟨fun uid a b ha hb => ?_, fun node hm hidle uid s hs hnode => ?_, ?_⟩
  · by_contra hne
    rcases Trace.pair_sublist_or (mem_scraped_iff (w := w).2 ⟨uid, ha⟩) (mem_scraped_iff.2 ⟨uid, hb⟩) hne
      with hab | hba
    · exact (hstored ha hab).1 hb
    · exact (hstored hb hba).1 ha
  · by_contra hcon
    rw [not_or, not_exists] at hcon
    have hkept : ∀ b ∈ reportOrder w body,
        ¬RunsOn body uid b ∧ node ≠ b ∧ s.receivedAt > w.now b - stalenessThreshold := by
      intro b hb
      refine ⟨hcon.1 b, ?_, lt_of_not_ge fun hstale => hcon.2 ⟨b, hb, hstale⟩⟩
      rintro rfl
      obtain ⟨uid', hrun⟩ := mem_scraped_iff.1 hb
      exact hidle uid' hrun
    exact hidle uid ((h node hm uid).1 (stored_iff.2 (.inr ⟨s, hs, hnode, hkept⟩)))
  · rw [List.pairwise_iff_forall_sublist]
    intro a b hab
    obtain ⟨uid, hrun⟩ := mem_scraped_iff.1 (hab.subset List.mem_cons_self)
    exact (hstored hrun hab).2

theorem stored_iff_runsOn_of_covers {agg : ClusterAggregator} (h : Covers w body agg) {node : String}
    (hm : Mentioned body node) (uid : String) :
    (∃ s, (scrapeAndIngest w body agg).1.pods.lookup (uid, "kepler") = some s ∧ s.report.nodeName = node) ↔
      RunsOn body uid node := by
  constructor
  · intro hs
    rcases stored_iff.1 hs with ⟨hrun, -⟩ | ⟨s, hold, hnode, hall⟩
    · exact hrun
    · -- an old pod: its node has no report, so it is excluded by `idle`
      have hidle : ∀ uid', ¬RunsOn body uid' node :=
        fun uid' hrun => (hall node (mem_scraped_iff.2 ⟨uid', hrun⟩)).2.1 rfl
      rcases h.idle node hm hidle uid s hold hnode with ⟨other, hrun⟩ | ⟨other, hb, hstale⟩
      · exact absurd hrun (hall other (mem_scraped_iff.2 ⟨uid, hrun⟩)).1
      · exact absurd hstale (hall other hb).2.2.not_ge
  · intro hrun
    refine (stored_of_runsOn_iff hrun).2 fun b hb => ⟨fun hb' => ?_, List.pairwise_iff_forall_sublist.1 h.prompt hb⟩
    have hn := hb.nodup nodup_scraped
    simp [h.oneNode uid node b hrun hb'] at hn

/-- For every aggregator state and every scraped body, in whatever order and at
whatever times its reports are ingested: the scrape replaces the Kepler view of
every node of the body if and only if it covers them. -/
theorem kepler_view_replaced_iff (w : World) (body : String) (agg : ClusterAggregator) :
    ViewReplaced w body agg (scrapeAndIngest w body agg).1 ↔ Covers w body agg := by
  refine ⟨fun h => covers_of_replaced h.kepler, fun h => ⟨?_, ?_, ?_, ?_⟩⟩
  · exact fun node hm uid => stored_iff_runsOn_of_covers h hm uid
  · intro node hm uid s hs hnode
    rcases lookup_scrape.1 hs with ⟨e, he, hw, -⟩ | ⟨-, hall⟩
    · obtain ⟨key, accum, ha, -, -, rfl⟩ := of_podWrites_eq_some he hw
      exact ⟨key, accum, ha, rfl⟩
    · -- an old pod on a node without a report is not there any more
      have hrun := (stored_iff_runsOn_of_covers h hm uid).1 ⟨s, hs, hnode⟩
      exact absurd hrun (hall node (mem_scraped_iff.2 ⟨uid, hrun⟩)).1
  · exact fun uid m s hm => lookup_scrape_other hm
  · exact fun name m s hm => lookup_scrape_node hm

/-- A world in which maps keep their order and the clock stands still. -/
def frozen (now : Int) : World where
  pods m := m.entries
  pods_perm _ := List.Perm.refl _
  nodes m := m.entries
  nodes_perm _ := List.Perm.refl _
  podStamp _ := now
  nodeStamp _ := now
  now _ := now
  wall _ := now

/-- The only pod of a node ends. The next scrape, ten seconds later, still
mentions the node and has no running pod, and the ended one stays stored. -/
theorem ended_pod_stays :
    let line (state : String) := "kepler_pod_cpu_watts\x7bnode_name=\"n1\",pod_id=\"p\",pod_name=\"web\"," ++
      "pod_namespace=\"shop\",state=\"" ++ state ++ "\"\x7d 5\n"
    let first := (scrapeAndIngest (frozen 0) (line "running") .new).1
    let second := (scrapeAndIngest (frozen (secs 10)) (line "terminated") first).1
    (samples (line "terminated")).map (fun x => (x.node, x.running?)) = [("n1", none)] ∧
      (second.pods.lookup ("p", "kepler")).map (fun s => (s.report.nodeName, s.report.cpuUw)) =
        some ("n1", 5000000) := by
  decide +kernel

end Keck.Controller
