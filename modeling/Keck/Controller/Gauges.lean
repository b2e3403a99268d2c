import Keck.Lib.Families
import Keck.Controller.Metrics
import Keck.Controller.Overflow
/-!
# What a scrape renders

The server's gauges live as long as the server, and a scrape only sets the
labels that are current; nothing removes a label. So after any interleaving of
ingests, evictions and scrapes the namespace and node families are what
`publish` makes of the rows of all scrapes (`families_serve`), and a scrape
renders the current state if and only if no earlier scrape saw a namespace or
node that has gone since (`gauges_exact_iff`).
-/
namespace Keck.Controller

open Keck.Lib ClusterAggregator

/-! ## The server -/

/-- What happens to the server: the aggregator changes, or `/metrics` is read
at time `now`. -/
inductive Action where
  | event (e : Event)
  | scrape (now : Int)

structure Server where
  agg : ClusterAggregator
  metrics : Metrics

def Server.step (s : Server) : Action → Server
  | .event e => { s with agg := s.agg.step e }
  | .scrape now => { s with metrics := handleMetrics s.agg now s.metrics }

/-- The server after a run of actions. -/
def serve (acts : List Action) : Server := acts.foldl Server.step ⟨new, {}⟩

/-- The events of a run. -/
def eventsOf (acts : List Action) : List Event :=
  acts.filterMap fun
    | .event e => some e
    | .scrape _ => none

/-- Follow the aggregator and note it, with the clock, at a scrape. -/
def watch (s : ClusterAggregator × List (ClusterAggregator × Int)) :
    Action → ClusterAggregator × List (ClusterAggregator × Int)
  | .event e => (s.1.step e, s.2)
  | .scrape now => (s.1, s.2 ++ [(s.1, now)])

/-- The aggregator and the clock at every scrape of a run. -/
def scrapes (acts : List Action) : List (ClusterAggregator × Int) := (acts.foldl watch (new, [])).2

theorem serve_concat (acts : List Action) (a : Action) : serve (acts ++ [a]) = (serve acts).step a := by
  simp [serve]

theorem agg_serve (acts : List Action) : (serve acts).agg = run (eventsOf acts) := by
  induction acts using List.reverseRecOn with
  | nil => rfl
  | append_singleton acts a ih =>
    rw [serve_concat]
    cases a with
    | event e => simp [Server.step, ih, eventsOf, run]
    | scrape now => simp [Server.step, ih, eventsOf]

theorem foldl_watch (acts : List Action) : (acts.foldl watch (new, [])).1 = (serve acts).agg := by
  induction acts using List.reverseRecOn with
  | nil => rfl
  | append_singleton acts a ih =>
    rw [serve_concat, List.foldl_append]
    cases a with
    | event e => exact congrArg (·.step e) ih
    | scrape now => exact ih

theorem scrapes_concat (acts : List Action) (a : Action) :
    scrapes (acts ++ [a]) = match a with
      | .event _ => scrapes acts
      | .scrape now => scrapes acts ++ [((serve acts).agg, now)] := by
  rw [← foldl_watch, scrapes, List.foldl_append]
  cases a <;> rfl

/-! ## The families are what the scrapes published -/

/-- The samples a scrape sets for the namespaces. -/
def nsRows (agg : ClusterAggregator) : List ((String × String) × ℚ) :=
  (agg.namespacePower none).map fun row => ((row.ns, "total"), watts row.totalUw)

/-- The samples a scrape sets for the nodes' power. -/
def nodeRows (agg : ClusterAggregator) (now : Int) : List (String × ℚ) :=
  (agg.nodeSummaries now none).map fun n => (n.nodeName, watts (n.cpuUw + n.memoryUw + n.gpuUw))

theorem namespacePowerWatts_handleMetrics (agg : ClusterAggregator) (now : Int) (m : Metrics) :
    (handleMetrics agg now m).namespacePowerWatts = publish m.namespacePowerWatts (nsRows agg) := by
  -- the nodes' gauges leave this family alone, and each namespace's sets one label of it
  refine Eq.trans (foldl_unchanged (f := Metrics.namespacePowerWatts) ?_ _ _) ?_
  · exact fun _ _ => rfl
  · rw [publish, nsRows, List.foldl_map]
    exact (List.foldl_hom Metrics.namespacePowerWatts fun _ _ => rfl).symm

theorem nodePowerWatts_handleMetrics (agg : ClusterAggregator) (now : Int) (m : Metrics) :
    (handleMetrics agg now m).nodePowerWatts = publish m.nodePowerWatts (nodeRows agg now) := by
  have hns : ((agg.namespacePower none).foldl Metrics.setNamespace
      (m.setCluster (agg.clusterPower none))).nodePowerWatts = m.nodePowerWatts := by
    refine Eq.trans (foldl_unchanged (f := Metrics.nodePowerWatts) ?_ _ _) rfl
    exact fun _ _ => rfl
  rw [publish, nodeRows, List.foldl_map, ← hns]
  exact (List.foldl_hom Metrics.nodePowerWatts fun _ _ => rfl).symm

/-- After every run the two families are what its scrapes published. -/
theorem families_serve (acts : List Action) :
    (serve acts).metrics.namespacePowerWatts = published ((scrapes acts).map fun s => nsRows s.1) ∧
      (serve acts).metrics.nodePowerWatts = published ((scrapes acts).map fun s => nodeRows s.1 s.2) := by
  induction acts using List.reverseRecOn with
  | nil => exact ⟨rfl, rfl⟩
  | append_singleton acts a ih =>
    rw [serve_concat, scrapes_concat]
    cases a with
    | event e => exact ih
    | scrape now =>
      simp only [Server.step, namespacePowerWatts_handleMetrics, nodePowerWatts_handleMetrics, ih.1, ih.2,
        List.map_append, List.map_cons, List.map_nil, published_concat, and_self]

/-! ## Labels of one scrape are distinct -/

theorem nodup_nsRows (agg : ClusterAggregator) : ((nsRows agg).map Prod.fst).Nodup := by
  have hns : ((agg.namespacePower none).map (·.ns)).Nodup :=
    (map_ns_perm agg none).nodup_iff.2 (nsMap agg none).keys_nodup
  have heq : (nsRows agg).map Prod.fst = ((agg.namespacePower none).map (·.ns)).map (·, "total") := by
    simp [nsRows]
  rw [heq]
  exact hns.map fun _ _ h => congrArg Prod.fst h

/-- A node's name determines its entry among those of one method. -/
theorem nodup_nodeRows (evs : List Event) (now : Int) : ((nodeRows (run evs) now).map Prod.fst).Nodup := by
  have heq : (nodeRows (run evs) now).map Prod.fst =
      (((run evs).nodes.entries.filter fun e => matchesMethod e.2.report.meteringMethod none).map
        (·.1)).map Prod.fst := by
    simp only [nodeRows, nodeSummaries, AList.values, List.map_map, List.filter_map]
    apply List.map_congr_left
    rintro ⟨k, s⟩ he
    have hk : (run evs).nodes.lookup k = some s := AList.mem_entries.1 (List.mem_of_mem_filter he)
    obtain ⟨t, w, r, -, hs, rfl⟩ := node_of_run hk
    simp [NodeSummary.of, hs]
  rw [heq]
  have hkeys : (((run evs).nodes.entries.filter fun e => matchesMethod e.2.report.meteringMethod none).map
      (·.1)).Nodup := (List.Sublist.map _ List.filter_sublist).nodup (run evs).nodes.keys_nodup
  refine hkeys.map_on ?_
  -- the keys of the default method all end in "keck"
  have hkeck : ∀ k ∈ ((run evs).nodes.entries.filter fun e => matchesMethod e.2.report.meteringMethod none).map
      (·.1), k.2 = "keck" := by
    intro k hk
    obtain ⟨⟨k, s⟩, he, rfl⟩ := List.mem_map.1 hk
    obtain ⟨he, hm⟩ := List.mem_filter.1 he
    obtain ⟨t, w, r, -, hs, rfl⟩ := node_of_run (AList.mem_entries.1 he)
    simpa [matchesMethod, hs, AgentReport.method] using hm
  intro k hk k' hk' h
  exact Prod.ext h ((hkeck k hk).trans (hkeck k' hk').symm)

/-! ## Gauges and the current state -/

/-- The rendered namespace and node samples are those of the aggregator's
views: one for each row of `namespace_power` and of `node_summaries`, with
its value, and no other. -/
structure Exact (m : Metrics) (agg : ClusterAggregator) (now : Int) : Prop where
  namespaces : ∀ label v, m.namespacePowerWatts.lookup label = some v ↔
    ∃ row ∈ agg.namespacePower none, label = (row.ns, "total") ∧ v = watts row.totalUw
  nodes : ∀ node v, m.nodePowerWatts.lookup node = some v ↔
    ∃ n ∈ agg.nodeSummaries now none, node = n.nodeName ∧ v = watts (n.cpuUw + n.memoryUw + n.gpuUw)

/-- Every namespace and node the default method had at one scrape it still has
at another. -/
def StillThere (old new : ClusterAggregator × Int) : Prop :=
  (∀ ns, ns ∈ (old.1.namespacePower none).map (·.ns) → ns ∈ (new.1.namespacePower none).map (·.ns)) ∧
    ∀ node, node ∈ (old.1.nodeSummaries old.2 none).map (·.nodeName) →
      node ∈ (new.1.nodeSummaries new.2 none).map (·.nodeName)

theorem exact_iff_rows (m : Metrics) (agg : ClusterAggregator) (now : Int) :
    Exact m agg now ↔ (∀ k v, m.namespacePowerWatts.lookup k = some v ↔ (k, v) ∈ nsRows agg) ∧
      ∀ k v, m.nodePowerWatts.lookup k = some v ↔ (k, v) ∈ nodeRows agg now := by
  have hns : ∀ k v, (k, v) ∈ nsRows agg ↔
      ∃ row ∈ agg.namespacePower none, k = (row.ns, "total") ∧ v = watts row.totalUw := by
    simp [nsRows, eq_comm]
  have hnode : ∀ k v, (k, v) ∈ nodeRows agg now ↔
      ∃ n ∈ agg.nodeSummaries now none, k = n.nodeName ∧ v = watts (n.cpuUw + n.memoryUw + n.gpuUw) := by
    simp [nodeRows, eq_comm]
  simp only [hns, hnode]
  exact ⟨fun h => ⟨h.namespaces, h.nodes⟩, fun h => ⟨h.1, h.2⟩⟩

/-- For every run of ingests, evictions and scrapes that ends in a scrape: what
it renders is the current state if and only if every namespace and node of an
earlier scrape is still there. -/
theorem gauges_exact_iff (acts : List Action) (now : Int) :
    Exact (serve (acts ++ [.scrape now])).metrics (serve acts).agg now ↔
      ∀ s ∈ scrapes acts, StillThere s ((serve acts).agg, now) := by
  have hnodes : ((nodeRows (serve acts).agg now).map Prod.fst).Nodup := by
    rw [agg_serve]
    exact nodup_nodeRows _ _
  obtain ⟨hfn, hfd⟩ := families_serve (acts ++ [.scrape now])
  simp only [scrapes_concat, List.map_append, List.map_cons, List.map_nil] at hfn hfd
  rw [exact_iff_rows, hfn, hfd, published_exact_iff (nodup_nsRows _), published_exact_iff hnodes, List.forall_mem_map,
    List.forall_mem_map, ← forall₂_and]
  refine forall₂_congr fun s _ => and_congr ?_ ?_
  · simp [nsRows]
  · simp [nodeRows]

/-- A node that was scraped and has then been removed is rendered for ever
after, and so is its namespace. -/
theorem removed_node_still_rendered :
    let pod := makePod "node-1" "uid-1" "web" "shop" 1000000 0 0
    let report : AgentReport := ⟨makeNode "node-1" 1000000 0 0 none 0, [pod]⟩
    let acts : List Action :=
      [.event (.ingest 0 0 report), .scrape 1, .event (.evictRemovedNodes ["node-2"])]
    (serve acts).agg.namespacePower none = [] ∧ (serve acts).agg.nodeSummaries 2 none = [] ∧
      (serve (acts ++ [.scrape 2])).metrics.namespacePowerWatts.lookup ("shop", "total") = some 1 ∧
      (serve (acts ++ [.scrape 2])).metrics.nodePowerWatts.lookup "node-1" = some 1 := by
  decide +kernel

end Keck.Controller
