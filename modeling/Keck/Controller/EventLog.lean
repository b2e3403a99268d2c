import Keck.Lib.Log
import Keck.Controller.Aggregator
/-!
# The aggregator is determined by its event log

Both maps of the aggregator are log stores: a report writes the keys it lists,
and every event keeps or drops the other entries by looking at the key and
the stored value only. `state_of_log` spells out what that means for `ingest`
and `evict_removed_nodes`: which report an entry comes from, and which later
events would have removed it.
-/
namespace Keck.Controller

open Keck.Lib ClusterAggregator

/-- The last pod a report lists under `uid`. -/
def AgentReport.lastPod (r : AgentReport) (uid : String) : Option PodPowerReport :=
  (r.pods.filter fun p => p.podUid = uid).getLast?

theorem lastPod_eq_none {r : AgentReport} {uid : String} : r.lastPod uid = none ↔ ∀ p ∈ r.pods, p.podUid ≠ uid := by
  simp [AgentReport.lastPod]

theorem lastPod_some {r : AgentReport} {uid : String} {v : PodPowerReport} (h : r.lastPod uid = some v) :
    v ∈ r.pods ∧ v.podUid = uid := by
  have hm := List.mem_of_mem_getLast? h
  simpa using List.mem_filter.1 hm

@[simp] theorem stamped_nodeName (p : PodPowerReport) (m : String) : (p.stamped m).nodeName = p.nodeName := by
  unfold PodPowerReport.stamped; split <;> rfl

@[simp] theorem stamped_podUid (p : PodPowerReport) (m : String) : (p.stamped m).podUid = p.podUid := by
  unfold PodPowerReport.stamped; split <;> rfl

/-! ## What one event does to each map -/

theorem foldl_storePod_pods (now : Int) (m : String) (ps : List PodPowerReport) (agg : ClusterAggregator) :
    (ps.foldl (storePod now m) agg).pods =
      ps.foldl (fun t p => t.insert (p.podUid, m) ⟨p.stamped m, now⟩) agg.pods := by
  induction ps generalizing agg with
  | nil => rfl
  | cons p ps ih => rw [List.foldl_cons, ih]; rfl

theorem foldl_storePod_nodes (now : Int) (m : String) (ps : List PodPowerReport) (agg : ClusterAggregator) :
    (ps.foldl (storePod now m) agg).nodes = agg.nodes := by
  induction ps generalizing agg with
  | nil => rfl
  | cons p ps ih => rw [List.foldl_cons, ih]; rfl

/-- What a report writes at a pod key. -/
def podWrites : Event → String × String → Option PodState
  | .ingest now _ r, (uid, m) => if r.method = m then (r.lastPod uid).map fun v => ⟨v.stamped m, now⟩ else none
  | .evictRemovedNodes _, _ => none

/-- Which stored pods an event keeps, other than those it writes. -/
def podKeeps : Event → String × String → PodState → Bool
  | .ingest now _ r, (uid, m), s =>
    !(m == r.method && s.report.nodeName == r.node.nodeName && !(r.pods.map (·.podUid)).contains uid) &&
      decide (s.receivedAt > now - stalenessThreshold)
  | .evictRemovedNodes live, _, s => live.contains s.report.nodeName

/-- What a report writes at a node key. -/
def nodeWrites : Event → String × String → Option NodeState
  | .ingest now _ r, (name, m) => if r.node.nodeName = name ∧ r.method = m then some ⟨r.node, now⟩ else none
  | .evictRemovedNodes _, _ => none

def nodeKeeps : Event → String × String → NodeState → Bool
  | .ingest now _ _, _, s => decide (s.receivedAt > now - stalenessThreshold)
  | .evictRemovedNodes live, (name, _), _ => live.contains name

theorem fresh_now (now : Int) : now - stalenessThreshold < now := by
  unfold stalenessThreshold secs; omega

theorem pods_ingest (agg : ClusterAggregator) (now wall : Int) (r : AgentReport) (k : String × String) :
    (agg.ingest now wall r).pods.lookup k =
      (podWrites (.ingest now wall r) k).or ((agg.pods.lookup k).filter (podKeeps (.ingest now wall r) k)) := by
  obtain ⟨uid, m⟩ := k
  simp only [ingest, trimHistory, evictStale, AList.lookup_retain, foldl_storePod_pods, AList.lookup_foldl_insert,
    Prod.mk.injEq, podWrites]
  have hkeep : ∀ o : Option PodState, (o.filter fun s => !(m == r.method && s.report.nodeName == r.node.nodeName &&
      !(r.pods.map (·.podUid)).contains uid)).filter (fun s => decide (s.receivedAt > now - stalenessThreshold)) =
      o.filter (podKeeps (.ingest now wall r) (uid, m)) := by
    intro o
    rw [Option.filter_filter]
    rfl
  by_cases hm : r.method = m
  · subst hm
    simp only [and_true, if_true]
    cases hl : r.lastPod uid with
    | none =>
      rw [show (r.pods.filter fun p => p.podUid = uid).getLast? = none from hl]
      exact hkeep _
    | some v =>
      -- A listed pod is written now, so the staleness check keeps it.
      rw [show (r.pods.filter fun p => p.podUid = uid).getLast? = some v from hl]
      have := fresh_now now
      simp [Option.filter, this]
  · simp only [hm, and_false, decide_false, List.filter_false, List.getLast?_nil, Option.map_none, Option.none_or,
      if_false]
    exact hkeep _

theorem nodes_ingest (agg : ClusterAggregator) (now wall : Int) (r : AgentReport) (k : String × String) :
    (agg.ingest now wall r).nodes.lookup k =
      (nodeWrites (.ingest now wall r) k).or ((agg.nodes.lookup k).filter (nodeKeeps (.ingest now wall r) k)) := by
  obtain ⟨name, m⟩ := k
  simp only [ingest, trimHistory, evictStale, AList.lookup_retain, foldl_storePod_nodes, AList.lookup_insert_if,
    Prod.mk.injEq, nodeWrites]
  by_cases h : r.node.nodeName = name ∧ r.method = m
  · obtain ⟨rfl, rfl⟩ := h
    have := fresh_now now
    simp [Option.filter, this]
  · rw [if_neg h, if_neg fun e => h ⟨e.1.symm, e.2.symm⟩]
    rfl

/-- The pod map as a log store. -/
def podLog : LogStore Event ClusterAggregator (String × String) PodState where
  init := new
  step := step
  get agg k := agg.pods.lookup k
  writes := podWrites
  keeps := podKeeps
  get_init _ := rfl
  get_step agg e k := by
    cases e with
    | ingest now wall r => exact pods_ingest agg now wall r k
    | evictRemovedNodes live => exact AList.lookup_retain _ _ _

/-- The node map as a log store. -/
def nodeLog : LogStore Event ClusterAggregator (String × String) NodeState where
  init := new
  step := step
  get agg k := agg.nodes.lookup k
  writes := nodeWrites
  keeps := nodeKeeps
  get_init _ := rfl
  get_step agg e k := by
    cases e with
    | ingest now wall r => exact nodes_ingest agg now wall r k
    | evictRemovedNodes live => exact AList.lookup_retain _ _ _

/-! ## Where an entry comes from -/

/-- A stored node is the node of some report of the log, under that report's key. -/
theorem node_of_run {evs : List Event} {k : String × String} {s : NodeState}
    (h : (run evs).nodes.lookup k = some s) :
    ∃ t w r, Event.ingest t w r ∈ evs ∧ s.report = r.node ∧ k = (r.node.nodeName, r.method) := by
  obtain ⟨pre, e, post, rfl, hw, -⟩ := (nodeLog.get_run_iff evs k s).1 h
  cases e with
  | ingest t w r =>
    obtain ⟨name, m⟩ := k
    simp only [nodeLog, nodeWrites, Option.ite_none_right_eq_some, Option.some.injEq] at hw
    obtain ⟨⟨rfl, rfl⟩, rfl⟩ := hw
    exact ⟨t, w, r, List.mem_append_right _ List.mem_cons_self, rfl, rfl⟩
  | evictRemovedNodes live => cases hw

/-- A stored pod is a pod of some report of the log, under its uid and that
report's method. -/
theorem pod_of_run {evs : List Event} {k : String × String} {s : PodState}
    (h : (run evs).pods.lookup k = some s) :
    ∃ t w r p, Event.ingest t w r ∈ evs ∧ p ∈ r.pods ∧ s.report = p.stamped r.method ∧ k = (p.podUid, r.method) := by
  obtain ⟨pre, e, post, rfl, hw, -⟩ := (podLog.get_run_iff evs k s).1 h
  cases e with
  | ingest t w r =>
    obtain ⟨uid, m⟩ := k
    simp only [podLog, podWrites, Option.ite_none_right_eq_some, Option.map_eq_some_iff] at hw
    obtain ⟨rfl, p, hp, rfl⟩ := hw
    obtain ⟨hpm, rfl⟩ := lastPod_some hp
    exact ⟨t, w, r, p, List.mem_append_right _ List.mem_cons_self, hpm, rfl, rfl⟩
  | evictRemovedNodes live => cases hw

/-! ## Which entries the log leaves -/

/-- The pod stored as `s` at `(uid, m)` after a log ending at time `T`: the
last report of method `m` that lists `uid` lists it as `v`, it is less than 60
seconds old, no later report of method `m` is for `v`'s node, and no later list
of live nodes leaves that node out. -/
def PodFromLog (evs : List Event) (T : Int) (uid m : String) (s : PodState) : Prop :=
  ∃ pre t w r post v, evs = pre ++ Event.ingest t w r :: post ∧ r.method = m ∧ r.lastPod uid = some v ∧
    (∀ t' w' r', Event.ingest t' w' r' ∈ post → r'.method = m → ∀ p ∈ r'.pods, p.podUid ≠ uid) ∧
    t > T - secs 60 ∧
    (∀ t' w' r', Event.ingest t' w' r' ∈ post → r'.method = m → r'.node.nodeName ≠ v.nodeName) ∧
    (∀ live, Event.evictRemovedNodes live ∈ post → v.nodeName ∈ live) ∧
    s = ⟨v.stamped m, t⟩

/-- The node stored as `s` at `(name, m)`: its last report, less than 60
seconds old at `T`, with no later list of live nodes that leaves it out. -/
def NodeFromLog (evs : List Event) (T : Int) (name m : String) (s : NodeState) : Prop :=
  ∃ pre t w r post, evs = pre ++ Event.ingest t w r :: post ∧ r.node.nodeName = name ∧ r.method = m ∧
    (∀ t' w' r', Event.ingest t' w' r' ∈ post → ¬(r'.node.nodeName = name ∧ r'.method = m)) ∧
    t > T - secs 60 ∧
    (∀ live, Event.evictRemovedNodes live ∈ post → name ∈ live) ∧
    s = ⟨r.node, t⟩

theorem ClockOk.le_last {evs : List Event} {T W : Int} {R : AgentReport} (h : ClockOk (evs ++ [Event.ingest T W R]))
    {t w : Int} {r : AgentReport} (ht : Event.ingest t w r ∈ evs ++ [Event.ingest T W R]) : t ≤ T := by
  rcases List.mem_append.1 ht with ht | ht
  · unfold ClockOk at h
    rw [List.filterMap_append, List.pairwise_append] at h
    exact h.2.2 t (List.mem_filterMap.2 ⟨_, ht, rfl⟩) T (by simp [Event.time?])
  · simp only [List.mem_singleton, Event.ingest.injEq] at ht
    omega

/-- With a clock that never goes back, an entry of time `t` passes every later
staleness check exactly when it passes the last one. -/
theorem fresh_iff {evs pre post : List Event} {T W t w : Int} {R r : AgentReport}
    (hc : ClockOk (evs ++ [Event.ingest T W R]))
    (he : evs ++ [Event.ingest T W R] = pre ++ Event.ingest t w r :: post) :
    (∀ t' w' r', Event.ingest t' w' r' ∈ post → t > t' - stalenessThreshold) ↔ t > T - stalenessThreshold := by
  constructor
  · intro h
    rcases List.eq_nil_or_concat post with rfl | ⟨post', e, rfl⟩
    · obtain ⟨-, he'⟩ := List.append_inj' he rfl
      obtain ⟨rfl, -, -⟩ := Event.ingest.inj (List.singleton_inj.1 he')
      exact fresh_now T
    · rw [List.concat_eq_append, ← List.cons_append, ← List.append_assoc] at he
      obtain ⟨-, he'⟩ := List.append_inj' he rfl
      obtain rfl := List.singleton_inj.1 he'
      exact h T W R (by simp)
  · intro h t' w' r' hm
    have := hc.le_last (t := t') (w := w') (r := r') (by rw [he]; simp [hm])
    omega

theorem podKeeps_iff {e : Event} {uid m : String} {v : PodPowerReport} {t : Int} :
    (podWrites e (uid, m) = none ∧ podKeeps e (uid, m) ⟨v.stamped m, t⟩ = true) ↔
      (∀ t' w' r', e = .ingest t' w' r' → t > t' - stalenessThreshold ∧
        (r'.method = m → (∀ p ∈ r'.pods, p.podUid ≠ uid) ∧ r'.node.nodeName ≠ v.nodeName)) ∧
      (∀ live, e = .evictRemovedNodes live → v.nodeName ∈ live) := by
  cases e with
  | evictRemovedNodes live => simp [podWrites, podKeeps]
  | ingest now wall r =>
    by_cases hm : r.method = m
    · subst hm
      cases hl : r.lastPod uid with
      | none =>
        have hn := lastPod_eq_none.1 hl
        have hk : podKeeps (.ingest now wall r) (uid, r.method) ⟨v.stamped r.method, t⟩ = true ↔
            r.node.nodeName ≠ v.nodeName ∧ t > now - stalenessThreshold := by
          have hx : ¬∃ p ∈ r.pods, p.podUid = uid := fun ⟨p, hp, he⟩ => hn p hp he
          simpa [podKeeps, hx] using fun _ => not_congr eq_comm
        simp only [podWrites, if_true, hl, Option.map_none, true_and, hk]
        constructor
        · rintro ⟨h1, h2⟩
          exact ⟨by rintro _ _ _ ⟨⟩; exact ⟨h2, fun _ => ⟨hn, h1⟩⟩, nofun⟩
        · rintro ⟨h, -⟩
          exact ⟨((h now wall r rfl).2 rfl).2, (h now wall r rfl).1⟩
      | some v' =>
        obtain ⟨h1, h2⟩ := lastPod_some hl
        simp only [podWrites, if_true, hl, Option.map_some, reduceCtorEq, false_and, false_iff, not_and]
        intro h
        exact absurd h2 ((h now wall r rfl).2 rfl |>.1 v' h1)
    · simp [podWrites, podKeeps, hm, Ne.symm hm]

section EndsWithReport
variable {evs : List Event} {T W : Int} {R : AgentReport} (hc : ClockOk (evs ++ [Event.ingest T W R]))
include hc

theorem pods_of_log (uid m : String) (s : PodState) :
    (run (evs ++ [Event.ingest T W R])).pods.lookup (uid, m) = some s ↔
      PodFromLog (evs ++ [Event.ingest T W R]) T uid m s := by
  refine (podLog.get_run_iff _ (uid, m) s).trans ⟨?_, ?_⟩
  · rintro ⟨pre, e, post, he, hw, hp⟩
    cases e with
    | evictRemovedNodes live => cases hw
    | ingest t w r =>
      obtain ⟨hm, v, hl, rfl⟩ : r.method = m ∧ ∃ v, r.lastPod uid = some v ∧ ⟨v.stamped m, t⟩ = s := by
        simpa [podLog, podWrites, and_assoc] using hw
      have hk := fun e he => podKeeps_iff.1 (hp e he)
      refine ⟨pre, t, w, r, post, v, he, hm, hl, ?_, ?_, ?_, ?_, rfl⟩
      · exact fun t' w' r' h hm' => (((hk _ h).1 t' w' r' rfl).2 hm').1
      · exact (fresh_iff hc he).1 fun t' w' r' h => ((hk _ h).1 t' w' r' rfl).1
      · exact fun t' w' r' h hm' => (((hk _ h).1 t' w' r' rfl).2 hm').2
      · exact fun live h => (hk _ h).2 live rfl
  · rintro ⟨pre, t, w, r, post, v, he, rfl, hl, h1, h2, h3, h4, rfl⟩
    refine ⟨pre, .ingest t w r, post, he, by simp [podLog, podWrites, hl], fun e hm => podKeeps_iff.2 ⟨?_, ?_⟩⟩
    · rintro t' w' r' rfl
      exact ⟨(fresh_iff hc he).2 h2 t' w' r' hm, fun h => ⟨h1 t' w' r' hm h, h3 t' w' r' hm h⟩⟩
    · rintro live rfl
      exact h4 live hm

theorem nodes_of_log (name m : String) (s : NodeState) :
    (run (evs ++ [Event.ingest T W R])).nodes.lookup (name, m) = some s ↔
      NodeFromLog (evs ++ [Event.ingest T W R]) T name m s := by
  refine (nodeLog.get_run_iff _ (name, m) s).trans ⟨?_, ?_⟩
  · rintro ⟨pre, e, post, he, hw, hp⟩
    cases e with
    | evictRemovedNodes live => cases hw
    | ingest t w r =>
      obtain ⟨⟨hn, hm⟩, rfl⟩ : (r.node.nodeName = name ∧ r.method = m) ∧ ⟨r.node, t⟩ = s := by
        simpa [nodeLog, nodeWrites] using hw
      refine ⟨pre, t, w, r, post, he, hn, hm, ?_, ?_, ?_, rfl⟩
      · intro t' w' r' h
        simpa [nodeLog, nodeWrites] using (hp _ h).1
      · exact (fresh_iff hc he).1 fun t' w' r' h => by simpa [nodeLog, nodeKeeps] using (hp _ h).2
      · intro live h
        simpa [nodeLog, nodeKeeps] using (hp _ h).2
  · rintro ⟨pre, t, w, r, post, he, rfl, rfl, h1, h2, h3, rfl⟩
    refine ⟨pre, .ingest t w r, post, he, by simp [nodeLog, nodeWrites], fun e hm => ?_⟩
    cases e with
    | evictRemovedNodes live => simpa [nodeLog, nodeWrites, nodeKeeps] using h3 live hm
    | ingest t' w' r' =>
      have := (fresh_iff hc he).2 h2 t' w' r' hm
      simpa [nodeLog, nodeWrites, nodeKeeps, this] using h1 t' w' r' hm

end EndsWithReport

/-- After any log whose clock never goes back and that ends with a report at
time `T`, both maps hold exactly what the log says. -/
theorem state_of_log (evs : List Event) (T W : Int) (R : AgentReport) (hc : ClockOk (evs ++ [Event.ingest T W R])) :
    (∀ uid m s, (run (evs ++ [Event.ingest T W R])).pods.lookup (uid, m) = some s ↔
      PodFromLog (evs ++ [Event.ingest T W R]) T uid m s) ∧
    (∀ name m s, (run (evs ++ [Event.ingest T W R])).nodes.lookup (name, m) = some s ↔
      NodeFromLog (evs ++ [Event.ingest T W R]) T name m s) :=
  ⟨pods_of_log hc, nodes_of_log hc⟩

/-- A pod moves from node-1 to node-2; node-1 then reports without it. -/
def movedLog : List Event :=
  [.ingest 1 1 ⟨makeNode "node-1" 5000 2000 0 none 1000, [makePod "node-1" "uid-a" "web-1" "default" 1000 500 0]⟩,
   .ingest 2 2 ⟨makeNode "node-2" 4000 1500 0 none 900, [makePod "node-2" "uid-a" "web-1" "default" 1200 500 0]⟩]

def afterMove : AgentReport := ⟨makeNode "node-1" 3000 1000 0 none 1000, []⟩

/-- The pod stays, as node-2 reported it: node-1's report is later and of the
same method, but the stored pod is on node-2. -/
theorem state_of_movedLog :
    ClockOk (movedLog ++ [Event.ingest 3 3 afterMove]) ∧
    (run (movedLog ++ [Event.ingest 3 3 afterMove])).pods.lookup ("uid-a", "keck") =
      some ⟨(makePod "node-2" "uid-a" "web-1" "default" 1200 500 0).stamped "keck", 2⟩ := by
  have hc : ClockOk (movedLog ++ [Event.ingest 3 3 afterMove]) := by decide
  refine ⟨hc, ((state_of_log movedLog 3 3 afterMove hc).1 "uid-a" "keck" _).2 ?_⟩
  refine ⟨[.ingest 1 1 _], 2, 2, _, [.ingest 3 3 afterMove], _, rfl, by decide, rfl, ?_, by decide, ?_, ?_, rfl⟩
  · intro t w r h _
    simp only [List.mem_singleton, Event.ingest.injEq] at h
    obtain ⟨-, -, rfl⟩ := h
    simp [afterMove]
  · intro t w r h _
    simp only [List.mem_singleton, Event.ingest.injEq] at h
    obtain ⟨-, -, rfl⟩ := h
    decide
  · intro live h
    simp at h

end Keck.Controller
