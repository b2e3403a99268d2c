import Keck.Controller.EventLog
/-!
# Metering methods side by side

Keck's own reports and those scraped from Kepler go into the same two maps, and
each of them is followed by an eviction of all that is stale, of any method.
`method_isolated`: the events of a method, and the lists of live nodes, decide
alone what is stored under it, but for one thing: the other methods' reports
show that an entry is sixty seconds old before the method's own next report
does.
-/
namespace Keck.Controller

open Keck.Lib ClusterAggregator

/-- The event is a report of the method, or no report. -/
def Event.ofMethod (m : String) : Event → Bool
  | .ingest _ _ r => r.method == m
  | .evictRemovedNodes _ => true

theorem other_of_ofMethod {m : String} {e : Event} (h : e.ofMethod m = false) :
    ∃ t w r, e = .ingest t w r ∧ r.method ≠ m := by
  cases e with
  | evictRemovedNodes live => cases h
  | ingest t w r => exact ⟨t, w, r, rfl, by simpa [Event.ofMethod] using h⟩

/-- A report is not older than one before it. -/
theorem ClockOk.le_of_split {pre post : List Event} {t w t' w' : Int} {r r' : AgentReport}
    (hc : ClockOk (pre ++ .ingest t w r :: post)) (h : Event.ingest t' w' r' ∈ pre) : t' ≤ t := by
  unfold ClockOk at hc
  rw [List.filterMap_append, List.pairwise_append] at hc
  exact hc.2.2 t' (List.mem_filterMap.2 ⟨_, h, rfl⟩) t (by simp [Event.time?])

/-- An entry of this time is not stale at any report of another method. -/
def FreshForOthers (evs : List Event) (m : String) (receivedAt : Int) : Prop :=
  ∀ t w r, Event.ingest t w r ∈ evs → r.method ≠ m → receivedAt > t - stalenessThreshold

/-- What is used of either map: an entry is of the time of the report that
wrote it, and a report of another method does nothing to it but look at its
age. -/
structure MethodMap {ν : Type} (L : LogStore Event ClusterAggregator (String × String) ν) (time : ν → Int) :
    Prop where
  written : ∀ e k v, L.writes e k = some v → ∃ w r, e = .ingest (time v) w r
  other : ∀ t w r x m, r.method ≠ m → L.writes (.ingest t w r) (x, m) = none ∧
    ∀ v, L.keeps (.ingest t w r) (x, m) v = true ↔ time v > t - stalenessThreshold

theorem podLog_methodMap : MethodMap podLog PodState.receivedAt where
  written := by
    intro e k s h
    cases e with
    | evictRemovedNodes live => cases h
    | ingest t w r =>
      simp only [podLog, podWrites, Option.ite_none_right_eq_some, Option.map_eq_some_iff] at h
      obtain ⟨-, v, -, rfl⟩ := h
      exact ⟨w, r, rfl⟩
  other t w r uid m hm := ⟨if_neg hm, fun s => by simp [podLog, podKeeps, Ne.symm hm]⟩

theorem nodeLog_methodMap : MethodMap nodeLog NodeState.receivedAt where
  written := by
    intro e k n h
    cases e with
    | evictRemovedNodes live => cases h
    | ingest t w r =>
      simp only [nodeLog, nodeWrites, Option.ite_none_right_eq_some, Option.some.injEq] at h
      obtain ⟨-, rfl⟩ := h
      exact ⟨w, r, rfl⟩
  other t w r name m hm := ⟨if_neg fun h => hm h.2, fun n => by simp [nodeLog, nodeKeeps]⟩

theorem MethodMap.isolated {ν : Type} {L : LogStore Event ClusterAggregator (String × String) ν} {time : ν → Int}
    (h : MethodMap L time) {evs : List Event} (hc : ClockOk evs) (x m : String) (v : ν) :
    L.get (L.run evs) (x, m) = some v ↔
      L.get (L.run (evs.filter (Event.ofMethod m))) (x, m) = some v ∧ FreshForOthers evs m (time v) := by
  refine (L.get_run_filter_iff (Event.ofMethod m) ?_ ?_ v).trans (and_congr_right' ⟨?_, ?_⟩)
  · intro e _ he
    obtain ⟨t, w, r, rfl, hm⟩ := other_of_ofMethod he
    exact (h.other t w r x m hm).1
  · -- A report before the write is not younger than what is written.
    intro pre e post v hevs hw e' he' hother
    obtain ⟨w, r, rfl⟩ := h.written e _ v hw
    obtain ⟨t', w', r', rfl, hm⟩ := other_of_ofMethod hother
    have hle : t' ≤ time v := ClockOk.le_of_split (hevs ▸ hc) he'
    have hnow := fresh_now t'
    exact ((h.other t' w' r' x m hm).2 v).2 (by omega)
  · intro hkeeps t w r hr hm
    exact ((h.other t w r x m hm).2 v).1 (hkeeps _ hr (by simpa [Event.ofMethod] using hm))
  · intro hfresh e he hother
    obtain ⟨t, w, r, rfl, hm⟩ := other_of_ofMethod hother
    exact ((h.other t w r x m hm).2 v).2 (hfresh t w r he hm)

/-- For every log under a clock that does not go back, and every method: what
is stored under it is what its own reports and the lists of live nodes alone
would have left, less what was stale at a report of another method. -/
theorem method_isolated (evs : List Event) (hc : ClockOk evs) (m : String) :
    (∀ uid s, (run evs).pods.lookup (uid, m) = some s ↔
      (run (evs.filter (Event.ofMethod m))).pods.lookup (uid, m) = some s ∧ FreshForOthers evs m s.receivedAt) ∧
    (∀ name n, (run evs).nodes.lookup (name, m) = some n ↔
      (run (evs.filter (Event.ofMethod m))).nodes.lookup (name, m) = some n ∧ FreshForOthers evs m n.receivedAt) :=
  ⟨fun uid s => podLog_methodMap.isolated hc uid m s, fun name n => nodeLog_methodMap.isolated hc name m n⟩

/-- A Keck report, and a Kepler report of another node 70 seconds later. -/
def lateKeplerLog : List Event :=
  [.ingest 0 0 ⟨makeNode "node-1" 5000 2000 0 none 1000, [makePod "node-1" "uid-a" "web-1" "default" 1000 500 0]⟩,
   .ingest (secs 70) (secs 70) ⟨{ makeNode "node-2" 4000 0 0 none 900 with meteringMethod := "kepler" }, []⟩]

/-- Without the Kepler report the Keck one would still be shown. -/
theorem method_isolated_lateKeplerLog :
    ((run (lateKeplerLog.filter (Event.ofMethod "keck"))).nodes.lookup ("node-1", "keck")).isSome = true ∧
    ∀ n, (run lateKeplerLog).nodes.lookup ("node-1", "keck") = some n ↔
      (run (lateKeplerLog.filter (Event.ofMethod "keck"))).nodes.lookup ("node-1", "keck") = some n ∧
        FreshForOthers lateKeplerLog "keck" n.receivedAt :=
  ⟨by decide, (method_isolated lateKeplerLog (by decide) "keck").2 "node-1"⟩

end Keck.Controller
