import Keck.Controller.EventLog
import Keck.Controller.Views
/-!
# Looking up one pod

`pod_power` of `keck-controller/src/aggregator/mod.rs`, behind `handle_pod`. It
goes over the pods of every method and returns the first with the uid, while
the list views of the same API show Keck's pods unless asked for others. A uid
that two methods report is found under either, depending on the iteration
order of the map (`lookup_agrees_iff`).
-/
namespace Keck.Controller

open Keck.Lib ClusterAggregator

/-- The first pod with the uid, of whatever method. -/
def ClusterAggregator.podPower (agg : ClusterAggregator) (podUid : String) : Option PodPowerReport :=
  (agg.pods.entries.find? fun e => e.1.1 == podUid).map fun e => e.2.report

/-- In every iteration order of the pods the lookup returns a report that the
list views show, and the only one they show for the uid. -/
def LookupAgrees (agg : ClusterAggregator) (uid : String) : Prop :=
  ∀ pods : Table (String × String) PodState, pods.entries.Perm agg.pods.entries →
    ∃ r, ClusterAggregator.podPower { agg with pods := pods } uid = some r ∧
      r ∈ agg.podsInNamespace r.ns none ∧
      ∀ ns, ∀ r' ∈ agg.podsInNamespace ns none, r'.podUid = uid → r' = r

/-- Whatever methods the uid is stored under, it is with one and the same
report, and that is Keck's. -/
def KeckOnly (agg : ClusterAggregator) (uid : String) : Prop :=
  ∀ m s, agg.pods.lookup (uid, m) = some s →
    matchesMethod s.report.meteringMethod none = true ∧
    ∀ m' s', agg.pods.lookup (uid, m') = some s' → s'.report = s.report

theorem mem_podsInNamespace {agg : ClusterAggregator} {ns : String} {method : Option String} {r : PodPowerReport} :
    r ∈ agg.podsInNamespace ns method ↔
      ∃ k s, agg.pods.lookup k = some s ∧ s.report = r ∧ r.ns = ns ∧ matchesMethod r.meteringMethod method = true := by
  simp only [podsInNamespace, List.mem_map, List.mem_filter, AList.mem_values, Bool.and_eq_true, beq_iff_eq]
  constructor
  · rintro ⟨s, ⟨⟨k, hk⟩, hns, hm⟩, rfl⟩
    exact ⟨k, s, hk, rfl, hns, hm⟩
  · rintro ⟨k, s, hk, rfl, hns, hm⟩
    exact ⟨s, ⟨⟨k, hk⟩, hns, hm⟩, rfl⟩

section Lookup
variable {agg : ClusterAggregator} {uid : String}

/-- What the lookup returns is stored under the uid. -/
theorem stored_of_podPower {r : PodPowerReport} (h : agg.podPower uid = some r) :
    ∃ m s, agg.pods.lookup (uid, m) = some s ∧ s.report = r := by
  obtain ⟨⟨⟨u, m⟩, s⟩, he, rfl⟩ := Option.map_eq_some_iff.1 h
  have hu : u = uid := by simpa using List.find?_some he
  subst hu
  exact ⟨m, s, AList.mem_entries.1 (List.mem_of_find?_eq_some he), rfl⟩

/-- A uid that is stored is found. -/
theorem podPower_isSome {m : String} {s : PodState} (h : agg.pods.lookup (uid, m) = some s) :
    ∃ r, agg.podPower uid = some r := by
  have hf : (agg.pods.entries.find? fun e => e.1.1 == uid).isSome := by
    rw [List.find?_isSome]
    exact ⟨⟨(uid, m), s⟩, AList.mem_entries.2 h, by simp⟩
  obtain ⟨e, he⟩ := Option.isSome_iff_exists.1 hf
  exact ⟨e.2.report, by rw [podPower, he]; rfl⟩

/-- Every report stored under the uid is found in some order. -/
theorem exists_podPower {m : String} {s : PodState} (h : agg.pods.lookup (uid, m) = some s) :
    ∃ pods : Table (String × String) PodState, pods.entries.Perm agg.pods.entries ∧
      ClusterAggregator.podPower { agg with pods := pods } uid = some s.report := by
  obtain ⟨pods, hperm, es, hes⟩ := AList.exists_order (AList.mem_entries.2 h)
  refine ⟨pods, hperm, ?_⟩
  rw [podPower, hes, List.find?_cons_of_pos (by simp)]
  rfl

theorem lookup_of_order {pods : Table (String × String) PodState} (hperm : pods.entries.Perm agg.pods.entries)
    {k : String × String} {s : PodState} : pods.lookup k = some s ↔ agg.pods.lookup k = some s := by
  rw [← AList.mem_entries, ← AList.mem_entries]
  exact hperm.mem_iff

theorem keckOnly_of_agrees (hstored : ∀ k s, agg.pods.lookup k = some s → s.report.podUid = k.1)
    (h : LookupAgrees agg uid) : KeckOnly agg uid := by
  intro m s hs
  obtain ⟨pods, hperm, hfound⟩ := exists_podPower hs
  obtain ⟨r, hr, hlisted, honly⟩ := h pods hperm
  have hrs : s.report = r := Option.some.inj (hfound.symm.trans hr)
  subst hrs
  obtain ⟨-, -, -, -, -, hmatch⟩ := mem_podsInNamespace.1 hlisted
  refine ⟨hmatch, fun m' s' hs' => ?_⟩
  -- the other report is found in another order, so it is listed too
  obtain ⟨pods', hperm', hfound'⟩ := exists_podPower hs'
  obtain ⟨r', hr', hlisted', -⟩ := h pods' hperm'
  have hrs' : s'.report = r' := Option.some.inj (hfound'.symm.trans hr')
  subst hrs'
  exact honly _ _ hlisted' (hstored _ _ hs')

theorem agrees_of_keckOnly (hstored : ∀ k s, agg.pods.lookup k = some s → s.report.podUid = k.1) {m : String}
    {s : PodState} (hs : agg.pods.lookup (uid, m) = some s) (h : KeckOnly agg uid) : LookupAgrees agg uid := by
  intro pods hperm
  have hp : ({ agg with pods := pods } : ClusterAggregator).pods.lookup (uid, m) = some s :=
    (lookup_of_order hperm).2 hs
  obtain ⟨r, hr⟩ := podPower_isSome hp
  obtain ⟨m', s', hs', rfl⟩ := stored_of_podPower hr
  have hs' := (lookup_of_order hperm).1 hs'
  obtain ⟨hmatch, hsame⟩ := h m' s' hs'
  refine ⟨s'.report, hr, mem_podsInNamespace.2 ⟨_, s', hs', rfl, rfl, hmatch⟩, fun ns r' hr' huid => ?_⟩
  obtain ⟨⟨u, m''⟩, s'', hs'', rfl, -, -⟩ := mem_podsInNamespace.1 hr'
  have hu : s''.report.podUid = u := hstored _ _ hs''
  rw [huid] at hu
  subst hu
  exact hsame _ _ hs''

end Lookup

theorem podUid_of_run (evs : List Event) :
    ∀ k s, (run evs).pods.lookup k = some s → s.report.podUid = k.1 := by
  intro k s h
  obtain ⟨t, w, r, p, -, -, hs, rfl⟩ := pod_of_run h
  rw [hs, stamped_podUid]

/-- After any log, for a uid stored under Keck: the lookup returns in every
order a report stored under the uid, of some method. It is the one the list
views show, in every order, if and only if all that is stored under the uid is
one Keck report. -/
theorem lookup_agrees_iff (evs : List Event) (uid : String) (h : ((run evs).pods.lookup (uid, "keck")).isSome) :
    (∀ pods : Table (String × String) PodState, pods.entries.Perm (run evs).pods.entries →
      ∃ m s, (run evs).pods.lookup (uid, m) = some s ∧
        ClusterAggregator.podPower { run evs with pods := pods } uid = some s.report) ∧
    (LookupAgrees (run evs) uid ↔ KeckOnly (run evs) uid) := by
  obtain ⟨s, hs⟩ := Option.isSome_iff_exists.1 h
  refine ⟨fun pods hperm => ?_, keckOnly_of_agrees (podUid_of_run evs), agrees_of_keckOnly (podUid_of_run evs) hs⟩
  have hp : ({ run evs with pods := pods } : ClusterAggregator).pods.lookup (uid, "keck") = some s :=
    (lookup_of_order hperm).2 hs
  obtain ⟨r, hr⟩ := podPower_isSome hp
  obtain ⟨m', s', hs', rfl⟩ := stored_of_podPower hr
  exact ⟨m', s', (lookup_of_order hperm).1 hs', hr⟩

/-- One Keck report with one pod. -/
def oneReportLog : List Event :=
  [.ingest 1 1 ⟨makeNode "node-1" 5000 2000 0 none 1000, [makePod "node-1" "uid-a" "web-1" "default" 1000 500 0]⟩]

theorem keckOnly_oneReportLog : KeckOnly (run oneReportLog) "uid-a" := by
  have hentry : ∀ m s, (run oneReportLog).pods.lookup ("uid-a", m) = some s →
      s.report = { makePod "node-1" "uid-a" "web-1" "default" 1000 500 0 with meteringMethod := "keck" } := by
    intro m s hs
    have hmem : (⟨("uid-a", m), s⟩ : Sigma fun _ => PodState) ∈ (run oneReportLog).pods.entries :=
      AList.mem_entries.2 hs
    cases List.mem_singleton.1 hmem
    rfl
  intro m s hs
  refine ⟨by rw [hentry m s hs]; decide, fun m' s' hs' => ?_⟩
  rw [hentry m s hs, hentry m' s' hs']

theorem lookup_of_one_report :
    ((run oneReportLog).pods.lookup ("uid-a", "keck")).isSome ∧ LookupAgrees (run oneReportLog) "uid-a" := by
  have h : ((run oneReportLog).pods.lookup ("uid-a", "keck")).isSome := by decide
  exact ⟨h, (lookup_agrees_iff oneReportLog "uid-a" h).2.2 keckOnly_oneReportLog⟩

/-- In some order the lookup returns Kepler's report, which no list shows. -/
theorem two_methods_split_the_lookup :
    ClockOk twoMethodsLog ∧ ((run twoMethodsLog).pods.lookup ("uid-a", "keck")).isSome ∧
    ¬LookupAgrees (run twoMethodsLog) "uid-a" := by
  refine ⟨by decide, by decide, fun h => ?_⟩
  have hk := keckOnly_of_agrees (podUid_of_run twoMethodsLog) h "kepler" _ rfl
  exact absurd hk.1 (by decide)

end Keck.Controller
