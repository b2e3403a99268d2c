import Keck.Controller.Admission
/-!
# How long the history remembers

`ingest` appends a pod's total to its namespace's history under the timestamp
the agent put into the report, and `trim_history` drops what is older than an
hour by that timestamp. An entry therefore leaves within an hour of its
ingestion only if its timestamp was not ahead of the controller's clock
(`history_bounded_in_time`); one from the future stays as long as the agent
likes (`future_entry_stays`).

`traced` is the history with every entry carrying the clock of its ingestion,
which the controller does not keep.
-/
namespace Keck.Controller

open Keck.Lib ClusterAggregator

/-- A history entry and when it was ingested. -/
structure TracedEntry where
  ingestedAt : Int
  timestamp : Int
  totalUw : Nat

/-- The entry as the controller keeps it. -/
def TracedEntry.kept (e : TracedEntry) : Int × Nat := (e.timestamp, e.totalUw)

def storeTraced (wall : Int) (h : Table String (List TracedEntry)) (pod : PodPowerReport) :
    Table String (List TracedEntry) :=
  h.insert pod.ns ((h.lookup pod.ns).getD [] ++ [⟨wall, pod.timestamp, pod.totalUw⟩])

def trimTraced (wall : Int) (h : Table String (List TracedEntry)) : Table String (List TracedEntry) :=
  (h.mapValues fun entries => entries.filter fun e => decide (e.timestamp ≥ wall - historyRetention)).retain
    fun _ entries => !entries.isEmpty

def stepTraced (h : Table String (List TracedEntry)) : Event → Table String (List TracedEntry)
  | .ingest _ wall r => trimTraced wall (r.pods.foldl (storeTraced wall) h)
  | .evictRemovedNodes _ => h

/-- The history after a log, with the clock of every entry's ingestion. -/
def traced (evs : List Event) : Table String (List TracedEntry) := evs.foldl stepTraced ∅

theorem traced_concat (evs : List Event) (e : Event) : traced (evs ++ [e]) = stepTraced (traced evs) e := by
  simp [traced]

/-! ## The traced history is the history -/

/-- `t` is `h` with the clocks of ingestion. -/
def Traces (t : Table String (List TracedEntry)) (h : Table String (List (Int × Nat))) : Prop :=
  ∀ ns, h.lookup ns = (t.lookup ns).map (List.map TracedEntry.kept)

theorem traces_storePod {t : Table String (List TracedEntry)} {agg : ClusterAggregator} (ht : Traces t agg.history)
    (now wall : Int) (method : String) (pod : PodPowerReport) :
    Traces (storeTraced wall t pod) (storePod now method agg pod).history := by
  intro ns
  simp only [storePod, storeTraced, AList.lookup_insert_if, ht pod.ns]
  split
  · cases t.lookup pod.ns <;> simp [TracedEntry.kept]
  · exact ht ns

theorem traces_foldl {t : Table String (List TracedEntry)} {agg : ClusterAggregator} (ht : Traces t agg.history)
    (now wall : Int) (method : String) (pods : List PodPowerReport) :
    Traces (pods.foldl (storeTraced wall) t) (pods.foldl (storePod now method) agg).history := by
  induction pods generalizing t agg with
  | nil => exact ht
  | cons pod pods ih => exact ih (traces_storePod ht now wall method pod)

theorem traces_trim {t : Table String (List TracedEntry)} {agg : ClusterAggregator} (ht : Traces t agg.history)
    (wall : Int) : Traces (trimTraced wall t) (agg.trimHistory wall).history := by
  intro ns
  simp only [trimHistory, trimTraced, AList.lookup_retain, AList.lookup_mapValues, ht ns]
  cases t.lookup ns with
  | none => rfl
  | some l =>
    simp only [Option.map_some, List.filter_map, Option.filter_some]
    have hsame : l.filter ((fun h : Int × Nat => decide (h.1 ≥ wall - historyRetention)) ∘ TracedEntry.kept) =
        l.filter fun e => decide (e.timestamp ≥ wall - historyRetention) := rfl
    rw [hsame, List.isEmpty_map]
    split <;> rfl

theorem traces_run (evs : List Event) : Traces (traced evs) (run evs).history := by
  induction evs using List.reverseRecOn with
  | nil => exact fun ns => rfl
  | append_singleton evs e ih =>
    rw [traced_concat, show run (evs ++ [e]) = (run evs).step e by simp [run, List.foldl_append]]
    cases e with
    | evictRemovedNodes live => exact ih
    | ingest now wall r =>
      apply traces_trim
      apply traces_foldl
      exact ih

/-! ## Entries leave within the hour -/

/-- No pod of the report is dated after the controller's clock. -/
def NotAhead (wall : Int) (r : AgentReport) : Prop := ∀ p ∈ r.pods, p.timestamp ≤ wall

theorem mem_storeTraced {wall : Int} {h : Table String (List TracedEntry)} {pod : PodPowerReport} {ns : String}
    {l : List TracedEntry} {e : TracedEntry} (hl : (storeTraced wall h pod).lookup ns = some l) (he : e ∈ l) :
    e = ⟨wall, pod.timestamp, pod.totalUw⟩ ∨ ∃ l', h.lookup ns = some l' ∧ e ∈ l' := by
  rw [storeTraced, AList.lookup_insert_if] at hl
  split at hl
  · rename_i hns
    subst hns
    cases hl
    rcases List.mem_append.1 he with he | he
    · cases hlook : h.lookup pod.ns with
      | none => simp [hlook] at he
      | some l' => exact .inr ⟨l', rfl, by simpa [hlook] using he⟩
    · exact .inl (List.mem_singleton.1 he)
  · exact .inr ⟨l, hl, he⟩

/-- Entries dated no later than they were ingested. -/
def DatedBefore (h : Table String (List TracedEntry)) : Prop :=
  ∀ ns l, h.lookup ns = some l → ∀ e ∈ l, e.timestamp ≤ e.ingestedAt

theorem datedBefore_foldl {wall : Int} {pods : List PodPowerReport} (hp : ∀ p ∈ pods, p.timestamp ≤ wall)
    {h : Table String (List TracedEntry)} (hh : DatedBefore h) : DatedBefore (pods.foldl (storeTraced wall) h) := by
  induction pods generalizing h with
  | nil => exact hh
  | cons pod pods ih =>
    refine ih (fun p hm => hp p (List.mem_cons_of_mem pod hm)) fun ns l hl e he => ?_
    rcases mem_storeTraced hl he with rfl | ⟨l', hl', he'⟩
    · exact hp pod List.mem_cons_self
    · exact hh ns l' hl' e he'

theorem mem_trimTraced {wall : Int} {h : Table String (List TracedEntry)} {ns : String} {l : List TracedEntry}
    {e : TracedEntry} (hl : (trimTraced wall h).lookup ns = some l) (he : e ∈ l) :
    e.timestamp ≥ wall - historyRetention ∧ ∃ l', h.lookup ns = some l' ∧ e ∈ l' := by
  rw [trimTraced, AList.lookup_retain, AList.lookup_mapValues, Option.filter_eq_some_iff,
    Option.map_eq_some_iff] at hl
  obtain ⟨⟨l', hl', rfl⟩, -⟩ := hl
  obtain ⟨he, ht⟩ := List.mem_filter.1 he
  exact ⟨of_decide_eq_true ht, l', hl', he⟩

theorem datedBefore_traced {evs : List Event} (h : ∀ t w r, Event.ingest t w r ∈ evs → NotAhead w r) :
    DatedBefore (traced evs) := by
  induction evs using List.reverseRecOn with
  | nil => intro ns l hl; cases hl
  | append_singleton evs e ih =>
    have ih := ih fun t w r he => h t w r (List.mem_append_left _ he)
    rw [traced_concat]
    cases e with
    | evictRemovedNodes live => exact ih
    | ingest now wall r =>
      intro ns l hl e he
      obtain ⟨-, l', hl', he'⟩ := mem_trimTraced hl he
      exact datedBefore_foldl (h now wall r (by simp)) ih ns l' hl' e he'

/-- In every run whose reports are not dated ahead of the clock they are
ingested at, the history is the traced one, and after each report every entry
of it was ingested within the last hour. -/
theorem history_bounded_in_time (evs : List Event) (now wall : Int) (r : AgentReport)
    (h : ∀ t w r', Event.ingest t w r' ∈ evs ++ [.ingest now wall r] → NotAhead w r') :
    Traces (traced (evs ++ [.ingest now wall r])) (run (evs ++ [.ingest now wall r])).history ∧
      ∀ ns l, (traced (evs ++ [.ingest now wall r])).lookup ns = some l →
        ∀ e ∈ l, wall - historyRetention ≤ e.ingestedAt := by
  refine ⟨traces_run _, fun ns l hl e he => ?_⟩
  have hdated := datedBefore_traced h ns l hl e he
  rw [traced_concat] at hl
  exact (mem_trimTraced hl he).1.trans hdated

/-- A report of one pod dated `timestamp`. -/
def datedReport (timestamp : Int) : AgentReport :=
  ⟨makeNode "node-1" 5000 2000 0 none 1000,
    [{ makePod "node-1" "uid-a" "web-1" "default" 1000 500 0 with timestamp := timestamp }]⟩

/-- Two reports half an hour apart: both entries are kept. -/
theorem recent_entries_kept :
    ((traced [.ingest 0 0 (datedReport 0), .ingest (secs 1800) (secs 1800) (datedReport (secs 1800))]).lookup
      "default").map (List.map (·.ingestedAt)) = some [0, secs 1800] ∧
    ∀ ns l, (traced [.ingest 0 0 (datedReport 0),
        .ingest (secs 1800) (secs 1800) (datedReport (secs 1800))]).lookup ns = some l →
      ∀ e ∈ l, secs 1800 - historyRetention ≤ e.ingestedAt := by
  refine ⟨by decide, (history_bounded_in_time [.ingest 0 0 (datedReport 0)] (secs 1800) (secs 1800)
    (datedReport (secs 1800)) fun t w r h => ?_).2⟩
  simp only [List.cons_append, List.nil_append, List.mem_cons, Event.ingest.injEq, List.not_mem_nil,
    or_false] at h
  rcases h with ⟨-, rfl, rfl⟩ | ⟨-, rfl, rfl⟩ <;>
  · intro p hp
    cases List.mem_singleton.1 hp
    decide

/-- A report dated a day ahead, and one two hours later. -/
def futureLog : List Event :=
  [.ingest 0 0 (datedReport (secs 86400)), .ingest (secs 7200) (secs 7200) afterMove]

/-- Both are accepted and the clock goes forward, but the first report's entry,
ingested two hours ago, is still there. -/
theorem future_entry_stays :
    ClockOk futureLog ∧ Accepted futureLog ∧ Traces (traced futureLog) (run futureLog).history ∧
      ∃ l e, (traced futureLog).lookup "default" = some l ∧ e ∈ l ∧
        ¬secs 7200 - historyRetention ≤ e.ingestedAt := by
  refine ⟨by decide, ?_, traces_run _, _, _, rfl, List.mem_cons_self, by decide⟩
  apply forall_reports
  exact List.forall_mem_cons.2 ⟨rfl, List.forall_mem_singleton.2 rfl⟩

end Keck.Controller
