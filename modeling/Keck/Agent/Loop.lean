import Keck.Agent.Conservation
import Keck.Agent.IoRuns
import Keck.Attribution.Tuner
/-!
# The collection loop

The part of the agent's main loop that attributes power to pods
(`keck-agent/src/main.rs`), tick after tick: the tuner sees the eBPF snapshot,
/proc is scanned against what the last scan left, the snapshot's attribution is
merged in, and every thirtieth tick `cleanup_stale_pids` drops what is kept for
processes that are gone.

`cleanup_unobservable`: no report shows the cleanup, unless a process id is used
again after it. `cached_pids_recent`: what it leaves is bounded.
`loop_conserves`: the tuner never makes a report spend more than the node has.
-/
namespace Keck.Agent

open Keck.Lib Keck.Lib.Text
open Keck.Attribution (CoefficientTuner Interval)

/-! ## The loop -/

/-- The process ids in a listing of /proc. -/
def activePids (names : Option (List String)) : List Nat := (names.getD []).filterMap fun n => parseUnsigned 32 n.toList

def cleanupStalePids (s : Scan) (names : Option (List String)) : Scan :=
  { s with
    prevCpuTicks := s.prevCpuTicks.retain fun pid _ => (activePids names).contains pid
    prevPageFaults := s.prevPageFaults.retain fun pid _ => (activePids names).contains pid
    pssCache := s.pssCache.retain fun pid _ => (activePids names).contains pid
    prevIoBytes := s.prevIoBytes.retain fun pid _ => (activePids names).contains pid }

structure LoopConfig where
  nodeName : String
  /-- `KECK_ALPHA` and `KECK_BETA`, or their defaults. -/
  alpha : ℚ := 3 / 10
  beta : ℚ := 3 / 2
  /-- What `f64::sqrt` gives. -/
  sqrt : ℚ → ℚ := id

/-- What is kept between ticks. -/
structure LoopState where
  tuner : Option (CoefficientTuner ℚ) := none
  scan : Scan := {}
  tickCount : Nat := 0

/-- What a tick reads. -/
structure TickReads where
  node : NodePower
  cpuEstimated : Bool := false
  counters : List CoreCounterDeltas := []
  podCache : Table String PodIdentity := ∅
  snapshot : Option EbpfSnapshot := none
  entries : Option (List ProcEntry)
  /-- The listing of /proc for the cleanup, if the tick makes one. -/
  procNames : Option (List String) := none

/-- The tuner's view of a snapshot. -/
def EbpfSnapshot.interval (s : EbpfSnapshot) : Interval where
  pidHwCounters := s.pidHwCounters
  pidCpuTimes := s.pidCpuTimes.map fun e => (e.cpu, e.pid, e.timeNs)

/-- The tuner after it has seen the tick's snapshot, if there is one. -/
def feedTuner (cfg : LoopConfig) (tuner : Option (CoefficientTuner ℚ)) (snapshot : Option EbpfSnapshot) :
    Option (CoefficientTuner ℚ) :=
  tuner.map fun t => (snapshot.map fun s => t.update cfg.sqrt s.interval).getD t

/-- The coefficients of the tick. -/
def coefficients (cfg : LoopConfig) (tuner : Option (CoefficientTuner ℚ)) : ℚ × ℚ :=
  (tuner.map (·.current)).getD (cfg.alpha, cfg.beta)

def tickInput (cfg : LoopConfig) (st : LoopState) (r : TickReads) : TickInput where
  nodeName := cfg.nodeName
  cpuEstimated := r.cpuEstimated
  counters := r.counters
  podCache := r.podCache
  before := st.scan
  entries := r.entries
  snapshot := r.snapshot
  tickCount := st.tickCount
  α := (coefficients cfg (feedTuner cfg st.tuner r.snapshot)).1
  β := (coefficients cfg (feedTuner cfg st.tuner r.snapshot)).2

/-- One tick, with `cleanup` every thirtieth time. -/
def tickWith (cleanup : Scan → Option (List String) → Scan) (cfg : LoopConfig) (st : LoopState) (r : TickReads) :
    LoopState where
  tuner := feedTuner cfg st.tuner r.snapshot
  scan :=
    let s := (tickInput cfg st r).scan
    if (st.tickCount + 1) % 30 = 0 then cleanup s r.procNames else s
  tickCount := st.tickCount + 1

/-- The state after some ticks. -/
def afterTicks (cleanup : Scan → Option (List String) → Scan) (cfg : LoopConfig) (st : LoopState)
    (rs : List TickReads) : LoopState := rs.foldl (tickWith cleanup cfg) st

/-- The pods of each tick's report, before GPU power is added. -/
def reportsWith (cleanup : Scan → Option (List String) → Scan) (cfg : LoopConfig) :
    LoopState → List TickReads → List (List PodPower)
  | _, [] => []
  | st, r :: rs => (tickInput cfg st r).reportPods r.node :: reportsWith cleanup cfg (tickWith cleanup cfg st r) rs

/-! ## What a scan depends on -/

/-- Everything kept for a process. -/
def Scan.row (s : Scan) (pid : Nat) : Option Nat × Option (Nat × Nat) × Option Nat × Option Nat :=
  (s.prevCpuTicks.lookup pid, s.prevPageFaults.lookup pid, s.prevIoBytes.lookup pid, s.pssCache.lookup pid)

/-- Nothing is kept. -/
def noRow : Option Nat × Option (Nat × Nat) × Option Nat × Option Nat := (none, none, none, none)

/-- What a scan has added up so far. -/
def Scan.sums (s : Scan) : Nat × Nat × Nat × Nat × List ProcessMetrics :=
  (s.totalCpuTicks, s.totalPss, s.totalPgfaults, s.totalIoBytes, s.processMetrics)

section Entries
variable (refreshPss : Bool) (pidNetBytes : Table Nat (Nat × Nat))

theorem row_scanEntry_of_other {pid : Nat} {e : ProcEntry} (h : ofPid pid e = false) (s : Scan) :
    (scanEntry refreshPss pidNetBytes s e).row pid = s.row pid := by
  cases hs : scanned e with
  | false => rw [scanEntry_of_not_scanned _ _ hs]
  | true =>
    have hpid : pidOf e ≠ pid := by simpa [ofPid, hs] using h
    have hne : pid ≠ (parseUnsigned 32 e.name.toList).getD 0 := Ne.symm hpid
    simp only [scanned, Bool.and_eq_true] at hs
    obtain ⟨stat, hstat⟩ := Option.isSome_iff_exists.1 hs.2
    unfold scanEntry
    rw [if_neg (by simp [hs.1.1, hs.1.2]), hstat]
    simp only [Scan.row, AList.lookup_insert_ne hne]

/-- A round of the scan reads and writes the row of its process only. -/
theorem scanEntry_agree {s s' : Scan} {e : ProcEntry} (hsums : s.sums = s'.sums)
    (hrow : scanned e = true → s.row (pidOf e) = s'.row (pidOf e)) :
    (scanEntry refreshPss pidNetBytes s e).sums = (scanEntry refreshPss pidNetBytes s' e).sums ∧
      (scanned e = true → (scanEntry refreshPss pidNetBytes s e).row (pidOf e) =
        (scanEntry refreshPss pidNetBytes s' e).row (pidOf e)) := by
  cases hs : scanned e with
  | false => exact ⟨by rw [scanEntry_of_not_scanned _ _ hs, scanEntry_of_not_scanned _ _ hs, hsums], nofun⟩
  | true =>
    have hrow := hrow hs
    simp only [scanned, Bool.and_eq_true] at hs
    obtain ⟨stat, hstat⟩ := Option.isSome_iff_exists.1 hs.2
    simp only [Scan.row, Prod.mk.injEq] at hrow
    simp only [Scan.sums, Prod.mk.injEq] at hsums
    unfold pidOf at hrow ⊢
    unfold scanEntry
    rw [if_neg (by simp [hs.1.1, hs.1.2]), if_neg (by simp [hs.1.1, hs.1.2]), hstat]
    simp [Scan.sums, Scan.row, hrow, hsums]

end Entries

/-- The tick's scan comes upon a process. -/
def TickReads.seen (r : TickReads) (pid : Nat) : Prop := ∃ e ∈ r.entries.getD [], ofPid pid e = true

/-- Scans of the same processes from states that agree on them. -/
theorem foldl_scanEntry_agree (refreshPss : Bool) (pidNetBytes : Table Nat (Nat × Nat)) {es : List ProcEntry}
    {s s' : Scan} (hsums : s.sums = s'.sums) {P : Nat → Prop} (hrow : ∀ pid, P pid → s.row pid = s'.row pid)
    (hes : ∀ e ∈ es, scanned e = true → P (pidOf e)) :
    (es.foldl (scanEntry refreshPss pidNetBytes) s).sums = (es.foldl (scanEntry refreshPss pidNetBytes) s').sums ∧
      ∀ pid, P pid → (es.foldl (scanEntry refreshPss pidNetBytes) s).row pid =
        (es.foldl (scanEntry refreshPss pidNetBytes) s').row pid := by
  induction es generalizing s s' with
  | nil => exact ⟨hsums, hrow⟩
  | cons e es ih =>
    obtain ⟨hsums', hrow'⟩ := scanEntry_agree refreshPss pidNetBytes hsums
      fun hs => hrow _ (hes e List.mem_cons_self hs)
    refine ih hsums' (fun pid hpid => ?_) fun e' he' => hes e' (List.mem_cons_of_mem _ he')
    cases he : ofPid pid e with
    | false => rw [row_scanEntry_of_other _ _ he, row_scanEntry_of_other _ _ he, hrow pid hpid]
    | true =>
      obtain ⟨hs, rfl⟩ : scanned e = true ∧ pidOf e = pid := by simpa [ofPid] using he
      exact hrow' hs

/-- A process that is not come upon keeps its row. -/
theorem row_foldl_of_others (refreshPss : Bool) (pidNetBytes : Table Nat (Nat × Nat)) {pid : Nat}
    {es : List ProcEntry} (h : ∀ e ∈ es, ofPid pid e = false) (s : Scan) :
    (es.foldl (scanEntry refreshPss pidNetBytes) s).row pid = s.row pid := by
  induction es generalizing s with
  | nil => rfl
  | cons e es ih =>
    rw [List.foldl_cons, ih (fun e' he' => h e' (List.mem_cons_of_mem _ he')),
      row_scanEntry_of_other _ _ (h e List.mem_cons_self)]

/-! ## The cleanup -/

theorem row_cleanupStalePids (s : Scan) (names : Option (List String)) (pid : Nat) :
    (cleanupStalePids s names).row pid = if pid ∈ activePids names then s.row pid else noRow := by
  simp only [Scan.row, cleanupStalePids, AList.lookup_retain]
  by_cases h : pid ∈ activePids names
  · have hkeep : ∀ {ν : Type} (o : Option ν), o.filter (fun _ => true) = o := fun o => by cases o <;> rfl
    simp only [List.contains_iff_mem.2 h, if_pos h, hkeep]
  · simp [h, noRow]

section Ticks
variable {cfg : LoopConfig} {st st' : LoopState} {r : TickReads}

/-- What a tick's scan leaves for a process it does not come upon. -/
theorem row_tick_of_not_seen {pid : Nat} (h : ¬r.seen pid) : (tickInput cfg st r).scan.row pid = st.scan.row pid := by
  have hothers : ∀ e ∈ r.entries.getD [], ofPid pid e = false := fun e he =>
    Bool.eq_false_iff.2 fun hof => h ⟨e, he, hof⟩
  exact row_foldl_of_others _ _ hothers _

/-- Two states that go on in the same way, for processes with `P`. -/
structure Alike (P : Nat → Prop) (st st' : LoopState) : Prop where
  tuner : st.tuner = st'.tuner
  tickCount : st.tickCount = st'.tickCount
  rows : ∀ pid, P pid → st.scan.row pid = st'.scan.row pid

theorem scan_alike {P : Nat → Prop} (h : Alike P st st') (hr : ∀ pid, r.seen pid → P pid) :
    (tickInput cfg st r).scan.sums = (tickInput cfg st' r).scan.sums ∧
      ∀ pid, P pid → (tickInput cfg st r).scan.row pid = (tickInput cfg st' r).scan.row pid := by
  have hes : ∀ e ∈ r.entries.getD [], scanned e = true → P (pidOf e) := fun e he hs =>
    hr _ ⟨e, he, by simp [ofPid, hs]⟩
  simp only [TickInput.scan, tickInput, scan, h.tickCount]
  refine foldl_scanEntry_agree _ _ ?_ ?_ hes
  · rfl
  · exact h.rows

theorem podMetrics_congr {s s' : Scan} (h : s.sums = s'.sums) : podMetrics s = podMetrics s' := by
  simp only [Scan.sums, Prod.mk.injEq] at h
  rw [podMetrics, podMetrics, h.2.2.2.2]

/-- A report is made of a scan's sums. -/
theorem scanPods_congr {s s' : Scan} (h : s.sums = s'.sums) (nodeName : String) (node : NodePower)
    (totalLlcMisses : Nat) (podCache : Table String PodIdentity) :
    scanPods nodeName node totalLlcMisses podCache s = scanPods nodeName node totalLlcMisses podCache s' := by
  have hmetrics := podMetrics_congr h
  simp only [Scan.sums, Prod.mk.injEq] at h
  simp only [scanPods, cpuRatio, memRatio, hmetrics, h]

theorem reportPods_alike {P : Nat → Prop} (h : Alike P st st') (hr : ∀ pid, r.seen pid → P pid) :
    (tickInput cfg st r).reportPods r.node = (tickInput cfg st' r).reportPods r.node := by
  have hscan : scanPods cfg.nodeName r.node (tickInput cfg st r).totalLlcMisses r.podCache
        (tickInput cfg st r).scan =
      scanPods cfg.nodeName r.node (tickInput cfg st r).totalLlcMisses r.podCache (tickInput cfg st' r).scan :=
    scanPods_congr (scan_alike h hr).1 _ _ _ _
  have hebpf : (tickInput cfg st r).ebpfPods r.node = (tickInput cfg st' r).ebpfPods r.node := by
    simp only [TickInput.ebpfPods, tickInput, h.tuner, TickInput.totalLlcMisses]
    rfl
  rw [reportPods_eq, reportPods_eq, ← hebpf]
  exact congrArg (mergePods · _) hscan

end Ticks

/-! ## Runs -/

section Runs
variable {cleanup : Scan → Option (List String) → Scan} (cfg : LoopConfig) (tuner : Option (CoefficientTuner ℚ))

theorem afterTicks_concat (st : LoopState) (rs : List TickReads) (r : TickReads) :
    afterTicks cleanup cfg st (rs ++ [r]) = tickWith cleanup cfg (afterTicks cleanup cfg st rs) r := by
  simp [afterTicks]

theorem tickCount_afterTicks (st : LoopState) (rs : List TickReads) :
    (afterTicks cleanup cfg st rs).tickCount = st.tickCount + rs.length := by
  induction rs generalizing st with
  | nil => rfl
  | cons r rs ih =>
    have hstep : afterTicks cleanup cfg st (r :: rs) = afterTicks cleanup cfg (tickWith cleanup cfg st r) rs := rfl
    rw [hstep, ih, tickWith, List.length_cons]
    dsimp only
    omega

/-- Without a cleanup, the processes with a row are among those come upon. -/
theorem seen_of_row {rs : List TickReads} {pid : Nat}
    (h : (afterTicks (fun s _ => s) cfg { tuner } rs).scan.row pid ≠ noRow) : ∃ r ∈ rs, r.seen pid := by
  induction rs using List.reverseRecOn with
  | nil => exact absurd rfl h
  | append_singleton rs r ih =>
    rw [afterTicks_concat] at h
    simp only [tickWith, ite_self] at h
    by_cases hr : r.seen pid
    · exact ⟨r, List.mem_append_right _ List.mem_cons_self, hr⟩
    · rw [row_tick_of_not_seen hr] at h
      obtain ⟨r', hr', hseen⟩ := ih h
      exact ⟨r', List.mem_append_left _ hr', hseen⟩

end Runs

/-- The reports of a run are the same with and without the cleanup, if every
process that was come upon before a cleanup and is come upon again after it is
in the cleanup's listing of /proc: only a process id that is used again, or a
listing that fails, can show in a report that something was dropped. -/
theorem cleanup_unobservable (cfg : LoopConfig) (tuner : Option (CoefficientTuner ℚ)) {rs : List TickReads}
    (hreuse : ∀ before r later, rs = before ++ r :: later → (before.length + 1) % 30 = 0 → ∀ pid,
      (∃ r' ∈ before ++ [r], r'.seen pid) → (∃ r' ∈ later, r'.seen pid) → pid ∈ activePids r.procNames) :
    reportsWith cleanupStalePids cfg { tuner } rs = reportsWith (fun s _ => s) cfg { tuner } rs := by
  -- The states after some ticks are alike for all that is come upon later.
  suffices hfrom : ∀ later before, rs = before ++ later →
      Alike (fun pid => ∃ r ∈ later, r.seen pid) (afterTicks cleanupStalePids cfg { tuner } before)
        (afterTicks (fun s _ => s) cfg { tuner } before) →
      reportsWith cleanupStalePids cfg (afterTicks cleanupStalePids cfg { tuner } before) later =
        reportsWith (fun s _ => s) cfg (afterTicks (fun s _ => s) cfg { tuner } before) later from
    hfrom rs [] rfl ⟨rfl, rfl, fun _ _ => rfl⟩
  intro later
  induction later with
  | nil => intro before _ _; rfl
  | cons r later ih =>
    intro before hrs halike
    have hseen : ∀ pid, r.seen pid → ∃ r' ∈ r :: later, r'.seen pid := fun pid h => ⟨r, List.mem_cons_self, h⟩
    obtain ⟨-, hrows⟩ := scan_alike halike hseen
    have hnext := ih (before ++ [r]) (by simp [hrs])
    rw [afterTicks_concat, afterTicks_concat] at hnext
    rw [reportsWith, reportsWith, reportPods_alike halike hseen]
    refine congrArg _ (hnext ⟨?_, ?_, ?_⟩)
    · simp only [tickWith, halike.tuner]
    · simp only [tickWith, halike.tickCount]
    · rintro pid ⟨r', hr', hpid⟩
      have hrow := hrows pid ⟨r', List.mem_cons_of_mem _ hr', hpid⟩
      simp only [tickWith, ite_self]
      split
      · rename_i hthirty
        rw [tickCount_afterTicks, Nat.zero_add] at hthirty
        rw [row_cleanupStalePids]
        split
        · exact hrow
        · rename_i hgone
          -- It was never come upon, so there was nothing to drop.
          by_contra hne
          have hplain : (afterTicks (fun s _ => s) cfg { tuner } (before ++ [r])).scan.row pid ≠ noRow := by
            rw [afterTicks_concat]
            simpa [tickWith] using Ne.symm hne
          exact hgone (hreuse before r later hrs hthirty pid (seen_of_row cfg tuner hplain) ⟨r', hr', hpid⟩)
      · exact hrow

/-- A pod's process that is listed in every tick and by every cleanup. -/
def steadyTick : TickReads where
  node := ⟨1000, 1000, 0, 0⟩
  entries := some [
    { name := "7", stat := some "7 (spin) R 1 7 7 0 -1 0 0 0 0 0 200 0", smapsRollup := some "Pss: 900 kB",
      cgroup := some "0::/kubepods-pod11111111.slice" }]
  procNames := some ["7", "self"]

theorem cleanup_unobservable_steadyTick :
    reportsWith cleanupStalePids ⟨"node", 3 / 10, 3 / 2, id⟩ {} (List.replicate 31 steadyTick) =
      reportsWith (fun s _ => s) ⟨"node", 3 / 10, 3 / 2, id⟩ {} (List.replicate 31 steadyTick) := by
  refine cleanup_unobservable ⟨"node", 3 / 10, 3 / 2, id⟩ none ?_
  rintro before r later hrs - pid - ⟨r', hr', e, he, hpid⟩
  have hmem : ∀ x ∈ before ++ r :: later, x = steadyTick := fun x hx => List.eq_of_mem_replicate (hrs ▸ hx)
  obtain rfl := hmem r' (by simp [hr'])
  obtain rfl := hmem r (by simp)
  obtain ⟨-, rfl⟩ : scanned e = true ∧ pidOf e = pid := by simpa [ofPid] using hpid
  obtain rfl := List.mem_singleton.1 he
  decide

/-- After any run, what is kept is kept for processes that the scans since the
last cleanup came upon or that were listed by it. -/
theorem cached_pids_recent (cfg : LoopConfig) (tuner : Option (CoefficientTuner ℚ)) (rs : List TickReads) (pid : Nat) :
    (afterTicks cleanupStalePids cfg { tuner } rs).scan.row pid = noRow ∨
      (∃ r ∈ rs.drop (rs.length / 30 * 30), r.seen pid) ∨
      ∃ r, (rs.take (rs.length / 30 * 30)).getLast? = some r ∧ pid ∈ activePids r.procNames := by
  induction rs using List.reverseRecOn with
  | nil => exact .inl rfl
  | append_singleton rs r ih =>
    rw [afterTicks_concat, List.length_append, List.length_singleton]
    simp only [tickWith, tickCount_afterTicks, Nat.zero_add]
    split
    · rename_i hthirty
      have hlast : (rs.length + 1) / 30 * 30 = (rs ++ [r]).length := by
        rw [List.length_append, List.length_singleton]
        omega
      rw [row_cleanupStalePids, hlast, List.take_length, List.getLast?_concat]
      split
      · rename_i hactive
        exact .inr (.inr ⟨r, rfl, hactive⟩)
      · exact .inl rfl
    · rename_i hthirty
      have hsame : (rs.length + 1) / 30 * 30 = rs.length / 30 * 30 := by omega
      have hle : rs.length / 30 * 30 ≤ rs.length := Nat.div_mul_le_self _ _
      rw [hsame, List.drop_append_of_le_length hle, List.take_append_of_le_length hle]
      by_cases hr : r.seen pid
      · exact .inr (.inl ⟨r, List.mem_append_right _ List.mem_cons_self, hr⟩)
      · rw [row_tick_of_not_seen hr]
        rcases ih with hrow | ⟨r', hr', hseen⟩ | hlisted
        · exact .inl hrow
        · exact .inr (.inl ⟨r', List.mem_append_left _ hr', hseen⟩)
        · exact .inr (.inr hlisted)

/-! ## The tuner in the loop -/

/-- The loop's state at the start. `autoTune` is `KECK_AUTO_TUNE`. -/
def LoopState.start (cfg : LoopConfig) (autoTune : Bool) (rate : Option ℚ) : LoopState :=
  { tuner := if autoTune then some (CoefficientTuner.new cfg.alpha cfg.beta rate) else none }

/-- No coefficient is negative. -/
def TunerOk (tuner : Option (CoefficientTuner ℚ)) : Prop := ∀ t ∈ tuner, 0 ≤ t.alpha ∧ 0 ≤ t.beta

theorem tunerOk_feedTuner (cfg : LoopConfig) {tuner : Option (CoefficientTuner ℚ)} (h : TunerOk tuner)
    (snapshot : Option EbpfSnapshot) : TunerOk (feedTuner cfg tuner snapshot) := by
  intro t' ht'
  obtain ⟨t, ht, rfl⟩ := Option.map_eq_some_iff.1 ht'
  cases snapshot with
  | none => exact h t ht
  | some s =>
    rcases CoefficientTuner.current_update cfg.sqrt t s.interval with hkeep | ⟨⟨hα, -⟩, hβ, -⟩
    · simp only [CoefficientTuner.current, Prod.mk.injEq] at hkeep
      simpa [hkeep] using h t ht
    · exact ⟨le_trans (by norm_num) hα, le_trans (by norm_num) hβ⟩

theorem tunerOk_afterTicks (cfg : LoopConfig) {st : LoopState} (h : TunerOk st.tuner) (rs : List TickReads) :
    TunerOk (afterTicks cleanupStalePids cfg st rs).tuner := by
  induction rs generalizing st with
  | nil => exact h
  | cons r rs ih => exact ih (tunerOk_feedTuner cfg h r.snapshot)

/-- Whatever the tuner does in the ticks before, the tick's coefficients are
not negative. -/
theorem coefficients_nonneg (cfg : LoopConfig) (hα : 0 ≤ cfg.alpha) (hβ : 0 ≤ cfg.beta) (autoTune : Bool)
    (rate : Option ℚ) (before : List TickReads) (r : TickReads) :
    0 ≤ (tickInput cfg (afterTicks cleanupStalePids cfg (.start cfg autoTune rate) before) r).α ∧
      0 ≤ (tickInput cfg (afterTicks cleanupStalePids cfg (.start cfg autoTune rate) before) r).β := by
  have hstart : TunerOk (LoopState.start cfg autoTune rate).tuner := by
    intro t ht
    cases autoTune with
    | false => cases ht
    | true =>
      obtain rfl := Option.some.inj ht
      exact ⟨hα, hβ⟩
  have hnow := tunerOk_feedTuner cfg (tunerOk_afterTicks cfg hstart before) r.snapshot
  simp only [tickInput, coefficients]
  cases ht : feedTuner cfg (afterTicks cleanupStalePids cfg (.start cfg autoTune rate) before).tuner r.snapshot with
  | none => exact ⟨hα, hβ⟩
  | some t => exact hnow t ht

/-- Whatever the tuner does in the ticks before, and whatever the square root
is, a report of pods that are all in the snapshot, or none of them, never
spends more than the node's power. -/
theorem loop_conserves (cfg : LoopConfig) (hα : 0 ≤ cfg.alpha) (hβ : 0 ≤ cfg.beta) (autoTune : Bool)
    (rate : Option ℚ) (before : List TickReads) (r : TickReads)
    (h : (tickInput cfg (afterTicks cleanupStalePids cfg (.start cfg autoTune rate) before) r).overridden = [] ∨
      (tickInput cfg (afterTicks cleanupStalePids cfg (.start cfg autoTune rate) before) r).kept = []) :
    (tickInput cfg (afterTicks cleanupStalePids cfg (.start cfg autoTune rate) before) r).Conserves r.node := by
  obtain ⟨hα, hβ⟩ := coefficients_nonneg cfg hα hβ autoTune rate before r
  exact conserves_of_unmixed hα hβ h r.node

theorem loop_conserves_steadyTick :
    (tickInput ⟨"node", 3 / 10, 3 / 2, id⟩ (afterTicks cleanupStalePids ⟨"node", 3 / 10, 3 / 2, id⟩
      (.start ⟨"node", 3 / 10, 3 / 2, id⟩ true none) [steadyTick]) steadyTick).Conserves ⟨1000, 1000, 0, 0⟩ :=
  loop_conserves ⟨"node", 3 / 10, 3 / 2, id⟩ (by norm_num) (by norm_num) true none [steadyTick] steadyTick
    (.inl (by simp [TickInput.overridden, TickInput.known?, tickInput, steadyTick]))

end Keck.Agent
