import Keck.Lib.Meter
import Keck.Agent.Attribution
/-!
# A process's disk I/O over many scans

`enumerate_pods` charges a process with what its byte count in /proc/[pid]/io
grew by since the last scan (`keck-agent/src/main.rs`). Where the file cannot
be read the count is taken to be zero, and the next scan starts from that: it
charges everything the process ever read and wrote. Over a run the charges
stay within the growth of the count exactly if the process had done no I/O
before such a failure (`io_charges_iff`). A process whose stat file cannot be
read is skipped instead, and then nothing happens to its count.
-/
namespace Keck.Agent

open Keck.Lib Keck.Lib.Text

/-! ## One scan -/

/-- The scan gets as far as the counters of an entry. -/
def scanned (e : ProcEntry) : Bool := e.name.toList.all Char.isDigit && isLeader e && (readProcStat e.stat).isSome

def pidOf (e : ProcEntry) : Nat := (parseUnsigned 32 e.name.toList).getD 0

def currentIo (e : ProcEntry) : Nat := (readIoBytes e.io).getD 0

/-- What an entry is charged with, given the last counts. -/
def ioDelta (prevIoBytes : Table Nat Nat) (e : ProcEntry) : Nat :=
  currentIo e - (prevIoBytes.lookup (pidOf e)).getD (currentIo e)

section Scan
variable (refreshPss : Bool) (pidNetBytes : Table Nat (Nat × Nat))

theorem scanEntry_of_not_scanned {e : ProcEntry} (h : scanned e = false) (s : Scan) :
    scanEntry refreshPss pidNetBytes s e = s := by
  unfold scanEntry
  split
  · rfl
  · rename_i hskip
    simp only [Bool.or_eq_true, Bool.not_eq_true', not_or, Bool.not_eq_false] at hskip
    simp only [scanned, hskip.1, hskip.2, Bool.true_and, Option.isSome_eq_false_iff, Option.isNone_iff_eq_none] at h
    rw [h]

/-- The charge goes to the scan's total, and the count is kept for the next. -/
theorem scanEntry_io {e : ProcEntry} (h : scanned e = true) (s : Scan) :
    (scanEntry refreshPss pidNetBytes s e).totalIoBytes = s.totalIoBytes + ioDelta s.prevIoBytes e ∧
    (scanEntry refreshPss pidNetBytes s e).prevIoBytes = s.prevIoBytes.insert (pidOf e) (currentIo e) := by
  simp only [scanned, Bool.and_eq_true] at h
  obtain ⟨⟨hdigits, hleader⟩, hstat⟩ := h
  obtain ⟨stat, hstat⟩ := Option.isSome_iff_exists.1 hstat
  unfold scanEntry
  rw [if_neg (by simp [hdigits, hleader]), hstat]
  exact ⟨rfl, rfl⟩

/-- Whether an entry is that of a process. -/
def ofPid (pid : Nat) (e : ProcEntry) : Bool := scanned e && pidOf e == pid

/-- What a process is charged with in the rounds of a scan. -/
def ioCharges (pid : Nat) : Scan → List ProcEntry → List Nat
  | _, [] => []
  | s, e :: es => (if ofPid pid e then [ioDelta s.prevIoBytes e] else []) ++
      ioCharges pid (scanEntry refreshPss pidNetBytes s e) es

theorem ioCharges_append (pid : Nat) (es es' : List ProcEntry) (s : Scan) :
    ioCharges refreshPss pidNetBytes pid s (es ++ es') =
      ioCharges refreshPss pidNetBytes pid s es ++
        ioCharges refreshPss pidNetBytes pid (es.foldl (scanEntry refreshPss pidNetBytes) s) es' := by
  induction es generalizing s with
  | nil => rfl
  | cons e es ih => rw [List.cons_append, ioCharges, ioCharges, ih, List.append_assoc, List.foldl_cons]

theorem lookup_scanEntry_of_other {pid : Nat} {e : ProcEntry} (h : ofPid pid e = false) (s : Scan) :
    (scanEntry refreshPss pidNetBytes s e).prevIoBytes.lookup pid = s.prevIoBytes.lookup pid := by
  cases hs : scanned e with
  | false => rw [scanEntry_of_not_scanned _ _ hs]
  | true =>
    have hne : pidOf e ≠ pid := by simpa [ofPid, hs] using h
    rw [(scanEntry_io _ _ hs s).2, AList.lookup_insert_ne (Ne.symm hne)]

/-- Other processes' entries neither charge a process nor change its count. -/
theorem ioCharges_of_others {pid : Nat} {es : List ProcEntry} (h : ∀ e ∈ es, ofPid pid e = false) (s : Scan) :
    ioCharges refreshPss pidNetBytes pid s es = [] ∧
    (es.foldl (scanEntry refreshPss pidNetBytes) s).prevIoBytes.lookup pid = s.prevIoBytes.lookup pid := by
  induction es generalizing s with
  | nil => exact ⟨rfl, rfl⟩
  | cons e es ih =>
    have he := h e List.mem_cons_self
    obtain ⟨hcharges, hlookup⟩ := ih (fun e' he' => h e' (List.mem_cons_of_mem _ he'))
      (scanEntry refreshPss pidNetBytes s e)
    constructor
    · rw [ioCharges, he, hcharges]
      rfl
    · rw [List.foldl_cons, hlookup, lookup_scanEntry_of_other _ _ he]

/-- The one entry of a process charges it from its last count, and replaces
that. -/
theorem ioCharges_of_one {pid : Nat} {es : List ProcEntry} {e : ProcEntry} (h : es.filter (ofPid pid) = [e])
    (s : Scan) :
    ioCharges refreshPss pidNetBytes pid s es =
      [currentIo e - (s.prevIoBytes.lookup pid).getD (currentIo e)] ∧
    (es.foldl (scanEntry refreshPss pidNetBytes) s).prevIoBytes.lookup pid = some (currentIo e) := by
  obtain ⟨es₁, es₂, rfl, h₁, he, h₂⟩ := List.filter_eq_cons_iff.1 h
  have h₁ : ∀ e' ∈ es₁, ofPid pid e' = false := by simpa using h₁
  have h₂ : ∀ e' ∈ es₂, ofPid pid e' = false := by simpa using h₂
  obtain ⟨hscanned, hpid⟩ : scanned e = true ∧ pidOf e = pid := by simpa [ofPid] using he
  obtain ⟨hc₁, hl₁⟩ := ioCharges_of_others refreshPss pidNetBytes h₁ s
  obtain ⟨hc₂, hl₂⟩ := ioCharges_of_others refreshPss pidNetBytes h₂
    (scanEntry refreshPss pidNetBytes (es₁.foldl (scanEntry refreshPss pidNetBytes) s) e)
  constructor
  · rw [ioCharges_append, hc₁, ioCharges, he, hc₂, ioDelta, hpid, hl₁]
    rfl
  · rw [List.foldl_append, List.foldl_cons, hl₂, (scanEntry_io _ _ hscanned _).2, hpid, AList.lookup_insert]

end Scan

/-! ## Runs -/

/-- A tick's scan of /proc, with what a process has read and written by then. -/
structure ProcTick where
  entries : Option (List ProcEntry)
  pidNetBytes : Table Nat (Nat × Nat)
  tickCount : Nat
  ioBytes : Nat

namespace ProcTick

def scan (t : ProcTick) (before : Scan) : Scan := Agent.scan before t.entries t.pidNetBytes t.tickCount

/-- What the tick charges a process with. -/
def charges (t : ProcTick) (pid : Nat) (before : Scan) : List Nat :=
  ioCharges (t.tickCount % 5 == 0) t.pidNetBytes pid
    { before with totalCpuTicks := 0, totalPss := 0, totalPgfaults := 0, totalIoBytes := 0, processMetrics := [] }
    (t.entries.getD [])

/-- The process's entry, if the scan gets to it. -/
def entry (t : ProcTick) (pid : Nat) : Option ProcEntry := ((t.entries.getD []).filter (ofPid pid)).head?

/-- The process's count at a scan of it, and whether it is read. -/
def sample (t : ProcTick) (pid : Nat) : Option Meter.Sample :=
  (t.entry pid).map fun e => ⟨t.ioBytes, (readIoBytes e.io).isSome⟩

end ProcTick

/-- What a run of ticks charges a process with. -/
def runCharges (pid : Nat) : Scan → List ProcTick → List Nat
  | _, [] => []
  | s, t :: ts => t.charges pid s ++ runCharges pid (t.scan s) ts

/-- The ticks of an agent, seen from one process: /proc lists it at most once,
its count only grows, and a read that succeeds gives the count. -/
structure IoRun where
  pid : Nat
  ticks : List ProcTick
  once : ∀ t ∈ ticks, ((t.entries.getD []).filter (ofPid pid)).length ≤ 1
  shows : ∀ t ∈ ticks, ∀ e, t.entry pid = some e → ∀ v, readIoBytes e.io = some v → v = t.ioBytes
  grows : (ticks.map (·.ioBytes)).Pairwise (· ≤ ·)

namespace IoRun

/-- The scans of the process in the first ticks of a run. -/
def samples (run : IoRun) (ts : List ProcTick) : List Meter.Sample := ts.filterMap (·.sample run.pid)

/-- What they charge it with, in all. -/
def charged (run : IoRun) (ts : List ProcTick) : Nat := (runCharges run.pid {} ts).sum

variable {run : IoRun}

/-- A tick without the process changes nothing for it. -/
theorem charges_of_no_entry {t : ProcTick} (he : t.entry run.pid = none) (s : Scan) :
    t.charges run.pid s = [] ∧ (t.scan s).prevIoBytes.lookup run.pid = s.prevIoBytes.lookup run.pid := by
  have hothers : ∀ e ∈ t.entries.getD [], ofPid run.pid e = false := by
    rw [ProcTick.entry, List.head?_eq_none_iff, List.filter_eq_nil_iff] at he
    simpa using he
  exact ioCharges_of_others _ _ hothers _

theorem charges_of_entry {t : ProcTick} (ht : t ∈ run.ticks) {e : ProcEntry} (he : t.entry run.pid = some e)
    (s : Scan) :
    t.charges run.pid s = [currentIo e - (s.prevIoBytes.lookup run.pid).getD (currentIo e)] ∧
    (t.scan s).prevIoBytes.lookup run.pid = some (currentIo e) := by
  have hone : (t.entries.getD []).filter (ofPid run.pid) = [e] := by
    have hlen := run.once t ht
    rw [ProcTick.entry] at he
    cases hf : (t.entries.getD []).filter (ofPid run.pid) with
    | nil => rw [hf] at he; cases he
    | cons e' es =>
      rw [hf] at he hlen
      obtain rfl := Option.some.inj he
      rw [List.eq_nil_of_length_eq_zero (by simpa using hlen : es.length = 0)]
  exact ioCharges_of_one _ _ hone _

theorem recorded_sample {t : ProcTick} (ht : t ∈ run.ticks) {e : ProcEntry} (he : t.entry run.pid = some e) :
    (⟨t.ioBytes, (readIoBytes e.io).isSome⟩ : Meter.Sample).recorded = currentIo e := by
  unfold Meter.Sample.recorded currentIo
  cases h : readIoBytes e.io with
  | none => rfl
  | some v => exact (run.shows t ht e he v h).symm

/-- The charges of a run are those of a meter that stores zero for a failed
read. -/
theorem sum_runCharges {ts : List ProcTick} (hts : ∀ t ∈ ts, t ∈ run.ticks) (s : Scan) :
    (runCharges run.pid s ts).sum =
      Meter.climb ((s.prevIoBytes.lookup run.pid).getD (Meter.start (run.samples ts)))
        ((run.samples ts).map (·.recorded)) := by
  induction ts generalizing s with
  | nil => rfl
  | cons t ts ih =>
    have ih := ih (fun t' ht' => hts t' (List.mem_cons_of_mem _ ht')) (t.scan s)
    have ht := hts t List.mem_cons_self
    rw [runCharges, List.sum_append, ih]
    cases he : t.entry run.pid with
    | none =>
      obtain ⟨hcharges, hlookup⟩ := charges_of_no_entry he s
      have hsamples : run.samples (t :: ts) = run.samples ts := by
        rw [samples, List.filterMap_cons_none (by rw [ProcTick.sample, he]; rfl), samples]
      rw [hcharges, hlookup, hsamples, List.sum_nil, Nat.zero_add]
    | some e =>
      obtain ⟨hcharges, hlookup⟩ := charges_of_entry ht he s
      have hsamples : run.samples (t :: ts) = ⟨t.ioBytes, (readIoBytes e.io).isSome⟩ :: run.samples ts := by
        rw [samples, List.filterMap_cons_some (by rw [ProcTick.sample, he]; rfl), samples]
      have hstart : Meter.start (run.samples (t :: ts)) = currentIo e := by
        rw [hsamples, Meter.start, List.head?_cons, Option.map_some, Option.getD_some, recorded_sample ht he]
      rw [hcharges, hlookup, hstart, hsamples, List.map_cons, recorded_sample ht he, Meter.climb, List.sum_singleton]
      rfl

theorem charged_eq {ts : List ProcTick} (hts : ∀ t ∈ ts, t ∈ run.ticks) :
    run.charged ts = Meter.charged (run.samples ts) := sum_runCharges hts {}

theorem samples_grow (run : IoRun) : ((run.samples run.ticks).map (·.value)).Pairwise (· ≤ ·) := by
  refine run.grows.sublist ?_
  have hvalues : ∀ ts : List ProcTick, ((run.samples ts).map (·.value)).Sublist (ts.map (·.ioBytes)) := by
    intro ts
    induction ts with
    | nil => exact .slnil
    | cons t ts ih =>
      rw [samples, List.filterMap_cons, ProcTick.sample]
      cases t.entry run.pid with
      | none => exact ih.cons _
      | some e => exact ih.cons_cons _
  exact hvalues run.ticks

end IoRun

/-- At every point of a run, a process is charged at most what its count grew
by between its first and its last successful read, if and only if: when a read
fails and a later one succeeds, the successful reads before it had read zero,
and when the very first read fails, the first successful one reads zero. -/
theorem io_charges_iff (run : IoRun) :
    (∀ ts, ts <+: run.ticks → Meter.first (run.samples ts) + run.charged ts ≤ Meter.last (run.samples ts)) ↔
      Meter.NoRestart (run.samples run.ticks) ∧ Meter.FreshStart (run.samples run.ticks) := by
  rw [← Meter.charged_le_iff run.samples_grow]
  constructor
  · intro h pre hpre
    obtain ⟨ts, hts, rfl⟩ := List.prefix_filterMap_iff.1 hpre
    have hle := h ts hts
    rwa [IoRun.charged_eq fun t ht => hts.subset ht] at hle
  · intro h ts hts
    rw [IoRun.charged_eq fun t ht => hts.subset ht]
    exact h _ (hts.filterMap _)

/-- A scan that lists one process, whose io file may be unreadable. -/
def spinTick (ioBytes : Nat) (io : Option String) : ProcTick where
  entries := some [{ name := "7", stat := some "7 (spin) R 1 7 7 0 -1 0 0 0 0 0 200 0", io := io }]
  pidNetBytes := ∅
  tickCount := 1
  ioBytes := ioBytes

/-- The process writes 500 bytes, then 10 more while its io file cannot be
read, then 10 more. -/
def unreadableIoRun : IoRun where
  pid := 7
  ticks := [spinTick 500 (some "read_bytes: 0\nwrite_bytes: 500"), spinTick 510 none,
    spinTick 520 (some "read_bytes: 0\nwrite_bytes: 520")]
  once := by decide
  shows := by
    intro t ht e he v hv
    simp only [List.mem_cons, List.not_mem_nil, or_false] at ht
    rcases ht with rfl | rfl | rfl
    · obtain rfl := Option.some.inj he
      exact (Option.some.inj hv).symm
    · obtain rfl := Option.some.inj he
      cases hv
    · obtain rfl := Option.some.inj he
      exact (Option.some.inj hv).symm
  grows := by decide

/-- It wrote 20 bytes between the two successful reads, and is charged 520. -/
theorem unreadable_io_charged_twice :
    unreadableIoRun.charged unreadableIoRun.ticks = 520 ∧
    Meter.first (unreadableIoRun.samples unreadableIoRun.ticks) = 500 ∧
    Meter.last (unreadableIoRun.samples unreadableIoRun.ticks) = 520 := by
  refine ⟨by decide, by decide, by decide⟩

end Keck.Agent
