import Keck.Lib.Meter
import Keck.Agent.Attribution
/-!
# Per-core hardware counters

`HwCounterReader` of `keck-agent/src/perf_counters.rs`. A call reads three
counters of every core and reports what each added since the last call. A read
that fails counts as zero, and zero is what the next call starts from: the
whole counter is then reported a second time. What is reported stays within
what was counted, at every point of a run, exactly if nothing had been counted
before such a failure (`reported_le_count_iff`).

What `read` returns for each file descriptor is an input of a call.
-/
namespace Keck.Agent.PerfCounters

open Keck.Lib

/-! ## The reader -/

structure CoreFds where
  coreId : Nat
  instructionsFd : Nat
  cyclesFd : Nat
  cacheMissesFd : Nat

structure CoreSnapshot where
  instructions : Nat
  cycles : Nat
  cacheMisses : Nat

/-- A core's deltas, with the instructions that the attribution leaves out. -/
structure CoreDeltas extends CoreCounterDeltas where
  instructions : Nat

/-- The reader has a snapshot for every core. -/
structure HwCounterReader where
  cores : List CoreFds
  prev : List CoreSnapshot
  sized : prev.length = cores.length

/-- What reading a file descriptor gives, or nothing if the read fails. -/
abbrev ReadCounter := Nat → Option Nat

def CoreFds.read (core : CoreFds) (readCounter : ReadCounter) : CoreSnapshot where
  instructions := (readCounter core.instructionsFd).getD 0
  cycles := (readCounter core.cyclesFd).getD 0
  cacheMisses := (readCounter core.cacheMissesFd).getD 0

def CoreFds.deltas (core : CoreFds) (now prev : CoreSnapshot) : CoreDeltas where
  coreId := core.coreId
  instructions := now.instructions - prev.instructions
  cycles := now.cycles - prev.cycles
  cacheMisses := now.cacheMisses - prev.cacheMisses

namespace HwCounterReader

/-- A reader of opened cores. -/
def new (cores : List CoreFds) : HwCounterReader where
  cores := cores
  prev := cores.map fun _ => ⟨0, 0, 0⟩
  sized := List.length_map _

def readDeltas (r : HwCounterReader) (readCounter : ReadCounter) : List CoreDeltas × HwCounterReader :=
  (List.zipWith (fun core prev => core.deltas (core.read readCounter) prev) r.cores r.prev,
   { r with
     prev := r.cores.map fun core => core.read readCounter
     sized := List.length_map _ })

/-- What the calls of a run return. -/
def run : HwCounterReader → List ReadCounter → List (List CoreDeltas)
  | _, [] => []
  | r, call :: calls => (r.readDeltas call).1 :: (r.readDeltas call).2.run calls

end HwCounterReader

/-! ## One counter of one core -/

inductive Counter where
  | instructions
  | cycles
  | cacheMisses
  deriving DecidableEq

def CoreFds.fd (core : CoreFds) : Counter → Nat
  | .instructions => core.instructionsFd
  | .cycles => core.cyclesFd
  | .cacheMisses => core.cacheMissesFd

def CoreSnapshot.get (s : CoreSnapshot) : Counter → Nat
  | .instructions => s.instructions
  | .cycles => s.cycles
  | .cacheMisses => s.cacheMisses

def CoreDeltas.get (d : CoreDeltas) : Counter → Nat
  | .instructions => d.instructions
  | .cycles => d.cycles
  | .cacheMisses => d.cacheMisses

/-- The sum of what calls report for a counter of the core at an index. -/
def total (i : Nat) (k : Counter) (results : List (List CoreDeltas)) : Nat :=
  (results.map fun ds => (ds[i]?.map (·.get k)).getD 0).sum

theorem get_read (core : CoreFds) (readCounter : ReadCounter) (k : Counter) :
    (core.read readCounter).get k = (readCounter (core.fd k)).getD 0 := by
  cases k <;> rfl

theorem get_deltas (core : CoreFds) (now prev : CoreSnapshot) (k : Counter) :
    (core.deltas now prev).get k = now.get k - prev.get k := by
  cases k <;> rfl

section Projection
variable {r : HwCounterReader} {i : Nat} {core : CoreFds} {prev : CoreSnapshot}

theorem readDeltas_fst (hi : r.cores[i]? = some core) (hp : r.prev[i]? = some prev) (readCounter : ReadCounter)
    (k : Counter) :
    (((r.readDeltas readCounter).1[i]?).map (·.get k)).getD 0 = (readCounter (core.fd k)).getD 0 - prev.get k := by
  rw [HwCounterReader.readDeltas, List.getElem?_zipWith, hi, hp]
  simp only [Option.map_some, Option.getD_some, get_deltas, get_read]

/-- A run adds up, counter by counter, like a meter that stores zero for a
failed read. -/
theorem total_run (hi : r.cores[i]? = some core) (hp : r.prev[i]? = some prev) (calls : List ReadCounter)
    (k : Counter) :
    total i k (r.run calls) = Meter.climb (prev.get k) (calls.map fun call => (call (core.fd k)).getD 0) := by
  induction calls generalizing r prev with
  | nil => rfl
  | cons call calls ih =>
    have hp' : (r.readDeltas call).2.prev[i]? = some (core.read call) := by
      rw [HwCounterReader.readDeltas, List.getElem?_map, hi]
      rfl
    have hrest := ih (r := (r.readDeltas call).2) hi hp'
    rw [get_read] at hrest
    rw [List.map_cons, Meter.climb, ← hrest, ← readDeltas_fst hi hp call k]
    rfl

end Projection

/-! ## Runs -/

/-- A call, with what one hardware counter stands at. -/
structure Call where
  readCounter : ReadCounter
  count : Nat

/-- Calls of a new reader, seen from one counter of one core. The counter only
grows, and a read that succeeds gives what it stands at. -/
structure CounterRun where
  cores : List CoreFds
  index : Nat
  core : CoreFds
  isCore : cores[index]? = some core
  counter : Counter
  calls : List Call
  shows : ∀ c ∈ calls, ∀ v, c.readCounter (core.fd counter) = some v → v = c.count
  grows : (calls.map (·.count)).Pairwise (· ≤ ·)

namespace CounterRun

/-- Whether a call reads the counter. -/
def reads (run : CounterRun) (c : Call) : Bool := (c.readCounter (run.core.fd run.counter)).isSome

/-- What the first calls of the run report for the counter, in all. -/
def reported (run : CounterRun) (calls : List Call) : Nat :=
  total run.index run.counter ((HwCounterReader.new run.cores).run (calls.map (·.readCounter)))

/-- When a read of the counter fails and a later one succeeds, those that
succeeded before had read zero. -/
def CleanFailures (run : CounterRun) : Prop :=
  ∀ pre c post, run.calls = pre ++ c :: post → run.reads c = false → (∃ d ∈ post, run.reads d = true) →
    ∀ d ∈ pre, run.reads d = true → d.count = 0

/-- The counter at a call. -/
def sample (run : CounterRun) (c : Call) : Meter.Sample := ⟨c.count, run.reads c⟩

theorem recorded_sample (run : CounterRun) {c : Call} (hc : c ∈ run.calls) :
    (run.sample c).recorded = (c.readCounter (run.core.fd run.counter)).getD 0 := by
  unfold sample Meter.Sample.recorded reads
  cases h : c.readCounter (run.core.fd run.counter) with
  | none => rfl
  | some v => exact (run.shows c hc v h).symm

theorem reported_eq (run : CounterRun) {calls : List Call} (h : ∀ c ∈ calls, c ∈ run.calls) :
    run.reported calls = Meter.climb 0 ((calls.map run.sample).map (·.recorded)) := by
  have hprev : (HwCounterReader.new run.cores).prev[run.index]? = some ⟨0, 0, 0⟩ := by
    rw [HwCounterReader.new, List.getElem?_map, run.isCore]
    rfl
  have hzero : CoreSnapshot.get ⟨0, 0, 0⟩ run.counter = 0 := by cases run.counter <;> rfl
  have hcores : (HwCounterReader.new run.cores).cores[run.index]? = some run.core := run.isCore
  rw [reported, total_run hcores hprev, hzero, List.map_map, List.map_map]
  congr 1
  exact List.map_congr_left fun c hc => (run.recorded_sample (h c hc)).symm

theorem cleanFailures_iff (run : CounterRun) :
    run.CleanFailures ↔ Meter.NoRestart (run.calls.map run.sample) := by
  constructor
  · rintro h pre x post hsplit hx ⟨y, hy, hyok⟩ z hz hzok
    obtain ⟨pre, rest, hcalls, rfl, hrest⟩ := List.map_eq_append_iff.1 hsplit
    obtain ⟨c, post, rfl, rfl, rfl⟩ := List.map_eq_cons_iff.1 hrest
    obtain ⟨d, hd, rfl⟩ := List.mem_map.1 hy
    obtain ⟨e, he, rfl⟩ := List.mem_map.1 hz
    exact h pre c post hcalls hx ⟨d, hd, hyok⟩ e he hzok
  · rintro h pre c post hsplit hc ⟨d, hd, hdok⟩ e he heok
    refine h (pre.map run.sample) (run.sample c) (post.map run.sample) ?_ hc
      ⟨_, List.mem_map_of_mem hd, hdok⟩ _ (List.mem_map_of_mem he) heok
    rw [hsplit, List.map_append, List.map_cons]

end CounterRun

/-- What is reported of a counter is at most what it stands at, after every
call of a run, if and only if no read of it fails after one that had something
to report and before one that succeeds. -/
theorem reported_le_count_iff (run : CounterRun) :
    (∀ calls, calls <+: run.calls → run.reported calls ≤ (calls.getLast?.map (·.count)).getD 0) ↔
      run.CleanFailures := by
  have hgrows : ((run.calls.map run.sample).map (·.value)).Pairwise (· ≤ ·) := by
    rw [List.map_map]
    exact run.grows
  rw [run.cleanFailures_iff, ← Meter.climb_le_iff hgrows]
  have hcount : ∀ calls : List Call, (calls.getLast?.map (·.count)).getD 0 =
      ((calls.map run.sample).getLast?.map (·.value)).getD 0 := by
    intro calls
    rw [List.getLast?_map, Option.map_map]
    rfl
  constructor
  · rintro h pre hpre
    obtain ⟨calls, hcalls, rfl⟩ := List.prefix_map_iff.1 hpre
    have hle := h calls hcalls
    rwa [run.reported_eq fun c hc => hcalls.subset hc, hcount] at hle
  · intro h calls hcalls
    rw [run.reported_eq fun c hc => hcalls.subset hc, hcount]
    exact h _ (hcalls.map _)

/-- The instructions of one core, read at 500, not read at 600, and read at 700. -/
def interruptedRun : CounterRun where
  cores := [⟨0, 3, 4, 5⟩]
  index := 0
  core := ⟨0, 3, 4, 5⟩
  isCore := rfl
  counter := .instructions
  calls := [⟨fun _ => some 500, 500⟩, ⟨fun fd => if fd = 3 then none else some 600, 600⟩, ⟨fun _ => some 700, 700⟩]
  shows := by
    intro c hc v hv
    simp only [List.mem_cons, List.not_mem_nil, or_false] at hc
    rcases hc with rfl | rfl | rfl
    · exact (Option.some.inj hv).symm
    · cases hv
    · exact (Option.some.inj hv).symm
  grows := by decide

/-- 700 instructions are counted and 1200 reported. -/
theorem interrupted_counts_twice :
    interruptedRun.reported interruptedRun.calls = 1200 ∧
    (interruptedRun.calls.getLast?.map (·.count)).getD 0 = 700 := by
  decide

end Keck.Agent.PerfCounters
