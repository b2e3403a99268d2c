import Keck.Lib.Meter
import Keck.Lib.Table
/-!
# Reading the power sources

One tick of the collection loop in `keck-agent/src/main.rs`: every source is
read, its reading becomes a power, and the best reading of each component is
kept. The loop keeps one reading per component, so of several sockets or GPUs
only the first listed counts (`selected_of_several`).

A source carries what its `read` returns this tick. Energies are microjoules,
powers microwatts, the interval nanoseconds.
-/
namespace Keck.Agent

open Keck.Lib

inductive ReadingType where
  | measured
  | estimated
  | derived
  deriving DecidableEq

def ReadingType.asStr : ReadingType → String
  | .measured => "measured"
  | .estimated => "estimated"
  | .derived => "derived"

/-- Measured beats estimated beats derived. -/
def ReadingType.rank : ReadingType → Nat
  | .measured => 3
  | .estimated => 2
  | .derived => 1

inductive Component where
  | cpu
  | memory
  | gpu
  | nic
  | storage
  | fan
  | platform
  deriving DecidableEq

def Component.asStr : Component → String
  | .cpu => "cpu"
  | .memory => "memory"
  | .gpu => "gpu"
  | .nic => "nic"
  | .storage => "storage"
  | .fan => "fan"
  | .platform => "platform"

inductive Granularity where
  | node
  | socket (s : Nat)
  | core (s c : Nat)
  | device (i : Nat)
  deriving DecidableEq

structure PowerReading where
  readingType : ReadingType
  energyUj : Option Nat := none
  powerUw : Option Nat := none
  maxEnergyUj : Nat := 0

structure Source where
  id : String
  name : String
  component : Component
  granularity : Granularity
  readingType : ReadingType
  read : Except String PowerReading

/-- The energy used since the last reading of a counter that may have wrapped. -/
def energyDelta (prev current maxEnergyUj : Nat) : Nat :=
  if current ≥ prev then current - prev
  else if maxEnergyUj > 0 then (maxEnergyUj - prev) + current
  else current

/-- The power of a reading, given the source's last energy. -/
def PowerReading.power (r : PowerReading) (prev : Option Nat) (intervalNs : Nat) : Nat :=
  match r.energyUj with
  | some current => energyToPower (energyDelta (prev.getD current) current r.maxEnergyUj) intervalNs
  | none => r.powerUw.getD 0

structure ComponentReading where
  powerUw : Nat
  source : String
  readingType : ReadingType

/-- One line of the report's list of sources. -/
structure SourceLine where
  name : String
  component : String
  readingType : String
  available : Bool
  powerUw : Nat

/-- The loop's variables. -/
structure Tick where
  prevReadings : Table String Nat := ∅
  allSourceReadings : List SourceLine := []
  cpuBest : Option ComponentReading := none
  memBest : Option ComponentReading := none
  gpuBest : Option ComponentReading := none
  platformReading : Option ComponentReading := none
  ioBest : Option ComponentReading := none
  storageBest : Option ComponentReading := none
  fanBest : Option ComponentReading := none

def isBetter (existing : Option ComponentReading) (new : ComponentReading) : Bool :=
  match existing with
  | none => true
  | some old => decide (new.readingType.rank > old.readingType.rank)

/-- Keep the better of two readings, the old one if they rank the same. -/
def better (existing : Option ComponentReading) (new : ComponentReading) : Option ComponentReading :=
  if isBetter existing new then some new else existing

def Tick.select (t : Tick) (c : Component) (cr : ComponentReading) : Tick :=
  match c with
  | .cpu => { t with cpuBest := better t.cpuBest cr }
  | .memory => { t with memBest := better t.memBest cr }
  | .gpu => { t with gpuBest := better t.gpuBest cr }
  | .platform =>
    -- the highest reading is the whole server's
    match t.platformReading with
    | none => { t with platformReading := some cr }
    | some existing => if cr.powerUw > existing.powerUw then { t with platformReading := some cr } else t
  | .nic => { t with ioBest := better t.ioBest cr }
  | .storage => { t with storageBest := better t.storageBest cr }
  | .fan => { t with fanBest := better t.fanBest cr }

/-- One round of the loop. -/
def readSource (intervalNs : Nat) (t : Tick) (s : Source) : Tick :=
  match s.read with
  | .error _ => { t with allSourceReadings := t.allSourceReadings ++
      [⟨s.name, s.component.asStr, s.readingType.asStr, false, 0⟩] }
  | .ok r =>
    let powerUw := r.power (t.prevReadings.lookup s.id) intervalNs
    let t := { t with
      prevReadings := r.energyUj.elim t.prevReadings (t.prevReadings.insert s.id)
      allSourceReadings := t.allSourceReadings ++
        [⟨s.name, s.component.asStr, r.readingType.asStr, decide (powerUw > 0), powerUw⟩] }
    if powerUw = 0 then t else t.select s.component ⟨powerUw, s.name, r.readingType⟩

/-- Read all sources, with the energies of the last tick. -/
def readSources (intervalNs : Nat) (prevReadings : Table String Nat) (sources : List Source) : Tick :=
  sources.foldl (readSource intervalNs) { prevReadings := prevReadings }

/-- The reading kept for a component. -/
def Tick.best (t : Tick) : Component → Option ComponentReading
  | .cpu => t.cpuBest
  | .memory => t.memBest
  | .gpu => t.gpuBest
  | .platform => t.platformReading
  | .nic => t.ioBest
  | .storage => t.storageBest
  | .fan => t.fanBest

/-- The node power of a component: `cpu_uw`, `mem_uw`, `gpu_uw` and so on. -/
def Tick.selected (t : Tick) (c : Component) : Nat := ((t.best c).map (·.powerUw)).getD 0

def Tick.psuOutputUw (t : Tick) : Option Nat :=
  let total := ((t.allSourceReadings.filter fun l =>
    l.available && decide ("Output".toList <:+: l.name.toList)).map (·.powerUw)).sum
  if total > 0 then some total else none

def Tick.totalAttributed (t : Tick) : Nat :=
  t.selected .cpu + t.selected .memory + t.selected .gpu + t.selected .nic + t.selected .storage + t.selected .fan

/-- The DC output where known, else the AC input. -/
def Tick.referencePower (t : Tick) : Option Nat := t.psuOutputUw.or (t.platformReading.map (·.powerUw))

def Tick.idleUw (t : Tick) : Nat := (t.referencePower.map (· - t.totalAttributed)).getD 0

def Tick.errorRatio (t : Tick) : ℚ :=
  match t.referencePower with
  | some p => if p > 0 then ((p : Int) - t.totalAttributed).natAbs / p else 0
  | none => 0

/-! ## The readings of a tick -/

/-- A source's non-zero reading, with the device it is of. -/
structure DeviceReading where
  component : Component
  granularity : Granularity
  reading : ComponentReading

/-- The non-zero readings of a list of sources, in order. -/
def readings (intervalNs : Nat) : Table String Nat → List Source → List DeviceReading
  | _, [] => []
  | prev, s :: sources =>
    match s.read with
    | .error _ => readings intervalNs prev sources
    | .ok r =>
      let powerUw := r.power (prev.lookup s.id) intervalNs
      let rest := readings intervalNs (r.energyUj.elim prev (prev.insert s.id)) sources
      if powerUw = 0 then rest else ⟨s.component, s.granularity, ⟨powerUw, s.name, r.readingType⟩⟩ :: rest

/-- The readings of one component. -/
def ofComponent (c : Component) (rs : List DeviceReading) : List ComponentReading :=
  (rs.filter fun r => r.component = c).map (·.reading)

/-- Keep the higher of two readings, the old one if they are equal. -/
def higher (existing : Option ComponentReading) (new : ComponentReading) : Option ComponentReading :=
  match existing with
  | none => some new
  | some old => if new.powerUw > old.powerUw then some new else existing

/-- What a component keeps of two readings. -/
def keep : Component → Option ComponentReading → ComponentReading → Option ComponentReading
  | .platform => higher
  | _ => better

theorem keep_of_ne {c : Component} (hc : c ≠ .platform) : keep c = better := by
  cases c <;> first | rfl | exact absurd rfl hc

theorem best_select (t : Tick) (c c' : Component) (cr : ComponentReading) :
    (t.select c cr).best c' = if c = c' then keep c' (t.best c') cr else t.best c' := by
  cases c with
  | platform =>
    simp only [Tick.select]
    cases hp : t.platformReading with
    | none => cases c' <;> simp [Tick.best, keep, higher, hp]
    | some old =>
      by_cases h : cr.powerUw > old.powerUw
      · cases c' <;> simp [Tick.best, keep, higher, hp, h]
      · cases c' <;> simp [Tick.best, keep, higher, hp, h]
  | _ => cases c' <;> rfl

theorem prevReadings_select (t : Tick) (c : Component) (cr : ComponentReading) :
    (t.select c cr).prevReadings = t.prevReadings := by
  cases c with
  | platform =>
    simp only [Tick.select]
    split
    · rfl
    · split <;> rfl
  | _ => rfl

/-- Every component keeps the best of its readings, taken in the order of the
sources. -/
theorem best_readSources (intervalNs : Nat) (sources : List Source) (t : Tick) (c : Component) :
    (sources.foldl (readSource intervalNs) t).best c =
      (ofComponent c (readings intervalNs t.prevReadings sources)).foldl (keep c) (t.best c) := by
  -- the readings depend on the energies stored so far, so the tick is general
  induction sources generalizing t with
  | nil => rfl
  | cons s sources ih =>
    rw [List.foldl_cons, ih]
    have hbest : ∀ prev all, ({ t with prevReadings := prev, allSourceReadings := all } : Tick).best c = t.best c := by
      intro prev all
      cases c <;> rfl
    cases h : s.read with
    | error e =>
      simp only [readSource, readings, h]
      rw [hbest t.prevReadings]
    | ok r =>
      simp only [readSource, readings, h]
      by_cases hp : r.power (t.prevReadings.lookup s.id) intervalNs = 0
      · simp only [hp, if_true]
        rw [hbest]
      · simp only [hp, if_false, prevReadings_select]
        rw [best_select, hbest]
        by_cases hcc : s.component = c <;> simp [ofComponent, hcc]

theorem keep_cases (c : Component) (o : Option ComponentReading) (cr : ComponentReading) :
    keep c o cr = some cr ∨ (keep c o cr = o ∧ o.isSome) := by
  cases o with
  | none => exact .inl (by cases c <;> rfl)
  | some old =>
    by_cases hc : c = .platform
    · subst hc
      simp only [keep, higher]
      split <;> simp
    · rw [keep_of_ne hc, better]
      split <;> simp

/-- One of the readings is kept, if there is any. -/
theorem foldl_keep (c : Component) (crs : List ComponentReading) :
    (crs.foldl (keep c) none = none ∧ crs = []) ∨ ∃ cr ∈ crs, crs.foldl (keep c) none = some cr := by
  induction crs using List.reverseRecOn with
  | nil => exact .inl ⟨rfl, rfl⟩
  | append_singleton crs cr ih =>
    rw [List.foldl_append, List.foldl_cons, List.foldl_nil]
    right
    rcases keep_cases c (crs.foldl (keep c) none) cr with h | ⟨h, hsome⟩
    · exact ⟨cr, by simp, h⟩
    · rcases ih with ⟨hnone, -⟩ | ⟨old, hold, hkept⟩
      · rw [hnone] at hsome
        cases hsome
      · exact ⟨old, List.mem_append_left _ hold, h.trans hkept⟩

/-- The reading kept is the first of the highest rank. -/
theorem foldl_better (crs : List ComponentReading) :
    crs.foldl better none = crs.argmax fun cr => cr.readingType.rank := by
  induction crs using List.reverseRecOn with
  | nil => rfl
  | append_singleton crs cr ih =>
    rw [List.foldl_append, List.foldl_cons, List.foldl_nil, ih, List.argmax_concat]
    cases crs.argmax fun cr => cr.readingType.rank with
    | none => rfl
    | some old =>
      simp only [better, isBetter, decide_eq_true_eq, gt_iff_lt]

theorem powerUw_pos {intervalNs : Nat} {prev : Table String Nat} {sources : List Source} {r : DeviceReading}
    (h : r ∈ readings intervalNs prev sources) : 0 < r.reading.powerUw := by
  induction sources generalizing prev with
  | nil => cases h
  | cons s sources ih =>
    simp only [readings] at h
    split at h
    · exact ih h
    · split at h
      · exact ih h
      · rcases List.mem_cons.1 h with rfl | h
        · exact Nat.pos_of_ne_zero ‹_›
        · exact ih h

/-! ## The lines of a tick -/

/-- The energies known after a source is read: its new one too, if it has one. -/
def storeEnergy (prev : Table String Nat) (s : Source) : Table String Nat :=
  match s.read with
  | .ok r => r.energyUj.elim prev (prev.insert s.id)
  | .error _ => prev

/-- The start-up read. -/
def initialRead (sources : List Source) : Table String Nat := sources.foldl storeEnergy ∅

/-- A source's line in the list of sources, given its last energy. -/
def lineOf (intervalNs : Nat) (prev : Option Nat) (s : Source) : SourceLine :=
  match s.read with
  | .error _ => ⟨s.name, s.component.asStr, s.readingType.asStr, false, 0⟩
  | .ok r => ⟨s.name, s.component.asStr, r.readingType.asStr, decide (r.power prev intervalNs > 0),
      r.power prev intervalNs⟩

/-- The rounds of the loop: each source with the energies known by then. -/
def rounds : Table String Nat → List Source → List (Table String Nat × Source)
  | _, [] => []
  | prev, s :: sources => (prev, s) :: rounds (storeEnergy prev s) sources

theorem allSourceReadings_select (t : Tick) (c : Component) (cr : ComponentReading) :
    (t.select c cr).allSourceReadings = t.allSourceReadings := by
  cases c with
  | platform =>
    simp only [Tick.select]
    split
    · rfl
    · split <;> rfl
  | _ => rfl

theorem prevReadings_readSource (intervalNs : Nat) (t : Tick) (s : Source) :
    (readSource intervalNs t s).prevReadings = storeEnergy t.prevReadings s := by
  cases h : s.read with
  | error e => simp only [readSource, storeEnergy, h]
  | ok r =>
    simp only [readSource, storeEnergy, h]
    split
    · rfl
    · exact prevReadings_select _ _ _

theorem allSourceReadings_readSource (intervalNs : Nat) (t : Tick) (s : Source) :
    (readSource intervalNs t s).allSourceReadings =
      t.allSourceReadings ++ [lineOf intervalNs (t.prevReadings.lookup s.id) s] := by
  cases h : s.read with
  | error e => simp only [readSource, lineOf, h]
  | ok r =>
    simp only [readSource, lineOf, h]
    split
    · rfl
    · exact allSourceReadings_select _ _ _

theorem prevReadings_foldl (intervalNs : Nat) (sources : List Source) (t : Tick) :
    (sources.foldl (readSource intervalNs) t).prevReadings = sources.foldl storeEnergy t.prevReadings := by
  induction sources generalizing t with
  | nil => rfl
  | cons s sources ih => rw [List.foldl_cons, List.foldl_cons, ih, prevReadings_readSource]

/-- Every source has its line, from the energy known when it is read. -/
theorem allSourceReadings_foldl (intervalNs : Nat) (sources : List Source) (t : Tick) :
    (sources.foldl (readSource intervalNs) t).allSourceReadings =
      t.allSourceReadings ++
        (rounds t.prevReadings sources).map fun x => lineOf intervalNs (x.1.lookup x.2.id) x.2 := by
  induction sources generalizing t with
  | nil => simp [rounds]
  | cons s sources ih =>
    rw [List.foldl_cons, ih, prevReadings_readSource, allSourceReadings_readSource, rounds, List.map_cons,
      List.append_assoc]
    rfl

/-! ## Several devices -/

/-- The readings of a component that no other reading of it outranks. -/
def bestReadings (c : Component) (rs : List DeviceReading) : List DeviceReading :=
  rs.filter fun r => r.component = c ∧
    ∀ r' ∈ rs, r'.component = c → r'.reading.readingType.rank ≤ r.reading.readingType.rank

def Granularity.socket? : Granularity → Option Nat
  | .socket s => some s
  | _ => none

def Granularity.device? : Granularity → Option Nat
  | .device i => some i
  | _ => none

/-- Two or more readings, each of its own socket, or each of its own device. -/
def SeveralDevices (rs : List DeviceReading) : Prop :=
  2 ≤ rs.length ∧ (rs.map (·.granularity)).Nodup ∧
    ((∀ r ∈ rs, r.granularity.socket?.isSome) ∨ ∀ r ∈ rs, r.granularity.device?.isSome)

instance (rs : List DeviceReading) : Decidable (SeveralDevices rs) := inferInstanceAs (Decidable (_ ∧ _))

/-- A positive power is the sum of a list it is in only if it is alone there. -/
theorem sum_eq_mem_iff {powers : List Nat} (hpos : ∀ p ∈ powers, 0 < p) {p : Nat} (hp : p ∈ powers) :
    powers.sum = p ↔ powers.length ≤ 1 := by
  obtain ⟨l₁, l₂, rfl⟩ := List.append_of_mem hp
  rw [List.sum_append, List.sum_cons, List.length_append, List.length_cons]
  constructor
  · intro hsum
    -- nothing else is positive, so there is nothing else
    have h₁ : l₁ = [] := by
      rw [List.eq_nil_iff_forall_not_mem]
      intro q hq
      have hle := List.single_le_sum (by simp) q hq
      have hqpos := hpos q (List.mem_append_left _ hq)
      omega
    have h₂ : l₂ = [] := by
      rw [List.eq_nil_iff_forall_not_mem]
      intro q hq
      have hle := List.single_le_sum (by simp) q hq
      have hqpos := hpos q (List.mem_append_right _ (List.mem_cons_of_mem _ hq))
      omega
    rw [h₁, h₂]
    exact Nat.le_refl 1
  · intro hlen
    have h₁ : l₁ = [] := List.eq_nil_of_length_eq_zero (by omega)
    have h₂ : l₂ = [] := List.eq_nil_of_length_eq_zero (by omega)
    rw [h₁, h₂]
    simp

/-- Whatever the sources and their order: where the best readings of the CPU,
the memory or the GPU are of several devices, the power selected for the
component is that of a single one of them, and so less than their sum. -/
theorem selected_of_several (intervalNs : Nat) (prev : Table String Nat) (sources : List Source) (c : Component)
    (hc : c = .cpu ∨ c = .memory ∨ c = .gpu)
    (hs : SeveralDevices (bestReadings c (readings intervalNs prev sources))) :
    (∃ r ∈ bestReadings c (readings intervalNs prev sources),
      (readSources intervalNs prev sources).selected c = r.reading.powerUw) ∧
    (readSources intervalNs prev sources).selected c ≠
      ((bestReadings c (readings intervalNs prev sources)).map (·.reading.powerUw)).sum := by
  have hplat : c ≠ .platform := by rintro rfl; simp at hc
  have hbest : (readSources intervalNs prev sources).best c =
      (ofComponent c (readings intervalNs prev sources)).argmax fun cr => cr.readingType.rank := by
    rw [readSources, best_readSources, keep_of_ne hplat, ← foldl_better]
    cases c <;> rfl
  generalize hrs : readings intervalNs prev sources = rs at hs hbest ⊢
  obtain ⟨r₀, hr₀⟩ := List.exists_mem_of_length_pos (by have := hs.1; omega : 0 < (bestReadings c rs).length)
  -- the component has readings, so one is kept; none outranks it
  obtain ⟨cr, hcr⟩ : ∃ cr, (ofComponent c rs).argmax (fun cr => cr.readingType.rank) = some cr := by
    refine Option.ne_none_iff_exists'.1 fun hn => ?_
    rw [List.argmax_eq_none] at hn
    obtain ⟨hm, hp⟩ := List.mem_filter.1 hr₀
    have : r₀.reading ∈ ofComponent c rs := List.mem_map.2 ⟨r₀, List.mem_filter.2 ⟨hm, by simp_all⟩, rfl⟩
    rw [hn] at this
    cases this
  obtain ⟨r, hr, rfl⟩ := List.mem_map.1 (List.argmax_mem hcr)
  obtain ⟨hmem, hcomp⟩ := List.mem_filter.1 hr
  have hrb : r ∈ bestReadings c rs := by
    refine List.mem_filter.2 ⟨hmem, decide_eq_true ⟨by simpa using hcomp, fun r' hr' hc' => ?_⟩⟩
    have hm' : r'.reading ∈ ofComponent c rs := List.mem_map.2 ⟨r', List.mem_filter.2 ⟨hr', by simpa using hc'⟩, rfl⟩
    exact List.le_of_mem_argmax (f := fun cr : ComponentReading => cr.readingType.rank) hm' hcr
  have hsel : (readSources intervalNs prev sources).selected c = r.reading.powerUw := by
    rw [Tick.selected, hbest, hcr]; rfl
  have hpos : ∀ r ∈ bestReadings c rs, 0 < r.reading.powerUw :=
    fun r hr => powerUw_pos (hrs.symm ▸ (List.mem_filter.1 hr).1)
  refine ⟨⟨r, hrb, hsel⟩, fun hsum => ?_⟩
  have hpowers : ∀ p ∈ (bestReadings c rs).map (·.reading.powerUw), 0 < p := by
    intro p hp
    obtain ⟨r', hr', rfl⟩ := List.mem_map.1 hp
    exact hpos r' hr'
  have hlen := (sum_eq_mem_iff hpowers (List.mem_map_of_mem hrb)).1 (hsum.symm.trans hsel)
  rw [List.length_map] at hlen
  have htwo := hs.1
  omega

/-- A server with two sockets, each with a package energy counter. -/
def twoSockets : List Source :=
  [⟨"rapl:package:0", "RAPL package 0", .cpu, .socket 0, .estimated, .ok ⟨.estimated, some 50, none, 1000⟩⟩,
   ⟨"rapl:package:1", "RAPL package 1", .cpu, .socket 1, .estimated, .ok ⟨.estimated, some 70, none, 1000⟩⟩]

/-- Their energies one second before. -/
def twoSocketsBefore : Table String Nat :=
  (AList.insert "rapl:package:0" 10 (∅ : Table String Nat)).insert "rapl:package:1" 20

/-- The sockets use 40 and 50 microwatts; the node's CPU power is 40. -/
theorem two_sockets_not_summed :
    SeveralDevices (bestReadings .cpu (readings 1000000000 twoSocketsBefore twoSockets)) ∧
    ((bestReadings .cpu (readings 1000000000 twoSocketsBefore twoSockets)).map (·.reading.powerUw)).sum = 90 ∧
    (readSources 1000000000 twoSocketsBefore twoSockets).selected .cpu = 40 := by
  refine ⟨by decide, by decide, by decide⟩

theorem two_sockets_selected :
    SeveralDevices (bestReadings .cpu (readings 1000000000 twoSocketsBefore twoSockets)) ∧
    (readSources 1000000000 twoSocketsBefore twoSockets).selected .cpu ≠
      ((bestReadings .cpu (readings 1000000000 twoSocketsBefore twoSockets)).map (·.reading.powerUw)).sum := by
  have hs : SeveralDevices (bestReadings .cpu (readings 1000000000 twoSocketsBefore twoSockets)) := by decide
  exact ⟨hs, (selected_of_several 1000000000 twoSocketsBefore twoSockets .cpu (.inl rfl) hs).2⟩

end Keck.Agent
