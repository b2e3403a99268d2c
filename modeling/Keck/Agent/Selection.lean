import Keck.Agent.Sources
/-!
# Which sources a report marks as selected

The list of sources in the agent's report (`sources_status` in
`keck-agent/src/main.rs`) marks the sources the reported powers are from. For
the CPU and the memory that is every source with the name of the one selected,
for GPU and platform every source with a reading. The marked powers are the
reported power only if a single reading is marked (`markers_match_iff`).
-/
namespace Keck.Agent

open Keck.Lib

structure SourceStatus where
  name : String
  nodeName : String
  component : String
  readingType : String
  available : Bool
  selected : Bool
  powerUw : Nat

/-- `cpu_source` and `mem_source`. -/
def Tick.sourceName (t : Tick) (c : Component) : String := ((t.best c).map (·.source)).getD "none"

def Tick.isSelected (t : Tick) (l : SourceLine) : Bool :=
  if l.component = "cpu" then t.sourceName .cpu == l.name
  else if l.component = "memory" then t.sourceName .memory == l.name
  else if l.component = "gpu" then decide (t.selected .gpu > 0) && l.available
  else if l.component = "platform" then (t.platformReading.map (·.powerUw)).isSome && l.available
  else false

def Tick.sourcesStatus (t : Tick) (nodeName : String) : List SourceStatus :=
  t.allSourceReadings.map fun l =>
    { name := l.name
      nodeName := nodeName
      component := l.component
      readingType := l.readingType
      available := l.available
      selected := t.isSelected l
      powerUw := l.powerUw }

/-- The power of the sources of a component that are marked. -/
def markedPower (c : Component) (statuses : List SourceStatus) : Nat :=
  ((statuses.filter fun s => s.component == c.asStr && s.selected).map (·.powerUw)).sum

/-! ## Marks by component -/

/-- The rule each component's sources are marked by. -/
def Tick.marks (t : Tick) (c : Component) (name : String) (available : Bool) : Bool :=
  match c with
  | .cpu => t.sourceName .cpu == name
  | .memory => t.sourceName .memory == name
  | .gpu => decide (t.selected .gpu > 0) && available
  | .platform => (t.platformReading.map (·.powerUw)).isSome && available
  | _ => false

theorem isSelected_eq (t : Tick) {l : SourceLine} {c : Component} (h : l.component = c.asStr) :
    t.isSelected l = t.marks c l.name l.available := by
  unfold Tick.isSelected
  rw [h]
  cases c <;> rfl

theorem Component.asStr_inj {c c' : Component} : c.asStr = c'.asStr ↔ c = c' := by
  cases c <;> cases c' <;> decide

theorem markedPower_eq (t : Tick) (nodeName : String) (c : Component) :
    markedPower c (t.sourcesStatus nodeName) =
      ((t.allSourceReadings.filter fun l => l.component == c.asStr && t.marks c l.name l.available).map
        (·.powerUw)).sum := by
  rw [markedPower, Tick.sourcesStatus, List.filter_map, List.map_map]
  congr 2
  refine List.filter_congr fun l _ => ?_
  by_cases h : l.component = c.asStr
  · simp [h, isSelected_eq t h]
  · have hne : (l.component == c.asStr) = false := by simpa using h
    simp only [Function.comp, hne, Bool.false_and]

theorem sum_filter_cons {α : Type} (p : α → Bool) (f : α → Nat) (a : α) (l : List α) :
    (((a :: l).filter p).map f).sum = (if p a then f a else 0) + ((l.filter p).map f).sum := by
  cases h : p a <;> simp [h]

/-- Of the lines of a component, only those of non-zero readings count. -/
theorem sum_lines (intervalNs : Nat) (prev : Table String Nat) (sources : List Source) (c : Component)
    (P : String → Bool → Bool) :
    ((((rounds prev sources).map fun x => lineOf intervalNs (x.1.lookup x.2.id) x.2).filter fun l =>
        l.component == c.asStr && P l.name l.available).map (·.powerUw)).sum =
      (((ofComponent c (readings intervalNs prev sources)).filter fun r => P r.source true).map (·.powerUw)).sum := by
  induction sources generalizing prev with
  | nil => rfl
  | cons s sources ih =>
    rw [rounds, List.map_cons, sum_filter_cons, ih]
    cases h : s.read with
    | error e =>
      have hline : (lineOf intervalNs (prev.lookup s.id) s).powerUw = 0 := by rw [lineOf, h]
      rw [hline, ite_self, Nat.zero_add, storeEnergy, h]
      simp only [readings, h]
    | ok r =>
      have hstore : storeEnergy prev s = r.energyUj.elim prev (prev.insert s.id) := by rw [storeEnergy, h]
      by_cases hp : r.power (prev.lookup s.id) intervalNs = 0
      · have hline : (lineOf intervalNs (prev.lookup s.id) s).powerUw = 0 := by
          rw [lineOf, h]
          exact hp
        rw [hline, ite_self, Nat.zero_add, hstore]
        simp only [readings, h, hp, if_true]
      · have hcomp : (s.component.asStr == c.asStr) = decide (s.component = c) := by
          rw [beq_eq_decide, decide_eq_decide]
          exact Component.asStr_inj
        rw [hstore]
        simp only [lineOf, readings, h, hp, if_false, Nat.pos_of_ne_zero hp, decide_true, hcomp, ofComponent]
        by_cases hc : s.component = c
        · rw [List.filter_cons_of_pos (by simpa using hc), List.map_cons, sum_filter_cons]
          simp only [hc, decide_true, Bool.true_and]
        · rw [List.filter_cons_of_neg (by simpa using hc)]
          simp only [hc, decide_false, Bool.false_and, Bool.false_eq_true, if_false, Nat.zero_add]

/-! ## The marked power -/

/-- A single reading of a component is marked: for the CPU and the memory, the
only one with the name of the first of the highest rank; for GPU and platform,
the only one there is. -/
def SingleMark (c : Component) (crs : List ComponentReading) : Prop :=
  match c with
  | .cpu | .memory => ∀ cr, crs.argmax (fun cr => cr.readingType.rank) = some cr →
      (crs.filter fun cr' => cr'.source = cr.source).length ≤ 1
  | _ => crs.length ≤ 1

theorem sum_marked_iff {crs : List ComponentReading} (hpos : ∀ cr ∈ crs, 0 < cr.powerUw) {cr : ComponentReading}
    (hcr : cr ∈ crs) : (crs.map (·.powerUw)).sum = cr.powerUw ↔ crs.length ≤ 1 := by
  have hpowers : ∀ p ∈ crs.map (·.powerUw), 0 < p := by
    intro p hp
    obtain ⟨cr', hcr', rfl⟩ := List.mem_map.1 hp
    exact hpos cr' hcr'
  rw [sum_eq_mem_iff hpowers (List.mem_map_of_mem hcr), List.length_map]

section Marks
variable (intervalNs : Nat) (prev : Table String Nat) (sources : List Source)

theorem best_eq (c : Component) :
    (readSources intervalNs prev sources).best c =
      (ofComponent c (readings intervalNs prev sources)).foldl (keep c) none := by
  rw [readSources, best_readSources]
  cases c <;> rfl

theorem markedPower_readSources (nodeName : String) (c : Component) :
    markedPower c ((readSources intervalNs prev sources).sourcesStatus nodeName) =
      (((ofComponent c (readings intervalNs prev sources)).filter fun cr =>
        (readSources intervalNs prev sources).marks c cr.source true).map (·.powerUw)).sum := by
  have hlines : (readSources intervalNs prev sources).allSourceReadings =
      (rounds prev sources).map fun x => lineOf intervalNs (x.1.lookup x.2.id) x.2 := by
    rw [readSources, allSourceReadings_foldl]
    rfl
  rw [markedPower_eq, hlines]
  exact sum_lines intervalNs prev sources c _

/-- What is marked of a component whose kept reading is `cr`. -/
theorem marks_of_best {t : Tick} {c : Component} {cr : ComponentReading} (hbest : t.best c = some cr)
    (hpos : 0 < cr.powerUw) (source : String) :
    t.marks c source true = match c with
      | .cpu | .memory => cr.source == source
      | .gpu | .platform => true
      | _ => false := by
  cases c with
  | gpu =>
    have hsel : t.selected .gpu = cr.powerUw := by rw [Tick.selected, hbest]; rfl
    simp [Tick.marks, hsel, hpos]
  | platform =>
    have hplat : t.platformReading = some cr := hbest
    simp [Tick.marks, hplat]
  | cpu => simp [Tick.marks, Tick.sourceName, hbest]
  | memory => simp [Tick.marks, Tick.sourceName, hbest]
  | _ => rfl

end Marks

/-- For every list of sources and what they read: the marked powers of the CPU,
the memory, the GPU or the platform add up to the reported power if and only
if a single reading is marked. -/
theorem markers_match_iff (intervalNs : Nat) (prev : Table String Nat) (sources : List Source) (nodeName : String)
    (c : Component) (hc : c = .cpu ∨ c = .memory ∨ c = .gpu ∨ c = .platform) :
    markedPower c ((readSources intervalNs prev sources).sourcesStatus nodeName) =
        (readSources intervalNs prev sources).selected c ↔
      SingleMark c (ofComponent c (readings intervalNs prev sources)) := by
  rw [markedPower_readSources]
  have hbest := best_eq intervalNs prev sources c
  have hpos : ∀ cr ∈ ofComponent c (readings intervalNs prev sources), 0 < cr.powerUw := by
    intro cr hcr
    obtain ⟨r, hr, rfl⟩ := List.mem_map.1 hcr
    exact powerUw_pos (List.mem_filter.1 hr).1
  generalize ofComponent c (readings intervalNs prev sources) = crs at hbest hpos ⊢
  generalize readSources intervalNs prev sources = t at hbest ⊢
  rcases foldl_keep c crs with ⟨hnone, rfl⟩ | ⟨cr, hcr, hkept⟩
  · -- without a reading nothing is marked and nothing reported
    have hsel : t.selected c = 0 := by rw [Tick.selected, hbest, hnone]; rfl
    rw [hsel]
    rcases hc with rfl | rfl | rfl | rfl <;> simp [SingleMark]
  · have hsel : t.selected c = cr.powerUw := by rw [Tick.selected, hbest, hkept]; rfl
    have hmarks := marks_of_best (hbest.trans hkept) (hpos cr hcr)
    have hnamed : cr ∈ crs.filter fun cr' => cr.source == cr'.source := List.mem_filter.2 ⟨hcr, by simp⟩
    have hfilter : (crs.filter fun cr' => cr.source == cr'.source) = crs.filter fun cr' => cr'.source = cr.source :=
      List.filter_congr fun cr' _ => by rw [beq_eq_decide, decide_eq_decide, eq_comm]
    have hsum := sum_marked_iff (fun cr' h => hpos cr' (List.mem_filter.1 h).1) hnamed
    have hargmax : c ≠ .platform → crs.argmax (fun cr => cr.readingType.rank) = some cr := by
      intro hplat
      rw [← foldl_better, ← hkept, keep_of_ne hplat]
    rw [hsel]
    rcases hc with rfl | rfl | rfl | rfl
    · simp only [hmarks, SingleMark, hargmax (by decide), Option.some.injEq, forall_eq']
      rw [hsum, hfilter]
    · simp only [hmarks, SingleMark, hargmax (by decide), Option.some.injEq, forall_eq']
      rw [hsum, hfilter]
    · simp only [hmarks, SingleMark, List.filter_true]
      exact sum_marked_iff hpos hcr
    · simp only [hmarks, SingleMark, List.filter_true]
      exact sum_marked_iff hpos hcr

/-- Two GPUs, each with its power from the DCGM exporter. -/
def twoGpus : List Source :=
  [⟨"dcgm:gpu:0", "DCGM A100 (GPU 0)", .gpu, .device 0, .measured, .ok ⟨.measured, none, some 300000000, 0⟩⟩,
   ⟨"dcgm:gpu:1", "DCGM A100 (GPU 1)", .gpu, .device 1, .measured, .ok ⟨.measured, none, some 200000000, 0⟩⟩]

/-- Both are marked as selected; the power reported is the first one's. -/
theorem two_gpus_both_marked :
    markedPower .gpu ((readSources 10000000000 ∅ twoGpus).sourcesStatus "node-1") = 500000000 ∧
    (readSources 10000000000 ∅ twoGpus).selected .gpu = 300000000 := by
  refine ⟨by decide, by decide⟩

theorem markers_of_one_gpu :
    (Component.gpu = .cpu ∨ Component.gpu = .memory ∨ Component.gpu = .gpu ∨ Component.gpu = .platform) ∧
    markedPower .gpu ((readSources 10000000000 ∅ (twoGpus.take 1)).sourcesStatus "node-1") =
      (readSources 10000000000 ∅ (twoGpus.take 1)).selected .gpu := by
  have hsingle : SingleMark .gpu (ofComponent .gpu (readings 10000000000 ∅ (twoGpus.take 1))) := by
    show (ofComponent .gpu (readings 10000000000 ∅ (twoGpus.take 1))).length ≤ 1
    decide
  exact ⟨by decide, (markers_match_iff 10000000000 ∅ (twoGpus.take 1) "node-1" .gpu (by decide)).2 hsingle⟩

end Keck.Agent
