import Keck.Lib.Meter
import Keck.Agent.Sources
import Keck.Agent.Collector
/-!
# Energy counters over a run

The collection loop of `keck-agent/src/main.rs`, tick after tick, from its
start-up read on. A source whose read fails keeps its last energy, so the
differences of its readings add up to the energy used between its first and
its last successful read, wraps included (`energy_deltas_telescope`). The power
made of a difference is not the power over the time it was used in: the loop
divides by the interval however long ago the last successful read was
(`power_exact_iff`).
-/
namespace Keck.Agent

open Keck.Lib

/-! ## The energies of a pass -/

theorem lookup_storeEnergy_of_ne {prev : Table String Nat} {s : Source} {id : String} (h : s.id ≠ id) :
    (storeEnergy prev s).lookup id = prev.lookup id := by
  unfold storeEnergy
  cases s.read with
  | error e => rfl
  | ok r =>
    cases hr : r.energyUj with
    | none => simp [hr]
    | some e => simpa [hr] using AList.lookup_insert_ne (Ne.symm h)

/-- What a source reads, if the read succeeds and gives an energy. -/
def Source.energy (s : Source) : Option Nat := s.read.toOption.bind (·.energyUj)

theorem lookup_storeEnergy_self (prev : Table String Nat) (s : Source) :
    (storeEnergy prev s).lookup s.id = s.energy.or (prev.lookup s.id) := by
  unfold storeEnergy Source.energy
  cases s.read with
  | error e => rfl
  | ok r =>
    cases hr : r.energyUj with
    | none => simp [Except.toOption, hr]
    | some e => simp [Except.toOption, hr]

theorem lookup_foldl_of_notMem {sources : List Source} {id : String} (h : id ∉ sources.map (·.id))
    (prev : Table String Nat) : (sources.foldl storeEnergy prev).lookup id = prev.lookup id := by
  induction sources generalizing prev with
  | nil => rfl
  | cons s sources ih =>
    rw [List.map_cons, List.mem_cons, not_or] at h
    rw [List.foldl_cons, ih h.2, lookup_storeEnergy_of_ne (Ne.symm h.1)]

/-! ## Passes -/

/-- A pass over the discovered sources, each with an id of its own, and the
energy one of them has used up to then. -/
structure Pass where
  sources : List Source
  ids : (sources.map (·.id)).Nodup
  energy : Nat

namespace Pass

/-- What the source with an id reads in a pass. -/
def reading (x : Pass) (id : String) : Option PowerReading :=
  (x.sources.find? fun s => s.id == id).bind fun s => s.read.toOption

def succeeds (x : Pass) (id : String) : Bool := (x.reading id).isSome

/-- The energies known after a tick. -/
def tick (intervalNs : Nat) (prev : Table String Nat) (x : Pass) : Table String Nat :=
  (readSources intervalNs prev x.sources).prevReadings

/-- The power the loop finds for the source with an id: its line's. -/
def power (intervalNs : Nat) (prev : Table String Nat) (x : Pass) (id : String) : Option Nat :=
  ((x.sources.zip (readSources intervalNs prev x.sources).allSourceReadings).find? fun l => l.1.id == id).map
    (·.2.powerUw)

theorem initialRead_eq (intervalNs : Nat) (x : Pass) : initialRead x.sources = x.tick intervalNs ∅ :=
  (prevReadings_foldl intervalNs x.sources {}).symm

theorem lookup_tick (intervalNs : Nat) (prev : Table String Nat) (x : Pass) (id : String) :
    (x.tick intervalNs prev).lookup id = ((x.reading id).bind (·.energyUj)).or (prev.lookup id) := by
  have hread : (x.reading id).bind (·.energyUj) = (x.sources.find? fun s => s.id == id).bind Source.energy := by
    rw [reading, Option.bind_assoc]
    rfl
  rw [hread, tick, readSources, prevReadings_foldl]
  obtain ⟨sources, hids, -⟩ := x
  induction sources generalizing prev with
  | nil => rfl
  | cons s sources ih =>
    rw [List.map_cons, List.nodup_cons] at hids
    rw [List.foldl_cons]
    by_cases h : s.id = id
    · subst h
      rw [lookup_foldl_of_notMem hids.1, lookup_storeEnergy_self, List.find?_cons_of_pos (by simp)]
      rfl
    · rw [ih _ hids.2, List.find?_cons_of_neg (by simpa using h), lookup_storeEnergy_of_ne h]

theorem map_rounds {β : Type} (f : Option Nat → Source → β) {sources : List Source} (hids : (sources.map (·.id)).Nodup)
    (prev : Table String Nat) :
    (rounds prev sources).map (fun x => f (x.1.lookup x.2.id) x.2) = sources.map fun s => f (prev.lookup s.id) s := by
  induction sources generalizing prev with
  | nil => rfl
  | cons s sources ih =>
    rw [List.map_cons, List.nodup_cons] at hids
    rw [rounds, List.map_cons, List.map_cons, ih hids.2]
    congr 1
    refine List.map_congr_left fun s' hs' => ?_
    have hne : s.id ≠ s'.id := fun h => hids.1 (h ▸ List.mem_map_of_mem hs')
    rw [lookup_storeEnergy_of_ne hne]

theorem power_eq (intervalNs : Nat) (prev : Table String Nat) (x : Pass) (id : String) {r : PowerReading}
    (hr : x.reading id = some r) : x.power intervalNs prev id = some (r.power (prev.lookup id) intervalNs) := by
  have hlines : (readSources intervalNs prev x.sources).allSourceReadings =
      x.sources.map fun s => lineOf intervalNs (prev.lookup s.id) s := by
    rw [readSources, allSourceReadings_foldl, map_rounds (lineOf intervalNs) x.ids]
    rfl
  obtain ⟨s, hs, hread⟩ := Option.bind_eq_some_iff.1 hr
  have hid : s.id = id := by simpa using List.find?_some hs
  have hzip : x.sources.zip (x.sources.map fun s => lineOf intervalNs (prev.lookup s.id) s) =
      x.sources.map fun s => (s, lineOf intervalNs (prev.lookup s.id) s) := by
    have h := List.zip_map' (f := fun s : Source => s) (g := fun s => lineOf intervalNs (prev.lookup s.id) s)
      (l := x.sources)
    rwa [List.map_id'] at h
  rw [power, hlines, hzip, List.find?_map]
  have hfind : (x.sources.find? ((fun l : Source × SourceLine => l.1.id == id) ∘ fun s =>
      (s, lineOf intervalNs (prev.lookup s.id) s))) = some s := hs
  have hok : s.read = .ok r := by
    cases h : s.read with
    | error e => rw [h] at hread; cases hread
    | ok r' => rw [h] at hread; exact congrArg _ (Option.some.inj hread)
  rw [hfind, Option.map_some, Option.map_some, lineOf, hok, hid]

end Pass

/-! ## Runs -/

/-- What the loop takes the difference of. -/
structure Difference where
  prev : Nat
  current : Nat
  maxEnergyUj : Nat
  deriving DecidableEq

namespace Difference

def delta (d : Difference) : Nat := energyDelta d.prev d.current d.maxEnergyUj

/-- No subtraction of the branch taken goes below zero. -/
def Safe (d : Difference) : Prop := d.current < d.prev → d.maxEnergyUj > 0 → d.prev ≤ d.maxEnergyUj

end Difference

/-- The difference taken for the source with an id, if its read succeeds. -/
def Pass.difference (prev : Table String Nat) (x : Pass) (id : String) : Option Difference :=
  (x.reading id).bind fun r => r.energyUj.map fun current =>
    ⟨(prev.lookup id).getD current, current, r.maxEnergyUj⟩

theorem Pass.power_of_difference {intervalNs : Nat} {prev : Table String Nat} {x : Pass} {id : String} {d : Difference}
    (h : x.difference prev id = some d) : x.power intervalNs prev id = some (energyToPower d.delta intervalNs) := by
  obtain ⟨r, hr, hd⟩ := Option.bind_eq_some_iff.1 h
  obtain ⟨current, hc, rfl⟩ := Option.map_eq_some_iff.1 hd
  rw [x.power_eq intervalNs prev id hr, PowerReading.power, hc]
  rfl

/-- The differences taken over a list of ticks. -/
def differences (intervalNs : Nat) (id : String) : Table String Nat → List Pass → List Difference
  | _, [] => []
  | prev, x :: xs => (x.difference prev id).toList ++ differences intervalNs id (x.tick intervalNs prev) xs

/-- The energy used up to a pass, if the source is read. -/
def Pass.seen (x : Pass) (id : String) : Option Nat := if x.succeeds id then some x.energy else none

/-- A run seen from one energy counter: the start-up read and the ticks. The
counter shows the energy modulo its range, or all of it if no range is known,
and does not lap between two successful reads. -/
structure EnergyRun where
  id : String
  maxEnergyUj : Nat
  start : Pass
  ticks : List Pass
  shows : ∀ x ∈ start :: ticks, ∀ r, x.reading id = some r →
    r.energyUj = some (x.energy % maxEnergyUj) ∧ r.maxEnergyUj = maxEnergyUj
  steps : ((start :: ticks).map (·.seen id)).reduceOption.IsChain fun a b =>
    a ≤ b ∧ (0 < maxEnergyUj → b < a + maxEnergyUj)
  rangeU64 : maxEnergyUj < 2 ^ 64
  energyU64 : ∀ x ∈ start :: ticks, x.energy % maxEnergyUj < 2 ^ 64

namespace EnergyRun

def passes (run : EnergyRun) : List Pass := run.start :: run.ticks

/-- The energies at the successful reads. -/
def energies (run : EnergyRun) : List Nat := (run.passes.map (·.seen run.id)).reduceOption

/-- The differences the loop takes for the source, in all ticks. -/
def taken (run : EnergyRun) (intervalNs : Nat) : List Difference :=
  differences intervalNs run.id (initialRead run.start.sources) run.ticks

end EnergyRun

section Counter
variable {id : String} {m : Nat} {x : Pass}

theorem energy_of_shows (h : ∀ r, x.reading id = some r → r.energyUj = some (x.energy % m) ∧ r.maxEnergyUj = m) :
    (x.reading id).bind (·.energyUj) = (x.seen id).map (· % m) := by
  rw [Pass.seen, Pass.succeeds]
  cases hr : x.reading id with
  | none => rfl
  | some r => simpa using (h r hr).1

theorem difference_of_shows (h : ∀ r, x.reading id = some r → r.energyUj = some (x.energy % m) ∧ r.maxEnergyUj = m)
    (prev : Table String Nat) :
    x.difference prev id = (x.seen id).map fun e => ⟨(prev.lookup id).getD (e % m), e % m, m⟩ := by
  rw [Pass.difference, Pass.seen, Pass.succeeds]
  cases hr : x.reading id with
  | none => rfl
  | some r =>
    obtain ⟨he, hm⟩ := h r hr
    simp [he, hm]

/-- The differences of a list of ticks are those of the readings that succeed. -/
theorem differences_eq (intervalNs : Nat) {xs : List Pass} (h : ∀ x ∈ xs, ∀ r, x.reading id = some r →
      r.energyUj = some (x.energy % m) ∧ r.maxEnergyUj = m) (prev : Table String Nat) :
    differences intervalNs id prev xs =
      (Meter.spans (prev.lookup id) ((xs.map (·.seen id)).map (Option.map (· % m)))).map fun p => ⟨p.1, p.2, m⟩ := by
  induction xs generalizing prev with
  | nil => rfl
  | cons x xs ih =>
    have hx := h x List.mem_cons_self
    rw [differences, ih fun y hy => h y (List.mem_cons_of_mem _ hy), difference_of_shows hx, Pass.lookup_tick,
      energy_of_shows hx, List.map_cons, List.map_cons]
    cases x.seen id <;> rfl

end Counter

/-! ## The deltas telescope -/

/-- Both branches get back how far the counter went. -/
theorem add_energyDelta {m a b : Nat} (hab : a ≤ b) (hlap : 0 < m → b < a + m) :
    a + energyDelta (a % m) (b % m) m = b := by
  unfold energyDelta
  rcases Nat.eq_zero_or_pos m with rfl | hm
  · rw [Nat.mod_zero, Nat.mod_zero, if_pos hab]
    omega
  · rcases Meter.wrap_cases hab (hlap hm) with ⟨hle, he⟩ | ⟨hlt, he⟩
    · rw [if_pos hle, he]
      omega
    · rw [if_neg (by omega), if_pos hm, he]
      omega

theorem lookup_initialRead (run : EnergyRun) :
    (initialRead run.start.sources).lookup run.id = (run.start.seen run.id).map (· % run.maxEnergyUj) := by
  rw [run.start.initialRead_eq 0, Pass.lookup_tick, energy_of_shows (run.shows _ List.mem_cons_self)]
  exact Option.or_none

theorem taken_eq (run : EnergyRun) (intervalNs : Nat) :
    run.taken intervalNs =
      (Meter.spans ((run.start.seen run.id).map (· % run.maxEnergyUj))
        ((run.ticks.map (·.seen run.id)).map (Option.map (· % run.maxEnergyUj)))).map
          fun p => ⟨p.1, p.2, run.maxEnergyUj⟩ := by
  rw [EnergyRun.taken, differences_eq _ fun x hx => run.shows x (List.mem_cons_of_mem _ hx), lookup_initialRead]

/-- In every run: the first energy read and the deltas taken since make up the
last one read, no subtraction underflows, and the collector computes the same
delta from two readings with these energies. -/
theorem energy_deltas_telescope (run : EnergyRun) (intervalNs : Nat) :
    run.energies.head?.getD 0 + ((run.taken intervalNs).map (·.delta)).sum = run.energies.getLast?.getD 0 ∧
    (∀ d ∈ run.taken intervalNs, d.Safe) ∧
    ∀ d ∈ run.taken intervalNs, ∀ current previous : Collector.PowerReading,
      current.energyUj = some d.current → previous.energyUj = some d.prev → current.maxEnergyUj = d.maxEnergyUj →
      Collector.computeEnergyDelta current previous = d.delta := by
  refine ⟨?_, fun d hd => ?_, fun d _ current previous hc hp hm => ?_⟩
  · rw [taken_eq, List.map_map]
    exact @Meter.sum_spans (· % run.maxEnergyUj) (fun p q => energyDelta p q run.maxEnergyUj) _
      (fun a => ⟨le_refl a, fun h => by omega⟩) (fun a b hab => add_energyDelta hab.1 hab.2) _ _ run.steps
  · rw [taken_eq] at hd
    obtain ⟨p, hp, rfl⟩ := List.mem_map.1 hd
    obtain ⟨a, b, rfl⟩ := Meter.mem_spans _ hp
    intro _ hpos
    exact (Nat.mod_lt a hpos).le
  · simp only [Collector.computeEnergyDelta, hc, hp, hm, Difference.delta, energyDelta]

/-! ## Power over the interval -/

/-- The energies known after the passes of a run so far. -/
def known (intervalNs : Nat) : List Pass → Table String Nat
  | [] => ∅
  | start :: ticks => ticks.foldl (fun prev x => x.tick intervalNs prev) (initialRead start.sources)

theorem known_append (intervalNs : Nat) (xs ys : List Pass) :
    known intervalNs (xs ++ ys) = ys.foldl (fun prev x => x.tick intervalNs prev) (known intervalNs xs) := by
  have h : ∀ zs, known intervalNs zs = zs.foldl (fun prev x => x.tick intervalNs prev) ∅ := by
    intro zs
    cases zs with
    | nil => rfl
    | cons z zs => rw [known, z.initialRead_eq intervalNs, List.foldl_cons]
  rw [h, h, List.foldl_append]

namespace EnergyRun

/-- A successful read `x` with the one before it, `a`, and the failed reads
between the two. -/
structure Successive (run : EnergyRun) (pre : List Pass) (a : Pass) (fails : List Pass) (x : Pass) : Prop where
  reads : pre ++ a :: (fails ++ [x]) <+: run.passes
  before : a.succeeds run.id = true
  between : ∀ y ∈ fails, y.succeeds run.id = false
  now : x.succeeds run.id = true

/-- Every power made of a successful read is the energy used since the last
one over the time since, where passes are `secs` seconds apart. -/
def PowerExact (run : EnergyRun) (secs : Nat) : Prop :=
  ∀ pre a fails x, run.Successive pre a fails x →
    x.power (secs * 1000000000) (known (secs * 1000000000) (pre ++ a :: fails)) run.id =
      some ((x.energy - a.energy) * 1000000000 / ((fails.length + 1) * (secs * 1000000000)))

/-- No read fails between two successful ones, unless so little energy is used
that the power rounds to zero. -/
def Prompt (run : EnergyRun) (secs : Nat) : Prop :=
  ∀ pre a fails x, run.Successive pre a fails x → fails = [] ∨ x.energy - a.energy < secs

variable {run : EnergyRun} {pre fails : List Pass} {a x : Pass}

theorem Successive.mem_passes (h : run.Successive pre a fails x) : a ∈ run.passes ∧ x ∈ run.passes := by
  constructor <;> refine h.reads.subset ?_ <;> simp

theorem Successive.step (h : run.Successive pre a fails x) :
    a.energy ≤ x.energy ∧ (0 < run.maxEnergyUj → x.energy < a.energy + run.maxEnergyUj) := by
  obtain ⟨post, hpost⟩ := h.reads
  have ha : a.seen run.id = some a.energy := if_pos h.before
  have hx : x.seen run.id = some x.energy := if_pos h.now
  have hfails : (fails.map (·.seen run.id)).reduceOption = [] := by
    rw [List.reduceOption, List.filterMap_eq_nil_iff]
    intro o ho
    obtain ⟨y, hy, rfl⟩ := List.mem_map.1 ho
    simp [Pass.seen, h.between y hy]
  have hchain := run.steps
  have hsplit : (run.start :: run.ticks) = pre ++ a :: (fails ++ x :: post) := by
    rw [← passes, ← hpost]
    simp
  rw [hsplit, List.map_append, List.reduceOption_append, List.map_cons, ha, List.reduceOption_cons_of_some,
    List.map_append, List.reduceOption_append, hfails, List.nil_append, List.map_cons, hx,
    List.reduceOption_cons_of_some] at hchain
  exact (List.isChain_append_cons_cons.1 hchain).2.1

/-- Failed reads leave the last energy in place. -/
theorem Successive.lookup_known (h : run.Successive pre a fails x) (intervalNs : Nat) :
    (known intervalNs (pre ++ a :: fails)).lookup run.id = some (a.energy % run.maxEnergyUj) := by
  have hfails : ∀ (ys : List Pass) (prev : Table String Nat), (∀ y ∈ ys, y.succeeds run.id = false) →
      (ys.foldl (fun prev x => x.tick intervalNs prev) prev).lookup run.id = prev.lookup run.id := by
    intro ys
    induction ys with
    | nil => exact fun _ _ => rfl
    | cons y ys ih =>
      intro prev hys
      have hnone : y.reading run.id = none := by simpa [Pass.succeeds] using hys y List.mem_cons_self
      rw [List.foldl_cons, ih _ fun z hz => hys z (List.mem_cons_of_mem _ hz), Pass.lookup_tick, hnone]
      rfl
  rw [known_append, List.foldl_cons, hfails fails _ h.between, Pass.lookup_tick,
    energy_of_shows (run.shows a h.mem_passes.1), Pass.seen, if_pos h.before]
  rfl

theorem Successive.energy_lt (h : run.Successive pre a fails x) : x.energy - a.energy < 2 ^ 64 := by
  obtain ⟨hle, hlap⟩ := h.step
  rcases Nat.eq_zero_or_pos run.maxEnergyUj with hm | hm
  · have hx := run.energyU64 x h.mem_passes.2
    rw [hm, Nat.mod_zero] at hx
    omega
  · have hlap := hlap hm
    have hrange := run.rangeU64
    omega

/-- The power the loop finds: the energy since the last successful read over
one interval. -/
theorem Successive.power_eq (h : run.Successive pre a fails x) (secs : Nat) (hs : 0 < secs) :
    x.power (secs * 1000000000) (known (secs * 1000000000) (pre ++ a :: fails)) run.id =
      some ((x.energy - a.energy) / secs) := by
  have hdiff := difference_of_shows (run.shows x h.mem_passes.2) (known (secs * 1000000000) (pre ++ a :: fails))
  rw [h.lookup_known, Pass.seen, if_pos h.now] at hdiff
  rw [Pass.power_of_difference hdiff]
  have hdelta := add_energyDelta h.step.1 h.step.2
  have hE : energyDelta (a.energy % run.maxEnergyUj) (x.energy % run.maxEnergyUj) run.maxEnergyUj =
      x.energy - a.energy := by omega
  have hlt : (x.energy - a.energy) / secs < 2 ^ 64 := (Nat.div_le_self _ _).trans_lt h.energy_lt
  have hdiv : (x.energy - a.energy) * 1000000000 / (secs * 1000000000) = (x.energy - a.energy) / secs :=
    Nat.mul_div_mul_right _ _ (by decide)
  simp only [Difference.delta, Option.getD_some, hE, energyToPower]
  rw [if_neg (by omega), hdiv, Nat.mod_eq_of_lt hlt]

end EnergyRun

/-- The powers are exact if and only if no read fails between two successful
ones, but for energies too small to make a power. -/
theorem power_exact_iff (run : EnergyRun) (secs : Nat) (hs : 0 < secs) :
    run.PowerExact secs ↔ run.Prompt secs := by
  refine forall₄_congr fun pre a fails x => forall_congr' fun h => ?_
  have hdiv : (x.energy - a.energy) * 1000000000 / ((fails.length + 1) * (secs * 1000000000)) =
      (x.energy - a.energy) / secs / (fails.length + 1) := by
    rw [← Nat.mul_assoc, Nat.mul_div_mul_right _ _ (by decide), Nat.mul_comm, Nat.div_div_eq_div_mul]
  rw [h.power_eq secs hs, hdiv, Option.some.injEq, eq_comm, Nat.div_eq_self, Nat.div_eq_zero_iff,
    Nat.add_eq_right, List.length_eq_zero_iff]
  constructor
  · rintro ((h0 | hlt) | hnil)
    · omega
    · exact .inr hlt
    · exact .inl hnil
  · rintro (hnil | hlt)
    · exact .inr hnil
    · exact .inl (.inr hlt)

/-- A pass over one package counter of range 1000, which may fail to be read. -/
def packagePass (energy : Nat) (ok : Bool) : Pass where
  sources := [⟨"rapl:package:0", "RAPL package (socket 0): package-0", .cpu, .socket 0, .estimated,
    if ok then .ok ⟨.estimated, some (energy % 1000), none, 1000⟩ else .error "read error"⟩]
  ids := List.nodup_singleton _
  energy := energy

theorem packagePass_shows (energy : Nat) (ok : Bool) (r : PowerReading)
    (h : (packagePass energy ok).reading "rapl:package:0" = some r) :
    r.energyUj = some ((packagePass energy ok).energy % 1000) ∧ r.maxEnergyUj = 1000 := by
  cases ok with
  | false => cases h
  | true =>
    obtain rfl := Option.some.inj h
    exact ⟨rfl, rfl⟩

/-- The counter wraps while a read fails. -/
def outageRun : EnergyRun where
  id := "rapl:package:0"
  maxEnergyUj := 1000
  start := packagePass 900 true
  ticks := [packagePass 1000 false, packagePass 1100 true]
  shows := by
    intro x hx
    simp only [List.mem_cons, List.not_mem_nil, or_false] at hx
    rcases hx with rfl | rfl | rfl <;> exact packagePass_shows _ _
  steps := by decide
  rangeU64 := by decide
  energyU64 := by decide

/-- Its one difference is taken over the wrap. -/
theorem outageRun_telescopes :
    outageRun.taken 10000000000 = [⟨900, 100, 1000⟩] ∧
    outageRun.energies.head?.getD 0 + ((outageRun.taken 10000000000).map (·.delta)).sum = 1100 := by
  have hlast : outageRun.energies.getLast?.getD 0 = 1100 := by decide
  refine ⟨by decide, ?_⟩
  rw [← hlast]
  exact (energy_deltas_telescope outageRun 10000000000).1

theorem outageRun_successive : outageRun.Successive [] (packagePass 900 true) [packagePass 1000 false]
    (packagePass 1100 true) where
  reads := List.prefix_rfl
  before := rfl
  between := by decide
  now := rfl

/-- The 200 microjoules of twenty seconds are reported as those of ten. -/
theorem outage_doubles_the_power :
    (packagePass 1100 true).power 10000000000 (known 10000000000 [packagePass 900 true, packagePass 1000 false])
      "rapl:package:0" = some 20 ∧
    ¬outageRun.PowerExact 10 := by
  refine ⟨outageRun_successive.power_eq 10 (by decide), fun h => ?_⟩
  have hexact := h _ _ _ _ outageRun_successive
  rw [outageRun_successive.power_eq 10 (by decide)] at hexact
  revert hexact
  decide

/-- The same counter with no read failing. -/
def steadyRun : EnergyRun where
  id := "rapl:package:0"
  maxEnergyUj := 1000
  start := packagePass 900 true
  ticks := [packagePass 1000 true, packagePass 1100 true]
  shows := by
    intro x hx
    simp only [List.mem_cons, List.not_mem_nil, or_false] at hx
    rcases hx with rfl | rfl | rfl <;> exact packagePass_shows _ _
  steps := by decide
  rangeU64 := by decide
  energyU64 := by decide

theorem steadyRun_prompt : steadyRun.Prompt 10 := by
  intro pre a fails x h
  left
  apply List.eq_nil_iff_forall_not_mem.2
  intro y hy
  have hall : ∀ z ∈ steadyRun.passes, z.succeeds steadyRun.id = true := by decide
  have hsucceeds := hall y (h.reads.subset (by simp [hy]))
  rw [h.between y hy] at hsucceeds
  cases hsucceeds

theorem steadyRun_exact : 0 < 10 ∧ steadyRun.PowerExact 10 :=
  ⟨by decide, (power_exact_iff steadyRun 10 (by decide)).2 steadyRun_prompt⟩

end Keck.Agent
