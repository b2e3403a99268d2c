import Keck.Lib.Sampling
import Keck.Agent.Sources
import Keck.Attribution.Engine
/-!
# The tiered collector

`HardwareCollector` from `keck-agent/src/hardware/collector.rs`. `tick` reads
the sources that are due and rotates their last two readings; `energy_input`
hands out the difference of those two. The clock and what each source's `read`
returns are inputs of `tick`. Ticks and requests are not coupled: a request
after several reads gets only the last difference, and one after no read gets
it again, so energy is handed over once only in paced runs
(`paced_runs_hand_over_once`, `two_reads_skip_energy`).
-/
namespace Keck.Agent.Collector

open Keck.Lib Keck.Lib.Sampling
open Keck.Attribution (EnergyInput)

/-! ## The collector -/

structure CollectorConfig where
  fastInterval : Nat := 100000000
  mediumInterval : Nat := 500000000
  slowInterval : Nat := 3000000000
  heartbeatInterval : Nat := 5000000000

inductive Tier where
  | fast
  | medium
  | slow
  deriving DecidableEq

/-- A reading with its time and what it is of. -/
structure PowerReading where
  timestamp : Nat
  component : Component
  granularity : Granularity
  energyUj : Option Nat
  powerUw : Option Nat
  maxEnergyUj : Nat

structure RegisteredSource where
  tier : Tier
  lastReading : Option PowerReading := none
  prevReading : Option PowerReading := none

structure Reconciliation where
  platformUw : Option Nat
  componentSumUw : Nat
  perComponent : Table Component Nat
  unaccountedUw : Int
  errorRatio : ℚ

structure HardwareCollector where
  sources : List RegisteredSource
  config : CollectorConfig
  lastHeartbeat : Nat
  lastFast : Nat
  lastMedium : Nat
  lastSlow : Nat
  lastReconciliation : Option Reconciliation
  numSockets : Nat

def classifyTier (config : CollectorConfig) (pollInterval : Nat) : Tier :=
  if pollInterval ≤ config.fastInterval then .fast
  else if pollInterval ≤ config.mediumInterval then .medium
  else .slow

/-- What a source's `read` returns. -/
abbrev Outcome := Except String PowerReading

/-- Read a source, rotating its readings, if the read succeeds. -/
def readSource (reg : RegisteredSource) (outcome : Outcome) : RegisteredSource :=
  match outcome with
  | .ok reading => { reg with prevReading := reg.lastReading, lastReading := some reading }
  | .error _ => reg

def computeEnergyDelta (current previous : PowerReading) : Nat :=
  match current.energyUj, previous.energyUj with
  | some curr, some prev =>
    if curr ≥ prev then curr - prev
    else if current.maxEnergyUj > 0 then (current.maxEnergyUj - prev) + curr
    else curr
  | none, none =>
    match current.powerUw, previous.powerUw with
    | some currPw, some _ => currPw * (current.timestamp - previous.timestamp) / 1000000000 % 2 ^ 64
    | _, _ => 0
  | _, _ => 0

namespace HardwareCollector

/-- A collector of sources with the given poll intervals, started at `now`. -/
def new (pollIntervals : List Nat) (config : CollectorConfig) (numSockets now : Nat) : HardwareCollector where
  sources := pollIntervals.map fun interval => { tier := classifyTier config interval }
  config := config
  lastHeartbeat := now
  lastFast := now
  lastMedium := now
  lastSlow := now
  lastReconciliation := none
  numSockets := numSockets

def readAll (c : HardwareCollector) (reads : Nat → Outcome) : HardwareCollector :=
  { c with sources := c.sources.mapIdx fun i reg => readSource reg (reads i) }

def readTier (c : HardwareCollector) (tier : Tier) (reads : Nat → Outcome) : HardwareCollector :=
  { c with sources := c.sources.mapIdx fun i reg => if reg.tier = tier then readSource reg (reads i) else reg }

/-- Whether reading a tier brings anything new. -/
def tierReads (c : HardwareCollector) (tier : Tier) (reads : Nat → Outcome) : Bool :=
  (c.sources.mapIdx fun i reg => decide (reg.tier = tier) && (reads i).isOk).any id

/-- A source's power, measured or from its last two readings. -/
def sourcePower (reg : RegisteredSource) : Option (Component × Nat) :=
  reg.lastReading.bind fun reading =>
    match reading.powerUw, reg.prevReading with
    | some pw, _ => some (reading.component, pw)
    | none, some prev =>
      let interval := reading.timestamp - prev.timestamp
      some (reading.component,
        if interval > 0 then computeEnergyDelta reading prev * 1000000000 / interval % 2 ^ 64 else 0)
    | none, none => none

def reconcile (c : HardwareCollector) : HardwareCollector :=
  let powers := c.sources.filterMap sourcePower
  let platformUw : Option Nat := ((powers.filter fun p => p.1 = .platform).map (·.2)).getLast?
  let perComponent : Table Component Nat :=
    groupFold (·.1) (fun _ => 0) (fun s p => s + p.2) (powers.filter fun p => p.1 ≠ .platform)
  let componentSum : Nat := perComponent.values.sum
  let unaccounted : Int := platformUw.elim 0 fun platform => platform - componentSum
  let errorRatio : ℚ := platformUw.elim 0 fun platform =>
    if platform > 0 then unaccounted.natAbs / platform else 0
  { c with lastReconciliation := some ⟨platformUw, componentSum, perComponent, unaccounted, errorRatio⟩ }

/-- Read the sources that are due; whether there is new data, and the collector. -/
def tick (c : HardwareCollector) (now : Nat) (reads : Nat → Outcome) : Bool × HardwareCollector :=
  if now - c.lastHeartbeat ≥ c.config.heartbeatInterval then
    (true,
      { (c.readAll reads).reconcile with
        lastHeartbeat := now, lastFast := now, lastMedium := now, lastSlow := now })
  else
    let fastDue := decide (now - c.lastFast ≥ c.config.fastInterval)
    let mediumDue := decide (now - c.lastMedium ≥ c.config.mediumInterval)
    let slowDue := decide (now - c.lastSlow ≥ c.config.slowInterval)
    let any := fastDue && c.tierReads .fast reads || mediumDue && c.tierReads .medium reads ||
      slowDue && c.tierReads .slow reads
    let c := if fastDue then { c.readTier .fast reads with lastFast := now } else c
    let c := if mediumDue then { c.readTier .medium reads with lastMedium := now } else c
    let c := if slowDue then { c.readTier .slow reads with lastSlow := now } else c
    (any, c)

/-- What one source adds to the energies of an interval. -/
def addSource (e : EnergyInput) (reg : RegisteredSource) : EnergyInput :=
  match reg.lastReading, reg.prevReading with
  | some current, some previous =>
    let delta := computeEnergyDelta current previous
    if delta = 0 then e
    else
      match current.component, current.granularity with
      | .cpu, .socket s => { e with socketEnergyUj := e.socketEnergyUj.set s delta }
      | .memory, .socket s => { e with dramEnergyUj := e.dramEnergyUj.set s delta }
      | .gpu, _ => { e with gpuEnergyUj := e.gpuEnergyUj ++ [delta] }
      | .platform, _ => { e with platformEnergyUj := some delta }
      | _, _ => e
  | _, _ => e

def energyInput (c : HardwareCollector) (intervalNs : Nat) : EnergyInput :=
  c.sources.foldl addSource
    { socketEnergyUj := List.replicate c.numSockets 0
      dramEnergyUj := List.replicate c.numSockets 0
      gpuEnergyUj := []
      platformEnergyUj := none
      intervalNs := intervalNs }

/-- Whether a tick reads the sources of a tier. -/
def due (c : HardwareCollector) (now : Nat) (tier : Tier) : Bool :=
  decide (now - c.lastHeartbeat ≥ c.config.heartbeatInterval) ||
    match tier with
    | .fast => decide (now - c.lastFast ≥ c.config.fastInterval)
    | .medium => decide (now - c.lastMedium ≥ c.config.mediumInterval)
    | .slow => decide (now - c.lastSlow ≥ c.config.slowInterval)

@[simp] theorem readSource_tier (reg : RegisteredSource) (outcome : Outcome) :
    (readSource reg outcome).tier = reg.tier := by
  unfold readSource
  split <;> rfl

/-- A tick reads each source at most once, when its tier is due. -/
theorem sources_tick (c : HardwareCollector) (now : Nat) (reads : Nat → Outcome) :
    (c.tick now reads).2.sources =
      c.sources.mapIdx fun i reg => if c.due now reg.tier then readSource reg (reads i) else reg := by
  unfold tick due
  by_cases hb : now - c.lastHeartbeat ≥ c.config.heartbeatInterval
  · simp only [if_pos hb, decide_eq_true hb, Bool.true_or, if_true]
    rfl
  · simp only [if_neg hb, decide_eq_false hb, Bool.false_or]
    generalize decide (now - c.lastFast ≥ c.config.fastInterval) = fast
    generalize decide (now - c.lastMedium ≥ c.config.mediumInterval) = medium
    generalize decide (now - c.lastSlow ≥ c.config.slowInterval) = slow
    apply List.ext_getElem?
    intro i
    -- Whichever tiers are due, a source has one tier, so one of the three reads it.
    cases fast <;> cases medium <;> cases slow <;> cases hs : c.sources[i]? with
    | none => simp [readTier, hs]
    | some reg =>
      obtain ⟨tier, last, prev⟩ := reg
      cases tier <;> simp [readTier, hs]

theorem numSockets_tick (c : HardwareCollector) (now : Nat) (reads : Nat → Outcome) :
    (c.tick now reads).2.numSockets = c.numSockets := by
  unfold tick
  split
  · rfl
  · simp only
    split <;> split <;> split <;> rfl

end HardwareCollector

open HardwareCollector

/-! ## What a request gets for one socket -/

/-- The reading is of socket `s`'s CPU energy. -/
def OfSocket (s : Nat) (r : PowerReading) : Prop := r.component = .cpu ∧ r.granularity = .socket s

/-- The difference of a source's last two readings. -/
def RegisteredSource.delta (reg : RegisteredSource) : Nat :=
  match reg.lastReading, reg.prevReading with
  | some current, some previous => computeEnergyDelta current previous
  | _, _ => 0

theorem addSource_other {s : Nat} {e : EnergyInput} {reg : RegisteredSource}
    (h : ∀ r, reg.lastReading = some r → ¬OfSocket s r) :
    (addSource e reg).socketEnergyUj[s]? = e.socketEnergyUj[s]? := by
  unfold addSource
  split
  · rename_i current previous hl hp
    simp only
    split
    · rfl
    · split
      · rename_i s' hcomp hgran
        have hne : s' ≠ s := by
          rintro rfl
          exact h current hl ⟨hcomp, hgran⟩
        exact List.getElem?_set_ne hne
      all_goals rfl
  · rfl

theorem addSource_own {s : Nat} {e : EnergyInput} {reg : RegisteredSource}
    (h : ∀ r, reg.lastReading = some r → OfSocket s r) (h0 : e.socketEnergyUj[s]? = some 0) :
    (addSource e reg).socketEnergyUj[s]? = some reg.delta := by
  obtain ⟨hlt, -⟩ := List.getElem?_eq_some_iff.1 h0
  unfold addSource RegisteredSource.delta
  split
  · rename_i current previous hl hp
    obtain ⟨hcomp, hgran⟩ := h current hl
    by_cases hd : computeEnergyDelta current previous = 0
    · simp only [hd, if_true]
      exact h0
    · simp only [if_neg hd, hcomp, hgran]
      exact List.getElem?_set_self hlt
  · exact h0

theorem foldl_addSource_other {s : Nat} {regs : List RegisteredSource} (e : EnergyInput)
    (h : ∀ reg ∈ regs, ∀ r, reg.lastReading = some r → ¬OfSocket s r) :
    (regs.foldl addSource e).socketEnergyUj[s]? = e.socketEnergyUj[s]? := by
  induction regs generalizing e with
  | nil => rfl
  | cons reg regs ih =>
    rw [List.foldl_cons, ih _ fun reg' hr => h reg' (List.mem_cons_of_mem reg hr)]
    exact addSource_other (h reg List.mem_cons_self)

/-- Source `i` holds readings of socket `s`, and no other source does. -/
structure Owns (i s : Nat) (c : HardwareCollector) (reg : RegisteredSource) : Prop where
  source : c.sources[i]? = some reg
  own : ∀ r, reg.lastReading = some r → OfSocket s r
  other : ∀ j reg', j ≠ i → c.sources[j]? = some reg' → ∀ r, reg'.lastReading = some r → ¬OfSocket s r
  socket : s < c.numSockets

theorem energyInput_socket {i s : Nat} {c : HardwareCollector} {reg : RegisteredSource} (h : Owns i s c reg)
    (intervalNs : Nat) : (c.energyInput intervalNs).socketEnergyUj[s]? = some reg.delta := by
  obtain ⟨hlt, hreg⟩ := List.getElem?_eq_some_iff.1 h.source
  have hsplit : c.sources = c.sources.take i ++ reg :: c.sources.drop (i + 1) := by
    rw [← hreg, ← List.drop_eq_getElem_cons hlt, List.take_append_drop]
  unfold energyInput
  rw [hsplit, List.foldl_append, List.foldl_cons, foldl_addSource_other]
  · apply addSource_own h.own
    rw [foldl_addSource_other]
    · exact List.getElem?_replicate_of_lt h.socket
    · intro reg' hr
      obtain ⟨j, hj, hget⟩ := List.getElem_of_mem hr
      rw [List.length_take] at hj
      refine h.other j reg' (by omega) ?_
      rw [← hget, List.getElem_take]
      exact List.getElem?_eq_getElem _
  · intro reg' hr
    obtain ⟨j, hj, hget⟩ := List.getElem_of_mem hr
    rw [List.length_drop] at hj
    refine h.other (i + 1 + j) reg' (by omega) ?_
    rw [← hget, List.getElem_drop]
    exact List.getElem?_eq_getElem _

/-! ## Runs -/

inductive Event where
  | tick (now : Nat) (reads : Nat → Outcome)
  | energyInput (intervalNs : Nat)

/-- The energy a tick successfully reads from source `i`. -/
def readValue (i : Nat) (c : HardwareCollector) (now : Nat) (reads : Nat → Outcome) : Option Nat :=
  c.sources[i]?.bind fun reg => if c.due now reg.tier then (reads i).toOption.bind (·.energyUj) else none

/-- The collector, and what is seen of source `i` and socket `s` from outside:
the readings taken and the energies handed out. -/
def watchStep (i s : Nat) (w : HardwareCollector × Sampler) : Event → HardwareCollector × Sampler
  | .tick now reads => ((w.1.tick now reads).2, (readValue i w.1 now reads).elim w.2 w.2.read)
  | .energyInput intervalNs => (w.1, w.2.call ((w.1.energyInput intervalNs).socketEnergyUj[s]?.getD 0))

def watch (i s : Nat) (c : HardwareCollector) (evs : List Event) : HardwareCollector × Sampler :=
  evs.foldl (watchStep i s) (c, {})

/-- Source `i`, and no other, reads socket `s`'s CPU energy counter. -/
def SocketCounter (i s : Nat) (evs : List Event) : Prop :=
  ∀ now reads, Event.tick now reads ∈ evs → ∀ j r, reads j = .ok r →
    (OfSocket s r ↔ j = i) ∧ (j = i → r.energyUj.isSome = true)

/-- The source's last two readings are the last two seen. -/
structure Linked (reg : RegisteredSource) (rs : List Nat) : Prop where
  last : reg.lastReading.map (·.energyUj) = rs.getLast?.map some
  prev : reg.prevReading.map (·.energyUj) = rs.dropLast.getLast?.map some

theorem linked_read {reg : RegisteredSource} {rs : List Nat} (h : Linked reg rs) {r : PowerReading} {v : Nat}
    (hv : r.energyUj = some v) : Linked (readSource reg (.ok r)) (rs ++ [v]) := by
  refine ⟨?_, ?_⟩
  · simp [readSource, hv]
  · simp [readSource, h.last]

theorem delta_of_linked {reg : RegisteredSource} {s : Sampler} (h : Linked reg s.readings)
    (hm : s.readings.Pairwise (· ≤ ·)) : reg.delta = s.delta := by
  obtain ⟨hl, hp⟩ := h
  unfold RegisteredSource.delta
  rcases List.eq_nil_or_concat' s.readings with hnil | ⟨ys, l, hys⟩
  · rw [hnil, List.getLast?_nil, Option.map_none, Option.map_eq_none_iff] at hl
    rw [hl, Sampler.delta_short (by rw [hnil]; simp)]
  rcases List.eq_nil_or_concat' ys with hnil | ⟨zs, p, hzs⟩
  · subst hnil
    rw [hys, List.dropLast_concat, List.getLast?_nil, Option.map_none, Option.map_eq_none_iff] at hp
    rw [hp, Sampler.delta_short (by rw [hys]; simp)]
    cases reg.lastReading <;> rfl
  · subst hzs
    rw [hys, List.getLast?_concat, Option.map_some, Option.map_eq_some_iff] at hl
    rw [hys, List.dropLast_concat, List.getLast?_concat, Option.map_some, Option.map_eq_some_iff] at hp
    obtain ⟨current, hcurrent, hc⟩ := hl
    obtain ⟨previous, hprevious, hq⟩ := hp
    have hle : p ≤ l := by
      rw [hys, List.pairwise_append] at hm
      exact hm.2.2 p (by simp) l (by simp)
    rw [hcurrent, hprevious, Sampler.delta_concat hys]
    simp only [computeEnergyDelta, hc, hq]
    exact if_pos hle

/-- What a run keeps. -/
structure Sound (i s : Nat) (w : HardwareCollector × Sampler) : Prop where
  source : ∃ reg, Owns i s w.1 reg ∧ Linked reg w.2.readings
  inv : w.2.Inv

/-- What a tick leaves in a source: an old reading, or one it has just read. -/
theorem lastReading_tick {c : HardwareCollector} {now j : Nat} {reads : Nat → Outcome} {reg : RegisteredSource}
    {r : PowerReading}
    (h : (if c.due now reg.tier then readSource reg (reads j) else reg).lastReading = some r) :
    reg.lastReading = some r ∨ reads j = .ok r := by
  split at h
  · unfold readSource at h
    split at h
    · rename_i reading hread
      right
      rw [hread, Option.some.inj h]
    · exact .inl h
  · exact .inl h

theorem sound_tick {i s : Nat} {w : HardwareCollector × Sampler} (h : Sound i s w) {now : Nat} {reads : Nat → Outcome}
    (hr : ∀ j r, reads j = .ok r → (OfSocket s r ↔ j = i) ∧ (j = i → r.energyUj.isSome = true)) :
    Sound i s (watchStep i s w (.tick now reads)) := by
  obtain ⟨c, t⟩ := w
  obtain ⟨⟨reg, howns, hlinked⟩, hinv⟩ := h
  have hget : ∀ j, (c.tick now reads).2.sources[j]? =
      c.sources[j]?.map fun reg => if c.due now reg.tier then readSource reg (reads j) else reg := by
    intro j
    rw [sources_tick, List.getElem?_mapIdx]
  have howns' : Owns i s (c.tick now reads).2 (if c.due now reg.tier then readSource reg (reads i) else reg) := by
    refine ⟨?_, ?_, ?_, ?_⟩
    · rw [hget, howns.source]
      rfl
    · intro r hlast
      rcases lastReading_tick hlast with hold | hnew
      · exact howns.own r hold
      · exact (hr i r hnew).1.2 rfl
    · intro j reg' hji hj r hlast
      rw [hget, Option.map_eq_some_iff] at hj
      obtain ⟨reg₀, hj, rfl⟩ := hj
      rcases lastReading_tick hlast with hold | hnew
      · exact howns.other j reg₀ hji hj r hold
      · exact fun hs => hji ((hr j r hnew).1.1 hs)
    · rw [numSockets_tick]
      exact howns.socket
  have hvalue : readValue i c now reads =
      if c.due now reg.tier then (reads i).toOption.bind (·.energyUj) else none := by
    unfold readValue
    rw [howns.source]
    rfl
  simp only [watchStep, hvalue]
  by_cases hdue : c.due now reg.tier = true
  · rw [if_pos hdue] at howns' ⊢
    cases hread : reads i with
    | error e =>
      rw [hread] at howns'
      exact ⟨⟨reg, howns', hlinked⟩, hinv⟩
    | ok r =>
      obtain ⟨v, hv⟩ := Option.isSome_iff_exists.1 ((hr i r hread).2 rfl)
      rw [hread] at howns'
      have hbind : (Except.toOption (.ok r : Outcome)).bind (·.energyUj) = some v := hv
      rw [hbind]
      exact ⟨⟨_, howns', linked_read hlinked hv⟩, Sampler.inv_read hinv v⟩
  · rw [if_neg hdue] at howns' ⊢
    exact ⟨⟨reg, howns', hlinked⟩, hinv⟩

theorem sound_energyInput {i s : Nat} {w : HardwareCollector × Sampler} (h : Sound i s w)
    (hm : w.2.readings.Pairwise (· ≤ ·)) (hp : w.2.Paced) (intervalNs : Nat) :
    Sound i s (watchStep i s w (.energyInput intervalNs)) := by
  obtain ⟨⟨reg, howns, hlinked⟩, hinv⟩ := h
  refine ⟨⟨reg, howns, hlinked⟩, ?_⟩
  simp only [watchStep]
  rw [energyInput_socket howns, Option.getD_some, delta_of_linked hlinked hm]
  exact Sampler.inv_call hinv hm hp

theorem sound_new {pollIntervals : List Nat} {i s numSockets : Nat} (hi : i < pollIntervals.length)
    (hs : s < numSockets) (config : CollectorConfig) (now : Nat) :
    Sound i s (HardwareCollector.new pollIntervals config numSockets now, {}) := by
  refine ⟨⟨{ tier := classifyTier config pollIntervals[i] }, ⟨?_, ?_, ?_, hs⟩, ⟨rfl, rfl⟩⟩, Sampler.inv_new⟩
  · exact (List.getElem?_map ..).trans (congrArg _ (List.getElem?_eq_getElem hi))
  · intro r hlast
    cases hlast
  · intro j reg' _ hj r hlast
    obtain ⟨interval, -, rfl⟩ := Option.map_eq_some_iff.1 ((List.getElem?_map ..).symm.trans hj)
    cases hlast

theorem readings_watchStep (i s : Nat) (w : HardwareCollector × Sampler) (e : Event) :
    w.2.readings <+: (watchStep i s w e).2.readings := by
  cases e with
  | tick now reads =>
    simp only [watchStep]
    cases readValue i w.1 now reads with
    | none => exact List.prefix_refl _
    | some v => exact List.prefix_append _ _
  | energyInput intervalNs => exact List.prefix_refl _

/-- In every run in which each request comes in time, the requests for a socket
get its counter's increase, every part of it once. -/
theorem paced_runs_hand_over_once {pollIntervals : List Nat} {i s numSockets : Nat} (hi : i < pollIntervals.length)
    (hs : s < numSockets) (config : CollectorConfig) (now : Nat) (evs : List Event) (hc : SocketCounter i s evs)
    (hm : (watch i s (.new pollIntervals config numSockets now) evs).2.readings.Pairwise (· ≤ ·))
    (hp : ∀ pre intervalNs post, evs = pre ++ Event.energyInput intervalNs :: post →
      (watch i s (.new pollIntervals config numSockets now) pre).2.Paced) :
    (watch i s (.new pollIntervals config numSockets now) evs).2.ExactlyOnce := by
  have main : Sound i s (watch i s (.new pollIntervals config numSockets now) evs) := by
    induction evs using List.reverseRecOn with
    | nil => exact sound_new hi hs config now
    | append_singleton evs e ih =>
      have hconcat : watch i s (.new pollIntervals config numSockets now) (evs ++ [e]) =
          watchStep i s (watch i s (.new pollIntervals config numSockets now) evs) e := by
        unfold watch
        rw [List.foldl_append]
        rfl
      rw [hconcat] at hm ⊢
      have hm' := hm.sublist (readings_watchStep i s _ e).sublist
      have hsound := ih (fun now reads he => hc now reads (List.mem_append_left _ he)) hm' (by
        intro pre intervalNs post he
        exact hp pre intervalNs (post ++ [e]) (by rw [he]; simp))
      cases e with
      | tick now' reads => exact sound_tick hsound (hc now' reads (by simp))
      | energyInput intervalNs => exact sound_energyInput hsound hm' (hp evs intervalNs [] rfl) intervalNs
  exact main.inv.once

/-- A tick that reads the energy counter of the only source, a package's RAPL. -/
def raplTick (now energyUj : Nat) : Event :=
  .tick now fun j =>
    if j = 0 then .ok ⟨now, .cpu, .socket 0, some energyUj, none, 262143328850⟩ else .error "no source"

theorem socketCounter_rapl {evs : List Event} (h : ∀ now reads, Event.tick now reads ∈ evs → ∃ t e,
    Event.tick now reads = raplTick t e) : SocketCounter 0 0 evs := by
  intro now reads he j r hr
  obtain ⟨t, e, hte⟩ := h now reads he
  obtain ⟨-, rfl⟩ := Event.tick.inj hte
  dsimp only at hr
  by_cases hj : j = 0
  · rw [if_pos hj] at hr
    cases hr
    exact ⟨⟨fun _ => hj, fun _ => ⟨rfl, rfl⟩⟩, fun _ => rfl⟩
  · rw [if_neg hj] at hr
    cases hr

/-- One read between the two requests. -/
def pacedLog : List Event :=
  [raplTick 100000000 1000, raplTick 200000000 1500, .energyInput 100000000,
   raplTick 300000000 1800, .energyInput 100000000]

theorem pacedLog_hands_over_once :
    (watch 0 0 (.new [100000000] {} 1 0) pacedLog).2 = ⟨[1000, 1500, 1800], some 2, some 3, 800⟩ ∧
      (watch 0 0 (.new [100000000] {} 1 0) pacedLog).2.ExactlyOnce := by
  have hrun : (watch 0 0 (.new [100000000] {} 1 0) pacedLog).2 = ⟨[1000, 1500, 1800], some 2, some 3, 800⟩ := by
    decide +kernel
  refine ⟨hrun, paced_runs_hand_over_once (by simp) (by simp) {} 0 pacedLog ?_ ?_ ?_⟩
  · apply socketCounter_rapl
    intro now reads h
    simp only [pacedLog, List.mem_cons, reduceCtorEq, List.not_mem_nil, or_false, false_or] at h
    rcases h with h | h | h
    · exact ⟨_, _, h⟩
    · exact ⟨_, _, h⟩
    · exact ⟨_, _, h⟩
  · rw [hrun]
    decide
  · intro pre intervalNs post h
    unfold pacedLog at h
    -- The requests stand third and fifth.
    rcases pre with _ | ⟨e₁, _ | ⟨e₂, _ | ⟨e₃, _ | ⟨e₄, _ | ⟨e₅, pre⟩⟩⟩⟩⟩
    · cases h
    · cases h
    · cases h
      exact .inl (by decide +kernel)
    · cases h
    · cases h
      exact .inr (.inr ⟨2, by decide +kernel, by decide +kernel⟩)
    · simp at h

/-- Two reads between the two requests, as with a fast tier of 100 ms and a
longer collection interval. -/
def skipLog : List Event :=
  [raplTick 100000000 1000, raplTick 200000000 1500, .energyInput 200000000,
   raplTick 300000000 1800, raplTick 400000000 2100, .energyInput 200000000]

/-- The counter rises by 1100 over the requests' windows, of which they get
800: what was used between the second and the third read is lost. -/
theorem two_reads_skip_energy :
    SocketCounter 0 0 skipLog ∧
      (watch 0 0 (.new [100000000] {} 1 0) skipLog).2 = ⟨[1000, 1500, 1800, 2100], some 2, some 4, 800⟩ ∧
      ¬(watch 0 0 (.new [100000000] {} 1 0) skipLog).2.ExactlyOnce := by
  have hrun : (watch 0 0 (.new [100000000] {} 1 0) skipLog).2 = ⟨[1000, 1500, 1800, 2100], some 2, some 4, 800⟩ := by
    decide +kernel
  refine ⟨?_, hrun, ?_⟩
  · apply socketCounter_rapl
    intro now reads h
    simp only [skipLog, List.mem_cons, reduceCtorEq, List.not_mem_nil, or_false, false_or] at h
    rcases h with h | h | h | h
    · exact ⟨_, _, h⟩
    · exact ⟨_, _, h⟩
    · exact ⟨_, _, h⟩
    · exact ⟨_, _, h⟩
  · rw [hrun]
    intro h
    have hbad := h 2 4 rfl rfl
    simp [nth] at hbad

end Keck.Agent.Collector
