import Keck.Agent.Discovery
import Keck.Agent.SourceOrder
/-!
# Which of the discovered sources count

All sources but RAPL measure, and measured readings beat estimated ones.
`selected_of_discovered`: a component has the power of the first other source
that shows any, and RAPL's only if there is none. hwmon sensors that nothing is
known of are taken for the CPU's, so any of them replaces RAPL.
`powercap_order`: RAPL packages are sorted by socket and RAPL DRAM domains are
not, so the order in which the kernel lists the zones may change a node's memory
power and never its CPU power.
-/
namespace Keck.Agent

open Keck.Lib Keck.Lib.Names

/-! ## What a source reads -/

def raplSources (m : Machine) : List PowerSource := (raplPackages m).map .rapl ++ (raplDrams m).map .rapl

def measuringSources (m : Machine) : List PowerSource :=
  (hwmonSensors m).map .hwmon ++ (dcgmGpus m).map .dcgm ++ (redfishSources m).map .redfish

theorem discoverSources_eq (m : Machine) : discoverSources m = raplSources m ++ measuringSources m := by
  simp only [discoverSources, raplSources, measuringSources, List.append_assoc]

/-- A source's readings are of the type it declares. -/
theorem readingType_of_read {w : Machine} {p : PowerSource} {r : PowerReading} (h : (p.source w).read = .ok r) :
    r.readingType = (p.source w).readingType := by
  cases p with
  | rapl s =>
    simp only [PowerSource.source, RaplSource.read] at h ⊢
    split at h <;> cases h
    rfl
  | hwmon s =>
    simp only [PowerSource.source, HwmonSource.read] at h ⊢
    repeat' split at h
    all_goals cases h
    all_goals rfl
  | dcgm s =>
    simp only [PowerSource.source, DcgmGpuSource.read] at h ⊢
    repeat' split at h
    all_goals cases h
    rfl
  | redfish s =>
    simp only [PowerSource.source, RedfishSource.read] at h ⊢
    split at h <;> cases h
    rfl

section Tick
variable (intervalNs : Nat) (prev : Table String Nat) (w : Machine)

/-- The power a source shows for a component, if it is any. -/
def powerOf (c : Component) (p : PowerSource) : Option Nat :=
  ((readingOf intervalNs prev (p.source w)).filter fun r => r.component = c).map (·.reading.powerUw)

/-- The powers that sources show for a component. -/
def powers (c : Component) (ps : List PowerSource) : List Nat := ps.filterMap (powerOf intervalNs prev w c)

theorem powers_append (c : Component) (ps qs : List PowerSource) :
    powers intervalNs prev w c (ps ++ qs) = powers intervalNs prev w c ps ++ powers intervalNs prev w c qs :=
  List.filterMap_append

/-- Their readings of the component. -/
def readingsOf (c : Component) (ps : List PowerSource) : List ComponentReading :=
  ofComponent c (ps.filterMap fun p => readingOf intervalNs prev (p.source w))

theorem readingsOf_append (c : Component) (ps qs : List PowerSource) :
    readingsOf intervalNs prev w c (ps ++ qs) =
      readingsOf intervalNs prev w c ps ++ readingsOf intervalNs prev w c qs := by
  simp only [readingsOf, ofComponent, List.filterMap_append, List.filter_append, List.map_append]

theorem powers_eq (c : Component) (ps : List PowerSource) :
    powers intervalNs prev w c ps = (readingsOf intervalNs prev w c ps).map (·.powerUw) := by
  unfold powers readingsOf ofComponent
  rw [List.filter_filterMap, List.map_filterMap, List.map_filterMap]
  refine List.filterMap_congr fun p _ => ?_
  rw [powerOf]
  simp only [Option.map_map]
  rfl

variable {intervalNs prev w}

theorem readingOf_some {s : Source} {r : DeviceReading} (h : readingOf intervalNs prev s = some r) :
    r.component = s.component ∧ ∃ pr, s.read = .ok pr ∧ r.reading.readingType = pr.readingType := by
  unfold readingOf at h
  cases hr : s.read with
  | error e => rw [hr] at h; cases h
  | ok pr =>
    simp only [hr, Option.ite_none_left_eq_some, Option.some.injEq] at h
    obtain ⟨-, rfl⟩ := h
    exact ⟨rfl, pr, rfl, rfl⟩

/-- The readings of sources of one type are of this type. -/
theorem readingType_of_mem {c : Component} {ps : List PowerSource} {t : ReadingType}
    (ht : ∀ p ∈ ps, (p.source w).readingType = t) {cr : ComponentReading}
    (h : cr ∈ readingsOf intervalNs prev w c ps) : cr.readingType = t := by
  obtain ⟨r, hr, rfl⟩ := List.mem_map.1 h
  obtain ⟨p, hp, hread⟩ := List.mem_filterMap.1 (List.mem_filter.1 hr).1
  obtain ⟨-, pr, hpr, htype⟩ := readingOf_some hread
  rw [htype, readingType_of_read hpr, ht p hp]

theorem powers_of_others {c : Component} {ps : List PowerSource} (h : ∀ p ∈ ps, (p.source w).component ≠ c) :
    powers intervalNs prev w c ps = [] := by
  refine List.filterMap_eq_nil_iff.2 fun p hp => ?_
  rw [powerOf, Option.map_eq_none_iff, Option.filter_eq_none_iff]
  intro r hr
  rw [(readingOf_some hr).1]
  simpa using h p hp

/-- The tick's choice, from the powers of all sources. -/
theorem selected_eq {ps : List PowerSource} (hid : (ps.map (·.id)).Nodup) (c : Component) :
    (readSources intervalNs prev (ps.map (·.source w))).selected c = chosen c (readingsOf intervalNs prev w c ps) := by
  have hid' : ((ps.map (·.source w)).map (·.id)).Nodup := by
    rw [List.map_map]
    simpa only [Function.comp_def, PowerSource.id_source] using hid
  rw [selected_eq_chosen, readings_eq_filterMap intervalNs hid', List.filterMap_map]
  rfl

end Tick

/-! ## The choice -/

/-- Measured readings come before estimated ones. -/
theorem chosen_of_types {c : Component} (hc : c ≠ .platform) {estimated measured : List ComponentReading}
    (he : ∀ cr ∈ estimated, cr.readingType = .estimated) (hm : ∀ cr ∈ measured, cr.readingType = .measured) :
    chosen c (estimated ++ measured) = ((measured ++ estimated).map (·.powerUw)).headD 0 := by
  have hmerit : ∀ cr, merit c cr = cr.readingType.rank := by
    intro cr
    cases c with
    | platform => exact absurd rfl hc
    | _ => rfl
  cases measured with
  | cons cr measured =>
    rw [List.forall_mem_cons] at hm
    refine chosen_append_cons (fun cr' h => ?_) fun cr' h => ?_
    · rw [hmerit, hmerit, he cr' h, hm.1]
      decide
    · rw [hmerit, hmerit, hm.2 cr' h, hm.1]
  | nil =>
    rw [List.append_nil, List.nil_append]
    cases estimated with
    | nil => rfl
    | cons cr estimated =>
      rw [List.forall_mem_cons] at he
      refine chosen_append_cons (List.forall_mem_nil _) fun cr' h => ?_
      rw [hmerit, hmerit, he.2 cr' h, he.1]

/-- The platform has the highest reading. -/
theorem chosen_platform (crs : List ComponentReading) : chosen .platform crs = (crs.map (·.powerUw)).foldr max 0 := by
  rcases chosen_cases .platform crs with ⟨rfl, h⟩ | ⟨cr, hcr, hmax, h⟩
  · rw [h]
    rfl
  · rw [h]
    refine le_antisymm (List.le_max_of_le (List.mem_map_of_mem hcr) le_rfl) (List.max_le_of_forall_le _ _ ?_)
    intro p hp
    obtain ⟨cr', hcr', rfl⟩ := List.mem_map.1 hp
    exact hmax cr' hcr'

section Discovered
variable (m w : Machine)

theorem readingType_raplSources : ∀ p ∈ raplSources m, (p.source w).readingType = .estimated := by
  intro p hp
  rcases List.mem_append.1 hp with hp | hp
  all_goals
    obtain ⟨s, -, rfl⟩ := List.mem_map.1 hp
    rfl

theorem readingType_measuringSources : ∀ p ∈ measuringSources m, (p.source w).readingType = .measured := by
  intro p hp
  simp only [measuringSources, List.mem_append] at hp
  rcases hp with (hp | hp) | hp
  all_goals
    obtain ⟨s, -, rfl⟩ := List.mem_map.1 hp
    rfl

/-- What a tick selects from the sources discovered on `m`, when they read `w`. -/
def selectedOn (intervalNs : Nat) (prev : Table String Nat) (c : Component) : Nat :=
  (readSources intervalNs prev ((discoverSources m).map (·.source w))).selected c

variable {m w} {intervalNs : Nat} {prev : Table String Nat}

theorem selectedOn_eq (hid : ((discoverSources m).map (·.id)).Nodup) {c : Component} (hc : c ≠ .platform) :
    selectedOn m w intervalNs prev c =
      (powers intervalNs prev w c (measuringSources m) ++ powers intervalNs prev w c (raplSources m)).headD 0 := by
  have happend : readingsOf intervalNs prev w c (discoverSources m) =
      readingsOf intervalNs prev w c (raplSources m) ++ readingsOf intervalNs prev w c (measuringSources m) := by
    rw [discoverSources_eq, readingsOf_append]
  rw [selectedOn, selected_eq hid, happend, powers_eq, powers_eq, ← List.map_append]
  exact chosen_of_types hc (fun _ => readingType_of_mem (readingType_raplSources m w))
    fun _ => readingType_of_mem (readingType_measuringSources m w)

/-- One hwmon sensor that shows power for a component keeps all other kinds of
sources out, RAPL among them. For the CPU it need not be a CPU's
(`classifyComponent_eq_cpu_iff`). -/
theorem selectedOn_of_sensor (hid : ((discoverSources m).map (·.id)).Nodup) {c : Component} (hc : c ≠ .platform)
    {s : HwmonSource} (hs : s ∈ hwmonSensors m) {power : Nat}
    (hp : powerOf intervalNs prev w c (.hwmon s) = some power) :
    selectedOn m w intervalNs prev c ∈ powers intervalNs prev w c ((hwmonSensors m).map .hwmon) := by
  have hmem : power ∈ powers intervalNs prev w c ((hwmonSensors m).map .hwmon) :=
    List.mem_filterMap.2 ⟨.hwmon s, List.mem_map_of_mem hs, hp⟩
  rw [selectedOn_eq hid hc, measuringSources, List.append_assoc, powers_append, List.append_assoc]
  cases hsensors : powers intervalNs prev w c ((hwmonSensors m).map .hwmon) with
  | nil => rw [hsensors] at hmem; cases hmem
  | cons x xs => exact List.mem_cons_self

end Discovered

/-- For every machine whose sources have ids of their own, and whatever they
read later: a component other than the platform has the power of the first
hwmon sensor, GPU or Redfish source of the component that shows any, and if
there is none that of the first RAPL source; the platform has the highest. -/
theorem selected_of_discovered (m w : Machine) (intervalNs : Nat) (prev : Table String Nat)
    (hid : ((discoverSources m).map (·.id)).Nodup) :
    (∀ c, c ≠ .platform → selectedOn m w intervalNs prev c =
      (powers intervalNs prev w c (measuringSources m) ++ powers intervalNs prev w c (raplSources m)).headD 0) ∧
    selectedOn m w intervalNs prev .platform =
      (powers intervalNs prev w .platform (discoverSources m)).foldr max 0 := by
  refine ⟨fun c hc => selectedOn_eq hid hc, ?_⟩
  rw [selectedOn, selected_eq hid, chosen_platform, powers_eq]

/-- Nothing used a second before. -/
def twoSocketStart : Table String Nat :=
  ["rapl:package:0", "rapl:package:1", "rapl:dram:0", "rapl:dram:1"].foldl (fun t id => t.insert id 0) ∅

/-- The input of a power supply is taken for the power of the CPU, and RAPL's
two packages are not looked at. -/
theorem selected_of_discovered_twoSocketServer :
    powers 1000000000 twoSocketStart twoSocketServer .cpu (raplSources twoSocketServer) = [70, 50] ∧
    selectedOn twoSocketServer twoSocketServer 1000000000 twoSocketStart .cpu = 300 := by
  refine ⟨by decide +kernel, ?_⟩
  rw [(selected_of_discovered twoSocketServer twoSocketServer 1000000000 twoSocketStart (by decide +kernel)).1 .cpu
    (by decide)]
  decide +kernel

/-! ## The order of the RAPL zones -/

/-- The first value found in a list does not depend on the order of the list
exactly if all that can be found are equal. -/
theorem headD_filterMap_perm_iff {α β : Type} (f : α → Option β) (d : β) (l : List α) :
    (∀ l' : List α, l'.Perm l → (l'.filterMap f).headD d = (l.filterMap f).headD d) ↔
      ∀ x ∈ l.filterMap f, ∀ y ∈ l.filterMap f, x = y := by
  constructor
  · intro h
    -- Each value is the first one in some order.
    have hfirst : ∀ x ∈ l.filterMap f, x = (l.filterMap f).headD d := by
      intro x hx
      obtain ⟨a, ha, hfa⟩ := List.mem_filterMap.1 hx
      obtain ⟨front, back, rfl⟩ := List.append_of_mem ha
      have hp : (a :: (front ++ back)).Perm (front ++ a :: back) := List.perm_middle.symm
      rw [← h _ hp, List.filterMap_cons_some hfa, List.headD_cons]
    intro x hx y hy
    rw [hfirst x hx, hfirst y hy]
  · intro h l' hp
    have hp' := hp.filterMap f
    cases h' : l'.filterMap f with
    | nil => rw [h', List.nil_perm] at hp'; rw [hp']
    | cons x xs =>
      cases hl : l.filterMap f with
      | nil => rw [h', hl] at hp'; cases hp'.eq_nil
      | cons y ys =>
        rw [h', hl] at hp'
        rw [hl] at h
        exact h x (hp'.subset List.mem_cons_self) y List.mem_cons_self

/-- The machine, with its RAPL zones listed in this order. -/
def Machine.relisted (m : Machine) (names : List String) : Machine := { m with powercap := .listed names }

theorem searchReports_relisted (m : Machine) (names : List String) (bmc : Bmc) (metricId : String)
    (members : List Json) :
    searchReports (m.relisted names) bmc metricId members = searchReports m bmc metricId members := by
  have hget : bmc.get (m.relisted names) = bmc.get m := rfl
  induction members with
  | nil => rfl
  | cons member members ih => simp only [searchReports, hget, ih]

theorem tryTelemetryMetric_relisted (m : Machine) (names : List String) (bmc : Bmc) (metricId : String)
    (c : Component) (display : String) :
    tryTelemetryMetric (m.relisted names) bmc metricId c display = tryTelemetryMetric m bmc metricId c display := by
  have hread : readMetricFromReports (m.relisted names) bmc metricId = readMetricFromReports m bmc metricId := by
    have hget : bmc.get (m.relisted names) = bmc.get m := rfl
    simp only [readMetricFromReports, hget, searchReports_relisted]
  unfold tryTelemetryMetric
  rw [hread]
  rfl

/-- The other sources do not depend on the RAPL zones. -/
theorem measuringSources_relisted (m : Machine) (names : List String) :
    measuringSources (m.relisted names) = measuringSources m := by
  have hprobe : ∀ bmc, probeBmc (m.relisted names) bmc = probeBmc m bmc := by
    intro bmc
    unfold probeBmc
    simp only [tryTelemetryMetric_relisted]
    rfl
  have hredfish : redfishSources (m.relisted names) = redfishSources m := by
    unfold redfishSources Platform.discover
    simp only [hprobe]
    rfl
  unfold measuringSources
  rw [hredfish]
  rfl

theorem raplPackages_relisted (m : Machine) (names : List String) :
    raplPackages (m.relisted names) = sortBySocket (names.filterMap (packageOf m)) := raplPackages_eq _

theorem raplDrams_relisted (m : Machine) (names : List String) :
    raplDrams (m.relisted names) = names.filterMap (dramOf m) := raplDrams_eq _

/-- Packages with ids of their own are of different sockets. -/
theorem nodup_sockets {m : Machine} (hid : ((discoverSources m).map (·.id)).Nodup) :
    ((raplPackages m).map (·.socket)).Nodup := by
  refine (nodup_numbered_iff fun _ h => (of_mem_raplPackages h).2).1 ?_
  rw [ids_discoverSources] at hid
  exact (nodup_flatMap_iff_of_key (nodup_idKinds m) idKind_of_mem).1 hid _ List.mem_cons_self

section Zones
variable {m : Machine} {names names' : List String} (hm : m.powercap = .listed names)
include hm

theorem relisted_self : m.relisted names = m := by
  rw [Machine.relisted, ← hm]

/-- Packages of sockets of their own are found in one order, however the zones
are listed. -/
theorem raplPackages_perm (hp : names'.Perm names) (hsockets : ((raplPackages m).map (·.socket)).Nodup) :
    raplPackages (m.relisted names') = raplPackages m := by
  have hsorted : raplPackages m = sortBySocket (names.filterMap (packageOf m)) := by
    rw [← raplPackages_relisted, relisted_self hm]
  have hperm : (raplPackages (m.relisted names')).Perm (raplPackages m) := by
    rw [raplPackages_relisted, hsorted]
    exact (List.perm_insertionSort _ _).trans ((hp.filterMap _).trans (List.perm_insertionSort _ _).symm)
  have : Std.Total fun a b : RaplSource => a.socket ≤ b.socket := ⟨fun a b => Nat.le_total a.socket b.socket⟩
  have : IsTrans RaplSource fun a b => a.socket ≤ b.socket := ⟨fun _ _ _ h h' => Nat.le_trans h h'⟩
  rw [raplPackages_relisted, hsorted] at hperm ⊢
  rw [hsorted] at hsockets
  refine List.Perm.eq_of_pairwise (fun a b ha hb hab hba => ?_) (List.pairwise_insertionSort _ _)
    (List.pairwise_insertionSort _ _) hperm
  exact List.inj_on_of_nodup_map hsockets (hperm.subset ha) hb (le_antisymm hab hba)

theorem raplDrams_perm (hp : names'.Perm names) : (raplDrams (m.relisted names')).Perm (raplDrams m) := by
  have hlisted : raplDrams m = names.filterMap (dramOf m) := by rw [← raplDrams_relisted, relisted_self hm]
  rw [raplDrams_relisted, hlisted]
  exact hp.filterMap _

theorem discoverSources_perm (hp : names'.Perm names) (hsockets : ((raplPackages m).map (·.socket)).Nodup) :
    (discoverSources (m.relisted names')).Perm (discoverSources m) := by
  rw [discoverSources_eq, discoverSources_eq, measuringSources_relisted, raplSources, raplSources,
    raplPackages_perm hm hp hsockets]
  exact (((raplDrams_perm hm hp).map _).append_left _).append_right _

variable (hid : ((discoverSources m).map (·.id)).Nodup)
include hid

theorem nodup_relisted (hp : names'.Perm names) : ((discoverSources (m.relisted names')).map (·.id)).Nodup :=
  ((discoverSources_perm hm hp (nodup_sockets hid)).map _).nodup_iff.2 hid

end Zones

section Powers
variable (intervalNs : Nat) (prev : Table String Nat) (w m : Machine)

/-- RAPL's CPU power is that of the packages. -/
theorem powers_cpu_raplSources :
    powers intervalNs prev w .cpu (raplSources m) = powers intervalNs prev w .cpu ((raplPackages m).map .rapl) := by
  have hdrams : powers intervalNs prev w .cpu ((raplDrams m).map .rapl) = [] := by
    refine powers_of_others fun p hp => ?_
    obtain ⟨s, hs, rfl⟩ := List.mem_map.1 hp
    simp [PowerSource.source, (of_mem_raplDrams hs).1]
  rw [raplSources, powers_append, hdrams, List.append_nil]

/-- RAPL's memory power is that of the DRAM domains. -/
theorem powers_memory_raplSources :
    powers intervalNs prev w .memory (raplSources m) = powers intervalNs prev w .memory ((raplDrams m).map .rapl) := by
  have hpackages : powers intervalNs prev w .memory ((raplPackages m).map .rapl) = [] := by
    refine powers_of_others fun p hp => ?_
    obtain ⟨s, hs, rfl⟩ := List.mem_map.1 hp
    simp [PowerSource.source, (of_mem_raplPackages hs).1]
  rw [raplSources, powers_append, hpackages, List.nil_append]

/-- The power a zone shows as a DRAM domain. -/
def dramPower (name : String) : Option Nat :=
  (dramOf m name).bind fun s => powerOf intervalNs prev w .memory (.rapl s)

theorem powers_drams (names : List String) :
    powers intervalNs prev w .memory ((names.filterMap (dramOf m)).map .rapl) =
      names.filterMap (dramPower intervalNs prev w m) := by
  rw [powers, List.filterMap_map, List.filterMap_filterMap]
  rfl

variable {m}

/-- The memory power, however the zones are listed. -/
theorem selectedOn_memory_relisted {names names' : List String} (hm : m.powercap = .listed names)
    (hid : ((discoverSources m).map (·.id)).Nodup) (hp : names'.Perm names) :
    selectedOn (m.relisted names') w intervalNs prev .memory =
      (powers intervalNs prev w .memory (measuringSources m) ++
        names'.filterMap (dramPower intervalNs prev w m)).headD 0 := by
  rw [selectedOn_eq (nodup_relisted hm hid hp) (by decide), measuringSources_relisted, powers_memory_raplSources,
    raplDrams_relisted, powers_drams]

end Powers

/-- For every machine whose sources have ids of their own, and whatever they
read later: the order in which the RAPL zones are listed does not change the
node's CPU power; it does not change its memory power either exactly if another
memory source shows any power, or all DRAM domains that show power show the
same. -/
theorem powercap_order (m w : Machine) (intervalNs : Nat) (prev : Table String Nat) (names : List String)
    (hm : m.powercap = .listed names) (hid : ((discoverSources m).map (·.id)).Nodup) :
    (∀ names', names'.Perm names →
      selectedOn (m.relisted names') w intervalNs prev .cpu = selectedOn m w intervalNs prev .cpu) ∧
    ((∀ names', names'.Perm names →
        selectedOn (m.relisted names') w intervalNs prev .memory = selectedOn m w intervalNs prev .memory) ↔
      powers intervalNs prev w .memory (measuringSources m) ≠ [] ∨
        ∀ p ∈ names.filterMap (dramPower intervalNs prev w m), ∀ q ∈ names.filterMap (dramPower intervalNs prev w m),
          p = q) := by
  constructor
  · intro names' hp
    rw [selectedOn_eq (nodup_relisted hm hid hp) (by decide), selectedOn_eq hid (by decide), measuringSources_relisted,
      powers_cpu_raplSources, powers_cpu_raplSources, raplPackages_perm hm hp (nodup_sockets hid)]
  · have hmemory : ∀ names', names'.Perm names → selectedOn (m.relisted names') w intervalNs prev .memory =
        (powers intervalNs prev w .memory (measuringSources m) ++
          names'.filterMap (dramPower intervalNs prev w m)).headD 0 :=
      fun names' hp => selectedOn_memory_relisted intervalNs prev w hm hid hp
    have hself := hmemory names (.refl names)
    rw [relisted_self hm] at hself
    rw [hself]
    cases hpowers : powers intervalNs prev w .memory (measuringSources m) with
    | cons p ps =>
      refine ⟨fun _ => .inl (by simp), fun _ names' hp => ?_⟩
      rw [hmemory names' hp, hpowers]
      rfl
    | nil =>
      rw [← headD_filterMap_perm_iff (dramPower intervalNs prev w m) 0 names]
      constructor
      · intro h
        refine .inr fun names' hp => ?_
        have := h names' hp
        rwa [hmemory names' hp, hpowers] at this
      · rintro (h | h) names' hp
        · exact absurd rfl h
        · rw [hmemory names' hp, hpowers]
          exact h names' hp

/-- The two DRAM domains show different powers, so their order matters. -/
theorem powercap_order_twoSocketServer :
    (["intel-rapl:1", "intel-rapl:1:0", "intel-rapl:0", "intel-rapl:0:0"].filterMap
      (dramPower 1000000000 twoSocketStart twoSocketServer twoSocketServer)) = [10, 20] ∧
    ¬∀ names', names'.Perm ["intel-rapl:1", "intel-rapl:1:0", "intel-rapl:0", "intel-rapl:0:0"] →
      selectedOn (twoSocketServer.relisted names') twoSocketServer 1000000000 twoSocketStart .memory =
        selectedOn twoSocketServer twoSocketServer 1000000000 twoSocketStart .memory := by
  have hdrams : (["intel-rapl:1", "intel-rapl:1:0", "intel-rapl:0", "intel-rapl:0:0"].filterMap
      (dramPower 1000000000 twoSocketStart twoSocketServer twoSocketServer)) = [10, 20] := by decide +kernel
  refine ⟨hdrams, ?_⟩
  rw [(powercap_order twoSocketServer twoSocketServer 1000000000 twoSocketStart _ rfl (by decide +kernel)).2, hdrams]
  have hothers : powers 1000000000 twoSocketStart twoSocketServer .memory (measuringSources twoSocketServer) = [] := by
    decide +kernel
  rw [hothers]
  simp

end Keck.Agent
