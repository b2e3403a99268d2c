import Keck.Lib.Names
import Keck.Agent.Hardware
/-!
# The ids of the discovered sources

The loop keeps the last energy of a source under its id. `source_ids_distinct_iff`
says when every source that `discover_sources` finds has an id of its own.
-/
namespace Keck.Agent

open Keck.Lib Keck.Lib.Names Keck.Lib.Text

def PowerSource.id : PowerSource → String
  | rapl s => s.id
  | hwmon s => s.id
  | dcgm s => s.id
  | redfish s => s.id

theorem PowerSource.id_source (w : Machine) (p : PowerSource) : (p.source w).id = p.id := by
  cases p <;> rfl

/-! ## Ids of each kind -/

/-- It makes no difference to the list of all sources that finding none is an
error. -/
theorem found_of_ite {α : Type} {l : List α} {f : List α → List α} (hf : f [] = []) (e : SourceError) :
    (if l.isEmpty then .error e else .ok (f l) : Except SourceError (List α)).toOption.getD [] = f l := by
  cases l with
  | nil => exact hf.symm
  | cons a l => rfl

/-- A package is CPU power, and its id is the socket's. -/
theorem packageOf_some {m : Machine} {name : String} {s : RaplSource} (h : packageOf m name = some s) :
    s.component = .cpu ∧ s.id = "rapl:package:" ++ toString s.socket := by
  obtain ⟨socket, -, h⟩ := Option.bind_eq_some_iff.1 h
  simp only [Option.ite_none_right_eq_some, Option.some.injEq] at h
  obtain ⟨-, rfl⟩ := h
  exact ⟨rfl, rfl⟩

/-- A DRAM domain is memory power, and its id is the socket's. -/
theorem dramOf_some {m : Machine} {name : String} {s : RaplSource} (h : dramOf m name = some s) :
    s.component = .memory ∧ s.id = "rapl:dram:" ++ toString s.socket := by
  obtain ⟨socket, -, h⟩ := Option.bind_eq_some_iff.1 h
  simp only [Option.ite_none_right_eq_some, Option.some.injEq] at h
  obtain ⟨-, rfl⟩ := h
  exact ⟨rfl, rfl⟩

/-- The names of the RAPL zones. -/
def zoneNames (m : Machine) : List String :=
  match m.powercap with
  | .listed names => names
  | _ => []

theorem raplPackages_eq (m : Machine) : raplPackages m = sortBySocket ((zoneNames m).filterMap (packageOf m)) := by
  unfold raplPackages Rapl.discover zoneNames
  cases m.powercap with
  | missing => rfl
  | unreadable e => rfl
  | listed names => exact found_of_ite rfl _

theorem raplDrams_eq (m : Machine) : raplDrams m = (zoneNames m).filterMap (dramOf m) := by
  unfold raplDrams Rapl.discoverDram zoneNames
  cases m.powercap with
  | missing => rfl
  | unreadable e => rfl
  | listed names => exact found_of_ite (f := id) rfl _

theorem of_mem_raplPackages {m : Machine} {s : RaplSource} (h : s ∈ raplPackages m) :
    s.component = .cpu ∧ s.id = "rapl:package:" ++ toString s.socket := by
  rw [raplPackages_eq] at h
  obtain ⟨name, -, hname⟩ := List.mem_filterMap.1 ((List.mem_insertionSort _).1 h)
  exact packageOf_some hname

theorem of_mem_raplDrams {m : Machine} {s : RaplSource} (h : s ∈ raplDrams m) :
    s.component = .memory ∧ s.id = "rapl:dram:" ++ toString s.socket := by
  rw [raplDrams_eq] at h
  obtain ⟨name, -, hname⟩ := List.mem_filterMap.1 h
  exact dramOf_some hname

theorem id_scanGpu {hostname url : String} {scan : GpuScan}
    (h : ∀ s ∈ scan.sources, s.id = "dcgm:gpu:" ++ toString s.deviceIndex) (line : List Char) :
    ∀ s ∈ (scanGpu hostname url scan line).sources, s.id = "dcgm:gpu:" ++ toString s.deviceIndex := by
  unfold scanGpu
  split
  · exact h
  · split
    · exact h
    · dsimp only
      split
      · exact h
      · intro s hs
        rcases List.mem_append.1 hs with hs | hs
        · exact h s hs
        · rw [List.mem_singleton.1 hs]

theorem id_scan (hostname url : String) (ls : List (List Char)) (scan : GpuScan)
    (h : ∀ s ∈ scan.sources, s.id = "dcgm:gpu:" ++ toString s.deviceIndex) :
    ∀ s ∈ (ls.foldl (scanGpu hostname url) scan).sources, s.id = "dcgm:gpu:" ++ toString s.deviceIndex := by
  induction ls generalizing scan with
  | nil => exact h
  | cons line ls ih => exact ih _ (id_scanGpu h line)

theorem of_mem_dcgmGpus {m : Machine} {s : DcgmGpuSource} (h : s ∈ dcgmGpus m) :
    s.id = "dcgm:gpu:" ++ toString s.deviceIndex := by
  have hall : ∀ sources, Gpu.discover m = .ok sources →
      ∀ s ∈ sources, s.id = "dcgm:gpu:" ++ toString s.deviceIndex := by
    intro sources hd
    unfold Gpu.discover at hd
    dsimp only at hd
    repeat' split at hd
    all_goals cases hd
    exact id_scan _ _ _ _ (by simp)
  unfold dcgmGpus at h
  cases hd : Gpu.discover m with
  | error e => rw [hd] at h; cases h
  | ok sources => rw [hd] at h; exact hall sources hd s h

/-- The sensors a chip can have. -/
def sensorSlots : List String :=
  (List.range' 1 16).map (fun n => "power" ++ toString n) ++ (List.range' 1 16).map (fun n => "energy" ++ toString n)

theorem nodup_sensorSlots : sensorSlots.Nodup := by decide

def hwmonId (hwmonName chipName slot : String) : String := "hwmon:" ++ hwmonName ++ ":" ++ slot ++ ":" ++ chipName

theorem id_powerSensor {m : Machine} {path hwmonName chipName : String} {n : Nat} {s : HwmonSource}
    (h : powerSensor m path hwmonName chipName n = some s) :
    s.id = hwmonId hwmonName chipName ("power" ++ toString n) := by
  unfold powerSensor at h
  dsimp only at h
  split at h
  · cases h
  · split at h <;> cases h
    rfl

theorem id_energySensor {m : Machine} {path hwmonName chipName : String} {n : Nat} {s : HwmonSource}
    (h : energySensor m path hwmonName chipName n = some s) :
    s.id = hwmonId hwmonName chipName ("energy" ++ toString n) := by
  unfold energySensor at h
  dsimp only at h
  split at h <;> cases h
  rfl

theorem ids_sensorsOf (m : Machine) (hwmonName : String) :
    ∃ chipName, ((sensorsOf m hwmonName).map (·.id)).Sublist (sensorSlots.map (hwmonId hwmonName chipName)) := by
  refine ⟨textAt m (join (join (sysfsRoot m ++ "/class/hwmon") hwmonName) "name"), ?_⟩
  unfold sensorsOf sensorSlots
  rw [List.map_append, List.map_append, List.map_map, List.map_map]
  exact (map_filterMap_sublist (fun _ _ => id_powerSensor) _).append
    (map_filterMap_sublist (fun _ _ => id_energySensor) _)

theorem hwmonId_injective (hwmonName chipName : String) : Function.Injective (hwmonId hwmonName chipName) := by
  intro slot slot' h
  unfold hwmonId at h
  exact append_left_injective _ (append_right_injective _ (append_right_injective _ h))

/-- The name of the chip's directory can be read off an id. -/
theorem name_of_hwmonId {name name' chipName chipName' slot slot' : String} (h : ':' ∉ name.toList)
    (h' : ':' ∉ name'.toList) (heq : hwmonId name chipName slot = hwmonId name' chipName' slot') : name = name' := by
  unfold hwmonId at heq
  simp only [String.append_assoc] at heq
  have heq := append_left_injective _ heq
  simp only [← String.append_assoc] at heq
  exact (append_colon_inj h h' (by simpa only [String.append_assoc] using heq)).1

/-- The names of the chips' directories. -/
def chipNames (m : Machine) : List String :=
  match m.hwmon with
  | .listed names => names
  | _ => []

theorem hwmonSensors_eq (m : Machine) : hwmonSensors m = (chipNames m).flatMap (sensorsOf m) := by
  unfold hwmonSensors Hwmon.discover chipNames
  cases m.hwmon with
  | missing => rfl
  | unreadable e => rfl
  | listed names => exact found_of_ite (f := id) rfl _

/-- Directories have names of their own, and those of hwmon no colon. -/
def ChipsNamed (m : Machine) : Prop := (chipNames m).Nodup ∧ ∀ name ∈ chipNames m, ':' ∉ name.toList

theorem nodup_hwmonSensors {m : Machine} (h : ChipsNamed m) : ((hwmonSensors m).map (·.id)).Nodup := by
  rw [hwmonSensors_eq, List.map_flatMap, List.nodup_flatMap]
  constructor
  · intro name hname
    obtain ⟨chipName, hsub⟩ := ids_sensorsOf m name
    exact hsub.nodup (nodup_sensorSlots.map (hwmonId_injective name chipName))
  · refine h.1.imp_of_mem fun {name name'} hname hname' hne => ?_
    intro id hid hid'
    obtain ⟨chipName, hsub⟩ := ids_sensorsOf m name
    obtain ⟨chipName', hsub'⟩ := ids_sensorsOf m name'
    obtain ⟨slot, -, rfl⟩ := List.mem_map.1 (hsub.subset hid)
    obtain ⟨slot', -, heq⟩ := List.mem_map.1 (hsub'.subset hid')
    exact hne (name_of_hwmonId (h.2 name hname) (h.2 name' hname') heq.symm)

/-- What the BMC is probed for, besides its power supplies. -/
def metricKeys : List String :=
  ["TotalCPUPower", "SystemBoardCPUUsage", "CPUPower", "TotalMemoryPower", "DRAMPwr", "SystemBoardMEMUsage",
    "TotalFanPower", "TotalStoragePower", "SystemBoardIOUsage", "TotalPciePower", "SystemBoardSYSUsage"]

/-- The keys of the first power supplies. -/
def psuKeys (n : Nat) : List String :=
  (List.range n).flatMap fun i => ["input", "output"].map fun key => "psu" ++ toString (i + 1) ++ ":" ++ key

def redfishId (endpoint key : String) : String := "redfish:" ++ key ++ ":" ++ endpoint

theorem redfishId_injective (endpoint : String) : Function.Injective (redfishId endpoint) := by
  intro key key' h
  unfold redfishId at h
  exact append_left_injective _ (append_right_injective _ (append_right_injective _ h))

theorem Bmc.id_source (bmc : Bmc) (key display : String) (c : Component) (readMethod : ReadMethod) :
    (bmc.source key display c readMethod).id = redfishId bmc.endpoint key := rfl

/-- The id of the source, if there is one, is that of a key. -/
def HasKey (bmc : Bmc) (o : Option RedfishSource) (keys : List String) : Prop :=
  (o.toList.map (·.id)).Sublist (keys.map (redfishId bmc.endpoint))

theorem HasKey.or {bmc : Bmc} {o o' : Option RedfishSource} {keys keys' : List String} (h : HasKey bmc o keys)
    (h' : HasKey bmc o' keys') : HasKey bmc (o.or o') (keys ++ keys') := by
  unfold HasKey at *
  rw [List.map_append]
  cases o with
  | none => exact h'.trans (List.sublist_append_right _ _)
  | some s => exact h.trans (List.sublist_append_left _ _)

theorem hasKey_tryTelemetryMetric (m : Machine) (bmc : Bmc) (metricId : String) (c : Component) (display : String) :
    HasKey bmc (tryTelemetryMetric m bmc metricId c display) [metricId] := by
  unfold HasKey tryTelemetryMetric
  repeat' split
  all_goals simp [Bmc.id_source]

theorem hasKey_trySensorPct (m : Machine) (bmc : Bmc) (name : String) (c : Component) (display : String) :
    HasKey bmc (trySensorPct m bmc name c display) [name] := by
  unfold HasKey trySensorPct
  cases probeReading m bmc (bmc.endpoint ++ sensorPath name) with
  | none => simp
  | some pct =>
    cases probeReading m bmc (bmc.endpoint ++ sensorPath "SystemBoardPwrConsumption") with
    | none => simp
    | some total => simp [Bmc.id_source]

theorem hasKey_psuSource (m : Machine) (bmc : Bmc) (psu : Json) (slot : Nat) (field sensor key display : String) :
    HasKey bmc (psuSource m bmc psu slot field sensor key display) ["psu" ++ toString slot ++ ":" ++ key] := by
  unfold HasKey psuSource
  dsimp only
  split <;> simp [Bmc.id_source]

theorem ids_psuSources (m : Machine) (bmc : Bmc) (psus : List Json) :
    ((psus.zipIdx.flatMap fun (psu, i) => psuSources m bmc psu i).map (·.id)).Sublist
      ((psuKeys psus.length).map (redfishId bmc.endpoint)) := by
  induction psus using List.reverseRecOn with
  | nil => exact .slnil
  | append_singleton psus psu ih =>
    rw [List.zipIdx_append, List.flatMap_append, List.map_append, List.length_append, List.length_singleton, psuKeys,
      List.range_succ, List.flatMap_append, List.map_append]
    refine ih.append ?_
    simp only [List.zipIdx_singleton, List.flatMap_cons, List.flatMap_nil, List.append_nil, psuSources, List.map_append,
      Nat.zero_add]
    exact (hasKey_psuSource m bmc psu (psus.length + 1) _ _ "input" _).append
      (hasKey_psuSource m bmc psu (psus.length + 1) _ _ "output" _)

/-- The supply and its end can be read off a key. -/
theorem psuKey_inj {i j : Nat} {key key' : String}
    (h : "psu" ++ toString i ++ ":" ++ key = "psu" ++ toString j ++ ":" ++ key') : i = j ∧ key = key' := by
  have hcolon : ∀ n : Nat, ':' ∉ ("psu" ++ toString n).toList := by
    intro n
    rw [String.toList_append, List.mem_append, not_or]
    exact ⟨by decide, colon_notMem_toString n⟩
  obtain ⟨h1, h2⟩ := append_colon_inj (hcolon i) (hcolon j) h
  exact ⟨toString_injective (append_left_injective _ h1), h2⟩

theorem nodup_psuKeys (n : Nat) : (psuKeys n).Nodup := by
  unfold psuKeys
  rw [List.nodup_flatMap]
  constructor
  · intro i _
    exact List.Nodup.map (fun key key' h => (psuKey_inj h).2) (by decide)
  · refine List.nodup_range.imp fun {i j} hne => ?_
    intro id hi hj
    obtain ⟨key, -, rfl⟩ := List.mem_map.1 hi
    obtain ⟨key', -, heq⟩ := List.mem_map.1 hj
    have := (psuKey_inj heq).1
    omega

theorem nodup_keys (n : Nat) : (metricKeys ++ psuKeys n ++ ["platform"]).Nodup := by
  have hp : (psuKeys n ++ (metricKeys ++ ["platform"])).Perm (metricKeys ++ psuKeys n ++ ["platform"]) := by
    rw [← List.append_assoc]
    exact List.perm_append_comm.append_right _
  refine hp.nodup ?_
  have hparts := nodup_flatMap_iff_of_key (f := fun k : String => decide (k.toList.take 3 = "psu".toList))
    (l := [(true, psuKeys n), (false, metricKeys ++ ["platform"])]) (by simp)
  simp only [List.forall_mem_cons, List.flatMap_cons, List.flatMap_nil, List.append_nil] at hparts
  refine (hparts ⟨fun key hkey => ?_, by decide, by simp⟩).2 ⟨nodup_psuKeys n, by decide, by simp⟩
  obtain ⟨i, -, hkey⟩ := List.mem_flatMap.1 hkey
  obtain ⟨side, -, rfl⟩ := List.mem_map.1 hkey
  simp [String.toList_append]

theorem ids_discoverPsuDetail (m : Machine) (bmc : Bmc) (url : String) :
    ∃ n, (((discoverPsuDetail m bmc url).toOption.getD []).map (·.id)).Sublist
      ((psuKeys n).map (redfishId bmc.endpoint)) := by
  unfold discoverPsuDetail
  cases bmc.get m url with
  | error e => exact ⟨0, .slnil⟩
  | ok resp =>
    dsimp only
    cases resp.json with
    | error e => exact ⟨0, .slnil⟩
    | ok body => exact ⟨_, ids_psuSources m bmc _⟩

theorem ids_probeBmc (m : Machine) (bmc : Bmc) :
    ∃ n, ((probeBmc m bmc).map (·.id)).Sublist
      ((metricKeys ++ psuKeys n ++ ["platform"]).map (redfishId bmc.endpoint)) := by
  obtain ⟨n, hpsu⟩ := ids_discoverPsuDetail m bmc (bmc.endpoint ++ powerPath)
  refine ⟨n, ?_⟩
  have hcpu := (hasKey_tryTelemetryMetric m bmc "TotalCPUPower" .cpu "Redfish Telemetry CPU").or
    ((hasKey_trySensorPct m bmc "SystemBoardCPUUsage" .cpu "Redfish Sensor CPU").or
      (hasKey_tryTelemetryMetric m bmc "CPUPower" .cpu "Redfish Telemetry CPUPower"))
  have hmem := (hasKey_tryTelemetryMetric m bmc "TotalMemoryPower" .memory "Redfish Telemetry Memory").or
    ((hasKey_tryTelemetryMetric m bmc "DRAMPwr" .memory "Redfish Telemetry DRAM").or
      (hasKey_trySensorPct m bmc "SystemBoardMEMUsage" .memory "Redfish Sensor Memory"))
  have hfan := hasKey_tryTelemetryMetric m bmc "TotalFanPower" .fan "Redfish Telemetry Fans"
  have hstorage := hasKey_tryTelemetryMetric m bmc "TotalStoragePower" .storage "Redfish Telemetry Storage"
  have hio := (hasKey_trySensorPct m bmc "SystemBoardIOUsage" .nic "Redfish Sensor I/O").or
    (hasKey_tryTelemetryMetric m bmc "TotalPciePower" .nic "Redfish Telemetry PCIe")
  have hsys := hasKey_trySensorPct m bmc "SystemBoardSYSUsage" .platform "Redfish Sensor Platform"
  have hkeys := ((((((hcpu.append hmem).append hfan).append hstorage).append hio).append hsys).append hpsu).append
    (List.Sublist.refl [redfishId bmc.endpoint "platform"])
  simpa only [probeBmc, Bmc.id_source, metricKeys, List.map_append, List.map_cons, List.map_nil, List.cons_append,
    List.nil_append, List.append_assoc] using hkeys

theorem ids_redfishSources (m : Machine) :
    ∃ endpoint n, ((redfishSources m).map (·.id)).Sublist
      ((metricKeys ++ psuKeys n ++ ["platform"]).map (redfishId endpoint)) := by
  have hall : ∀ sources, Platform.discover m = .ok sources → ∃ bmc, sources = probeBmc m bmc := by
    intro sources hd
    unfold Platform.discover at hd
    cases hr : redfishEndpoint m with
    | error e => rw [hr] at hd; cases hd
    | ok endpoint =>
      simp only [hr, Except.bind] at hd
      repeat' split at hd
      all_goals cases hd
      exact ⟨_, rfl⟩
  unfold redfishSources
  cases hd : Platform.discover m with
  | error e => exact ⟨"", 0, List.nil_sublist _⟩
  | ok sources =>
    obtain ⟨bmc, rfl⟩ := hall sources hd
    obtain ⟨n, h⟩ := ids_probeBmc m bmc
    exact ⟨bmc.endpoint, n, h⟩

/-! ## Ids of all sources -/

/-- What tells the kinds of ids apart. -/
def idKind (id : String) : List Char := id.toList.take 6

theorem idKind_packages {m : Machine} {id : String} (h : id ∈ (raplPackages m).map (·.id)) :
    idKind id = "rapl:p".toList := by
  obtain ⟨s, hs, rfl⟩ := List.mem_map.1 h
  rw [(of_mem_raplPackages hs).2]
  simp [idKind, String.toList_append]

theorem idKind_drams {m : Machine} {id : String} (h : id ∈ (raplDrams m).map (·.id)) :
    idKind id = "rapl:d".toList := by
  obtain ⟨s, hs, rfl⟩ := List.mem_map.1 h
  rw [(of_mem_raplDrams hs).2]
  simp [idKind, String.toList_append]

theorem idKind_hwmon {m : Machine} {id : String} (h : id ∈ (hwmonSensors m).map (·.id)) :
    idKind id = "hwmon:".toList := by
  rw [hwmonSensors_eq, List.map_flatMap] at h
  obtain ⟨name, -, h⟩ := List.mem_flatMap.1 h
  obtain ⟨chipName, hsub⟩ := ids_sensorsOf m name
  obtain ⟨slot, -, rfl⟩ := List.mem_map.1 (hsub.subset h)
  simp [idKind, hwmonId, String.toList_append]

theorem idKind_dcgm {m : Machine} {id : String} (h : id ∈ (dcgmGpus m).map (·.id)) : idKind id = "dcgm:g".toList := by
  obtain ⟨s, hs, rfl⟩ := List.mem_map.1 h
  rw [of_mem_dcgmGpus hs]
  simp [idKind, String.toList_append]

theorem idKind_redfish {m : Machine} {id : String} (h : id ∈ (redfishSources m).map (·.id)) :
    idKind id = "redfis".toList := by
  obtain ⟨endpoint, n, hsub⟩ := ids_redfishSources m
  obtain ⟨key, -, rfl⟩ := List.mem_map.1 (hsub.subset h)
  simp [idKind, redfishId, String.toList_append]

/-- The ids of all sources, kind by kind. -/
def idsByKind (m : Machine) : List (List Char × List String) :=
  [("rapl:p".toList, (raplPackages m).map (·.id)), ("rapl:d".toList, (raplDrams m).map (·.id)),
    ("hwmon:".toList, (hwmonSensors m).map (·.id)), ("dcgm:g".toList, (dcgmGpus m).map (·.id)),
    ("redfis".toList, (redfishSources m).map (·.id))]

theorem ids_discoverSources (m : Machine) :
    (discoverSources m).map (·.id) = (idsByKind m).flatMap Prod.snd := by
  simp only [discoverSources, idsByKind, List.map_append, List.map_map, List.append_assoc, List.flatMap_cons,
    List.flatMap_nil, List.append_nil]
  rfl

theorem nodup_idKinds (m : Machine) : ((idsByKind m).map Prod.fst).Nodup := by
  change ["rapl:p".toList, "rapl:d".toList, "hwmon:".toList, "dcgm:g".toList, "redfis".toList].Nodup
  decide

theorem idKind_of_mem {m : Machine} : ∀ part ∈ idsByKind m, ∀ id ∈ part.2, idKind id = part.1 := by
  simp only [idsByKind, List.forall_mem_cons]
  exact ⟨fun _ => idKind_packages, fun _ => idKind_drams, fun _ => idKind_hwmon, fun _ => idKind_dcgm,
    fun _ => idKind_redfish, by simp⟩

/-- For every machine whose hwmon directories have names of their own without
colons: all discovered sources have ids of their own exactly if no two RAPL
packages and no two RAPL DRAM domains are of one socket and no two GPUs have
one index. -/
theorem source_ids_distinct_iff (m : Machine) (hchips : ChipsNamed m) :
    ((discoverSources m).map (·.id)).Nodup ↔ ((raplPackages m).map (·.socket)).Nodup ∧
      ((raplDrams m).map (·.socket)).Nodup ∧ ((dcgmGpus m).map (·.deviceIndex)).Nodup := by
  obtain ⟨endpoint, n, hsub⟩ := ids_redfishSources m
  have hredfish := hsub.nodup ((nodup_keys n).map (redfishId_injective endpoint))
  rw [ids_discoverSources, nodup_flatMap_iff_of_key (nodup_idKinds m) idKind_of_mem]
  simp only [idsByKind, List.forall_mem_cons, nodup_numbered_iff (fun _ h => (of_mem_raplPackages h).2),
    nodup_numbered_iff (fun _ h => (of_mem_raplDrams h).2), nodup_numbered_iff (fun _ h => of_mem_dcgmGpus h),
    nodup_hwmonSensors hchips, hredfish, true_and, List.not_mem_nil, false_implies, implies_true, and_true]

/-- A machine with two sockets, the second one listed first, and a power supply
with an hwmon sensor. -/
def twoSocketServer : Machine where
  env _ := none
  files path := (
    [("/sys/class/powercap/intel-rapl:0/energy_uj", "70"), ("/sys/class/powercap/intel-rapl:1/energy_uj", "50"),
      ("/sys/class/powercap/intel-rapl:0:0/energy_uj", "20"), ("/sys/class/powercap/intel-rapl:1:0/energy_uj", "10"),
      ("/sys/class/powercap/intel-rapl:0:0/name", "dram"), ("/sys/class/powercap/intel-rapl:1:0/name", "dram"),
      ("/sys/class/hwmon/hwmon0/name", "dps1900"), ("/sys/class/hwmon/hwmon0/power1_label", "pin"),
      ("/sys/class/hwmon/hwmon0/power1_input", "300")].lookup path).elim .missing .text
  powercap := .listed ["intel-rapl:1", "intel-rapl:1:0", "intel-rapl:0", "intel-rapl:0:0"]
  hwmon := .listed ["hwmon0"]
  get _ _ := .error "connection refused"

theorem source_ids_distinct_iff_twoSocketServer :
    (discoverSources twoSocketServer).map (·.id) =
      ["rapl:package:0", "rapl:package:1", "rapl:dram:1", "rapl:dram:0", "hwmon:hwmon0:power1:dps1900"] ∧
    ((discoverSources twoSocketServer).map (·.id)).Nodup :=
  ⟨by decide +kernel, (source_ids_distinct_iff twoSocketServer (by unfold ChipsNamed; decide +kernel)).2
    (by decide +kernel)⟩

end Keck.Agent
