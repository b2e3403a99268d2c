import Keck.Lib.Checked
import Keck.Lib.Text
import Keck.Agent.Procfs
import Keck.Agent.PerfCounters
/-!
# Counters on the online CPUs

The agent opens hardware counters twice: `HwCounterReader::new` of
`keck-agent/src/perf_counters.rs` for the totals of a core, and
`attach_perf_to_bpf_maps` of `keck-agent/src/ebpf/mod.rs` for those of a process.
Each has its copy of `num_online_cpus`, which only counts the CPUs of the
kernel's list, and each then opens events on as many CPUs from 0 up. These are
the online ones if and only if no CPU below an online one is offline
(`opensOnline_iff`).

The operating system is a parameter: what reading a file, opening an event and
updating a map give. An error closes whatever was opened before it.
-/
namespace Keck.Agent.OnlineCpus

open Keck.Lib Keck.Lib.Text Keck.Agent.PerfCounters

/-! ## Counting -/

/-- `usize` arithmetic wraps. -/
def usize (n : Nat) : Nat := n % 2 ^ 64

/-- One round of the loop of `num_online_cpus`. -/
def countRange (badFormat : String) (count : Nat) (range : List Char) : Except String Nat :=
  match range.splitOn '-' with
  | [_] => .ok (usize (count + 1))
  | [first, last] =>
    match parseUnsigned 64 first, parseUnsigned 64 last with
    | some start, some stop => .ok (usize (count + (stop + 2 ^ 64 - start) + 1))
    | _, _ => .error "bad cpu range"
  | _ => .error badFormat

def countCpus (badFormat : String) (cpus : List Char) : Except String Nat :=
  ((Text.trim cpus).splitOn ',').foldlM (countRange badFormat) 0

/-- What reading a file gives, and whether the host's file system is mounted. -/
structure Files where
  hostExists : Bool
  read : String → Except String (List Char)

def onlinePath (files : Files) : String :=
  if files.hostExists then "/host/sys/devices/system/cpu/online" else "/sys/devices/system/cpu/online"

/-- `num_online_cpus` of `perf_counters.rs`. -/
def numOnlineCpus (files : Files) : Except String Nat := do
  let cpus ← files.read (onlinePath files)
  countCpus "bad format" cpus

/-- `num_online_cpus` of `ebpf/mod.rs`. -/
def numOnlineCpusEbpf (files : Files) : Except String Nat := do
  let cpus ← (files.read (onlinePath files)).mapError fun e => "read " ++ onlinePath files ++ ": " ++ e
  countCpus "bad cpu format" cpus

/-! ## Opening -/

/-- `cpu as i32`. -/
def asI32 (n : Nat) : Int := if n % 2 ^ 32 < 2 ^ 31 then (n % 2 ^ 32 : Nat) else (n % 2 ^ 32 : Nat) - 2 ^ 32

/-- The system call `perf_event_open` on a CPU. -/
abbrev PerfEventOpen := Int → Counter → Except String Nat

def openCore (perfEventOpen : PerfEventOpen) (cpu : Nat) : Except String CoreFds := do
  let instructionsFd ← (perfEventOpen (asI32 cpu) .instructions).mapError fun e =>
    "instructions on CPU " ++ toString cpu ++ ": " ++ e
  let cyclesFd ← (perfEventOpen (asI32 cpu) .cycles).mapError fun e => "cycles on CPU " ++ toString cpu ++ ": " ++ e
  let cacheMissesFd ← (perfEventOpen (asI32 cpu) .cacheMisses).mapError fun e =>
    "cache_misses on CPU " ++ toString cpu ++ ": " ++ e
  .ok ⟨cpu % 2 ^ 32, instructionsFd, cyclesFd, cacheMissesFd⟩

/-- `HwCounterReader::new`. -/
def newReader (files : Files) (perfEventOpen : PerfEventOpen) : Except String HwCounterReader := do
  let numCores ← (numOnlineCpus files).mapError fun e => "CPU count: " ++ e
  let cores ← (List.range numCores).mapM (openCore perfEventOpen)
  .ok (HwCounterReader.new cores)

/-- The maps of the loaded program: a map's file descriptor, nothing if there is
no such map or it cannot be had, and what an update of an element gives. -/
structure Bpf where
  mapFd : String → Option (Option Nat)
  update : Nat → Nat → Nat → Except String Unit

def mapName : Counter → String
  | .instructions => "PERF_INSTRUCTIONS"
  | .cycles => "PERF_CYCLES"
  | .cacheMisses => "PERF_CACHE_MISSES"

/-- The configuration the source gives for a counter. -/
def config : Counter → Nat
  | .instructions => 0
  | .cycles => 1
  | .cacheMisses => 3

/-- An event in the map of its counter, under the number of its CPU. -/
structure Attachment where
  counter : Counter
  cpu : Nat
  perfFd : Nat

def attachCpu (perfEventOpen : PerfEventOpen) (bpf : Bpf) (counter : Counter) (mapFd cpu : Nat) :
    Except String Attachment := do
  let perfFd ← (perfEventOpen (asI32 cpu) counter).mapError fun e =>
    "perf_event_open(cpu=" ++ toString (asI32 cpu) ++ ", config=" ++ toString (config counter) ++ "): " ++ e
  (bpf.update mapFd (cpu % 2 ^ 32) perfFd).mapError fun e =>
    mapName counter ++ " set cpu " ++ toString cpu ++ ": " ++ e
  .ok ⟨counter, cpu % 2 ^ 32, perfFd⟩

def attachMap (perfEventOpen : PerfEventOpen) (bpf : Bpf) (numCpus : Nat) (counter : Counter) :
    Except String (List Attachment) :=
  match bpf.mapFd (mapName counter) with
  | none => .error (mapName counter ++ " map not found")
  | some none => .error (mapName counter ++ ": cannot get map FD")
  | some (some mapFd) => (List.range numCpus).mapM (attachCpu perfEventOpen bpf counter mapFd)

/-- The attached events, and whether the program was told to read them. -/
structure Attached where
  events : List Attachment
  pmcEnabled : Bool

def enablePmc (bpf : Bpf) : Bool :=
  match bpf.mapFd "PMC_ENABLED" with
  | some (some mapFd) => match bpf.update mapFd 0 1 with
    | .ok _ => true
    | .error _ => false
  | _ => false

def attachPerfToBpfMaps (files : Files) (perfEventOpen : PerfEventOpen) (bpf : Bpf) : Except String Attached := do
  let numCpus ← numOnlineCpusEbpf files
  let events ← [Counter.instructions, .cycles, .cacheMisses].mapM (attachMap perfEventOpen bpf numCpus)
  .ok ⟨events.flatten, enablePmc bpf⟩

/-! ## The kernel's list -/

inductive CpuItem where
  | id (n : Nat)
  | range (first last : Nat)

namespace CpuItem

def first : CpuItem → Nat
  | id n => n
  | range a _ => a

def last : CpuItem → Nat
  | id n => n
  | range _ b => b

def ids (item : CpuItem) : List Nat := List.range' item.first (item.last + 1 - item.first)

def text : CpuItem → List Char
  | id n => Nat.toDigits 10 n
  | range a b => Nat.toDigits 10 a ++ '-' :: Nat.toDigits 10 b

end CpuItem

/-- A list of CPUs as the kernel prints it: increasing and disjoint, and a CPU's
number is a C `int`. -/
structure Cpulist where
  items : List CpuItem
  ordered : ∀ item ∈ items, item.first ≤ item.last
  increasing : items.Pairwise fun i j => i.last < j.first
  bounded : ∀ item ∈ items, item.last < 2 ^ 31

namespace Cpulist

def ids (list : Cpulist) : List Nat := list.items.flatMap CpuItem.ids

def text (list : Cpulist) : List Char := [','].intercalate (list.items.map CpuItem.text) ++ ['\n']

end Cpulist

/-! ## What is counted -/

theorem isDigit_of_mem {n : Nat} {c : Char} (hc : c ∈ Nat.toDigits 10 n) : c.isDigit = true :=
  Nat.isDigit_of_mem_toDigits (by decide) (by decide) hc

theorem notMem_toDigits {c : Char} (hc : c.isDigit = false) (n : Nat) : c ∉ Nat.toDigits 10 n := by
  intro hmem
  rw [isDigit_of_mem hmem] at hc
  cases hc

/-- An item is printed in digits and dashes. -/
theorem mem_text {item : CpuItem} {c : Char} (hc : c ∈ item.text) : c.isDigit = true ∨ c = '-' := by
  cases item with
  | id n => exact .inl (isDigit_of_mem hc)
  | range a b =>
    rcases List.mem_append.1 hc with hc | hc
    · exact .inl (isDigit_of_mem hc)
    · rcases List.mem_cons.1 hc with rfl | hc
      · exact .inr rfl
      · exact .inl (isDigit_of_mem hc)

theorem splitOn_text (item : CpuItem) :
    item.text.splitOn '-' = match item with
      | .id n => [Nat.toDigits 10 n]
      | .range a b => [Nat.toDigits 10 a, Nat.toDigits 10 b] := by
  have hdash : ∀ n, '-' ∉ Nat.toDigits 10 n := notMem_toDigits rfl
  cases item with
  | id n =>
    have hsplit : (['-'].intercalate [Nat.toDigits 10 n]).splitOn '-' = [Nat.toDigits 10 n] :=
      List.splitOn_intercalate '-' (by simpa using hdash n) (by simp)
    simpa [CpuItem.text] using hsplit
  | range a b =>
    have hsplit : (['-'].intercalate [Nat.toDigits 10 a, Nat.toDigits 10 b]).splitOn '-' =
        [Nat.toDigits 10 a, Nat.toDigits 10 b] :=
      List.splitOn_intercalate '-' (by simp [hdash a, hdash b]) (by simp)
    simpa [CpuItem.text] using hsplit

theorem length_ids (item : CpuItem) : item.ids.length = item.last + 1 - item.first := List.length_range'

theorem mem_ids {item : CpuItem} {cpu : Nat} : cpu ∈ item.ids ↔ item.first ≤ cpu ∧ cpu ≤ item.last := by
  rw [CpuItem.ids, List.mem_range'_1]
  omega

theorem countRange_text {item : CpuItem} (hordered : item.first ≤ item.last) (hbound : item.last < 2 ^ 31)
    (badFormat : String) {count : Nat} (hcount : count + item.ids.length < 2 ^ 64) :
    countRange badFormat count item.text = .ok (count + item.ids.length) := by
  rw [length_ids] at hcount ⊢
  rw [countRange, splitOn_text]
  cases item with
  | id n =>
    simp only [CpuItem.first, CpuItem.last] at *
    simp only [usize]
    congr 1
    omega
  | range a b =>
    simp only [CpuItem.first, CpuItem.last] at *
    have ha : a < 2 ^ 64 := by omega
    have hb : b < 2 ^ 64 := by omega
    simp only [parseUnsigned_toDigits ha, parseUnsigned_toDigits hb, usize]
    congr 1
    omega

theorem foldlM_text (badFormat : String) {items : List CpuItem} (hordered : ∀ item ∈ items, item.first ≤ item.last)
    (hbound : ∀ item ∈ items, item.last < 2 ^ 31) {count : Nat}
    (hcount : count + (items.flatMap CpuItem.ids).length < 2 ^ 64) :
    (items.map CpuItem.text).foldlM (countRange badFormat) count =
      .ok (count + (items.flatMap CpuItem.ids).length) := by
  induction items generalizing count with
  | nil => rfl
  | cons item items ih =>
    rw [List.flatMap_cons, List.length_append] at hcount ⊢
    rw [List.map_cons, List.foldlM_cons, countRange_text (hordered item List.mem_cons_self)
      (hbound item List.mem_cons_self) badFormat (by omega)]
    refine (ih (fun i hi => hordered i (List.mem_cons_of_mem _ hi)) (fun i hi => hbound i (List.mem_cons_of_mem _ hi))
      (by omega)).trans ?_
    rw [Nat.add_assoc]

namespace Cpulist
variable (list : Cpulist)

theorem nodup_ids : list.ids.Nodup := by
  refine List.nodup_flatMap.2 ⟨fun item _ => List.nodup_range', list.increasing.imp ?_⟩
  intro i j hij cpu hi hj
  have := mem_ids.1 hi
  have := mem_ids.1 hj
  omega

theorem ids_lt {cpu : Nat} (h : cpu ∈ list.ids) : cpu < 2 ^ 31 := by
  obtain ⟨item, hitem, hcpu⟩ := List.mem_flatMap.1 h
  exact (mem_ids.1 hcpu).2.trans_lt (list.bounded item hitem)

theorem length_ids_le : list.ids.length ≤ 2 ^ 31 := by
  rw [← List.toFinset_card_of_nodup list.nodup_ids]
  calc list.ids.toFinset.card
    _ ≤ (Finset.range (2 ^ 31)).card := by
        refine Finset.card_le_card fun cpu hcpu => ?_
        exact Finset.mem_range.2 (list.ids_lt (List.mem_toFinset.1 hcpu))
    _ = 2 ^ 31 := Finset.card_range _

theorem trim_text : Text.trim list.text = [','].intercalate (list.items.map CpuItem.text) := by
  refine Text.strip_append_singleton ?_ (by decide)
  intro c hc
  rcases Text.mem_intercalate hc with rfl | ⟨part, hpart, hc⟩
  · decide
  · obtain ⟨item, -, rfl⟩ := List.mem_map.1 hpart
    rcases mem_text hc with hdigit | rfl
    · exact Text.isWhitespace_of_isDigit hdigit
    · decide

/-- The list's CPUs are counted, but an empty list counts as one. -/
theorem countCpus_text (badFormat : String) :
    countCpus badFormat list.text = .ok (if list.items = [] then 1 else list.ids.length) := by
  rw [countCpus, trim_text]
  split
  · next hnil =>
    rw [hnil]
    rfl
  · next hne =>
    have hcomma : ∀ part ∈ list.items.map CpuItem.text, ',' ∉ part := by
      intro part hpart hmem
      obtain ⟨item, -, rfl⟩ := List.mem_map.1 hpart
      rcases mem_text hmem with h | h <;> cases h
    have hlength := list.length_ids_le
    rw [List.splitOn_intercalate ',' hcomma (by simpa using hne),
      foldlM_text badFormat list.ordered list.bounded (by rw [← ids]; omega), Nat.zero_add, ids]

end Cpulist

/-! ## What is opened -/

theorem asI32_of_lt {n : Nat} (h : n < 2 ^ 31) : asI32 n = n := by
  have hmod : n % 2 ^ 32 = n := Nat.mod_eq_of_lt (by omega)
  rw [asI32, hmod, if_pos h]

/-- The environment lets the agent work on the online CPUs: the list is read,
events can be opened on every one of them, and the maps are there. -/
structure Works (list : Cpulist) (files : Files) (perfEventOpen : PerfEventOpen) (bpf : Bpf) : Prop where
  read : files.read (onlinePath files) = .ok list.text
  opens : ∀ cpu ∈ list.ids, ∀ counter, ∃ fd, perfEventOpen cpu counter = .ok fd
  maps : ∀ counter, ∃ fd, bpf.mapFd (mapName counter) = some (some fd)
  updates : ∀ mapFd, ∀ cpu ∈ list.ids, ∀ perfFd, bpf.update mapFd cpu perfFd = .ok ()

/-- The number of CPUs both copies of `num_online_cpus` return. -/
def counted (list : Cpulist) : Nat := if list.items = [] then 1 else list.ids.length

theorem counted_le (list : Cpulist) : counted list ≤ 2 ^ 31 := by
  have := list.length_ids_le
  unfold counted
  split <;> omega

section Opened
variable {list : Cpulist} {files : Files} {perfEventOpen : PerfEventOpen} {bpf : Bpf}

theorem openCore_eq_ok {cpu : Nat} {core : CoreFds} :
    openCore perfEventOpen cpu = .ok core ↔
      ∃ i, perfEventOpen (asI32 cpu) .instructions = .ok i ∧ ∃ c, perfEventOpen (asI32 cpu) .cycles = .ok c ∧
        ∃ m, perfEventOpen (asI32 cpu) .cacheMisses = .ok m ∧ ⟨cpu % 2 ^ 32, i, c, m⟩ = core := by
  simp only [openCore, bind_eq_ok, mapError_eq_ok, Except.ok.injEq]

theorem attachCpu_eq_ok {counter : Counter} {mapFd cpu : Nat} {a : Attachment} :
    attachCpu perfEventOpen bpf counter mapFd cpu = .ok a ↔
      ∃ fd, perfEventOpen (asI32 cpu) counter = .ok fd ∧
        bpf.update mapFd (cpu % 2 ^ 32) fd = .ok () ∧ ⟨counter, cpu % 2 ^ 32, fd⟩ = a := by
  simp only [attachCpu, bind_eq_ok, mapError_eq_ok, Except.ok.injEq, Unique.exists_iff]

theorem mod_of_lt_counted {cpu : Nat} (h : cpu < counted list) : cpu % 2 ^ 32 = cpu := by
  have := counted_le list
  exact Nat.mod_eq_of_lt (by omega)

theorem asI32_of_lt_counted {cpu : Nat} (h : cpu < counted list) : asI32 cpu = cpu := by
  have := counted_le list
  exact asI32_of_lt (by omega)

theorem newReader_eq_ok (hread : files.read (onlinePath files) = .ok list.text) {reader : HwCounterReader} :
    newReader files perfEventOpen = .ok reader ↔
      ∃ cores, (List.range (counted list)).mapM (openCore perfEventOpen) = .ok cores ∧
        HwCounterReader.new cores = reader := by
  have hcount : numOnlineCpus files = .ok (counted list) := by
    rw [numOnlineCpus, hread]
    exact list.countCpus_text _
  simp only [newReader, hcount, bind_eq_ok, mapError_eq_ok, Except.ok.injEq, exists_eq_left']

/-- A reader is on the first CPUs, as many as were counted. -/
theorem coreIds_of_newReader (hread : files.read (onlinePath files) = .ok list.text) {reader : HwCounterReader}
    (h : newReader files perfEventOpen = .ok reader) :
    reader.cores.map (·.coreId) = List.range (counted list) := by
  obtain ⟨cores, hcores, rfl⟩ := (newReader_eq_ok hread).1 h
  refine (map_of_mapM_ok (h := fun cpu => cpu) ?_ hcores).trans (List.map_id' _)
  intro cpu hcpu core hcore
  obtain ⟨i, -, c, -, m, -, rfl⟩ := openCore_eq_ok.1 hcore
  exact mod_of_lt_counted (List.mem_range.1 hcpu)

theorem exists_newReader (hworks : Works list files perfEventOpen bpf)
    (hcounted : ∀ cpu < counted list, cpu ∈ list.ids) : ∃ reader, newReader files perfEventOpen = .ok reader := by
  have hcores : ∃ cores, (List.range (counted list)).mapM (openCore perfEventOpen) = .ok cores := by
    refine exists_mapM_ok fun cpu hcpu => ?_
    rw [List.mem_range] at hcpu
    have hopens := hworks.opens cpu (hcounted cpu hcpu)
    rw [← asI32_of_lt_counted hcpu] at hopens
    obtain ⟨i, hi⟩ := hopens .instructions
    obtain ⟨c, hc⟩ := hopens .cycles
    obtain ⟨m, hm⟩ := hopens .cacheMisses
    exact ⟨_, openCore_eq_ok.2 ⟨i, hi, c, hc, m, hm, rfl⟩⟩
  obtain ⟨cores, hcores⟩ := hcores
  exact ⟨_, (newReader_eq_ok hworks.read).2 ⟨cores, hcores, rfl⟩⟩

/-- The counter and the CPU of an event. -/
def Attachment.key (a : Attachment) : Counter × Nat := (a.counter, a.cpu)

theorem attachPerf_eq_ok (hread : files.read (onlinePath files) = .ok list.text) {attached : Attached} :
    attachPerfToBpfMaps files perfEventOpen bpf = .ok attached ↔
      ∃ events,
        [Counter.instructions, .cycles, .cacheMisses].mapM (attachMap perfEventOpen bpf (counted list)) = .ok events ∧
        ⟨events.flatten, enablePmc bpf⟩ = attached := by
  have hcount : numOnlineCpusEbpf files = .ok (counted list) := by
    rw [numOnlineCpusEbpf, hread]
    exact list.countCpus_text _
  simp only [attachPerfToBpfMaps, hcount, bind_eq_ok, Except.ok.injEq, exists_eq_left']

theorem keys_of_attachMap {counter : Counter} {events : List Attachment}
    (h : attachMap perfEventOpen bpf (counted list) counter = .ok events) :
    events.map Attachment.key = (List.range (counted list)).map fun cpu => (counter, cpu) := by
  unfold attachMap at h
  split at h
  · cases h
  · cases h
  · refine map_of_mapM_ok ?_ h
    intro cpu hcpu a ha
    obtain ⟨fd, -, -, rfl⟩ := attachCpu_eq_ok.1 ha
    rw [Attachment.key, mod_of_lt_counted (List.mem_range.1 hcpu)]

theorem mem_of_attachPerf (hread : files.read (onlinePath files) = .ok list.text) {attached : Attached}
    (h : attachPerfToBpfMaps files perfEventOpen bpf = .ok attached) (counter : Counter) (cpu : Nat) :
    (counter, cpu) ∈ attached.events.map Attachment.key ↔ cpu < counted list := by
  obtain ⟨events, hevents, rfl⟩ := (attachPerf_eq_ok hread).1 h
  have hkeys : events.map (List.map Attachment.key) =
      [Counter.instructions, .cycles, .cacheMisses].map fun c =>
        (List.range (counted list)).map fun cpu => (c, cpu) :=
    map_of_mapM_ok (fun _ _ _ hmap => keys_of_attachMap hmap) hevents
  rw [List.map_flatten, hkeys]
  cases counter <;> simp

theorem exists_attachPerf (hworks : Works list files perfEventOpen bpf)
    (hcounted : ∀ cpu < counted list, cpu ∈ list.ids) :
    ∃ attached, attachPerfToBpfMaps files perfEventOpen bpf = .ok attached := by
  have hmaps : ∀ counter ∈ [Counter.instructions, .cycles, .cacheMisses],
      ∃ events, attachMap perfEventOpen bpf (counted list) counter = .ok events := by
    intro counter _
    obtain ⟨mapFd, hmapFd⟩ := hworks.maps counter
    simp only [attachMap, hmapFd]
    refine exists_mapM_ok fun cpu hcpu => ?_
    rw [List.mem_range] at hcpu
    obtain ⟨fd, hfd⟩ := hworks.opens cpu (hcounted cpu hcpu) counter
    have hupdate := hworks.updates mapFd cpu (hcounted cpu hcpu) fd
    rw [← asI32_of_lt_counted hcpu] at hfd
    rw [← mod_of_lt_counted hcpu] at hupdate
    exact ⟨_, attachCpu_eq_ok.2 ⟨fd, hfd, hupdate, rfl⟩⟩
  obtain ⟨events, hevents⟩ := exists_mapM_ok hmaps
  exact ⟨_, (attachPerf_eq_ok hworks.read).2 ⟨events, hevents, rfl⟩⟩

end Opened

/-! ## Exactly the online CPUs -/

/-- Distinct numbers are the first ones exactly if none below one of them is missing. -/
theorem first_iff_noHoles {l : List Nat} (hl : l.Nodup) :
    (∀ x, x < l.length ↔ x ∈ l) ↔ ∀ x ∈ l, ∀ y < x, y ∈ l := by
  constructor
  · intro h x hx y hy
    exact (h y).1 (hy.trans ((h x).2 hx))
  · intro h
    have hcard := List.toFinset_card_of_nodup hl
    -- everything up to a member is a member, so a member is below the number of members
    have hsub : l.toFinset ⊆ Finset.range l.length := by
      intro x hx
      have hbelow : Finset.range (x + 1) ⊆ l.toFinset := by
        intro y hy
        rw [List.mem_toFinset] at hx ⊢
        rcases Nat.lt_succ_iff_lt_or_eq.1 (Finset.mem_range.1 hy) with hy | rfl
        · exact h x hx y hy
        · exact hx
      have hle := Finset.card_le_card hbelow
      rw [Finset.card_range, hcard] at hle
      exact Finset.mem_range.2 hle
    have heq := Finset.eq_of_subset_of_card_le hsub (by rw [Finset.card_range, hcard])
    intro x
    rw [← Finset.mem_range, ← heq, List.mem_toFinset]

/-- No CPU below an online one is offline. -/
def Cpulist.NoHoles (list : Cpulist) : Prop := list.items ≠ [] ∧ ∀ cpu ∈ list.ids, ∀ below < cpu, below ∈ list.ids

theorem counted_iff (list : Cpulist) : (∀ cpu, cpu < counted list ↔ cpu ∈ list.ids) ↔ list.NoHoles := by
  unfold counted Cpulist.NoHoles
  by_cases hnil : list.items = []
  · simp [hnil, Cpulist.ids]
  · rw [if_neg hnil, first_iff_noHoles list.nodup_ids]
    simp [hnil]

/-- Both functions succeed, with events on the online CPUs and no others. -/
structure OpensOnline (list : Cpulist) (files : Files) (perfEventOpen : PerfEventOpen) (bpf : Bpf) : Prop where
  reader : ∃ reader, newReader files perfEventOpen = .ok reader ∧
    ∀ cpu, cpu ∈ reader.cores.map (·.coreId) ↔ cpu ∈ list.ids
  maps : ∃ attached, attachPerfToBpfMaps files perfEventOpen bpf = .ok attached ∧
    ∀ counter cpu, (counter, cpu) ∈ attached.events.map Attachment.key ↔ cpu ∈ list.ids

/-- Where events can be opened on every online CPU, they are opened on exactly
the online ones if and only if no CPU below an online one is offline. -/
theorem opensOnline_iff {list : Cpulist} {files : Files} {perfEventOpen : PerfEventOpen} {bpf : Bpf}
    (hworks : Works list files perfEventOpen bpf) : OpensOnline list files perfEventOpen bpf ↔ list.NoHoles := by
  rw [← counted_iff]
  constructor
  · rintro ⟨⟨reader, hreader, hids⟩, -⟩ cpu
    rw [← hids, coreIds_of_newReader hworks.read hreader, List.mem_range]
  · intro hcounted
    obtain ⟨reader, hreader⟩ := exists_newReader hworks fun cpu => (hcounted cpu).1
    obtain ⟨attached, hattached⟩ := exists_attachPerf hworks fun cpu => (hcounted cpu).1
    refine ⟨⟨reader, hreader, fun cpu => ?_⟩, attached, hattached, fun counter cpu => ?_⟩
    · rw [coreIds_of_newReader hworks.read hreader, List.mem_range]
      exact hcounted cpu
    · rw [mem_of_attachPerf hworks.read hattached]
      exact hcounted cpu

/-- A machine whose kernel opens events on the online CPUs only. -/
def openOn (online : List Nat) : PerfEventOpen := fun cpu _ =>
  if cpu.toNat ∈ online ∧ 0 ≤ cpu then .ok 7 else .error "No such device (os error 19)"

def filesOf (list : Cpulist) : Files := ⟨false, fun _ => .ok list.text⟩

def allMaps : Bpf := ⟨fun _ => some (some 3), fun _ _ _ => .ok ()⟩

theorem works_openOn (list : Cpulist) : Works list (filesOf list) (openOn list.ids) allMaps where
  read := rfl
  opens cpu hcpu _ := ⟨7, if_pos ⟨hcpu, Int.natCast_nonneg cpu⟩⟩
  maps _ := ⟨3, rfl⟩
  updates _ _ _ _ := rfl

/-- The list `0-3`. -/
def fourCpus : Cpulist := ⟨[.range 0 3], by decide, by decide, by decide⟩

theorem fourCpus_opened : OpensOnline fourCpus (filesOf fourCpus) (openOn fourCpus.ids) allMaps :=
  (opensOnline_iff (works_openOn fourCpus)).2 ⟨by decide, by decide⟩

/-- The list `0,2-3`: CPU 1 is offline. -/
def oneOffline : Cpulist := ⟨[.id 0, .range 2 3], by decide, by decide, by decide⟩

/-- Three CPUs are counted, so the second event is to be opened on CPU 1, and nothing stays open. -/
theorem oneOffline_not_opened :
    ((newReader (filesOf oneOffline) (openOn oneOffline.ids)).map fun r => r.cores.map (·.coreId)) =
        .error "instructions on CPU 1: No such device (os error 19)" ∧
      ((attachPerfToBpfMaps (filesOf oneOffline) (openOn oneOffline.ids) allMaps).map fun a =>
          a.events.map Attachment.key) =
        .error "perf_event_open(cpu=1, config=0): No such device (os error 19)" ∧
      ¬ OpensOnline oneOffline (filesOf oneOffline) (openOn oneOffline.ids) allMaps := by
  have hreader : ((newReader (filesOf oneOffline) (openOn oneOffline.ids)).map fun r => r.cores.map (·.coreId)) =
      .error "instructions on CPU 1: No such device (os error 19)" := by decide +kernel
  refine ⟨hreader, by decide +kernel, ?_⟩
  rintro ⟨⟨reader, hok, -⟩, -⟩
  rw [hok] at hreader
  cases hreader

end Keck.Agent.OnlineCpus
