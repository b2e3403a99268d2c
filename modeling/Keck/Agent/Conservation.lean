import Keck.Lib.Shares
import Keck.Agent.EbpfShares
/-!
# Does a report spend more than the node used?

Each of the two attributions splits the node's power once. The merge takes a
pod's share from one or the other: the eBPF share for the pods with a process
in the snapshot, the /proc share for the rest. The pods of a report never get
more than the node's power, whatever it is, exactly if those mixed shares add
up to at most one: `report_conserves_iff`. Where every scanned pod is in the
snapshot, or none is, they do: `conserves_of_unmixed`. Otherwise they need not:
`merge_spends_twice`.
-/
namespace Keck.Agent

open Keck.Lib Keck.Lib.Shares

/-! ## The shares of a tick -/

/-- The snapshot that decides a pod's power, if the merge overrides it. -/
def TickInput.known? (i : TickInput) (uid : String) : Option EbpfSnapshot :=
  i.snapshot.filter fun s => i.cpuEstimated && decide (0 < totalWeight i.counters s) && (ebpfUids s).contains uid

def TickInput.hasLlc (i : TickInput) : Bool := decide (i.totalLlcMisses > 0)

/-- A pod's share of the CPU power. -/
def TickInput.cpuShare (i : TickInput) (m : PodMetrics) : ℚ :=
  match i.known? m.podUid with
  | some s => ebpfCpuShare i.counters s i.α i.β m.podUid
  | none => cpuRatio i.scan m

/-- A pod's share of the memory power in the eBPF attribution; with no CPU
power to split (`busy` is false) the cache misses count for nothing. -/
def TickInput.ebpfMemShare (i : TickInput) (busy : Bool) (s : EbpfSnapshot) (uid : String) : ℚ :=
  let pss := ratio (((podPss s).lookup uid).getD 0) (podPss s).values.sum
  if i.hasLlc then
    6 / 10 * pss + 4 / 10 * if busy then
      ratio (ebpfCpuShare i.counters s i.α i.β uid) (ebpfTotalShare i.counters s i.α i.β) else 0
  else pss

def TickInput.memShareAt (i : TickInput) (busy : Bool) (m : PodMetrics) : ℚ :=
  match i.known? m.podUid with
  | some s => i.ebpfMemShare busy s m.podUid
  | none => memRatio i.scan i.hasLlc m

/-- A pod's share of the memory power. -/
def TickInput.memShare (i : TickInput) (m : PodMetrics) : ℚ := i.memShareAt true m

/-- The pods of the scan. -/
def TickInput.pods (i : TickInput) : List PodMetrics := (podMetrics i.scan).values

/-! ## The report's powers are those shares -/

/-- The merge's map of what the eBPF attribution gave each pod. -/
def ebpfMap (ebpfPods : List PodPower) : Table String (Nat × Nat) :=
  ebpfPods.foldl (fun m p => m.insert p.podUid (p.cpuUw, p.memoryUw)) ∅

/-- What the merge finds for a pod among pods listed once each. -/
theorem lookup_ebpfMap (f : String → PodPower) (hf : ∀ u, (f u).podUid = u) {uids : List String} (hn : uids.Nodup)
    (uid : String) :
    (ebpfMap (uids.map f)).lookup uid = if uid ∈ uids then some ((f uid).cpuUw, (f uid).memoryUw) else none := by
  rw [ebpfMap, AList.lookup_foldl_insert, List.filter_map]
  have hfil : uids.filter ((fun p : PodPower => decide (p.podUid = uid)) ∘ f) = if uid ∈ uids then [uid] else [] := by
    have e : ((fun p : PodPower => decide (p.podUid = uid)) ∘ f) = fun u => u == uid := by
      funext u
      simp [hf, beq_eq_decide]
    rw [e]
    split
    · rw [List.filter_beq, List.count_eq_one_of_mem hn ‹_›]; rfl
    · rw [List.filter_beq, List.count_eq_zero_of_not_mem ‹_›]; rfl
  rw [hfil]
  split <;> rfl

/-- The merged CPU and memory power of a scanned pod. -/
def override (pod : PodPower) (o : Option (Nat × Nat)) : Nat × Nat := o.getD (pod.cpuUw, pod.memoryUw)

theorem mergePods_powers (pods ebpfPods : List PodPower) :
    (mergePods pods ebpfPods).map (fun p => (p.cpuUw, p.memoryUw)) = pods.map fun p =>
      override p ((ebpfMap ebpfPods).lookup p.podUid) := by
  unfold mergePods ebpfMap
  rw [List.map_map]
  refine List.map_congr_left fun p _ => ?_
  simp only [Function.comp, override]
  split <;> simp_all [PodPower.recalculateTotal]

/-- The eBPF attribution's entry for a pod. -/
theorem lookup_enumeratePodsEbpfWeighted (i : TickInput) (node : NodePower) (s : EbpfSnapshot) (uid : String) :
    (ebpfMap (enumeratePodsEbpfWeighted i.nodeName node.cpuUw node.memUw i.totalLlcMisses i.counters i.podCache s
      i.α i.β)).lookup uid =
    if 0 < totalWeight i.counters s ∧ uid ∈ ebpfUids s then
      some (portion node.cpuUw (ebpfCpuShare i.counters s i.α i.β uid),
        portion node.memUw (i.ebpfMemShare (decide (0 < node.cpuUw)) s uid))
    else none := by
  by_cases hw : 0 < totalWeight i.counters s
  · rw [enumeratePodsEbpfWeighted_eq _ _ _ _ _ _ _ _ _ hw,
      lookup_ebpfMap _ (fun _ => rfl) (nodup_ebpfPodUids i.counters s i.α i.β _)]
    simp only [mem_ebpfPodUids, hw, true_and]
    by_cases hu : uid ∈ ebpfUids s
    · rw [if_pos hu, if_pos hu]
      -- With no CPU power to split, the shares of it are zero divided by zero.
      have hmem : ebpfMemRatio i.counters s i.α i.β node.cpuUw (decide (i.totalLlcMisses > 0)) uid =
          i.ebpfMemShare (decide (0 < node.cpuUw)) s uid := by
        simp only [ebpfMemRatio, podCpuUw_lookup, podCpuUw_sum, TickInput.ebpfMemShare, TickInput.hasLlc]
        rcases Nat.eq_zero_or_pos node.cpuUw with h0 | hpos
        · simp [h0, ratio]
        · simp [hpos, ratio_mul (Nat.cast_pos.2 hpos)]
      simp only [podReport, hmem]
    · rw [if_neg hu, if_neg hu]
  · rw [enumeratePodsEbpfWeighted_eq_nil _ _ _ _ _ _ _ _ _ hw, if_neg fun h => hw h.1]
    rfl

/-- What the merge finds for a pod. -/
def TickInput.found (i : TickInput) (node : NodePower) (uid : String) : Option (Nat × Nat) :=
  (i.known? uid).map fun s => (portion node.cpuUw (ebpfCpuShare i.counters s i.α i.β uid),
    portion node.memUw (i.ebpfMemShare (decide (0 < node.cpuUw)) s uid))

/-- The pods the merge takes powers from, none where it is not made. -/
def TickInput.ebpfPods (i : TickInput) (node : NodePower) : List PodPower :=
  match i.snapshot with
  | none => []
  | some s =>
    if i.cpuEstimated && !s.pidCpuTimes.isEmpty then
      enumeratePodsEbpfWeighted i.nodeName node.cpuUw node.memUw i.totalLlcMisses i.counters i.podCache s i.α i.β
    else []

theorem lookup_ebpfPods (i : TickInput) (node : NodePower) (uid : String) :
    (ebpfMap (i.ebpfPods node)).lookup uid = i.found node uid := by
  unfold TickInput.ebpfPods TickInput.found TickInput.known?
  cases i.snapshot with
  | none => rfl
  | some s =>
    rw [Option.filter_some]
    by_cases he : i.cpuEstimated = true
    · by_cases hnil : s.pidCpuTimes = []
      · have hno : uid ∉ ebpfUids s := by simp [ebpfUids, hnil, pidPod, AList.values]
        simp [hnil, hno, ebpfMap]
      · have hmerge : (i.cpuEstimated && !s.pidCpuTimes.isEmpty) = true := by simp [he, hnil]
        simp only [hmerge, if_true, lookup_enumeratePodsEbpfWeighted]
        by_cases hw : 0 < totalWeight i.counters s <;> by_cases hu : uid ∈ ebpfUids s <;> simp [he, hw, hu]
    · simp [he, ebpfMap]

theorem mergePods_nil (pods : List PodPower) : mergePods pods [] = pods := List.map_id' pods

/-- Where the merge is not made, it would find nothing. -/
theorem reportPods_eq (i : TickInput) (node : NodePower) :
    i.reportPods node =
      mergePods (scanPods i.nodeName node i.totalLlcMisses i.podCache i.scan) (i.ebpfPods node) := by
  have scanned : enumeratePods i.nodeName node i.totalLlcMisses i.podCache i.before i.entries
      ((i.snapshot.map (·.pidNetBytes)).getD ∅) i.tickCount =
    scanPods i.nodeName node i.totalLlcMisses i.podCache i.scan := rfl
  simp only [TickInput.reportPods, TickInput.ebpfPods, scanned]
  generalize scanPods i.nodeName node i.totalLlcMisses i.podCache i.scan = pods
  cases i.snapshot with
  | none => exact (mergePods_nil pods).symm
  | some s =>
    simp only
    split
    case isFalse => exact (mergePods_nil pods).symm
    case isTrue =>
      split
      case isFalse => rfl
      case isTrue hempty => rw [List.isEmpty_iff.1 hempty, mergePods_nil]

/-- The powers of a report's pods, in the order of the scan. -/
theorem reportPods_powers (i : TickInput) (node : NodePower) :
    (i.reportPods node).map (fun p => (p.cpuUw, p.memoryUw)) = i.pods.map fun m =>
      (portion node.cpuUw (i.cpuShare m), portion node.memUw (i.memShareAt (decide (0 < node.cpuUw)) m)) := by
  rw [reportPods_eq, mergePods_powers, scanPods, List.map_map]
  refine List.map_congr_left fun m _ => ?_
  show override _ ((ebpfMap (i.ebpfPods node)).lookup m.podUid) = _
  rw [lookup_ebpfPods]
  unfold TickInput.found TickInput.cpuShare TickInput.memShareAt
  cases i.known? m.podUid <;> rfl

theorem sum_cpuUw (i : TickInput) (node : NodePower) :
    ((i.reportPods node).map (·.cpuUw)).sum = floors i.cpuShare i.pods node.cpuUw := by
  have h := congrArg (List.map Prod.fst) (reportPods_powers i node)
  rw [List.map_map, List.map_map] at h
  exact congrArg List.sum h

theorem sum_memoryUw (i : TickInput) (node : NodePower) :
    ((i.reportPods node).map (·.memoryUw)).sum =
      floors (i.memShareAt (decide (0 < node.cpuUw))) i.pods node.memUw := by
  have h := congrArg (List.map Prod.snd) (reportPods_powers i node)
  rw [List.map_map, List.map_map] at h
  exact congrArg List.sum h

/-! ## Shares are not negative -/

theorem memRatio_nonneg (s : Scan) (hasLlc : Bool) (m : PodMetrics) : 0 ≤ memRatio s hasLlc m := by
  have hpss : 0 ≤ ratio m.pssKb s.totalPss := ratio_nonneg (Nat.cast_nonneg _) _
  have hcpu : 0 ≤ cpuRatio s m := ratio_nonneg (Nat.cast_nonneg _) _
  unfold memRatio
  exact add_nonneg (mul_nonneg (by split <;> norm_num) hpss) (mul_nonneg (by split <;> norm_num) hcpu)

section Nonneg
variable {i : TickInput} (hα : 0 ≤ i.α) (hβ : 0 ≤ i.β)
include hα hβ

theorem cpuShare_nonneg (m : PodMetrics) : 0 ≤ i.cpuShare m := by
  unfold TickInput.cpuShare
  cases i.known? m.podUid with
  | none => exact ratio_nonneg (Nat.cast_nonneg _) _
  | some s => exact ebpfCpuShare_nonneg i.counters s hα hβ m.podUid

/-- The cache misses' part only adds to a pod's memory share. -/
theorem ebpfMemShare_mono (s : EbpfSnapshot) (uid : String) :
    0 ≤ i.ebpfMemShare false s uid ∧ i.ebpfMemShare false s uid ≤ i.ebpfMemShare true s uid := by
  have hpss : 0 ≤ ratio (((podPss s).lookup uid).getD 0 : Nat) ((podPss s).values.sum : Nat) :=
    ratio_nonneg (Nat.cast_nonneg _) _
  have hllc := ratio_nonneg (ebpfCpuShare_nonneg i.counters s hα hβ uid) (ebpfTotalShare i.counters s i.α i.β)
  unfold TickInput.ebpfMemShare
  cases i.hasLlc
  · exact ⟨hpss, le_refl _⟩
  · simp only [if_true, Bool.false_eq_true, if_false]
    constructor <;> linarith

theorem memShareAt_mono (m : PodMetrics) :
    0 ≤ i.memShareAt false m ∧ i.memShareAt false m ≤ i.memShareAt true m := by
  unfold TickInput.memShareAt
  cases i.known? m.podUid with
  | some s => exact ebpfMemShare_mono hα hβ s m.podUid
  | none => exact ⟨memRatio_nonneg i.scan i.hasLlc m, le_refl _⟩

theorem memShareAt_nonneg (busy : Bool) (m : PodMetrics) : 0 ≤ i.memShareAt busy m := by
  obtain ⟨h0, h1⟩ := memShareAt_mono hα hβ m
  cases busy
  · exact h0
  · exact h0.trans h1

end Nonneg

/-! ## When the two attributions fit together -/

/-- The report's pods together get no more than the node used. -/
def TickInput.Conserves (i : TickInput) (node : NodePower) : Prop :=
  ((i.reportPods node).map (·.cpuUw)).sum ≤ node.cpuUw ∧ ((i.reportPods node).map (·.memoryUw)).sum ≤ node.memUw

/-- The scanned pods with a process in the snapshot. -/
def TickInput.overridden (i : TickInput) : List PodMetrics := i.pods.filter fun m => (i.known? m.podUid).isSome

/-- The scanned pods that keep what /proc gave them. -/
def TickInput.kept (i : TickInput) : List PodMetrics := i.pods.filter fun m => !(i.known? m.podUid).isSome

/-- Several pods as one. -/
def together (ms : List PodMetrics) : PodMetrics :=
  { podUid := "", cpuTicks := (ms.map (·.cpuTicks)).sum, pssKb := (ms.map (·.pssKb)).sum }

/-- What the snapshot gives the pods in it is no more than /proc leaves by what
it gives the others. -/
structure TickInput.Balanced (i : TickInput) : Prop where
  cpu : (i.overridden.map i.cpuShare).sum ≤ 1 - cpuRatio i.scan (together i.kept)
  mem : (i.overridden.map i.memShare).sum ≤ 1 - memRatio i.scan i.hasLlc (together i.kept)

theorem sum_cpuRatio (s : Scan) (ms : List PodMetrics) : (ms.map (cpuRatio s)).sum = cpuRatio s (together ms) := by
  induction ms with
  | nil => simp [cpuRatio, together, ratio]
  | cons m ms ih =>
    rw [List.map_cons, List.sum_cons, ih]
    simp only [cpuRatio, together, List.map_cons, List.sum_cons, Nat.cast_add, ratio_add]

theorem sum_memRatio (s : Scan) (hasLlc : Bool) (ms : List PodMetrics) :
    (ms.map (memRatio s hasLlc)).sum = memRatio s hasLlc (together ms) := by
  induction ms with
  | nil => simp [memRatio, cpuRatio, together, ratio]
  | cons m ms ih =>
    rw [List.map_cons, List.sum_cons, ih]
    simp only [memRatio, cpuRatio, together, List.map_cons, List.sum_cons, Nat.cast_add, ratio_add]
    ring

/-- A sum over the scanned pods, by who decides their power. -/
theorem sum_pods (i : TickInput) (q : PodMetrics → ℚ) :
    (i.pods.map q).sum = (i.overridden.map q).sum + (i.kept.map q).sum := by
  rw [← List.sum_append, ← List.map_append]
  exact ((List.filter_append_perm _ i.pods).map q).sum_eq.symm

theorem known?_of_mem_kept {i : TickInput} {m : PodMetrics} (h : m ∈ i.kept) : i.known? m.podUid = none := by
  simpa using (List.mem_filter.1 h).2

theorem balanced_iff (i : TickInput) :
    i.Balanced ↔ (i.pods.map i.cpuShare).sum ≤ 1 ∧ (i.pods.map i.memShare).sum ≤ 1 := by
  have hcpu : i.kept.map i.cpuShare = i.kept.map (cpuRatio i.scan) :=
    List.map_congr_left fun m hm => by rw [TickInput.cpuShare, known?_of_mem_kept hm]
  have hmem : i.kept.map i.memShare = i.kept.map (memRatio i.scan i.hasLlc) :=
    List.map_congr_left fun m hm => by rw [TickInput.memShare, TickInput.memShareAt, known?_of_mem_kept hm]
  rw [sum_pods, sum_pods, hcpu, hmem, sum_cpuRatio, sum_memRatio]
  constructor
  · rintro ⟨h1, h2⟩
    exact ⟨le_sub_iff_add_le.1 h1, le_sub_iff_add_le.1 h2⟩
  · rintro ⟨h1, h2⟩
    exact ⟨le_sub_iff_add_le.2 h1, le_sub_iff_add_le.2 h2⟩

instance (i : TickInput) : Decidable i.Balanced := decidable_of_iff _ (balanced_iff i).symm

theorem conserves_of_balanced {i : TickInput} (hα : 0 ≤ i.α) (hβ : 0 ≤ i.β) (h : i.Balanced) (node : NodePower) :
    i.Conserves node := by
  obtain ⟨hcpu, hmem⟩ := (balanced_iff i).1 h
  refine ⟨?_, ?_⟩
  · rw [sum_cpuUw]
    exact (floors_le_iff fun m _ => cpuShare_nonneg hα hβ m).2 hcpu node.cpuUw
  · rw [sum_memoryUw]
    refine (floors_le_iff fun m _ => memShareAt_nonneg hα hβ _ m).2 (le_trans ?_ hmem) node.memUw
    refine List.sum_le_sum fun m _ => ?_
    cases decide (0 < node.cpuUw)
    · exact (memShareAt_mono hα hβ m).2
    · exact le_refl _

/-- The report spends no more than the node used, whatever that was, exactly if
the tick is balanced. -/
theorem report_conserves_iff (i : TickInput) (hα : 0 ≤ i.α) (hβ : 0 ≤ i.β) :
    (∀ node, i.Conserves node) ↔ i.Balanced := by
  refine ⟨fun h => (balanced_iff i).2 ⟨?_, ?_⟩, conserves_of_balanced hα hβ⟩
  · refine (floors_le_iff fun m _ => cpuShare_nonneg hα hβ m).1 fun n => ?_
    have hn := (h ⟨n, 0, 0, 0⟩).1
    rwa [sum_cpuUw] at hn
  · -- With some CPU power to split, the memory shares are at their largest.
    refine (floors_le_iff fun m _ => memShareAt_nonneg hα hβ true m).1 fun n => ?_
    have hn := (h ⟨1, n, 0, 0⟩).2
    rwa [sum_memoryUw] at hn

/-! ## Each attribution on its own -/

/-- The scan's totals, over all processes, cover those of pods. -/
structure Scan.Covers (s : Scan) : Prop where
  ticks : (s.processMetrics.map (·.cpuTicks)).sum ≤ s.totalCpuTicks
  pss : (s.processMetrics.map (·.pssKb)).sum ≤ s.totalPss

/-- A round of the scan skips the entry, or adds a process's deltas to the
totals and, if the process is in a pod, to the pods' processes. -/
theorem scanEntry_cases (refresh : Bool) (net : Table Nat (Nat × Nat)) (s : Scan) (e : ProcEntry) :
    scanEntry refresh net s e = s ∨ ∃ (p : ProcessMetrics) (ps : List ProcessMetrics), (ps = [] ∨ ps = [p]) ∧
      (scanEntry refresh net s e).totalCpuTicks = s.totalCpuTicks + p.cpuTicks ∧
      (scanEntry refresh net s e).totalPss = s.totalPss + p.pssKb ∧
      (scanEntry refresh net s e).totalIoBytes = s.totalIoBytes + p.ioBytes ∧
      (scanEntry refresh net s e).processMetrics = s.processMetrics ++ ps := by
  simp only [scanEntry]
  split
  · exact .inl rfl
  · split
    · exact .inl rfl
    · cases e.cgroup.bind extractPodUid with
      | none => exact .inr ⟨⟨"", _, _, 0, _, 0⟩, [], .inl rfl, rfl, rfl, rfl, rfl⟩
      | some uid => exact .inr ⟨⟨uid, _, _, _, _, _⟩, _, .inr rfl, rfl, rfl, rfl, rfl⟩

theorem covers_scanEntry (refresh : Bool) (net : Table Nat (Nat × Nat)) {s : Scan} (h : s.Covers) (e : ProcEntry) :
    (scanEntry refresh net s e).Covers := by
  obtain ⟨ht, hp⟩ := h
  rcases scanEntry_cases refresh net s e with h | ⟨p, ps, hps, hticks, hpss, -, hproc⟩
  · rw [h]
    exact ⟨ht, hp⟩
  · constructor
    · rw [hticks, hproc]
      rcases hps with rfl | rfl <;> simp <;> omega
    · rw [hpss, hproc]
      rcases hps with rfl | rfl <;> simp <;> omega

theorem covers_foldl (refresh : Bool) (net : Table Nat (Nat × Nat)) (es : List ProcEntry) {s : Scan} (h : s.Covers) :
    (es.foldl (scanEntry refresh net) s).Covers := by
  induction es generalizing s with
  | nil => exact h
  | cons e es ih => exact ih (covers_scanEntry refresh net h e)

theorem covers_scan (before : Scan) (entries : Option (List ProcEntry)) (net : Table Nat (Nat × Nat)) (tick : Nat) :
    (scan before entries net tick).Covers :=
  covers_foldl _ _ _ ⟨le_refl 0, le_refl 0⟩

/-- What is added up over the pods is added up over their processes. -/
theorem sum_podMetrics {f : PodMetrics → Nat} {g : ProcessMetrics → Nat} (hadd : ∀ m p, f (m.add p) = f m + g p)
    (hinit : ∀ uid, f { podUid := uid } = 0) (s : Scan) :
    ((podMetrics s).values.map f).sum = (s.processMetrics.map g).sum :=
  (AList.sum_values _ _).trans (total_groupFold hadd (fun p => hinit p.podUid) _)

/-- All pods together have at most all of the CPU and the memory. -/
theorem together_le_one {s : Scan} (h : s.Covers) (hasLlc : Bool) :
    cpuRatio s (together (podMetrics s).values) ≤ 1 ∧ memRatio s hasLlc (together (podMetrics s).values) ≤ 1 := by
  have ticks : (together (podMetrics s).values).cpuTicks ≤ s.totalCpuTicks :=
    (sum_podMetrics (g := (·.cpuTicks)) (fun _ _ => rfl) (fun _ => rfl) s).trans_le h.ticks
  have pss : (together (podMetrics s).values).pssKb ≤ s.totalPss :=
    (sum_podMetrics (g := (·.pssKb)) (fun _ _ => rfl) (fun _ => rfl) s).trans_le h.pss
  have hcpu : cpuRatio s (together (podMetrics s).values) ≤ 1 := ratio_le_one (by exact_mod_cast ticks)
  have hpss : ratio (together (podMetrics s).values).pssKb s.totalPss ≤ 1 := ratio_le_one (by exact_mod_cast pss)
  refine ⟨hcpu, ?_⟩
  unfold memRatio
  cases hasLlc <;> simp <;> linarith

theorem pods_nodup (i : TickInput) : (i.pods.map (·.podUid)).Nodup := by
  have keys : i.pods.map (·.podUid) = (podMetrics i.scan).keys :=
    AList.map_values_eq_keys fun _ _ h => key_of_lookup (·.podUid) h (fun _ _ => rfl) fun _ => rfl
  rw [keys]
  exact (podMetrics i.scan).keys_nodup

/-- With no pod in the snapshot, the report is what /proc says. -/
theorem balanced_of_overridden_nil {i : TickInput} (h : i.overridden = []) : i.Balanced := by
  have kept : i.kept = i.pods := by
    refine List.filter_eq_self.2 fun m hm => ?_
    simpa using List.filter_eq_nil_iff.1 h m hm
  obtain ⟨hcpu, hmem⟩ := together_le_one (s := i.scan) (covers_scan _ _ _ _) i.hasLlc
  constructor
  · rw [h, kept]
    exact sub_nonneg.2 hcpu
  · rw [h, kept]
    exact sub_nonneg.2 hmem

theorem known?_of_mem_overridden {i : TickInput} {s : EbpfSnapshot} (hs : i.snapshot = some s) {m : PodMetrics}
    (h : m ∈ i.overridden) : i.known? m.podUid = some s := by
  obtain ⟨s', hs'⟩ := Option.isSome_iff_exists.1 (List.mem_filter.1 h).2
  rw [hs', ← hs]
  exact (Option.filter_eq_some_iff.1 hs').1.symm

section Overridden
variable {i : TickInput} (hα : 0 ≤ i.α) (hβ : 0 ≤ i.β)
include hα hβ

theorem sum_ebpfMemShare_le (s : EbpfSnapshot) {uids : List String} (hn : uids.Nodup) :
    (uids.map (i.ebpfMemShare true s)).sum ≤ 1 := by
  have heq : i.ebpfMemShare true s = ebpfMemRatio i.counters s i.α i.β 1 i.hasLlc := by
    funext uid
    simp only [TickInput.ebpfMemShare, ebpfMemRatio, if_true, podCpuUw_one_lookup, podCpuUw_one_sum]
  rw [heq]
  exact sum_ebpfMemRatio_le i.counters s hα hβ 1 i.hasLlc hn

/-- The pods in the snapshot never get more than the node's power. -/
theorem sum_overridden_le : (i.overridden.map i.cpuShare).sum ≤ 1 ∧ (i.overridden.map i.memShare).sum ≤ 1 := by
  have hn : (i.overridden.map (·.podUid)).Nodup := (pods_nodup i).sublist (List.filter_sublist.map _)
  cases hs : i.snapshot with
  | none =>
    have nil : i.overridden = [] := by simp [TickInput.overridden, TickInput.known?, hs]
    simp [nil]
  | some s =>
    have cpu : i.overridden.map i.cpuShare =
        (i.overridden.map (·.podUid)).map (ebpfCpuShare i.counters s i.α i.β) := by
      rw [List.map_map]
      refine List.map_congr_left fun m hm => ?_
      rw [TickInput.cpuShare, known?_of_mem_overridden hs hm]
      rfl
    have mem : i.overridden.map i.memShare = (i.overridden.map (·.podUid)).map (i.ebpfMemShare true s) := by
      rw [List.map_map]
      refine List.map_congr_left fun m hm => ?_
      rw [TickInput.memShare, TickInput.memShareAt, known?_of_mem_overridden hs hm]
      rfl
    rw [cpu, mem]
    exact ⟨(sum_ebpfCpuShare_le i.counters s hα hβ hn).trans (ebpfTotalShare_le_one i.counters s hα hβ),
      sum_ebpfMemShare_le hα hβ s hn⟩

/-- Where every scanned pod is in the snapshot, or none is, nothing is spent
twice. -/
theorem conserves_of_unmixed (h : i.overridden = [] ∨ i.kept = []) (node : NodePower) : i.Conserves node := by
  refine conserves_of_balanced hα hβ ?_ node
  rcases h with h | h
  · exact balanced_of_overridden_nil h
  · obtain ⟨cpu, mem⟩ := sum_overridden_le hα hβ
    constructor
    · rw [h]
      simpa [cpuRatio, together, ratio] using cpu
    · rw [h]
      simpa [memRatio, cpuRatio, together, ratio] using mem

end Overridden

/-! ## A tick that spends the power twice -/

/-- Two processes of two pods. The first has run all the time without a context
switch, so a snapshot may know only the second, which has run for less than a
clock tick. -/
def twoPods (times : List TimeEntry) : TickInput where
  nodeName := "node"
  cpuEstimated := true
  counters := []
  podCache := ∅
  before := { prevCpuTicks := (∅ : Table Nat Nat).insert 7 100 |>.insert 9 50 }
  entries := some [
    { name := "7", stat := some "7 (spin) R 1 7 7 0 -1 0 0 0 0 0 200 0", smapsRollup := some "Pss: 900 kB",
      cgroup := some "0::/kubepods-pod11111111.slice" },
    { name := "9", stat := some "9 (nap) S 1 9 9 0 -1 0 0 0 0 0 50 0", smapsRollup := some "Pss: 100 kB",
      cgroup := some "0::/kubepods-pod22222222.slice" }]
  snapshot := some {
    pidCpuTimes := times
    smaps := fun pid => if pid = 9 then some "Pss: 100 kB" else some "Pss: 900 kB" }
  tickCount := 1
  α := 3 / 10
  β := 3 / 2

def spinTime : TimeEntry := ⟨0, 7, 999000000, some "0::/kubepods-pod11111111.slice"⟩

def napTime : TimeEntry := ⟨1, 9, 500000, some "0::/kubepods-pod22222222.slice"⟩

theorem twoPods_conserves :
    0 ≤ (twoPods [spinTime, napTime]).α ∧ 0 ≤ (twoPods [spinTime, napTime]).β ∧
      ∀ node, (twoPods [spinTime, napTime]).Conserves node :=
  ⟨by decide +kernel, by decide +kernel,
    (report_conserves_iff (twoPods [spinTime, napTime]) (by decide +kernel) (by decide +kernel)).2 (by decide +kernel)⟩

/-- Of 1000 and 1000, the pods get 2000 and 1900. -/
theorem merge_spends_twice :
    0 ≤ (twoPods [napTime]).α ∧ 0 ≤ (twoPods [napTime]).β ∧
    (((twoPods [napTime]).reportPods ⟨1000, 1000, 0, 0⟩).map (·.cpuUw)).sum = 2000 ∧
    (((twoPods [napTime]).reportPods ⟨1000, 1000, 0, 0⟩).map (·.memoryUw)).sum = 1900 ∧
    ¬ (twoPods [napTime]).Conserves ⟨1000, 1000, 0, 0⟩ := by
  have cpu : (((twoPods [napTime]).reportPods ⟨1000, 1000, 0, 0⟩).map (·.cpuUw)).sum = 2000 := by decide +kernel
  refine ⟨by decide +kernel, by decide +kernel, cpu, by decide +kernel, ?_⟩
  intro h
  have hle := h.1
  rw [cpu] at hle
  exact absurd hle (by decide)

end Keck.Agent
