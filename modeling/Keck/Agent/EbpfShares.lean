import Keck.Agent.Attribution
/-!
# The shares of the eBPF attribution

What `enumerate_pods_ebpf_weighted` gives a pod of the node's CPU power is a
fixed share of it: the shares depend on the snapshot and the counters and not
on the power that is split (`podCpuUw_lookup`). The shares of memory power also
look at the processes' sizes.
-/
namespace Keck.Agent

open Keck.Lib

theorem ratio_nonneg {a : ℚ} (h : 0 ≤ a) (b : ℚ) : 0 ≤ ratio a b := by
  unfold ratio
  split
  · exact div_nonneg h (le_of_lt ‹_›)
  · exact le_refl 0

theorem ratio_mul {c : ℚ} (hc : 0 < c) (a b : ℚ) : ratio (c * a) (c * b) = ratio a b := by
  unfold ratio
  by_cases hb : b > 0
  · rw [if_pos hb, if_pos (mul_pos hc hb), mul_div_mul_left a b hc.ne']
  · rw [if_neg hb, if_neg fun h => hb (pos_of_mul_pos_right h hc.le)]

section Shares
variable (counters : List CoreCounterDeltas) (snapshot : EbpfSnapshot) (α β : ℚ)

theorem coreWeight_nonneg {cpu : Nat} {w : ℚ} (h : (coreWeight counters snapshot).lookup cpu = some w) : 0 ≤ w := by
  simp only [coreWeight] at h
  split at h
  · rw [AList.lookup_foldl_insert] at h
    obtain ⟨c, -, rfl⟩ : ∃ c : CoreCounterDeltas, _ ∧ (c.cycles : ℚ) = w := by simpa using h
    exact Nat.cast_nonneg _
  · split at h
    · exact sum_lookup_nonneg (fun x : Nat × Nat × Nat => ((x.2.1 : ℚ) / 1000000) ^ 2 * x.2.2)
        (fun x => by positivity) h
    · exact sum_lookup_nonneg (fun x : TimeEntry => (x.timeNs : ℚ)) (fun x => Nat.cast_nonneg _) h

def totalWeight : ℚ := (coreWeight counters snapshot).values.sum

/-- A core's share of the CPU power. -/
def coreShare (cpu : Nat) : ℚ :=
  (((coreWeight counters snapshot).lookup cpu).map (· / totalWeight counters snapshot)).getD 0

/-- An amount split over the resolved entries of a core, by weight. -/
def spread (amount : ℚ) (es : List TimeEntry) : List (String × ℚ) :=
  es.filterMap fun e => ((pidPod snapshot.pidCpuTimes).lookup e.pid).map fun uid =>
    (uid, amount * ratio (pidWeight snapshot α β e) (es.map (pidWeight snapshot α β)).sum)

/-- The shares every process has through every core. -/
def shareCharges : List (String × ℚ) :=
  (corePidTime snapshot.pidCpuTimes).entries.flatMap fun c => spread snapshot α β (coreShare counters snapshot c.1) c.2

/-- A pod's share of the CPU power. -/
def ebpfCpuShare (uid : String) : ℚ := (((shareCharges counters snapshot α β).filter fun x => x.1 = uid).map (·.2)).sum

/-- The share of all pods together. -/
def ebpfTotalShare : ℚ := ((shareCharges counters snapshot α β).map (·.2)).sum

/-! ## Shares are not negative -/

theorem totalWeight_nonneg : 0 ≤ totalWeight counters snapshot := by
  refine List.sum_nonneg fun w hw => ?_
  obtain ⟨cpu, h⟩ := AList.mem_values.1 hw
  exact coreWeight_nonneg counters snapshot h

theorem coreShare_nonneg (cpu : Nat) : 0 ≤ coreShare counters snapshot cpu := by
  unfold coreShare
  cases h : (coreWeight counters snapshot).lookup cpu with
  | none => exact le_refl 0
  | some w => exact div_nonneg (coreWeight_nonneg counters snapshot h) (totalWeight_nonneg counters snapshot)

variable {α β}

/-- Counters only add to what a process weighs. -/
theorem timeNs_le_pidWeight (hα : 0 ≤ α) (hβ : 0 ≤ β) (e : TimeEntry) : (e.timeNs : ℚ) ≤ pidWeight snapshot α β e := by
  unfold pidWeight
  split
  · exact le_refl _
  · have h1 := ratio_nonneg (Nat.cast_nonneg ((snapshot.pidHwCounters.lookup (e.cpu, e.pid)).getD (0, 0, 0)).1)
      ((snapshot.pidHwCounters.lookup (e.cpu, e.pid)).getD (0, 0, 0)).2.1
    have h2 := ratio_nonneg (Nat.cast_nonneg ((snapshot.pidHwCounters.lookup (e.cpu, e.pid)).getD (0, 0, 0)).2.2)
      ((snapshot.pidHwCounters.lookup (e.cpu, e.pid)).getD (0, 0, 0)).1
    have := mul_nonneg hα h1
    have := mul_nonneg hβ h2
    exact le_mul_of_one_le_right (Nat.cast_nonneg _) (by linarith)

theorem pidWeight_nonneg (hα : 0 ≤ α) (hβ : 0 ≤ β) (e : TimeEntry) : 0 ≤ pidWeight snapshot α β e :=
  (Nat.cast_nonneg _).trans (timeNs_le_pidWeight snapshot hα hβ e)

theorem shareCharges_nonneg (hα : 0 ≤ α) (hβ : 0 ≤ β) : ∀ x ∈ shareCharges counters snapshot α β, 0 ≤ x.2 := by
  intro x hx
  obtain ⟨c, -, hx⟩ := List.mem_flatMap.1 hx
  obtain ⟨e, -, hx⟩ := List.mem_filterMap.1 hx
  obtain ⟨uid, -, rfl⟩ := Option.map_eq_some_iff.1 hx
  exact mul_nonneg (coreShare_nonneg counters snapshot c.1) (ratio_nonneg (pidWeight_nonneg snapshot hα hβ e) _)

theorem ebpfCpuShare_nonneg (hα : 0 ≤ α) (hβ : 0 ≤ β) (uid : String) : 0 ≤ ebpfCpuShare counters snapshot α β uid := by
  refine List.sum_nonneg fun y hy => ?_
  obtain ⟨x, hx, rfl⟩ := List.mem_map.1 hy
  exact shareCharges_nonneg counters snapshot hα hβ x (List.mem_filter.1 hx).1

variable (α β)

/-! ## The code's charges are the shares of the power -/

/-- A core with nothing to give, or nothing to weigh by, charges zero. -/
theorem sum_coreCharges (p : String → Bool) {ce : ℚ} (hce : 0 ≤ ce) (es : List TimeEntry) :
    (((coreCharges snapshot α β ce es).filter fun x => p x.1).map (·.2)).sum =
      (((spread snapshot α β ce es).filter fun x => p x.1).map (·.2)).sum := by
  have zero : (∀ x ∈ spread snapshot α β ce es, x.2 = 0) →
      (((spread snapshot α β ce es).filter fun x => p x.1).map (·.2)).sum = 0 := by
    intro h
    refine List.sum_eq_zero fun y hy => ?_
    obtain ⟨x, hx, rfl⟩ := List.mem_map.1 hy
    exact h x (List.mem_filter.1 hx).1
  unfold coreCharges
  by_cases h0 : ce ≤ 0
  · rw [if_pos h0, zero]
    · rfl
    · intro x hx
      obtain ⟨e, -, hx⟩ := List.mem_filterMap.1 hx
      obtain ⟨uid, -, rfl⟩ := Option.map_eq_some_iff.1 hx
      simp [le_antisymm h0 hce]
  · by_cases ht : (es.map (pidWeight snapshot α β)).sum ≤ 0
    · rw [if_neg h0, if_pos ht, zero]
      · rfl
      · intro x hx
        obtain ⟨e, -, hx⟩ := List.mem_filterMap.1 hx
        obtain ⟨uid, -, rfl⟩ := Option.map_eq_some_iff.1 hx
        simp [ratio, not_lt.2 ht]
    · rw [if_neg h0, if_neg ht]
      simp only [spread, ratio, gt_iff_lt, not_le.1 ht, if_true]

theorem spread_mul (c amount : ℚ) (es : List TimeEntry) :
    spread snapshot α β (c * amount) es = (spread snapshot α β amount es).map fun x => (x.1, c * x.2) := by
  unfold spread
  rw [List.map_filterMap]
  congr 1
  funext e
  cases (pidPod snapshot.pidCpuTimes).lookup e.pid with
  | none => rfl
  | some uid => simp [mul_assoc]

theorem sum_charges (p : String → Bool) (n : Nat) (cores : List (Σ _ : Nat, List TimeEntry)) :
    (((cores.flatMap fun c => coreCharges snapshot α β (n * coreShare counters snapshot c.1) c.2).filter
      fun x => p x.1).map (·.2)).sum =
    n * (((cores.flatMap fun c => spread snapshot α β (coreShare counters snapshot c.1) c.2).filter
      fun x => p x.1).map (·.2)).sum := by
  induction cores with
  | nil => simp
  | cons c cores ih =>
    have hc : 0 ≤ (n : ℚ) * coreShare counters snapshot c.1 :=
      mul_nonneg (Nat.cast_nonneg n) (coreShare_nonneg counters snapshot c.1)
    simp only [List.flatMap_cons, List.filter_append, List.map_append, List.sum_append, mul_add]
    rw [ih, sum_coreCharges snapshot α β p hc, spread_mul, List.filter_map, List.map_map]
    congr 1
    exact List.sum_map_mul_left ..

theorem coreEnergy_eq (n cpu : Nat) :
    (((coreWeight counters snapshot).lookup cpu).map fun w =>
      (n : ℚ) * (w / (coreWeight counters snapshot).values.sum)).getD 0 = n * coreShare counters snapshot cpu := by
  unfold coreShare totalWeight
  cases (coreWeight counters snapshot).lookup cpu <;> simp

/-- A pod's CPU power is its share of the node's. -/
theorem podCpuUw_lookup (n : Nat) (uid : String) :
    ((podCpuUw n counters snapshot α β).lookup uid).getD 0 = n * ebpfCpuShare counters snapshot α β uid := by
  unfold podCpuUw
  simp only [coreEnergy_eq]
  rw [getD_groupFold_add]
  exact sum_charges counters snapshot α β (fun u => u = uid) n _

theorem podCpuUw_sum (n : Nat) :
    (podCpuUw n counters snapshot α β).values.sum = n * ebpfTotalShare counters snapshot α β := by
  have h := sum_charges counters snapshot α β (fun _ => true) n (corePidTime snapshot.pidCpuTimes).entries
  simp only [List.filter_true] at h
  rw [ebpfTotalShare, shareCharges, ← h, ← List.map_id (podCpuUw n counters snapshot α β).values, AList.sum_values]
  unfold podCpuUw
  simp only [coreEnergy_eq]
  exact total_groupFold (f := id) (g := fun x : String × ℚ => x.2) (fun _ _ => rfl) (fun _ => rfl) _

/-! ## Shares add up to at most one -/

theorem sum_coreShare (cpus : List Nat) : (cpus.map (coreShare counters snapshot)).sum =
    (cpus.map fun cpu => ((coreWeight counters snapshot).lookup cpu).getD 0).sum / totalWeight counters snapshot := by
  have h : cpus.map (coreShare counters snapshot) =
      cpus.map fun cpu => ((coreWeight counters snapshot).lookup cpu).getD 0 * (totalWeight counters snapshot)⁻¹ := by
    refine List.map_congr_left fun cpu _ => ?_
    unfold coreShare
    cases (coreWeight counters snapshot).lookup cpu <;> simp [div_eq_mul_inv]
  rw [h, List.sum_map_mul_right, ← div_eq_mul_inv]

theorem sum_coreShare_le {cpus : List Nat} (hn : cpus.Nodup) : (cpus.map (coreShare counters snapshot)).sum ≤ 1 := by
  rw [sum_coreShare]
  exact div_le_one_of_le₀ (AList.sum_getD_le (fun _ _ => coreWeight_nonneg counters snapshot) hn)
    (totalWeight_nonneg counters snapshot)

theorem ratio_le_one {a b : ℚ} (h : a ≤ b) : ratio a b ≤ 1 := by
  unfold ratio
  split
  · exact div_le_one_of_le₀ h (le_of_lt ‹_›)
  · exact zero_le_one

theorem ratio_add (a b c : ℚ) : ratio (a + b) c = ratio a c + ratio b c := by
  unfold ratio
  split
  · exact add_div a b c
  · exact (add_zero 0).symm

theorem sum_ratio {γ : Type} (f : γ → ℚ) (c : ℚ) (xs : List γ) :
    (xs.map fun x => ratio (f x) c).sum = ratio (xs.map f).sum c := by
  induction xs with
  | nil => simp [ratio]
  | cons x xs ih => rw [List.map_cons, List.sum_cons, ih, List.map_cons, List.sum_cons, ratio_add]

variable {α β}

/-- A core's processes get at most the core's power; those of no pod get none. -/
theorem sum_spread_le (hα : 0 ≤ α) (hβ : 0 ≤ β) {amount : ℚ} (h : 0 ≤ amount) (es : List TimeEntry) :
    ((spread snapshot α β amount es).map (·.2)).sum ≤ amount := by
  have drop : ∀ (total : ℚ) (xs : List TimeEntry),
      ((xs.filterMap fun e => ((pidPod snapshot.pidCpuTimes).lookup e.pid).map fun uid =>
        (uid, amount * ratio (pidWeight snapshot α β e) total)).map (·.2)).sum ≤
      (xs.map fun e => amount * ratio (pidWeight snapshot α β e) total).sum := by
    intro total xs
    induction xs with
    | nil => simp
    | cons e xs ih =>
      have he := mul_nonneg h (ratio_nonneg (pidWeight_nonneg snapshot hα hβ e) total)
      cases hp : (pidPod snapshot.pidCpuTimes).lookup e.pid with
      | none => simp only [List.filterMap_cons, hp, Option.map_none, List.map_cons, List.sum_cons]; linarith
      | some uid => simp only [List.filterMap_cons, hp, Option.map_some, List.map_cons, List.sum_cons]; linarith
  refine (drop _ es).trans ?_
  rw [List.sum_map_mul_left, sum_ratio]
  exact mul_le_of_le_one_right h (ratio_le_one (le_refl _))

theorem ebpfTotalShare_le_one (hα : 0 ≤ α) (hβ : 0 ≤ β) : ebpfTotalShare counters snapshot α β ≤ 1 := by
  have cores : ∀ cs : List (Σ _ : Nat, List TimeEntry),
      ((cs.flatMap fun c => spread snapshot α β (coreShare counters snapshot c.1) c.2).map (·.2)).sum ≤
        ((cs.map (·.1)).map (coreShare counters snapshot)).sum := by
    intro cs
    induction cs with
    | nil => simp
    | cons c cs ih =>
      rw [List.flatMap_cons, List.map_append, List.sum_append, List.map_cons, List.map_cons, List.sum_cons]
      exact add_le_add (sum_spread_le snapshot hα hβ (coreShare_nonneg counters snapshot c.1) c.2) ih
  exact (cores _).trans (sum_coreShare_le counters snapshot (corePidTime snapshot.pidCpuTimes).keys_nodup)

theorem podCpuUw_one_lookup (uid : String) :
    ((podCpuUw 1 counters snapshot α β).lookup uid).getD 0 = ebpfCpuShare counters snapshot α β uid := by
  rw [podCpuUw_lookup, Nat.cast_one, one_mul]

theorem podCpuUw_one_sum :
    (podCpuUw 1 counters snapshot α β).values.sum = ebpfTotalShare counters snapshot α β := by
  rw [podCpuUw_sum, Nat.cast_one, one_mul]

theorem podCpuUw_nonneg (hα : 0 ≤ α) (hβ : 0 ≤ β) {n : Nat} {uid : String} {v : ℚ}
    (h : (podCpuUw n counters snapshot α β).lookup uid = some v) : 0 ≤ v := by
  have hv := podCpuUw_lookup counters snapshot α β n uid
  rw [h, Option.getD_some] at hv
  rw [hv]
  exact mul_nonneg (Nat.cast_nonneg n) (ebpfCpuShare_nonneg counters snapshot hα hβ uid)

/-- Different pods together have no more than all pods. -/
theorem sum_ebpfCpuShare_le (hα : 0 ≤ α) (hβ : 0 ≤ β) {uids : List String} (hn : uids.Nodup) :
    (uids.map (ebpfCpuShare counters snapshot α β)).sum ≤ ebpfTotalShare counters snapshot α β := by
  rw [← podCpuUw_one_sum, ← List.map_congr_left fun uid _ => podCpuUw_one_lookup counters snapshot uid]
  exact AList.sum_getD_le (fun _ _ => podCpuUw_nonneg counters snapshot hα hβ) hn

variable (α β)

/-! ## Memory -/

/-- A pod's share of the memory power, of a CPU total of `n`. -/
def ebpfMemRatio (n : Nat) (hasLlc : Bool) (uid : String) : ℚ :=
  let podCpu := podCpuUw n counters snapshot α β
  let pssRatio := ratio (((podPss snapshot).lookup uid).getD 0) (podPss snapshot).values.sum
  if hasLlc then 6 / 10 * pssRatio + 4 / 10 * ratio ((podCpu.lookup uid).getD 0) podCpu.values.sum else pssRatio

variable {α β}

theorem ebpfMemRatio_nonneg (hα : 0 ≤ α) (hβ : 0 ≤ β) (n : Nat) (hasLlc : Bool) (uid : String) :
    0 ≤ ebpfMemRatio counters snapshot α β n hasLlc uid := by
  have hpss : 0 ≤ ratio (((podPss snapshot).lookup uid).getD 0 : Nat) ((podPss snapshot).values.sum : Nat) :=
    ratio_nonneg (Nat.cast_nonneg _) _
  have hcpu : 0 ≤ ((podCpuUw n counters snapshot α β).lookup uid).getD 0 := by
    rw [podCpuUw_lookup]
    exact mul_nonneg (Nat.cast_nonneg n) (ebpfCpuShare_nonneg counters snapshot hα hβ uid)
  have hllc := ratio_nonneg hcpu (podCpuUw n counters snapshot α β).values.sum
  unfold ebpfMemRatio
  cases hasLlc
  · exact hpss
  · simp only [if_true]
    linarith

theorem sum_pss_le {uids : List String} (hn : uids.Nodup) :
    (uids.map fun uid =>
      ratio (((podPss snapshot).lookup uid).getD 0 : Nat) ((podPss snapshot).values.sum : Nat)).sum ≤ 1 := by
  rw [sum_ratio]
  refine ratio_le_one ?_
  have h := AList.sum_getD_le (m := podPss snapshot) (fun _ v _ => Nat.zero_le v) hn
  have hcast : (uids.map fun uid => ((((podPss snapshot).lookup uid).getD 0 : Nat) : ℚ)).sum =
      ((uids.map fun uid => ((podPss snapshot).lookup uid).getD 0).sum : Nat) := by
    rw [Nat.cast_list_sum, List.map_map]
    rfl
  rw [hcast]
  exact_mod_cast h

theorem sum_ebpfMemRatio_le (hα : 0 ≤ α) (hβ : 0 ≤ β) (n : Nat) (hasLlc : Bool) {uids : List String}
    (hn : uids.Nodup) : (uids.map (ebpfMemRatio counters snapshot α β n hasLlc)).sum ≤ 1 := by
  have hpss := sum_pss_le snapshot hn
  have hllc : (uids.map fun uid => ratio (((podCpuUw n counters snapshot α β).lookup uid).getD 0)
      (podCpuUw n counters snapshot α β).values.sum).sum ≤ 1 := by
    rw [sum_ratio]
    exact ratio_le_one (AList.sum_getD_le (fun _ _ => podCpuUw_nonneg counters snapshot hα hβ) hn)
  unfold ebpfMemRatio
  cases hasLlc
  · exact hpss
  · simp only [if_true]
    rw [List.sum_map_add, List.sum_map_mul_left, List.sum_map_mul_left]
    linarith

variable (α β)

/-! ## The pods it returns -/

/-- The pods the snapshot's processes belong to. -/
def ebpfUids : List String := (pidPod snapshot.pidCpuTimes).values

/-- The pods the attribution returns, of a total of `n`. -/
def ebpfPodUids (n : Nat) : List String := ((podCpuUw n counters snapshot α β).keys ++ (podPss snapshot).keys).dedup

theorem nodup_ebpfPodUids (n : Nat) : (ebpfPodUids counters snapshot α β n).Nodup := List.nodup_dedup _

theorem mem_ebpfPodUids (n : Nat) (uid : String) :
    uid ∈ ebpfPodUids counters snapshot α β n ↔ uid ∈ ebpfUids snapshot := by
  have hpss : uid ∈ podPss snapshot ↔ uid ∈ ebpfUids snapshot := by
    refine (mem_groupFold _ _ _).trans ?_
    simp [ebpfUids, AList.values]
  have hcpu : uid ∈ podCpuUw n counters snapshot α β → uid ∈ ebpfUids snapshot := by
    intro h
    obtain ⟨x, hx, rfl⟩ := (mem_groupFold _ _ _).1 h
    obtain ⟨c, -, hx⟩ := List.mem_flatMap.1 hx
    simp only [coreCharges] at hx
    split at hx
    · cases hx
    · split at hx
      · cases hx
      · obtain ⟨e, -, he⟩ := List.mem_filterMap.1 hx
        obtain ⟨u, hu, rfl⟩ := Option.map_eq_some_iff.1 he
        exact AList.mem_values.2 ⟨e.pid, hu⟩
  rw [ebpfPodUids, List.mem_dedup, List.mem_append, ← AList.mem_keys, ← AList.mem_keys, hpss]
  exact ⟨fun h => h.elim hcpu id, .inr⟩

theorem enumeratePodsEbpfWeighted_eq_nil (nodeName : String) (totalCpuUw totalMemUw totalLlcMisses : Nat)
    (podCache : Table String PodIdentity) (hw : ¬0 < totalWeight counters snapshot) :
    enumeratePodsEbpfWeighted nodeName totalCpuUw totalMemUw totalLlcMisses counters podCache snapshot α β = [] :=
  if_pos (not_lt.1 hw)

/-- Where a core counts, each pod gets its shares of the CPU and the memory power. -/
theorem enumeratePodsEbpfWeighted_eq (nodeName : String) (totalCpuUw totalMemUw totalLlcMisses : Nat)
    (podCache : Table String PodIdentity) (hw : 0 < totalWeight counters snapshot) :
    enumeratePodsEbpfWeighted nodeName totalCpuUw totalMemUw totalLlcMisses counters podCache snapshot α β =
      (ebpfPodUids counters snapshot α β totalCpuUw).map fun uid => podReport nodeName podCache uid
        (portion totalCpuUw (ebpfCpuShare counters snapshot α β uid))
        (portion totalMemUw (ebpfMemRatio counters snapshot α β totalCpuUw (decide (totalLlcMisses > 0)) uid)) 0 0 := by
  refine (if_neg (not_le.2 hw)).trans (List.map_congr_left fun uid _ => ?_)
  simp only [portion, ebpfMemRatio, decide_eq_true_eq, podCpuUw_lookup]

end Shares

end Keck.Agent
