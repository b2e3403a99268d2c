import Keck.Agent.Conservation
/-!
# Each attribution splits the node's power

The two attributions taken by themselves, for any power, any pods and any
state of the agent: neither gives out more of a component than there is
(`ebpf_split_conserves`, `scan_split_conserves`). Where every core that counts
has a process that ran and every process is in a pod, the eBPF attribution
gives out all of the CPU power, up to the rounding of each pod.
-/
namespace Keck.Agent

open Keck.Lib Keck.Lib.Shares

/-! ## The eBPF attribution -/

section Ebpf
variable (counters : List CoreCounterDeltas) (snapshot : EbpfSnapshot) {α β : ℚ}

/-- Some core counts, every core that counts has a process that ran, and every
process is in a pod. -/
structure AllCharged : Prop where
  counts : ∃ cpu w, (coreWeight counters snapshot).lookup cpu = some w ∧ 0 < w
  busy : ∀ cpu w, (coreWeight counters snapshot).lookup cpu = some w → 0 < w →
    ∃ e ∈ snapshot.pidCpuTimes, e.cpu = cpu ∧ 0 < e.timeNs
  resolved : ∀ e ∈ snapshot.pidCpuTimes, ((pidPod snapshot.pidCpuTimes).lookup e.pid).isSome

variable {counters snapshot}

theorem totalWeight_pos (h : AllCharged counters snapshot) : 0 < totalWeight counters snapshot := by
  obtain ⟨cpu, w, hw, hpos⟩ := h.counts
  refine hpos.trans_le (List.single_le_sum (fun v hv => ?_) w (AList.mem_values.2 ⟨cpu, hw⟩))
  obtain ⟨cpu', hv⟩ := AList.mem_values.1 hv
  exact coreWeight_nonneg counters snapshot hv

/-- A core whose processes are all in pods gives out its whole amount, if they
weigh anything. -/
theorem sum_spread_of_resolved {es : List TimeEntry}
    (hres : ∀ e ∈ es, ((pidPod snapshot.pidCpuTimes).lookup e.pid).isSome)
    (hpos : 0 < (es.map (pidWeight snapshot α β)).sum) (amount : ℚ) :
    ((spread snapshot α β amount es).map (·.2)).sum = amount := by
  have hmap : (spread snapshot α β amount es).map (·.2) =
      es.map fun e => amount * ratio (pidWeight snapshot α β e) (es.map (pidWeight snapshot α β)).sum := by
    refine map_filterMap_eq fun e he => ?_
    obtain ⟨uid, hu⟩ := Option.isSome_iff_exists.1 (hres e he)
    exact ⟨_, by rw [hu]; rfl, rfl⟩
  rw [hmap, List.sum_map_mul_left, sum_ratio, ratio, if_pos hpos, div_self hpos.ne', mul_one]

/-- The processes of a core in the snapshot. -/
theorem entries_of_corePidTime {entries : List TimeEntry} {c : Σ _ : Nat, List TimeEntry}
    (hc : c ∈ (corePidTime entries).entries) : c.2 = entries.filter fun e => e.cpu = c.1 := by
  have h : (collect (·.cpu) id entries).lookup c.1 = some c.2 := AList.mem_entries.1 hc
  rw [(lookup_collect h).1, List.map_id]

/-- With nothing left out, a core gives out its whole share. -/
theorem sum_spread_core (h : AllCharged counters snapshot) (hα : 0 ≤ α) (hβ : 0 ≤ β) {c : Σ _ : Nat, List TimeEntry}
    (hc : c ∈ (corePidTime snapshot.pidCpuTimes).entries) :
    ((spread snapshot α β (coreShare counters snapshot c.1) c.2).map (·.2)).sum = coreShare counters snapshot c.1 := by
  have hes := entries_of_corePidTime hc
  rcases eq_or_lt_of_le (coreShare_nonneg counters snapshot c.1) with h0 | hshare
  · -- a core without a share gives nothing
    refine le_antisymm (sum_spread_le snapshot hα hβ (coreShare_nonneg counters snapshot c.1) c.2) ?_
    rw [← h0]
    refine List.sum_nonneg fun y hy => ?_
    obtain ⟨x, hx, rfl⟩ := List.mem_map.1 hy
    obtain ⟨e, -, hx⟩ := List.mem_filterMap.1 hx
    obtain ⟨uid, -, rfl⟩ := Option.map_eq_some_iff.1 hx
    exact mul_nonneg le_rfl (ratio_nonneg (pidWeight_nonneg snapshot hα hβ e) _)
  · refine sum_spread_of_resolved (fun e he => ?_) ?_ _
    · rw [hes] at he
      exact h.resolved e (List.mem_of_mem_filter he)
    · -- its weight is positive, so one of its processes ran
      obtain ⟨w, hw, hpos⟩ : ∃ w, (coreWeight counters snapshot).lookup c.1 = some w ∧ 0 < w := by
        unfold coreShare at hshare
        cases hl : (coreWeight counters snapshot).lookup c.1 with
        | none => simp [hl] at hshare
        | some w =>
          rw [hl, Option.map_some, Option.getD_some] at hshare
          exact ⟨w, rfl, (div_pos_iff_of_pos_right (totalWeight_pos h)).1 hshare⟩
      obtain ⟨e, he, hcpu, htime⟩ := h.busy c.1 w hw hpos
      have hmem : e ∈ c.2 := by
        rw [hes]
        exact List.mem_filter.2 ⟨he, decide_eq_true hcpu⟩
      have hweight : 0 < pidWeight snapshot α β e :=
        lt_of_lt_of_le (Nat.cast_pos.2 htime) (timeNs_le_pidWeight snapshot hα hβ e)
      refine hweight.trans_le (List.single_le_sum (fun y hy => ?_) _ (List.mem_map_of_mem hmem))
      obtain ⟨e', -, rfl⟩ := List.mem_map.1 hy
      exact pidWeight_nonneg snapshot hα hβ e'

/-- With nothing left out, all pods together have the whole CPU power. -/
theorem ebpfTotalShare_eq_one (h : AllCharged counters snapshot) (hα : 0 ≤ α) (hβ : 0 ≤ β) :
    ebpfTotalShare counters snapshot α β = 1 := by
  have hcores : ebpfTotalShare counters snapshot α β =
      ((corePidTime snapshot.pidCpuTimes).keys.map (coreShare counters snapshot)).sum := by
    rw [ebpfTotalShare, shareCharges, sum_map_flatMap, AList.keys, List.keys, List.map_map]
    exact congrArg List.sum (List.map_congr_left fun c hc => sum_spread_core h hα hβ hc)
  -- the cores that count are all in the snapshot
  have hall : ∀ cpu w, (coreWeight counters snapshot).lookup cpu = some w → w ≠ 0 →
      cpu ∈ (corePidTime snapshot.pidCpuTimes).keys := by
    intro cpu w hw h0
    obtain ⟨e, he, hcpu, -⟩ := h.busy cpu w hw ((coreWeight_nonneg counters snapshot hw).lt_of_ne' h0)
    exact AList.mem_keys.1 ((mem_groupFold _ _ _).2 ⟨e, he, hcpu⟩)
  rw [hcores, sum_coreShare, AList.sum_getD_eq (corePidTime snapshot.pidCpuTimes).keys_nodup hall]
  exact div_self (totalWeight_pos h).ne'

variable (counters snapshot α β)

/-- The pods returned have all the shares there are. -/
theorem sum_ebpfCpuShare_eq (n : Nat) :
    ((ebpfPodUids counters snapshot α β n).map (ebpfCpuShare counters snapshot α β)).sum =
      ebpfTotalShare counters snapshot α β := by
  rw [← podCpuUw_one_sum, ← List.map_congr_left fun uid _ => podCpuUw_one_lookup counters snapshot uid]
  refine AList.sum_getD_eq (nodup_ebpfPodUids counters snapshot α β n) fun uid v hv _ => ?_
  have hkey : uid ∈ (podCpuUw 1 counters snapshot α β).keys :=
    AList.mem_keys.1 (AList.lookup_isSome.1 (Option.isSome_of_mem hv))
  rw [mem_ebpfPodUids counters snapshot α β n uid, ← mem_ebpfPodUids counters snapshot α β 1 uid]
  exact List.mem_dedup.2 (List.mem_append_left _ hkey)

end Ebpf

/-- Two processes of two pods, each on its own core. -/
def bothKnown : EbpfSnapshot where
  pidCpuTimes := [spinTime, napTime]

theorem bothKnown_allCharged : AllCharged [] bothKnown where
  counts := ⟨0, 999000000, by decide +kernel, by decide +kernel⟩
  busy cpu w hw _ := by
    have hentries : (coreWeight [] bothKnown).entries = [⟨1, 500000⟩, ⟨0, 999000000⟩] := by decide +kernel
    have hmem := AList.mem_entries.2 hw
    rw [hentries] at hmem
    rcases List.mem_cons.1 hmem with h | h
    · cases h
      exact ⟨napTime, by simp [bothKnown], rfl, by decide⟩
    · cases List.mem_singleton.1 h
      exact ⟨spinTime, by simp [bothKnown], rfl, by decide⟩
  resolved := by decide +kernel

/-- The scan's total of bytes, over all processes, covers those of pods. -/
theorem sum_ioBytes_le (before : Scan) (entries : Option (List ProcEntry)) (net : Table Nat (Nat × Nat)) (tick : Nat) :
    ((scan before entries net tick).processMetrics.map (·.ioBytes)).sum ≤
      (scan before entries net tick).totalIoBytes := by
  have hfold : ∀ (es : List ProcEntry) (s : Scan), (s.processMetrics.map (·.ioBytes)).sum ≤ s.totalIoBytes →
      ((es.foldl (scanEntry (tick % 5 == 0) net) s).processMetrics.map (·.ioBytes)).sum ≤
        (es.foldl (scanEntry (tick % 5 == 0) net) s).totalIoBytes := by
    intro es
    induction es with
    | nil => exact fun _ h => h
    | cons e es ih =>
      intro s h
      refine ih _ ?_
      rcases scanEntry_cases (tick % 5 == 0) net s e with heq | ⟨p, ps, hps, -, -, hio, hproc⟩
      · rwa [heq]
      · rw [hio, hproc]
        rcases hps with rfl | rfl <;> simp <;> omega
  exact hfold _ _ (le_refl 0)

/-- A pod's share of the network power: by bytes, or by CPU where none are
known. -/
def netRatio (s : Scan) (m : PodMetrics) : ℚ :=
  if (s.processMetrics.map (·.netBytes)).sum > 0 then (m.netBytes : ℚ) / (s.processMetrics.map (·.netBytes)).sum
  else cpuRatio s m

section Scan
variable {s : Scan}

theorem sum_podMetrics_cast {f : PodMetrics → Nat} {g : ProcessMetrics → Nat} (hadd : ∀ m p, f (m.add p) = f m + g p)
    (hinit : ∀ uid, f { podUid := uid } = 0) :
    ((podMetrics s).values.map fun m => (f m : ℚ)).sum = ((s.processMetrics.map g).sum : Nat) := by
  rw [← sum_podMetrics hadd hinit, Nat.cast_list_sum, List.map_map]
  rfl

theorem sum_storageRatio_le (h : (s.processMetrics.map (·.ioBytes)).sum ≤ s.totalIoBytes) :
    ((podMetrics s).values.map fun m => ratio m.ioBytes s.totalIoBytes).sum ≤ 1 := by
  rw [sum_ratio, sum_podMetrics_cast (g := (·.ioBytes)) (fun _ _ => rfl) (fun _ => rfl)]
  exact ratio_le_one (by exact_mod_cast h)

/-- The network's bytes are those of the pods alone, so their shares add up to
one; without any, the CPU stands in. -/
theorem sum_netRatio_le (h : s.Covers) : ((podMetrics s).values.map (netRatio s)).sum ≤ 1 := by
  unfold netRatio
  split
  · rename_i hpos
    simp only [div_eq_mul_inv]
    rw [List.sum_map_mul_right, sum_podMetrics_cast (g := (·.netBytes)) (fun _ _ => rfl) (fun _ => rfl)]
    exact (mul_inv_cancel₀ (by exact_mod_cast hpos.ne')).le
  · exact (sum_cpuRatio s _).trans_le (together_le_one h false).1

end Scan

end Keck.Agent
