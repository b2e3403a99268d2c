import Keck.Ebpf.Handlers
/-!
# The cgroup of a process

`handle_sched_switch` enters the incoming task in `PID_CGROUP`, with the cgroup
that `bpf_get_current_cgroup_id` returns. At the tracepoint the current task is
still the outgoing one, so the entry is right exactly if both tasks are in the
same cgroup: `pidCgroup_right_iff`. Where neighbours are in different cgroups
their entries are swapped: `neighbours_swap_cgroups`.
-/
namespace Keck.Ebpf

open Keck.Lib

variable {caps : Caps}

/-- The helper's result at every switch: the cgroup of the task that is left. -/
def HelperOk (cgroup : Nat → Nat) (tr : List SchedSwitch) : Prop := ∀ e ∈ tr, e.cgroupId = cgroup e.prevPid

/-- Every process is mapped to its own cgroup. -/
def OwnCgroup (cgroup : Nat → Nat) (k : Kernel caps) : Prop := ∀ p g, k.pidCgroup.lookup p = some g → g = cgroup p

/-- The switch enters its incoming task: not the idle task, and either known
already or with room for it. -/
def Recorded (k : Kernel caps) (e : SchedSwitch) : Prop := e.nextPid ≠ 0 ∧ k.pidCgroup.accepts e.nextPid = true

theorem pidCgroup_of_not_switch (k : Kernel caps) {op : Op} (h : op.switch? = none) :
    (k.step op).pidCgroup = k.pidCgroup := by
  cases op with
  | schedSwitch e => cases h
  | cpuFrequency e => rfl
  | tcpSendmsg pid arg => simp only [Kernel.step]; rw [tcpSendmsg_frame]
  | tcpRecvmsg pid ret => simp only [Kernel.step]; rw [tcpRecvmsg_frame]
  | enablePmc => rfl

/-- What a switch leaves in the map. -/
theorem lookup_switch (k : Kernel caps) (e : SchedSwitch) (p : Nat) :
    (k.handleSchedSwitch e).pidCgroup.lookup p =
      if p = e.nextPid ∧ e.nextPid ≠ 0 ∧ k.pidCgroup.accepts e.nextPid = true then some e.cgroupId
      else k.pidCgroup.lookup p := by
  simp only [Kernel.handleSchedSwitch]
  by_cases h : e.nextPid = 0
  · simp [h]
  · simp [h, BpfMap.lookup_insert]

/-- A switch between tasks of one cgroup keeps every entry right. -/
theorem ownCgroup_switch {cgroup : Nat → Nat} {k : Kernel caps} (hk : OwnCgroup cgroup k) {e : SchedSwitch}
    (he : e.cgroupId = cgroup e.prevPid) (hc : Recorded k e → cgroup e.prevPid = cgroup e.nextPid) :
    OwnCgroup cgroup (k.handleSchedSwitch e) := by
  intro p g hg
  rw [lookup_switch] at hg
  split at hg
  · rename_i hr
    obtain ⟨rfl, hr⟩ := hr
    cases hg
    rw [he, hc hr]
  · exact hk p g hg

/-- In every trace, all entries are right at every point of it exactly if every
recorded switch leaves a task of the incoming task's cgroup. -/
theorem pidCgroup_right_iff (cgroup : Nat → Nat) (ops : List Op) (hh : HelperOk cgroup (switches ops)) :
    (∀ pre, pre <+: ops → OwnCgroup cgroup (run caps pre)) ↔
      ∀ pre e, pre ++ [.schedSwitch e] <+: ops → Recorded (run caps pre) e →
        cgroup e.prevPid = cgroup e.nextPid := by
  have helper : ∀ pre e, pre ++ [.schedSwitch e] <+: ops → e.cgroupId = cgroup e.prevPid := by
    intro pre e h
    refine hh e (List.mem_filterMap.2 ⟨.schedSwitch e, h.subset ?_, rfl⟩)
    simp
  constructor
  · intro h pre e hpre hr
    have hown := h _ hpre e.nextPid e.cgroupId
    rw [run_concat, Kernel.step, lookup_switch, if_pos ⟨rfl, hr⟩] at hown
    rw [← helper pre e hpre]
    exact hown rfl
  · intro h pre hpre
    induction pre using List.reverseRecOn with
    | nil =>
      intro p g hg
      cases hg
    | append_singleton pre op ih =>
      have ih := ih ((List.prefix_append pre [op]).trans hpre)
      rw [run_concat]
      cases op with
      | schedSwitch e => exact ownCgroup_switch ih (helper pre e hpre) (h pre e hpre)
      | _ =>
        intro p g hg
        rw [pidCgroup_of_not_switch _ rfl] at hg
        exact ih p g hg

/-- Cgroups of a node: two containers, and the root cgroup of everything else. -/
def twoContainers (pid : Nat) : Nat := if pid = 100 ∨ pid = 101 then 5 else if pid = 200 then 6 else 1

/-- Switches on one CPU, as (time, outgoing pid, incoming pid). -/
def turns (l : List (Nat × Nat × Nat)) : List Op :=
  l.map fun x => .schedSwitch { cpu := 0, now := x.1, prevPid := x.2.1, nextPid := x.2.2,
                                cgroupId := twoContainers x.2.1 }

theorem mem_turns {l : List (Nat × Nat × Nat)} {e : SchedSwitch} (h : Op.schedSwitch e ∈ turns l) :
    ∃ x ∈ l, e.prevPid = x.2.1 ∧ e.nextPid = x.2.2 ∧ e.cgroupId = twoContainers x.2.1 := by
  obtain ⟨x, hx, he⟩ := List.mem_map.1 h
  cases he
  exact ⟨x, hx, rfl, rfl, rfl⟩

theorem helperOk_turns (l : List (Nat × Nat × Nat)) : HelperOk twoContainers (switches (turns l)) := by
  intro e he
  obtain ⟨op, hop, hs⟩ := List.mem_filterMap.1 he
  obtain rfl : op = .schedSwitch e := by cases op <;> simp_all [Op.switch?]
  obtain ⟨x, -, hp, -, hc⟩ := mem_turns hop
  rw [hc, hp]

/-- Two threads of one container take turns. -/
theorem threads_keep_cgroup :
    HelperOk twoContainers (switches (turns [(1, 100, 101), (2, 101, 100)])) ∧
    ∀ pre, pre <+: turns [(1, 100, 101), (2, 101, 100)] → OwnCgroup twoContainers (run {} pre) := by
  refine ⟨helperOk_turns _, (pidCgroup_right_iff twoContainers _ (helperOk_turns _)).2 fun pre e hpre _ => ?_⟩
  obtain ⟨x, hx, hp, hn, -⟩ := mem_turns (hpre.subset (List.mem_append_right pre List.mem_cons_self))
  rw [hp, hn]
  clear hp hn
  revert x
  decide

/-- Two containers take turns after the idle task. -/
def neighbours : List Op := turns [(1, 0, 100), (2, 100, 200), (3, 200, 100)]

/-- Each process is mapped to the other's cgroup. -/
theorem neighbours_swap_cgroups :
    HelperOk twoContainers (switches neighbours) ∧ (run {} neighbours).pidCgroup.lookup 100 = some 6 ∧
      (run {} neighbours).pidCgroup.lookup 200 = some 5 ∧ ¬OwnCgroup twoContainers (run {} neighbours) := by
  have h100 : (run {} neighbours).pidCgroup.lookup 100 = some 6 := by decide
  refine ⟨helperOk_turns _, h100, by decide, fun h => ?_⟩
  exact absurd (h 100 6 h100) (by decide)

end Keck.Ebpf
