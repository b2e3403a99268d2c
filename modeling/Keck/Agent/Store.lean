import Keck.Lib.Queues
import Keck.Attribution.Snapshot
/-!
# The agent's local store

`LocalStore` from `keck-agent/src/store/mod.rs`: two rings and the outbox of
pod summaries for the controller. A summary's timestamp is the clock read when
it is made, an input here. The outbox delivers what was pushed, once and in
order (`outbox_delivers_in_order`). Nothing evicts it, so the store's memory
has no bound (`memory_unbounded`); the rings have one, and hold the newest of
what was pushed (`rings_hold_newest`).
-/
namespace Keck.Agent.Store

open Keck.Lib Keck.Attribution

structure PodSummary where
  timestamp : Nat
  podUid : String
  name : String
  ns : String
  cpuUw : Nat
  memoryUw : Nat
  gpuUw : Nat
  totalUw : Nat
  deriving DecidableEq

def PodSummary.of (now : Nat) (pod : PodPower) : PodSummary where
  timestamp := now
  podUid := pod.podUid
  name := pod.name
  ns := pod.ns
  cpuUw := pod.power.cpuUw
  memoryUw := pod.power.memoryUw
  gpuUw := pod.power.gpuUw
  totalUw := pod.power.totalUw

inductive StoreProfile where
  | minimalOf (detailCapacity summaryCapacity : Nat)
  | standardOf (detailCapacity summaryCapacity : Nat)
  | fullOf (detailCapacity summaryCapacity : Nat)

namespace StoreProfile

def minimal : StoreProfile := .minimalOf 100 5000
def standard : StoreProfile := .standardOf 500 50000
def full : StoreProfile := .fullOf 2000 100000

def detailCapacity : StoreProfile → Nat
  | .minimalOf d _ => d
  | .standardOf d _ => d
  | .fullOf d _ => d

def summaryCapacity : StoreProfile → Nat
  | .minimalOf _ s => s
  | .standardOf _ s => s
  | .fullOf _ s => s

end StoreProfile

structure LocalStore where
  detailRing : List AttributionSnapshot
  summaryRing : List PodSummary
  outbox : List PodSummary
  profile : StoreProfile

/-- The summaries of a snapshot's pods, the `i`-th made at time `clock i`. -/
def summaries (clock : Nat → Nat) (snapshot : AttributionSnapshot) : List PodSummary :=
  snapshot.pods.mapIdx fun i pod => PodSummary.of (clock i) pod

namespace LocalStore

def new (profile : StoreProfile) : LocalStore := ⟨[], [], [], profile⟩

/-- Store one summary. -/
def pushSummary (store : LocalStore) (summary : PodSummary) : LocalStore :=
  { store with
    outbox := store.outbox ++ [summary]
    summaryRing := pushRing store.profile.summaryCapacity store.summaryRing summary }

def push (store : LocalStore) (clock : Nat → Nat) (snapshot : AttributionSnapshot) : LocalStore :=
  let store := { store with detailRing := pushRing store.profile.detailCapacity store.detailRing snapshot }
  (summaries clock snapshot).foldl pushSummary store

def latest (store : LocalStore) : Option AttributionSnapshot := store.detailRing.getLast?

def queryPodProcesses (store : LocalStore) (podUid : String) (since : Nat) : List ProcessPower :=
  (store.detailRing.reverse.takeWhile fun s => decide (s.timestamp ≥ since)).flatMap fun s =>
    ((s.pods.filter fun p => p.podUid == podUid).flatMap (·.containers)).flatMap (·.processes)

def queryNamespacePods (store : LocalStore) (ns : String) (since : Nat) : List PodSummary :=
  (store.summaryRing.reverse.takeWhile fun s => decide (s.timestamp ≥ since)).filter fun s => s.ns == ns

/-- The summaries to send, and the store without them. -/
def drainOutbox (store : LocalStore) : List PodSummary × LocalStore := (store.outbox, { store with outbox := [] })

def requeue (store : LocalStore) (summaries : List PodSummary) : LocalStore :=
  { store with outbox := summaries.reverse.foldl (fun outbox s => s :: outbox) store.outbox }

def estimatedMemory (store : LocalStore) : Nat :=
  store.detailRing.length * 4096 + store.summaryRing.length * 128 + store.outbox.length * 128

/-! ## What each operation does to the queues -/

theorem foldl_pushSummary (store : LocalStore) (ss : List PodSummary) :
    ss.foldl pushSummary store =
      { store with
        outbox := store.outbox ++ ss
        summaryRing := ss.foldl (pushRing store.profile.summaryCapacity) store.summaryRing } := by
  induction ss generalizing store with
  | nil => simp
  | cons s ss ih => simp [ih, pushSummary]

theorem push_eq (store : LocalStore) (clock : Nat → Nat) (snapshot : AttributionSnapshot) :
    store.push clock snapshot =
      { store with
        detailRing := pushRing store.profile.detailCapacity store.detailRing snapshot
        summaryRing := (summaries clock snapshot).foldl (pushRing store.profile.summaryCapacity) store.summaryRing
        outbox := store.outbox ++ summaries clock snapshot } :=
  foldl_pushSummary _ _

/-- The batch goes back in front, in its order. -/
theorem requeue_eq (store : LocalStore) (ss : List PodSummary) :
    store.requeue ss = { store with outbox := ss ++ store.outbox } := by
  unfold requeue
  congr 1
  rw [List.foldl_reverse]
  induction ss with
  | nil => rfl
  | cons s ss ih => rw [List.foldr_cons, ih]; rfl

end LocalStore

/-! ## Delivery -/

/-- The store with its upstream: what was acknowledged, the batch on its way,
and what was pushed so far. -/
structure World where
  store : LocalStore
  acked : List (List PodSummary) := []
  inFlight : Option (List PodSummary) := none
  pushed : List PodSummary := []

/-- One operation of the agent, with at most one batch on its way. -/
inductive Step : World → World → Prop
  | push (w : World) (clock : Nat → Nat) (snapshot : AttributionSnapshot) :
      Step w { w with store := w.store.push clock snapshot, pushed := w.pushed ++ summaries clock snapshot }
  | drain (w : World) : w.inFlight = none →
      Step w { w with store := w.store.drainOutbox.2, inFlight := some w.store.drainOutbox.1 }
  | ack (w : World) (batch : List PodSummary) : w.inFlight = some batch →
      Step w { w with acked := w.acked ++ [batch], inFlight := none }
  | requeue (w : World) (batch : List PodSummary) : w.inFlight = some batch →
      Step w { w with store := w.store.requeue batch, inFlight := none }

def Reachable (profile : StoreProfile) (w : World) : Prop :=
  Relation.ReflTransGen Step { store := LocalStore.new profile } w

/-- The sender a world is an implementation of. -/
def World.delivery (w : World) : Delivery PodSummary := ⟨w.acked, w.inFlight, w.store.outbox⟩

/-- Every step of the store is a step of the sender, with the same pushes. -/
theorem step_refines {w w' : World} (h : Step w w') :
    ∃ xs, w'.pushed = w.pushed ++ xs ∧ Delivery.Step w.delivery xs w'.delivery := by
  cases h with
  | push clock snapshot =>
    refine ⟨summaries clock snapshot, rfl, ?_⟩
    rw [LocalStore.push_eq]
    exact Delivery.Step.push _ _
  | drain h => exact ⟨[], (List.append_nil _).symm, Delivery.Step.drain w.delivery h⟩
  | ack batch h => exact ⟨[], (List.append_nil _).symm, Delivery.Step.ack w.delivery batch h⟩
  | requeue batch h =>
    refine ⟨[], (List.append_nil _).symm, ?_⟩
    rw [LocalStore.requeue_eq]
    exact Delivery.Step.requeue w.delivery batch h

theorem run_refines {profile : StoreProfile} {w : World} (h : Reachable profile w) :
    Delivery.Run {} w.pushed w.delivery := by
  induction h with
  | refl => exact Delivery.Run.refl _
  | tail _ hstep ih =>
    obtain ⟨xs, hpushed, hd⟩ := step_refines hstep
    rw [hpushed]
    exact Delivery.Run.step ih hd

/-- In every run: the acknowledged batches, the batch on its way and the outbox
are, in this order, exactly the summaries pushed so far. -/
theorem outbox_delivers_in_order (profile : StoreProfile) (w : World) (h : Reachable profile w) :
    w.acked.flatten ++ w.inFlight.getD [] ++ w.store.outbox = w.pushed :=
  Delivery.log_run (run_refines h)

/-- A snapshot of one pod. -/
def onePod (uid : String) : AttributionSnapshot where
  timestamp := 0
  intervalNs := 1000000000
  node := ⟨{}, none, 0⟩
  processes := []
  pods := [⟨uid, "web-1", "default", { cpuUw := 1000 }, []⟩]
  namespaces := [⟨"default", { cpuUw := 1000 }, 1⟩]
  idlePower := {}
  reconciliation := ⟨none, 0, 0, 0, 0⟩

/-- A push between a drain and the requeue of its batch: the order is kept. -/
theorem requeue_keeps_order :
    ∃ w : World, Reachable .minimal w ∧ w.store.outbox.map (·.podUid) = ["uid-a", "uid-b"] ∧
      w.acked.flatten ++ w.inFlight.getD [] ++ w.store.outbox = w.pushed := by
  let w₀ : World := { store := LocalStore.new .minimal }
  let w₁ : World := { w₀ with
    store := w₀.store.push (fun _ => 1) (onePod "uid-a")
    pushed := w₀.pushed ++ summaries (fun _ => 1) (onePod "uid-a") }
  let w₂ : World := { w₁ with store := w₁.store.drainOutbox.2, inFlight := some w₁.store.drainOutbox.1 }
  let w₃ : World := { w₂ with
    store := w₂.store.push (fun _ => 2) (onePod "uid-b")
    pushed := w₂.pushed ++ summaries (fun _ => 2) (onePod "uid-b") }
  let w₄ : World := { w₃ with store := w₃.store.requeue w₁.store.drainOutbox.1, inFlight := none }
  have h₁ : Reachable .minimal w₁ := .tail .refl (.push _ _ _)
  have h₂ : Reachable .minimal w₂ := .tail h₁ (.drain _ rfl)
  have h₃ : Reachable .minimal w₃ := .tail h₂ (.push _ _ _)
  have h₄ : Reachable .minimal w₄ := .tail h₃ (.requeue _ _ rfl)
  exact ⟨w₄, h₄, rfl, outbox_delivers_in_order .minimal w₄ h₄⟩

/-! ## Memory -/

/-- What push, drain and requeue can make of a new store, with the drained
batches that may still be put back. -/
inductive StoreRun (profile : StoreProfile) : LocalStore → List (List PodSummary) → Prop
  | new : StoreRun profile (LocalStore.new profile) []
  | push {store : LocalStore} {drained : List (List PodSummary)} (clock : Nat → Nat) (snapshot : AttributionSnapshot) :
      StoreRun profile store drained → StoreRun profile (store.push clock snapshot) drained
  | drain {store : LocalStore} {drained : List (List PodSummary)} :
      StoreRun profile store drained → StoreRun profile store.drainOutbox.2 (store.drainOutbox.1 :: drained)
  | requeue {store : LocalStore} {drained : List (List PodSummary)} {batch : List PodSummary} :
      StoreRun profile store drained → batch ∈ drained → StoreRun profile (store.requeue batch) (drained.erase batch)

/-- The rings keep to the profile in every run. -/
theorem rings_bounded {profile : StoreProfile} {store : LocalStore} {drained : List (List PodSummary)}
    (h : StoreRun profile store drained) :
    store.profile = profile ∧ store.detailRing.length ≤ max profile.detailCapacity 1 ∧
      store.summaryRing.length ≤ max profile.summaryCapacity 1 := by
  induction h with
  | new => exact ⟨rfl, Nat.zero_le _, Nat.zero_le _⟩
  | push clock snapshot _ ih =>
    obtain ⟨hp, hd, hs⟩ := ih
    rw [LocalStore.push_eq]
    subst hp
    exact ⟨rfl, length_pushRing_le hd snapshot, length_foldl_pushRing_le _ hs⟩
  | drain _ ih => exact ih
  | requeue _ _ ih => exact ih

/-- So the outbox is all that is left to grow. -/
theorem estimatedMemory_le {profile : StoreProfile} {store : LocalStore} {drained : List (List PodSummary)}
    (h : StoreRun profile store drained) :
    store.estimatedMemory ≤
      max profile.detailCapacity 1 * 4096 + max profile.summaryCapacity 1 * 128 + store.outbox.length * 128 := by
  obtain ⟨-, hd, hs⟩ := rings_bounded h
  unfold LocalStore.estimatedMemory
  omega

/-- A round in which the upstream cannot be reached: push, drain, put back. -/
theorem failed_round {profile : StoreProfile} {store : LocalStore} (h : StoreRun profile store []) :
    ∃ store', StoreRun profile store' [] ∧ store'.outbox.length = store.outbox.length + 1 := by
  have hpush := StoreRun.push (fun _ => 1) (onePod "uid-a") h
  have hback := StoreRun.requeue (StoreRun.drain hpush) List.mem_cons_self
  rw [List.erase_cons_head] at hback
  refine ⟨_, hback, ?_⟩
  rw [LocalStore.requeue_eq, LocalStore.push_eq]
  simp [LocalStore.drainOutbox, summaries, onePod]

theorem failed_rounds (profile : StoreProfile) (n : Nat) :
    ∃ store, StoreRun profile store [] ∧ store.outbox.length = n := by
  induction n with
  | zero => exact ⟨_, StoreRun.new, rfl⟩
  | succ n ih =>
    obtain ⟨store, hrun, hlen⟩ := ih
    obtain ⟨store', hrun', hlen'⟩ := failed_round hrun
    exact ⟨store', hrun', by omega⟩

theorem exists_run_above (profile : StoreProfile) (bound : Nat) :
    ∃ store, StoreRun profile store [] ∧ bound < store.estimatedMemory := by
  obtain ⟨store, hrun, hlen⟩ := failed_rounds profile (bound + 1)
  refine ⟨store, hrun, ?_⟩
  unfold LocalStore.estimatedMemory
  omega

/-- No profile bounds the store's memory: the outbox is never evicted. -/
theorem memory_unbounded (profile : StoreProfile) :
    ¬∃ bound, ∀ store drained, StoreRun profile store drained → store.estimatedMemory ≤ bound := by
  rintro ⟨bound, h⟩
  obtain ⟨store, hrun, hlt⟩ := exists_run_above profile bound
  have hle := h store [] hrun
  omega

/-- The edge profile's budget of 10 MB is passed while the upstream is away. -/
theorem minimal_passes_its_budget :
    ∃ store drained, StoreRun .minimal store drained ∧ 10 * 1024 * 1024 < store.estimatedMemory := by
  obtain ⟨store, hrun, hlt⟩ := exists_run_above .minimal (10 * 1024 * 1024)
  exact ⟨store, [], hrun, hlt⟩

/-! ## What the rings hold -/

/-- A call of `push` and the clock its summaries read. -/
structure Push where
  clock : Nat → Nat
  snapshot : AttributionSnapshot

def pushAll (store : LocalStore) (pushes : List Push) : LocalStore :=
  pushes.foldl (fun store p => store.push p.clock p.snapshot) store

/-- The summaries of all pushes, in order. -/
def pushedSummaries (pushes : List Push) : List PodSummary := pushes.flatMap fun p => summaries p.clock p.snapshot

theorem pushAll_eq (store : LocalStore) (pushes : List Push) :
    pushAll store pushes =
      { store with
        detailRing := (pushes.map (·.snapshot)).foldl (pushRing store.profile.detailCapacity) store.detailRing
        summaryRing := (pushedSummaries pushes).foldl (pushRing store.profile.summaryCapacity) store.summaryRing
        outbox := store.outbox ++ pushedSummaries pushes } := by
  induction pushes generalizing store with
  | nil => simp [pushAll, pushedSummaries]
  | cons p pushes ih =>
    have hstep : pushAll store (p :: pushes) = pushAll (store.push p.clock p.snapshot) pushes := rfl
    rw [hstep, ih, LocalStore.push_eq]
    simp [pushedSummaries]

/-- A pod's processes in a snapshot. -/
def podProcesses (podUid : String) (s : AttributionSnapshot) : List ProcessPower :=
  ((s.pods.filter fun p => p.podUid == podUid).flatMap (·.containers)).flatMap (·.processes)

/-- For every profile and every run of pushes under clocks that do not go
back: the rings hold the newest snapshots and summaries in order, and the
queries return all that match of them since a time, newest entry first. -/
theorem rings_hold_newest (profile : StoreProfile) (hd : 1 ≤ profile.detailCapacity)
    (hs : 1 ≤ profile.summaryCapacity) (pushes : List Push)
    (hsnapshots : (pushes.map (·.snapshot.timestamp)).Pairwise (· ≤ ·))
    (hsummaries : ((pushedSummaries pushes).map (·.timestamp)).Pairwise (· ≤ ·)) :
    let store := pushAll (.new profile) pushes
    store.detailRing = (pushes.map (·.snapshot)).rtake (min pushes.length profile.detailCapacity) ∧
    store.summaryRing =
      (pushedSummaries pushes).rtake (min (pushedSummaries pushes).length profile.summaryCapacity) ∧
    (∀ podUid since, store.queryPodProcesses podUid since =
      (store.detailRing.reverse.filter fun s => decide (s.timestamp ≥ since)).flatMap (podProcesses podUid)) ∧
    ∀ ns since, store.queryNamespacePods ns since =
      store.summaryRing.reverse.filter fun s => decide (s.timestamp ≥ since) && s.ns == ns := by
  have hdetail : (pushAll (.new profile) pushes).detailRing =
      (pushes.map (·.snapshot)).rtake profile.detailCapacity := by
    rw [pushAll_eq]
    exact foldl_pushRing hd _
  have hsummary : (pushAll (.new profile) pushes).summaryRing =
      (pushedSummaries pushes).rtake profile.summaryCapacity := by
    rw [pushAll_eq]
    exact foldl_pushRing hs _
  refine ⟨?_, ?_, ?_, ?_⟩
  · have hmin := rtake_min (pushes.map (·.snapshot)) profile.detailCapacity
    rw [List.length_map] at hmin
    rw [hdetail, hmin]
  · rw [hsummary, rtake_min]
  · intro podUid since
    have htimes : ((pushes.map (·.snapshot)).map AttributionSnapshot.timestamp).Pairwise (· ≤ ·) := by
      rw [List.map_map]
      exact hsnapshots
    unfold LocalStore.queryPodProcesses
    rw [hdetail, scan_eq_filter AttributionSnapshot.timestamp htimes]
    rfl
  · intro ns since
    unfold LocalStore.queryNamespacePods
    rw [hsummary, scan_eq_filter PodSummary.timestamp hsummaries, List.filter_filter]
    congr 1
    funext s
    exact Bool.and_comm _ _

/-- A ring of one: the second snapshot has replaced the first. -/
theorem ring_of_one_holds_newest :
    let pushes : List Push := [⟨fun _ => 1, onePod "uid-a"⟩, ⟨fun _ => 2, onePod "uid-b"⟩]
    (pushAll (.new (.minimalOf 1 1)) pushes).detailRing.map (fun s => s.pods.map (·.podUid)) = [["uid-b"]] ∧
    ∀ ns since, (pushAll (.new (.minimalOf 1 1)) pushes).queryNamespacePods ns since =
      (pushAll (.new (.minimalOf 1 1)) pushes).summaryRing.reverse.filter fun s =>
        decide (s.timestamp ≥ since) && s.ns == ns := by
  intro pushes
  refine ⟨by decide, ?_⟩
  exact (rings_hold_newest (.minimalOf 1 1) (le_refl 1) (le_refl 1) pushes (by decide) (by decide)).2.2.2

end Keck.Agent.Store
