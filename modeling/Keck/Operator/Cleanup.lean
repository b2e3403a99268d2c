import Keck.Operator.Desired
import Keck.Operator.Ensure
/-!
# Removing the finalizer

`cleanupResources` takes any failed read for absence, and any not-found answer
to a deletion for success. The namespaced children still go with the namespace;
the ClusterRole, its binding and the namespace itself are gone exactly if their
own requests were not refused.
-/

namespace Keck.Operator
open Keck.Lib Keck.Lib.Effects

variable {srv : ApiServer} {faults : Op → Option Err} {c : Cluster} {r : Ref}

/-- Neither request of `remove r` is refused. -/
def Cleared (faults : Op → Option Err) (r : Ref) : Prop :=
  faults (.get .main r) = none ∧ faults (.delete r) = none

/-! ## Removing one object -/

theorem run_delete (srv : ApiServer) (faults : Op → Option Err) (c : Cluster) (r : Ref) :
    (∃ e, run srv.handle faults (delete r) c = (some e, c) ∧ (faults (.delete r) ≠ none ∨ c.objs r = none)) ∨
      faults (.delete r) = none ∧ run srv.handle faults (delete r) c = (none, c.erase r) := by
  simp only [delete, send, Prog.request_bind, Prog.pure_eq, run_call, run_ret]
  cases faults (.delete r) with
  | some e => exact .inl ⟨e, rfl, .inl (Option.some_ne_none e)⟩
  | none =>
    rw [handle_none]
    rcases perform_delete srv r c with ⟨hx, e, he⟩ | he
    · rw [he]
      exact .inl ⟨e, rfl, .inr hx⟩
    · rw [he]
      exact .inr ⟨rfl, rfl⟩

/-- `remove` fails, or deletes the object, or leaves the state as it is: then
the object was not there or one of the requests was refused. -/
theorem run_remove (srv : ApiServer) (faults : Op → Option Err) (c : Cluster) {r : Ref}
    (hr : r ≠ .serviceMonitor) (context : String) :
    (∃ e, run srv.handle faults (remove r context) c = (some e, c)) ∨
    (Cleared faults r ∧ run srv.handle faults (remove r context) c = (none, c.erase r)) ∨
    ((c.objs r = none ∨ ¬Cleared faults r) ∧ run srv.handle faults (remove r context) c = (none, c)) := by
  have hserves : c.serves r = true := by simp [Cluster.serves, hr]
  simp only [remove, get, send, Prog.request_bind, Prog.pure_eq, run_call, handle_get]
  cases hg : (srv.handle (.get .main r) (faults (.get .main r)) c).1 with
  | error e =>
    refine .inr (.inr ⟨?_, rfl⟩)
    -- a read that is not refused only fails on an object that is not there
    cases hx : c.objs r with
    | none => exact .inl rfl
    | some x =>
      refine .inr fun hc => ?_
      rw [hc.1, get_of_objs hserves hx] at hg
      cases hg
  | ok x =>
    have hget := (objs_of_get hg).1
    simp only [run_bind]
    rcases run_delete srv faults c r with ⟨e, he, hwhy⟩ | ⟨hdel, he⟩
    · rw [he]
      dsimp only
      split
      · refine .inr (.inr ⟨?_, rfl⟩)
        rcases hwhy with hrefused | hnone
        · exact .inr fun hc => hrefused hc.2
        · exact .inl hnone
      · exact .inl ⟨_, rfl⟩
    · rw [he]
      exact .inr (.inl ⟨⟨hget, hdel⟩, rfl⟩)

/-! ## Removing a list of objects -/

theorem kecks_removeAll (srv : ApiServer) (faults : Op → Option Err) (l : List (Ref × String)) (c : Cluster)
    (name : String) :
    (run srv.handle faults (removeAll l) c).2.kecks.lookup name = c.kecks.lookup name := by
  have h : Triple srv.handle faults (fun s => s.kecks.lookup name = c.kecks.lookup name) (removeAll l)
      fun _ s => s.kecks.lookup name = c.kecks.lookup name := by
    apply Triple.of_uses (uses_removeAll l)
    intro op s hop hs
    rw [kecks_handle (hop name), hs]
  exact h c rfl

/-- After a complete cleanup a cluster-scoped object is gone if it was not there
or both of its requests went through. -/
theorem objs_removeAll {l : List (Ref × String)} (hl : ∀ e ∈ l, e.1 ≠ .serviceMonitor)
    (hr : r.namespaced = false) (h : (run srv.handle faults (removeAll l) c).1 = none) :
    (run srv.handle faults (removeAll l) c).2.objs r = none ↔
      c.objs r = none ∨ r ∈ l.map Prod.fst ∧ Cleared faults r := by
  induction l generalizing c with
  | nil => simp [removeAll]
  | cons e l ih =>
    obtain ⟨hne, hl⟩ := List.forall_mem_cons.1 hl
    simp only [removeAll, Prog.orReturn, run_bind] at h ⊢
    rcases run_remove srv faults c hne e.2 with ⟨e, he⟩ | ⟨hcl, he⟩ | ⟨hkept, he⟩
    · rw [he] at h
      simp at h
    · rw [he] at h ⊢
      rw [ih hl h]
      by_cases hre : r = e.1
      · subst hre
        simp [hcl]
      · simp [Cluster.objs_erase_of_ne hre hr, hre]
    · rw [he] at h ⊢
      rw [ih hl h]
      by_cases hre : r = e.1
      · subst hre
        simp only [List.map_cons, List.mem_cons, true_or, true_and]
        tauto
      · simp [hre]

/-! ## The deletion branch -/

/-- The KeckCluster is gone or no longer carries the operator's finalizer. -/
def FinalizerRemoved (name : String) (c : Cluster) : Prop :=
  ∀ keck, c.kecks.lookup name = some keck → finalizerName ∉ keck.finalizers

/-- The children a complete removal depends on: those that do not go with the
namespace, and the namespace. -/
def clusterScoped : List Ref := [.clusterRoleBinding, .clusterRole, .ns]

/-- If the finalizer goes, the cleanup was complete, and what it left is what is
left. -/
theorem cleanup_of_removed {name : String} {env : Env} {keck : KeckCluster} (hk : c.kecks.lookup name = some keck)
    (hd : keck.deleting = true) (hf : finalizerName ∈ keck.finalizers)
    (hrem : FinalizerRemoved name (run srv.handle faults (reconcile name env) c).2) :
    (run srv.handle faults cleanupResources c).1 = none ∧
      (run srv.handle faults (reconcile name env) c).2.objs = (run srv.handle faults cleanupResources c).2.objs := by
  rcases run_reconcile srv faults hk env with ⟨res, -, he⟩ | he
  · rw [he] at hrem
    exact absurd hf (hrem keck hk)
  · rw [he] at hrem ⊢
    simp only [hd, if_true, finalize, hf, Prog.orReturn, run_bind] at hrem ⊢
    have hkc : (run srv.handle faults cleanupResources c).2.kecks.lookup name = some keck := by
      rw [cleanupResources, kecks_removeAll, hk]
    generalize run srv.handle faults cleanupResources c = cleanup at hrem hkc ⊢
    obtain ⟨_ | e, c'⟩ := cleanup
    · refine ⟨rfl, ?_⟩
      dsimp only
      rw [run_bind]
      have hobjs : ∀ keck', (run srv.handle faults (updateKeck name keck') c').2.objs = c'.objs := fun keck' =>
        keeps_objs (p := updateKeck name keck') ⟨fun _ => id, fun _ => trivial⟩ c'.objs c' rfl
      split <;> exact hobjs _
    · exact absurd hf (hrem keck hkc)

theorem mem_clusterScoped {r : Ref} (hr : r ∈ clusterScoped) :
    r.namespaced = false ∧ r ∈ cleaned.map Prod.fst := by
  simp only [clusterScoped, List.mem_cons, List.not_mem_nil, or_false] at hr
  rcases hr with rfl | rfl | rfl <;> simp [cleaned, Ref.namespaced]

/-- A removed finalizer means a clean cluster exactly if, for each of the
namespace, the ClusterRole and its binding that existed, neither the read nor
the deletion was refused. -/
theorem finalizer_removal_cleans_iff (srv : ApiServer) (faults : Op → Option Err) (c : Cluster) (name : String)
    (env : Env) (keck : KeckCluster) (hk : c.kecks.lookup name = some keck) (hd : keck.deleting = true)
    (hf : finalizerName ∈ keck.finalizers)
    (hrem : FinalizerRemoved name (run srv.handle faults (reconcile name env) c).2) :
    (∀ r ∈ cleaned.map Prod.fst, (run srv.handle faults (reconcile name env) c).2.objs r = none) ↔
      ∀ r ∈ clusterScoped, c.objs r ≠ none → faults (.get .main r) = none ∧ faults (.delete r) = none := by
  obtain ⟨hnone, hobjs⟩ := cleanup_of_removed hk hd hf hrem
  rw [hobjs]
  have hgone : ∀ r ∈ clusterScoped, (run srv.handle faults cleanupResources c).2.objs r = none ↔
      c.objs r = none ∨ Cleared faults r := by
    intro r hr
    obtain ⟨hscope, hlist⟩ := mem_clusterScoped hr
    rw [cleanupResources, objs_removeAll (by simp [cleaned]) hscope hnone]
    simp only [hlist, true_and]
  generalize (run srv.handle faults cleanupResources c).2 = after at hgone ⊢
  constructor
  · intro hall r hr hex
    exact ((hgone r hr).1 (hall r (mem_clusterScoped hr).2)).resolve_left hex
  · intro hcl r _
    have hscoped : ∀ r ∈ clusterScoped, after.objs r = none := fun r hr =>
      (hgone r hr).2 (or_iff_not_imp_left.2 (hcl r hr))
    cases hn : r.namespaced with
    | false =>
      apply hscoped
      cases r <;> simp_all [Ref.namespaced, clusterScoped]
    | true =>
      -- nothing is in a namespace that does not exist
      have hns : after.objs .ns = none := hscoped .ns (by simp [clusterScoped])
      by_contra hne
      have := after.housed r hn (Option.isSome_iff_ne_none.2 hne)
      simp [hns] at this

/-- An installed KeckCluster under deletion. -/
def deletedKeck : KeckCluster where
  deleting := true
  finalizers := [finalizerName]
  status := { phase := .running, agentReady := 3, agentDesired := 3, controllerReady := true }

def deletedCluster : Cluster := settled {} (Vector.replicate 32 1) (AList.singleton "keck" deletedKeck)

theorem quiet_removal_cleans :
    (run apiServer.handle (fun _ => none) (reconcile "keck" sampleEnv) deletedCluster).2.kecks.lookup "keck" = none ∧
    ∀ r ∈ cleaned.map Prod.fst,
      (run apiServer.handle (fun _ => none) (reconcile "keck" sampleEnv) deletedCluster).2.objs r = none := by
  have hgone : (run apiServer.handle (fun _ => none) (reconcile "keck" sampleEnv) deletedCluster).2.kecks.lookup "keck"
      = none := by decide
  refine ⟨hgone, ?_⟩
  apply (finalizer_removal_cleans_iff apiServer (fun _ => none) deletedCluster "keck" sampleEnv deletedKeck
    rfl rfl (by decide) ?_).2
  · intro r _ _
    exact ⟨rfl, rfl⟩
  · intro keck h
    rw [hgone] at h
    cases h

/-- The read of the ClusterRoleBinding times out. -/
def bindingTimeout : Op → Option Err
  | .get .main .clusterRoleBinding => some ⟨false, "etcdserver: request timed out"⟩
  | _ => none

/-- The KeckCluster is gone, the reconcile reports no error, and the binding is
still there. -/
theorem failed_read_keeps_binding :
    (run apiServer.handle bindingTimeout (reconcile "keck" sampleEnv) deletedCluster).1.err = none ∧
    (run apiServer.handle bindingTimeout (reconcile "keck" sampleEnv) deletedCluster).2.kecks.lookup "keck" = none ∧
    (run apiServer.handle bindingTimeout (reconcile "keck" sampleEnv) deletedCluster).2.objs .clusterRoleBinding ≠
      none := by
  decide

end Keck.Operator
