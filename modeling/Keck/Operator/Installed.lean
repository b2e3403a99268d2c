import Keck.Operator.Desired
import Keck.Operator.Ensure
/-!
# Reaching the Reconciled event

When a reconcile of a live KeckCluster records `Reconciled`, every required
child is in place, except that the ClusterRole may be missing or outdated: its
read is the one whose errors `ensureRBAC` drops.
-/

namespace Keck.Operator
open Keck.Lib Keck.Lib.Effects

variable {srv : ApiServer} {faults : Op → Option Err} {c s : Cluster} {r : Ref} {spec : KeckClusterSpec}

/-- What is required of a child besides being there. -/
def Wanted (spec : KeckClusterSpec) : (r : Ref) → Obj r → Prop
  | .clusterRole, x => x.rules = desiredClusterRole.rules
  | .clusterRoleBinding, x => x.subjects = desiredClusterRoleBinding.subjects
  | .daemonSet, x => x.spec = (desiredDaemonSet spec).spec
  | .deployment, x => x.spec = (desiredDeployment spec).spec
  | _, _ => True

def InPlace (spec : KeckClusterSpec) (c : Cluster) (r : Ref) : Prop := ∃ x, c.objs r = some x ∧ Wanted spec r x

/-- The children whose errors fail a reconcile. -/
def required : List Ref :=
  [.ns, .agentAccount, .controllerAccount, .apiKey, .clusterRole, .clusterRoleBinding, .daemonSet, .nginxConfig,
   .deployment, .service]

/-! ## The state while the children are made -/

/-- The children in `done` are in place, and `role` holds of the ClusterRole. -/
structure Upto (spec : KeckClusterSpec) (done : List Ref) (role : Option ClusterRole → Prop) (s : Cluster) :
    Prop where
  placed : ∀ r ∈ done, InPlace spec s r
  role : role (s.objs .clusterRole)

variable {done : List Ref} {role role' : Option ClusterRole → Prop}

theorem Upto.cons (h : Upto spec done role s) (hr : InPlace spec s r) : Upto spec (r :: done) role s :=
  ⟨List.forall_mem_cons.2 ⟨hr, h.placed⟩, h.role⟩

/-- `Upto` only looks at its own children and at the ClusterRole. -/
theorem Upto.congr {s' : Cluster} (h : Upto spec done role s) (hd : ∀ r ∈ done, s'.objs r = s.objs r)
    (hrole : s'.objs .clusterRole = s.objs .clusterRole) : Upto spec done role s' := by
  constructor
  · intro r hr
    obtain ⟨x, hx, hw⟩ := h.placed r hr
    exact ⟨x, (hd r hr).trans hx, hw⟩
  · rw [hrole]
    exact h.role

theorem Upto.put (h : Upto spec done role s) {x : Obj r} (ha : s.admits r = true) (hr : r ∉ done)
    (hrole : r ≠ .clusterRole) (hx : Wanted spec r x) : Upto spec (r :: done) role (s.put r x ha) := by
  refine (h.congr ?_ ?_).cons ⟨x, Cluster.objs_put_self, hx⟩
  · intro r' hr'
    exact Cluster.objs_put_of_ne fun he => hr (he ▸ hr')
  · exact Cluster.objs_put_of_ne (Ne.symm hrole)

/-! ## One step -/

theorem upto_ensure {d : Obj r} {refresh : Option (Obj r → Obj r)} (hr : r ∉ done) (hrole : r ≠ .clusterRole)
    (hd : Wanted spec r d) (hf : ∀ f, refresh = some f → ∀ x, Wanted spec r (f x))
    (hk : refresh = none → ∀ x, Wanted spec r x) :
    Triple srv.handle faults (Upto spec done role) (ensure r d refresh)
      fun e s => e = none → Upto spec (r :: done) role s := by
  intro s hs hnone
  have he := ensured_ensure srv faults s d refresh
  generalize run srv.handle faults (ensure r d refresh) s = out at he hnone ⊢
  obtain ⟨e, s'⟩ := out
  cases he with
  | failed e => cases hnone
  | created ha hnew => exact hs.put ha hr hrole hd
  | updated hrf hx ha => exact hs.put ha hr hrole (hf _ hrf _)
  | kept hrf hx => exact hs.cons ⟨_, hx, hk hrf _⟩

theorem upto_ensureAPIKeySecret (rand : Except Err (Vector UInt8 32)) (hr : .apiKey ∉ done) :
    Triple srv.handle faults (Upto spec done role) (ensureAPIKeySecret rand)
      fun e s => e = none → Upto spec (.apiKey :: done) role s := by
  cases rand with
  | ok keyBytes =>
    rw [ensureAPIKeySecret_ok]
    exact upto_ensure hr (by simp) trivial (fun _ _ _ => trivial) fun _ _ => trivial
  | error e =>
    -- without a key, only a Secret that is already there is a success
    intro s hs
    simp only [ensureAPIKeySecret, get, send, Prog.request_bind, run_call, handle_get]
    cases hg : (srv.handle (.get .main .apiKey) (faults (.get .main .apiKey)) s).1 with
    | ok x => exact fun _ => hs.cons ⟨x, (objs_of_get hg).2, trivial⟩
    | error e =>
      dsimp only
      split
      · intro hnone
        cases hnone
      · intro hnone
        cases hnone

/-- Reading the ClusterRole did not fail, or failed with not-found, or the
ClusterRole was already as wanted. -/
def RoleReadable (faults : Op → Option Err) (spec : KeckClusterSpec) (c : Cluster) : Prop :=
  ∀ e, faults (.get .main .clusterRole) = some e → e.notFound = false → InPlace spec c .clusterRole

/-- What `ensureClusterRole` says of the ClusterRole in the end: it is in place
exactly if it was readable. -/
def RoleSettled (faults : Op → Option Err) (spec : KeckClusterSpec) (c : Cluster) (o : Option ClusterRole) : Prop :=
  (∃ x, o = some x ∧ Wanted spec .clusterRole x) ↔ RoleReadable faults spec c

theorem upto_ensureClusterRole (hr : .clusterRole ∉ done) :
    Triple srv.handle faults (Upto spec done (· = c.objs .clusterRole)) ensureClusterRole
      fun e s => e = none → Upto spec done (RoleSettled faults spec c) s := by
  intro s hs
  rcases run_ensureClusterRole srv faults s with ⟨e, hrefused, hfound, hrun⟩ | ⟨hread, hrun⟩
  · have hrole : s.objs .clusterRole = c.objs .clusterRole := hs.role
    rw [hrun]
    refine fun _ => ⟨hs.placed, ?_⟩
    rw [hrole]
    exact ⟨fun h _ _ _ => h, fun h => h e hrefused hfound⟩
  · have hreadable : RoleReadable faults spec c := fun e he hnf => by
      rw [hread e he] at hnf
      cases hnf
    -- both ways of storing the role leave it as wanted
    have hput : ∀ (x : ClusterRole) (ha : s.admits .clusterRole = true), x.rules = desiredClusterRole.rules →
        Upto spec done (RoleSettled faults spec c) (s.put .clusterRole x ha) := by
      intro x ha hx
      refine ⟨fun r hmem => ?_, ⟨fun _ => hreadable, fun _ => ⟨x, Cluster.objs_put_self, hx⟩⟩⟩
      obtain ⟨y, hy, hw⟩ := hs.placed r hmem
      have hne : r ≠ .clusterRole := fun he => hr (he ▸ hmem)
      exact ⟨y, (Cluster.objs_put_of_ne hne).trans hy, hw⟩
    rw [hrun]
    have he := ensured_ensure (r := .clusterRole) srv faults s desiredClusterRole (some refreshRole)
    generalize run srv.handle faults (ensure .clusterRole desiredClusterRole (some refreshRole)) s = out at he ⊢
    obtain ⟨e, s'⟩ := out
    intro hnone
    cases he with
    | failed e => cases hnone
    | created ha hnew => exact hput _ ha rfl
    | updated hrf hx ha =>
      cases hrf
      exact hput _ ha rfl
    | kept hrf hx => cases hrf

/-! ## The whole reconcile -/

theorem upto_finish (name : String) (status : KeckClusterStatus) (now : Int) (hd : ∀ r ∈ done, r ∉ bestEffort) :
    Triple srv.handle faults (Upto spec done role) (finish name status now) fun _ => Upto spec done role := by
  apply Triple.of_uses (uses_finish name status now)
  intro op s hop hs
  apply hs.congr
  · intro r hr
    exact objs_handle (fun hw => hd r hr (hop.2 r hw)) _ _
  · exact objs_handle (fun hw => absurd (hop.2 _ hw) (by simp [bestEffort])) _ _

/-- The children other than the ClusterRole, in the order they are made. -/
def others : List Ref :=
  [.service, .deployment, .nginxConfig, .daemonSet, .clusterRoleBinding, .apiKey, .controllerAccount, .agentAccount,
   .ns]

theorem upto_install (name : String) (status : KeckClusterStatus) (env : Env) :
    Triple srv.handle faults (Upto spec [] (· = c.objs .clusterRole)) (install name spec status env)
      fun res s => res.event = Result.reconciled.event → Upto spec others (RoleSettled faults spec c) s := by
  have hfailed : ∀ context e (s : Cluster), (Result.failed context e).event = Result.reconciled.event →
      Upto spec others (RoleSettled faults spec c) s := fun _ _ _ h => by cases h
  have hwarned : ∀ what e (s : Cluster), (Result.warned what e).event = Result.reconciled.event →
      Upto spec others (RoleSettled faults spec c) s := fun _ _ _ h => by cases h
  have hns : Triple srv.handle faults (Upto spec [] (· = c.objs .clusterRole)) ensureNamespace
      fun e s => e = none → Upto spec [.ns] (· = c.objs .clusterRole) s :=
    upto_ensure (by simp) (by simp) trivial (fun _ _ _ => trivial) (fun _ _ => trivial)
  have haccounts : Triple srv.handle faults (Upto spec [.ns] (· = c.objs .clusterRole)) ensureServiceAccount
      fun e s => e = none → Upto spec [.controllerAccount, .agentAccount, .ns] (· = c.objs .clusterRole) s := by
    refine Triple.andThen (upto_ensure (by simp) (by simp) trivial (fun _ _ _ => trivial) fun _ _ => trivial) ?_
      (upto_ensure (by simp) (by simp) trivial (fun _ _ _ => trivial) fun _ _ => trivial)
    intro e s h
    cases h
  have hrbac : Triple srv.handle faults
      (Upto spec [.apiKey, .controllerAccount, .agentAccount, .ns] (· = c.objs .clusterRole)) ensureRBAC
      fun e s => e = none → Upto spec [.clusterRoleBinding, .apiKey, .controllerAccount, .agentAccount, .ns]
        (RoleSettled faults spec c) s := by
    refine Triple.andThen (upto_ensureClusterRole (by simp)) ?_
      (upto_ensure (by simp) (by simp) rfl (by rintro f ⟨⟩ x; rfl) (by simp))
    intro e s h
    cases h
  refine hns.andThen (hfailed _) <| haccounts.andThen (hfailed _) ?_
  refine (upto_ensureAPIKeySecret env.rand (by simp)).andThen (hfailed _) <| hrbac.andThen (hfailed _) ?_
  refine Triple.andThen (upto_ensure (by simp) (by simp) rfl (by rintro f ⟨⟩ x; rfl) (by simp)) (hwarned _) ?_
  refine Triple.andThen (upto_ensure (by simp) (by simp) trivial (by simp) fun _ _ => trivial) (hwarned _) ?_
  refine Triple.andThen (upto_ensure (by simp) (by simp) rfl (by rintro f ⟨⟩ x; rfl) (by simp)) (hwarned _) ?_
  refine Triple.andThen (upto_ensure (by simp) (by simp) trivial (by rintro f ⟨⟩ x; trivial) (by simp)) (hwarned _) ?_
  refine (upto_finish name status env.now (by simp [bestEffort])).conseq (fun s h => h) ?_
  exact fun _ _ h _ => h

/-- What a reconcile that recorded `Reconciled` has left. -/
theorem upto_reconcile {name : String} {env : Env} {keck : KeckCluster} (hk : c.kecks.lookup name = some keck)
    (hlive : keck.deleting = false)
    (hev : (run srv.handle faults (reconcile name env) c).1.event = Result.reconciled.event) :
    Upto keck.spec others (RoleSettled faults keck.spec c) (run srv.handle faults (reconcile name env) c).2 := by
  rcases run_reconcile srv faults hk env with ⟨res, hnone, he⟩ | he
  · rw [he, hnone] at hev
    cases hev
  · rw [he, hlive] at hev ⊢
    have hrun : Triple srv.handle faults (fun s => s.objs = c.objs) (reconcileLive name keck env)
        fun res s => res.event = Result.reconciled.event →
          Upto keck.spec others (RoleSettled faults keck.spec c) s := by
      refine Triple.andThen (M := fun s => s.objs = c.objs) ?_ (fun _ _ h => by cases h) ?_
      · refine (keeps_objs ?_ c.objs).conseq (fun s hs => hs) fun _ _ hs _ => hs
        exact (uses_addFinalizer name keck).mono fun op hop => hop.2
      · refine (keeps_objs ?_ c.objs).bind fun status => ?_
        · exact (uses_markInstalling name keck.status).mono fun op hop => hop.2
        · exact (upto_install name status env).conseq (fun s hs => ⟨by simp, by rw [hs]⟩) fun _ _ h => h
    exact hrun c rfl hev

/-- Once `Reconciled` is recorded, all required children are in place exactly if
the read of the ClusterRole did not fail with an error other than not-found, or
the ClusterRole already had the wanted rules. -/
theorem reconciled_in_place_iff (srv : ApiServer) (faults : Op → Option Err) (c : Cluster) (name : String) (env : Env)
    (keck : KeckCluster) (hk : c.kecks.lookup name = some keck) (hlive : keck.deleting = false)
    (hev : (run srv.handle faults (reconcile name env) c).1.event = Result.reconciled.event) :
    (∀ r ∈ required, InPlace keck.spec (run srv.handle faults (reconcile name env) c).2 r) ↔
      ∀ e, faults (.get .main .clusterRole) = some e → e.notFound = false → InPlace keck.spec c .clusterRole := by
  have hlast := upto_reconcile hk hlive hev
  generalize (run srv.handle faults (reconcile name env) c).2 = after at hlast ⊢
  constructor
  · intro hall
    exact hlast.role.1 (hall .clusterRole (by simp [required]))
  · intro hread r hr
    by_cases hrole : r = .clusterRole
    · subst hrole
      exact hlast.role.2 hread
    · apply hlast.placed
      simp only [required, List.mem_cons, List.not_mem_nil, or_false] at hr
      simp only [others, List.mem_cons, List.not_mem_nil, or_false]
      tauto

theorem quiet_install_in_place :
    (run apiServer.handle (fun _ => none) (reconcile "keck" sampleEnv) (freshCluster "keck" {})).1.event =
      Result.reconciled.event ∧
    ∀ r ∈ required,
      InPlace {} (run apiServer.handle (fun _ => none) (reconcile "keck" sampleEnv) (freshCluster "keck" {})).2 r := by
  have hevent : (run apiServer.handle (fun _ => none) (reconcile "keck" sampleEnv) (freshCluster "keck" {})).1.event =
      Result.reconciled.event := by decide
  refine ⟨hevent, ?_⟩
  apply (reconciled_in_place_iff apiServer (fun _ => none) (freshCluster "keck" {}) "keck" sampleEnv {} rfl rfl
    hevent).2
  intro e he
  cases he

/-- The read of the ClusterRole times out. -/
def roleTimeout : Op → Option Err
  | .get .main .clusterRole => some ⟨false, "etcdserver: request timed out"⟩
  | _ => none

/-- The reconcile records `Reconciled` and returns no error, and there is no
ClusterRole. -/
theorem failed_read_skips_role :
    (run apiServer.handle roleTimeout (reconcile "keck" sampleEnv) (freshCluster "keck" {})).1.event =
      Result.reconciled.event ∧
    (run apiServer.handle roleTimeout (reconcile "keck" sampleEnv) (freshCluster "keck" {})).1.err = none ∧
    (run apiServer.handle roleTimeout (reconcile "keck" sampleEnv) (freshCluster "keck" {})).2.objs .clusterRole =
      none := by
  decide

end Keck.Operator
