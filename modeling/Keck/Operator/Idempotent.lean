import Keck.Operator.Desired
import Keck.Operator.Ensure
/-!
# Reconciling again

Without failures a reconcile takes every child to its converged form, so a
second one changes nothing. With any failures, no reconcile of a live
KeckCluster touches an existing API key.
-/

namespace Keck.Operator
open Keck.Lib Keck.Lib.Effects

/-- No request is refused. -/
def quiet : Op → Option Err := fun _ => none

section Quiet
variable {srv : ApiServer} {spec : KeckClusterSpec} {keyBytes : Vector UInt8 32} {o : (r : Ref) → Option (Obj r)}
  {m : Bool} {name : String} {keck : KeckCluster} {done : List Ref} {s : Cluster} {r : Ref}

/-- The children once those in `done` have been ensured, from `o`. -/
def progress (spec : KeckClusterSpec) (keyBytes : Vector UInt8 32) (o : (r : Ref) → Option (Obj r))
    (done : List Ref) : (r : Ref) → Option (Obj r) :=
  fun r => if r ∈ done then some (converged spec keyBytes r (o r)) else o r

theorem progress_cons (hr : r ∉ done) :
    progress spec keyBytes o (r :: done) =
      Function.update (progress spec keyBytes o done) r (some (converged spec keyBytes r (o r))) := by
  funext r'
  by_cases h : r' = r
  · subst h
    simp [progress]
  · simp [progress, h]

theorem progress_progress (keyBytes' : Vector UInt8 32) :
    progress spec keyBytes' (progress spec keyBytes o done) done = progress spec keyBytes o done := by
  funext r
  by_cases h : r ∈ done
  · simp only [progress, h, if_true, converged_converged]
  · simp only [progress, h, if_false]

/-- The state of a reconcile of `name` once `done` have been ensured. -/
structure At (spec : KeckClusterSpec) (keyBytes : Vector UInt8 32) (o : (r : Ref) → Option (Obj r)) (m : Bool)
    (name : String) (keck : KeckCluster) (done : List Ref) (s : Cluster) : Prop where
  objs : s.objs = progress spec keyBytes o done
  monitoring : s.monitoring = m
  keck : ∃ status, s.kecks.lookup name = some { keck with status }

theorem At.put (h : At spec keyBytes o m name keck done s) (hr : r ∉ done) (ha : s.admits r = true) {x : Obj r}
    (hx : x = converged spec keyBytes r (o r)) :
    At spec keyBytes o m name keck (r :: done) (s.put r x ha) := by
  refine ⟨?_, h.monitoring, h.keck⟩
  rw [progress_cons hr, Cluster.objs_put, h.objs, hx]

/-! ## One step -/

theorem quiet_create {d : Obj r} (hs : s.serves r = true) (ha : s.admits r = true) (hx : s.objs r = none) :
    run srv.handle quiet (create r d) s = (none, s.put r d ha) := by
  simp [create, send, quiet, srv.create_absent hs hx ha, errOf]

theorem quiet_update {x y : Obj r} (ha : s.admits r = true) (hx : s.objs r = some x) :
    run srv.handle quiet (update r y) s = (none, s.put r y ha) := by
  have hsome : s.objs r ≠ none := by simp [hx]
  simp [update, send, quiet, srv.update_found hsome ha, errOf]

theorem at_ensure {d : Obj r} {refresh : Option (Obj r → Obj r)} (hd : d = desired spec keyBytes r)
    (hf : ∀ x, refresh.getD id x = refreshed spec r x) (hr : r ∉ done) (hns : r.namespaced = true → .ns ∈ done)
    (hserves : r = .serviceMonitor → m = true) :
    Triple srv.handle quiet (At spec keyBytes o m name keck done) (ensure r d refresh)
      fun e s => e = none ∧ At spec keyBytes o m name keck (r :: done) s := by
  intro s hs
  have ho : s.objs r = o r := by simp [hs.objs, progress, hr]
  have hsv : s.serves r = true := by
    by_cases h : r = .serviceMonitor
    · simp [Cluster.serves, hs.monitoring, hserves h]
    · simp [Cluster.serves, h]
  have ha : s.admits r = true := by
    cases h : r.namespaced with
    | false => simp [Cluster.admits, h]
    | true => simp [Cluster.admits, hs.objs, progress, hns h]
  have hq : quiet (.get .main r) = none := rfl
  simp only [ensure, get, send, Prog.request_bind, run_call, handle_get, hq]
  cases hx : s.objs r with
  | none =>
    obtain ⟨e, hnf, he⟩ := @get_of_absent srv s r .main hsv hx
    rw [he]
    dsimp only
    rw [if_pos hnf, quiet_create hsv ha hx]
    exact ⟨rfl, hs.put hr ha (by rw [hd, ← ho, hx]; rfl)⟩
  | some x =>
    have hconv : refresh.getD id x = converged spec keyBytes r (o r) := by rw [hf, ← ho, hx]; rfl
    rw [get_of_objs hsv hx]
    cases refresh with
    | none =>
      refine ⟨rfl, ?_, hs.monitoring, hs.keck⟩
      rw [progress_cons hr, ← hconv, ← hs.objs]
      exact (Function.update_eq_self_iff.2 hx.symm).symm
    | some f =>
      dsimp only
      rw [quiet_update ha hx]
      exact ⟨rfl, hs.put hr ha hconv⟩

theorem at_ensureClusterRole (hr : .clusterRole ∉ done) :
    Triple srv.handle quiet (At spec keyBytes o m name keck done) ensureClusterRole
      fun e s => e = none ∧ At spec keyBytes o m name keck (.clusterRole :: done) s := by
  intro s hs
  rcases run_ensureClusterRole srv quiet s with ⟨e, he, -⟩ | ⟨-, hrun⟩
  · cases he
  · rw [hrun]
    exact at_ensure rfl (fun _ => rfl) hr (fun h => by cases h) (fun h => by cases h) s hs

/-! ## The required children -/

/-- The children of the required steps, the last one first. -/
def ensured : List Ref :=
  [.service, .deployment, .nginxConfig, .daemonSet, .clusterRoleBinding, .clusterRole, .apiKey, .controllerAccount,
   .agentAccount, .ns]

/-- All children a reconcile ensures; the ServiceMonitor only if its CRD is
installed. -/
def ensuredAll (m : Bool) : List Ref :=
  [.pdb, .networkPolicy] ++ (if m then [.serviceMonitor] else []) ++ ensured

theorem at_install {R : Result → Cluster → Prop} {status : KeckClusterStatus} {env : Env}
    (hrand : env.rand = .ok keyBytes)
    (hfinish : Triple srv.handle quiet (At spec keyBytes o m name keck ensured) (finish name status env.now) R) :
    Triple srv.handle quiet (At spec keyBytes o m name keck []) (install name spec status env) R := by
  unfold install ensureServiceAccount ensureRBAC
  rw [hrand, ensureAPIKeySecret_ok]
  have hstep : ∀ {r : Ref} {d : Obj r} {refresh : Option (Obj r → Obj r)} {done : List Ref},
      d = desired spec keyBytes r → (∀ x, refresh.getD id x = refreshed spec r x) → r ∉ done →
      (r.namespaced = true → .ns ∈ done) → r ≠ .serviceMonitor →
      Triple srv.handle quiet (At spec keyBytes o m name keck done) (ensure r d refresh)
        fun e s => e = none ∧ At spec keyBytes o m name keck (r :: done) s :=
    fun hd hf hr hns hne => at_ensure hd hf hr hns fun h => absurd h hne
  refine Triple.orReturn_of_none (hstep rfl (fun _ => rfl) (by simp) (by simp [Ref.namespaced]) (by simp)) ?_
  refine Triple.orReturn_of_none (M := At spec keyBytes o m name keck [.controllerAccount, .agentAccount, .ns]) ?_ ?_
  · exact Triple.orReturn_of_none (hstep rfl (fun _ => rfl) (by simp) (by simp) (by simp))
      (hstep rfl (fun _ => rfl) (by simp) (by simp) (by simp))
  refine Triple.orReturn_of_none (hstep rfl (fun _ => rfl) (by simp) (by simp) (by simp)) ?_
  refine Triple.orReturn_of_none (M := At spec keyBytes o m name keck
    [.clusterRoleBinding, .clusterRole, .apiKey, .controllerAccount, .agentAccount, .ns]) ?_ ?_
  · exact Triple.orReturn_of_none (at_ensureClusterRole (by simp))
      (hstep rfl (fun _ => rfl) (by simp) (by simp) (by simp))
  refine Triple.orReturn_of_none (hstep rfl (fun _ => rfl) (by simp) (by simp) (by simp)) ?_
  refine Triple.orReturn_of_none (hstep rfl (fun _ => rfl) (by simp) (by simp) (by simp)) ?_
  refine Triple.orReturn_of_none (hstep rfl (fun _ => rfl) (by simp) (by simp) (by simp)) ?_
  exact Triple.orReturn_of_none (hstep rfl (fun _ => rfl) (by simp) (by simp) (by simp)) hfinish

/-! ## The best-effort children and the status -/

theorem at_ensureServiceMonitor :
    Triple srv.handle quiet (At spec keyBytes o m name keck ensured) ensureServiceMonitor
      fun _ => At spec keyBytes o m name keck ((if m then [.serviceMonitor] else []) ++ ensured) := by
  cases m with
  | true =>
    refine Triple.conseq (at_ensure rfl (fun _ => rfl) ?_ ?_ fun _ => rfl) (fun s hs => hs) fun _ _ h => h.2
    · simp [ensured]
    · simp [ensured]
  | false =>
    -- the read fails because the CRD is not there
    intro s hs
    have hsv : s.serves .serviceMonitor = false := by simp [Cluster.serves, hs.monitoring]
    rw [ensureServiceMonitor, ensure_unserved hsv]
    exact hs

/-- A status computed from both workloads owes nothing to the one before. -/
theorem nextStatus_ok (status status' : KeckClusterStatus) (ds : DaemonSet) (deploy : Deployment) (now : Int) :
    nextStatus status (.ok ds) (.ok deploy) now = nextStatus status' (.ok ds) (.ok deploy) now := by
  simp only [nextStatus]
  split <;> rfl

/-- The state a quiet reconcile ends in. -/
structure Reconciled (spec : KeckClusterSpec) (keyBytes : Vector UInt8 32) (o : (r : Ref) → Option (Obj r)) (m : Bool)
    (name : String) (keck : KeckCluster) (now : Int) (s : Cluster) : Prop where
  objs : s.objs = progress spec keyBytes o (ensuredAll m)
  monitoring : s.monitoring = m
  keck : s.kecks.lookup name = some { keck with
    status := nextStatus {} (.ok (converged spec keyBytes .daemonSet (o .daemonSet)))
      (.ok (converged spec keyBytes .deployment (o .deployment))) now }

theorem reconciled_updateStatus (status : KeckClusterStatus) (now : Int) :
    Triple srv.handle quiet (At spec keyBytes o m name keck (ensuredAll m)) (updateStatus name status now)
      fun _ => Reconciled spec keyBytes o m name keck now := by
  intro s hs
  have hds : s.objs .daemonSet = some (converged spec keyBytes .daemonSet (o .daemonSet)) := by
    simp [hs.objs, progress, ensuredAll, ensured]
  have hdeploy : s.objs .deployment = some (converged spec keyBytes .deployment (o .deployment)) := by
    simp [hs.objs, progress, ensuredAll, ensured]
  obtain ⟨old, hold⟩ := hs.keck
  have hread : (srv.handle (.get .status .daemonSet) none s).1 = .ok _ := get_of_objs rfl hds
  have hread' : (srv.handle (.get .status .deployment) none s).1 = .ok _ := get_of_objs rfl hdeploy
  have hrun : run srv.handle quiet (updateStatus name status now) s =
      run srv.handle quiet (updateKeckStatus .status name (nextStatus status
        (srv.handle (.get .status .daemonSet) none s).1 (srv.handle (.get .status .deployment) none s).1 now)) s := by
    simp only [updateStatus, send, Prog.request_bind, run_call, handle_get]
    rfl
  rw [hread, hread'] at hrun
  rw [hrun]
  simp only [updateKeckStatus, send, Prog.request_bind, Prog.pure_eq, run_call, run_ret, quiet, handle_none,
    srv.updateKeckStatus_found hold]
  refine ⟨hs.objs, hs.monitoring, ?_⟩
  rw [Cluster.kecks_setKecks, AList.lookup_insert, nextStatus_ok]

theorem reconciled_finish (status : KeckClusterStatus) (now : Int) :
    Triple srv.handle quiet (At spec keyBytes o m name keck ensured) (finish name status now)
      fun _ => Reconciled spec keyBytes o m name keck now := by
  refine at_ensureServiceMonitor.bind fun _ => ?_
  refine Triple.bind (Q := fun _ => At spec keyBytes o m name keck
    (.networkPolicy :: ((if m then [.serviceMonitor] else []) ++ ensured))) ?_ fun _ => ?_
  · refine (at_ensure rfl (fun _ => rfl) ?_ ?_ fun h => by cases h).conseq (fun s hs => hs) fun _ _ h => h.2
    · cases m <;> simp [ensured]
    · simp [ensured]
  refine Triple.bind (Q := fun _ => At spec keyBytes o m name keck (ensuredAll m)) ?_ fun _ => ?_
  · refine (at_ensure rfl (fun _ => rfl) ?_ ?_ fun h => by cases h).conseq (fun s hs => hs) fun _ _ h => h.2
    · cases m <;> simp [ensured]
    · simp [ensured]
  refine (reconciled_updateStatus status now).bind fun _ => ?_
  exact Triple.ret fun s hs => hs

/-! ## The whole reconcile -/

/-- The KeckCluster with the operator's finalizer. -/
def withFinalizer (keck : KeckCluster) : KeckCluster :=
  if finalizerName ∈ keck.finalizers then keck else { keck with finalizers := keck.finalizers ++ [finalizerName] }

variable {c : Cluster}

theorem at_addFinalizer (hk : c.kecks.lookup name = some keck) (hlive : keck.deleting = false) :
    Triple srv.handle quiet (· = c) (addFinalizer name keck)
      fun e s => e = none ∧ At spec keyBytes c.objs c.monitoring name (withFinalizer keck) [] s := by
  rintro s rfl
  have hobjs : s.objs = progress spec keyBytes s.objs [] := by
    funext r
    simp [progress]
  unfold addFinalizer withFinalizer
  split
  · exact ⟨rfl, hobjs, rfl, keck.status, hk⟩
  · simp only [updateKeck, send, Prog.request_bind, Prog.pure_eq, run_call, run_ret, quiet, handle_none,
      srv.updateKeck_found hk, Cluster.replaceKeck, hlive, Bool.false_and, Bool.false_eq_true, if_false]
    exact ⟨rfl, hobjs, rfl, keck.status, by rw [Cluster.kecks_setKecks, AList.lookup_insert]⟩

theorem at_markInstalling (status : KeckClusterStatus) :
    Triple srv.handle quiet (At spec keyBytes o m name keck []) (markInstalling name status)
      fun _ => At spec keyBytes o m name keck [] := by
  unfold markInstalling
  split
  · intro s hs
    obtain ⟨old, hold⟩ := hs.keck
    simp only [updateKeckStatus, send, Prog.request_bind, Prog.call_bind, Prog.ret_bind, Prog.pure_eq, run_call,
      run_ret, quiet, handle_none, srv.updateKeckStatus_found hold]
    exact ⟨hs.objs, hs.monitoring, _, by rw [Cluster.kecks_setKecks, AList.lookup_insert]⟩
  · exact Triple.ret fun s hs => hs

variable (srv) in
/-- Without failures a reconcile takes every child it ensures to its converged
form. -/
theorem reconciled_reconcile {env : Env} (hk : c.kecks.lookup name = some keck) (hlive : keck.deleting = false)
    (hrand : env.rand = .ok keyBytes) :
    Reconciled keck.spec keyBytes c.objs c.monitoring name (withFinalizer keck) env.now
      (run srv.handle quiet (reconcile name env) c).2 := by
  have hrun : run srv.handle quiet (reconcile name env) c = run srv.handle quiet (reconcileLive name keck env) c := by
    simp only [reconcile, send, Prog.request_bind, run_call, handle_getKeck]
    simp [quiet, srv.getKeck_found hk, hlive]
  rw [hrun]
  have h : Triple srv.handle quiet (· = c) (reconcileLive name keck env)
      fun _ => Reconciled keck.spec keyBytes c.objs c.monitoring name (withFinalizer keck) env.now := by
    refine Triple.orReturn_of_none
      (M := At keck.spec keyBytes c.objs c.monitoring name (withFinalizer keck) []) (at_addFinalizer hk hlive) ?_
    refine (at_markInstalling keck.status).bind fun status => ?_
    exact at_install hrand (reconciled_finish status env.now)
  exact h c rfl

/-- The KeckCluster without the time of its last status update. -/
def untimed (keck : KeckCluster) : KeckCluster := { keck with status := { keck.status with lastUpdated := 0 } }

theorem untimed_nextStatus (keck : KeckCluster) (status : KeckClusterStatus) (ds : Except Err DaemonSet)
    (deploy : Except Err Deployment) (now now' : Int) :
    untimed { keck with status := nextStatus status ds deploy now } =
      untimed { keck with status := nextStatus status ds deploy now' } := rfl

theorem withFinalizer_live (hlive : keck.deleting = false) : (withFinalizer keck).deleting = false := by
  unfold withFinalizer
  split <;> exact hlive

theorem withFinalizer_spec : (withFinalizer keck).spec = keck.spec := by
  unfold withFinalizer
  split <;> rfl

theorem withFinalizer_again (status : KeckClusterStatus) :
    withFinalizer { withFinalizer keck with status } = { withFinalizer keck with status } := by
  have h : finalizerName ∈ (withFinalizer keck).finalizers := by
    unfold withFinalizer
    split
    · assumption
    · simp
  exact if_pos h

/-- A second reconcile changes no child, and of its KeckCluster only the time of
the status. -/
theorem reconcile_again {env env' : Env} {keyBytes' : Vector UInt8 32} (hk : c.kecks.lookup name = some keck)
    (hlive : keck.deleting = false) (hrand : env.rand = .ok keyBytes) (hrand' : env'.rand = .ok keyBytes') :
    (run srv.handle quiet (reconcile name env') (run srv.handle quiet (reconcile name env) c).2).2.objs =
        (run srv.handle quiet (reconcile name env) c).2.objs ∧
      ((run srv.handle quiet (reconcile name env') (run srv.handle quiet (reconcile name env) c).2).2.kecks.lookup
        name).map untimed = ((run srv.handle quiet (reconcile name env) c).2.kecks.lookup name).map untimed := by
  have h := reconciled_reconcile srv hk hlive hrand
  generalize (run srv.handle quiet (reconcile name env) c).2 = once at h ⊢
  have h' := reconciled_reconcile srv h.keck (withFinalizer_live hlive) hrand'
  generalize (run srv.handle quiet (reconcile name env') once).2 = twice at h' ⊢
  -- what a child that was ensured has become stays
  have hobj : ∀ r ∈ ensuredAll c.monitoring,
      converged (withFinalizer keck).spec keyBytes' r (once.objs r) = converged keck.spec keyBytes r (c.objs r) := by
    intro r hr
    rw [h.objs, withFinalizer_spec]
    simp only [progress, hr, if_true, converged_converged]
  constructor
  · rw [h'.objs, h.objs, h.monitoring, withFinalizer_spec, progress_progress]
  · rw [h'.keck, h.keck, withFinalizer_again, hobj .daemonSet (by simp [ensuredAll, ensured]),
      hobj .deployment (by simp [ensuredAll, ensured])]
    exact congrArg some (untimed_nextStatus _ _ _ _ _ _)

end Quiet

/-- A reconcile without failures. -/
def ApiServer.quietly (srv : ApiServer) (name : String) (env : Env) (c : Cluster) : Cluster :=
  (run srv.handle quiet (reconcile name env) c).2

variable {srv : ApiServer}

theorem kecks_quietly_of_ne {name n : String} (hn : n ≠ name) (env : Env) (c : Cluster) :
    (srv.quietly name env c).kecks.lookup n = c.kecks.lookup n := by
  have h : Triple srv.handle quiet (fun s => s.kecks.lookup n = c.kecks.lookup n) (reconcile name env)
      fun _ s => s.kecks.lookup n = c.kecks.lookup n := by
    apply Triple.of_uses (uses_reconcile name env)
    intro op s hop hs
    rw [kecks_handle (fun hw => hn (hop n hw)), hs]
  exact h c rfl

/-! ## The key -/

/-- A request of a live reconcile leaves an existing Secret as it is. -/
theorem secret_handle {op : Op} {name : String} (h : op.installs name) (fault : Option Err) {c : Cluster}
    {secret : Secret} (hs : c.objs .apiKey = some secret) : (srv.handle op fault c).2.objs .apiKey = some secret := by
  have he := effect_handle srv op fault c
  generalize (srv.handle op fault c).2 = c' at he ⊢
  cases he with
  | nothing | kecks => exact hs
  | create r x ha hnew =>
    have hr : r ≠ .apiKey := by
      rintro rfl
      rw [hs] at hnew
      cases hnew
    exact (Cluster.objs_put_of_ne (Ne.symm hr)).trans hs
  | update r x ha => exact (Cluster.objs_put_of_ne (Ne.symm h)).trans hs
  | delete r => exact absurd h id

/-- What happens to a cluster: someone stores a KeckCluster, or one is
reconciled, with some requests refused. -/
inductive Action
  | apply (name : String) (keck : KeckCluster)
  | reconcile (name : String) (env : Env) (faults : Op → Option Err)

def ApiServer.act (srv : ApiServer) (c : Cluster) : Action → Cluster
  | .apply name keck => c.setKecks (c.kecks.insert name keck)
  | .reconcile name env faults => (run srv.handle faults (reconcile name env) c).2

/-- Only KeckClusters that are not under deletion are reconciled. -/
def ApiServer.LiveRun (srv : ApiServer) : Cluster → List Action → Prop
  | _, [] => True
  | c, .apply name keck :: rest => srv.LiveRun (srv.act c (.apply name keck)) rest
  | c, .reconcile name env faults :: rest =>
    (∀ keck, c.kecks.lookup name = some keck → keck.deleting = false) ∧
      srv.LiveRun (srv.act c (.reconcile name env faults)) rest

theorem secret_reconcile {faults : Op → Option Err} {c : Cluster} {name : String} {env : Env} {secret : Secret}
    (hlive : ∀ keck, c.kecks.lookup name = some keck → keck.deleting = false) (hs : c.objs .apiKey = some secret) :
    (run srv.handle faults (reconcile name env) c).2.objs .apiKey = some secret := by
  refine reconcile_keeps (fun s => s.objs .apiKey = some secret) (fun keck hk => ⟨hlive keck hk, ?_⟩) hs
  exact Triple.of_uses (uses_reconcileLive name keck env) fun op s hop hs => secret_handle hop _ hs

/-- Over any run of live reconciles an existing Secret stays as it is. -/
theorem secret_run {c : Cluster} {actions : List Action} {secret : Secret} (hrun : srv.LiveRun c actions)
    (hs : c.objs .apiKey = some secret) : (actions.foldl srv.act c).objs .apiKey = some secret := by
  induction actions generalizing c with
  | nil => exact hs
  | cons a actions ih =>
    cases a with
    | apply name keck => exact ih hrun hs
    | reconcile name env faults => exact ih hrun.2 (secret_reconcile hrun.1 hs)

/-- Reconciling twice without failures is reconciling once, up to the time of
the status; and whatever fails, an existing API key is never replaced. -/
theorem reconcile_idempotent_keeps_key (srv : ApiServer) :
    (∀ (c : Cluster) (name : String) (keck : KeckCluster) (env env' : Env) (keyBytes keyBytes' : Vector UInt8 32),
      c.kecks.lookup name = some keck → keck.deleting = false → env.rand = .ok keyBytes → env'.rand = .ok keyBytes' →
      (srv.quietly name env' (srv.quietly name env c)).objs = (srv.quietly name env c).objs ∧
      ∀ n, ((srv.quietly name env' (srv.quietly name env c)).kecks.lookup n).map untimed =
        ((srv.quietly name env c).kecks.lookup n).map untimed) ∧
    ∀ (c : Cluster) (actions : List Action) (secret : Secret), srv.LiveRun c actions → c.objs .apiKey = some secret →
      (actions.foldl srv.act c).objs .apiKey = some secret := by
  constructor
  · intro c name keck env env' keyBytes keyBytes' hk hlive hrand hrand'
    obtain ⟨hobjs, hkeck⟩ := reconcile_again hk hlive hrand hrand'
    refine ⟨hobjs, fun n => ?_⟩
    by_cases hn : n = name
    · subst hn
      exact hkeck
    · rw [kecks_quietly_of_ne hn]
  · intro c actions secret hrun hs
    exact secret_run hrun hs

/-- A first install reconciled again, and an installed cluster through a
reconcile whose every request is refused and one without failures. -/
theorem fresh_install_idempotent :
    (apiServer.quietly "keck" sampleEnv (apiServer.quietly "keck" sampleEnv (freshCluster "keck" {}))).objs =
        (apiServer.quietly "keck" sampleEnv (freshCluster "keck" {})).objs ∧
      ([Action.reconcile "keck" sampleEnv fun _ => some .missing, .reconcile "keck" sampleEnv quiet].foldl apiServer.act
        (settled {} (Vector.replicate 32 1) (AList.singleton "keck" {}))).objs .apiKey =
        some (desiredSecret (Vector.replicate 32 1)) := by
  obtain ⟨hagain, hkey⟩ := reconcile_idempotent_keeps_key apiServer
  refine ⟨(hagain (freshCluster "keck" {}) "keck" {} sampleEnv sampleEnv _ _ rfl rfl rfl rfl).1, ?_⟩
  apply hkey
  · refine ⟨?_, ?_, trivial⟩
    all_goals
      intro keck h
      cases h
      rfl
  · rfl

end Keck.Operator
