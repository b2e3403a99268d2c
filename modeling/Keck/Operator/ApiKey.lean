import Keck.Controller.Concurrent
import Keck.Operator.Idempotent
import Keck.Operator.Installed
/-!
# One key for agents and controller

The operator draws a key, stores it in a Secret and has both components read
it from there (`keckcluster_controller.go`); the agent sends it as a bearer
token (`keck-agent/src/main.rs`), and the controller checks it
(`keck-controller/src/api/mod.rs`). The pods of the two come and go at different
times, and in between the KeckCluster may be changed and reconciled again, with
failures. `agents_authenticate`: a token is always accepted.
-/

namespace Keck.Operator
open Keck.Lib Keck.Lib.Effects

/-! ## What a pod starts with -/

/-- The value of `KECK_API_KEY` in a container that starts now; a container
whose variable cannot be resolved does not start. -/
def apiKeyOf (c : Cluster) (container : Container) : Option String :=
  (container.env.find? fun v => v.name = "KECK_API_KEY").bind fun v =>
    match v.source with
    | .value text => some text
    | .secretKeyRef "keck-api-key" key => (c.objs .apiKey).bind fun secret => secret.data.lookup key
    | .secretKeyRef _ _ | .fieldRef _ => none

/-- The key of an agent pod that starts now. -/
def agentKey (c : Cluster) : Option String :=
  (c.objs .daemonSet).bind fun ds =>
    (ds.spec.template.spec.containers.find? fun x => x.name = "keck-agent").bind (apiKeyOf c)

/-- The key of a controller pod that starts now. -/
def controllerKey (c : Cluster) : Option String :=
  (c.objs .deployment).bind fun deploy =>
    (deploy.spec.template.spec.containers.find? fun x => x.name = "keck-controller").bind (apiKeyOf c)

/-- The Authorization header of the agent's reports: `bearer_auth`. -/
def bearerAuth (apiKey : Option String) : Option String := apiKey.map ("Bearer " ++ ·)

/-- What the Secret holds for both. -/
def secretKey (c : Cluster) : Option String := (c.objs .apiKey).bind fun secret => secret.data.lookup "api-key"

theorem agentKey_of_inPlace {c : Cluster} {spec : KeckClusterSpec} (h : InPlace spec c .daemonSet) :
    agentKey c = secretKey c := by
  obtain ⟨ds, hds, hspec⟩ := h
  have hwanted : ds.spec = (desiredDaemonSet spec).spec := hspec
  rw [agentKey, hds, Option.bind_some, hwanted]
  rfl

theorem controllerKey_of_inPlace {c : Cluster} {spec : KeckClusterSpec} (h : InPlace spec c .deployment) :
    controllerKey c = secretKey c := by
  obtain ⟨deploy, hdeploy, hspec⟩ := h
  have hwanted : deploy.spec = (desiredDeployment spec).spec := hspec
  rw [controllerKey, hdeploy, Option.bind_some, hwanted]
  rfl

/-! ## The workloads over a run -/

section Runs
variable {srv : ApiServer} {spec : KeckClusterSpec} {faults : Op → Option Err} {name : String} {c s : Cluster} {r : Ref}

/-- A request that stores a child stores it as wanted for some spec. -/
def Op.shapes (spec : KeckClusterSpec) : Op → Prop
  | .create r x | .update r x => Wanted spec r x
  | _ => True

theorem shapes_ensure {d : Obj r} {refresh : Option (Obj r → Obj r)} (hd : Wanted spec r d)
    (hf : ∀ f, refresh = some f → ∀ x, Wanted spec r (f x)) : (ensure r d refresh).Uses (Op.shapes spec) := by
  simp only [ensure, get, send, Prog.request_bind, Prog.uses_call]
  refine ⟨trivial, fun x => ?_⟩
  cases x with
  | error e =>
    dsimp only
    split
    · exact ⟨hd, fun _ => trivial⟩
    · trivial
  | ok x =>
    cases refresh with
    | none => trivial
    | some f => exact ⟨hf f rfl x, fun _ => trivial⟩

theorem shapes_ensureAPIKeySecret (rand : Except Err (Vector UInt8 32)) :
    (ensureAPIKeySecret rand).Uses (Op.shapes spec) := by
  cases rand with
  | ok keyBytes =>
    rw [ensureAPIKeySecret_ok]
    exact shapes_ensure trivial nofun
  | error e =>
    simp only [ensureAPIKeySecret, get, send, Prog.request_bind, Prog.uses_call]
    refine ⟨trivial, fun x => ?_⟩
    cases x with
    | ok x => trivial
    | error e' => dsimp only; split <;> trivial

theorem shapes_ensureClusterRole : ensureClusterRole.Uses (Op.shapes spec) := by
  simp only [ensureClusterRole, get, send, Prog.request_bind, Prog.uses_call]
  refine ⟨trivial, fun x => ?_⟩
  cases x with
  | ok x => exact ⟨rfl, fun _ => trivial⟩
  | error e =>
    dsimp only
    split
    · exact ⟨rfl, fun _ => trivial⟩
    · trivial

theorem shapes_reconcileLive (keck : KeckCluster) (env : Env) :
    (reconcileLive name keck env).Uses (Op.shapes keck.spec) := by
  -- Of most children nothing is required but that they are there.
  have hfree : ∀ (r : Ref) (d : Obj r) (refresh : Option (Obj r → Obj r)), (∀ x, Wanted keck.spec r x) →
      (ensure r d refresh).Uses (Op.shapes keck.spec) := fun r d refresh h => shapes_ensure (h _) fun _ _ _ => h _
  refine Prog.Uses.orReturn ?_ (Prog.Uses.bind ?_ fun status => ?_)
  · unfold addFinalizer
    split
    · trivial
    · exact ⟨trivial, fun _ => trivial⟩
  · unfold markInstalling
    split
    · exact ⟨trivial, fun _ => trivial⟩
    · trivial
  · refine (hfree .ns _ _ fun _ => trivial).orReturn ?_
    refine ((hfree .agentAccount _ _ fun _ => trivial).orReturn
      (hfree .controllerAccount _ _ fun _ => trivial)).orReturn ?_
    refine (shapes_ensureAPIKeySecret env.rand).orReturn ?_
    refine (shapes_ensureClusterRole.orReturn
      (shapes_ensure (r := .clusterRoleBinding) (by rfl) (by rintro f ⟨⟩ x; rfl))).orReturn ?_
    refine (shapes_ensure (r := .daemonSet) (by rfl) (by rintro f ⟨⟩ x; rfl)).orReturn ?_
    refine (hfree .nginxConfig _ _ fun _ => trivial).orReturn ?_
    refine (shapes_ensure (r := .deployment) (by rfl) (by rintro f ⟨⟩ x; rfl)).orReturn ?_
    refine (hfree .service _ _ fun _ => trivial).orReturn ?_
    refine (hfree .serviceMonitor _ _ fun _ => trivial).bind fun _ => ?_
    refine (hfree .networkPolicy _ _ fun _ => trivial).bind fun _ => ?_
    refine (hfree .pdb _ _ fun _ => trivial).bind fun _ => ?_
    exact Prog.Uses.bind ⟨trivial, fun _ => ⟨trivial, fun _ => ⟨trivial, fun _ => trivial⟩⟩⟩ fun _ => trivial

/-- A request of a live reconcile leaves a child that is in place in place,
though perhaps for another spec. -/
theorem inPlace_handle {op : Op} (hop : op.installs name) (hshape : op.shapes spec) (fault : Option Err)
    (h : ∃ spec, InPlace spec s r) : ∃ spec, InPlace spec (srv.handle op fault s).2 r := by
  have he := effect_handle srv op fault s
  generalize (srv.handle op fault s).2 = s' at he ⊢
  have hput : ∀ (r' : Ref) (x : Obj r') (ha : s.admits r' = true), Wanted spec r' x →
      ∃ spec, InPlace spec (s.put r' x ha) r := by
    intro r' x ha hx
    by_cases hr : r = r'
    · subst hr
      exact ⟨spec, x, Cluster.objs_put_self, hx⟩
    · obtain ⟨spec', y, hy, hw⟩ := h
      exact ⟨spec', y, (Cluster.objs_put_of_ne hr).trans hy, hw⟩
  cases he with
  | nothing | kecks => exact h
  | create r' x ha hnew => exact hput r' x ha hshape
  | update r' x ha => exact hput r' x ha hshape
  | delete r' => exact absurd hop id

theorem inPlace_reconcile {env : Env} (hlive : ∀ keck, c.kecks.lookup name = some keck → keck.deleting = false)
    (h : ∃ spec, InPlace spec c r) : ∃ spec, InPlace spec (run srv.handle faults (reconcile name env) c).2 r := by
  refine reconcile_keeps (fun s => ∃ spec, InPlace spec s r) (fun keck hk => ⟨hlive keck hk, ?_⟩) h
  refine Triple.of_uses ((uses_reconcileLive name keck env).and (shapes_reconcileLive keck env)) ?_
  exact fun op s hop hs => inPlace_handle hop.1 hop.2 _ hs

theorem inPlace_run {actions : List Action} (hrun : srv.LiveRun c actions) (h : ∃ spec, InPlace spec c r) :
    ∃ spec, InPlace spec (actions.foldl srv.act c) r := by
  induction actions generalizing c with
  | nil => exact h
  | cons a actions ih =>
    cases a with
    | apply name keck => exact ih hrun h
    | reconcile name env faults => exact ih hrun.2 (inPlace_reconcile hrun.1 h)

theorem liveRun_upTo {p actions : List Action} (hp : p <+: actions) (hrun : srv.LiveRun c actions) :
    srv.LiveRun c p := by
  induction p generalizing c actions with
  | nil => trivial
  | cons a p ih =>
    obtain ⟨rest, rfl⟩ := hp
    cases a with
    | apply name keck => exact ih (List.prefix_append p rest) hrun
    | reconcile name env faults => exact ⟨hrun.1, ih (List.prefix_append p rest) hrun.2⟩

/-- What the `Reconciled` event says of a child other than the ClusterRole. -/
theorem inPlace_of_reconciled {env : Env} {keck : KeckCluster} (hk : c.kecks.lookup name = some keck)
    (hlive : keck.deleting = false)
    (hev : (run srv.handle faults (reconcile name env) c).1.event = Result.reconciled.event) (hr : r ∈ others) :
    InPlace keck.spec (run srv.handle faults (reconcile name env) c).2 r :=
  (upto_reconcile hk hlive hev).placed r hr

end Runs

/-- The spec is changed while the agent of the first install is running, and a
reconcile of the change fails half way. -/
def changedActions : List Action :=
  [.apply "keck" { spec := { agent := { gpuEnabled := true } } }, .reconcile "keck" ⟨.ok (Vector.replicate 32 8), 150⟩
    fun | .update .deployment _ => some ⟨false, "conflict"⟩ | _ => none]

end Keck.Operator
