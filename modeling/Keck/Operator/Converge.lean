import Keck.Operator.Idempotent
/-!
# Converging after failures

Any request of a reconcile may be refused, and the reconcile then stops where
it is. However often that happens, each child is what it was in the beginning
or already in its converged form (`Touched`). So the first reconcile without
failures ends with the children a single clean one makes; only the API key may
be one that an earlier attempt drew.
-/

namespace Keck.Operator
open Keck.Lib Keck.Lib.Effects

variable {srv : ApiServer} {spec : KeckClusterSpec} {drawn : Vector UInt8 32 → Prop}
  {o : (r : Ref) → Option (Obj r)} {m : Bool} {name : String} {s : Cluster} {r : Ref} {faults : Op → Option Err}

/-- A child that was `o r` in the beginning, after some attempts. The key of a
Secret that was not there is one they drew. -/
def Touched (spec : KeckClusterSpec) (drawn : Vector UInt8 32 → Prop) (o : (r : Ref) → Option (Obj r)) (r : Ref)
    (x : Option (Obj r)) : Prop :=
  x = o r ∨ ∃ keyBytes, (r = .apiKey → o r = none → drawn keyBytes) ∧ x = some (converged spec keyBytes r (o r))

/-- The key in the converged form of a child that has none. -/
def noKey : Vector UInt8 32 := Vector.replicate 32 0

theorem touched_desired {keyBytes : Vector UInt8 32} (hkey : r = .apiKey → drawn keyBytes)
    (h : Touched spec drawn o r none) : Touched spec drawn o r (some (desired spec keyBytes r)) := by
  rcases h with h | ⟨_, _, h⟩
  · exact .inr ⟨keyBytes, fun hr _ => hkey hr, by rw [← h]; rfl⟩
  · cases h

theorem touched_refreshed {x : Obj r} (h : Touched spec drawn o r (some x)) :
    Touched spec drawn o r (some (refreshed spec r x)) := by
  rcases h with h | ⟨keyBytes, hkey, h⟩
  · refine .inr ⟨noKey, fun _ hnone => ?_, by rw [← h]; rfl⟩
    rw [← h] at hnone
    cases hnone
  · obtain rfl := Option.some.inj h
    exact .inr ⟨keyBytes, hkey, congrArg some (converged_converged spec keyBytes keyBytes r (o r))⟩

/-- The cluster between two attempts to reconcile `name`. -/
structure Between (spec : KeckClusterSpec) (drawn : Vector UInt8 32 → Prop) (o : (r : Ref) → Option (Obj r)) (m : Bool)
    (name : String) (s : Cluster) : Prop where
  objs : ∀ r, Touched spec drawn o r (s.objs r)
  /-- What a reconcile cannot make is as it was. -/
  unserved : ∀ r, r ∉ ensuredAll m → s.objs r = o r
  monitoring : s.monitoring = m
  keck : ∃ keck, s.kecks.lookup name = some keck ∧ keck.spec = spec ∧ keck.deleting = false

theorem serves_iff_mem_ensuredAll (c : Cluster) (r : Ref) : c.serves r = true ↔ r ∈ ensuredAll c.monitoring := by
  unfold Cluster.serves ensuredAll
  cases c.monitoring <;> cases r <;> simp [ensured]

theorem Between.put (h : Between spec drawn o m name s) (ha : s.admits r = true) (hs : s.serves r = true) {x : Obj r}
    (hx : Touched spec drawn o r (some x)) : Between spec drawn o m name (s.put r x ha) := by
  refine ⟨fun r' => ?_, fun r' hr' => ?_, h.monitoring, h.keck⟩
  · by_cases hr : r' = r
    · subst hr
      rw [Cluster.objs_put_self]
      exact hx
    · rw [Cluster.objs_put_of_ne hr]
      exact h.objs r'
  · have hr : r' ≠ r := by
      rintro rfl
      rw [serves_iff_mem_ensuredAll, h.monitoring] at hs
      exact hr' hs
    rw [Cluster.objs_put_of_ne hr]
    exact h.unserved r' hr'

/-! ## Requests that write no child -/

/-- Reads, and writes of the KeckCluster that leave its spec alone. -/
def Op.mild (spec : KeckClusterSpec) : Op → Prop
  | .getKeck _ | .get .. | .updateKeckStatus .. => True
  | .updateKeck _ keck => keck.spec = spec
  | .create .. | .update .. | .delete _ => False

theorem between_mild {op : Op} (hop : op.mild spec) (fault : Option Err) (h : Between spec drawn o m name s) :
    Between spec drawn o m name (srv.handle op fault s).2 := by
  have hkecks : ∀ ks : Table String KeckCluster,
      (∃ keck, ks.lookup name = some keck ∧ keck.spec = spec ∧ keck.deleting = false) →
      Between spec drawn o m name (s.setKecks ks) := fun ks hk => ⟨h.objs, h.unserved, h.monitoring, hk⟩
  cases fault with
  | some e => exact h
  | none =>
    obtain ⟨keck, hk, hspec, hlive⟩ := h.keck
    cases op with
    | getKeck n => rw [handle_getKeck]; exact h
    | get site r => rw [handle_get]; exact h
    | updateKeckStatus site n status =>
      rw [handle_none]
      rcases perform_updateKeckStatus srv site n status s with ⟨e, he⟩ | ⟨old, hold, he⟩
      · rw [he]
        exact h
      · rw [he]
        by_cases hn : n = name
        · subst hn
          cases hk.symm.trans hold
          exact hkecks _ ⟨_, AList.lookup_insert _, hspec, hlive⟩
        · exact hkecks _ ⟨keck, (AList.lookup_insert_ne (Ne.symm hn)).trans hk, hspec, hlive⟩
    | updateKeck n new =>
      rw [handle_none]
      rcases perform_updateKeck srv n new s with ⟨e, he⟩ | ⟨old, hold, he⟩
      · rw [he]
        exact h
      · rw [he, Cluster.replaceKeck]
        by_cases hn : n = name
        · subst hn
          cases hk.symm.trans hold
          rw [if_neg (by simp [hlive])]
          exact hkecks _ ⟨_, AList.lookup_insert _, hop, hlive⟩
        · split
          · exact hkecks _ ⟨keck, (AList.lookup_erase_ne (Ne.symm hn)).trans hk, hspec, hlive⟩
          · exact hkecks _ ⟨keck, (AList.lookup_insert_ne (Ne.symm hn)).trans hk, hspec, hlive⟩
    | create | update | delete => exact absurd hop id

/-- A program of such requests. -/
theorem between_of_mild {α : Type} {p : M α} (hp : p.Uses (Op.mild spec)) :
    Triple srv.handle faults (Between spec drawn o m name) p fun _ => Between spec drawn o m name :=
  Triple.of_uses hp fun _ _ hop hs => between_mild hop _ hs

theorem mild_addFinalizer {keck : KeckCluster} (hspec : keck.spec = spec) :
    (addFinalizer name keck).Uses (Op.mild spec) := by
  unfold addFinalizer
  split
  · trivial
  · exact ⟨hspec, fun _ => trivial⟩

theorem mild_markInstalling (status : KeckClusterStatus) : (markInstalling name status).Uses (Op.mild spec) := by
  unfold markInstalling
  split
  · exact ⟨trivial, fun _ => trivial⟩
  · trivial

theorem mild_updateStatus (status : KeckClusterStatus) (now : Int) :
    (updateStatus name status now).Uses (Op.mild spec) :=
  ⟨trivial, fun _ => ⟨trivial, fun _ => ⟨trivial, fun _ => trivial⟩⟩⟩

/-! ## Children -/

theorem between_ensure {d : Obj r} {refresh : Option (Obj r → Obj r)}
    (hd : ∃ keyBytes, (r = .apiKey → drawn keyBytes) ∧ d = desired spec keyBytes r)
    (hf : ∀ x, refresh.getD id x = refreshed spec r x) :
    Triple srv.handle faults (Between spec drawn o m name) (ensure r d refresh)
      fun _ => Between spec drawn o m name := by
  intro s hs
  cases hserves : s.serves r with
  | false =>
    rw [ensure_unserved hserves]
    exact hs
  | true =>
    have he := ensured_ensure srv faults s d refresh
    generalize run srv.handle faults (ensure r d refresh) s = out at he ⊢
    obtain ⟨e, s'⟩ := out
    have htouched := hs.objs r
    cases he with
    | failed e => exact hs
    | kept hrf hx => exact hs
    | created ha hnew =>
      obtain ⟨keyBytes, hkey, rfl⟩ := hd
      rw [hnew] at htouched
      exact hs.put ha hserves (touched_desired hkey htouched)
    | updated hrf hx ha =>
      rename_i f x
      subst hrf
      have hfx : f x = refreshed spec r x := hf x
      rw [hx] at htouched
      rw [hfx]
      exact hs.put ha hserves (touched_refreshed htouched)

theorem between_ensureAPIKeySecret {rand : Except Err (Vector UInt8 32)}
    (hdrawn : ∀ keyBytes, rand = .ok keyBytes → drawn keyBytes) :
    Triple srv.handle faults (Between spec drawn o m name) (ensureAPIKeySecret rand)
      fun _ => Between spec drawn o m name := by
  cases rand with
  | ok keyBytes =>
    rw [ensureAPIKeySecret_ok]
    exact between_ensure ⟨keyBytes, fun _ => hdrawn keyBytes rfl, rfl⟩ fun _ => rfl
  | error e =>
    apply between_of_mild
    simp only [ensureAPIKeySecret, get, send, Prog.request_bind, Prog.uses_call]
    refine ⟨trivial, fun x => ?_⟩
    cases x with
    | ok x => trivial
    | error e' => dsimp only; split <;> trivial

theorem between_ensureClusterRole :
    Triple srv.handle faults (Between spec drawn o m name) ensureClusterRole fun _ => Between spec drawn o m name := by
  intro s hs
  rcases run_ensureClusterRole srv faults s with ⟨e, -, -, hrun⟩ | ⟨-, hrun⟩
  · rw [hrun]
    exact hs
  · rw [hrun]
    exact between_ensure ⟨noKey, nofun, rfl⟩ (fun _ => rfl) s hs

/-! ## Attempts -/

/-- A step whatever its outcome, then the rest. -/
theorem between_orReturn {α : Type} {p : M (Option Err)} {fail : Err → α} {rest : M α}
    (hp : Triple srv.handle faults (Between spec drawn o m name) p fun _ => Between spec drawn o m name)
    (hr : Triple srv.handle faults (Between spec drawn o m name) rest fun _ => Between spec drawn o m name) :
    Triple srv.handle faults (Between spec drawn o m name) (p.orReturn fail rest)
      fun _ => Between spec drawn o m name := by
  refine Triple.orReturn (hp.conseq (fun s hs => hs) ?_) hr
  intro e s hs
  cases e with
  | none => exact hs
  | some e => exact hs

theorem between_finish (status : KeckClusterStatus) (now : Int) :
    Triple srv.handle faults (Between spec drawn o m name) (finish name status now)
      fun _ => Between spec drawn o m name := by
  unfold finish ensureServiceMonitor ensureNetworkPolicy ensurePDB
  refine (between_ensure ⟨noKey, nofun, rfl⟩ fun _ => rfl).bind fun _ => ?_
  refine (between_ensure ⟨noKey, nofun, rfl⟩ fun _ => rfl).bind fun _ => ?_
  refine (between_ensure ⟨noKey, nofun, rfl⟩ fun _ => rfl).bind fun _ => ?_
  exact (between_of_mild (mild_updateStatus status now)).bind fun _ => Triple.ret fun _ hs => hs

theorem between_install (status : KeckClusterStatus) {env : Env}
    (hdrawn : ∀ keyBytes, env.rand = .ok keyBytes → drawn keyBytes) :
    Triple srv.handle faults (Between spec drawn o m name) (install name spec status env)
      fun _ => Between spec drawn o m name := by
  unfold install ensureServiceAccount ensureRBAC
  refine between_orReturn (between_ensure ⟨noKey, nofun, rfl⟩ fun _ => rfl) ?_
  refine between_orReturn (between_orReturn (between_ensure ⟨noKey, nofun, rfl⟩ fun _ => rfl)
    (between_ensure ⟨noKey, nofun, rfl⟩ fun _ => rfl)) ?_
  refine between_orReturn (between_ensureAPIKeySecret hdrawn) ?_
  refine between_orReturn (between_orReturn between_ensureClusterRole
    (between_ensure ⟨noKey, nofun, rfl⟩ fun _ => rfl)) ?_
  refine between_orReturn (between_ensure ⟨noKey, nofun, rfl⟩ fun _ => rfl) ?_
  refine between_orReturn (between_ensure ⟨noKey, nofun, rfl⟩ fun _ => rfl) ?_
  refine between_orReturn (between_ensure ⟨noKey, nofun, rfl⟩ fun _ => rfl) ?_
  refine between_orReturn (between_ensure ⟨noKey, nofun, rfl⟩ fun _ => rfl) ?_
  exact between_finish status env.now

theorem between_reconcile (h : Between spec drawn o m name s) {env : Env}
    (hdrawn : ∀ keyBytes, env.rand = .ok keyBytes → drawn keyBytes) :
    Between spec drawn o m name (run srv.handle faults (reconcile name env) s).2 := by
  obtain ⟨keck, hk, hspec, hlive⟩ := h.keck
  refine reconcile_keeps (Between spec drawn o m name) (fun keck' hk' => ?_) h
  cases hk.symm.trans hk'
  refine ⟨hlive, between_orReturn (between_of_mild (mild_addFinalizer hspec)) ?_⟩
  refine (between_of_mild (mild_markInstalling keck.status)).bind fun status => ?_
  rw [hspec]
  exact between_install status hdrawn

/-- The cluster after attempts to reconcile `name`, each with what it drew and
which of its requests were refused. -/
def ApiServer.attempts (srv : ApiServer) (name : String) (c : Cluster) (rounds : List (Env × (Op → Option Err))) :
    Cluster :=
  rounds.foldl (fun c round => (run srv.handle round.2 (reconcile name round.1) c).2) c

theorem between_attempts (h : Between spec drawn o m name s) {rounds : List (Env × (Op → Option Err))}
    (hdrawn : ∀ round ∈ rounds, ∀ keyBytes, round.1.rand = .ok keyBytes → drawn keyBytes) :
    Between spec drawn o m name (srv.attempts name s rounds) := by
  induction rounds generalizing s with
  | nil => exact h
  | cons round rounds ih =>
    refine ih (between_reconcile h (hdrawn round (by simp))) fun later hlater => ?_
    exact hdrawn later (by simp [hlater])

theorem converged_of_ne_apiKey (hr : r ≠ .apiKey) (keyBytes keyBytes' : Vector UInt8 32) (x : Option (Obj r)) :
    converged spec keyBytes r x = converged spec keyBytes' r x := by
  cases x with
  | some x => rfl
  | none =>
    cases r with
    | apiKey => exact absurd rfl hr
    | _ => rfl

/-- The converged form of a child, from what the attempts left of it. -/
theorem converged_of_touched {x : Option (Obj r)} (h : Touched spec drawn o r x) (keyBytes : Vector UInt8 32) :
    ∃ keyBytes', (r = .apiKey → keyBytes' = keyBytes ∨ drawn keyBytes') ∧
      converged spec keyBytes r x = converged spec keyBytes' r (o r) := by
  rcases h with hsame | ⟨keyBytes', hkey, hdone⟩
  · exact ⟨keyBytes, fun _ => .inl rfl, by rw [hsame]⟩
  · rw [hdone, converged_converged]
    cases ho : o r with
    | none => exact ⟨keyBytes', fun hr => .inr (hkey hr ho), rfl⟩
    -- a child that was there keeps its key
    | some y => exact ⟨keyBytes, fun _ => .inl rfl, rfl⟩

/-- After any attempts with any failures, a reconcile without failures ends
with the children it would have made in the beginning; only the API key may be
one that an earlier attempt drew. -/
theorem failed_attempts_converge (srv : ApiServer) (c : Cluster) (name : String) (keck : KeckCluster)
    (hk : c.kecks.lookup name = some keck) (hlive : keck.deleting = false)
    (rounds : List (Env × (Op → Option Err))) (env : Env) (keyBytes : Vector UInt8 32)
    (hrand : env.rand = .ok keyBytes) :
    (∀ r ≠ .apiKey, (srv.quietly name env (srv.attempts name c rounds)).objs r = (srv.quietly name env c).objs r) ∧
    ∃ keyBytes', (keyBytes' = keyBytes ∨ ∃ round ∈ rounds, round.1.rand = .ok keyBytes') ∧
      (srv.quietly name env (srv.attempts name c rounds)).objs .apiKey =
        some (converged keck.spec keyBytes' .apiKey (c.objs .apiKey)) := by
  have hstart : Between keck.spec (fun key => ∃ round ∈ rounds, round.1.rand = .ok key) c.objs c.monitoring name c :=
    ⟨fun _ => .inl rfl, fun _ _ => rfl, rfl, keck, hk, rfl, hlive⟩
  have h := @between_attempts srv _ _ _ _ _ _ hstart rounds fun round hround _ hkey => ⟨round, hround, hkey⟩
  generalize srv.attempts name c rounds = tried at h
  obtain ⟨keck', hk', hspec', hlive'⟩ := h.keck
  have hclean := (reconciled_reconcile srv hk hlive hrand).objs
  have hlate := (reconciled_reconcile srv hk' hlive' hrand).objs
  rw [hspec', h.monitoring] at hlate
  constructor
  · intro r hr
    rw [ApiServer.quietly, ApiServer.quietly, hlate, hclean]
    by_cases hmem : r ∈ ensuredAll c.monitoring
    · obtain ⟨keyBytes', -, hconv⟩ := converged_of_touched (h.objs r) keyBytes
      simp only [progress, hmem, if_true, hconv, converged_of_ne_apiKey hr keyBytes' keyBytes]
    · simp only [progress, hmem, if_false, h.unserved r hmem]
  · obtain ⟨keyBytes', hkey, hconv⟩ := converged_of_touched (h.objs .apiKey) keyBytes
    refine ⟨keyBytes', hkey rfl, ?_⟩
    rw [ApiServer.quietly, hlate]
    simp [progress, ensuredAll, ensured, hconv]

/-- The DaemonSet cannot be created. -/
def noDaemonSet : Op → Option Err
  | .create .daemonSet _ => some ⟨false, "admission webhook denied the request"⟩
  | _ => none

/-- An install that stops at the DaemonSet, with the key drawn, and is then
completed. -/
theorem stopped_install_converges :
    (apiServer.attempts "keck" (freshCluster "keck" {}) [(sampleEnv, noDaemonSet)]).objs .daemonSet = none ∧
    (apiServer.attempts "keck" (freshCluster "keck" {}) [(sampleEnv, noDaemonSet)]).objs .apiKey ≠ none ∧
    (∀ r ≠ .apiKey, (apiServer.quietly "keck" ⟨.ok (Vector.replicate 32 9), 200⟩
        (apiServer.attempts "keck" (freshCluster "keck" {}) [(sampleEnv, noDaemonSet)])).objs r =
      (apiServer.quietly "keck" ⟨.ok (Vector.replicate 32 9), 200⟩ (freshCluster "keck" {})).objs r) ∧
    ∃ keyBytes', (keyBytes' = Vector.replicate 32 9 ∨ ∃ round ∈ [(sampleEnv, noDaemonSet)],
        round.1.rand = .ok keyBytes') ∧
      (apiServer.quietly "keck" ⟨.ok (Vector.replicate 32 9), 200⟩
        (apiServer.attempts "keck" (freshCluster "keck" {}) [(sampleEnv, noDaemonSet)])).objs .apiKey =
        some (desired {} keyBytes' .apiKey) :=
  ⟨by decide, by decide, failed_attempts_converge apiServer (freshCluster "keck" {}) "keck" {} rfl rfl
    [(sampleEnv, noDaemonSet)] ⟨.ok (Vector.replicate 32 9), 200⟩ _ rfl⟩

end Keck.Operator
