import Keck.Operator.Reconcile
/-!
# What one step of a reconcile does

For every pattern of failures: how `create`, `update` and `delete` end, what
`ensure` leaves behind (`Ensured`), and which requests each step makes.
-/

namespace Keck.Operator
open Keck.Lib Keck.Lib.Effects

variable {srv : ApiServer} {faults : Op → Option Err} {c : Cluster} {r : Ref}

/-! ## Requests -/

@[simp] theorem handle_get (site : Site) (r : Ref) (fault : Option Err) (c : Cluster) :
    (srv.handle (.get site r) fault c).2 = c := by
  cases fault with
  | some e => rfl
  | none => exact perform_get site r c

@[simp] theorem handle_getKeck (name : String) (fault : Option Err) (c : Cluster) :
    (srv.handle (.getKeck name) fault c).2 = c := by
  cases fault with
  | some e => rfl
  | none => exact perform_getKeck name c

/-- A successful read answers with what is there. -/
theorem objs_of_get {site : Site} {fault : Option Err} {x : Obj r}
    (h : (srv.handle (.get site r) fault c).1 = .ok x) : fault = none ∧ c.objs r = some x := by
  cases fault with
  | some e => simp at h
  | none =>
    refine ⟨rfl, ?_⟩
    rw [handle_none] at h
    cases hs : c.serves r with
    | false =>
      obtain ⟨e, he⟩ := @ApiServer.get_unserved srv site r c hs
      rw [he] at h
      cases h
    | true =>
      cases hx : c.objs r with
      | some y =>
        rw [srv.get_found hs hx] at h
        cases h
        rfl
      | none =>
        obtain ⟨e, -, he⟩ := @ApiServer.get_absent srv site r c hs hx
        rw [he] at h
        cases h

/-- A read that is not refused finds what is there. -/
theorem get_of_objs {site : Site} {x : Obj r} (hs : c.serves r = true) (h : c.objs r = some x) :
    (srv.handle (.get site r) none c).1 = .ok x := by
  rw [handle_none, srv.get_found hs h]

theorem get_of_absent {site : Site} (hs : c.serves r = true) (h : c.objs r = none) :
    ∃ e, e.notFound = true ∧ (srv.handle (.get site r) none c).1 = .error e := by
  obtain ⟨e, hnf, he⟩ := @ApiServer.get_absent srv site r c hs h
  exact ⟨e, hnf, by rw [handle_none, he]⟩

/-- A failed read that is not a not-found was refused. -/
theorem refused_of_get {site : Site} {fault : Option Err} {e : Err} (hs : c.serves r = true)
    (h : (srv.handle (.get site r) fault c).1 = .error e) (he : e.notFound = false) : fault = some e := by
  cases fault with
  | some e' =>
    cases h
    rfl
  | none =>
    cases hx : c.objs r with
    | some x => rw [get_of_objs hs hx] at h; cases h
    | none =>
      obtain ⟨e', hnf, he'⟩ := @get_of_absent srv c r site hs hx
      rw [he'] at h
      cases h
      rw [hnf] at he
      cases he

theorem run_create (srv : ApiServer) (faults : Op → Option Err) (c : Cluster) (x : Obj r) :
    (∃ e, run srv.handle faults (create r x) c = (some e, c)) ∨
      ∃ h : c.admits r = true, c.objs r = none ∧ run srv.handle faults (create r x) c = (none, c.put r x h) := by
  simp only [create, send, Prog.request_bind, Prog.pure_eq, run_call, run_ret]
  cases faults (.create r x) with
  | some e => exact .inl ⟨e, rfl⟩
  | none =>
    rw [handle_none]
    rcases perform_create srv x c with ⟨e, he⟩ | ⟨ha, hnew, he⟩
    · rw [he]
      exact .inl ⟨e, rfl⟩
    · rw [he]
      exact .inr ⟨ha, hnew, rfl⟩

theorem run_update (srv : ApiServer) (faults : Op → Option Err) (c : Cluster) (x : Obj r) :
    (∃ e, run srv.handle faults (update r x) c = (some e, c)) ∨
      ∃ h : c.admits r = true, run srv.handle faults (update r x) c = (none, c.put r x h) := by
  simp only [update, send, Prog.request_bind, Prog.pure_eq, run_call, run_ret]
  cases faults (.update r x) with
  | some e => exact .inl ⟨e, rfl⟩
  | none =>
    rw [handle_none]
    rcases perform_update srv x c with ⟨e, he⟩ | ⟨ha, he⟩
    · rw [he]
      exact .inl ⟨e, rfl⟩
    · rw [he]
      exact .inr ⟨ha, rfl⟩

/-! ## Ensuring one object -/

/-- How `ensure r desired refresh` can end from `c`. -/
inductive Ensured (r : Ref) (desired : Obj r) (refresh : Option (Obj r → Obj r)) (c : Cluster) :
    Option Err → Cluster → Prop
  | failed (e : Err) : Ensured r desired refresh c (some e) c
  | created (h : c.admits r = true) (hnew : c.objs r = none) :
      Ensured r desired refresh c none (c.put r desired h)
  | updated {f : Obj r → Obj r} (hf : refresh = some f) {x : Obj r} (hx : c.objs r = some x)
      (h : c.admits r = true) : Ensured r desired refresh c none (c.put r (f x) h)
  | kept (hf : refresh = none) {x : Obj r} (hx : c.objs r = some x) : Ensured r desired refresh c none c

theorem ensured_ensure (srv : ApiServer) (faults : Op → Option Err) (c : Cluster) (desired : Obj r)
    (refresh : Option (Obj r → Obj r)) :
    Ensured r desired refresh c (run srv.handle faults (ensure r desired refresh) c).1
      (run srv.handle faults (ensure r desired refresh) c).2 := by
  simp only [ensure, get, send, Prog.request_bind, run_call, handle_get]
  cases hg : (srv.handle (.get .main r) (faults (.get .main r)) c).1 with
  | error e =>
    dsimp only
    split
    · rcases run_create srv faults c desired with ⟨e, he⟩ | ⟨h, hnew, he⟩
      · rw [he]; exact .failed e
      · rw [he]; exact .created h hnew
    · exact .failed e
  | ok x =>
    have hx := (objs_of_get hg).2
    cases refresh with
    | none => exact .kept rfl hx
    | some f =>
      rcases run_update srv faults c (f x) with ⟨e, he⟩ | ⟨h, he⟩
      · dsimp only; rw [he]; exact .failed e
      · dsimp only; rw [he]; exact .updated rfl hx h

/-- Without its CRD a child is not made. -/
theorem ensure_unserved (hs : c.serves r = false) {d : Obj r} {refresh : Option (Obj r → Obj r)} :
    (run srv.handle faults (ensure r d refresh) c).2 = c := by
  have hget : ∃ e, (srv.handle (.get .main r) (faults (.get .main r)) c).1 = .error e := by
    cases faults (.get .main r) with
    | some e => exact ⟨e, rfl⟩
    | none =>
      obtain ⟨e, he⟩ := @ApiServer.get_unserved srv .main r c hs
      exact ⟨e, by rw [handle_none, he]⟩
  have hcreate : (run srv.handle faults (create r d) c).2 = c := by
    simp only [create, send, Prog.request_bind, run_call]
    cases faults (.create r d) with
    | some e => rfl
    | none =>
      obtain ⟨e, he⟩ := @ApiServer.create_refused srv r d c (.inl hs)
      rw [handle_none, he]
      rfl
  obtain ⟨e, he⟩ := hget
  simp only [ensure, get, send, Prog.request_bind, run_call, handle_get, he]
  split
  · exact hcreate
  · rfl

/-- The Secret is ensured like the other children, with a key drawn first. -/
theorem ensureAPIKeySecret_ok (keyBytes : Vector UInt8 32) :
    ensureAPIKeySecret (.ok keyBytes) = ensure .apiKey (desiredSecret keyBytes) none := by
  unfold ensureAPIKeySecret ensure
  congr 1
  funext x
  cases x with
  | ok x => rfl
  | error e => cases h : e.notFound <;> simp [h]

/-- The ClusterRole is ensured like the other children unless its read is
refused with an error other than not-found; then it is left as it is. -/
theorem run_ensureClusterRole (srv : ApiServer) (faults : Op → Option Err) (c : Cluster) :
    (∃ e, faults (.get .main .clusterRole) = some e ∧ e.notFound = false ∧
        run srv.handle faults ensureClusterRole c = (none, c)) ∨
      ((∀ e, faults (.get .main .clusterRole) = some e → e.notFound = true) ∧
        run srv.handle faults ensureClusterRole c =
          run srv.handle faults (ensure .clusterRole desiredClusterRole (some refreshRole)) c) := by
  simp only [ensureClusterRole, ensure, get, send, Prog.request_bind, run_call, handle_get]
  cases hg : (srv.handle (.get .main .clusterRole) (faults (.get .main .clusterRole)) c).1 with
  | ok x =>
    refine .inr ⟨fun e he => ?_, rfl⟩
    rw [(objs_of_get hg).1] at he
    cases he
  | error e =>
    cases hnf : e.notFound with
    | false => exact .inl ⟨e, refused_of_get rfl hg hnf, hnf, by simp [hnf]⟩
    | true =>
      refine .inr ⟨fun e' he' => ?_, by simp [hnf]⟩
      rw [he', handle_some] at hg
      cases hg
      exact hnf

/-! ## The requests of the live branch -/

/-- A request that reads, creates or updates the child `r`. -/
def Op.about (r : Ref) : Op → Prop
  | .get _ r' | .create r' _ | .update r' _ => r' = r
  | _ => False

theorem Op.about.writes {op : Op} {r r' : Ref} (h : op.about r) (hw : op.writes r') : r' = r := by
  cases op with
  | create r'' x | update r'' x => exact hw.trans h
  | get site r'' => exact absurd hw id
  | getKeck | updateKeck | updateKeckStatus | delete => exact absurd h id

theorem uses_ensure (desired : Obj r) (refresh : Option (Obj r → Obj r)) :
    (ensure r desired refresh).Uses (Op.about r) := by
  simp only [ensure, get, send, Prog.request_bind, Prog.uses_call]
  refine ⟨rfl, fun x => ?_⟩
  cases x with
  | error e =>
    dsimp only
    split
    · exact ⟨rfl, fun _ => trivial⟩
    · trivial
  | ok x =>
    cases refresh with
    | none => trivial
    | some f => exact ⟨rfl, fun _ => trivial⟩

/-- What the live branch of a reconcile of `name` may ask for: nothing is
deleted, the Secret is never updated, and no other KeckCluster is written. -/
def Op.installs (name : String) : Op → Prop
  | .getKeck _ | .get .. | .create .. => True
  | .update r _ => r ≠ .apiKey
  | .updateKeck n _ | .updateKeckStatus _ n _ => n = name
  | .delete _ => False

theorem Op.about.installs {op : Op} (h : op.about r) (hr : r ≠ .apiKey) (name : String) : op.installs name := by
  cases op with
  | get | create => trivial
  | update r' x => exact fun h' => hr (h.symm.trans h')
  | getKeck => trivial
  | updateKeck | updateKeckStatus | delete => exact absurd h id

/-- The children of the best-effort steps. -/
def bestEffort : List Ref := [.serviceMonitor, .networkPolicy, .pdb]

theorem uses_finish (name : String) (status : KeckClusterStatus) (now : Int) :
    (finish name status now).Uses fun op => op.installs name ∧ ∀ r, op.writes r → r ∈ bestEffort := by
  have hstep : ∀ (r : Ref) (d : Obj r) (f : Option (Obj r → Obj r)), r ∈ bestEffort → r ≠ .apiKey →
      (ensure r d f).Uses fun op => op.installs name ∧ ∀ r, op.writes r → r ∈ bestEffort := by
    intro r d f hr hne
    apply (uses_ensure d f).mono
    intro op hop
    exact ⟨hop.installs hne name, fun r' hw => hop.writes hw ▸ hr⟩
  refine (hstep .serviceMonitor _ _ (by simp [bestEffort]) (by simp)).bind fun _ => ?_
  refine (hstep .networkPolicy _ _ (by simp [bestEffort]) (by simp)).bind fun _ => ?_
  refine (hstep .pdb _ _ (by simp [bestEffort]) (by simp)).bind fun _ => ?_
  refine Prog.Uses.bind ?_ fun _ => trivial
  exact ⟨⟨trivial, fun _ hw => absurd hw id⟩, fun _ =>
    ⟨⟨trivial, fun _ hw => absurd hw id⟩, fun _ => ⟨⟨rfl, fun _ hw => absurd hw id⟩, fun _ => trivial⟩⟩⟩

theorem uses_ensureAPIKeySecret (rand : Except Err (Vector UInt8 32)) (name : String) :
    (ensureAPIKeySecret rand).Uses (Op.installs name) := by
  simp only [ensureAPIKeySecret, get, send, Prog.request_bind, Prog.uses_call]
  refine ⟨trivial, fun x => ?_⟩
  cases x with
  | ok x => trivial
  | error e =>
    dsimp only
    split
    · trivial
    · cases rand with
      | error e => trivial
      | ok keyBytes => exact ⟨trivial, fun _ => trivial⟩

theorem uses_ensureClusterRole (name : String) : ensureClusterRole.Uses (Op.installs name) := by
  simp only [ensureClusterRole, get, send, Prog.request_bind, Prog.uses_call]
  refine ⟨trivial, fun x => ?_⟩
  cases x with
  | ok x => exact ⟨by simp [Op.installs], fun _ => trivial⟩
  | error e =>
    dsimp only
    split
    · exact ⟨trivial, fun _ => trivial⟩
    · trivial

theorem uses_install (name : String) (spec : KeckClusterSpec) (status : KeckClusterStatus) (env : Env) :
    (install name spec status env).Uses (Op.installs name) := by
  have hstep : ∀ (r : Ref) (d : Obj r) (f : Option (Obj r → Obj r)), r ≠ .apiKey →
      (ensure r d f).Uses (Op.installs name) := fun r d f hne =>
    (uses_ensure d f).mono fun op hop => hop.installs hne name
  refine (hstep .ns _ _ (by simp)).orReturn ?_
  refine ((hstep .agentAccount _ _ (by simp)).orReturn (hstep .controllerAccount _ _ (by simp))).orReturn ?_
  refine (uses_ensureAPIKeySecret env.rand name).orReturn ?_
  refine ((uses_ensureClusterRole name).orReturn (hstep .clusterRoleBinding _ _ (by simp))).orReturn ?_
  refine (hstep .daemonSet _ _ (by simp)).orReturn ?_
  refine (hstep .nginxConfig _ _ (by simp)).orReturn ?_
  refine (hstep .deployment _ _ (by simp)).orReturn ?_
  refine (hstep .service _ _ (by simp)).orReturn ?_
  exact (uses_finish name status env.now).mono fun op hop => hop.1

theorem uses_addFinalizer (name : String) (keck : KeckCluster) :
    (addFinalizer name keck).Uses fun op => op.installs name ∧ ∀ r, ¬op.writes r := by
  unfold addFinalizer
  split
  · trivial
  · exact ⟨⟨rfl, fun _ => id⟩, fun _ => trivial⟩

theorem uses_markInstalling (name : String) (status : KeckClusterStatus) :
    (markInstalling name status).Uses fun op => op.installs name ∧ ∀ r, ¬op.writes r := by
  unfold markInstalling
  split
  · exact ⟨⟨rfl, fun _ => id⟩, fun _ => trivial⟩
  · trivial

theorem uses_reconcileLive (name : String) (keck : KeckCluster) (env : Env) :
    (reconcileLive name keck env).Uses (Op.installs name) := by
  apply Prog.Uses.orReturn
  · exact (uses_addFinalizer name keck).mono fun op hop => hop.1
  · apply Prog.Uses.bind
    · exact (uses_markInstalling name keck.status).mono fun op hop => hop.1
    · intro status
      exact uses_install name keck.spec status env

/-! ## The requests of the deletion branch -/

theorem uses_remove (r : Ref) (context : String) : (remove r context).Uses fun op => ∀ n, ¬op.writesKeck n := by
  simp only [remove, get, send, Prog.request_bind, Prog.uses_call]
  refine ⟨fun n h => h, fun x => ?_⟩
  cases x with
  | error e => trivial
  | ok x =>
    apply Prog.Uses.bind
    · exact ⟨fun n h => h, fun _ => trivial⟩
    · intro e
      split
      · split <;> trivial
      · trivial

theorem uses_removeAll (l : List (Ref × String)) : (removeAll l).Uses fun op => ∀ n, ¬op.writesKeck n := by
  induction l with
  | nil => trivial
  | cons e l ih => exact (uses_remove e.1 e.2).orReturn ih

/-- A reconcile writes no KeckCluster but its own. -/
theorem uses_reconcile (name : String) (env : Env) :
    (reconcile name env).Uses fun op => ∀ n, op.writesKeck n → n = name := by
  simp only [reconcile, send, Prog.request_bind, Prog.uses_call]
  refine ⟨fun _ h => absurd h id, fun x => ?_⟩
  cases x with
  | error e =>
    dsimp only
    split <;> trivial
  | ok keck =>
    dsimp only
    split
    · unfold finalize
      split
      · refine Prog.Uses.orReturn ((uses_removeAll cleaned).mono fun op hop n hn => absurd hn (hop n)) ?_
        exact ⟨fun _ => id, fun x => by cases x <;> trivial⟩
      · trivial
    · apply (uses_reconcileLive name keck env).mono
      intro op hop n hn
      cases op with
      | updateKeck n' _ | updateKeckStatus _ n' _ => exact hn.trans hop
      | getKeck | get | create | update | delete => exact absurd hn id

/-! ## The two branches of a reconcile -/

/-- A program that writes no child leaves the children alone. -/
theorem keeps_objs {α : Type} {p : M α} (hp : p.Uses fun op => ∀ r, ¬op.writes r) (o : (r : Ref) → Option (Obj r)) :
    Triple srv.handle faults (fun s => s.objs = o) p fun _ s => s.objs = o := by
  apply Triple.of_uses hp
  intro op s hop hs
  rw [← hs]
  funext r
  exact objs_handle (hop r) _ _

/-- A reconcile that cannot read its KeckCluster returns without an event;
otherwise it goes on with what it read. -/
theorem run_reconcile (srv : ApiServer) (faults : Op → Option Err) {name : String} {keck : KeckCluster}
    (hk : c.kecks.lookup name = some keck) (env : Env) :
    (∃ res, res.event = none ∧ run srv.handle faults (reconcile name env) c = (res, c)) ∨
      run srv.handle faults (reconcile name env) c =
        run srv.handle faults (if keck.deleting then finalize name keck else reconcileLive name keck env) c := by
  simp only [reconcile, send, Prog.request_bind, run_call, handle_getKeck]
  cases faults (.getKeck name) with
  | some e =>
    left
    dsimp only [handle_some]
    split
    · exact ⟨_, rfl, rfl⟩
    · exact ⟨_, rfl, rfl⟩
  | none =>
    right
    rw [handle_none, srv.getKeck_found hk]

/-- What the steps of a live reconcile keep is kept by any reconcile that finds
its KeckCluster live, or does not find it. -/
theorem reconcile_keeps (I : Cluster → Prop) {name : String} {env : Env}
    (hlive : ∀ keck, c.kecks.lookup name = some keck → keck.deleting = false ∧
      Triple srv.handle faults I (reconcileLive name keck env) fun _ => I) (h : I c) :
    I (run srv.handle faults (reconcile name env) c).2 := by
  cases hk : c.kecks.lookup name with
  | none =>
    simp only [reconcile, send, Prog.request_bind, run_call, handle_getKeck]
    cases faults (.getKeck name) with
    | some e => dsimp only [handle_some]; split <;> exact h
    | none =>
      obtain ⟨e, hnf, he⟩ := srv.getKeck_absent hk
      simpa [he, hnf] using h
  | some keck =>
    obtain ⟨hdel, hkeeps⟩ := hlive keck hk
    rcases run_reconcile srv faults hk env with ⟨res, -, he⟩ | he
    · rw [he]
      exact h
    · rw [he, hdel]
      exact hkeeps c h

end Keck.Operator
