import Keck.Operator.Cleanup
/-!
# Two KeckClusters

KeckClusters share their children: whichever is deleted, `cleanupResources`
deletes them for all. Reconciles of two KeckClusters are interleaved request by
request; once `B` has been reconciled, the deletion of `A` does no harm from the
states where `A` does not carry the finalizer, and can tear `B` down from the others.
-/

namespace Keck.Operator
open Keck.Lib Keck.Lib.Effects

inductive Party
  | a | b
deriving DecidableEq

/-- `Reconcile(A)` and `Reconcile(B)`, before their first request. -/
def start (c : Cluster) (a b : String) (envA envB : Env) : Sys Ans Party Result Cluster where
  threads := fun
    | .a => reconcile a envA
    | .b => reconcile b envB
  state := c

/-- `Reconcile(B)` has returned, with its `Reconciled` event. -/
def succeeded (sys : Sys Ans Party Result Cluster) : Bool :=
  match sys.threads .b with
  | .ret res => decide (res.event = Result.reconciled.event)
  | .call _ _ => false

variable {srv : ApiServer} {a b : String} {envA envB : Env} {keckA : KeckCluster} {sys : Sys Ans Party Result Cluster}

theorem reconcile_call (name : String) (env : Env) :
    reconcile name env = .call (.getKeck name) fun
      | .error e => if e.notFound then .ret .done else .ret (.returned e)
      | .ok keck => if keck.deleting then finalize name keck else reconcileLive name keck env := rfl

/-- The update that drops the finalizer is the last request of a deletion. -/
theorem lastCall_finalize (name : String) (keck : KeckCluster) :
    (finalize name keck).LastCall fun op => op.writesKeck name := by
  unfold finalize
  split
  · apply Prog.LastCall.bind
    · exact (uses_removeAll cleaned).mono fun op hop => hop name
    · intro e
      cases e with
      | some e => trivial
      | none =>
        refine ⟨fun _ x => ?_, fun x => ?_⟩
        · cases x with
          | ok _ => exact ⟨_, rfl⟩
          | error e => exact ⟨_, rfl⟩
        · cases x <;> trivial
  · trivial

/-- In any interleaving: `Reconcile(B)` writes no other KeckCluster, and while
`Reconcile(A)` is in its cleanup, `A` carries the finalizer. -/
structure Interleaved (a b : String) (envA : Env) (keckA : KeckCluster) (sys : Sys Ans Party Result Cluster) :
    Prop where
  other : (sys.threads .b).Uses fun op => ∀ n, op.writesKeck n → n = b
  own : (sys.threads .a = reconcile a envA ∧ sys.state.kecks.lookup a = some keckA) ∨
    (∃ res, sys.threads .a = .ret res) ∨
    (sys.state.kecks.lookup a = some keckA ∧ finalizerName ∈ keckA.finalizers ∧
      (sys.threads .a).LastCall fun op => op.writesKeck a)

theorem interleaved_step_b (hab : a ≠ b) (h : Interleaved a b envA keckA sys) (fault : Option Err) :
    Interleaved a b envA keckA (sys.step srv.handle (.b, fault)) := by
  refine ⟨Sys.uses_step h.other, ?_⟩
  have hthread : (sys.step srv.handle (.b, fault)).threads .a = sys.threads .a := Sys.threads_step_of_ne (by simp)
  have hkeck : (sys.step srv.handle (.b, fault)).state.kecks.lookup a = sys.state.kecks.lookup a := by
    cases hb : sys.threads .b with
    | ret res => rw [Sys.step_ret hb]
    | call op next =>
      have hop := h.other
      rw [hb] at hop
      rw [Sys.step_call hb]
      exact kecks_handle (fun hw => hab (hop.1 a hw)) _ _
  rw [hthread, hkeck]
  exact h.own

theorem interleaved_step_a (hdel : keckA.deleting = true) (h : Interleaved a b envA keckA sys)
    (fault : Option Err) : Interleaved a b envA keckA (sys.step srv.handle (.a, fault)) := by
  refine ⟨Sys.uses_step h.other, ?_⟩
  rcases h.own with ⟨ha, hk⟩ | ⟨res, ha⟩ | ⟨hk, hf, hlast⟩
  · -- its first request reads `A`
    rw [reconcile_call] at ha
    rw [Sys.step_call ha]
    simp only [Function.update_self, handle_getKeck]
    cases fault with
    | some e =>
      right; left
      dsimp only [handle_some]
      split
      · exact ⟨_, rfl⟩
      · exact ⟨_, rfl⟩
    | none =>
      right
      simp only [handle_none, srv.getKeck_found hk, hdel, if_true]
      by_cases hf : finalizerName ∈ keckA.finalizers
      · exact .inr ⟨hk, hf, lastCall_finalize a keckA⟩
      · exact .inl ⟨.done, if_neg hf⟩
  · rw [Sys.step_ret ha]
    exact .inr (.inl ⟨res, ha⟩)
  · cases ha : sys.threads .a with
    | ret res => rw [Sys.step_ret ha]; exact .inr (.inl ⟨res, ha⟩)
    | call op next =>
      rw [ha] at hlast
      rw [Sys.step_call ha]
      simp only [Function.update_self]
      by_cases hw : op.writesKeck a
      · exact .inr (.inl (hlast.1 hw _))
      · refine .inr (.inr ⟨?_, hf, hlast.2 _⟩)
        exact (kecks_handle hw _ _).trans hk

theorem interleaved_exec {c : Cluster} (hab : a ≠ b) (hk : c.kecks.lookup a = some keckA)
    (hdel : keckA.deleting = true) (schedule : List (Party × Option Err)) :
    Interleaved a b envA keckA ((start c a b envA envB).exec srv.handle schedule) := by
  apply Sys.inv_exec
  · intro sys turn h
    obtain ⟨_ | _, fault⟩ := turn
    · exact interleaved_step_a hdel h fault
    · exact interleaved_step_b hab h fault
  · exact ⟨uses_reconcile b envB, .inl ⟨rfl, hk⟩⟩

/-- From a state where `A` does not carry the finalizer, a request of
`Reconcile(A)` changes nothing. -/
theorem state_step_a (h : Interleaved a b envA keckA sys) (hrem : FinalizerRemoved a sys.state)
    (fault : Option Err) : (sys.step srv.handle (.a, fault)).state = sys.state := by
  rcases h.own with ⟨ha, -⟩ | ⟨res, ha⟩ | ⟨hk, hf, -⟩
  · rw [reconcile_call] at ha
    rw [Sys.step_call ha]
    exact handle_getKeck a fault sys.state
  · rw [Sys.step_ret ha]
  · exact absurd hf (hrem keckA hk)

/-- In every interleaving of a reconcile of `A`, under deletion, with one of
`B`: if each request that `Reconcile(A)` makes after `Reconcile(B)` has
succeeded is made when `A` does not carry the finalizer, then none of them
removes a child. -/
theorem deletion_spares_other (srv : ApiServer) (c : Cluster) (a b : String) (envA envB : Env)
    (keckA : KeckCluster) (hab : a ≠ b) (hk : c.kecks.lookup a = some keckA) (hdel : keckA.deleting = true)
    (schedule : List (Party × Option Err))
    (hcond : ∀ before fault after, schedule = before ++ (.a, fault) :: after →
      succeeded ((start c a b envA envB).exec srv.handle before) = true →
      FinalizerRemoved a ((start c a b envA envB).exec srv.handle before).state) :
    ∀ before fault after, schedule = before ++ (.a, fault) :: after →
      succeeded ((start c a b envA envB).exec srv.handle before) = true →
      ∀ r, ((start c a b envA envB).exec srv.handle before).state.objs r ≠ none →
        ((start c a b envA envB).exec srv.handle (before ++ [(.a, fault)])).state.objs r ≠ none := by
  intro before fault after hsplit hb r hr
  rw [Sys.exec_concat, state_step_a (interleaved_exec hab hk hdel before) (hcond before fault after hsplit hb)]
  exact hr

/-- An installed cluster with two KeckClusters, the one called `old` under
deletion and carrying `finalizers`. -/
def sharedCluster (finalizers : List String) : Cluster :=
  settled {} (Vector.replicate 32 1)
    ((AList.singleton "old" { deletedKeck with finalizers }).insert "new" { finalizers := [finalizerName] })

/-- `Reconcile(B)` runs to its end. -/
def bFirst : List (Party × Option Err) := List.replicate 35 (.b, none)

/-- Another controller's finalizer keeps `old` there; its reconcile after that of
`new` removes nothing. -/
theorem foreign_finalizer_spares_other :
    succeeded ((start (sharedCluster ["backup/hold"]) "old" "new" sampleEnv sampleEnv).exec apiServer.handle
      bFirst) = true ∧
    ∀ r, ((start (sharedCluster ["backup/hold"]) "old" "new" sampleEnv sampleEnv).exec apiServer.handle
        bFirst).state.objs r ≠ none →
      ((start (sharedCluster ["backup/hold"]) "old" "new" sampleEnv sampleEnv).exec apiServer.handle
        (bFirst ++ [(.a, none)])).state.objs r ≠ none := by
  have hsucceeded : succeeded ((start (sharedCluster ["backup/hold"]) "old" "new" sampleEnv sampleEnv).exec
      apiServer.handle bFirst) = true := by decide
  refine ⟨hsucceeded, ?_⟩
  apply deletion_spares_other apiServer (sharedCluster ["backup/hold"]) "old" "new" sampleEnv sampleEnv
    { deletedKeck with finalizers := ["backup/hold"] } (by decide) rfl rfl (bFirst ++ [(.a, none)]) ?_ bFirst none []
    rfl hsucceeded
  intro before fault after hsplit _
  have hbefore : before = bFirst := by
    rcases List.eq_nil_or_concat' after with rfl | ⟨l, x, rfl⟩
    · exact (List.append_inj' hsplit rfl).1.symm
    · -- `A` has only one turn
      rw [← List.cons_append, ← List.append_assoc] at hsplit
      have hmem : (Party.a, fault) ∈ bFirst := by
        rw [(List.append_inj' hsplit rfl).1]
        simp
      cases List.eq_of_mem_replicate hmem
  rw [hbefore]
  intro keck h
  have hheld : (((start (sharedCluster ["backup/hold"]) "old" "new" sampleEnv sampleEnv).exec apiServer.handle
      bFirst).state.kecks.lookup "old").map KeckCluster.finalizers = some ["backup/hold"] := by decide
  rw [h] at hheld
  simp only [Option.map_some, Option.some.injEq] at hheld
  rw [hheld]
  decide

/-- The third request of the deletion removes the Service that the other
KeckCluster has just ensured. -/
theorem deletion_tears_down_other :
    succeeded ((start (sharedCluster [finalizerName]) "old" "new" sampleEnv sampleEnv).exec apiServer.handle
      (bFirst ++ [(.a, none), (.a, none)])) = true ∧
    ((start (sharedCluster [finalizerName]) "old" "new" sampleEnv sampleEnv).exec apiServer.handle
      (bFirst ++ [(.a, none), (.a, none)])).state.objs .service ≠ none ∧
    ((start (sharedCluster [finalizerName]) "old" "new" sampleEnv sampleEnv).exec apiServer.handle
      (bFirst ++ [(.a, none), (.a, none), (.a, none)])).state.objs .service = none := by
  decide

end Keck.Operator
