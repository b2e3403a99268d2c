import Keck.Lib.Effects
import Keck.Operator.Manifests
/-!
# The API server

The part of the cluster the operator sees: the KeckClusters by name, and the
children, which all have fixed names. `ApiServer` says what is assumed of the
server's answers to requests, `handle` lets any request be refused with any
error instead; a conflict with another writer is such a refusal. Deletion is
immediate, and deleting the namespace deletes what is in it.

The results about the operator are about every `ApiServer`; `apiServer` is one.
-/

namespace Keck.Operator
open Keck.Lib Keck.Lib.Effects

/-- The children of a KeckCluster. -/
inductive Ref
  | ns | agentAccount | controllerAccount | apiKey | clusterRole | clusterRoleBinding | daemonSet
  | nginxConfig | deployment | service | serviceMonitor | networkPolicy | pdb
deriving DecidableEq

/-- Whether the child lives in the `keck-system` namespace. -/
def Ref.namespaced : Ref → Bool
  | .ns | .clusterRole | .clusterRoleBinding => false
  | _ => true

abbrev Obj : Ref → Type
  | .ns => Namespace
  | .agentAccount | .controllerAccount => ServiceAccount
  | .apiKey => Secret
  | .clusterRole => ClusterRole
  | .clusterRoleBinding => ClusterRoleBinding
  | .daemonSet => DaemonSet
  | .nginxConfig => ConfigMap
  | .deployment => Deployment
  | .service => Service
  | .serviceMonitor => ServiceMonitor
  | .networkPolicy => NetworkPolicy
  | .pdb => PodDisruptionBudget

/-- An error; `notFound` is what `errors.IsNotFound` says of it. -/
structure Err where
  notFound : Bool
  text : String

/-- `fmt.Errorf("context: %w", err)`. -/
def Err.wrap (context : String) (e : Err) : Err := { e with text := context ++ ": " ++ e.text }

def Err.missing : Err := ⟨true, "not found"⟩

def Err.alreadyExists : Err := ⟨false, "already exists"⟩

/-- The answer when the ServiceMonitor CRD is not installed. -/
def Err.noMatch : Err := ⟨false, "no matches for kind ServiceMonitor"⟩

/-- The cluster's state. `monitoring` says whether the ServiceMonitor CRD is
installed; `housed`, that nothing is in a namespace that does not exist. -/
structure Cluster where
  kecks : Table String KeckCluster
  objs : (r : Ref) → Option (Obj r)
  monitoring : Bool
  housed : ∀ r, r.namespaced = true → (objs r).isSome = true → (objs .ns).isSome = true

namespace Cluster

/-- Whether an object can be stored: its namespace exists. -/
def admits (c : Cluster) (r : Ref) : Bool := !r.namespaced || (c.objs .ns).isSome

def put (c : Cluster) (r : Ref) (x : Obj r) (h : c.admits r = true) : Cluster where
  kecks := c.kecks
  objs := Function.update c.objs r (some x)
  monitoring := c.monitoring
  housed := by
    intro r' hr' hs
    by_cases hns : r = .ns
    · subst hns
      simp
    · rw [Function.update_of_ne (Ne.symm hns)]
      by_cases h' : r' = r
      · subst h'
        simpa [admits, hr'] using h
      · rw [Function.update_of_ne h'] at hs
        exact c.housed r' hr' hs

/-- Remove an object, with everything inside if it is the namespace. -/
def erase (c : Cluster) (r : Ref) : Cluster where
  kecks := c.kecks
  objs := fun r' => if r' = r ∨ r = .ns ∧ r'.namespaced = true then none else c.objs r'
  monitoring := c.monitoring
  housed := by
    intro r' hr' hs
    split at hs
    · simp at hs
    · rename_i hne
      have hr : r ≠ .ns := fun h => hne (.inr ⟨h, hr'⟩)
      rw [if_neg (by simp [hr, Ne.symm hr])]
      exact c.housed r' hr' hs

def setKecks (c : Cluster) (kecks : Table String KeckCluster) : Cluster := { c with kecks }

theorem admits_of_isSome {c : Cluster} {r : Ref} (h : (c.objs r).isSome = true) : c.admits r = true := by
  cases hr : r.namespaced with
  | false => simp [admits, hr]
  | true => simp [admits, c.housed r hr h]

variable {c : Cluster} {r r' : Ref} {x : Obj r} {h : c.admits r = true}

@[simp] theorem objs_put_self : (c.put r x h).objs r = some x := Function.update_self _ _ _

theorem objs_put_of_ne (hne : r' ≠ r) : (c.put r x h).objs r' = c.objs r' := Function.update_of_ne hne _ _

theorem objs_put : (c.put r x h).objs = Function.update c.objs r (some x) := rfl

@[simp] theorem objs_erase_self : (c.erase r).objs r = none := by simp [erase]

theorem objs_erase_of_ne (hne : r' ≠ r) (hns : r'.namespaced = false) : (c.erase r).objs r' = c.objs r' := by
  simp [erase, hne, hns]

@[simp] theorem kecks_setKecks (kecks : Table String KeckCluster) : (c.setKecks kecks).kecks = kecks := rfl

end Cluster

/-! ## Requests -/

/-- Two requests of one `Reconcile` that read or write the same thing are told
apart by where they are made: on the way, or in `updateStatus`. -/
inductive Site
  | main | status
deriving DecidableEq

inductive Op
  | getKeck (name : String)
  | updateKeck (name : String) (keck : KeckCluster)
  | updateKeckStatus (site : Site) (name : String) (status : KeckClusterStatus)
  | get (site : Site) (r : Ref)
  | create (r : Ref) (x : Obj r)
  | update (r : Ref) (x : Obj r)
  | delete (r : Ref)

abbrev Reply : Op → Type
  | .getKeck _ => KeckCluster
  | .get _ r => Obj r
  | .updateKeck .. | .updateKeckStatus .. | .create .. | .update .. | .delete _ => Unit

abbrev Ans (op : Op) : Type := Except Err (Reply op)

/-- The CRD of the object's kind is installed. -/
def Cluster.serves (c : Cluster) (r : Ref) : Bool := r != .serviceMonitor || c.monitoring

/-- An update of a KeckCluster leaves deletion timestamp and status alone. An
object under deletion goes away with its last finalizer. -/
def Cluster.replaceKeck (c : Cluster) (name : String) (old new : KeckCluster) : Cluster :=
  if old.deleting && new.finalizers.isEmpty then c.setKecks (c.kecks.erase name)
  else c.setKecks (c.kecks.insert name { new with deleting := old.deleting, status := old.status })

/-- The server: its answer to a request and the state after it, with what is
assumed of them. A request that cannot be served leaves the state as it is. -/
structure ApiServer where
  perform : (op : Op) → Cluster → Ans op × Cluster
  getKeck_found : ∀ {name c keck}, c.kecks.lookup name = some keck → perform (.getKeck name) c = (.ok keck, c)
  getKeck_absent : ∀ {name c}, c.kecks.lookup name = none →
    ∃ e : Err, e.notFound = true ∧ perform (.getKeck name) c = (.error e, c)
  updateKeck_found : ∀ {name keck c old}, c.kecks.lookup name = some old →
    perform (.updateKeck name keck) c = (.ok (), c.replaceKeck name old keck)
  updateKeck_absent : ∀ {name keck c}, c.kecks.lookup name = none →
    ∃ e, perform (.updateKeck name keck) c = (.error e, c)
  updateKeckStatus_found : ∀ {site name status c old}, c.kecks.lookup name = some old →
    perform (.updateKeckStatus site name status) c = (.ok (), c.setKecks (c.kecks.insert name { old with status }))
  updateKeckStatus_absent : ∀ {site name status c}, c.kecks.lookup name = none →
    ∃ e, perform (.updateKeckStatus site name status) c = (.error e, c)
  get_found : ∀ {site r c x}, c.serves r = true → c.objs r = some x → perform (.get site r) c = (.ok x, c)
  get_absent : ∀ {site r c}, c.serves r = true → c.objs r = none →
    ∃ e : Err, e.notFound = true ∧ perform (.get site r) c = (.error e, c)
  get_unserved : ∀ {site r c}, c.serves r = false → ∃ e, perform (.get site r) c = (.error e, c)
  create_absent : ∀ {r x c}, c.serves r = true → c.objs r = none → ∀ h : c.admits r = true,
    perform (.create r x) c = (.ok (), c.put r x h)
  /-- Its kind is unknown, it is there already, or its namespace is not. -/
  create_refused : ∀ {r x c}, c.serves r = false ∨ c.objs r ≠ none ∨ c.admits r = false →
    ∃ e, perform (.create r x) c = (.error e, c)
  update_found : ∀ {r x c}, c.objs r ≠ none → ∀ h : c.admits r = true,
    perform (.update r x) c = (.ok (), c.put r x h)
  update_absent : ∀ {r x c}, c.objs r = none → ∃ e, perform (.update r x) c = (.error e, c)
  delete_found : ∀ {r c}, c.objs r ≠ none → perform (.delete r) c = (.ok (), c.erase r)
  delete_absent : ∀ {r c}, c.objs r = none → ∃ e, perform (.delete r) c = (.error e, c)

/-- The answers of a server, with the texts of its errors. -/
def answer : (op : Op) → Cluster → Ans op × Cluster
  | .getKeck name, c =>
    match c.kecks.lookup name with
    | some keck => (.ok keck, c)
    | none => (.error .missing, c)
  | .updateKeck name keck, c =>
    match c.kecks.lookup name with
    | some old => (.ok (), c.replaceKeck name old keck)
    | none => (.error .missing, c)
  | .updateKeckStatus _ name status, c =>
    match c.kecks.lookup name with
    | some old => (.ok (), c.setKecks (c.kecks.insert name { old with status }))
    | none => (.error .missing, c)
  | .get _ r, c =>
    if c.serves r then
      match c.objs r with
      | some x => (.ok x, c)
      | none => (.error .missing, c)
    else (.error .noMatch, c)
  | .create r x, c =>
    if c.serves r then
      if (c.objs r).isSome then (.error .alreadyExists, c)
      else if h : c.admits r then (.ok (), c.put r x h)
      else (.error .missing, c)
    else (.error .noMatch, c)
  | .update r x, c =>
    if h : (c.objs r).isSome then (.ok (), c.put r x (Cluster.admits_of_isSome h))
    else (.error .missing, c)
  | .delete r, c =>
    if (c.objs r).isSome then (.ok (), c.erase r) else (.error .missing, c)

theorem answer_create_refused {r : Ref} {x : Obj r} {c : Cluster}
    (h : c.serves r = false ∨ c.objs r ≠ none ∨ c.admits r = false) : ∃ e, answer (.create r x) c = (.error e, c) := by
  simp only [answer]
  split
  · split
    · exact ⟨_, rfl⟩
    · split
      · simp_all
      · exact ⟨_, rfl⟩
  · exact ⟨_, rfl⟩

def apiServer : ApiServer where
  perform := answer
  getKeck_found h := by simp [answer, h]
  getKeck_absent h := ⟨.missing, rfl, by simp [answer, h]⟩
  updateKeck_found h := by simp [answer, h]
  updateKeck_absent h := ⟨.missing, by simp [answer, h]⟩
  updateKeckStatus_found h := by simp [answer, h]
  updateKeckStatus_absent h := ⟨.missing, by simp [answer, h]⟩
  get_found hs h := by simp [answer, hs, h]
  get_absent hs h := ⟨.missing, rfl, by simp [answer, hs, h]⟩
  get_unserved hs := ⟨.noMatch, by simp [answer, hs]⟩
  create_absent hs h ha := by simp [answer, hs, h, ha]
  create_refused := answer_create_refused
  update_found h ha := by simp [answer, Option.isSome_iff_ne_none, h]
  update_absent h := ⟨.missing, by simp [answer, h]⟩
  delete_found h := by simp [answer, Option.isSome_iff_ne_none, h]
  delete_absent h := ⟨.missing, by simp [answer, h]⟩

/-- A request is refused with the given error, or performed. -/
def ApiServer.handle (srv : ApiServer) (op : Op) (fault : Option Err) (c : Cluster) : Ans op × Cluster :=
  match fault with
  | some e => (.error e, c)
  | none => srv.perform op c

variable {srv : ApiServer}

@[simp] theorem handle_some (op : Op) (e : Err) (c : Cluster) : srv.handle op (some e) c = (.error e, c) := rfl

@[simp] theorem handle_none (op : Op) (c : Cluster) : srv.handle op none c = srv.perform op c := rfl

/-! ### One request

What a request comes to, from the server's laws: it is answered and changes
what it is about, or it fails and changes nothing. -/

theorem perform_getKeck (name : String) (c : Cluster) : (srv.perform (.getKeck name) c).2 = c := by
  cases hk : c.kecks.lookup name with
  | some keck => rw [srv.getKeck_found hk]
  | none =>
    obtain ⟨e, -, he⟩ := srv.getKeck_absent hk
    rw [he]

theorem perform_updateKeck (srv : ApiServer) (name : String) (keck : KeckCluster) (c : Cluster) :
    (∃ e, srv.perform (.updateKeck name keck) c = (.error e, c)) ∨
      ∃ old, c.kecks.lookup name = some old ∧
        srv.perform (.updateKeck name keck) c = (.ok (), c.replaceKeck name old keck) := by
  cases hk : c.kecks.lookup name with
  | some old => exact .inr ⟨old, rfl, srv.updateKeck_found hk⟩
  | none => exact .inl (srv.updateKeck_absent hk)

theorem perform_updateKeckStatus (srv : ApiServer) (site : Site) (name : String) (status : KeckClusterStatus)
    (c : Cluster) :
    (∃ e, srv.perform (.updateKeckStatus site name status) c = (.error e, c)) ∨
      ∃ old, c.kecks.lookup name = some old ∧ srv.perform (.updateKeckStatus site name status) c =
        (.ok (), c.setKecks (c.kecks.insert name { old with status })) := by
  cases hk : c.kecks.lookup name with
  | some old => exact .inr ⟨old, rfl, srv.updateKeckStatus_found hk⟩
  | none => exact .inl (srv.updateKeckStatus_absent hk)

theorem perform_get (site : Site) (r : Ref) (c : Cluster) : (srv.perform (.get site r) c).2 = c := by
  cases hs : c.serves r with
  | false =>
    obtain ⟨e, he⟩ := @ApiServer.get_unserved srv site r c hs
    rw [he]
  | true =>
    cases hx : c.objs r with
    | some x => rw [srv.get_found hs hx]
    | none =>
      obtain ⟨e, -, he⟩ := @ApiServer.get_absent srv site r c hs hx
      rw [he]

/-- An object is created where there is none, or not at all. -/
theorem perform_create (srv : ApiServer) {r : Ref} (x : Obj r) (c : Cluster) :
    (∃ e, srv.perform (.create r x) c = (.error e, c)) ∨
      ∃ h : c.admits r = true, c.objs r = none ∧ srv.perform (.create r x) c = (.ok (), c.put r x h) := by
  cases hs : c.serves r with
  | false => exact .inl (srv.create_refused (.inl hs))
  | true =>
    by_cases hx : c.objs r = none
    · by_cases ha : c.admits r = true
      · exact .inr ⟨ha, hx, srv.create_absent hs hx ha⟩
      · exact .inl (srv.create_refused (.inr (.inr (Bool.eq_false_of_not_eq_true ha))))
    · exact .inl (srv.create_refused (.inr (.inl hx)))

theorem perform_delete (srv : ApiServer) (r : Ref) (c : Cluster) :
    (c.objs r = none ∧ ∃ e, srv.perform (.delete r) c = (.error e, c)) ∨
      srv.perform (.delete r) c = (.ok (), c.erase r) := by
  by_cases hx : c.objs r = none
  · exact .inl ⟨hx, srv.delete_absent hx⟩
  · exact .inr (srv.delete_found hx)

theorem perform_update (srv : ApiServer) {r : Ref} (x : Obj r) (c : Cluster) :
    (∃ e, srv.perform (.update r x) c = (.error e, c)) ∨
      ∃ h : c.admits r = true, srv.perform (.update r x) c = (.ok (), c.put r x h) := by
  by_cases hx : c.objs r = none
  · exact .inl (srv.update_absent hx)
  · have ha : c.admits r = true := Cluster.admits_of_isSome (Option.isSome_iff_ne_none.2 hx)
    exact .inr ⟨ha, srv.update_found hx ha⟩

/-! ## What a request can change -/

/-- The children a request writes or removes. -/
def Op.writes : Op → Ref → Prop
  | .create r _, r' | .update r _, r' => r' = r
  | .delete r, r' => r' = r ∨ r = .ns ∧ r'.namespaced = true
  | _, _ => False

/-- The KeckClusters a request writes. -/
def Op.writesKeck : Op → String → Prop
  | .updateKeck name _, n | .updateKeckStatus _ name _, n => n = name
  | _, _ => False

/-- All a request can do to the state. -/
inductive Effect (c : Cluster) : Op → Cluster → Prop
  | nothing (op : Op) : Effect c op c
  | kecks {op : Op} (ks : Table String KeckCluster)
      (h : ∀ n, ¬op.writesKeck n → ks.lookup n = c.kecks.lookup n) : Effect c op (c.setKecks ks)
  | create (r : Ref) (x : Obj r) (h : c.admits r = true) (hnew : c.objs r = none) :
      Effect c (.create r x) (c.put r x h)
  | update (r : Ref) (x : Obj r) (h : c.admits r = true) : Effect c (.update r x) (c.put r x h)
  | delete (r : Ref) : Effect c (.delete r) (c.erase r)

theorem effect_handle (srv : ApiServer) (op : Op) (fault : Option Err) (c : Cluster) :
    Effect c op (srv.handle op fault c).2 := by
  cases fault with
  | some e => exact .nothing op
  | none =>
    rw [handle_none]
    cases op with
    | getKeck name => exact (perform_getKeck name c).symm ▸ .nothing _
    | updateKeck name keck =>
      rcases perform_updateKeck srv name keck c with ⟨e, he⟩ | ⟨old, -, he⟩
      · rw [he]
        exact .nothing _
      · rw [he, Cluster.replaceKeck]
        split
        · exact .kecks _ fun n hn => AList.lookup_erase_ne hn
        · exact .kecks _ fun n hn => AList.lookup_insert_ne hn
    | updateKeckStatus site name status =>
      rcases perform_updateKeckStatus srv site name status c with ⟨e, he⟩ | ⟨old, -, he⟩
      · rw [he]
        exact .nothing _
      · rw [he]
        exact .kecks _ fun n hn => AList.lookup_insert_ne hn
    | get site r => exact (perform_get site r c).symm ▸ .nothing _
    | create r x =>
      rcases perform_create srv x c with ⟨e, he⟩ | ⟨ha, hnew, he⟩
      · rw [he]
        exact .nothing _
      · rw [he]
        exact .create r x ha hnew
    | update r x =>
      rcases perform_update srv x c with ⟨e, he⟩ | ⟨ha, he⟩
      · rw [he]
        exact .nothing _
      · rw [he]
        exact .update r x ha
    | delete r =>
      rcases perform_delete srv r c with ⟨-, e, he⟩ | he
      · rw [he]
        exact .nothing _
      · rw [he]
        exact .delete r

theorem objs_handle {op : Op} {r : Ref} (h : ¬op.writes r) (fault : Option Err) (c : Cluster) :
    (srv.handle op fault c).2.objs r = c.objs r := by
  have he := effect_handle srv op fault c
  generalize (srv.handle op fault c).2 = c' at he ⊢
  cases he with
  | nothing | kecks => rfl
  | create r' x ha _ | update r' x ha => exact Cluster.objs_put_of_ne h
  | delete r' => exact if_neg h

theorem kecks_handle {op : Op} {name : String} (h : ¬op.writesKeck name) (fault : Option Err) (c : Cluster) :
    (srv.handle op fault c).2.kecks.lookup name = c.kecks.lookup name := by
  have he := effect_handle srv op fault c
  generalize (srv.handle op fault c).2 = c' at he ⊢
  cases he with
  | kecks ks hks => exact hks name h
  | nothing | create | update | delete => rfl

end Keck.Operator
