import Keck.Lib.Memo
import Keck.Agent.Environment
import Keck.Agent.Attribution
/-!
# The agent's pod cache

Every so often the agent lists the pods of its node and notes for each which
workload it belongs to (`refresh_pod_cache` and `resolve_owner` in
`keck-agent/src/main.rs`). A pod of a ReplicaSet or Job belongs to what owns
that; this is asked of the API server once and kept in a cache that is never
cleared, also where the request failed (`keck-agent/src/k8s/workload.rs` has the
helper functions).

`pod_cache_of_run` says what the pod cache holds after any run of refreshes
with any answers; `owner_cache_transparent_iff`, when the cached answers are
those that asking every time would give.
-/
namespace Keck.Agent

open Keck.Lib

/-! ## Owners -/

structure OwnerReference where
  uid : String
  name : String
  kind : String
  controller : Option Bool := none

/-- The workload a pod is counted with. -/
structure OwnerMapping where
  uid : String
  name : String
  kind : String
deriving DecidableEq

abbrev OwnerCache := Table String OwnerMapping

def selectControllerOwner (ownerRefs : List OwnerReference) : Option OwnerReference :=
  (ownerRefs.find? fun o => o.controller = some true).or ownerRefs.head?

/-- The owner of an owner. `answer` is what the API server says of the owner:
the references of its metadata, or that it could not be fetched. -/
def resolveIntermediateOwner (ownerKind : String) (answer : Option (List OwnerReference)) : Option OwnerMapping :=
  let owner := (answer.bind selectControllerOwner).map fun o => (⟨o.uid, o.name, o.kind⟩ : OwnerMapping)
  if ownerKind = "ReplicaSet" then owner
  else if ownerKind = "Job" then owner
  else none

def resolveOwner (podUid podName : String) (ownerRefs : List OwnerReference) (answer : Option (List OwnerReference))
    (ownerCache : OwnerCache) : OwnerMapping × OwnerCache :=
  match selectControllerOwner ownerRefs with
  | none => (⟨podUid, podName, "Pod"⟩, ownerCache)
  | some owner =>
    if owner.kind = "ReplicaSet" ∨ owner.kind = "Job" then
      match ownerCache.lookup owner.uid with
      | some cached => (cached, ownerCache)
      | none =>
        let mapping := (resolveIntermediateOwner owner.kind answer).getD ⟨owner.uid, owner.name, owner.kind⟩
        (mapping, ownerCache.insert owner.uid mapping)
    else (⟨owner.uid, owner.name, owner.kind⟩, ownerCache)

/-! ## Categories -/

def startsWith (start s : String) : Bool := start.toList.isPrefixOf s.toList

def olmInfraNamespaces : List String := ["openshift-operator-lifecycle-manager", "openshift-marketplace"]

def classifyCategory (ns : String) (labels : Table String String) (operatorNamespaces : List String) :
    WorkloadCategory :=
  if operatorNamespaces.contains ns then .operator
  else if olmInfraNamespaces.contains ns then .operator
  else if labels.keys.any (startsWith "operators.coreos.com/") then .operator
  else if startsWith "openshift-" ns || startsWith "kube-" ns || ns == "kube-system" then .platform
  else .application

/-! ## Refreshing -/

structure K8sPod where
  uid : Option String
  name : Option String := none
  ns : Option String := none
  labels : Option (Table String String) := none
  ownerReferences : Option (List OwnerReference) := none

/-- A listed pod, with what the API server would say of its owner if asked
while the pod is looked at. -/
structure Listed where
  pod : K8sPod
  answer : Option (List OwnerReference)

/-- What the agent has read once when it started. -/
structure CacheConfig where
  exactLabels : List String
  prefixLabels : List String
  operatorNamespaces : List String

/-- A pod's entry, given its workload. -/
def podIdentity (cfg : CacheConfig) (pod : K8sPod) (workload : OwnerMapping) : PodIdentity where
  name := pod.name.getD ""
  ns := pod.ns.getD ""
  workloadUid := workload.uid
  workloadName := workload.name
  workloadKind := workload.kind
  workloadCategory := classifyCategory (pod.ns.getD "") (pod.labels.getD ∅) cfg.operatorNamespaces
  labels := captureLabels (pod.labels.getD ∅) cfg.exactLabels cfg.prefixLabels

/-- One round of the loop over the listed pods. -/
def refreshPod (cfg : CacheConfig) (caches : Table String PodIdentity × OwnerCache) (l : Listed) :
    Table String PodIdentity × OwnerCache :=
  match l.pod.uid with
  | none => caches
  | some uid =>
    let resolved := resolveOwner uid (l.pod.name.getD "") (l.pod.ownerReferences.getD []) l.answer caches.2
    (caches.1.insert uid (podIdentity cfg l.pod resolved.1), resolved.2)

/-- Refresh the pod cache, or leave it if the pods could not be listed. -/
def refreshPodCache (cfg : CacheConfig) (caches : Table String PodIdentity × OwnerCache) (list : Option (List Listed)) :
    Table String PodIdentity × OwnerCache :=
  match list with
  | none => caches
  | some pods => pods.foldl (refreshPod cfg) (∅, caches.2)

/-- Both caches after some refreshes since the agent started. -/
def afterRefreshes (cfg : CacheConfig) (lists : List (Option (List Listed))) : Table String PodIdentity × OwnerCache :=
  lists.foldl (refreshPodCache cfg) (∅, ∅)

/-! ## What is asked -/

/-- The owner that has to be looked up for a pod. -/
def Listed.intermediate (l : Listed) : Option OwnerReference :=
  (selectControllerOwner (l.pod.ownerReferences.getD [])).filter fun o => o.kind = "ReplicaSet" ∨ o.kind = "Job"

/-- The workload found by asking now. -/
def Listed.fresh (l : Listed) (owner : OwnerReference) : OwnerMapping :=
  (resolveIntermediateOwner owner.kind l.answer).getD ⟨owner.uid, owner.name, owner.kind⟩

/-- The question a pod puts to the owner cache, with the answer if it is not
there. Pods without a uid are skipped. -/
def Listed.request (l : Listed) : Option (String × OwnerMapping) :=
  if l.pod.uid.isSome then l.intermediate.map fun o => (o.uid, l.fresh o) else none

/-- All questions of a run, in order. -/
def requests (lists : List (Option (List Listed))) : List (String × OwnerMapping) :=
  (lists.flatMap fun list => list.getD []).filterMap Listed.request

/-- The workload of a pod, if looking up an owner gives what `find` says. -/
def Listed.workload (l : Listed) (uid : String) (find : OwnerReference → OwnerMapping) : OwnerMapping :=
  match selectControllerOwner (l.pod.ownerReferences.getD []) with
  | none => ⟨uid, l.pod.name.getD "", "Pod"⟩
  | some owner =>
    if owner.kind = "ReplicaSet" ∨ owner.kind = "Job" then find owner else ⟨owner.uid, owner.name, owner.kind⟩

/-- The last pod listed under a uid, in the last list that was obtained. -/
def lastListed (lists : List (Option (List Listed))) (uid : String) : Option Listed :=
  (((lists.filterMap id).getLast?.getD []).filter fun l => l.pod.uid = some uid).getLast?

section Resolve
variable {l : Listed} {o : OwnerReference}

theorem select_of_intermediate (h : l.intermediate = some o) :
    selectControllerOwner (l.pod.ownerReferences.getD []) = some o ∧ (o.kind = "ReplicaSet" ∨ o.kind = "Job") := by
  simpa [Listed.intermediate, Option.filter_eq_some_iff] using h

theorem workload_of_intermediate (h : l.intermediate = some o) (uid : String) (find : OwnerReference → OwnerMapping) :
    l.workload uid find = find o := by
  obtain ⟨hselect, hkind⟩ := select_of_intermediate h
  rw [Listed.workload, hselect]
  exact if_pos hkind

/-- Looking up an owner is asking the memo table. -/
theorem resolveOwner_of_intermediate (h : l.intermediate = some o) (uid name : String) (cache : OwnerCache) :
    resolveOwner uid name (l.pod.ownerReferences.getD []) l.answer cache = ask cache o.uid (l.fresh o) := by
  obtain ⟨hselect, hkind⟩ := select_of_intermediate h
  rw [resolveOwner, hselect]
  dsimp only
  rw [if_pos hkind, ask]
  cases cache.lookup o.uid <;> rfl

/-- Other pods do not touch the cache, and nothing in it matters to them. -/
theorem resolveOwner_of_none (h : l.intermediate = none) (uid : String) (cache : OwnerCache)
    (find : OwnerReference → OwnerMapping) :
    resolveOwner uid (l.pod.name.getD "") (l.pod.ownerReferences.getD []) l.answer cache =
      (l.workload uid find, cache) := by
  rw [resolveOwner, Listed.workload]
  cases hselect : selectControllerOwner (l.pod.ownerReferences.getD []) with
  | none => rfl
  | some owner =>
    have hkind : ¬(owner.kind = "ReplicaSet" ∨ owner.kind = "Job") := by
      simpa [Listed.intermediate, hselect, Option.filter] using h
    simp only [hkind, if_false]

theorem workload_of_none (h : l.intermediate = none) (uid : String) (find find' : OwnerReference → OwnerMapping) :
    l.workload uid find = l.workload uid find' :=
  congrArg Prod.fst ((resolveOwner_of_none h uid ∅ find).symm.trans (resolveOwner_of_none h uid ∅ find'))

theorem request_of_intermediate (h : l.intermediate = some o) {uid : String} (hu : l.pod.uid = some uid) :
    l.request = some (o.uid, l.fresh o) := by
  simp [Listed.request, hu, h]

end Resolve

/-! ## The owner cache over a run -/

theorem ownerCache_refreshPod (cfg : CacheConfig) (caches : Table String PodIdentity × OwnerCache) (l : Listed) :
    (refreshPod cfg caches l).2 = askAll caches.2 l.request.toList := by
  unfold refreshPod Listed.request
  cases hu : l.pod.uid with
  | none => simp [askAll]
  | some uid =>
    cases hi : l.intermediate with
    | none =>
      dsimp only
      rw [resolveOwner_of_none hi uid caches.2 l.fresh]
      simp [askAll]
    | some o =>
      dsimp only
      rw [resolveOwner_of_intermediate hi]
      simp [askAll]

theorem ownerCache_foldl (cfg : CacheConfig) (pods : List Listed) (caches : Table String PodIdentity × OwnerCache) :
    (pods.foldl (refreshPod cfg) caches).2 = askAll caches.2 (pods.filterMap Listed.request) := by
  induction pods generalizing caches with
  | nil => rfl
  | cons l pods ih =>
    have hsplit : (l :: pods).filterMap Listed.request = l.request.toList ++ pods.filterMap Listed.request := by
      rw [List.filterMap_cons]
      cases l.request <;> rfl
    rw [List.foldl_cons, ih, ownerCache_refreshPod, hsplit, askAll_append]

theorem afterRefreshes_concat (cfg : CacheConfig) (lists : List (Option (List Listed))) (list : Option (List Listed)) :
    afterRefreshes cfg (lists ++ [list]) = refreshPodCache cfg (afterRefreshes cfg lists) list := by
  simp [afterRefreshes]

theorem requests_append (lists later : List (Option (List Listed))) :
    requests (lists ++ later) = requests lists ++ requests later := by
  simp [requests]

/-- The owner cache holds the first answer to every question of the run. -/
theorem ownerCache_afterRefreshes (cfg : CacheConfig) (lists : List (Option (List Listed))) :
    (afterRefreshes cfg lists).2 = askAll ∅ (requests lists) := by
  induction lists using List.reverseRecOn with
  | nil => rfl
  | append_singleton lists list ih =>
    have hlist : requests [list] = (list.getD []).filterMap Listed.request := by simp [requests]
    rw [afterRefreshes_concat, requests_append, hlist, askAll_append, ← ih]
    cases list with
    | none => rfl
    | some pods => exact ownerCache_foldl cfg pods _

/-! ## The pod cache over a run -/

/-- What looking up an owner gives, when some questions have been put. -/
def firstFound (reqs : List (String × OwnerMapping)) (o : OwnerReference) : OwnerMapping :=
  (firstAnswer reqs o.uid).getD ⟨o.uid, o.name, o.kind⟩

/-- Once a pod has been looked at, its workload does not depend on what is
asked later. -/
theorem workload_firstFound_append {l : Listed} {uid : String} (hu : l.pod.uid = some uid)
    {reqs : List (String × OwnerMapping)} (hl : ∀ r, l.request = some r → r ∈ reqs)
    (later : List (String × OwnerMapping)) :
    l.workload uid (firstFound (reqs ++ later)) = l.workload uid (firstFound reqs) := by
  cases hi : l.intermediate with
  | none => exact workload_of_none hi uid _ _
  | some o =>
    have hmem := hl _ (request_of_intermediate hi hu)
    rw [workload_of_intermediate hi, workload_of_intermediate hi, firstFound, firstFound,
      firstAnswer_append_of_mem hmem]

/-- What a pod that is looked at gets as its workload, after some questions. -/
theorem resolveOwner_askAll {l : Listed} {uid : String} (hu : l.pod.uid = some uid)
    (reqs : List (String × OwnerMapping)) :
    (resolveOwner uid (l.pod.name.getD "") (l.pod.ownerReferences.getD []) l.answer (askAll ∅ reqs)).1 =
      l.workload uid (firstFound (reqs ++ l.request.toList)) := by
  cases hi : l.intermediate with
  | none => rw [resolveOwner_of_none hi]
  | some o =>
    rw [resolveOwner_of_intermediate hi, workload_of_intermediate hi, request_of_intermediate hi hu, firstFound]
    have hask := ask_askAll reqs o.uid (l.fresh o)
    rw [Option.toList_some, ← hask]
    rfl

/-- The pods of one list, after the questions of earlier lists. -/
theorem lookup_foldl_refreshPod (cfg : CacheConfig) (before : List (String × OwnerMapping)) (pods : List Listed)
    (uid : String) :
    (pods.foldl (refreshPod cfg) (∅, askAll ∅ before)).1.lookup uid =
      ((pods.filter fun l => l.pod.uid = some uid).getLast?).map fun l =>
        podIdentity cfg l.pod (l.workload uid (firstFound (before ++ pods.filterMap Listed.request))) := by
  induction pods using List.reverseRecOn with
  | nil => rfl
  | append_singleton pods l ih =>
    have howner : (pods.foldl (refreshPod cfg) (∅, askAll ∅ before)).2 =
        askAll ∅ (before ++ pods.filterMap Listed.request) := by
      rw [ownerCache_foldl, askAll_append]
    have hreqs : before ++ (pods ++ [l]).filterMap Listed.request =
        before ++ pods.filterMap Listed.request ++ l.request.toList := by
      rw [List.filterMap_append, List.append_assoc]
      cases hr : l.request <;> simp [hr]
    -- The pods before this one keep their workloads.
    have hkeep : ((pods.filter fun l => l.pod.uid = some uid).getLast?).map (fun l' =>
          podIdentity cfg l'.pod (l'.workload uid (firstFound (before ++ pods.filterMap Listed.request)))) =
        ((pods.filter fun l => l.pod.uid = some uid).getLast?).map fun l' =>
          podIdentity cfg l'.pod (l'.workload uid
            (firstFound (before ++ pods.filterMap Listed.request ++ l.request.toList))) := by
      apply Option.map_congr
      intro l' hl'
      have hmem := List.mem_filter.1 (List.mem_of_mem_getLast? hl')
      have hu' : l'.pod.uid = some uid := by simpa using hmem.2
      have hasked : ∀ r, l'.request = some r → r ∈ before ++ pods.filterMap Listed.request := fun r hr =>
        List.mem_append_right _ (List.mem_filterMap.2 ⟨l', hmem.1, hr⟩)
      rw [workload_firstFound_append hu' hasked]
    rw [hreqs, List.foldl_append, List.filter_append]
    simp only [List.foldl_cons, List.foldl_nil]
    generalize pods.foldl (refreshPod cfg) (∅, askAll ∅ before) = caches at ih howner ⊢
    cases hu : l.pod.uid with
    | none => simpa [refreshPod, hu] using ih.trans hkeep
    | some u =>
      by_cases heq : u = uid
      · subst heq
        simp only [refreshPod, hu, howner, AList.lookup_insert, resolveOwner_askAll hu]
        simp [hu]
      · simpa [refreshPod, hu, heq, AList.lookup_insert_ne (Ne.symm heq)] using ih.trans hkeep

/-- After any refreshes with any answers, the pod cache has the pods of the
last list that was obtained, each with the workload that was found when its
owner was first asked about in the whole run. -/
theorem pod_cache_of_run (cfg : CacheConfig) (lists : List (Option (List Listed))) (uid : String) :
    (afterRefreshes cfg lists).1.lookup uid =
      (lastListed lists uid).map fun l => podIdentity cfg l.pod (l.workload uid (firstFound (requests lists))) := by
  induction lists using List.reverseRecOn with
  | nil => rfl
  | append_singleton lists list ih =>
    rw [afterRefreshes_concat, requests_append]
    cases list with
    | none =>
      have hlast : lastListed (lists ++ [none]) uid = lastListed lists uid := by simp [lastListed]
      rw [hlast]
      simpa [refreshPodCache, requests] using ih
    | some pods =>
      have hlast : lastListed (lists ++ [some pods]) uid = (pods.filter fun l => l.pod.uid = some uid).getLast? := by
        simp [lastListed]
      rw [hlast, refreshPodCache, ownerCache_afterRefreshes, lookup_foldl_refreshPod]
      simp [requests]

/-! ## When the owner cache does not show -/

theorem mem_requests {lists : List (Option (List Listed))} {r : String × OwnerMapping} :
    r ∈ requests lists ↔ ∃ pods, some pods ∈ lists ∧ ∃ l ∈ pods, l.request = some r := by
  simp only [requests, List.mem_filterMap, List.mem_flatMap]
  constructor
  · rintro ⟨l, ⟨list, hlist, hl⟩, hr⟩
    cases list with
    | none => simp at hl
    | some pods => exact ⟨pods, hlist, l, hl, hr⟩
  · rintro ⟨pods, hpods, l, hl, hr⟩
    exact ⟨l, ⟨some pods, hpods, hl⟩, hr⟩

/-- The pod an entry comes from was in one of the lists, under its uid. -/
theorem lastListed_mem {lists : List (Option (List Listed))} {uid : String} {l : Listed}
    (h : lastListed lists uid = some l) : l.pod.uid = some uid ∧ ∃ pods, some pods ∈ lists ∧ l ∈ pods := by
  obtain ⟨hmem, hu⟩ := List.mem_filter.1 (List.mem_of_getLast? h)
  refine ⟨by simpa using hu, ?_⟩
  cases hlast : (lists.filterMap id).getLast? with
  | none =>
    rw [hlast] at hmem
    exact absurd hmem List.not_mem_nil
  | some pods =>
    rw [hlast] at hmem
    exact ⟨pods, by simpa using List.mem_of_getLast? hlast, hmem⟩

/-- In a list with distinct uids every pod is the last one under its uid. -/
theorem lastListed_of_distinct {pods : List Listed} (hpods : (pods.filterMap (·.pod.uid)).Nodup) {l : Listed}
    (hl : l ∈ pods) {uid : String} (hu : l.pod.uid = some uid) (lists : List (Option (List Listed))) :
    lastListed (lists ++ [some pods]) uid = some l := by
  have hlast : lastListed (lists ++ [some pods]) uid = (pods.filter fun l => l.pod.uid = some uid).getLast? := by
    simp [lastListed]
  have hmem : l ∈ pods.filter fun l => l.pod.uid = some uid := List.mem_filter.2 ⟨hl, by simpa using hu⟩
  obtain ⟨l', hl'⟩ := Option.ne_none_iff_exists'.1 (mt List.getLast?_eq_none_iff.1 (List.ne_nil_of_mem hmem))
  rw [hlast, hl']
  obtain ⟨hl'', hu'⟩ := List.mem_filter.1 (List.mem_of_getLast? hl')
  -- Two pods under one uid are one pod.
  by_contra hne
  have hsymm : Std.Symm fun a b : Listed => ∀ u, a.pod.uid = some u → ∀ u', b.pod.uid = some u' → u ≠ u' :=
    ⟨fun a b hab u hb u' ha heq => hab u' ha u hb heq.symm⟩
  have hapart := (List.pairwise_filterMap.1 hpods).forall hl hl'' fun heq => hne (congrArg some heq.symm)
  exact hapart uid hu uid (by simpa using hu') rfl

theorem podIdentity_inj {cfg : CacheConfig} {pod : K8sPod} {w w' : OwnerMapping}
    (h : podIdentity cfg pod w = podIdentity cfg pod w') : w = w' := by
  obtain ⟨uid, name, kind⟩ := w
  obtain ⟨uid', name', kind'⟩ := w'
  simp only [podIdentity, PodIdentity.mk.injEq] at h
  simp [h]

/-- The owner cache shows nowhere in a run, at no time and for no pod, exactly
if the API server gave the same answer whenever a pod of the same owner was
looked at. A request that failed once counts as an answer: the pods of that
owner stay with the ReplicaSet or Job itself however often it could be asked
again. -/
theorem owner_cache_transparent_iff (cfg : CacheConfig) {lists : List (Option (List Listed))}
    (hdistinct : ∀ pods, some pods ∈ lists → (pods.filterMap (·.pod.uid)).Nodup) :
    (∀ past, past <+: lists → ∀ uid, (afterRefreshes cfg past).1.lookup uid =
        (lastListed past uid).map fun l => podIdentity cfg l.pod (l.workload uid l.fresh)) ↔
      ∀ r ∈ requests lists, ∀ r' ∈ requests lists, r.1 = r'.1 → r.2 = r'.2 := by
  constructor
  · intro hplain
    -- Every answer of the run is the first one for its owner.
    have hfirst : ∀ r ∈ requests lists, firstAnswer (requests lists) r.1 = some r.2 := by
      intro r hr
      obtain ⟨pods, hpods, l, hl, hreq⟩ := mem_requests.1 hr
      obtain ⟨past, later, rfl⟩ := List.append_of_mem hpods
      obtain ⟨uid, hu⟩ : ∃ uid, l.pod.uid = some uid := by
        cases hu : l.pod.uid with
        | none => simp [Listed.request, hu] at hreq
        | some uid => exact ⟨uid, rfl⟩
      obtain ⟨o, hi, rfl⟩ : ∃ o, l.intermediate = some o ∧ (o.uid, l.fresh o) = r := by
        simpa [Listed.request, hu] using hreq
      have hnow := hplain (past ++ [some pods]) ⟨later, by simp⟩ uid
      rw [pod_cache_of_run, lastListed_of_distinct (hdistinct pods hpods) hl hu] at hnow
      have hsame := podIdentity_inj (Option.some.inj hnow)
      rw [workload_of_intermediate hi, workload_of_intermediate hi, firstFound] at hsame
      have hasked : (o.uid, l.fresh o) ∈ requests (past ++ [some pods]) :=
        mem_requests.2 ⟨pods, by simp, l, hl, hreq⟩
      obtain ⟨v, hv⟩ := firstAnswer_isSome hasked
      have hsplit : past ++ some pods :: later = past ++ [some pods] ++ later := by simp
      rw [hsplit, requests_append, firstAnswer_append_of_mem hasked, hv, ← hsame, hv]
      rfl
    intro r hr r' hr' hkey
    have h := hfirst r hr
    rw [hkey, hfirst r' hr'] at h
    exact (Option.some.inj h).symm
  · rintro hsame past ⟨later, rfl⟩ uid
    rw [pod_cache_of_run]
    apply Option.map_congr
    intro l hl
    obtain ⟨hu, pods, hpods, hmem⟩ := lastListed_mem hl
    congr 1
    cases hi : l.intermediate with
    | none => exact workload_of_none hi uid _ _
    | some o =>
      have hasked : (o.uid, l.fresh o) ∈ requests past :=
        mem_requests.2 ⟨pods, hpods, l, hmem, request_of_intermediate hi hu⟩
      obtain ⟨v, hv⟩ := firstAnswer_isSome hasked
      have hv' : v = l.fresh o := by
        apply hsame (o.uid, v) _ (o.uid, l.fresh o) _ rfl
        · rw [requests_append]
          exact List.mem_append_left _ (mem_of_firstAnswer hv)
        · rw [requests_append]
          exact List.mem_append_left _ hasked
      rw [workload_of_intermediate hi, workload_of_intermediate hi, firstFound, hv, hv']
      rfl

/-- A pod of the ReplicaSet `web-1`, looked at while the API server answers so. -/
private def webPod (answer : Option (List OwnerReference)) : Listed where
  pod := { uid := some "p", name := some "web-1-x", ownerReferences := some [⟨"rs", "web-1", "ReplicaSet", some true⟩] }
  answer := answer

theorem failed_lookup_shows :
    (afterRefreshes ⟨[], [], []⟩ [some [webPod none], some [webPod (some [⟨"d", "web", "Deployment", some true⟩])]]).2.lookup
        "rs" = some ⟨"rs", "web-1", "ReplicaSet"⟩ ∧
      ¬∀ past, past <+: [some [webPod none], some [webPod (some [⟨"d", "web", "Deployment", some true⟩])]] → ∀ uid,
        (afterRefreshes ⟨[], [], []⟩ past).1.lookup uid =
          (lastListed past uid).map fun l => podIdentity ⟨[], [], []⟩ l.pod (l.workload uid l.fresh) := by
  refine ⟨by decide, fun hplain => ?_⟩
  have hsame := (owner_cache_transparent_iff ⟨[], [], []⟩ (by simp [webPod])).1 hplain
  exact absurd (hsame ("rs", ⟨"rs", "web-1", "ReplicaSet"⟩) (by decide) ("rs", ⟨"d", "web", "Deployment"⟩) (by decide) rfl)
    (by decide)

end Keck.Agent
