import Keck.Controller.Views
/-!
# The grouped view

What `group_power` (`keck-controller/src/aggregator/mod.rs`) makes of the
stored pods. The groups partition the pods that pass the filter, and a group
shows what its pods add up to (`groups_partition_pods`). The name, the kind and
the category of a group come from the first of its pods the hash map hands
out, so they are the same in every iteration order only if the group's pods
agree on them (`groups_order_free_iff`). The namespace has a rule of its own
for pods that differ.

An iteration order of the pod map is the map with its entries permuted.
-/
namespace Keck.Controller

open Keck.Lib

/-! ## The pods of a group -/

section Members
variable (groupBy : GroupBy) (category : Option String) (cls : ClassificationData)

/-- A pod passes the category filter, and carries the label it is grouped by. -/
def accepts (p : PodPowerReport) : Bool :=
  category.all (fun c => (cls.classify p.ns).1.asStr == c) &&
    match groupBy with
    | .label key => (p.labels.lookup key).isSome
    | _ => true

/-- A pod with the group it goes to, if it is not skipped. -/
def itemOf (p : PodPowerReport) : GroupItem :=
  let g := (groupOf groupBy cls p).getD ("", "", "")
  ⟨p, g.1, g.2.1, g.2.2, (cls.classify p.ns).1⟩

theorem isSome_groupOf (p : PodPowerReport) :
    (groupOf groupBy cls p).isSome = match groupBy with
      | .label key => (p.labels.lookup key).isSome
      | _ => true := by
  cases groupBy with
  | label key => exact Option.isSome_map
  | application =>
    simp only [groupOf]
    split
    · rfl
    · split
      · rfl
      · split <;> rfl
  | _ => rfl

theorem groupItem_eq (p : PodPowerReport) :
    groupItem groupBy category cls p =
      if accepts groupBy category cls p then some (itemOf groupBy cls p) else none := by
  have hcat : (category.any fun c => (cls.classify p.ns).1.asStr != c) =
      !category.all fun c => (cls.classify p.ns).1.asStr == c := by
    cases category <;> rfl
  have hsome := isSome_groupOf groupBy cls p
  simp only [groupItem, accepts, hcat, ← hsome]
  cases hg : groupOf groupBy cls p with
  | none => simp
  | some g => by_cases hc : category.all fun c => (cls.classify p.ns).1.asStr == c <;> simp [hc, itemOf, hg]

variable (agg : ClusterAggregator)

/-- The stored pods that go into some group. -/
def accepted : List PodPowerReport := (allReports agg).filter (accepts groupBy category cls)

/-- The stored pods of the group with key `k`. -/
def members (k : String) : List PodPowerReport :=
  (accepted groupBy category cls agg).filter fun p => (itemOf groupBy cls p).key = k

theorem items_eq :
    (allReports agg).filterMap (groupItem groupBy category cls) =
      (accepted groupBy category cls agg).map (itemOf groupBy cls) := by
  rw [accepted]
  induction allReports agg with
  | nil => rfl
  | cons p ps ih =>
    rw [List.filterMap_cons, groupItem_eq, ih]
    by_cases h : accepts groupBy category cls p
    · rw [if_pos h, List.filter_cons_of_pos h, List.map_cons]
    · rw [if_neg h, List.filter_cons_of_neg h]

/-- A group is what the loop makes of its pods, in the order of the map. -/
theorem lookup_groupMap (k : String) :
    (groupMap agg groupBy category cls).lookup k =
      (members groupBy category cls agg k).head?.map fun p =>
        ((members groupBy category cls agg k).map (itemOf groupBy cls)).foldl GroupPower.add
          (.start (itemOf groupBy cls p)) := by
  have hf : (((accepted groupBy category cls agg).map (itemOf groupBy cls)).filter fun x => x.key = k) =
      (members groupBy category cls agg k).map (itemOf groupBy cls) := by
    rw [List.filter_map]
    rfl
  rw [groupMap, items_eq, lookup_groupFold, hf, List.head?_map, Option.map_map]
  rfl

end Members

/-! ## What a group shows -/

/-- A pod's line in its group. -/
def PodPowerReport.summary (p : PodPowerReport) : PodPowerSummary :=
  ⟨p.podUid, p.podName, p.cpuUw, p.memoryUw, p.gpuUw, p.totalUw⟩

/-- A group shows pods: it lists them, holds their sums and their number, and
names their namespace if they have one in common. -/
structure Shows (g : GroupPower) (ps : List PodPowerReport) : Prop where
  pods : g.pods = ps.map (·.summary)
  sums : ∀ f : Field, f.ofGroup g = (ps.map f.ofPod).sum
  common : ∀ ns, (∀ p ∈ ps, p.ns = ns) → g.ns = ns
  mixed : (¬∃ ns, ∀ p ∈ ps, p.ns = ns) → g.ns = ""

theorem pods_foldl (xs : List GroupItem) (g : GroupPower) :
    (xs.foldl GroupPower.add g).pods = g.pods ++ xs.map (·.report.summary) := by
  induction xs generalizing g with
  | nil => simp
  | cons x xs ih =>
    rw [List.foldl_cons, ih, List.map_cons]
    exact List.append_assoc _ _ _

/-- The running namespace: once two pods differ it is empty, and stays so. -/
theorem ns_foldl (xs : List GroupItem) (g : GroupPower) :
    (xs.foldl GroupPower.add g).ns = if ∀ x ∈ xs, x.report.ns = g.ns then g.ns else "" := by
  induction xs generalizing g with
  | nil => simp
  | cons x xs ih =>
    have hadd : (g.add x).ns = if g.ns != x.report.ns then "" else g.ns := rfl
    rw [List.foldl_cons, ih, hadd]
    by_cases h : x.report.ns = g.ns
    · simp [h]
    · have h' : (g.ns != x.report.ns) = true := by simpa using Ne.symm h
      rw [h', if_pos rfl, ite_self, if_neg]
      exact fun hall => h (hall x List.mem_cons_self)

/-- The loop over a group's pods, of which the first creates the group. -/
theorem shows_foldl (groupBy : GroupBy) (cls : ClassificationData) {p : PodPowerReport} {ps : List PodPowerReport}
    (hp : ps.head? = some p) :
    Shows ((ps.map (itemOf groupBy cls)).foldl GroupPower.add (.start (itemOf groupBy cls p))) ps where
  pods := by
    rw [pods_foldl, List.map_map]
    rfl
  sums f := by
    rw [foldl_additive (ofGroup_add f), List.map_map]
    have hstart : f.ofGroup (.start (itemOf groupBy cls p)) = 0 := by cases f <;> rfl
    rw [hstart, Nat.zero_add]
    rfl
  common ns h := by
    have hns : p.ns = ns := h p (List.mem_of_head? hp)
    rw [ns_foldl]
    refine (if_pos ?_).trans hns
    rintro x hx
    obtain ⟨q, hq, rfl⟩ := List.mem_map.1 hx
    exact (h q hq).trans hns.symm
  mixed h := by
    rw [ns_foldl, if_neg]
    exact fun hall => h ⟨p.ns, fun q hq => hall _ (List.mem_map_of_mem hq)⟩

section Shown
variable {groupBy : GroupBy} {category : Option String} {cls : ClassificationData} {agg : ClusterAggregator}

theorem members_key {k : String} {p : PodPowerReport} (h : p ∈ members groupBy category cls agg k) :
    (itemOf groupBy cls p).key = k := by simpa using (List.mem_filter.1 h).2

/-- A group of the result shows the pods of its key, and has its key, name,
kind and category from the first of them. -/
theorem shown_of_mem {g : GroupPower} (hg : g ∈ agg.groupPower groupBy category cls) :
    Shows g (members groupBy category cls agg g.groupKey) ∧
    ∃ p, (members groupBy category cls agg g.groupKey).head? = some p ∧
      g.groupName = (itemOf groupBy cls p).name ∧ g.groupKind = (itemOf groupBy cls p).kind ∧
      g.category = (itemOf groupBy cls p).category.asStr := by
  have h := (mem_groupPower agg groupBy category cls).1 hg
  rw [lookup_groupMap, Option.map_eq_some_iff] at h
  obtain ⟨p, hp, hfold⟩ := h
  have hshows := shows_foldl groupBy cls hp
  rw [hfold] at hshows
  have header : ∀ {β : Type} (f : GroupPower → β), (∀ g x, f (g.add x) = f g) →
      f g = f (.start (itemOf groupBy cls p)) := by
    intro β f hf
    conv_lhs => rw [← hfold]
    exact foldl_unchanged hf _ _
  exact ⟨hshows, p, hp, header (·.groupName) fun _ _ => rfl, header (·.groupKind) fun _ _ => rfl,
    header (·.category) fun _ _ => rfl⟩

/-- A group that has pods is in the result. -/
theorem exists_group {p : PodPowerReport} (hp : p ∈ accepted groupBy category cls agg) :
    ∃ g ∈ agg.groupPower groupBy category cls, g.groupKey = (itemOf groupBy cls p).key := by
  rw [← List.mem_map, (map_groupKey_perm agg groupBy category cls).mem_iff, ← AList.mem_keys, groupMap, items_eq]
  exact (mem_groupFold _ _ _).2 ⟨_, List.mem_map_of_mem hp, rfl⟩

theorem groupKey_nodup : ((agg.groupPower groupBy category cls).map (·.groupKey)).Nodup :=
  (map_groupKey_perm agg groupBy category cls).nodup_iff.2 (groupMap agg groupBy category cls).keys_nodup

end Shown

/-! ## The groups partition the pods -/

/-- The pods a result lists, group after group. -/
def listedPods (groups : List GroupPower) : List PodPowerSummary := groups.flatMap (·.pods)

theorem listedPods_perm (groupBy : GroupBy) (category : Option String) (cls : ClassificationData)
    (agg : ClusterAggregator) :
    (listedPods (agg.groupPower groupBy category cls)).Perm
      ((accepted groupBy category cls agg).map (·.summary)) := by
  -- as multisets: every pod adds itself to its group's list
  have hlisted : ((listedPods (agg.groupPower groupBy category cls) : List PodPowerSummary) : Multiset _) =
      ((agg.groupPower groupBy category cls).map fun g => (g.pods : Multiset PodPowerSummary)).sum := by
    rw [listedPods, ← sum_singletons, sum_map_flatMap]
    simp only [sum_singletons]
  have hfold : (groupMap agg groupBy category cls).total (fun _ g => (g.pods : Multiset PodPowerSummary)) =
      (((accepted groupBy category cls agg).map (itemOf groupBy cls)).map fun x => {x.report.summary}).sum := by
    rw [groupMap, items_eq]
    refine total_groupFold (f := fun g : GroupPower => (g.pods : Multiset PodPowerSummary)) ?_ (fun _ => rfl) _
    intro g x
    exact (Multiset.coe_add _ _).symm
  rw [← Multiset.coe_eq_coe, hlisted, ((groupPower_perm agg groupBy category cls).map _).sum_eq, AList.sum_values,
    hfold, ← sum_singletons, List.map_map, List.map_map]
  rfl

theorem asStr_inj {c c' : Category} : c.asStr = c'.asStr ↔ c = c' := by
  cases c <;> cases c' <;> decide

/-- Filtering by a category keeps the pods of its namespaces. -/
theorem accepted_some (groupBy : GroupBy) (c : Category) (cls : ClassificationData) (agg : ClusterAggregator) :
    accepted groupBy (some c.asStr) cls agg =
      (accepted groupBy none cls agg).filter fun p => (cls.classify p.ns).1 = c := by
  rw [accepted, accepted, List.filter_filter]
  congr 1
  funext p
  have hc : ((cls.classify p.ns).1.asStr == c.asStr) = decide ((cls.classify p.ns).1 = c) := by
    rw [beq_eq_decide, decide_eq_decide]
    exact asStr_inj
  simp only [accepts, Option.all_some, Option.all_none, Bool.true_and, hc]

theorem perm_categories {α : Type} (f : α → Category) (l : List α) :
    (l.filter (fun x => f x = .platform) ++ l.filter (fun x => f x = .operator) ++
      l.filter (fun x => f x = .application)).Perm l := by
  induction l with
  | nil => exact .refl _
  | cons x l ih =>
    rw [List.append_assoc] at ih ⊢
    cases h : f x with
    | platform => simpa [h] using ih
    | operator =>
      simp only [List.filter_cons, h, decide_true, decide_false, if_true, reduceCtorEq, Bool.false_eq_true, if_false,
        List.cons_append]
      exact List.perm_middle.trans (ih.cons x)
    | application =>
      simp only [List.filter_cons, h, decide_true, decide_false, if_true, reduceCtorEq, Bool.false_eq_true, if_false]
      rw [← List.append_assoc] at ih ⊢
      exact List.perm_middle.trans (ih.cons x)

/-- A group with its pods in no order. -/
def GroupPower.unordered (g : GroupPower) : GroupPower × Multiset PodPowerSummary := ({ g with pods := [] }, g.pods)

/-- Two results hold the same groups. -/
def SameGroups (gs gs' : List GroupPower) : Prop := (gs.map (·.unordered)).Perm (gs'.map (·.unordered))

section Order
variable (agg : ClusterAggregator) (groupBy : GroupBy) (category : Option String) (cls : ClassificationData)

/-- Any two iteration orders of the pod map give the same groups. -/
def OrderFree : Prop :=
  ∀ pods₁ pods₂ : Table (String × String) PodState,
    pods₁.entries.Perm agg.pods.entries → pods₂.entries.Perm agg.pods.entries →
    SameGroups (ClusterAggregator.groupPower { agg with pods := pods₁ } groupBy category cls)
      (ClusterAggregator.groupPower { agg with pods := pods₂ } groupBy category cls)

/-- Pods that go to one group give it the same name and kind, and are of the
same category. -/
def HeadersAgree : Prop :=
  ∀ p ∈ accepted groupBy category cls agg, ∀ q ∈ accepted groupBy category cls agg,
    (itemOf groupBy cls p).key = (itemOf groupBy cls q).key →
    (itemOf groupBy cls p).name = (itemOf groupBy cls q).name ∧
    (itemOf groupBy cls p).kind = (itemOf groupBy cls q).kind ∧
    (cls.classify p.ns).1 = (cls.classify q.ns).1

end Order

theorem allReports_perm {agg agg' : ClusterAggregator} (h : agg.pods.entries.Perm agg'.pods.entries) :
    (allReports agg).Perm (allReports agg') := (h.map _).map _

section OrderProofs
variable {agg agg' : ClusterAggregator} {groupBy : GroupBy} {category : Option String} {cls : ClassificationData}

/-- What a group shows does not depend on the order of its pods. -/
theorem unordered_eq {g g' : GroupPower} {ps ps' : List PodPowerReport} (h : Shows g ps) (h' : Shows g' ps')
    (hperm : ps.Perm ps') (hkey : g.groupKey = g'.groupKey) (hname : g.groupName = g'.groupName)
    (hkind : g.groupKind = g'.groupKind) (hcat : g.category = g'.category) : g.unordered = g'.unordered := by
  have hsum : ∀ f : Field, f.ofGroup g = f.ofGroup g' := by
    intro f
    rw [h.sums, h'.sums]
    exact (hperm.map _).sum_eq
  have hpods : (g.pods : Multiset PodPowerSummary) = g'.pods := by
    rw [h.pods, h'.pods, Multiset.coe_eq_coe]
    exact hperm.map _
  have hns : g.ns = g'.ns := by
    by_cases hc : ∃ ns, ∀ p ∈ ps, p.ns = ns
    · obtain ⟨ns, hns⟩ := hc
      rw [h.common ns hns, h'.common ns fun p hp => hns p (hperm.mem_iff.2 hp)]
    · rw [h.mixed hc, h'.mixed]
      rintro ⟨ns, hns⟩
      exact hc ⟨ns, fun p hp => hns p (hperm.mem_iff.1 hp)⟩
  have hcpu : g.cpuUw = g'.cpuUw := hsum .cpu
  have hmem : g.memoryUw = g'.memoryUw := hsum .memory
  have hgpu : g.gpuUw = g'.gpuUw := hsum .gpu
  have hsto : g.storageUw = g'.storageUw := hsum .storage
  have hio : g.ioUw = g'.ioUw := hsum .io
  have htot : g.totalUw = g'.totalUw := hsum .total
  have hcount : g.podCount = g'.podCount := hsum .podCount
  simp only [GroupPower.unordered, hkey, hname, hkind, hcat, hns, hcpu, hmem, hgpu, hsto, hio, htot, hcount, hpods]

theorem mem_unordered (hperm : (allReports agg).Perm (allReports agg')) (h : HeadersAgree agg groupBy category cls)
    {g : GroupPower} (hg : g ∈ agg.groupPower groupBy category cls) :
    g.unordered ∈ (agg'.groupPower groupBy category cls).map (·.unordered) := by
  have hacc : (accepted groupBy category cls agg).Perm (accepted groupBy category cls agg') := hperm.filter _
  obtain ⟨hshows, p, hp, hname, hkind, hcat⟩ := shown_of_mem hg
  have hpm := List.mem_of_head? hp
  have hpacc : p ∈ accepted groupBy category cls agg := (List.mem_filter.1 hpm).1
  obtain ⟨g', hg', hkey⟩ := exists_group (hacc.mem_iff.1 hpacc)
  rw [members_key hpm] at hkey
  obtain ⟨hshows', q, hq, hname', hkind', hcat'⟩ := shown_of_mem hg'
  rw [hkey] at hshows' hq
  have hqm := List.mem_of_head? hq
  have hqacc : q ∈ accepted groupBy category cls agg := hacc.mem_iff.2 (List.mem_filter.1 hqm).1
  -- both first pods are in the group, so they agree
  obtain ⟨en, ek, ec⟩ := h p hpacc q hqacc ((members_key hpm).trans (members_key hqm).symm)
  refine List.mem_map.2 ⟨g', hg', (unordered_eq hshows hshows' (hacc.filter _) hkey.symm ?_ ?_ ?_).symm⟩
  · rw [hname, hname', en]
  · rw [hkind, hkind', ek]
  · rw [hcat, hcat']
    exact congrArg Category.asStr ec

theorem unordered_nodup : ((agg.groupPower groupBy category cls).map (·.unordered)).Nodup := by
  refine List.Nodup.of_map (fun u => u.1.groupKey) ?_
  rw [List.map_map]
  exact groupKey_nodup

theorem headersAgree_perm (hperm : (allReports agg).Perm (allReports agg'))
    (h : HeadersAgree agg groupBy category cls) : HeadersAgree agg' groupBy category cls := by
  have hacc : (accepted groupBy category cls agg).Perm (accepted groupBy category cls agg') := hperm.filter _
  intro p hp q hq hk
  exact h p (hacc.mem_iff.2 hp) q (hacc.mem_iff.2 hq) hk

theorem orderFree_of_agree (h : HeadersAgree agg groupBy category cls) : OrderFree agg groupBy category cls := by
  intro pods₁ pods₂ h₁ h₂
  have r₁ : (allReports agg).Perm (allReports { agg with pods := pods₁ }) := allReports_perm h₁.symm
  have r₂ : (allReports agg).Perm (allReports { agg with pods := pods₂ }) := allReports_perm h₂.symm
  refine (List.perm_ext_iff_of_nodup unordered_nodup unordered_nodup).2 fun u => ⟨fun hu => ?_, fun hu => ?_⟩
  · obtain ⟨g, hg, rfl⟩ := List.mem_map.1 hu
    exact mem_unordered (r₁.symm.trans r₂) (headersAgree_perm r₁ h) hg
  · obtain ⟨g, hg, rfl⟩ := List.mem_map.1 hu
    exact mem_unordered (r₂.symm.trans r₁) (headersAgree_perm r₂ h) hg

/-- The first pod of the map names its group. -/
theorem header_of_first {p : PodPowerReport} {ps : List PodPowerReport} (hfirst : allReports agg = p :: ps)
    (hp : accepts groupBy category cls p = true) {g : GroupPower} (hg : g ∈ agg.groupPower groupBy category cls)
    (hk : g.groupKey = (itemOf groupBy cls p).key) :
    g.groupName = (itemOf groupBy cls p).name ∧ g.groupKind = (itemOf groupBy cls p).kind ∧
      g.category = (cls.classify p.ns).1.asStr := by
  have hhead : (members groupBy category cls agg g.groupKey).head? = some p := by
    rw [members, accepted, hfirst, List.filter_cons_of_pos hp, List.filter_cons_of_pos (by simpa using hk.symm)]
    rfl
  obtain ⟨-, p', hp', hname, hkind, hcat⟩ := shown_of_mem hg
  rw [hhead, Option.some.injEq] at hp'
  subst hp'
  exact ⟨hname, hkind, hcat⟩

theorem exists_order_of_report {p : PodPowerReport} (hp : p ∈ allReports agg) :
    ∃ pods : Table (String × String) PodState, pods.entries.Perm agg.pods.entries ∧
      ∃ ps, allReports { agg with pods := pods } = p :: ps := by
  obtain ⟨s, hs, rfl⟩ := List.mem_map.1 hp
  obtain ⟨e, he, rfl⟩ := List.mem_map.1 hs
  obtain ⟨pods, hperm, es, hes⟩ := AList.exists_order he
  refine ⟨pods, hperm, (es.map fun e => e.2).map (·.report), ?_⟩
  rw [allReports, AList.values, hes, List.map_cons, List.map_cons]

theorem agree_of_orderFree (h : OrderFree agg groupBy category cls) : HeadersAgree agg groupBy category cls := by
  intro p hp q hq hk
  obtain ⟨hpr, hpa⟩ := List.mem_filter.1 hp
  obtain ⟨hqr, hqa⟩ := List.mem_filter.1 hq
  -- one order hands out p first, the other q
  obtain ⟨pods₁, h₁, ps, hps⟩ := exists_order_of_report hpr
  obtain ⟨pods₂, h₂, qs, hqs⟩ := exists_order_of_report hqr
  have hp₁ : p ∈ accepted groupBy category cls { agg with pods := pods₁ } := by
    rw [accepted, hps]
    exact List.mem_filter.2 ⟨List.mem_cons_self, hpa⟩
  obtain ⟨g, hg, hgk⟩ := exists_group hp₁
  have hu := (h pods₁ pods₂ h₁ h₂).mem_iff.1 (List.mem_map_of_mem hg)
  obtain ⟨g', hg', hgg⟩ := List.mem_map.1 hu
  have hgg : ({ g' with pods := [] } : GroupPower) = { g with pods := [] } := congrArg Prod.fst hgg
  rw [GroupPower.mk.injEq] at hgg
  obtain ⟨hkey, hname, hkind, -, hcat, -⟩ := hgg
  obtain ⟨n, k, c⟩ := header_of_first hps hpa hg hgk
  obtain ⟨n', k', c'⟩ := header_of_first hqs hqa hg' ((hkey.trans hgk).trans hk)
  exact ⟨n.symm.trans (hname.symm.trans n'), k.symm.trans (hkind.symm.trans k'),
    asStr_inj.1 (c.symm.trans (hcat.symm.trans c'))⟩

/-- In every state, for every classification, grouping and filter: the groups
do not depend on the iteration order of the pods if and only if the pods of a
group agree on its name, kind and category. -/
theorem groups_order_free_iff (agg : ClusterAggregator) (groupBy : GroupBy) (category : Option String)
    (cls : ClassificationData) : OrderFree agg groupBy category cls ↔ HeadersAgree agg groupBy category cls :=
  ⟨agree_of_orderFree, orderFree_of_agree⟩

end OrderProofs

/-- A label used in an application's namespace and in an operator's. -/
def sharedLabel : Table String String := AList.insert "app.kubernetes.io/name" "cache" ∅

/-- A pod of each namespace carries it. -/
def sharedLabelLog : List Event :=
  [.ingest 1 1 ⟨makeNode "node-1" 5000 2000 0 none 1000,
    [{ makePod "node-1" "uid-a" "cache-1" "shop" 1000 500 0 with labels := sharedLabel },
     { makePod "node-1" "uid-b" "cache-2" "redis-operator" 2000 800 0 with labels := sharedLabel }]⟩]

def sharedLabelClasses : ClassificationData := { operatorNamespaces := ["redis-operator"] }

/-- Grouped by the label, the two pods are one group, whose category is that of
whichever pod comes first. -/
theorem shared_label_category_by_order :
    ClockOk sharedLabelLog ∧
    ¬OrderFree (ClusterAggregator.run sharedLabelLog) (.label "app.kubernetes.io/name") none sharedLabelClasses := by
  refine ⟨by decide, fun h => ?_⟩
  have hagree := agree_of_orderFree h _ (List.mem_cons_self ..) _ (List.mem_cons_of_mem _ (List.mem_cons_self ..)) rfl
  exact absurd hagree.2.2 (by decide)

end Keck.Controller
