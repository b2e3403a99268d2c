import Keck.Lib.Json
import Keck.Lib.Text
import Keck.Controller.Views
/-!
# Namespaces of cluster operators

`discover_co_namespaces` of `keck-controller/src/application.rs`: every namespace
is mapped to a ClusterOperator that lists it among its `relatedObjects`. Several
may list one namespace; the first is kept unless a later one's name fits better.

`MapOk` says what the map is after the references processed so far. One round
keeps it (`mapOk_relate`), so it holds of the whole run, in whatever order the
operators and their objects come (`namespaces_mapped`).
-/
namespace Keck.Controller

open Keck.Lib Keck.Lib.Text

/-! ## The API's objects -/

/-- A `DynamicObject`: its name, and everything but its metadata. -/
structure ClusterOperator where
  metadataName : Option String
  data : Json

namespace ClusterOperator

def coName (co : ClusterOperator) : String := co.metadataName.getD ""

def related (co : ClusterOperator) : List Json :=
  (((co.data.get "status").bind (Json.get "relatedObjects")).bind Json.asArray).getD []

end ClusterOperator

/-! ## Discovery -/

/-- `s.replace('-', "_")`. -/
def underscored (s : String) : String := String.ofList (s.toList.map fun c => if c = '-' then '_' else c)

/-- The namespace a related object names, if the loop goes on with it. -/
def namespaceOf (obj : Json) : Option String :=
  if ((obj.get "resource").bind Json.asStr).getD "" ≠ "namespaces" then none
  else match (obj.get "name").bind Json.asStr with
    | none => none
    | some ns => if ns = "openshift-config" ∨ ns = "openshift-config-managed" then none else some ns

/-- The map after a reference to `ns` by the operator `co`. -/
def relate (nsToCo : Table String String) (ns co : String) : Table String String :=
  let dominated := containsText ns co || containsText ns (underscored co)
  match nsToCo.lookup ns with
  | none => nsToCo.insert ns co
  | some existing => if dominated && !containsText ns existing then nsToCo.insert ns co else nsToCo

def relateAll (co : ClusterOperator) (nsToCo : Table String String) : Table String String :=
  co.related.foldl (fun m obj => match namespaceOf obj with
    | none => m
    | some ns => relate m ns co.coName) nsToCo

/-- The answer of the API server is its list of operators, or an error. -/
def discoverCoNamespaces (list : Except String (List ClusterOperator)) : Table String String :=
  match list with
  | .error _ => ∅
  | .ok items => items.foldl (fun m co => relateAll co m) ∅

/-! ## The references -/

/-- The operator lists the namespace among its related objects. -/
def ClusterOperator.References (co : ClusterOperator) (ns : String) : Prop :=
  ∃ obj ∈ co.related, (obj.get "resource").bind Json.asStr = some "namespaces" ∧
    (obj.get "name").bind Json.asStr = some ns

def Excluded (ns : String) : Prop := ns = "openshift-config" ∨ ns = "openshift-config-managed"

theorem namespaceOf_eq_some {obj : Json} {ns : String} :
    namespaceOf obj = some ns ↔
      ((obj.get "resource").bind Json.asStr = some "namespaces" ∧ (obj.get "name").bind Json.asStr = some ns) ∧
        ¬ Excluded ns := by
  have hresource : ((obj.get "resource").bind Json.asStr).getD "" = "namespaces" ↔
      (obj.get "resource").bind Json.asStr = some "namespaces" := by
    cases (obj.get "resource").bind Json.asStr <;> simp
  unfold namespaceOf Excluded
  rw [← hresource]
  split
  · simp_all
  · cases hname : (obj.get "name").bind Json.asStr with
    | none => simp
    | some name =>
      by_cases hexcluded : name = "openshift-config" ∨ name = "openshift-config-managed"
      · simp only [hexcluded, if_true]
        grind
      · simp only [hexcluded, if_false]
        grind

/-- The references of the operators, in the order the two loops meet them. -/
def references (items : List ClusterOperator) : List (String × String) :=
  items.flatMap fun co => (co.related.filterMap namespaceOf).map fun ns => (ns, co.coName)

theorem mem_references {items : List ClusterOperator} {ns name : String} :
    (ns, name) ∈ references items ↔ ¬ Excluded ns ∧ ∃ co ∈ items, co.coName = name ∧ co.References ns := by
  simp only [references, List.mem_flatMap, List.mem_map, List.mem_filterMap, namespaceOf_eq_some, Prod.mk.injEq,
    ClusterOperator.References]
  grind

theorem relateAll_eq (co : ClusterOperator) (m : Table String String) :
    relateAll co m =
      ((co.related.filterMap namespaceOf).map fun ns => (ns, co.coName)).foldl (fun m r => relate m r.1 r.2) m := by
  rw [relateAll, List.foldl_map, List.foldl_filterMap]
  congr 1
  funext m obj
  cases namespaceOf obj <;> rfl

theorem discover_eq (items : List ClusterOperator) :
    discoverCoNamespaces (.ok items) = (references items).foldl (fun m r => relate m r.1 r.2) ∅ := by
  rw [references, List.foldl_flatMap]
  simp only [discoverCoNamespaces, relateAll_eq]

/-! ## What the map holds -/

/-- The map after the references `refs`: it has exactly their namespaces, each
mapped to an operator that refers to it, by one whose name it contains if any. -/
structure MapOk (refs : List (String × String)) (m : Table String String) : Prop where
  complete : ∀ ns, (∃ co, (ns, co) ∈ refs) → (m.lookup ns).isSome
  refers : ∀ ns co, m.lookup ns = some co → (ns, co) ∈ refs
  prefers : ∀ ns co, m.lookup ns = some co → (∃ co', (ns, co') ∈ refs ∧ containsText ns co') → containsText ns co

/-- The operator a namespace is mapped to after a reference by `co`. -/
def chosen (ns : String) (old : Option String) (co : String) : String :=
  match old with
  | none => co
  | some existing =>
    if (containsText ns co || containsText ns (underscored co)) && !containsText ns existing then co else existing

theorem lookup_relate (m : Table String String) (ns co k : String) :
    (relate m ns co).lookup k = if k = ns then some (chosen ns (m.lookup ns) co) else m.lookup k := by
  unfold relate chosen
  by_cases hk : k = ns
  · subst hk
    cases hm : m.lookup k with
    | none => simp
    | some existing =>
      simp only [if_true]
      split <;> simp [hm]
  · rw [if_neg hk]
    cases m.lookup ns with
    | none => exact AList.lookup_insert_ne hk
    | some existing =>
      dsimp only
      split
      · exact AList.lookup_insert_ne hk
      · rfl

theorem chosen_eq_or (ns : String) (old : Option String) (co : String) :
    chosen ns old co = co ∨ old = some (chosen ns old co) := by
  cases old with
  | none => exact .inl rfl
  | some existing => exact (ite_eq_or_eq _ co existing).imp_right fun hkept => congrArg some hkept.symm

/-- A name that the namespace contains is not given up, and one replaces a name it does not. -/
theorem containsText_chosen {ns co : String} {old : Option String}
    (h : containsText ns co ∨ ∃ existing, old = some existing ∧ containsText ns existing) :
    containsText ns (chosen ns old co) := by
  cases old with
  | none => simpa [chosen] using h
  | some existing =>
    by_cases hexisting : containsText ns existing
    · simp [chosen, hexisting]
    · have hco : containsText ns co := h.resolve_right (by rintro ⟨_, ⟨rfl⟩, he⟩; exact hexisting he)
      simp [chosen, hexisting, hco]

theorem mapOk_relate {refs : List (String × String)} {m : Table String String} (h : MapOk refs m) (ns co : String) :
    MapOk (refs ++ [(ns, co)]) (relate m ns co) where
  complete k hk := by
    rw [lookup_relate]
    split
    · rfl
    · obtain ⟨co', hco'⟩ := hk
      exact h.complete k ⟨co', by simp_all⟩
  refers k v hv := by
    rw [lookup_relate] at hv
    split at hv
    · next hk =>
      subst hk
      cases hv
      rcases chosen_eq_or k (m.lookup k) co with hnew | hold
      · rw [hnew]
        simp
      · exact List.mem_append_left _ (h.refers k _ hold)
    · exact List.mem_append_left _ (h.refers k v hv)
  prefers k v hv hfits := by
    obtain ⟨co', hmem, hfits⟩ := hfits
    rw [lookup_relate] at hv
    rcases List.mem_append.1 hmem with hmem | hmem
    · -- an earlier reference fits, so what is there already does
      obtain ⟨existing, hexisting⟩ := Option.isSome_iff_exists.1 (h.complete k ⟨co', hmem⟩)
      have hfits := h.prefers k existing hexisting ⟨co', hmem, hfits⟩
      split at hv
      · next hk =>
        subst hk
        cases hv
        exact containsText_chosen (.inr ⟨existing, hexisting, hfits⟩)
      · rw [hexisting] at hv
        cases hv
        exact hfits
    · -- the reference itself fits
      rw [List.mem_singleton, Prod.mk.injEq] at hmem
      obtain ⟨rfl, rfl⟩ := hmem
      rw [if_pos rfl] at hv
      cases hv
      exact containsText_chosen (.inl hfits)

theorem mapOk_foldl {refs todo : List (String × String)} {m : Table String String} (h : MapOk refs m) :
    MapOk (refs ++ todo) (todo.foldl (fun m r => relate m r.1 r.2) m) := by
  induction todo generalizing refs m with
  | nil => simpa using h
  | cons r todo ih =>
    have hnext := ih (mapOk_relate h r.1 r.2)
    rwa [List.append_assoc] at hnext

theorem mapOk_discover (items : List ClusterOperator) :
    MapOk (references items) (discoverCoNamespaces (.ok items)) := by
  have hempty : MapOk [] ∅ := ⟨by simp, by simp, by simp⟩
  rw [discover_eq]
  exact mapOk_foldl hempty

theorem isSome_discover (items : List ClusterOperator) (ns : String) :
    ((discoverCoNamespaces (.ok items)).lookup ns).isSome ↔ ¬ Excluded ns ∧ ∃ co ∈ items, co.References ns := by
  have hok := mapOk_discover items
  constructor
  · intro hsome
    obtain ⟨name, hname⟩ := Option.isSome_iff_exists.1 hsome
    obtain ⟨hexcluded, co, hco, -, hrefers⟩ := mem_references.1 (hok.refers ns name hname)
    exact ⟨hexcluded, co, hco, hrefers⟩
  · rintro ⟨hexcluded, co, hco, hrefers⟩
    exact hok.complete ns ⟨co.coName, mem_references.2 ⟨hexcluded, co, hco, rfl, hrefers⟩⟩

/-- The namespaces that some operator lists, but for the excluded two, are the
ones mapped. Each is mapped to an operator that lists it, and if the name of any
of these is part of the namespace, so is the one it is mapped to. -/
theorem namespaces_mapped (items : List ClusterOperator) (ns : String) :
    (((discoverCoNamespaces (.ok items)).lookup ns).isSome ↔ ¬ Excluded ns ∧ ∃ co ∈ items, co.References ns) ∧
      ∀ name, (discoverCoNamespaces (.ok items)).lookup ns = some name →
        (∃ co ∈ items, co.coName = name ∧ co.References ns) ∧
          ((∃ co ∈ items, co.References ns ∧ containsText ns co.coName) → containsText ns name) := by
  refine ⟨isSome_discover items ns, ?_⟩
  intro name hname
  have hok := mapOk_discover items
  obtain ⟨hexcluded, hrefers⟩ := mem_references.1 (hok.refers ns name hname)
  refine ⟨hrefers, ?_⟩
  rintro ⟨co, hco, hrefers, hfits⟩
  exact hok.prefers ns name hname ⟨co.coName, mem_references.2 ⟨hexcluded, co, hco, rfl, hrefers⟩, hfits⟩

/-! ## Classification -/

/-- The namespaces of the subscriptions, none if the API cannot list them. -/
def discoverSubscriptionNamespaces (list : Except String (List (Option String))) : List String :=
  match list with
  | .error _ => []
  | .ok namespaces => (namespaces.filterMap id).dedup

/-- One round of `watch_classification`. -/
def classificationRound (operators : Except String (List ClusterOperator))
    (subscriptions : Except String (List (Option String))) : ClassificationData :=
  let coNamespaces := discoverCoNamespaces operators
  { coNamespaces := coNamespaces
    operatorNamespaces := (discoverSubscriptionNamespaces subscriptions).filter fun ns => !decide (ns ∈ coNamespaces) }

theorem classify_eq_platform (cls : ClassificationData) (ns : String) :
    (cls.classify ns).1 = .platform ↔ (cls.coNamespaces.lookup ns).isSome := by
  unfold ClassificationData.classify
  cases cls.coNamespaces.lookup ns with
  | none => cases cls.operatorNamespaces.contains ns <;> simp
  | some co => simp

/-- A round classifies as platform exactly the namespaces operators list. -/
theorem classify_platform_iff (items : List ClusterOperator) (subscriptions : Except String (List (Option String)))
    (ns : String) :
    ((classificationRound (.ok items) subscriptions).classify ns).1 = .platform ↔
      ¬ Excluded ns ∧ ∃ co ∈ items, co.References ns := by
  rw [classify_eq_platform, classificationRound, isSome_discover]

end Keck.Controller
