import Keck.Lib.Table
/-!
# Grouping a list into a hash map

The loop `for x in xs { map.entry(key(x)).or_insert_with(init(x)).update(x) }`:
each element updates the row of its key, created on first use. `groupFold` is
that loop. `lookup_groupFold` says what a row holds: the updates of the
elements with its key, in order. `total_groupFold` says the rows together
account for every element exactly once.
-/
namespace Keck.Lib

variable {α κ σ : Type} [DecidableEq κ]

/-- A loop whose rounds leave a part of the state alone leaves it alone. -/
theorem foldl_unchanged {β : Type} {f : σ → β} {upd : σ → α → σ} (h : ∀ s x, f (upd s x) = f s) (xs : List α) (s : σ) :
    f (xs.foldl upd s) = f s := by
  induction xs generalizing s with
  | nil => rfl
  | cons x xs ih => rw [List.foldl_cons, ih, h]

section Fold
variable (key : α → κ) (init : α → σ) (upd : σ → α → σ)

/-- One round of the loop. -/
def groupStep (m : Table κ σ) (x : α) : Table κ σ := m.insert (key x) (upd ((m.lookup (key x)).getD (init x)) x)

/-- The whole loop, from an empty map. -/
def groupFold (xs : List α) : Table κ σ := xs.foldl (groupStep key init upd) ∅

/-- The row of one key after elements `xs` with that key. -/
def groupRow (o : Option σ) (xs : List α) : Option σ := xs.foldl (fun o x => some (upd (o.getD (init x)) x)) o

theorem groupRow_some (s : σ) (xs : List α) : groupRow init upd (some s) xs = some (xs.foldl upd s) := by
  induction xs generalizing s with
  | nil => rfl
  | cons x xs ih => exact ih (upd s x)

theorem groupRow_none (xs : List α) :
    groupRow init upd none xs = xs.head?.map fun x => xs.foldl upd (init x) := by
  cases xs with
  | nil => rfl
  | cons x xs => exact groupRow_some init upd (upd (init x) x) xs

theorem lookup_foldl_groupStep (xs : List α) (m : Table κ σ) (k : κ) :
    (xs.foldl (groupStep key init upd) m).lookup k = groupRow init upd (m.lookup k) (xs.filter fun x => key x = k) := by
  induction xs generalizing m with
  | nil => rfl
  | cons x xs ih =>
    rw [List.foldl_cons, ih, groupStep, AList.lookup_insert_if]
    by_cases h : key x = k
    · subst h; simp [groupRow]
    · rw [if_neg (Ne.symm h), List.filter_cons_of_neg (by simpa using h)]

/-- The row of `k`: the updates of the elements with key `k`, in order, on the
row the first of them creates. -/
theorem lookup_groupFold (xs : List α) (k : κ) :
    (groupFold key init upd xs).lookup k =
      (xs.filter fun x => key x = k).head?.map fun x => (xs.filter fun x => key x = k).foldl upd (init x) := by
  rw [groupFold, lookup_foldl_groupStep]
  exact groupRow_none init upd _

theorem mem_groupFold {xs : List α} {k : κ} : k ∈ groupFold key init upd xs ↔ ∃ x ∈ xs, key x = k := by
  rw [← AList.lookup_isSome, lookup_groupFold, Option.isSome_map, List.isSome_head?]
  simp [List.filter_eq_nil_iff]

/-- A field that names the row's key: set on creation and never changed. -/
theorem key_of_lookup {key init upd} (kf : σ → κ) {xs : List α} {k : κ} {s : σ}
    (h : (groupFold key init upd xs).lookup k = some s) (hu : ∀ s x, kf (upd s x) = kf s)
    (hi : ∀ x, kf (init x) = key x) : kf s = k := by
  rw [lookup_groupFold, Option.map_eq_some_iff] at h
  obtain ⟨x, hx, rfl⟩ := h
  have hk : key x = k := by simpa using (List.mem_filter.1 (List.mem_of_head? hx)).2
  rw [foldl_unchanged hu, hi, hk]

end Fold

/-! ## Sums over groups -/

section Sums
variable {M : Type} [AddCommMonoid M] {key : α → κ} {init : α → σ} {upd : σ → α → σ}

/-- A field that each update adds `g x` to. -/
theorem foldl_additive {f : σ → M} {g : α → M} (hu : ∀ s x, f (upd s x) = f s + g x) (xs : List α) (s : σ) :
    f (xs.foldl upd s) = f s + (xs.map g).sum := by
  induction xs generalizing s with
  | nil => simp
  | cons x xs ih => rw [List.foldl_cons, ih, hu, List.map_cons, List.sum_cons, add_assoc]

/-- A counter that each update adds `g x` to, and that wraps at `m`. -/
theorem foldl_additive_mod {f : σ → Nat} {g : α → Nat} {m : Nat} (hu : ∀ s x, f (upd s x) = (f s + g x) % m)
    (xs : List α) {s : σ} (hs : f s = 0) : f (xs.foldl upd s) = (xs.map g).sum % m := by
  induction xs using List.reverseRecOn with
  | nil => simp [hs]
  | append_singleton xs x ih => simp [hu, ih]

/-- The field's value in a row: the sum over the elements with its key. -/
theorem field_of_lookup {f : σ → M} {g : α → M} (hu : ∀ s x, f (upd s x) = f s + g x) (hi : ∀ x, f (init x) = 0)
    {xs : List α} {k : κ} {s : σ} (h : (groupFold key init upd xs).lookup k = some s) :
    f s = ((xs.filter fun x => key x = k).map g).sum := by
  rw [lookup_groupFold, Option.map_eq_some_iff] at h
  obtain ⟨x, -, rfl⟩ := h
  rw [foldl_additive hu, hi, zero_add]

/-- A map of plain sums: what a key holds, or zero. -/
theorem getD_groupFold_add (key : α → κ) (g : α → M) (xs : List α) (k : κ) :
    ((groupFold key (fun _ => (0 : M)) (fun s x => s + g x) xs).lookup k).getD 0 =
      ((xs.filter fun x => key x = k).map g).sum := by
  cases h : (groupFold key (fun _ => (0 : M)) (fun s x => s + g x) xs).lookup k with
  | some s => exact field_of_lookup (f := id) (fun _ _ => rfl) (fun _ => rfl) h
  | none =>
    rw [lookup_groupFold, Option.map_eq_none_iff, List.head?_eq_none_iff] at h
    rw [h]
    rfl

/-- A sum of what is not negative is not negative. -/
theorem sum_lookup_nonneg {key : α → κ} (g : α → ℚ) (hg : ∀ x, 0 ≤ g x) {xs : List α}
    {k : κ} {w : ℚ} (h : (groupFold key (fun _ => 0) (fun s x => s + g x) xs).lookup k = some w) : 0 ≤ w := by
  have e := getD_groupFold_add key g xs k
  rw [h, Option.getD_some] at e
  rw [e]
  refine List.sum_nonneg fun y hy => ?_
  obtain ⟨x, -, rfl⟩ := List.mem_map.1 hy
  exact hg x

theorem total_foldl_groupStep {f : σ → M} {g : α → M} (hu : ∀ s x, f (upd s x) = f s + g x)
    (hi : ∀ x, f (init x) = 0) (xs : List α) (m : Table κ σ) :
    (xs.foldl (groupStep key init upd) m).total (fun _ s => f s) = m.total (fun _ s => f s) + (xs.map g).sum := by
  induction xs generalizing m with
  | nil => simp
  | cons x xs ih =>
    have step : (groupStep key init upd m x).total (fun _ s => f s) = m.total (fun _ s => f s) + g x := by
      refine AList.total_insert_add (fun _ s => f s) m ?_
      rw [hu]
      cases m.lookup (key x) <;> simp [hi]
    rw [List.foldl_cons, ih, step, List.map_cons, List.sum_cons, add_assoc]

/-- The rows together hold the sum over all elements. -/
theorem total_groupFold {f : σ → M} {g : α → M} (hu : ∀ s x, f (upd s x) = f s + g x) (hi : ∀ x, f (init x) = 0)
    (xs : List α) : (groupFold key init upd xs).total (fun _ s => f s) = (xs.map g).sum := by
  rw [groupFold, total_foldl_groupStep hu hi, AList.total_empty, zero_add]

theorem sum_values_groupFold_add (key : α → κ) (g : α → M) (xs : List α) :
    (groupFold key (fun _ => (0 : M)) (fun s x => s + g x) xs).values.sum = (xs.map g).sum := by
  have htotal := AList.sum_values id (groupFold key (fun _ => (0 : M)) (fun s x => s + g x) xs)
  rw [List.map_id] at htotal
  rw [htotal]
  exact total_groupFold (f := id) (fun _ _ => rfl) (fun _ => rfl) xs

/-- The elements of some different keys together are no more than all. -/
theorem sum_fibers_le [PartialOrder M] [IsOrderedAddMonoid M] (key : α → κ) {g : α → M} (hg : ∀ x, 0 ≤ g x)
    (xs : List α) {ks : List κ} (hn : ks.Nodup) :
    (ks.map fun k => ((xs.filter fun x => key x = k).map g).sum).sum ≤ (xs.map g).sum := by
  have hnonneg : ∀ k v, (groupFold key (fun _ => (0 : M)) (fun s x => s + g x) xs).lookup k = some v → 0 ≤ v := by
    intro k v h
    rw [show v = _ from field_of_lookup (f := id) (fun _ _ => rfl) (fun _ => rfl) h]
    refine List.sum_nonneg fun y hy => ?_
    obtain ⟨x, -, rfl⟩ := List.mem_map.1 hy
    exact hg x
  have hle := AList.sum_getD_le hnonneg hn
  rw [sum_values_groupFold_add] at hle
  simpa only [getD_groupFold_add] using hle

/-- If no element has another key, they are all. -/
theorem sum_fibers (key : α → κ) (g : α → M) {xs : List α} {ks : List κ} (hn : ks.Nodup)
    (h : ∀ x ∈ xs, key x ∈ ks) :
    (ks.map fun k => ((xs.filter fun x => key x = k).map g).sum).sum = (xs.map g).sum := by
  have heq := AList.sum_getD_eq (m := groupFold key (fun _ => (0 : M)) (fun s x => s + g x) xs) hn ?_
  · rw [sum_values_groupFold_add] at heq
    simpa only [getD_groupFold_add] using heq
  · intro k v hv _
    obtain ⟨x, hx, rfl⟩ := (mem_groupFold _ _ _).1 (AList.lookup_isSome.1 (Option.isSome_of_mem hv))
    exact h x hx

end Sums

/-! ## Lists by key -/

section Collect
variable {β : Type}

theorem sum_filter_split {M : Type} [AddCommMonoid M] (p : α → Bool) (f : α → M) (xs : List α) :
    (xs.map f).sum = ((xs.filter p).map f).sum + ((xs.filter fun x => !p x).map f).sum := by
  have hperm := (List.filter_append_perm p xs).map f
  rw [← hperm.sum_eq, List.map_append, List.sum_append]

theorem sum_map_flatMap {M : Type} [AddCommMonoid M] (f : α → List β) (g : β → M) (xs : List α) :
    ((xs.flatMap f).map g).sum = (xs.map fun x => ((f x).map g).sum).sum := by
  rw [List.map_flatMap, List.flatMap_def, List.sum_flatten, List.map_map]
  rfl

/-- A loop that may skip elements but skips none. -/
theorem map_filterMap_eq {γ : Type} {f : α → Option β} {h : β → γ} {k : α → γ} {xs : List α}
    (hf : ∀ x ∈ xs, ∃ y, f x = some y ∧ h y = k x) : (xs.filterMap f).map h = xs.map k := by
  induction xs with
  | nil => rfl
  | cons x xs ih =>
    obtain ⟨y, hy, hh⟩ := hf x List.mem_cons_self
    rw [List.filterMap_cons_some hy, List.map_cons, List.map_cons, hh, ih fun z hz => hf z (List.mem_cons_of_mem x hz)]

/-- The values of each key's elements, in order. -/
def collect (key : α → κ) (val : α → β) (xs : List α) : Table κ (List β) :=
  groupFold key (fun _ => []) (fun l x => l ++ [val x]) xs

variable {key : α → κ} {val : α → β} {xs : List α}

theorem lookup_collect {k : κ} {l : List β} (h : (collect key val xs).lookup k = some l) :
    l = (xs.filter fun x => key x = k).map val ∧ l ≠ [] := by
  rw [collect, lookup_groupFold, Option.map_eq_some_iff] at h
  obtain ⟨x, hx, rfl⟩ := h
  have hfold : ∀ (ys : List α) (l : List β), ys.foldl (fun l x => l ++ [val x]) l = l ++ ys.map val := by
    intro ys
    induction ys with
    | nil => simp
    | cons y ys ih => simp [ih]
  rw [hfold, List.nil_append]
  refine ⟨rfl, ?_⟩
  intro hnil
  rw [List.map_eq_nil_iff.1 hnil] at hx
  cases hx

/-- The first thing collected under a key comes from an element with that key. -/
theorem head_of_mem_collect {e : Σ _ : κ, List β} (he : e ∈ (collect key val xs).entries) :
    ∃ x ∈ xs, key x = e.1 ∧ e.2.head? = some (val x) := by
  obtain ⟨hl, hne⟩ := lookup_collect (AList.mem_entries.1 he)
  obtain ⟨b, hb⟩ := Option.isSome_iff_exists.1 (List.isSome_head?.2 hne)
  have hmem := List.mem_of_mem_head? hb
  rw [hl] at hmem
  obtain ⟨x, hx, rfl⟩ := List.mem_map.1 hmem
  obtain ⟨hx, hkey⟩ := List.mem_filter.1 hx
  exact ⟨x, hx, of_decide_eq_true hkey, hb⟩

variable (key val xs)

theorem getD_collect (k : κ) :
    ((collect key val xs).lookup k).getD [] = (xs.filter fun x => key x = k).map val := by
  cases h : (collect key val xs).lookup k with
  | some l => exact (lookup_collect h).1
  | none =>
    rw [collect, lookup_groupFold, Option.map_eq_none_iff, List.head?_eq_none_iff] at h
    rw [h]
    rfl

/-- What is added up over every key's list is added up over all elements. -/
theorem sum_collect {M : Type} [AddCommMonoid M] (g : β → M) :
    ((collect key val xs).entries.map fun e => (e.2.map g).sum).sum = (xs.map fun x => g (val x)).sum := by
  refine total_groupFold (f := fun l : List β => (l.map g).sum) ?_ (fun _ => rfl) xs
  intro l x
  simp

/-- A list as the sum of its elements: sums over lists prove permutations. -/
theorem sum_singletons (l : List β) : (l.map fun b => ({b} : Multiset β)).sum = l := by
  rw [← Multiset.sum_coe, ← Multiset.map_coe, Multiset.sum_map_singleton]

/-- Collecting loses nothing and repeats nothing. -/
theorem collect_perm : ((collect key val xs).entries.flatMap (·.2)).Perm (xs.map val) := by
  have h := sum_collect key val xs fun b => ({b} : Multiset β)
  rw [← Multiset.coe_eq_coe, ← sum_singletons (xs.map val), List.map_map]
  refine Eq.trans ?_ h
  rw [← sum_singletons, sum_map_flatMap]

end Collect

/-! ## Rows in descending order -/

/-- Sort by `f`, largest first, keeping the order of equal rows. -/
def sortDesc (f : σ → Nat) (rows : List σ) : List σ := rows.insertionSort fun a b => f b ≤ f a

theorem sortDesc_perm (f : σ → Nat) (rows : List σ) : (sortDesc f rows).Perm rows := List.perm_insertionSort _ rows

theorem sortDesc_sorted (f : σ → Nat) (rows : List σ) : (sortDesc f rows).Pairwise fun a b => f b ≤ f a := by
  have : Std.Total fun a b : σ => f b ≤ f a := ⟨fun a b => Nat.le_total (f b) (f a)⟩
  have : IsTrans σ fun a b => f b ≤ f a := ⟨fun _ _ _ h h' => Nat.le_trans h' h⟩
  exact List.pairwise_insertionSort _ rows

end Keck.Lib
