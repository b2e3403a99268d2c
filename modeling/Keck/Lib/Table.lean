import Mathlib
/-!
# Hash maps

A hash map is an `AList`: entries with distinct keys, in the order an
iteration visits them. Mathlib has `insert`, `erase` and `lookup`; this adds
the operations that go over all entries: `retain`, `values` and `total`.

`BpfMap` is a kernel hash map, which holds at most `cap` entries and refuses a
new key when it is full. `bump` adds to the value at a key, inserting it if
the key is new.
-/

/-- A hash map from `κ` to `ν`. -/
abbrev Keck.Lib.Table (κ ν : Type) := AList fun _ : κ => ν

namespace Keck.Lib
variable {κ μ : Type} [DecidableEq κ] {xs : List (κ × μ)}

/-- In a list of pairs with distinct keys each pair is found. -/
theorem lookup_of_mem_nodup (hxs : (xs.map (·.1)).Nodup) {k : κ} {v : μ}
    (h : (k, v) ∈ xs) : xs.lookup k = some v := by
  obtain ⟨before, after, rfl⟩ := List.append_of_mem h
  refine List.lookup_eq_some_iff.2 ⟨before, after, rfl, fun p hp => ?_⟩
  rw [List.map_append, List.map_cons, List.nodup_middle, List.nodup_cons] at hxs
  have hne : k ≠ p.1 := fun e => hxs.1 (List.mem_append_left _ (List.mem_map.2 ⟨p, hp, e.symm⟩))
  simpa using hne

theorem lookup_eq_none_of_notMem {k : κ} (h : k ∉ xs.map (·.1)) :
    xs.lookup k = none := by
  refine List.lookup_eq_none_iff.2 fun p hp => ?_
  have hne : k ≠ p.1 := fun e => h (List.mem_map.2 ⟨p, hp, e.symm⟩)
  simpa using hne

end Keck.Lib

open Keck.Lib

namespace AList
variable {κ ν : Type}

/-- Keep the entries satisfying `p`. -/
def retain (p : κ → ν → Bool) (m : Table κ ν) : Table κ ν :=
  ⟨m.entries.filter fun e => p e.1 e.2, m.nodupKeys.sublist List.filter_sublist⟩

/-- Change every value. -/
def mapValues (f : ν → ν) (m : Table κ ν) : Table κ ν :=
  ⟨m.entries.map fun e => ⟨e.1, f e.2⟩, List.NodupKeys.map₂ (fun _ => f) m.entries m.nodupKeys⟩

/-- The values, in iteration order. -/
def values (m : Table κ ν) : List ν := m.entries.map fun e => e.2

/-- The sum of `f` over all entries. -/
def total {M : Type} [AddCommMonoid M] (f : κ → ν → M) (m : Table κ ν) : M :=
  (m.entries.map fun e => f e.1 e.2).sum

@[simp] theorem total_empty {M : Type} [AddCommMonoid M] (f : κ → ν → M) : total f (∅ : Table κ ν) = 0 := rfl

theorem sum_values {M : Type} [AddCommMonoid M] (f : ν → M) (m : Table κ ν) :
    (m.values.map f).sum = m.total fun _ v => f v := by
  simp only [values, total, List.map_map]
  rfl

variable [DecidableEq κ]

theorem mem_entries {m : Table κ ν} {k : κ} {v : ν} : (⟨k, v⟩ : Σ _ : κ, ν) ∈ m.entries ↔ m.lookup k = some v :=
  (mem_lookup_iff (s := m) (a := k) (b := v)).symm

theorem mem_values {m : Table κ ν} {v : ν} : v ∈ m.values ↔ ∃ k, m.lookup k = some v := by
  simp only [values, List.mem_map]
  constructor
  · rintro ⟨⟨k, w⟩, he, rfl⟩
    exact ⟨k, mem_entries.1 he⟩
  · rintro ⟨k, hk⟩
    exact ⟨⟨k, v⟩, mem_entries.2 hk, rfl⟩

omit [DecidableEq κ] in
/-- Any entry is the first one in some iteration order. -/
theorem exists_order {m : Table κ ν} {e : Σ _ : κ, ν} (he : e ∈ m.entries) :
    ∃ m' : Table κ ν, m'.entries.Perm m.entries ∧ ∃ es, m'.entries = e :: es := by
  obtain ⟨l₁, l₂, hl⟩ := List.append_of_mem he
  have hperm : (e :: (l₁ ++ l₂)).Perm m.entries := by
    rw [hl]
    exact List.perm_middle.symm
  exact ⟨⟨e :: (l₁ ++ l₂), (List.perm_nodupKeys hperm).2 m.nodupKeys⟩, hperm, _, rfl⟩

/-- When every value carries its own key, reading it off the values lists the
keys. -/
theorem map_values_eq_keys {m : Table κ ν} {kf : ν → κ} (h : ∀ k v, m.lookup k = some v → kf v = k) :
    m.values.map kf = m.keys := by
  simp only [values, keys, List.keys, List.map_map]
  exact List.map_congr_left fun e he => h e.1 e.2 (mem_entries.1 he)

/-- Values that carry a pair as their key differ in one half of it where they
agree in the other. -/
theorem nodup_of_keys {κ₁ κ₂ : Type} [DecidableEq κ₁] [DecidableEq κ₂] {m : Table (κ₁ × κ₂) ν} {g : ν → κ₁ × κ₂}
    (h : ∀ k v, m.lookup k = some v → g v = k) (c : κ₂) :
    ((m.values.filter fun v => (g v).2 = c).map fun v => (g v).1).Nodup := by
  have hkeys : ((m.values.filter fun v => (g v).2 = c).map g).Nodup :=
    (List.filter_sublist.map g).nodup (by rw [map_values_eq_keys h]; exact m.keys_nodup)
  have hpairs : (m.values.filter fun v => (g v).2 = c).map g =
      ((m.values.filter fun v => (g v).2 = c).map fun v => (g v).1).map fun a => (a, c) := by
    rw [List.map_map]
    refine List.map_congr_left fun v hv => ?_
    exact Prod.ext rfl (of_decide_eq_true (List.mem_filter.1 hv).2)
  rw [hpairs] at hkeys
  exact hkeys.of_map _

/-- Reading every key lists the values. -/
theorem map_keys_getD (m : Table κ ν) (d : ν) : m.keys.map (fun k => (m.lookup k).getD d) = m.values := by
  simp only [values, keys, List.keys, List.map_map]
  apply List.map_congr_left
  intro e he
  rw [Function.comp_apply, mem_entries.1 he, Option.getD_some]

/-- Inserting under new, distinct keys lists the new entries in front, the last
one first. -/
theorem entries_foldl_insert {α : Type} {key : α → κ} (val : α → ν) {xs : List α} {m : Table κ ν}
    (hn : (xs.map key).Nodup) (hm : ∀ x ∈ xs, key x ∉ m) :
    (xs.foldl (fun m x => m.insert (key x) (val x)) m).entries =
      (xs.map fun x => (⟨key x, val x⟩ : Σ _ : κ, ν)).reverse ++ m.entries := by
  induction xs generalizing m with
  | nil => rfl
  | cons x xs ih =>
    obtain ⟨hx, hxs⟩ := List.nodup_cons.1 hn
    rw [List.foldl_cons, ih hxs, entries_insert_of_notMem (hm x List.mem_cons_self)]
    · simp
    · intro y hy
      have hne : key y ≠ key x := fun h => hx (h ▸ List.mem_map_of_mem hy)
      rw [mem_insert]
      exact not_or.2 ⟨hne, hm y (List.mem_cons_of_mem x hy)⟩

/-- A table has at most as many values as any set that holds its keys. -/
theorem length_values_le {m : Table κ ν} {s : Finset κ} (h : ∀ k v, m.lookup k = some v → k ∈ s) :
    m.values.length ≤ s.card := by
  have hl : m.values.length = m.keys.length := by simp [values, keys, List.keys]
  rw [hl, ← List.toFinset_card_of_nodup m.keys_nodup]
  apply Finset.card_le_card
  intro k hk
  obtain ⟨v, hv⟩ := Option.isSome_iff_exists.1 (lookup_isSome.2 (mem_keys.2 (List.mem_toFinset.1 hk)))
  exact h k v hv

theorem lookup_retain (p : κ → ν → Bool) (m : Table κ ν) (k : κ) :
    (m.retain p).lookup k = (m.lookup k).filter (p k) := by
  apply Option.ext
  intro v
  rw [← mem_entries, Option.filter_eq_some_iff, ← mem_entries]
  simp [retain, List.mem_filter]

theorem lookup_mapValues (f : ν → ν) (m : Table κ ν) (k : κ) : (m.mapValues f).lookup k = (m.lookup k).map f := by
  apply Option.ext
  intro v
  rw [← mem_entries, Option.map_eq_some_iff]
  simp only [mapValues, List.mem_map]
  constructor
  · rintro ⟨⟨k', w⟩, he, h⟩
    cases h
    exact ⟨w, mem_entries.1 he, rfl⟩
  · rintro ⟨w, hw, rfl⟩
    exact ⟨⟨k, w⟩, mem_entries.2 hw, rfl⟩

/-- The entries of a map as a list of pairs, each value taken through `f`. -/
theorem lookup_map_entries {μ : Type} (f : ν → μ) (m : Table κ ν) (k : κ) :
    (m.entries.map fun e => (e.1, f e.2)).lookup k = (m.lookup k).map f := by
  rcases m with ⟨entries, hkeys⟩
  change (entries.map fun e => (e.1, f e.2)).lookup k = (entries.dlookup k).map f
  clear hkeys
  induction entries with
  | nil => rfl
  | cons e entries ih =>
    rw [List.map_cons, List.lookup_cons]
    by_cases h : k = e.1
    · subst h
      rw [beq_self_eq_true, List.dlookup_cons_eq entries e.1 e.2, Option.map_some]
    · rw [beq_false_of_ne h, List.dlookup_cons_ne entries e h]
      exact ih

/-- Writing the same two keys again changes nothing. -/
theorem insert_pair_again {a b : κ} (h : a ≠ b) (x y : ν) (m : Table κ ν) :
    (((m.insert a x).insert b y).insert a x).insert b y = (m.insert a x).insert b y := by
  apply AList.ext
  have hb : ∀ l : List (Σ _ : κ, ν), List.kerase b (⟨a, x⟩ :: l) = ⟨a, x⟩ :: List.kerase b l :=
    fun l => List.kerase_cons_ne (Ne.symm h)
  have ha : ∀ l : List (Σ _ : κ, ν), List.kerase a (⟨b, y⟩ :: l) = ⟨b, y⟩ :: List.kerase a l :=
    fun l => List.kerase_cons_ne h
  simp only [entries_insert, hb, ha, List.kerase_cons_eq]

theorem lookup_insert_if (m : Table κ ν) (k k' : κ) (v : ν) :
    (m.insert k v).lookup k' = if k' = k then some v else m.lookup k' := by
  split
  · subst k'; exact lookup_insert m
  · exact lookup_insert_ne ‹_›

/-- After inserting a list of entries, each key holds the last one listed for
it, or what it held before. -/
theorem lookup_foldl_insert {α : Type} (key : α → κ) (val : α → ν) (xs : List α) (m : Table κ ν) (k : κ) :
    (xs.foldl (fun m x => m.insert (key x) (val x)) m).lookup k =
      ((xs.filter fun x => key x = k).getLast?.map val).or (m.lookup k) := by
  induction xs using List.reverseRecOn with
  | nil => rfl
  | append_singleton xs x ih =>
    rw [List.foldl_append, List.foldl_cons, List.foldl_nil, lookup_insert_if, ih, List.filter_append]
    by_cases h : k = key x
    · subst h; simp
    · simp [h, Ne.symm h]

/-- Entries with distinct keys are all found. -/
theorem lookup_foldl_insert_nodup {μ : Type} (g : μ → ν) {xs : List (κ × μ)} (hxs : (xs.map (·.1)).Nodup)
    (m : Table κ ν) (k : κ) :
    (xs.foldl (fun m x => m.insert x.1 (g x.2)) m).lookup k = ((xs.lookup k).map g).or (m.lookup k) := by
  induction xs generalizing m with
  | nil => rfl
  | cons x xs ih =>
    obtain ⟨hx, hxs⟩ := List.nodup_cons.1 hxs
    rw [List.foldl_cons, ih hxs, lookup_insert_if, List.lookup_cons]
    by_cases hk : k = x.1
    · rw [if_pos hk, lookup_eq_none_of_notMem (hk ▸ hx), beq_iff_eq.2 hk]
      rfl
    · rw [if_neg hk, beq_eq_false_iff_ne.2 hk]

theorem lookup_of_erase {k k' : κ} {v : ν} {m : Table κ ν} (h : (m.erase k).lookup k' = some v) :
    k' ≠ k ∧ m.lookup k' = some v := by
  by_cases e : k' = k
  · rw [e, lookup_erase] at h
    cases h
  · exact ⟨e, lookup_erase_ne e ▸ h⟩

/-! ## Sums over all entries -/

section Total
variable {M : Type} [AddCommMonoid M]

/-- Erasing a key takes its entry out of the sum. -/
theorem total_erase (f : κ → ν → M) (k : κ) (m : Table κ ν) :
    (m.lookup k).elim 0 (f k) + (m.erase k).total f = m.total f := by
  obtain ⟨l, hl⟩ := m
  simp only [total, erase, lookup]
  induction l with
  | nil => simp
  | cons e l ih =>
    rw [List.nodupKeys_cons] at hl
    by_cases h : k = e.1
    · subst h
      rw [List.kerase_cons_eq rfl, List.dlookup_cons_eq]
      simp
    · rw [List.kerase_cons_ne h, List.dlookup_cons_ne _ e h, List.map_cons, List.sum_cons, List.map_cons,
        List.sum_cons, ← ih hl.2, add_left_comm]

/-- An insert that raises what the key contributes by `d` raises the sum by
`d`. -/
theorem total_insert_add (f : κ → ν → M) {k : κ} {v : ν} {d : M} (m : Table κ ν)
    (h : f k v = (m.lookup k).elim 0 (f k) + d) : (m.insert k v).total f = m.total f + d := by
  have e : (m.insert k v).total f = f k v + (m.erase k).total f := by
    simp only [total, insert, erase, List.kinsert_def, List.map_cons, List.sum_cons]
  rw [e, h, ← total_erase f k m, add_right_comm]

/-- All values are one of them and the rest. -/
theorem sum_values_erase (k : κ) (m : Table κ M) :
    (m.lookup k).getD 0 + (m.erase k).values.sum = m.values.sum := by
  have h : (m.lookup k).elim 0 id + (m.erase k).values.sum = m.values.sum := total_erase (fun _ v => v) k m
  rw [← h]
  cases m.lookup k <;> rfl

/-- The other keys hold the same after `k` is erased. -/
theorem map_getD_erase {k : κ} {ks : List κ} (hk : k ∉ ks) (m : Table κ M) :
    (ks.map fun k' => (m.lookup k').getD 0) = ks.map fun k' => ((m.erase k).lookup k').getD 0 :=
  List.map_congr_left fun k' hk' => by rw [lookup_erase_ne (ne_of_mem_of_not_mem hk' hk)]

/-- Different keys together hold no more than all keys. -/
theorem sum_getD_le [PartialOrder M] [IsOrderedAddMonoid M] {m : Table κ M} (h0 : ∀ k v, m.lookup k = some v → 0 ≤ v)
    {ks : List κ} (hn : ks.Nodup) : (ks.map fun k => (m.lookup k).getD 0).sum ≤ m.values.sum := by
  induction ks generalizing m with
  | nil =>
    refine List.sum_nonneg fun v hv => ?_
    obtain ⟨k, hk⟩ := mem_values.1 hv
    exact h0 k v hk
  | cons k ks ih =>
    obtain ⟨hk, hn⟩ := List.nodup_cons.1 hn
    have erased : ∀ k' v, (m.erase k).lookup k' = some v → 0 ≤ v := fun k' v hv => h0 k' v (lookup_of_erase hv).2
    rw [List.map_cons, List.sum_cons, map_getD_erase hk, ← sum_values_erase k]
    exact add_le_add_right (ih erased hn) _

/-- Different keys among which are all that hold something hold as much as all
keys. -/
theorem sum_getD_eq {m : Table κ M} {ks : List κ} (hn : ks.Nodup)
    (h : ∀ k v, m.lookup k = some v → v ≠ 0 → k ∈ ks) : (ks.map fun k => (m.lookup k).getD 0).sum = m.values.sum := by
  induction ks generalizing m with
  | nil =>
    refine (List.sum_eq_zero fun v hv => ?_).symm
    obtain ⟨k, hk⟩ := mem_values.1 hv
    by_contra hv0
    cases h k v hk hv0
  | cons k ks ih =>
    obtain ⟨hk, hn⟩ := List.nodup_cons.1 hn
    have erased : ∀ k' v, (m.erase k).lookup k' = some v → v ≠ 0 → k' ∈ ks := by
      intro k' v hv hv0
      obtain ⟨hne, hv⟩ := lookup_of_erase hv
      exact (List.mem_cons.1 (h k' v hv hv0)).resolve_left hne
    rw [List.map_cons, List.sum_cons, map_getD_erase hk, ← sum_values_erase k, ih hn erased]

end Total

end AList

namespace Keck.Lib

/-! ## Kernel hash maps -/

/-- A hash map with room for `cap` entries. -/
structure BpfMap (κ ν : Type) (cap : Nat) where
  table : Table κ ν
  size_le : table.entries.length ≤ cap

namespace BpfMap
variable {κ ν : Type} [DecidableEq κ] {cap : Nat}

def empty : BpfMap κ ν cap := ⟨∅, Nat.zero_le _⟩

def lookup (k : κ) (m : BpfMap κ ν cap) : Option ν := m.table.lookup k

/-- An entry at `k` can be written: it exists, or there is room for it. -/
def accepts (k : κ) (m : BpfMap κ ν cap) : Bool := decide (k ∈ m.table ∨ m.table.entries.length < cap)

theorem length_insert_le (k : κ) (v : ν) (m : BpfMap κ ν cap) (h : m.accepts k = true) :
    (m.table.insert k v).entries.length ≤ cap := by
  have hk : (m.table.insert k v).entries.length = (m.table.keys.erase k).length + 1 := by
    simpa [AList.keys, List.keys] using congrArg List.length (AList.keys_insert (a := k) (b := v) m.table)
  have hl : m.table.keys.length = m.table.entries.length := by simp [AList.keys, List.keys]
  have hs := m.size_le
  rw [hk]
  simp only [accepts, decide_eq_true_eq] at h
  rcases h with h | h
  · have hpos := List.length_pos_of_mem (AList.mem_keys.1 h)
    rw [List.length_erase_of_mem (AList.mem_keys.1 h)]
    omega
  · have := (List.erase_sublist (a := k) (l := m.table.keys)).length_le
    omega

/-- Write an entry; a full map refuses a new key. -/
def insert (k : κ) (v : ν) (m : BpfMap κ ν cap) : BpfMap κ ν cap :=
  if h : m.accepts k = true then ⟨m.table.insert k v, m.length_insert_le k v h⟩ else m

/-- Erase an entry, if there is one. -/
def remove (k : κ) (m : BpfMap κ ν cap) : BpfMap κ ν cap :=
  ⟨m.table.erase k, (List.Sublist.length_le (List.kerase_sublist k _)).trans m.size_le⟩

/-- Add `d` to the value at `k`, or insert `d` there. -/
def bump [Add ν] (k : κ) (d : ν) (m : BpfMap κ ν cap) : BpfMap κ ν cap :=
  match m.lookup k with
  | some v => m.insert k (v + d)
  | none => m.insert k d

@[simp] theorem lookup_empty (k : κ) : (empty : BpfMap κ ν cap).lookup k = none := rfl

theorem lookup_insert (k k' : κ) (v : ν) (m : BpfMap κ ν cap) :
    (m.insert k v).lookup k' = if k' = k ∧ m.accepts k = true then some v else m.lookup k' := by
  unfold insert
  split
  · simp only [lookup, AList.lookup_insert_if, ‹m.accepts k = true›, and_true]
  · simp [‹¬m.accepts k = true›]

theorem lookup_remove (k k' : κ) (m : BpfMap κ ν cap) :
    (m.remove k).lookup k' = if k' = k then none else m.lookup k' := by
  simp only [lookup, remove]
  split
  · subst k'; exact AList.lookup_erase k m.table
  · exact AList.lookup_erase_ne ‹_›

theorem accepts_of_lookup {k : κ} {v : ν} {m : BpfMap κ ν cap} (h : m.lookup k = some v) : m.accepts k = true := by
  have : k ∈ m.table := AList.lookup_isSome.1 (by simp only [lookup] at h; simp [h])
  simp [accepts, this]

/-- What `bump` leaves at every key. -/
theorem lookup_bump [Add ν] (k k' : κ) (d : ν) (m : BpfMap κ ν cap) :
    (m.bump k d).lookup k' =
      if k' = k ∧ m.accepts k = true then some ((m.lookup k).elim d (· + d)) else m.lookup k' := by
  unfold bump
  cases h : m.lookup k <;> simp [lookup_insert]

/-- What `bump` adds to the weight of an entry, for an additive weight. -/
theorem weight_bump [Add ν] {w : ν → Nat} (hw : ∀ v d, w (v + d) = w v + w d) (m : BpfMap κ ν cap) (k k' : κ)
    (d : ν) : ((m.bump k d).lookup k').elim 0 w =
      (m.lookup k').elim 0 w + if k' = k ∧ m.accepts k = true then w d else 0 := by
  rw [lookup_bump]
  split
  · rename_i h
    obtain ⟨rfl, -⟩ := h
    cases m.lookup k' <;> simp [hw]
  · rfl

theorem mem_bump [Add ν] {m : BpfMap κ ν cap} {k k' : κ} {d : ν} (h : k' ∈ (m.bump k d).table) :
    k' = k ∨ k' ∈ m.table := by
  by_cases hk : k' = k
  · exact .inl hk
  · right
    have e : (m.bump k d).lookup k' = m.lookup k' := by simp [lookup_bump, hk]
    rw [← AList.lookup_isSome] at h ⊢
    exact (congrArg Option.isSome e).symm.trans h

/-- An accepted `bump` adds `d` to every additive sum over the entries. -/
theorem total_bump [Add ν] {M : Type} [AddCommMonoid M] (f : κ → ν → M) {k : κ} (d : ν)
    (hf : ∀ v, f k (v + d) = f k v + f k d) {m : BpfMap κ ν cap} (ha : m.accepts k = true) :
    (m.bump k d).table.total f = m.table.total f + f k d := by
  have key : ∀ v, (m.insert k v).table = m.table.insert k v := fun v => by simp [insert, ha]
  unfold bump
  cases h : m.lookup k with
  | none =>
    rw [key]
    exact AList.total_insert_add f m.table (by simp [show m.table.lookup k = none from h])
  | some v =>
    rw [key]
    exact AList.total_insert_add f m.table (by simp [show m.table.lookup k = some v from h, hf])

/-- A map accepts a key when all its keys and that one lie in a set no larger
than the map. -/
theorem accepts_of_subset {k : κ} {m : BpfMap κ ν cap} {s : Finset κ} (hm : ∀ k', k' ∈ m.table → k' ∈ s)
    (hk : k ∈ s) (hs : s.card ≤ cap) : m.accepts k = true := by
  by_cases h : k ∈ m.table
  · simp [accepts, h]
  · have hn : (k :: m.table.keys).Nodup := List.nodup_cons.2 ⟨fun h' => h (AList.mem_keys.2 h'), m.table.keys_nodup⟩
    have hsub : (k :: m.table.keys).toFinset ⊆ s := by
      intro x hx
      rcases List.mem_cons.1 (List.mem_toFinset.1 hx) with rfl | hx
      · exact hk
      · exact hm x (AList.mem_keys.2 hx)
    have hc := Finset.card_le_card hsub
    rw [List.toFinset_card_of_nodup hn, List.length_cons] at hc
    have hl : m.table.keys.length = m.table.entries.length := by simp [AList.keys, List.keys]
    simp only [accepts, decide_eq_true_eq]
    omega

end BpfMap

end Keck.Lib
