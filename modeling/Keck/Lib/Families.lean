import Keck.Lib.Table
/-!
# Families of labelled samples

A metric family keeps one value per label and only ever grows: publishing a
list of rows sets their labels and leaves the others as they were. Publishing
list after list, the family holds exactly the last list if and only if no
earlier one had a label that the last lacks (`published_exact_iff`).
-/
namespace Keck.Lib

variable {κ ν : Type} [DecidableEq κ]

/-- Set the sample of every row. -/
def publish (family : Table κ ν) (rows : List (κ × ν)) : Table κ ν :=
  rows.foldl (fun m row => m.insert row.1 row.2) family

/-- The family after publishing one list of rows after the other. -/
def published (lists : List (List (κ × ν))) : Table κ ν := lists.foldl publish ∅

theorem published_concat (lists : List (List (κ × ν))) (rows : List (κ × ν)) :
    published (lists ++ [rows]) = publish (published lists) rows := by
  simp [published]

theorem lookup_publish_of_notMem {family : Table κ ν} {rows : List (κ × ν)} {k : κ} (h : k ∉ rows.map Prod.fst) :
    (publish family rows).lookup k = family.lookup k := by
  have hnone : rows.filter (fun row => row.1 = k) = [] := by
    rw [List.filter_eq_nil_iff]
    intro row hrow
    simpa using fun e : row.1 = k => h (e ▸ List.mem_map_of_mem hrow)
  rw [publish, AList.lookup_foldl_insert, hnone]
  rfl

/-- A label that is published once holds the published value. -/
theorem lookup_publish_of_mem {family : Table κ ν} {rows : List (κ × ν)} {k : κ} {v : ν}
    (hn : (rows.map Prod.fst).Nodup) (h : (k, v) ∈ rows) : (publish family rows).lookup k = some v := by
  obtain ⟨pre, post, rfl⟩ := List.append_of_mem h
  rw [List.map_append, List.map_cons, List.nodup_append] at hn
  have hpost : k ∉ post.map Prod.fst := (List.nodup_cons.1 hn.2.1).1
  rw [publish, List.foldl_append, List.foldl_cons]
  exact (lookup_publish_of_notMem hpost).trans (AList.lookup_insert _)

theorem mem_publish {family : Table κ ν} {rows : List (κ × ν)} {k : κ} :
    k ∈ publish family rows ↔ k ∈ family ∨ k ∈ rows.map Prod.fst := by
  induction rows generalizing family with
  | nil => simp [publish]
  | cons row rows ih =>
    rw [publish, List.foldl_cons]
    refine ih.trans ?_
    rw [AList.mem_insert, List.map_cons, List.mem_cons]
    tauto

/-- A label is there if and only if some list had it. -/
theorem mem_published {lists : List (List (κ × ν))} {k : κ} :
    k ∈ published lists ↔ ∃ rows ∈ lists, k ∈ rows.map Prod.fst := by
  induction lists using List.reverseRecOn with
  | nil => simp [published, AList.notMem_empty]
  | append_singleton lists rows ih =>
    rw [published_concat, mem_publish, ih]
    simp only [List.mem_append, List.mem_singleton, or_and_right, exists_or, exists_eq_left]

/-- The family holds the last rows and nothing else if and only if every label
ever published is among the last ones. -/
theorem published_exact_iff {lists : List (List (κ × ν))} {rows : List (κ × ν)} (hn : (rows.map Prod.fst).Nodup) :
    (∀ k v, (published (lists ++ [rows])).lookup k = some v ↔ (k, v) ∈ rows) ↔
      ∀ old ∈ lists, ∀ k ∈ old.map Prod.fst, k ∈ rows.map Prod.fst := by
  constructor
  · intro h old hold k hk
    have hmem : k ∈ published (lists ++ [rows]) := mem_published.2 ⟨old, List.mem_append_left _ hold, hk⟩
    obtain ⟨v, hv⟩ := Option.isSome_iff_exists.1 (AList.lookup_isSome.2 hmem)
    exact List.mem_map_of_mem ((h k v).1 hv)
  · intro h k v
    rw [published_concat]
    refine ⟨fun hv => ?_, lookup_publish_of_mem hn⟩
    -- a label that is still there was published at some time, so it is among the last
    have hmem : k ∈ rows.map Prod.fst := by
      rcases mem_publish.1 (AList.lookup_isSome.1 (Option.isSome_of_mem hv)) with hk | hk
      · obtain ⟨old, hold, hk⟩ := mem_published.1 hk
        exact h old hold k hk
      · exact hk
    obtain ⟨⟨k', w⟩, hrow, rfl⟩ := List.mem_map.1 hmem
    rw [lookup_publish_of_mem hn hrow] at hv
    cases hv
    exact hrow

end Keck.Lib
