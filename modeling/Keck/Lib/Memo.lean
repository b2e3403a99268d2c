import Keck.Lib.Table
/-!
# Memo tables

A table that answers a request from its key if it was asked before, and stores
the fresh answer otherwise. Nothing is ever dropped or changed: after any
requests the table holds the first answer for each key (`lookup_askAll`), so
what a request gets is the first answer of the whole history, present and
future (`ask_askAll`).
-/
namespace Keck.Lib

variable {κ ν : Type} [DecidableEq κ]

/-- Answer a request from the table, or with `fresh`, which is then stored. -/
def ask (m : Table κ ν) (k : κ) (fresh : ν) : ν × Table κ ν :=
  match m.lookup k with
  | some v => (v, m)
  | none => (fresh, m.insert k fresh)

/-- The table after some requests. -/
def askAll (m : Table κ ν) (reqs : List (κ × ν)) : Table κ ν := reqs.foldl (fun m r => (ask m r.1 r.2).2) m

/-- The fresh answer of the first request for a key. -/
def firstAnswer (reqs : List (κ × ν)) (k : κ) : Option ν := (reqs.find? fun r => r.1 = k).map (·.2)

theorem firstAnswer_append (reqs later : List (κ × ν)) (k : κ) :
    firstAnswer (reqs ++ later) k = (firstAnswer reqs k).or (firstAnswer later k) := by
  simp only [firstAnswer, List.find?_append]
  cases reqs.find? fun r => r.1 = k <;> rfl

theorem firstAnswer_isSome {reqs : List (κ × ν)} {k : κ} {v : ν} (h : (k, v) ∈ reqs) :
    ∃ v', firstAnswer reqs k = some v' := by
  cases hf : reqs.find? fun r => r.1 = k with
  | none =>
    have := List.find?_eq_none.1 hf (k, v) h
    simp at this
  | some r => exact ⟨r.2, by rw [firstAnswer, hf]; rfl⟩

/-- The first answer for a key was the answer of a request for it. -/
theorem mem_of_firstAnswer {reqs : List (κ × ν)} {k : κ} {v : ν} (h : firstAnswer reqs k = some v) : (k, v) ∈ reqs := by
  obtain ⟨r, hr, rfl⟩ := Option.map_eq_some_iff.1 h
  have hk : r.1 = k := by simpa using List.find?_some hr
  subst hk
  exact List.mem_of_find?_eq_some hr

/-- A key keeps its first answer whatever is asked later. -/
theorem firstAnswer_append_of_mem {reqs : List (κ × ν)} {k : κ} {v : ν} (h : (k, v) ∈ reqs) (later : List (κ × ν)) :
    firstAnswer (reqs ++ later) k = firstAnswer reqs k := by
  obtain ⟨v', hv'⟩ := firstAnswer_isSome h
  rw [firstAnswer_append, hv']
  rfl

theorem lookup_ask (m : Table κ ν) (k k' : κ) (fresh : ν) :
    (ask m k fresh).2.lookup k' = (m.lookup k').or (if k = k' then some fresh else none) := by
  unfold ask
  cases hm : m.lookup k with
  | some v =>
    by_cases hk : k = k'
    · subst hk
      simp [hm]
    · simp [hk]
  | none =>
    rw [AList.lookup_insert_if]
    by_cases hk : k = k'
    · subst hk
      simp [hm]
    · simp [hk, Ne.symm hk]

theorem lookup_askAll (m : Table κ ν) (reqs : List (κ × ν)) (k : κ) :
    (askAll m reqs).lookup k = (m.lookup k).or (firstAnswer reqs k) := by
  induction reqs generalizing m with
  | nil => simp [askAll, firstAnswer]
  | cons r reqs ih =>
    have hstep : askAll m (r :: reqs) = askAll (ask m r.1 r.2).2 reqs := rfl
    rw [hstep, ih, lookup_ask]
    by_cases hk : r.1 = k
    · simp [firstAnswer, hk]
    · simp [firstAnswer, hk]

/-- A request after others gets the first answer of them all. -/
theorem ask_askAll (reqs : List (κ × ν)) (k : κ) (fresh : ν) :
    some (ask (askAll ∅ reqs) k fresh).1 = firstAnswer (reqs ++ [(k, fresh)]) k := by
  have hlookup : (askAll ∅ reqs).lookup k = firstAnswer reqs k := by
    rw [lookup_askAll, AList.lookup_empty, Option.none_or]
  rw [firstAnswer_append, ask, hlookup]
  cases firstAnswer reqs k with
  | some v => rfl
  | none => simp [firstAnswer]

theorem askAll_append (m : Table κ ν) (reqs later : List (κ × ν)) :
    askAll m (reqs ++ later) = askAll (askAll m reqs) later := by
  simp [askAll]

end Keck.Lib
