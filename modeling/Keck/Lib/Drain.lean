import Keck.Lib.Table
import Keck.Lib.Trace
/-!
# Draining a shared map

One side adds to the entries of a map; the other drains it, reading entries
one by one and afterwards removing the keys it read. Any additions may fall
between those steps. An addition to a key that was read and is still to be
removed is lost with the removal; `conserved_iff` says nothing else is.

A state also records what was drained and added so far, and the additions that
met such a key. An addition a full map refuses was not made.
-/
namespace Keck.Lib.Drain

variable {κ ν : Type} {cap : Nat}

structure St (κ ν : Type) (cap : Nat) where
  map : BpfMap κ ν cap := .empty
  /-- Keys read by the current drain and still to be removed. -/
  toDelete : List κ := []
  /-- The current drain has read all it will read. -/
  removing : Bool := false
  drained : List (κ × ν) := []
  added : List (κ × ν) := []
  exposed : List (κ × ν) := []

inductive Step (κ ν : Type) where
  | add (k : κ) (d : ν)
  | read (k : κ)
  | remove

variable [DecidableEq κ] [Add ν]

def St.add (s : St κ ν cap) (k : κ) (d : ν) : St κ ν cap :=
  { s with
    map := s.map.bump k d
    added := if s.map.accepts k then s.added ++ [(k, d)] else s.added
    exposed := if s.map.accepts k && s.toDelete.contains k then s.exposed ++ [(k, d)] else s.exposed }

def step? (s : St κ ν cap) : Step κ ν → Option (St κ ν cap)
  | .add k d => some (s.add k d)
  | .read k =>
    -- a pass over the map visits each key at most once, and removals come after it
    if s.removing || s.toDelete.contains k then none
    else (s.map.lookup k).map fun v => { s with toDelete := s.toDelete ++ [k], drained := s.drained ++ [(k, v)] }
  | .remove =>
    match s.toDelete with
    | [] => none
    | k :: rest => some { s with map := s.map.remove k, toDelete := rest, removing := !rest.isEmpty }

/-- The state after a sequence of steps, if they can be taken. -/
def run? (steps : List (Step κ ν)) : Option (St κ ν cap) := steps.foldlM step? {}

theorem run?_concat {steps : List (Step κ ν)} {a : Step κ ν} {s' : St κ ν cap} :
    run? (steps ++ [a]) = some s' ↔ ∃ s, run? steps = some s ∧ step? s a = some s' := by
  simp [run?, List.foldlM_append, Option.bind_eq_some_iff]

/-- What a step can do. -/
theorem step?_cases {s s' : St κ ν cap} {a : Step κ ν} (h : step? s a = some s') :
    (∃ k d, a = .add k d ∧ s' = s.add k d) ∨
    (∃ k v, a = .read k ∧ k ∉ s.toDelete ∧ s.map.lookup k = some v ∧
      s' = { s with toDelete := s.toDelete ++ [k], drained := s.drained ++ [(k, v)] }) ∨
    (∃ k rest, a = .remove ∧ s.toDelete = k :: rest ∧
      s' = { s with map := s.map.remove k, toDelete := rest, removing := !rest.isEmpty }) := by
  cases a with
  | add k d => exact .inl ⟨k, d, rfl, (Option.some.inj h).symm⟩
  | read k =>
    simp only [step?] at h
    split at h
    · cases h
    · rename_i hg
      obtain ⟨v, hv, rfl⟩ := Option.map_eq_some_iff.1 h
      exact .inr (.inl ⟨k, v, rfl, by simp_all, hv, rfl⟩)
  | remove =>
    cases ht : s.toDelete with
    | nil => simp [step?, ht] at h
    | cons k rest => exact .inr (.inr ⟨k, rest, rfl, rfl, by simpa [step?, ht] using h.symm⟩)

/-! ## The law -/

/-- The weight recorded for `k`. -/
def sumAt (w : ν → Nat) (k : κ) (l : List (κ × ν)) : Nat := ((l.filter fun e => e.1 = k).map fun e => w e.2).sum

omit [Add ν] in
theorem sumAt_concat (w : ν → Nat) (k k' : κ) (d : ν) (l : List (κ × ν)) :
    sumAt w k (l ++ [(k', d)]) = sumAt w k l + if k' = k then w d else 0 := by
  by_cases h : k' = k <;> simp [sumAt, h]

/-- The weight left in the map at `k`. -/
def left (w : ν → Nat) (s : St κ ν cap) (k : κ) : Nat := (s.map.lookup k).elim 0 w

/-- A key to be removed is in the map once; what it holds is already drained,
or exposed. Every other key's additions are drained, left or exposed. -/
structure Inv (w : ν → Nat) (s : St κ ν cap) : Prop where
  nodup : s.toDelete.Nodup
  present : ∀ k ∈ s.toDelete, (s.map.lookup k).isSome
  law : ∀ k, sumAt w k s.drained + (if k ∈ s.toDelete then 0 else left w s k) + sumAt w k s.exposed =
    sumAt w k s.added

omit [Add ν] in
theorem accepts_of_present {w : ν → Nat} {s : St κ ν cap} (hi : Inv w s) {k : κ} (hk : k ∈ s.toDelete) :
    s.map.accepts k = true := by
  obtain ⟨v, hv⟩ := Option.isSome_iff_exists.1 (hi.present k hk)
  exact BpfMap.accepts_of_lookup hv

theorem inv_step {w : ν → Nat} (hw : ∀ v d, w (v + d) = w v + w d) {s s' : St κ ν cap} {a : Step κ ν}
    (hi : Inv w s) (h : step? s a = some s') : Inv w s' := by
  rcases step?_cases h with ⟨k, d, -, rfl⟩ | ⟨k, v, -, hk, hv, rfl⟩ | ⟨k, rest, -, ht, rfl⟩
  · refine ⟨hi.nodup, fun k' hk' => ?_, fun k' => ?_⟩
    · have := hi.present k' hk'
      simp only [St.add, BpfMap.lookup_bump]
      split
      · rfl
      · exact this
    · have hl := hi.law k'
      simp only [St.add, left, BpfMap.weight_bump hw] at hl ⊢
      cases hacc : s.map.accepts k with
      | false => simpa [hacc] using hl
      | true =>
        by_cases hkd : k ∈ s.toDelete <;> by_cases hkk : k = k'
        · subst hkk; simp [hkd, sumAt_concat] at hl ⊢; omega
        · simp [hkd, hkk, Ne.symm hkk, sumAt_concat] at hl ⊢; omega
        · subst hkk; simp [hkd, sumAt_concat] at hl ⊢; omega
        · simp [hkd, hkk, Ne.symm hkk, sumAt_concat] at hl ⊢; omega
  · refine ⟨?_, fun k' hk' => ?_, fun k' => ?_⟩
    · refine List.nodup_append.2 ⟨hi.nodup, List.nodup_singleton k, fun b hb b' hb' => ?_⟩
      rw [List.mem_singleton.1 hb']
      exact fun he => hk (he ▸ hb)
    · rcases List.mem_append.1 hk' with hk' | hk'
      · exact hi.present k' hk'
      · rw [List.mem_singleton] at hk'; subst hk'; simp [hv]
    · have hl := hi.law k'
      simp only [left, sumAt_concat] at hl ⊢
      by_cases hkk : k = k'
      · subst hkk; simp [hk, hv] at hl ⊢; omega
      · simpa [hkk, Ne.symm hkk] using hl
  · have hn := hi.nodup
    rw [ht, List.nodup_cons] at hn
    refine ⟨hn.2, fun k' hk' => ?_, fun k' => ?_⟩
    · have hne : k' ≠ k := fun he => hn.1 (he ▸ hk')
      simpa [BpfMap.lookup_remove, hne] using hi.present k' (by simp [ht, hk'])
    · have hl := hi.law k'
      simp only [left, BpfMap.lookup_remove, ht] at hl ⊢
      by_cases hkk : k' = k
      · subst hkk; simpa [hn.1] using hl
      · simpa [hkk] using hl

theorem inv_run {w : ν → Nat} (hw : ∀ v d, w (v + d) = w v + w d) {steps : List (Step κ ν)} {s : St κ ν cap}
    (h : run? steps = some s) : Inv w s := by
  induction steps using List.reverseRecOn generalizing s with
  | nil =>
    obtain rfl := Option.some.inj h
    exact ⟨List.nodup_nil, nofun, fun _ => rfl⟩
  | append_singleton steps a ih =>
    obtain ⟨s₀, h₀, hs⟩ := run?_concat.1 h
    exact inv_step hw (ih h₀) hs

/-! ## Exposed additions -/

/-- In these steps, `d` is added to `k` while `k` is read and not yet removed. -/
def Exposes (cap : Nat) (steps : List (Step κ ν)) (k : κ) (d : ν) : Prop :=
  ∃ pre post, ∃ s : St κ ν cap, steps = pre ++ .add k d :: post ∧ run? pre = some s ∧ k ∈ s.toDelete

theorem exposes_concat {steps : List (Step κ ν)} {a : Step κ ν} {k : κ} {d : ν} {s : St κ ν cap}
    (h : run? steps = some s) :
    Exposes cap (steps ++ [a]) k d ↔ Exposes cap steps k d ∨ (a = .add k d ∧ k ∈ s.toDelete) := by
  constructor
  · rintro ⟨pre, post, s₀, he, hr, hk⟩
    rcases Trace.concat_eq_split he with ⟨-, rfl, rfl⟩ | ⟨post', -, hl⟩
    · rw [h] at hr
      obtain rfl := Option.some.inj hr
      exact .inr ⟨rfl, hk⟩
    · exact .inl ⟨pre, post', s₀, hl, hr, hk⟩
  · rintro (⟨pre, post, s₀, rfl, hr, hk⟩ | ⟨rfl, hk⟩)
    · exact ⟨pre, post ++ [a], s₀, by simp, hr, hk⟩
    · exact ⟨steps, [], s, rfl, h, hk⟩

theorem mem_exposed {steps : List (Step κ ν)} {s : St κ ν cap} (h : run? steps = some s) {k : κ} {d : ν} :
    (k, d) ∈ s.exposed ↔ Exposes cap steps k d := by
  induction steps using List.reverseRecOn generalizing s with
  | nil =>
    obtain rfl := Option.some.inj h
    simp [Exposes]
  | append_singleton steps a ih =>
    obtain ⟨s₀, h₀, hs⟩ := run?_concat.1 h
    have hi : Inv (fun _ : ν => 0) s₀ := inv_run (fun _ _ => rfl) h₀
    rw [exposes_concat h₀, ← ih h₀]
    rcases step?_cases hs with ⟨k', d', rfl, rfl⟩ | ⟨k', v, rfl, -, -, rfl⟩ | ⟨k', rest, rfl, -, rfl⟩
    · by_cases hk : k' ∈ s₀.toDelete
      · simp only [St.add, accepts_of_present hi hk, List.contains_iff_mem.2 hk, Bool.and_self, if_true,
          List.mem_append, List.mem_singleton, Prod.mk.injEq, Step.add.injEq]
        constructor
        · rintro (h | ⟨rfl, rfl⟩)
          · exact .inl h
          · exact .inr ⟨⟨rfl, rfl⟩, hk⟩
        · rintro (h | ⟨⟨rfl, rfl⟩, -⟩)
          · exact .inl h
          · exact .inr ⟨rfl, rfl⟩
      · have hc : s₀.toDelete.contains k' = false := by simpa using hk
        simp only [St.add, hc, Bool.and_false, Bool.false_eq_true, if_false]
        refine ⟨.inl, ?_⟩
        rintro (h | ⟨he, hk'⟩)
        · exact h
        · obtain ⟨rfl, -⟩ := Step.add.inj he
          exact absurd hk' hk
    · simp
    · simp

/-- Between drains, what was drained and what is left make up all that was
added, at every key, exactly if every addition to a key awaiting removal was
weightless. -/
theorem conserved_iff {w : ν → Nat} (hw : ∀ v d, w (v + d) = w v + w d) {steps : List (Step κ ν)} {s : St κ ν cap}
    (h : run? steps = some s) (hidle : s.toDelete = []) :
    (∀ k, sumAt w k s.drained + left w s k = sumAt w k s.added) ↔ ∀ k d, Exposes cap steps k d → w d = 0 := by
  have hlaw : ∀ k, sumAt w k s.drained + left w s k + sumAt w k s.exposed = sumAt w k s.added := by
    intro k
    simpa [hidle] using (inv_run hw h).law k
  constructor
  · intro hc k d he
    have hz : sumAt w k s.exposed = 0 := by have := hlaw k; have := hc k; omega
    refine List.sum_eq_zero_iff.1 hz _ (List.mem_map.2 ⟨(k, d), List.mem_filter.2 ⟨(mem_exposed h).2 he, ?_⟩, rfl⟩)
    exact decide_eq_true rfl
  · intro hz k
    have h0 : sumAt w k s.exposed = 0 := by
      refine List.sum_eq_zero fun x hx => ?_
      obtain ⟨⟨k', d⟩, hm, rfl⟩ := List.mem_map.1 hx
      exact hz k' d ((mem_exposed h).1 (List.mem_filter.1 hm).1)
    have := hlaw k
    omega

end Keck.Lib.Drain
