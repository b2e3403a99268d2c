import Keck.Lib.Table
import Keck.Lib.Trace
/-!
# Charging a map along a trace

A handler that keeps the last event of each cell and, on the next event there,
may add an amount to a map entry. `After C m tr` says `m` is what that leaves
after the trace `tr`, from an empty map. An entry never holds more than the
charges made to its key (`After.weight_le`), and holds exactly those if the
map has room for every key charged (`After.weight_eq`).

Weights are additive functions of the map's values into the natural numbers:
the value itself, or one field of a record.
-/
namespace Keck.Lib

open Trace

/-- When, where and how much an event `e` that follows `a` in its cell charges. -/
structure Charging (α κ K ν : Type) where
  cell : α → κ
  fires : α → α → Bool
  key : α → α → K
  amount : α → α → ν

namespace Charging
variable {α κ K ν : Type} [DecidableEq κ] [DecidableEq K] [Add ν] {cap : Nat} (C : Charging α κ K ν)

def step (m : BpfMap K ν cap) (tr : List α) (e : α) : BpfMap K ν cap :=
  (last C.cell (C.cell e) tr).elim m fun a => if C.fires a e then m.bump (C.key a e) (C.amount a e) else m

/-- The map a trace leaves. -/
inductive After : BpfMap K ν cap → List α → Prop
  | nil : After .empty []
  | concat {m tr} (e : α) : After m tr → After (C.step m tr e) (tr ++ [e])

/-- A step changes nothing, or charges for the last event of the cell. -/
theorem step_cases (m : BpfMap K ν cap) (tr : List α) (e : α) :
    ((∀ a, last C.cell (C.cell e) tr = some a → C.fires a e = false) ∧ C.step m tr e = m) ∨
    ∃ a, last C.cell (C.cell e) tr = some a ∧ C.fires a e = true ∧
      C.step m tr e = m.bump (C.key a e) (C.amount a e) := by
  unfold step
  cases h : last C.cell (C.cell e) tr with
  | none => exact .inl ⟨nofun, rfl⟩
  | some a =>
    cases hf : C.fires a e with
    | false => exact .inl ⟨by rintro _ ⟨⟩; exact hf, by simp [hf]⟩
    | true => exact .inr ⟨a, rfl, hf, by simp [hf]⟩

variable {C}

/-- Every key of the map was charged. -/
theorem After.key_of_mem {m : BpfMap K ν cap} {tr : List α} (h : C.After m tr) {P : K → Prop}
    (hP : Linked C.cell (fun a e => C.fires a e = true → P (C.key a e)) tr) {k : K} (hk : k ∈ m.table) : P k := by
  induction h with
  | nil => cases hk
  | @concat m tr e _ ih =>
    obtain ⟨hl, he⟩ := (linked_concat _ _ tr e).1 hP
    rcases C.step_cases m tr e with ⟨-, hm⟩ | ⟨a, ha, hf, hm⟩
    · exact ih hl (hm ▸ hk)
    · rcases BpfMap.mem_bump (hm ▸ hk) with rfl | hk
      · exact he a ha hf
      · exact ih hl hk

section Weight
variable {w : ν → Nat} (hw : ∀ v d, w (v + d) = w v + w d)

/-- What the pair `a`, `e` charges to `k`, in weight. -/
def charge (C : Charging α κ K ν) (w : ν → Nat) (k : K) (a e : α) : Nat :=
  if C.fires a e = true ∧ C.key a e = k then w (C.amount a e) else 0

omit [Add ν] in
/-- What an event adds to the charges of cell `c`. -/
theorem pairSum_charge {tr : List α} {e : α} {k : K} {c : κ}
    (he : ∀ a, last C.cell (C.cell e) tr = some a → C.fires a e = true → C.key a e = k → C.cell e = c) :
    pairSum C.cell (C.charge w k) c (tr ++ [e]) =
      pairSum C.cell (C.charge w k) c tr + (last C.cell (C.cell e) tr).elim 0 (C.charge w k · e) := by
  rw [pairSum_concat]
  by_cases hc : C.cell e = c
  · subst hc; simp
  · -- another cell's event charges nothing to `k`
    rw [if_neg hc]
    cases ha : last C.cell (C.cell e) tr with
    | none => rfl
    | some a =>
      rw [Option.elim_some, charge, if_neg]
      exact fun h => hc (he a ha h.1 h.2)

variable {m : BpfMap K ν cap} {tr : List α} {k : K} {c : κ}

include hw in
/-- An entry holds at most the charges made to its key. -/
theorem After.weight_le (h : C.After m tr)
    (hc : Linked C.cell (fun a e => C.fires a e = true → C.key a e = k → C.cell e = c) tr) :
    (m.lookup k).elim 0 w ≤ pairSum C.cell (C.charge w k) c tr := by
  induction h with
  | nil => exact Nat.le_refl 0
  | @concat m tr e _ ih =>
    obtain ⟨hl, he⟩ := (linked_concat _ _ tr e).1 hc
    have hi := ih hl
    rw [pairSum_charge he]
    rcases C.step_cases m tr e with ⟨-, hm⟩ | ⟨a, ha, hf, hm⟩
    · rw [hm]; omega
    · rw [hm, BpfMap.weight_bump hw, ha, Option.elim_some]
      -- a full map may have refused the charge
      have hle : (if k = C.key a e ∧ m.accepts (C.key a e) = true then w (C.amount a e) else 0) ≤
          C.charge w k a e := by
        unfold charge
        split
        · rename_i h
          rw [if_pos ⟨hf, h.1.symm⟩]
        · exact Nat.zero_le _
      omega

include hw in
/-- With room for every key charged, an entry holds exactly those charges. -/
theorem After.weight_eq (h : C.After m tr)
    (hc : Linked C.cell (fun a e => C.fires a e = true → C.key a e = k → C.cell e = c) tr) {S : Finset K}
    (hS : S.card ≤ cap) (hr : Linked C.cell (fun a e => C.fires a e = true → C.key a e ∈ S) tr) :
    (m.lookup k).elim 0 w = pairSum C.cell (C.charge w k) c tr := by
  induction h with
  | nil => rfl
  | @concat m tr e hm' ih =>
    obtain ⟨hl, he⟩ := (linked_concat _ _ tr e).1 hc
    obtain ⟨hrl, hre⟩ := (linked_concat _ _ tr e).1 hr
    rw [pairSum_charge he, ← ih hl hrl]
    rcases C.step_cases m tr e with ⟨hn, hm⟩ | ⟨a, ha, hf, hm⟩
    · rw [hm]
      cases ha : last C.cell (C.cell e) tr with
      | none => rfl
      | some a => simp [charge, hn a ha]
    · have hacc : m.accepts (C.key a e) = true :=
        BpfMap.accepts_of_subset (fun _ hk => hm'.key_of_mem hrl hk) (hre a ha hf) hS
      rw [hm, BpfMap.weight_bump hw, ha, Option.elim_some, charge]
      simp [hf, hacc, eq_comm]

end Weight

/-- The sum of `f` over all entries, when only cell `c` charges what it counts. -/
theorem After.total_eq {m : BpfMap K ν cap} {tr : List α} (h : C.After m tr) {c : κ} {f : K → ν → Nat}
    (hf : ∀ k v d, f k (v + d) = f k v + f k d) {S : Finset K} (hS : S.card ≤ cap)
    (hr : Linked C.cell (fun a e => C.fires a e = true → C.key a e ∈ S) tr)
    (hc : Linked C.cell (fun a e => C.fires a e = true → C.cell e ≠ c → f (C.key a e) (C.amount a e) = 0) tr) :
    m.table.total f =
      pairSum C.cell (fun a e => if C.fires a e = true then f (C.key a e) (C.amount a e) else 0) c tr := by
  induction h with
  | nil => rfl
  | @concat m tr e hm' ih =>
    obtain ⟨hl, he⟩ := (linked_concat _ _ tr e).1 hc
    obtain ⟨hrl, hre⟩ := (linked_concat _ _ tr e).1 hr
    rw [pairSum_concat, ← ih hrl hl]
    rcases C.step_cases m tr e with ⟨hn, hm⟩ | ⟨a, ha, hfi, hm⟩
    · rw [hm]
      by_cases hcell : C.cell e = c
      · subst hcell
        cases ha : last C.cell (C.cell e) tr with
        | none => simp
        | some a => simp [hn a ha]
      · simp [hcell]
    · have hacc : m.accepts (C.key a e) = true :=
        BpfMap.accepts_of_subset (fun _ hk => hm'.key_of_mem hrl hk) (hre a ha hfi) hS
      rw [hm, BpfMap.total_bump f _ (fun v => hf _ v _) hacc]
      by_cases hcell : C.cell e = c
      · subst hcell; simp [ha, hfi]
      · simp [hcell, he a ha hfi hcell]

end Charging

end Keck.Lib
