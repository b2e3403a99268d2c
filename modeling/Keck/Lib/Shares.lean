import Mathlib
/-!
# Rounded shares of a total

Each of a list of parties gets the floor of its share of a total. Together they
get no more than the total, whatever the total is, exactly if the shares add up
to at most one (`floors_le_iff`): the shares' common denominator is a total at
which nothing is rounded.
-/
namespace Keck.Lib.Shares

variable {α : Type}

/-- What the parties get of a total of `n`. -/
def floors (q : α → ℚ) (l : List α) (n : Nat) : Nat := (l.map fun a => ⌊(n : ℚ) * q a⌋₊).sum

theorem floors_le {q : α → ℚ} {l : List α} (hq : ∀ a ∈ l, 0 ≤ q a) (n : Nat) :
    (floors q l n : ℚ) ≤ n * (l.map q).sum := by
  induction l with
  | nil => simp [floors]
  | cons a l ih =>
    have ha : (⌊(n : ℚ) * q a⌋₊ : ℚ) ≤ n * q a :=
      Nat.floor_le (mul_nonneg (Nat.cast_nonneg n) (hq a (by simp)))
    have hl := ih fun b hb => hq b (by simp [hb])
    simp only [floors, List.map_cons, List.sum_cons, Nat.cast_add, mul_add] at hl ⊢
    exact add_le_add ha hl

/-- Each party loses less than one to rounding. -/
theorem lt_floors_add (q : α → ℚ) {l : List α} (hl : l ≠ []) (n : Nat) :
    n * (l.map q).sum < floors q l n + l.length := by
  induction l with
  | nil => exact absurd rfl hl
  | cons a l ih =>
    have ha : (n : ℚ) * q a < ⌊(n : ℚ) * q a⌋₊ + 1 := Nat.lt_floor_add_one _
    have hrest : (n : ℚ) * (l.map q).sum ≤ floors q l n + l.length := by
      rcases eq_or_ne l [] with rfl | hne
      · simp [floors]
      · exact (ih hne).le
    simp only [floors, List.map_cons, List.sum_cons, List.length_cons, Nat.cast_add, Nat.cast_one, mul_add] at hrest ⊢
    linarith

/-- Shares that add up to one give out the total, up to less than one for each
party. -/
theorem floors_near {q : α → ℚ} {l : List α} (hq : ∀ a ∈ l, 0 ≤ q a) (hl : l ≠ []) (h : (l.map q).sum = 1) (n : Nat) :
    floors q l n ≤ n ∧ n < floors q l n + l.length := by
  have hle := floors_le hq n
  have hlt := lt_floors_add q hl n
  rw [h, mul_one] at hle hlt
  exact ⟨by exact_mod_cast hle, by exact_mod_cast hlt⟩

/-- Dividing parts one by one, or their sum. -/
theorem sum_div_near {d : Nat} (hd : 0 < d) {xs : List Nat} (hx : xs ≠ []) :
    (xs.map (· / d)).sum ≤ xs.sum / d ∧ xs.sum / d < (xs.map (· / d)).sum + xs.length := by
  induction xs with
  | nil => exact absurd rfl hx
  | cons x xs ih =>
    have hadd : x / d + xs.sum / d ≤ (x + xs.sum) / d ∧ (x + xs.sum) / d ≤ x / d + xs.sum / d + 1 := by
      rw [Nat.add_div hd]
      split <;> omega
    simp only [List.map_cons, List.sum_cons, List.length_cons]
    rcases eq_or_ne xs [] with rfl | hne
    · simp
    · obtain ⟨hle, hlt⟩ := ih hne
      omega

/-- Each party's part of the parties' weight. -/
theorem sum_share {w : α → ℚ} {l : List α} (h : 0 < (l.map w).sum) : (l.map fun a => w a / (l.map w).sum).sum = 1 := by
  simp only [div_eq_mul_inv]
  rw [List.sum_map_mul_right]
  exact mul_inv_cancel₀ h.ne'

/-- A sum of what is not negative is positive if one of its terms is. -/
theorem sum_pos_iff {w : α → ℚ} {l : List α} (hw : ∀ a ∈ l, 0 ≤ w a) : 0 < (l.map w).sum ↔ ∃ a ∈ l, 0 < w a := by
  induction l with
  | nil => simp
  | cons b l ih =>
    have hb : 0 ≤ w b := hw b List.mem_cons_self
    have hl : ∀ a ∈ l, 0 ≤ w a := fun a ha => hw a (List.mem_cons_of_mem _ ha)
    have hsum : 0 ≤ (l.map w).sum := List.sum_nonneg fun y hy => by
      obtain ⟨a, ha, rfl⟩ := List.mem_map.1 hy
      exact hl a ha
    rw [List.map_cons, List.sum_cons, List.exists_mem_cons_iff, ← ih hl]
    constructor
    · intro h
      by_contra hneg
      obtain ⟨h1, h2⟩ := not_or.1 hneg
      linarith
    · rintro (h | h) <;> linarith

/-- A total at which every share is a whole number. -/
theorem exists_common_denominator (q : α → ℚ) (l : List α) (hq : ∀ a ∈ l, 0 ≤ q a) :
    ∃ n : Nat, 0 < n ∧ ∀ a ∈ l, ∃ k : Nat, (n : ℚ) * q a = k := by
  induction l with
  | nil => exact ⟨1, Nat.one_pos, nofun⟩
  | cons a l ih =>
    obtain ⟨n, hn, hl⟩ := ih fun b hb => hq b (by simp [hb])
    refine ⟨(q a).den * n, Nat.mul_pos (q a).den_pos hn, fun b hb => ?_⟩
    rcases List.mem_cons.1 hb with rfl | hb
    · refine ⟨n * (q b).num.toNat, ?_⟩
      have hnum : ((q b).num.toNat : ℚ) = (q b).num := by
        exact_mod_cast Int.toNat_of_nonneg (Rat.num_nonneg.2 (hq b (by simp)))
      have hmul : q b * (q b).den = (q b).num := Rat.mul_den_eq_num (q b)
      push_cast
      rw [hnum, ← hmul]
      ring
    · obtain ⟨k, hk⟩ := hl b hb
      refine ⟨(q a).den * k, ?_⟩
      push_cast
      rw [mul_assoc, hk]

theorem floors_eq {q : α → ℚ} {l : List α} {n : Nat} (h : ∀ a ∈ l, ∃ k : Nat, (n : ℚ) * q a = k) :
    (floors q l n : ℚ) = n * (l.map q).sum := by
  induction l with
  | nil => simp [floors]
  | cons a l ih =>
    obtain ⟨k, hk⟩ := h a (by simp)
    have hl := ih fun b hb => h b (by simp [hb])
    simp only [floors, List.map_cons, List.sum_cons, Nat.cast_add, mul_add] at hl ⊢
    rw [hl, hk, Nat.floor_natCast]

theorem floors_le_iff {q : α → ℚ} {l : List α} (hq : ∀ a ∈ l, 0 ≤ q a) :
    (∀ n, floors q l n ≤ n) ↔ (l.map q).sum ≤ 1 := by
  constructor
  · intro h
    obtain ⟨n, hn, hk⟩ := exists_common_denominator q l hq
    have hle : (n : ℚ) * (l.map q).sum ≤ n * 1 := by
      rw [← floors_eq hk, mul_one]
      exact_mod_cast h n
    exact le_of_mul_le_mul_left hle (by exact_mod_cast hn)
  · intro h n
    have hle : (floors q l n : ℚ) ≤ n :=
      calc (floors q l n : ℚ) ≤ n * (l.map q).sum := floors_le hq n
        _ ≤ n * 1 := mul_le_mul_of_nonneg_left h (Nat.cast_nonneg n)
        _ = n := mul_one _
    exact_mod_cast hle

end Keck.Lib.Shares
