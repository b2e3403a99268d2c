import Mathlib
/-!
# Coefficients of variation

Mean, variance and coefficient of variation of a list of numbers. The square
root is a parameter, so that the definitions compute where it does. Scaling the
numbers leaves the coefficient as it is, and along `a + b * x` it is
`b * s / (a + b * m)` for the deviation `s` and the mean `m` of the `x`.
-/
namespace Keck.Lib

variable {F : Type} [Field F] [LinearOrder F]

def mean (xs : List F) : F := xs.sum / xs.length

def variance (xs : List F) : F := (xs.map fun x => (x - mean xs) ^ 2).sum / xs.length

/-- Standard deviation over mean. -/
def variation (sqrt : F → F) (xs : List F) : F := sqrt (variance xs) / mean xs

/-- A square root of every number that is not negative. -/
structure IsSqrt (sqrt : F → F) : Prop where
  nonneg : ∀ x, 0 ≤ x → 0 ≤ sqrt x
  mul_self : ∀ x, 0 ≤ x → sqrt x * sqrt x = x

theorem IsSqrt.pos {sqrt : F → F} (h : IsSqrt sqrt) {x : F} (hx : 0 < x) : 0 < sqrt x := by
  refine lt_of_le_of_ne (h.nonneg x hx.le) fun h0 => ?_
  have := h.mul_self x hx.le
  rw [← h0, mul_zero] at this
  exact hx.ne this

theorem isSqrt_real : IsSqrt Real.sqrt := ⟨fun x _ => Real.sqrt_nonneg x, fun _ hx => Real.mul_self_sqrt hx⟩

variable [IsStrictOrderedRing F]

theorem IsSqrt.sq_mul {sqrt : F → F} (h : IsSqrt sqrt) {k x : F} (hk : 0 ≤ k) (hx : 0 ≤ x) :
    sqrt (k ^ 2 * x) = k * sqrt x := by
  have hkx : 0 ≤ k ^ 2 * x := mul_nonneg (sq_nonneg k) hx
  have hsq : sqrt (k ^ 2 * x) ^ 2 = (k * sqrt x) ^ 2 := by
    rw [mul_pow, sq (sqrt x), h.mul_self x hx, sq (sqrt _), h.mul_self _ hkx]
  exact (pow_left_inj₀ (h.nonneg _ hkx) (mul_nonneg hk (h.nonneg x hx)) two_ne_zero).1 hsq

section Affine
variable {xs : List F}

theorem length_pos_of_ne_nil (hxs : xs ≠ []) : 0 < (xs.length : F) := Nat.cast_pos.2 (List.length_pos_iff.2 hxs)

theorem sum_map_affine (a b : F) (xs : List F) : (xs.map fun x => a + b * x).sum = xs.length * a + b * xs.sum := by
  induction xs with
  | nil => simp
  | cons x xs ih =>
    simp only [List.map_cons, List.sum_cons, List.length_cons, ih]
    push_cast
    ring

theorem mean_affine (hxs : xs ≠ []) (a b : F) : mean (xs.map fun x => a + b * x) = a + b * mean xs := by
  have hlen := (length_pos_of_ne_nil hxs).ne'
  rw [mean, mean, sum_map_affine, List.length_map]
  field_simp

theorem variance_affine (hxs : xs ≠ []) (a b : F) :
    variance (xs.map fun x => a + b * x) = b ^ 2 * variance xs := by
  have hsq : (xs.map fun x => a + b * x).map (fun y => (y - mean (xs.map fun x => a + b * x)) ^ 2) =
      (xs.map fun x => (x - mean xs) ^ 2).map (b ^ 2 * ·) := by
    rw [List.map_map, List.map_map, mean_affine hxs]
    refine List.map_congr_left fun x _ => ?_
    simp only [Function.comp_apply]
    ring
  rw [variance, variance, hsq, List.sum_map_mul_left, List.map_id', List.length_map, mul_div_assoc]

theorem variance_nonneg (xs : List F) : 0 ≤ variance xs := by
  refine div_nonneg (List.sum_nonneg ?_) (Nat.cast_nonneg _)
  simp only [List.mem_map]
  rintro _ ⟨x, -, rfl⟩
  exact sq_nonneg _

/-- Numbers that are not all the same vary. -/
theorem variance_pos {x y : F} (hx : x ∈ xs) (hy : y ∈ xs) (hxy : x < y) : 0 < variance xs := by
  refine lt_of_le_of_ne (variance_nonneg xs) fun h0 => ?_
  have hlen := (length_pos_of_ne_nil (List.ne_nil_of_mem hx)).ne'
  have hsum : (xs.map fun x => (x - mean xs) ^ 2).sum = 0 := by
    rcases div_eq_zero_iff.1 h0.symm with h | h
    · exact h
    · exact absurd h hlen
  have hzero : ∀ z ∈ xs, z = mean xs := by
    intro z hz
    have hle : (z - mean xs) ^ 2 ≤ (xs.map fun x => (x - mean xs) ^ 2).sum := by
      refine List.single_le_sum ?_ _ (List.mem_map.2 ⟨z, hz, rfl⟩)
      simp only [List.mem_map]
      rintro _ ⟨x, -, rfl⟩
      exact sq_nonneg _
    have := sq_eq_zero_iff.1 (le_antisymm (hle.trans hsum.le) (sq_nonneg _))
    exact sub_eq_zero.1 this
  exact hxy.ne ((hzero x hx).trans (hzero y hy).symm)

theorem mean_nonneg (h : ∀ x ∈ xs, 0 ≤ x) : 0 ≤ mean xs := div_nonneg (List.sum_nonneg h) (Nat.cast_nonneg _)

theorem mean_pos (hxs : xs ≠ []) (h : ∀ x ∈ xs, 0 < x) : 0 < mean xs :=
  div_pos (List.sum_pos xs h hxs) (length_pos_of_ne_nil hxs)

/-- The coefficient of variation along a line, whatever the scale. -/
theorem variation_affine {sqrt : F → F} (hs : IsSqrt sqrt) (hxs : xs ≠ []) {k a b : F} (hk : 0 < k) (hb : 0 ≤ b) :
    variation sqrt (xs.map fun x => k * (a + b * x)) = b * sqrt (variance xs) / (a + b * mean xs) := by
  have hline : (xs.map fun x => k * (a + b * x)) = xs.map fun x => k * a + k * b * x :=
    List.map_congr_left fun x _ => by ring
  rw [variation, hline, variance_affine hxs, mean_affine hxs,
    hs.sq_mul (mul_nonneg hk.le hb) (variance_nonneg xs)]
  have hk' := hk.ne'
  rw [mul_assoc k b, mul_assoc k b, ← mul_add, mul_div_mul_left _ _ hk']

omit [LinearOrder F] [IsStrictOrderedRing F] in
/-- How the coefficient along a line changes with its slope. -/
theorem line_sub_slope {s m a b b' : F} (h : a + b * m ≠ 0) (h' : a + b' * m ≠ 0) :
    b' * s / (a + b' * m) - b * s / (a + b * m) = s * a * (b' - b) / ((a + b' * m) * (a + b * m)) := by
  rw [div_sub_div _ _ h' h]
  congr 1
  ring

omit [LinearOrder F] [IsStrictOrderedRing F] in
/-- How it changes with the offset. -/
theorem line_sub_offset {s m a a' b : F} (h : a + b * m ≠ 0) (h' : a' + b * m ≠ 0) :
    b * s / (a' + b * m) - b * s / (a + b * m) = -(b * s * (a' - a) / ((a' + b * m) * (a + b * m))) := by
  rw [div_sub_div _ _ h' h, ← neg_div]
  congr 1
  ring

end Affine

end Keck.Lib
