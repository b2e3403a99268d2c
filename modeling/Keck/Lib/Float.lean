import Mathlib
/-!
# Floating-point values

An `f64` without its rounding: a finite value is an exact rational, and the
infinities and NaN are kept, because texts spell them and casts treat them
apart; `Keck.Lib.Rounding` adds the rounding. `parse` is the grammar of
`str::parse::<f64>`: a sign, then `inf`, `infinity` or `nan` in any case, or
digits with a point and an exponent.
-/
namespace Keck.Lib

inductive F64 where
  | finite (q : ℚ)
  | inf (negative : Bool)
  | nan
  deriving DecidableEq

namespace F64

instance : Zero F64 := ⟨finite 0⟩

def add : F64 → F64 → F64
  | finite a, finite b => finite (a + b)
  | inf s, finite _ => inf s
  | finite _, inf s => inf s
  | inf s, inf t => if s = t then inf s else nan
  | nan, _ => nan
  | _, nan => nan

/-- Multiplication by a positive number. -/
def scale (c : ℚ) : F64 → F64
  | finite a => finite (a * c)
  | x => x

/-- `as` to an unsigned type: towards zero, and saturating. -/
def toUnsigned (bits : Nat) : F64 → Nat
  | finite a => min ⌊a⌋.toNat (2 ^ bits - 1)
  | inf false => 2 ^ bits - 1
  | inf true => 0
  | nan => 0

/-- `x <= 0.0`, which NaN is not. -/
def nonpos : F64 → Bool
  | finite a => decide (a ≤ 0)
  | inf negative => negative
  | nan => false

/-- The floor of a value, without the bound of a type; NaN has none and counts
as zero. -/
def floor : F64 → ℕ∞
  | finite a => ⌊a⌋.toNat
  | inf false => ⊤
  | inf true => 0
  | nan => 0

theorem toUnsigned_eq (bits : Nat) (x : F64) : (x.toUnsigned bits : ℕ∞) = min x.floor ((2 ^ bits - 1 : Nat) : ℕ∞) := by
  cases x with
  | finite a => exact (WithTop.coe_min _ _)
  | inf negative => cases negative <;> simp [toUnsigned, floor]
  | nan => simp [toUnsigned, floor]

theorem toUnsigned_le_floor (bits : Nat) (x : F64) : (x.toUnsigned bits : ℕ∞) ≤ x.floor := by
  rw [toUnsigned_eq]
  exact min_le_left _ _

theorem toUnsigned_lt (bits : Nat) (x : F64) : x.toUnsigned bits < 2 ^ bits := by
  have hpos : 0 < 2 ^ bits := Nat.two_pow_pos bits
  cases x with
  | finite a =>
    have hmin : min ⌊a⌋.toNat (2 ^ bits - 1) ≤ 2 ^ bits - 1 := min_le_right _ _
    simp only [toUnsigned]
    omega
  | inf negative => cases negative <;> simp [toUnsigned]
  | nan => simp [toUnsigned]

/-- The cast is exact on the values that fit. -/
theorem toUnsigned_eq_floor_iff (bits : Nat) (x : F64) :
    (x.toUnsigned bits : ℕ∞) = x.floor ↔ x.floor < ((2 ^ bits : Nat) : ℕ∞) := by
  have hpos : 0 < 2 ^ bits := Nat.two_pow_pos bits
  have hsucc : (2 ^ bits : Nat) = 2 ^ bits - 1 + 1 := by omega
  rw [toUnsigned_eq, min_eq_left_iff, hsucc, Nat.cast_add, Nat.cast_one, ENat.lt_natCast_add_one_iff]
  rfl

theorem sum_toUnsigned_le (bits : Nat) (xs : List F64) :
    (((xs.map (toUnsigned bits)).sum : Nat) : ℕ∞) ≤ (xs.map floor).sum := by
  induction xs with
  | nil => simp
  | cons x xs ih =>
    simp only [List.map_cons, List.sum_cons, Nat.cast_add]
    exact add_le_add (toUnsigned_le_floor bits x) ih

/-- Casts add up to the floors exactly when each is exact. -/
theorem sum_toUnsigned_eq_iff (bits : Nat) (xs : List F64) :
    (((xs.map (toUnsigned bits)).sum : Nat) : ℕ∞) = (xs.map floor).sum ↔
      ∀ x ∈ xs, x.floor < ((2 ^ bits : Nat) : ℕ∞) := by
  induction xs with
  | nil => simp
  | cons x xs ih =>
    rw [List.forall_mem_cons]
    refine Iff.trans ?_ (and_congr (toUnsigned_eq_floor_iff bits x) ih)
    have hx := toUnsigned_le_floor bits x
    have hxs := sum_toUnsigned_le bits xs
    simp only [List.map_cons, List.sum_cons, Nat.cast_add]
    constructor
    · intro h
      -- a sum of finite casts has finite parts
      have hfin : x.floor + (xs.map floor).sum ≠ ⊤ := by
        rw [← h, ← Nat.cast_add]
        exact ENat.natCast_ne_top _
      obtain ⟨hfx, hfxs⟩ := not_or.1 (mt WithTop.add_eq_top.2 hfin)
      lift x.floor to ℕ using hfx with a
      lift (xs.map floor).sum to ℕ using hfxs with b
      norm_cast at *
      omega
    · rintro ⟨h1, h2⟩
      rw [h1, h2]

theorem toUnsigned_mono (bits : Nat) {a b : ℚ} (h : a ≤ b) :
    (finite a).toUnsigned bits ≤ (finite b).toUnsigned bits := by
  have hfloor : ⌊a⌋.toNat ≤ ⌊b⌋.toNat := Int.toNat_le_toNat (Int.floor_le_floor h)
  exact min_le_min hfloor le_rfl

/-! ## Texts -/

/-- The sign of a number, `+` if there is none, and what follows it. -/
def sign (s : List Char) : Bool × List Char :=
  match s with
  | '-' :: s => (true, s)
  | '+' :: s => (false, s)
  | s => (false, s)

def decimal (digits : List Char) : Nat := digits.foldl (fun n c => 10 * n + (c.toNat - '0'.toNat)) 0

def exponent (s : List Char) : Option Int :=
  let (negative, digits) := sign s
  if digits.isEmpty || !digits.all Char.isDigit then none
  else some (if negative then -(decimal digits : Int) else decimal digits)

/-- Digits, a point and digits, with at least one digit, and an exponent. -/
def number (s : List Char) : Option ℚ :=
  let whole := s.takeWhile Char.isDigit
  let rest := s.dropWhile Char.isDigit
  let (part, rest) := match rest with
    | '.' :: rest => (rest.takeWhile Char.isDigit, rest.dropWhile Char.isDigit)
    | rest => ([], rest)
  let mantissa : ℚ := decimal (whole ++ part) / 10 ^ part.length
  if whole.isEmpty && part.isEmpty then none
  else match rest with
    | [] => some mantissa
    | c :: rest => if c = 'e' ∨ c = 'E' then (exponent rest).map fun e => mantissa * 10 ^ e else none

def parse (s : List Char) : Option F64 :=
  let (negative, s) := sign s
  let word := s.map Char.toLower
  if word = "inf".toList ∨ word = "infinity".toList then some (inf negative)
  else if word = "nan".toList then some nan
  else (number s).map fun q => finite (if negative then -q else q)

/-! No text with a double quote is a number. -/

theorem quote_mem_sign {s : List Char} (h : '"' ∈ s) : '"' ∈ (sign s).2 := by
  unfold sign
  split
  · simpa using h
  · simpa using h
  · exact h

theorem exponent_of_quote {s : List Char} (h : '"' ∈ s) : exponent s = none := by
  have hall : (sign s).2.all Char.isDigit = false := by
    rw [List.all_eq_false]
    exact ⟨'"', quote_mem_sign h, by decide⟩
  simp [exponent, hall]

theorem quote_mem_dropWhile {s : List Char} (h : '"' ∈ s) : '"' ∈ s.dropWhile Char.isDigit := by
  rw [← List.takeWhile_append_dropWhile (p := Char.isDigit) (l := s), List.mem_append] at h
  rcases h with h | h
  · have := List.mem_takeWhile_imp h
    cases this
  · exact h

theorem number_of_quote {s : List Char} (h : '"' ∈ s) : number s = none := by
  obtain ⟨part, rest, hmatch, hrest⟩ : ∃ part rest, (match s.dropWhile Char.isDigit with
      | '.' :: rest => (rest.takeWhile Char.isDigit, rest.dropWhile Char.isDigit)
      | rest => ([], rest)) = (part, rest) ∧ '"' ∈ rest := by
    have hrest := quote_mem_dropWhile h
    split
    · next rest heq =>
      rw [heq] at hrest
      exact ⟨_, _, rfl, quote_mem_dropWhile (by simpa using hrest)⟩
    · exact ⟨_, _, rfl, hrest⟩
  simp only [number, hmatch]
  split
  · rfl
  · cases rest with
    | nil => cases hrest
    | cons c rest =>
      dsimp only
      split
      · next hexp =>
        have hmem : '"' ∈ rest := (List.mem_cons.1 hrest).resolve_left (by rintro rfl; revert hexp; decide)
        rw [exponent_of_quote hmem, Option.map_none]
      · rfl

theorem parse_of_quote {s : List Char} (h : '"' ∈ s) : parse s = none := by
  have hmem := quote_mem_sign h
  have hword : ∀ w : List Char, '"' ∉ w → (sign s).2.map Char.toLower ≠ w := by
    rintro w hw rfl
    exact hw (List.mem_map.2 ⟨'"', hmem, rfl⟩)
  simp only [parse]
  rw [if_neg (not_or.2 ⟨hword _ (by decide), hword _ (by decide)⟩), if_neg (hword _ (by decide)), number_of_quote hmem]
  rfl

/-! ## Decimals -/

/-- A printed decimal: a sign, digits, a point with more digits if there are
any, and an exponent with its sign. -/
structure Decimal where
  negative : Bool
  whole : List Char
  part : List Char
  power : Option (Bool × List Char)
  whole_ne : whole ≠ []
  whole_digits : ∀ c ∈ whole, c.isDigit = true
  part_digits : ∀ c ∈ part, c.isDigit = true
  power_digits : ∀ e ∈ power, e.2 ≠ [] ∧ ∀ c ∈ e.2, c.isDigit = true

namespace Decimal
variable (d : Decimal)

def powerText : List Char :=
  match d.power with
  | none => []
  | some (negative, digits) => 'e' :: (if negative then '-' else '+') :: digits

def body : List Char := d.whole ++ ((if d.part = [] then [] else '.' :: d.part) ++ d.powerText)

def text : List Char := if d.negative then '-' :: d.body else d.body

def exponentValue : Int :=
  match d.power with
  | none => 0
  | some (negative, digits) => if negative then -(decimal digits : Int) else decimal digits

def value : ℚ :=
  let q := (decimal (d.whole ++ d.part) : ℚ) / 10 ^ d.part.length * 10 ^ d.exponentValue
  if d.negative then -q else q

end Decimal

theorem span_digits {w rest : List Char} (hw : ∀ c ∈ w, c.isDigit = true)
    (hrest : ∀ c ∈ rest.head?, c.isDigit = false) :
    (w ++ rest).takeWhile Char.isDigit = w ∧ (w ++ rest).dropWhile Char.isDigit = rest := by
  rw [List.takeWhile_append_of_pos hw, List.dropWhile_append_of_pos hw]
  cases rest with
  | nil => simp
  | cons c rest => simp [hrest c rfl]

theorem exponent_digits {negative : Bool} {digits : List Char} (hne : digits ≠ [])
    (hdigits : ∀ c ∈ digits, c.isDigit = true) :
    exponent ((if negative then '-' else '+') :: digits) =
      some (if negative then -(decimal digits : Int) else decimal digits) := by
  have hall : (digits.isEmpty || !digits.all Char.isDigit) = false := by simpa [hne] using hdigits
  cases negative <;> simp [exponent, sign, hall]

theorem number_body (d : Decimal) :
    number d.body = some ((decimal (d.whole ++ d.part) : ℚ) / 10 ^ d.part.length * 10 ^ d.exponentValue) := by
  have hpower : ∀ c ∈ d.powerText.head?, c.isDigit = false := by
    unfold Decimal.powerText
    split <;> simp
  have htail : ∀ c ∈ ((if d.part = [] then [] else '.' :: d.part) ++ d.powerText).head?, c.isDigit = false := by
    split
    · simpa using hpower
    · simp
  have hwhole := span_digits d.whole_digits htail
  have hpart := span_digits d.part_digits hpower
  -- what follows the digits: a point or not, an exponent or not
  have hrest : (match (if d.part = [] then [] else '.' :: d.part) ++ d.powerText with
      | '.' :: rest => (rest.takeWhile Char.isDigit, rest.dropWhile Char.isDigit)
      | rest => ([], rest)) = (d.part, d.powerText) := by
    by_cases hempty : d.part = []
    · unfold Decimal.powerText
      rw [if_pos hempty, hempty]
      cases d.power <;> rfl
    · rw [if_neg hempty]
      exact Prod.ext hpart.1 hpart.2
  have hdigits : (d.whole.isEmpty && d.part.isEmpty) = false := by simp [d.whole_ne]
  unfold number Decimal.body
  simp only [hwhole.1, hwhole.2, hrest, hdigits]
  unfold Decimal.powerText Decimal.exponentValue
  cases hpow : d.power with
  | none => simp
  | some e =>
    obtain ⟨hne, he⟩ := d.power_digits e hpow
    simp [exponent_digits hne he]

theorem toLower_of_isDigit {c : Char} (h : c.isDigit = true) : c.toLower = c := by
  have hrange : c.val.toNat ≤ 57 := by
    have : 48 ≤ c.toNat ∧ c.toNat ≤ 57 := by simpa [Char.isDigit, UInt32.le_iff_toNat_le] using h
    exact this.2
  rw [Char.toLower, dif_neg]
  intro hupper
  have := UInt32.le_iff_toNat_le.1 hupper.1
  have : 'A'.val.toNat = 65 := rfl
  omega

/-- A printed decimal is read as its value. -/
theorem parse_text (d : Decimal) : parse d.text = some (finite d.value) := by
  obtain ⟨c, rest, hbody⟩ : ∃ c rest, d.body = c :: rest ∧ c.isDigit = true := by
    obtain ⟨c, cs, hc⟩ := List.exists_cons_of_ne_nil d.whole_ne
    exact ⟨c, _, by rw [Decimal.body, hc]; rfl, d.whole_digits c (by simp [hc])⟩
  obtain ⟨hbody, hc⟩ := hbody
  have hsign : sign d.text = (d.negative, d.body) := by
    unfold Decimal.text
    cases d.negative with
    | true => rfl
    | false =>
      simp only [Bool.false_eq_true, if_false, hbody]
      unfold sign
      split <;> simp_all
  have hword : ∀ w : List Char, (∀ a ∈ w.head?, a.isDigit = false) → w ≠ [] → d.body.map Char.toLower ≠ w := by
    intro w hw hne heq
    rw [hbody, List.map_cons, toLower_of_isDigit hc] at heq
    rw [← heq] at hw
    have := hw c rfl
    rw [hc] at this
    cases this
  simp only [parse, hsign]
  rw [if_neg (not_or.2 ⟨hword _ (by simp) (by simp), hword _ (by simp) (by simp)⟩),
    if_neg (hword _ (by simp) (by simp)), number_body]
  rfl

/-- To the nearest whole number, halves to the even one. -/
def roundHalfEven (q : ℚ) : Nat :=
  let n := ⌊q⌋.toNat
  if q - n < 1 / 2 then n else if q - n > 1 / 2 then n + 1 else if n % 2 = 0 then n else n + 1

/-- A finite value with a fixed number of digits after the point, `{:.n}`. -/
def fixed (digits : Nat) (q : ℚ) : String :=
  let n := roundHalfEven (|q| * 10 ^ digits)
  let part := toString (n % 10 ^ digits)
  let zeros := String.ofList (List.replicate (digits - part.length) '0')
  (if q < 0 then "-" else "") ++ toString (n / 10 ^ digits) ++ if digits = 0 then "" else "." ++ zeros ++ part

example : fixed 0 (5 / 2) = "2" ∧ fixed 1 (-1 / 20) = "-0.0" ∧ fixed 2 (101 / 100) = "1.01" := by decide +kernel

example : parse "-12.5e-1".toList = some (finite (-5 / 4)) := by decide +kernel

end F64

end Keck.Lib
