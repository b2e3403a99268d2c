import Mathlib
/-!
# Texts

The string functions the programs share, on lists of characters: `trim`,
`split` at a separator (`List.splitOn`), `splitn(2, ..)` at the first one
(`cut`), `lines`, `split_whitespace`, and `parse` to an unsigned number.
Nothing here assumes that the parts of a text are free of the
separator: `splitOn_intercalate_flatMap` and `cut_eq_some_iff` say what comes
back for any parts.
-/
namespace Keck.Lib.Text

variable {α : Type}

/-! ## Trimming -/

/-- Drop what satisfies `p` at both ends. -/
def strip (p : α → Bool) (s : List α) : List α := (s.dropWhile p).rdropWhile p

/-- The Unicode property `White_Space`. -/
def isWhitespace (c : Char) : Bool :=
  let n := c.toNat
  (9 ≤ n && n ≤ 13) || n == 32 || n == 0x85 || n == 0xA0 || n == 0x1680 || (0x2000 ≤ n && n ≤ 0x200A) ||
    n == 0x2028 || n == 0x2029 || n == 0x202F || n == 0x205F || n == 0x3000

def trim (s : List Char) : List Char := strip isWhitespace s

theorem mem_dropWhile_of_neg {p : α → Bool} {a : α} (ha : p a = false) (s : List α) :
    a ∈ s.dropWhile p ↔ a ∈ s := by
  constructor
  · exact fun h => (List.dropWhile_sublist p).subset h
  · intro h
    rw [← List.takeWhile_append_dropWhile (p := p) (l := s)] at h
    rcases List.mem_append.1 h with h | h
    · rw [List.mem_takeWhile_imp h] at ha
      cases ha
    · exact h

/-- Stripping takes away only what satisfies `p`. -/
theorem mem_strip_of_neg {p : α → Bool} {a : α} (ha : p a = false) (s : List α) : a ∈ strip p s ↔ a ∈ s := by
  rw [strip, List.rdropWhile, List.mem_reverse, mem_dropWhile_of_neg ha, List.mem_reverse, mem_dropWhile_of_neg ha]

theorem rdropWhile_of_neg {p : α → Bool} {s : List α} (hs : ∀ c ∈ s, p c = false) : s.rdropWhile p = s := by
  cases s using List.reverseRecOn with
  | nil => rfl
  | append_singleton s c => exact List.rdropWhile_concat_neg p s c (by simp [hs c (by simp)])

/-- Nothing is stripped of a text without blanks. -/
theorem strip_of_neg {p : α → Bool} {s : List α} (hs : ∀ c ∈ s, p c = false) : strip p s = s := by
  have hleft : s.dropWhile p = s := by
    cases s with
    | nil => rfl
    | cons c s => exact List.dropWhile_cons_of_neg (by simp [hs c List.mem_cons_self])
  rw [strip, hleft, rdropWhile_of_neg hs]

theorem strip_cons {p : α → Bool} {a : α} (ha : p a = true) (s : List α) : strip p (a :: s) = strip p s := by
  rw [strip, strip, List.dropWhile_cons_of_pos ha]

/-- Stripping a text without blanks but for one at its end. -/
theorem strip_append_singleton {p : α → Bool} {s : List α} {a : α} (hs : ∀ c ∈ s, p c = false) (ha : p a = true) :
    strip p (s ++ [a]) = s := by
  cases s with
  | nil => simp [strip, ha]
  | cons c s =>
    have hc : ¬ p c = true := by simp [hs c List.mem_cons_self]
    rw [strip, List.cons_append, List.dropWhile_cons_of_neg hc, ← List.cons_append, List.rdropWhile_concat_pos _ _ _ ha,
      rdropWhile_of_neg hs]

/-- The white space is no letter or digit. -/
theorem isWhitespace_of_isAlphanum {c : Char} (h : c.isAlphanum = true) : isWhitespace c = false := by
  have hrange : 48 ≤ c.toNat ∧ c.toNat ≤ 122 := by
    simp only [Char.isAlphanum, Char.isAlpha, Char.isUpper, Char.isLower, Char.isDigit, Bool.or_eq_true,
      Bool.and_eq_true, decide_eq_true_eq, UInt32.le_iff_toNat_le, ge_iff_le] at h
    have hval : c.toNat = c.val.toNat := rfl
    have h0 : '0'.val.toNat = 48 := rfl
    have h9 : '9'.val.toNat = 57 := rfl
    have hA : 'A'.val.toNat = 65 := rfl
    have hZ : 'Z'.val.toNat = 90 := rfl
    have ha : 'a'.val.toNat = 97 := rfl
    have hz : 'z'.val.toNat = 122 := rfl
    omega
  simp only [isWhitespace, Bool.or_eq_false_iff, Bool.and_eq_false_iff, decide_eq_false_iff_not, beq_eq_false_iff_ne]
  omega

theorem isWhitespace_of_isDigit {c : Char} (h : c.isDigit = true) : isWhitespace c = false :=
  isWhitespace_of_isAlphanum (by simp [Char.isAlphanum, h])

/-! ## Splitting -/

theorem mem_intercalate {sep c : α} {parts : List (List α)} (h : c ∈ [sep].intercalate parts) :
    c = sep ∨ ∃ part ∈ parts, c ∈ part := by
  induction parts with
  | nil => cases h
  | cons part parts ih =>
    cases parts with
    | nil => exact .inr ⟨part, List.mem_cons_self, by simpa using h⟩
    | cons next parts =>
      rw [List.intercalate_cons_cons, List.append_assoc, List.mem_append, List.mem_append, List.mem_singleton] at h
      rcases h with h | h | h
      · exact .inr ⟨part, List.mem_cons_self, h⟩
      · exact .inl h
      · rcases ih h with hsep | ⟨p, hp, hc⟩
        · exact .inl hsep
        · exact .inr ⟨p, List.mem_cons_of_mem _ hp, hc⟩

theorem mem_intercalate_of_mem {sep c : α} {parts : List (List α)} {part : List α} (hpart : part ∈ parts)
    (hc : c ∈ part) : c ∈ [sep].intercalate parts := by
  induction parts with
  | nil => cases hpart
  | cons head parts ih =>
    cases parts with
    | nil =>
      rw [List.intercalate_singleton, ← List.mem_singleton.1 hpart]
      exact hc
    | cons next parts =>
      rw [List.intercalate_cons_cons, List.append_assoc, List.mem_append, List.mem_append]
      rcases List.mem_cons.1 hpart with rfl | hpart
      · exact .inl hc
      · exact .inr (.inr (ih hpart))

theorem getLast?_intercalate {sep c : α} {parts : List (List α)} (hparts : ∀ p ∈ parts, p.getLast? = some c)
    (hne : parts ≠ []) : ([sep].intercalate parts).getLast? = some c := by
  induction parts with
  | nil => exact absurd rfl hne
  | cons p parts ih =>
    cases parts with
    | nil =>
      rw [List.intercalate_singleton]
      exact hparts p List.mem_cons_self
    | cons q parts =>
      have hrest := ih (fun r hr => hparts r (List.mem_cons_of_mem p hr)) (List.cons_ne_nil _ _)
      rw [List.intercalate_cons_cons, List.append_assoc, List.getLast?_append, List.getLast?_append, hrest]
      rfl

variable [DecidableEq α]

theorem findIdx?_append_cons {a : α} {x : List α} (h : a ∉ x) (y : List α) :
    (x ++ a :: y).findIdx? (· == a) = some x.length := by
  induction x with
  | nil => simp [List.findIdx?_cons]
  | cons b x ih =>
    have hb : (b == a) = false := by simpa using fun e : b = a => h (by simp [e])
    rw [List.cons_append, List.findIdx?_cons, hb, ih fun hx => h (List.mem_cons_of_mem b hx)]
    rfl

/-- The parts before and after the first `a`, if there is one. -/
def cut (a : α) (s : List α) : Option (List α × List α) :=
  if a ∈ s then some (s.takeWhile (· ≠ a), (s.dropWhile (· ≠ a)).tail) else none

theorem cut_append {a : α} {x : List α} (h : a ∉ x) (y : List α) : cut a (x ++ a :: y) = some (x, y) := by
  have hx : ∀ b ∈ x, decide (b ≠ a) = true := fun b hb => decide_eq_true fun e => h (e ▸ hb)
  rw [cut, if_pos (by simp), List.takeWhile_append_of_pos hx, List.dropWhile_append_of_pos hx]
  simp

theorem cut_eq_some_iff {a : α} {s x y : List α} : cut a s = some (x, y) ↔ s = x ++ a :: y ∧ a ∉ x := by
  constructor
  · intro h
    by_cases ha : a ∈ s
    · obtain ⟨x', y', rfl, hx'⟩ := List.eq_append_cons_of_mem ha
      rw [cut_append hx'] at h
      cases h
      exact ⟨rfl, hx'⟩
    · simp [cut, ha] at h
  · rintro ⟨rfl, h⟩
    exact cut_append h y

/-- A piece of a split does not hold the separator. -/
theorem notMem_of_mem_splitOn {a : α} {s l : List α} (h : l ∈ s.splitOn a) : a ∉ l := by
  induction s generalizing l with
  | nil =>
    rw [List.splitOn_nil, List.mem_singleton] at h
    subst h
    exact List.not_mem_nil
  | cons b s ih =>
    rw [List.splitOn_cons_eq_if_modifyHead] at h
    obtain ⟨p, ps, hs⟩ := List.exists_cons_of_ne_nil (List.splitOn_ne_nil a s)
    split at h
    · rcases List.mem_cons.1 h with rfl | h
      · exact List.not_mem_nil
      · exact ih h
    · rename_i hb
      rw [hs, List.modifyHead_cons] at h
      rcases List.mem_cons.1 h with rfl | h
      · intro hm
        rcases List.mem_cons.1 hm with rfl | hm
        · exact hb (beq_self_eq_true _)
        · exact ih (hs ▸ List.mem_cons_self) hm
      · exact ih (hs ▸ List.mem_cons_of_mem p h)

/-- Splitting what was joined gives the pieces of every part. -/
theorem splitOn_intercalate_flatMap (a : α) {ls : List (List α)} (h : ls ≠ []) :
    ([a].intercalate ls).splitOn a = ls.flatMap (List.splitOn a) := by
  induction ls with
  | nil => exact absurd rfl h
  | cons l ls ih =>
    cases ls with
    | nil => simp
    | cons l' ls =>
      rw [List.intercalate_cons_cons, List.append_assoc, List.singleton_append, List.splitOn_append_cons_self,
        ih (by simp), List.flatMap_cons (x := l)]

/-! ## Words and lines -/

/-- `split_whitespace`. -/
def splitWhitespace (s : List Char) : List (List Char) := (s.splitOnP isWhitespace).filter fun f => !f.isEmpty

/-- `lines`: no line follows a final line break, and a carriage return before
a line break is dropped. -/
def lines (s : List Char) : List (List Char) :=
  let parts := s.splitOnP (· == '\n')
  let ended := parts.dropLast.map fun l => if l.getLast? = some '\r' then l.dropLast else l
  ended ++ parts.getLast?.toList.filter fun l => !l.isEmpty

theorem splitWhitespace_append_blank {c : Char} (hc : isWhitespace c = true) (x y : List Char) :
    splitWhitespace (x ++ c :: y) = splitWhitespace x ++ splitWhitespace y := by
  simp only [splitWhitespace, List.splitOnP_append_cons x y hc, List.filter_append]

theorem splitWhitespace_word {w : List Char} (hne : w ≠ []) (hw : ∀ c ∈ w, isWhitespace c = false) :
    splitWhitespace w = [w] := by
  simp [splitWhitespace, List.splitOnP_eq_singleton hw, hne]

theorem splitWhitespace_blank {s : List Char} (hs : ∀ c ∈ s, isWhitespace c = true) : splitWhitespace s = [] := by
  induction s with
  | nil => rfl
  | cons c s ih =>
    have htail := ih fun a ha => hs a (List.mem_cons_of_mem c ha)
    have hsplit := splitWhitespace_append_blank (hs c List.mem_cons_self) [] s
    rw [List.nil_append] at hsplit
    rw [hsplit, htail]
    rfl

/-- Words written each behind a blank are read back, whatever blanks end the text. -/
theorem splitWhitespace_words {words : List (List Char)} {tail : List Char}
    (hwords : ∀ w ∈ words, w ≠ [] ∧ ∀ c ∈ w, isWhitespace c = false) (htail : ∀ c ∈ tail, isWhitespace c = true) :
    ∀ x : List Char, splitWhitespace (x ++ (words.flatMap (' ' :: ·) ++ tail)) = splitWhitespace x ++ words := by
  induction words with
  | nil =>
    intro x
    cases tail with
    | nil => simp
    | cons c tail =>
      have hblank := splitWhitespace_blank fun a ha => htail a (List.mem_cons_of_mem c ha)
      have hsplit := splitWhitespace_append_blank (htail c List.mem_cons_self) x tail
      simpa [hblank] using hsplit
  | cons w words ih =>
    intro x
    obtain ⟨hne, hw⟩ := hwords w List.mem_cons_self
    have hrest := ih (fun v hv => hwords v (List.mem_cons_of_mem w hv)) w
    have hsplit := splitWhitespace_append_blank (c := ' ') rfl x (w ++ (words.flatMap (' ' :: ·) ++ tail))
    rw [hrest, splitWhitespace_word hne hw] at hsplit
    simpa using hsplit

/-! ## Searching -/

/-- `s.contains(pat)`. -/
def containsText (s pat : String) : Bool := decide (pat.toList <:+: s.toList)

/-- What follows the first occurrence of `pat`, if there is one. -/
def afterFirst (pat : List Char) : List Char → Option (List Char)
  | [] => if pat.isEmpty then some [] else none
  | c :: s => if pat.isPrefixOf (c :: s) then some ((c :: s).drop pat.length) else afterFirst pat s

/-- What follows the last `c`, if there is one. -/
def afterLast (c : Char) (s : List Char) : Option (List Char) :=
  if c ∈ s then some (s.reverse.takeWhile (· ≠ c)).reverse else none

theorem afterLast_append {c : Char} {y : List Char} (hy : c ∉ y) (x : List Char) :
    afterLast c (x ++ c :: y) = some y := by
  have htake : (x ++ c :: y).reverse.takeWhile (· ≠ c) = y.reverse := by
    rw [List.reverse_append, List.reverse_cons, List.append_assoc, List.takeWhile_append_of_pos]
    · simp
    · intro a ha
      have hne : a ≠ c := fun h => hy (h ▸ List.mem_reverse.1 ha)
      simpa using hne
  rw [afterLast, if_pos (by simp), htake, List.reverse_reverse]

theorem afterLast_append_of_mem {c : Char} {y : List Char} (hy : c ∈ y) (x : List Char) :
    afterLast c (x ++ y) = afterLast c y := by
  have hcut : ((y.reverse).takeWhile (· ≠ c)).length ≠ y.reverse.length := by
    intro hlength
    have hself := (List.takeWhile_prefix _).eq_of_length hlength
    have hne := List.takeWhile_eq_self_iff.1 hself c (List.mem_reverse.2 hy)
    simp at hne
  rw [afterLast, afterLast, if_pos (List.mem_append_right x hy), if_pos hy, List.reverse_append,
    List.takeWhile_append, if_neg hcut]

/-! ## Numbers -/

def digitValue (c : Char) : Nat := c.toNat - '0'.toNat

/-- `parse` to an unsigned number of the given width. -/
def parseUnsigned (bits : Nat) (s : List Char) : Option Nat :=
  let digits := if s.head? = some '+' then s.tail else s
  if digits.isEmpty || !digits.all Char.isDigit then none
  else
    let n := digits.foldl (fun n c => 10 * n + digitValue c) 0
    if n < 2 ^ bits then some n else none

/-- A number printed in decimal is read back. -/
theorem parseUnsigned_toDigits {bits n : Nat} (h : n < 2 ^ bits) : parseUnsigned bits (Nat.toDigits 10 n) = some n := by
  have hdigit : ∀ c ∈ Nat.toDigits 10 n, c.isDigit = true :=
    fun c hc => Nat.isDigit_of_mem_toDigits (by decide) (by decide) hc
  have hplus : (Nat.toDigits 10 n).head? ≠ some '+' := by
    intro hhead
    have := hdigit '+' (List.mem_of_mem_head? hhead)
    cases this
  have hvalue : (Nat.toDigits 10 n).foldl (fun n c => 10 * n + digitValue c) 0 = n :=
    Nat.ofDigitChars_toDigits (by decide) (by decide)
  simp only [parseUnsigned, if_neg hplus, hvalue, if_pos h]
  rw [if_neg]
  simpa [Nat.toDigits_ne_nil] using hdigit

/-! ## Labels of a metric -/

/-- A character of a label's name. -/
def isNameChar (c : Char) : Bool := c.isAlphanum || c == '_'

def labelText (name raw : List Char) : List Char := name ++ '=' :: '"' :: (raw ++ ['"'])

theorem ne_of_isNameChar {c d : Char} (hc : isNameChar c = true) (hd : isNameChar d = false) : c ≠ d := by
  rintro rfl
  rw [hc] at hd
  cases hd

theorem isWhitespace_of_isNameChar {c : Char} (h : isNameChar c = true) : isWhitespace c = false := by
  rcases Bool.or_eq_true_iff.1 h with halnum | hunderscore
  · exact isWhitespace_of_isAlphanum halnum
  · rw [eq_of_beq hunderscore]
    decide

end Keck.Lib.Text
