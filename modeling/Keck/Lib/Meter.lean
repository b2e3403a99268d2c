import Mathlib
/-!
# Metering a counter by differences

A counter that only grows is read from time to time, and each reading is
charged with what it adds to the one before. Reads may fail, and there are two
ways to go on from that.

A meter that keeps its last reading charges, over any pattern of failures, the
counter's growth between the first and the last successful read (`sum_spans`),
even of a counter that wraps (`wrap_cases`). A meter that stores zero for a
failed read charges the whole counter again at the next successful one. It
stays within the growth only as long as nothing had been counted before the
failure (`charged_le` and `noRestart_of_charged_le`).
-/
namespace Keck.Lib

/-- Microjoules over an interval in nanoseconds, as microwatts. -/
def energyToPower (energyUj intervalNs : Nat) : Nat :=
  if intervalNs = 0 then 0 else energyUj * 1000000000 / intervalNs % 2 ^ 64

theorem energyToPower_eq {e ns : Nat} (hns : 0 < ns) (h : e * 1000000000 / ns < 2 ^ 64) :
    energyToPower e ns = e * 1000000000 / ns := by
  unfold energyToPower
  rw [if_neg hns.ne', Nat.mod_eq_of_lt h]

namespace Meter

/-! ## Keeping the last reading -/

/-- How far a counter modulo `m` went, by whether it wrapped on the way. -/
theorem wrap_cases {m a b : Nat} (hab : a ≤ b) (hlt : b < a + m) :
    (a % m ≤ b % m ∧ b % m - a % m = b - a) ∨ (b % m < a % m ∧ (m - a % m) + b % m = b - a) := by
  have ha : a % m < m := Nat.mod_lt a (by omega)
  obtain ⟨d, rfl⟩ := Nat.exists_eq_add_of_le hab
  have hd : d < m := by omega
  rw [← Nat.mod_add_mod, Nat.add_sub_cancel_left]
  generalize a % m = r at ha
  rcases Nat.lt_or_ge (r + d) m with h | h
  · rw [Nat.mod_eq_of_lt h]
    omega
  · rw [Nat.mod_eq_sub_mod h, Nat.mod_eq_of_lt (by omega)]
    omega

/-- The pairs of readings a meter takes differences of. A failed read is
skipped, and the first reading of all is paired with itself. -/
def spans : Option Nat → List (Option Nat) → List (Nat × Nat)
  | _, [] => []
  | last, none :: rs => spans last rs
  | last, some v :: rs => (last.getD v, v) :: spans (some v) rs

/-- The differences telescope. Values are seen through `f`, and `delta` gets
back how far two values, related as successive ones are, lie apart. -/
theorem sum_spans {f : Nat → Nat} {delta : Nat → Nat → Nat} {R : Nat → Nat → Prop} (hrefl : ∀ a, R a a)
    (hdelta : ∀ a b, R a b → a + delta (f a) (f b) = b) (last : Option Nat) (vs : List (Option Nat))
    (hchain : (last :: vs).reduceOption.IsChain R) :
    (last :: vs).reduceOption.head?.getD 0 +
        ((spans (last.map f) (vs.map (Option.map f))).map fun p => delta p.1 p.2).sum =
      (last :: vs).reduceOption.getLast?.getD 0 := by
  induction vs generalizing last with
  | nil => cases last <;> simp [spans, List.reduceOption]
  | cons v vs ih =>
    cases v with
    | none =>
      rw [List.map_cons, Option.map_none, spans]
      cases last with
      | none => simpa [List.reduceOption] using ih none (by simpa [List.reduceOption] using hchain)
      | some a => simpa [List.reduceOption] using ih (some a) (by simpa [List.reduceOption] using hchain)
    | some v =>
      rw [List.map_cons, Option.map_some, spans, List.map_cons, List.sum_cons]
      cases last with
      | none =>
        have h := ih (some v) (by simpa [List.reduceOption] using hchain)
        have h0 := hdelta v v (hrefl v)
        simp only [List.reduceOption_cons_of_none, List.reduceOption_cons_of_some, List.head?_cons, Option.getD_some,
          Option.map_some, Option.map_none, Option.getD_none] at h ⊢
        omega
      | some a =>
        simp only [List.reduceOption_cons_of_some] at hchain
        have h := ih (some v) (by simpa using hchain.tail)
        have hav := hdelta a v hchain.rel
        simp only [List.reduceOption_cons_of_some, List.head?_cons, Option.getD_some, Option.map_some,
          List.getLast?_cons_cons] at h ⊢
        omega

/-- Only readings are paired. -/
theorem mem_spans {f : Nat → Nat} (last : Option Nat) {vs : List (Option Nat)} {p : Nat × Nat}
    (h : p ∈ spans (last.map f) (vs.map (Option.map f))) : ∃ a b, p = (f a, f b) := by
  induction vs generalizing last with
  | nil => cases h
  | cons v vs ih =>
    cases v with
    | none => exact ih last h
    | some v =>
      rcases List.mem_cons.1 h with rfl | h
      · cases last with
        | none => exact ⟨v, v, rfl⟩
        | some a => exact ⟨a, v, rfl⟩
      · exact ih (some v) h

/-! ## Storing zero for a failed read -/

/-- A counter at the time of a read, and whether the read succeeds. -/
structure Sample where
  value : Nat
  ok : Bool
  deriving DecidableEq

/-- What the meter stores. -/
def Sample.recorded (x : Sample) : Nat := if x.ok then x.value else 0

/-- What is charged for stored values, from a last value on. -/
def climb : Nat → List Nat → Nat
  | _, [] => 0
  | base, v :: vs => (v - base) + climb v vs

theorem climb_append (base : Nat) (vs ws : List Nat) :
    climb base (vs ++ ws) = climb base vs + climb (vs.getLast?.getD base) ws := by
  induction vs generalizing base with
  | nil => simp [climb]
  | cons v vs ih =>
    rw [List.cons_append, climb, climb, ih, List.getLast?_cons, Option.getD_some, Nat.add_assoc]

/-- Whatever is reached has been charged. -/
theorem le_climb (base : Nat) {v : Nat} {vs : List Nat} (h : v ∈ vs) : v ≤ base + climb base vs := by
  induction vs generalizing base with
  | nil => cases h
  | cons w ws ih =>
    rw [climb]
    rcases List.mem_cons.1 h with rfl | h
    · omega
    · have := ih w h
      omega

theorem climb_zeros {vs : List Nat} (h : ∀ v ∈ vs, v = 0) (base : Nat) : climb base vs = 0 := by
  induction vs generalizing base with
  | nil => rfl
  | cons v vs ih =>
    rw [climb, h v List.mem_cons_self, ih fun w hw => h w (List.mem_cons_of_mem _ hw)]
    simp

/-- The stored value a run starts from: its own first one. -/
def start (xs : List Sample) : Nat := (xs.head?.map (·.recorded)).getD 0

/-- What a run of reads is charged. -/
def charged (xs : List Sample) : Nat := climb (start xs) (xs.map (·.recorded))

/-- The counter at the first and at the last successful read. -/
def first (xs : List Sample) : Nat := ((xs.find? (·.ok)).map (·.value)).getD 0
def last (xs : List Sample) : Nat := ((xs.filter (·.ok)).getLast?.map (·.value)).getD 0

/-- When a read fails and a later one succeeds, the successful reads before
the failure read zero. -/
def NoRestart (xs : List Sample) : Prop :=
  ∀ pre x post, xs = pre ++ x :: post → x.ok = false → (∃ y ∈ post, y.ok = true) →
    ∀ y ∈ pre, y.ok = true → y.value = 0

/-- When the first read of all fails, the first successful one reads zero. -/
def FreshStart (xs : List Sample) : Prop := ∀ x, xs.head? = some x → x.ok = false → first xs = 0

theorem start_le_first (xs : List Sample) : start xs ≤ first xs := by
  cases xs with
  | nil => exact Nat.le_refl 0
  | cons x xs => cases h : x.ok <;> simp [start, first, Sample.recorded, h]

theorem charged_concat {xs : List Sample} (hne : xs ≠ []) (x : Sample) :
    charged (xs ++ [x]) = charged xs + (x.recorded - (xs.getLast hne).recorded) := by
  have hstart : start (xs ++ [x]) = start xs := by
    rw [start, start, List.head?_append_of_ne_nil _ hne]
  rw [charged, charged, hstart, List.map_append, climb_append, List.getLast?_map,
    List.getLast?_eq_some_getLast hne]
  rfl

theorem last_concat (xs : List Sample) (x : Sample) : last (xs ++ [x]) = if x.ok then x.value else last xs := by
  cases h : x.ok <;> simp [last, h]

theorem first_concat (xs : List Sample) (x : Sample) :
    first (xs ++ [x]) = if ∃ y ∈ xs, y.ok = true then first xs else if x.ok then x.value else 0 := by
  rw [first, List.find?_append]
  cases h : xs.find? (·.ok) with
  | some y =>
    have hy : ∃ y ∈ xs, y.ok = true := ⟨y, List.mem_of_find?_eq_some h, List.find?_some h⟩
    rw [if_pos hy, first, h]
    rfl
  | none =>
    have hno : ¬∃ y ∈ xs, y.ok = true := by simpa using h
    rw [if_neg hno]
    cases hx : x.ok <;> simp [hx]

theorem noRestart_of_append {xs ys : List Sample} (h : NoRestart (xs ++ ys)) : NoRestart xs := by
  rintro pre x post rfl hx ⟨y, hy, hok⟩
  exact h pre x (post ++ ys) (by simp) hx ⟨y, List.mem_append_left _ hy, hok⟩

theorem freshStart_of_append {xs ys : List Sample} (h : FreshStart (xs ++ ys)) : FreshStart xs := by
  intro x hx hok
  have hxs : xs ≠ [] := by
    rintro rfl
    cases hx
  have h0 := h x (by rwa [List.head?_append_of_ne_nil _ hxs]) hok
  rw [first, List.find?_append] at h0
  rw [first]
  cases hf : xs.find? (·.ok) with
  | none => rfl
  | some y => rwa [hf] at h0

theorem recorded_zero_of_restart {xs : List Sample} {x y : Sample} (h : NoRestart (xs ++ [x] ++ [y]))
    (hx : x.ok = false) (hy : y.ok = true) : ∀ z ∈ xs ++ [x], z.recorded = 0 := by
  have hzero := h xs x [y] (by simp) hx ⟨y, List.mem_singleton_self y, hy⟩
  intro z hz
  unfold Sample.recorded
  split
  · rename_i hok
    rcases List.mem_append.1 hz with hz | hz
    · exact hzero z hz hok
    · rw [List.mem_singleton.1 hz, hx] at hok
      cases hok
  · rfl

theorem first_zero_of_recorded {xs : List Sample} {x : Sample} (hne : xs ≠ []) (hzero : ∀ y ∈ xs, y.recorded = 0)
    (hf : FreshStart (xs ++ [x])) : first (xs ++ [x]) = 0 := by
  by_cases hsome : ∃ y ∈ xs, y.ok = true
  · rw [first_concat, if_pos hsome, first]
    cases h : xs.find? (·.ok) with
    | none => rfl
    | some y =>
      have hy := hzero y (List.mem_of_find?_eq_some h)
      have hok : y.ok = true := List.find?_some h
      rwa [Sample.recorded, if_pos hok] at hy
  · obtain ⟨z, zs, rfl⟩ := List.exists_cons_of_ne_nil hne
    refine hf z rfl ?_
    by_contra hz
    exact hsome ⟨z, List.mem_cons_self, by simpa using hz⟩

/-- Where failures do no harm, at most the growth between the first and the
last successful read is charged. -/
theorem charged_le {xs : List Sample} (hm : (xs.map (·.value)).Pairwise (· ≤ ·)) (hr : NoRestart xs)
    (hf : FreshStart xs) : first xs + charged xs ≤ last xs := by
  -- on the last read: what it adds depends on the one before it only
  induction xs using List.reverseRecOn with
  | nil => exact Nat.le_refl 0
  | append_singleton xs x ih =>
    have hm' : (xs.map (·.value)).Pairwise (· ≤ ·) := by
      rw [List.map_append] at hm
      exact (List.pairwise_append.1 hm).1
    have ih := ih hm' (noRestart_of_append hr) (freshStart_of_append hf)
    rcases List.eq_nil_or_concat' xs with rfl | ⟨ys, l, rfl⟩
    · cases hx : x.ok <;> simp [first, last, charged, start, climb, Sample.recorded, hx]
    rw [last_concat, charged_concat (by simp), List.getLast_concat]
    cases hx : x.ok with
    | false =>
      -- nothing is charged and nothing else changes
      have hfirst : first (ys ++ [l] ++ [x]) ≤ first (ys ++ [l]) := by
        rw [first_concat, hx]
        split
        · exact Nat.le_refl _
        · exact Nat.zero_le _
      simp only [Sample.recorded, hx, Bool.false_eq_true, if_false, Nat.zero_sub]
      omega
    | true =>
      have hlx : l.value ≤ x.value := by
        rw [List.map_append, List.pairwise_append] at hm
        exact hm.2.2 l.value (by simp) x.value (by simp)
      cases hl : l.ok with
      | true =>
        have hsome : ∃ y ∈ ys ++ [l], y.ok = true := ⟨l, by simp, hl⟩
        rw [last_concat, hl, if_pos rfl] at ih
        rw [first_concat, if_pos hsome]
        simp only [Sample.recorded, hx, hl, if_true]
        omega
      | false =>
        -- all was zero up to the failed read
        have hzero := recorded_zero_of_restart hr hl hx
        have hcharged : charged (ys ++ [l]) = 0 := by
          refine climb_zeros (fun v hv => ?_) _
          obtain ⟨z, hz, rfl⟩ := List.mem_map.1 hv
          exact hzero z hz
        have hfirst : first (ys ++ [l] ++ [x]) = 0 := first_zero_of_recorded (by simp) hzero hf
        rw [hcharged, hfirst]
        simp only [Sample.recorded, hx, hl, if_true, Bool.false_eq_true, if_false]
        omega

theorem mem_recorded {xs : List Sample} {x : Sample} (h : x ∈ xs) (hok : x.ok = true) :
    x.value ∈ xs.map (·.recorded) := List.mem_map.2 ⟨x, h, if_pos hok⟩

/-- A successful read after a failed one is charged in full, on top of what was
charged before. -/
theorem le_charged_of_restart {pre : List Sample} (mid : List Sample) {x y z : Sample} (hx : x.ok = false)
    (hy : y.ok = true) (hz : z ∈ pre) (hzok : z.ok = true) :
    z.value + y.value ≤ start (pre ++ x :: mid ++ [y]) + charged (pre ++ x :: mid ++ [y]) := by
  have hpre := le_climb (start (pre ++ x :: mid ++ [y])) (mem_recorded hz hzok)
  have hpost := le_climb 0 (mem_recorded (List.mem_append_right mid (List.mem_singleton_self y)) hy)
  have hsplit : charged (pre ++ x :: mid ++ [y]) =
      climb (start (pre ++ x :: mid ++ [y])) (pre.map (·.recorded)) +
        climb 0 ((mid ++ [y]).map (·.recorded)) := by
    rw [charged, List.append_assoc, List.map_append, climb_append, List.cons_append, List.map_cons, climb,
      Sample.recorded, if_neg (by simp [hx]), Nat.zero_sub, Nat.zero_add]
  omega

/-- Where no successful read is charged too much, failures did no harm. -/
theorem noRestart_of_charged_le {xs : List Sample}
    (h : ∀ pre y, pre ++ [y] <+: xs → y.ok = true → first (pre ++ [y]) + charged (pre ++ [y]) ≤ y.value) :
    NoRestart xs ∧ FreshStart xs := by
  constructor
  · rintro pre x post rfl hx ⟨y, hy, hyok⟩ z hz hzok
    obtain ⟨mid, rest, rfl⟩ := List.append_of_mem hy
    have hle := h (pre ++ x :: mid) y ⟨rest, by simp⟩ hyok
    have hge := le_charged_of_restart mid hx hyok hz hzok
    have hstart := start_le_first (pre ++ x :: mid ++ [y])
    omega
  · intro x hx hxok
    rw [first]
    cases hfind : xs.find? (·.ok) with
    | none => rfl
    | some y =>
      obtain ⟨hyok, pre, rest, rfl, hpre⟩ := List.find?_eq_some_iff_append.1 hfind
      have hno : ¬∃ z ∈ pre, z.ok = true := by
        rintro ⟨z, hz, hzok⟩
        simpa [hzok] using hpre z hz
      -- the run up to it is charged from zero
      have hle := h pre y ⟨rest, by simp⟩ hyok
      have hfirst : first (pre ++ [y]) = y.value := by rw [first_concat, if_neg hno, if_pos hyok]
      have hstart : start (pre ++ [y]) = 0 := by
        cases pre with
        | nil =>
          have hxy : y = x := by simpa using hx
          rw [hxy, hxok] at hyok
          cases hyok
        | cons z pre =>
          have hzx : z = x := by simpa using hx
          simp [start, Sample.recorded, hzx, hxok]
      have hge := le_climb (start (pre ++ [y])) (mem_recorded (List.mem_append_right pre
        (List.mem_singleton_self y)) hyok)
      rw [charged, hstart] at hle
      rw [hstart] at hge
      simp only [Option.map_some, Option.getD_some]
      omega

theorem last_le {xs : List Sample} (hm : (xs.map (·.value)).Pairwise (· ≤ ·)) :
    last xs ≤ (xs.getLast?.map (·.value)).getD 0 := by
  induction xs using List.reverseRecOn with
  | nil => exact Nat.le_refl 0
  | append_singleton xs x ih =>
    rw [last_concat, List.getLast?_concat, Option.map_some, Option.getD_some]
    rw [List.map_append, List.pairwise_append] at hm
    split
    · exact Nat.le_refl _
    · refine (ih hm.1).trans ?_
      cases h : xs.getLast? with
      | none => exact Nat.zero_le _
      | some l => exact hm.2.2 l.value (List.mem_map_of_mem (List.mem_of_getLast? h)) x.value (by simp)

/-- A meter that starts from its first reading stays within the growth between
the first and the last successful read, at every point of a run, if and only
if its failures do no harm. -/
theorem charged_le_iff {xs : List Sample} (hm : (xs.map (·.value)).Pairwise (· ≤ ·)) :
    (∀ pre, pre <+: xs → first pre + charged pre ≤ last pre) ↔ NoRestart xs ∧ FreshStart xs := by
  constructor
  · intro h
    refine noRestart_of_charged_le fun pre y hpre hy => (h _ hpre).trans ?_
    rw [last_concat, if_pos hy]
  · rintro ⟨hr, hf⟩ pre ⟨post, rfl⟩
    rw [List.map_append, List.pairwise_append] at hm
    exact charged_le hm.1 (noRestart_of_append hr) (freshStart_of_append hf)

/-- A counter that starts at zero has a first, successful, reading of zero. -/
theorem charged_cons_zero (xs : List Sample) : charged (⟨0, true⟩ :: xs) = climb 0 (xs.map (·.recorded)) := by
  simp [charged, start, Sample.recorded, climb]

theorem noRestart_cons_zero {xs : List Sample} : NoRestart (⟨0, true⟩ :: xs) ↔ NoRestart xs := by
  constructor
  · rintro h pre x post rfl hx hpost y hy hok
    exact h (⟨0, true⟩ :: pre) x post rfl hx hpost y (List.mem_cons_of_mem _ hy) hok
  · intro h pre x post hxs hx hpost y hy hok
    cases pre with
    | nil => cases hy
    | cons z pre =>
      obtain ⟨rfl, htail⟩ := List.cons.inj hxs
      rcases List.mem_cons.1 hy with rfl | hy
      · rfl
      · exact h pre x post htail hx hpost y hy hok

/-- The same for a meter of a counter that starts at zero, read or not: it
stays within the counter. -/
theorem climb_le_iff {xs : List Sample} (hm : (xs.map (·.value)).Pairwise (· ≤ ·)) :
    (∀ pre, pre <+: xs → climb 0 (pre.map (·.recorded)) ≤ (pre.getLast?.map (·.value)).getD 0) ↔ NoRestart xs := by
  constructor
  · intro h
    rw [← noRestart_cons_zero]
    refine (noRestart_of_charged_le fun pre y hpre hy => ?_).1
    cases pre with
    | nil =>
      have hy0 : y = ⟨0, true⟩ := by simpa using List.prefix_cons_iff.1 hpre
      rw [hy0]
      decide
    | cons z pre =>
      obtain ⟨rfl, htail⟩ := List.cons_prefix_cons.1 hpre
      have hle := h (pre ++ [y]) htail
      rw [List.getLast?_concat, Option.map_some, Option.getD_some] at hle
      rw [List.cons_append, charged_cons_zero]
      simpa [first] using hle
  · rintro hr pre ⟨post, rfl⟩
    rw [List.map_append, List.pairwise_append] at hm
    have hm0 : ((⟨0, true⟩ :: pre : List Sample).map (·.value)).Pairwise (· ≤ ·) := by
      rw [List.map_cons, List.pairwise_cons]
      exact ⟨fun _ _ => Nat.zero_le _, hm.1⟩
    have hle := charged_le hm0 (noRestart_cons_zero.2 (noRestart_of_append hr)) fun x hx hok => by
      obtain rfl := Option.some.inj hx
      cases hok
    rw [charged_cons_zero] at hle
    have hlast := last_le hm0
    cases pre with
    | nil => exact Nat.zero_le _
    | cons y pre =>
      rw [List.getLast?_cons_cons] at hlast
      omega

end Meter

end Keck.Lib
