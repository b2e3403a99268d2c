import Mathlib
/-!
# Handing over a sampled counter

A counter that never decreases is read from time to time, and asked for at
other times; each request gets the difference of the two latest readings. The
requests together get the counter's increase, from the reading before the first
request's window to the last reading before the last request, if every reading
in between is followed by exactly one request (`Sampler.inv_call`).
-/
namespace Keck.Lib.Sampling

/-- The readings so far, how many there were at the first and at the last
request, and what the requests got together. -/
structure Sampler where
  readings : List Nat := []
  firstCall : Option Nat := none
  lastCall : Option Nat := none
  handed : Nat := 0
  deriving DecidableEq

/-- The `n`-th of the readings, counted from one. -/
def nth (rs : List Nat) : Nat → Nat
  | 0 => 0
  | n + 1 => rs[n]?.getD 0

theorem nth_zero (rs : List Nat) : nth rs 0 = 0 := rfl

theorem nth_succ (rs : List Nat) (n : Nat) : nth rs (n + 1) = rs[n]?.getD 0 := rfl

theorem nth_append {rs : List Nat} {n : Nat} (h : n ≤ rs.length) (v : Nat) : nth (rs ++ [v]) n = nth rs n := by
  cases n with
  | zero => rfl
  | succ n =>
    have hn : n < rs.length := by omega
    rw [nth_succ, nth_succ, List.getElem?_append_left hn]

theorem nth_le_nth {rs : List Nat} (hm : rs.Pairwise (· ≤ ·)) {m n : Nat} (hmn : m ≤ n) (hn : n ≤ rs.length) :
    nth rs m ≤ nth rs n := by
  rcases Nat.eq_zero_or_pos m with rfl | hpos
  · exact Nat.zero_le _
  obtain ⟨m, rfl⟩ := Nat.exists_eq_succ_of_ne_zero hpos.ne'
  obtain ⟨n, rfl⟩ := Nat.exists_eq_succ_of_ne_zero (show n ≠ 0 by omega)
  have hm' : m < rs.length := by omega
  have hn' : n < rs.length := by omega
  rw [nth_succ, nth_succ, List.getElem?_eq_getElem hm', List.getElem?_eq_getElem hn', Option.getD_some,
    Option.getD_some]
  rcases Nat.eq_or_lt_of_le (Nat.le_of_succ_le_succ hmn) with rfl | hlt
  · exact le_refl _
  · exact List.pairwise_iff_getElem.1 hm m n hm' hn' hlt

namespace Sampler

def read (s : Sampler) (v : Nat) : Sampler := { s with readings := s.readings ++ [v] }

/-- A request that gets `amount`. -/
def call (s : Sampler) (amount : Nat) : Sampler :=
  { s with
    firstCall := s.firstCall.or (some s.readings.length)
    lastCall := some s.readings.length
    handed := s.handed + amount }

/-- What the two latest readings differ by. -/
def delta (s : Sampler) : Nat :=
  if s.readings.length < 2 then 0 else nth s.readings s.readings.length - nth s.readings (s.readings.length - 1)

/-- A request comes in time: it is the first, or there are no two readings yet,
or exactly one difference is new since the last request. -/
def Paced (s : Sampler) : Prop :=
  s.lastCall = none ∨ s.readings.length < 2 ∨ ∃ n, s.lastCall = some n ∧ s.readings.length = max n 1 + 1

/-- The requests got the increase from the reading before the first request's
window to the last reading before the last request. If there was no reading
before that window, it is the first reading of all. -/
def ExactlyOnce (s : Sampler) : Prop :=
  ∀ a b, s.firstCall = some a → s.lastCall = some b →
    s.handed = nth s.readings b - nth s.readings (max (a - 1) 1)

/-- What a run keeps. -/
structure Inv (s : Sampler) : Prop where
  first : ∀ b, s.lastCall = some b → ∃ a, s.firstCall = some a ∧ a ≤ b ∧ b ≤ s.readings.length
  fresh : s.lastCall = none → s.firstCall = none ∧ s.handed = 0
  once : s.ExactlyOnce

theorem inv_new : Inv {} := ⟨nofun, fun _ => ⟨rfl, rfl⟩, nofun⟩

theorem inv_read {s : Sampler} (h : s.Inv) (v : Nat) : (s.read v).Inv where
  first := by
    intro b hb
    obtain ⟨a, ha, hab, hbn⟩ := h.first b hb
    refine ⟨a, ha, hab, ?_⟩
    simp only [read, List.length_append, List.length_singleton]
    omega
  fresh := h.fresh
  once := by
    intro a b ha hb
    obtain ⟨a', ha', hab, hbn⟩ := h.first b hb
    have haa : a = a' := Option.some.inj (ha.symm.trans ha')
    subst haa
    have honce := h.once a b ha hb
    simp only [read] at honce ⊢
    rw [honce, nth_append hbn]
    by_cases hbase : max (a - 1) 1 ≤ s.readings.length
    · rw [nth_append hbase]
    · -- No reading yet: the last request was before any, and got nothing.
      have hb0 : b = 0 := by omega
      subst hb0
      simp only [nth]
      omega

/-- The first request gets its window. -/
theorem delta_eq (s : Sampler) :
    s.delta = nth s.readings s.readings.length - nth s.readings (max (s.readings.length - 1) 1) := by
  unfold delta
  split
  · rcases Nat.lt_or_ge s.readings.length 1 with h | h
    · rw [show s.readings.length = 0 by omega, nth_zero, Nat.zero_sub]
    · rw [show s.readings.length = 1 by omega]
      exact (Nat.sub_self _).symm
  · rw [show max (s.readings.length - 1) 1 = s.readings.length - 1 by omega]

/-- The difference, read off the end of the list. -/
theorem delta_concat {rs : List Nat} {s : Sampler} {p l : Nat} (h : s.readings = rs ++ [p] ++ [l]) :
    s.delta = l - p := by
  unfold delta
  have hlen : s.readings.length = rs.length + 1 + 1 := by rw [h]; simp
  rw [if_neg (by omega), hlen, Nat.add_sub_cancel, nth_succ, nth_succ, h]
  simp

theorem delta_short {s : Sampler} (h : s.readings.length < 2) : s.delta = 0 := if_pos h

/-- A later request that comes in time continues where the last one stopped. -/
theorem add_delta {s : Sampler} (hm : s.readings.Pairwise (· ≤ ·)) {a n : Nat} (han : a ≤ n)
    (hn : n ≤ s.readings.length) (hp : s.readings.length < 2 ∨ s.readings.length = max n 1 + 1) :
    nth s.readings n - nth s.readings (max (a - 1) 1) + s.delta =
      nth s.readings s.readings.length - nth s.readings (max (a - 1) 1) := by
  rw [delta_eq]
  rcases hp with hp | hp
  · -- Fewer than two readings: all three differences are zero.
    have h1 := nth_le_nth hm hn (le_refl _)
    have h0 := nth_zero s.readings
    rw [show max (a - 1) 1 = 1 by omega, show max (s.readings.length - 1) 1 = 1 by omega]
    rcases Nat.lt_or_ge s.readings.length 1 with h | h
    · rw [show s.readings.length = 0 by omega] at h1 ⊢
      omega
    · rw [show s.readings.length = 1 by omega] at h1 ⊢
      omega
  · have h1 := nth_le_nth hm (m := max n 1) (n := s.readings.length) (by omega) (le_refl _)
    have h2 := nth_le_nth hm (m := max (a - 1) 1) (n := max n 1) (by omega) (by omega)
    rw [show max (s.readings.length - 1) 1 = max n 1 by omega]
    rcases Nat.eq_zero_or_pos n with h | h
    · subst h
      rw [show max (a - 1) 1 = 1 by omega, nth_zero, Nat.zero_sub, Nat.zero_add]
      rfl
    · rw [show max n 1 = n by omega] at h1 h2 ⊢
      omega

theorem inv_call {s : Sampler} (h : s.Inv) (hm : s.readings.Pairwise (· ≤ ·)) (hp : s.Paced) :
    (s.call s.delta).Inv where
  first := by
    intro b hb
    have hb : b = s.readings.length := (Option.some.inj hb).symm
    subst hb
    cases hl : s.lastCall with
    | none =>
      refine ⟨s.readings.length, ?_, le_refl _, le_refl _⟩
      simp only [call, (h.fresh hl).1, Option.none_or]
    | some n =>
      obtain ⟨a, ha, han, hn⟩ := h.first n hl
      refine ⟨a, ?_, han.trans hn, le_refl _⟩
      simp only [call, ha, Option.some_or]
  fresh := nofun
  once := by
    intro a b ha hb
    have hb : b = s.readings.length := (Option.some.inj hb).symm
    subst hb
    simp only [call] at ha ⊢
    cases hl : s.lastCall with
    | none =>
      obtain ⟨hfirst, hzero⟩ := h.fresh hl
      rw [hfirst, Option.none_or, Option.some.injEq] at ha
      subst ha
      rw [hzero, Nat.zero_add]
      exact s.delta_eq
    | some n =>
      obtain ⟨a', ha', han, hn⟩ := h.first n hl
      rw [ha', Option.some_or, Option.some.injEq] at ha
      subst ha
      rw [h.once _ n ha' hl]
      apply add_delta hm han hn
      rcases hp with hp | hp | ⟨n', hn', hlen⟩
      · rw [hl] at hp
        cases hp
      · exact .inl hp
      · rw [hl, Option.some.injEq] at hn'
        subst hn'
        exact .inr hlen

end Sampler

end Keck.Lib.Sampling
