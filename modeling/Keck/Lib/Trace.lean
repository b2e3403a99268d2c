import Mathlib
/-!
# Traces over cells

Events of a trace belong to cells (the CPU that ran them, the core they
name). What a handler with one state record per cell accumulates is a sum over
the consecutive pairs of each cell's events: `pairSum`. `last_concat`,
`pairSum_concat` and `linked_concat` say what one more event changes, for
inductions from the end of a trace.
-/
namespace Keck.Lib.Trace

variable {α κ M : Type}

/-- An event of a trace with one more event is that event, or was there
before. -/
theorem concat_eq_split {l pre post : List α} {e a : α} (h : l ++ [e] = pre ++ a :: post) :
    (post = [] ∧ pre = l ∧ a = e) ∨ ∃ post', post = post' ++ [e] ∧ l = pre ++ a :: post' := by
  rcases List.eq_nil_or_concat post with rfl | ⟨post', e', rfl⟩
  · obtain ⟨rfl, he⟩ := List.append_inj' h rfl
    exact .inl ⟨rfl, rfl, (List.singleton_inj.1 he).symm⟩
  · rw [List.concat_eq_append, ← List.cons_append, ← List.append_assoc] at h
    obtain ⟨hl, he⟩ := List.append_inj' h rfl
    exact .inr ⟨post', by rw [List.concat_eq_append, List.singleton_inj.1 he], hl⟩

/-- There is one last event of a kind. -/
theorem last_split_unique {P : α → Prop} {pre post pre' post' : List α} {a a' : α}
    (h : pre ++ a :: post = pre' ++ a' :: post') (ha : P a) (ha' : P a') (hpost : ∀ x ∈ post, ¬P x)
    (hpost' : ∀ x ∈ post', ¬P x) : pre = pre' ∧ a = a' ∧ post = post' := by
  rcases List.append_eq_append_iff.1 h with ⟨mid, rfl, hmid⟩ | ⟨mid, rfl, hmid⟩
  · cases mid with
    | nil => simpa using hmid
    | cons b mid =>
      rw [List.cons_append, List.cons.injEq] at hmid
      exact absurd ha' (hpost a' (by simp [hmid.2]))
  · cases mid with
    | nil => simpa [eq_comm] using hmid
    | cons b mid =>
      rw [List.cons_append, List.cons.injEq] at hmid
      exact absurd ha (hpost' a (by simp [hmid.2]))

/-- In a list without repetition, what comes after `a` is what follows it. -/
theorem pair_sublist_iff {pre post : List α} {a b : α} (h : (pre ++ a :: post).Nodup) :
    [a, b].Sublist (pre ++ a :: post) ↔ b ∈ post := by
  constructor
  · intro hs
    have hpre : a ∉ pre := fun ha => (List.nodup_append.1 h).2.2 a ha a List.mem_cons_self rfl
    have hpost : a ∉ post := (List.nodup_cons.1 (List.nodup_append.1 h).2.1).1
    induction pre with
    | nil =>
      rcases List.sublist_cons_iff.1 hs with hs | ⟨r, hr, hs⟩
      · exact absurd (hs.subset List.mem_cons_self) hpost
      · cases hr
        exact List.singleton_sublist.1 hs
    | cons c pre ih =>
      rw [List.cons_append] at h hs
      rcases List.sublist_cons_iff.1 hs with hs | ⟨r, hr, -⟩
      · exact ih (List.nodup_cons.1 h).2 hs fun ha => hpre (List.mem_cons_of_mem c ha)
      · cases hr
        exact absurd List.mem_cons_self hpre
  · intro hb
    exact ((List.singleton_sublist.2 hb).cons_cons a).trans (List.sublist_append_right pre _)

/-- Of two elements one comes after the other. -/
theorem pair_sublist_or {l : List α} {a b : α} (ha : a ∈ l) (hb : b ∈ l) (hne : a ≠ b) :
    [a, b].Sublist l ∨ [b, a].Sublist l := by
  obtain ⟨pre, post, rfl⟩ := List.append_of_mem ha
  rcases List.mem_append.1 hb with hb | hb
  · exact .inr ((List.singleton_sublist.2 hb).append (List.singleton_sublist.2 List.mem_cons_self))
  · rcases List.mem_cons.1 hb with rfl | hb
    · exact absurd rfl hne
    · exact .inl (((List.singleton_sublist.2 hb).cons_cons a).trans (List.sublist_append_right pre _))

/-- Each element with the next one. -/
def pairs (l : List α) : List (α × α) := l.zip l.tail

theorem pairs_concat (l : List α) (e : α) :
    pairs (l ++ [e]) = pairs l ++ (l.getLast?.map fun a => (a, e)).toList := by
  induction l with
  | nil => rfl
  | cons a l ih =>
    cases l with
    | nil => rfl
    | cons b l =>
      have h : pairs (a :: b :: l ++ [e]) = (a, b) :: pairs (b :: l ++ [e]) := rfl
      rw [h, ih, List.getLast?_cons_cons]
      rfl

variable [DecidableEq κ] (cell : α → κ)

/-- The events of cell `c`. -/
def on (c : κ) (l : List α) : List α := l.filter fun e => cell e = c

/-- The last event of cell `c`. -/
def last (c : κ) (l : List α) : Option α := (on cell c l).getLast?

/-- The sum of `f` over the consecutive events of cell `c`. -/
def pairSum [AddCommMonoid M] (f : α → α → M) (c : κ) (l : List α) : M :=
  ((pairs (on cell c l)).map fun p => f p.1 p.2).sum

/-- Consecutive events of a cell are related by `R`. -/
def Linked (R : α → α → Prop) (l : List α) : Prop := ∀ c, ∀ p ∈ pairs (on cell c l), R p.1 p.2

theorem on_concat (c : κ) (l : List α) (e : α) :
    on cell c (l ++ [e]) = if cell e = c then on cell c l ++ [e] else on cell c l := by
  rw [on, List.filter_append]
  split <;> simp [on, *]

theorem last_concat (c : κ) (l : List α) (e : α) :
    last cell c (l ++ [e]) = if cell e = c then some e else last cell c l := by
  rw [last, on_concat]
  split
  · exact List.getLast?_concat
  · rfl

theorem pairSum_concat [AddCommMonoid M] (f : α → α → M) (c : κ) (l : List α) (e : α) :
    pairSum cell f c (l ++ [e]) =
      pairSum cell f c l + if cell e = c then (last cell c l).elim 0 (f · e) else 0 := by
  rw [pairSum, on_concat]
  split
  · rw [pairs_concat, List.map_append, List.sum_append, pairSum, last]
    cases (on cell c l).getLast? <;> simp
  · rw [add_zero, pairSum]

theorem linked_concat (R : α → α → Prop) (l : List α) (e : α) :
    Linked cell R (l ++ [e]) ↔ Linked cell R l ∧ ∀ a, last cell (cell e) l = some a → R a e := by
  constructor
  · intro h
    refine ⟨fun c p hp => h c p ?_, fun a ha => h (cell e) (a, e) ?_⟩
    · rw [on_concat]
      split
      · rw [pairs_concat]; exact List.mem_append_left _ hp
      · exact hp
    · rw [on_concat, if_pos rfl, pairs_concat]
      have : (on cell (cell e) l).getLast? = some a := ha
      simp [this]
  · rintro ⟨hl, he⟩ c p hp
    rw [on_concat] at hp
    split at hp
    · rename_i hc
      subst hc
      rw [pairs_concat] at hp
      rcases List.mem_append.1 hp with hp | hp
      · exact hl _ p hp
      · obtain ⟨a, ha, rfl⟩ : ∃ a, (on cell (cell e) l).getLast? = some a ∧ (a, e) = p := by simpa using hp
        exact he a ha
    · exact hl c p hp

theorem mem_pairs_on {c : κ} {l : List α} {p : α × α} (h : p ∈ pairs (on cell c l)) :
    (p.1 ∈ l ∧ cell p.1 = c) ∧ p.2 ∈ l ∧ cell p.2 = c := by
  have h1 := List.mem_filter.1 (List.of_mem_zip h).1
  have h2 := List.mem_filter.1 (List.mem_of_mem_tail (List.of_mem_zip h).2)
  simp only [decide_eq_true_eq] at h1 h2
  exact ⟨h1, h2⟩

/-- Two pair sums whose summands agree on the cell's consecutive events. -/
theorem pairSum_congr [AddCommMonoid M] {f g : α → α → M} {c : κ} {l : List α}
    (h : ∀ p ∈ pairs (on cell c l), f p.1 p.2 = g p.1 p.2) : pairSum cell f c l = pairSum cell g c l :=
  congrArg List.sum (List.map_congr_left h)

theorem linked_iff (R : α → α → Prop) (l : List α) :
    Linked cell R l ↔ ∀ c ∈ l.map cell, ∀ p ∈ pairs (on cell c l), R p.1 p.2 := by
  refine ⟨fun h c _ => h c, fun h c p hp => ?_⟩
  obtain ⟨⟨hm, hc⟩, -⟩ := mem_pairs_on cell hp
  exact h c (List.mem_map.2 ⟨p.1, hm, hc⟩) p hp

instance (R : α → α → Prop) [∀ a b, Decidable (R a b)] (l : List α) : Decidable (Linked cell R l) :=
  decidable_of_iff _ (linked_iff cell R l).symm

end Keck.Lib.Trace
