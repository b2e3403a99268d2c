import Keck.Lib.Groups
/-!
# Loops with checked arithmetic

`add64?` is 64-bit addition that fails instead of wrapping, `div?` is division
that fails on a zero divisor. A loop over checked additions computes what the
same loop over natural numbers computes, as long as every value the latter
reaches fits: `foldlM_eq_some`, and `groupFold?_eq_some` for loops that update
the rows of a hash map.
-/
namespace Keck.Lib

/-- 64-bit addition, or nothing if it overflows. -/
def add64? (a b : Nat) : Option Nat := if a + b < 2 ^ 64 then some (a + b) else none

/-- The same as it wraps around in a release build. -/
def add64 (a b : Nat) : Nat := (a + b) % 2 ^ 64

theorem add64?_eq_some {a b : Nat} (h : a + b < 2 ^ 64) : add64? a b = some (a + b) := if_pos h

/-- Division, or nothing if the divisor is zero. -/
def div? {α : Type} [Div α] [Zero α] [DecidableEq α] (a b : α) : Option α := if b = 0 then none else some (a / b)

theorem div?_eq_some {α : Type} [Div α] [Zero α] [DecidableEq α] (a : α) {b : α} (h : b ≠ 0) :
    div? a b = some (a / b) := if_neg h

variable {α κ σ : Type} [DecidableEq κ]

/-- Bounded terms, not too many of them. -/
theorem sum_map_le_mul {f : α → Nat} {xs : List α} {n b : Nat} (hb : ∀ x ∈ xs, f x ≤ b) (hn : xs.length ≤ n) :
    (xs.map f).sum ≤ n * b := by
  have h : (xs.map f).sum ≤ (xs.map f).length • b := by
    apply List.sum_le_card_nsmul
    intro y hy
    obtain ⟨x, hx, rfl⟩ := List.mem_map.1 hy
    exact hb x hx
  rw [List.length_map, smul_eq_mul] at h
  exact h.trans (Nat.mul_le_mul_right b hn)

theorem mapM_eq_some {β : Type} {f? : α → Option β} {f : α → β} {xs : List α} (h : ∀ x ∈ xs, f? x = some (f x)) :
    xs.mapM f? = some (xs.map f) := by
  induction xs with
  | nil => rfl
  | cons x xs ih =>
    have hx : f? x = some (f x) := h x List.mem_cons_self
    have hxs : xs.mapM f? = some (xs.map f) := ih fun y hy => h y (List.mem_cons_of_mem x hy)
    rw [List.mapM_cons, hx, hxs]
    rfl

theorem bind_eq_ok {ε β : Type} {x : Except ε α} {f : α → Except ε β} {r : β} :
    x >>= f = .ok r ↔ ∃ a, x = .ok a ∧ f a = .ok r := by
  cases x <;> simp [bind, Except.bind]

theorem mapError_eq_ok {ε ε' : Type} {x : Except ε α} {g : ε → ε'} {a : α} : x.mapError g = .ok a ↔ x = .ok a := by
  cases x <;> simp [Except.mapError]

/-- A loop that may fail ends with one result for each element, or fails at one. -/
theorem mapM_eq_ok {ε β : Type} {f : α → Except ε β} {xs : List α} {ys : List β} :
    xs.mapM f = .ok ys ↔ List.Forall₂ (fun x y => f x = .ok y) xs ys := by
  induction xs generalizing ys with
  | nil =>
    rw [List.mapM_nil, List.forall₂_nil_left_iff]
    exact ⟨fun h => by cases h; rfl, fun h => by rw [h]; rfl⟩
  | cons x xs ih =>
    rw [List.mapM_cons]
    constructor
    · intro h
      cases hx : f x with
      | error e => rw [hx] at h; cases h
      | ok y =>
        cases hxs : xs.mapM f with
        | error e => rw [hx, hxs] at h; cases h
        | ok ys' =>
          rw [hx, hxs] at h
          cases h
          exact .cons hx (ih.1 hxs)
    · intro h
      cases h with
      | cons hx hrest =>
        rw [hx, ih.2 hrest]
        rfl

theorem exists_mapM_ok {ε β : Type} {f : α → Except ε β} {xs : List α} (h : ∀ x ∈ xs, ∃ y, f x = .ok y) :
    ∃ ys, xs.mapM f = .ok ys := by
  induction xs with
  | nil => exact ⟨[], rfl⟩
  | cons x xs ih =>
    obtain ⟨y, hy⟩ := h x List.mem_cons_self
    obtain ⟨ys, hys⟩ := ih fun z hz => h z (List.mem_cons_of_mem x hz)
    exact ⟨y :: ys, mapM_eq_ok.2 (.cons hy (mapM_eq_ok.1 hys))⟩

theorem map_of_mapM_ok {ε β γ : Type} {f : α → Except ε β} {g : β → γ} {h : α → γ} {xs : List α} {ys : List β}
    (hgh : ∀ x ∈ xs, ∀ y, f x = .ok y → g y = h x) (hok : xs.mapM f = .ok ys) : ys.map g = xs.map h := by
  rw [mapM_eq_ok] at hok
  induction hok with
  | nil => rfl
  | cons hx _ ih =>
    rw [List.map_cons, List.map_cons, hgh _ List.mem_cons_self _ hx,
      ih fun x hmem => hgh x (List.mem_cons_of_mem _ hmem)]

theorem foldlM_eq_some {step? : σ → α → Option σ} {step : σ → α → σ} {P : σ → Prop} {xs : List α} {s : σ}
    (hstep : ∀ s, ∀ x ∈ xs, P (step s x) → step? s x = some (step s x))
    (hfit : ∀ ys, ys <+: xs → P (ys.foldl step s)) : xs.foldlM step? s = some (xs.foldl step s) := by
  induction xs generalizing s with
  | nil => rfl
  | cons x xs ih =>
    have hx : step? s x = some (step s x) := hstep s x List.mem_cons_self (hfit [x] (by simp))
    rw [List.foldlM_cons, hx]
    apply ih
    · intro s y hy
      exact hstep s y (List.mem_cons_of_mem x hy)
    · intro ys hys
      exact hfit (x :: ys) (List.cons_prefix_cons.2 ⟨rfl, hys⟩)

/-- A loop none of whose steps fails. -/
theorem foldlM_eq_some_of_forall {step? : σ → α → Option σ} {step : σ → α → σ} {xs : List α}
    (hstep : ∀ s, ∀ x ∈ xs, step? s x = some (step s x)) (s : σ) : xs.foldlM step? s = some (xs.foldl step s) :=
  foldlM_eq_some (P := fun _ => True) (fun s x hx _ => hstep s x hx) fun _ _ => trivial

section Groups
variable (key : α → κ) (init : α → σ) (upd? : σ → α → Option σ)

/-- One round of the row loop, with an update that may fail. -/
def groupStep? (m : Table κ σ) (x : α) : Option (Table κ σ) :=
  (upd? ((m.lookup (key x)).getD (init x)) x).map (m.insert (key x))

def groupFold? (xs : List α) : Option (Table κ σ) := xs.foldlM (groupStep? key init upd?) ∅

variable {key init upd?}

theorem groupFold?_eq_some {upd : σ → α → σ} {P : σ → Prop}
    (hupd : ∀ s x, P (upd s x) → upd? s x = some (upd s x)) {xs : List α}
    (hfit : ∀ ys, ys <+: xs → ∀ k s, (groupFold key init upd ys).lookup k = some s → P s) :
    groupFold? key init upd? xs = some (groupFold key init upd xs) := by
  refine foldlM_eq_some (P := fun m => ∀ k s, m.lookup k = some s → P s) ?_ hfit
  intro m x _ h
  have hrow : P (upd ((m.lookup (key x)).getD (init x)) x) := by
    apply h (key x)
    rw [groupStep, AList.lookup_insert_if, if_pos rfl]
  rw [groupStep?, hupd _ _ hrow]
  rfl

end Groups

end Keck.Lib
