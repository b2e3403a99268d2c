import Mathlib
/-!
# Queues

A ring buffer that drops its oldest entry when it is full, so that it holds the
newest of what was pushed (`foldl_pushRing`), and a sender's outbox: batches are
taken from a queue, then acknowledged or put back in front. Whatever is sent,
acknowledged, on its way or still queued is, in this order, what was pushed
(`Delivery.log_run`).
-/
namespace Keck.Lib

variable {α : Type}

/-- Append to a ring of the given capacity; the oldest entry goes if it is full. -/
def pushRing (cap : Nat) (ring : List α) (x : α) : List α := (if ring.length ≥ cap then ring.tail else ring) ++ [x]

theorem length_pushRing_le {cap : Nat} {ring : List α} (h : ring.length ≤ max cap 1) (x : α) :
    (pushRing cap ring x).length ≤ max cap 1 := by
  unfold pushRing
  split
  · rw [List.length_append, List.length_tail, List.length_singleton]
    omega
  · rw [List.length_append, List.length_singleton]
    omega

theorem length_foldl_pushRing_le {cap : Nat} (xs : List α) {ring : List α} (h : ring.length ≤ max cap 1) :
    (xs.foldl (pushRing cap) ring).length ≤ max cap 1 := by
  induction xs generalizing ring with
  | nil => exact h
  | cons x xs ih => exact ih (length_pushRing_le h x)

theorem pushRing_rtake {cap : Nat} (hcap : 0 < cap) (xs : List α) (x : α) :
    pushRing cap (xs.rtake cap) x = (xs ++ [x]).rtake cap := by
  obtain ⟨c, rfl⟩ := Nat.exists_eq_add_one_of_ne_zero hcap.ne'
  rw [List.rtake_concat_succ, pushRing]
  congr 1
  unfold List.rtake
  split
  · rename_i hfull
    rw [List.length_drop] at hfull
    rw [List.tail_drop]
    congr 1
    omega
  · rename_i hroom
    rw [List.length_drop] at hroom
    congr 1
    omega

/-- A ring holds the newest of what was pushed into it. -/
theorem foldl_pushRing {cap : Nat} (hcap : 0 < cap) (xs : List α) :
    xs.foldl (pushRing cap) [] = xs.rtake cap := by
  induction xs using List.reverseRecOn with
  | nil => simp
  | append_singleton xs x ih => rw [List.foldl_append, ih, List.foldl_cons, List.foldl_nil, pushRing_rtake hcap]

/-- Where nothing passes after something that does not, a scan that stops at
the first failure finds all that pass. -/
theorem takeWhile_eq_filter {p : α → Bool} {xs : List α} (h : xs.Pairwise fun a b => p b = true → p a = true) :
    xs.takeWhile p = xs.filter p := by
  induction xs with
  | nil => rfl
  | cons x xs ih =>
    obtain ⟨hx, hxs⟩ := List.pairwise_cons.1 h
    by_cases hp : p x = true
    · rw [List.takeWhile_cons_of_pos hp, List.filter_cons_of_pos hp, ih hxs]
    · have hnone : xs.filter p = [] := List.filter_eq_nil_iff.2 fun y hy hpy => hp (hx y hy hpy)
      rw [List.takeWhile_cons_of_neg hp, List.filter_cons_of_neg hp, hnone]

/-- The newest entries of a list whose times do not decrease come first in a
scan from its end, so the scan may stop at the first old one. -/
theorem scan_eq_filter (time : α → Nat) {xs : List α} (h : (xs.map time).Pairwise (· ≤ ·)) (cap since : Nat) :
    ((xs.rtake cap).reverse.takeWhile fun x => decide (time x ≥ since)) =
      (xs.rtake cap).reverse.filter fun x => decide (time x ≥ since) := by
  apply takeWhile_eq_filter
  rw [List.pairwise_reverse]
  have hring : (xs.rtake cap).Pairwise fun a b => time a ≤ time b :=
    (List.pairwise_map.1 h).sublist (List.drop_sublist _ _)
  refine hring.imp fun {a b} hab ha => ?_
  simp only [decide_eq_true_eq] at ha ⊢
  omega

theorem rtake_min (xs : List α) (n : Nat) : xs.rtake (min xs.length n) = xs.rtake n := by
  unfold List.rtake
  congr 1
  omega

/-- A sender: the batches acknowledged so far, the batch on its way, the queue. -/
structure Delivery (α : Type) where
  acked : List (List α) := []
  inFlight : Option (List α) := none
  queue : List α := []

namespace Delivery

/-- Everything the sender still knows of, oldest first. -/
def log (d : Delivery α) : List α := d.acked.flatten ++ d.inFlight.getD [] ++ d.queue

/-- One operation, with what it pushes. At most one batch is on its way. -/
inductive Step : Delivery α → List α → Delivery α → Prop
  | push (d : Delivery α) (xs : List α) : Step d xs { d with queue := d.queue ++ xs }
  | drain (d : Delivery α) : d.inFlight = none → Step d [] { d with inFlight := some d.queue, queue := [] }
  | ack (d : Delivery α) (b : List α) : d.inFlight = some b →
      Step d [] { d with acked := d.acked ++ [b], inFlight := none }
  | requeue (d : Delivery α) (b : List α) : d.inFlight = some b →
      Step d [] { d with inFlight := none, queue := b ++ d.queue }

/-- A run, with everything it pushes. -/
inductive Run : Delivery α → List α → Delivery α → Prop
  | refl (d : Delivery α) : Run d [] d
  | step {d₁ d₂ d₃ : Delivery α} {xs ys : List α} : Run d₁ xs d₂ → Step d₂ ys d₃ → Run d₁ (xs ++ ys) d₃

theorem log_step {d d' : Delivery α} {xs : List α} (h : Step d xs d') : d'.log = d.log ++ xs := by
  unfold log
  cases h with
  | push => simp
  | drain h => simp [h]
  | ack b h => simp [h]
  | requeue b h => simp [h]

theorem log_run {d d' : Delivery α} {xs : List α} (h : Run d xs d') : d'.log = d.log ++ xs := by
  induction h with
  | refl => rw [List.append_nil]
  | step _ hstep ih => rw [log_step hstep, ih, List.append_assoc]

end Delivery

end Keck.Lib
