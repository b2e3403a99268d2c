import Keck.Lib.Trace
/-!
# Stores driven by a log

A store that events write to key by key: an event either writes a key or
decides, from the key and the stored value alone, whether the value stays.
`LogStore.get_run_iff`: what such a store holds after any log is the last
write to the key, provided every later event keeps it. Nothing else about the
history matters.
-/
namespace Keck.Lib

/-- A store with states `S`, events `E` and the value at each key. Event `e`
puts `writes e k` at key `k` if it writes there, and otherwise keeps the value
`v` there when `keeps e k v`. -/
structure LogStore (E S κ ν : Type) where
  init : S
  step : S → E → S
  get : S → κ → Option ν
  writes : E → κ → Option ν
  keeps : E → κ → ν → Bool
  get_init : ∀ k, get init k = none
  get_step : ∀ s e k, get (step s e) k = (writes e k).or ((get s k).filter (keeps e k))

namespace LogStore
variable {E S κ ν : Type} (L : LogStore E S κ ν)

/-- The state after a log. -/
def run (es : List E) : S := es.foldl L.step L.init

/-- `v` was written at `k` and no later event wrote there or dropped it. -/
def Last (es : List E) (k : κ) (v : ν) : Prop :=
  ∃ pre e post, es = pre ++ e :: post ∧ L.writes e k = some v ∧
    ∀ e' ∈ post, L.writes e' k = none ∧ L.keeps e' k v = true

/-- The last write survives one more event unless that event drops it, and a
writing event makes its own write the last. -/
theorem last_append {es : List E} {e : E} {k : κ} {v : ν} :
    L.Last (es ++ [e]) k v ↔
      L.writes e k = some v ∨ (L.writes e k = none ∧ L.keeps e k v = true ∧ L.Last es k v) := by
  constructor
  · rintro ⟨pre, e', post, he, hw, hp⟩
    rcases Trace.concat_eq_split he with ⟨rfl, rfl, rfl⟩ | ⟨post', rfl, rfl⟩
    · exact .inl hw
    · obtain ⟨h1, h2⟩ := hp e (by simp)
      exact .inr ⟨h1, h2, pre, e', post', rfl, hw, fun x hx => hp x (by simp [hx])⟩
  · rintro (hw | ⟨hw, hk, pre, e', post, rfl, hw', hp⟩)
    · exact ⟨es, e, [], rfl, hw, by simp⟩
    · refine ⟨pre, e', post ++ [e], by simp, hw', fun x hx => ?_⟩
      rcases List.mem_append.1 hx with hx | hx
      · exact hp x hx
      · rw [List.mem_singleton] at hx; subst hx; exact ⟨hw, hk⟩

/-- After any log from any state, a key holds exactly its last write, if every
later event kept it, or what it held before, if every event kept that. -/
theorem get_foldl_iff (s : S) (es : List E) (k : κ) (v : ν) :
    L.get (es.foldl L.step s) k = some v ↔
      L.Last es k v ∨ (L.get s k = some v ∧ ∀ e ∈ es, L.writes e k = none ∧ L.keeps e k v = true) := by
  induction es using List.reverseRecOn with
  | nil => simp [Last]
  | append_singleton es e ih =>
    have hget : L.get ((es ++ [e]).foldl L.step s) k =
        (L.writes e k).or ((L.get (es.foldl L.step s) k).filter (L.keeps e k)) := by
      rw [List.foldl_append]
      exact L.get_step _ e k
    have hall : (∀ e' ∈ es ++ [e], L.writes e' k = none ∧ L.keeps e' k v = true) ↔
        (∀ e' ∈ es, L.writes e' k = none ∧ L.keeps e' k v = true) ∧ L.writes e k = none ∧ L.keeps e k v = true := by
      simp only [List.mem_append, List.mem_singleton, or_imp, forall_and, forall_eq]
      tauto
    rw [hget, last_append, hall]
    cases hw : L.writes e k with
    | some w => simp
    | none =>
      simp only [Option.none_or, Option.filter_eq_some_iff, ih, reduceCtorEq, false_or, true_and]
      tauto

/-- A key that no event writes holds what it held before, if every event kept
that. -/
theorem get_foldl_of_not_written {es : List E} {k : κ} (h : ∀ e ∈ es, L.writes e k = none) (s : S) (v : ν) :
    L.get (es.foldl L.step s) k = some v ↔ L.get s k = some v ∧ ∀ e ∈ es, L.keeps e k v = true := by
  rw [L.get_foldl_iff, or_iff_right]
  · exact and_congr_right' (forall₂_congr fun e he => and_iff_right (h e he))
  · rintro ⟨pre, e, post, rfl, hw, -⟩
    rw [h e (List.mem_append_right _ List.mem_cons_self)] at hw
    cases hw

/-- After any log, a key holds exactly its last write, if every later event
kept it. -/
theorem get_run_iff (es : List E) (k : κ) (v : ν) : L.get (L.run es) k = some v ↔ L.Last es k v := by
  rw [run, L.get_foldl_iff, L.get_init]
  simp

/-- A log without some events that do not write a key holds at that key what
the whole log holds, and what only those events dropped. The events among them
before a write are to be such that they would have kept it. -/
theorem get_run_filter_iff (p : E → Bool) {es : List E} {k : κ}
    (hwrites : ∀ e ∈ es, p e = false → L.writes e k = none)
    (hearlier : ∀ pre e post v, es = pre ++ e :: post → L.writes e k = some v →
      ∀ e' ∈ pre, p e' = false → L.keeps e' k v = true) (v : ν) :
    L.get (L.run es) k = some v ↔
      L.get (L.run (es.filter p)) k = some v ∧ ∀ e ∈ es, p e = false → L.keeps e k v = true := by
  rw [get_run_iff, get_run_iff]
  constructor
  · rintro ⟨pre, e, post, he, hw, hpost⟩
    have hpe : p e = true := by
      by_contra hpe
      rw [hwrites e (by simp [he]) (by simpa using hpe)] at hw
      cases hw
    refine ⟨⟨pre.filter p, e, post.filter p, by simp [he, hpe], hw,
      fun e' h => hpost e' (List.mem_filter.1 h).1⟩, fun e' h hp => ?_⟩
    rw [he, List.mem_append, List.mem_cons] at h
    rcases h with h | rfl | h
    · exact hearlier pre e post v he hw e' h hp
    · rw [hpe] at hp
      cases hp
    · exact (hpost e' h).2
  · rintro ⟨⟨pre, e, post, he, hw, hpost⟩, hothers⟩
    obtain ⟨es₁, es₂, rfl, rfl, hes₂⟩ := List.filter_eq_append_iff.1 he
    obtain ⟨es₃, es₄, rfl, hes₃, hpe, rfl⟩ := List.filter_eq_cons_iff.1 hes₂
    refine ⟨es₁ ++ es₃, e, es₄, by simp, hw, fun e' h => ?_⟩
    cases hp : p e' with
    | true => exact hpost e' (List.mem_filter.2 ⟨h, hp⟩)
    | false => exact ⟨hwrites e' (by simp [h]) hp, hothers e' (by simp [h]) hp⟩

end LogStore

end Keck.Lib
