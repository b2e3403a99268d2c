import Keck.Lib.Text
/-!
# Names made of parts

Programs name things by joining texts and numbers, and look them up by these
names. The parts can be read back where a separator cannot occur in them, and a
list of named things has names of its own where the parts that differ are
distinct: number by number (`nodup_numbered_iff`), slot by slot
(`map_filterMap_sublist`) and kind by kind (`nodup_flatMap_iff_of_key`).
-/
namespace Keck.Lib.Names

open Keck.Lib.Text

/-! ## Parts -/

theorem toString_injective : Function.Injective (toString : Nat → String) := by
  intro a b h
  have hdigits : Nat.toDigits 10 a = Nat.toDigits 10 b := by
    simpa only [Nat.toString_eq_repr, Nat.toList_repr] using congrArg String.toList h
  simpa using congrArg (fun ds => Nat.ofDigitChars 10 ds 0) hdigits

theorem append_left_injective (s : String) : Function.Injective (s ++ ·) := by
  intro a b h
  have hlist := congrArg String.toList h
  simp only [String.toList_append] at hlist
  exact String.toList_inj.1 (List.append_cancel_left hlist)

theorem append_right_injective (s : String) : Function.Injective (· ++ s) := by
  intro a b h
  have hlist := congrArg String.toList h
  simp only [String.toList_append] at hlist
  exact String.toList_inj.1 (List.append_cancel_right hlist)

/-- What a text is up to its first separator. -/
theorem append_colon_inj {x x' y y' : String} (hx : ':' ∉ x.toList) (hx' : ':' ∉ x'.toList)
    (h : x ++ ":" ++ y = x' ++ ":" ++ y') : x = x' ∧ y = y' := by
  have hlist := congrArg String.toList h
  simp only [String.toList_append] at hlist
  have hlist : x.toList ++ ':' :: y.toList = x'.toList ++ ':' :: y'.toList := by simpa using hlist
  have hcut := congrArg (cut ':') hlist
  rw [cut_append hx, cut_append hx', Option.some.injEq, Prod.mk.injEq] at hcut
  exact ⟨String.toList_inj.1 hcut.1, String.toList_inj.1 hcut.2⟩

theorem colon_notMem_toString (n : Nat) : ':' ∉ (toString n).toList := by
  rw [Nat.toString_eq_repr, Nat.toList_repr]
  intro h
  have := Nat.isDigit_of_mem_toDigits (by decide) (by decide) h
  cases this

/-! ## Lists of names -/

/-- Names that end in a number are distinct where the numbers are. -/
theorem nodup_numbered_iff {α : Type} {l : List α} {name : α → String} {number : α → Nat} {text : String}
    (h : ∀ a ∈ l, name a = text ++ toString (number a)) : (l.map name).Nodup ↔ (l.map number).Nodup := by
  have hmap : l.map name = (l.map number).map fun n => text ++ toString n := by
    rw [List.map_map]
    exact List.map_congr_left h
  rw [hmap]
  exact List.nodup_map_iff ((append_left_injective text).comp toString_injective)

/-- Lists of elements of different keys have no element in common. -/
theorem nodup_flatMap_iff_of_key {α κ : Type} {f : α → κ} {l : List (κ × List α)} (hkeys : (l.map Prod.fst).Nodup)
    (h : ∀ part ∈ l, ∀ a ∈ part.2, f a = part.1) : (l.flatMap Prod.snd).Nodup ↔ ∀ part ∈ l, part.2.Nodup := by
  rw [List.nodup_flatMap, and_iff_left]
  refine (List.pairwise_map.1 hkeys).imp_of_mem fun {part part'} hpart hpart' hne => ?_
  intro a ha ha'
  exact hne ((h part hpart a ha).symm.trans (h part' hpart' a ha'))

/-- Values found at slots have their slots' keys, in order. -/
theorem map_filterMap_sublist {α β κ : Type} {f : α → Option β} {key : β → κ} {g : α → κ}
    (h : ∀ a b, f a = some b → key b = g a) (l : List α) : ((l.filterMap f).map key).Sublist (l.map g) := by
  induction l with
  | nil => exact .slnil
  | cons a l ih =>
    cases hf : f a with
    | none => rw [List.filterMap_cons_none hf]; exact ih.cons _
    | some b =>
      rw [List.filterMap_cons_some hf, List.map_cons, List.map_cons, h a b hf]
      exact ih.cons_cons _

end Keck.Lib.Names
