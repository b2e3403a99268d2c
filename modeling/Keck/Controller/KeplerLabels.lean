import Keck.Controller.KeplerText
/-!
# Lists of labels

`parse_labels` takes one label off the text in each round. `LabelsRun` is a run
of its loop to the end: every text has one, of at most as many rounds as it has
characters, and it ends with the labels that `parseLabels` returns
(`exists_labelsRun`). On a rendered list of labels the rounds are the labels
(`labelsRun_itemsText`), so that a name comes back with the last value listed
for it. Nothing is asked of a value but that it holds no quote.
-/
namespace Keck.Controller

open Keck.Lib Keck.Lib.Text

/-! ## Runs of the loop -/

/-- The loop on a text, with the labels so far, its number of rounds and what it returns. -/
inductive LabelsRun : Nat → List Char → Table String String → Table String String → Prop
  | stop {s m} : labelsRound s m = none → LabelsRun 0 s m m
  | round {n s m s' m' r} : labelsRound s m = some (s', m') → LabelsRun n s' m' r → LabelsRun (n + 1) s m r

theorem LabelsRun.parseLabelsLoop_eq {n : Nat} {s : List Char} {m r : Table String String} (h : LabelsRun n s m r)
    {fuel : Nat} (hfuel : s.length ≤ fuel) : parseLabelsLoop fuel s m = r := by
  induction h generalizing fuel with
  | stop hnone =>
    cases fuel with
    | zero => rfl
    | succ fuel => rw [parseLabelsLoop_succ, hnone]
  | round hround _ ih =>
    have hlt := length_labelsRound hround
    cases fuel with
    | zero => omega
    | succ fuel =>
      rw [parseLabelsLoop_succ, hround]
      exact ih (by omega)

/-- The loop ends on every text, and each run of it returns the same. -/
theorem exists_labelsRun (s : List Char) (m : Table String String) :
    ∃ n ≤ s.length, LabelsRun n s m (parseLabelsLoop s.length s m) := by
  suffices h : ∃ n ≤ s.length, ∃ r, LabelsRun n s m r by
    obtain ⟨n, hn, r, hrun⟩ := h
    exact ⟨n, hn, (hrun.parseLabelsLoop_eq le_rfl).symm ▸ hrun⟩
  induction hlen : s.length using Nat.strong_induction_on generalizing s m with
  | _ len ih =>
    subst hlen
    cases hround : labelsRound s m with
    | none => exact ⟨0, Nat.zero_le _, m, .stop hround⟩
    | some next =>
      have hlt := length_labelsRound hround
      obtain ⟨n, hn, r, hrun⟩ := ih next.1.length hlt next.1 next.2 rfl
      exact ⟨n + 1, by omega, r, .round hround hrun⟩

/-- Whatever the text, a value that is read holds no quote. -/
theorem quote_notMem_parseLabelsLoop {fuel : Nat} {s : List Char} {m : Table String String}
    (hm : ∀ k v, m.lookup k = some v → '"' ∉ v.toList) {k v : String}
    (h : (parseLabelsLoop fuel s m).lookup k = some v) : '"' ∉ v.toList := by
  induction fuel generalizing s m with
  | zero => exact hm k v h
  | succ fuel ih =>
    rw [parseLabelsLoop_succ] at h
    split at h
    · exact hm k v h
    · next s' m' hround =>
      obtain ⟨key, value, rest, _, hvalue, _, rfl⟩ := labelsRound_eq_some hround
      refine ih ?_ h
      intro k' v' hv'
      rw [AList.lookup_insert_if] at hv'
      split at hv'
      · cases hv'
        rwa [String.toList_ofList]
      · exact hm k' v' hv'

/-! ## Rendered labels -/

/-- A label in a list, with the spaces in front of it. -/
structure LabelItem where
  spaces : Nat
  name : String
  value : String

def LabelItem.text (item : LabelItem) : List Char :=
  List.replicate item.spaces ' ' ++ labelText item.name.toList item.value.toList

/-- A list of labels with commas between them, and after them if it is so wanted. -/
def itemsText (items : List LabelItem) (trailing : Bool) : List Char :=
  [','].intercalate (items.map LabelItem.text) ++ if trailing then [','] else []

theorem trim_spaces {name : List Char} (hname : ∀ c ∈ name, isNameChar c = true) (spaces : Nat) :
    trim (List.replicate spaces ' ' ++ name) = name := by
  induction spaces with
  | zero => exact strip_of_neg fun c hc => isWhitespace_of_isNameChar (hname c hc)
  | succ spaces ih =>
    rw [List.replicate_succ, List.cons_append, trim, strip_cons rfl]
    exact ih

theorem trimmed_name {name : List Char} (hname : ∀ c ∈ name, isNameChar c = true) (spaces : Nat) :
    trim ((trim (List.replicate spaces ' ' ++ name)).dropWhile (· == ',')) = name := by
  have hcomma : name.dropWhile (· == ',') = name := by
    cases name with
    | nil => rfl
    | cons c name =>
      exact List.dropWhile_cons_of_neg (by simpa using ne_of_isNameChar (hname c List.mem_cons_self) rfl)
  rw [trim_spaces hname, hcomma]
  exact trim_spaces hname 0

/-- One round reads a label whose value holds no quote. -/
theorem labelsRound_item {item : LabelItem} (hname : ∀ c ∈ item.name.toList, isNameChar c = true)
    (hvalue : '"' ∉ item.value.toList) (rest : List Char) (m : Table String String) :
    labelsRound (item.text ++ rest) m =
      some (if rest.head? = some ',' then rest.tail else rest, m.insert item.name item.value) := by
  have heq : '=' ∉ List.replicate item.spaces ' ' ++ item.name.toList := by
    intro hmem
    rcases List.mem_append.1 hmem with hspace | hchar
    · cases List.eq_of_mem_replicate hspace
    · exact ne_of_isNameChar (hname _ hchar) rfl rfl
  have htext : item.text ++ rest =
      (List.replicate item.spaces ' ' ++ item.name.toList) ++ '=' :: ('"' :: (item.value.toList ++ '"' :: rest)) := by
    simp [LabelItem.text, labelText]
  rw [htext, labelsRound, cut_append heq]
  simp only [cut_append hvalue, trimmed_name hname, String.ofList_toList]

/-- The rounds on a rendered list are its labels, whatever else than quotes the values hold. -/
theorem labelsRun_itemsText {items : List LabelItem}
    (hnames : ∀ item ∈ items, ∀ c ∈ item.name.toList, isNameChar c = true)
    (hvalues : ∀ item ∈ items, '"' ∉ item.value.toList) (trailing : Bool) (m : Table String String) :
    LabelsRun items.length (itemsText items trailing) m
      (items.foldl (fun m item => m.insert item.name item.value) m) := by
  induction items generalizing m with
  | nil => cases trailing <;> exact .stop rfl
  | cons item items ih =>
    have hround := labelsRound_item (hnames item List.mem_cons_self) (hvalues item List.mem_cons_self)
    replace ih := ih (fun i hi => hnames i (List.mem_cons_of_mem item hi))
      (fun i hi => hvalues i (List.mem_cons_of_mem item hi)) (m.insert item.name item.value)
    cases items with
    | nil =>
      have hlast : itemsText [item] trailing = item.text ++ if trailing then [','] else [] := by simp [itemsText]
      rw [hlast]
      refine .round (hround _ m) (.stop ?_)
      cases trailing <;> rfl
    | cons next items =>
      have hmore : itemsText (item :: next :: items) trailing =
          item.text ++ ',' :: itemsText (next :: items) trailing := by
        simp [itemsText, List.intercalate_cons_cons]
      rw [hmore]
      exact .round (hround _ m) ih

theorem parseLabels_itemsText {items : List LabelItem}
    (hnames : ∀ item ∈ items, ∀ c ∈ item.name.toList, isNameChar c = true)
    (hvalues : ∀ item ∈ items, '"' ∉ item.value.toList) (trailing : Bool) :
    parseLabels (itemsText items trailing) = items.foldl (fun m item => m.insert item.name item.value) ∅ :=
  (labelsRun_itemsText hnames hvalues trailing ∅).parseLabelsLoop_eq le_rfl

/-- The loop of `parse_labels` ends on every text; and a rendered list of labels
is read as the map from each name to the last value listed for it. -/
theorem parseLabels_ends_and_inverts :
    (∀ s : List Char, ∃ n ≤ s.length, LabelsRun n s ∅ (parseLabels s)) ∧
    ∀ items : List LabelItem, (∀ item ∈ items, ∀ c ∈ item.name.toList, isNameChar c = true) →
      (∀ item ∈ items, '"' ∉ item.value.toList) → ∀ (trailing : Bool) (name : String),
        (parseLabels (itemsText items trailing)).lookup name =
          (items.filter fun item => item.name = name).getLast?.map LabelItem.value := by
  refine ⟨fun s => exists_labelsRun s ∅, ?_⟩
  intro items hnames hvalues trailing name
  rw [parseLabels_itemsText hnames hvalues, AList.lookup_foldl_insert LabelItem.name LabelItem.value]
  exact Option.or_none

/-- A name listed twice, with separators and braces in the values. -/
theorem parseLabels_listed_twice :
    (parseLabels (itemsText [⟨0, "pod", "a,b=c"⟩, ⟨2, "zone", "\x7bx\x7d"⟩, ⟨1, "pod", "d"⟩] true)).lookup "pod" =
      some "d" :=
  parseLabels_ends_and_inverts.2 [⟨0, "pod", "a,b=c"⟩, ⟨2, "zone", "\x7bx\x7d"⟩, ⟨1, "pod", "d"⟩]
    (by simp [isNameChar]) (by decide) true "pod"

end Keck.Controller
