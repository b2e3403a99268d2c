import Keck.Controller.KeplerLabels
/-!
# Escaped values

A rendered value has a backslash before each backslash, quote and line break,
and `parse_labels` undoes none of it. A value without quotes comes back with
its escapes. After a quote the loop is still inside the value (`pendingText`):
what it takes for the next name is the rest of the value with the next label's
name at its end, so that label is lost, and an equals sign in the rest ends the
loop. `lookup_parseLabels_follow` says which labels come back, and as what.
-/
namespace Keck.Controller

open Keck.Lib Keck.Lib.Text

def escChar (c : Char) : List Char :=
  if c = '\\' then ['\\', '\\'] else if c = '"' then ['\\', '"'] else if c = '\n' then ['\\', 'n'] else [c]

def esc (s : List Char) : List Char := s.flatMap escChar

theorem esc_cons (c : Char) (s : List Char) : esc (c :: s) = escChar c ++ esc s := List.flatMap_cons

theorem esc_append (s t : List Char) : esc (s ++ t) = esc s ++ esc t := List.flatMap_append

/-- Escapes add backslashes and `n` and take line breaks away; any other character stays. -/
theorem mem_esc {c : Char} (hc : c ≠ '\\' ∧ c ≠ 'n' ∧ c ≠ '\n') {s : List Char} : c ∈ esc s ↔ c ∈ s := by
  induction s with
  | nil => rfl
  | cons d s ih =>
    rw [esc_cons, List.mem_append, ih, List.mem_cons]
    refine or_congr ?_ Iff.rfl
    unfold escChar
    grind

theorem length_le_esc (s : List Char) : s.length ≤ (esc s).length := by
  induction s with
  | nil => exact le_rfl
  | cons c s ih =>
    have hc : 1 ≤ (escChar c).length := by
      unfold escChar
      split_ifs <;> simp
    rw [esc_cons, List.length_append, List.length_cons]
    omega

/-- Escaping leaves a text alone exactly if there is nothing to escape in it. -/
theorem esc_eq_self {s : List Char} : esc s = s ↔ '\\' ∉ s ∧ '"' ∉ s ∧ '\n' ∉ s := by
  induction s with
  | nil => simp [esc]
  | cons c s ih =>
    rw [esc_cons]
    by_cases hplain : c ≠ '\\' ∧ c ≠ '"' ∧ c ≠ '\n'
    · obtain ⟨h1, h2, h3⟩ := hplain
      have hc : escChar c = [c] := by simp [escChar, h1, h2, h3]
      rw [hc, List.singleton_append, List.cons.injEq, ih]
      simp [Ne.symm h1, Ne.symm h2, Ne.symm h3]
    · -- an escaped character makes the text longer
      have hlong : 2 ≤ (escChar c).length := by
        unfold escChar
        grind
      constructor
      · intro heq
        have := congrArg List.length heq
        have := length_le_esc s
        simp only [List.length_append, List.length_cons] at *
        omega
      · rintro ⟨h1, h2, h3⟩
        exact absurd ⟨fun e => h1 (by simp [e]), fun e => h2 (by simp [e]), fun e => h3 (by simp [e])⟩ hplain

/-- An escaped text does not begin with a quote. -/
theorem esc_cons_eq (c : Char) (s : List Char) : ∃ d t, esc (c :: s) = d :: t ∧ d ≠ '"' ∧ (d = ',' → c = ',') := by
  rw [esc_cons]
  unfold escChar
  split_ifs with h1 h2 h3
  · exact ⟨_, _, rfl, by decide, by simp⟩
  · exact ⟨_, _, rfl, by decide, by simp⟩
  · exact ⟨_, _, rfl, by decide, by simp⟩
  · exact ⟨_, _, rfl, h2, id⟩

/-! ## What a round reads -/

/-- A value up to its first quote; the backslash of the quote stays. -/
def readValue (v : String) : String :=
  match cut '"' v.toList with
  | none => String.ofList (esc v.toList)
  | some (p, _) => String.ofList (esc p ++ ['\\'])

/-- The rest of a value after its first quote. -/
def afterQuote (v : String) : Option (List Char) := (cut '"' v.toList).map (·.2)

theorem afterQuote_eq_none {v : String} (h : '"' ∉ v.toList) : afterQuote v = none := by simp [afterQuote, cut, h]

theorem readValue_of_notMem {v : String} (h : '"' ∉ v.toList) : readValue v = String.ofList (esc v.toList) := by
  simp [readValue, cut, h]

/-- Labels with a comma in front of each. -/
def follow (labels : List (String × String)) : List Char :=
  labels.flatMap fun l => ',' :: labelText l.1.toList (esc l.2.toList)

theorem follow_cons (l : String × String) (labels : List (String × String)) :
    follow (l :: labels) = ',' :: (labelText l.1.toList (esc l.2.toList) ++ follow labels) := List.flatMap_cons

theorem intercalate_eq_tail_follow (labels : List (String × String)) :
    [','].intercalate (labels.map fun l => labelText l.1.toList (esc l.2.toList)) = (follow labels).tail := by
  induction labels with
  | nil => rfl
  | cons l labels ih =>
    cases labels with
    | nil => simp [follow]
    | cons next labels =>
      rw [List.map_cons] at ih ⊢
      rw [List.map_cons, List.intercalate_cons_cons, ih]
      simp [follow_cons]

theorem tail_follow (labels : List (String × String)) :
    (if (follow labels).head? = some ',' then (follow labels).tail else follow labels) = (follow labels).tail := by
  cases labels with
  | nil => rfl
  | cons l labels => rw [follow_cons]; rfl

/-- What the loop still has to read before these labels: the labels, or first the
rest of a value. -/
def pendingText : Option (List Char) → List (String × String) → List Char
  | none, labels => (follow labels).tail
  | some q, labels => esc q ++ '"' :: follow labels

def uncomma (s : List Char) : List Char := if s.head? = some ',' then s.tail else s

theorem tail_esc (q t : List Char) :
    (if (esc q ++ '"' :: t).head? = some ',' then (esc q ++ '"' :: t).tail else esc q ++ '"' :: t) =
      esc (uncomma q) ++ '"' :: t := by
  cases q with
  | nil => rfl
  | cons c q =>
    by_cases hc : c = ','
    · subst hc
      rfl
    · obtain ⟨d, s, hesc, -, hd⟩ := esc_cons_eq c q
      have hcomma : d ≠ ',' := fun e => hc (hd e)
      simp [uncomma, hesc, hc, hcomma]

/-- The name a round finds in the text before an equals sign. -/
def keyOf (front : List Char) : String := String.ofList (trim ((trim front).dropWhile (· == ',')))

/-- One round reads up to the first quote of a value. -/
theorem labelsRound_label {front : List Char} (hfront : '=' ∉ front) (v : String) (labels : List (String × String))
    (m : Table String String) :
    labelsRound (front ++ '=' :: '"' :: (esc v.toList ++ '"' :: follow labels)) m =
      some (pendingText ((afterQuote v).map uncomma) labels, m.insert (keyOf front) (readValue v)) := by
  rw [labelsRound, cut_append hfront]
  cases hcut : cut '"' v.toList with
  | none =>
    have hquote : '"' ∉ esc v.toList := by
      rw [mem_esc (by decide)]
      intro hmem
      simp [cut, hmem] at hcut
    simp only [cut_append hquote, tail_follow, afterQuote, readValue, hcut]
    rfl
  | some parts =>
    obtain ⟨p, q⟩ := parts
    obtain ⟨hv, hp⟩ := cut_eq_some_iff.1 hcut
    have hquote : '"' ∉ esc p ++ ['\\'] := by
      rw [List.mem_append, mem_esc (by decide)]
      simp [hp]
    have htext : esc v.toList ++ '"' :: follow labels =
        (esc p ++ ['\\']) ++ '"' :: (esc q ++ '"' :: follow labels) := by
      rw [hv, esc_append, esc_cons]
      simp [escChar]
    simp only [htext, cut_append hquote, tail_esc, afterQuote, readValue, hcut]
    rfl

/-- Inside a value an equals sign that is not its last character ends the loop. -/
theorem labelsRound_equals {q : List Char} (heq : '=' ∈ q) (hlast : q.getLast? ≠ some '=') (t : List Char)
    (m : Table String String) : labelsRound (esc q ++ t) m = none := by
  obtain ⟨a, b, rfl, ha⟩ := List.eq_append_cons_of_mem heq
  have ha' : '=' ∉ esc a := by rwa [mem_esc (by decide)]
  have htext : esc (a ++ '=' :: b) ++ t = esc a ++ '=' :: (esc b ++ t) := by
    rw [esc_append, esc_cons]
    simp [escChar]
  rw [htext, labelsRound, cut_append ha']
  cases b with
  | nil => exact absurd (by simp) hlast
  | cons c b =>
    obtain ⟨d, s, hesc, hd, -⟩ := esc_cons_eq c b
    rw [hesc]
    dsimp only
    split
    · next heq => cases heq; exact absurd rfl hd
    · rfl

theorem labelsRound_none {s : List Char} (h : '=' ∉ s) (m : Table String String) : labelsRound s m = none := by
  simp [labelsRound, cut, h]

/-! ## Which labels come back -/

/-- The labels that are read under their own names; `inside` says whether the
loop still is inside a value. -/
def kept : Bool → List (String × String) → List (String × String)
  | _, [] => []
  | inside, l :: labels =>
    (if inside then [] else [l]) ++
      match afterQuote l.2 with
      | none => kept false labels
      | some q => if '=' ∈ q then [] else kept true labels

theorem kept_of_none {l : String × String} (h : afterQuote l.2 = none) (labels : List (String × String)) :
    kept true (l :: labels) = kept false labels := by
  simp [kept, h]

theorem kept_of_some {l : String × String} {q : List Char} (h : afterQuote l.2 = some q)
    (labels : List (String × String)) : kept true (l :: labels) = if '=' ∈ q then [] else kept true labels := by
  simp [kept, h]

theorem kept_false_cons (l : String × String) (labels : List (String × String)) :
    kept false (l :: labels) = l :: kept true (l :: labels) := rfl

/-- A quote in a value hides the label that follows, and all that follow if there
is an equals sign after it. -/
def shadowed (name : String) : List (String × String) → Bool
  | [] => false
  | l :: labels =>
    (match afterQuote l.2 with
      | none => false
      | some q => labels.head?.map (·.1) == some name || decide ('=' ∈ q ∧ name ∈ labels.map (·.1))) ||
    shadowed name labels

/-- The text before the equals sign of the next label. -/
def frontText (pending : Option (List Char)) (name : String) : List Char :=
  (pending.elim [] fun q => esc q ++ ['"', ',']) ++ name.toList

theorem pendingText_cons (pending : Option (List Char)) (l : String × String) (labels : List (String × String)) :
    pendingText pending (l :: labels) =
      frontText pending l.1 ++ '=' :: '"' :: (esc l.2.toList ++ '"' :: follow labels) := by
  cases pending <;> simp [pendingText, frontText, follow_cons, labelText]

theorem equals_notMem_frontText {pending : Option (List Char)} (hpending : ∀ q ∈ pending, '=' ∉ q) {name : String}
    (hname : ∀ c ∈ name.toList, isNameChar c = true) : '=' ∉ frontText pending name := by
  have hequals : '=' ∉ name.toList := fun h => ne_of_isNameChar (hname _ h) rfl rfl
  cases pending with
  | none => exact hequals
  | some q => simp [frontText, hequals, mem_esc, hpending q rfl]

theorem keyOf_frontText_none {name : String} (hname : ∀ c ∈ name.toList, isNameChar c = true) :
    keyOf (frontText none name) = name := by
  have h := trimmed_name hname 0
  rw [keyOf, ← String.toList_inj, String.toList_ofList]
  exact h

/-- Inside a value, what is taken for a name holds a quote. -/
theorem keyOf_frontText_some {name : String} (hname : '"' ∉ name.toList) (q : List Char) (next : String) :
    name ≠ keyOf (frontText (some q) next) := by
  rintro rfl
  apply hname
  rw [keyOf, String.toList_ofList, trim, mem_strip_of_neg (by decide), mem_dropWhile_of_neg (by decide), trim,
    mem_strip_of_neg (by decide)]
  simp [frontText]

theorem mem_uncomma {c : Char} (hc : c ≠ ',') {s : List Char} : c ∈ uncomma s ↔ c ∈ s := by
  cases s with
  | nil => rfl
  | cons d s =>
    by_cases hd : d = ','
    · subst hd
      simp [uncomma, hc]
    · simp [uncomma, hd]

theorem getLast?_uncomma {c : Char} {s : List Char} (h : (uncomma s).getLast? = some c) : s.getLast? = some c := by
  cases s with
  | nil => exact h
  | cons d s =>
    unfold uncomma at h
    split at h
    · rw [List.getLast?_cons]
      rw [List.tail_cons] at h
      rw [h]
      rfl
    · exact h

/-- The rest of a value ends as the value does. -/
theorem getLast?_of_afterQuote {v : String} {q : List Char} (h : afterQuote v = some q) {c : Char}
    (hc : q.getLast? = some c) : '"' ∈ v.toList ∧ v.toList.getLast? = some c := by
  obtain ⟨⟨p, q'⟩, hcut, rfl⟩ := Option.map_eq_some_iff.1 h
  rw [(cut_eq_some_iff.1 hcut).1]
  refine ⟨by simp, ?_⟩
  rw [List.getLast?_append, List.getLast?_cons, hc]
  rfl

/-- The labels as they are read, over those so far. -/
def storeLabels (m : Table String String) (labels : List (String × String)) : Table String String :=
  labels.foldl (fun m l => m.insert l.1 (readValue l.2)) m

theorem lookup_storeLabels_congr {m m' : Table String String} {name : String} (h : m.lookup name = m'.lookup name)
    (labels : List (String × String)) : (storeLabels m labels).lookup name = (storeLabels m' labels).lookup name := by
  have hall := fun m => AList.lookup_foldl_insert (Prod.fst : String × String → String) (fun l => readValue l.2)
    labels m name
  rw [storeLabels, storeLabels, hall, hall, h]

/-- The loop on rendered labels, from inside a value or not. -/
theorem labelsRun_pendingText {labels : List (String × String)}
    (hnames : ∀ l ∈ labels, ∀ c ∈ l.1.toList, isNameChar c = true)
    (hvalues : ∀ l ∈ labels, '"' ∈ l.2.toList → l.2.toList.getLast? ≠ some '=') {name : String}
    (hname : '"' ∉ name.toList) (pending : Option (List Char)) (hpending : ∀ q ∈ pending, '=' ∉ q)
    (m : Table String String) :
    ∃ n r, LabelsRun n (pendingText pending labels) m r ∧
      r.lookup name = (storeLabels m (kept pending.isSome labels)).lookup name := by
  induction labels generalizing pending m with
  | nil =>
    refine ⟨0, m, .stop (labelsRound_none ?_ m), rfl⟩
    cases pending with
    | none => exact List.not_mem_nil
    | some q => simp [pendingText, follow, mem_esc, hpending q rfl]
  | cons l labels ih =>
    rw [List.forall_mem_cons] at hnames hvalues
    have hround := labelsRound_label (equals_notMem_frontText hpending hnames.1) l.2 labels m
    rw [← pendingText_cons] at hround
    generalize hm' : m.insert (keyOf (frontText pending l.1)) (readValue l.2) = m' at hround
    -- the rounds after this one
    have hrest : ∃ n r, LabelsRun n (pendingText ((afterQuote l.2).map uncomma) labels) m' r ∧
        r.lookup name = (storeLabels m' (kept true (l :: labels))).lookup name := by
      cases hq : afterQuote l.2 with
      | none =>
        rw [kept_of_none hq]
        exact ih hnames.2 hvalues.2 none nofun m'
      | some q =>
        rw [kept_of_some hq]
        by_cases heq : '=' ∈ q
        · have hlast : (uncomma q).getLast? ≠ some '=' := fun h =>
            hvalues.1 (getLast?_of_afterQuote hq (getLast?_uncomma h)).1
              (getLast?_of_afterQuote hq (getLast?_uncomma h)).2
          simp only [heq, if_true]
          exact ⟨0, m', .stop (labelsRound_equals ((mem_uncomma (by decide)).2 heq) hlast _ m'), rfl⟩
        · simp only [heq, if_false]
          refine ih hnames.2 hvalues.2 (some (uncomma q)) (fun q' h => ?_) m'
          cases h
          rwa [mem_uncomma (by decide)]
    obtain ⟨n, r, hrun, hlookup⟩ := hrest
    refine ⟨n + 1, r, .round hround hrun, hlookup.trans ?_⟩
    subst hm'
    cases pending with
    | none => rw [keyOf_frontText_none hnames.1]; rfl
    | some q =>
      refine lookup_storeLabels_congr ?_ _
      exact AList.lookup_insert_ne (keyOf_frontText_some hname q l.1)

theorem kept_cons_sublist (l : String × String) (labels : List (String × String)) :
    (kept true (l :: labels)).Sublist labels := by
  induction labels generalizing l with
  | nil =>
    cases hq : afterQuote l.2 with
    | none => rw [kept_of_none hq]; exact .slnil
    | some q => rw [kept_of_some hq]; split <;> exact .slnil
  | cons next labels ih =>
    cases hq : afterQuote l.2 with
    | none =>
      rw [kept_of_none hq]
      exact (ih next).cons_cons next
    | some q =>
      rw [kept_of_some hq]
      split
      · exact List.nil_sublist _
      · exact (ih next).cons next

theorem kept_sublist (labels : List (String × String)) : (kept false labels).Sublist labels := by
  cases labels with
  | nil => exact .slnil
  | cons l labels => exact (kept_cons_sublist l labels).cons_cons l

theorem mem_of_shadowed {name : String} {l : String × String} {labels : List (String × String)}
    (h : shadowed name (l :: labels) = true) : name ∈ labels.map (·.1) := by
  induction labels generalizing l with
  | nil => simp [shadowed] at h; split at h <;> simp at h
  | cons next labels ih =>
    rw [shadowed, Bool.or_eq_true] at h
    rcases h with h | h
    · split at h
      · cases h
      · rw [Bool.or_eq_true, decide_eq_true_eq, beq_iff_eq] at h
        rcases h with h | h
        · rw [List.head?_cons, Option.map_some, Option.some.injEq] at h
          simp [h]
        · exact h.2
    · exact List.mem_cons_of_mem _ (ih h)

/-- The labels that are read under their own names are those that are not hidden. -/
theorem mem_kept_iff {labels : List (String × String)} (hdistinct : (labels.map (·.1)).Nodup) {name : String}
    (hmem : name ∈ labels.map (·.1)) (inside : Bool) :
    name ∈ (kept inside labels).map (·.1) ↔
      ¬(inside = true ∧ labels.head?.map (·.1) = some name) ∧ shadowed name labels = false := by
  induction labels generalizing inside with
  | nil => cases hmem
  | cons l labels ih =>
    rw [List.map_cons, List.nodup_cons] at hdistinct
    by_cases hl : l.1 = name
    · -- no later label has this name
      have hlater : name ∉ labels.map (·.1) := hl ▸ hdistinct.1
      have hclear : shadowed name (l :: labels) = false :=
        Bool.eq_false_of_not_eq_true fun h => hlater (mem_of_shadowed h)
      have hlost : name ∉ (kept true (l :: labels)).map (·.1) :=
        fun h => hlater (((kept_cons_sublist l labels).map _).subset h)
      cases inside with
      | false => simp [kept_false_cons, hl, hclear]
      | true => simp [hl, hlost]
    · have hlater : name ∈ labels.map (·.1) := (List.mem_cons.1 hmem).resolve_left (Ne.symm hl)
      have hrest := ih hdistinct.2 hlater
      have hinside : name ∈ (kept inside (l :: labels)).map (·.1) ↔ name ∈ (kept true (l :: labels)).map (·.1) := by
        cases inside with
        | false => rw [kept_false_cons, List.map_cons, List.mem_cons, or_iff_right (Ne.symm hl)]
        | true => rfl
      rw [hinside, shadowed]
      cases hq : afterQuote l.2 with
      | none => simp [kept_of_none hq, hrest false, hl]
      | some q =>
        rw [kept_of_some hq]
        by_cases heq : '=' ∈ q
        · simp only [heq, hlater, and_self, if_true, decide_true, Bool.or_true, Bool.true_or]
          simp
        · simp [heq, hrest true, hl]

/-- Of labels with distinct names, those come back that are not hidden. -/
theorem lookup_parseLabels_follow {labels : List (String × String)}
    (hnames : ∀ l ∈ labels, ∀ c ∈ l.1.toList, isNameChar c = true) (hdistinct : (labels.map (·.1)).Nodup)
    (hvalues : ∀ l ∈ labels, '"' ∈ l.2.toList → l.2.toList.getLast? ≠ some '=') {name v : String}
    (hname : '"' ∉ name.toList) (hmem : (name, v) ∈ labels) :
    (parseLabels (follow labels).tail).lookup name = if shadowed name labels then none else some (readValue v) := by
  obtain ⟨n, r, hrun, hlookup⟩ := labelsRun_pendingText hnames hvalues hname none nofun ∅
  have hsub := kept_sublist labels
  have hkept : ((kept false labels).map (·.1)).Nodup := hdistinct.sublist (hsub.map _)
  have hread : name ∈ (kept false labels).map (·.1) ↔ _ := mem_kept_iff hdistinct (List.mem_map.2 ⟨_, hmem, rfl⟩) false
  have hall : (parseLabels (follow labels).tail).lookup name = ((kept false labels).lookup name).map readValue := by
    have hloop : parseLabels (follow labels).tail = r := hrun.parseLabelsLoop_eq le_rfl
    rw [hloop, hlookup]
    exact (AList.lookup_foldl_insert_nodup readValue hkept ∅ name).trans Option.or_none
  rw [hall]
  cases hs : shadowed name labels with
  | true =>
    have hlost : name ∉ (kept false labels).map (·.1) := by simp only [hread, hs]; simp
    rw [lookup_eq_none_of_notMem hlost]
    rfl
  | false =>
    obtain ⟨l, hl, rfl⟩ := List.mem_map.1 (hread.2 ⟨by simp, hs⟩)
    have hv : labels.lookup l.1 = some l.2 := lookup_of_mem_nodup hdistinct (hsub.subset hl)
    rw [lookup_of_mem_nodup hdistinct hmem] at hv
    rw [lookup_of_mem_nodup hkept hl, ← hv]
    rfl

example :
    let labels := parseLabels (follow [("zone", "a\"b"), ("node_name", "n1"), ("state", "running")]).tail
    labels.lookup "node_name" = none ∧ labels.lookup "state" = some "running" := by
  decide

end Keck.Controller
