import Keck.Agent.GpuPods
/-!
# Labels of the exporter's lines

`extract_dcgm_label` of `keck-agent/src/main.rs`, and `extract_label` of
`keck-agent/src/hardware/gpu.rs` which does the same, search a line for the
label's name before `="`. A quote of the line opens or closes a value, so the
search stops at the first label whose name ends in the name asked for, or whose
value ends in it and an equals sign (`extractDcgmLabel_text`). Whether that is
the label asked for depends on the labels in front of it (`Unmistaken`).
-/
namespace Keck.Agent

open Keck.Lib Keck.Lib.Text

/-- The search of `hardware/gpu.rs`. -/
def extractLabel (line : List Char) (label : String) : Option String := extractDcgmLabel line label

/-! ## Searching up to a quote -/

section Search
variable {q : Char} {p : List Char} (hp : q ∉ p)
include hp

theorem prefix_quoted_iff {u : List Char} (hu : q ∉ u) (w : List Char) : p ++ [q] <+: u ++ q :: w ↔ p = u := by
  constructor
  · rintro ⟨t, ht⟩
    have hcut := cut_append hu w
    rw [← ht, List.append_assoc, List.singleton_append, cut_append hp] at hcut
    exact (Prod.mk.inj (Option.some.inj hcut)).1
  · rintro rfl
    exact ⟨w, by simp⟩

/-- A text that ends with the only quote of it is found where it ends a part
between quotes. -/
theorem afterFirst_quoted {u : List Char} (hu : q ∉ u) (w : List Char) :
    afterFirst (p ++ [q]) (u ++ q :: w) = if p <:+ u then some w else afterFirst (p ++ [q]) w := by
  induction u with
  | nil =>
    have hprefix := prefix_quoted_iff hp hu w
    rw [List.nil_append] at hprefix ⊢
    rw [afterFirst]
    simp only [List.isPrefixOf_iff_prefix, hprefix, List.suffix_nil]
    split
    · next hnil => simp [hnil]
    · rfl
  | cons c u ih =>
    have hprefix := prefix_quoted_iff hp hu w
    have hrest := ih fun h => hu (List.mem_cons_of_mem c h)
    rw [List.cons_append] at hprefix ⊢
    rw [afterFirst, hrest]
    simp only [List.isPrefixOf_iff_prefix, hprefix, List.suffix_cons_iff]
    split
    · next heq => simp [heq]
    · next hne => simp [hne]

end Search

theorem afterFirst_of_notMem {q : Char} (p : List Char) {s : List Char} (hs : q ∉ s) :
    afterFirst (p ++ [q]) s = none := by
  induction s with
  | nil => simp [afterFirst]
  | cons c s ih =>
    have hno : ¬ (p ++ [q]).isPrefixOf (c :: s) = true := by
      rw [List.isPrefixOf_iff_prefix]
      exact fun h => hs (h.subset (by simp))
    rw [afterFirst, if_neg hno]
    exact ih fun h => hs (List.mem_cons_of_mem c h)

/-! ## Where the search stops -/

/-- A line of the exporter: `name{l1="v1",…,ln="vn"} value`. -/
structure DcgmLine where
  metric : List Char
  labels : List (String × String)
  value : List Char
  metric_name : ∀ c ∈ metric, isNameChar c = true ∨ c = ':'
  label_names : ∀ l ∈ labels, ∀ c ∈ l.1.toList, isNameChar c = true
  distinct : (labels.map (·.1)).Nodup
  plain : ∀ l ∈ labels, '"' ∉ l.2.toList ∧ '\\' ∉ l.2.toList
  value_plain : '"' ∉ value

def labelsText (labels : List (String × String)) : List Char :=
  [','].intercalate (labels.map fun l => labelText l.1.toList l.2.toList)

def DcgmLine.text (line : DcgmLine) : List Char :=
  line.metric ++ '\x7b' :: (labelsText line.labels ++ '\x7d' :: ' ' :: line.value)

/-- The search for `label` does not get past this label. -/
def StopsAt (label : String) (l : String × String) : Prop :=
  label.toList <:+ l.1.toList ∨ label.toList ++ ['='] <:+ l.2.toList

instance (label : String) (l : String × String) : Decidable (StopsAt label l) := inferInstanceAs (Decidable (_ ∨ _))

/-- The labels from the one on at which the search stops. -/
def stoppedAt (label : String) (labels : List (String × String)) : List (String × String) :=
  labels.dropWhile fun l => !decide (StopsAt label l)

/-- What is taken for the value: the value of the label with such a name, or what
stands between a value that ends so and the next quote. -/
def takenValue (label : String) : List (String × String) → Option String
  | [] => none
  | l :: rest =>
    if label.toList <:+ l.1.toList then some l.2 else rest.head?.map fun next => "," ++ next.1 ++ "="

/-- What follows the value of a label. -/
def restText (labels : List (String × String)) (tail : List Char) : List Char :=
  if labels = [] then tail else ',' :: (labelsText labels ++ tail)

theorem labelsText_cons (x : List Char) (c : Char) (l : String × String) (labels : List (String × String))
    (tail : List Char) :
    x ++ c :: (labelsText (l :: labels) ++ tail) =
      (x ++ c :: l.1.toList ++ ['=']) ++ '"' :: (l.2.toList ++ '"' :: restText labels tail) := by
  cases labels with
  | nil => simp [labelsText, labelText, restText]
  | cons next labels => simp [labelsText, labelText, restText, List.intercalate_cons_cons]

/-- Between a value and the next quote there is the next label's name. -/
theorem cut_restText {labels : List (String × String)}
    (hnames : ∀ l ∈ labels, ∀ c ∈ l.1.toList, isNameChar c = true) {tail : List Char} (htail : '"' ∉ tail) :
    ((cut '"' (restText labels tail)).map fun v => String.ofList v.1) =
      labels.head?.map fun next => "," ++ next.1 ++ "=" := by
  cases labels with
  | nil =>
    cases hcut : cut '"' tail with
    | none => simp [restText, hcut]
    | some parts =>
      have hmem : '"' ∈ tail := by simp [(cut_eq_some_iff.1 hcut).1]
      exact absurd hmem htail
  | cons next labels =>
    have hname : '"' ∉ next.1.toList := fun h => ne_of_isNameChar (hnames next List.mem_cons_self _ h) rfl rfl
    have hopen : '"' ∉ [] ++ ',' :: next.1.toList ++ ['='] := by simp [hname]
    have hrest : restText (next :: labels) tail = [] ++ ',' :: (labelsText (next :: labels) ++ tail) := rfl
    rw [hrest, labelsText_cons, cut_append hopen]
    simp only [Option.map_some, List.head?_cons, Option.some.injEq, ← String.toList_inj]
    simp

theorem stoppedAt_cons (label : String) (l : String × String) (labels : List (String × String)) :
    stoppedAt label (l :: labels) = if StopsAt label l then l :: labels else stoppedAt label labels := by
  by_cases h : StopsAt label l <;> simp [stoppedAt, h]

theorem extractDcgmLabel_eq (s : List Char) (label : String) :
    extractDcgmLabel s label =
      (afterFirst (label.toList ++ ['='] ++ ['"']) s).bind fun w => (cut '"' w).map fun v => String.ofList v.1 := by
  simp only [extractDcgmLabel, List.append_assoc, List.singleton_append, Option.map_eq_bind]
  rfl

theorem extractDcgmLabel_of_notMem {s : List Char} (hs : '"' ∉ s) {label : String} :
    extractDcgmLabel s label = none := by
  rw [extractDcgmLabel_eq, afterFirst_of_notMem _ hs]
  rfl

section Name
variable {label : String} (hlabel : ∀ c ∈ label.toList, isNameChar c = true)
include hlabel

theorem quote_notMem_pattern : '"' ∉ label.toList ++ ['='] := by
  intro h
  rcases List.mem_append.1 h with h | h
  · exact ne_of_isNameChar (hlabel _ h) rfl rfl
  · simp at h

/-- Behind a separator, a name ends in `label` only by itself. -/
theorem suffix_name_iff {c : Char} (hc : isNameChar c = false) (x name : List Char) :
    label.toList ++ ['='] <:+ x ++ c :: name ++ ['='] ↔ label.toList <:+ name := by
  have hnot : c ∉ label.toList := fun h => ne_of_isNameChar (hlabel c h) hc rfl
  rw [List.suffix_append_self_iff]
  constructor
  · intro h
    rcases List.suffix_or_suffix_of_suffix h (List.suffix_append x (c :: name)) with hin | hout
    · rcases List.suffix_cons_iff.1 hin with heq | hname
      · exact absurd (heq ▸ List.mem_cons_self) hnot
      · exact hname
    · exact absurd (hout.subset List.mem_cons_self) hnot
  · intro h
    exact (h.trans (List.suffix_cons c name)).trans (List.suffix_append x _)

theorem extractDcgmLabel_quoted {u : List Char} (hu : '"' ∉ u) (w : List Char) :
    extractDcgmLabel (u ++ '"' :: w) label =
      if label.toList ++ ['='] <:+ u then (cut '"' w).map fun v => String.ofList v.1 else extractDcgmLabel w label := by
  rw [extractDcgmLabel_eq, extractDcgmLabel_eq, afterFirst_quoted (quote_notMem_pattern hlabel) hu]
  split <;> rfl

/-- The search over a list of labels that stands behind a separator `c`. -/
theorem extractDcgmLabel_labels {labels : List (String × String)}
    (hnames : ∀ l ∈ labels, ∀ c ∈ l.1.toList, isNameChar c = true) (hvalues : ∀ l ∈ labels, '"' ∉ l.2.toList)
    {x : List Char} (hx : '"' ∉ x) {c : Char} (hc : isNameChar c = false) (hquote : c ≠ '"') {tail : List Char}
    (htail : '"' ∉ tail) :
    extractDcgmLabel (x ++ c :: (labelsText labels ++ tail)) label = takenValue label (stoppedAt label labels) := by
  induction labels generalizing x c with
  | nil =>
    refine extractDcgmLabel_of_notMem ?_
    simp [labelsText, hx, htail, Ne.symm hquote]
  | cons l labels ih =>
    have hname := hnames l List.mem_cons_self
    have hvalue := hvalues l List.mem_cons_self
    have hopen : '"' ∉ x ++ c :: l.1.toList ++ ['='] := by
      have hchars : '"' ∉ l.1.toList := fun h => ne_of_isNameChar (hname _ h) rfl rfl
      simp [hx, hchars, Ne.symm hquote]
    rw [labelsText_cons, extractDcgmLabel_quoted hlabel hopen, extractDcgmLabel_quoted hlabel hvalue, cut_append hvalue]
    simp only [suffix_name_iff hlabel hc, Option.map_some, String.ofList_toList]
    by_cases hends : label.toList <:+ l.1.toList
    · rw [if_pos hends, stoppedAt_cons, if_pos (.inl hends), takenValue, if_pos hends]
    · rw [if_neg hends, stoppedAt_cons]
      by_cases hinside : label.toList ++ ['='] <:+ l.2.toList
      · -- the text up to the next value is taken for one
        rw [if_pos hinside, if_pos (.inr hinside), takenValue, if_neg hends]
        exact cut_restText (fun l' hl' => hnames l' (List.mem_cons_of_mem l hl')) htail
      · rw [if_neg hinside, if_neg (by rintro (h | h) <;> contradiction)]
        cases labels with
        | nil => exact extractDcgmLabel_of_notMem htail
        | cons next labels =>
          exact ih (fun l' hl' => hnames l' (List.mem_cons_of_mem l hl'))
            (fun l' hl' => hvalues l' (List.mem_cons_of_mem l hl')) List.not_mem_nil rfl (by decide)

end Name

/-! ## When the value is the label's own -/

/-- The label at which the search stops is the one asked for, or its text happens
to be that label's value; or the search stops at no label, or in the last value. -/
def Unmistaken (label : String) (labels : List (String × String)) : Prop :=
  match stoppedAt label labels with
  | [] => True
  | l :: rest =>
    if label.toList <:+ l.1.toList then l.1 = label ∨ labels.lookup label = some l.2
    else ∀ next ∈ rest.head?, labels.lookup label = some ("," ++ next.1 ++ "=")

/-- The labels in front of the one at which the search stops have other names. -/
theorem lookup_stoppedAt (label : String) (labels : List (String × String)) :
    labels.lookup label = (stoppedAt label labels).lookup label := by
  induction labels with
  | nil => rfl
  | cons l labels ih =>
    rw [stoppedAt_cons]
    split
    · rfl
    · next hpast =>
      have hname : label ≠ l.1 := by
        rintro rfl
        exact hpast (.inl List.suffix_rfl)
      rw [← ih, List.lookup_cons, beq_false_of_ne hname]

theorem takenValue_eq_lookup_iff (label : String) (labels : List (String × String)) :
    takenValue label (stoppedAt label labels) = labels.lookup label ↔ Unmistaken label labels := by
  have hlookup := lookup_stoppedAt label labels
  rw [Unmistaken]
  cases hstop : stoppedAt label labels with
  | nil =>
    rw [hlookup, hstop]
    exact iff_of_true rfl trivial
  | cons l rest =>
    rw [hstop, List.lookup_cons] at hlookup
    dsimp only
    by_cases hends : label.toList <:+ l.1.toList
    · rw [takenValue, if_pos hends, if_pos hends, eq_comm (a := some l.2)]
      refine ⟨.inr, ?_⟩
      rintro (rfl | hsame)
      · rw [hlookup, beq_self_eq_true]
      · exact hsame
    · have hname : label ≠ l.1 := by
        rintro rfl
        exact hends List.suffix_rfl
      rw [beq_false_of_ne hname] at hlookup
      rw [takenValue, if_neg hends, if_neg hends]
      cases rest with
      | nil =>
        rw [hlookup]
        simp
      | cons next rest =>
        rw [List.head?_cons, Option.map_some, eq_comm]
        simp

theorem DcgmLine.extractDcgmLabel_text (line : DcgmLine) {label : String}
    (hlabel : ∀ c ∈ label.toList, isNameChar c = true) :
    extractDcgmLabel line.text label = takenValue label (stoppedAt label line.labels) := by
  have hmetric : '"' ∉ line.metric := by
    intro h
    rcases line.metric_name _ h with hname | hcolon
    · exact ne_of_isNameChar hname rfl rfl
    · cases hcolon
  have htail : '"' ∉ '\x7d' :: ' ' :: line.value := by simp [line.value_plain]
  exact extractDcgmLabel_labels hlabel line.label_names (fun l hl => (line.plain l hl).1) hmetric rfl (by decide) htail

/-- A label is read exactly from a line if and only if the labels in front of it
do not mislead the search; so it is for both searches. -/
theorem DcgmLine.label_exact_iff (line : DcgmLine) {label : String}
    (hlabel : ∀ c ∈ label.toList, isNameChar c = true) :
    (extractDcgmLabel line.text label = line.labels.lookup label ↔ Unmistaken label line.labels) ∧
    (extractLabel line.text label = line.labels.lookup label ↔ Unmistaken label line.labels) := by
  rw [extractLabel, line.extractDcgmLabel_text hlabel, and_self]
  exact takenValue_eq_lookup_iff label line.labels

/-- A line with the pod's name twice, as Prometheus hands on the labels of a
target that has its own. -/
def exportedLine : DcgmLine where
  metric := "DCGM_FI_DEV_POWER_USAGE".toList
  labels := [("Hostname", "node-1"), ("exported_pod", "trainer-0"), ("gpu", "0"), ("pod", "dcgm-exporter-x7k2p")]
  value := "61.5".toList
  metric_name := by simp [isNameChar]
  label_names := by simp [isNameChar]
  distinct := by decide
  plain := by decide
  value_plain := by decide

/-- The name of the device's index is the only one of the line that ends so. -/
theorem exportedLine_gpu :
    extractDcgmLabel exportedLine.text "gpu" = some "0" ∧ extractLabel exportedLine.text "gpu" = some "0" := by
  have hstop : stoppedAt "gpu" exportedLine.labels = [("gpu", "0"), ("pod", "dcgm-exporter-x7k2p")] := by
    decide +kernel
  have hown : Unmistaken "gpu" exportedLine.labels := by
    rw [Unmistaken, hstop]
    simp
  have hexact := exportedLine.label_exact_iff (show ∀ c ∈ "gpu".toList, isNameChar c = true by simp [isNameChar])
  exact ⟨hexact.1.2 hown, hexact.2.2 hown⟩

/-- The exported name is taken for the pod's. -/
theorem exportedLine_pod :
    extractDcgmLabel exportedLine.text "pod" = some "trainer-0" ∧
      extractLabel exportedLine.text "pod" = some "trainer-0" ∧
      exportedLine.labels.lookup "pod" = some "dcgm-exporter-x7k2p" := by
  decide +kernel

end Keck.Agent
