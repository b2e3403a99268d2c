import Keck.Controller.KeplerEscape
/-!
# Kepler's lines in the text format

A line of the Prometheus text format is `name{labels} value`, with a
backslash before each backslash, quote and line break of a label's value.
`parse_pod_metric` looks for the first closing brace of the line and for the
first quote after each value's own, and it undoes no escape. So the labels that
come back are the ones rendered only for plain values, as names of pods,
namespaces and nodes are, and only if no quote in another label hides them
(`podMetric_exact`).
-/
namespace Keck.Controller

open Keck.Lib Keck.Lib.Text

/-! ## Rendering -/

/-- The labels `parse_pod_metric` asks for. -/
def podLabels : List String := ["pod_id", "pod_name", "pod_namespace", "node_name", "state"]

/-- A sample of a pod's metric. -/
structure MetricLine where
  metric : List Char
  labels : List (String × String)
  value : F64.Decimal
  metric_name : ∀ c ∈ metric, isNameChar c = true ∨ c = ':'
  label_names : ∀ l ∈ labels, ∀ c ∈ l.1.toList, isNameChar c = true
  distinct : (labels.map (·.1)).Nodup
  complete : ∀ name ∈ podLabels, name ∈ labels.map (·.1)

namespace MetricLine
variable (line : MetricLine)

def labelsText : List Char := [','].intercalate (line.labels.map fun l => labelText l.1.toList (esc l.2.toList))

def text : List Char := line.metric ++ '\x7b' :: (line.labelsText ++ '\x7d' :: ' ' :: line.value.text)

def labelValue (name : String) : String := (line.labels.lookup name).getD ""

/-- The line's own pod. -/
def podKey : PodKey where
  podId := line.labelValue "pod_id"
  podName := line.labelValue "pod_name"
  podNamespace := line.labelValue "pod_namespace"
  nodeName := line.labelValue "node_name"
  state := line.labelValue "state"

/-- The line is read as what it was rendered from. -/
def Exact : Prop := parsePodMetric line.text = some (line.podKey, .finite line.value.value)

end MetricLine

/-! ## The line -/

theorem isWhitespace_of_mem_decimal {d : F64.Decimal} {c : Char} (h : c ∈ d.text) : isWhitespace c = false := by
  have hdigit : ∀ {cs : List Char}, (∀ c ∈ cs, c.isDigit = true) → c ∈ cs → isWhitespace c = false :=
    fun hcs hc => isWhitespace_of_isDigit (hcs c hc)
  have hpower : c ∈ d.powerText → isWhitespace c = false := by
    intro h
    unfold F64.Decimal.powerText at h
    cases hpow : d.power with
    | none => rw [hpow] at h; cases h
    | some e =>
      rw [hpow] at h
      rcases List.mem_cons.1 h with rfl | h
      · decide
      · rcases List.mem_cons.1 h with h | h
        · rw [h]
          split <;> decide
        · exact hdigit (d.power_digits e hpow).2 h
  have hbody : c ∈ d.body → isWhitespace c = false := by
    intro h
    rcases List.mem_append.1 h with h | h
    · exact hdigit d.whole_digits h
    · rcases List.mem_append.1 h with h | h
      · split at h
        · cases h
        · rcases List.mem_cons.1 h with rfl | h
          · decide
          · exact hdigit d.part_digits h
      · exact hpower h
  unfold F64.Decimal.text at h
  split at h
  · rcases List.mem_cons.1 h with rfl | h
    · decide
    · exact hbody h
  · exact hbody h

namespace MetricLine
variable (line : MetricLine)

theorem mem_labels {name : String} (h : name ∈ podLabels) : (name, line.labelValue name) ∈ line.labels := by
  obtain ⟨l, hl, rfl⟩ := List.mem_map.1 (line.complete name h)
  rw [labelValue, lookup_of_mem_nodup line.distinct hl]
  exact hl

theorem brace_mem_labelText {name raw : List Char} (hname : ∀ c ∈ name, isNameChar c = true) :
    '\x7d' ∈ labelText name raw ↔ '\x7d' ∈ raw := by
  have hbrace : '\x7d' ∉ name := fun h => ne_of_isNameChar (hname _ h) rfl rfl
  simp [labelText, hbrace]

theorem brace_mem_labelsText : '\x7d' ∈ line.labelsText ↔ ∃ l ∈ line.labels, '\x7d' ∈ l.2.toList := by
  have hlabel : ∀ l ∈ line.labels, '\x7d' ∈ labelText l.1.toList (esc l.2.toList) ↔ '\x7d' ∈ l.2.toList :=
    fun l hl => (brace_mem_labelText (line.label_names l hl)).trans (mem_esc (by decide))
  constructor
  · intro h
    rcases mem_intercalate h with hsep | ⟨part, hpart, hmem⟩
    · cases hsep
    · obtain ⟨l, hl, rfl⟩ := List.mem_map.1 hpart
      exact ⟨l, hl, (hlabel l hl).1 hmem⟩
  · rintro ⟨l, hl, hmem⟩
    exact mem_intercalate_of_mem (List.mem_map_of_mem hl) ((hlabel l hl).2 hmem)

theorem brace_notMem_labelsText (h : ∀ l ∈ line.labels, '\x7d' ∉ l.2.toList) : '\x7d' ∉ line.labelsText := by
  rw [brace_mem_labelsText]
  rintro ⟨l, hl, hmem⟩
  exact h l hl hmem

/-- After any brace of a rendered label there is still the quote that ends its value. -/
theorem quote_mem_after {a b : List Char} (h : line.labelsText = a ++ '\x7d' :: b) : '"' ∈ b := by
  have hne : line.labels ≠ [] := by
    intro hnil
    have := line.complete "state" (by decide)
    rw [hnil] at this
    cases this
  have hquote : ∀ p ∈ line.labels.map fun l => labelText l.1.toList (esc l.2.toList), p.getLast? = some '"' := by
    intro p hp
    obtain ⟨l, -, rfl⟩ := List.mem_map.1 hp
    simp [labelText, List.getLast?_append, List.getLast?_cons]
  have hend : line.labelsText.getLast? = some '"' := getLast?_intercalate hquote (by simpa using hne)
  rw [h, List.getLast?_append, List.getLast?_cons] at hend
  cases hb : b.getLast? with
  | none => simp [hb] at hend
  | some c =>
    rw [hb] at hend
    cases hend
    exact List.mem_of_getLast? hb

theorem metric_ne {c d : Char} (hc : c ∈ line.metric) (hd : isNameChar d = false) (hcolon : d ≠ ':') : c ≠ d := by
  rcases line.metric_name c hc with hname | rfl
  · exact ne_of_isNameChar hname hd
  · exact hcolon.symm

/-- A line is cut at its first closing brace. -/
theorem parseMetric_cut {a b : List Char} (ha : '\x7d' ∉ a) :
    parseMetric (line.metric ++ '\x7b' :: (a ++ '\x7d' :: b)) =
      (F64.parse (trim b)).map fun watts => (parseLabels a, watts) := by
  have hstart : (line.metric ++ '\x7b' :: (a ++ '\x7d' :: b)).findIdx? (· == '\x7b') = some line.metric.length :=
    findIdx?_append_cons (fun hc => line.metric_ne hc (by decide) (by decide) rfl) _
  have hfirst : '\x7d' ∉ line.metric ++ '\x7b' :: a := by
    simp only [List.mem_append, List.mem_cons, not_or]
    exact ⟨fun hc => line.metric_ne hc (by decide) (by decide) rfl, by decide, ha⟩
  have hassoc : line.metric ++ '\x7b' :: (a ++ '\x7d' :: b) = (line.metric ++ '\x7b' :: a) ++ '\x7d' :: b := by simp
  have hend := findIdx?_append_cons hfirst b
  have hlabels : ((line.metric ++ '\x7b' :: a).drop (line.metric.length + 1)) = a := by
    rw [List.drop_append]
    simp
  have hvalue : ((line.metric ++ '\x7b' :: a) ++ '\x7d' :: b).drop ((line.metric ++ '\x7b' :: a).length + 1) = b := by
    rw [List.drop_append]
    simp
  rw [hassoc] at hstart ⊢
  unfold parseMetric
  rw [hstart, hend]
  simp only [Option.bind_eq_bind, Option.bind_some, List.take_left, hlabels, hvalue]
  cases F64.parse (trim b) <;> rfl

theorem parseMetric_of_brace (h : '\x7d' ∈ line.labelsText) : parseMetric line.text = none := by
  obtain ⟨a, b, hab, ha⟩ := List.eq_append_cons_of_mem h
  have htext : line.text = line.metric ++ '\x7b' :: (a ++ '\x7d' :: (b ++ '\x7d' :: ' ' :: line.value.text)) := by
    simp [text, hab]
  -- what follows the brace holds a quote, so it is not a number
  have hquote : '"' ∈ trim (b ++ '\x7d' :: ' ' :: line.value.text) :=
    (mem_strip_of_neg (by decide) _).2 (List.mem_append_left _ (line.quote_mem_after hab))
  rw [htext, line.parseMetric_cut ha, F64.parse_of_quote hquote, Option.map_none]

theorem parseMetric_text (h : '\x7d' ∉ line.labelsText) :
    parseMetric line.text = some (parseLabels line.labelsText, .finite line.value.value) := by
  have htrim : trim (' ' :: line.value.text) = line.value.text :=
    (strip_cons (by decide) _).trans (strip_of_neg fun _ => isWhitespace_of_mem_decimal)
  rw [text, line.parseMetric_cut h, htrim, F64.parse_text, Option.map_some]

/-- A line that is not cut short is read as rendered if its labels are. -/
theorem exact_iff_lookup (hbrace : '\x7d' ∉ line.labelsText) :
    line.Exact ↔ ∀ name ∈ podLabels, (parseLabels line.labelsText).lookup name = some (line.labelValue name) := by
  rw [Exact, parsePodMetric, line.parseMetric_text hbrace]
  simp only [podLabels, List.forall_mem_cons, List.not_mem_nil, false_implies, implies_true, and_true,
    Option.bind_eq_bind, Option.bind_some]
  constructor
  · intro h
    simp only [Option.bind_eq_some_iff] at h
    obtain ⟨podId, hid, podName, hname, podNamespace, hns, nodeName, hnode, state, hstate, hkey⟩ := h
    cases hkey
    exact ⟨hid, hname, hns, hnode, hstate⟩
  · rintro ⟨hid, hname, hns, hnode, hstate⟩
    simp only [hid, hname, hns, hnode, hstate, Option.bind_some]
    rfl

theorem brace_notMem_of_exact (h : line.Exact) : ∀ l ∈ line.labels, '\x7d' ∉ l.2.toList := by
  intro l hl hmem
  have hnone := line.parseMetric_of_brace (line.brace_mem_labelsText.2 ⟨l, hl, hmem⟩)
  rw [Exact, parsePodMetric, hnone] at h
  cases h

theorem quote_notMem_of_exact (h : line.Exact) : ∀ name ∈ podLabels, '"' ∉ (line.labelValue name).toList := by
  have hbrace := line.brace_notMem_labelsText (line.brace_notMem_of_exact h)
  intro name hname
  exact quote_notMem_parseLabelsLoop (fun _ _ hempty => by cases hempty) ((line.exact_iff_lookup hbrace).1 h name hname)

/-- A label of the pod is read as rendered if it is neither hidden nor escaped. -/
theorem lookup_eq_value_iff (hvalues : ∀ l ∈ line.labels, '"' ∈ l.2.toList → l.2.toList.getLast? ≠ some '=')
    {name : String} (h : name ∈ podLabels) (hquote : '"' ∉ (line.labelValue name).toList) :
    (parseLabels line.labelsText).lookup name = some (line.labelValue name) ↔
      shadowed name line.labels = false ∧
        '\\' ∉ (line.labelValue name).toList ∧ '\n' ∉ (line.labelValue name).toList := by
  have hname : '"' ∉ name.toList := by
    have hall : ∀ name ∈ podLabels, '"' ∉ name.toList := by decide
    exact hall name h
  have hplain : String.ofList (esc (line.labelValue name).toList) = line.labelValue name ↔
      '\\' ∉ (line.labelValue name).toList ∧ '\n' ∉ (line.labelValue name).toList := by
    rw [← String.toList_inj, String.toList_ofList, esc_eq_self]
    simp [hquote]
  rw [labelsText, intercalate_eq_tail_follow,
    lookup_parseLabels_follow line.label_names line.distinct hvalues hname (line.mem_labels h),
    readValue_of_notMem hquote, ← hplain]
  cases shadowed name line.labels <;> simp

theorem shadowed_of_no_quotes {labels : List (String × String)} (hquotes : ∀ l ∈ labels, '"' ∉ l.2.toList)
    (name : String) : shadowed name labels = false := by
  induction labels with
  | nil => rfl
  | cons l labels ih =>
    rw [List.forall_mem_cons] at hquotes
    rw [shadowed, afterQuote_eq_none hquotes.1, ih hquotes.2]
    rfl

/-- Which lines are read as rendered, if no value with a quote ends in an equals sign. -/
theorem exact_iff (hvalues : ∀ l ∈ line.labels, '"' ∈ l.2.toList → l.2.toList.getLast? ≠ some '=') :
    line.Exact ↔ (∀ l ∈ line.labels, '\x7d' ∉ l.2.toList) ∧ ∀ name ∈ podLabels,
      '"' ∉ (line.labelValue name).toList ∧ shadowed name line.labels = false ∧
        '\\' ∉ (line.labelValue name).toList ∧ '\n' ∉ (line.labelValue name).toList := by
  constructor
  · intro h
    have hbraces := line.brace_notMem_of_exact h
    refine ⟨hbraces, fun name hname => ?_⟩
    have hquote := line.quote_notMem_of_exact h name hname
    exact ⟨hquote, (line.lookup_eq_value_iff hvalues hname hquote).1
      ((line.exact_iff_lookup (line.brace_notMem_labelsText hbraces)).1 h name hname)⟩
  · rintro ⟨hbraces, hlabels⟩
    refine (line.exact_iff_lookup (line.brace_notMem_labelsText hbraces)).2 fun name hname => ?_
    exact (line.lookup_eq_value_iff hvalues hname (hlabels name hname).1).2 (hlabels name hname).2

end MetricLine

/-- A sample of 2.5 W of a pod with the given name, in the given zone. -/
def lineInZone (podName zone : String) : MetricLine where
  metric := "kepler_pod_cpu_watts".toList
  labels := [("node_name", "node-1"), ("pod_id", "abc-123"), ("pod_name", podName), ("pod_namespace", "default"),
    ("state", "running"), ("zone", zone)]
  value := ⟨false, ['2'], ['5'], none, by simp, by simp, by simp, by simp⟩
  metric_name := by simp [isNameChar]
  label_names := by simp [isNameChar]
  distinct := by simp only [List.map_cons, List.map_nil]; decide
  complete := by simp only [List.map_cons, List.map_nil]; decide

def lineOfPod (podName : String) : MetricLine := lineInZone podName "package"

end Keck.Controller
