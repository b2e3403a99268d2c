import Keck.Lib.Text
import Keck.Operator.Manifests
/-!
# What the operator tells the agent

Two lists of the KeckCluster reach the agent as texts in its environment:
`REDFISH_MAP`, read by `discover` in `keck-agent/src/hardware/platform.rs`, and
`KECK_CAPTURED_LABELS`, read by `parse_label_config` in `k8s/workload.rs`. The
operator joins both with commas and escapes nothing. The labels come back as
they were meant (`captured_labels_round_trip`). The map comes back for exactly
the serials that no separator in an entry gets in the way of
(`redfish_lookup_iff`).
-/
namespace Keck.Agent

open Keck.Lib Keck.Lib.Text
open Keck.Operator (EnvVar NodeBMCEntry RedfishSpec KeckClusterSpec agentEnv redfishEnv redfishMap)

/-- The text a variable is set to in a container. -/
def textVar (env : List EnvVar) (name : String) : Option String :=
  match env.find? fun v => v.name == name with
  | some ⟨_, .value text⟩ => some text
  | _ => none

/-! ## The map of BMC endpoints -/

/-- What one piece of the map says of a serial. -/
def readEntry (serial entry : List Char) : Option (List Char) :=
  match cut '=' entry with
  | some (key, value) => if trim key = serial then some (trim value) else none
  | none => none

/-- The lookup of a node's serial in `REDFISH_MAP`. -/
def redfishLookup (map serial : String) : Option String :=
  ((map.toList.splitOn ',').findSome? (readEntry serial.toList)).map String.ofList

/-- How `discover` finds the endpoint: the two variables, and the text of
`product_serial` if it can be read. -/
def resolveEndpoint (redfishEndpoint redfishMap productSerial : Option String) : Except String String :=
  match redfishEndpoint, redfishMap with
  | some ep, _ => .ok ep
  | none, some map =>
    let serial := String.ofList (trim (productSerial.getD "").toList)
    if serial.isEmpty then .error "Cannot read serial"
    else
      match redfishLookup map serial with
      | some ep => .ok ep
      | none => .error ("Serial " ++ serial ++ " not in REDFISH_MAP")
  | none, none => .error "REDFISH_ENDPOINT or REDFISH_MAP not set"

/-- What the KeckCluster means: the endpoint of the first entry for a serial. -/
def firstEndpoint (entries : List NodeBMCEntry) (serial : String) : Option String :=
  entries.findSome? fun e =>
    if trim e.serial.toList = serial.toList then some (String.ofList (trim e.endpoint.toList)) else none

/-- The text of one entry in the map. -/
def entryText (e : NodeBMCEntry) : List Char := e.serial.toList ++ '=' :: e.endpoint.toList

/-- What the pieces of one entry's text say of a serial. -/
def readPieces (serial : List Char) (e : NodeBMCEntry) : Option (List Char) :=
  ((entryText e).splitOn ',').findSome? (readEntry serial)

/-- No separator gets in the way of a serial: its first entry has none in the
serial and no comma in the endpoint, and no piece of an earlier entry speaks
of it, unless it happens to say the same. -/
def Legible (serial : String) : List NodeBMCEntry → Prop
  | [] => True
  | e :: rest =>
    if trim e.serial.toList = serial.toList then
      ',' ∉ serial.toList ∧ '=' ∉ serial.toList ∧ ',' ∉ e.endpoint.toList
    else
      match readPieces serial.toList e with
      | none => Legible serial rest
      | some value => firstEndpoint rest serial = some (String.ofList value)

theorem mem_trim {c : Char} (hc : isWhitespace c = false) (s : List Char) : c ∈ trim s ↔ c ∈ s :=
  mem_strip_of_neg hc s

/-- What a piece says holds none of the separators. -/
theorem readEntry_some {serial entry value : List Char} (h : readEntry serial entry = some value)
    (hc : ',' ∉ entry) : ',' ∉ serial ∧ '=' ∉ serial ∧ ',' ∉ value := by
  unfold readEntry at h
  split at h
  · rename_i key val hcut
    obtain ⟨rfl, heq⟩ := cut_eq_some_iff.1 hcut
    rw [List.mem_append, List.mem_cons] at hc
    simp only [not_or] at hc
    split at h
    · rename_i hkey
      cases h
      subst hkey
      refine ⟨?_, ?_, ?_⟩
      · rw [mem_trim (by decide)]
        exact hc.1
      · rw [mem_trim (by decide)]
        exact heq
      · rw [mem_trim (by decide)]
        exact hc.2.2
    · cases h
  · cases h

theorem findSome?_flatMap {α β γ : Type} (f : α → List β) (g : β → Option γ) (xs : List α) :
    (xs.flatMap f).findSome? g = xs.findSome? fun x => (f x).findSome? g := by
  induction xs with
  | nil => rfl
  | cons x xs ih =>
    rw [List.flatMap_cons, List.findSome?_append, ih, List.findSome?_cons]
    cases (f x).findSome? g <;> rfl

/-- The agent reads the entries' pieces in order. -/
theorem redfishLookup_redfishMap (entries : List NodeBMCEntry) (serial : String) :
    redfishLookup (redfishMap entries) serial =
      (entries.findSome? (readPieces serial.toList)).map String.ofList := by
  have htext : (redfishMap entries).toList = [','].intercalate (entries.map entryText) := by
    rw [redfishMap, String.toList_intercalate, List.map_map]
    congr 1
    exact List.map_congr_left fun e _ => by simp [entryText]
  rw [redfishLookup, htext]
  rcases eq_or_ne entries [] with rfl | hne
  · rfl
  · rw [splitOn_intercalate_flatMap _ (by simpa using hne), findSome?_flatMap, List.findSome?_map]
    rfl

/-- An entry without separators, as the CRD's descriptions have them. -/
def Clean (e : NodeBMCEntry) : Prop :=
  ',' ∉ e.serial.toList ∧ '=' ∉ e.serial.toList ∧ ',' ∉ e.endpoint.toList

/-- A clean entry says what it means. -/
theorem readPieces_clean {e : NodeBMCEntry} (h : Clean e) (serial : List Char) :
    readPieces serial e = if trim e.serial.toList = serial then some (trim e.endpoint.toList) else none := by
  obtain ⟨hs, hq, he⟩ := h
  have hc : ',' ∉ entryText e := by simp [entryText, hs, he]
  rw [readPieces, List.splitOn_eq_singleton hc, List.findSome?_cons, readEntry, entryText, cut_append hq]
  simp only [List.findSome?_nil]
  split <;> simp_all

theorem readPieces_iff (entries : List NodeBMCEntry) (serial : String) :
    (entries.findSome? (readPieces serial.toList)).map String.ofList = firstEndpoint entries serial ↔
      Legible serial entries := by
  induction entries with
  | nil => exact ⟨fun _ => trivial, fun _ => rfl⟩
  | cons e rest ih =>
    by_cases hs : trim e.serial.toList = serial.toList
    · have hfirst : firstEndpoint (e :: rest) serial = some (String.ofList (trim e.endpoint.toList)) := by
        simp [firstEndpoint, hs]
      rw [hfirst, Legible, if_pos hs]
      constructor
      · -- Whatever piece the answer comes from, it is free of separators.
        intro h
        obtain ⟨value, hv, hval⟩ := Option.map_eq_some_iff.1 h
        obtain ⟨e', -, he'⟩ := List.exists_of_findSome?_eq_some hv
        obtain ⟨piece, hp, hread⟩ := List.exists_of_findSome?_eq_some he'
        obtain ⟨h1, h2, h3⟩ := readEntry_some hread (notMem_of_mem_splitOn hp)
        rw [String.ofList_inj.1 hval, mem_trim (by decide)] at h3
        exact ⟨h1, h2, h3⟩
      · rintro ⟨h1, h2, h3⟩
        rw [← hs, mem_trim (by decide)] at h1 h2
        rw [List.findSome?_cons, readPieces_clean ⟨h1, h2, h3⟩, if_pos hs]
        rfl
    · have hfirst : firstEndpoint (e :: rest) serial = firstEndpoint rest serial := by
        simp [firstEndpoint, hs]
      rw [hfirst, Legible, if_neg hs, List.findSome?_cons]
      cases readPieces serial.toList e with
      | none => exact ih
      | some value => exact eq_comm

/-- For every map and serial, the agent finds what the operator was told exactly
if no separator gets in the way. -/
theorem redfish_lookup_iff (entries : List NodeBMCEntry) (serial : String) :
    redfishLookup (redfishMap entries) serial = firstEndpoint entries serial ↔ Legible serial entries := by
  rw [redfishLookup_redfishMap]
  exact readPieces_iff entries serial

/-- A serial with a comma in it, as the CRD admits. -/
def commaMap : List NodeBMCEntry := [⟨"SN,01", "https://10.0.0.1"⟩]

/-- The agent does not find it. -/
theorem comma_in_serial_lost :
    firstEndpoint commaMap "SN,01" = some "https://10.0.0.1" ∧
      redfishLookup (redfishMap commaMap) "SN,01" = none := by
  decide

theorem legible_of_clean {entries : List NodeBMCEntry} (h : ∀ e ∈ entries, Clean e) (serial : String) :
    Legible serial entries := by
  induction entries with
  | nil => trivial
  | cons e rest ih =>
    have he := h e List.mem_cons_self
    unfold Legible
    split
    · rename_i hs
      rw [← hs, mem_trim (by decide), mem_trim (by decide)]
      exact he
    · rename_i hs
      rw [readPieces_clean he, if_neg hs]
      exact ih fun e' he' => h e' (List.mem_cons_of_mem e he')

theorem textVar_redfishMap {spec : KeckClusterSpec} {rf : RedfishSpec} (hrf : spec.agent.redfish = some rf)
    (hne : rf.nodeBMCMap ≠ []) : textVar (agentEnv spec) "REDFISH_MAP" = some (redfishMap rf.nodeBMCMap) := by
  have hlen : rf.nodeBMCMap.length > 0 := List.length_pos_iff.2 hne
  rw [textVar, agentEnv, hrf]
  simp only [redfishEnv, hlen, if_true, List.find?_append]
  split_ifs <;> rfl

/-- With clean entries, the agent of a node finds the BMC its KeckCluster names
for the node's serial, and otherwise says that there is none. -/
theorem resolveEndpoint_of_operator {spec : KeckClusterSpec} {rf : RedfishSpec} (hrf : spec.agent.redfish = some rf)
    (hne : rf.nodeBMCMap ≠ []) (hclean : ∀ e ∈ rf.nodeBMCMap, Clean e) {serial : String} (hs : serial ≠ "")
    {productSerial : String} (hp : trim productSerial.toList = serial.toList) :
    resolveEndpoint none (textVar (agentEnv spec) "REDFISH_MAP") (some productSerial) =
      match firstEndpoint rf.nodeBMCMap serial with
      | some ep => .ok ep
      | none => .error ("Serial " ++ serial ++ " not in REDFISH_MAP") := by
  have hread := (readPieces_iff rf.nodeBMCMap serial).2 (legible_of_clean hclean serial)
  rw [textVar_redfishMap hrf hne, resolveEndpoint]
  simp only [Option.getD_some, hp, String.ofList_toList, redfishLookup_redfishMap, hread]
  rw [if_neg (by simpa using hs)]

/-! ## The captured labels -/

def stripSuffix (suffix s : List Char) : Option (List Char) :=
  if suffix.isSuffixOf s then some (s.take (s.length - suffix.length)) else none

/-- The keys to capture, and the beginnings of keys to capture. -/
def parseLabelConfig (raw : String) : List String × List String :=
  let entries := ((raw.toList.splitOn ',').map trim).filter fun e => !e.isEmpty
  (entries.filterMap fun e => if (stripSuffix "/*".toList e).isSome then none else some (String.ofList e),
   entries.filterMap fun e => (stripSuffix "/*".toList e).map fun stem => String.ofList (stem ++ ['/']))

def defaultCapturedLabels : List String :=
  ["app.kubernetes.io/name", "app.kubernetes.io/part-of", "app.kubernetes.io/component",
   "argocd.argoproj.io/instance", "olm.owner"]

def defaultCapturedPrefixes : List String := ["operators.coreos.com/"]

/-- What `main` makes of the variable. -/
def labelConfig (capturedLabels : Option String) : List String × List String :=
  let raw := capturedLabels.getD ""
  if raw.isEmpty then (defaultCapturedLabels, defaultCapturedPrefixes) else parseLabelConfig raw

def captureLabels (podLabels : Table String String) (exactKeys prefixKeys : List String) : Table String String :=
  let captured : Table String String := exactKeys.foldl (fun m key =>
    match podLabels.lookup key with
    | some val => m.insert key val
    | none => m) ∅
  prefixKeys.foldl (fun m start =>
    podLabels.entries.foldl (fun m e => if start.toList.isPrefixOf e.1.toList then m.insert e.1 e.2 else m) m) captured

/-- The labels captured so far are those of the pod whose key is in `P`. -/
def Captured (podLabels : Table String String) (P : String → Prop) (m : Table String String) : Prop :=
  ∀ key val, m.lookup key = some val ↔ podLabels.lookup key = some val ∧ P key

section Capture
variable {podLabels m : Table String String} {P Q : String → Prop}

theorem captured_empty : Captured podLabels (fun _ => False) ∅ := by
  intro key val
  simp

theorem Captured.congr (h : Captured podLabels P m) (e : ∀ key, P key ↔ Q key) : Captured podLabels Q m := by
  intro key val
  rw [h key val, e key]

theorem Captured.insert (h : Captured podLabels P m) {key val : String} (hk : podLabels.lookup key = some val) :
    Captured podLabels (fun k => P k ∨ k = key) (m.insert key val) := by
  intro k v
  rw [AList.lookup_insert_if]
  split
  · rename_i e
    subst e
    simp [hk]
  · rename_i e
    simp [h k v, e]

theorem captured_exact (keys : List String) (h : Captured podLabels P m) :
    Captured podLabels (fun k => P k ∨ k ∈ keys) (keys.foldl (fun m key =>
      match podLabels.lookup key with
      | some val => m.insert key val
      | none => m) m) := by
  induction keys generalizing m P with
  | nil => exact h.congr (by simp)
  | cons key keys ih =>
    rw [List.foldl_cons]
    cases hk : podLabels.lookup key with
    | some val =>
      refine (ih (h.insert hk)).congr fun k => ?_
      rw [List.mem_cons, or_assoc]
    | none =>
      -- A key the pod does not have selects nothing.
      intro k v
      rw [ih h k v]
      refine and_congr_right fun hv => ?_
      have hne : k ≠ key := by
        rintro rfl
        rw [hk] at hv
        cases hv
      simp [hne]

theorem captured_entries (start : String) (entries : List (Σ _ : String, String))
    (he : ∀ e ∈ entries, podLabels.lookup e.1 = some e.2) (h : Captured podLabels P m) :
    Captured podLabels (fun k => P k ∨ (start.toList <+: k.toList ∧ k ∈ entries.map (·.1)))
      (entries.foldl (fun m e => if start.toList.isPrefixOf e.1.toList then m.insert e.1 e.2 else m) m) := by
  induction entries generalizing m P with
  | nil => exact h.congr (by simp)
  | cons e entries ih =>
    have hrest : ∀ e ∈ entries, podLabels.lookup e.1 = some e.2 := fun e' h' => he e' (List.mem_cons_of_mem e h')
    rw [List.foldl_cons]
    split
    · rename_i hp
      rw [List.isPrefixOf_iff_prefix] at hp
      refine (ih hrest (h.insert (he e List.mem_cons_self))).congr fun k => ?_
      rw [List.map_cons, List.mem_cons]
      by_cases hk : k = e.1
      · subst hk
        simp [hp]
      · simp [hk]
    · rename_i hp
      rw [List.isPrefixOf_iff_prefix] at hp
      refine (ih hrest h).congr fun k => ?_
      rw [List.map_cons, List.mem_cons]
      by_cases hk : k = e.1
      · subst hk
        simp [hp]
      · simp [hk]

theorem captured_starts (starts : List String) (h : Captured podLabels P m) :
    Captured podLabels (fun k => P k ∨ ∃ start ∈ starts, start.toList <+: k.toList)
      (starts.foldl (fun m start => podLabels.entries.foldl
        (fun m e => if start.toList.isPrefixOf e.1.toList then m.insert e.1 e.2 else m) m) m) := by
  induction starts generalizing m P with
  | nil => exact h.congr (by simp)
  | cons start starts ih =>
    rw [List.foldl_cons]
    have hstep := captured_entries start podLabels.entries (fun e he => AList.mem_entries.1 he) h
    intro k v
    rw [ih hstep k v]
    refine and_congr_right fun hv => ?_
    have hmem : k ∈ podLabels.entries.map (·.1) := List.mem_map.2 ⟨⟨k, v⟩, AList.mem_entries.2 hv, rfl⟩
    simp only [hmem, and_true, List.mem_cons, exists_eq_or_imp, or_assoc]

/-- What is captured for any keys and beginnings. -/
theorem captured_captureLabels (exactKeys prefixKeys : List String) :
    Captured podLabels (fun k => k ∈ exactKeys ∨ ∃ start ∈ prefixKeys, start.toList <+: k.toList)
      (captureLabels podLabels exactKeys prefixKeys) := by
  refine (captured_starts prefixKeys (captured_exact exactKeys captured_empty)).congr fun k => ?_
  simp

end Capture

theorem stripSuffix_eq_some_iff {suffix s stem : List Char} :
    stripSuffix suffix s = some stem ↔ s = stem ++ suffix := by
  unfold stripSuffix
  constructor
  · intro h
    split at h
    · rename_i hs
      obtain ⟨t, rfl⟩ := List.isSuffixOf_iff_suffix.1 hs
      cases h
      simp
    · cases h
  · rintro rfl
    simp [List.isSuffixOf_iff_suffix]

/-- A label to capture as the CRD means it. -/
structure PlainLabel (e : String) : Prop where
  nonempty : e ≠ ""
  noComma : ',' ∉ e.toList
  trimmed : trim e.toList = e.toList

/-- Plain labels are read back one by one. -/
theorem split_capturedLabels {labels : List String} (hne : labels ≠ []) (h : ∀ e ∈ labels, PlainLabel e) :
    (((",".intercalate labels).toList.splitOn ',').map trim).filter (fun e => !e.isEmpty) =
      labels.map String.toList := by
  have hsplit : (",".intercalate labels).toList.splitOn ',' = labels.map String.toList := by
    rw [String.toList_intercalate]
    refine List.splitOn_intercalate ',' (fun l hl => ?_) (by simpa using hne)
    obtain ⟨e, he, rfl⟩ := List.mem_map.1 hl
    exact (h e he).noComma
  have htrim : (labels.map String.toList).map trim = labels.map String.toList := by
    rw [List.map_map]
    exact List.map_congr_left fun e he => (h e he).trimmed
  rw [hsplit, htrim, List.filter_eq_self]
  intro l hl
  obtain ⟨e, he, rfl⟩ := List.mem_map.1 hl
  simpa using (h e he).nonempty

theorem mem_exactKeys {labels : List String} (hne : labels ≠ []) (h : ∀ e ∈ labels, PlainLabel e) (key : String) :
    key ∈ (parseLabelConfig (",".intercalate labels)).1 ↔ key ∈ labels ∧ ¬∃ stem, key = stem ++ "/*" := by
  have hstar : (stripSuffix "/*".toList key.toList).isSome = true ↔ ∃ stem, key = stem ++ "/*" := by
    rw [Option.isSome_iff_exists]
    constructor
    · rintro ⟨stem, hs⟩
      refine ⟨String.ofList stem, ?_⟩
      rw [← String.toList_inj, String.toList_append, String.toList_ofList]
      exact stripSuffix_eq_some_iff.1 hs
    · rintro ⟨stem, rfl⟩
      exact ⟨stem.toList, stripSuffix_eq_some_iff.2 String.toList_append⟩
  simp only [parseLabelConfig, split_capturedLabels hne h, List.mem_filterMap, List.mem_map]
  constructor
  · rintro ⟨_, ⟨e, he, rfl⟩, hk⟩
    split at hk
    · cases hk
    · rename_i hno
      rw [String.ofList_toList, Option.some.injEq] at hk
      subst hk
      exact ⟨he, fun hs => hno (hstar.2 hs)⟩
  · rintro ⟨hk, hno⟩
    refine ⟨key.toList, ⟨key, hk, rfl⟩, ?_⟩
    rw [if_neg fun hs => hno (hstar.1 hs), String.ofList_toList]

theorem mem_prefixKeys {labels : List String} (hne : labels ≠ []) (h : ∀ e ∈ labels, PlainLabel e) (start : String) :
    start ∈ (parseLabelConfig (",".intercalate labels)).2 ↔ ∃ stem, stem ++ "/*" ∈ labels ∧ start = stem ++ "/" := by
  simp only [parseLabelConfig, split_capturedLabels hne h, List.mem_filterMap, List.mem_map,
    Option.map_eq_some_iff]
  constructor
  · rintro ⟨_, ⟨e, he, rfl⟩, stem, hs, rfl⟩
    rw [stripSuffix_eq_some_iff] at hs
    refine ⟨String.ofList stem, ?_, ?_⟩
    · rwa [← String.toList_inj.1 (hs.trans (by simp) : e.toList = (String.ofList stem ++ "/*").toList)]
    · rw [← String.toList_inj]
      simp
  · rintro ⟨stem, hs, rfl⟩
    refine ⟨_, ⟨_, hs, rfl⟩, stem.toList, stripSuffix_eq_some_iff.2 String.toList_append, ?_⟩
    rw [← String.toList_inj]
    simp

theorem textVar_capturedLabels {spec : KeckClusterSpec} (hne : spec.agent.capturedLabels ≠ []) :
    textVar (agentEnv spec) "KECK_CAPTURED_LABELS" = some (",".intercalate spec.agent.capturedLabels) := by
  have hlen : spec.agent.capturedLabels.length > 0 := List.length_pos_iff.2 hne
  rw [textVar, agentEnv]
  simp only [hlen, if_true, List.find?_append]
  split_ifs <;> rfl

/-- A pod label the KeckCluster asks for: by its key, or by what its key begins
with. -/
def Asked (labels : List String) (key : String) : Prop :=
  (key ∈ labels ∧ ¬∃ stem, key = stem ++ "/*") ∨ ∃ stem, stem ++ "/*" ∈ labels ∧ ∃ rest, key = stem ++ "/" ++ rest

/-- For every non-empty list of plain labels, the agent parses what the operator
joined, and captures exactly the labels of a pod that were asked for. -/
theorem captured_labels_round_trip (spec : KeckClusterSpec) (hne : spec.agent.capturedLabels ≠ [])
    (h : ∀ e ∈ spec.agent.capturedLabels, PlainLabel e) :
    let config := parseLabelConfig (",".intercalate spec.agent.capturedLabels)
    labelConfig (textVar (agentEnv spec) "KECK_CAPTURED_LABELS") = config ∧
    ∀ (podLabels : Table String String) (key val : String),
      (captureLabels podLabels config.1 config.2).lookup key = some val ↔
        podLabels.lookup key = some val ∧ Asked spec.agent.capturedLabels key := by
  refine ⟨?_, fun podLabels key val => ?_⟩
  · rw [textVar_capturedLabels hne, labelConfig, Option.getD_some, if_neg]
    intro hempty
    have hsplit := split_capturedLabels hne h
    rw [String.isEmpty_iff.1 hempty] at hsplit
    exact hne (List.map_eq_nil_iff.1 hsplit.symm)
  · rw [captured_captureLabels _ _ key val]
    refine and_congr_right fun _ => or_congr (mem_exactKeys hne h key) ?_
    constructor
    · rintro ⟨start, hs, hpre⟩
      obtain ⟨stem, hstem, rfl⟩ := (mem_prefixKeys hne h start).1 hs
      obtain ⟨rest, hrest⟩ := hpre
      refine ⟨stem, hstem, String.ofList rest, ?_⟩
      rw [← String.toList_inj, ← hrest]
      simp
    · rintro ⟨stem, hstem, rest, rfl⟩
      exact ⟨stem ++ "/", (mem_prefixKeys hne h _).2 ⟨stem, hstem, rfl⟩, rest.toList, by simp⟩

def labelSpec : KeckClusterSpec := { agent := { capturedLabels := ["team", "operators.coreos.com/*"] } }

/-- A label asked for by its beginning. -/
theorem operator_label_captured :
    (captureLabels (AList.singleton "operators.coreos.com/logging" "") ["team"] ["operators.coreos.com/"]).lookup
      "operators.coreos.com/logging" = some "" := by
  have hplain : ∀ e ∈ labelSpec.agent.capturedLabels, PlainLabel e :=
    List.forall_mem_cons.2 ⟨⟨by decide, by decide, by decide⟩,
      List.forall_mem_singleton.2 ⟨by decide, by decide, by decide⟩⟩
  have hconfig : parseLabelConfig (",".intercalate labelSpec.agent.capturedLabels) =
      (["team"], ["operators.coreos.com/"]) := by decide
  have hround := (captured_labels_round_trip labelSpec (by decide) hplain).2
  rw [hconfig] at hround
  refine (hround _ "operators.coreos.com/logging" "").2 ⟨rfl, .inr ⟨"operators.coreos.com", ?_, "logging", rfl⟩⟩
  decide

end Keck.Agent
