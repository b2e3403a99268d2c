import Keck.Lib.Float
import Keck.Lib.Table
import Keck.Lib.Text
/-!
# Reading Kepler's metrics

The line parsers of `keck-controller/src/kepler_scraper.rs`. A line is scanned
as a list of characters. The loop of `parse_labels` runs on fuel; every round
shortens the text (`length_labelsRound`), so its length is enough.
-/
namespace Keck.Controller

open Keck.Lib Keck.Lib.Text

/-! ## Labels -/

def parseLabelsLoop : Nat → List Char → Table String String → Table String String
  | 0, _, result => result
  | fuel + 1, remaining, result =>
    match cut '=' remaining with
    | none => result
    | some (key, remaining) =>
      let key := trim ((trim key).dropWhile (· == ','))
      match remaining with
      | '"' :: remaining =>
        match cut '"' remaining with
        | none => result
        | some (value, remaining) =>
          let remaining := if remaining.head? = some ',' then remaining.tail else remaining
          parseLabelsLoop fuel remaining (result.insert (String.ofList key) (String.ofList value))
      | _ => result

def parseLabels (s : List Char) : Table String String := parseLabelsLoop s.length s ∅

/-- One round of the loop: what remains and the labels so far, or nothing where
the loop ends. -/
def labelsRound (remaining : List Char) (result : Table String String) :
    Option (List Char × Table String String) :=
  match cut '=' remaining with
  | none => none
  | some (key, remaining) =>
    let key := trim ((trim key).dropWhile (· == ','))
    match remaining with
    | '"' :: remaining =>
      match cut '"' remaining with
      | none => none
      | some (value, remaining) =>
        let remaining := if remaining.head? = some ',' then remaining.tail else remaining
        some (remaining, result.insert (String.ofList key) (String.ofList value))
    | _ => none

theorem parseLabelsLoop_succ (fuel : Nat) (s : List Char) (m : Table String String) :
    parseLabelsLoop (fuel + 1) s m =
      match labelsRound s m with
      | none => m
      | some (s', m') => parseLabelsLoop fuel s' m' := by
  rw [parseLabelsLoop, labelsRound]
  split
  · rfl
  · dsimp only
    split
    · split <;> rfl
    · rfl

/-- What a round can do: it takes one label off the text. -/
theorem labelsRound_eq_some {s s' : List Char} {m m' : Table String String} (h : labelsRound s m = some (s', m')) :
    ∃ key value rest, s = key ++ '=' :: '"' :: (value ++ '"' :: rest) ∧ '"' ∉ value ∧
      s' = (if rest.head? = some ',' then rest.tail else rest) ∧
      m' = m.insert (String.ofList (trim ((trim key).dropWhile (· == ',')))) (String.ofList value) := by
  rw [labelsRound] at h
  split at h
  · cases h
  · next key remaining hcut =>
    dsimp only at h
    split at h
    · next remaining =>
      split at h
      · cases h
      · next value rest hquote =>
        obtain ⟨rfl, hvalue⟩ := cut_eq_some_iff.1 hquote
        cases h
        exact ⟨key, value, rest, (cut_eq_some_iff.1 hcut).1, hvalue, rfl, rfl⟩
    · cases h

theorem length_labelsRound {s s' : List Char} {m m' : Table String String} (h : labelsRound s m = some (s', m')) :
    s'.length < s.length := by
  obtain ⟨key, value, rest, rfl, _, rfl, _⟩ := labelsRound_eq_some h
  have htail : (if rest.head? = some ',' then rest.tail else rest).length ≤ rest.length := by
    split
    · rw [List.length_tail]
      omega
    · exact le_rfl
  simp only [List.length_append, List.length_cons]
  omega

/-! ## Samples -/

structure PodKey where
  podId : String
  podName : String
  podNamespace : String
  nodeName : String
  state : String
  deriving DecidableEq

/-- The labels and the value of a line. -/
def parseMetric (line : List Char) : Option (Table String String × F64) := do
  let braceStart ← line.findIdx? (· == '\x7b')
  let braceEnd ← line.findIdx? (· == '\x7d')
  let labelsStr := (line.take braceEnd).drop (braceStart + 1)
  let valueStr := trim (line.drop (braceEnd + 1))
  let watts ← F64.parse valueStr
  return (parseLabels labelsStr, watts)

def parsePodMetric (line : List Char) : Option (PodKey × F64) := do
  let (labels, watts) ← parseMetric line
  let podId ← labels.lookup "pod_id"
  let podName ← labels.lookup "pod_name"
  let podNamespace ← labels.lookup "pod_namespace"
  let nodeName ← labels.lookup "node_name"
  let state ← labels.lookup "state"
  return (⟨podId, podName, podNamespace, nodeName, state⟩, watts)

def parseNodeMetric (line : List Char) : Option (String × F64) := do
  let (labels, watts) ← parseMetric line
  let node ← labels.lookup "node_name"
  return (node, watts)

/-- A parsed line of one of the metrics that are read. -/
inductive Sample where
  | podCpu (key : PodKey) (watts : F64)
  | podGpu (key : PodKey) (watts : F64)
  | nodeCpu (node : String) (watts : F64)
  | nodeIdle (node : String) (watts : F64)
  | nodeGpu (node : String) (watts : F64)
  | platform (node : String) (watts : F64)

/-- The node a sample is about. -/
def Sample.node : Sample → String
  | podCpu key _ | podGpu key _ => key.nodeName
  | nodeCpu node _ | nodeIdle node _ | nodeGpu node _ | platform node _ => node

/-- The pod a sample is about, if it is of a running pod. -/
def Sample.running? : Sample → Option PodKey
  | podCpu key _ | podGpu key _ => if key.state = "running" then some key else none
  | _ => none

def parseLine (line : List Char) : Option Sample :=
  if line.head? = some '#' || line.isEmpty then none
  else if "kepler_pod_cpu_watts\x7b".toList.isPrefixOf line then
    (parsePodMetric line).map fun (key, watts) => .podCpu key watts
  else if "kepler_pod_gpu_watts\x7b".toList.isPrefixOf line then
    (parsePodMetric line).map fun (key, watts) => .podGpu key watts
  else if "kepler_node_cpu_watts\x7b".toList.isPrefixOf line then
    (parseNodeMetric line).map fun (node, watts) => .nodeCpu node watts
  else if "kepler_node_cpu_idle_watts\x7b".toList.isPrefixOf line then
    (parseNodeMetric line).map fun (node, watts) => .nodeIdle node watts
  else if "kepler_node_gpu_watts\x7b".toList.isPrefixOf line then
    (parseNodeMetric line).map fun (node, watts) => .nodeGpu node watts
  else if "kepler_platform_watts\x7b".toList.isPrefixOf line then
    (parseNodeMetric line).map fun (node, watts) => .platform node watts
  else none

/-- The samples of a scraped body, in its order. -/
def samples (body : String) : List Sample := (lines body.toList).filterMap parseLine

end Keck.Controller
