import Keck.Agent.Procfs
/-!
# What the kernel writes is what the agent reads

The texts of `/proc/[pid]/stat` and `/proc/[pid]/cgroup` as the kernel prints
them, and what the parsers of `Keck.Agent.Procfs` read back. The command name in
the first and the names below the pod's slice in the second are chosen by the
workload, so nothing is assumed about them.

`readProcStat` takes its fields behind the last closing parenthesis, where no
command name reaches. `extractPodUid` takes the path behind the last colon of a
line, where a name with a colon does reach.
-/
namespace Keck.Agent

open Keck.Lib.Text

/-! ## /proc/[pid]/stat -/

/-- A number as the kernel prints it, with a sign where it is negative. -/
def intText (n : Int) : List Char := (if n < 0 then ['-'] else []) ++ Nat.toDigits 10 n.natAbs

/-- A line `pid (comm) state f4 f5 …`. -/
def statText (pid : Nat) (comm : List Char) (state : Char) (fields : List Int) : List Char :=
  Nat.toDigits 10 pid ++ " (".toList ++ comm ++ ')' :: ([state] :: fields.map intText).flatMap (' ' :: ·)

/-- The field of a number in the kernel's numbering, which starts at 1 with the
pid and reaches the first number behind the state with 4. -/
def numberedField (fields : List Int) (number : Nat) : Option Int := fields[number - 4]?

theorem intText_natCast (n : Nat) : intText n = Nat.toDigits 10 n := by simp [intText]

theorem mem_intText {n : Int} {c : Char} (hc : c ∈ intText n) : c = '-' ∨ c.isDigit = true := by
  rcases List.mem_append.1 hc with hsign | hdigit
  · split at hsign
    · exact .inl (List.mem_singleton.1 hsign)
    · cases hsign
  · exact .inr (Nat.isDigit_of_mem_toDigits (by decide) (by decide) hdigit)

/-- A word of the line behind the command name: the state or a number. -/
theorem mem_statWords {state : Char} (hstate : state.isAlpha = true) {fields : List Int} {w : List Char}
    (hw : w ∈ [state] :: fields.map intText) : w ≠ [] ∧ ∀ c ∈ w, c = '-' ∨ c.isAlphanum = true := by
  rcases List.mem_cons.1 hw with rfl | hfield
  · refine ⟨by simp, fun c hc => .inr ?_⟩
    rw [List.mem_singleton.1 hc, Char.isAlphanum, hstate, Bool.true_or]
  · obtain ⟨n, _, rfl⟩ := List.mem_map.1 hfield
    refine ⟨by simp [intText, Nat.toDigits_ne_nil], fun c hc => ?_⟩
    rcases mem_intText hc with hsign | hdigit
    · exact .inl hsign
    · exact .inr (by rw [Char.isAlphanum, hdigit, Bool.or_true])

/-- No name ends the search for the fields early or late: the last closing
parenthesis of the line is the one the kernel writes. -/
theorem afterLast_statText (pid : Nat) (comm : List Char) {state : Char} (hstate : state.isAlpha = true)
    (fields : List Int) {tail : List Char} (htail : ∀ c ∈ tail, isWhitespace c = true) :
    afterLast ')' (statText pid comm state fields ++ tail) =
      some (([state] :: fields.map intText).flatMap (' ' :: ·) ++ tail) := by
  have hnot : ')' ∉ ([state] :: fields.map intText).flatMap (' ' :: ·) ++ tail := by
    intro hmem
    rcases List.mem_append.1 hmem with hword | hblank
    · obtain ⟨w, hw, hc⟩ := List.mem_flatMap.1 hword
      rcases List.mem_cons.1 hc with heq | hc
      · cases heq
      · rcases (mem_statWords hstate hw).2 _ hc with heq | halnum
        · cases heq
        · cases halnum
    · cases htail _ hblank
  rw [statText, List.append_assoc, List.cons_append]
  exact afterLast_append hnot _

/-- The words behind the command name are the state and the numbers. -/
theorem splitWhitespace_statWords {state : Char} (hstate : state.isAlpha = true) (fields : List Int)
    {tail : List Char} (htail : ∀ c ∈ tail, isWhitespace c = true) :
    splitWhitespace (([state] :: fields.map intText).flatMap (' ' :: ·) ++ tail) = [state] :: fields.map intText := by
  have hwords : ∀ w ∈ [state] :: fields.map intText, w ≠ [] ∧ ∀ c ∈ w, isWhitespace c = false := by
    intro w hw
    obtain ⟨hne, hchars⟩ := mem_statWords hstate hw
    refine ⟨hne, fun c hc => ?_⟩
    rcases hchars c hc with rfl | halnum
    · rfl
    · exact isWhitespace_of_isAlphanum halnum
  exact splitWhitespace_words hwords htail []

/-- A numbered field behind the state is read at its place among the words. -/
theorem parse_numberedField {fields : List Int} {number n : Nat} (state : Char) (hnumber : 4 ≤ number)
    (hfield : numberedField fields number = some (n : Int)) (hfit : n < 2 ^ 64) :
    ([state] :: fields.map intText)[number - 3]?.bind (parseUnsigned 64) = some n := by
  have hplace : number - 3 = (number - 4) + 1 := by omega
  rw [numberedField] at hfield
  rw [hplace, List.getElem?_cons_succ, List.getElem?_map, hfield, Option.map_some, Option.bind_some,
    intText_natCast, parseUnsigned_toDigits hfit]

/-- The times and page faults of a process are read from their fields of the
kernel's line, whatever the process is called. The kernel ends the line with a
line break. -/
theorem readProcStat_statText (pid : Nat) (comm : List Char) {state : Char} (hstate : state.isAlpha = true)
    {fields : List Int} (hfields : 12 ≤ fields.length) (minflt majflt utime stime : Nat)
    (hminflt : numberedField fields 10 = some (minflt : Int)) (hmajflt : numberedField fields 12 = some (majflt : Int))
    (hutime : numberedField fields 14 = some (utime : Int)) (hstime : numberedField fields 15 = some (stime : Int))
    (hminfit : minflt < 2 ^ 64) (hmajfit : majflt < 2 ^ 64) (hticks : utime + stime < 2 ^ 64)
    {tail : List Char} (htail : ∀ c ∈ tail, isWhitespace c = true) :
    readProcStat (some (String.ofList (statText pid comm state fields ++ tail))) =
      some ⟨utime + stime, minflt, majflt⟩ := by
  have hmin := parse_numberedField state (by decide) hminflt hminfit
  have hmaj := parse_numberedField state (by decide) hmajflt hmajfit
  have hu := parse_numberedField state (by decide) hutime (by omega)
  have hs := parse_numberedField state (by decide) hstime (by omega)
  have hcount : ¬ ([state] :: fields.map intText).length < 13 := by simpa using hfields
  simp only [readProcStat, Option.bind_eq_bind, Option.bind_some, String.toList_ofList,
    afterLast_statText pid comm hstate fields htail, splitWhitespace_statWords hstate fields htail, if_neg hcount]
  rw [hmin, hmaj, hu, hs]
  rfl

/-- A process named to look like the rest of its line. -/
theorem readProcStat_statText_misleading :
    readProcStat (some (String.ofList (statText 7 "a) R 1 (2".toList 'S'
      [1, 7, 7, 0, -1, 4194560, 120, 0, 3, 0, 250, 31, 20] ++ ['\n']))) = some ⟨250 + 31, 120, 3⟩ :=
  readProcStat_statText 7 _ (by decide) (by decide) 120 3 250 31 rfl rfl rfl rfl (by decide) (by decide) (by decide)
    (List.forall_mem_singleton.2 rfl)

/-! ## /proc/[pid]/cgroup -/

/-- A line that is ended is read as it is, unless it ends with a carriage return. -/
theorem lines_append_newline {l : List Char} (hl : '\n' ∉ l) (hcr : l.getLast? ≠ some '\r') (more : List Char) :
    lines (l ++ '\n' :: more) = l :: lines more := by
  have hline : l.splitOnP (· == '\n') = [l] := by
    refine List.splitOnP_eq_singleton fun c hc => ?_
    have hne : c ≠ '\n' := fun h => hl (h ▸ hc)
    simpa using hne
  have hsplit : (l ++ '\n' :: more).splitOnP (· == '\n') = l.splitOnP (· == '\n') ++ more.splitOnP (· == '\n') :=
    List.splitOnP_append_cons l more rfl
  rw [hline] at hsplit
  obtain ⟨part, parts, hparts⟩ := List.exists_cons_of_ne_nil (List.splitOnP_ne_nil (· == '\n') more)
  simp [lines, hsplit, hparts, hcr]

/-- The quality of service classes of pods. -/
inductive Qos where
  | guaranteed
  | burstable
  | besteffort

/-- What the slices of a class are called. -/
def Qos.slice : Qos → String
  | .guaranteed => "kubepods"
  | .burstable => "kubepods-burstable"
  | .besteffort => "kubepods-besteffort"

/-- A path up to the mark in front of the pod's uid, below the slice of a class
if there is one. -/
def podPathHead (parent : Option Qos) (qos : Qos) : List Char :=
  "/kubepods.slice/".toList ++ (parent.elim "" fun q => q.slice ++ ".slice/").toList ++ qos.slice.toList

/-- A uid as systemd has it in the name of a slice. -/
def escapeUid (uid : List Char) : List Char := uid.map fun c => if c = '-' then '_' else c

/-- The line of a process in a pod, `suffix` being what is below the pod's slice. -/
def podLine (parent : Option Qos) (qos : Qos) (uid suffix : List Char) : List Char :=
  "0:".toList ++ ':' :: (podPathHead parent qos ++ ("-pod".toList ++ (escapeUid uid ++ (".slice/".toList ++ suffix))))

def isLowerHexDigit (c : Char) : Bool := c.isDigit || ('a' ≤ c && c ≤ 'f')

theorem afterFirst_podPathHead (parent : Option Qos) (qos : Qos) (rest : List Char) :
    afterFirst "-pod".toList (podPathHead parent qos ++ ("-pod".toList ++ rest)) = some rest := by
  rcases parent with _ | parent
  · cases qos <;> rfl
  · cases parent <;> cases qos <;> rfl

theorem colon_notMem_podPathHead (parent : Option Qos) (qos : Qos) : ':' ∉ podPathHead parent qos := by
  rcases parent with _ | parent
  · cases qos <;> decide
  · cases parent <;> cases qos <;> decide

theorem isAlphanum_of_isLowerHexDigit {c : Char} (hc : isLowerHexDigit c = true) : c.isAlphanum = true := by
  simp only [isLowerHexDigit, Bool.or_eq_true, Bool.and_eq_true, decide_eq_true_eq] at hc
  rcases hc with hdigit | ⟨hlow, hhigh⟩
  · simp [Char.isAlphanum, hdigit]
  · have hlower : c.isLower = true := by
      simp only [Char.isLower, Bool.and_eq_true, decide_eq_true_eq]
      exact ⟨hlow, le_trans hhigh (by decide)⟩
    simp [Char.isAlphanum, Char.isAlpha, hlower]

section Uid

variable {uid : List Char} (huid : ∀ c ∈ uid, c = '-' ∨ isLowerHexDigit c = true)
include huid

theorem mem_escapeUid {c : Char} (hc : c ∈ escapeUid uid) : c = '_' ∨ c.isAlphanum = true := by
  obtain ⟨a, ha, rfl⟩ := List.mem_map.1 hc
  rcases huid a ha with rfl | hhex
  · exact .inl rfl
  · split
    · exact .inl rfl
    · exact .inr (isAlphanum_of_isLowerHexDigit hhex)

theorem unescapeUid : (escapeUid uid).map (fun c => if c = '_' then '-' else c) = uid := by
  rw [escapeUid, List.map_map, List.map_congr_left, List.map_id]
  intro c hc
  rcases huid c hc with rfl | hhex
  · rfl
  · have hdash : c ≠ '-' := by rintro rfl; cases hhex
    have hunderscore : c ≠ '_' := by rintro rfl; cases hhex
    simp [hdash, hunderscore]

/-- Without a colon below the pod's slice the path is the whole path. -/
theorem podUidOfLine_podLine (hlen : 8 ≤ uid.length) (parent : Option Qos) (qos : Qos) {suffix : List Char}
    (hsuffix : ':' ∉ suffix) : podUidOfLine (podLine parent qos uid suffix) = some (String.ofList uid) := by
  have hcolon : ':' ∉ podPathHead parent qos ++ ("-pod".toList ++ (escapeUid uid ++ (".slice/".toList ++ suffix))) := by
    simp only [List.mem_append, not_or]
    refine ⟨colon_notMem_podPathHead parent qos, by decide, fun hmem => ?_, by decide, hsuffix⟩
    rcases mem_escapeUid huid hmem with heq | halnum
    · cases heq
    · cases halnum
  have htake : (escapeUid uid ++ (".slice/".toList ++ suffix)).takeWhile
      (fun c => c.isAlphanum || c == '_' || c == '-') = escapeUid uid := by
    rw [List.takeWhile_append_of_pos]
    · exact List.append_nil _
    · intro c hc
      rcases mem_escapeUid huid hc with rfl | halnum
      · rfl
      · simp [halnum]
  have hkept : (escapeUid uid).length ≥ 8 := by simpa [escapeUid] using hlen
  simp only [podUidOfLine, podLine, afterLast_append hcolon, Option.getD_some, afterFirst_podPathHead, htake,
    Option.bind_eq_bind, Option.bind_some, if_pos hkept, unescapeUid huid]

end Uid

/-- A colon below the pod's slice makes the line count only from there. -/
theorem podUidOfLine_podLine_of_mem (parent : Option Qos) (qos : Qos) (uid : List Char) {suffix : List Char}
    (hsuffix : ':' ∈ suffix) : podUidOfLine (podLine parent qos uid suffix) = podUidOfLine suffix := by
  have hline : podLine parent qos uid suffix =
      "0:".toList ++ ':' :: (podPathHead parent qos ++ ("-pod".toList ++ (escapeUid uid ++ ".slice/".toList))) ++
        suffix := by
    simp [podLine]
  obtain ⟨path, hpath⟩ : ∃ path, afterLast ':' suffix = some path := ⟨_, if_pos hsuffix⟩
  simp only [podUidOfLine, hline, afterLast_append_of_mem hsuffix, hpath, Option.getD_some]

/-- The uid of a pod is read from a cgroup file whose first line is the pod's
if and only if no name below the pod's slice has a colon, or the rest of the
file makes up for it. -/
theorem extractPodUid_podLine_iff {uid : List Char} (huid : ∀ c ∈ uid, c = '-' ∨ isLowerHexDigit c = true)
    (hlen : 8 ≤ uid.length) (parent : Option Qos) (qos : Qos) (suffix : List Char) {content : String}
    {rest : List (List Char)} (hlines : lines content.toList = podLine parent qos uid suffix :: rest) :
    extractPodUid content = some (String.ofList uid) ↔
      ':' ∉ suffix ∨ (suffix :: rest).findSome? podUidOfLine = some (String.ofList uid) := by
  rw [extractPodUid, hlines]
  by_cases hsuffix : ':' ∈ suffix
  · rw [List.findSome?_cons, List.findSome?_cons, podUidOfLine_podLine_of_mem parent qos uid hsuffix]
    simp [hsuffix]
  · rw [List.findSome?_cons, podUidOfLine_podLine huid hlen parent qos hsuffix]
    simp [hsuffix]

/-- The file of a process in a burstable pod. -/
def burstableCgroup (suffix : String) : String :=
  String.ofList (podLine (some .burstable) .burstable "1a2b3c4d-5e6f".toList suffix.toList ++ ['\n'])

/-- A plain container. -/
theorem extractPodUid_container : extractPodUid (burstableCgroup "crio-77.scope") = some "1a2b3c4d-5e6f" := by
  have hlines : lines (burstableCgroup "crio-77.scope").toList =
      [podLine (some .burstable) .burstable "1a2b3c4d-5e6f".toList "crio-77.scope".toList] := by
    rw [burstableCgroup, String.toList_ofList]
    exact lines_append_newline (by decide +kernel) (by decide +kernel) []
  exact (extractPodUid_podLine_iff (by simp [isLowerHexDigit]) (by decide) _ _ _ hlines).2 (.inl (by decide))

/-- A service that D-Bus starts below a container which runs systemd: the
service's name holds the colon of a bus name. -/
theorem extractPodUid_busService :
    lines (burstableCgroup "crio-77.scope/dbus-:1.2-org.bluez@0.service").toList =
      [podLine (some .burstable) .burstable "1a2b3c4d-5e6f".toList
        "crio-77.scope/dbus-:1.2-org.bluez@0.service".toList] ∧
      extractPodUid (burstableCgroup "crio-77.scope/dbus-:1.2-org.bluez@0.service") = none := by
  have hlines : lines (burstableCgroup "crio-77.scope/dbus-:1.2-org.bluez@0.service").toList =
      [podLine (some .burstable) .burstable "1a2b3c4d-5e6f".toList
        "crio-77.scope/dbus-:1.2-org.bluez@0.service".toList] := by
    rw [burstableCgroup, String.toList_ofList]
    exact lines_append_newline (by decide +kernel) (by decide +kernel) []
  refine ⟨hlines, ?_⟩
  rw [extractPodUid, hlines, List.findSome?_cons, podUidOfLine_podLine_of_mem _ _ _ (by decide)]
  decide

end Keck.Agent
