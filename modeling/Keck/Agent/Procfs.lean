import Keck.Lib.Text
/-!
# Reading /proc

The files of a process that `keck-agent/src/main.rs` reads, and its parsers.
A file is its text, or nothing if it cannot be read. Texts are scanned as lists
of characters.
-/
namespace Keck.Agent

open Keck.Lib.Text

/-! ## Files of a process -/

/-- An entry of /proc, with what reading each of its files gives. -/
structure ProcEntry where
  name : String
  status : Option String := none
  stat : Option String := none
  smapsRollup : Option String := none
  statm : Option String := none
  io : Option String := none
  cgroup : Option String := none

structure ProcStat where
  cpuTicks : Nat
  minflt : Nat
  majflt : Nat

def readProcStat (stat : Option String) : Option ProcStat := do
  let content ← stat
  -- the command name is in parentheses and may itself hold any of them
  let afterComm ← afterLast ')' content.toList
  let fields := splitWhitespace afterComm
  if fields.length < 13 then none
  else
    let minflt ← fields[7]?.bind (parseUnsigned 64)
    let majflt ← fields[9]?.bind (parseUnsigned 64)
    let utime ← fields[11]?.bind (parseUnsigned 64)
    let stime ← fields[12]?.bind (parseUnsigned 64)
    some ⟨utime + stime, minflt, majflt⟩

def readPssKb (smapsRollup : Option String) : Option Nat := do
  let content ← smapsRollup
  let line ← (lines content.toList).find? fun l => "Pss:".toList.isPrefixOf l
  (splitWhitespace line)[1]?.bind (parseUnsigned 64)

def readRssPages (statm : Option String) : Option Nat := do
  let content ← statm
  let fields := splitWhitespace content.toList
  if fields.length < 2 then none else fields[1]?.bind (parseUnsigned 64)

def readIoBytes (io : Option String) : Option Nat := do
  let content ← io
  let counted := (lines content.toList).filter fun l =>
    "read_bytes:".toList.isPrefixOf l || "write_bytes:".toList.isPrefixOf l
  some (counted.map fun l => ((splitWhitespace l)[1]?.bind (parseUnsigned 64)).getD 0).sum

/-- Whether an entry is a process leader, as far as its status says. -/
def isLeader (e : ProcEntry) : Bool :=
  match e.status.bind fun s => (lines s.toList).find? fun l => "Tgid:".toList.isPrefixOf l with
  | some line => (splitWhitespace line)[1]?.getD [] == e.name.toList
  | none => true

/-- The pod uid in one line of a cgroup file. -/
def podUidOfLine (line : List Char) : Option String := do
  let path := (afterLast ':' line).getD line
  let after ← afterFirst "-pod".toList path
  let uid := after.takeWhile fun c => c.isAlphanum || c == '_' || c == '-'
  if uid.length ≥ 8 then some (String.ofList (uid.map fun c => if c = '_' then '-' else c)) else none

def extractPodUid (cgroupContent : String) : Option String := (lines cgroupContent.toList).findSome? podUidOfLine

end Keck.Agent
