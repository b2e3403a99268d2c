import Keck.Lib.Effects
import Keck.Controller.Admission
import Keck.Controller.Kepler
/-!
# The controller as a concurrent server

The REST handlers (`keck-controller/src/api/mod.rs`), the Kepler scraper
(`kepler_scraper.rs`) and the node watcher (`main.rs`) share one aggregator
behind a lock. Each of them is a program over the calls that touch shared
state or the outside, and runs interleaved with the others, one call at a time.
A call that takes the write lock keeps it until it is done. A request whose
client hangs up is one that gets no more turns.

`server_linearized`: whatever the interleaving, the aggregator is the one
`ClusterAggregator.run` gives for the reports in the order of the lock, with a
clock that never goes back, so what is proved of `run` holds of the server.
-/
namespace Keck.Controller.Concurrent

open Keck.Lib Effects ClusterAggregator

/-! ## Authentication -/

inductive StatusCode where
  | ok
  | badRequest
  | unauthorized

/-- Validate the bearer token. `authorization` is the header as far as it is
there and a text. -/
def checkAuth (authorization apiKey : Option String) : Except StatusCode Unit :=
  match apiKey with
  | none => .ok ()
  | some expected =>
    match authorization with
    | none => .error .unauthorized
    | some header =>
      match "Bearer ".toList.isPrefixOf? header.toList with
      | none => .error .unauthorized
      | some token => if token ≠ expected.toList then .error .unauthorized else .ok ()

/-- With a key set, exactly the header made of it passes. -/
theorem checkAuth_some_iff {authorization : Option String} {key : String} :
    checkAuth authorization (some key) = .ok () ↔ authorization = some ("Bearer " ++ key) := by
  unfold checkAuth
  cases authorization with
  | none => simp
  | some header =>
    simp only [Option.some.injEq]
    cases hp : "Bearer ".toList.isPrefixOf? header.toList with
    | none =>
      simp only [reduceCtorEq, false_iff]
      rintro rfl
      have : "Bearer ".toList.isPrefixOf? ("Bearer " ++ key).toList = some key.toList :=
        List.isPrefixOf?_eq_some_iff_append_eq.2 (by simp)
      rw [this] at hp
      cases hp
    | some token =>
      have hh : "Bearer ".toList ++ token = header.toList := List.isPrefixOf?_eq_some_iff_append_eq.1 hp
      by_cases ht : token = key.toList
      · subst ht
        simp [← String.toList_inj, ← hh]
      · simp [ht, ← String.toList_inj, ← hh]

/-! ## Shared state and calls -/

/-- What the tasks share: the aggregator, the `agent_report_total` counters and
the monotonic clock. -/
structure ServerState where
  aggregator : ClusterAggregator := .new
  reportTotal : Table String Nat := ∅
  clock : Int := 0

inductive Call where
  /-- `agent_report_total` of a node is incremented. -/
  | countReport (node : String)
  /-- Some reports are ingested under one write lock. -/
  | ingestAll (reports : List AgentReport)
  | evictRemovedNodes (live : List String)
  /-- A view is computed under a read lock. -/
  | readAggregator
  /-- The cluster's nodes are listed. -/
  | listNodes
  /-- A Kepler endpoint is fetched. -/
  | fetchKepler

/-- What a call answers. The nodes may not be listed and the endpoint may not
be reached. -/
def Call.Answer : Call → Type
  | .countReport _ | .ingestAll _ | .evictRemovedNodes _ => Unit
  | .readAggregator => ClusterAggregator
  | .listNodes => Option (List String)
  | .fetchKepler => Option (World × String)

/-- What the outside contributes to a call: the time that passes before its
i-th look at the monotonic clock, the wall clock it sees there, and what the
API server and the Kepler endpoint answer. -/
structure Moment where
  elapsed : Nat → Nat := fun _ => 0
  wall : Nat → Int := fun _ => 0
  nodes : Option (List String) := none
  kepler : Option (World × String) := none

/-- Ingest reports one after the other, from the i-th look at the clock on. -/
def ingestAll (m : Moment) : Nat → List AgentReport → ServerState → ServerState
  | _, [], s => s
  | i, report :: reports, s =>
    let now := s.clock + m.elapsed i
    ingestAll m (i + 1) reports { s with aggregator := s.aggregator.ingest now (m.wall i) report, clock := now }

def handle : (op : Call) → Moment → ServerState → op.Answer × ServerState
  | .countReport node, _, s =>
    ((), { s with reportTotal := s.reportTotal.insert node ((s.reportTotal.lookup node).getD 0 + 1) })
  | .ingestAll reports, m, s => ((), ingestAll m 0 reports s)
  | .evictRemovedNodes live, _, s => ((), { s with aggregator := s.aggregator.evictRemovedNodes live })
  | .readAggregator, _, s => (s.aggregator, s)
  | .listNodes, m, s => (m.nodes, s)
  | .fetchKepler, m, s => (m.kepler, s)

/-! ## The tasks -/

/-- A task of the server. -/
inductive Request where
  /-- `POST /api/v1/report`. -/
  | report (authorization : Option String) (body : AgentReport)
  /-- One of the read endpoints. -/
  | view
  /-- One scrape of a Kepler endpoint. -/
  | scrapeAndIngest
  /-- One round of the node watcher. -/
  | watchClusterNodes

inductive Response where
  | status (code : StatusCode) (message : String)
  | view (agg : ClusterAggregator)
  | done

/-- The answer to a report that was taken in. -/
def Response.accepted : Response := .status .ok ""

def handleReport (apiKey authorization : Option String) (report : AgentReport) : Prog Call.Answer Response :=
  match checkAuth authorization apiKey with
  | .error status => .ret (.status status "unauthorized")
  | .ok () =>
    match validateReport report with
    | .error reason => .ret (.status .badRequest reason)
    | .ok () =>
      .call (.countReport report.node.nodeName) fun _ =>
      .call (.ingestAll [report]) fun _ =>
      .ret .accepted

/-- The reports made of a scraped text, in the order they are ingested. -/
def keplerReports (w : World) (body : String) : List AgentReport :=
  (scraped w body).map fun e => keplerNode (totals body) (w.nodeStamp e.1) e.1 e.2

def scrapeTask : Prog Call.Answer Response :=
  .call .fetchKepler fun
    | none => .ret .done
    | some (w, body) => .call (.ingestAll (keplerReports w body)) fun _ => .ret .done

def watchTask : Prog Call.Answer Response :=
  .call .listNodes fun
    | none => .ret .done
    | some live => .call (.evictRemovedNodes live) fun _ => .ret .done

def viewTask : Prog Call.Answer Response := .call .readAggregator fun agg => .ret (.view agg)

def serve (apiKey : Option String) : Request → Prog Call.Answer Response
  | .report authorization body => handleReport apiKey authorization body
  | .view => viewTask
  | .scrapeAndIngest => scrapeTask
  | .watchClusterNodes => watchTask

/-- The calls of tasks that are no reports: they count nothing, and what they
ingest was scraped from Kepler. -/
def ownCall : Call → Prop
  | .countReport _ => False
  | .ingestAll reports => ∃ w body, reports = keplerReports w body
  | _ => True

theorem uses_ownCall (apiKey : Option String) {r : Request}
    (h : ∀ authorization body, r ≠ .report authorization body) :
    (serve apiKey r).Uses ownCall := by
  cases r with
  | report authorization body => exact absurd rfl (h authorization body)
  | view => exact ⟨trivial, fun _ => trivial⟩
  | scrapeAndIngest =>
    refine ⟨trivial, fun answer => ?_⟩
    cases answer with
    | none => trivial
    | some answer =>
      obtain ⟨w, body⟩ := answer
      exact ⟨⟨w, body, rfl⟩, fun _ => trivial⟩
  | watchClusterNodes =>
    refine ⟨trivial, fun answer => ?_⟩
    cases answer with
    | none => trivial
    | some live => exact ⟨trivial, fun _ => trivial⟩

/-! ## The order of the lock -/

/-- The events of `ingestAll`. -/
def stamped (m : Moment) : Nat → List AgentReport → Int → List Event
  | _, [], _ => []
  | i, report :: reports, clock =>
    .ingest (clock + m.elapsed i) (m.wall i) report :: stamped m (i + 1) reports (clock + m.elapsed i)

/-- What a call does to the aggregator. -/
def emit : Call → Moment → ServerState → List Event
  | .ingestAll reports, m, s => stamped m 0 reports s.clock
  | .evictRemovedNodes live, _, _ => [.evictRemovedNodes live]
  | .countReport _, _, _ | .readAggregator, _, _ | .listNodes, _, _ | .fetchKepler, _, _ => []

theorem aggregator_ingestAll (m : Moment) (i : Nat) (reports : List AgentReport) (s : ServerState) :
    (ingestAll m i reports s).aggregator = (stamped m i reports s.clock).foldl step s.aggregator := by
  induction reports generalizing i s with
  | nil => rfl
  | cons report reports ih => exact ih _ _

theorem aggregator_handle (op : Call) (m : Moment) (s : ServerState) :
    (handle op m s).2.aggregator = (emit op m s).foldl step s.aggregator := by
  cases op with
  | ingestAll reports => exact aggregator_ingestAll m 0 reports s
  | _ => rfl

/-- The clock readings of some events lie between two times and never go back. -/
def Timed (events : List Event) (t t' : Int) : Prop :=
  t ≤ t' ∧ ClockOk events ∧ ∀ u ∈ events.filterMap Event.time?, t ≤ u ∧ u ≤ t'

theorem Timed.nil {t : Int} : Timed [] t t := ⟨le_rfl, List.Pairwise.nil, by simp⟩

theorem Timed.append {events later : List Event} {t t' t'' : Int} (h : Timed events t t') (h' : Timed later t' t'') :
    Timed (events ++ later) t t'' := by
  obtain ⟨hle, hclock, htimes⟩ := h
  obtain ⟨hle', hclock', htimes'⟩ := h'
  refine ⟨hle.trans hle', ?_, ?_⟩
  · unfold ClockOk at hclock hclock' ⊢
    rw [List.filterMap_append, List.pairwise_append]
    exact ⟨hclock, hclock', fun u hu u' hu' => (htimes u hu).2.trans (htimes' u' hu').1⟩
  · intro u hu
    rw [List.filterMap_append, List.mem_append] at hu
    rcases hu with hu | hu
    · exact ⟨(htimes u hu).1, (htimes u hu).2.trans hle'⟩
    · exact ⟨hle.trans (htimes' u hu).1, (htimes' u hu).2⟩

theorem timed_ingestAll (m : Moment) (i : Nat) (reports : List AgentReport) (s : ServerState) :
    Timed (stamped m i reports s.clock) s.clock (ingestAll m i reports s).clock := by
  induction reports generalizing i s with
  | nil => exact Timed.nil
  | cons report reports ih =>
    have hone : Timed [.ingest (s.clock + m.elapsed i) (m.wall i) report] s.clock (s.clock + m.elapsed i) := by
      refine ⟨by omega, by simp [ClockOk, Event.time?], ?_⟩
      intro u hu
      obtain rfl : s.clock + m.elapsed i = u := by simpa [Event.time?, eq_comm] using hu
      omega
    exact hone.append (ih (i + 1) _)

theorem timed_handle (op : Call) (m : Moment) (s : ServerState) :
    Timed (emit op m s) s.clock (handle op m s).2.clock := by
  cases op with
  | ingestAll reports => exact timed_ingestAll m 0 reports s
  | evictRemovedNodes live => exact ⟨le_rfl, List.Pairwise.nil, by simp [emit, Event.time?]⟩
  | _ => exact Timed.nil

/-! ## Executions -/

section Executions
variable {ι : Type} [DecidableEq ι] (apiKey : Option String) (req : ι → Request) (clock : Int)

/-- All tasks at their first instruction. -/
def start : Sys Call.Answer ι Response ServerState := ⟨fun i => serve apiKey (req i), { clock }⟩

/-- The server after some turns. -/
def after (schedule : List (ι × Moment)) : Sys Call.Answer ι Response ServerState :=
  (start apiKey req clock).exec handle schedule

/-- What happened to the aggregator in these turns, and by which task. -/
def lockOrder (schedule : List (ι × Moment)) : List (ι × Event) :=
  (start apiKey req clock).trace handle emit schedule

variable {apiKey req clock}

theorem aggregator_after (schedule : List (ι × Moment)) :
    (after apiKey req clock schedule).state.aggregator = run ((lockOrder apiKey req clock schedule).map (·.2)) :=
  Sys.part_exec aggregator_handle schedule

theorem timed_lockOrder (schedule : List (ι × Moment)) :
    Timed ((lockOrder apiKey req clock schedule).map (·.2)) clock (after apiKey req clock schedule).state.clock := by
  have hstart : Timed (([] : List (ι × Event)).map (·.2)) clock (start apiKey req clock).state.clock := Timed.nil
  refine Sys.inv_trace (J := fun (sys : Sys Call.Answer ι Response ServerState) events =>
    Timed (events.map (·.2)) clock sys.state.clock) hstart (fun sys events turn h => ?_) schedule
  obtain ⟨i, m⟩ := turn
  cases hp : sys.threads i with
  | ret a => simpa [Sys.step_ret hp, Sys.emitted_ret hp] using h
  | call op next =>
    rw [Sys.step_call hp, Sys.emitted_call hp]
    simpa [Function.comp_def] using h.append (timed_handle op m sys.state)

end Executions

/-! ## A report on its way -/

/-- The request passes both checks. -/
def Admitted (apiKey authorization : Option String) (body : AgentReport) : Prop :=
  checkAuth authorization apiKey = .ok () ∧ validateReport body = .ok ()

/-- The rest of `handle_report` from the lock on. -/
def waiting (body : AgentReport) : Prog Call.Answer Response := .call (.ingestAll [body]) fun _ => .ret .accepted

/-- Where the task of a report is, and what it has done to the aggregator. -/
inductive Phase (apiKey authorization : Option String) (body : AgentReport) :
    Prog Call.Answer Response → List Event → Prop
  | refused (h : ¬Admitted apiKey authorization body) {response : Response} (hr : response ≠ .accepted) :
      Phase apiKey authorization body (.ret response) []
  | arrived (h : Admitted apiKey authorization body) :
      Phase apiKey authorization body (.call (.countReport body.node.nodeName) fun _ => waiting body) []
  | counted (h : Admitted apiKey authorization body) : Phase apiKey authorization body (waiting body) []
  | ingested (h : Admitted apiKey authorization body) (now wall : Int) :
      Phase apiKey authorization body (.ret .accepted) [.ingest now wall body]

theorem checkAuth_error {authorization apiKey : Option String} {status : StatusCode}
    (h : checkAuth authorization apiKey = .error status) : status = .unauthorized := by
  unfold checkAuth at h
  repeat' split at h
  all_goals first | cases h; rfl | cases h

/-- A request is refused without a call, or counted and then ingested. -/
theorem handleReport_cases (apiKey authorization : Option String) (body : AgentReport) :
    (¬Admitted apiKey authorization body ∧
      ∃ response ≠ .accepted, handleReport apiKey authorization body = .ret response) ∨
    (Admitted apiKey authorization body ∧ handleReport apiKey authorization body =
      .call (.countReport body.node.nodeName) fun _ => waiting body) := by
  unfold handleReport
  cases ha : checkAuth authorization apiKey with
  | error status =>
    refine .inl ⟨fun h => by simp [h.1] at ha, _, ?_, rfl⟩
    rw [checkAuth_error ha]
    simp [Response.accepted]
  | ok =>
    cases hv : validateReport body with
    | error reason => exact .inl ⟨fun h => by simp [h.2] at hv, _, by simp [Response.accepted], rfl⟩
    | ok => exact .inr ⟨⟨ha, hv⟩, rfl⟩

section Executions
variable {ι : Type} [DecidableEq ι] {apiKey : Option String} {req : ι → Request} {clock : Int}

theorem phase_after {i : ι} {authorization : Option String} {body : AgentReport}
    (hi : req i = .report authorization body) (schedule : List (ι × Moment)) :
    Phase apiKey authorization body ((after apiKey req clock schedule).threads i)
      (Sys.doneBy i (lockOrder apiKey req clock schedule)) := by
  refine Sys.inv_thread (J := Phase apiKey authorization body) ?_ ?_ schedule
  · have hstart : (start apiKey req clock).threads i = handleReport apiKey authorization body := by
      simp [start, hi, serve]
    rw [hstart]
    rcases handleReport_cases apiKey authorization body with ⟨h, response, hr, hret⟩ | ⟨h, hcall⟩
    · rw [hret]
      exact .refused h hr
    · rw [hcall]
      exact .arrived h
  · intro op next m s done h
    cases h with
    | arrived h => exact .counted h
    | counted h => exact .ingested h _ _

/-- An answered report is in the lock order once, as it was posted; a report
without that answer is not in it. -/
theorem ingested_iff {i : ι} {authorization : Option String} {body : AgentReport}
    (hi : req i = .report authorization body) (schedule : List (ι × Moment)) :
    ((after apiKey req clock schedule).threads i = .ret .accepted ∧ Admitted apiKey authorization body ∧
      ∃ now wall, Sys.doneBy i (lockOrder apiKey req clock schedule) = [.ingest now wall body]) ∨
    ((after apiKey req clock schedule).threads i ≠ .ret .accepted ∧
      Sys.doneBy i (lockOrder apiKey req clock schedule) = []) := by
  have hphase : Phase apiKey authorization body ((after apiKey req clock schedule).threads i)
      (Sys.doneBy i (lockOrder apiKey req clock schedule)) := phase_after hi schedule
  generalize (after apiKey req clock schedule).threads i = task at *
  generalize Sys.doneBy i (lockOrder apiKey req clock schedule) = done at *
  cases hphase with
  | refused h hr => exact .inr ⟨fun he => hr (by cases he; rfl), rfl⟩
  | arrived h => exact .inr ⟨nofun, rfl⟩
  | counted h => exact .inr ⟨nofun, rfl⟩
  | ingested h now wall => exact .inl ⟨rfl, h, now, wall, rfl⟩

/-! ## Views -/

theorem lockOrder_grows (before later : List (ι × Moment)) :
    lockOrder apiKey req clock before <+: lockOrder apiKey req clock (before ++ later) := by
  rw [lockOrder, lockOrder, Sys.trace_append]
  exact List.prefix_append _ _

theorem after_concat (schedule : List (ι × Moment)) (turn : ι × Moment) :
    after apiKey req clock (schedule ++ [turn]) = (after apiKey req clock schedule).step handle turn :=
  Sys.exec_concat schedule turn

/-- A view that has not been computed before some turns is computed, in the
turns after them, from the aggregator at some point of the lock order. -/
theorem view_after {before : List (ι × Moment)} {i : ι}
    (hbefore : (after apiKey req clock before).threads i = viewTask) (later : List (ι × Moment)) :
    (after apiKey req clock (before ++ later)).threads i = viewTask ∨
    ∃ seen, lockOrder apiKey req clock before <+: seen ∧ seen <+: lockOrder apiKey req clock (before ++ later) ∧
      (after apiKey req clock (before ++ later)).threads i = .ret (.view (run (seen.map (·.2)))) := by
  induction later using List.reverseRecOn with
  | nil => exact .inl (by rw [List.append_nil]; exact hbefore)
  | append_singleton later turn ih =>
    obtain ⟨j, m⟩ := turn
    have hgrow : lockOrder apiKey req clock (before ++ later) <+:
        lockOrder apiKey req clock (before ++ later ++ [(j, m)]) := lockOrder_grows _ _
    rw [← List.append_assoc, after_concat]
    by_cases hij : i = j
    · subst hij
      rcases ih with hview | ⟨seen, hseen, hseen', hret⟩
      · -- The read lock is taken now.
        refine .inr ⟨_, lockOrder_grows before later, hgrow, ?_⟩
        rw [Sys.step_call hview, ← aggregator_after]
        simp [handle]
      · exact .inr ⟨seen, hseen, hseen'.trans hgrow, by rw [Sys.step_ret hret]; exact hret⟩
    · rw [Sys.threads_step_of_ne hij]
      rcases ih with hview | ⟨seen, hseen, hseen', hret⟩
      · exact .inl hview
      · exact .inr ⟨seen, hseen, hseen'.trans hgrow, hret⟩

end Executions

/-- What the turns of a schedule amount to, whatever their order. -/
structure Linearized {ι : Type} [DecidableEq ι] (apiKey : Option String) (req : ι → Request) (clock : Int)
    (schedule : List (ι × Moment)) : Prop where
  /-- The aggregator is the result of the events in the order of the lock. -/
  state : (after apiKey req clock schedule).state.aggregator = run ((lockOrder apiKey req clock schedule).map (·.2))
  /-- The times they were stamped with never go back. -/
  clockOk : ClockOk ((lockOrder apiKey req clock schedule).map (·.2))
  /-- A report answered with 200 passed both checks and was ingested once, as
  it was posted; any other report was not ingested. -/
  once : ∀ i authorization body, req i = .report authorization body →
    ((after apiKey req clock schedule).threads i = .ret .accepted ∧ Admitted apiKey authorization body ∧
      ∃ now wall, Sys.doneBy i (lockOrder apiKey req clock schedule) = [.ingest now wall body]) ∨
    ((after apiKey req clock schedule).threads i ≠ .ret .accepted ∧
      Sys.doneBy i (lockOrder apiKey req clock schedule) = [])
  /-- A view sees everything that happened before it began, and nothing but
  what happened before it ended. -/
  realTime : ∀ before later, schedule = before ++ later → ∀ i agg,
    (after apiKey req clock before).threads i = viewTask →
    (after apiKey req clock schedule).threads i = .ret (.view agg) →
    ∃ seen, lockOrder apiKey req clock before <+: seen ∧ seen <+: lockOrder apiKey req clock schedule ∧
      agg = run (seen.map (·.2))

/-- Every interleaving of reports, views, scrapes and rounds of the node
watcher is linearizable: no report is lost or ingested twice, none is ingested
without passing authentication and validation, and every view is that of a
moment while it was computed. -/
theorem server_linearized {ι : Type} [DecidableEq ι] (apiKey : Option String) (req : ι → Request) (clock : Int)
    (schedule : List (ι × Moment)) : Linearized apiKey req clock schedule where
  state := aggregator_after schedule
  clockOk := (timed_lockOrder schedule).2.1
  once _ _ _ hi := ingested_iff hi schedule
  realTime := by
    rintro before later rfl i agg hbefore hafter
    rcases view_after hbefore later with hview | ⟨seen, hseen, hseen', hret⟩
    · rw [hview] at hafter
      cases hafter
    · rw [hret] at hafter
      cases hafter
      exact ⟨seen, hseen, hseen', rfl⟩

/-! ## The report counters -/

section Counters
variable {ι : Type} [DecidableEq ι] {apiKey : Option String} {req : ι → Request} {clock : Int}

variable (req) in
/-- The reports of a node whose task is at some point of `handle_report`. -/
def reportsAt (point : AgentReport → Prog Call.Answer Response) (sys : Sys Call.Answer ι Response ServerState)
    (node : String) : Set ι :=
  {i | ∃ authorization body, req i = .report authorization body ∧ body.node.nodeName = node ∧
    sys.threads i = point body}

variable (req) in
/-- The reports of a node answered with 200. -/
def answered (sys : Sys Call.Answer ι Response ServerState) (node : String) : Set ι :=
  reportsAt req (fun _ => .ret .accepted) sys node

variable (req) in
/-- The reports of a node that wait for the lock, or whose client hung up while
they did. -/
def pending (sys : Sys Call.Answer ι Response ServerState) (node : String) : Set ι := reportsAt req waiting sys node

variable (req) in
/-- The reports the node's counter has seen. -/
def counted (sys : Sys Call.Answer ι Response ServerState) (node : String) : Set ι :=
  answered req sys node ∪ pending req sys node

omit [DecidableEq ι] in
theorem mem_reportsAt {point : AgentReport → Prog Call.Answer Response}
    {sys : Sys Call.Answer ι Response ServerState} {node : String} {i : ι} {authorization : Option String}
    {body : AgentReport} (hi : req i = .report authorization body) :
    i ∈ reportsAt req point sys node ↔ body.node.nodeName = node ∧ sys.threads i = point body := by
  constructor
  · rintro ⟨_, _, h, hnode, hpoint⟩
    cases hi.symm.trans h
    exact ⟨hnode, hpoint⟩
  · exact fun h => ⟨authorization, body, hi, h⟩

omit [DecidableEq ι] in
theorem mem_counted {sys : Sys Call.Answer ι Response ServerState} {node : String} {i : ι}
    {authorization : Option String} {body : AgentReport} (hi : req i = .report authorization body) :
    i ∈ counted req sys node ↔
      body.node.nodeName = node ∧ (sys.threads i = .ret .accepted ∨ sys.threads i = waiting body) := by
  rw [counted, Set.mem_union, answered, pending, mem_reportsAt hi, mem_reportsAt hi, and_or_left]

omit [DecidableEq ι] in
theorem not_mem_counted {sys : Sys Call.Answer ι Response ServerState} {node : String} {i : ι}
    (hi : ∀ authorization body, req i ≠ .report authorization body) : i ∉ counted req sys node := by
  rintro (⟨authorization, body, h, -⟩ | ⟨authorization, body, h, -⟩)
  · exact hi authorization body h
  · exact hi authorization body h

theorem mem_counted_step_of_ne {sys : Sys Call.Answer ι Response ServerState} {node : String} {i k : ι} {m : Moment}
    (h : i ≠ k) : i ∈ counted req (sys.step handle (k, m)) node ↔ i ∈ counted req sys node := by
  simp only [counted, answered, pending, reportsAt, Set.mem_union, Set.mem_ofPred_eq, Sys.threads_step_of_ne h]

theorem reportTotal_ingestAll (m : Moment) (i : Nat) (reports : List AgentReport) (s : ServerState) :
    (ingestAll m i reports s).reportTotal = s.reportTotal := by
  induction reports generalizing i s with
  | nil => rfl
  | cons report reports ih => exact ih _ _

theorem reportTotal_handle {op : Call} (h : ∀ node, op ≠ .countReport node) (m : Moment) (s : ServerState) :
    (handle op m s).2.reportTotal = s.reportTotal := by
  cases op with
  | countReport node => exact absurd rfl (h node)
  | ingestAll reports => exact reportTotal_ingestAll m 0 reports s
  | _ => rfl

theorem counted_start (node : String) : counted req (after apiKey req clock []) node = ∅ := by
  ext i
  by_cases hr : ∃ authorization body, req i = .report authorization body
  · obtain ⟨authorization, body, hr⟩ := hr
    have hstart : (after apiKey req clock []).threads i = handleReport apiKey authorization body := by
      simp [after, Sys.exec, start, hr, serve]
    rw [mem_counted hr, hstart]
    rcases handleReport_cases apiKey authorization body with ⟨-, response, hne, hret⟩ | ⟨-, hcall⟩
    · simp [hret, hne, waiting]
    · simp [hcall, waiting]
  · exact iff_of_false (not_mem_counted fun authorization body h => hr ⟨authorization, body, h⟩) (Set.notMem_empty i)

/-- What the next turn does to a node's counter, it does to the reports counted. -/
theorem counter_step [Finite ι] (schedule : List (ι × Moment)) (turn : ι × Moment) (node : String)
    (ih : ((after apiKey req clock schedule).state.reportTotal.lookup node).getD 0 =
      (counted req (after apiKey req clock schedule) node).ncard) :
    (((after apiKey req clock schedule).step handle turn).state.reportTotal.lookup node).getD 0 =
      (counted req ((after apiKey req clock schedule).step handle turn) node).ncard := by
  obtain ⟨k, m⟩ := turn
  -- A turn moves one task, so it is enough to know whether that one was and is counted.
  have hsame : (k ∈ counted req ((after apiKey req clock schedule).step handle (k, m)) node ↔
        k ∈ counted req (after apiKey req clock schedule) node) →
      counted req ((after apiKey req clock schedule).step handle (k, m)) node =
        counted req (after apiKey req clock schedule) node := by
    intro hk
    ext i
    by_cases hi : i = k
    · subst hi; exact hk
    · exact mem_counted_step_of_ne hi
  cases hp : (after apiKey req clock schedule).threads k with
  | ret a =>
    rw [Sys.step_ret hp]
    exact ih
  | call op next =>
    by_cases hr : ∃ authorization body, req k = .report authorization body
    · obtain ⟨authorization, body, hr⟩ := hr
      have hphase : Phase apiKey authorization body ((after apiKey req clock schedule).threads k)
          (Sys.doneBy k (lockOrder apiKey req clock schedule)) := phase_after hr schedule
      rw [hp] at hphase
      generalize Sys.doneBy k (lockOrder apiKey req clock schedule) = done at hphase
      cases hphase with
      | arrived h =>
        have hbefore : k ∉ counted req (after apiKey req clock schedule) node := by
          rw [mem_counted hr, hp]
          rintro ⟨-, hret | hwait⟩
          · cases hret
          · cases hwait
        have hnow : ((after apiKey req clock schedule).step handle (k, m)).threads k = waiting body := by
          rw [Sys.step_call hp]
          simp
        by_cases hnode : body.node.nodeName = node
        · have hcounted : counted req ((after apiKey req clock schedule).step handle (k, m)) node =
              insert k (counted req (after apiKey req clock schedule) node) := by
            ext i
            by_cases hi : i = k
            · subst hi
              simp [mem_counted hr, hnode, hnow]
            · simp [mem_counted_step_of_ne hi, hi]
          subst hnode
          rw [hcounted, Set.ncard_insert_of_notMem hbefore, ← ih, Sys.step_call hp]
          simp [handle]
        · rw [hsame (iff_of_false (by simp [mem_counted hr, hnode]) hbefore), ← ih, Sys.step_call hp]
          simp [handle, AList.lookup_insert_ne (Ne.symm hnode)]
      | counted h =>
        have hiff : k ∈ counted req ((after apiKey req clock schedule).step handle (k, m)) node ↔
            k ∈ counted req (after apiKey req clock schedule) node := by
          rw [mem_counted hr, mem_counted hr, Sys.step_call hp]
          simp [hp, waiting]
        rw [hsame hiff, ← ih, Sys.step_call hp, reportTotal_handle (by simp)]
    · have hr : ∀ authorization body, req k ≠ .report authorization body :=
        fun authorization body h => hr ⟨authorization, body, h⟩
      have huses : ((after apiKey req clock schedule).threads k).Uses ownCall :=
        Sys.uses_exec (uses_ownCall apiKey hr) schedule
      have hop : ownCall op := (hp ▸ huses : (Prog.call op next).Uses ownCall).1
      rw [hsame (iff_of_false (not_mem_counted hr) (not_mem_counted hr)), ← ih, Sys.step_call hp,
        reportTotal_handle (by rintro node rfl; exact hop)]

end Counters

/-- At any point of any interleaving, `keck_agent_report_total` of a node is
the number of its reports answered with 200 and of those that were counted and
never got to the aggregator, whether they still wait or were given up. -/
theorem report_total_counts {ι : Type} [DecidableEq ι] [Fintype ι] (apiKey : Option String) (req : ι → Request)
    (clock : Int) (schedule : List (ι × Moment)) (node : String) :
    ((after apiKey req clock schedule).state.reportTotal.lookup node).getD 0 =
      (answered req (after apiKey req clock schedule) node).ncard +
      (pending req (after apiKey req clock schedule) node).ncard := by
  have hcounted : ((after apiKey req clock schedule).state.reportTotal.lookup node).getD 0 =
      (counted req (after apiKey req clock schedule) node).ncard := by
    induction schedule using List.reverseRecOn with
    | nil =>
      rw [counted_start, Set.ncard_empty]
      rfl
    | append_singleton schedule turn ih =>
      rw [after_concat]
      exact counter_step schedule turn node ih
  rw [hcounted, counted, Set.ncard_union_eq]
  rw [Set.disjoint_left]
  rintro i ⟨_, body, hi, -, hret⟩ ⟨_, body', hi', -, hwait⟩
  rw [hret] at hwait
  cases hwait

/-! ## Where the stored data comes from -/

section Origin
variable {ι : Type} [DecidableEq ι] {apiKey : Option String} {req : ι → Request} {clock : Int}

theorem mem_stamped {m : Moment} {i : Nat} {reports : List AgentReport} {t : Int} {e : Event}
    (h : e ∈ stamped m i reports t) : ∃ now wall, ∃ r ∈ reports, e = .ingest now wall r := by
  induction reports generalizing i t with
  | nil => cases h
  | cons report reports ih =>
    rcases List.mem_cons.1 h with rfl | h
    · exact ⟨_, _, report, List.mem_cons_self, rfl⟩
    · obtain ⟨now, wall, r, hr, rfl⟩ := ih h
      exact ⟨now, wall, r, List.mem_cons_of_mem _ hr, rfl⟩

/-- A report in the lock order was scraped from Kepler, or was posted with the
right token, passed validation and was answered with 200. -/
theorem origin_of_report {schedule : List (ι × Moment)} {now wall : Int} {r : AgentReport}
    (h : Event.ingest now wall r ∈ (lockOrder apiKey req clock schedule).map (·.2)) :
    (∃ w body, r ∈ keplerReports w body) ∨
    ∃ i authorization, req i = .report authorization r ∧ Admitted apiKey authorization r ∧
      (after apiKey req clock schedule).threads i = .ret .accepted := by
  obtain ⟨⟨i, e⟩, hie, rfl⟩ := List.mem_map.1 h
  have hdone := Sys.mem_doneBy.2 hie
  by_cases hr : ∃ authorization body, req i = .report authorization body
  · obtain ⟨authorization, body, hr⟩ := hr
    rcases ingested_iff hr schedule with ⟨hret, hadmitted, now', wall', hone⟩ | ⟨-, hnone⟩
    · rw [hone, List.mem_singleton] at hdone
      cases hdone
      exact .inr ⟨i, authorization, hr, hadmitted, hret⟩
    · rw [hnone] at hdone
      cases hdone
  · have huses : ((start apiKey req clock).threads i).Uses ownCall :=
      uses_ownCall apiKey fun authorization body h => hr ⟨authorization, body, h⟩
    have hkepler : ∀ e ∈ Sys.doneBy i (lockOrder apiKey req clock schedule),
        ∀ now wall r, e = .ingest now wall r → ∃ w body, r ∈ keplerReports w body := by
      refine Sys.forall_doneBy_of_uses huses ?_ schedule
      rintro op m s hop e he now wall r rfl
      cases op with
      | ingestAll reports =>
        obtain ⟨now', wall', r', hr', he⟩ := mem_stamped he
        cases he
        obtain ⟨w, body, rfl⟩ := hop
        exact ⟨w, body, hr'⟩
      | evictRemovedNodes live => simp [emit] at he
      | _ => cases he
    exact .inl (hkepler _ hdone now wall r rfl)

theorem method_of_mem_keplerReports {w : World} {body : String} {r : AgentReport} (h : r ∈ keplerReports w body) :
    r.method = "kepler" := by
  obtain ⟨e, -, rfl⟩ := List.mem_map.1 h
  exact method_keplerNode _ _ _ _

/-- A report of another method than Kepler's was posted. -/
theorem posted_of_report {schedule : List (ι × Moment)} {now wall : Int} {r : AgentReport}
    (h : Event.ingest now wall r ∈ (lockOrder apiKey req clock schedule).map (·.2)) (hm : r.method ≠ "kepler") :
    ∃ i authorization, req i = .report authorization r ∧ Admitted apiKey authorization r ∧
      (after apiKey req clock schedule).threads i = .ret .accepted := by
  rcases origin_of_report h with ⟨w, body, hr⟩ | hposted
  · exact absurd (method_of_mem_keplerReports hr) hm
  · exact hposted

end Origin

/-- With an API key set, whatever the interleaving, every pod and node stored
under a method other than Kepler's was in a report posted with exactly that
key, that passed validation and was answered with 200. -/
theorem stored_data_authenticated {ι : Type} [DecidableEq ι] (key : String) (req : ι → Request) (clock : Int)
    (schedule : List (ι × Moment)) {m : String} (hm : m ≠ "kepler") :
    (∀ uid s, (after (some key) req clock schedule).state.aggregator.pods.lookup (uid, m) = some s →
      ∃ i body, req i = .report (some ("Bearer " ++ key)) body ∧ validateReport body = .ok () ∧
        (after (some key) req clock schedule).threads i = .ret .accepted ∧ body.method = m ∧
        ∃ p ∈ body.pods, p.podUid = uid ∧ s.report = p.stamped m) ∧
    (∀ name s, (after (some key) req clock schedule).state.aggregator.nodes.lookup (name, m) = some s →
      ∃ i body, req i = .report (some ("Bearer " ++ key)) body ∧ validateReport body = .ok () ∧
        (after (some key) req clock schedule).threads i = .ret .accepted ∧ body.method = m ∧
        body.node.nodeName = name ∧ s.report = body.node) := by
  constructor
  · intro uid s hs
    rw [aggregator_after] at hs
    obtain ⟨now, wall, r, p, hr, hp, hreport, hkey⟩ := pod_of_run hs
    cases hkey
    obtain ⟨i, authorization, hi, ⟨hauth, hvalid⟩, hret⟩ := posted_of_report hr hm
    rw [checkAuth_some_iff.1 hauth] at hi
    exact ⟨i, r, hi, hvalid, hret, rfl, p, hp, rfl, hreport⟩
  · intro name s hs
    rw [aggregator_after] at hs
    obtain ⟨now, wall, r, hr, hreport, hkey⟩ := node_of_run hs
    cases hkey
    obtain ⟨i, authorization, hi, ⟨hauth, hvalid⟩, hret⟩ := posted_of_report hr hm
    rw [checkAuth_some_iff.1 hauth] at hi
    exact ⟨i, r, hi, hvalid, hret, rfl, rfl, hreport⟩

/-- A posted report, and a second one with another token. -/
def twoReports : Bool → Request
  | true => .report (some "Bearer s3cret")
      ⟨makeNode "node-1" 5000 2000 0 none 1000, [makePod "node-1" "uid-a" "web-1" "default" 1000 500 0]⟩
  | false => .report (some "Bearer guess")
      ⟨makeNode "node-1" 1 1 0 none 1, [makePod "node-1" "uid-a" "web-1" "default" 1 1 0]⟩

/-- Whoever comes last, the stored pod is the one posted with the key. -/
theorem stored_data_authenticated_twoReports :
    (after (some "s3cret") twoReports 0 [(true, {}), (true, {}), (false, {}), (false, {})]).state.aggregator.pods.lookup
        ("uid-a", "keck") =
      some ⟨(makePod "node-1" "uid-a" "web-1" "default" 1000 500 0).stamped "keck", 0⟩ ∧
    ∃ i body, twoReports i = .report (some ("Bearer " ++ "s3cret")) body ∧ validateReport body = .ok () ∧
      (after (some "s3cret") twoReports 0 [(true, {}), (true, {}), (false, {}), (false, {})]).threads i =
        .ret .accepted ∧ body.method = "keck" ∧
      ∃ p ∈ body.pods, p.podUid = "uid-a" ∧
        (makePod "node-1" "uid-a" "web-1" "default" 1000 500 0).stamped "keck" = p.stamped "keck" := by
  have hlookup : (after (some "s3cret") twoReports 0
      [(true, {}), (true, {}), (false, {}), (false, {})]).state.aggregator.pods.lookup ("uid-a", "keck") =
      some ⟨(makePod "node-1" "uid-a" "web-1" "default" 1000 500 0).stamped "keck", 0⟩ := by rfl
  exact ⟨hlookup, (stored_data_authenticated "s3cret" twoReports 0
    [(true, {}), (true, {}), (false, {}), (false, {})] (by decide)).1 "uid-a" _ hlookup⟩

end Keck.Controller.Concurrent
