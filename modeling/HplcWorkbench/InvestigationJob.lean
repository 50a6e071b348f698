import HplcWorkbench.ListenerObservation
import HplcWorkbench.OperationLifecycle

/-!
# Investigations

An investigation runs one to three observations and judges them together. An observation of a source
is an operation of its own, which refreshes, a cancellation, a forced stop of its source or a restart
may end before its worker reads it. The verdict looks at the dictionaries that they leave behind. What
a refresh finds in the log of a module, and what the replay and the minute reports count, are inputs.
-/

namespace HplcWorkbench

/-- `str(exc)`. -/
def PyErr.text : PyErr → String
  | .indexError => "list index out of range"
  | .valueError message | .typeError message | .attributeError message | .overflowError message
  | .unsupportedFn message | .zeroDivisionError message => message

/-- `v is True` and `v is False`. -/
def PyVal.isBool (b : Bool) : PyVal → Bool
  | .bool c => b == c
  | _ => false

namespace Control
open ListenerLog
open OperationStore (Operation terminalStates interrupt)

/-! ## What a refresh stores -/

/-- The arguments of a call of `set_state`. -/
structure Write where
  state : String
  result : Option Params
  error : Option String

def Write.error_ (text : String) : Write := ⟨"error", none, some text⟩

/-- The condition of a stored result is met. -/
def Write.met (w : Write) : Bool :=
  w.result.any fun result => (Params.get result "condition_met").isBool true

section ModuleLog

/-- `payload` of an observation of a module; the deadline is the one of a live window. -/
structure ModulePayload where
  sessionId : String
  deadline : Option ℕ
  notSeen : Bool
  matchCount : ℤ

/-- What a refresh finds in the log: the matching lines and how often the condition matched. -/
structure ModuleFindings where
  lines : List PyVal
  matchedCount : ℤ
  log : PyVal
  snippet : PyVal

/-- A refresh of an observation of a module. -/
structure ModuleLook where
  started : ℕ
  finished : ℕ
  now : String
  findings : Except String ModuleFindings

/-- `_module_observation_result`. -/
def moduleObservationResult (payload : ModulePayload) (conditionMet : Bool) (now : String)
    (log snippet : PyVal) (reason : Option String) : Params :=
  [("source", .str "module_log"), ("session_id", .str payload.sessionId),
    ("condition_met", .bool conditionMet), ("matched_at", if conditionMet then .str now else .none),
    ("log", log), ("snippet", snippet)] ++ reason.toList.map fun reason => ("reason", .str reason)

/-- `_refresh_module_observation`, with what it stores. -/
def refreshModuleObservation (payload : ModulePayload) (complete : Bool) (look : ModuleLook) :
    Option Write :=
  let conclude (state : String) (conditionMet : Bool) (found : ModuleFindings) : Option Write :=
    some ⟨state, some (moduleObservationResult payload conditionMet look.now found.log found.snippet none),
      none⟩
  if payload.deadline.any (· ≤ look.started) then
    some ⟨"timed_out", some (moduleObservationResult payload false look.now .none (.list [])
      (some "live_window_unverified")), none⟩
  else
    match look.findings with
    | .error text => some (.error_ text)
    | .ok found =>
      if payload.notSeen then
        if found.lines ≠ [] then conclude "succeeded" false found
        else if complete then conclude "matched" true found
        else none
      else if found.lines ≠ [] ∧ payload.matchCount ≤ found.matchedCount then
        conclude "matched" true found
      else if complete then conclude "succeeded" false found
      else
        match payload.deadline with
        | none => some (.error_ "'>=' not supported between instances of 'float' and 'NoneType'")
        | some deadline => if deadline ≤ look.finished then conclude "timed_out" false found else none

end ModuleLog

section Listener

def ListenerEntry.params (e : ListenerEntry) : PyVal :=
  .dict ([("frame_key", .dict [("index_id", .str e.indexId), ("frame_id", .int e.frameId)]),
    ("sequence", .str e.sequence), ("log_time", .str e.logTime), ("summary", .dict e.summary)] ++
    e.analysis.toList.map fun analysis => ("analysis", analysis))

/-- The dictionary of `_listener_result`. -/
def ListenerResult.params (r : ListenerResult) : Params :=
  [("source", .str "listener"), ("condition_met", .bool r.conditionMet),
    ("index", .dict ([("index_id", .str r.indexId), ("start_frame_id", .int r.startFrameId)] ++
      r.endFrameId.toList.map fun frameId => ("end_frame_id", .int frameId))),
    ("matches", .list (r.matched.map ListenerEntry.params)),
    ("snippet", .list (r.snippet.map ListenerEntry.params))]

/-- The frames of the window as the refresh finds them. -/
structure ListenerLook where
  tables : Tables
  now : ℕ

/-- `_refresh_listener_observation`, with what it stores. -/
def refreshListener (detailOf : FrameRow → PyVal) (payload : ObservationPayload) (complete : Bool)
    (look : ListenerLook) : Option Write :=
  some <| match refreshListenerObservation detailOf look.tables payload complete look.now with
    | .waiting => ⟨"waiting", none, none⟩
    | .matched result => ⟨"matched", some result.params, none⟩
    | .succeeded result => ⟨"succeeded", some result.params, none⟩
    | .timedOut result => ⟨"timed_out", some result.params, none⟩
    | .error e => .error_ e.text

/-- What a replay reports: the number of flows, and the dictionaries of the result. -/
structure TraceReport where
  flows : ℤ
  index : PyVal
  trace : PyVal
  totalFrames : ℤ
  matched : List PyVal

/-- `_trace_query_result`. -/
def traceQueryResult (required : ℤ) (report : TraceReport) : Params :=
  [("source", .str "listener"), ("condition_met", .bool (required ≤ report.flows)),
    ("index", report.index), ("trace", report.trace), ("total_frames", .int report.totalFrames),
    ("matches", .list (report.matched.take 50)), ("snippet", .list ((report.matched.take 50).take 10))]

/-- `_run_trace_query_observation`. -/
def runTraceQueryObservation (matchCount : ℤ) : Except String TraceReport → Option Write
  | .error text => some (.error_ text)
  | .ok report =>
    let required := max matchCount 1
    some ⟨if required ≤ report.flows then "matched" else "succeeded",
      some (traceQueryResult required report), none⟩

/-- A period of the minute reports, with its reports. -/
structure PeriodReports where
  period : Params
  reports : List PyVal

/-- The number of reports in all periods. -/
def totalReports (periods : List PeriodReports) : ℤ := (periods.map fun p => (p.reports.length : ℤ)).sum

/-- `_minute_periods_result`. One report meets the condition, whatever number was required. -/
def minutePeriodsResult (index : PyVal) (periods : List PeriodReports) : Params :=
  [("source", .str "listener"), ("condition_met", .bool (1 ≤ totalReports periods)), ("index", index),
    ("periods", .list (periods.map fun p => .dict (p.period ++ [("reports", .list p.reports)])))]

/-- `_run_minute_periods_observation`. -/
def runMinutePeriodsObservation (index : PyVal) (matchCount : ℤ) :
    Except String (List PeriodReports) → Option Write
  | .error text => some (.error_ text)
  | .ok periods =>
    some ⟨if max matchCount 1 ≤ totalReports periods then "matched" else "succeeded",
      some (minutePeriodsResult index periods), none⟩

end Listener

/-! ## The operation of an observation -/

/-- What happens to the operation of an observation. Whoever looks at it refreshes it; a refresh may
raise while it stores its artifact. -/
inductive ObservationStep (Look : Type)
  | wait (now : String)
  | refresh (look : Look) (now : String)
  | fail (text now : String)
  | cancel (now : String)
  | stopSource (now : String)
  | restart (now : String)

section Operations
variable {Look : Type} (refresh : Look → Option Write)

/-- The operation after a step. A refresh that was begun before the operation ended stores nothing. -/
def ObservationStep.apply (o : Operation Params) : ObservationStep Look → Operation Params
  | .wait now => o.settle "waiting" none none now
  | .refresh look now =>
    match refresh look with
    | none => o
    | some w => o.settle w.state w.result w.error now
  | .fail text now => o.settle "error" none (some text) now
  | .cancel now => o.settle "cancelled" (some [("cancelled_at", .str now)]) none now
  | .stopSource now =>
    o.settle "source_stopped" (some [("source", .str "listener"),
      ("reason", .str "listener_stopped_by_authorized_request"), ("stopped_at", .str now)]) none now
  | .restart now => interrupt now o

/-- The step ends an operation that has not ended. -/
def ObservationStep.ends : ObservationStep Look → Bool
  | .wait _ => false
  | .refresh look _ => (refresh look).any fun w => w.state ∈ terminalStates
  | .fail _ _ | .cancel _ | .stopSource _ | .restart _ => true

/-- The operation of an observation from its creation to what its worker read last; a call of the
worker may raise instead. -/
structure ObservationRun (Look : Type) where
  created : Operation Params
  isNew : created.state = "created" ∧ created.result = none ∧ created.error = none
  steps : List (ObservationStep Look)
  raised : Option String

def ObservationRun.operation (run : ObservationRun Look) : Operation Params :=
  run.steps.foldl (ObservationStep.apply refresh) run.created

/-- The step that ended the operation, if one did. -/
def ObservationRun.ending (run : ObservationRun Look) : Option (ObservationStep Look) :=
  run.steps.find? (ObservationStep.ends refresh)

end Operations

/-! ## The job -/

/-- What `query` of the frame journal returns. -/
structure FramePage where
  sessionId : String
  entries : List PyVal
  nextAfterSeq : ℤ
  matchedTotal : ℤ
  hasMore : Bool
  counts : PyVal

def FramePage.params (page : FramePage) : Params :=
  [("session_id", .str page.sessionId), ("entries", .list page.entries),
    ("next_after_seq", .int page.nextAfterSeq), ("matched_total", .int page.matchedTotal),
    ("has_more", .bool page.hasMore), ("counts", page.counts)]

/-- An observation, and how it goes. -/
inductive Observation
  | simcon (answer : Except String FramePage)
  | moduleLog (payload : ModulePayload) (complete : Bool) (run : ObservationRun ModuleLook)
  | listener (detailOf : FrameRow → PyVal) (payload : ObservationPayload) (complete : Bool)
      (run : ObservationRun ListenerLook)
  | traceQuery (matchCount : ℤ) (run : ObservationRun (Except String TraceReport))
  | minutePeriods (index : PyVal) (matchCount : ℤ)
      (run : ObservationRun (Except String (List PeriodReports)))

/-- What `_run_observation` returns. -/
structure ObservationItem where
  ordinal : ℕ
  source : String
  state : String
  operationId : Option String
  result : Option Params
  error : Option String

/-- The part of `_run_observation` that drives an operation. -/
def runOperation {Look : Type} (refresh : Look → Option Write) (ordinal : ℕ) (source : String)
    (run : ObservationRun Look) : ObservationItem :=
  match run.raised with
  | some text => ⟨ordinal, source, "error", none, none, some text⟩
  | none =>
    let operation := run.operation refresh
    ⟨ordinal, source, operation.state, some operation.operationId, operation.result, operation.error⟩

/-- `_run_observation`. -/
def runObservation (ordinal : ℕ) : Observation → ObservationItem
  | .simcon (.ok page) => ⟨ordinal, "simcon", "succeeded", none, some page.params, none⟩
  | .simcon (.error text) => ⟨ordinal, "simcon", "error", none, none, some text⟩
  | .moduleLog payload complete run =>
    runOperation (refreshModuleObservation payload complete) ordinal "module_log" run
  | .listener detailOf payload complete run =>
    runOperation (refreshListener detailOf payload complete) ordinal "listener" run
  | .traceQuery matchCount run =>
    runOperation (runTraceQueryObservation matchCount) ordinal "listener" run
  | .minutePeriods index matchCount run =>
    runOperation (runMinutePeriodsObservation index matchCount) ordinal "listener" run

/-- `InvestigationRequest.observations`. -/
structure Investigation where
  observations : List Observation
  bounded : 1 ≤ observations.length ∧ observations.length ≤ 3

/-- What the observations return, by their ordinals. -/
def Investigation.items (inv : Investigation) : List ObservationItem :=
  inv.observations.mapIdx runObservation

/-- What happens to the operation of a job. The observations complete in any order. -/
inductive JobStep (inv : Investigation)
  | start (now : String)
  | finish (completed : List ObservationItem) (all : completed.Perm inv.items) (now : String)
  | fail (text now : String)
  | cancel (now : String)
  | restart (now : String)

/-- The operation of a job after a step of `_run_job`, `cancel_job` or a restart. Of its result only
the observations are kept. -/
def JobStep.apply {inv : Investigation} (o : Operation (List ObservationItem)) :
    JobStep inv → Operation (List ObservationItem)
  | .start now => o.settle "running" none none now
  | .finish completed _ now =>
    o.settle "succeeded" (some (completed.insertionSort fun a b => a.ordinal ≤ b.ordinal)) none now
  | .fail text now => o.settle "error" (some []) (some text) now
  | .cancel now => o.settle "cancelled" (some []) none now
  | .restart now => interrupt now o

/-! ## The verdict -/

inductive Verdict
  | pass
  | fail
  | inconclusive
  | error
  deriving DecidableEq, Repr

/-- `_JOB_TERMINAL`. -/
def jobTerminal : List String := ["succeeded", "failed", "cancelled"]

/-- `(item.get("result") or {}).get(key)`. -/
def ObservationItem.field (item : ObservationItem) (key : String) : PyVal :=
  Params.get (item.result.getD []) key

/-- `_verdict`. -/
def verdict (state : String) (results : List ObservationItem) : Option Verdict :=
  if state ∉ jobTerminal ∧ state ∉ ["error", "timed_out"] then none
  else if state ∈ ["error", "interrupted"] then some .error
  else if results.any fun item => item.error.any (· ≠ "") || item.state = "error" then some .error
  else if results.any fun item => (item.field "reason").eqStr "live_window_unverified" then
    some .inconclusive
  else if results.any fun item => (item.field "condition_met").isBool false then some .fail
  else if results ≠ [] then some .pass
  else none

/-- The operation of a job from its creation to a look at it. -/
structure JobRun (inv : Investigation) where
  created : Operation (List ObservationItem)
  isNew : created.state = "created" ∧ created.result = none
  steps : List (JobStep inv)

def JobRun.operation {inv : Investigation} (job : JobRun inv) : Operation (List ObservationItem) :=
  job.steps.foldl JobStep.apply job.created

/-- The verdict in the envelope of a job. -/
def JobRun.verdict {inv : Investigation} (job : JobRun inv) : Option Verdict :=
  Control.verdict job.operation.state (job.operation.result.getD [])

end Control

end HplcWorkbench
