import HplcWorkbench.ResourceLease
import HplcWorkbench.TransitionSystems
import Mathlib.Data.List.Chain

/-!
# The run executor

A run is submitted, its thread goes through the steps of `_run_steps` and settles the status in
the handlers around them, and `cancel` may be called at any moment. The thread and the calls write
the same run without a lock, so every access to what they share is a step of its own. The lease
table is a local variable of `_run_steps`.
-/

namespace HplcWorkbench.Orchestration
open Transitions

/-! ## Run statuses -/

inductive RunStatus
  | created
  | queued
  | running
  | cancelling
  | cancelled
  | passed
  | failed
  | inconclusive
  | error
  deriving DecidableEq, Repr

/-- `RUN_TRANSITIONS`. -/
def runTransitions : RunStatus → List RunStatus
  | .created => [.created, .queued]
  | .queued => [.queued, .running]
  | .running => [.running, .passed, .failed, .inconclusive, .cancelling, .error]
  | .cancelling => [.cancelling, .cancelled, .error]
  | .cancelled => [.cancelled]
  | .passed => [.passed]
  | .failed => [.failed]
  | .inconclusive => [.inconclusive]
  | .error => [.error]

/-- `TERMINAL`. -/
def terminal : List RunStatus := [.cancelled, .passed, .failed, .inconclusive, .error]

/-- `transition`: the target, or `ValueError`. -/
def transition (current target : RunStatus) : Option RunStatus :=
  if target ∈ runTransitions current then some target else none

/-! ## What a run is asked to do -/

/-- Whether a run is started by `submit`, in a thread of its own, or by `execute`. -/
inductive Entry
  | submit
  | execute
  deriving DecidableEq, Repr

/-- The parts of a `RunRequest` that decide which steps a run takes. -/
structure RunRequest where
  entry : Entry := .submit
  skipMonitor : Bool := false
  skipStimulus : Bool := false
  skipCompare : Bool := false
  resourceId : Option String := none
  deriving DecidableEq, Repr

/-- `request.extras.get("resource_id") or "serial/COM19"`. -/
def RunRequest.resource (r : RunRequest) : String :=
  match r.resourceId with
  | none | some "" => "serial/COM19"
  | some id => id

/-- What `_run_steps` and the code around it do, as far as others can see it. -/
inductive Instr
  /-- `check_cancel()` -/
  | check
  /-- `update_canonical_run` takes the values of the row -/
  | readRow
  /-- and writes it -/
  | writeRow
  /-- `monitor_port.scan` -/
  | scan
  /-- `acquire_serial_lease` -/
  | acquire
  /-- `stimulus_port.execute`, and the release in the `finally` around it -/
  | execute
  /-- code that only computes, reads files or saves the report -/
  | compute
  /-- the run is taken out of the dicts of the executor -/
  | unregister
  deriving DecidableEq, Repr

/-- `update_canonical_run`. -/
def updateRun : List Instr := [.readRow, .writeRow]

/-- `_run_steps`: flash, monitor, stimulus, compare, feedback and the report. -/
def runSteps (r : RunRequest) : List Instr :=
  [.compute, .check] ++ updateRun ++ [.check] ++
  (if r.skipMonitor then [] else [.scan]) ++ updateRun ++ [.check] ++
  (if r.skipStimulus then [] else [.acquire] ++ updateRun ++ [.execute]) ++ updateRun ++
  [.check] ++ (if r.skipCompare then [] else [.compute]) ++ updateRun ++
  [.check, .compute] ++ updateRun ++ [.compute]

/-- The `finally` block and what follows it. -/
def finish : List Instr := updateRun ++ [.compute, .unregister]

/-- `report.summary["verdict"]`. -/
inductive Verdict
  | pass
  | inconclusive
  | fail
  deriving DecidableEq, Repr

def Verdict.status : Verdict → RunStatus
  | .pass => .passed
  | .inconclusive => .inconclusive
  | .fail => .failed

/-! ## The state of a run -/

/-- Where the thread of a run stands. -/
inductive Thread
  | idle
  /-- inside `_run_steps` -/
  | steps (rest : List Instr)
  /-- the verdict is set, the cancel event not yet looked at -/
  | decided
  | finishing (rest : List Instr)
  deriving DecidableEq, Repr

/-- Where a call of `cancel` stands. -/
inductive CancelCall
  /-- it has got the event and the run -/
  | found
  /-- it has set the event -/
  | flagged
  /-- it has set the status -/
  | marked
  /-- it has taken the values of the row -/
  | read (row : RunStatus)
  | done
  deriving DecidableEq, Repr

/-- A run with its thread and the calls of `cancel`. `history` lists the statuses of the run since
it was recorded and `stored` those of the rows written, newest first; `row` is a row whose values
the thread has taken and not yet written. -/
structure RunState where
  status : RunStatus := .created
  history : List RunStatus := []
  stored : List RunStatus := []
  cancelEvent : Bool := false
  registered : Bool := false
  thread : Thread := .idle
  row : Option RunStatus := none
  leases : ResourceLeaseManager := {}
  cancels : List CancelCall := []
  deriving DecidableEq

/-- How an instruction of the thread ends. -/
inductive Outcome
  | ok
  | portError
  | exception
  | verdict (v : Verdict)
  deriving DecidableEq, Repr

inductive Event
  /-- `submit` or `execute` records the run -/
  | start
  | thread (outcome : Outcome)
  /-- `cancel` is called and looks the run up -/
  | cancel
  /-- the `k`-th call goes on -/
  | cancelStep (k : ℕ)
  /-- the store update of the `k`-th call raises -/
  | cancelRaises (k : ℕ)
  deriving DecidableEq, Repr

namespace RunState

def setStatus (s : RunState) (status : RunStatus) : RunState :=
  { s with status := status, history := status :: s.history }

/-- `_run_steps` is left: its lease table is gone. -/
def leave (s : RunState) (status : RunStatus) (thread : Thread) : RunState :=
  { s.setStatus status with leases := {}, row := none, thread := thread }

/-- The row taken is written. -/
def writeRow (s : RunState) (thread : Thread) : RunState :=
  { s with stored := s.row.toList ++ s.stored, row := none, thread := thread }

/-- The status for an exception that is neither `RunCancelled` nor `PortError`. -/
def exceptionStatus : Entry → RunStatus
  | .submit => .error
  | .execute => .failed

section Thread
variable (request : RunRequest) (runId : String)

/-- The next instruction of `_run_steps` goes through. -/
def perform (s : RunState) (rest : List Instr) : Instr → RunState
  | .check =>
    if s.cancelEvent then s.leave .cancelled (.finishing finish)
    else { s with thread := .steps rest }
  | .readRow => { s with row := some s.status, thread := .steps rest }
  | .writeRow => s.writeRow (.steps rest)
  | .acquire =>
    match acquireSerialLease s.leases runId request.resource with
    | .ok (_, leases) => { s with leases := leases, thread := .steps rest }
    | .error _ => s.leave (exceptionStatus request.entry) (.finishing finish)
  | .execute =>
    { s with leases := s.leases.release "serial_port" request.resource runId, thread := .steps rest }
  | .scan | .compute | .unregister => { s with thread := .steps rest }

/-- The next instruction of the block after `_run_steps` goes through. -/
def performFinish (s : RunState) (rest : List Instr) : Instr → RunState
  | .readRow => { s with row := some s.status, thread := .finishing rest }
  | .writeRow => s.writeRow (.finishing rest)
  | .unregister => { s with registered := false, thread := .finishing rest }
  | _ => { s with thread := .finishing rest }

/-- A step of the thread. A port may raise `PortError`; everything but `check_cancel` may raise
another exception, and one in the `finally` block ends the thread. -/
def threadStep (s : RunState) (outcome : Outcome) : Option RunState :=
  match s.thread, outcome with
  | .steps (i :: rest), .ok => some (s.perform request runId rest i)
  | .steps (i :: _), .portError =>
    if i = .scan ∨ i = .execute then some (s.leave .failed (.finishing finish)) else none
  | .steps (i :: _), .exception =>
    if i = .check then none
    else some (s.leave (exceptionStatus request.entry) (.finishing finish))
  | .steps [], .verdict v =>
    some (s.leave v.status (if request.entry = .submit then .decided else .finishing finish))
  | .decided, .ok =>
    if s.cancelEvent then some { s.setStatus .cancelled with thread := .finishing finish }
    else some { s with thread := .finishing finish }
  | .finishing (i :: rest), .ok => some (s.performFinish rest i)
  | .finishing (_ :: _), .exception => some { s with row := none, thread := .finishing [] }
  | _, _ => none

end Thread

/-- A call of `cancel` goes on. -/
def cancelStep (s : RunState) (k : ℕ) : Option RunState :=
  match s.cancels[k]? with
  | some .found => some { s with cancelEvent := true, cancels := s.cancels.set k .flagged }
  | some .flagged =>
    some { s.setStatus .cancelling with cancels := s.cancels.set k .marked }
  | some .marked => some { s with cancels := s.cancels.set k (.read s.status) }
  | some (.read row) => some { s with stored := row :: s.stored, cancels := s.cancels.set k .done }
  | _ => none

/-- The store update of a call raises. -/
def cancelRaises (s : RunState) (k : ℕ) : Option RunState :=
  match s.cancels[k]? with
  | some .marked | some (.read _) => some { s with cancels := s.cancels.set k .done }
  | _ => none

/-- The run is recorded as running, and `submit` registers it for `cancel`. -/
def start (request : RunRequest) : RunState where
  status := .running
  history := [.running]
  stored := [.running]
  registered := request.entry = .submit
  thread := .steps (runSteps request)

end RunState

/-- One run. -/
def runMachine (request : RunRequest) (runId : String) : Machine RunState Event where
  step s
    | .start => if s.thread = .idle then some (RunState.start request) else none
    | .thread outcome => s.threadStep request runId outcome
    | .cancel => some (if s.registered then { s with cancels := s.cancels ++ [.found] } else s)
    | .cancelStep k => s.cancelStep k
    | .cancelRaises k => s.cancelRaises k

/-- All runs of an executor; an event belongs to one of them. -/
def executor (requests : List (String × RunRequest)) : Machine (List RunState) (ℕ × Event) where
  step
    | runs, (i, e) =>
      match requests[i]?, runs[i]? with
      | some (runId, request), some s => ((runMachine request runId).step s e).map (runs.set i ·)
      | _, _ => none

/-- None of the runs is submitted yet. -/
def unsubmitted (requests : List (String × RunRequest)) : List RunState :=
  requests.map fun _ => {}

section Steps
variable {request : RunRequest} {runId : String} {s s' : RunState}

/-- The steps of the thread. -/
theorem threadStep_cases {o : Outcome} (h : s.threadStep request runId o = some s') :
    (∃ i rest, s.thread = .steps (i :: rest) ∧ o = .ok ∧ s' = s.perform request runId rest i) ∨
    (∃ i rest, s.thread = .steps (i :: rest) ∧ o = .portError ∧
      s' = s.leave .failed (.finishing finish)) ∨
    (∃ i rest, s.thread = .steps (i :: rest) ∧ o = .exception ∧
      s' = s.leave (RunState.exceptionStatus request.entry) (.finishing finish)) ∨
    (∃ v, s.thread = .steps [] ∧ o = .verdict v ∧
      s' = s.leave v.status (if request.entry = .submit then .decided else .finishing finish)) ∨
    (s.thread = .decided ∧ o = .ok ∧
      s' = { (if s.cancelEvent then s.setStatus .cancelled else s) with thread := .finishing finish }) ∨
    (∃ i rest, s.thread = .finishing (i :: rest) ∧ o = .ok ∧ s' = s.performFinish rest i) ∨
    (∃ i rest, s.thread = .finishing (i :: rest) ∧ o = .exception ∧
      s' = { s with row := none, thread := .finishing [] }) := by
  unfold RunState.threadStep at h
  split at h
  case h_1 i rest hthread => exact .inl ⟨i, rest, hthread, rfl, (Option.some.inj h).symm⟩
  case h_2 i rest hthread =>
    split at h
    case isTrue => exact .inr (.inl ⟨i, rest, hthread, rfl, (Option.some.inj h).symm⟩)
    case isFalse => cases h
  case h_3 i rest hthread =>
    split at h
    case isTrue => cases h
    case isFalse => exact .inr (.inr (.inl ⟨i, rest, hthread, rfl, (Option.some.inj h).symm⟩))
  case h_4 v hthread => exact .inr (.inr (.inr (.inl ⟨v, hthread, rfl, (Option.some.inj h).symm⟩)))
  case h_5 hthread =>
    refine .inr (.inr (.inr (.inr (.inl ⟨hthread, rfl, ?_⟩))))
    split at h
    case isTrue hset => rw [if_pos hset, Option.some.inj h]
    case isFalse hset => rw [if_neg hset, Option.some.inj h]
  case h_6 i rest hthread =>
    exact .inr (.inr (.inr (.inr (.inr (.inl ⟨i, rest, hthread, rfl, (Option.some.inj h).symm⟩)))))
  case h_7 i rest hthread =>
    exact .inr (.inr (.inr (.inr (.inr (.inr ⟨i, rest, hthread, rfl, (Option.some.inj h).symm⟩)))))
  case h_8 => cases h

end Steps

end HplcWorkbench.Orchestration
