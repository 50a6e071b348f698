import HplcWorkbench.OperationLifecycle

/-!
# Jobs and the operations below them

A job has a parent operation of its own. An investigation creates one operation for each observation
of a log, a write job one for what it does to a module or to the simulated concentrator. The parent is
moved by the thread of the request, the workers or the monitor, and by cancellations; the operations
below it are moved by whoever looks at them and by the threads that do their work. The operations of a
job are its part of the store, an operation below being named by its place in the order of creation.
The store is never restarted here, and its file can be written.
-/

namespace HplcWorkbench.Jobs
open Transitions OperationStore

/-! ## Operations -/

inductive OpKind
  | investigation
  | moduleAction
  | verificationRun
  | flashJob
  | observation
  | moduleSend
  | moduleFlash
  | simconVerify
  deriving DecidableEq, Repr

/-- `operation["kind"]`. -/
def OpKind.text : OpKind → String
  | investigation => "investigation"
  | moduleAction => "module_action"
  | verificationRun => "verification_run"
  | flashJob => "flash_job"
  | observation => "observation"
  | moduleSend => "module_send"
  | moduleFlash => "module_flash"
  | simconVerify => "simcon_verify"

/-- What jobs look at in an operation; of its result only `underlying_operation_id`. -/
structure Op where
  kind : OpKind
  state : String
  underlying : Option ℕ
  deriving DecidableEq, Repr

namespace Op

def new (kind : OpKind) : Op := ⟨kind, "created", none⟩

def Ended (o : Op) : Prop := o.state ∈ terminalStates

instance (o : Op) : Decidable o.Ended := inferInstanceAs (Decidable (o.state ∈ terminalStates))

/-- `set_state`, with a result or without. -/
def setState (o : Op) (state : String) (result : Option (Option ℕ)) : Op :=
  if o.state ∈ terminalStates then o
  else { o with state := state, underlying := result.getD o.underlying }

end Op

section Store
variable {Value : Type} (underlyingOf : Value → Option ℕ)

/-- An operation of the store, as jobs see it. -/
structure Represents (o : Operation Value) (op : Op) : Prop where
  kind : o.kind = op.kind.text
  state : o.state = op.state
  underlying : o.result.bind underlyingOf = op.underlying

variable {underlyingOf} {o : Operation Value} {op : Op}

/-- What `set_state` of the store does to an operation is what it does here. -/
theorem Represents.settle (h : Represents underlyingOf o op) (state : String) (result : Option Value)
    (error : Option String) (now : String) :
    Represents underlyingOf (o.settle state result error now)
      (op.setState state (result.map underlyingOf)) := by
  unfold Operation.settle Op.setState
  rw [← h.state]
  by_cases hended : o.state ∈ terminalStates
  · rw [if_pos hended, if_pos hended]
    exact h
  · rw [if_neg hended, if_neg hended]
    refine ⟨h.kind, rfl, ?_⟩
    cases result with
    | none => exact h.underlying
    | some value => rfl

end Store

/-! ## Threads -/

/-- What an observation looks at: the frames of the simulated concentrator need no operation. -/
inductive Source
  | simcon
  | log
  deriving DecidableEq, Repr

/-- How far `_run_observation` has come. -/
inductive Observer
  | pending (source : Source)
  | driving (child : ℕ)
  | done
  deriving DecidableEq, Repr

/-- The operation that a worker has created and not left. -/
def Observer.child : Observer → Option ℕ
  | driving c => some c
  | pending _ | done => none

/-- What a write job does. -/
inductive Action
  | ensure
  | stop
  | send
  | flash
  | verify
  deriving DecidableEq, Repr

namespace Action

/-- The kind of the parent operation. -/
def kind : Action → OpKind
  | ensure | stop | send => .moduleAction
  | flash => .flashJob
  | verify => .verificationRun

/-- The kind of the operation that the control service creates. -/
def child : Action → Option OpKind
  | ensure | stop => none
  | send => some .moduleSend
  | flash => some .moduleFlash
  | verify => some .simconVerify

/-- The states that the control service sets before it returns the operation. -/
def records : Action → List String
  | ensure | stop => []
  | send => ["succeeded", "error"]
  | flash => ["waiting", "succeeded", "error"]
  | verify => ["waiting"]

end Action

/-- The `state` of a session payload. -/
inductive SessionState
  | idle
  | running
  | error
  deriving DecidableEq, Repr

def SessionState.text : SessionState → String
  | idle => "idle"
  | running => "running"
  | error => "error"

/-- How far the threads of a job have come: `_run_job` with its observations, or the request of a
write job, which goes over into `_monitor_write_job`. `acted` keeps the state that was returned. -/
inductive Thread
  | queued (sources : List Source)
  | observing (observers : List Observer)
  | called (action : Action)
  | acting (action : Action) (child : ℕ)
  | acted (action : Action) (child : ℕ) (state : String)
  | monitoring (child : ℕ)
  | ended
  deriving DecidableEq, Repr

/-- The requests that make a job. -/
inductive JobRequest
  | investigate (sources : List Source)
  | act (action : Action)
  deriving DecidableEq, Repr

structure Job where
  request : JobRequest
  parent : Op
  threads : List Thread
  children : List Op
  deriving DecidableEq, Repr

def JobRequest.thread : JobRequest → Thread
  | investigate sources => .queued sources
  | act action => .called action

def JobRequest.kind : JobRequest → OpKind
  | investigate _ => .investigation
  | act action => action.kind

/-- A request that is accepted. -/
def JobRequest.start (r : JobRequest) : Option Job :=
  let job : Job := ⟨r, .new r.kind, [r.thread], []⟩
  match r with
  | investigate sources => if 1 ≤ sources.length ∧ sources.length ≤ 3 then some job else none
  | act _ => some job

/-! ## Steps -/

inductive ThreadEvent
  | begin
  | drop
  | observe (k : ℕ)
  | skip (k : ℕ)
  | leave (k : ℕ)
  | complete
  | call
  | reply (state : SessionState)
  | act (state : String)
  | record
  | look
  | raise
  deriving DecidableEq, Repr

inductive JobEvent
  | again
  | thread (t : ℕ) (e : ThreadEvent)
  | advance (k : ℕ) (state : String)
  | cancelOperation (child : Option ℕ)
  | cancelJob
  deriving DecidableEq, Repr

/-- The state of the parent in `_finish_write_job`. -/
def parentState (state : String) : String :=
  let state := if state = "" then "error" else state
  if state ∈ ["succeeded", "matched", "timed_out", "idle"] then "succeeded"
  else if state = "cancelled" then "cancelled"
  else if state ∈ ["error", "interrupted"] then "error"
  else "waiting"

/-- `_finish_write_job`, for the operation below or for a result without one. -/
def finishWriteJob (parent : Op) (state : String) (child : Option ℕ) : Op :=
  parent.setState (parentState state) (some child)

/-- The states an operation goes through by itself, from where it is. -/
def ownStates (o : Op) : List String :=
  match o.kind with
  | .observation => ["waiting", "matched", "succeeded", "timed_out", "error", "source_stopped"]
  | .moduleFlash | .simconVerify => if o.state = "waiting" then ["succeeded", "error"] else []
  | _ => []

/-- The kinds that `cancel_operation` refuses. -/
def OpKind.unstoppable (kind : OpKind) : Bool := kind = .moduleFlash ∨ kind = .simconVerify

/-- A thread, the parent and the operations below after a step of the thread. -/
def Thread.step (parent : Op) (children : List Op) :
    Thread → ThreadEvent → Option (Thread × Op × List Op)
  | .queued sources, .begin =>
    some (.observing (sources.map .pending), parent.setState "running" none, children)
  -- the audit entry and the submission of an investigation stand outside of any handler
  | .queued _, .drop => some (.ended, parent, children)
  | .queued _, .raise => some (.ended, parent.setState "error" (some none), children)
  | .observing observers, .observe k =>
    match observers[k]? with
    | some (.pending .log) => some (.observing (observers.set k (.driving children.length)), parent,
        children ++ [.new .observation])
    | _ => none
  | .observing observers, .skip k =>
    match observers[k]? with
    | some (.pending _) => some (.observing (observers.set k .done), parent, children)
    | _ => none
  | .observing observers, .leave k =>
    match observers[k]? with
    | some (.driving _) => some (.observing (observers.set k .done), parent, children)
    | _ => none
  | .observing observers, .complete =>
    if ∀ o ∈ observers, o = .done then
      some (.ended, parent.setState "succeeded" (some none), children)
    else none
  -- what was submitted ends before the handler runs
  | .observing observers, .raise =>
    if ∀ o ∈ observers, o.child = none then
      some (.ended, parent.setState "error" (some none), children)
    else none
  | .called action, .call =>
    action.child.map fun kind => (.acting action children.length, parent, children ++ [.new kind])
  | .called .ensure, .reply _ => some (.ended, finishWriteJob parent "succeeded" none, children)
  | .called .stop, .reply state => some (.ended, finishWriteJob parent state.text none, children)
  | .acting action c, .act state =>
    match children[c]? with
    | none => none
    | some child =>
      if state ∈ action.records then
        let child' := child.setState state none
        some (.acted action c child'.state, parent, children.set c child')
      else none
  | .acted action c state, .record =>
    if action = .send ∨ action = .flash ∧ state ∈ terminalStates then
      some (.ended, finishWriteJob parent state (some c), children)
    else some (.monitoring c, parent.setState "waiting" (some (some c)), children)
  | .monitoring c, .look =>
    match children[c]? with
    | none => none
    | some child =>
      if child.state ∈ terminalStates then
        some (.ended, finishWriteJob parent child.state (some c), children)
      else some (.monitoring c, parent, children)
  | .called _, .raise | .acting _ _, .raise | .acted _ _ _, .raise | .monitoring _, .raise =>
    some (.ended, parent.setState "error" none, children)
  | _, _ => none

/-- `cancel_operation` of an operation below. -/
def Job.cancelChild (job : Job) (k : ℕ) : Job :=
  match job.children[k]? with
  | none => job
  | some child =>
    if child.kind.unstoppable then job
    else { job with children := job.children.set k (child.setState "cancelled" (some none)) }

/-- `cancel_operation` of the parent, and what `cancel_job` does to it. -/
def Job.cancelParent (job : Job) : Job :=
  { job with parent := job.parent.setState "cancelled" (some none) }

def jobMachine : Machine Job JobEvent where
  step job
    -- the same request again: only where the parent is still as it was created
    | .again =>
      if job.parent.state = "created" then
        some { job with threads := job.threads ++ [job.request.thread] }
      else some job
    | .thread t e =>
      match job.threads[t]? with
      | none => none
      | some thread => (thread.step job.parent job.children e).map fun (thread', parent', children') =>
        { job with threads := job.threads.set t thread', parent := parent', children := children' }
    | .advance k state =>
      match job.children[k]? with
      | none => none
      | some child =>
        if state ∈ ownStates child then
          some { job with children := job.children.set k (child.setState state none) }
        else none
    | .cancelOperation (some k) => some (job.cancelChild k)
    | .cancelOperation none => some job.cancelParent
    | .cancelJob =>
      if job.parent.kind = .flashJob ∨ job.parent.kind = .verificationRun then some job
      else
        match job.parent.underlying with
        | some k => some (job.cancelChild k)
        | none => some job.cancelParent

/-- Any number of jobs. -/
def jobs : Machine (List Job) (Machine.PoolEvent JobRequest JobEvent) :=
  jobMachine.pool JobRequest.start

end HplcWorkbench.Jobs
