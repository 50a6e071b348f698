import HplcWorkbench.TransitionSystems
import Mathlib.Data.List.Basic

/-!
# The store of operations

Operations, their idempotency index, artifacts and the audit list live in memory, and every change
writes them to one file through a temporary one. Memory is changed first, and what was changed stays
when the write raises. Payloads, results and contents are values the store never looks into.
-/

namespace HplcWorkbench.OperationStore
open Transitions

/-- `TERMINAL_STATES`. -/
def terminalStates : List String :=
  ["matched", "succeeded", "timed_out", "cancelled", "source_stopped", "error", "interrupted"]

/-! ## Dicts -/

/-- A dict keeps its keys in the order they were first set. -/
abbrev Dict (α : Type) := List (String × α)

namespace Dict
variable {α : Type}

/-- `d[key] = value`. -/
def set (d : Dict α) (key : String) (value : α) : Dict α :=
  if key ∈ d.map Prod.fst then d.map fun e => if e.1 = key then (key, value) else e
  else d ++ [(key, value)]

def values (d : Dict α) : List α := d.map Prod.snd

end Dict

section Store
variable {Value : Type}

structure Operation (Value : Type) where
  operationId : String
  kind : String
  actor : String
  state : String
  createdAt : String
  updatedAt : String
  version : ℕ
  payload : Value
  result : Option Value
  error : Option String
  clientRequestId : Option String
  idempotencyFingerprint : Option String
  idempotencyReplayFingerprint : Option String

/-- The key under which an operation stands in the idempotency index, if it has one. -/
def Operation.requestKey (o : Operation Value) : Option String :=
  o.clientRequestId.filter (· ≠ "")

structure Artifact (Value : Type) where
  artifactId : String
  operationId : String
  resource : String
  kind : String
  createdAt : String
  content : Value

structure AuditEntry where
  at_ : String
  actor : String
  action : String
  resource : String
  result : String
  operationId : Option String
  deriving DecidableEq, Repr

@[ext]
structure Memory (Value : Type) where
  operations : Dict (Operation Value) := []
  requestIds : Dict String := []
  audit : List AuditEntry := []
  artifacts : Dict (Artifact Value) := []

/-- What `_persist_locked` writes. -/
structure Payload (Value : Type) where
  operations : List (Operation Value)
  audit : List AuditEntry
  artifacts : List (Artifact Value)

/-- A file of this store; `damaged` is one that does not read as JSON of this version. -/
inductive File (Value : Type)
  | missing
  | damaged
  | saved (payload : Payload Value)

/-- The store with its file, if it has a path, and the temporary file beside it. -/
structure Store (Value : Type) where
  hasPath : Bool
  memory : Memory Value := {}
  file : File Value := .missing
  temporary : File Value := .missing

/-- The exceptions of the mutating calls. -/
inductive StoreError
  | keyError (key : String)
  | idempotencyConflict
  | persistence
  deriving DecidableEq, Repr

/-- How the write of the file ends: it may raise before the temporary file is touched, while it is
written, or when it is to replace the file. -/
inductive WriteOutcome
  | ok
  | beforeWrite
  | whileWriting
  | replacing
  deriving DecidableEq, Repr

/-! ## Reading and writing the file -/

def Memory.payload (m : Memory Value) : Payload Value :=
  ⟨m.operations.values, m.audit, m.artifacts.values⟩

/-- `_persist_locked`. -/
def persistLocked (s : Store Value) (outcome : WriteOutcome) : Except StoreError Unit × Store Value :=
  if !s.hasPath then (.ok (), s)
  else match outcome with
    | .beforeWrite => (.error .persistence, s)
    | .whileWriting => (.error .persistence, { s with temporary := .damaged })
    | .replacing => (.error .persistence, { s with temporary := .saved s.memory.payload })
    | .ok => (.ok (), { s with file := .saved s.memory.payload, temporary := .missing })

/-- An operation that the restart interrupted. -/
def interrupt (now : String) (o : Operation Value) : Operation Value :=
  if o.state ∈ terminalStates then o
  else { o with
    state := "interrupted", error := some "服务重启，未完成操作已中断", updatedAt := now
    version := o.version + 1 }

/-- One turn of the loop over the operations of the file. -/
def loadOperation (restore : Operation Value → Operation Value) (m : Memory Value)
    (o : Operation Value) : Memory Value :=
  if o.operationId = "" then m
  else
    { m with
      operations := m.operations.set o.operationId (restore o)
      requestIds := match (restore o).requestKey with
        | none => m.requestIds
        | some id => m.requestIds.set id o.operationId }

/-- One turn of the loop over the artifacts of the file. -/
def loadArtifact (d : Dict (Artifact Value)) (a : Artifact Value) : Dict (Artifact Value) :=
  if a.artifactId = "" then d else d.set a.artifactId a

/-- What is read from a file, with `restore` applied to each operation. -/
def readFile (restore : Operation Value → Operation Value) : File Value → Memory Value
  | .missing | .damaged => {}
  | .saved p =>
    { p.operations.foldl (loadOperation restore) {} with
      audit := p.audit, artifacts := p.artifacts.foldl loadArtifact [] }

/-- Whether an operation of the file is interrupted by the restart. -/
def File.unfinished : File Value → Prop
  | .missing | .damaged => False
  | .saved p => ∃ o ∈ p.operations, o.operationId ≠ "" ∧ o.state ∉ terminalStates

instance (f : File Value) : Decidable f.unfinished :=
  match f with
  | .missing => inferInstanceAs (Decidable False)
  | .damaged => inferInstanceAs (Decidable False)
  | .saved p => inferInstanceAs (Decidable (∃ o ∈ p.operations, _))

/-- The constructor with `_load`: operations that were not finished are interrupted, and then the
file is written again. -/
def restart (s : Store Value) (now : String) (outcome : WriteOutcome) :
    Except StoreError Unit × Store Value :=
  let file := if s.hasPath then s.file else .missing
  let s := { s with memory := readFile (interrupt now) file }
  if file.unfinished then persistLocked s outcome else (.ok (), s)

/-! ## The mutating calls -/

/-- What a call returns. -/
inductive Reply (Value : Type)
  | operation (o : Operation Value)
  | artifact (a : Artifact Value)
  | none

/-- A call with the identifier and the time it draws. -/
inductive Call (Value : Type)
  | create (kind actor : String) (payload : Value) (clientRequestId : String)
      (fingerprint replayFingerprint : Option String) (newId now : String)
  | setState (operationId state : String) (result : Option Value) (error : Option String)
      (now : String)
  | registerArtifact (operationId resource kind : String) (content : Value) (newId now : String)
  | audit (actor action resource result operationId now : String)

/-- `x or None` of a text. -/
def orNone (text : String) : Option String := if text = "" then none else some text

/-- Memory is as given; it is written to the file, and the reply returned. -/
def commit (s : Store Value) (m : Memory Value) (reply : Reply Value) (outcome : WriteOutcome) :
    Except StoreError (Reply Value) × Store Value :=
  match persistLocked { s with memory := m } outcome with
  | (.ok (), s') => (.ok reply, s')
  | (.error e, s') => (.error e, s')

variable (fingerprintOf : String → Value → String)

/-- The fingerprint of a request, given or computed. -/
def requestFingerprint (kind : String) (payload : Value) : Option String → String
  | none | some "" => fingerprintOf kind payload
  | some fingerprint => fingerprint

/-- The operation that `create` makes. -/
def newOperation (kind actor : String) (payload : Value) (clientRequestId fingerprint : String)
    (replayFingerprint : Option String) (newId now : String) : Operation Value :=
  { operationId := newId, kind := kind, actor := actor, state := "created", createdAt := now
    updatedAt := now, version := 1, payload := payload, result := none, error := none
    clientRequestId := orNone clientRequestId
    idempotencyFingerprint := if clientRequestId = "" then none else some fingerprint
    idempotencyReplayFingerprint := if clientRequestId = "" then none else replayFingerprint }

/-- The operation that a request identifier stands for already. -/
def Memory.requested (m : Memory Value) (clientRequestId : String) : Option String :=
  if clientRequestId = "" then none else m.requestIds.lookup clientRequestId

def create (s : Store Value) (kind actor : String) (payload : Value) (clientRequestId : String)
    (fingerprint replayFingerprint : Option String) (newId now : String) (outcome : WriteOutcome) :
    Except StoreError (Reply Value) × Store Value :=
  let fingerprint := requestFingerprint fingerprintOf kind payload fingerprint
  match s.memory.requested clientRequestId with
  | some id =>
    match s.memory.operations.lookup id with
    | none => (.error (.keyError id), s)
    | some existing =>
      if existing.idempotencyFingerprint ≠ some fingerprint then (.error .idempotencyConflict, s)
      else (.ok (.operation existing), s)
  | none =>
    let operation := newOperation kind actor payload clientRequestId fingerprint replayFingerprint
      newId now
    commit s
      { s.memory with
        operations := s.memory.operations.set newId operation
        requestIds := if clientRequestId = "" then s.memory.requestIds
          else s.memory.requestIds.set clientRequestId newId }
      (.operation operation) outcome

def setState (s : Store Value) (operationId state : String) (result : Option Value)
    (error : Option String) (now : String) (outcome : WriteOutcome) :
    Except StoreError (Reply Value) × Store Value :=
  match s.memory.operations.lookup operationId with
  | none => (.error (.keyError operationId), s)
  | some operation =>
    if operation.state ∈ terminalStates then (.ok (.operation operation), s)
    else
      let operation := { operation with
        state := state, result := result.or operation.result, error := error.or operation.error
        updatedAt := now, version := operation.version + 1 }
      commit s { s.memory with operations := s.memory.operations.set operationId operation }
        (.operation operation) outcome

def registerArtifact (s : Store Value) (operationId resource kind : String) (content : Value)
    (newId now : String) (outcome : WriteOutcome) : Except StoreError (Reply Value) × Store Value :=
  let manifest : Artifact Value := ⟨newId, operationId, resource, kind, now, content⟩
  commit s { s.memory with artifacts := s.memory.artifacts.set newId manifest }
    (.artifact manifest) outcome

def audit (s : Store Value) (actor action resource result operationId now : String)
    (outcome : WriteOutcome) : Except StoreError (Reply Value) × Store Value :=
  commit s
    { s.memory with
      audit := s.memory.audit ++ [⟨now, actor, action, resource, result, orNone operationId⟩] }
    .none outcome

def Call.run (s : Store Value) (outcome : WriteOutcome) :
    Call Value → Except StoreError (Reply Value) × Store Value
  | .create kind actor payload clientRequestId fingerprint replayFingerprint newId now =>
    OperationStore.create fingerprintOf s kind actor payload clientRequestId fingerprint
      replayFingerprint newId now outcome
  | .setState operationId state result error now =>
    OperationStore.setState s operationId state result error now outcome
  | .registerArtifact operationId resource kind content newId now =>
    OperationStore.registerArtifact s operationId resource kind content newId now outcome
  | .audit actor action resource result operationId now =>
    OperationStore.audit s actor action resource result operationId now outcome

/-- The identifier that a call draws is a new one. -/
def Call.Fresh (m : Memory Value) : Call Value → Prop
  | .create _ _ _ _ _ _ newId _ => newId ≠ "" ∧ newId ∉ m.operations.map Prod.fst
  | .registerArtifact _ _ _ _ newId _ => newId ≠ "" ∧ newId ∉ m.artifacts.map Prod.fst
  | _ => True

instance (m : Memory Value) (c : Call Value) : Decidable (c.Fresh m) :=
  match c with
  | .create _ _ _ _ _ _ newId _ =>
    inferInstanceAs (Decidable (newId ≠ "" ∧ newId ∉ m.operations.map Prod.fst))
  | .registerArtifact _ _ _ _ newId _ =>
    inferInstanceAs (Decidable (newId ≠ "" ∧ newId ∉ m.artifacts.map Prod.fst))
  | .setState .. | .audit .. => inferInstanceAs (Decidable True)

/-- Mutating calls, and restarts from what is on disk, in any order. -/
inductive Event (Value : Type)
  | call (c : Call Value) (outcome : WriteOutcome)
  | restart (now : String) (outcome : WriteOutcome)

/-- A restart that cannot write the file leaves no store behind. -/
def operationStore : Machine (Store Value) (Event Value) where
  step s
    | .call c outcome => if c.Fresh s.memory then some (c.run fingerprintOf s outcome).2 else none
    | .restart now outcome =>
      match restart s now outcome with
      | (.ok (), s') => some s'
      | (.error _, _) => none

end Store

end HplcWorkbench.OperationStore
