import HplcWorkbench.OperationLifecycle
import Mathlib.Logic.Function.Basic

/-!
# Requests under one idempotency key

Several requests with one key run at the same time. Each asks the store for its operation and, where
that came back as created, acts and only then records a state. The entry points differ in whether they
make a second operation for the action and whether they act behind the gate of the verification.
-/

namespace HplcWorkbench.Control

open Transitions OperationStore

/-! ## Entry points -/

/-- What the entry points differ in: the kind of their operation, the kind of the operation made for
the action itself, whether the action is a verification, and whether an audit entry is written before
the action, outside of what turns exceptions into the state of an error. -/
structure Endpoint where
  kind : String
  nested : Option String := none
  gated : Bool := false
  auditsFirst : Bool := false

/-- `send_module`. -/
def sendModule : Endpoint := { kind := "module_send" }

/-- `flash_module`. -/
def flashModule : Endpoint := { kind := "module_flash" }

/-- `simcon_verify`: asking for the operation and recording are one critical section. -/
def simconVerify : Endpoint := { kind := "simcon_verify", gated := true }

/-- `start_investigation`. -/
def startInvestigation : Endpoint := { kind := "investigation", auditsFirst := true }

/-- `start_module_action`, where the action is to send. -/
def startModuleSend : Endpoint := { kind := "module_action", nested := some "module_send" }

/-- `start_module_action`, where the action is to ensure or to stop a session. -/
def startModuleAction : Endpoint := { kind := "module_action" }

/-- `start_flash_job`. -/
def startFlashJob : Endpoint := { kind := "flash_job", nested := some "module_flash" }

/-- `start_verification_run`. -/
def startVerificationRun : Endpoint :=
  { kind := "verification_run", nested := some "simcon_verify", gated := true }

structure Request (Value : Type) where
  endpoint : Endpoint
  actor : String
  payload : Value
  nestedPayload : Value

/-! ## Interleavings -/

/-- How far a request has come. -/
inductive Phase
  | idle
  | found (operationId : String)
  | prepared (operationId nestedId : String)
  | started (operationId : String)
  | performed (operationId : String)
  | returned (operationId : Option String)
  deriving DecidableEq

/-- The store, the requests, whether a verification runs, and which requests acted, in order. -/
structure Race (ι Value : Type) where
  store : Store Value
  phase : ι → Phase
  running : Bool
  performed : List ι

inductive RaceEvent (ι Value : Type)
  | look (i : ι) (newId now : String) (outcome recorded : WriteOutcome)
  | prepare (i : ι) (newId now : String) (outcome recorded : WriteOutcome)
  | perform (i : ι)
  | record (i : ι) (state : String) (result : Option Value) (error : Option String) (now : String)
      (outcome : WriteOutcome)
  | leave (i : ι)
  | verified
  | other (c : Call Value) (outcome : WriteOutcome)

/-- The states that the entry points and their workers record. -/
def recordedStates : List String := ["running", "waiting", "succeeded", "cancelled", "error"]

section Races
variable {ι Value : Type} [DecidableEq ι] (fingerprintOf : String → Value → String)
  (requests : ι → Request Value) (key : String)

/-- `store.create` of a request. -/
def Request.create (r : Request Value) (store : Store Value) (newId now : String)
    (outcome : WriteOutcome) : Except StoreError (Reply Value) × Store Value :=
  OperationStore.create fingerprintOf store r.endpoint.kind r.actor r.payload key none none newId now
    outcome

def Race.goto (s : Race ι Value) (i : ι) (phase : Phase) : Race ι Value :=
  { s with phase := Function.update s.phase i phase }

def Race.withStore (s : Race ι Value) (store : Store Value) : Race ι Value := { s with store := store }

/-- Behind the gate of `simcon_verify` an operation that was made is marked as waiting. -/
def Race.enter (s : Race ι Value) (i : ι) (operationId now : String) (phase failed : Phase)
    (recorded : WriteOutcome) : Race ι Value :=
  match setState s.store operationId "waiting" none none now recorded with
  | (.ok _, store) => { (s.withStore store).goto i phase with running := true }
  | (.error _, store) => { (s.withStore store).goto i failed with running := true }

/-- A request asks for its operation. -/
def Race.look (s : Race ι Value) (i : ι) (newId now : String) (outcome recorded : WriteOutcome) :
    Race ι Value :=
  let gate := (requests i).endpoint.gated && (requests i).endpoint.nested.isNone
  if gate && s.running then s.goto i (.returned none)
  else
    match (requests i).create fingerprintOf key s.store newId now outcome with
    | (.ok (.operation o), store) =>
      if o.state ≠ "created" then (s.withStore store).goto i (.returned (some o.operationId))
      else if gate then
        (s.withStore store).enter i o.operationId now (.started o.operationId)
          (.returned (some o.operationId)) recorded
      else (s.withStore store).goto i (.found o.operationId)
    | (_, store) => (s.withStore store).goto i (.returned none)

/-- A request makes the operation of its action, which has no key. What raises here is recorded. -/
def Race.prepare (s : Race ι Value) (i : ι) (operationId kind newId now : String)
    (outcome recorded : WriteOutcome) : Race ι Value :=
  let r := requests i
  if r.endpoint.gated && s.running then s
  else
    match OperationStore.create fingerprintOf s.store kind r.actor r.nestedPayload "" none none newId now
      outcome with
    | (.ok (.operation o), store) =>
      if r.endpoint.gated then
        (s.withStore store).enter i o.operationId now (.prepared operationId o.operationId)
          (.found operationId) recorded
      else (s.withStore store).goto i (.prepared operationId o.operationId)
    | (_, store) => s.withStore store

/-- The requests under one key, step by step. -/
def races : Machine (Race ι Value) (RaceEvent ι Value) where
  step s
    | .look i newId now outcome recorded =>
      if s.phase i = .idle ∧ newId ≠ "" ∧ newId ∉ s.store.memory.operations.map Prod.fst then
        some (s.look fingerprintOf requests key i newId now outcome recorded)
      else none
    | .prepare i newId now outcome recorded =>
      match s.phase i, (requests i).endpoint.nested with
      | .found operationId, some kind =>
        if newId ≠ "" ∧ newId ∉ s.store.memory.operations.map Prod.fst then
          some (s.prepare fingerprintOf requests i operationId kind newId now outcome recorded)
        else none
      | _, _ => none
    | .perform i =>
      match s.phase i with
      | .found operationId =>
        if (requests i).endpoint.nested.isNone then
          some { s.goto i (.performed operationId) with performed := i :: s.performed }
        else none
      | .prepared operationId _ =>
        some { s.goto i (.performed operationId) with performed := i :: s.performed }
      | .started operationId =>
        some { s.goto i (.returned (some operationId)) with performed := i :: s.performed }
      | _ => none
    | .record i state result error now outcome =>
      match s.phase i with
      | .found operationId | .prepared operationId _ | .performed operationId =>
        if state ∈ recordedStates then
          some ((s.withStore (setState s.store operationId state result error now outcome).2).goto i
            (.returned (some operationId)))
        else none
      | _ => none
    | .leave i =>
      match s.phase i with
      | .found operationId =>
        if (requests i).endpoint.auditsFirst then some (s.goto i (.returned (some operationId))) else none
      | _ => none
    | .verified => some { s with running := false }
    | .other c outcome =>
      if c.Fresh s.store.memory ∧ c.Advances then
        some (s.withStore (c.run fingerprintOf s.store outcome).2)
      else none

/-- No request has begun. -/
def gathered (hasPath damaged : Bool) : Race ι Value :=
  { store := opened hasPath damaged, phase := fun _ => .idle, running := false, performed := [] }

end Races

end HplcWorkbench.Control
