import HplcWorkbench.OperationLifecycle

/-!
# The lane of verifications

A verification is started behind a gate that admits one at a time. The request then starts a worker
thread and a watchdog; the worker stores how the verification ended and leaves the gate, or the
watchdog does so in its place. The steps of the three threads and of any number of verifications are
interleaved, and every write of the store may fail.
-/

namespace HplcWorkbench.Control

open Transitions OperationStore

/-! ## Threads -/

/-- The next thing that the request of a verification does after it left the gate. -/
inductive Launch
  | startThread
  | startWatchdog
  | register
  | done
  deriving DecidableEq

/-- How far `_run_simcon_verify` has come. -/
inductive Worker
  | unborn
  | verifying
  | failing
  | finishing
  | cancelling
  | ended
  deriving DecidableEq

/-- How far the timer with `_expire_simcon_verify` has come. -/
inductive Watchdog
  | unborn
  | pending
  | cancelled
  | expired
  | ended
  deriving DecidableEq

/-- A verification that was admitted, with what its threads hold of it. -/
structure Verification where
  generation : ℕ
  operationId : String
  launch : Launch
  worker : Worker
  watchdog : Watchdog

/-- `_simcon_verify_running`, `_simcon_verify_generation`, `_simcon_verify_watchdogs` and the store,
with the verifications in the order of their admission. -/
structure Lane (Value : Type) where
  store : Store Value
  running : Bool
  generation : ℕ
  watchdogs : List ℕ
  verifications : List Verification

inductive LaneEvent (Value : Type)
  | request (actor : String) (task : Value) (clientRequestId newId now : String)
      (outcome recorded : WriteOutcome)
  | startThread (i : ℕ)
  | startWatchdog (i : ℕ)
  | register (i : ℕ)
  | succeed (i : ℕ) (result : Value) (now : String) (outcome : WriteOutcome) (audited : Bool)
  | fail (i : ℕ) (text now : String) (outcome : WriteOutcome)
  | finish (i : ℕ)
  | cancelWatchdog (i : ℕ)
  | expire (i : ℕ)
  | storeExpiry (i : ℕ) (text now : String) (outcome : WriteOutcome)
  | other (c : Call Value) (outcome : WriteOutcome)

/-- The verification whose worker or watchdog takes the step. -/
def LaneEvent.thread {Value : Type} : LaneEvent Value → Option ℕ
  | .succeed i _ _ _ _ | .fail i _ _ _ | .finish i | .cancelWatchdog i | .expire i
  | .storeExpiry i _ _ _ => some i
  | .request .. | .startThread _ | .startWatchdog _ | .register _ | .other _ _ => none

/-- The operation that a call sets a state of. -/
def sets {Value : Type} : Call Value → Option String
  | .setState operationId _ _ _ _ => some operationId
  | _ => none

/-! ## Steps -/

section Lanes
variable {Value : Type} (fingerprintOf : String → Value → String)

/-- The gate of `simcon_verify`. When the state cannot be recorded the exception leaves the gate with
the guard set. -/
def Lane.request (s : Lane Value) (actor : String) (task : Value) (clientRequestId newId now : String)
    (outcome recorded : WriteOutcome) : Lane Value :=
  if s.running then s
  else
    match create fingerprintOf s.store "simcon_verify" actor task clientRequestId none none newId now
      outcome with
    | (.ok (.operation o), store) =>
      if o.state ≠ "created" then { s with store := store }
      else
        let generation := s.generation + 1
        match setState store o.operationId "waiting" none none now recorded with
        | (.ok _, store) =>
          { s with
            store := store, running := true, generation := generation
            verifications := s.verifications ++
              [⟨generation, o.operationId, .startThread, .unborn, .unborn⟩] }
        | (.error _, store) => { s with store := store, running := true, generation := generation }
    | (_, store) => { s with store := store }

/-- A step of a thread of a verification. -/
def Lane.turn (s : Lane Value) (i : ℕ) (enabled : Verification → Prop) [DecidablePred enabled]
    (f : Verification → Lane Value × Verification) : Option (Lane Value) :=
  match s.verifications[i]? with
  | none => none
  | some v =>
    if enabled v then
      let (s', v') := f v
      some { s' with verifications := s.verifications.set i v' }
    else none

/-- The store after `set_state` of a thread, and whether it returned. -/
def Lane.setState (s : Lane Value) (operationId state : String) (result : Option Value)
    (error : Option String) (now : String) (outcome : WriteOutcome) : Lane Value × Bool :=
  let (answer, store) := OperationStore.setState s.store operationId state result error now outcome
  ({ s with store := store }, answer.isOk)

/-- `pop(generation)`. -/
def Lane.pop (s : Lane Value) (generation : ℕ) : Lane Value :=
  { s with watchdogs := s.watchdogs.filter (· ≠ generation) }

/-- The lane, step by step. -/
def lane : Machine (Lane Value) (LaneEvent Value) where
  step s
    | .request actor task clientRequestId newId now outcome recorded =>
      if newId ≠ "" ∧ newId ∉ s.store.memory.operations.map Prod.fst then
        some (s.request fingerprintOf actor task clientRequestId newId now outcome recorded)
      else none
    | .startThread i => s.turn i (·.launch = .startThread) fun v =>
      (s, { v with launch := .startWatchdog, worker := .verifying })
    | .startWatchdog i => s.turn i (·.launch = .startWatchdog) fun v =>
      (s, { v with launch := .register, watchdog := .pending })
    | .register i => s.turn i (·.launch = .register) fun v =>
      ({ s with watchdogs := v.generation :: s.watchdogs.filter (· ≠ v.generation) },
        { v with launch := .done })
    | .succeed i result now outcome audited => s.turn i (·.worker = .verifying) fun v =>
      let (s', returned) := s.setState v.operationId "succeeded" (some result) none now outcome
      (s', { v with worker := if returned && audited then .finishing else .failing })
    -- what the exception handler raises itself does not keep the gate from being left
    | .fail i text now outcome => s.turn i (fun v => v.worker = .verifying ∨ v.worker = .failing) fun v =>
      ((s.setState v.operationId "error" none (some text) now outcome).1,
        { v with worker := .finishing })
    | .finish i => s.turn i (·.worker = .finishing) fun v =>
      if v.generation = s.generation then
        ({ s.pop v.generation with running := false },
          { v with worker := if v.generation ∈ s.watchdogs then .cancelling else .ended })
      else (s, { v with worker := .ended })
    | .cancelWatchdog i => s.turn i (·.worker = .cancelling) fun v =>
      (s, { v with
        worker := .ended, watchdog := if v.watchdog = .pending then .cancelled else v.watchdog })
    | .expire i => s.turn i (·.watchdog = .pending) fun v =>
      if v.generation ≠ s.generation ∨ s.running = false then
        (s.pop v.generation, { v with watchdog := .ended })
      else ({ s.pop v.generation with running := false }, { v with watchdog := .expired })
    | .storeExpiry i text now outcome => s.turn i (·.watchdog = .expired) fun v =>
      ((s.setState v.operationId "error" none (some text) now outcome).1, { v with watchdog := .ended })
    -- nothing else sets a state of a verification
    | .other c outcome =>
      if c.Fresh s.store.memory ∧ c.Advances ∧ ∀ v ∈ s.verifications, sets c ≠ some v.operationId then
        some { s with store := (c.run fingerprintOf s.store outcome).2 }
      else none

/-- No verification was asked for. -/
def emptyLane (hasPath damaged : Bool) : Lane Value :=
  { store := opened hasPath damaged, running := false, generation := 0, watchdogs := []
    verifications := [] }

end Lanes

end HplcWorkbench.Control
