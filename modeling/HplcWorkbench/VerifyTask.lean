import HplcWorkbench.FrameExpect
import HplcWorkbench.SerialReceive
import HplcWorkbench.TransitionSystems

/-!
# Verification tasks

A task is a list of steps. A step sends a frame, then waits for silence, for any frame, for a frame in
the history or for a frame that answers its expectation, and replies to the frames it takes. Meanwhile
the read thread records the frames that come in, lets the responder of the line reply and puts them into
the queue that the steps take them from.
-/

namespace HplcWorkbench.VerifyTask

open Adapter10376 Transitions
open AutoReply (Responder ReplyRule Clock builtinTable)
open Batch (intField denyInfo)
open ScenarioCodec (buildSendFrame)
open SerialIO (trimHistory)

/-! ## Steps and results -/

/-- A step; `send` is empty where the step has none. -/
structure Step where
  name : String
  send : Params
  recvOnly : Bool
  expectHistory : Bool
  expectNoReply : Bool
  expect : Option Params
  responders : List ReplyRule

structure Task where
  steps : List Step
  responders : List ReplyRule
  enableResponder : Bool
  failFast : Bool
  profile : Params

/-- The responder of a step: its own rules, or those of the task, in front of the table. -/
def Task.responderFor (task : Task) (step : Step) : Option Responder :=
  let table := builtinTable.map AutoReply.Entry.rule
  if step.responders ≠ [] then some ⟨step.responders, table⟩
  else if task.enableResponder then some ⟨task.responders, table⟩
  else none

inductive Reason
  | buildFailed
  | sendFailed
  | silent
  | notSilent
  | waitTimeout
  | received
  | sentOnly
  | pastMatched
  | pastTimeout
  | matched
  | denied (code : ℕ)
  | timeout
  deriving DecidableEq, Repr

/-- A frame of the window that did not match. -/
structure Bystander where
  frame : Bytes
  afn : Option ℤ
  fn : Option ℤ
  deriving DecidableEq, Repr

/-- The dict that `run_step` returns, with frames where it has their texts. -/
structure StepResult where
  index : ℕ
  name : String
  sent : Option Bytes
  matched : Option Bytes
  parsed : Option ProtocolFrame
  passed : Bool
  reason : Reason
  bystanders : List Bystander
  deny : Option ℕ

/-- What a step waits for once it has sent its frame. -/
inductive Wait
  | silence
  | anyFrame
  | nothing
  | past (expect : Option Params)
  | answer (expect : Params)

def Step.wait (step : Step) : Wait :=
  if step.expectNoReply then .silence
  else
    match step.expect with
    | none =>
      if step.expectHistory then .past none else if step.recvOnly then .anyFrame else .nothing
    | some expect => if step.expectHistory then .past (some expect) else .answer expect

/-- Whether the step builds and sends a frame. -/
def Step.sends (step : Step) : Bool :=
  ¬ step.recvOnly && ¬ (step.expectHistory && step.send.isEmpty)

/-- A frame to send in the local format without a number gets the next one. -/
def Step.needsNumber (step : Step) : Bool :=
  (step.send.get "format").eqStr "local" && ¬ step.send.has "seq"

/-! ## What a received frame decides -/

section Verdicts
variable (store : MetadataStore)

/-- `_safe_decode`, nothing where both readings fail. -/
def safeDecode (raw : Bytes) : Option ProtocolFrame := (decode store raw).toOption

inductive Verdict
  | bystander
  | matched
  | denied (code : ℕ)
  deriving DecidableEq, Repr

/-- The refusal of a frame that was decoded. -/
def refusal (decoded : Option ProtocolFrame) : Option ℕ := decoded.bind denyInfo

/-- `match_frame` of a frame, and the refusal that a matching frame may be. -/
def compared (expect : Params) (raw : Bytes) : PyM (Verdict × Option ProtocolFrame) := do
  let (hit, decoded) ← Matcher.matchFrame store raw (some expect)
  pure (if hit then (refusal decoded).elim .matched .denied else .bystander, decoded)

/-- What the loop makes of a frame: a refusal decides at once where a confirmation is expected. -/
def judge (expect : Params) (raw : Bytes) : PyM (Verdict × Option ProtocolFrame) :=
  let seen := safeDecode store raw
  if (expect.get "afn").eqInt 0 then
    (refusal seen).elim (compared store expect raw) fun code => pure (.denied code, seen)
  else compared store expect raw

/-- The scan of the history. -/
def firstPast (expect : Option Params) : List Bytes → PyM (Option (Bytes × Option ProtocolFrame))
  | [] => pure none
  | f :: rest => do
    let (hit, decoded) ← Matcher.matchFrame store f expect
    if hit then pure (some (f, decoded)) else firstPast expect rest

end Verdicts

/-- `summary["verdict"] == "pass"`. -/
def verdict (results : List StepResult) : Bool :=
  (results.filter fun r => ¬ r.passed).length = 0 && ¬ results.isEmpty

/-! ## The session -/

/-- Who sent a frame. -/
inductive Origin
  | line
  | step
  | reply
  deriving DecidableEq, Repr

inductive Phase
  | ready
  | waiting (step : Step) (wait : Wait) (result : StepResult)
  | raised
  | done

/-- The line and the task that runs on it; `sent` are the frames given to `send_frame`. The last four
fields only record the run: what came in, what went into the queue and when, what was taken off it, and
what the steps replied to, with the responder and the time. -/
structure Session where
  pending : Option Bytes := none
  queue : List Bytes := []
  history : List Bytes := []
  sent : List (Origin × Bytes) := []
  todo : List Step
  phase : Phase
  results : List StepResult := []
  localSeq : ℕ := 0
  received : List Bytes := []
  forwarded : List (Clock × Bytes) := []
  consumed : List Bytes := []
  taken : List (Option Responder × Clock × Bytes) := []

inductive Event
  | arrive (frame : Bytes)
  | forward (now : Clock)
  | begin (sendOk : Bool)
  | poll (now : Clock)
  | expire

def newResult (index : ℕ) (step : Step) : StepResult where
  index := index
  name := step.name
  sent := none
  matched := none
  parsed := none
  passed := false
  reason := .buildFailed
  bystanders := []
  deny := none

section Machine
variable (store : MetadataStore) (auto : Option Responder) (task : Task)

/-- A step that has its result; a failure ends the task unless it goes on regardless. -/
def Session.finish (s : Session) (r : StepResult) : Session :=
  { s with
    results := s.results ++ [r]
    phase := if (¬ r.passed ∧ task.failFast) ∨ s.todo = [] then .done else .ready }

/-- `_auto_reply`. -/
def Session.autoReply (s : Session) (step : Step) (now : Clock) (frame : Bytes) : Session :=
  let r := task.responderFor step
  { s with
    sent := s.sent ++ ((r.bind fun r => r.answer store now frame).map fun f => (.reply, f)).toList
    taken := s.taken ++ [(r, now, frame)] }

/-- Waiting after the frame was sent, if one was to be sent. -/
def Session.enter (s : Session) (step : Step) (r : StepResult) : Session :=
  match step.wait with
  | .nothing => s.finish task { r with passed := true, reason := .sentOnly }
  | wait => { s with phase := .waiting step wait r }

/-- The frame that the step sends. -/
def Session.build (s : Session) (step : Step) : PyM Bytes :=
  let send := if step.needsNumber then step.send ++ [("seq", .int s.localSeq)] else step.send
  buildSendFrame send task.profile (s.results.length + 1)

def Session.beginStep (s : Session) (step : Step) (sendOk : Bool) : Session :=
  let r := newResult s.results.length step
  if step.sends then
    match s.build task step with
    | .error _ => s.finish task r
    | .ok raw =>
      let s := { s with sent := s.sent ++ [(Origin.step, raw)] }
      let r := { r with sent := some raw }
      if sendOk then s.enter task step r else s.finish task { r with reason := .sendFailed }
  else s.enter task step r

/-- A frame taken off the queue. -/
def Session.take (s : Session) (step : Step) (wait : Wait) (r : StepResult) (now : Clock)
    (frame : Bytes) : Session :=
  let r := { r with matched := some frame, parsed := safeDecode store frame }
  match wait with
  | .silence => s.finish task { r with reason := .notSilent }
  | .anyFrame =>
    (s.autoReply store task step now frame).finish task { r with passed := true, reason := .received }
  | .answer expect =>
    let s := s.autoReply store task step now frame
    match judge store expect frame with
    | .error _ => { s with phase := .raised }
    | .ok (.denied code, decoded) =>
      s.finish task { r with parsed := decoded, deny := some code, reason := .denied code }
    | .ok (.matched, decoded) =>
      s.finish task { r with parsed := decoded, passed := true, reason := .matched }
    | .ok (.bystander, decoded) =>
      let by_ : Bystander :=
        ⟨frame, decoded.bind (intField · "AFN"), decoded.bind (intField · "FN")⟩
      { s with
        phase := .waiting step wait { r with parsed := decoded, bystanders := r.bystanders ++ [by_] } }
  | _ => s

/-- One round of the scan of the history. -/
def Session.scan (s : Session) (step : Step) (expect : Option Params) (r : StepResult) (now : Clock) :
    Session :=
  match firstPast store expect s.history with
  | .error _ => { s with phase := .raised }
  | .ok none => s
  | .ok (some (frame, decoded)) =>
    (s.autoReply store task step now frame).finish task
      { r with matched := some frame, parsed := decoded, passed := true, reason := .pastMatched }

/-- The time of a step is over. One call of `recv_frame` waits as long as the queue is empty; the
loops look at the time first. -/
def Session.expireStep (s : Session) (wait : Wait) (r : StepResult) : Option Session :=
  match wait with
  | .silence =>
    if s.queue = [] then some (s.finish task { r with passed := true, reason := .silent }) else none
  | .anyFrame => if s.queue = [] then some (s.finish task { r with reason := .waitTimeout }) else none
  | .past _ => some (s.finish task { r with reason := .pastTimeout })
  | .answer _ => some (s.finish task { r with reason := .timeout })
  | .nothing => none

def sessionStep (s : Session) : Event → Option Session
  | .arrive frame =>
    match s.pending with
    | some _ => none
    | none => some { s with
        pending := some frame
        history := trimHistory (s.history ++ [frame])
        received := s.received ++ [frame] }
  | .forward now =>
    s.pending.map fun frame => { s with
      pending := none
      queue := s.queue ++ [frame]
      forwarded := s.forwarded ++ [(now, frame)]
      sent := s.sent ++ ((auto.bind fun r => r.answer store now frame).map fun f => (.line, f)).toList }
  | .begin sendOk =>
    match s.phase, s.todo with
    | .ready, step :: rest =>
      let next := if step.needsNumber then s.localSeq + 1 else s.localSeq
      some ({ s with todo := rest, localSeq := next }.beginStep task step sendOk)
    | _, _ => none
  | .poll now =>
    match s.phase with
    | .waiting step (.past expect) r => some (s.scan store task step expect r now)
    | .waiting step wait r =>
      match s.queue with
      | [] => none
      | frame :: rest =>
        some ({ s with queue := rest, consumed := s.consumed ++ [frame] }.take store task step wait r
          now frame)
    | _ => none
  | .expire =>
    match s.phase with
    | .waiting _ wait r => s.expireStep task wait r
    | _ => none

def session : Machine Session Event := ⟨sessionStep store auto task⟩

/-- The task before its first step, on a line whose queue and history hold what came in before. -/
def startSession (queue history : List Bytes) : Session where
  queue := queue
  history := history
  todo := task.steps
  phase := if task.steps = [] then .done else .ready
  received := queue

end Machine

end HplcWorkbench.VerifyTask
