import HplcWorkbench.AddressMatch
import HplcWorkbench.RxHistory

/-!
# The sliding-window batch reader

A dispatcher thread takes entries off the queue and starts one slot thread for each, at most
`max_concurrent` at a time. A slot sends its request, polls the receive history and records one
result row, unless the job is stopped while it waits. What happens under the job's lock is one
step; the read thread of the serial channel appends frames and trims at any time.
-/

namespace HplcWorkbench.Batch
open Adapter10376 FrameCodec SerialIO Transitions

inductive Mode
  | single
  | batch
  deriving DecidableEq, Repr

/-- The AFN of requests and replies in this mode. -/
def Mode.afn : Mode → ℕ
  | .single => 0x02
  | .batch => 0xF1

/-- What `BatchReadJob` is created with: `meters` are the stripped entries that are not empty, and
`denyText` stands for the table of refusal texts. -/
structure Config where
  meters : List String
  maxConcurrent : ℕ
  mode : Mode := .single
  store : MetadataStore := fun _ _ => none
  denyText : ℕ → String := fun _ => ""

/-- A frame of the history, numbered by its arrival. -/
abbrev Received := ℕ × Bytes

inductive Status
  | success
  | deny
  | timeout
  | error
  deriving DecidableEq, Repr

/-- A result row. `entry` and `frame` record which entry of the meter list it belongs to and
which received frame it was credited with. -/
structure Row where
  entry : ℕ
  meter : String
  afnFn : String
  status : Status
  denyCode : Option ℕ := none
  denyText : Option String := none
  replyHex : String := ""
  note : String := ""
  frame : Option Received := none
  deriving DecidableEq, Repr

/-- Where a slot thread stands. `todo` are the frames of its last snapshot that it has not looked
at, `armed` stands between the loop test and the next snapshot, and `ended` records the row that
the slot left. -/
inductive SlotPc
  | starting
  | polling (seen : ℕ) (todo : List Received)
  | armed (seen : ℕ)
  | recording (row : Row)
  | ended (row : Option Row)
  deriving DecidableEq, Repr

structure Slot where
  meter : String
  pc : SlotPc := .starting
  deriving DecidableEq, Repr

/-- Where the dispatcher stands: at the loop test, before it reads `in_flight`, in the `for` loop
with so many rounds left, with an entry popped, asleep, joining, or done. -/
inductive DispatcherPc
  | test
  | size
  | fill (left : ℕ)
  | holding (meter : String) (left : ℕ)
  | nap
  | join
  | ended
  deriving DecidableEq, Repr

structure JobState where
  queue : List String
  pc : DispatcherPc := .test
  /-- The slot threads in the order of their start; slot `i` works on entry `i`. -/
  workers : List Slot := []
  queued : ℕ
  inFlight : ℕ := 0
  done : ℕ := 0
  success : ℕ := 0
  failed : ℕ := 0
  denyBreakdown : List (String × ℕ) := []
  finished : Bool := false
  rows : List Row := []
  claimed : List String := []
  stop : Bool := false
  history : List Received := []
  arrivals : ℕ := 0

inductive JobEvent
  | check
  | size
  | take
  | launch
  | wake
  | finish
  | send (i : ℕ)
  | fail (i : ℕ) (note : String)
  | arm (i : ℕ)
  | poll (i : ℕ)
  | examine (i : ℕ)
  | expire (i : ℕ)
  | record (i : ℕ)
  | stop
  | append (frame : Bytes)
  | trim
  deriving DecidableEq, Repr

/-- What a received frame means to the slot of a meter. -/
inductive Verdict
  | skip
  | deny (code : ℕ)
  | claim (code : ℕ)
  | success
  deriving DecidableEq, Repr

/-- The tests that `_read_one` makes on one received frame. -/
def frameVerdict (cfg : Config) (meter : String) (raw : Bytes) : Verdict :=
  match decode cfg.store raw with
  | .error _ => .skip
  | .ok decoded =>
    if upBit decoded ≠ 1 then .skip
    else if intField decoded "AFN" = some 0 ∧ intField decoded "FN" = some 2 then
      match denyInfo decoded with
      | none => .skip
      | some code =>
        if decodedMatchAddr decoded meter then .deny code
        else if cfg.meters.any fun m => m ≠ meter && decodedMatchAddr decoded m then .skip
        else .claim code
    else if intField decoded "AFN" = some (cfg.mode.afn : ℤ) ∧ intField decoded "FN" = some 1 ∧
        decodedMatchAddr decoded meter then .success
    else .skip

/-- `frame_to_hex`. -/
def frameToHex (raw : Bytes) : String := " ".intercalate (raw.map hex02)

/-- `text[-96:]`. -/
def lastChars (n : ℕ) (s : String) : String :=
  String.ofList (s.toList.drop (s.toList.length - n))

def denyRow (cfg : Config) (entry : ℕ) (meter : String) (code : ℕ) (f : Received) : Row where
  entry := entry
  meter := meter
  afnFn := "00H-F2"
  status := .deny
  denyCode := some code
  denyText := some (cfg.denyText code)
  replyHex := lastChars 96 (frameToHex f.2)
  frame := some f

def successRow (cfg : Config) (entry : ℕ) (meter : String) (f : Received) : Row where
  entry := entry
  meter := meter
  afnFn := hexPad 2 cfg.mode.afn ++ "H-F1"
  status := .success
  replyHex := lastChars 96 (frameToHex f.2)
  frame := some f

def plainRow (cfg : Config) (entry : ℕ) (meter : String) (status : Status) (note : String) :
    Row where
  entry := entry
  meter := meter
  afnFn := hexPad 2 cfg.mode.afn ++ "H-F1"
  status := status
  note := note

/-- `d[key] = d.get(key, 0) + 1`. -/
def bump (key : String) : List (String × ℕ) → List (String × ℕ)
  | [] => [(key, 1)]
  | (k, n) :: rest => if k = key then (k, n + 1) :: rest else (k, n) :: bump key rest

def Status.text : Status → String
  | .success => "success"
  | .deny => "deny"
  | .timeout => "timeout"
  | .error => "error"

/-- `deny["code_hex"] if deny else status`. -/
def Row.breakdownKey (row : Row) : String :=
  match row.denyCode with
  | some code => hexPad 2 code
  | none => row.status.text

/-- `_row`: what happens under the lock. -/
def recordRow (s : JobState) (row : Row) : JobState :=
  let s := { s with rows := s.rows ++ [row], done := s.done + 1, inFlight := s.inFlight - 1 }
  if row.status = .success then { s with success := s.success + 1 }
  else { s with failed := s.failed + 1, denyBreakdown := bump row.breakdownKey s.denyBreakdown }

/-- Slot `i`, which is `slot`, moves on to `pc`. -/
def setPc (s : JobState) (i : ℕ) (slot : Slot) (pc : SlotPc) : JobState :=
  { s with workers := s.workers.set i { slot with pc := pc } }

/-- The slot looks at the next frame of its snapshot. -/
def examineFrame (cfg : Config) (s : JobState) (i : ℕ) (slot : Slot) (seen : ℕ) (f : Received)
    (rest : List Received) : JobState :=
  match frameVerdict cfg slot.meter f.2 with
  | .skip => setPc s i slot (.polling seen rest)
  | .deny code => setPc s i slot (.recording (denyRow cfg i slot.meter code f))
  | .claim code =>
    if frameToHex f.2 ∈ s.claimed then setPc s i slot (.polling seen rest)
    else
      setPc { s with claimed := frameToHex f.2 :: s.claimed } i slot
        (.recording (denyRow cfg i slot.meter code f))
  | .success => setPc s i slot (.recording (successRow cfg i slot.meter f))

def Slot.ended (slot : Slot) : Bool :=
  match slot.pc with
  | .ended _ => true
  | _ => false

def Slot.recorded (slot : Slot) : Bool :=
  match slot.pc with
  | .ended (some _) => true
  | _ => false

/-- A step of slot thread `i`. -/
def slotStep (cfg : Config) (s : JobState) (i : ℕ) (slot : Slot) :
    JobEvent → Option JobState
  | .send _ =>
    match slot.pc with
    | .starting => some (setPc s i slot (.polling s.history.length []))
    | _ => none
  | .fail _ note =>
    match slot.pc with
    | .starting => some (setPc s i slot (.recording (plainRow cfg i slot.meter .error note)))
    | .polling _ _ => some (setPc s i slot (.recording (plainRow cfg i slot.meter .error note)))
    | .armed _ => some (setPc s i slot (.recording (plainRow cfg i slot.meter .error note)))
    | _ => none
  | .arm _ =>
    match slot.pc with
    | .polling seen [] => if s.stop then none else some (setPc s i slot (.armed seen))
    | _ => none
  | .poll _ =>
    match slot.pc with
    | .armed seen => some (setPc s i slot (.polling s.history.length (unread s.history seen)))
    | _ => none
  | .examine _ =>
    match slot.pc with
    | .polling seen (f :: rest) => some (examineFrame cfg s i slot seen f rest)
    | _ => none
  | .expire _ =>
    -- the wait is over; a stop keeps the slot from leaving a row
    match slot.pc with
    | .polling _ [] =>
      if s.stop then some (setPc s i slot (.ended none))
      else some (setPc s i slot (.recording (plainRow cfg i slot.meter .timeout "超时未收到期望帧")))
    | _ => none
  | .record _ =>
    match slot.pc with
    | .recording row => some (setPc (recordRow s row) i slot (.ended (some row)))
    | _ => none
  | _ => none

/-- A step of the dispatcher thread. -/
def dispatcherStep (cfg : Config) (s : JobState) : JobEvent → Option JobState
  | .check =>
    if s.pc = .test then
      some { s with pc := if s.queue ≠ [] ∧ ¬ s.stop then .size else .join }
    else none
  | .size =>
    if s.pc = .size then some { s with pc := .fill (cfg.maxConcurrent - s.inFlight) } else none
  | .take =>
    match s.pc, s.queue with
    | .fill (left + 1), meter :: queue =>
      if s.stop then some { s with pc := .nap }
      else some { s with pc := .holding meter left, queue := queue }
    | .fill _, _ => some { s with pc := .nap }
    | _, _ => none
  | .launch =>
    match s.pc with
    | .holding meter left =>
      some { s with
        pc := .fill left
        queued := s.queue.length
        inFlight := s.inFlight + 1
        workers := s.workers ++ [{ meter := meter }] }
    | _ => none
  | .wake => if s.pc = .nap then some { s with pc := .test } else none
  | .finish =>
    if s.pc = .join ∧ s.workers.all Slot.ended then
      some { s with pc := .ended, finished := true, queued := 0 }
    else none
  | _ => none

def jobStep (cfg : Config) (s : JobState) (e : JobEvent) : Option JobState :=
  match e with
  | .send i | .fail i _ | .arm i | .poll i | .examine i | .expire i | .record i =>
    (s.workers[i]?).bind fun slot => slotStep cfg s i slot e
  | .stop => some { s with stop := true }
  | .append f => some { s with
      history := s.history ++ [(s.arrivals, f)]
      arrivals := s.arrivals + 1 }
  | .trim => some { s with history := trimHistory s.history }
  | _ => dispatcherStep cfg s e

def job (cfg : Config) : Machine JobState JobEvent := ⟨jobStep cfg⟩

/-- The job as created, with what the history holds at that time. -/
def startJob (cfg : Config) (history : List Bytes) : JobState where
  queue := cfg.meters
  queued := cfg.meters.length
  history := history.zipIdx.map Prod.swap
  arrivals := history.length

end HplcWorkbench.Batch
