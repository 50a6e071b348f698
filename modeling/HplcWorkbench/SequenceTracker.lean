import HplcWorkbench.ListenerLog
import HplcWorkbench.OrderedDict

/-!
# Sequences of log lines

A rule lists steps, and a tracker follows them for each bucket by a machine of its own. A line that
matches a later step than the one awaited does not only drop the machine but begins a new one behind
that step, which may then complete without the steps in front. Without such lines an event of
completion stands for all steps in their order, within the window.

Regular expressions, `str.format` and the local time zone are left open.
-/

namespace HplcWorkbench.LogHooks

open OrderedDict (Dict)

/-! ## Rules and lines -/

/-- The fields of a `ParsedLine` that trackers read. -/
structure ParsedLine where
  time : Option String := none
  text : Option String := none
  fields : Option Params := none

structure SequenceStep where
  step : String
  pattern : String
  flags : List String := []
  captureGroup : Option ℤ := none
  deriving DecidableEq, Repr

/-- What the dicts `on_complete` and `on_timeout` say. -/
structure EventTemplate where
  type : Option String := none
  message : Option String := none
  label : Option String := none
  level : Option String := none
  deriving DecidableEq, Repr

/-- An `on_complete` or `on_timeout` that is empty counts as none. -/
structure SequenceDef where
  steps : List SequenceStep
  windowMs : ℤ := 30000
  onComplete : Option EventTemplate := none
  onTimeout : Option EventTemplate := none
  bucketField : Option String := none
  deriving DecidableEq, Repr

/-- `capture` gives names to steps; a value that `int` does not read is none. -/
structure Rule where
  id : String
  level : String := "info"
  sequence : Option SequenceDef := none
  capture : List (String × Option ℤ) := []
  deriving DecidableEq, Repr

/-- The key of a machine; a group that took no part in a match is `None`. -/
abbrev Bucket := Option String

structure SequenceEvent where
  ruleId : String
  eventType : String
  label : String
  message : String
  level : String
  time : String
  bucket : Bucket
  captures : Dict String String
  sourceLine : String

/-! ## What Python provides -/

structure Match where
  whole : String
  groups : List (Option String)
  deriving DecidableEq, Repr

/-- `m.group(i)`, or `IndexError`. -/
def Match.group (m : Match) (i : ℤ) : Option (Option String) :=
  if i = 0 then some (some m.whole)
  else if i < 0 then none
  else m.groups[i.toNat - 1]?

/-- What `datetime` is built from. -/
structure CivilTime where
  year : ℕ
  month : ℕ
  day : ℕ
  hour : ℕ
  minute : ℕ
  second : ℕ
  milli : ℕ
  deriving DecidableEq, Repr

inductive FormatError
  | keyError
  | raised (e : PyErr)
  deriving DecidableEq, Repr

structure Python where
  /-- `re.compile(pattern, flags).search(text)`, with or without `IGNORECASE` -/
  search : String → Bool → String → PyM (Option Match)
  /-- `message.format(**captures)` -/
  format : String → Dict String String → Except FormatError String
  /-- `datetime(...).timestamp()` in milliseconds -/
  timestamp : CivilTime → Option ℤ

variable (py : Python)

/-- `_parse_ts_to_ms`. -/
def parseTsToMs (ts : String) : Option ℤ :=
  match ts.toList with
  | y₁ :: y₂ :: y₃ :: y₄ :: o₁ :: o₂ :: d₁ :: d₂ :: '-' :: h₁ :: h₂ :: ':' :: m₁ :: m₂ :: ':' :: s₁ ::
      s₂ :: ':' :: u₁ :: u₂ :: u₃ :: _ => do
    let year ← ListenerLog.digitsInt [y₁, y₂, y₃, y₄]
    let month ← ListenerLog.digitsInt [o₁, o₂]
    let day ← ListenerLog.digitsInt [d₁, d₂]
    let hour ← ListenerLog.digitsInt [h₁, h₂]
    let minute ← ListenerLog.digitsInt [m₁, m₂]
    let second ← ListenerLog.digitsInt [s₁, s₂]
    let milli ← ListenerLog.digitsInt [u₁, u₂, u₃]
    py.timestamp ⟨year, month, day, hour, minute, second, milli⟩
  | _ => none

def ParsedLine.ms (line : ParsedLine) : Option ℤ := parseTsToMs py (line.time.getD "")

/-! ## Machines -/

structure SequenceMachine where
  startTime : String
  startMs : Option ℤ
  currentStep : ℕ := 0
  stepTimes : List (Option String)
  captures : Dict String String := .empty

namespace SequenceMachine

def advance (m : SequenceMachine) (stepIndex : ℕ) (line : ParsedLine)
    (stepCaptures : Dict String String) : SequenceMachine where
  startTime := m.startTime
  startMs := m.startMs
  currentStep := stepIndex + 1
  stepTimes := m.stepTimes.set stepIndex line.time
  captures := stepCaptures.entries.foldl (fun d e => d.set e.1 e.2) m.captures

def isExpired (m : SequenceMachine) (window : ℤ) (nowMs : Option ℤ) : Bool :=
  if window ≤ 0 then false
  else
    match nowMs, m.startMs with
    | some now, some start => decide (start + window < now)
    | _, _ => false

end SequenceMachine

/-- The machines that are under way. -/
abbrev Machines := Dict Bucket SequenceMachine

section Tracker
variable (rule : Rule) (seq : SequenceDef)

/-- `_step_regex(step).search(text)`. -/
def searchStep (step : SequenceStep) (text : String) : PyM (Option Match) :=
  py.search step.pattern (step.flags.any fun f => f.toLower = "i") text

/-- `_get_field`, along the parts of a path. -/
def getField : PyVal → List String → Option PyVal
  | cur, [] => some cur
  | .dict entries, part :: rest =>
    match entries.lookup part with
    | some next => getField next rest
    | none => none
  | _, _ :: _ => none

/-- The first group that a step gives a bucket by. -/
def bucketOfSteps (text : String) : List SequenceStep → PyM Bucket
  | [] => pure (some "_default")
  | step :: rest =>
    match step.captureGroup with
    | none => bucketOfSteps text rest
    | some i => do
      match ← searchStep py step text with
      | none => bucketOfSteps text rest
      | some m =>
        match m.group i with
        | none => bucketOfSteps text rest
        | some g => pure g

/-- `_bucket_for`. -/
def bucketFor (line : ParsedLine) : PyM Bucket :=
  let val : Option PyVal := do
    let path ← seq.bucketField.filter (· ≠ "")
    let fields ← line.fields
    (getField (.dict fields) (path.splitOn ".")).filter fun v => !v.isNone
  match val with
  | some v => pure (some v.toStr)
  | none => bucketOfSteps py (line.text.getD "") seq.steps

/-- The groups of a match, as `step1`, `step2` and so on. -/
def groupCaptures (m : Match) : Dict String String :=
  m.groups.zipIdx.foldl
    (fun d e =>
      match e.1 with
      | some g => d.set ("step" ++ toString (e.2 + 1)) g
      | none => d) .empty

/-- `_try_match_step`. -/
def tryMatchStep (step : SequenceStep) (line : ParsedLine) : PyM (Option (Dict String String)) :=
  match line.text with
  | none => pure none
  | some text => do
    match ← searchStep py step text with
    | none => pure none
    | some m =>
      let named := rule.capture.filter fun e =>
        e.2.any fun stepNo => stepNo - 1 = (seq.steps.idxOf step : ℤ)
      match m.groups.head? with
      | some (some g) => pure (some (named.foldl (fun d e => d.set e.1 g) (groupCaptures m)))
      | _ => pure (some (groupCaptures m))

/-- The first of the steps that the line matches. -/
def firstMatch (line : ParsedLine) :
    List (SequenceStep × ℕ) → PyM (Option (ℕ × Dict String String))
  | [] => pure none
  | (step, i) :: rest => do
    match ← tryMatchStep py rule seq step line with
    | some captures => pure (some (i, captures))
    | none => firstMatch line rest

/-- `_current_step_for`. -/
def currentStepFor (machines : Machines) (bucket : Bucket) : ℕ :=
  ((machines.get? bucket).map SequenceMachine.currentStep).getD 0

/-- `_get_or_create`. -/
def getOrCreate (machines : Machines) (bucket : Bucket) (line : ParsedLine) : SequenceMachine :=
  (machines.get? bucket).getD {
    startTime := line.time.getD ""
    startMs := line.ms py
    stepTimes := List.replicate seq.steps.length none }

/-- What `_cleanup` leaves. -/
def cleanup (machines : Machines) (nowMs : Option ℤ) : Machines where
  entries := machines.entries.filter fun e => !e.2.isExpired seq.windowMs nowMs
  nodup := machines.nodup.sublist (List.filter_sublist.map _)

/-- `_emit_timeout`. -/
def emitTimeout (machine : SequenceMachine) (bucket : Bucket) : Option SequenceEvent :=
  seq.onTimeout.map fun template =>
    let eventType := template.type.getD (rule.id ++ ".timeout")
    { ruleId := rule.id
      eventType := eventType
      label := template.label.getD eventType
      message := template.message.getD (rule.id ++ " 超时")
      level := template.level.getD "warn"
      time := machine.startTime
      bucket := bucket
      captures := machine.captures
      sourceLine := "" }

/-- A message with the captures put in; a name that is missing leaves it as it is. -/
def formatMessage (message : String) (captures : Dict String String) : PyM String :=
  match py.format message captures with
  | .ok text => pure text
  | .error .keyError => pure message
  | .error (.raised e) => throw e

/-- `_emit_complete`. -/
def emitComplete (machine : SequenceMachine) (bucket : Bucket) : PyM (Option SequenceEvent) :=
  match seq.onComplete with
  | none => pure none
  | some template => do
    let eventType := template.type.getD (rule.id ++ ".complete")
    let message ← formatMessage py (template.message.getD "") machine.captures
    pure (some {
      ruleId := rule.id
      eventType := eventType
      label := template.label.getD eventType
      message := if message = "" then eventType else message
      level := template.level.getD rule.level
      time := ((machine.stepTimes.reverse.filterMap id).find? (· ≠ "")).getD ""
      bucket := bucket
      captures := machine.captures
      sourceLine := "" })

/-- What `feed` leaves and returns: the events of machines that ran out of time, and the one of the
machine that completed. -/
structure Fed where
  machines : Machines
  timeouts : List SequenceEvent
  complete : Option SequenceEvent

def Fed.events (fed : Fed) : List SequenceEvent := fed.timeouts ++ fed.complete.toList

/-- The line matches a step. -/
def takeStep (live : Machines) (bucket : Bucket) (line : ParsedLine) (stepIndex : ℕ)
    (captures : Dict String String) (timeouts : List SequenceEvent) : PyM Fed := do
  let live := if currentStepFor live bucket < stepIndex then live.erase bucket else live
  let machine := (getOrCreate py seq live bucket line).advance stepIndex line captures
  if seq.steps.length ≤ machine.currentStep then
    pure ⟨(live.set bucket machine).erase bucket, timeouts, ← emitComplete py rule seq machine bucket⟩
  else pure ⟨live.set bucket machine, timeouts, none⟩

/-- `feed` of a rule with a sequence. -/
def feedSequence (machines : Machines) (line : ParsedLine) : PyM Fed := do
  let live := cleanup seq machines (line.ms py)
  let expired := machines.entries.filter fun e => e.2.isExpired seq.windowMs (line.ms py)
  let timeouts := expired.filterMap fun e => emitTimeout rule seq e.2 e.1
  let bucket ← bucketFor py seq line
  match ← firstMatch py rule seq line (seq.steps.zipIdx.drop (currentStepFor live bucket)) with
  | none => pure ⟨live, timeouts, none⟩
  | some (stepIndex, captures) => takeStep py rule seq live bucket line stepIndex captures timeouts

def feed (machines : Machines) (line : ParsedLine) : PyM Fed :=
  match rule.sequence with
  | none => pure ⟨machines, [], none⟩
  | some seq => feedSequence py rule seq machines line

/-- The machines after some lines. -/
def run (machines : Machines) (lines : List ParsedLine) : PyM Machines :=
  lines.foldlM (fun machines line => Fed.machines <$> feed py rule machines line) machines

end Tracker

end HplcWorkbench.LogHooks
