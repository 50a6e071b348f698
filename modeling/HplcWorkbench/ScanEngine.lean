import HplcWorkbench.AddressMatch
import HplcWorkbench.SequenceTracker

/-!
# The scan engine

The engine hands every line of its source to the rules that look at single lines and then to the
trackers of the rules with a sequence. It keeps the events, the rules that were hit, the line numbers
that drifted and the count of the lines that nothing was found in; at the end the trackers give up what
is under way.
-/

namespace HplcWorkbench.ScanEngine

open LogHooks OrderedDict
open Batch (inText)

/-! ## Rules and lines -/

/-- A `ParsedLine`; `idx` is `metadata["_idx"]`. -/
structure ScanLine extends LogHooks.ParsedLine where
  source : String
  raw : String
  line : Option ℤ := none
  idx : Option ℤ := none

inductive MatchMode
  | text
  | field
  deriving DecidableEq, Repr

structure MatchDef where
  mode : MatchMode
  pattern : Option String := none
  flags : List String := []
  field : Option String := none
  op : Option String := none
  value : PyVal := .none
  file : Option String := none
  line : Option ℤ := none
  lineTolerance : ℤ := 10

structure ScanRule where
  id : String
  category : String
  level : String := "info"
  module : String := "common"
  source : List String := ["module_log"]
  matchDef : Option MatchDef := none
  sequence : Option SequenceDef := none
  capture : Params := []
  event : EventTemplate := {}

/-- The rule as a tracker reads it. -/
def ScanRule.tracked (rule : ScanRule) : LogHooks.Rule where
  id := rule.id
  level := rule.level
  sequence := rule.sequence
  capture := rule.capture.map fun e => (e.1, e.2.toInt.toOption)

/-! ## Matching a line -/

structure RegexFlags where
  ignoreCase : Bool
  multiline : Bool
  dotAll : Bool
  deriving DecidableEq, Repr

/-- `_compile`, the flags. -/
def regexFlags (flags : List String) : RegexFlags where
  ignoreCase := flags.any fun f => f.toLower = "i"
  multiline := flags.any fun f => f.toLower = "m"
  dotAll := flags.any fun f => f.toLower = "s"

/-- What Python provides to the matching. -/
structure ScanPython extends LogHooks.Python where
  /-- `re.compile(pattern, flags).search(text)` -/
  searchFlags : String → RegexFlags → String → PyM (Option Match)
  /-- `re.search(expected, actual)`; no match where the pattern is none -/
  searchField : String → String → Bool
  /-- `template.format(**captures)` -/
  formatValues : String → Dict String PyVal → Except FormatError String

/-- `items` of a value that may be missing. -/
def itemsOf : Option PyVal → PyM Params
  | none => pure []
  | some (.dict entries) => pure entries
  | some _ => throw (.attributeError "object has no attribute 'items'")

/-- `_extract_field_value`. -/
def extractFieldValue (obj : Params) (path : String) : PyM PyVal :=
  match path.toList with
  | '#' :: name => do
    let application ← ((obj.lookup "application").getD (.dict [])).asDict
    let fields ← itemsOf (application.lookup "fields")
    match fields.find? fun e => name.isSuffixOf e.1.toList with
    | some (_, .dict inner) => pure ((inner.lookup "value").getD .none)
    | some (_, val) => pure val
    | none => pure .none
  | _ => pure ((getField (.dict obj) (path.splitOn ".")).getD .none)

section Engine
variable (py : ScanPython)

/-- `match_field_value`. -/
def matchFieldValue (actual : PyVal) (op : String) (expected : PyVal) : Bool :=
  let actualStr := actual.toStr
  let expectedStr := expected.toStr
  if op = "==" ∨ op = "=" then actualStr = expectedStr
  else if op = "!=" then actualStr ≠ expectedStr
  else if op = "contains" then inText expectedStr actualStr
  else if op = "startswith" then expectedStr.toList.isPrefixOf actualStr.toList
  else if op = "regex" then py.searchField expectedStr actualStr
  else false

/-- A `MatchResult` of a line that matches; `drift` is the actual and the expected line number. -/
structure MatchResult where
  rawGroups : List (Option String) := []
  drift : Option (ℤ × ℤ) := none

/-- The line numbers where they are farther apart than the rule tolerates. -/
def lineDrift (line : ScanLine) (matchDef : MatchDef) : Option (ℤ × ℤ) := do
  let expected ← matchDef.line
  let actual ← line.line
  if matchDef.lineTolerance < |actual - expected| then pure (actual, expected) else none

/-- `match_line`. -/
def matchLine (line : ScanLine) (matchDef : MatchDef) : PyM (Option MatchResult) :=
  match matchDef.mode with
  | .text =>
    match line.text with
    | none => pure none
    | some text => do
      let found ← py.searchFlags (matchDef.pattern.getD "") (regexFlags matchDef.flags) text
      pure (found.map fun m => ⟨m.groups, lineDrift line matchDef⟩)
  | .field =>
    match line.fields with
    | none => pure none
    | some fields => do
      let actual ← extractFieldValue fields (matchDef.field.getD "")
      let op := (matchDef.op.filter (· ≠ "")).getD "=="
      if actual.isNone || !matchFieldValue py actual op matchDef.value then pure none
      else pure (some ⟨[], lineDrift line matchDef⟩)

def groupValue : Option String → PyVal
  | some text => .str text
  | none => .none

/-- `apply_capture`, for one name. -/
def captureOne (line : ScanLine) (mode : MatchMode) (result : MatchResult)
    (captured : Dict String PyVal) (e : String × PyVal) : PyM (Dict String PyVal) :=
  match mode with
  | .text =>
    match e.2.toInt with
    | .ok n =>
      match if n < 1 then none else result.rawGroups[(n - 1).toNat]? with
      | some g => pure (captured.set e.1 (groupValue g))
      | none => pure captured
    | .error _ => pure (captured.set e.1 (.str e.2.toStr))
  | .field => do
    let val ← extractFieldValue (line.fields.getD []) e.2.toStr
    pure (if val.isNone then captured else captured.set e.1 val)

/-- `apply_capture`. -/
def applyCapture (line : ScanLine) (mode : MatchMode) (result : MatchResult) (capture : Params) :
    PyM (Dict String PyVal) :=
  capture.foldlM (captureOne line mode result) .empty

/-- `format_message`. -/
def formatTemplate (template : String) (captures : Dict String PyVal) : PyM String :=
  match py.formatValues template captures with
  | .ok text => pure text
  | .error .keyError => pure template
  | .error (.raised e) => throw e

/-! ## The engine -/

structure Event where
  type : String
  label : String
  message : String
  level : String
  time : String
  ruleId : String
  category : String
  source : String
  sourceLine : String
  captures : Dict String PyVal
  drift : Option (ℤ × ℤ) := none
  sourceLineIdx : Option ℤ := none

structure DriftInfo where
  ruleId : String
  file : String
  expectedLine : ℤ
  actualLine : ℤ
  tolerance : ℤ
  deriving DecidableEq, Repr

structure ScanResult where
  source : String
  events : List Event
  hitRuleIds : List String
  drifts : List DriftInfo
  unmatched : ℕ
  totalLines : ℕ

/-- What an `Engine` counts and keeps; a tracker is its rule with the machines that are under way. -/
structure Engine where
  events : List Event := []
  hitRuleIds : List String := []
  drifts : List DriftInfo := []
  driftKeys : List (String × ℤ × ℤ) := []
  unmatchedLines : ℕ := 0
  totalLines : ℕ := 0
  seqTrackers : Dict String (LogHooks.Rule × Machines) := .empty

/-- `set.add`. -/
def addTo {α : Type} [DecidableEq α] (set : List α) (x : α) : List α :=
  if x ∈ set then set else set ++ [x]

def matchRules (rules : List ScanRule) : List ScanRule := rules.filter fun r => r.sequence.isNone

def seqRules (rules : List ScanRule) : List ScanRule := rules.filter fun r => r.sequence.isSome

/-- `Engine.__init__`. -/
def start (rules : List ScanRule) : Engine where
  seqTrackers := (seqRules rules).foldl (fun d r => d.set r.id (r.tracked, .empty)) .empty

/-- The event of a line that a rule matches. -/
def matchEvent (rule : ScanRule) (line : ScanLine) (result : MatchResult) (message : String)
    (captures : Dict String PyVal) : Event where
  type := rule.event.type.getD rule.id
  label := rule.event.label.getD rule.id
  message := message
  level := rule.level
  time := line.time.getD ""
  ruleId := rule.id
  category := rule.category
  source := line.source
  sourceLine := line.raw
  captures := captures
  drift := result.drift
  sourceLineIdx := line.idx

/-- The drift of an event is kept once. -/
def Engine.addDrift (engine : Engine) (rule : ScanRule) (matchDef : MatchDef) (drift : ℤ × ℤ) : Engine :=
  let key := (rule.id, drift.2, drift.1)
  if key ∈ engine.driftKeys then engine
  else { engine with
    driftKeys := engine.driftKeys ++ [key]
    drifts := engine.drifts ++
      [⟨rule.id, matchDef.file.getD "", drift.2, drift.1, matchDef.lineTolerance⟩] }

/-- The first loop of `feed`, for one rule; the flag tells whether anything was found. -/
def feedMatch (source : String) (line : ScanLine) (s : Engine × Bool) (rule : ScanRule) :
    PyM (Engine × Bool) :=
  match rule.matchDef with
  | none => pure s
  | some matchDef =>
    match rule.source with
    | [] => throw .indexError
    | first :: _ =>
      if first ≠ source then pure s
      else do
        match ← matchLine py line matchDef with
        | none => pure s
        | some result =>
          let captures ← applyCapture line matchDef.mode result rule.capture
          let message ← formatTemplate py (rule.event.message.getD "") captures
          let engine := { s.1 with
            hitRuleIds := addTo s.1.hitRuleIds rule.id
            events := s.1.events ++ [matchEvent rule line result message captures] }
          pure ((result.drift.map (engine.addDrift rule matchDef)).getD engine, true)

/-- The event of a tracker. -/
def sequenceEvent (category source sourceLine : String) (idx : Option ℤ) (ruleId : String)
    (se : SequenceEvent) : Event where
  type := se.eventType
  label := se.label
  message := se.message
  level := se.level
  time := se.time
  ruleId := ruleId
  category := category
  source := source
  sourceLine := sourceLine
  captures := ⟨se.captures.entries.map fun e => (e.1, .str e.2), by
    simpa [List.map_map, Function.comp_def] using se.captures.nodup⟩
  sourceLineIdx := idx

/-- The second loop of `feed`, for one rule. -/
def feedTracker (line : ScanLine) (s : Engine × Bool) (rule : ScanRule) : PyM (Engine × Bool) :=
  match s.1.seqTrackers.get? rule.id with
  | none => throw .indexError
  | some tracker => do
    let fed ← LogHooks.feed py.toPython tracker.1 tracker.2 line.toParsedLine
    let engine := { s.1 with
      seqTrackers := s.1.seqTrackers.set rule.id (tracker.1, fed.machines) }
    if fed.events = [] then pure (engine, s.2)
    else pure ({ engine with
      hitRuleIds := addTo engine.hitRuleIds rule.id
      events := engine.events ++
        fed.events.map (sequenceEvent rule.category line.source line.raw line.idx rule.id) }, true)

/-- `feed`. -/
def feedLine (rules : List ScanRule) (source : String) (engine : Engine) (line : ScanLine) :
    PyM Engine := do
  let engine := { engine with totalLines := engine.totalLines + 1 }
  if line.source ≠ source then pure engine
  else
    let s ← (matchRules rules).foldlM (feedMatch py source line) (engine, false)
    let s ← (seqRules rules).foldlM (feedTracker py line) s
    pure (if s.2 then s.1 else { s.1 with unmatchedLines := s.1.unmatchedLines + 1 })

/-- `flush`. -/
def flushed (tracker : LogHooks.Rule × Machines) : List SequenceEvent :=
  match tracker.1.sequence with
  | none => []
  | some seq => tracker.2.entries.filterMap fun e =>
      if e.2.currentStep < seq.steps.length then emitTimeout tracker.1 seq e.2 e.1 else none

/-- The events of the trackers that are given up. -/
def flushEvents (rules : List ScanRule) (source : String)
    (trackers : Dict String (LogHooks.Rule × Machines)) : List Event :=
  trackers.entries.flatMap fun e =>
    match (seqRules rules).find? fun r => r.id = e.1 with
    | none => []
    | some rule => (flushed e.2).map (sequenceEvent rule.category source "" none rule.id)

/-- `finalize`. -/
def finalize (rules : List ScanRule) (source : String) (engine : Engine) : ScanResult where
  source := source
  events := engine.events ++ flushEvents rules source engine.seqTrackers
  hitRuleIds := engine.hitRuleIds.insertionSort (· ≤ ·)
  drifts := engine.drifts
  unmatched := engine.unmatchedLines
  totalLines := engine.totalLines

/-- `run_scan`. -/
def runScan (lines : List ScanLine) (rules : List ScanRule) (source : String) : PyM ScanResult :=
  finalize rules source <$> lines.foldlM (feedLine py rules source) (start rules)

/-! ## Lines as they come -/

/-- The rules that `_process_one` takes for a module. -/
def momentRules (module : String) (rules : List ScanRule) : List ScanRule :=
  rules.filter fun r => r.matchDef.isSome && decide ("module_log" ∈ r.source) &&
    (decide (module ∉ ["cco", "sta"]) || decide (r.module = module) || decide (r.module = "common"))

/-- `_process_one`, the events that it writes; what goes wrong is passed over. -/
def processOne (module : String) (rules : List ScanRule) (line : ScanLine) : List Event :=
  match runScan py [line] (momentRules module rules) "module_log" with
  | .ok result => result.events
  | .error _ => []

end Engine

end HplcWorkbench.ScanEngine
