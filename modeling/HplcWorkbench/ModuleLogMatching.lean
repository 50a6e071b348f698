import HplcWorkbench.EarliestStop
import HplcWorkbench.FlowTimes
import HplcWorkbench.OrderedDict

/-!
# Matching lines of a module log

A leaf matcher looks for lines with a text, a pattern or an event of a rule. A sequence looks for lines
that match its steps one after the other within a time; each group takes the next line for each step,
and a group begins behind the end of the one before it.

Lower case, the search for a pattern and the engine of the rules are left open.
-/

namespace HplcWorkbench.ModuleLog
open Adapter10376 (pyStrip)
open ListenerLog (digitsInt contains)
open OrderedDict (Dict)
open FlowComparison (DateTime fromIsoFormat)

/-! ## Lines and matchers -/

/-- What a line has for `ts`; a missing one is empty. -/
inductive Stamp
  | number (seconds : ℚ)
  | text (s : String)
  deriving DecidableEq, Repr

/-- A line of a channel, with the count of the lines before it. -/
structure LogLine where
  seq : ℕ
  ts : Stamp
  dir : String := ""
  text : String
  deriving DecidableEq, Repr

inductive Leaf
  | literal (value : String) (caseSensitive : Bool)
  | regex (value : String) (caseSensitive : Bool)
  | loghookRule (ruleId : String)
  deriving DecidableEq, Repr

/-- A sequence as `_normalise_module_match` returns it. -/
structure SequenceMatch where
  steps : List Leaf
  maxIntervalMs : ℤ
  steps_length : 1 ≤ steps.length ∧ steps.length ≤ 16
  interval : 1 ≤ maxIntervalMs ∧ maxIntervalMs ≤ 3600000

inductive LineMatch
  | leaf (l : Leaf)
  | sequence (m : SequenceMatch)

structure InvalidObservation where
  message : String
  deriving DecidableEq, Repr

/-- What the matching calls. -/
structure Engines where
  lower : String → String
  /-- `regex.compile(pattern, flags).search(text, timeout=0.1)`, `none` for the `TimeoutError` -/
  search : String → Bool → String → Option Bool
  /-- the `source_line_idx` of the events of a rule that is fed with lines, `none` without the rule -/
  rule : String → Option (List LogLine → List ℕ)
  /-- the seconds by which the clock is ahead of UTC -/
  utcOffset : ℤ

section Matching
variable (env : Engines)

/-! ## Timestamps -/

/-- A field of two digits, or of one. -/
def dateField (two one : ℕ → Bool) : List Char → List (ℕ × List Char)
  | a :: b :: rest =>
    (((digitsInt [a, b]).filter two).map fun n => (n, rest)).toList ++
      (((digitsInt [a]).filter one).map fun n => (n, b :: rest)).toList
  | [a] => (((digitsInt [a]).filter one).map fun n => (n, [])).toList
  | [] => []

/-- The text begins with `c`. -/
def dateMark (c : Char) : List Char → List (List Char)
  | d :: rest => if d = c then [rest] else []
  | [] => []

/-- `datetime.strptime(text, "%Y%m%d-%H:%M:%S:%f")`. -/
def strptime (text : List Char) : Option DateTime := do
  let year ← if (text.take 4).length = 4 then digitsInt (text.take 4) else none
  let fields : List ((ℕ × ℕ × ℕ × ℕ × ℕ) × List Char) :=
    (dateField (fun n => 1 ≤ n ∧ n ≤ 12) (1 ≤ ·) (text.drop 4)).flatMap fun (month, cs) =>
      (dateField (fun n => 1 ≤ n ∧ n ≤ 31) (1 ≤ ·) cs).flatMap fun (day, cs) =>
        (dateMark '-' cs).flatMap fun cs =>
          (dateField (· ≤ 23) (fun _ => true) cs).flatMap fun (hour, cs) =>
            (dateMark ':' cs).flatMap fun cs =>
              (dateField (· ≤ 59) (fun _ => true) cs).flatMap fun (minute, cs) =>
                (dateMark ':' cs).flatMap fun cs =>
                  (dateField (· ≤ 61) (fun _ => true) cs).flatMap fun (second, cs) =>
                    (dateMark ':' cs).map fun cs => ((month, day, hour, minute, second), cs)
  let ((month, day, hour, minute, second), fraction) ← fields.head?
  let n ← digitsInt fraction
  let d : DateTime := ⟨year, month, day, hour, minute, second, n * 10 ^ (6 - fraction.length), none⟩
  if fraction ≠ [] ∧ fraction.length ≤ 6 ∧ d.Valid then some d else none

/-- `_line_timestamp_ms`. -/
def lineTimestampMs (line : LogLine) : Option ℚ :=
  match line.ts with
  | .number seconds => some (seconds * 1000)
  | .text s =>
    let text := pyStrip s.toList
    if text = [] then none
    else
      let utc := text.flatMap fun c => if c = 'Z' then "+00:00".toList else [c]
      ((fromIsoFormat utc).or (strptime text)).map fun d => d.timestamp (fun _ => env.utcOffset) * 1000

/-! ## Leaves -/

/-- `_matching_loghook_lines`. -/
def matchingLoghookLines (lines : List LogLine) (ruleId : String) :
    Except InvalidObservation (List LogLine) :=
  match env.rule ruleId with
  | none => .error ⟨"loghook_rule 不存在或不适用于当前模块"⟩
  | some matchedIndexes => .ok ((matchedIndexes lines).eraseDups.filterMap (lines[·]?))

/-- The text of a line is found. -/
def literalHit (value : String) (caseSensitive : Bool) (line : LogLine) : Bool :=
  if caseSensitive then contains value.toList line.text.toList
  else contains (env.lower value).toList (env.lower line.text).toList

/-- The pattern is found in time, in the first 4096 characters. -/
def regexHit (value : String) (caseSensitive : Bool) (line : LogLine) : Bool :=
  env.search value (!caseSensitive) (String.ofList (line.text.toList.take 4096)) = some true

/-- `_matching_leaf_lines`. -/
def matchingLeafLines (lines : List LogLine) : Leaf → Except InvalidObservation (List LogLine)
  | .loghookRule ruleId => matchingLoghookLines env lines ruleId
  | .literal value caseSensitive => .ok (lines.filter (literalHit env value caseSensitive))
  | .regex value caseSensitive => .ok (lines.filter (regexHit env value caseSensitive))

/-! ## Sequences -/

/-- Lines under their `seq`. -/
def positionsOf (hits : List LogLine) : Dict ℕ LogLine :=
  hits.foldl (fun d line => d.set line.seq line) Dict.empty

/-- The next line for each step behind `previousSeq`. -/
def selectNext (ordered : List LogLine) : ℕ → List (Dict ℕ LogLine) → Option (List LogLine)
  | _, [] => some []
  | previousSeq, candidates :: positions => do
    let line ← ordered.find? fun line => previousSeq < line.seq && (candidates.get? line.seq).isSome
    let selected ← selectNext ordered line.seq positions
    some (line :: selected)

/-- The group that begins with the line, where it is complete within the time. -/
def groupFrom (ordered : List LogLine) (positions : List (Dict ℕ LogLine)) (maxIntervalMs : ℤ)
    (first : LogLine) : Option (List LogLine) := do
  let line ← (← positions.head?).get? first.seq
  let rest ← selectNext ordered first.seq positions.tail
  let firstMs ← lineTimestampMs env line
  let lastMs ← lineTimestampMs env (rest.getLastD line)
  if lastMs < firstMs then none
  else if lastMs - firstMs ≤ maxIntervalMs then some (line :: rest)
  else none

/-- `_line_seq(selected[-1])`. -/
def groupEnd (group : List LogLine) : ℤ := (group.getLast?.map fun line => (line.seq : ℤ)).getD (-1)

/-- `_matching_sequence_groups`. -/
def matchingSequenceGroups (lines : List LogLine) (m : SequenceMatch) :
    Except InvalidObservation (List (List LogLine)) := do
  let stepHits ← m.steps.mapM fun step => matchingLeafLines env lines step
  let positions := stepHits.map positionsOf
  let ordered := lines.insertionSort fun l l' => l.seq ≤ l'.seq
  pure (EarliestStop.pick (fun line => (line.seq : ℤ)) groupEnd
    (groupFrom env ordered positions m.maxIntervalMs) (-1) ordered)

/-- `_module_match_lines`. -/
def moduleMatchLines (lines : List LogLine) : LineMatch → Except InvalidObservation (List LogLine × ℕ)
  | .sequence m => do
    let groups ← matchingSequenceGroups env lines m
    pure (groups.flatten, groups.length)
  | .leaf l => do
    let matched ← matchingLeafLines env lines l
    pure (matched, matched.length)

end Matching

end HplcWorkbench.ModuleLog
