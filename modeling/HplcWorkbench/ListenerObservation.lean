import HplcWorkbench.TableGrowth

/-!
# Listener observations

An observation of the listener looks for frames that match a condition, in a closed window once and in
a live window at every refresh. It reads one page of the window, keeps the frames that match and
applies the selector to them. What the full parser makes of a frame is a parameter.
-/

namespace HplcWorkbench

/-! ## Equality of values -/

namespace PyVal

mutual

/-- `v == w`. -/
def eq : PyVal → PyVal → Bool
  | .none, w => w.isNone
  | .bool b, w => w.eqInt (if b then 1 else 0)
  | .int n, w => w.eqInt n
  | .scaled mantissa scale, .scaled mantissa' scale' =>
    mantissa * 10 ^ scale' = mantissa' * 10 ^ scale
  | .scaled mantissa scale, .int n => mantissa = n * 10 ^ scale
  | .scaled mantissa scale, .bool b => mantissa = (if b then 1 else 0) * 10 ^ scale
  | .str s, w => w.eqStr s
  | .list items, .list items' => eqItems items items'
  | .dict entries, .dict entries' => entries.length = entries'.length && eqEntries entries entries'
  | _, _ => false

def eqItems : List PyVal → List PyVal → Bool
  | [], [] => true
  | v :: rest, w :: rest' => eq v w && eqItems rest rest'
  | _, _ => false

/-- Every entry has its counterpart. -/
def eqEntries : List (String × PyVal) → List (String × PyVal) → Bool
  | [], _ => true
  | (key, v) :: rest, other =>
    (match other.lookup key with
      | some w => eq v w
      | Option.none => false) && eqEntries rest other

end

end PyVal

namespace Control
open ListenerLog
open Adapter10376 (pyStrip)

/-! ## Matching -/

/-- `_frame_matches_kind`. -/
def frameMatchesKind (summary : Params) (frameKind : String) : PyM Bool :=
  if frameKind = "" then pure true
  else if frameKind ≠ "central_beacon" then throw (.valueError "当前仅支持 frame_kind=central_beacon")
  else
    let expected := ["中央信标", "central_beacon", "central beacon"]
    let kind (key : String) : String :=
      let value := Params.get summary key
      let text := (pyOr value (.str "")).toStr
      String.ofList ((pyStrip text.toList).map Char.toLower)
    pure (["FrmType", "帧类型", "frame_type", "frame_kind"].any fun key => kind key ∈ expected)

/-- The walk of `_value_at_path` along the parts of a path. -/
def valueAtParts (current : PyVal) : List String → PyVal
  | [] => current
  | part :: rest =>
    if part = "" then valueAtParts current rest
    else
      match current with
      | .dict entries =>
        match List.lookup part entries with
        | some value => valueAtParts value rest
        | none => .none
      | _ => .none

/-- `_value_at_path`. -/
def valueAtPath (value : PyVal) (path : String) : PyVal := valueAtParts value (path.splitOn ".")

/-- An element of `where`. -/
def conditionHolds (detail condition : PyVal) : PyM Bool :=
  match condition with
  | .dict condition =>
    if !(Params.getD condition "op" (.str "eq")).eqStr "eq" then
      throw (.valueError "where 当前仅支持 op=eq")
    else
      let path := (pyOr (Params.get condition "path") (.str "")).toStr
      pure ((valueAtPath detail path).eq (Params.get condition "value"))
  | _ => throw (.valueError "where 必须是对象数组")

/-- The loop over `where`: the first condition that does not hold ends it. -/
def conditionsHold (detail : PyVal) : List PyVal → PyM Bool
  | [] => pure true
  | condition :: rest => do
    if ← conditionHolds detail condition then conditionsHold detail rest else pure false

/-- A frame that matches, with its detail where the match looked at it. -/
abbrev Candidate := FrameRow × Option PyVal

section Observation
variable (detailOf : FrameRow → PyVal)

/-- `_listener_frame_matches`. -/
def listenerFrameMatches (frame : FrameRow) (query : Params) : PyM (Bool × Option PyVal) := do
  let summary := frame.summary.getD []
  let frameKind := (pyOr (Params.get query "frame_kind") (.str "")).toStr
  if !(← frameMatchesKind summary frameKind) then pure (false, none)
  else
    let conditions := (Params.get query "where").orEmpty
    if !conditions.truthy then pure (true, none)
    else
      let detail := detailOf frame
      let holds ← conditionsHold detail (← conditions.elems)
      pure (holds, some detail)

/-- The frames of a page that match. -/
def candidates (query : Params) : List FrameRow → PyM (List Candidate)
  | [] => pure []
  | frame :: rest => do
    let (matched, detail) ← listenerFrameMatches detailOf frame query
    let found ← candidates query rest
    pure (if matched then (frame, detail) :: found else found)

/-! ## Selecting -/

/-- `selector`, as it was accepted at the creation of the observation. -/
inductive Selector
  | first
  | last
  | nth (position : ℕ) (h : 0 < position)
  | all
  | firstPerMinute

/-- `str(log_time)[:5]`. -/
def minuteOf (c : Candidate) : String := String.ofList (c.1.logTime.toList.take 5)

/-- The first candidate of each minute that was not seen. -/
def firstOfMinutes (seen : List String) : List Candidate → List Candidate
  | [] => []
  | c :: rest =>
    if minuteOf c ∈ seen then firstOfMinutes seen rest
    else c :: firstOfMinutes (minuteOf c :: seen) rest

/-- `_select_listener_matches`. -/
def selectListenerMatches (found : List Candidate) (selector : Selector) : List Candidate :=
  let ordered := found.insertionSort fun a b => a.1.id ≤ b.1.id
  match selector with
  | .all => ordered.take 100
  | .last => ordered.drop (ordered.length - 1)
  | .nth position _ => (ordered.drop (position - 1)).take 1
  | .firstPerMinute => (firstOfMinutes [] ordered).take 100
  | .first => ordered.take 1

/-! ## The observation -/

/-- `window`. A cursor range that was accepted is at most a page wide. -/
inductive ObservationWindow
  | live (startFrameId deadline : ℕ)
  | timeRange (start stop : String)
  | cursorRange (startFrameId endFrameId : ℕ) (ordered : startFrameId ≤ endFrameId)
      (narrow : endFrameId - startFrameId + 1 ≤ 500)

/-- The frames of a window. -/
def ObservationWindow.frames (window : ObservationWindow) (tables : Tables) : PyM (List FrameRow) :=
  match window with
  | .live startFrameId _ => pure (tables.frames.filter fun row => startFrameId < row.id)
  | .timeRange start stop => do pure (tables.window (← ListenerLog.timeRange start stop))
  | .cursorRange startFrameId endFrameId _ _ =>
    pure (tables.frames.filter fun row => startFrameId ≤ row.id ∧ row.id ≤ endFrameId)

/-- `payload`, with the number that `int` finds in `match_count`. -/
structure ObservationPayload where
  indexId : String
  window : ObservationWindow
  query : Params
  selector : Selector
  matchCount : ℤ

/-- An element of `matches`. -/
structure ListenerEntry where
  indexId : String
  frameId : ℕ
  sequence : String
  logTime : String
  summary : Params
  analysis : Option PyVal

/-- What `_listener_result` returns. -/
structure ListenerResult where
  conditionMet : Bool
  indexId : String
  startFrameId : ℕ
  endFrameId : Option ℕ
  matched : List ListenerEntry
  snippet : List ListenerEntry

/-- `_listener_result`. -/
def listenerResult (payload : ObservationPayload) (selected : List Candidate) : ListenerResult :=
  let entry (c : Candidate) : ListenerEntry :=
    { indexId := payload.indexId
      frameId := c.1.id
      sequence := c.1.sequence
      logTime := c.1.logTime
      summary := c.1.summary.getD []
      analysis := c.2.map fun detail =>
        match detail with
        | .dict entries => Params.get entries "analysis"
        | _ => .none }
  let entries := selected.map entry
  { conditionMet := !entries.isEmpty
    indexId := payload.indexId
    startFrameId :=
      match payload.window with
      | .live startFrameId _ => startFrameId
      | .timeRange _ _ => 0
      | .cursorRange startFrameId _ _ _ => startFrameId
    endFrameId :=
      match payload.window with
      | .cursorRange _ endFrameId _ _ => some endFrameId
      | _ => none
    matched := entries
    snippet := entries.take 10 }

/-- The state that a refresh stores. -/
inductive ObservationState
  | waiting
  | matched (result : ListenerResult)
  | succeeded (result : ListenerResult)
  | timedOut (result : ListenerResult)
  | error (e : PyErr)

/-- `selected and len(selected) >= max(required, 1)`. -/
def enough (payload : ObservationPayload) (selected : List Candidate) : Bool :=
  selected ≠ [] && max payload.matchCount 1 ≤ selected.length

/-- The state after some frames were looked at. -/
def concludeFrames (payload : ObservationPayload) (complete : Bool) (frames : PyM (List FrameRow)) :
    ObservationState :=
  match (do candidates detailOf payload.query (← frames)) with
  | .error e => .error e
  | .ok found =>
    let selected := selectListenerMatches found payload.selector
    if enough payload selected then .matched (listenerResult payload selected)
    else if complete then .succeeded (listenerResult payload [])
    else .waiting

/-- `filters["limit"]`. -/
def pageLimit : ℕ := 500

/-- `_refresh_listener_observation` of an observation that has not ended. -/
def refreshListenerObservation (tables : Tables) (payload : ObservationPayload) (complete : Bool)
    (now : ℕ) : ObservationState :=
  let frames := payload.window.frames tables
  let page := do pure ((← frames).take pageLimit)
  match payload.window with
  | .live _ deadline =>
    if !complete ∧ deadline ≤ now then .timedOut (listenerResult payload [])
    else concludeFrames detailOf payload complete page
  | _ => concludeFrames detailOf payload complete page

end Observation

end Control

end HplcWorkbench
