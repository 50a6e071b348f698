import HplcWorkbench.PyParams
import HplcWorkbench.Adapter645

/-!
# The frame log of the listener

The listening console wraps each captured frame into `7E FF 02`, twenty bytes of head, the frame
control header and the payload. The network identifier stands in the control header and, where
the parser library could read the frame, in its summary. A stored summary is the dict that was
dumped.

A captured frame becomes a row of `frames`, and a report of the minute collection also becomes a
row of `minute_reports`. Rows come from a log file, which replaces the tables, or from the serial
line, which appends. The clock of a report has no date: the day is counted along the reports, in a
state that a file keeps for itself and the serial line hands from batch to batch.
-/

namespace HplcWorkbench.ListenerLog

open Adapter10376 (pySpace pyStrip)

/-! ## The frame itself -/

/-- The dict that `_decode_frame` returns. -/
structure DecodedFrame where
  nid : ℕ
  frmType : ℕ
  fch : Bytes
  mpdu : Bytes
  deriving DecidableEq, Repr

/-- `_decode_frame`. -/
def decodeFrame (rawHex : String) : Option DecodedFrame := do
  let bs ← fromHexChars (rawHex.toList.filter fun c => !pySpace c)
  if bs.length < 3 ∨ byteAt bs 0 ≠ 0x7E then none
  else
    let frm := if byteAt bs (bs.length - 1) = 0x7E then slice bs 1 (bs.length - 1) else bs.drop 1
    if frm.length < 22 + 16 then none
    else if byteAt frm 0 ≠ 0xFF ∨ byteAt frm 1 ≠ 0x02 then none
    else
      let fch := slice frm 22 38
      some
        { nid := (byteAt fch 3 : ℕ) <<< 16 ||| (byteAt fch 2 : ℕ) <<< 8 ||| (byteAt fch 1 : ℕ)
          frmType := (byteAt fch 0 : ℕ) &&& 0x07
          fch
          mpdu := frm.drop 38 }

/-- `extract_nid`. -/
def extractNid (rawHex : String) : Option ℕ := (decodeFrame rawHex).map DecodedFrame.nid

/-- The dict that `_extract_beacon_fields` returns, but for the station identifier. -/
structure BeaconFields where
  cnt : ℕ
  mac : String
  deriving DecidableEq, Repr

/-- `int.from_bytes(data, "little")`. -/
def fromBytesLittle (data : Bytes) : ℕ := data.foldr (fun b n => (b : ℕ) + 256 * n) 0

/-- `_extract_beacon_fields`: the fields of a central beacon. -/
def extractBeaconFields (frame : DecodedFrame) : Option BeaconFields :=
  if frame.frmType ≠ 0 then none
  else if frame.mpdu.length < 12 ∨ (byteAt frame.mpdu 0 : ℕ) &&& 0x07 ≠ 2 then none
  else some
    { cnt := fromBytesLittle (slice frame.mpdu 8 12)
      mac := "-".intercalate ((slice frame.mpdu 2 8).map hex02) }

/-! ## The summary -/

/-- `snid_to_int`. -/
def snidToInt : PyVal → Option ℕ
  | .str snid =>
    let text := pyStrip snid.toList
    if text = [] then none
    else
      match hexTextValue (String.ofList text) with
      | some value => if 0 < value ∧ value ≤ 0xFFFFFF then some value.toNat else none
      | none => none
  | _ => none

/-- What `_parse_summary_fields` returns. -/
structure SummaryFields where
  frmType : String := "UNKNOWN"
  detail : String := ""
  snidInt : Option ℕ := none
  deriving DecidableEq, Repr

/-- `_parse_summary_fields` of a stored summary. -/
def parseSummaryFields : Option Params → SummaryFields
  | none => {}
  | some data =>
    let source : Params :=
      match Params.get data "simple" with
      | .dict simple => simple
      | _ => data
    let frmType := Params.get source "FrmType"
    let detail := Params.get source "Detail"
    { frmType := if frmType.isNone then "UNKNOWN" else frmType.toStr
      detail := if detail.isNone then "" else detail.toStr
      snidInt := snidToInt (Params.get source "SNID") }

/-- `DETAIL_ASSESS_MARKERS`. -/
def detailAssessMarkers : List String :=
  ["时隙分配", "时隙配置", "路由评估剩余", "信道变更", "无线信道变更", "信道切换"]

/-- `needle in text`. -/
def contains (needle text : List Char) : Bool := text.tails.any (needle.isPrefixOf ·)

/-- `detail_is_assessable` of a text. -/
def textIsAssessable (detail : String) : Bool :=
  detail ≠ "" && detailAssessMarkers.any fun marker => contains marker.toList detail.toList

/-- `detail_is_assessable`. -/
def detailIsAssessable : PyVal → PyM Bool
  | .str detail => pure (textIsAssessable detail)
  | .list items => pure (detailAssessMarkers.any fun marker => items.any (·.eqStr marker))
  | .dict entries => pure (detailAssessMarkers.any fun marker => entries.any (·.1 = marker))
  | detail =>
    if detail.truthy then throw (.typeError "argument is not iterable") else pure false

end HplcWorkbench.ListenerLog

namespace HplcWorkbench.ListenerLog

open Adapter10376 (pySpace pyStrip)

/-! ## Lines of a log file -/

structure LogRecord where
  sequence : String
  logTime : String
  hexFrame : String
  deriving DecidableEq, Repr

/-- `\w` of ASCII text. -/
def wordChar (c : Char) : Bool := c.isAlphanum || c = '_'

/-- `HEX_BYTE_PATTERN.findall`: the words of exactly two hexadecimal digits. -/
def hexTokens (payload : List Char) : List (List Char) :=
  (payload.splitOnP fun c => !wordChar c).filter fun w =>
    w.length = 2 && w.all fun c => (hexDigitValue c).isSome

/-- `\[([^\]]+)\]` at the start of a text: what stands between the brackets and the rest. -/
def bracketed : List Char → Option (List Char × List Char)
  | '[' :: rest =>
    match rest.span (· ≠ ']') with
    | ([], _) => none
    | (inner, ']' :: more) => some (inner, more)
    | _ => none
  | _ => none

/-- `HEADER_PATTERN.match`. -/
def headerMatch (text : List Char) : Option (String × String × List Char) := do
  let (sequence, rest) ← bracketed text
  let (time, payload) ← bracketed rest
  if '\n' ∈ payload then none
  else some (String.ofList sequence, String.ofList time, payload)

/-- `extract_log_record`. Bytes outside ASCII are skipped. -/
def extractLogRecord (line : Bytes) : Option LogRecord := do
  let text := pyStrip ((line.filter fun b => b < 128).map fun b => Char.ofNat b)
  let (sequence, time, payload) ← headerMatch text
  let tokens := (hexTokens payload).map fun w => String.ofList (w.map Char.toUpper)
  let first ← tokens.idxOf? "7E"
  let fromEnd ← tokens.reverse.idxOf? "7E"
  let last := tokens.length - 1 - fromEnd
  if first ≥ last then none
  else
    let frame := (tokens.take (last + 1)).drop first
    some { sequence, logTime := time, hexFrame := " ".intercalate frame }

/-! ## The tables -/

/-- A row of `frames`, without the columns of the trace. -/
structure FrameRow where
  id : ℕ
  sequence : String
  logTime : String
  byteLength : ℕ
  rawHex : String
  summary : Option Params
  parseError : Option String
  nid : Option ℕ
  frmType : Option String
  assessDetail : Option Bool

/-- `_minute_fields`. -/
structure MinuteFields where
  ccoTei : PyVal
  stationKey : String
  sourceMac : PyVal
  sourceTei : PyVal
  taskNo : PyVal
  protocolType : PyVal
  meterType : PyVal
  responseResult : PyVal
  freezeTime : PyVal
  reportCount : PyVal
  dataLength : PyVal
  applicationError : PyVal

/-- A row of `minute_reports`. -/
structure MinuteRow extends MinuteFields where
  id : ℕ
  frameId : ℕ
  logTime : String
  timeSeconds : ℕ

/-- The two tables, with the identifiers that come next. -/
structure Tables where
  frames : List FrameRow := []
  minuteReports : List MinuteRow := []
  nextFrame : ℕ := 1
  nextMinute : ℕ := 1

/-! ## Reports -/

/-- `int` of two or three digits. -/
def digitsInt (ds : List Char) : Option ℕ :=
  if ds.all Char.isDigit then some (Adapter645.decValue ds) else none

/-- `HH:MM:SS.mmm`, as `_TIME_PATTERN` cuts it; `$` also stands before a final line break. -/
def parseTimeChars : List Char → Option ℕ
  | h₁ :: h₂ :: ':' :: m₁ :: m₂ :: ':' :: s₁ :: s₂ :: '.' :: u₁ :: u₂ :: u₃ :: rest => do
    let hour ← digitsInt [h₁, h₂]
    let minute ← digitsInt [m₁, m₂]
    let second ← digitsInt [s₁, s₂]
    let milli ← digitsInt [u₁, u₂, u₃]
    if rest = [] ∨ rest = ['\n'] then
      some (hour * 3600000 + minute * 60000 + second * 1000 + milli)
    else none
  | _ => none

/-- `_parse_time_ms`. -/
def parseTimeMs (text : String) : Option ℕ := parseTimeChars text.toList

/-- `_clock_text`. -/
def clockText (absoluteMs : ℕ) : String :=
  let ms := absoluteMs % 86400000
  let hour := ms / 3600000
  let rem := ms % 3600000
  let minute := rem / 60000
  let rem := rem % 60000
  padDec 2 hour ++ ":" ++ padDec 2 minute ++ ":" ++ padDec 2 (rem / 1000) ++ "." ++
    padDec 3 (rem % 1000)

/-- `v or w`. -/
def pyOr (v w : PyVal) : PyVal := if v.truthy then v else w

/-- The dicts of `application["fields"]`. A list or a dict as a name cannot be hashed. -/
def fieldDicts (application : Params) : PyM (List Params) := do
  let items ← (Params.getD application "fields" (.list [])).elems
  items.mapM fun item => do
    let field ← item.asDict
    match Params.get field "name" with
    | .list _ => throw (.typeError "unhashable type: 'list'")
    | .dict _ => throw (.typeError "unhashable type: 'dict'")
    | _ => pure field

/-- The dict `fields`: of two fields with one name the later one counts. -/
def fieldNamed (fields : List Params) (name : String) : Option Params :=
  (fields.filter fun f => (Params.get f "name").eqStr name).getLast?

/-- `raw(name)`; an empty dict has no `raw`. -/
def rawOf (fields : List Params) (name : String) : PyVal :=
  match fieldNamed fields name with
  | some field => Params.get field "raw"
  | none => .none

/-- `value(name)`. -/
def valueOf (fields : List Params) (name : String) : PyVal :=
  match fieldNamed fields name with
  | some field => pyOr (Params.get field "value") (Params.get field "raw")
  | none => .none

/-- `_minute_fields`. -/
def minuteFields (simple : Params) : PyM MinuteFields := do
  let application ← (pyOr (Params.get simple "application") (.dict [])).asDict
  let fields ← fieldDicts application
  let sourceMac := rawOf fields "源MAC地址"
  let stationKey :=
    pyOr sourceMac (pyOr (Params.get simple "ORI_S") (pyOr (Params.get simple "SRC") (.str "")))
  pure
    { ccoTei := pyOr (Params.get simple "FINL_D") (pyOr (Params.get simple "DST") (.str ""))
      stationKey := stationKey.toStr
      sourceMac
      sourceTei := Params.get simple "ORI_S"
      taskNo := rawOf fields "任务号"
      protocolType := rawOf fields "协议类型"
      meterType := rawOf fields "电表类型"
      responseResult := rawOf fields "响应结果"
      freezeTime := valueOf fields "冻结时刻"
      reportCount := rawOf fields "上报数量"
      dataLength := rawOf fields "数据长度"
      applicationError := Params.get simple "application_error" }

/-- A value that a statement can bind. -/
def bindable : PyVal → PyM Unit
  | .int n =>
    if -2 ^ 63 ≤ n ∧ n < 2 ^ 63 then pure ()
    else throw (.overflowError "Python int too large to convert to SQLite INTEGER")
  | .list _ => throw (.typeError "type 'list' is not supported")
  | .dict _ => throw (.typeError "type 'dict' is not supported")
  | _ => pure ()

/-- The values of an insert into `minute_reports`. -/
def MinuteFields.values (fields : MinuteFields) : List PyVal :=
  [fields.ccoTei, .str fields.stationKey, fields.sourceMac, fields.sourceTei, fields.taskNo,
    fields.protocolType, fields.meterType, fields.responseResult, fields.freezeTime,
    fields.reportCount, fields.dataLength, fields.applicationError]

/-- The keys `day_offset` and `prev_abs_ms` of the state of the reports. -/
structure MinuteState where
  dayOffset : ℕ := 0
  prevAbsMs : Option ℕ := none
  deriving DecidableEq, Repr

/-- The state after a report of the clock `ms`; the report is stored under `prevAbsMs`. -/
def MinuteState.advance (state : MinuteState) (ms : ℕ) : MinuteState :=
  let rolled := state.prevAbsMs.any fun prev => ms + 12 * 3600000 < prev
  let dayOffset := if rolled then state.dayOffset + 1 else state.dayOffset
  { dayOffset, prevAbsMs := some (dayOffset * 86400000 + ms) }

/-- `_insert_minute_report`. -/
def insertMinuteReport (tables : Tables) (frameId : ℕ) (record : LogRecord) (simple : Params)
    (state : MinuteState) : PyM (Tables × MinuteState) := do
  let fields ← minuteFields simple
  match parseTimeMs record.logTime with
  | none => pure (tables, state)
  | some ms =>
    fields.values.forM bindable
    let state := state.advance ms
    let row : MinuteRow :=
      { fields with
        id := tables.nextMinute
        frameId
        logTime := record.logTime
        timeSeconds := state.prevAbsMs.getD 0 }
    pure ({ tables with
      minuteReports := tables.minuteReports ++ [row]
      nextMinute := tables.nextMinute + 1 }, state)

/-! ## The two writers -/

/-- What `parse_summary` puts under `simple`, or the text of what it raises. -/
abbrev Parser := String → Except String Params

/-- What a writer keeps of a frame's summary. -/
structure Parsed where
  simple : Params := []
  summary : Option Params := none
  parseError : Option String := none

def parseFrame (parser : Option Parser) (hexFrame : String) : Parsed :=
  match parser with
  | none => {}
  | some parse =>
    match parse hexFrame with
    | .ok simple => { simple, summary := some simple }
    | .error message => { parseError := some message }

/-- The row that `append_frames` inserts: three columns stay empty. -/
def appendedRow (id : ℕ) (record : LogRecord) (parsed : Parsed) : FrameRow :=
  { id
    sequence := record.sequence
    logTime := record.logTime
    byteLength := ((record.hexFrame.toList.splitOnP pySpace).filter (· ≠ [])).length
    rawHex := record.hexFrame
    summary := parsed.summary
    parseError := parsed.parseError
    nid := none
    frmType := none
    assessDetail := none }

/-- The row that `index_file` inserts. -/
def indexedRow (id : ℕ) (record : LogRecord) (parsed : Parsed) : PyM FrameRow := do
  let frmType := Params.get parsed.simple "FrmType"
  let assessable ← detailIsAssessable (Params.get parsed.simple "Detail")
  pure
    { appendedRow id record parsed with
      nid := (snidToInt (Params.get parsed.simple "SNID")).or (extractNid record.hexFrame)
      frmType := if frmType.isNone then none else some frmType.toStr
      assessDetail := some assessable }

def Tables.insertFrame (tables : Tables) (row : FrameRow) : Tables :=
  { tables with frames := tables.frames ++ [row], nextFrame := tables.nextFrame + 1 }

/-- `simple.get("APP_ID") == "00E4"`. -/
def isMinuteReport (simple : Params) : Bool := (Params.get simple "APP_ID").eqStr "00E4"

section Writers
variable (parser : Option Parser)

/-- The body of the loop of `index_file`. -/
def indexRecord (s : Tables × MinuteState) (record : LogRecord) : PyM (Tables × MinuteState) := do
  let parsed := parseFrame parser record.hexFrame
  let row ← indexedRow s.1.nextFrame record parsed
  let tables := s.1.insertFrame row
  if isMinuteReport parsed.simple then
    insertMinuteReport tables row.id record parsed.simple s.2
  else pure (tables, s.2)

/-- The loop: every hundredth frame is committed, an exception takes back what is not. -/
def indexRecords (committed : Tables) (s : Tables × MinuteState) :
    List LogRecord → Tables × Except PyErr Unit
  | [] => (s.1, .ok ())
  | record :: rest =>
    match indexRecord parser s record with
    | .error e => (committed, .error e)
    | .ok s => indexRecords (if s.1.frames.length % 100 = 0 then s.1 else committed) s rest

/-- `index_file` of the lines of a file: the tables are built anew. -/
def indexFile (lines : List Bytes) : Tables × Except PyErr Unit :=
  indexRecords parser {} ({}, {}) (lines.filterMap extractLogRecord)

/-- The body of the loop of `append_frames`. Without a state no report is stored. -/
def appendRecord (s : Tables × Option MinuteState) (record : LogRecord) :
    PyM (Tables × Option MinuteState) := do
  let parsed := parseFrame parser record.hexFrame
  let row := appendedRow s.1.nextFrame record parsed
  let tables := s.1.insertFrame row
  match s.2 with
  | none => pure (tables, none)
  | some state =>
    if isMinuteReport parsed.simple then
      let (tables, state) ← insertMinuteReport tables row.id record parsed.simple state
      pure (tables, some state)
    else pure (tables, some state)

/-- The loop: an exception leaves the state as the reports before it have set it. -/
def appendRecords (s : Tables × Option MinuteState) :
    List LogRecord → (Tables × Option MinuteState) × Except PyErr Unit
  | [] => (s, .ok ())
  | record :: rest =>
    match appendRecord parser s record with
    | .error e => (s, .error e)
    | .ok s => appendRecords s rest

/-- `append_frames`: the rows are inserted in one transaction. -/
def appendFrames (tables : Tables) (state : Option MinuteState) (records : List LogRecord) :
    (Tables × Option MinuteState) × Except PyErr Unit :=
  match appendRecords parser (tables, state) records with
  | ((_, state), .error e) => ((tables, state), .error e)
  | (s, .ok ()) => (s, .ok ())

end Writers

end HplcWorkbench.ListenerLog
