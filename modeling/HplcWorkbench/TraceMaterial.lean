import HplcWorkbench.AddressMatch
import HplcWorkbench.AssessmentQueries
import HplcWorkbench.MeterScan
import HplcWorkbench.RecordExtractor
import HplcWorkbench.TraceFlows
import HplcWorkbench.TransitionSystems

/-!
# The trace columns of a frame

The trace reads frames by columns that stand beside their summary: message number, direction, meters and
stations. They are taken from the application data of a frame when it is stored; the rows of an older
database get them from a backfill. Until that is over the trace takes what it can from the summary.
-/

namespace HplcWorkbench

/-! ## Application data -/

namespace TraceExtract
open Adapter10376 (Direction)

/-- `TraceExtract`. -/
structure Extract where
  msgSeq : Option ℕ := none
  direction : Option Direction := none
  protoType : Option ℕ := none
  timeoutMs : Option ℕ := none
  retryCfg : Option ℕ := none
  respBitmap : Option ℕ := none
  confirm : Option Bool := none
  targets : List String := []
  responses : List (String × Bool) := []
  payloadError : Option String := none

/-- `_find_698_apdu`: behind the first start mark, with the number of the bytes in front. -/
def find698Apdu : ℕ → Bytes → Option ℕ
  | _, [] => none
  | i, b :: rest =>
    let data := b :: rest
    if data.length < 10 then none
    else if b ≠ 0x68 then find698Apdu (i + 1) rest
    else
      let saLen := (byteAt data 4 : ℕ) &&& 0x3F
      let start := 5 + (saLen + 1) + 1 + 2
      if start < data.length then some (i + start) else none

/-- An entry of a run of the scan: where it stands and its token. -/
abbrev OadEntry := ℕ × String

/-- `apdu[i:i + 4].hex().upper()`. -/
def oadToken (data : Bytes) : String := upper (hex (data.take 4))

/-- `00 XX YY ZZ` with neither XX nor ZZ zero. -/
def oadShaped (data : Bytes) : Bool :=
  byteAt data 0 = 0 && byteAt data 1 ≠ 0 && byteAt data 3 ≠ 0

def closed (current : List OadEntry) : List (List OadEntry) := if current = [] then [] else [current]

/-- The runs of `_scan_oad_entries` from a place on. The second argument counts the bytes that the last
entry still covers. -/
def oadRuns : ℕ → ℕ → Bytes → List OadEntry → List (List OadEntry)
  | _, _, [], current => closed current
  | i, skip + 1, _ :: rest, current => oadRuns (i + 1) skip rest current
  | i, 0, b :: rest, current =>
    let data := b :: rest
    if data.length < 4 then closed current
    else if oadShaped data ∧ 4 < data.length ∧ byteAt data 4 = 0 then
      oadRuns (i + 1) 4 rest (current ++ [(i, oadToken data)])
    else if oadShaped data ∧ current.getLast?.any fun e => i = e.1 + 5 then
      -- the last entry may stand without its separator
      (current ++ [(i, oadToken data)]) :: oadRuns (i + 1) 4 rest []
    else closed current ++ oadRuns (i + 1) 0 rest []

/-- `max(runs, key=len)`: the first of the longest. -/
def longest {α : Type} (runs : List (List α)) : List α :=
  runs.foldl (fun best run => if best.length < run.length then run else best) []

/-- `_scan_oad_entries`. -/
def scanOadEntries (apdu : Bytes) : List String := (longest (oadRuns 0 0 apdu [])).map Prod.snd

/-- `_scan_698_tokens`. -/
def scan698Tokens (data : Bytes) : List String :=
  let apdu := match find698Apdu 0 data with
    | some start => data.drop start
    | none => data
  if apdu.length ≥ 9 ∧ (byteAt apdu 3 = 0x05 ∨ byteAt apdu 3 = 0x85) ∧ byteAt apdu 4 ≠ 0x03 then
    [upper (hex (slice apdu 5 9))]
  else scanOadEntries apdu

/-- The length of the header and the data behind it, cut to the length of the forwarded data. -/
def forwardedData (business : Bytes) : Bytes :=
  let headerLen := ((byteAt business 0 : ℕ) >>> 6) ||| (((byteAt business 1 : ℕ) &&& 0x0F) <<< 2)
  let fwdLen := ((byteAt business 3 : ℕ) <<< 4) ||| ((byteAt business 2 : ℕ) >>> 4)
  let data := business.drop (if headerLen > business.length then 8 else headerLen)
  if fwdLen ≠ 0 ∧ data.length > fwdLen then data.take fwdLen else data

/-- The meters of the forwarded data: whom a request asks, and who answers in a response. -/
def withMeters (ext : Extract) (protoType : ℕ) (data : Bytes) : Extract :=
  if data = [] then ext
  else if protoType = 1 ∨ protoType = 2 then
    let entries := scan645 data
    if ext.direction = some .up then
      { ext with responses := entries.map fun e => (e.1, e.2.2) }
    else { ext with targets := entries.map Prod.fst }
  else if protoType = 3 then
    let tokens := scan698Tokens data
    if ext.direction = some .up then
      if ext.respBitmap = some 0 then ext
      else { ext with responses := tokens.map fun token => (token, false) }
    else { ext with targets := tokens }
  else ext

/-- `_extract_meter`. -/
def extractMeter (ext : Extract) (business : Bytes) : Extract :=
  if business.length < 8 then { ext with payloadError := some "业务报文过短（<8B）" }
  else
    let headerLen := ((byteAt business 0 : ℕ) >>> 6) ||| (((byteAt business 1 : ℕ) &&& 0x0F) <<< 2)
    let protoType := (byteAt business 2 : ℕ) &&& 0x0F
    let ext := { ext with
      protoType := some protoType
      msgSeq := some ((byteAt business 4 : ℕ) ||| ((byteAt business 5 : ℕ) <<< 8))
      payloadError :=
        if headerLen > business.length then
          some ("报文头长度(" ++ toString headerLen ++ ")超出业务报文")
        else none }
    let ext :=
      if ext.direction = some .up then
        { ext with
          respBitmap := some ((byteAt business 6 : ℕ) ||| ((byteAt business 7 : ℕ) <<< 8)) }
      else
        { ext with
          retryCfg := some (((byteAt business 1 : ℕ) >>> 4) &&& 0x0F)
          timeoutMs := some ((byteAt business 6 : ℕ) * 100) }
    withMeters ext protoType (forwardedData business)

/-- The layouts that `_SIMPLE_LAYOUTS` holds: place and size of the number. -/
def simpleLayout : ℤ → Option (ℕ × ℕ)
  | 0x0008 => some (4, 2)
  | 0x0011 => some (4, 4)
  | 0x0020 => some (2, 2)
  | 0x00A1 => some (2, 2)
  | _ => none

/-- `_extract_simple`, for the layout of the message; the direction stands in bit 4 of byte 1. -/
def extractSimple (ext : Extract) (business : Bytes) (msgId : ℤ) (layout : ℕ × ℕ) : Extract :=
  if business.length < layout.1 + layout.2 then { ext with payloadError := some "业务报文过短" }
  else
    let ext := { ext with
      msgSeq := some (RecordExtractor.leValue (slice business layout.1 (layout.1 + layout.2)))
      direction := ext.direction.orElse fun _ =>
        if business.length > 1 then
          some (if ((byteAt business 1 : ℕ) >>> 4) &&& 1 ≠ 0 then .up else .down)
        else none
      confirm :=
        if msgId = 0x0020 ∧ business.length > 1 then
          some (((byteAt business 1 : ℕ) >>> 5) &&& 1 ≠ 0)
        else none }
    if msgId = 0x0008 ∧ business.length ≥ 12 then
      let addr := upper (hex (slice business 6 12).reverse)
      if ext.direction = some .up then { ext with responses := ext.responses ++ [(addr, false)] }
      else { ext with targets := ext.targets ++ [addr] }
    else ext

/-- `_METER_FAMILY`. -/
def meterFamily (msgId : ℤ) : Bool := msgId = 0x0001 || msgId = 0x0002 || msgId = 0x0003

/-- `extract_trace_fields`, for a text as `app_id`; an empty `src_tei` counts as none. -/
def extractTraceFields (appId : String) (appRaw : Bytes) (srcTei : Option String) : Option Extract :=
  match hexTextValue appId with
  | none => none
  | some msgId =>
    if appRaw.length < 4 then none
    else
      let business := appRaw.drop 4
      let ext : Extract := {
        direction := (Trace.told srcTei).map fun src => if upper src = "001" then .down else .up }
      if meterFamily msgId then some (extractMeter ext business)
      else (simpleLayout msgId).map fun layout => extractSimple ext business msgId layout

/-- `ack_peer_tei`. -/
def ackPeerTei (frameRaw : Bytes) : Option ℕ :=
  if frameRaw.length < 29 then none
  else some ((((byteAt frameRaw 27 : ℕ) &&& 0x0F) <<< 8) ||| (byteAt frameRaw 28 : ℕ))

end TraceExtract

/-! ## Columns -/

namespace Trace
open OrderedDict TraceExtract
open Batch (inText)

/-- `TRACE_APP_IDS`. -/
def traceAppIds : List String := ["0001", "0002", "0003", "0008", "0011", "0020", "00A1"]

/-- The columns of the trace; an empty `appId` stands for no application layer. -/
structure Columns where
  appPort : Option String := none
  appId : String := ""
  msgSeq : Option ℕ := none
  flowDir : Option ℕ := none
  meterAddrs : Option (List MeterItem) := none
  staTei : Option String := none
  oriTei : Option String := none
  ackPeer : Option String := none
  deriving DecidableEq

/-- `(simple.get(key) or "").upper() or None`, of the texts of a summary. -/
def capitals (summary : Dict String String) (key : String) : Option String :=
  (told (summary.get? key)).map upper

/-- The application data of a summary, where they are hexadecimal. -/
def appRaw (summary : Dict String String) : Option Bytes :=
  (told (summary.get? "APP_RAW")).bind fromHex

def targetItems (ext : Extract) : List MeterItem := ext.targets.map .text

def responseItems (ext : Extract) : List MeterItem := ext.responses.map fun r => .reply r.1 r.2

/-- A list as JSON text; an empty list is not written. -/
def written (items : List MeterItem) : Option (List MeterItem) := if items = [] then none else some items

/-- `_trace_material`. -/
def traceMaterial (summary : Dict String String) (rawHex : String) : Columns :=
  let src := capitals summary "SRC"
  let ori := capitals summary "ORI_S"
  if src = none ∧ summary.get? "FrmType" = some "ACK" ∧ rawHex ≠ "" then
    { ackPeer := ((fromHex (dropSpaces rawHex)).bind ackPeerTei).map (hexPad 3) }
  else
    let downlink := ori = some "001" ∨ (ori = none ∧ src = some "001")
    let out : Columns := {
      oriTei := ori
      flowDir := if downlink then some 0 else if src.isSome ∨ ori.isSome then some 1 else none
      staTei := if downlink then capitals summary "DST" else src.or ori }
    match capitals summary "APP_ID" with
    | none => out
    | some appId =>
      let out := { out with appId := appId, appPort := capitals summary "APP_PORT" }
      let ext := if appId ∈ traceAppIds then (appRaw summary).bind fun raw =>
          extractTraceFields appId raw src
        else none
      match ext with
      | none => out
      | some ext => { out with
          msgSeq := ext.msgSeq
          meterAddrs :=
            if ext.direction = some .down then written (targetItems ext)
            else if ext.direction = some .up then written (responseItems ext)
            else none }

/-- A row of `frames`; the columns of a row that waits for the backfill are empty. -/
structure Row where
  id : ℕ
  logTime : String
  rawHex : String
  summary : Dict String String
  nid : Option ℕ
  columns : Option Columns

/-! ## Loading frames -/

/-- The kept values of `_to_frame` besides those that come from the columns alone. -/
structure Loaded where
  msgSeq : Option ℕ
  meterAddrs : Option (List MeterItem)
  confirm : Option Bool

/-- `row["app_id"] or (summary.get("APP_ID") or "").upper() or None`. -/
def Row.appId (row : Row) : Option String :=
  (told (row.columns.map Columns.appId)).or (capitals row.summary "APP_ID")

/-- What a column holds. -/
def Row.column {α : Type} (row : Row) (get : Columns → Option α) : Option α := row.columns.bind get

/-- The values that the columns and the summary give, before and after the backfill. -/
def Row.loaded (row : Row) (ready : Bool) : PyM Loaded :=
  let kept : Loaded := ⟨row.column Columns.msgSeq, row.column Columns.meterAddrs, none⟩
  let told := (told (row.summary.get? "APP_RAW")).isSome
  let extract (appId : String) := (appRaw row.summary).bind fun raw =>
    extractTraceFields appId raw (row.summary.get? "SRC")
  if ready then
    if row.appId.map upper = some "0020" ∧ told then
      pure { kept with confirm := (extract "0020").bind Extract.confirm }
    else pure kept
  else if ¬ told then pure kept
  else
    match row.appId.map upper with
    | none => throw (.attributeError "'NoneType' object has no attribute 'upper'")
    | some appId =>
      match if appId ∈ traceAppIds then extract appId else none with
      | none => pure kept
      | some ext => pure {
          msgSeq := ext.msgSeq
          meterAddrs :=
            if ext.direction = some .up then some (responseItems ext)
            else (written (targetItems ext)).or kept.meterAddrs
          confirm := ext.confirm }

/-- `_to_frame`. -/
def Row.toFrame (row : Row) (ready : Bool) : PyM (Option Frame) :=
  if row.appId = none ∧ told (row.column Columns.ackPeer) = none then pure none
  else do
    let loaded ← row.loaded ready
    pure (some {
      frameId := row.id
      logTime := row.logTime
      flowDir := row.column Columns.flowDir
      msgSeq := loaded.msgSeq
      staTei := row.column Columns.staTei
      oriTei := row.column Columns.oriTei
      meterAddrs := loaded.meterAddrs
      ackPeer := row.column Columns.ackPeer
      summary := row.summary
      confirm := loaded.confirm })

inductive FrameWindow
  | live
  | timeRange (startTime endTime : String)
  | cursorRange (startId endId : Option ℕ)

/-- What `_load_frames` reads of a `NormalizedFeature`. -/
structure FrameQuery where
  appId : String
  msgSeq : Option ℕ := none
  frmType : Option String := none
  dstTei : Option String := none
  appRawContains : Option String := none
  rawHexContains : Option String := none
  nid : Option ℕ := none
  channel : Option String := none
  window : FrameWindow := .live

/-- The condition of the window. -/
def FrameWindow.holds (w : FrameWindow) : PyM (Row → Bool) :=
  match w with
  | .live => pure fun _ => true
  | .timeRange startTime endTime => do
    let bounds ← ListenerLog.timeRange startTime endTime
    pure fun row => bounds.holds row.logTime
  | .cursorRange startId endId =>
    pure fun row => startId.all (fun n => n ≤ row.id) && endId.all fun n => row.id ≤ n

/-- The conditions of the query; `like` is the search for the application in the text of the summary. -/
def FrameQuery.selects (q : FrameQuery) (like : Row → Bool) (ready : Bool) (inWindow : Row → Bool)
    (row : Row) : Bool :=
  row.columns.map Columns.appId = some q.appId &&
    (q.msgSeq.all fun n => (row.column Columns.msgSeq).all fun m => m = n) &&
    (q.dstTei.all fun t => row.column Columns.staTei = some t) &&
    (q.nid.all fun n => row.nid = some n) && inWindow row && (ready || row.columns.isSome || like row)

/-- `_apply_l2_filters`. -/
def FrameQuery.keeps (q : FrameQuery) (row : Row) : Bool :=
  (q.frmType.all fun t => row.summary.get? "FrmType" = some t) &&
    (q.channel.all fun c => row.summary.get? "ChType" = some c) &&
    (q.appRawContains.all fun needle =>
      inText needle (upper ((row.summary.get? "APP_RAW").getD ""))) &&
    q.rawHexContains.all fun needle => inText needle (upper (dropSpaces row.rawHex))

/-- `_load_frames`, the frames. -/
def loadFrames (q : FrameQuery) (like : Row → Bool) (ready : Bool) (rows : List Row) :
    PyM (List Frame) := do
  let inWindow ← q.window.holds
  let loaded ← (rows.filter (q.selects like ready inWindow)).mapM fun row => do
    pure ((← row.toFrame ready).filter fun _ => q.keeps row)
  pure ((loaded.filterMap id).filter fun frame => q.msgSeq.all fun n => frame.msgSeq = some n)

/-! ## The backfill -/

/-- Where the pass of the worker over the trace columns stands. -/
inductive Pass
  | idle
  | reading (lastId : ℕ)
  | writing (lastId : ℕ) (batch : List (ℕ × Columns))

/-- `done` records that a pass came to its end since the worker started. -/
structure TraceStore where
  rows : List Row
  nextId : ℕ
  pass : Pass
  done : Bool

inductive StoreEvent
  | append (logTime rawHex : String) (summary : Dict String String) (nid : Option ℕ)
  | reset
  | start
  | read
  | write

/-- `_BACKFILL_BATCH`. -/
def backfillBatch : ℕ := 5000

/-- The rows that a batch reads. -/
def TraceStore.batchAfter (s : TraceStore) (lastId : ℕ) : List Row :=
  (s.rows.filter fun row => lastId < row.id && row.columns.isNone).take backfillBatch

/-- `UPDATE frames SET ... WHERE id = ?`, for the rows of a batch in turn. -/
def updated (batch : List (ℕ × Columns)) (row : Row) : Row :=
  batch.foldl (fun row e => if row.id = e.1 then { row with columns := some e.2 } else row) row

def storeStep (s : TraceStore) : StoreEvent → Option TraceStore
  | .append logTime rawHex summary nid => some { s with
      rows := s.rows ++
        [⟨s.nextId, logTime, rawHex, summary, nid, some (traceMaterial summary rawHex)⟩]
      nextId := s.nextId + 1 }
  -- the tables are dropped, and their counter with them
  | .reset => some { s with rows := [], nextId := 1 }
  | .start =>
    match s.pass with
    | .idle => some { s with pass := .reading 0, done := false }
    | _ => none
  | .read =>
    match s.pass with
    | .reading lastId =>
      match (s.batchAfter lastId).getLast? with
      | none => some { s with pass := .idle, done := true }
      | some last => some { s with
          pass := .writing last.id ((s.batchAfter lastId).map fun row =>
            (row.id, traceMaterial row.summary row.rawHex)) }
    | _ => none
  | .write =>
    match s.pass with
    | .writing lastId batch => some { s with
        rows := s.rows.map (updated batch)
        pass := .reading lastId }
    | _ => none

def traceStore : Transitions.Machine TraceStore StoreEvent := ⟨storeStep⟩

/-- `trace_ready`. -/
def TraceStore.ready (s : TraceStore) : Bool :=
  (match s.pass with
    | .idle => true
    | _ => false) && s.rows.all fun row => row.columns.isSome

end Trace

end HplcWorkbench
