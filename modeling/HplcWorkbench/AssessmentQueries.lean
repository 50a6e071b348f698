import HplcWorkbench.NetworkAssessment

/-!
# The queries of the assessment

`list_beacon_periods` asks the database for the frames of a time window, row by row or already
grouped, and chooses between the two by the columns that are filled. Times are compared as texts.
SQLite's `substr` counts from one and `CAST` reads the digits in front.
-/

namespace HplcWorkbench.ListenerLog

open Adapter10376 (pyStrip)

/-! ## Time windows -/

/-- The bounds of a query, empty where there is none. -/
structure Window where
  start : String
  stop : String
  deriving DecidableEq, Repr

/-- `_time_range_bound`. -/
def timeRangeBound (value : String) (isEnd : Bool) : PyM String :=
  if value = "" then pure ""
  else
    let clock (h₁ h₂ m₁ m₂ s₁ s₂ : Char) (milli : List Char) : PyM String :=
      match digitsInt [h₁, h₂], digitsInt [m₁, m₂], digitsInt [s₁, s₂], digitsInt milli with
      | some hour, some minute, some second, some _ =>
        if hour > 23 ∨ minute > 59 ∨ second > 59 then
          throw (.valueError "时间不在有效的时分秒范围内")
        else pure (String.ofList ([h₁, h₂, ':', m₁, m₂, ':', s₁, s₂, '.'] ++ milli))
      | _, _, _, _ => throw (.valueError "时间必须是 HH:MM:SS 或 HH:MM:SS.mmm 格式")
    match value.toList with
    | [h₁, h₂, ':', m₁, m₂, ':', s₁, s₂] =>
      clock h₁ h₂ m₁ m₂ s₁ s₂ (if isEnd then ['9', '9', '9'] else ['0', '0', '0'])
    | [h₁, h₂, ':', m₁, m₂, ':', s₁, s₂, '.', u₁, u₂, u₃] =>
      clock h₁ h₂ m₁ m₂ s₁ s₂ [u₁, u₂, u₃]
    | _ => throw (.valueError "时间必须是 HH:MM:SS 或 HH:MM:SS.mmm 格式")

/-- `_append_time_range`. -/
def timeRange (startTime endTime : String) : PyM Window := do
  let start ← timeRangeBound startTime false
  let stop ← timeRangeBound endTime true
  if start ≠ "" ∧ stop ≠ "" ∧ stop < start then throw (.valueError "结束时间不能早于起始时间")
  else pure ⟨start, stop⟩

/-- The `WHERE` of a window. -/
def Window.holds (w : Window) (logTime : String) : Bool :=
  (w.start = "" || ¬ logTime < w.start) && (w.stop = "" || ¬ w.stop < logTime)

/-- The frames of a window, in the order of their identifiers. -/
def Tables.window (tables : Tables) (w : Window) : List FrameRow :=
  tables.frames.filter fun row => w.holds row.logTime

/-- `_frames_max_id`. -/
def framesMaxId (rows : List FrameRow) : ℕ := (rows.map FrameRow.id).foldl max 0

/-- `_session_duration_s`. -/
def sessionDuration (rows : List FrameRow) : Option ℕ :=
  match rows.head?, rows.getLast? with
  | some first, some last =>
    match absoluteMs {} [first.logTime, last.logTime] with
    | [some a, some b] => some (b - a)
    | _ => none
  | _, _ => none

/-- `resolve_assessment_nid`. -/
def resolveAssessmentNid (rows : List FrameRow) (nidText : String) : PyM (Option ℕ) :=
  let text := pyStrip nidText.toList
  let inRange (v : ℤ) : Bool := 0 < v && v ≤ 0xFFFFFF
  if text = [] then pure none
  else
    let decimal := if text.all Char.isDigit then some (Adapter645.decValue text : ℤ) else none
    let candidates := (decimal.filter inRange).toList
    match hexTextValue (String.ofList text) with
    | none =>
      match candidates with
      | [] => throw (.valueError ("NID 格式无效：" ++ nidText))
      | v :: _ => pure (some v.toNat)
    | some hexValue =>
      let more := if inRange hexValue ∧ hexValue ∉ candidates then [hexValue] else []
      match candidates ++ more with
      | [] => throw (.valueError ("NID 超出协议范围（1~16777215）：" ++ nidText))
      | [v] => pure (some v.toNat)
      | v :: u :: _ =>
        let present := [v, u].filter fun c => rows.any fun row => row.nid = some c.toNat
        match present with
        | [c] => pure (some c.toNat)
        | _ => pure (some u.toNat)

/-! ## Rows for the two paths -/

/-- `_iter_full_frame_rows`. -/
def FrameRow.full (row : FrameRow) : StreamRow := ⟨row.logTime, row.rawHex, row.summary⟩

/-- `_nid_from_summary`. -/
def nidFromSummary (summary : Option Params) : Option ℕ :=
  snidToInt (Params.get (summary.getD []) "SNID")

/-- `_iter_assessment_records`. -/
def iterAssessmentRecords (tables : Tables) (w : Window) : List AssessmentRecord :=
  (tables.minuteReports.filter fun r => w.holds r.logTime).map fun r =>
    let frame := tables.frames.find? fun row => row.id = r.frameId
    { timeSeconds := r.timeSeconds
      stationKey := r.stationKey
      responseResult := r.responseResult
      reportCount := r.reportCount
      applicationError := r.applicationError
      nid := frame.bind fun row => row.nid.or (nidFromSummary row.summary) }

/-- The `nid` part of the queries that group. -/
def nidCondition (nid : Option ℕ) (row : FrameRow) : Bool :=
  match nid with
  | none => row.nid ≠ none
  | some n => row.nid = some n

/-- `GROUP BY`: each key once, with the number of its rows. -/
def groupCount {κ : Type} [DecidableEq κ] (keys : List κ) : List (κ × ℕ) :=
  keys.dedup.map fun k => (k, keys.count k)

/-- `_agg_frm_counts`. -/
def aggFrmCounts (rows : List FrameRow) (nid : Option ℕ) : List (Option ℕ × Option String × ℕ) :=
  (groupCount ((rows.filter (nidCondition nid)).map fun row => (row.nid, row.frmType))).map
    fun g => (g.1.1, g.1.2, g.2)

/-- `_agg_detail_rows`. -/
def aggDetailRows (rows : List FrameRow) (nid : Option ℕ) : List DetailRow :=
  (rows.filter fun row => row.assessDetail = some true ∧ (nid = none ∨ row.nid = nid)).map
    fun row => { row.full with column := row.nid, frmType := row.frmType }

/-- `_agg_central_rows`. With an identifier the parameters are bound in the wrong order: the column
is compared with the name of a frame type and no row is found. -/
def aggCentralRows (rows : List FrameRow) : Option ℕ → List CentralRow
  | some _ => []
  | none =>
    (rows.filter fun row => row.frmType.any (· ∈ centralBeaconAliases) ∧
      row.assessDetail ≠ some true).map fun row => ⟨row.logTime, row.rawHex⟩

/-- `CAST(text AS INTEGER)`. -/
def castInteger (text : List Char) : ℤ :=
  let digits (cs : List Char) : ℤ := Adapter645.decValue (cs.takeWhile Char.isDigit)
  match text.dropWhile Adapter10376.pySpace with
  | '-' :: rest => -digits rest
  | '+' :: rest => digits rest
  | cs => digits cs

/-- `substr(text, first, count)`. -/
def substr (text : List Char) (first count : ℕ) : List Char := (text.drop (first - 1)).take count

/-- `clock_ms` of the common table expression. -/
def sqlClockMs (logTime : String) : ℤ :=
  let part (first count : ℕ) : ℤ := castInteger (substr logTime.toList first count)
  (part 1 2 * 3600 + part 4 2 * 60 + part 7 2) * 1000 + part 9 3

/-- The absolute times of `days`: the first row has no row before it. -/
def sqlAbsoluteMs (day : ℤ) (prev : Option ℤ) : List ℤ → List ℤ
  | [] => []
  | clock :: rest =>
    let day := if prev.any fun p => clock < p - 43200000 then day + 1 else day
    (day * 86400000 + clock) :: sqlAbsoluteMs day (some clock) rest

/-- `_agg_bucket_rows`. -/
def aggBucketRows (rows : List FrameRow) (nid : Option ℕ) (periodMs : ℕ) : List BucketRow :=
  if periodMs = 0 then []
  else
    let rows := rows.filter (nidCondition nid)
    let times := sqlAbsoluteMs 0 none (rows.map fun row => sqlClockMs row.logTime)
    let keys := (rows.zip times).map fun e =>
      (e.1.nid.getD 0, e.1.frmType, e.2 - e.2.tmod periodMs)
    (groupCount keys).map fun g => (g.1.1, g.1.2.1, g.1.2.2, g.2)

/-- `_sql_row_totals`. -/
def sqlRowTotals (rows : List FrameRow) (nid : Option ℕ) : ℕ × ℕ :=
  (rows.length, rows.countP fun row => row.nid = nid)

/-! ## The choice of the path -/

/-- `_count_pending_analysis`. -/
def countPendingAnalysis (rows : List FrameRow) : ℕ :=
  rows.countP (fun row => row.nid = none) +
    rows.countP fun row => row.assessDetail = none ∧ row.summary.isSome

/-- The entry of `_BACKFILL_STATE`. -/
structure BackfillState where
  running : Bool := false
  done : Bool := false
  deriving DecidableEq, Repr

/-- `_sql_path_ready`: at least half of the window has its frame type filled. -/
def sqlPathReady (state : BackfillState) (tables : Tables) (w : Window) : Bool :=
  let rows := tables.window w
  !state.running && (countPendingAnalysis tables.frames = 0 || state.done) &&
    (rows ≠ [] && rows.length ≤ 2 * rows.countP fun row => row.frmType ≠ none)

section Fresh
variable {Verdict : Type} (rating : Rating Verdict)

/-- The SQL path. -/
def assessBySql (tables : Tables) (w : Window) (nid : Option ℕ) : Assessment Verdict :=
  let rows := tables.window w
  let totals := sqlRowTotals rows nid
  assessByNetworkAggregate rating (aggFrmCounts rows nid) (aggDetailRows rows nid)
    (aggCentralRows rows nid) (aggBucketRows rows nid) (iterAssessmentRecords tables w)
    (sessionDuration rows) nid totals.1 totals.2

/-- The Python path. -/
def assessByPython (tables : Tables) (w : Window) (nid : Option ℕ) : Assessment Verdict :=
  let rows := tables.window w
  assessByNetworkStream rating (rows.map FrameRow.full) (iterAssessmentRecords tables w)
    (sessionDuration rows) nid

/-- What `list_beacon_periods` computes where nothing is cached. -/
def freshAssessment (state : BackfillState) (tables : Tables) (w : Window) (nid : Option ℕ) :
    Assessment Verdict :=
  if sqlPathReady state tables w then assessBySql rating tables w nid
  else assessByPython rating tables w nid

end Fresh

end HplcWorkbench.ListenerLog
