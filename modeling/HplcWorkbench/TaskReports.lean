import HplcWorkbench.CaptureStamps

/-!
# Reports of a task

A 00E2 frame from the concentrator enables or deletes a task of a meter, one to it is the meter's
reply. The frames are read from `frames` with times of their own: a day is counted along them, from
clock to clock. Of each meter the configuration enabled last is kept, with the time at which its
deletion was confirmed.

`list_task_minute_periods` takes the reports of a task from `minute_reports` and compares the time
stored with each with the configuration of its meter. A report outside the time of its configuration
is set apart.
-/

namespace HplcWorkbench.ListenerLog

open Adapter10376 (pyStrip)
open OrderedDict

/-- What SQLite decides about stored values. -/
structure Sqlite where
  /-- `summary_json LIKE ? ESCAPE '\'`, of the text of a summary -/
  like : Params → String → Bool
  /-- `column = ?` -/
  eq : PyVal → PyVal → Bool

/-! ## The conditions of a query -/

/-- `(v or "").upper()`. -/
def upperText (v : PyVal) : PyM String :=
  match pyOr v (.str "") with
  | .str text => pure (upper text)
  | _ => throw (.attributeError "object has no attribute 'upper'")

/-- `re.fullmatch(r"[0-9A-F]{3}", cco_tei.upper())`. -/
def validTei (ccoTei : String) : Bool :=
  let digits := (upper ccoTei).toList
  digits.length = 3 && digits.all fun c => c.isDigit || ('A' ≤ c && c ≤ 'F')

/-- `_nid_like`. -/
def nidLike (nid : String) : String :=
  let escaped := (pyStrip nid.toList).flatMap fun c =>
    let c := c.toUpper
    if c = '\\' ∨ c = '%' ∨ c = '_' then ['\\', c] else [c]
  "%\"SNID\": \"" ++ String.ofList escaped ++ "%"

/-- The condition on the network, where one is asked for. -/
def Sqlite.ofNid (sql : Sqlite) (nid : String) (summary : Option Params) : Bool :=
  (pyStrip nid.toList).isEmpty || summary.any fun s => sql.like s (nidLike nid)

/-! ## 00E2 frames -/

/-- `启用` or `删除`. -/
inductive Operation
  | enable
  | delete
  deriving DecidableEq, Repr

structure ConfigContent where
  protocolType : PyVal
  meterType : PyVal
  dataItemCount : PyVal

/-- What the two kinds of records differ in. -/
inductive E2Kind
  /-- a meter's reply, successful or not -/
  | up (delFlag : Operation) (success : Bool) (period : ℕ)
  | downConfig (operation : Operation) (periodMinutes : PyVal) (content : ConfigContent)

/-- A record of `_e2_records`, without the columns that only the statistics read. -/
structure E2Record where
  frameId : ℕ
  logTime : String
  mac : PyVal
  taskNo : String
  kind : E2Kind

/-- The reply in `APP_RAW`. -/
def upRecord (frameId : ℕ) (logTime : String) : PyVal → Option E2Record
  | .str raw =>
    match fromHex raw with
    | none => none
    | some bs =>
      if bs.length < 19 then none
      else
        let flags := (bs.getD 17 0 : ℕ)
        some
          { frameId
            logTime
            mac := .str (upper (hex ((bs.drop 10).take 6)))
            taskNo := toString (bs.getD 16 0 : ℕ)
            kind := .up (if flags % 2 = 0 then .delete else .enable) (flags / 2 % 2 = 0)
              (bs.getD 18 0 : ℕ) }
  | _ => none

/-- Membership in `{"删除", "启用"}`. -/
def operationOf : PyVal → PyM (Option Operation)
  | .list _ => throw (.typeError "unhashable type: 'list'")
  | .dict _ => throw (.typeError "unhashable type: 'dict'")
  | v => pure (if v.eqStr "删除" then some .delete else if v.eqStr "启用" then some .enable else none)

/-- The body of the loop of `_e2_records`. -/
def e2Record (cco : String) (frameId : ℕ) (logTime : String) (simple : Params) :
    PyM (Option E2Record) := do
  let appId ← upperText (Params.get simple "APP_ID")
  if appId ≠ "00E2" then pure none
  else
    let application ← (pyOr (Params.get simple "application") (.dict [])).asDict
    let fields ← fieldDicts application
    let finlD ← upperText (Params.get simple "FINL_D")
    let oriS ← upperText (Params.get simple "ORI_S")
    if finlD = cco ∧ oriS ≠ "" ∧ oriS ≠ cco then
      pure (upRecord frameId logTime (pyOr (Params.get simple "APP_RAW") (.str "")))
    else if oriS = cco ∧ finlD ≠ "" ∧ finlD ≠ cco then
      let operation ← operationOf (valueOf fields "启动/删除标志")
      pure (operation.map fun operation =>
        { frameId
          logTime
          mac := pyOr (valueOf fields "目的MAC地址") (.str "")
          taskNo := (pyOr (valueOf fields "任务号") (.str "")).toStr
          kind := .downConfig operation (valueOf fields "采集周期")
            { protocolType := valueOf fields "协议类型"
              meterType := valueOf fields "电表类型"
              dataItemCount := valueOf fields "数据项个数" } })
    else pure none

/-- The loop of `_e2_records` over the rows that the query returns. -/
def collectE2 (cco : String) : List FrameRow → PyM (List E2Record)
  | [] => pure []
  | row :: rest => do
    let record ← e2Record cco row.id row.logTime (row.summary.getD [])
    let records ← collectE2 cco rest
    pure (record.toList ++ records)

/-- `_e2_records`. -/
def e2Records (sql : Sqlite) (tables : Tables) (ccoTei nid startTime endTime : String) :
    PyM (List E2Record) :=
  if validTei ccoTei then do
    let window ← timeRange startTime endTime
    collectE2 (upper ccoTei) (tables.frames.filter fun row =>
      row.summary.any (fun s => sql.like s "%00E2%") && sql.ofNid nid row.summary &&
        window.holds row.logTime)
  else throw (.valueError "cco_tei 必须为三个大写十六进制字符")

/-! ## Records in time -/

/-- `_task_key`. -/
def taskKey (value : PyVal) : String :=
  match PyVal.textValue value.toStr with
  | some n => toString n
  | none => String.ofList (pyStrip (pyOr value (.str "")).toStr.toList)

/-- `_sta_key`. -/
def staKey (mac : PyVal) : String :=
  upper (String.ofList ((pyOr mac (.str "")).toStr.toList.filter fun c => (hexDigitValue c).isSome))

/-- A record of `_task_config_records`. -/
structure TaskRecord where
  frameId : ℕ
  logTime : String
  mac : String
  taskNo : String
  kind : E2Kind
  absoluteMs : Option ℕ

def taskRecord (record : E2Record) (absoluteMs : Option ℕ) : TaskRecord :=
  { frameId := record.frameId
    logTime := record.logTime
    mac := staKey record.mac
    taskNo := taskKey (.str record.taskNo)
    kind := record.kind
    absoluteMs }

/-- `_task_config_records`. -/
def taskConfigRecords (sql : Sqlite) (tables : Tables) (ccoTei nid startTime endTime : String) :
    PyM (List TaskRecord) := do
  let records ← e2Records sql tables ccoTei nid startTime endTime
  pure (List.zipWith taskRecord records (absoluteMsFrom 0 none (records.map E2Record.logTime)))

/-! ## The configuration of each meter -/

/-- A value of `configured`. The dict `active` holds some of the same objects, which is told here by a
flag. -/
structure TaskConfig where
  record : TaskRecord
  content : ConfigContent
  periodMinutes : ℤ
  endMs : Option ℕ := none
  endTime : String := ""
  active : Bool := true

/-- `int(period or 0)`, 0 where that raises. -/
def configuredPeriod (period : PyVal) : ℤ :=
  match (pyOr period (.int 0)).toInt with
  | .ok minutes => minutes
  | .error _ => 0

/-- The body of the loop of `_task_config_periods`. -/
def configStep (task : String) (configured : Dict String TaskConfig) (record : TaskRecord) :
    Dict String TaskConfig :=
  if record.taskNo ≠ task ∨ record.mac = "" then configured
  else
    match record.kind with
    | .downConfig .enable period content =>
      if configuredPeriod period ≠ 0 then
        configured.set record.mac { record, content, periodMinutes := configuredPeriod period }
      else configured
    | .up .delete true _ =>
      match configured.get? record.mac, record.absoluteMs with
      | some config, some ms =>
        if config.active then
          configured.set record.mac
            { config with endMs := some ms, endTime := record.logTime, active := false }
        else configured
      | _, _ => configured
    | _ => configured

/-- `_mode`: the most frequent value, of equally frequent ones the least. -/
def periodMode (values : List ℤ) : Option ℤ :=
  values.foldl (fun best v =>
    match best with
    | none => some v
    | some w =>
      if values.count w < values.count v ∨ (values.count w = values.count v ∧ v < w) then some v
      else best) none

/-- `_task_config_periods`. -/
def taskConfigPeriods (sql : Sqlite) (tables : Tables) (ccoTei task nid : String) :
    PyM (Dict String TaskConfig × Option ℤ) := do
  let records ← taskConfigRecords sql tables ccoTei nid "" ""
  let configured := records.foldl (configStep task) .empty
  pure (configured, periodMode (configured.entries.map fun e => e.2.periodMinutes))

/-! ## The query of a task -/

/-- A row of the query: a report with the summary of its frame. -/
structure ReportRow where
  row : MinuteRow
  summary : Option Params

/-- The arguments of `list_task_minute_periods`. -/
structure TaskQuery where
  taskNo : PyVal
  periodMinutes : Option ℤ := none
  ccoTei : String := "001"
  nid : String := ""
  startTime : String := ""
  endTime : String := ""

namespace TaskQuery
variable (q : TaskQuery) (sql : Sqlite) (tables : Tables)

def task : String := taskKey q.taskNo

/-- The records from which the configurations are taken. -/
def records : PyM (List TaskRecord) := taskConfigRecords sql tables q.ccoTei q.nid "" ""

/-- The rows of the query, in the order of `minute_reports`. -/
def rows : PyM (List ReportRow) := do
  let number ← (PyVal.str q.task).toInt
  let window ← timeRange q.startTime q.endTime
  let joined := tables.minuteReports.map fun row =>
    (⟨row, (tables.frames.find? fun frame => frame.id = row.frameId).bind FrameRow.summary⟩ : ReportRow)
  pure (joined.filter fun r =>
    sql.eq r.row.ccoTei (.str (upper q.ccoTei)) && sql.eq r.row.taskNo (.int number) &&
      sql.ofNid q.nid r.summary && window.holds r.row.logTime)

end TaskQuery

/-- `_minute_report_data_status`. -/
def dataStatus (row : MinuteRow) : String :=
  if row.applicationError.truthy then "应用层解析失败"
  else if row.responseResult.eqInt 0 then
    if row.dataLength.truthy then "已携带数据" else "无数据"
  else if row.responseResult.eqInt 1 then "任务不存在"
  else if row.responseResult.eqInt 2 then "无冻结数据"
  else if row.responseResult.eqInt 3 then "其他原因"
  else "响应结果未知"

/-- An `item`. -/
structure TaskReport where
  row : MinuteRow
  mac : String
  start : ℤ
  expectedFreezeTime : String
  freezeOk : Bool
  periodMinutes : ℤ
  dataStatus : String
  config : Option TaskConfig
  inConfigPeriod : Bool
  applicationRaw : PyVal

/-- `in_config_period` of a report that is stored under a time. -/
def inConfigPeriod (config : Option TaskConfig) (timeSeconds : ℕ) : PyM Bool :=
  match config with
  | none => pure false
  | some config =>
    match config.record.absoluteMs with
    | none => throw (.typeError "'>=' not supported between instances of 'int' and 'NoneType'")
    | some absoluteMs => pure (absoluteMs ≤ timeSeconds && config.endMs.all fun e => timeSeconds < e)

/-- The period of a report in minutes: that of its configuration, or the one of the task. -/
def reportMinutes (config : Option TaskConfig) (effectivePeriod : Option ℤ) : Option ℤ :=
  ((config.map TaskConfig.periodMinutes).filter (· ≠ 0)).or (effectivePeriod.filter (· ≠ 0))

/-- The `item` of a row; there is none without a period. -/
def taskReport (configured : Dict String TaskConfig) (effectivePeriod : Option ℤ) (r : ReportRow) :
    PyM (Option TaskReport) :=
  let mac := staKey r.row.sourceMac
  let config := configured.get? mac
  match reportMinutes config effectivePeriod with
  | none => pure none
  | some minutes => do
    let periodMs := minutes * 60000
    let start := (r.row.timeSeconds : ℤ) - Int.fmod r.row.timeSeconds periodMs
    let expectedClock := clockText ((start - periodMs) % 86400000).toNat
    let freeze := (pyOr r.row.freezeTime (.str "")).toStr
    let marked ← inConfigPeriod config r.row.timeSeconds
    pure (some
      { row := r.row
        mac
        start
        expectedFreezeTime := expectedClock
        freezeOk := (expectedClock.toList.take 8).isSuffixOf freeze.toList
        periodMinutes := minutes
        dataStatus := dataStatus r.row
        config
        inConfigPeriod := marked
        applicationRaw := Params.get (r.summary.getD []) "APP_RAW" })

/-- `reports_by_window` and `unconfigured_reports`. -/
structure TaskReports where
  reportsByWindow : Dict ℤ (List TaskReport) := .empty
  unconfiguredReports : List TaskReport := []

/-- Where the loop puts an item; `configured` is the source. -/
def TaskReports.place (s : TaskReports) (configured : Bool) (item : TaskReport) : TaskReports :=
  if configured && !item.inConfigPeriod then
    { s with unconfiguredReports := s.unconfiguredReports ++ [item] }
  else
    { s with
      reportsByWindow := s.reportsByWindow.set item.start
        ((s.reportsByWindow.get? item.start).getD [] ++ [item]) }

/-- The loop over the rows. -/
def placeReports (configured : Dict String TaskConfig) (effectivePeriod : Option ℤ) (s : TaskReports) :
    List ReportRow → PyM TaskReports
  | [] => pure s
  | r :: rest => do
    let item ← taskReport configured effectivePeriod r
    placeReports configured effectivePeriod
      (item.elim s (s.place (!configured.entries.isEmpty))) rest

/-- `list_task_minute_periods` up to the end of its loop over the reports. -/
def listTaskReports (sql : Sqlite) (tables : Tables) (q : TaskQuery) : PyM TaskReports :=
  if q.periodMinutes.any fun minutes => minutes < 1 || 1440 < minutes then
    throw (.valueError "period_minutes 必须在 1 到 1440 之间")
  else do
    let (configured, derivedPeriod) ← taskConfigPeriods sql tables q.ccoTei q.task q.nid
    let rows ← q.rows sql tables
    placeReports configured ((derivedPeriod.filter (· ≠ 0)).or q.periodMinutes) {} rows

/-! ## What the loop keeps of each row -/

/-- An item of the result, wherever it was put. -/
def TaskReports.Has (s : TaskReports) (item : TaskReport) : Prop :=
  (∃ start items, s.reportsByWindow.get? start = some items ∧ item ∈ items) ∨
    item ∈ s.unconfiguredReports

/-- A report is marked as one of its configuration's period. -/
def TaskReports.Marks (s : TaskReports) (row : MinuteRow) : Prop :=
  ∃ item, s.Has item ∧ item.row = row ∧ item.inConfigPeriod = true

section Loop
variable {configured : Dict String TaskConfig} {effectivePeriod : Option ℤ} {s result : TaskReports}

theorem taskReport_ok {r : ReportRow} {item : TaskReport}
    (h : taskReport configured effectivePeriod r = .ok (some item)) :
    item.row = r.row ∧ inConfigPeriod (configured.get? (staKey r.row.sourceMac)) r.row.timeSeconds =
      .ok item.inConfigPeriod := by
  unfold taskReport at h
  dsimp only at h
  split at h
  · cases h
  · obtain ⟨marked, hmarked, h⟩ := bind_eq_ok h
    obtain rfl := Option.some.inj (Except.ok.inj h)
    exact ⟨rfl, hmarked⟩

/-- A report of a configured meter has an item. -/
theorem exists_taskReport (effectivePeriod : Option ℤ) {r : ReportRow} {config : TaskConfig}
    {marked : Bool} (hconfig : configured.get? (staKey r.row.sourceMac) = some config)
    (hminutes : config.periodMinutes ≠ 0)
    (hmarked : inConfigPeriod (some config) r.row.timeSeconds = .ok marked) :
    ∃ item, taskReport configured effectivePeriod r = .ok (some item) := by
  have hperiod : reportMinutes (some config) effectivePeriod = some config.periodMinutes := by
    simp [reportMinutes, Option.filter, hminutes]
  unfold taskReport
  dsimp only
  rw [hconfig, hperiod]
  dsimp only
  rw [hmarked]
  exact ⟨_, rfl⟩

theorem has_place (configured : Bool) (item x : TaskReport) :
    (s.place configured item).Has x ↔ s.Has x ∨ x = item := by
  unfold TaskReports.place TaskReports.Has
  by_cases hapart : (configured && !item.inConfigPeriod) = true
  · rw [if_pos hapart, List.mem_append, List.mem_singleton, or_assoc]
  rw [if_neg hapart]
  dsimp only
  constructor
  · rintro (⟨start, items, hget, hx⟩ | hx)
    · by_cases hstart : start = item.start
      · rw [hstart, Dict.get?_set_self] at hget
        obtain rfl := Option.some.inj hget
        rw [List.mem_append, List.mem_singleton] at hx
        rcases hx with hx | hx
        · cases hold : s.reportsByWindow.get? item.start with
          | none => simp [hold] at hx
          | some old => exact .inl (.inl ⟨item.start, old, hold, by simpa [hold] using hx⟩)
        · exact .inr hx
      · rw [Dict.get?_set_of_ne _ _ _ _ hstart] at hget
        exact .inl (.inl ⟨start, items, hget, hx⟩)
    · exact .inl (.inr hx)
  · rintro ((⟨start, items, hget, hx⟩ | hx) | rfl)
    · by_cases hstart : start = item.start
      · refine .inl ⟨item.start, _, Dict.get?_set_self _ _ _, List.mem_append_left _ ?_⟩
        rw [← hstart, hget]
        exact hx
      · exact .inl ⟨start, items, by rwa [Dict.get?_set_of_ne _ _ _ _ hstart], hx⟩
    · exact .inr hx
    · exact .inl ⟨x.start, _, Dict.get?_set_self _ _ _, List.mem_append_right _ List.mem_cons_self⟩

theorem unconfigured_place (configured : Bool) (item : TaskReport) {x : TaskReport}
    (hx : x ∈ (s.place configured item).unconfiguredReports) :
    x ∈ s.unconfiguredReports ∨ x.inConfigPeriod = false := by
  unfold TaskReports.place at hx
  split at hx
  · rename_i hapart
    rw [Bool.and_eq_true, Bool.not_eq_true'] at hapart
    rw [List.mem_append, List.mem_singleton] at hx
    rcases hx with hx | rfl
    · exact .inl hx
    · exact .inr hapart.2
  · exact .inl hx

/-- The items are those of the rows, and what is set apart is not marked. -/
theorem placeReports_ok {rows : List ReportRow}
    (h : placeReports configured effectivePeriod s rows = .ok result) :
    (∀ x, result.Has x ↔
      s.Has x ∨ ∃ r ∈ rows, taskReport configured effectivePeriod r = .ok (some x)) ∧
      ∀ x ∈ result.unconfiguredReports, x ∈ s.unconfiguredReports ∨ x.inConfigPeriod = false := by
  induction rows generalizing s with
  | nil =>
      obtain rfl := Except.ok.inj h
      exact ⟨fun x => by simp, fun x hx => .inl hx⟩
  | cons r rest ih =>
      rw [placeReports] at h
      obtain ⟨item, hitem, h⟩ := bind_eq_ok h
      obtain ⟨hhas, hunconfigured⟩ := ih h
      cases item with
      | none =>
          refine ⟨fun x => ?_, hunconfigured⟩
          rw [hhas, List.exists_mem_cons_iff, hitem]
          simp
      | some item =>
          refine ⟨fun x => ?_, fun x hx => ?_⟩
          · rw [hhas, Option.elim_some, has_place, List.exists_mem_cons_iff, hitem, or_assoc,
              Except.ok.injEq, Option.some.injEq, eq_comm (a := x)]
          · rcases hunconfigured x hx with hx | hx
            · exact unconfigured_place _ item hx
            · exact .inr hx

end Loop

end HplcWorkbench.ListenerLog
