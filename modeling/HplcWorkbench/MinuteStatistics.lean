import HplcWorkbench.MinuteLines
import HplcWorkbench.OrderedDict
import Mathlib.Data.Finset.Sort
import Mathlib.Data.String.Basic

/-!
# Minute statistics

`collect_task_statistics` reads log files line by line, gathers configurations, reports and read
frames by task, and then goes through each task's acquisition windows. A frame with the meters of a
task may spread over several lines, which are held back until it is complete.
-/

namespace HplcWorkbench.MinuteStats

open OrderedDict (Dict)
open MinuteAssert (isHexDigit)

/-! ## What the lines give -/

structure Report where
  address : String
  fz : FreezeTime
  hasData : Bool
  deriving DecidableEq

structure ReadEvent where
  scene : Scene
  address : String
  fz : FreezeTime
  hasData : Bool
  deriving DecidableEq

/-- The dicts that the scan fills. `configured` holds the sets and `configuredList` the lists of the
meters of a task. -/
structure Scan where
  periodMap : Dict Byte Byte := .empty
  configured : Dict Byte (Finset String) := .empty
  configuredList : Dict Byte (List String) := .empty
  deleteCount : Dict Byte ℕ := .empty
  broadcastDeleteCount : ℕ := 0
  activeReports : Dict Byte (List Report) := .empty
  readEvents : Dict Byte (List ReadEvent) := .empty
  firstEventMinutes : Dict Byte ℤ := .empty
  lastEventMinutes : Dict Byte ℤ := .empty

/-- `f232_buffer` and `f232_need`. -/
structure F232Buffer where
  text : List Char := []
  need : ℕ := 0
  deriving DecidableEq, Repr

namespace Scan

/-- `_record_configured`. -/
def recordConfigured (s : Scan) (taskId : Byte) (addresses : List String) : Scan :=
  { s with
    configured := s.configured.set taskId
      ((s.configured.get? taskId).getD ∅ ∪ addresses.toFinset)
    configuredList := s.configuredList.set taskId
      (addresses.foldl (fun ordered a => if a ∈ ordered then ordered else ordered ++ [a])
        ((s.configuredList.get? taskId).getD [])) }

def recordEvent (s : Scan) (taskId : Byte) (fz : FreezeTime) : Scan :=
  { s with
    firstEventMinutes :=
      if (s.firstEventMinutes.get? taskId).all fun first => decide (fzMinutes fz < first) then
        s.firstEventMinutes.set taskId (fzMinutes fz)
      else s.firstEventMinutes
    lastEventMinutes :=
      if (s.lastEventMinutes.get? taskId).all fun last => decide (last < fzMinutes fz) then
        s.lastEventMinutes.set taskId (fzMinutes fz)
      else s.lastEventMinutes }

/-- A configuration, or the deletion of one task or of all. -/
def recordConfig (s : Scan) (config : TaskConfig) : Scan :=
  if config.taskId = 0xFF ∧ config.switchFlag = 0 then
    { s with broadcastDeleteCount := s.broadcastDeleteCount + 1 }
  else if config.switchFlag = 0 then
    { s with deleteCount :=
        s.deleteCount.set config.taskId ((s.deleteCount.get? config.taskId).getD 0 + 1) }
  else { s with periodMap := s.periodMap.set config.taskId config.period }

def recordReport (s : Scan) (taskId : Byte) (report : Report) : Scan :=
  let reports := (s.activeReports.get? taskId).getD [] ++ [report]
  { s with activeReports := s.activeReports.set taskId reports }.recordEvent taskId report.fz

def recordRead (s : Scan) (taskId : Byte) (read : ReadEvent) : Scan :=
  let reads := (s.readEvents.get? taskId).getD [] ++ [read]
  { s with readEvents := s.readEvents.set taskId reads }.recordEvent taskId read.fz

/-- The frame that is complete is read. -/
def completeF232 (s : Scan) (buffer : F232Buffer) : PyM Scan := do
  let frame ← bytesFromHex (buffer.text.take (buffer.need * 2))
  match ← parseF232Frame frame with
  | some (taskId, addresses) => pure (s.recordConfigured taskId addresses)
  | none => pure s

/-- What has come of the frame is held back until it is complete. -/
def holdBack (s : Scan) (buffer : F232Buffer) : PyM (Scan × F232Buffer) :=
  if buffer.need ≤ buffer.text.length / 2 then do
    let s ← s.completeF232 buffer
    pure (s, {})
  else pure (s, buffer)

end Scan

section Lines
variable (digit : Char → Bool)

/-- A line that is no part of a held-back frame and does not begin one. -/
def scanFrame (s : Scan) (line : List Char) : PyM Scan := do
  match ← parseTaskConfigAny digit line with
  | some config => pure (s.recordConfig config)
  | none =>
    match ← parseActiveReport digit line with
    | some report => do
      let data ← bytesFromHex (dedupKey digit line)
      pure (s.recordReport report.taskId ⟨report.address, report.fz, hasDataRegion data .activeReport⟩)
    | none =>
      match ← parseReadFrame digit line with
      | some frame => do
        let data ← bytesFromHex (dedupKey digit line)
        pure (s.recordRead frame.taskId
          ⟨classify11e3Scene frame, frame.address, frame.fz,
            hasDataRegion data (classify11e3Scene frame)⟩)
      | none => pure s

/-- The head of a frame `11H_F232`: the length it announces. -/
def f232Need (head : Bytes) : PyM (Option ℕ) := do
  let control ← index head 3
  let afn ← index head 10
  let dt₁ ← index head 11
  let dt₂ ← index head 12
  if control = 0x43 ∧ afn = 0x11 ∧ dt₁ = 0x80 ∧ dt₂ = 0x1C then do
    let lo ← index head 1
    let hi ← index head 2
    pure (some (le16 lo hi))
  else pure none

/-- One round of the loop over the lines. -/
def scanLine (state : Scan × F232Buffer) (line : List Char) : PyM (Scan × F232Buffer) :=
  let (s, buffer) := state
  let content := dedupKey digit line
  if buffer.text ≠ [] then
    if hexAfter "" content then s.holdBack { buffer with text := buffer.text ++ content }
    else pure (s, {})
  else if "68".toList.isPrefixOf content ∧ 26 ≤ content.length then
    if (content.take 26).all isHexDigit then do
      let head ← bytesFromHex (content.take 26)
      match ← f232Need head with
      | some need => s.holdBack ⟨content, need⟩
      | none => do
        let s ← scanFrame digit s line
        pure (s, buffer)
    else pure state
  else do
    let s ← scanFrame digit s line
    pure (s, buffer)

/-- The lines of a file, as far as it can be read. -/
def scanFile (s : Scan) (lines : List (List Char)) : PyM Scan :=
  Prod.fst <$> lines.foldlM (scanLine digit) (s, {})

end Lines

/-! ## Acquisition windows -/

/-- `cycle_window_key`. -/
def cycleWindowKey (fz : FreezeTime) (period : ℕ) : ℤ := fzMinutes fz / period * period

/-- `cycle_window_label`. -/
def cycleWindowLabel (startMinutes : ℤ) (period : ℕ) : String :=
  let day := (civilFromDays (startMinutes / 1440)).2.2
  let start := startMinutes % 1440
  let endDay := (civilFromDays ((startMinutes + period) / 1440)).2.2
  let stop := (startMinutes + period) % 1440 + if endDay ≠ day then 1440 else 0
  twoDigits (start / 60) ++ ":" ++ twoDigits (start % 60) ++ "-" ++ twoDigits (stop / 60) ++ ":" ++
    twoDigits (stop % 60)

/-- `range(start, stop, step)` of a step that is positive. -/
def pyRange (start stop : ℤ) (step : ℕ) : List ℤ :=
  (List.range ((stop - start + step - 1) / step).toNat).map fun k : ℕ => start + k * step

/-- `period_range`. -/
def periodRange (minMinutes maxMinutes : ℤ) (period : ℕ) : List ℤ :=
  pyRange (minMinutes / period * period) (maxMinutes / period * period + period) period

/-- `_empty_cycle_bucket`. -/
structure CycleBucket where
  activeAny : Finset String := ∅
  activeOk : Finset String := ∅
  activeEvents : List (String × String × Bool) := []
  replyAny : Finset String := ∅
  replyOk : Finset String := ∅
  replyEmpty : Finset String := ∅
  replyEvents : List (String × String × Bool) := []
  requested : Finset String := ∅
  requestEvents : List (String × String) := []
  deriving DecidableEq

namespace CycleBucket

def addReport (b : CycleBucket) (r : Report) : CycleBucket :=
  { b with
    activeAny := insert r.address b.activeAny
    activeOk := if r.hasData then insert r.address b.activeOk else b.activeOk
    activeEvents := b.activeEvents ++ [(r.address, fzText r.fz, r.hasData)] }

def addRead (b : CycleBucket) (r : ReadEvent) : CycleBucket :=
  if r.scene = .passiveCollect then
    { b with
      requested := insert r.address b.requested
      requestEvents := b.requestEvents ++ [(r.address, fzText r.fz)] }
  else
    { b with
      replyAny := insert r.address b.replyAny
      replyOk := if r.hasData then insert r.address b.replyOk else b.replyOk
      replyEmpty := if r.hasData then b.replyEmpty else insert r.address b.replyEmpty
      replyEvents := b.replyEvents ++ [(r.address, fzText r.fz, r.hasData)] }

end CycleBucket

structure TaskCycleStats where
  index : ℕ
  windowLabel : String
  activeOk : ℕ
  passiveOk : ℕ
  passiveCollectFailed : List (String × String × String)
  deriving DecidableEq, Repr

structure TaskStats where
  taskId : Byte
  period : ℕ
  configuredAddresses : List String
  cycles : List TaskCycleStats
  deleteCount : ℕ
  deriving DecidableEq, Repr

/-- The gaps between successive times, as far as they are between one minute and sixty. -/
def gaps (minutes : List ℤ) : List ℕ :=
  (minutes.zip minutes.tail).filterMap fun e =>
    if 0 < e.2 - e.1 ∧ e.2 - e.1 ≤ 60 then some (e.2 - e.1).toNat else none

/-- The period of a task: the one configured, or the least gap between its events. -/
def taskPeriod (configured : Option Byte) (minutes : List ℤ) : ℕ :=
  match configured.filter fun period => decide (1 ≤ (period : ℕ)) with
  | some period => period
  | none =>
    match gaps (minutes.insertionSort (· ≤ ·)) with
    | [] => 1
    | gap :: more => more.foldl min gap

/-- Reports and read frames are put into the buckets of their windows. -/
def fillBuckets (period : ℕ) (reports : List Report) (reads : List ReadEvent) : Dict ℤ CycleBucket :=
  let add (buckets : Dict ℤ CycleBucket) (key : ℤ) (f : CycleBucket → CycleBucket) :=
    buckets.set key (f ((buckets.get? key).getD {}))
  reads.foldl (fun buckets r => add buckets (cycleWindowKey r.fz period) (·.addRead r))
    (reports.foldl (fun buckets r => add buckets (cycleWindowKey r.fz period) (·.addReport r)) .empty)

/-- The sets of a bucket, cut down to the meters in scope. -/
structure Outcome where
  activeOk : Finset String
  passiveOk : Finset String
  noReply : Finset String
  replyNoData : Finset String

def CycleBucket.outcome (b : CycleBucket) (configured : Option (Finset String)) : Outcome :=
  let inScope := configured.getD (b.activeAny ∪ b.replyAny ∪ b.requested)
  { activeOk := inScope ∩ b.activeOk
    passiveOk := inScope ∩ b.replyOk
    noReply := inScope ∩ (b.requested \ (inScope ∩ b.replyAny))
    replyNoData := (inScope ∩ b.replyEmpty) \ (inScope ∩ b.replyOk) }

def CycleBucket.cycleStats (b : CycleBucket) (configured : Option (Finset String)) (period : ℕ)
    (index : ℕ) (windowStart : ℤ) : TaskCycleStats :=
  let o := b.outcome configured
  { index := index
    windowLabel := cycleWindowLabel windowStart period
    activeOk := o.activeOk.card
    passiveOk := o.passiveOk.card
    passiveCollectFailed :=
      (o.noReply.sort (· ≤ ·)).map (fun a =>
        (a, ((b.requestEvents.find? fun e => e.1 = a).map Prod.snd).getD "", "下发采集无响应")) ++
      (o.replyNoData.sort (· ≤ ·)).map (fun a =>
        (a, ((b.replyEvents.find? fun e => e.1 = a).map fun e => e.2.1).getD "", "被动上报无数据")) }

/-- The cycles of a task between its first and its last event. -/
def taskCycles (configured : Option (Finset String)) (period : ℕ) (first last : ℤ)
    (reports : List Report) (reads : List ReadEvent) : List TaskCycleStats :=
  (periodRange first last period).zipIdx.map fun e =>
    (((fillBuckets period reports reads).get? e.1).getD {}).cycleStats configured period (e.2 + 1) e.1

/-- The minutes of all events of a task. -/
def eventMinutes (reports : List Report) (reads : List ReadEvent) : List ℤ :=
  reports.map (fun r => fzMinutes r.fz) ++ reads.map fun r => fzMinutes r.fz

def Scan.taskStats (s : Scan) (taskId : Byte) : Option TaskStats :=
  let reports := (s.activeReports.get? taskId).getD []
  let reads := (s.readEvents.get? taskId).getD []
  match s.firstEventMinutes.get? taskId, s.lastEventMinutes.get? taskId with
  | some first, some last =>
    let period := taskPeriod (s.periodMap.get? taskId) (eventMinutes reports reads)
    let configured := (s.configured.get? taskId).filter (· ≠ ∅)
    some {
      taskId := taskId
      period := period
      configuredAddresses := (s.configuredList.get? taskId).getD []
      cycles := taskCycles configured period first last reports reads
      deleteCount := (s.deleteCount.get? taskId).getD 0 }
  | _, _ => none

/-- The tasks with events, in their order. -/
def Scan.tasks (s : Scan) : List Byte :=
  ((s.activeReports.entries.map Prod.fst ++ s.readEvents.entries.map Prod.fst).toFinset).sort (· ≤ ·)

/-- `collect_task_statistics`. -/
def collectTaskStatistics (digit : Char → Bool) (logFiles : List (List (List Char))) :
    PyM (Dict Byte Byte × List TaskStats × ℕ) := do
  let s ← logFiles.foldlM (scanFile digit) {}
  pure (s.periodMap, s.tasks.filterMap s.taskStats, s.broadcastDeleteCount)

end HplcWorkbench.MinuteStats
