import HplcWorkbench.AssessmentQueries
import HplcWorkbench.TransitionSystems
import Mathlib.Logic.Function.Basic

/-!
# The service of the listener

A service has a current database file. With a registry every new log gets a file of its own, without
one the file is emptied. An assessment that cannot use the columns starts a worker that fills them,
one transaction at a time; whether it runs and whether it has run is kept for each path. Results are
kept under the file, the texts of the window, the network and the largest identifier of the window.
-/

namespace HplcWorkbench.ListenerLog

open OrderedDict Transitions

/-! ## The worker that fills the columns -/

/-- `_BACKFILL_BATCH`. -/
def backfillBatch : ℕ := 5000

/-- Where a worker stands between two transactions. The pass over the columns of the trace changes
none of the columns here and belongs to `closing`. -/
inductive BackfillPhase
  | nids (lastId : ℕ)
  | frmTypes (pass : ℕ)
  | details (pass : ℕ)
  | closing
  deriving DecidableEq, Repr

/-- `UPDATE frames SET … WHERE id = ?` for the rows of a batch. -/
def updateRows (f : FrameRow → FrameRow) (batch rows : List FrameRow) : List FrameRow :=
  rows.map fun row => if row.id ∈ batch.map FrameRow.id then f row else row

/-- What `_backfill_nid_batches` writes. -/
def FrameRow.filled (row : FrameRow) : FrameRow :=
  let fields := parseSummaryFields row.summary
  { row with
    nid := fields.snidInt.or (extractNid row.rawHex)
    frmType := if fields.frmType ≠ "UNKNOWN" then some fields.frmType else none
    assessDetail := some (textIsAssessable fields.detail) }

/-- What `_backfill_frm_type_passes` writes. -/
def FrameRow.withFrmType (row : FrameRow) : FrameRow :=
  { row with frmType := some (parseSummaryFields row.summary).frmType }

/-- What `_backfill_assess_detail_pass` writes. -/
def FrameRow.withDetail (row : FrameRow) : FrameRow :=
  { row with assessDetail := some (textIsAssessable (parseSummaryFields row.summary).detail) }

/-- The rows that the next transaction of a phase changes. -/
def BackfillPhase.batch (rows : List FrameRow) : BackfillPhase → List FrameRow
  | nids lastId => (rows.filter fun row => lastId < row.id ∧ row.nid = none).take backfillBatch
  | frmTypes _ =>
    ((rows.filter fun row => row.frmType = none ∧ row.summary.isSome).take backfillBatch).filter
      fun row => (parseSummaryFields row.summary).frmType ≠ "UNKNOWN"
  | details _ =>
    (rows.filter fun row => row.assessDetail = none ∧ row.summary.isSome).take backfillBatch
  | closing => []

/-- What a phase writes into a row. -/
def BackfillPhase.write : BackfillPhase → FrameRow → FrameRow
  | nids _ => FrameRow.filled
  | frmTypes _ => FrameRow.withFrmType
  | details _ => FrameRow.withDetail
  | closing => id

/-- The phase after a transaction; the two later passes are made five times at most. -/
def BackfillPhase.next (phase : BackfillPhase) (batch : List FrameRow) : Option BackfillPhase :=
  match phase, batch.getLast? with
  | nids _, some last => some (nids last.id)
  | nids _, none => some (frmTypes 0)
  | frmTypes pass, some _ => some (if pass + 1 < 5 then frmTypes (pass + 1) else details 0)
  | frmTypes _, none => some (details 0)
  | details pass, some _ => some (if pass + 1 < 5 then details (pass + 1) else closing)
  | details _, none => some closing
  | closing, _ => none

/-! ## The service -/

/-- The key of a result. -/
structure CacheKey where
  file : ℕ
  startTime : String
  endTime : String
  nid : Option ℕ
  maxId : ℕ
  deriving DecidableEq, Repr

/-- The window of a key. -/
def CacheKey.window (key : CacheKey) : Window :=
  match timeRange key.startTime key.endTime with
  | .ok w => w
  | .error _ => ⟨"", ""⟩

/-- Everything a process keeps: the files, with the flags and the worker of each, the file of the
service, and the results. -/
structure Service (Verdict : Type) where
  files : ℕ → Tables
  current : ℕ
  nextFile : ℕ
  backfill : ℕ → BackfillState := fun _ => {}
  workers : ℕ → Option BackfillPhase := fun _ => none
  cache : Dict CacheKey (Assessment Verdict) := .empty

/-- `_ASSESSMENT_CACHE_MAX`. -/
def assessmentCacheMax : ℕ := 32

section Calls
variable {Verdict : Type} (parser : Option Parser) (registry : Bool) (rating : Rating Verdict)

namespace Service
variable (s : Service Verdict)

def setTables (file : ℕ) (tables : Tables) : Service Verdict :=
  { s with files := Function.update s.files file tables }

/-- A new log: in a new file, or in place of the tables of the current one. -/
def replaceLog (tables : Tables) : Service Verdict :=
  if registry then
    { s with
      files := Function.update s.files s.nextFile tables
      current := s.nextFile
      nextFile := s.nextFile + 1 }
  else s.setTables s.current tables

def startWorker (file : ℕ) : Service Verdict :=
  { s with
    backfill := Function.update s.backfill file { s.backfill file with running := true }
    workers := Function.update s.workers file (some (.nids 0)) }

/-- `request_backfill`. -/
def requestBackfill (file : ℕ) : Service Verdict :=
  if (s.backfill file).running ∨ (s.backfill file).done then s else s.startWorker file

/-- The backfill is requested where a window cannot use the columns. -/
def requestUnlessReady (file : ℕ) (w : Window) : Service Verdict :=
  if sqlPathReady (s.backfill file) (s.files file) w then s else s.requestBackfill file

/-- The next transaction of the worker of a file, or its end. -/
def backfillStep (file : ℕ) (phase : BackfillPhase) : Service Verdict :=
  let tables := s.files file
  let batch := phase.batch tables.frames
  match phase.next batch with
  | some phase' =>
    { s.setTables file { tables with frames := updateRows phase.write batch tables.frames } with
      workers := Function.update s.workers file (some phase') }
  | none =>
    { s with
      backfill := Function.update s.backfill file ⟨false, true⟩
      workers := Function.update s.workers file none }

/-- An exception in the worker. -/
def backfillFails (file : ℕ) : Service Verdict :=
  { s with
    backfill := Function.update s.backfill file { s.backfill file with running := false }
    workers := Function.update s.workers file none }

/-- The window and the network of a call. The text of the network is looked at first. -/
def assessmentQuery (tables : Tables) (startTime endTime nidText : String) :
    PyM (Window × Option ℕ) := do
  let rows := match timeRange startTime endTime with
    | .ok w => tables.window w
    | .error _ => []
  let nid ← resolveAssessmentNid rows nidText
  let w ← timeRange startTime endTime
  pure (w, nid)

/-- A result is put in; of 32 results the oldest goes. -/
def remember (cache : Dict CacheKey (Assessment Verdict)) (key : CacheKey)
    (result : Assessment Verdict) : Dict CacheKey (Assessment Verdict) :=
  match cache.entries with
  | [] => cache.set key result
  | oldest :: _ =>
    if cache.entries.length ≥ assessmentCacheMax then (cache.erase oldest.1).set key result
    else cache.set key result

/-- `list_beacon_periods` of a file. -/
def listBeaconPeriods (file : ℕ) (startTime endTime nidText : String) :
    PyM (Assessment Verdict) × Service Verdict :=
  let tables := s.files file
  match assessmentQuery tables startTime endTime nidText with
  | .error e => (.error e, s)
  | .ok (w, nid) =>
    let key : CacheKey := ⟨file, startTime, endTime, nid, framesMaxId (tables.window w)⟩
    match s.cache.get? key with
    | some cached => (.ok cached, s)
    | none =>
      let result := freshAssessment rating (s.backfill file) tables w nid
      (.ok result, { s.requestUnlessReady file w with cache := remember s.cache key result })

/-- What the call returns where nothing is cached. -/
def freshResult (file : ℕ) (startTime endTime nidText : String) : PyM (Assessment Verdict) := do
  let (w, nid) ← assessmentQuery (s.files file) startTime endTime nidText
  pure (freshAssessment rating (s.backfill file) (s.files file) w nid)

end Service

inductive ServiceEvent
  | appendFrames (state : Option MinuteState) (records : List LogRecord)
  | indexFile (lines : List Bytes)
  | resetIndex
  | listBeaconPeriods (index : Option ℕ) (startTime endTime nidText : String)
  | backfillStep (file : ℕ)
  | backfillFails (file : ℕ)

/-- `open_index`: the file of a call; other files than the current one need a registry. -/
def Service.openIndex (s : Service Verdict) : Option ℕ → Option ℕ
  | none => some s.current
  | some file => if registry ∧ file < s.nextFile then some file else none

/-- Only a worker that was started makes steps or fails. -/
def listenerService : Machine (Service Verdict) ServiceEvent where
  step s
    | .appendFrames state records =>
      some (s.setTables s.current (appendFrames parser (s.files s.current) state records).1.1)
    | .indexFile lines => some (s.replaceLog registry (indexFile parser lines).1)
    | .resetIndex => some (s.replaceLog registry {})
    | .listBeaconPeriods index startTime endTime nidText =>
      (s.openIndex registry index).map fun file =>
        (s.listBeaconPeriods rating file startTime endTime nidText).2
    | .backfillStep file => (s.workers file).map fun phase => s.backfillStep file phase
    | .backfillFails file => (s.workers file).map fun _ => s.backfillFails file

end Calls

end HplcWorkbench.ListenerLog
