import HplcWorkbench.AssessmentService
import HplcWorkbench.PrefixScan

/-!
# The scan for network events

`NwkService.refresh` decodes the frames of a file in batches. It keeps the events under the
identifiers of their frames, adds up what it counts, and remembers the last identifier that it read;
all three stand in tables of their own, which the log service does not know of. What `decode_frame`
makes of the text of a frame is a parameter.
-/

namespace HplcWorkbench.ListenerLog

open OrderedDict Transitions PrefixScan

/-! ## What is decoded -/

/-- An element of `events`. -/
structure NetworkEvent where
  event : String
  name : String
  direction : String
  srcTei : String
  dstTei : String
  summary : String
  fields : Params

/-- `Msdu`, as far as the scan looks at it. -/
structure MsduCheck where
  icvOk : Option Bool
  truncated : Bool

/-- `DualMacFrame`, as far as the scan looks at it. Every branch of `extract_events` returns at most
one event. -/
structure DualMacFrame where
  nidHex : String
  delimiter : ℕ
  fchVariable : Params := []
  hasBeacon : Bool := false
  msduType : Option ℕ := none
  msdu : Option MsduCheck := none
  events : List NetworkEvent := []
  single : events.length ≤ 1 := by decide

/-- `decode_frame`, `none` where it raises. -/
abbrev FrameDecoder := String → Option DualMacFrame

/-! ## Levels -/

inductive EventLevel
  | alarm
  | watch
  | normal
  deriving DecidableEq, Repr

/-- `_EVENT_LEVELS`. -/
def eventLevels : List (String × EventLevel) :=
  [("leave_ind", .alarm), ("nid_conflict", .alarm), ("rf_conflict", .alarm), ("route_error", .alarm),
    ("proxy_change_req", .watch), ("proxy_change_cnf", .watch), ("coord_frame", .watch)]

/-- `v in _ASSOC_OK_RSLT`. -/
def assocOk (v : PyVal) : Bool := v.eqInt 0 || v.eqInt 10

/-- `isinstance(up, (int, float)) and up < _SUCCESS_RATE_BAD`. -/
def successRateBad : PyVal → Bool
  | .int n => n < 90
  | .bool _ => true
  | .scaled mantissa scale => mantissa < 90 * 10 ^ scale
  | _ => false

/-- `classify_level`. -/
def classifyLevel (event : String) (fields : Params) : PyM EventLevel :=
  match eventLevels.lookup event with
  | some level => pure level
  | none =>
    if event = "assoc_cnf" then
      let rslt := Params.get fields "rslt"
      pure (if !rslt.isNone && !assocOk rslt then .alarm else .normal)
    else if event ∈ ["beacon_central", "beacon_proxy", "beacon_discover"] then
      pure (match Params.get fields "bpcs_ok" with
        | .bool false => .alarm
        | _ => .normal)
    else if event = "success_rate" then do
      let entries ← (Params.get fields "entries").orEmpty.elems
      let rec anyBad : List PyVal → PyM EventLevel
        | [] => pure .normal
        | entry :: rest => do
          let entry ← entry.asDict
          if successRateBad (Params.get entry "up") then pure .watch else anyBad rest
      anyBad entries
    else pure .normal

/-! ## The tables of the scan -/

/-- A row of `nwk_events`, without the identifier of its frame. -/
structure EventRow where
  logTime : String
  nid : String
  event : String
  name : String
  direction : String
  srcTei : String
  dstTei : String
  summary : String
  fields : Params
  level : EventLevel

/-- `counters`. -/
structure Counters where
  frames : ℕ := 0
  mgmt : ℕ := 0
  app : ℕ := 0
  beacon : ℕ := 0
  sack : ℕ := 0
  sackFail : ℕ := 0
  coord : ℕ := 0
  icvFail : ℕ := 0
  truncated : ℕ := 0
  decodeFail : ℕ := 0
  deriving DecidableEq, Repr

def Counters.add (a b : Counters) : Counters where
  frames := a.frames + b.frames
  mgmt := a.mgmt + b.mgmt
  app := a.app + b.app
  beacon := a.beacon + b.beacon
  sack := a.sack + b.sack
  sackFail := a.sackFail + b.sackFail
  coord := a.coord + b.coord
  icvFail := a.icvFail + b.icvFail
  truncated := a.truncated + b.truncated
  decodeFail := a.decodeFail + b.decodeFail

/-- `nwk_events` and `nwk_scan_state`. -/
structure NwkTables where
  events : Dict ℕ EventRow := .empty
  lastFrameId : ℕ := 0
  counters : Counters := {}

section Scan
variable (decode : FrameDecoder)

/-- What `_consume` adds to the counters. -/
def tally (parsed : DualMacFrame) : Counters :=
  if parsed.delimiter = 2 then
    { frames := 1, sack := 1
      sackFail := if (Params.get parsed.fchVariable "recv_result").truthy then 1 else 0 }
  else
    { frames := 1
      beacon := if parsed.delimiter = 0 ∧ parsed.hasBeacon then 1 else 0
      coord := if parsed.delimiter = 3 then 1 else 0
      mgmt := if parsed.msduType = some 0 then 1 else 0
      app := if parsed.msduType = some 48 then 1 else 0
      icvFail := if parsed.msdu.any fun m => m.icvOk = some false then 1 else 0
      truncated := if parsed.msdu.any fun m => m.truncated then 1 else 0 }

/-- The row of an event. -/
def eventRow (row : FrameRow) (parsed : DualMacFrame) (ev : NetworkEvent) : PyM EventRow := do
  let level ← classifyLevel ev.event ev.fields
  pure ⟨row.logTime, parsed.nidHex, ev.event, ev.name, ev.direction, ev.srcTei, ev.dstTei, ev.summary,
    ev.fields, level⟩

/-- `INSERT OR REPLACE INTO nwk_events` for the events of a frame. -/
def insertEvents (row : FrameRow) (parsed : DualMacFrame) (events : Dict ℕ EventRow) :
    List NetworkEvent → PyM (Dict ℕ EventRow)
  | [] => pure events
  | ev :: rest => do insertEvents row parsed (events.set row.id (← eventRow row parsed ev)) rest

/-- `_consume`. -/
def consume (s : Dict ℕ EventRow × Counters) (row : FrameRow) : PyM (Dict ℕ EventRow × Counters) :=
  match decode row.rawHex with
  | none => pure (s.1, s.2.add { frames := 1, decodeFail := 1 })
  | some parsed =>
    if parsed.delimiter = 2 then pure (s.1, s.2.add (tally parsed))
    else do
      let events ← insertEvents row parsed s.1 parsed.events
      pure (events, s.2.add (tally parsed))

/-- The loop over a batch. -/
def consumeAll (s : Dict ℕ EventRow × Counters) :
    List FrameRow → PyM (Dict ℕ EventRow × Counters)
  | [] => pure s
  | row :: rest => do consumeAll (← consume decode s row) rest

/-- What `refresh` returns. -/
structure RefreshReport where
  scanned : ℕ
  lastFrameId : ℕ
  pending : Bool
  deriving DecidableEq, Repr

/-- `MAX_SCAN_PER_CALL`. -/
def maxScanPerCall : ℕ := 20000

/-- `LIMIT max_frames or MAX_SCAN_PER_CALL`; a negative limit is none. -/
def limitRows (maxFrames : Option ℤ) (rows : List FrameRow) : List FrameRow :=
  match maxFrames with
  | none => rows.take maxScanPerCall
  | some n => if n = 0 then rows.take maxScanPerCall else if n < 0 then rows else rows.take n.toNat

/-- `refresh` of one file. What is counted in a batch starts at zero and is added to the stored row;
an exception leaves the tables as they are. -/
def refreshTables (tables : Tables) (nwk : NwkTables) (maxFrames : Option ℤ) :
    PyM (RefreshReport × NwkTables) := do
  let batch := limitRows maxFrames (after FrameRow.id nwk.lastFrameId tables.frames)
  let (events, counters) ← consumeAll decode (nwk.events, {}) batch
  let lastFrame := position FrameRow.id nwk.lastFrameId batch
  pure (⟨batch.length, lastFrame, lastFrame < framesMaxId tables.frames⟩,
    ⟨events, lastFrame, nwk.counters.add counters⟩)

/-! ## Runs -/

/-- The listener service with the tables of the scan in each of its files. -/
structure ScannedService (Verdict : Type) where
  service : Service Verdict
  nwk : ℕ → NwkTables

inductive ScanEvent
  | service (e : ServiceEvent)
  | refresh (index : Option ℕ) (maxFrames : Option ℤ)

variable {Verdict : Type} (parser : Option Parser) (registry : Bool) (rating : Rating Verdict)

/-- The tables of a file after a refresh. -/
def ScannedService.refresh (s : ScannedService Verdict) (file : ℕ) (maxFrames : Option ℤ) :
    ScannedService Verdict :=
  match refreshTables decode (s.service.files file) (s.nwk file) maxFrames with
  | .error _ => s
  | .ok (_, nwk) => { s with nwk := Function.update s.nwk file nwk }

def scannedService : Machine (ScannedService Verdict) ScanEvent where
  step s
    | .service e =>
      ((listenerService parser registry rating).step s.service e).map fun service => { s with service }
    | .refresh index maxFrames =>
      (s.service.openIndex registry index).map fun file => s.refresh decode file maxFrames

end Scan

end HplcWorkbench.ListenerLog
