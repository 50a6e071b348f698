import HplcWorkbench.ListenerLog
import HplcWorkbench.OrderedDict
import Mathlib.Data.List.Sort

/-!
# The assessment of networks

One accumulator for each network identifier collects frame types, arrival times, beacon samples and
the fields that the detail texts carry. `assess_by_network_stream` fills the accumulators from the
frames one by one; `assess_by_network_aggregate` fills them from counts, from the rows with a detail
text and from buckets that the database has already counted. Reading a detail text, the estimate of
a period from gaps and the rating of a network are the same functions on both sides and are
parameters here. Durations are in milliseconds, confidences in thousandths.
-/

namespace HplcWorkbench.ListenerLog

open OrderedDict

/-! ## Time -/

/-- `_AbsTimeTracker`. -/
structure TimeTracker where
  dayOffset : ℕ := 0
  prevClockMs : Option ℕ := none
  deriving DecidableEq

/-- `abs_ms`. -/
def TimeTracker.absMs (t : TimeTracker) (logTime : String) : Option ℕ × TimeTracker :=
  match parseTimeMs logTime with
  | none => (none, t)
  | some clock =>
    let rolled := t.prevClockMs.any fun prev => clock + 12 * 3600000 < prev
    let dayOffset := if rolled then t.dayOffset + 1 else t.dayOffset
    (some (dayOffset * 86400000 + clock), ⟨dayOffset, some clock⟩)

/-- `abs_ms` text by text; `_absolute_ms` counts alike. -/
def absoluteMs (t : TimeTracker) : List String → List (Option ℕ)
  | [] => []
  | text :: rest => (t.absMs text).1 :: absoluteMs (t.absMs text).2 rest

/-! ## What a detail text and a network are read and rated by -/

structure SlotFields where
  beaconPeriodMs : ℕ
  beaconSlotMs : ℕ
  rfBeaconSlotMs : ℕ
  csmaSlotMs : ℕ
  deriving DecidableEq, Repr

structure RouteFields where
  routeEstimateS : ℕ
  pcoSuccessCount : Option ℕ
  deriving DecidableEq, Repr

structure ChannelFields where
  channel : Option ℕ
  remainS : Option ℕ
  deriving DecidableEq, Repr

/-- A row of `_iter_assessment_records`. -/
structure AssessmentRecord where
  timeSeconds : ℕ
  stationKey : String
  responseResult : PyVal
  reportCount : PyVal
  applicationError : PyVal
  nid : Option ℕ

inductive Level
  | healthy
  | degraded
  | fault
  deriving DecidableEq, Repr

/-- Counts of frame types, bucket by bucket. -/
abbrev Buckets := Dict ℤ (Dict String ℕ)

/-- What the rating of one network looks at. -/
structure RatingInput where
  frmCounts : Dict String ℕ
  durationMs : ℕ
  slotFields : List SlotFields
  routeFields : List RouteFields
  channelFields : List ChannelFields
  beaconPeriodMs : Option ℕ
  buckets : Buckets
  records : List AssessmentRecord

/-- The three `extract_…_fields`, `_estimate_period`, and the cycles and the summary that
`_finalize_networks` derives, with the health that the summary names. -/
structure Rating (Verdict : Type) where
  extractSlotFields : String → Option SlotFields
  extractRouteFields : String → Option RouteFields
  extractChannelFields : String → Option ChannelFields
  estimatePeriod : List ℕ → Option (ℕ × ℕ)
  verdict : RatingInput → Verdict
  overallHealth : Verdict → Level

/-! ## The accumulator of a network -/

/-- `_NetworkAccumulator`. -/
structure NetworkAccumulator where
  frmCounts : Dict String ℕ := .empty
  timeline : List (ℕ × String) := []
  beaconParams : List ℕ := []
  slotFields : List SlotFields := []
  routeFields : List RouteFields := []
  channelFields : List ChannelFields := []
  beaconSamples : List (ℕ × ℕ) := []
  sofTimes : List ℕ := []
  ccoMac : Option String := none

/-- `counter[key] = counter.get(key, 0) + n`. -/
def addCount {κ : Type} [DecidableEq κ] (counts : Dict κ ℕ) (key : κ) (n : ℕ) : Dict κ ℕ :=
  counts.set key ((counts.get? key).getD 0 + n)

/-- `FRMTYPE_CENTRAL_BEACON_ALIASES`. -/
def centralBeaconAliases : List String := ["广播信标", "中央信标"]

/-- `_is_beacon_candidate`. -/
def isBeaconCandidate (frm : String) : Bool := frm ∈ centralBeaconAliases || frm = "UNKNOWN"

/-- `statistics.mode`: of the most frequent values the first. -/
def mode (values : List ℕ) : Option ℕ :=
  values.foldl (fun best v =>
    match best with
    | none => some v
    | some b => if values.count v > values.count b then some v else some b) none

/-- `_inter_arrival_gaps`. -/
def interArrivalGaps (prev : Option (ℕ × Option ℕ)) : List (ℕ × Option ℕ) → List ℕ
  | [] => []
  | (absMs, key) :: rest =>
    match prev with
    | none => interArrivalGaps (some (absMs, key)) rest
    | some (prevMs, prevKey) =>
      let sameTransmission := key ≠ none ∧ prevKey = key ∧ absMs < prevMs + 800
      if sameTransmission then interArrivalGaps prev rest
      else if prevMs < absMs then (absMs - prevMs) :: interArrivalGaps (some (absMs, key)) rest
      else interArrivalGaps (some (absMs, key)) rest

/-- `method`. -/
inductive ScanMethod
  | beaconParam
  | centralBeacon
  | sofCluster
  | undetected
  deriving DecidableEq, Repr

structure BeaconScan where
  beaconPeriodMs : Option ℕ := none
  confidence : ℕ := 0
  method : ScanMethod := .undetected
  sampleCount : ℕ := 0
  intervalCount : ℕ := 0
  deriving DecidableEq, Repr

/-- Of the samples with one count the first. -/
def firstSamples (seen : List ℕ) : List (ℕ × ℕ) → List (ℕ × ℕ)
  | [] => []
  | (absMs, cnt) :: rest =>
    if cnt ∈ seen then firstSamples seen rest
    else (absMs, cnt) :: firstSamples (cnt :: seen) rest

section Accumulator
variable {Verdict : Type} (rating : Rating Verdict)

namespace NetworkAccumulator
variable (acc : NetworkAccumulator)

def countFrame (absMs : Option ℕ) (frm : String) : NetworkAccumulator :=
  let acc := { acc with frmCounts := addCount acc.frmCounts frm 1 }
  match absMs with
  | none => acc
  | some ms =>
    { acc with
      timeline := acc.timeline ++ [(ms, frm)]
      sofTimes := if frm ∈ centralBeaconAliases then acc.sofTimes ++ [ms] else acc.sofTimes }

def addDetail (detail : String) : NetworkAccumulator :=
  if detail = "" then acc
  else
    { acc with
      slotFields := acc.slotFields ++ (rating.extractSlotFields detail).toList
      routeFields := acc.routeFields ++ (rating.extractRouteFields detail).toList
      channelFields := acc.channelFields ++ (rating.extractChannelFields detail).toList }

def addBeacon (absMs : Option ℕ) (frame : Option DecodedFrame) (detail : String) : NetworkAccumulator :=
  let slot := if detail = "" then none else rating.extractSlotFields detail
  let params := (slot.toList.map SlotFields.beaconPeriodMs).filter (0 < ·)
  let acc := { acc with beaconParams := acc.beaconParams ++ params }
  match frame, absMs with
  | some frame, some ms =>
    match extractBeaconFields frame with
    | none => acc
    | some fields =>
      { acc with
        ccoMac := some fields.mac
        beaconSamples := acc.beaconSamples ++ [(ms, fields.cnt)] }
  | _, _ => acc

/-- `duration_s`. -/
def durationMs : ℕ :=
  let values := acc.timeline.map Prod.fst
  (values.foldl max 0) - (values.foldl min (values.headD 0))

/-- `scan`. -/
def scan : BeaconScan :=
  let param := (mode acc.beaconParams).filter fun p => 500 ≤ p ∧ p ≤ 120000
  match param with
  | some p =>
    { beaconPeriodMs := some p
      confidence := min 1000 (125 * acc.beaconParams.length)
      method := .beaconParam
      sampleCount := acc.beaconParams.length }
  | none =>
    let sorted := acc.beaconSamples.insertionSort fun a b => a.1 ≤ b.1
    let deduped := firstSamples [] sorted
    let gaps := interArrivalGaps none (deduped.map fun s => (s.1, some s.2))
    match rating.estimatePeriod gaps with
    | some (p, confidence) => ⟨some p, confidence, .centralBeacon, deduped.length, gaps.length⟩
    | none =>
      let sof := acc.sofTimes.insertionSort (· ≤ ·)
      let gaps := interArrivalGaps none (sof.map fun t => (t, none))
      match rating.estimatePeriod gaps with
      | some (p, confidence) => ⟨some p, confidence, .sofCluster, sof.length, gaps.length⟩
      | none => {}

/-- `bucket_counters`. -/
def bucketCounters (periodMs : ℕ) : Buckets :=
  acc.timeline.foldl (fun buckets entry =>
    let start : ℤ := ↑(entry.1 - entry.1 % periodMs)
    buckets.set start (addCount ((buckets.get? start).getD .empty) entry.2 1)) .empty

end NetworkAccumulator

/-! ## The result -/

/-- An element of `networks`. -/
structure Network (Verdict : Type) where
  nid : ℕ
  ccoMac : Option String
  scan : BeaconScan
  frameCount : ℕ
  recordCount : ℕ
  activeStaCount : ℕ
  verdict : Verdict

/-- The dict that both entries return, without the engine label. -/
structure Assessment (Verdict : Type) where
  networks : List (Network Verdict)
  beaconPeriodMs : Option ℕ
  overallHealth : Level
  sessionDurationMs : Option ℕ
  frameTotal : ℕ
  unassignedFrameCount : ℕ
  filteredFrameCount : ℕ
  unassignedRecordCount : ℕ

/-- `_aggregate_level`. -/
def aggregateLevel (levels : List Level) : Level :=
  if .fault ∈ levels then .fault else if .degraded ∈ levels then .degraded else .healthy

/-- The accumulators, in the order in which the networks first appeared. -/
abbrev Accumulators := Dict ℕ NetworkAccumulator

/-- `accs.get(nid)`, or a fresh accumulator that is put into the dict. -/
def Accumulators.change (accs : Accumulators) (nid : ℕ)
    (f : NetworkAccumulator → NetworkAccumulator) : Accumulators :=
  accs.set nid (f ((accs.get? nid).getD {}))

/-- The numbers that the entries hand to `_finalize_networks`. -/
structure Totals where
  frameTotal : ℕ
  unassigned : ℕ
  filtered : ℕ

/-- One network of `_finalize_networks`. -/
def finalizeNetwork (records : List AssessmentRecord) (sessionDurationMs : Option ℕ)
    (bucketResolver : ℕ → NetworkAccumulator → ℕ → Buckets) (nid : ℕ) (acc : NetworkAccumulator) :
    Network Verdict :=
  let group := records.filter fun r => r.nid = some nid
  let activeSta := ((group.map AssessmentRecord.stationKey).filter (· ≠ "")).dedup
  let scan := acc.scan rating
  let buckets :=
    match scan.beaconPeriodMs with
    | some period => bucketResolver nid acc period
    | none => .empty
  { nid
    ccoMac := acc.ccoMac
    scan
    frameCount := (acc.frmCounts.entries.map Prod.snd).sum
    recordCount := group.length
    activeStaCount := activeSta.length
    verdict := rating.verdict
      { frmCounts := acc.frmCounts
        durationMs := sessionDurationMs.getD acc.durationMs
        slotFields := acc.slotFields
        routeFields := acc.routeFields
        channelFields := acc.channelFields
        beaconPeriodMs := scan.beaconPeriodMs
        buckets
        records := group } }

/-- `_finalize_networks`. -/
def finalizeNetworks (accs : Accumulators) (records : List AssessmentRecord)
    (sessionDurationMs : Option ℕ) (bucketResolver : ℕ → NetworkAccumulator → ℕ → Buckets)
    (totals : Totals) : Assessment Verdict :=
  let networks := (accs.entries.map fun e =>
    finalizeNetwork rating records sessionDurationMs bucketResolver e.1 e.2).insertionSort
      fun a b => a.nid ≤ b.nid
  { networks
    beaconPeriodMs := mode (networks.filterMap fun n => n.scan.beaconPeriodMs)
    overallHealth := aggregateLevel (networks.map fun n => rating.overallHealth n.verdict)
    sessionDurationMs
    frameTotal := totals.frameTotal
    unassignedFrameCount := totals.unassigned
    filteredFrameCount := totals.filtered
    unassignedRecordCount := (records.filter fun r => r.nid = none).length }

/-! ## Frame by frame -/

/-- A row of `_iter_full_frame_rows`. -/
structure StreamRow where
  logTime : String
  rawHex : String
  summary : Option Params

/-- The network of a frame: the identifier of its summary, else that of its control header. -/
def StreamRow.nid (row : StreamRow) : Option ℕ :=
  (parseSummaryFields row.summary).snidInt.or (extractNid row.rawHex)

/-- The frame type of a frame; an empty one counts as unknown. -/
def StreamRow.frm (row : StreamRow) : String :=
  let frm := (parseSummaryFields row.summary).frmType
  if frm = "" then "UNKNOWN" else frm

/-- The local variables of `assess_by_network_stream`. -/
structure StreamState where
  accs : Accumulators := .empty
  counted : ℕ := 0
  unassigned : ℕ := 0
  filtered : ℕ := 0
  tracker : TimeTracker := {}

/-- What a frame of a network does to the accumulator of the network. -/
def StreamRow.collect (row : StreamRow) (absMs : Option ℕ) (acc : NetworkAccumulator) :
    NetworkAccumulator :=
  let frm := row.frm
  let detail := (parseSummaryFields row.summary).detail
  let acc := acc.countFrame absMs frm
  let acc := acc.addDetail rating detail
  if isBeaconCandidate frm then acc.addBeacon rating absMs (decodeFrame row.rawHex) detail else acc

/-- The body of the loop. -/
def streamRow (nidFilter : Option ℕ) (s : StreamState) (row : StreamRow) : StreamState :=
  if row.logTime = "" then s
  else
    let s := { s with counted := s.counted + 1 }
    match row.nid with
    | none => { s with unassigned := s.unassigned + 1 }
    | some nid =>
      if nidFilter.any (nid ≠ ·) then { s with filtered := s.filtered + 1 }
      else
        let (absMs, tracker) := s.tracker.absMs row.logTime
        { s with tracker, accs := s.accs.change nid (row.collect rating absMs) }

/-- `assess_by_network_stream` of full rows. -/
def assessByNetworkStream (rows : List StreamRow) (records : List AssessmentRecord)
    (sessionDurationMs nidFilter : Option ℕ) : Assessment Verdict :=
  let s := rows.foldl (streamRow rating nidFilter) {}
  finalizeNetworks rating s.accs records sessionDurationMs
    (fun _ acc period => acc.bucketCounters period) ⟨s.counted, s.unassigned, s.filtered⟩

/-! ## From what the database has counted -/

/-- A row of `_agg_detail_rows`. -/
structure DetailRow extends StreamRow where
  column : Option ℕ
  frmType : Option String

/-- A row of `_agg_central_rows`. -/
structure CentralRow where
  logTime : String
  rawHex : String

/-- `frm or "UNKNOWN"`. -/
def frmKey (frm : Option String) : String :=
  match frm with
  | none => "UNKNOWN"
  | some frm => if frm = "" then "UNKNOWN" else frm

/-- The loop over the counts. -/
def collectCounts (nidFilter : Option ℕ) (accs : Accumulators)
    (row : Option ℕ × Option String × ℕ) : Accumulators :=
  match row.1 with
  | none => accs
  | some nid =>
    if nidFilter.any (nid ≠ ·) then accs
    else accs.change nid fun acc =>
      { acc with frmCounts := addCount acc.frmCounts (frmKey row.2.1) row.2.2 }

/-- The loop over the rows with a detail text. -/
def collectDetail (nidFilter : Option ℕ) (s : Accumulators × TimeTracker) (row : DetailRow) :
    Accumulators × TimeTracker :=
  match row.column with
  | none => s
  | some nid =>
    if nidFilter.any (nid ≠ ·) then s
    else
      let detail := (parseSummaryFields row.summary).detail
      if isBeaconCandidate (frmKey row.frmType) ∧ row.rawHex ≠ "" then
        let (absMs, tracker) := s.2.absMs row.logTime
        (s.1.change nid fun acc =>
          (acc.addDetail rating detail).addBeacon rating absMs (decodeFrame row.rawHex) detail, tracker)
      else (s.1.change nid fun acc => acc.addDetail rating detail, s.2)

/-- The loop over the central beacons without a detail text. -/
def collectCentral (nidFilter : Option ℕ) (s : Accumulators × TimeTracker) (row : CentralRow) :
    Accumulators × TimeTracker :=
  match decodeFrame row.rawHex with
  | none => s
  | some frame =>
    if nidFilter.any (frame.nid ≠ ·) then s
    else
      let (absMs, tracker) := s.2.absMs row.logTime
      (s.1.change frame.nid fun acc => acc.addBeacon rating absMs (some frame) "", tracker)

/-- A row of `_agg_bucket_rows`: network, frame type, bucket and count. -/
abbrev BucketRow := ℕ × Option String × ℤ × ℕ

/-- The rows of one network in one period, as `sql_buckets` merges them. -/
def mergeBuckets (nid : ℕ) (rows : List BucketRow) : Buckets :=
  (rows.filter fun r => r.1 = nid).foldl (fun buckets r =>
    buckets.set r.2.2.1
      (addCount ((buckets.get? r.2.2.1).getD .empty) (frmKey r.2.1) r.2.2.2)) .empty

/-- `assess_by_network_aggregate`, with the exact totals that its caller passes. -/
def assessByNetworkAggregate (counts : List (Option ℕ × Option String × ℕ)) (details : List DetailRow)
    (centrals : List CentralRow) (bucketRows : ℕ → List BucketRow) (records : List AssessmentRecord)
    (sessionDurationMs nidFilter : Option ℕ) (frameTotal unassignedTotal : ℕ) : Assessment Verdict :=
  let accs := counts.foldl (collectCounts nidFilter) .empty
  let s := details.foldl (collectDetail rating nidFilter) (accs, {})
  let s := centrals.foldl (collectCentral rating nidFilter) s
  finalizeNetworks rating s.1 records sessionDurationMs
    (fun nid _ period => mergeBuckets nid (bucketRows period)) ⟨frameTotal, unassignedTotal, 0⟩

end Accumulator

end HplcWorkbench.ListenerLog
