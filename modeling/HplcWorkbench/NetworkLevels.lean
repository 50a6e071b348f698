import HplcWorkbench.NetworkAssessment
import HplcWorkbench.KeyedFolds
import Mathlib.Data.Rat.Floor
import Mathlib.Algebra.Order.Field.Rat

/-!
# The levels of a network

The central beacons carry the division of a beacon period, the time until the routes are rated again
and the changes of the radio channel in a text, from which these numbers are searched. Where no text
names the period it is estimated from the gaps between the beacons.

A network is rated in four dimensions: how stable it is, how its beacon periods are divided, how its
routes and channels change and how densely its frames follow each other. Its cycles take their level
from three of these, and the rates of the minute reports are put into the cycles afterwards. Rates
and ratios are fractions here; the source computes them in floating point.
-/

namespace HplcWorkbench.ListenerLog

open Adapter10376 (pySpace)
open OrderedDict

/-! ## Searching a text -/

namespace DetailText

/-- The rest of a text behind a literal one. -/
def after (literal : String) (cs : List Char) : Option (List Char) :=
  if literal.toList <+: cs then some (cs.drop literal.length) else none

/-- `(\d+)`. -/
def digits (cs : List Char) : Option (ℕ × List Char) :=
  let number := cs.takeWhile Char.isDigit
  if number = [] then none else (digitsInt number).map fun n => (n, cs.dropWhile Char.isDigit)

/-- `[:：]`. -/
def colon : List Char → Option (List Char)
  | c :: rest => if c = ':' ∨ c = '：' then some rest else none
  | [] => none

/-- `\s*[sS秒]`. -/
def seconds (cs : List Char) : Bool :=
  match cs.dropWhile pySpace with
  | c :: _ => c = 's' ∨ c = 'S' ∨ c = '秒'
  | [] => false

/-- `re.search`. -/
def search {α : Type} (read : List Char → Option α) (cs : List Char) : Option α :=
  cs.tails.findSome? read

/-- A name, a colon and a number. -/
def labelled (label : String) (cs : List Char) : Option (ℕ × List Char) := do
  digits (← colon (← after label cs))

/-- A name, a colon and a number of seconds. -/
def labelledSeconds (label : String) (cs : List Char) : Option ℕ := do
  let (n, rest) ← labelled label cs
  if seconds rest then some n else none

/-- `_SLOT_CONFIG_RE`. -/
def slotConfig (cs : List Char) : Option SlotFields := do
  let cs ← after "时隙" cs
  let cs ← (after "分配" cs).or (after "配置" cs)
  let (beaconPeriodMs, cs) ← digits (← after "[信标周期" cs)
  let (beaconSlotMs, cs) ← digits (← after "ms 信标时隙长度" cs)
  let (rfBeaconSlotMs, cs) ← digits (← after "ms RF信标时隙长度" cs)
  let (csmaSlotMs, cs) ← digits (← after "ms CSMA时隙大小" cs)
  let _ ← after "ms]" cs
  pure { beaconPeriodMs, beaconSlotMs, rfBeaconSlotMs, csmaSlotMs }

/-- `_CHANNEL_CHANGE_BRACKET_RE`: what stands in the brackets. -/
def channelChange (cs : List Char) : Option (List Char) := do
  let cs ← (after "信道变更[" cs).or (after "无线信道变更[" cs)
  if ']' ∈ cs then some (cs.takeWhile (· ≠ ']')) else none

/-- `_CHANNEL_MARKERS`. -/
def channelMarkers : List String := ["信道变更", "无线信道变更", "信道切换"]

end DetailText

open DetailText

/-- `extract_slot_fields`. -/
def extractSlotFields (detail : String) : Option SlotFields :=
  (search slotConfig detail.toList).filter fun fields => 0 < fields.beaconPeriodMs

/-- `extract_route_fields`. -/
def extractRouteFields (detail : String) : Option RouteFields :=
  (search (labelledSeconds "路由评估剩余时间") detail.toList).map fun routeEstimateS =>
    { routeEstimateS
      pcoSuccessCount := (search (labelled "经PCO通信成功数") detail.toList).map Prod.fst }

/-- `extract_channel_fields`. -/
def extractChannelFields (detail : String) : Option ChannelFields :=
  match search channelChange detail.toList with
  | some inner =>
    some
      { channel := (search (labelled "信道") inner).map Prod.fst
        remainS := (search (labelled "剩余") inner).map Prod.fst }
  | none =>
    match search (labelledSeconds "信道切换剩余时间") detail.toList with
    | some remainS => some { channel := none, remainS := some remainS }
    | none =>
      -- the name of a change alone counts as one
      if channelMarkers.any fun marker => contains marker.toList detail.toList then
        some { channel := none, remainS := none }
      else none

/-! ## The period between the beacons -/

/-- `round(x)`: of two integers that are equally near the even one. -/
def roundHalfEven (x : ℚ) : ℤ :=
  let below := ⌊x⌋
  let part := x - below
  if part < 1 / 2 then below
  else if 1 / 2 < part then below + 1
  else if below % 2 = 0 then below else below + 1

/-- `statistics.median` of numbers in order. -/
def median (sorted : List ℕ) : ℚ :=
  let half := sorted.length / 2
  if sorted.length % 2 = 1 then sorted.getD half 0
  else (sorted.getD (half - 1) 0 + sorted.getD half 0 : ℚ) / 2

/-- The gaps in bins of 200 ms, in the order in which the bins first appear. -/
def gapBins (gaps : List ℕ) : Dict ℕ (List ℕ) :=
  gaps.foldl (fun counts g =>
    let bucket := g / 200 * 200
    counts.set bucket ((counts.get? bucket).getD [] ++ [g])) .empty

/-- Of the largest bins the one next to two seconds, of two such the first. -/
def bestBin (bins : Dict ℕ (List ℕ)) : Option (ℕ × List ℕ) :=
  bins.entries.foldl (fun best bin =>
    match best with
    | none => some bin
    | some b =>
      let far (e : ℕ × List ℕ) := |(e.1 : ℤ) - 2000|
      let better := b.2.length < bin.2.length ∨ b.2.length = bin.2.length ∧ far bin < far b
      if better then some bin else some b) none

/-- `_estimate_period`. The confidence of a cluster rests on a standard deviation in floating point
and is a parameter. -/
def estimatePeriod (confidence : List ℕ → ℕ → ℕ) (gaps : List ℕ) : Option (ℕ × ℕ) := do
  let valid := gaps.filter fun g => 1000 ≤ g ∧ g ≤ 10000
  if valid.length < 3 then none
  else
    let (_, cluster) ← bestBin (gapBins valid)
    let periodMs := (roundHalfEven (median (cluster.insertionSort (· ≤ ·)) / 100) * 100).toNat
    if 1000 ≤ periodMs ∧ periodMs ≤ 10000 then some (periodMs, confidence cluster periodMs) else none

theorem estimatePeriod_range {confidence : List ℕ → ℕ → ℕ} {gaps : List ℕ} {p c : ℕ}
    (h : estimatePeriod confidence gaps = some (p, c)) : 1000 ≤ p ∧ p ≤ 10000 := by
  unfold estimatePeriod at h
  dsimp only at h
  split at h
  · cases h
  · obtain ⟨⟨start, cluster⟩, -, hcluster⟩ := Option.bind_eq_some_iff.mp h
    dsimp only at hcluster
    split at hcluster
    · rename_i hrange
      cases hcluster
      exact hrange
    · cases hcluster

end HplcWorkbench.ListenerLog

namespace HplcWorkbench.ListenerLog

open OrderedDict

/-! ## Levels -/

/-- `{HEALTHY: 0, DEGRADED: 1, FAULT: 2}`. -/
def Level.rank : Level → ℕ
  | .healthy => 0
  | .degraded => 1
  | .fault => 2

theorem Level.rank_injective {a b : Level} (h : a.rank = b.rank) : a = b := by
  cases a <;> cases b <;> first | rfl | cases h

instance : LinearOrder Level where
  le a b := a.rank ≤ b.rank
  le_refl a := Nat.le_refl a.rank
  le_trans _ _ _ := Nat.le_trans
  le_antisymm _ _ hab hba := Level.rank_injective (Nat.le_antisymm hab hba)
  le_total a b := Nat.le_total a.rank b.rank
  toDecidableLE a b := inferInstanceAs (Decidable (a.rank ≤ b.rank))
  toDecidableEq := inferInstance

instance : OrderBot Level where
  bot := .healthy
  bot_le a := Nat.zero_le a.rank

/-- `max(levels, key=…)`, healthy of none. -/
def worstLevel (levels : List Level) : Level := levels.foldl max .healthy

/-- The part of `_classify` about the success rate. -/
def successLevel (rate : ℚ) : Level :=
  if 98 ≤ rate then .healthy else if 90 ≤ rate then .degraded else .fault

/-- The part of `_classify` about the offline rate. -/
def offlineLevel (rate : ℚ) : Level :=
  if rate ≤ 2 then .healthy else if rate ≤ 10 then .degraded else .fault

/-- `_classify`, without the text of the reason. -/
def classify (successRate offlineRate : Option ℚ) (stability slot routeChannel : Option Level) : Level :=
  worstLevel ((successRate.map successLevel).toList ++ (offlineRate.map offlineLevel).toList ++
    stability.toList ++ slot.toList ++ routeChannel.toList)

/-! ## Figures -/

/-- `round(x, 2)`. -/
def round2 (x : ℚ) : ℚ := roundHalfEven (x * 100) / 100

/-- `count * 100.0 / total if total else None`. -/
def percent (count total : ℕ) : Option ℚ := if total = 0 then none else some (count * 100 / total)

def mean (values : List ℚ) : Option ℚ :=
  if values = [] then none else some (values.sum / values.length)

/-- `sum(counter.values())`. -/
def totalCount (counts : Dict String ℕ) : ℕ := (counts.entries.map Prod.snd).sum

/-- `counts.get(key, 0)`. -/
def countOf (counts : Dict String ℕ) (key : String) : ℕ := (counts.get? key).getD 0

def beaconCount (counts : Dict String ℕ) : ℕ := (centralBeaconAliases.map (countOf counts)).sum

/-! ## The four dimensions -/

structure Stability where
  enabled : Bool
  assocCount : ℕ
  assocRatio : Option ℚ
  proxyChangeCount : ℕ
  proxyChangeRatio : Option ℚ
  level : Level

/-- `assess_stability`. Logs of up to two hours are counted and not rated. -/
def assessStability (frmCounts : Dict String ℕ) (durationMs : ℕ) : Stability :=
  let total := totalCount frmCounts
  let assocCount := countOf frmCounts "关联请求"
  let proxyChangeCount := countOf frmCounts "代理变更请求"
  let assocRatio := percent assocCount total
  let proxyChangeRatio := percent proxyChangeCount total
  let enabled := decide (7200000 < durationMs)
  { enabled
    assocCount
    assocRatio := assocRatio.map round2
    proxyChangeCount
    proxyChangeRatio := proxyChangeRatio.map round2
    level :=
      if enabled && (proxyChangeRatio.any (8 < ·) || assocRatio.any (5 < ·)) then .degraded
      else .healthy }

structure SlotUse where
  enabled : Bool
  csmaRatio : Option ℚ
  csmaSlotMs : Option ℕ
  beaconPeriodMs : Option ℕ
  sampleCount : ℕ
  beaconFrameCount : ℕ
  level : Level

/-- The ratio of the CSMA slot in a beacon period. -/
def SlotFields.csmaRatio (fields : SlotFields) : Option ℚ :=
  if fields.csmaSlotMs = 0 then none else percent fields.csmaSlotMs fields.beaconPeriodMs

/-- `assess_slot`. -/
def assessSlot (frmCounts : Dict String ℕ) (slotFields : List SlotFields) : SlotUse :=
  let fields := slotFields.filter fun f => f.beaconPeriodMs ≠ 0 ∧ f.csmaSlotMs ≠ 0
  let csmaRatio := mean (fields.filterMap SlotFields.csmaRatio)
  { enabled := fields ≠ []
    csmaRatio := csmaRatio.map round2
    csmaSlotMs := mode (fields.map SlotFields.csmaSlotMs)
    beaconPeriodMs := mode (fields.map SlotFields.beaconPeriodMs)
    sampleCount := fields.length
    beaconFrameCount := beaconCount frmCounts
    level :=
      if csmaRatio.any (80 < ·) then .fault
      else if csmaRatio.any (60 < ·) then .degraded else .healthy }

structure RouteChannel where
  enabled : Bool
  routeEstimateS : Option ℕ
  channelChangeCount : ℕ
  level : Level

/-- `assess_route_channel`. -/
def assessRouteChannel (routes : List RouteFields) (channels : List ChannelFields) : RouteChannel :=
  let routeEstimateS := (routes.map RouteFields.routeEstimateS).min?
  { enabled := routes ≠ [] ∨ channels ≠ []
    routeEstimateS
    channelChangeCount := channels.length
    level :=
      if routeEstimateS.any (· < 30) || decide (10 < channels.length) then .degraded else .healthy }

structure Congestion where
  enabled : Bool
  densityMean : Option ℚ
  densityPeak : Option ℚ
  configRatio : Option ℚ
  level : Level

/-- The frames in a second of a bucket that are no beacons. -/
def frameDensity (periodMs : ℕ) (counter : Dict String ℕ) : Option ℚ :=
  let nonBeacon := totalCount counter - beaconCount counter
  if 0 < nonBeacon then some (nonBeacon * 1000 / periodMs) else none

/-- `build_csma`. -/
def buildCsma (buckets : Buckets) (periodMs : ℕ) (configRatio : Option ℚ) : Congestion :=
  if periodMs = 0 ∨ buckets.entries = [] then
    { enabled := false, densityMean := none, densityPeak := none, configRatio := none, level := .healthy }
  else
    let densities := buckets.entries.filterMap fun e => frameDensity periodMs e.2
    let peak := densities.max?
    { enabled := true
      densityMean := (mean densities).map round2
      densityPeak := peak.map round2
      configRatio
      level :=
        if peak.any (100 < ·) then .fault else if peak.any (50 < ·) then .degraded else .healthy }

/-! ## Cycles -/

/-- An element of `cycles`. The last four fields come from the minute reports. -/
structure Cycle where
  periodStart : ℤ
  periodEnd : ℤ
  beaconPeriodMs : ℕ
  frameCount : ℕ
  beaconFrameCount : ℕ
  assocCount : ℕ
  assocRatio : Option ℚ
  proxyChangeCount : ℕ
  proxyChangeRatio : Option ℚ
  frameRate : Option ℚ
  stabilityLevel : Level
  slotLevel : Level
  routeChannelLevel : Level
  level : Level
  successRate : Option ℚ := none
  offlineRate : Option ℚ := none
  successCount : Option ℕ := none
  offlineStaCount : Option ℕ := none

/-- `sorted(buckets)` with what they hold. -/
def inOrder {α : Type} (buckets : Dict ℤ α) : List (ℤ × α) :=
  buckets.entries.insertionSort fun a b => a.1 ≤ b.1

section Dimensions
variable (stability csma routeChannel : Level)

/-- The body of the loop of `build_cycles`. -/
def buildCycle (periodMs : ℕ) (bucket : ℤ × Dict String ℕ) : Cycle :=
  let frameCount := totalCount bucket.2
  let assocCount := countOf bucket.2 "关联请求"
  let proxyChangeCount := countOf bucket.2 "代理变更请求"
  { periodStart := bucket.1
    periodEnd := bucket.1 + periodMs
    beaconPeriodMs := periodMs
    frameCount
    beaconFrameCount := beaconCount bucket.2
    assocCount
    assocRatio := (percent assocCount frameCount).map round2
    proxyChangeCount
    proxyChangeRatio := (percent proxyChangeCount frameCount).map round2
    frameRate := if periodMs = 0 then none else some (round2 (frameCount * 1000 / periodMs))
    stabilityLevel := stability
    -- the frame density takes the place of the slots
    slotLevel := csma
    routeChannelLevel := routeChannel
    level := worstLevel [stability, csma, routeChannel] }

/-- `build_cycles`. -/
def buildCycles (buckets : Buckets) (periodMs : ℕ) : List Cycle :=
  (inOrder buckets).map (buildCycle stability csma routeChannel periodMs)

end Dimensions

/-! ## The minute reports -/

/-- `_is_success`. -/
def AssessmentRecord.isSuccess (row : AssessmentRecord) : Bool :=
  !row.applicationError.truthy && row.responseResult.eqInt 0

/-- What `row.get("report_count") or 0` adds to a sum. -/
def reportNumber : PyVal → PyM ℚ
  | .int n => pure n
  | .bool b => pure (if b then 1 else 0)
  | .scaled mantissa scale => pure (mantissa / 10 ^ scale)
  | .none => pure 0
  | .str s =>
    if s = "" then pure 0 else throw (.typeError "unsupported operand type(s) for +: 'int' and 'str'")
  | .list items =>
    if items = [] then pure 0 else throw (.typeError "unsupported operand type(s) for +: 'int' and 'list'")
  | .dict entries =>
    if entries = [] then pure 0 else throw (.typeError "unsupported operand type(s) for +: 'int' and 'dict'")

/-- An element of what `assess_periods` returns. -/
structure ReportPeriod where
  periodStart : ℤ
  periodEnd : ℤ
  frameCount : ℕ
  successCount : ℕ
  successRate : Option ℚ
  activeStaCount : ℕ
  offlineStaCount : Option ℕ
  offlineRate : Option ℚ
  reportCount : ℚ
  level : Level

/-- The start of the period of a report. -/
def AssessmentRecord.periodStart (periodMs : ℕ) (row : AssessmentRecord) : ℤ :=
  ↑(row.timeSeconds - row.timeSeconds % periodMs)

/-- `active - reported`. -/
def offlineStations (active : List String) (rows : List AssessmentRecord) : List String :=
  active.filter fun station => station ∉ rows.map AssessmentRecord.stationKey

section Reports
variable (active : List String) (stability slot routeChannel : Option Level)

/-- The body of the loop of `assess_periods`. -/
def reportPeriod (periodMs : ℕ) (bucket : ℤ × List AssessmentRecord) : PyM ReportPeriod := do
  let rows := bucket.2
  let successCount := rows.countP AssessmentRecord.isSuccess
  let successRate := percent successCount rows.length
  let offlineCount := (offlineStations active rows).length
  let offlineRate := percent offlineCount active.length
  let numbers ← rows.mapM fun row => reportNumber row.reportCount
  pure
    { periodStart := bucket.1
      periodEnd := bucket.1 + periodMs
      frameCount := rows.length
      successCount
      successRate := successRate.map round2
      activeStaCount := active.length
      offlineStaCount := if active = [] then none else some offlineCount
      offlineRate := offlineRate.map round2
      reportCount := numbers.sum
      level := classify successRate offlineRate stability slot routeChannel }

/-- `assess_periods`. -/
def assessPeriods (records : List AssessmentRecord) (periodMs : ℕ) : PyM (List ReportPeriod) :=
  if periodMs = 0 then throw (.valueError "beacon_period_ms 必须为正数")
  else
    (inOrder (KeyedFolds.collect (AssessmentRecord.periodStart periodMs)
      (fun rows row => rows.getD [] ++ [row]) records)).mapM
        (reportPeriod active stability slot routeChannel periodMs)

end Reports

/-- The rates of the reports of a cycle, which replace what it has. -/
def Cycle.supplement (extra : List ReportPeriod) (c : Cycle) : Cycle :=
  match extra.find? fun e => e.periodStart = c.periodStart with
  | none => c
  | some e =>
    { c with
      successRate := e.successRate
      offlineRate := e.offlineRate
      successCount := some e.successCount
      offlineStaCount := e.offlineStaCount }

/-! ## A network -/

structure NetworkSummary where
  overallHealth : Level
  avgSuccessRate : Option ℚ
  offlineRate : Option ℚ
  counts : Level → ℕ
  stability : Stability
  slot : SlotUse
  routeChannel : RouteChannel
  csma : Congestion

/-- `_network_summary`. -/
def networkSummary (cycles : List Cycle) (stability : Stability) (slot : SlotUse)
    (routeChannel : RouteChannel) (csma : Congestion) : NetworkSummary :=
  let levels := cycles.map Cycle.level ++ [stability.level, slot.level, routeChannel.level, csma.level]
  { overallHealth := aggregateLevel levels
    avgSuccessRate := (mean (cycles.filterMap Cycle.successRate)).map round2
    offlineRate := (mean (cycles.filterMap Cycle.offlineRate)).map round2
    counts := fun level => levels.count level
    stability
    slot
    routeChannel
    csma }

/-- What `_finalize_networks` derives for a network. -/
structure NetworkVerdict where
  cycles : List Cycle
  summary : NetworkSummary

/-- `active_sta`. -/
def activeStations (records : List AssessmentRecord) : List String :=
  ((records.map AssessmentRecord.stationKey).filter (· ≠ "")).dedup

namespace RatingInput
variable (input : RatingInput)

def stability : Stability := assessStability input.frmCounts input.durationMs

def slot : SlotUse := assessSlot input.frmCounts input.slotFields

def routeChannel : RouteChannel := assessRouteChannel input.routeFields input.channelFields

/-- `csma`. Without a period there are no buckets. -/
def csma : Congestion :=
  let configRatio := input.slotFields.findSome? SlotFields.csmaRatio
  match input.beaconPeriodMs with
  | some periodMs => buildCsma input.buckets periodMs configRatio
  | none => buildCsma .empty 0 configRatio

/-- `cycles`, before the reports. -/
def cycles : List Cycle :=
  match input.beaconPeriodMs with
  | some periodMs =>
    if periodMs = 0 then []
    else
      buildCycles input.stability.level input.csma.level input.routeChannel.level input.buckets periodMs
  | none => []

/-- `extra`. -/
def reports : PyM (List ReportPeriod) :=
  assessPeriods (activeStations input.records) input.stability.level input.slot.level
    input.routeChannel.level input.records (input.beaconPeriodMs.getD 0)

/-- `cycles`, with the rates of the reports. -/
def ratedCycles : PyM (List Cycle) :=
  if input.records = [] ∨ input.cycles = [] then pure input.cycles
  else
    match input.reports with
    | .ok extra => pure (input.cycles.map (Cycle.supplement extra))
    | .error (.valueError _) => pure input.cycles
    | .error e => throw e

/-- The part of `_finalize_networks` between the scan and the entry of a network. -/
def verdict : PyM NetworkVerdict := do
  let cycles ← input.ratedCycles
  pure ⟨cycles, networkSummary cycles input.stability input.slot input.routeChannel input.csma⟩

end RatingInput

/-- The functions of the module. A verdict that raises has no health. -/
def networkRating (confidence : List ℕ → ℕ → ℕ) : Rating (PyM NetworkVerdict) where
  extractSlotFields := extractSlotFields
  extractRouteFields := extractRouteFields
  extractChannelFields := extractChannelFields
  estimatePeriod := estimatePeriod confidence
  verdict := RatingInput.verdict
  overallHealth v :=
    match v with
    | .ok v => v.summary.overallHealth
    | .error _ => .healthy

end HplcWorkbench.ListenerLog
