import HplcWorkbench.NetworkLevels
import HplcWorkbench.NetworkIsolation
import HplcWorkbench.PeriodCells

/-!
# The frames behind a stream assessment

A row that only supplements details need not name a network. The accumulators are kept under what a
row names, so that such a row makes one for no network at all, which is then rated and sorted among
the others.

The rows that reach an accumulator are stamped by the clock that they move. Each accumulator is
folded from the stamped rows under its own key: it counts their frames, and its timeline and its
buckets hold the times of those whose clock can be read.
-/

namespace HplcWorkbench.ListenerLog

open OrderedDict

/-! ## Rows -/

/-- A dict of `rows`. -/
structure FrameItem extends StreamRow where
  column : Option ℕ := none
  frmType : Option String := none
  detailOnly : Bool := false

namespace FrameItem
variable (item : FrameItem)

/-- The network of a row: its column, else what its summary or its frame names. -/
def nid : Option ℕ := item.column.or item.toStreamRow.nid

/-- The frame type of a row. -/
def frm : String := frmKey (some (item.frmType.getD (parseSummaryFields item.summary).frmType))

/-- The detail text. The summary of a row with both columns is read for a supplement only. -/
def detail : String :=
  if item.column.isSome ∧ item.frmType.isSome ∧ !item.detailOnly then ""
  else (parseSummaryFields item.summary).detail

end FrameItem

/-- The accumulators under what their rows name. -/
abbrev FrameAccumulators := Dict (Option ℕ) NetworkAccumulator

/-- The local variables of `assess_by_network_stream`. -/
structure FrameState where
  accs : FrameAccumulators := .empty
  counted : ℕ := 0
  unassigned : ℕ := 0
  filtered : ℕ := 0
  tracker : TimeTracker := {}

section Loop
variable {Verdict : Type} (rating : Rating Verdict) (nidFilter : Option ℕ)

/-- What a row does to the accumulator that it reaches. -/
def FrameItem.collect (item : FrameItem) (absMs : Option ℕ) (acc : NetworkAccumulator) :
    NetworkAccumulator :=
  let acc := if item.detailOnly then acc else acc.countFrame absMs item.frm
  let acc := acc.addDetail rating item.detail
  if isBeaconCandidate item.frm then acc.addBeacon rating absMs (decodeFrame item.rawHex) item.detail
  else acc

/-- The part of the loop behind the counters. -/
def FrameState.reach (s : FrameState) (item : FrameItem) : FrameState :=
  let (absMs, tracker) := s.tracker.absMs item.logTime
  let acc := (s.accs.get? item.nid).getD {}
  { s with tracker, accs := s.accs.set item.nid (item.collect rating absMs acc) }

/-- The body of the loop. -/
def frameItem (s : FrameState) (item : FrameItem) : FrameState :=
  if item.logTime = "" then s
  else if item.detailOnly then s.reach rating item
  else
    let s := { s with counted := s.counted + 1 }
    match item.nid with
    | none => { s with unassigned := s.unassigned + 1 }
    | some nid =>
      if nidFilter.any (nid ≠ ·) then { s with filtered := s.filtered + 1 } else s.reach rating item

end Loop

/-! ## The result -/

/-- An element of `networks`. -/
structure NetworkEntry where
  nid : Option ℕ
  ccoMac : Option String
  scan : BeaconScan
  frameCount : ℕ
  recordCount : ℕ
  activeStaCount : ℕ
  cycles : List Cycle
  summary : NetworkSummary

/-- What `assess_by_network_stream` returns, without the engine label. -/
structure StreamAssessment where
  networks : List NetworkEntry
  beaconPeriodMs : Option ℕ
  overallHealth : Level
  sessionDurationMs : Option ℕ
  frameTotal : ℕ
  unassignedFrameCount : ℕ
  filteredFrameCount : ℕ
  unassignedRecordCount : ℕ

/-- `record_groups.get(nid, [])`: reports without a network are in no group. -/
def recordGroup (records : List AssessmentRecord) (nid : Option ℕ) : List AssessmentRecord :=
  records.filter fun r => r.nid ≠ none ∧ r.nid = nid

/-- `a["nid"] < b["nid"]`. -/
def nidLess : Option ℕ → Option ℕ → PyM Bool
  | some a, some b => pure (a < b)
  | none, some _ => throw (.typeError "'<' not supported between instances of 'NoneType' and 'int'")
  | some _, none => throw (.typeError "'<' not supported between instances of 'int' and 'NoneType'")
  | none, none => throw (.typeError "'<' not supported between instances of 'NoneType' and 'NoneType'")

def insertEntry (n : NetworkEntry) : List NetworkEntry → PyM (List NetworkEntry)
  | [] => pure [n]
  | m :: rest => do
    if ← nidLess m.nid n.nid then
      pure (m :: (← insertEntry n rest))
    else pure (n :: m :: rest)

/-- `networks.sort(key=lambda n: n["nid"])`. -/
def sortEntries : List NetworkEntry → PyM (List NetworkEntry)
  | [] => pure []
  | n :: rest => do insertEntry n (← sortEntries rest)

section Result
variable (confidence : List ℕ → ℕ → ℕ) (records : List AssessmentRecord)
  (sessionDurationMs nidFilter : Option ℕ)

/-- What the rating of an accumulator looks at. -/
def ratingInput (nid : Option ℕ) (acc : NetworkAccumulator) : RatingInput :=
  let period := (acc.scan (networkRating confidence)).beaconPeriodMs
  { frmCounts := acc.frmCounts
    durationMs := sessionDurationMs.getD acc.durationMs
    slotFields := acc.slotFields
    routeFields := acc.routeFields
    channelFields := acc.channelFields
    beaconPeriodMs := period
    buckets :=
      match period with
      | some periodMs => acc.bucketCounters periodMs
      | none => .empty
    records := recordGroup records nid }

/-- The body of the loop of `_finalize_networks`. -/
def finalizeEntry (e : Option ℕ × NetworkAccumulator) : PyM NetworkEntry := do
  let verdict ← (ratingInput confidence records sessionDurationMs e.1 e.2).verdict
  pure
    { nid := e.1
      ccoMac := e.2.ccoMac
      scan := e.2.scan (networkRating confidence)
      frameCount := totalCount e.2.frmCounts
      recordCount := (recordGroup records e.1).length
      activeStaCount := (activeStations (recordGroup records e.1)).length
      cycles := verdict.cycles
      summary := verdict.summary }

/-- `_finalize_networks`. -/
def finalizeStream (s : FrameState) (frameTotal unassignedTotal : Option ℕ) : PyM StreamAssessment := do
  let entries ← s.accs.entries.mapM (finalizeEntry confidence records sessionDurationMs)
  let networks ← sortEntries entries
  pure
    { networks
      beaconPeriodMs := mode (networks.filterMap fun n => n.scan.beaconPeriodMs)
      overallHealth := aggregateLevel (networks.map fun n => n.summary.overallHealth)
      sessionDurationMs
      frameTotal := frameTotal.getD s.counted
      unassignedFrameCount := unassignedTotal.getD s.unassigned
      filteredFrameCount := s.filtered
      unassignedRecordCount := (records.filter fun r => r.nid = none).length }

/-- The loop of `assess_by_network_stream`. -/
def collectFrames (items : List FrameItem) : FrameState :=
  items.foldl (frameItem (networkRating confidence) nidFilter) {}

/-- `assess_by_network_stream`. -/
def assessFrameStream (items : List FrameItem) (frameTotal unassignedTotal : Option ℕ) :
    PyM StreamAssessment :=
  finalizeStream confidence records sessionDurationMs (collectFrames confidence nidFilter items)
    frameTotal unassignedTotal

end Result

end HplcWorkbench.ListenerLog

namespace HplcWorkbench.ListenerLog

open OrderedDict

/-- The row reaches an accumulator and moves the clock. -/
def FrameItem.reaches (nidFilter : Option ℕ) (item : FrameItem) : Bool :=
  item.logTime ≠ "" && (item.detailOnly || item.nid.any fun nid => !nidFilter.any (nid ≠ ·))

/-- Rows with the times that the tracker gives them. -/
def stampedFrames (t : TimeTracker) : List FrameItem → List (FrameItem × Option ℕ)
  | [] => []
  | item :: rest => (item, (t.absMs item.logTime).1) :: stampedFrames (t.absMs item.logTime).2 rest

/-- The rows that reach accumulators, with their times. -/
def reached (nidFilter : Option ℕ) (items : List FrameItem) : List (FrameItem × Option ℕ) :=
  stampedFrames {} (items.filter (FrameItem.reaches nidFilter))

/-- The times of the frames of a network whose clock can be read. -/
def timedFrames (nidFilter : Option ℕ) (items : List FrameItem) (nid : Option ℕ) : List ℕ :=
  ((reached nidFilter items).filter fun e => e.1.nid = nid ∧ !e.1.detailOnly).filterMap Prod.snd

/-- What a stamped row does to the accumulator of its key. -/
def updateAcc {Verdict : Type} (rating : Rating Verdict) (acc : Option NetworkAccumulator)
    (e : FrameItem × Option ℕ) : NetworkAccumulator :=
  e.1.collect rating e.2 (acc.getD {})

theorem map_fst_stampedFrames (t : TimeTracker) (items : List FrameItem) :
    (stampedFrames t items).map Prod.fst = items := by
  induction items generalizing t with
  | nil => rfl
  | cons item rest ih => rw [stampedFrames, List.map_cons, ih]

theorem mem_reached {nidFilter : Option ℕ} {items : List FrameItem} {item : FrameItem} :
    item ∈ (reached nidFilter items).map Prod.fst ↔ item ∈ items ∧ item.reaches nidFilter := by
  rw [reached, map_fst_stampedFrames, List.mem_filter]

/-! ## The loop -/

section Loop
variable {Verdict : Type} (rating : Rating Verdict) (nidFilter : Option ℕ) {s : FrameState}
  {item : FrameItem}

theorem reaches_frame (htime : item.logTime ≠ "") (hd : item.detailOnly = false) :
    item.reaches nidFilter = item.nid.any fun nid => !nidFilter.any (nid ≠ ·) := by
  rw [FrameItem.reaches, decide_eq_true htime, hd, Bool.true_and, Bool.false_or]

theorem frameItem_of_reaches (h : item.reaches nidFilter) :
    (frameItem rating nidFilter s item).tracker = (s.tracker.absMs item.logTime).2 ∧
      (frameItem rating nidFilter s item).accs =
        KeyedFolds.step (fun e => e.1.nid) (updateAcc rating) s.accs
          (item, (s.tracker.absMs item.logTime).1) := by
  rw [FrameItem.reaches, Bool.and_eq_true, decide_eq_true_eq] at h
  obtain ⟨htime, hpass⟩ := h
  rw [frameItem, if_neg htime]
  cases hd : item.detailOnly with
  | true => exact ⟨rfl, rfl⟩
  | false =>
    rw [hd, Bool.false_or, Option.any_eq_true] at hpass
    obtain ⟨nid, hnid, hthrough⟩ := hpass
    rw [Bool.not_eq_true'] at hthrough
    rw [if_neg Bool.false_ne_true, hnid]
    dsimp only
    rw [if_neg (by rw [hthrough]; exact Bool.false_ne_true)]
    exact ⟨rfl, rfl⟩

theorem frameItem_of_not_reaches (h : item.reaches nidFilter = false) :
    (frameItem rating nidFilter s item).tracker = s.tracker ∧
      (frameItem rating nidFilter s item).accs = s.accs := by
  rw [frameItem]
  by_cases htime : item.logTime = ""
  · rw [if_pos htime]
    exact ⟨rfl, rfl⟩
  · rw [FrameItem.reaches, decide_eq_true htime, Bool.true_and, Bool.or_eq_false_iff] at h
    rw [if_neg htime, h.1, if_neg Bool.false_ne_true]
    cases hnid : item.nid with
    | none => exact ⟨rfl, rfl⟩
    | some nid =>
      have hstop : nidFilter.any (nid ≠ ·) = true := by simpa [hnid] using h.2
      dsimp only
      rw [if_pos hstop]
      exact ⟨rfl, rfl⟩

/-- The accumulators are folded from the stamped rows. -/
theorem foldl_frameItem_accs (items : List FrameItem) (s : FrameState) :
    (items.foldl (frameItem rating nidFilter) s).accs =
      (stampedFrames s.tracker (items.filter (FrameItem.reaches nidFilter))).foldl
        (KeyedFolds.step (fun e => e.1.nid) (updateAcc rating)) s.accs := by
  induction items generalizing s with
  | nil => rfl
  | cons item rest ih =>
    rw [List.foldl_cons, ih]
    by_cases hreach : item.reaches nidFilter
    · obtain ⟨htracker, haccs⟩ := frameItem_of_reaches rating nidFilter (s := s) hreach
      rw [List.filter_cons_of_pos hreach, stampedFrames, List.foldl_cons, htracker, haccs]
    · obtain ⟨htracker, haccs⟩ := frameItem_of_not_reaches rating nidFilter (s := s)
        (Bool.eq_false_of_not_eq_true hreach)
      rw [List.filter_cons_of_neg hreach, htracker, haccs]

/-- A frame is unassigned, is filtered or reaches an accumulator. -/
theorem foldl_frameItem_counted (items : List FrameItem) (s : FrameState) :
    (items.foldl (frameItem rating nidFilter) s).counted + s.unassigned + s.filtered =
      s.counted + (items.foldl (frameItem rating nidFilter) s).unassigned +
        (items.foldl (frameItem rating nidFilter) s).filtered +
          (items.filter (FrameItem.reaches nidFilter)).countP (!·.detailOnly) := by
  induction items generalizing s with
  | nil => rfl
  | cons item rest ih =>
    rw [List.foldl_cons]
    have hrest := ih (frameItem rating nidFilter s item)
    suffices hstep : (frameItem rating nidFilter s item).counted + s.unassigned + s.filtered =
        s.counted + (frameItem rating nidFilter s item).unassigned +
          (frameItem rating nidFilter s item).filtered +
            if item.reaches nidFilter && !item.detailOnly then 1 else 0 by
      rw [List.countP_filter] at hrest ⊢
      rw [List.countP_cons, Bool.and_comm]
      omega
    rw [frameItem]
    by_cases htime : item.logTime = ""
    · simp [htime, FrameItem.reaches]
    · rw [if_neg htime]
      cases hd : item.detailOnly with
      | true => simp [FrameState.reach]
      | false =>
        rw [if_neg Bool.false_ne_true, reaches_frame nidFilter htime hd]
        cases hnid : item.nid with
        | none =>
          simp only [Option.any_none, Bool.false_and, Bool.false_eq_true, if_false]
          omega
        | some nid =>
          rw [Option.any_some]
          dsimp only
          cases hstop : nidFilter.any (nid ≠ ·) with
          | true =>
            simp only [if_true, Bool.not_true, Bool.false_and, Bool.false_eq_true, if_false]
            omega
          | false =>
            simp only [Bool.false_eq_true, if_false, Bool.not_false, Bool.and_true, if_true, FrameState.reach]
            omega

end Loop

section Accumulators
variable {confidence : List ℕ → ℕ → ℕ} {nidFilter : Option ℕ} {items : List FrameItem}
  {nid : Option ℕ} {acc : NetworkAccumulator}

theorem accs_collectFrames (confidence : List ℕ → ℕ → ℕ) (nidFilter : Option ℕ) (items : List FrameItem) :
    (collectFrames confidence nidFilter items).accs =
      KeyedFolds.collect (fun e => e.1.nid) (updateAcc (networkRating confidence))
        (reached nidFilter items) :=
  foldl_frameItem_accs (networkRating confidence) nidFilter items {}

/-- Under a key stands an accumulator where a row with the key reaches one. -/
theorem mem_keys_collectFrames :
    nid ∈ (collectFrames confidence nidFilter items).accs.entries.map Prod.fst ↔
      ∃ item ∈ items, item.reaches nidFilter ∧ item.nid = nid := by
  rw [accs_collectFrames, KeyedFolds.mem_keys_collect]
  constructor
  · rintro ⟨e, he, hnid⟩
    obtain ⟨hitem, hreach⟩ := mem_reached.mp (List.mem_map_of_mem he)
    exact ⟨e.1, hitem, hreach, hnid⟩
  · rintro ⟨item, hitem, hreach, hnid⟩
    obtain ⟨e, he, rfl⟩ := List.mem_map.mp (mem_reached.mpr ⟨hitem, hreach⟩)
    exact ⟨e, he, hnid⟩

/-! ## What the rows of a key leave -/

theorem totalCount_addCount (counts : Dict String ℕ) (frm : String) (n : ℕ) :
    totalCount (addCount counts frm n) = totalCount counts + n := by
  have h := Dict.weigh_add (fun _ => true) counts frm n
  simpa [totalCount, addCount, Dict.weigh] using h

theorem totalCount_collect {Verdict : Type} (rating : Rating Verdict) (item : FrameItem)
    (absMs : Option ℕ) (acc : NetworkAccumulator) :
    totalCount (item.collect rating absMs acc).frmCounts =
      totalCount acc.frmCounts + if item.detailOnly then 0 else 1 := by
  unfold FrameItem.collect
  dsimp only
  cases hd : item.detailOnly
  · split <;> simp [totalCount_addCount]
  · split <;> simp

theorem timeline_collect {Verdict : Type} (rating : Rating Verdict) (item : FrameItem)
    (absMs : Option ℕ) (acc : NetworkAccumulator) :
    (item.collect rating absMs acc).timeline.map Prod.fst =
      acc.timeline.map Prod.fst ++ if item.detailOnly then [] else absMs.toList := by
  unfold FrameItem.collect
  dsimp only
  cases hd : item.detailOnly
  · split <;> simp [countFrame_timeline, Function.comp_def]
  · split <;> simp

/-- The frame counts of all accumulators. -/
theorem sum_frameCounts (confidence : List ℕ → ℕ → ℕ) (nidFilter : Option ℕ) (items : List FrameItem) :
    ((collectFrames confidence nidFilter items).accs.entries.map fun e => totalCount e.2.frmCounts).sum =
      (items.filter (FrameItem.reaches nidFilter)).countP (!·.detailOnly) := by
  have hsum := KeyedFolds.sum_collect (fun e : FrameItem × Option ℕ => e.1.nid)
    (updateAcc (networkRating confidence)) (fun acc => totalCount acc.frmCounts)
    (fun e => [e.1].countP (!·.detailOnly))
    (fun acc e => by
      rw [updateAcc, totalCount_collect, List.countP_singleton]
      cases acc <;> cases e.1.detailOnly <;> rfl)
    (reached nidFilter items)
  rw [accs_collectFrames, hsum, ← map_fst_stampedFrames {} (items.filter _), List.map_eq_flatMap (f := Prod.fst),
    List.countP_flatMap]
  rfl

/-- The timeline of an accumulator holds the readable frames under its key. -/
theorem map_fst_timeline (h : (collectFrames confidence nidFilter items).accs.get? nid = some acc) :
    acc.timeline.map Prod.fst = timedFrames nidFilter items nid := by
  rw [accs_collectFrames, KeyedFolds.get?_collect] at h
  have hfolded := KeyedFolds.settled_induction
    (p := fun (ys : List (FrameItem × Option ℕ)) (acc : NetworkAccumulator) =>
      acc.timeline.map Prod.fst = (ys.filter fun e => !e.1.detailOnly).filterMap Prod.snd)
    (fun e => by
      rw [updateAcc, timeline_collect]
      cases hd : e.1.detailOnly <;> cases ht : e.2 <;> simp [hd, ht])
    (fun ys acc e ih => by
      rw [updateAcc, timeline_collect, Option.getD_some, ih, List.filter_append, List.filterMap_append]
      cases hd : e.1.detailOnly <;> cases ht : e.2 <;> simp [hd, ht])
    h
  rw [hfolded, timedFrames, KeyedFolds.fiber, List.filter_filter]
  congr 2
  funext e
  rw [Bool.and_comm, Bool.decide_and, Bool.decide_coe]

/-! ## Buckets -/

section Buckets
variable {p : ℕ}

theorem bucketCounters_eq (acc : NetworkAccumulator) (p : ℕ) :
    acc.bucketCounters p = KeyedFolds.collect (fun e => bucketStart p e.1)
      (fun counter e => addCount (counter.getD .empty) e.2 1) acc.timeline := rfl

theorem bucketStart_eq (p ms : ℕ) : bucketStart p ms = PeriodCells.start p ms := by
  rw [bucketStart, PeriodCells.start, Nat.cast_sub (Nat.mod_le ms p), Int.natCast_mod]

/-- A bucket counts the entries of the timeline that start it. -/
theorem totalCount_bucket {start : ℤ} {counter : Dict String ℕ}
    (h : (start, counter) ∈ (acc.bucketCounters p).entries) :
    totalCount counter = (acc.timeline.map Prod.fst).countP fun ms => bucketStart p ms = start := by
  rw [← Dict.get?_eq_some_iff, bucketCounters_eq, KeyedFolds.get?_collect] at h
  have hfolded := KeyedFolds.settled_induction
    (p := fun (ys : List (ℕ × String)) (counter : Dict String ℕ) => totalCount counter = ys.length)
    (fun e => totalCount_addCount .empty e.2 1)
    (fun ys counter e ih => by
      rw [Option.getD_some, totalCount_addCount, ih, List.length_append, List.length_singleton])
    h
  rw [hfolded, KeyedFolds.fiber, ← List.countP_eq_length_filter, List.countP_map]
  rfl

end Buckets

end Accumulators

end HplcWorkbench.ListenerLog
