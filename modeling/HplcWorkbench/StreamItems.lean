import HplcWorkbench.NetworkCounts

/-!
# The items of a frame stream

Beside the full rows of a file `assess_by_network_stream` takes rows whose network and frame type
are columns already, and rows that only supplement the details of a network. What the loop collects
for a network depends on the frames of the network and on the times it stamps on them, and on
nothing else.
-/

namespace HplcWorkbench.ListenerLog

open OrderedDict

/-- An item of `rows`. A row marked `_detail_only` supplements a network and names it. -/
structure StreamItem extends StreamRow where
  column : Option ℕ := none
  frmType : Option String := none
  detailOnly : Bool := false
  supplements : detailOnly → (column.or toStreamRow.nid).isSome := by simp

namespace StreamItem
variable (item : StreamItem)

/-- The network of an item: its column, else what its row names. -/
def nid : Option ℕ := item.column.or item.toStreamRow.nid

/-- The frame type of an item. -/
def frm : String := frmKey (some (item.frmType.getD (parseSummaryFields item.summary).frmType))

/-- `parsed["detail"]`: the summary of an item with both columns is read for a supplement only. -/
def detail : String :=
  if item.column.isSome ∧ item.frmType.isSome ∧ !item.detailOnly then ""
  else (parseSummaryFields item.summary).detail

/-- A full row of a file. -/
def ofRow (row : StreamRow) : StreamItem :=
  { row with supplements := fun h => absurd h Bool.false_ne_true }

theorem nid_of_detailOnly (h : item.detailOnly) : ∃ nid, item.nid = some nid :=
  Option.isSome_iff_exists.mp (item.supplements h)

end StreamItem

section Stream
variable {Verdict : Type} (rating : Rating Verdict) (nidFilter : Option ℕ)

/-- What an item does to the accumulator of its network. -/
def StreamItem.collect (item : StreamItem) (absMs : Option ℕ) (acc : NetworkAccumulator) :
    NetworkAccumulator :=
  let acc := if item.detailOnly then acc else acc.countFrame absMs item.frm
  let acc := acc.addDetail rating item.detail
  if isBeaconCandidate item.frm then acc.addBeacon rating absMs (decodeFrame item.rawHex) item.detail
  else acc

/-- The body of the loop. -/
def streamItem (s : StreamState) (item : StreamItem) : StreamState :=
  if item.logTime = "" then s
  else
    let s := if item.detailOnly then s else { s with counted := s.counted + 1 }
    match item.nid with
    | none => { s with unassigned := s.unassigned + 1 }
    | some nid =>
      -- a supplement is not filtered, and it moves the clock like a frame
      if !item.detailOnly && nidFilter.any (nid ≠ ·) then { s with filtered := s.filtered + 1 }
      else
        let (absMs, tracker) := s.tracker.absMs item.logTime
        { s with tracker, accs := s.accs.change nid (item.collect rating absMs) }

/-- `assess_by_network_stream`. -/
def assessByNetworkItems (items : List StreamItem) (records : List AssessmentRecord)
    (sessionDurationMs nidFilter frameTotal unassignedTotal : Option ℕ) : Assessment Verdict :=
  let s := items.foldl (streamItem rating nidFilter) {}
  finalizeNetworks rating s.accs records sessionDurationMs
    (fun _ acc period => acc.bucketCounters period)
    ⟨frameTotal.getD s.counted, unassignedTotal.getD s.unassigned, s.filtered⟩

/-- On the full rows of a file this is the loop over rows. -/
theorem streamItem_ofRow (s : StreamState) (row : StreamRow) :
    streamItem rating nidFilter s (.ofRow row) = streamRow rating nidFilter s row := by
  rw [streamItem, streamRow]
  rfl

theorem assessByNetworkItems_ofRow (rows : List StreamRow) (records : List AssessmentRecord)
    (duration : Option ℕ) :
    assessByNetworkItems rating (rows.map .ofRow) records duration nidFilter none none =
      assessByNetworkStream rating rows records duration nidFilter := by
  have hfold : (rows.map .ofRow).foldl (streamItem rating nidFilter) {} =
      rows.foldl (streamRow rating nidFilter) {} := by
    rw [List.foldl_map]
    simp only [streamItem_ofRow]
  rw [assessByNetworkItems, hfold]
  rfl

/-! ## What reaches the accumulators -/

/-- The item moves the clock and reaches an accumulator. -/
def StreamItem.passes (item : StreamItem) : Bool :=
  item.logTime ≠ "" && item.nid.any fun nid => item.detailOnly || !nidFilter.any (nid ≠ ·)

/-- The items with the times that the tracker gives them. -/
def stampedFrom (t : TimeTracker) : List StreamItem → List (StreamItem × Option ℕ)
  | [] => []
  | item :: rest => (item, (t.absMs item.logTime).1) :: stampedFrom (t.absMs item.logTime).2 rest

/-- The items of a network that reach its accumulator, with their times. -/
def seen (nid : ℕ) (t : TimeTracker) (items : List StreamItem) : List (StreamItem × Option ℕ) :=
  (stampedFrom t (items.filter (StreamItem.passes nidFilter))).filter fun e => e.1.nid = some nid

/-- An accumulator after some items. -/
def gather (acc : Option NetworkAccumulator) (entries : List (StreamItem × Option ℕ)) :
    Option NetworkAccumulator :=
  entries.foldl (fun acc e => some (e.1.collect rating e.2 (acc.getD {}))) acc

theorem streamItem_of_passes {s : StreamState} {item : StreamItem} {nid : ℕ}
    (h : item.passes nidFilter) (hnid : item.nid = some nid) :
    (streamItem rating nidFilter s item).tracker = (s.tracker.absMs item.logTime).2 ∧
      (streamItem rating nidFilter s item).accs =
        s.accs.change nid (item.collect rating (s.tracker.absMs item.logTime).1) := by
  simp only [StreamItem.passes, hnid, Option.any_some, Bool.and_eq_true, decide_eq_true_eq] at h
  obtain ⟨htime, hpass⟩ := h
  have hthrough : (!item.detailOnly && nidFilter.any (nid ≠ ·)) = false := by
    cases hd : item.detailOnly <;> simp_all
  rw [streamItem, if_neg htime, hnid]
  dsimp only
  rw [if_neg (by rw [hthrough]; exact Bool.false_ne_true)]
  cases item.detailOnly <;> exact ⟨rfl, rfl⟩

theorem streamItem_of_not_passes {s : StreamState} {item : StreamItem}
    (h : item.passes nidFilter = false) :
    (streamItem rating nidFilter s item).tracker = s.tracker ∧
      (streamItem rating nidFilter s item).accs = s.accs := by
  rw [streamItem]
  by_cases htime : item.logTime = ""
  · rw [if_pos htime]
    exact ⟨rfl, rfl⟩
  · rw [if_neg htime]
    dsimp only
    cases hnid : item.nid with
    | none => cases item.detailOnly <;> exact ⟨rfl, rfl⟩
    | some nid =>
        simp only [StreamItem.passes, hnid, Option.any_some] at h
        have hstop : (!item.detailOnly && nidFilter.any (nid ≠ ·)) = true := by
          cases hd : item.detailOnly <;> simp_all
        dsimp only
        rw [if_pos hstop]
        cases item.detailOnly <;> exact ⟨rfl, rfl⟩

/-- The accumulator of a network is gathered from its own items. -/
theorem foldl_streamItem_get? (nid : ℕ) (items : List StreamItem) (s : StreamState) :
    (items.foldl (streamItem rating nidFilter) s).accs.get? nid =
      gather rating (s.accs.get? nid) (seen nidFilter nid s.tracker items) := by
  induction items generalizing s with
  | nil => rfl
  | cons item rest ih =>
      rw [List.foldl_cons, ih, seen, seen]
      by_cases hpass : item.passes nidFilter
      · obtain ⟨m, hm⟩ : ∃ m, item.nid = some m := by
          cases hnid : item.nid with
          | none => simp [StreamItem.passes, hnid] at hpass
          | some m => exact ⟨m, rfl⟩
        obtain ⟨htracker, haccs⟩ := streamItem_of_passes rating nidFilter (s := s) hpass hm
        rw [List.filter_cons_of_pos hpass, stampedFrom, htracker, haccs, get?_change]
        by_cases hx : nid = m
        · rw [if_pos hx, List.filter_cons_of_pos (by simp [hm, hx])]
          rfl
        · rw [if_neg hx, List.filter_cons_of_neg (by simpa [hm] using Ne.symm hx)]
      · rw [Bool.not_eq_true] at hpass
        obtain ⟨htracker, haccs⟩ := streamItem_of_not_passes rating nidFilter (s := s) hpass
        rw [List.filter_cons_of_neg (by simp [hpass]), htracker, haccs]

/-! ## In a result -/

/-- The entry of a result for a network. -/
def Assessment.entry (a : Assessment Verdict) (nid : ℕ) : Option (Network Verdict) :=
  a.networks.find? fun n => n.nid = nid

theorem finalizeNetworks_entry (accs : Accumulators) (records : List AssessmentRecord)
    (duration : Option ℕ) (bucketResolver : ℕ → NetworkAccumulator → ℕ → Buckets) (totals : Totals)
    (nid : ℕ) :
    (finalizeNetworks rating accs records duration bucketResolver totals).entry nid =
      (accs.get? nid).map (finalizeNetwork rating records duration bucketResolver nid) := by
  let f (e : ℕ × NetworkAccumulator) : Network Verdict :=
    finalizeNetwork rating records duration bucketResolver e.1 e.2
  have hsort : ((accs.entries.map f).insertionSort fun a b => a.nid ≤ b.nid).Perm (accs.entries.map f) :=
    List.perm_insertionSort _ _
  have hkey : (accs.entries.map f).filter (fun n => n.nid = nid) =
      ((accs.get? nid).toList.map fun acc => (nid, acc)).map f := by
    rw [List.filter_map, ← Dict.filter_key]
    rfl
  have hperm := hsort.filter fun n => n.nid = nid
  rw [hkey] at hperm
  rw [Assessment.entry, finalizeNetworks, ← List.head?_filter]
  dsimp only
  cases hget : accs.get? nid with
  | none =>
      rw [hget] at hperm
      exact congrArg List.head? hperm.eq_nil
  | some acc =>
      rw [hget] at hperm
      exact congrArg List.head? (List.perm_singleton.mp hperm)

theorem entry_assessByNetworkItems (items : List StreamItem) (records : List AssessmentRecord)
    (duration frameTotal unassignedTotal : Option ℕ) (nid : ℕ) :
    (assessByNetworkItems rating items records duration nidFilter frameTotal unassignedTotal).entry nid =
      (gather rating none (seen nidFilter nid {} items)).map
        (finalizeNetwork rating records duration (fun _ acc period => acc.bucketCounters period) nid) := by
  rw [assessByNetworkItems, finalizeNetworks_entry, foldl_streamItem_get?]
  rfl

end Stream

end HplcWorkbench.ListenerLog
