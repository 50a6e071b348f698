import HplcWorkbench.AssessmentQueries
import Mathlib.Algebra.BigOperators.Group.List.Lemmas

/-!
# The frames counted for a network

Whatever else the accumulators collect, the frames under a set of types that they count for a network
are the frames of the window: those whose own contents name the network where the frames are read one
by one, those whose columns name it where the database counts.
-/

namespace HplcWorkbench.ListenerLog

open OrderedDict

/-- The frames of a network under some types. -/
def Accumulators.framesOf (accs : Accumulators) (nid : ℕ) (types : String → Bool) : ℕ :=
  ((accs.get? nid).getD {}).frmCounts.weigh types

/-- The filter lets a network through. -/
def passes (nidFilter : Option ℕ) (nid : ℕ) : Bool := !nidFilter.any (nid ≠ ·)

section Counts
variable {Verdict : Type} (rating : Rating Verdict) (nidFilter : Option ℕ) (accs : Accumulators)
  (nid : ℕ) (types : String → Bool)

theorem get?_change (m : ℕ) (f : NetworkAccumulator → NetworkAccumulator) :
    (accs.change m f).get? nid = if nid = m then some (f ((accs.get? nid).getD {})) else accs.get? nid := by
  by_cases h : nid = m
  · subst h
    rw [if_pos rfl]
    exact Dict.get?_set_self _ _ _
  · rw [if_neg h]
    exact Dict.get?_set_of_ne _ _ _ _ h

/-- What leaves the counts of an accumulator alone leaves all counts alone. -/
theorem framesOf_change_same {m : ℕ} {f : NetworkAccumulator → NetworkAccumulator}
    (hf : ∀ acc, (f acc).frmCounts = acc.frmCounts) :
    (accs.change m f).framesOf nid types = accs.framesOf nid types := by
  rw [Accumulators.framesOf, get?_change]
  split
  · rw [Option.getD_some, hf, Accumulators.framesOf]
  · rfl

theorem framesOf_change_add {m n : ℕ} {frm : String} {f : NetworkAccumulator → NetworkAccumulator}
    (hf : ∀ acc, (f acc).frmCounts = addCount acc.frmCounts frm n) :
    (accs.change m f).framesOf nid types =
      accs.framesOf nid types + if m = nid ∧ types frm then n else 0 := by
  rw [Accumulators.framesOf, get?_change]
  by_cases h : nid = m
  · rw [if_pos h, Option.getD_some, hf, addCount, Dict.weigh_add, Accumulators.framesOf]
    simp [h]
  · rw [if_neg h, if_neg fun hm => h hm.1.symm, Nat.add_zero, Accumulators.framesOf]

/-! ## Frame by frame -/

@[simp] theorem countFrame_frmCounts (acc : NetworkAccumulator) (absMs : Option ℕ) (frm : String) :
    (acc.countFrame absMs frm).frmCounts = addCount acc.frmCounts frm 1 := by
  cases absMs <;> rfl

@[simp] theorem addDetail_frmCounts (acc : NetworkAccumulator) (detail : String) :
    (acc.addDetail rating detail).frmCounts = acc.frmCounts := by
  rw [NetworkAccumulator.addDetail]
  split <;> rfl

@[simp] theorem addBeacon_frmCounts (acc : NetworkAccumulator) (absMs : Option ℕ)
    (frame : Option DecodedFrame) (detail : String) :
    (acc.addBeacon rating absMs frame detail).frmCounts = acc.frmCounts := by
  unfold NetworkAccumulator.addBeacon
  dsimp only
  split
  · split <;> rfl
  · rfl

theorem collect_frmCounts (row : StreamRow) (absMs : Option ℕ) (acc : NetworkAccumulator) :
    (row.collect rating absMs acc).frmCounts = addCount acc.frmCounts row.frm 1 := by
  unfold StreamRow.collect
  dsimp only
  split <;> simp

/-- The frame counts for the network. -/
def StreamRow.counts (row : StreamRow) : Bool :=
  row.logTime ≠ "" && row.nid = some nid && passes nidFilter nid && types row.frm

/-- A frame is counted once, for its own network. -/
theorem streamRow_framesOf (s : StreamState) (row : StreamRow) :
    (streamRow rating nidFilter s row).accs.framesOf nid types =
      s.accs.framesOf nid types + if row.counts nidFilter nid types then 1 else 0 := by
  unfold streamRow StreamRow.counts
  by_cases htime : row.logTime = ""
  · simp [htime]
  · rw [if_neg htime]
    cases hnid : row.nid with
    | none => simp
    | some m =>
        dsimp only
        by_cases hpass : nidFilter.any (m ≠ ·)
        · have hstop : passes nidFilter m = false := by rw [passes, hpass, Bool.not_true]
          rw [if_pos hpass]
          by_cases hm : m = nid
          · simp [← hm, hstop]
          · simp [hm]
        · have hthrough : passes nidFilter m = true := by
            rw [Bool.not_eq_true] at hpass
            rw [passes, hpass, Bool.not_false]
          rw [if_neg hpass]
          dsimp only
          rw [framesOf_change_add _ _ _ (collect_frmCounts rating row _)]
          by_cases hm : m = nid
          · simp [htime, ← hm, hthrough]
          · simp [hm]

theorem foldl_streamRow_framesOf (rows : List StreamRow) (s : StreamState) :
    (rows.foldl (streamRow rating nidFilter) s).accs.framesOf nid types =
      s.accs.framesOf nid types + rows.countP (StreamRow.counts nidFilter nid types) := by
  induction rows generalizing s with
  | nil => rfl
  | cons row rest ih =>
      rw [List.foldl_cons, ih, streamRow_framesOf, List.countP_cons]
      omega

/-- The accumulators of the Python path. -/
def streamAccumulators (tables : Tables) (w : Window) : Accumulators :=
  (((tables.window w).map FrameRow.full).foldl (streamRow rating nidFilter) {}).accs

theorem framesOf_stream (tables : Tables) (w : Window) :
    (streamAccumulators rating nidFilter tables w).framesOf nid types =
      ((tables.window w).map FrameRow.full).countP (StreamRow.counts nidFilter nid types) := by
  rw [streamAccumulators, foldl_streamRow_framesOf]
  exact Nat.zero_add _

/-! ## From what the database has counted -/

/-- The columns count for the network. -/
def FrameRow.counts (row : FrameRow) : Bool :=
  row.nid = some nid && passes nidFilter nid && types (frmKey row.frmType)

theorem collectCounts_framesOf (row : Option ℕ × Option String × ℕ) :
    (collectCounts nidFilter accs row).framesOf nid types = accs.framesOf nid types +
      if row.1 = some nid ∧ passes nidFilter nid ∧ types (frmKey row.2.1) then row.2.2 else 0 := by
  obtain ⟨column, frm, n⟩ := row
  unfold collectCounts
  cases column with
  | none => simp
  | some m =>
      dsimp only
      by_cases hpass : nidFilter.any (m ≠ ·)
      · have hstop : passes nidFilter m = false := by rw [passes, hpass, Bool.not_true]
        rw [if_pos hpass]
        by_cases hm : m = nid
        · simp [← hm, hstop]
        · simp [hm]
      · have hthrough : passes nidFilter m = true := by
          rw [Bool.not_eq_true] at hpass
          rw [passes, hpass, Bool.not_false]
        rw [if_neg hpass, framesOf_change_add accs nid types (fun _ => rfl)]
        by_cases hm : m = nid
        · simp [← hm, hthrough]
        · simp [hm]

theorem foldl_collectCounts_framesOf (groups : List (Option ℕ × Option String × ℕ)) :
    (groups.foldl (collectCounts nidFilter) accs).framesOf nid types = accs.framesOf nid types +
      (groups.map fun g =>
        if g.1 = some nid ∧ passes nidFilter nid ∧ types (frmKey g.2.1) then g.2.2 else 0).sum := by
  induction groups generalizing accs with
  | nil => rfl
  | cons g rest ih =>
      rw [List.foldl_cons, ih, collectCounts_framesOf, List.map_cons, List.sum_cons, Nat.add_assoc]

/-- The groups of a query with a property hold as many rows as there are with the property. -/
theorem sum_groupCount {κ : Type} [DecidableEq κ] (p : κ → Bool) (keys : List κ) :
    ((groupCount keys).map fun g => if p g.1 then g.2 else 0).sum = keys.countP p := by
  rw [← List.sum_map_count_dedup_filter_eq_countP, groupCount, List.map_map]
  induction keys.dedup with
  | nil => rfl
  | cons k rest ih =>
      rw [List.map_cons, List.sum_cons, ih, List.filter_cons]
      cases hk : p k <;> simp [hk]

/-- The rows that the query leaves out are not of the network. -/
theorem framesOf_aggFrmCounts (rows : List FrameRow) :
    ((aggFrmCounts rows nidFilter).foldl (collectCounts nidFilter) .empty).framesOf nid types =
      rows.countP (FrameRow.counts nidFilter nid types) := by
  let p (key : Option ℕ × Option String) : Bool :=
    key.1 = some nid && passes nidFilter nid && types (frmKey key.2)
  have hgroups := sum_groupCount p
    ((rows.filter (nidCondition nidFilter)).map fun row => (row.nid, row.frmType))
  rw [foldl_collectCounts_framesOf, aggFrmCounts, List.map_map]
  have hzero : Accumulators.framesOf .empty nid types = 0 := rfl
  have hcongr : ∀ g : (Option ℕ × Option String) × ℕ,
      (if g.1.1 = some nid ∧ passes nidFilter nid ∧ types (frmKey g.1.2) then g.2 else 0) =
        if p g.1 then g.2 else 0 := by
    intro g
    simp [p, and_assoc]
  rw [hzero, Nat.zero_add]
  refine (congrArg List.sum (List.map_congr_left fun g _ => hcongr g)).trans (hgroups.trans ?_)
  rw [List.countP_map, List.countP_filter]
  refine List.countP_congr fun row _ => ?_
  cases nidFilter with
  | none =>
      simp only [p, FrameRow.counts, nidCondition, Function.comp_apply]
      cases row.nid <;> simp
  | some m =>
      simp only [p, FrameRow.counts, nidCondition, passes, Function.comp_apply]
      cases row.nid with
      | none => simp
      | some k => simp; grind

/-- The accumulators of the SQL path. -/
def sqlAccumulators (tables : Tables) (w : Window) : Accumulators :=
  let rows := tables.window w
  let accs := (aggFrmCounts rows nidFilter).foldl (collectCounts nidFilter) .empty
  let s := (aggDetailRows rows nidFilter).foldl (collectDetail rating nidFilter) (accs, {})
  ((aggCentralRows rows nidFilter).foldl (collectCentral rating nidFilter) s).1

theorem foldl_collectDetail_framesOf (rows : List DetailRow) (s : Accumulators × TimeTracker) :
    (rows.foldl (collectDetail rating nidFilter) s).1.framesOf nid types =
      s.1.framesOf nid types := by
  induction rows generalizing s with
  | nil => rfl
  | cons row rest ih =>
      rw [List.foldl_cons, ih]
      unfold collectDetail
      cases row.column with
      | none => rfl
      | some m =>
          dsimp only
          split
          · rfl
          · split <;> exact framesOf_change_same _ _ _ fun acc => by simp

theorem foldl_collectCentral_framesOf (rows : List CentralRow) (s : Accumulators × TimeTracker) :
    (rows.foldl (collectCentral rating nidFilter) s).1.framesOf nid types =
      s.1.framesOf nid types := by
  induction rows generalizing s with
  | nil => rfl
  | cons row rest ih =>
      rw [List.foldl_cons, ih]
      unfold collectCentral
      cases decodeFrame row.rawHex with
      | none => rfl
      | some frame =>
          dsimp only
          split
          · rfl
          · exact framesOf_change_same _ _ _ fun acc => by simp

theorem framesOf_sql (tables : Tables) (w : Window) :
    (sqlAccumulators rating nidFilter tables w).framesOf nid types =
      (tables.window w).countP (FrameRow.counts nidFilter nid types) := by
  unfold sqlAccumulators
  dsimp only
  rw [foldl_collectCentral_framesOf, foldl_collectDetail_framesOf, framesOf_aggFrmCounts]

/-! ## In a result -/

/-- The frames that a result counts for a network. -/
def Assessment.framesOf (a : Assessment Verdict) (nid : ℕ) : ℕ :=
  ((a.networks.filter fun n => n.nid = nid).map Network.frameCount).sum

theorem finalizeNetworks_framesOf (records : List AssessmentRecord) (duration : Option ℕ)
    (bucketResolver : ℕ → NetworkAccumulator → ℕ → Buckets) (totals : Totals) :
    (finalizeNetworks rating accs records duration bucketResolver totals).framesOf nid =
      accs.framesOf nid fun _ => true := by
  let f (e : ℕ × NetworkAccumulator) : Network Verdict :=
    finalizeNetwork rating records duration bucketResolver e.1 e.2
  have hsort : ((accs.entries.map f).insertionSort fun a b => a.nid ≤ b.nid).Perm (accs.entries.map f) :=
    List.perm_insertionSort _ _
  have hsum := ((hsort.filter fun n => n.nid = nid).map Network.frameCount).sum_eq
  have hkey : (accs.entries.map f).filter (fun n => n.nid = nid) =
      ((accs.get? nid).toList.map fun acc => (nid, acc)).map f := by
    rw [List.filter_map, ← Dict.filter_key]
    rfl
  rw [Assessment.framesOf, finalizeNetworks]
  refine hsum.trans ?_
  rw [hkey, Accumulators.framesOf]
  cases accs.get? nid with
  | none => rfl
  | some acc => simp [f, finalizeNetwork, Dict.weigh]

theorem framesOf_assessBySql (tables : Tables) (w : Window) :
    (assessBySql rating tables w nidFilter).framesOf nid =
      (sqlAccumulators rating nidFilter tables w).framesOf nid fun _ => true :=
  finalizeNetworks_framesOf rating _ _ _ _ _ _

theorem framesOf_assessByPython (tables : Tables) (w : Window) :
    (assessByPython rating tables w nidFilter).framesOf nid =
      (streamAccumulators rating nidFilter tables w).framesOf nid fun _ => true :=
  finalizeNetworks_framesOf rating _ _ _ _ _ _

end Counts

end HplcWorkbench.ListenerLog
