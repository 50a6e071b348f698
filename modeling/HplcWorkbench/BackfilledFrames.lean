import HplcWorkbench.AssessmentCache
import HplcWorkbench.NetworkCounts

/-!
# Frames behind a backfill

The columns of a row are empty or hold what the frame itself says. A frame is missing from the
columns while its own contents name a network and its column is empty. The SQL path is open once
nothing is pending or once a backfill has run, and a backfill runs once in a process: a frame that is
appended behind its pass over the networks stays missing.
-/

namespace HplcWorkbench.ListenerLog

open OrderedDict Transitions

/-! ## Rows -/

/-- The columns are empty, or network and type are those of the frame. -/
def FrameRow.Faithful (row : FrameRow) : Prop :=
  row.nid = none ∨ (row.nid = row.full.nid ∧ frmKey row.frmType = row.full.frm)

/-- The frame names a network and the column does not. -/
def FrameRow.Missing (row : FrameRow) : Prop := row.nid = none ∧ row.full.nid ≠ none

section Rows
variable {row : FrameRow} {parser : Option Parser}

/-- Both paths count a row alike that is not missing. -/
theorem counts_eq (hfaithful : row.Faithful) (hmissing : ¬ row.Missing) (htime : row.logTime ≠ "")
    (nidFilter : Option ℕ) (nid : ℕ) (types : String → Bool) :
    row.full.counts nidFilter nid types = row.counts nidFilter nid types := by
  have hlog : row.full.logTime ≠ "" := htime
  rw [StreamRow.counts, FrameRow.counts, decide_eq_true hlog, Bool.true_and]
  rcases hfaithful with hnone | ⟨hnid, hfrm⟩
  · have hfull : row.full.nid = none := by
      by_contra h
      exact hmissing ⟨hnone, h⟩
    rw [hfull, hnone]
    rfl
  · rw [hnid, hfrm]

theorem frmKey_parsed (row : FrameRow) :
    frmKey (some (parseSummaryFields row.summary).frmType) = row.full.frm := rfl

theorem filled_faithful (row : FrameRow) : row.filled.Faithful := by
  refine Or.inr ⟨rfl, ?_⟩
  have hfull : row.filled.full.frm = row.full.frm := rfl
  rw [hfull, ← frmKey_parsed]
  unfold FrameRow.filled
  dsimp only
  split
  · rfl
  · next h =>
      rw [not_not] at h
      rw [h]
      rfl

/-- No summary of the parser holds another summary. -/
def FlatParser (parser : Option Parser) : Prop :=
  ∀ parse, parser = some parse → ∀ hex simple, parse hex = .ok simple →
    ∀ entries, Params.get simple "simple" ≠ .dict entries

theorem parseSummaryFields_flat {simple : Params}
    (h : ∀ entries, Params.get simple "simple" ≠ .dict entries) :
    parseSummaryFields (some simple) =
      { frmType := if (Params.get simple "FrmType").isNone then "UNKNOWN"
          else (Params.get simple "FrmType").toStr
        detail := if (Params.get simple "Detail").isNone then "" else (Params.get simple "Detail").toStr
        snidInt := snidToInt (Params.get simple "SNID") } := by
  unfold parseSummaryFields
  dsimp only
  split
  · next entries heq => exact absurd heq (h entries)
  · rfl

/-- The fields of the stored summary are those of the dict that a writer has in hand. -/
theorem parseFrame_fields (hflat : FlatParser parser) (hex : String) :
    parseSummaryFields (parseFrame parser hex).summary =
      { frmType := if (Params.get (parseFrame parser hex).simple "FrmType").isNone then "UNKNOWN"
          else (Params.get (parseFrame parser hex).simple "FrmType").toStr
        detail := if (Params.get (parseFrame parser hex).simple "Detail").isNone then ""
          else (Params.get (parseFrame parser hex).simple "Detail").toStr
        snidInt := snidToInt (Params.get (parseFrame parser hex).simple "SNID") } := by
  cases parser with
  | none => rfl
  | some parse =>
      rw [parseFrame]
      cases hparse : parse hex with
      | error e => rfl
      | ok simple => exact parseSummaryFields_flat (hflat parse rfl hex simple hparse)

/-- The row of a file holds what its frame says. -/
theorem IsIndexed.counted {records : List LogRecord} (hflat : FlatParser parser)
    (h : IsIndexed parser records row) :
    row.nid = row.full.nid ∧ frmKey row.frmType = row.full.frm := by
  obtain ⟨record, -, h⟩ := h
  generalize row.id = id at h
  obtain ⟨b, -, h⟩ := bind_eq_ok h
  have hfields := parseFrame_fields hflat record.hexFrame
  obtain rfl := Except.ok.inj h
  refine ⟨?_, ?_⟩
  · change _ = ((parseSummaryFields (parseFrame parser record.hexFrame).summary).snidInt).or _
    rw [hfields]
    rfl
  · rw [← frmKey_parsed]
    change _ = frmKey (some (parseSummaryFields (parseFrame parser record.hexFrame).summary).frmType)
    rw [hfields]
    dsimp only
    split <;> rfl

theorem IsAppended.faithful {records : List LogRecord} (h : IsAppended parser records row) :
    row.Faithful := by
  obtain ⟨record, -, heq⟩ := h
  rw [heq]
  exact Or.inl rfl

end Rows

/-! ## Tables -/

/-- What holds of every table: the rows are numbered from one on, have a time and are faithful. -/
structure Tables.Stored (tables : Tables) : Prop where
  numbered : tables.Numbered
  positive : ∀ row ∈ tables.frames, 0 < row.id
  timed : ∀ row ∈ tables.frames, row.logTime ≠ ""
  faithful : ∀ row ∈ tables.frames, row.Faithful

/-- No row up to an identifier is missing. -/
def Tables.CaughtUpTo (tables : Tables) (lastId : ℕ) : Prop :=
  ∀ row ∈ tables.frames, row.id ≤ lastId → ¬ row.Missing

/-- No row is missing. -/
def Tables.CaughtUp (tables : Tables) : Prop := ∀ row ∈ tables.frames, ¬ row.Missing

section Stored
variable {tables tables' : Tables} {parser : Option Parser}

theorem Tables.Stored.grown {P : FrameRow → Prop} (h : tables.Stored) (hgrown : Grown P tables tables')
    (hP : ∀ row, P row → row.logTime ≠ "" ∧ row.Faithful) : tables'.Stored := by
  obtain ⟨rows, -, hframes, -, hrows, -⟩ := hgrown.exists_rows
  refine ⟨hgrown.numbered h.numbered, ?_, ?_, ?_⟩
  · rw [hframes, List.forall_mem_append]
    exact ⟨h.positive, fun row hrow => h.numbered.pos.trans_le (hrows row hrow).2⟩
  · rw [hframes, List.forall_mem_append]
    exact ⟨h.timed, fun row hrow => (hP row (hrows row hrow).1).1⟩
  · rw [hframes, List.forall_mem_append]
    exact ⟨h.faithful, fun row hrow => (hP row (hrows row hrow).1).2⟩

theorem stored_empty : Tables.Stored {} :=
  ⟨numbered_empty, fun _ h => (nomatch h), fun _ h => (nomatch h), fun _ h => (nomatch h)⟩

/-- After a log is indexed nothing is missing. -/
theorem indexFile_stored (hflat : FlatParser parser) (lines : List Bytes) :
    (indexFile parser lines).1.Stored ∧ (indexFile parser lines).1.CaughtUp := by
  have hgrown := indexFile_grown parser lines
  refine ⟨stored_empty.grown hgrown fun row hrow => ⟨?_, Or.inr (hrow.counted hflat)⟩, ?_⟩
  · obtain ⟨record, hmem, hindexed⟩ := hrow
    obtain ⟨line, -, hline⟩ := List.mem_filterMap.mp hmem
    rw [(indexedRow_eq hindexed).2]
    exact extractLogRecord_time hline
  · obtain ⟨rows, -, hframes, -, hrows, -⟩ := hgrown.exists_rows
    rintro row hrow ⟨hnone, hsome⟩
    rw [hframes] at hrow
    have hcounted := ((hrows row (by simpa using hrow)).1).counted hflat
    exact hsome (hcounted.1.symm.trans hnone)

/-- The network of an appended frame cannot be told. -/
def Undeterminable (parser : Option Parser) (record : LogRecord) : Prop :=
  (appendedRow 0 record (parseFrame parser record.hexFrame)).full.nid = none

theorem appendFrames_stored (h : tables.Stored) {records : List LogRecord}
    (htimes : ∀ record ∈ records, record.logTime ≠ "") (state : Option MinuteState) :
    (appendFrames parser tables state records).1.1.Stored := by
  refine h.grown (appendFrames_grown parser tables state records) fun row hrow => ⟨?_, hrow.faithful⟩
  obtain ⟨record, hmem, heq⟩ := hrow
  rw [heq]
  exact htimes record hmem

/-- Frames whose network cannot be told are not missing. -/
theorem appendFrames_caughtUp (h : tables.CaughtUp) {records : List LogRecord}
    (hnone : ∀ record ∈ records, Undeterminable parser record) (state : Option MinuteState) :
    (appendFrames parser tables state records).1.1.CaughtUp := by
  obtain ⟨rows, -, hframes, -, hrows, -⟩ :=
    (appendFrames_grown parser tables state records).exists_rows
  rw [Tables.CaughtUp, hframes, List.forall_mem_append]
  refine ⟨h, fun row hrow hmissing => ?_⟩
  obtain ⟨record, hmem, heq⟩ := (hrows row hrow).1
  apply hmissing.2
  rw [heq]
  exact hnone record hmem

/-- New frames come behind an identifier that is already given. -/
theorem appendFrames_caughtUpTo {lastId : ℕ} (h : tables.CaughtUpTo lastId) {records : List LogRecord}
    (hnew : (∀ record ∈ records, Undeterminable parser record) ∨ lastId < tables.nextFrame)
    (state : Option MinuteState) :
    (appendFrames parser tables state records).1.1.CaughtUpTo lastId := by
  obtain ⟨rows, -, hframes, -, hrows, -⟩ :=
    (appendFrames_grown parser tables state records).exists_rows
  rw [Tables.CaughtUpTo, hframes, List.forall_mem_append]
  refine ⟨h, fun row hrow hle hmissing => ?_⟩
  rcases hnew with hnone | hlast
  · obtain ⟨record, hmem, heq⟩ := (hrows row hrow).1
    apply hmissing.2
    rw [heq]
    exact hnone record hmem
  · exact absurd (hle.trans_lt hlast) (Nat.not_lt.mpr (hrows row hrow).2)

end Stored

/-! ## Transactions -/

section Transactions
variable {tables : Tables} {phase : BackfillPhase} {batch : List FrameRow} {row : FrameRow}

theorem touch_faithful (h : row.Faithful) : (phase.touch batch row).Faithful := by
  rw [BackfillPhase.touch]
  split
  · cases phase with
    | nids lastId => exact filled_faithful row
    | frmTypes pass => exact h.imp id fun hcounted => ⟨hcounted.1, frmKey_parsed row⟩
    | details pass => exact h
    | closing => exact h
  · exact h

theorem touch_missing (h : ¬ row.Missing) : ¬ (phase.touch batch row).Missing := by
  rw [BackfillPhase.touch]
  split
  · cases phase with
    | nids lastId => exact fun hmissing => hmissing.2 hmissing.1
    | frmTypes pass => exact h
    | details pass => exact h
    | closing => exact h
  · exact h

theorem Tables.Stored.apply (h : tables.Stored) (phase : BackfillPhase) :
    (phase.apply tables).Stored := by
  refine ⟨h.numbered.apply phase, ?_, ?_, ?_⟩
  all_goals
    rw [BackfillPhase.apply, updateRows_eq, List.forall_mem_map]
    intro row hrow
  · rw [touch_id]
    exact h.positive row hrow
  · rw [touch_logTime]
    exact h.timed row hrow
  · exact touch_faithful (h.faithful row hrow)

theorem Tables.CaughtUp.apply (h : tables.CaughtUp) (phase : BackfillPhase) :
    (phase.apply tables).CaughtUp := by
  rw [Tables.CaughtUp, BackfillPhase.apply, updateRows_eq, List.forall_mem_map]
  exact fun row hrow => touch_missing (h row hrow)

/-- In a list that is sorted the elements up to the last one taken are taken. -/
theorem mem_take_of_le {rows : List FrameRow} (hsorted : (rows.map FrameRow.id).Pairwise (· < ·))
    {n : ℕ} {last : FrameRow} (hlast : (rows.take n).getLast? = some last) (hrow : row ∈ rows)
    (hle : row.id ≤ last.id) : row ∈ rows.take n := by
  rw [List.pairwise_map, ← List.take_append_drop n rows, List.pairwise_append] at hsorted
  rw [← List.take_append_drop n rows, List.mem_append] at hrow
  apply hrow.resolve_right
  intro hdrop
  have hlt := hsorted.2.2 last (List.mem_of_getLast? hlast) row hdrop
  exact absurd hle (Nat.not_le.mpr hlt)

/-- A transaction of the pass over the networks reaches the last row of its batch. -/
theorem caughtUpTo_nids {lastId : ℕ} {last : FrameRow} (hstored : tables.Stored)
    (h : tables.CaughtUpTo lastId)
    (hlast : ((BackfillPhase.nids lastId).batch tables.frames).getLast? = some last) :
    ((BackfillPhase.nids lastId).apply tables).CaughtUpTo last.id := by
  rw [Tables.CaughtUpTo, BackfillPhase.apply, updateRows_eq, List.forall_mem_map]
  intro row hrow hle
  rw [touch_id] at hle
  by_cases hbefore : row.id ≤ lastId
  · exact touch_missing (h row hrow hbefore)
  · by_cases hnid : row.nid = none
    · have hmem : row ∈ (BackfillPhase.nids lastId).batch tables.frames := by
        refine mem_take_of_le ?_ hlast ?_ hle
        · exact hstored.numbered.ids.sublist (List.filter_sublist.map _)
        · exact List.mem_filter.mpr ⟨hrow, decide_eq_true ⟨Nat.not_le.mp hbefore, hnid⟩⟩
      rw [BackfillPhase.touch, if_pos (List.mem_map_of_mem hmem)]
      exact fun hmissing => hmissing.2 hmissing.1
    · exact touch_missing fun hmissing => hnid hmissing.1

/-- The pass over the networks ends where no row behind its identifier has an empty column. -/
theorem caughtUp_of_nids_end {lastId : ℕ} (h : tables.CaughtUpTo lastId)
    (hlast : ((BackfillPhase.nids lastId).batch tables.frames).getLast? = none) : tables.CaughtUp := by
  have hempty : tables.frames.filter (fun row => lastId < row.id ∧ row.nid = none) = [] := by
    have hbatch := List.getLast?_eq_none_iff.mp hlast
    rw [BackfillPhase.batch, List.take_eq_nil_iff] at hbatch
    exact hbatch.resolve_left (by decide)
  intro row hrow hmissing
  by_cases hbefore : row.id ≤ lastId
  · exact h row hrow hbefore hmissing
  · have hnot := List.filter_eq_nil_iff.mp hempty row hrow
    exact hnot (decide_eq_true ⟨Nat.not_le.mp hbefore, hmissing.1⟩)

end Transactions

/-! ## The service -/

/-- What a worker has reached. -/
def Tables.Reached (tables : Tables) : Option BackfillPhase → Prop
  | none => True
  | some (.nids lastId) => tables.CaughtUpTo lastId
  | some _ => tables.CaughtUp

/-- What holds of a service as long as no frame is appended behind the pass over the networks. -/
structure Service.Covered {Verdict : Type} (s : Service Verdict) : Prop where
  stored : ∀ file, (s.files file).Stored
  reached : ∀ file, (s.files file).Reached (s.workers file)
  done : ∀ file, (s.backfill file).done → (s.files file).CaughtUp

/-- A worker that will still come to a frame of the next identifier. -/
def WillReach (nextFrame : ℕ) : Option BackfillPhase → Prop
  | none => True
  | some (.nids lastId) => lastId < nextFrame
  | some _ => False

/-- Appended frames have a time, and their networks cannot be told or a backfill comes to them. -/
def InTime {Verdict : Type} (parser : Option Parser) (s : Service Verdict) : ServiceEvent → Prop
  | .appendFrames _ records =>
    (∀ record ∈ records, record.logTime ≠ "") ∧
      ((∀ record ∈ records, Undeterminable parser record) ∨
        ((s.backfill s.current).done = false ∧
          WillReach (s.files s.current).nextFrame (s.workers s.current)))
  | _ => True

/-- Wherever the SQL path is open, it counts the frames of every network, under any types and
through any filter, as the Python path counts them, and the result shows the counts. -/
def NoneLost {Verdict : Type} (rating : Rating Verdict) (s : Service Verdict) : Prop :=
  ∀ file w, sqlPathReady (s.backfill file) (s.files file) w → ∀ nidFilter nid,
    (∀ types, (sqlAccumulators rating nidFilter (s.files file) w).framesOf nid types =
      (streamAccumulators rating nidFilter (s.files file) w).framesOf nid types) ∧
    (assessBySql rating (s.files file) w nidFilter).framesOf nid =
      (assessByPython rating (s.files file) w nidFilter).framesOf nid

section Service
variable {Verdict : Type} {parser : Option Parser} {registry : Bool} {rating : Rating Verdict}
  {s s' : Service Verdict} {e : ServiceEvent}

/-- An open path means that nothing is missing. -/
theorem Service.Covered.caughtUp (h : s.Covered) {file : ℕ} {w : Window}
    (hready : sqlPathReady (s.backfill file) (s.files file) w) : (s.files file).CaughtUp := by
  unfold sqlPathReady at hready
  simp only [Bool.and_eq_true, Bool.or_eq_true, decide_eq_true_iff] at hready
  rcases hready.1.2 with hpending | hdone
  · intro row hrow hmissing
    have hzero := (Nat.add_eq_zero_iff.mp hpending).1
    exact List.countP_eq_zero.mp hzero row hrow (decide_eq_true hmissing.1)
  · exact h.done file hdone

theorem Service.Covered.noneLost (h : s.Covered) : NoneLost rating s := by
  intro file w hready nidFilter nid
  have hcaught := h.caughtUp hready
  have hall : ∀ types, (sqlAccumulators rating nidFilter (s.files file) w).framesOf nid types =
      (streamAccumulators rating nidFilter (s.files file) w).framesOf nid types := by
    intro types
    rw [framesOf_sql, framesOf_stream, List.countP_map]
    refine List.countP_congr fun row hrow => ?_
    have hmem := List.mem_of_mem_filter hrow
    rw [Function.comp_apply, counts_eq ((h.stored file).faithful row hmem) (hcaught row hmem)
      ((h.stored file).timed row hmem)]
  refine ⟨hall, ?_⟩
  rw [framesOf_assessBySql, framesOf_assessByPython, hall]

theorem Tables.CaughtUp.reached {tables : Tables} (h : tables.CaughtUp) (worker : Option BackfillPhase) :
    tables.Reached worker := by
  cases worker with
  | none => trivial
  | some phase =>
      cases phase with
      | nids lastId => exact fun row hrow _ => h row hrow
      | _ => exact h

/-- A log without missing rows replaces the tables of a file. -/
theorem replaceLog_covered (h : s.Covered) {tables : Tables} (hstored : tables.Stored)
    (hcaught : tables.CaughtUp) : (s.replaceLog registry tables).Covered := by
  have hfile : ∀ (file : ℕ) (files : ℕ → Tables), files = Function.update s.files file tables →
      ∀ f, (files f).Stored ∧ (files f).Reached (s.workers f) ∧
        ((s.backfill f).done → (files f).CaughtUp) := by
    rintro file _ rfl f
    by_cases hf : f = file
    · rw [hf, Function.update_self]
      exact ⟨hstored, hcaught.reached _, fun _ => hcaught⟩
    · rw [Function.update_of_ne hf]
      exact ⟨h.stored f, h.reached f, h.done f⟩
  rw [Service.replaceLog]
  split
  · exact ⟨fun f => (hfile _ _ rfl f).1, fun f => (hfile _ _ rfl f).2.1, fun f => (hfile _ _ rfl f).2.2⟩
  · exact ⟨fun f => (hfile _ _ rfl f).1, fun f => (hfile _ _ rfl f).2.1, fun f => (hfile _ _ rfl f).2.2⟩

theorem appendFrames_covered (h : s.Covered) {state : Option MinuteState} {records : List LogRecord}
    (htimes : ∀ record ∈ records, record.logTime ≠ "")
    (hintime : (∀ record ∈ records, Undeterminable parser record) ∨
      ((s.backfill s.current).done = false ∧
        WillReach (s.files s.current).nextFrame (s.workers s.current))) :
    (s.setTables s.current (appendFrames parser (s.files s.current) state records).1.1).Covered := by
  have hfiles : ∀ f, (s.setTables s.current
      (appendFrames parser (s.files s.current) state records).1.1).files f =
        if f = s.current then (appendFrames parser (s.files s.current) state records).1.1
        else s.files f := fun f => by simp [Service.setTables, Function.update_apply]
  refine ⟨fun f => ?_, fun f => ?_, fun f hdone => ?_⟩
  all_goals
    rw [hfiles]
    split
  · exact appendFrames_stored (h.stored _) htimes state
  · exact h.stored f
  · next hf =>
      subst hf
      have hreached := h.reached s.current
      change Tables.Reached _ (s.workers s.current)
      cases hworker : s.workers s.current with
      | none => trivial
      | some phase =>
          rw [hworker] at hreached hintime
          cases phase with
          | nids lastId => exact appendFrames_caughtUpTo hreached (hintime.imp id And.right) state
          | _ => exact appendFrames_caughtUp hreached (hintime.resolve_right fun h => h.2) state
  · exact h.reached f
  · next hf =>
      subst hf
      refine appendFrames_caughtUp (h.done _ hdone) (hintime.resolve_right fun hnot => ?_) state
      exact Bool.false_ne_true (hnot.1.symm.trans hdone)
  · exact h.done f hdone

theorem startWorker_covered (h : s.Covered) (file : ℕ) : (s.startWorker file).Covered := by
  refine ⟨h.stored, fun f => ?_, fun f hdone => ?_⟩
  · by_cases hf : f = file
    · subst hf
      simp only [Service.startWorker, Function.update_self]
      exact fun row hrow hle => absurd hle (Nat.not_le.mpr ((h.stored f).positive row hrow))
    · simpa [Service.startWorker, hf] using h.reached f
  · by_cases hf : f = file
    · subst hf
      exact h.done f (by simpa [Service.startWorker] using hdone)
    · exact h.done f (by simpa [Service.startWorker, hf] using hdone)

theorem listBeaconPeriods_covered (h : s.Covered) (file : ℕ) (startTime endTime nidText : String) :
    (s.listBeaconPeriods rating file startTime endTime nidText).2.Covered := by
  rw [Service.listBeaconPeriods]
  split
  · exact h
  · next w nid _ =>
      dsimp only
      split
      · exact h
      · rcases requestUnlessReady_cases s file w with hsame | ⟨-, -, -, hstart⟩
        · rw [hsame]
          exact ⟨h.stored, h.reached, h.done⟩
        · rw [hstart]
          have hstarted := startWorker_covered h file
          exact ⟨hstarted.stored, hstarted.reached, hstarted.done⟩

/-- The pass over the networks goes on behind the last row of a batch. -/
theorem next_nids (lastId : ℕ) (batch : List FrameRow) :
    (BackfillPhase.nids lastId).next batch =
      some (batch.getLast?.elim (.frmTypes 0) fun last => .nids last.id) := by
  unfold BackfillPhase.next
  cases batch.getLast? <;> rfl

/-- What a transaction reaches, phase by phase. -/
theorem reached_next {tables : Tables} {phase phase' : BackfillPhase} (hstored : tables.Stored)
    (h : tables.Reached (some phase)) (hnext : phase.next (phase.batch tables.frames) = some phase') :
    (phase.apply tables).Reached (some phase') := by
  cases phase with
  | nids lastId =>
      rw [next_nids] at hnext
      obtain rfl := Option.some.inj hnext
      cases hlast : ((BackfillPhase.nids lastId).batch tables.frames).getLast? with
      | some last => exact caughtUpTo_nids hstored h hlast
      | none => exact ((caughtUp_of_nids_end h hlast).apply _).reached _
  | frmTypes pass => exact (Tables.CaughtUp.apply h _).reached _
  | details pass => exact (Tables.CaughtUp.apply h _).reached _
  | closing => exact (Tables.CaughtUp.apply h _).reached _

theorem backfillStep_covered (h : s.Covered) {file : ℕ} {phase : BackfillPhase}
    (hworker : s.workers file = some phase) : (s.backfillStep file phase).Covered := by
  have hreached := h.reached file
  rw [hworker] at hreached
  rw [Service.backfillStep]
  dsimp only
  cases hnext : phase.next (phase.batch (s.files file).frames) with
  | some phase' =>
      have hfiles : ∀ f, (s.setTables file (phase.apply (s.files file))).files f =
          if f = file then phase.apply (s.files file) else s.files f := fun f => by
        simp [Service.setTables, Function.update_apply]
      refine ⟨fun f => ?_, fun f => ?_, fun f hdone => ?_⟩
      · refine (congrArg Tables.Stored (hfiles f)).mpr ?_
        split
        · exact (h.stored file).apply phase
        · exact h.stored f
      · by_cases hf : f = file
        · subst hf
          simpa [Service.setTables, BackfillPhase.apply] using reached_next (h.stored f) hreached hnext
        · simpa [Service.setTables, hf] using h.reached f
      · refine (congrArg Tables.CaughtUp (hfiles f)).mpr ?_
        split
        · next hf => exact (h.done file (hf ▸ hdone)).apply phase
        · exact h.done f hdone
  | none =>
      have hcaught : (s.files file).CaughtUp := by
        cases phase with
        | nids lastId =>
            rw [next_nids] at hnext
            cases hnext
        | _ => exact hreached
      refine ⟨h.stored, fun f => ?_, fun f hdone => ?_⟩
      · by_cases hf : f = file
        · subst hf
          simp [Tables.Reached]
        · simpa [hf] using h.reached f
      · by_cases hf : f = file
        · exact hf ▸ hcaught
        · exact h.done f (by simpa [hf] using hdone)

theorem backfillFails_covered (h : s.Covered) (file : ℕ) : (s.backfillFails file).Covered := by
  refine ⟨h.stored, fun f => ?_, fun f hdone => ?_⟩
  · by_cases hf : f = file
    · subst hf
      simp [Service.backfillFails, Tables.Reached]
    · simpa [Service.backfillFails, hf] using h.reached f
  · by_cases hf : f = file
    · subst hf
      exact h.done f (by simpa [Service.backfillFails] using hdone)
    · exact h.done f (by simpa [Service.backfillFails, hf] using hdone)

/-- Every event whose frames come in time keeps all frames covered. -/
theorem step_covered (hflat : FlatParser parser) (h : s.Covered) (hintime : InTime parser s e)
    (he : (listenerService parser registry rating).step s e = some s') : s'.Covered := by
  cases e with
  | appendFrames state records =>
      obtain rfl := Option.some.inj he
      exact appendFrames_covered h hintime.1 hintime.2
  | indexFile lines =>
      obtain rfl := Option.some.inj he
      obtain ⟨hstored, hcaught⟩ := indexFile_stored hflat lines
      exact replaceLog_covered h hstored hcaught
  | resetIndex =>
      obtain rfl := Option.some.inj he
      exact replaceLog_covered h stored_empty fun _ h => (nomatch h)
  | listBeaconPeriods index startTime endTime nidText =>
      obtain ⟨file, -, rfl⟩ := Option.map_eq_some_iff.mp he
      exact listBeaconPeriods_covered h file startTime endTime nidText
  | backfillStep file =>
      obtain ⟨phase, hworker, rfl⟩ := Option.map_eq_some_iff.mp he
      exact backfillStep_covered h hworker
  | backfillFails file =>
      obtain ⟨phase, -, rfl⟩ := Option.map_eq_some_iff.mp he
      exact backfillFails_covered h file

/-- In every state of a run whose appended frames come in time for a backfill, no frame is lost
where the SQL path is open. -/
theorem noneLost_of_inTime (hflat : FlatParser parser) {files : ℕ → Tables} {current nextFile : ℕ}
    (hstored : ∀ file, (files file).Stored) {events : List ServiceEvent}
    (hintime : (listenerService parser registry rating).Follows (InTime parser)
      (.opened files current nextFile) events)
    (hrun : (listenerService parser registry rating).run (.opened files current nextFile) events =
      some s) : NoneLost rating s := by
  have hopened : Service.Covered (.opened files current nextFile : Service Verdict) :=
    ⟨hstored, fun _ => trivial, fun _ hdone => nomatch hdone⟩
  exact (Machine.run_invariant Service.Covered (fun _ _ _ h hg he => step_covered hflat h hg he) hopened
    hintime hrun).noneLost

end Service

/-! ## A run that loses a frame -/

/-- A parser that finds network 1 in every frame. -/
def oneNetwork : Parser := fun _ => .ok [("SNID", .str "1"), ("FrmType", .str "SOF")]

theorem oneNetwork_flat : FlatParser (some oneNetwork) := by
  intro parse hparse hex simple hok entries hdict
  obtain rfl := Option.some.inj hparse
  obtain rfl := Except.ok.inj hok
  cases hdict

/-- The log of a frame of network 1. -/
def shortLog : List Bytes :=
  ["[1][08:00:00.000]7E 7E".toList.map fun c => Fin.ofNat 256 c.toNat]

/-- A frame of network 1 from the serial line. -/
def lateFrame : LogRecord := ⟨"2", "08:00:01.000", "7E 7E"⟩

/-- An assessment of an empty file, and the backfill that it starts. -/
def backfilledEmpty : List ServiceEvent :=
  [.listBeaconPeriods none "" "" "", .backfillStep 0, .backfillStep 0, .backfillStep 0,
    .backfillStep 0]

/-- The log with the frame behind it. -/
def lateTables : Tables :=
  (appendFrames (some oneNetwork) (indexFile (some oneNetwork) shortLog).1 none [lateFrame]).1.1

/-- A frame that is appended after the backfill is not counted. -/
theorem lateFrame_lost : ¬ ∀ (parser : Option Parser), FlatParser parser →
    ∀ registry events (s : Service Unit),
      (listenerService parser registry blankRating).run (.opened (fun _ => {}) 0 1) events = some s →
        NoneLost blankRating s := by
  intro hall
  obtain ⟨s, hrun, hfiles, hstate⟩ : ∃ s,
      (listenerService (some oneNetwork) false blankRating).run (.opened (fun _ => {}) 0 1)
        (backfilledEmpty ++ [.indexFile shortLog, .appendFrames none [lateFrame]]) = some s ∧
      s.files 0 = lateTables ∧ s.backfill 0 = ⟨false, true⟩ := ⟨_, rfl, rfl, rfl⟩
  have hnone := hall _ oneNetwork_flat false _ s hrun 0 allFrames
  rw [hfiles, hstate] at hnone
  have hready : sqlPathReady ⟨false, true⟩ lateTables allFrames = true := by decide +kernel
  have hcount := (hnone hready none 1).1 fun _ => true
  rw [framesOf_sql, framesOf_stream] at hcount
  revert hcount
  decide +kernel

/-- A frame that is appended before the backfill is counted once the backfill has run. -/
def caughtFrame : List ServiceEvent :=
  [.appendFrames none [lateFrame], .listBeaconPeriods none "" "" "", .backfillStep 0, .backfillStep 0,
    .backfillStep 0, .backfillStep 0, .backfillStep 0]

theorem caughtFrame_counted : ∃ s : Service Unit,
    (listenerService (some oneNetwork) false blankRating).run (.opened (fun _ => {}) 0 1) caughtFrame =
      some s ∧ (s.backfill 0).done ∧ NoneLost blankRating s := by
  obtain ⟨s, hrun, hdone⟩ : ∃ s : Service Unit,
      (listenerService (some oneNetwork) false blankRating).run (.opened (fun _ => {}) 0 1) caughtFrame =
        some s ∧ (s.backfill 0).done := ⟨_, rfl, rfl⟩
  refine ⟨s, hrun, hdone, noneLost_of_inTime oneNetwork_flat (fun _ => stored_empty) ?_ hrun⟩
  have htime : ∀ record ∈ [lateFrame], record.logTime ≠ "" := by simp [lateFrame]
  refine ⟨⟨htime, Or.inr ⟨rfl, trivial⟩⟩, fun _ _ => ⟨trivial, fun _ _ => ⟨trivial, fun _ _ => ?_⟩⟩⟩
  exact ⟨trivial, fun _ _ => ⟨trivial, fun _ _ => ⟨trivial, fun _ _ => ⟨trivial, fun _ _ => trivial⟩⟩⟩⟩

end HplcWorkbench.ListenerLog
