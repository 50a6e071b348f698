import HplcWorkbench.AssessmentQueries

/-!
# How the tables grow

Both writers put in a frame under the next identifier and, where the frame is a report, a report that
names the frame and has its time. An identifier is never used again within a table.
-/

namespace HplcWorkbench.ListenerLog

/-- Frames are numbered upwards, and reports name frames that were put in. -/
structure Tables.Numbered (tables : Tables) : Prop where
  pos : 0 < tables.nextFrame
  ids : (tables.frames.map FrameRow.id).Pairwise (· < ·)
  below : ∀ row ∈ tables.frames, row.id < tables.nextFrame
  reports : ∀ report ∈ tables.minuteReports, report.frameId < tables.nextFrame

/-- The tables after frames with the property were put in, each with a report or without. -/
inductive Grown (P : FrameRow → Prop) (tables : Tables) : Tables → Prop
  | refl : Grown P tables tables
  | frame {tables' : Tables} {row : FrameRow} : Grown P tables tables' → P row →
      row.id = tables'.nextFrame → Grown P tables (tables'.insertFrame row)
  | report {tables' : Tables} {row : FrameRow} {report : MinuteRow} {next : ℕ} :
      Grown P tables tables' → P row → row.id = tables'.nextFrame → report.frameId = row.id →
      report.logTime = row.logTime →
      Grown P tables { tables'.insertFrame row with
        minuteReports := tables'.minuteReports ++ [report], nextMinute := next }

section Grown
variable {P : FrameRow → Prop} {tables tables' tables'' : Tables}

theorem Grown.trans (h : Grown P tables tables') (h' : Grown P tables' tables'') :
    Grown P tables tables'' := by
  induction h' with
  | refl => exact h
  | frame _ hP hid ih => exact .frame ih hP hid
  | report _ hP hid hframe htime ih => exact .report ih hP hid hframe htime

theorem Grown.nextFrame_le (h : Grown P tables tables') : tables.nextFrame ≤ tables'.nextFrame := by
  induction h with
  | refl => exact le_rfl
  | frame _ _ _ ih => exact ih.trans (Nat.le_succ _)
  | report _ _ _ _ _ ih => exact ih.trans (Nat.le_succ _)

/-- The new rows stand at the end under new identifiers, and the new reports name new rows. -/
theorem Grown.exists_rows (h : Grown P tables tables') :
    ∃ rows reports, tables'.frames = tables.frames ++ rows ∧
      tables'.minuteReports = tables.minuteReports ++ reports ∧
      (∀ row ∈ rows, P row ∧ tables.nextFrame ≤ row.id) ∧
      ∀ report ∈ reports, ∃ row ∈ rows, row.id = report.frameId ∧ row.logTime = report.logTime := by
  induction h with
  | refl => exact ⟨[], [], by simp, by simp, by simp, by simp⟩
  | @frame t row ht hP hid ih =>
      obtain ⟨rows, reports, hframes, hreports, hrows, hnew⟩ := ih
      refine ⟨rows ++ [row], reports, ?_, hreports, ?_, ?_⟩
      · rw [Tables.insertFrame, hframes, List.append_assoc]
      · rw [List.forall_mem_append, List.forall_mem_singleton]
        exact ⟨hrows, hP, hid ▸ ht.nextFrame_le⟩
      · intro report hreport
        obtain ⟨row', hrow', heq⟩ := hnew report hreport
        exact ⟨row', List.mem_append_left _ hrow', heq⟩
  | @report t row r next ht hP hid hframe htime ih =>
      obtain ⟨rows, reports, hframes, hreports, hrows, hnew⟩ := ih
      refine ⟨rows ++ [row], reports ++ [r], ?_, ?_, ?_, ?_⟩
      · rw [Tables.insertFrame, hframes, List.append_assoc]
      · rw [hreports, List.append_assoc]
      · rw [List.forall_mem_append, List.forall_mem_singleton]
        exact ⟨hrows, hP, hid ▸ ht.nextFrame_le⟩
      · rw [List.forall_mem_append, List.forall_mem_singleton]
        refine ⟨fun report hreport => ?_, row, by simp, hframe.symm, htime.symm⟩
        obtain ⟨row', hrow', heq⟩ := hnew report hreport
        exact ⟨row', List.mem_append_left _ hrow', heq⟩

theorem Tables.Numbered.insertFrame (h : tables.Numbered) {row : FrameRow}
    (hid : row.id = tables.nextFrame) : (tables.insertFrame row).Numbered where
  pos := Nat.succ_pos _
  ids := by
    rw [Tables.insertFrame, List.map_append, List.pairwise_append]
    refine ⟨h.ids, List.pairwise_singleton _ _, ?_⟩
    intro a ha b hb
    obtain ⟨row', hrow', rfl⟩ := List.mem_map.mp ha
    obtain rfl := List.mem_singleton.mp hb
    rw [hid]
    exact h.below row' hrow'
  below := by
    rw [Tables.insertFrame, List.forall_mem_append, List.forall_mem_singleton]
    refine ⟨fun row' hrow' => (h.below row' hrow').trans (Nat.lt_succ_self _), ?_⟩
    rw [hid]
    exact Nat.lt_succ_self _
  reports := fun report hreport => (h.reports report hreport).trans (Nat.lt_succ_self _)

theorem Grown.numbered (h : Grown P tables tables') (hnum : tables.Numbered) :
    tables'.Numbered := by
  induction h with
  | refl => exact hnum
  | frame _ _ hid ih => exact ih.insertFrame hid
  | @report t row r next _ _ hid hframe _ ih =>
      have hrow := ih.insertFrame hid
      refine ⟨hrow.pos, hrow.ids, hrow.below, ?_⟩
      rw [List.forall_mem_append, List.forall_mem_singleton, hframe]
      exact ⟨hrow.reports, hrow.below row (List.mem_append_right _ (List.mem_singleton.mpr rfl))⟩

end Grown

theorem numbered_empty : Tables.Numbered {} where
  pos := Nat.one_pos
  ids := List.Pairwise.nil
  below := fun _ h => nomatch h
  reports := fun _ h => nomatch h

/-! ## The writers -/

section Writers
variable {parser : Option Parser} {P : FrameRow → Prop} {tables : Tables}

/-- A report goes in or, where its time cannot be read, nothing. -/
theorem insertMinuteReport_grown {t : Tables} {row : FrameRow} {record : LogRecord} {simple : Params}
    {state : MinuteState} {r : Tables × MinuteState} (ht : Grown P tables t) (hP : P row)
    (hid : row.id = t.nextFrame) (htime : row.logTime = record.logTime)
    (h : insertMinuteReport (t.insertFrame row) row.id record simple state = .ok r) :
    Grown P tables r.1 := by
  obtain ⟨fields, -, h⟩ := bind_eq_ok h
  cases hclock : parseTimeMs record.logTime with
  | none =>
      rw [hclock] at h
      cases h
      exact .frame ht hP hid
  | some ms =>
      rw [hclock] at h
      obtain ⟨-, -, h⟩ := bind_eq_ok h
      cases h
      exact .report ht hP hid rfl htime.symm

/-- The row of a record that was appended. -/
def IsAppended (parser : Option Parser) (records : List LogRecord) (row : FrameRow) : Prop :=
  ∃ record ∈ records, row = appendedRow row.id record (parseFrame parser record.hexFrame)

/-- The row of a record of a file. -/
def IsIndexed (parser : Option Parser) (records : List LogRecord) (row : FrameRow) : Prop :=
  ∃ record ∈ records, indexedRow row.id record (parseFrame parser record.hexFrame) = .ok row

theorem appendRecord_grown {s s' : Tables × Option MinuteState} {record : LogRecord}
    {records : List LogRecord} (hrecord : record ∈ records)
    (h : appendRecord parser s record = .ok s') : Grown (IsAppended parser records) s.1 s'.1 := by
  let row := appendedRow s.1.nextFrame record (parseFrame parser record.hexFrame)
  have hrow : IsAppended parser records row := ⟨record, hrecord, rfl⟩
  obtain ⟨t, state⟩ := s
  unfold appendRecord at h
  dsimp only at h
  cases state with
  | none =>
      cases h
      exact .frame .refl hrow rfl
  | some state =>
      dsimp only at h
      split at h
      · obtain ⟨r, hinsert, h⟩ := bind_eq_ok h
        cases h
        exact insertMinuteReport_grown .refl hrow rfl rfl hinsert
      · cases h
        exact .frame .refl hrow rfl

theorem appendRecords_grown {s : Tables × Option MinuteState} {records all : List LogRecord}
    (hall : ∀ record ∈ records, record ∈ all) :
    Grown (IsAppended parser all) s.1 (appendRecords parser s records).1.1 := by
  induction records generalizing s with
  | nil => exact .refl
  | cons record rest ih =>
      rw [List.forall_mem_cons] at hall
      rw [appendRecords]
      cases hrecord : appendRecord parser s record with
      | error e => exact .refl
      | ok s' => exact (appendRecord_grown hall.1 hrecord).trans (ih hall.2)

/-- Either nothing is appended or a row for each record. -/
theorem appendFrames_grown (parser : Option Parser) (tables : Tables) (state : Option MinuteState)
    (records : List LogRecord) :
    Grown (IsAppended parser records) tables (appendFrames parser tables state records).1.1 := by
  have hgrown : Grown (IsAppended parser records) ((tables, state) : Tables × _).1
      (appendRecords parser (tables, state) records).1.1 := appendRecords_grown fun _ h => h
  rw [appendFrames]
  revert hgrown
  obtain ⟨⟨t, state'⟩, outcome⟩ := appendRecords parser (tables, state) records
  intro hgrown
  cases outcome with
  | error e => exact .refl
  | ok _ => exact hgrown

theorem indexedRow_eq {id : ℕ} {record : LogRecord} {parsed : Parsed} {row : FrameRow}
    (h : indexedRow id record parsed = .ok row) : row.id = id ∧ row.logTime = record.logTime := by
  obtain ⟨b, -, h⟩ := bind_eq_ok h
  cases h
  exact ⟨rfl, rfl⟩

theorem indexRecord_grown {s s' : Tables × MinuteState} {record : LogRecord}
    {records : List LogRecord} (hrecord : record ∈ records)
    (h : indexRecord parser s record = .ok s') : Grown (IsIndexed parser records) s.1 s'.1 := by
  obtain ⟨row, hrow, h⟩ := bind_eq_ok h
  obtain ⟨hid, htime⟩ := indexedRow_eq hrow
  have hP : IsIndexed parser records row := ⟨record, hrecord, by rw [hid]; exact hrow⟩
  dsimp only at h
  split at h
  · exact insertMinuteReport_grown .refl hP hid htime h
  · cases h
    exact .frame .refl hP hid

theorem indexRecords_grown {committed : Tables} {s : Tables × MinuteState}
    {records all : List LogRecord} (hall : ∀ record ∈ records, record ∈ all)
    (hcommitted : Grown (IsIndexed parser all) tables committed)
    (hs : Grown (IsIndexed parser all) tables s.1) :
    Grown (IsIndexed parser all) tables (indexRecords parser committed s records).1 := by
  induction records generalizing committed s with
  | nil => exact hs
  | cons record rest ih =>
      rw [List.forall_mem_cons] at hall
      rw [indexRecords]
      cases hrecord : indexRecord parser s record with
      | error e => exact hcommitted
      | ok s' =>
          have hs' := hs.trans (indexRecord_grown hall.1 hrecord)
          apply ih hall.2
          · split
            · exact hs'
            · exact hcommitted
          · exact hs'

/-- A file is indexed into empty tables, up to the frame that raises. -/
theorem indexFile_grown (parser : Option Parser) (lines : List Bytes) :
    Grown (IsIndexed parser (lines.filterMap extractLogRecord)) {} (indexFile parser lines).1 :=
  indexRecords_grown (fun _ h => h) .refl .refl

end Writers

/-! ## Times of a log -/

theorem bracketed_ne_nil {text inner rest : List Char} (h : bracketed text = some (inner, rest)) :
    inner ≠ [] := by
  unfold bracketed at h
  split at h
  · split at h
    · cases h
    · next hnot _ =>
        obtain ⟨rfl, -⟩ := Prod.mk.inj (Option.some.inj h)
        exact hnot
    · cases h
  · cases h

/-- Every record of a log has a time. -/
theorem extractLogRecord_time {line : Bytes} {record : LogRecord}
    (h : extractLogRecord line = some record) : record.logTime ≠ "" := by
  unfold extractLogRecord at h
  obtain ⟨⟨sequence, time, payload⟩, hheader, h⟩ := Option.bind_eq_some_iff.mp h
  obtain ⟨first, -, h⟩ := Option.bind_eq_some_iff.mp h
  obtain ⟨fromEnd, -, h⟩ := Option.bind_eq_some_iff.mp h
  have htime : record.logTime = time := by
    dsimp only at h
    split at h
    · cases h
    · obtain rfl := Option.some.inj h
      rfl
  obtain ⟨⟨inner, rest⟩, -, hheader⟩ := Option.bind_eq_some_iff.mp hheader
  obtain ⟨⟨inner', rest'⟩, hbracket, hheader⟩ := Option.bind_eq_some_iff.mp hheader
  have hinner := bracketed_ne_nil hbracket
  dsimp only at hheader
  split at hheader
  · cases hheader
  · obtain ⟨-, hclock, -⟩ : _ = sequence ∧ String.ofList inner' = time ∧ _ := by
      simpa using hheader
    rw [htime, ← hclock]
    intro hempty
    exact hinner (by simpa using congrArg String.toList hempty)

end HplcWorkbench.ListenerLog
