import HplcWorkbench.TaskReports

/-!
# Captured frames and the times stored for their reports

The frames of a log go into the tables with identifiers in the order of capture. A report is stored
under a day and its clock. The day is 0 until a clock falls back by more than twelve hours; from that
report on every further one is a day later, except where the second comes twelve hours or more after
the first.
-/

namespace HplcWorkbench.ListenerLog

/-! ## The days of the reports -/

/-- The day of the last of some reports, where the first is the one behind midnight. -/
def daysSince : List ℕ → ℕ
  | first :: second :: more =>
    if first + 43200000 ≤ second then more.length + 1 else more.length + 2
  | _ => 1

/-- The day of the last of some reports with these clocks. -/
def reportDays : List ℕ → ℕ
  | a :: b :: rest => if b + 43200000 < a then daysSince (b :: rest) else reportDays (b :: rest)
  | _ => 0

/-- The state behind a report of a clock on a day. -/
def stateOn (day clock : ℕ) : MinuteState := ⟨day, some (day * dayMs + clock)⟩

theorem advance_stateOn (day clock ms : ℕ) :
    (stateOn day clock).advance ms =
      stateOn (if ms + 43200000 < day * dayMs + clock then day + 1 else day) ms := by
  by_cases h : ms + 43200000 < day * dayMs + clock
  · rw [if_pos h]
    exact advance_rolled h
  · rw [if_neg h]
    exact advance_same (Nat.not_lt.mp h)

/-- Behind the second day each report is a day later. -/
theorem foldl_advance_late {day : ℕ} (clock : ℕ) {clocks : List ℕ} (hday : 2 ≤ day)
    (hclocks : ∀ c ∈ clocks, c < dayMs) :
    clocks.foldl MinuteState.advance (stateOn day clock) =
      stateOn (day + clocks.length) (clocks.getLastD clock) := by
  induction clocks generalizing day clock with
  | nil => rfl
  | cons c rest ih =>
      rw [List.forall_mem_cons] at hclocks
      have hrolled : c + 43200000 < day * dayMs + clock := by
        have hdays : 2 * dayMs ≤ day * dayMs := Nat.mul_le_mul_right _ hday
        have hc := hclocks.1
        rw [dayMs] at hc hdays ⊢
        omega
      rw [List.foldl_cons, advance_stateOn, if_pos hrolled, ih _ (by omega) hclocks.2,
        List.length_cons, List.getLastD_cons]
      congr 1
      omega

theorem foldl_advance_behind {clock : ℕ} {clocks : List ℕ} (hclocks : ∀ c ∈ clocks, c < dayMs) :
    clocks.foldl MinuteState.advance (stateOn 1 clock) =
      stateOn (daysSince (clock :: clocks)) (clocks.getLastD clock) := by
  cases clocks with
  | nil => rfl
  | cons b more =>
      rw [List.forall_mem_cons] at hclocks
      rw [List.foldl_cons, advance_stateOn, daysSince, List.getLastD_cons]
      by_cases hlate : clock + 43200000 ≤ b
      · -- the stored time is not ahead of the clock by half a day yet
        rw [if_neg (by rw [dayMs]; omega), if_pos hlate]
        cases more with
        | nil => rfl
        | cons c rest =>
            rw [List.forall_mem_cons] at hclocks
            have hc := hclocks.2.1
            have hrolled : c + 43200000 < 1 * dayMs + b := by
              rw [dayMs] at hc ⊢
              omega
            rw [List.foldl_cons, advance_stateOn, if_pos hrolled,
              foldl_advance_late c (by omega) hclocks.2.2, List.length_cons, List.getLastD_cons]
            congr 1
            omega
      · rw [if_pos (by have hb := hclocks.1; rw [dayMs] at hb ⊢; omega), if_neg hlate,
          foldl_advance_late b (by omega) hclocks.2]
        congr 1
        omega

theorem foldl_advance_first {clock : ℕ} {clocks : List ℕ} (hclocks : ∀ c ∈ clocks, c < dayMs) :
    clocks.foldl MinuteState.advance (stateOn 0 clock) =
      stateOn (reportDays (clock :: clocks)) (clocks.getLastD clock) := by
  induction clocks generalizing clock with
  | nil => rfl
  | cons b rest ih =>
      rw [List.forall_mem_cons] at hclocks
      rw [List.foldl_cons, advance_stateOn, reportDays, Nat.zero_mul, Nat.zero_add,
        List.getLastD_cons]
      by_cases hfall : b + 43200000 < clock
      · rw [if_pos hfall, if_pos hfall]
        exact foldl_advance_behind hclocks.2
      · rw [if_neg hfall, if_neg hfall]
        exact ih hclocks.2

/-- From a fresh state a report is stored under its clock and the day that is counted up to it. -/
theorem stateAfter_fresh {clocks : List ℕ} {clock : ℕ} (hclocks : ∀ c ∈ clocks ++ [clock], c < dayMs) :
    stateAfter {} (clocks ++ [clock]) = stateOn (reportDays (clocks ++ [clock])) clock := by
  cases clocks with
  | nil =>
      have hstart : stateOn 0 clock = ⟨0, some clock⟩ := by rw [stateOn, Nat.zero_mul, Nat.zero_add]
      exact (advance_start clock).trans hstart.symm
  | cons c rest =>
      have hstart : stateOn 0 c = ⟨0, some c⟩ := by rw [stateOn, Nat.zero_mul, Nat.zero_add]
      rw [List.cons_append, List.forall_mem_cons] at hclocks
      rw [List.cons_append, stateAfter, List.foldl_cons, advance_start, ← hstart,
        foldl_advance_first hclocks.2, List.getLastD_concat]

/-! ## Frames with their instants -/

/-- Frames with the instants at which they were captured, less than twelve hours apart. -/
structure FrameLog where
  frames : List (LogRecord × ℕ)
  clocks : ∀ e ∈ frames, parseTimeMs e.1.logTime = some (e.2 % dayMs)
  steady : Steady (frames.map Prod.snd)

def FrameLog.records (log : FrameLog) : List LogRecord := log.frames.map Prod.fst

section Rows
variable (parser : Option Parser)

def reported (e : LogRecord × ℕ) : Bool := isMinuteReport (parseFrame parser e.1.hexFrame).simple

/-- The clocks of the reports among some frames. -/
def reportClocks (frames : List (LogRecord × ℕ)) : List ℕ :=
  (frames.filter (reported parser)).map fun e => e.2 % dayMs

/-- The tables hold some frames, and the state is the one behind their reports. -/
structure Holds (frames : List (LogRecord × ℕ)) (tables : Tables) (state : MinuteState) : Prop where
  next : tables.nextFrame = frames.length + 1
  row : ∀ row ∈ tables.frames, row.id ≤ frames.length ∧
    ∃ e, frames[row.id - 1]? = some e ∧ row.logTime = e.1.logTime
  ordered : tables.frames.Pairwise fun r s => r.id < s.id
  report : ∀ row ∈ tables.minuteReports, row.frameId ≤ frames.length ∧ 1 ≤ row.frameId ∧
    (∃ e, frames[row.frameId - 1]? = some e ∧ reported parser e) ∧
      row.timeSeconds =
        (stateAfter {} (reportClocks parser (frames.take row.frameId))).prevAbsMs.getD 0
  state : state = stateAfter {} (reportClocks parser frames)

variable {parser} {frames : List (LogRecord × ℕ)} {e : LogRecord × ℕ} {tables tables' : Tables}
  {state state' : MinuteState}

theorem reportClocks_append_other (h : reported parser e = false) :
    reportClocks parser (frames ++ [e]) = reportClocks parser frames := by
  simp [reportClocks, List.filter_append, h]

theorem reportClocks_append_report (h : reported parser e = true) :
    reportClocks parser (frames ++ [e]) = reportClocks parser frames ++ [e.2 % dayMs] := by
  simp [reportClocks, List.filter_append, h]

theorem holds_empty : Holds parser [] {} {} where
  next := rfl
  row := List.forall_mem_nil _
  ordered := List.Pairwise.nil
  report := List.forall_mem_nil _
  state := rfl

/-- Whoever writes the row of a frame, the rows before it stay as they are. -/
theorem Holds.insertFrame (h : Holds parser frames tables state) {row : FrameRow}
    (hid : row.id = tables.nextFrame) (htime : row.logTime = e.1.logTime) :
    (tables.insertFrame row).nextFrame = (frames ++ [e]).length + 1 ∧
      (∀ r ∈ (tables.insertFrame row).frames, r.id ≤ (frames ++ [e]).length ∧
        ∃ e', (frames ++ [e])[r.id - 1]? = some e' ∧ r.logTime = e'.1.logTime) ∧
      (tables.insertFrame row).frames.Pairwise fun r s => r.id < s.id := by
  rw [List.length_append, List.length_singleton]
  refine ⟨?_, ?_, ?_⟩
  · rw [Tables.insertFrame, h.next]
  · intro r hr
    rw [Tables.insertFrame, List.mem_append, List.mem_singleton] at hr
    rcases hr with hr | rfl
    · obtain ⟨hle, e', he', htime'⟩ := h.row r hr
      have hlt := (List.getElem?_eq_some_iff.mp he').1
      exact ⟨Nat.le_succ_of_le hle, e', (List.getElem?_append_left hlt).trans he', htime'⟩
    · rw [hid, h.next]
      exact ⟨le_rfl, e, by simp, htime⟩
  · rw [Tables.insertFrame, List.pairwise_append]
    refine ⟨h.ordered, List.pairwise_singleton _ _, ?_⟩
    intro r hr s hs
    obtain ⟨hle, -⟩ := h.row r hr
    rw [List.mem_singleton.mp hs, hid, h.next]
    exact Nat.lt_succ_of_le hle

/-- The reports of the frames before are stored as before. -/
theorem Holds.report_append (h : Holds parser frames tables state) (e : LogRecord × ℕ) :
    ∀ row ∈ tables.minuteReports, row.frameId ≤ (frames ++ [e]).length ∧ 1 ≤ row.frameId ∧
      (∃ e', (frames ++ [e])[row.frameId - 1]? = some e' ∧ reported parser e') ∧
        row.timeSeconds =
          (stateAfter {} (reportClocks parser ((frames ++ [e]).take row.frameId))).prevAbsMs.getD 0 := by
  intro row hrow
  obtain ⟨hle, hpos, ⟨e', he', hreported⟩, htime⟩ := h.report row hrow
  have hlt := (List.getElem?_eq_some_iff.mp he').1
  rw [List.take_append_of_le_length hle, List.length_append]
  exact ⟨Nat.le_add_right_of_le hle, hpos,
    ⟨e', (List.getElem?_append_left hlt).trans he', hreported⟩, htime⟩

theorem Holds.other (h : Holds parser frames tables state) {row : FrameRow}
    (hid : row.id = tables.nextFrame) (htime : row.logTime = e.1.logTime)
    (hother : reported parser e = false) :
    Holds parser (frames ++ [e]) (tables.insertFrame row) state where
  next := (h.insertFrame hid htime).1
  row := (h.insertFrame hid htime).2.1
  ordered := (h.insertFrame hid htime).2.2
  report := h.report_append e
  state := by rw [reportClocks_append_other hother, h.state]

/-- What an insert into `minute_reports` does where the clock can be read. -/
theorem insertMinuteReport_ok {frameId ms : ℕ} {record : LogRecord} {simple : Params}
    (hclock : parseTimeMs record.logTime = some ms)
    (h : insertMinuteReport tables frameId record simple state = .ok (tables', state')) :
    state' = state.advance ms ∧ tables'.frames = tables.frames ∧
      tables'.nextFrame = tables.nextFrame ∧
        ∃ row, tables'.minuteReports = tables.minuteReports ++ [row] ∧ row.frameId = frameId ∧
          row.timeSeconds = (state.advance ms).prevAbsMs.getD 0 := by
  unfold insertMinuteReport at h
  obtain ⟨fields, -, h⟩ := bind_eq_ok h
  rw [hclock] at h
  obtain ⟨-, -, h⟩ := bind_eq_ok h
  obtain ⟨rfl, rfl⟩ := Prod.mk.inj (Except.ok.inj h)
  exact ⟨rfl, rfl, rfl, _, rfl, rfl, rfl⟩

theorem Holds.reportFrame (h : Holds parser frames tables state) {row : FrameRow} {simple : Params}
    (hid : row.id = tables.nextFrame) (htime : row.logTime = e.1.logTime)
    (hclock : parseTimeMs e.1.logTime = some (e.2 % dayMs)) (hreported : reported parser e = true)
    (hinsert : insertMinuteReport (tables.insertFrame row) row.id e.1 simple state =
      .ok (tables', state')) :
    Holds parser (frames ++ [e]) tables' state' := by
  obtain ⟨rfl, hframes, hnext, new, hreports, hframeId, hseconds⟩ :=
    insertMinuteReport_ok hclock hinsert
  have hlength : new.frameId = (frames ++ [e]).length := by
    rw [hframeId, hid, h.next, List.length_append, List.length_singleton]
  have hstate : state.advance (e.2 % dayMs) =
      stateAfter {} (reportClocks parser (frames ++ [e])) := by
    rw [reportClocks_append_report hreported, stateAfter, List.foldl_append, h.state]
    rfl
  obtain ⟨hnext', hrow, hordered⟩ := h.insertFrame hid htime
  refine ⟨hnext.trans hnext', hframes ▸ hrow, hframes ▸ hordered, ?_, hstate⟩
  intro r hr
  rw [hreports, List.mem_append, List.mem_singleton] at hr
  rcases hr with hr | rfl
  · exact h.report_append e r hr
  · rw [hlength, List.take_length, ← hstate]
    refine ⟨le_rfl, by simp, ⟨e, by simp, hreported⟩, hseconds⟩

/-! ## The two writers -/

theorem indexedRow_ok {id : ℕ} {record : LogRecord} {parsed : Parsed} {row : FrameRow}
    (h : indexedRow id record parsed = .ok row) : row.id = id ∧ row.logTime = record.logTime := by
  unfold indexedRow at h
  obtain ⟨assessable, -, h⟩ := bind_eq_ok h
  obtain rfl := Except.ok.inj h
  exact ⟨rfl, rfl⟩

theorem Holds.indexRecord (h : Holds parser frames tables state)
    (hclock : parseTimeMs e.1.logTime = some (e.2 % dayMs))
    (hrecord : indexRecord parser (tables, state) e.1 = .ok (tables', state')) :
    Holds parser (frames ++ [e]) tables' state' := by
  unfold ListenerLog.indexRecord at hrecord
  dsimp only at hrecord
  obtain ⟨row, hrow, hrecord⟩ := bind_eq_ok hrecord
  obtain ⟨hid, htime⟩ := indexedRow_ok hrow
  split at hrecord
  · rename_i hreported
    exact h.reportFrame hid htime hclock hreported hrecord
  · rename_i hother
    obtain ⟨rfl, rfl⟩ := Prod.mk.inj (Except.ok.inj hrecord)
    exact h.other hid htime (Bool.eq_false_iff.mpr hother)

theorem Holds.appendRecord (h : Holds parser frames tables state)
    (hclock : parseTimeMs e.1.logTime = some (e.2 % dayMs)) {s : Tables × Option MinuteState}
    (hrecord : appendRecord parser (tables, some state) e.1 = .ok s) :
    ∃ tables' state', s = (tables', some state') ∧ Holds parser (frames ++ [e]) tables' state' := by
  have hid : (appendedRow tables.nextFrame e.1 (parseFrame parser e.1.hexFrame)).id =
      tables.nextFrame := rfl
  unfold ListenerLog.appendRecord at hrecord
  dsimp only at hrecord
  split at hrecord
  · rename_i hreported
    obtain ⟨⟨tables', state'⟩, hinsert, hrecord⟩ := bind_eq_ok hrecord
    obtain rfl := Except.ok.inj hrecord
    refine ⟨tables', state', rfl, ?_⟩
    exact h.reportFrame hid rfl hclock hreported hinsert
  · rename_i hother
    obtain rfl := Except.ok.inj hrecord
    refine ⟨_, state, rfl, ?_⟩
    exact h.other hid rfl (Bool.eq_false_iff.mpr hother)

theorem Holds.indexRecords {more : List (LogRecord × ℕ)} (h : Holds parser frames tables state)
    (hclocks : ∀ e ∈ more, parseTimeMs e.1.logTime = some (e.2 % dayMs)) {committed : Tables}
    (hrecords : indexRecords parser committed (tables, state) (more.map Prod.fst) = (tables', .ok ())) :
    ∃ state', Holds parser (frames ++ more) tables' state' := by
  induction more generalizing frames tables state committed with
  | nil =>
      obtain rfl := (Prod.mk.inj hrecords).1
      exact ⟨state, by rwa [List.append_nil]⟩
  | cons e rest ih =>
      rw [List.forall_mem_cons] at hclocks
      rw [List.map_cons, ListenerLog.indexRecords] at hrecords
      split at hrecords
      · cases hrecords
      · rename_i s hrecord
        have hall := ih (h.indexRecord hclocks.1 hrecord) hclocks.2 hrecords
        rwa [← List.append_cons] at hall

theorem Holds.appendRecords {more : List (LogRecord × ℕ)} (h : Holds parser frames tables state)
    (hclocks : ∀ e ∈ more, parseTimeMs e.1.logTime = some (e.2 % dayMs)) {s : Tables × Option MinuteState}
    (hrecords : appendRecords parser (tables, some state) (more.map Prod.fst) = (s, .ok ())) :
    ∃ tables' state', s = (tables', some state') ∧ Holds parser (frames ++ more) tables' state' := by
  induction more generalizing frames tables state with
  | nil =>
      obtain rfl := (Prod.mk.inj hrecords).1
      exact ⟨tables, state, rfl, by rwa [List.append_nil]⟩
  | cons e rest ih =>
      rw [List.forall_mem_cons] at hclocks
      rw [List.map_cons, ListenerLog.appendRecords] at hrecords
      split at hrecords
      · cases hrecords
      · rename_i hrecord
        obtain ⟨tables', state', rfl, hholds⟩ := h.appendRecord hclocks.1 hrecord
        have hall := ih hholds hclocks.2 hrecords
        rwa [← List.append_cons] at hall

/-- Batches are appended one after the other, with the state handed on. -/
theorem Holds.appendBatches {batches : List (List LogRecord)} {more : List (LogRecord × ℕ)}
    (h : Holds parser frames tables state) (hmore : more.map Prod.fst = batches.flatten)
    (hclocks : ∀ e ∈ more, parseTimeMs e.1.logTime = some (e.2 % dayMs)) {s : Tables × Option MinuteState}
    (hbatches : appendBatches parser (tables, some state) batches = (s, .ok ())) :
    ∃ state', Holds parser (frames ++ more) s.1 state' := by
  induction batches generalizing frames more tables state with
  | nil =>
      obtain rfl := List.map_eq_nil_iff.mp hmore
      obtain rfl := (Prod.mk.inj hbatches).1
      exact ⟨state, by rwa [List.append_nil]⟩
  | cons batch rest ih =>
      rw [List.flatten_cons] at hmore
      obtain ⟨first, others, rfl, rfl, hothers⟩ := List.map_eq_append_iff.mp hmore
      rw [List.forall_mem_append] at hclocks
      rw [ListenerLog.appendBatches, appendFrames] at hbatches
      cases hrecords : ListenerLog.appendRecords parser (tables, some state) (first.map Prod.fst) with
      | mk s' outcome =>
          rw [hrecords] at hbatches
          cases outcome with
          | error e => cases hbatches
          | ok _ =>
              obtain ⟨tables', state', rfl, hholds⟩ := h.appendRecords hclocks.1 hrecords
              have hall := ih hholds hothers hclocks.2 hbatches
              rwa [List.append_assoc] at hall

/-- The tables that a log leaves: indexed from a file, or appended in batches as it is captured. -/
inductive Stored (parser : Option Parser) : List LogRecord → Tables → Prop
  | file {lines : List Bytes} {tables : Tables} (h : indexFile parser lines = (tables, .ok ())) :
      Stored parser (lines.filterMap extractLogRecord) tables
  | live {batches : List (List LogRecord)} {s : Tables × Option MinuteState}
      (h : appendBatches parser ({}, some {}) batches = (s, .ok ())) :
      Stored parser batches.flatten s.1

theorem Stored.holds {log : FrameLog} (h : Stored parser log.records tables) :
    ∃ state, Holds parser log.frames tables state := by
  generalize hrecords : log.records = records at h
  cases h with
  | file h =>
      rw [indexFile, ← hrecords] at h
      exact holds_empty.indexRecords log.clocks h
  | live h => exact holds_empty.appendBatches hrecords log.clocks h

end Rows

end HplcWorkbench.ListenerLog
