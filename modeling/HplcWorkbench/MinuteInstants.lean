import HplcWorkbench.ListenerLog

/-!
# The instants of minute reports

A report carries the clock of its instant and the stored time should be the instant, in milliseconds
since midnight of the first day. A clock that falls back by more than twelve hours begins a new day,
but it is compared with the stored time and not with the clock before it. The times stored are the
instants exactly when no report but the last comes after the first midnight, from a file as in any
batches.
-/

namespace HplcWorkbench.ListenerLog

/-- The length of a day. -/
def dayMs : ℕ := 86400000

/-- Instants that begin on day 0, never decrease and lie less than twelve hours apart. -/
structure Steady (instants : List ℕ) : Prop where
  firstDay : ∀ t ∈ instants.head?, t < dayMs
  close : instants.IsChain fun t u => t ≤ u ∧ u < t + 43200000

/-- No report but the last is later than day 0. -/
def OneMidnight (instants : List ℕ) : Prop := ∀ t ∈ instants.dropLast, t < dayMs

/-! ## Clock texts -/

theorem decValue_eq_ofDigitChars (ds : List Char) :
    Adapter645.decValue ds = Nat.ofDigitChars 10 ds 0 := by
  rw [Adapter645.decValue, Nat.ofDigitChars_eq_foldl]
  congr 1
  funext n c
  rw [mul_comm]
  rfl

theorem toList_padDec (w n : ℕ) :
    (padDec w n).toList =
      List.replicate (w - (Nat.toDigits 10 n).length) '0' ++ Nat.toDigits 10 n := by
  rw [padDec, String.toList_append, String.toList_ofList, Nat.toString_eq_ofList_toDigits,
    String.length_ofList, String.toList_ofList]

theorem length_padDec {w n : ℕ} (hw : 0 < w) (h : n < 10 ^ w) : (padDec w n).toList.length = w := by
  have hlen := (Nat.length_toDigits_le_iff (b := 10) (by decide) hw).mpr h
  rw [toList_padDec, List.length_append, List.length_replicate]
  omega

theorem digitsInt_padDec (w n : ℕ) : digitsInt (padDec w n).toList = some n := by
  have hdigits : (padDec w n).toList.all Char.isDigit := by
    rw [toList_padDec, List.all_append, Bool.and_eq_true]
    constructor
    · exact List.all_eq_true.mpr fun c hc => List.eq_of_mem_replicate hc ▸ rfl
    · exact List.all_eq_true.mpr fun c hc => Nat.isDigit_of_mem_toDigits (by decide) (by decide) hc
  rw [digitsInt, if_pos hdigits, decValue_eq_ofDigitChars, toList_padDec, Nat.ofDigitChars_append,
    Nat.ofDigitChars_replicate_zero, Nat.mul_zero, Nat.ofDigitChars_ten_toDigits]

theorem exists_pair {n : ℕ} (h : n < 100) :
    ∃ a b, (padDec 2 n).toList = [a, b] ∧ digitsInt [a, b] = some n := by
  obtain ⟨a, b, hab⟩ := List.length_eq_two.mp (length_padDec (w := 2) (by decide) h)
  exact ⟨a, b, hab, hab ▸ digitsInt_padDec 2 n⟩

theorem exists_triple {n : ℕ} (h : n < 1000) :
    ∃ a b c, (padDec 3 n).toList = [a, b, c] ∧ digitsInt [a, b, c] = some n := by
  obtain ⟨a, b, c, habc⟩ := List.length_eq_three.mp (length_padDec (w := 3) (by decide) h)
  exact ⟨a, b, c, habc, habc ▸ digitsInt_padDec 3 n⟩

/-- The clock text of an instant is read back as the part within the day. -/
theorem parseTimeMs_clockText (t : ℕ) : parseTimeMs (clockText t) = some (t % dayMs) := by
  obtain ⟨h₁, h₂, hhour, hhour'⟩ := exists_pair (n := t % 86400000 / 3600000) (by omega)
  obtain ⟨m₁, m₂, hmin, hmin'⟩ := exists_pair (n := t % 86400000 % 3600000 / 60000) (by omega)
  obtain ⟨s₁, s₂, hsec, hsec'⟩ := exists_pair (n := t % 86400000 % 3600000 % 60000 / 1000) (by omega)
  obtain ⟨u₁, u₂, u₃, hmil, hmil'⟩ :=
    exists_triple (n := t % 86400000 % 3600000 % 60000 % 1000) (by omega)
  have hchars : (clockText t).toList =
      [h₁, h₂, ':', m₁, m₂, ':', s₁, s₂, '.', u₁, u₂, u₃] := by
    simp only [clockText, String.toList_append, hhour, hmin, hsec, hmil]
    rfl
  rw [parseTimeMs, hchars, parseTimeChars, hhour', hmin', hsec', hmil']
  have hjoin : t % 86400000 / 3600000 * 3600000 + t % 86400000 % 3600000 / 60000 * 60000 +
      t % 86400000 % 3600000 % 60000 / 1000 * 1000 + t % 86400000 % 3600000 % 60000 % 1000 =
        t % dayMs := by
    rw [dayMs]
    omega
  simp only [Option.bind_eq_bind, Option.bind_some, true_or, if_true, hjoin]

/-! ## The day along the reports -/

/-- What is stored for the clocks of successive reports. -/
def storedTimes (state : MinuteState) : List ℕ → List ℕ
  | [] => []
  | ms :: rest => (state.advance ms).prevAbsMs.getD 0 :: storedTimes (state.advance ms) rest

theorem advance_start (ms : ℕ) : MinuteState.advance {} ms = ⟨0, some ms⟩ := by
  simp [MinuteState.advance]

theorem advance_rolled {day prev ms : ℕ} (h : ms + 43200000 < prev) :
    MinuteState.advance ⟨day, some prev⟩ ms = ⟨day + 1, some ((day + 1) * dayMs + ms)⟩ := by
  have hlt : ms + 12 * 3600000 < prev := h
  rw [MinuteState.advance, Option.any_some, decide_eq_true hlt, if_pos rfl, dayMs]

theorem advance_same {day prev ms : ℕ} (h : prev ≤ ms + 43200000) :
    MinuteState.advance ⟨day, some prev⟩ ms = ⟨day, some (day * dayMs + ms)⟩ := by
  have hlt : ¬ ms + 12 * 3600000 < prev := Nat.not_lt.mpr h
  rw [MinuteState.advance, Option.any_some, decide_eq_false hlt, if_neg Bool.false_ne_true, dayMs]

theorem advance_firstDay {t u : ℕ} (hu : u < dayMs) (hle : t ≤ u) :
    MinuteState.advance ⟨0, some t⟩ (u % dayMs) = ⟨0, some u⟩ := by
  rw [Nat.mod_eq_of_lt hu, advance_same (by omega), Nat.zero_mul, Nat.zero_add]

/-- Over the first midnight the day is counted. -/
theorem advance_midnight {t u : ℕ} (ht : t < dayMs) (hu : dayMs ≤ u) (hclose : u < t + 43200000) :
    MinuteState.advance ⟨0, some t⟩ (u % dayMs) = ⟨1, some u⟩ := by
  rw [dayMs] at ht hu
  have hclock : u % dayMs = u - dayMs := by
    rw [dayMs]
    omega
  have hday : (0 + 1) * dayMs + (u - dayMs) = u := by
    rw [dayMs]
    omega
  rw [hclock, advance_rolled (by rw [dayMs]; omega), hday]

/-- The report after the one behind midnight is counted a day too late: its clock is far below a
stored time that already holds a day. -/
theorem advance_behind {u v : ℕ} (hu : dayMs ≤ u) (hhalf : u < dayMs + 43200000) (hle : u ≤ v)
    (hclose : v < u + 43200000) :
    MinuteState.advance ⟨1, some u⟩ (v % dayMs) = ⟨2, some (v + dayMs)⟩ := by
  rw [dayMs] at hu hhalf
  have hclock : v % dayMs = v - dayMs := by
    rw [dayMs]
    omega
  have hday : (1 + 1) * dayMs + (v - dayMs) = v + dayMs := by
    rw [dayMs]
    omega
  rw [hclock, advance_rolled (by rw [dayMs]; omega), hday]

theorem storedTimes_after {t : ℕ} {instants : List ℕ} (ht : t < dayMs)
    (hclose : (t :: instants).IsChain fun t u => t ≤ u ∧ u < t + 43200000) :
    storedTimes ⟨0, some t⟩ (instants.map (· % dayMs)) = instants ↔ OneMidnight (t :: instants) := by
  induction instants generalizing t with
  | nil => simp [storedTimes, OneMidnight]
  | cons u rest ih =>
      obtain ⟨⟨hle, hlt⟩, hrest⟩ := List.isChain_cons_cons.mp hclose
      rw [List.map_cons, storedTimes]
      by_cases hu : u < dayMs
      · have hone : OneMidnight (t :: u :: rest) ↔ OneMidnight (u :: rest) := by
          rw [OneMidnight, List.dropLast_cons_cons, List.forall_mem_cons]
          exact and_iff_right ht
        rw [advance_firstDay hu hle, hone, ← ih hu hrest]
        simp
      · have hcross := advance_midnight ht (by omega) hlt
        rw [hcross]
        cases rest with
        | nil => simpa [storedTimes, OneMidnight] using ht
        | cons v rest =>
            obtain ⟨⟨hle', hlt'⟩, -⟩ := List.isChain_cons_cons.mp hrest
            rw [List.map_cons, storedTimes, advance_behind (by omega) (by omega) hle' hlt']
            refine iff_of_false ?_ ?_
            · intro h
              have hv : v + dayMs = v := (List.cons.inj (List.cons.inj h).2).1
              exact absurd hv (by rw [dayMs]; omega)
            · intro h
              exact hu (h u (by simp))

/-- From a fresh state the times stored are the instants exactly when there is one midnight. -/
theorem storedTimes_iff {instants : List ℕ} (h : Steady instants) :
    storedTimes {} (instants.map (· % dayMs)) = instants ↔ OneMidnight instants := by
  cases instants with
  | nil => simp [storedTimes, OneMidnight]
  | cons t rest =>
      have ht : t < dayMs := h.firstDay t rfl
      rw [List.map_cons, storedTimes, advance_start, Nat.mod_eq_of_lt ht,
        ← storedTimes_after ht h.close]
      simp

/-! ## Rows of a capture -/

section Capture
variable (parser : Option Parser)

/-- A report that can be stored, captured at an instant. -/
structure ReportedAt (record : LogRecord) (instant : ℕ) : Prop where
  report : isMinuteReport (parseFrame parser record.hexFrame).simple
  fields : ∃ fields, minuteFields (parseFrame parser record.hexFrame).simple = .ok fields ∧
    fields.values.forM bindable = .ok ()
  clock : record.logTime = clockText instant

/-- The `Detail` of a summary is a text where there is one. -/
def DetailReadable (record : LogRecord) : Prop :=
  ∃ b, detailIsAssessable (Params.get (parseFrame parser record.hexFrame).simple "Detail") = .ok b

/-- The records of a capture, with the instants of the reports among them. -/
inductive Captured : List LogRecord → List ℕ → Prop
  | nil : Captured [] []
  | other {record : LogRecord} {records : List LogRecord} {instants : List ℕ} :
      isMinuteReport (parseFrame parser record.hexFrame).simple = false →
      DetailReadable parser record → Captured records instants →
      Captured (record :: records) instants
  | report {record : LogRecord} {records : List LogRecord} {t : ℕ} {instants : List ℕ} :
      ReportedAt parser record t → DetailReadable parser record → Captured records instants →
      Captured (record :: records) (t :: instants)

/-- The times in `minute_reports`. -/
def Tables.times (tables : Tables) : List ℕ := tables.minuteReports.map MinuteRow.timeSeconds

variable {parser} {record : LogRecord} {records : List LogRecord} {instants : List ℕ}

theorem insertMinuteReport_captured {t : ℕ} (h : ReportedAt parser record t) (tables : Tables)
    (frameId : ℕ) (state : MinuteState) :
    ∃ tables', insertMinuteReport tables frameId record
        (parseFrame parser record.hexFrame).simple state =
          .ok (tables', state.advance (t % dayMs)) ∧
      tables'.times = tables.times ++ [(state.advance (t % dayMs)).prevAbsMs.getD 0] := by
  obtain ⟨fields, hfields, hbind⟩ := h.fields
  have hclock : parseTimeMs record.logTime = some (t % dayMs) := by
    rw [h.clock, parseTimeMs_clockText]
  let row : MinuteRow :=
    { fields with
      id := tables.nextMinute
      frameId
      logTime := record.logTime
      timeSeconds := (state.advance (t % dayMs)).prevAbsMs.getD 0 }
  refine ⟨{ tables with
    minuteReports := tables.minuteReports ++ [row]
    nextMinute := tables.nextMinute + 1 }, ?_, ?_⟩
  · unfold insertMinuteReport
    rw [hfields, hclock]
    simp only [bind, Except.bind, hbind]
    rfl
  · rw [Tables.times, List.map_append]
    rfl

/-- The state after the clocks of successive reports. -/
def stateAfter (state : MinuteState) (clocks : List ℕ) : MinuteState :=
  clocks.foldl MinuteState.advance state

theorem storedTimes_append (state : MinuteState) (xs ys : List ℕ) :
    storedTimes state (xs ++ ys) = storedTimes state xs ++ storedTimes (stateAfter state xs) ys := by
  induction xs generalizing state with
  | nil => rfl
  | cons x xs ih => rw [List.cons_append, storedTimes, ih, storedTimes, List.cons_append]; rfl

/-! ## From a file -/

theorem exists_indexedRow (hdetail : DetailReadable parser record) (id : ℕ) :
    ∃ row, indexedRow id record (parseFrame parser record.hexFrame) = .ok row := by
  obtain ⟨b, hb⟩ := hdetail
  unfold indexedRow
  rw [hb]
  exact ⟨_, rfl⟩

theorem indexRecord_other (hother : isMinuteReport (parseFrame parser record.hexFrame).simple = false)
    (hdetail : DetailReadable parser record) (s : Tables × MinuteState) :
    ∃ tables, indexRecord parser s record = .ok (tables, s.2) ∧ tables.times = s.1.times := by
  obtain ⟨row, hrow⟩ := exists_indexedRow hdetail s.1.nextFrame
  refine ⟨s.1.insertFrame row, ?_, rfl⟩
  unfold indexRecord
  dsimp only
  rw [hrow]
  exact if_neg (by rw [hother]; exact Bool.false_ne_true)

theorem indexRecord_report {t : ℕ} (h : ReportedAt parser record t)
    (hdetail : DetailReadable parser record) (s : Tables × MinuteState) :
    ∃ tables, indexRecord parser s record = .ok (tables, s.2.advance (t % dayMs)) ∧
      tables.times = s.1.times ++ [(s.2.advance (t % dayMs)).prevAbsMs.getD 0] := by
  obtain ⟨row, hrow⟩ := exists_indexedRow hdetail s.1.nextFrame
  obtain ⟨tables, hinsert, htimes⟩ :=
    insertMinuteReport_captured h (s.1.insertFrame row) row.id s.2
  refine ⟨tables, ?_, htimes⟩
  unfold indexRecord
  dsimp only
  rw [hrow]
  exact (if_pos h.report).trans hinsert

/-- The file is indexed to its end and each report stores the time of its clock. -/
theorem indexRecords_captured (h : Captured parser records instants) (committed : Tables)
    (s : Tables × MinuteState) :
    (indexRecords parser committed s records).2 = .ok () ∧
      (indexRecords parser committed s records).1.times =
        s.1.times ++ storedTimes s.2 (instants.map (· % dayMs)) := by
  induction h generalizing committed s with
  | nil => exact ⟨rfl, (List.append_nil _).symm⟩
  | other hother hdetail _ ih =>
      obtain ⟨tables, hrecord, htimes⟩ := indexRecord_other hother hdetail s
      rw [indexRecords, hrecord, ← htimes]
      exact ih _ (tables, s.2)
  | @report record records t instants hreport hdetail _ ih =>
      obtain ⟨tables, hrecord, htimes⟩ := indexRecord_report hreport hdetail s
      rw [indexRecords, hrecord, List.map_cons, storedTimes, List.append_cons, ← htimes]
      exact ih _ (tables, s.2.advance (t % dayMs))

/-! ## In batches -/

theorem appendRecords_captured (h : Captured parser records instants) (tables : Tables)
    (state : MinuteState) :
    ∃ tables', appendRecords parser (tables, some state) records =
        ((tables', some (stateAfter state (instants.map (· % dayMs)))), .ok ()) ∧
      tables'.times = tables.times ++ storedTimes state (instants.map (· % dayMs)) := by
  induction h generalizing tables state with
  | nil => exact ⟨tables, rfl, (List.append_nil _).symm⟩
  | @other record _ _ hother _ _ ih =>
      have hrecord : appendRecord parser (tables, some state) record = .ok
          (tables.insertFrame (appendedRow tables.nextFrame record
            (parseFrame parser record.hexFrame)), some state) :=
        if_neg (by rw [hother]; exact Bool.false_ne_true)
      rw [appendRecords, hrecord]
      exact ih _ state
  | @report record records t instants hreport _ _ ih =>
      let row := appendedRow tables.nextFrame record (parseFrame parser record.hexFrame)
      obtain ⟨tables', hinsert, htimes⟩ :=
        insertMinuteReport_captured hreport (tables.insertFrame row) row.id state
      have hrecord : appendRecord parser (tables, some state) record =
          .ok (tables', some (state.advance (t % dayMs))) := by
        have hbody := congrArg
          (fun r : PyM (Tables × MinuteState) => r.map fun s => (s.1, some s.2)) hinsert
        unfold appendRecord
        exact (if_pos hreport.report).trans hbody
      rw [appendRecords, hrecord, List.map_cons, storedTimes, List.append_cons]
      have hall := ih tables' (state.advance (t % dayMs))
      rw [htimes] at hall
      exact hall

/-- `append_frames` for each batch in turn, up to the first that raises. -/
def appendBatches (parser : Option Parser) (s : Tables × Option MinuteState) :
    List (List LogRecord) → (Tables × Option MinuteState) × Except PyErr Unit
  | [] => (s, .ok ())
  | batch :: rest =>
    match appendFrames parser s.1 s.2 batch with
    | (s, .error e) => (s, .error e)
    | (s, .ok ()) => appendBatches parser s rest

theorem Captured.of_append {more : List LogRecord} (h : Captured parser (records ++ more) instants) :
    ∃ xs ys, instants = xs ++ ys ∧ Captured parser records xs ∧ Captured parser more ys := by
  induction records generalizing instants with
  | nil => exact ⟨[], instants, rfl, .nil, h⟩
  | cons record records ih =>
      cases h with
      | other hother hdetail hrest =>
          obtain ⟨xs, ys, hsplit, hxs, hys⟩ := ih hrest
          exact ⟨xs, ys, hsplit, .other hother hdetail hxs, hys⟩
      | report hreport hdetail hrest =>
          obtain ⟨xs, ys, hsplit, hxs, hys⟩ := ih hrest
          exact ⟨_ :: xs, ys, by rw [hsplit, List.cons_append], .report hreport hdetail hxs, hys⟩

/-- Every batch goes in, and the state handed on makes the batches one sequence of reports. -/
theorem appendBatches_captured {batches : List (List LogRecord)}
    (h : Captured parser batches.flatten instants) (tables : Tables) (state : MinuteState) :
    (appendBatches parser (tables, some state) batches).2 = .ok () ∧
      (appendBatches parser (tables, some state) batches).1.1.times =
        tables.times ++ storedTimes state (instants.map (· % dayMs)) := by
  induction batches generalizing tables state instants with
  | nil =>
      cases h
      exact ⟨rfl, (List.append_nil _).symm⟩
  | cons batch rest ih =>
      rw [List.flatten_cons] at h
      obtain ⟨xs, ys, rfl, hbatch, hrest⟩ := h.of_append
      obtain ⟨tables', hrecords, htimes⟩ := appendRecords_captured hbatch tables state
      have hframes : appendFrames parser tables (some state) batch =
          ((tables', some (stateAfter state (xs.map (· % dayMs)))), .ok ()) := by
        rw [appendFrames, hrecords]
      rw [appendBatches, hframes, List.map_append, storedTimes_append, ← List.append_assoc, ← htimes]
      exact ih hrest tables' _

end Capture

/-! ## Both ways into the tables -/

/-- Where the rows of a capture come from: the lines of a file, or batches of records appended to
tables, with a fresh state of the reports. -/
inductive Source
  | file (lines : List Bytes)
  | live (tables : Tables) (batches : List (List LogRecord))

namespace Source
variable (parser : Option Parser)

def records : Source → List LogRecord
  | file lines => lines.filterMap extractLogRecord
  | live _ batches => batches.flatten

/-- The times that the source adds to `minute_reports`. -/
def added : Source → Except PyErr (List ℕ)
  | file lines =>
    match indexFile parser lines with
    | (tables, .ok ()) => .ok tables.times
    | (_, .error e) => .error e
  | live tables batches =>
    match appendBatches parser (tables, some {}) batches with
    | ((tables', _), .ok ()) => .ok (tables'.times.drop tables.times.length)
    | (_, .error e) => .error e

theorem added_captured {parser : Option Parser} {source : Source} {instants : List ℕ}
    (h : Captured parser source.records instants) :
    source.added parser = .ok (storedTimes {} (instants.map (· % dayMs))) := by
  cases source with
  | file lines =>
      obtain ⟨hok, htimes⟩ : (indexFile parser lines).2 = .ok () ∧
          (indexFile parser lines).1.times = [] ++ storedTimes {} (instants.map (· % dayMs)) :=
        indexRecords_captured h {} ({}, {})
      rw [added]
      revert hok htimes
      obtain ⟨tables, outcome⟩ := indexFile parser lines
      rintro rfl htimes
      exact congrArg Except.ok htimes
  | live tables batches =>
      obtain ⟨hok, htimes⟩ := appendBatches_captured h tables {}
      rw [added]
      revert hok htimes
      obtain ⟨⟨tables', state⟩, outcome⟩ := appendBatches parser (tables, some {}) batches
      rintro rfl htimes
      dsimp only at htimes ⊢
      rw [htimes, List.drop_left]

end Source

/-- The times stored for a capture of reports at known instants are these instants exactly when no
report but the last comes after the first midnight. -/
theorem instantsStored_iff {parser : Option Parser} {source : Source} {instants : List ℕ}
    (hsource : Captured parser source.records instants) (hsteady : Steady instants) :
    source.added parser = .ok instants ↔ OneMidnight instants := by
  rw [Source.added_captured hsource, Except.ok.injEq]
  exact storedTimes_iff hsteady

/-- A parser for which every frame is a report without an application. -/
def reportParser : Parser := fun _ => .ok [("APP_ID", .str "00E4")]

/-- A report of `reportParser` at an instant. -/
def reportRecord (t : ℕ) : LogRecord := ⟨"000001", clockText t, "7E 7E"⟩

theorem captured_reportRecords (instants : List ℕ) :
    Captured (some reportParser) (instants.map reportRecord) instants := by
  induction instants with
  | nil => exact .nil
  | cons t rest ih => exact .report ⟨rfl, ⟨_, rfl, rfl⟩, rfl⟩ ⟨_, rfl⟩ ih

/-- Shortly before midnight, after midnight, and at a quarter past, in two batches. -/
def overMidnight : Source :=
  .live {} [[reportRecord 86399900], [reportRecord 86400100, reportRecord 87300000]]

/-- The third report is stored a day after its instant. -/
theorem overMidnight_not_stored :
    Captured (some reportParser) overMidnight.records [86399900, 86400100, 87300000] ∧
      Steady [86399900, 86400100, 87300000] ∧
      overMidnight.added (some reportParser) = .ok [86399900, 86400100, 173700000] := by
  have h : Captured (some reportParser) overMidnight.records [86399900, 86400100, 87300000] :=
    captured_reportRecords [86399900, 86400100, 87300000]
  refine ⟨h, ⟨by decide, by decide⟩, ?_⟩
  exact Source.added_captured h

theorem beforeMidnight_stored :
    Source.added (some reportParser) (.live {} [[reportRecord 86399900, reportRecord 86400100]]) =
      .ok [86399900, 86400100] :=
  (instantsStored_iff (captured_reportRecords [86399900, 86400100])
    ⟨by decide, by decide⟩).mpr (by unfold OneMidnight; decide)

end HplcWorkbench.ListenerLog
