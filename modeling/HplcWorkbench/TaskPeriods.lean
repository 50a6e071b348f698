import HplcWorkbench.FrameInstants

/-!
# The period of a configuration

A report belongs to the configuration of its meter when it was captured at or after the last enable
command and before the reply that confirms the deletion. What is compared are two times that were
counted apart: the days of the 00E2 frames along these, the days of the reports along the reports.
-/

namespace HplcWorkbench.ListenerLog

open OrderedDict

/-! ## Commands and replies of a meter -/

/-- An enable command and the reply that confirms the deletion after it. -/
abbrev TaskPeriod := TaskRecord × Option TaskRecord

section Periods
variable (counts : PyVal → Bool)

/-- A record of the meter, where an enable command counts by its period. -/
def periodStep (p : Option TaskPeriod) (r : TaskRecord) : Option TaskPeriod :=
  match r.kind with
  | .downConfig .enable period _ => if counts period then some (r, none) else p
  | .up .delete true _ => p.map fun p => (p.1, p.2.or (some r))
  | _ => p

/-- The last enable command that counts, with the first confirmed deletion after it. -/
def lastPeriod (task mac : String) (records : List TaskRecord) : Option TaskPeriod :=
  (records.filter fun r => r.taskNo = task && r.mac = mac).foldl (periodStep counts) none

end Periods

/-- The period that a configuration is kept for: its minutes can be read and are not 0. -/
def kept (period : PyVal) : Bool := configuredPeriod period ≠ 0

/-- A time is in the period, by the times of the frames. -/
def TaskPeriod.Contains (time : ℕ → ℕ) (p : TaskPeriod) (t : ℕ) : Prop :=
  time p.1.frameId ≤ t ∧ ∀ d ∈ p.2, t < time d.frameId

/-! ## Instants and the times that are counted -/

namespace FrameLog
variable (log : FrameLog)

/-- The instant of the frame with an identifier. -/
def instant (frameId : ℕ) : ℕ := ((log.frames[frameId - 1]?).map Prod.snd).getD 0

def clock (frameId : ℕ) : ℕ := log.instant frameId % dayMs

/-- The clock of a report on the day that is counted along the reports. -/
def reportMs (parser : Option Parser) (frameId : ℕ) : ℕ :=
  reportDays (reportClocks parser (log.frames.take frameId)) * dayMs + log.clock frameId

/-- The clock of a 00E2 frame on the day of its falls by more than twelve hours, along the 00E2
frames. -/
def configMs (records : List TaskRecord) (frameId : ℕ) : ℕ :=
  midnights none (((records.map TaskRecord.frameId).filter (· ≤ frameId)).map log.clock) * dayMs +
    log.clock frameId

/-- Captured between the last enable command and the confirmed deletion. -/
def InPeriod (task mac : String) (records : List TaskRecord) (frameId : ℕ) : Prop :=
  ∃ p ∈ lastPeriod (fun _ => true) task mac records, p.Contains log.instant (log.instant frameId)

/-- So it is by the times that are counted, of the commands that are kept. -/
def CountedInPeriod (parser : Option Parser) (task mac : String) (records : List TaskRecord)
    (frameId : ℕ) : Prop :=
  ∃ p ∈ lastPeriod kept task mac records,
    p.Contains (log.configMs records) (log.reportMs parser frameId)

end FrameLog

/-! ## The records in time -/

theorem e2Record_some {cco logTime : String} {frameId : ℕ} {simple : Params} {r : E2Record}
    (h : e2Record cco frameId logTime simple = .ok (some r)) :
    r.frameId = frameId ∧ r.logTime = logTime := by
  unfold e2Record at h
  obtain ⟨appId, -, h⟩ := bind_eq_ok h
  split at h
  · cases h
  · obtain ⟨application, -, h⟩ := bind_eq_ok h
    obtain ⟨fields, -, h⟩ := bind_eq_ok h
    obtain ⟨finlD, -, h⟩ := bind_eq_ok h
    obtain ⟨oriS, -, h⟩ := bind_eq_ok h
    split at h
    · have hup := Except.ok.inj h
      unfold upRecord at hup
      split at hup
      · split at hup
        · cases hup
        · split at hup
          · cases hup
          · obtain rfl := Option.some.inj hup
            exact ⟨rfl, rfl⟩
      · cases hup
    · split at h
      · obtain ⟨operation, -, h⟩ := bind_eq_ok h
        obtain ⟨operation', -, rfl⟩ := Option.map_eq_some_iff.mp (Except.ok.inj h)
        exact ⟨rfl, rfl⟩
      · cases h

/-- The records come in the order of their frames. -/
theorem collectE2_sublist {cco : String} {rows : List FrameRow} {records : List E2Record}
    (h : collectE2 cco rows = .ok records) :
    (records.map fun r => (r.frameId, r.logTime)).Sublist (rows.map fun r => (r.id, r.logTime)) := by
  induction rows generalizing records with
  | nil =>
      obtain rfl := Except.ok.inj h
      exact List.Sublist.refl _
  | cons row rest ih =>
      rw [collectE2] at h
      obtain ⟨record, hrecord, h⟩ := bind_eq_ok h
      obtain ⟨more, hmore, h⟩ := bind_eq_ok h
      obtain rfl := Except.ok.inj h
      cases record with
      | none => exact (ih hmore).cons _
      | some r =>
          obtain ⟨hid, htime⟩ := e2Record_some hrecord
          rw [Option.toList_some, List.singleton_append, List.map_cons, List.map_cons, hid, htime]
          exact (ih hmore).cons_cons _

theorem e2Records_sublist {sql : Sqlite} {tables : Tables} {ccoTei nid startTime endTime : String}
    {records : List E2Record} (h : e2Records sql tables ccoTei nid startTime endTime = .ok records) :
    (records.map fun r => (r.frameId, r.logTime)).Sublist
      (tables.frames.map fun r => (r.id, r.logTime)) := by
  unfold e2Records at h
  split at h
  · obtain ⟨window, -, h⟩ := bind_eq_ok h
    exact (collectE2_sublist h).trans (List.filter_sublist.map _)
  · cases h

theorem map_frameId_stamped (day : ℕ) (prev : Option ℕ) (records : List E2Record) :
    (List.zipWith taskRecord records (absoluteMsFrom day prev (records.map E2Record.logTime))).map
      TaskRecord.frameId = records.map E2Record.frameId := by
  induction records generalizing day prev with
  | nil => rfl
  | cons r rest ih =>
      rw [List.map_cons, absoluteMsFrom]
      split <;> rw [List.zipWith_cons_cons, List.map_cons, List.map_cons, ih] <;> rfl

/-- The stamped records, each with the midnights that the clocks up to it show. -/
theorem mem_stamped {clock : ℕ → ℕ} {records : List E2Record} {day : ℕ} {prev : Option ℕ}
    (hreads : ∀ r ∈ records, parseTimeMs r.logTime = some (clock r.frameId)) {t : TaskRecord}
    (ht : t ∈ List.zipWith taskRecord records (absoluteMsFrom day prev (records.map E2Record.logTime))) :
    ∃ before r after, records = before ++ r :: after ∧ t.frameId = r.frameId ∧
      t.absoluteMs = some ((day + midnights prev
        ((before ++ [r]).map fun r => clock r.frameId)) * dayMs + clock r.frameId) := by
  induction records generalizing day prev with
  | nil => cases ht
  | cons r rest ih =>
      rw [List.forall_mem_cons] at hreads
      rw [List.map_cons, absoluteMsFrom, hreads.1] at ht
      dsimp only at ht
      rw [List.zipWith_cons_cons, List.mem_cons] at ht
      have hday : (if prev.any fun p => clock r.frameId + 12 * 3600000 < p then day + 1 else day) =
          day + midnights prev [clock r.frameId] := by
        rw [midnights, midnights]
        split <;> rfl
      rw [hday] at ht
      rcases ht with rfl | ht
      · exact ⟨[], r, rest, rfl, rfl, rfl⟩
      · obtain ⟨before, q, after, hsplit, hid, hms⟩ := ih hreads.2 ht
        refine ⟨r :: before, q, after, by rw [hsplit, List.cons_append], hid, ?_⟩
        rw [hms, List.cons_append, List.map_cons, midnights, midnights, midnights, Nat.add_zero,
          Nat.add_assoc]

theorem filter_le_prefix {before after : List ℕ} {id : ℕ}
    (h : (before ++ id :: after).Pairwise (· < ·)) :
    (before ++ id :: after).filter (· ≤ id) = before ++ [id] := by
  obtain ⟨-, hafter, hbefore⟩ := List.pairwise_append.mp h
  rw [List.filter_append, List.filter_cons_of_pos (by simp)]
  congr 1
  · exact List.filter_eq_self.mpr fun n hn =>
      decide_eq_true (hbefore n hn id List.mem_cons_self).le
  · congr 1
    exact List.filter_eq_nil_iff.mpr fun n hn => by
      simpa using (List.pairwise_cons.mp hafter).1 n hn

section Tables
variable {parser : Option Parser} {log : FrameLog} {tables : Tables} {state : MinuteState}

theorem FrameLog.clock_of_getElem? {frameId : ℕ} {e : LogRecord × ℕ}
    (h : log.frames[frameId - 1]? = some e) : parseTimeMs e.1.logTime = some (log.clock frameId) := by
  rw [log.clocks e (List.mem_of_getElem? h), FrameLog.clock, FrameLog.instant, h]
  rfl

/-- The times of the records are the ones that are counted along them. -/
theorem absoluteMs_records (h : Holds parser log.frames tables state) {sql : Sqlite} {q : TaskQuery}
    {records : List TaskRecord} (hrecords : q.records sql tables = .ok records) :
    ∀ t ∈ records, t.absoluteMs = some (log.configMs records t.frameId) := by
  obtain ⟨e2, he2, hstamped⟩ := bind_eq_ok hrecords
  obtain rfl := Except.ok.inj hstamped
  have hsub := e2Records_sublist he2
  have hreads : ∀ r ∈ e2, parseTimeMs r.logTime = some (log.clock r.frameId) := by
    intro r hr
    obtain ⟨row, hrow, heq⟩ := List.mem_map.mp (hsub.subset (List.mem_map_of_mem hr))
    obtain ⟨hid, htime⟩ := Prod.mk.inj heq
    obtain ⟨-, e, he, hlog⟩ := h.row row hrow
    rw [hid] at he
    rw [← htime, hlog]
    exact FrameLog.clock_of_getElem? he
  have hordered : (e2.map E2Record.frameId).Pairwise (· < ·) := by
    have hids := hsub.map Prod.fst
    rw [List.map_map, List.map_map] at hids
    exact (List.pairwise_map.mpr h.ordered).sublist hids
  intro t ht
  obtain ⟨before, r, after, hsplit, hid, hms⟩ := mem_stamped hreads ht
  have hids : e2.map E2Record.frameId =
      before.map E2Record.frameId ++ r.frameId :: after.map E2Record.frameId := by
    rw [hsplit, List.map_append, List.map_cons]
  rw [hids] at hordered
  rw [hms, FrameLog.configMs, map_frameId_stamped, hid, hids, filter_le_prefix hordered,
    Nat.zero_add, List.map_append, List.map_append, List.map_map]
  rfl

/-- A report is stored under the time that is counted for it. -/
theorem timeSeconds_report (h : Holds parser log.frames tables state) {row : MinuteRow}
    (hrow : row ∈ tables.minuteReports) : row.timeSeconds = log.reportMs parser row.frameId := by
  obtain ⟨hle, hpos, ⟨e, he, hreported⟩, htime⟩ := h.report row hrow
  have hclock : e.2 % dayMs = log.clock row.frameId := by
    have hreads := log.clocks e (List.mem_of_getElem? he)
    rw [FrameLog.clock_of_getElem? he] at hreads
    exact (Option.some.inj hreads).symm
  have htake : log.frames.take row.frameId = log.frames.take (row.frameId - 1) ++ [e] := by
    obtain ⟨n, hn⟩ := Nat.exists_eq_add_of_le' hpos
    rw [hn, Nat.add_sub_cancel] at he ⊢
    rw [List.take_add_one, he]
    rfl
  have hbound : ∀ c ∈ reportClocks parser (log.frames.take (row.frameId - 1)) ++ [e.2 % dayMs],
      c < dayMs := by
    intro c hc
    rw [← reportClocks_append_report hreported] at hc
    obtain ⟨e', -, rfl⟩ := List.mem_map.mp hc
    exact Nat.mod_lt _ (by decide)
  rw [htime, FrameLog.reportMs, htake, reportClocks_append_report hreported,
    stateAfter_fresh hbound, ← hclock]
  rfl

end Tables

/-! ## The configuration that is kept of a meter -/

/-- What `configured` holds of a meter is its last period. -/
def Keeps (p : Option TaskPeriod) (config : Option TaskConfig) : Prop :=
  match p, config with
  | none, none => True
  | some p, some config =>
    config.record = p.1 ∧ config.periodMinutes ≠ 0 ∧
      config.endMs = p.2.bind TaskRecord.absoluteMs ∧ config.active = p.2.isNone
  | _, _ => False

theorem kept_iff (period : PyVal) : kept period = true ↔ configuredPeriod period ≠ 0 := by simp [kept]

/-- A record of another task or meter leaves the configuration alone. -/
theorem get?_configStep_other {task mac : String} (configured : Dict String TaskConfig) {r : TaskRecord}
    (h : ¬ (r.taskNo = task ∧ r.mac = mac)) :
    (configStep task configured r).get? mac = configured.get? mac := by
  unfold configStep
  by_cases htask : r.taskNo = task
  swap
  · rw [if_pos (.inl htask)]
  have hne : mac ≠ r.mac := fun heq => h ⟨htask, heq.symm⟩
  split
  · rfl
  · split
    · split
      · rw [Dict.get?_set_of_ne _ _ _ _ hne]
      · rfl
    · split
      · split
        · rw [Dict.get?_set_of_ne _ _ _ _ hne]
        · rfl
      · rfl
    · rfl

theorem keeps_configStep {task : String} {configured : Dict String TaskConfig}
    {p : Option TaskPeriod} {r : TaskRecord} (htask : r.taskNo = task) (hmac : r.mac ≠ "")
    (htimed : r.absoluteMs ≠ none) (h : Keeps p (configured.get? r.mac)) :
    Keeps (periodStep kept p r) ((configStep task configured r).get? r.mac) := by
  obtain ⟨ms, hms⟩ := Option.ne_none_iff_exists'.mp htimed
  have hguard : ¬ (r.taskNo ≠ task ∨ r.mac = "") := by simp [htask, hmac]
  cases hkind : r.kind with
  | downConfig operation period content =>
      rw [configStep, if_neg hguard, periodStep, hkind]
      cases operation with
      | delete => exact h
      | enable =>
          dsimp only
          by_cases hperiod : configuredPeriod period = 0
          · rw [if_neg (by simp [kept_iff, hperiod]), if_neg (by simp [hperiod])]
            exact h
          · rw [if_pos ((kept_iff period).mpr hperiod), if_pos hperiod, Dict.get?_set_self]
            exact ⟨rfl, hperiod, rfl, rfl⟩
  | up delFlag success period =>
      rw [configStep, if_neg hguard, periodStep, hkind]
      cases delFlag with
      | enable => exact h
      | delete =>
          cases success with
          | false => exact h
          | true =>
              dsimp only
              cases hget : configured.get? r.mac with
              | none =>
                  rw [hget] at h
                  cases p with
                  | none => rwa [hget]
                  | some p => cases h
              | some config =>
                  rw [hget] at h
                  cases p with
                  | none => cases h
                  | some p =>
                      obtain ⟨e, d⟩ := p
                      obtain ⟨hrecord, hminutes, hend, hactive⟩ := h
                      rw [hms]
                      dsimp only
                      cases d with
                      | none =>
                          rw [if_pos (by rw [hactive]; rfl), Dict.get?_set_self]
                          exact ⟨hrecord, hminutes, hms.symm, rfl⟩
                      | some d =>
                          rw [if_neg (by rw [hactive]; simp), hget]
                          exact ⟨hrecord, hminutes, hend, hactive⟩

/-- After all records `configured` holds the last period of each meter. -/
theorem keeps_foldl {task mac : String} {configured : Dict String TaskConfig} {p : Option TaskPeriod}
    (hmac : mac ≠ "") {records : List TaskRecord} (htimed : ∀ r ∈ records, r.absoluteMs ≠ none)
    (h : Keeps p (configured.get? mac)) :
    Keeps ((records.filter fun r => r.taskNo = task && r.mac = mac).foldl (periodStep kept) p)
      ((records.foldl (configStep task) configured).get? mac) := by
  induction records generalizing configured p with
  | nil => exact h
  | cons r rest ih =>
      rw [List.forall_mem_cons] at htimed
      rw [List.foldl_cons]
      by_cases hown : r.taskNo = task ∧ r.mac = mac
      · obtain ⟨htask, rfl⟩ := hown
        rw [List.filter_cons_of_pos (by simp [htask]), List.foldl_cons]
        exact ih htimed.2 (keeps_configStep htask hmac htimed.1 h)
      · rw [List.filter_cons_of_neg (by simpa using hown)]
        apply ih htimed.2
        rwa [get?_configStep_other configured hown]

/-! ## Which reports are marked -/

theorem mem_of_foldl_periodStep {counts : PyVal → Bool} {records : List TaskRecord}
    {all : List TaskRecord} {p₀ : Option TaskPeriod} {p : TaskPeriod} (hsub : records ⊆ all)
    (h₀ : ∀ p ∈ p₀, p.1 ∈ all ∧ ∀ d ∈ p.2, d ∈ all)
    (h : p ∈ records.foldl (periodStep counts) p₀) : p.1 ∈ all ∧ ∀ d ∈ p.2, d ∈ all := by
  induction records generalizing p₀ with
  | nil => exact h₀ p h
  | cons r rest ih =>
      rw [List.cons_subset] at hsub
      refine ih hsub.2 ?_ h
      intro p hp
      unfold periodStep at hp
      split at hp
      · split at hp
        · obtain rfl := Option.some.inj hp
          exact ⟨hsub.1, by simp⟩
        · exact h₀ p hp
      · obtain ⟨p', hp', rfl⟩ := Option.map_eq_some_iff.mp hp
        obtain ⟨hfirst, hsecond⟩ := h₀ p' hp'
        refine ⟨hfirst, fun d hd => ?_⟩
        dsimp only at hd
        cases hend : p'.2 with
        | none =>
            rw [hend, Option.none_or] at hd
            obtain rfl := Option.some.inj hd
            exact hsub.1
        | some d' =>
            rw [hend, Option.some_or] at hd
            exact hsecond d (hend.trans hd)
      · exact h₀ p hp

theorem mem_of_lastPeriod {counts : PyVal → Bool} {task mac : String} {records : List TaskRecord}
    {p : TaskPeriod} (h : p ∈ lastPeriod counts task mac records) :
    p.1 ∈ records ∧ ∀ d ∈ p.2, d ∈ records :=
  mem_of_foldl_periodStep List.filter_sublist.subset (by simp) h

/-- The comparison of the stored times. -/
theorem inConfigPeriod_iff {time : ℕ → ℕ} {p : Option TaskPeriod} {config : Option TaskConfig}
    (h : Keeps p config)
    (htime : ∀ p' ∈ p, p'.1.absoluteMs = some (time p'.1.frameId) ∧
      ∀ d ∈ p'.2, d.absoluteMs = some (time d.frameId)) (t : ℕ) :
    ∃ marked, inConfigPeriod config t = .ok marked ∧
      (marked = true ↔ ∃ p' ∈ p, p'.Contains time t) := by
  cases p with
  | none =>
      cases config with
      | none => exact ⟨false, rfl, by simp⟩
      | some config => cases h
  | some p =>
      cases config with
      | none => cases h
      | some config =>
          obtain ⟨hrecord, -, hend, -⟩ := h
          obtain ⟨hstart, hstop⟩ := htime p rfl
          rw [inConfigPeriod, hrecord, hstart, hend]
          refine ⟨_, rfl, ?_⟩
          rw [Bool.and_eq_true, decide_eq_true_iff]
          cases hd : p.2 with
          | none => simp [TaskPeriod.Contains, hd]
          | some d => simp [TaskPeriod.Contains, hd, hstop d hd]

section Marks
variable {sql : Sqlite} {parser : Option Parser} {log : FrameLog} {tables : Tables} {q : TaskQuery}
  {records : List TaskRecord} {rows : List ReportRow} {result : TaskReports} {mac : String}

theorem mem_of_mem_rows (h : q.rows sql tables = .ok rows) {r : ReportRow} (hr : r ∈ rows) :
    r.row ∈ tables.minuteReports := by
  obtain ⟨number, -, h⟩ := bind_eq_ok h
  obtain ⟨window, -, h⟩ := bind_eq_ok h
  obtain rfl := Except.ok.inj h
  obtain ⟨row, hrow, rfl⟩ := List.mem_map.mp (List.mem_of_mem_filter hr)
  exact hrow

/-- A report is marked when the time counted for it lies in the period as it is counted. -/
theorem marks_iff (hstored : Stored parser log.records tables)
    (hrecords : q.records sql tables = .ok records) (hrows : q.rows sql tables = .ok rows)
    (hresult : listTaskReports sql tables q = .ok result) (hmac : mac ≠ "") {r : ReportRow}
    (hr : r ∈ rows) (hown : staKey r.row.sourceMac = mac) :
    (result.Marks r.row ↔ log.CountedInPeriod parser q.task mac records r.row.frameId) ∧
      (result.Marks r.row → ∀ item ∈ result.unconfiguredReports, item.row ≠ r.row) := by
  obtain ⟨state, hholds⟩ := hstored.holds
  have htimed := absoluteMs_records hholds hrecords
  unfold listTaskReports at hresult
  split at hresult
  · cases hresult
  obtain ⟨⟨configured, derived⟩, hperiods, hresult⟩ := bind_eq_ok hresult
  obtain ⟨records', hrecords', hperiods⟩ := bind_eq_ok hperiods
  obtain rfl : records' = records := Except.ok.inj (hrecords'.symm.trans hrecords)
  obtain ⟨rfl, -⟩ := Prod.mk.inj (Except.ok.inj hperiods)
  obtain ⟨rows', hrows', hplaced⟩ := bind_eq_ok hresult
  obtain rfl : rows' = rows := Except.ok.inj (hrows'.symm.trans hrows)
  obtain ⟨hhas, hunconfigured⟩ := placeReports_ok hplaced
  have hkeeps : Keeps (lastPeriod kept q.task mac records')
      ((records'.foldl (configStep q.task) .empty).get? mac) :=
    keeps_foldl hmac (fun t ht => by rw [htimed t ht]; simp) (by rw [Dict.get?_empty]; trivial)
  obtain ⟨marked, hmarked, hiff⟩ := inConfigPeriod_iff hkeeps
    (fun p hp => ⟨htimed _ (mem_of_lastPeriod hp).1, fun d hd => htimed d ((mem_of_lastPeriod hp).2 d hd)⟩)
    r.row.timeSeconds
  have hitem : ∀ item, result.Has item → item.row = r.row → item.inConfigPeriod = marked := by
    intro item hitem hrow
    rcases (hhas item).mp hitem with hnone | ⟨r', -, hreport⟩
    · rcases hnone with ⟨start, items, hget, -⟩ | hnone
      · cases hget
      · cases hnone
    · obtain ⟨hrow', hown'⟩ := taskReport_ok hreport
      rw [← hrow', hrow, hown, hmarked] at hown'
      exact (Except.ok.inj hown').symm
  have hseconds := timeSeconds_report hholds (mem_of_mem_rows hrows hr)
  rw [hseconds] at hiff
  refine ⟨?_, ?_⟩
  · rw [FrameLog.CountedInPeriod, ← hiff]
    constructor
    · rintro ⟨item, hin, hrow, hset⟩
      rw [← hitem item hin hrow, hset]
    · intro hset
      obtain ⟨p, hp, -⟩ := hiff.mp hset
      rw [hp] at hkeeps
      cases hget : (records'.foldl (configStep q.task) .empty).get? mac with
      | none =>
          rw [hget] at hkeeps
          cases hkeeps
      | some config =>
          rw [hget] at hkeeps hmarked
          obtain ⟨item, hreport⟩ := exists_taskReport ((derived.filter (· ≠ 0)).or q.periodMinutes)
            (hown ▸ hget) hkeeps.2.1 hmarked
          have hin := (hhas item).mpr (.inr ⟨r, hr, hreport⟩)
          exact ⟨item, hin, (taskReport_ok hreport).1,
            (hitem item hin (taskReport_ok hreport).1).trans hset⟩
  · rintro ⟨item, hin, hrow, hset⟩ apart hapart hsame
    have hfalse : apart.inConfigPeriod = false := (hunconfigured apart hapart).resolve_left (by simp)
    rw [hitem apart (.inr hapart) hsame, ← hitem item hin hrow, hset] at hfalse
    cases hfalse

end Marks

/-- The reports of a meter that are marked are the ones captured in its period, and none of these is
set apart. -/
def RightlyMarked (log : FrameLog) (q : TaskQuery) (records : List TaskRecord) (rows : List ReportRow)
    (result : TaskReports) (mac : String) : Prop :=
  ∀ r ∈ rows, staKey r.row.sourceMac = mac →
    (result.Marks r.row ↔ log.InPeriod q.task mac records r.row.frameId) ∧
      (log.InPeriod q.task mac records r.row.frameId →
        ∀ item ∈ result.unconfiguredReports, item.row ≠ r.row)

/-- They are, exactly when the times that are counted put each report where it was captured. -/
theorem rightlyMarked_iff {sql : Sqlite} {parser : Option Parser} {log : FrameLog} {tables : Tables}
    {q : TaskQuery} {records : List TaskRecord} {rows : List ReportRow} {result : TaskReports}
    {mac : String} (hstored : Stored parser log.records tables)
    (hrecords : q.records sql tables = .ok records) (hrows : q.rows sql tables = .ok rows)
    (hresult : listTaskReports sql tables q = .ok result) (hmac : mac ≠ "") :
    RightlyMarked log q records rows result mac ↔
      ∀ r ∈ rows, staKey r.row.sourceMac = mac →
        (log.CountedInPeriod parser q.task mac records r.row.frameId ↔
          log.InPeriod q.task mac records r.row.frameId) := by
  constructor
  · intro h r hr hown
    rw [← (marks_iff hstored hrecords hrows hresult hmac hr hown).1]
    exact (h r hr hown).1
  · intro h r hr hown
    obtain ⟨hmarks, hapart⟩ := marks_iff hstored hrecords hrows hresult hmac hr hown
    have hiff := hmarks.trans (h r hr hown)
    exact ⟨hiff, fun hin => hapart (hiff.mpr hin)⟩

/-! ## Over midnight and within a day -/

/-- A field of an application. -/
def rawField (name : String) (raw : PyVal) : PyVal := .dict [("name", .str name), ("raw", raw)]

/-- Frame `7E 01 7E` enables task 2 of a meter, the other frames are the meter's reports. -/
def taskParser : Parser := fun hexFrame =>
  if hexFrame = "7E 01 7E" then
    .ok [("APP_ID", .str "00E2"), ("ORI_S", .str "001"), ("FINL_D", .str "03F"),
      ("application", .dict [("fields", .list [rawField "目的MAC地址" (.str "111150000001"),
        rawField "启动/删除标志" (.str "启用"), rawField "任务号" (.int 2),
        rawField "采集周期" (.int 5)])])]
  else
    .ok [("APP_ID", .str "00E4"), ("ORI_S", .str "03F"), ("FINL_D", .str "001"),
      ("application", .dict [("fields", .list [rawField "源MAC地址" (.str "111150000001"),
        rawField "任务号" (.int 2)])])]

/-- Texts and integers compare by their values. -/
def plainSqlite : Sqlite where
  like _ _ := true
  eq v w :=
    match v, w with
    | .str s, .str t => s = t
    | .int m, .int n => m = n
    | _, _ => false

/-- An enable command and a report at two times. -/
def enableAndReport (enabled reported : String) : List LogRecord :=
  [⟨"1", enabled, "7E 01 7E"⟩, ⟨"2", reported, "7E 02 7E"⟩]

def liveTables (records : List LogRecord) : Tables :=
  (appendBatches (some taskParser) ({}, some {}) [records]).1.1

def taskTwo : TaskQuery := { taskNo := .int 2 }

/-- The enable command as a record. -/
def enabledAt (logTime : String) (absoluteMs : ℕ) : TaskRecord :=
  ⟨1, logTime, "111150000001", "2", .downConfig .enable (.int 5) ⟨.none, .none, .none⟩, some absoluteMs⟩

/-- The command is captured just before midnight and the report just after. -/
def overMidnightLog : FrameLog where
  frames := (enableAndReport "23:59:59.900" "00:00:00.100").zip [86399900, 86400100]
  clocks := by decide +kernel
  steady := ⟨by decide, by decide⟩

/-- Both are captured on one morning. -/
def morningLog : FrameLog where
  frames := (enableAndReport "10:00:00.000" "10:03:00.000").zip [36000000, 36180000]
  clocks := by decide +kernel
  steady := ⟨by decide, by decide⟩

theorem stored_liveTables (records : List LogRecord)
    (h : (appendBatches (some taskParser) ({}, some {}) [records]).2 = .ok ()) :
    Stored (some taskParser) records (liveTables records) := by
  have hlive : appendBatches (some taskParser) ({}, some {}) [records] =
      ((appendBatches (some taskParser) ({}, some {}) [records]).1, .ok ()) := Prod.ext rfl h
  have hstored := Stored.live hlive
  rwa [List.flatten_singleton] at hstored

theorem inPeriod_enabledAt {log : FrameLog} {logTime : String} {absoluteMs frameId : ℕ}
    (h : log.instant 1 ≤ log.instant frameId) :
    log.InPeriod "2" "111150000001" [enabledAt logTime absoluteMs] frameId :=
  ⟨(enabledAt logTime absoluteMs, none), rfl, h, by simp⟩

/-- Of the midnight between the two neither the commands nor the reports tell: the report is stored
as one from before the command. -/
theorem overMidnight_set_apart :
    ∃ rows result, Stored (some taskParser) overMidnightLog.records (liveTables overMidnightLog.records) ∧
      taskTwo.records plainSqlite (liveTables overMidnightLog.records) =
        .ok [enabledAt "23:59:59.900" 86399900] ∧
      taskTwo.rows plainSqlite (liveTables overMidnightLog.records) = .ok rows ∧
      listTaskReports plainSqlite (liveTables overMidnightLog.records) taskTwo = .ok result ∧
      ¬ RightlyMarked overMidnightLog taskTwo [enabledAt "23:59:59.900" 86399900] rows result
        "111150000001" := by
  have hstored := stored_liveTables overMidnightLog.records rfl
  obtain ⟨rows, hrows, hids⟩ : ∃ rows,
      taskTwo.rows plainSqlite (liveTables overMidnightLog.records) = .ok rows ∧
        rows.map (fun r => (r.row.frameId, staKey r.row.sourceMac)) = [(2, "111150000001")] :=
    ⟨_, rfl, rfl⟩
  obtain ⟨result, hresult⟩ : ∃ result,
      listTaskReports plainSqlite (liveTables overMidnightLog.records) taskTwo = .ok result := ⟨_, rfl⟩
  refine ⟨rows, result, hstored, rfl, hrows, hresult, ?_⟩
  intro h
  obtain ⟨r, hr, heq⟩ := List.mem_map.mp (hids ▸ List.mem_singleton_self (2, "111150000001"))
  obtain ⟨hid, hown⟩ := Prod.mk.inj heq
  obtain ⟨hmarks, -⟩ := marks_iff hstored rfl hrows hresult (by decide) hr hown
  have hin : overMidnightLog.InPeriod taskTwo.task "111150000001"
      [enabledAt "23:59:59.900" 86399900] r.row.frameId := inPeriod_enabledAt (by rw [hid]; decide)
  obtain ⟨p, hp, hle, -⟩ := hmarks.mp ((h r hr hown).1.mpr hin)
  obtain rfl : (enabledAt "23:59:59.900" 86399900, none) = p := Option.some.inj hp
  rw [hid] at hle
  exact absurd hle (by decide +kernel)

/-- On one morning the report is found in the period. -/
theorem morning_marked :
    ∃ rows result, Stored (some taskParser) morningLog.records (liveTables morningLog.records) ∧
      taskTwo.records plainSqlite (liveTables morningLog.records) =
        .ok [enabledAt "10:00:00.000" 36000000] ∧
      taskTwo.rows plainSqlite (liveTables morningLog.records) = .ok rows ∧
      listTaskReports plainSqlite (liveTables morningLog.records) taskTwo = .ok result ∧
      RightlyMarked morningLog taskTwo [enabledAt "10:00:00.000" 36000000] rows result
        "111150000001" := by
  have hstored := stored_liveTables morningLog.records rfl
  obtain ⟨rows, hrows, hids⟩ : ∃ rows,
      taskTwo.rows plainSqlite (liveTables morningLog.records) = .ok rows ∧
        rows.map (fun r => r.row.frameId) = [2] :=
    ⟨_, rfl, rfl⟩
  obtain ⟨result, hresult⟩ : ∃ result,
      listTaskReports plainSqlite (liveTables morningLog.records) taskTwo = .ok result := ⟨_, rfl⟩
  refine ⟨rows, result, hstored, rfl, hrows, hresult, ?_⟩
  refine (rightlyMarked_iff hstored rfl hrows hresult (by decide)).mpr ?_
  intro r hr hown
  have hid : r.row.frameId ∈ rows.map fun r => r.row.frameId := List.mem_map_of_mem hr
  rw [hids, List.mem_singleton] at hid
  refine iff_of_true ⟨(enabledAt "10:00:00.000" 36000000, none), rfl, ?_, by simp⟩
    (inPeriod_enabledAt ?_)
  · rw [hid]
    decide +kernel
  · rw [hid]
    decide

end HplcWorkbench.ListenerLog
