import HplcWorkbench.AssessmentService
import HplcWorkbench.TableGrowth
import HplcWorkbench.VersionedCache

/-!
# What the cache of assessments returns

The largest identifier of a window stands for the contents of the window. It does so while frames are
only appended. A log that replaces the tables of a file counts from one again, and the path that a
result took and the networks that a backfill gives to the frames of reports are not part of the key.
-/

namespace HplcWorkbench.ListenerLog

open OrderedDict Transitions VersionedCache

/-! ## The largest identifier -/

theorem foldl_max_le_iff {n : ℕ} (ids : List ℕ) (m : ℕ) :
    ids.foldl max m ≤ n ↔ m ≤ n ∧ ∀ k ∈ ids, k ≤ n := by
  induction ids generalizing m with
  | nil => simp
  | cons k ids ih => rw [List.foldl_cons, ih, List.forall_mem_cons, max_le_iff, and_assoc]

theorem framesMaxId_le_iff {rows : List FrameRow} {n : ℕ} :
    framesMaxId rows ≤ n ↔ ∀ row ∈ rows, row.id ≤ n := by
  rw [framesMaxId, foldl_max_le_iff, List.forall_mem_map]
  exact and_iff_right (Nat.zero_le n)

theorem framesMaxId_append_left (rows more : List FrameRow) :
    framesMaxId rows ≤ framesMaxId (rows ++ more) :=
  framesMaxId_le_iff.mpr fun row hrow =>
    framesMaxId_le_iff.mp le_rfl row (List.mem_append_left _ hrow)

theorem framesMaxId_map {f : FrameRow → FrameRow} (hf : ∀ row, (f row).id = row.id)
    (rows : List FrameRow) : framesMaxId (rows.map f) = framesMaxId rows := by
  rw [framesMaxId, List.map_map, framesMaxId]
  congr 1
  exact List.map_congr_left fun row _ => hf row

/-! ## What an assessment depends on -/

section Dependence
variable {Verdict : Type} (rating : Rating Verdict) {tables tables' : Tables} {w : Window}
  {state state' : BackfillState} {nid : Option ℕ}

theorem sessionDuration_congr {rows rows' : List FrameRow}
    (h : rows'.map FrameRow.full = rows.map FrameRow.full) :
    sessionDuration rows' = sessionDuration rows := by
  have htimes : rows'.map FrameRow.logTime = rows.map FrameRow.logTime := by
    have := congrArg (List.map StreamRow.logTime) h
    rwa [List.map_map, List.map_map] at this
  have hhead := congrArg List.head? htimes
  have hlast := congrArg List.getLast? htimes
  rw [List.head?_map, List.head?_map] at hhead
  rw [List.getLast?_map, List.getLast?_map] at hlast
  unfold sessionDuration
  cases hfirst : rows.head? <;> cases hfirst' : rows'.head? <;> cases hend : rows.getLast? <;>
    cases hend' : rows'.getLast? <;> simp_all

theorem assessByPython_congr
    (hfull : (tables'.window w).map FrameRow.full = (tables.window w).map FrameRow.full)
    (hrecords : iterAssessmentRecords tables' w = iterAssessmentRecords tables w) :
    assessByPython rating tables' w nid = assessByPython rating tables w nid := by
  rw [assessByPython, hfull, hrecords, sessionDuration_congr hfull, assessByPython]

theorem freshAssessment_of_not_ready (h : sqlPathReady state tables w = false) :
    freshAssessment rating state tables w nid = assessByPython rating tables w nid := by
  rw [freshAssessment, h, if_neg Bool.false_ne_true]

theorem freshAssessment_congr (hpath : sqlPathReady state tables w = sqlPathReady state' tables' w)
    (hwindow : tables'.window w = tables.window w)
    (hrecords : iterAssessmentRecords tables' w = iterAssessmentRecords tables w) :
    freshAssessment rating state tables w nid = freshAssessment rating state' tables' w nid := by
  have hsql : assessBySql rating tables' w nid = assessBySql rating tables w nid := by
    rw [assessBySql, hwindow, hrecords, assessBySql]
  rw [freshAssessment, hpath, freshAssessment, hsql,
    assessByPython_congr rating (congrArg _ hwindow) hrecords]

end Dependence

/-! ## Appended frames -/

section Growth
variable {P : FrameRow → Prop} {tables tables' : Tables} {w : Window}

theorem Grown.framesMaxId_le (h : Grown P tables tables') (w : Window) :
    framesMaxId (tables.window w) ≤ framesMaxId (tables'.window w) := by
  obtain ⟨rows, -, hframes, -⟩ := h.exists_rows
  rw [Tables.window, Tables.window, hframes, List.filter_append]
  exact framesMaxId_append_left _ _

/-- A new frame of the window raises the largest identifier. -/
theorem Grown.window_eq (h : Grown P tables tables') (hnum : tables.Numbered)
    (hsame : framesMaxId (tables.window w) = framesMaxId (tables'.window w)) :
    tables'.window w = tables.window w ∧
      iterAssessmentRecords tables' w = iterAssessmentRecords tables w := by
  obtain ⟨rows, reports, hframes, hreports, hrows, hnew⟩ := h.exists_rows
  have hbefore : framesMaxId (tables.window w) < tables.nextFrame := by
    refine Nat.lt_of_le_of_lt (framesMaxId_le_iff.mpr fun row hrow => ?_) (Nat.pred_lt hnum.pos.ne')
    exact Nat.le_pred_of_lt (hnum.below row (List.mem_of_mem_filter hrow))
  have houtside : ∀ row ∈ rows, w.holds row.logTime = false := by
    intro row hrow
    by_contra hholds
    rw [Bool.not_eq_false] at hholds
    have hmem : row ∈ tables'.window w := by
      rw [Tables.window, hframes, List.mem_filter]
      exact ⟨List.mem_append_right _ hrow, hholds⟩
    have hle := framesMaxId_le_iff.mp hsame.ge row hmem
    exact absurd (hle.trans_lt hbefore) (Nat.not_lt.mpr (hrows row hrow).2)
  have hwindow : tables'.window w = tables.window w := by
    have hnone : rows.filter (fun row => w.holds row.logTime) = [] :=
      List.filter_eq_nil_iff.mpr fun row hrow => by rw [houtside row hrow]; exact Bool.false_ne_true
    rw [Tables.window, hframes, List.filter_append, hnone, List.append_nil, Tables.window]
  refine ⟨hwindow, ?_⟩
  have hnone : reports.filter (fun r => w.holds r.logTime) = [] := by
    refine List.filter_eq_nil_iff.mpr fun report hreport => ?_
    obtain ⟨row, hrow, -, htime⟩ := hnew report hreport
    rw [← htime, houtside row hrow]
    exact Bool.false_ne_true
  rw [iterAssessmentRecords, hreports, List.filter_append, hnone, List.append_nil,
    iterAssessmentRecords]
  refine List.map_congr_left fun report hreport => ?_
  have hfind : tables'.frames.find? (fun row => row.id = report.frameId) =
      tables.frames.find? fun row => row.id = report.frameId := by
    have hnot : rows.find? (fun row => row.id = report.frameId) = none := by
      refine List.find?_eq_none.mpr fun row hrow hid => ?_
      have hid := of_decide_eq_true hid
      have hlt := hnum.reports report (List.mem_of_mem_filter hreport)
      exact absurd (hid ▸ (hrows row hrow).2) (Nat.not_le.mpr hlt)
    rw [hframes, List.find?_append, hnot, Option.or_none]
  rw [hfind]

end Growth

/-! ## Filled columns -/

section Columns
variable {tables : Tables} {phase : BackfillPhase} {batch : List FrameRow} {row : FrameRow}

/-- A row as a transaction leaves it. -/
def BackfillPhase.touch (phase : BackfillPhase) (batch : List FrameRow) (row : FrameRow) : FrameRow :=
  if row.id ∈ batch.map FrameRow.id then phase.write row else row

theorem updateRows_eq (phase : BackfillPhase) (batch rows : List FrameRow) :
    updateRows phase.write batch rows = rows.map (phase.touch batch) := rfl

@[simp] theorem touch_id : (phase.touch batch row).id = row.id := by
  rw [BackfillPhase.touch]
  split
  · cases phase <;> rfl
  · rfl

@[simp] theorem touch_full : (phase.touch batch row).full = row.full := by
  rw [BackfillPhase.touch]
  split
  · cases phase <;> rfl
  · rfl

theorem touch_logTime : (phase.touch batch row).logTime = row.logTime :=
  congrArg StreamRow.logTime touch_full

theorem touch_summary : (phase.touch batch row).summary = row.summary :=
  congrArg StreamRow.summary touch_full

/-- The tables after a transaction. -/
def BackfillPhase.apply (phase : BackfillPhase) (tables : Tables) : Tables :=
  { tables with frames := updateRows phase.write (phase.batch tables.frames) tables.frames }

theorem window_apply (phase : BackfillPhase) (tables : Tables) (w : Window) :
    (phase.apply tables).window w =
      (tables.window w).map (phase.touch (phase.batch tables.frames)) := by
  rw [BackfillPhase.apply, Tables.window, updateRows_eq, List.filter_map, Tables.window]
  congr 2
  funext row
  exact congrArg w.holds touch_logTime

theorem map_full_apply (phase : BackfillPhase) (tables : Tables) (w : Window) :
    ((phase.apply tables).window w).map FrameRow.full = (tables.window w).map FrameRow.full := by
  rw [window_apply, List.map_map]
  exact List.map_congr_left fun row _ => touch_full

theorem framesMaxId_apply (phase : BackfillPhase) (tables : Tables) (w : Window) :
    framesMaxId ((phase.apply tables).window w) = framesMaxId (tables.window w) := by
  rw [window_apply]
  exact framesMaxId_map (fun row => touch_id) _

theorem Tables.Numbered.apply (h : tables.Numbered) (phase : BackfillPhase) :
    (phase.apply tables).Numbered where
  pos := h.pos
  ids := by
    rw [BackfillPhase.apply, updateRows_eq, List.map_map]
    have hids : tables.frames.map (FrameRow.id ∘ phase.touch (phase.batch tables.frames)) =
        tables.frames.map FrameRow.id := List.map_congr_left fun row _ => touch_id
    rw [hids]
    exact h.ids
  below := by
    rw [BackfillPhase.apply, updateRows_eq, List.forall_mem_map]
    intro row hrow
    rw [touch_id]
    exact h.below row hrow
  reports := h.reports

theorem batch_subset (phase : BackfillPhase) {rows : List FrameRow} (h : row ∈ phase.batch rows) :
    row ∈ rows := by
  cases phase with
  | nids lastId => exact List.mem_of_mem_filter (List.mem_of_mem_take h)
  | frmTypes pass =>
      exact List.mem_of_mem_filter (List.mem_of_mem_take (List.mem_of_mem_filter h))
  | details pass => exact List.mem_of_mem_filter (List.mem_of_mem_take h)
  | closing => cases h

theorem mem_nids_batch {lastId : ℕ} {rows : List FrameRow}
    (h : row ∈ (BackfillPhase.nids lastId).batch rows) : lastId < row.id ∧ row.nid = none :=
  of_decide_eq_true (List.mem_filter.mp (List.mem_of_mem_take h)).2

/-- A row is changed exactly if it is a row of the batch. -/
theorem mem_batch_of_id (h : tables.Numbered) (hrow : row ∈ tables.frames)
    (hid : row.id ∈ (phase.batch tables.frames).map FrameRow.id) : row ∈ phase.batch tables.frames := by
  obtain ⟨row', hbatch, heq⟩ := List.mem_map.mp hid
  have hnodup : (tables.frames.map FrameRow.id).Nodup := h.ids.imp Nat.ne_of_lt
  obtain rfl := List.inj_on_of_nodup_map hnodup (batch_subset phase hbatch) hrow heq
  exact hbatch

/-- What a transaction gives to the frames of the reports of a window, their summaries named. -/
def SameNetworks (phase : BackfillPhase) (tables : Tables) (w : Window) : Prop :=
  match phase with
  | .nids _ => ∀ report ∈ tables.minuteReports, w.holds report.logTime →
      ∀ row ∈ phase.batch tables.frames, row.id = report.frameId →
        row.full.nid = nidFromSummary row.summary
  | _ => True

theorem iterAssessmentRecords_apply (h : tables.Numbered) (phase : BackfillPhase) (w : Window)
    (hsame : SameNetworks phase tables w) :
    iterAssessmentRecords (phase.apply tables) w = iterAssessmentRecords tables w := by
  refine List.map_congr_left fun report hreport => ?_
  obtain ⟨hreport, hholds⟩ := List.mem_filter.mp hreport
  have hfind : (phase.apply tables).frames.find? (fun row => row.id = report.frameId) =
      (tables.frames.find? fun row => row.id = report.frameId).map
        (phase.touch (phase.batch tables.frames)) := by
    rw [BackfillPhase.apply, updateRows_eq, List.find?_map]
    simp only [Function.comp_def, touch_id]
  have hnid : ∀ row ∈ tables.frames, row.id = report.frameId →
      (phase.touch (phase.batch tables.frames) row).nid.or (nidFromSummary row.summary) =
        row.nid.or (nidFromSummary row.summary) := by
    intro row hrow hid
    rw [BackfillPhase.touch]
    split
    · next hbatch =>
        have hmem := mem_batch_of_id h hrow hbatch
        cases phase with
        | nids lastId =>
            have hfull : (FrameRow.filled row).nid = nidFromSummary row.summary :=
              hsame report hreport hholds row hmem hid
            rw [BackfillPhase.write, hfull, (mem_nids_batch hmem).2, Option.or_self, Option.none_or]
        | frmTypes pass => rfl
        | details pass => rfl
        | closing => rfl
    · rfl
  rw [hfind]
  cases hrow : tables.frames.find? fun row => row.id = report.frameId with
  | none => rfl
  | some row =>
      have hid : row.id = report.frameId := by simpa using List.find?_some hrow
      rw [Option.map_some]
      dsimp only [Option.bind_some]
      rw [touch_summary, hnid row (List.mem_of_find?_eq_some hrow) hid]

end Columns

/-! ## Entries and events -/

section Service
variable {Verdict : Type} {parser : Option Parser} {registry : Bool} {rating : Rating Verdict}
  {s s' : Service Verdict} {e : ServiceEvent}

/-- What the service caches. -/
def assessments (rating : Rating Verdict) : Versioned (Service Verdict) CacheKey (Assessment Verdict) where
  stamp := CacheKey.maxId
  version s key := framesMaxId ((s.files key.file).window key.window)
  value s key := freshAssessment rating (s.backfill key.file) (s.files key.file) key.window key.nid

/-- The path of a key. -/
def Service.ready (s : Service Verdict) (key : CacheKey) : Bool :=
  sqlPathReady (s.backfill key.file) (s.files key.file) key.window

def ServiceEvent.Replaces : ServiceEvent → Prop
  | .indexFile _ => True
  | .resetIndex => True
  | _ => False

/-- What an event must leave alone: a file that a result was kept for, the path of the results that
are still returned and the networks of the reports they counted. -/
structure Harmless (parser : Option Parser) (registry : Bool) (rating : Rating Verdict)
    (s : Service Verdict) (e : ServiceEvent) : Prop where
  newFile : e.Replaces → registry ∨ ∀ entry ∈ s.cache.entries, entry.1.file ≠ s.current
  samePath : ∀ s', (listenerService parser registry rating).step s e = some s' →
    ∀ entry ∈ s.cache.entries, (assessments rating).Live s entry.1 →
      (assessments rating).Live s' entry.1 → s.ready entry.1 = s'.ready entry.1
  sameNetworks : ∀ file phase, e = .backfillStep file → s.workers file = some phase →
    ∀ entry ∈ s.cache.entries, (assessments rating).Live s entry.1 → entry.1.file = file →
      SameNetworks phase (s.files file) entry.1.window

/-- What every harmless event keeps. -/
structure Service.Kept (rating : Rating Verdict) (s : Service Verdict) : Prop where
  numbered : ∀ file, (s.files file).Numbered
  current : s.current < s.nextFile
  known : ∀ entry ∈ s.cache.entries, entry.1.file < s.nextFile
  running : ∀ file, s.workers file ≠ none → (s.backfill file).running
  sound : Sound (assessments rating) s s.cache

theorem value_congr {key : CacheKey} (hpath : s.ready key = s'.ready key)
    (hwindow : (s'.files key.file).window key.window = (s.files key.file).window key.window)
    (hrecords : iterAssessmentRecords (s'.files key.file) key.window =
      iterAssessmentRecords (s.files key.file) key.window) :
    (assessments rating).value s key = (assessments rating).value s' key :=
  freshAssessment_congr rating hpath hwindow hrecords

/-- A file that is not touched keeps version and value of its keys. -/
theorem untouched (rating : Rating Verdict) {key : CacheKey} (hfile : s'.files key.file = s.files key.file)
    (hstate : s'.backfill key.file = s.backfill key.file) :
    (assessments rating).version s key = (assessments rating).version s' key ∧
      (assessments rating).value s key = (assessments rating).value s' key := by
  simp only [assessments, hfile, hstate, and_self]

/-- An event that touches no file of an entry. -/
theorem Service.Kept.sound_of_untouched (h : s.Kept rating)
    (hfiles : ∀ entry ∈ s.cache.entries, s'.files entry.1.file = s.files entry.1.file)
    (hstate : s'.backfill = s.backfill) : Sound (assessments rating) s' s.cache := by
  apply h.sound.step
  · intro entry hentry
    exact le_of_eq (untouched rating (hfiles entry hentry) (congrFun hstate _)).1
  · intro entry hentry _ _
    exact (untouched rating (hfiles entry hentry) (congrFun hstate _)).2

/-- An event that changes one file, without lowering a version of it. -/
theorem Service.Kept.sound_of_file (h : s.Kept rating) (file : ℕ)
    (hother : ∀ f, f ≠ file → s'.files f = s.files f ∧ s'.backfill f = s.backfill f)
    (hgrow : ∀ w, framesMaxId ((s.files file).window w) ≤ framesMaxId ((s'.files file).window w))
    (hkeep : ∀ entry ∈ s.cache.entries, entry.1.file = file → (assessments rating).Live s entry.1 →
      (assessments rating).Live s' entry.1 →
        (assessments rating).value s entry.1 = (assessments rating).value s' entry.1) :
    Sound (assessments rating) s' s.cache := by
  apply h.sound.step
  · intro entry _
    by_cases hfile : entry.1.file = file
    · subst hfile
      exact hgrow entry.1.window
    · obtain ⟨hfiles, hstate⟩ := hother _ hfile
      exact le_of_eq (untouched rating hfiles hstate).1
  · intro entry hentry hlive hlive'
    by_cases hfile : entry.1.file = file
    · exact hkeep entry hentry hfile hlive hlive'
    · obtain ⟨hfiles, hstate⟩ := hother _ hfile
      exact (untouched rating hfiles hstate).2

/-- An event that changes only the flags of a file. -/
theorem Service.Kept.sound_of_flags (h : s.Kept rating) (file : ℕ) (hfiles : s'.files = s.files)
    (hother : ∀ f, f ≠ file → s'.backfill f = s.backfill f)
    (hpath : ∀ entry ∈ s.cache.entries, (assessments rating).Live s entry.1 →
      (assessments rating).Live s' entry.1 → s.ready entry.1 = s'.ready entry.1) :
    Sound (assessments rating) s' s.cache := by
  apply h.sound_of_file file
  · exact fun f hf => ⟨congrFun hfiles f, hother f hf⟩
  · intro w
    rw [hfiles]
  · intro entry hentry _ hlive hlive'
    apply value_congr (hpath entry hentry hlive hlive')
    · rw [hfiles]
    · rw [hfiles]

/-! ## One event -/

theorem not_ready_of_running {key : CacheKey} (h : (s.backfill key.file).running) :
    s.ready key = false := by
  rw [Service.ready, sqlPathReady, h]
  rfl

/-- A call that misses the cache starts a worker at most for a window that does not use the
columns, and not twice. -/
theorem requestUnlessReady_cases (s : Service Verdict) (file : ℕ) (w : Window) :
    s.requestUnlessReady file w = s ∨
      (sqlPathReady (s.backfill file) (s.files file) w = false ∧
        (s.backfill file).running = false ∧ (s.backfill file).done = false ∧
          s.requestUnlessReady file w = s.startWorker file) := by
  rw [Service.requestUnlessReady, Service.requestBackfill]
  split
  · exact Or.inl rfl
  · next hready =>
      split
      · exact Or.inl rfl
      · next hflags =>
          rw [not_or, Bool.not_eq_true, Bool.not_eq_true] at hflags
          exact Or.inr ⟨by simpa using hready, hflags.1, hflags.2, rfl⟩

/-- Where the columns are not used they are not used after the request either. -/
theorem startWorker_not_ready (s : Service Verdict) (key : CacheKey) :
    (s.startWorker key.file).ready key = false := by
  apply not_ready_of_running
  simp [Service.startWorker]

theorem startWorker_kept (h : s.Kept rating) (file : ℕ)
    (hpath : ∀ entry ∈ s.cache.entries, (assessments rating).Live s entry.1 →
      (assessments rating).Live (s.startWorker file) entry.1 →
        s.ready entry.1 = (s.startWorker file).ready entry.1) :
    (s.startWorker file).Kept rating := by
  refine ⟨h.numbered, h.current, h.known, fun f hf => ?_, ?_⟩
  · by_cases hfile : f = file
    · simp [Service.startWorker, hfile]
    · have hworker : s.workers f ≠ none := by simpa [Service.startWorker, hfile] using hf
      simpa [Service.startWorker, hfile] using h.running f hworker
  · exact h.sound_of_flags file rfl (fun f hf => Function.update_of_ne hf _ _) hpath

theorem mem_remember {cache : Dict CacheKey (Assessment Verdict)} {key : CacheKey}
    {result : Assessment Verdict} {entry : CacheKey × Assessment Verdict}
    (h : entry ∈ (Service.remember cache key result).entries) :
    entry = (key, result) ∨ entry ∈ cache.entries := by
  rw [Service.remember] at h
  split at h
  · exact cache.mem_set _ _ h
  · split at h
    · rcases Dict.mem_set _ _ _ h with h | h
      · exact Or.inl h
      · exact Or.inr ((cache.mem_erase _).mp h).1
    · exact cache.mem_set _ _ h

theorem sound_remember {cache : Dict CacheKey (Assessment Verdict)} {key : CacheKey}
    (h : Sound (assessments rating) s cache) (hlive : (assessments rating).Live s key) :
    Sound (assessments rating) s
      (Service.remember cache key ((assessments rating).value s key)) := by
  rw [Service.remember]
  split
  · exact h.set hlive
  · split
    · exact (h.erase _).set hlive
    · exact h.set hlive

/-- The key of a call that was understood. -/
theorem window_of_query {tables : Tables} {startTime endTime nidText : String} {w : Window}
    {nid : Option ℕ} (file maxId : ℕ)
    (h : Service.assessmentQuery tables startTime endTime nidText = .ok (w, nid)) :
    CacheKey.window ⟨file, startTime, endTime, nid, maxId⟩ = w := by
  obtain ⟨n, -, h⟩ := bind_eq_ok h
  obtain ⟨v, hv, h⟩ := bind_eq_ok h
  cases h
  rw [CacheKey.window, hv]

/-- A result found under a key is what would be computed. -/
theorem Service.Kept.listed (h : s.Kept rating) (file : ℕ) (startTime endTime nidText : String) :
    (s.listBeaconPeriods rating file startTime endTime nidText).1 =
      s.freshResult rating file startTime endTime nidText := by
  rw [Service.listBeaconPeriods, Service.freshResult]
  cases hquery : Service.assessmentQuery (s.files file) startTime endTime nidText with
  | error e => rfl
  | ok query =>
      obtain ⟨w, nid⟩ := query
      dsimp only
      split
      · next cached hcached =>
          have hvalue := h.sound.hit hcached (by
            rw [Versioned.Live]
            dsimp only [assessments]
            rw [window_of_query _ _ hquery])
          rw [hvalue]
          dsimp only [assessments]
          rw [window_of_query _ _ hquery]
          rfl
      · rfl

/-- A value put in under its own version. -/
theorem remember_kept (h : s.Kept rating) {key : CacheKey} (hfile : key.file < s.nextFile)
    (hlive : (assessments rating).Live s key) :
    Service.Kept rating
      { s with cache := Service.remember s.cache key ((assessments rating).value s key) } := by
  refine ⟨h.numbered, h.current, fun entry hentry => ?_, h.running, sound_remember h.sound hlive⟩
  rcases mem_remember hentry with rfl | hentry
  · exact hfile
  · exact h.known entry hentry

/-- A result that is put in stays right when its own call starts a worker. -/
theorem listBeaconPeriods_kept (h : s.Kept rating) {file : ℕ} (hfile : file < s.nextFile)
    (startTime endTime nidText : String)
    (hpath : ∀ entry ∈ s.cache.entries, (assessments rating).Live s entry.1 →
      (assessments rating).Live (s.listBeaconPeriods rating file startTime endTime nidText).2 entry.1 →
        s.ready entry.1 =
          (s.listBeaconPeriods rating file startTime endTime nidText).2.ready entry.1) :
    (s.listBeaconPeriods rating file startTime endTime nidText).2.Kept rating := by
  rw [Service.listBeaconPeriods] at hpath ⊢
  cases hquery : Service.assessmentQuery (s.files file) startTime endTime nidText with
  | error e => exact h
  | ok query =>
      obtain ⟨w, nid⟩ := query
      rw [hquery] at hpath
      dsimp only at hpath ⊢
      let key : CacheKey := ⟨file, startTime, endTime, nid, framesMaxId ((s.files file).window w)⟩
      have hwindow : key.window = w := window_of_query _ _ hquery
      have hlive : (assessments rating).Live s key := by
        rw [Versioned.Live]
        dsimp only [assessments]
        rw [hwindow]
      have hvalue : freshAssessment rating (s.backfill file) (s.files file) w nid =
          (assessments rating).value s key := by
        dsimp only [assessments]
        rw [hwindow]
      cases hget : s.cache.get? key with
      | some cached => exact h
      | none =>
          rw [hget] at hpath
          dsimp only at hpath ⊢
          rw [hvalue] at hpath ⊢
          rcases requestUnlessReady_cases s file w with hsame | ⟨hnot, -, -, hstart⟩
          · rw [hsame]
            exact remember_kept h hfile hlive
          · rw [hstart] at hpath ⊢
            have hready : s.ready key = (s.startWorker file).ready key := by
              rw [startWorker_not_ready s key, Service.ready, hwindow, hnot]
            rw [value_congr hready rfl rfl]
            exact remember_kept (startWorker_kept h file hpath) hfile hlive

theorem appendFrames_kept (h : s.Kept rating) (state : Option MinuteState) (records : List LogRecord)
    (hpath : ∀ entry ∈ s.cache.entries, (assessments rating).Live s entry.1 →
      (assessments rating).Live
          (s.setTables s.current (appendFrames parser (s.files s.current) state records).1.1) entry.1 →
        s.ready entry.1 =
          (s.setTables s.current (appendFrames parser (s.files s.current) state records).1.1).ready
            entry.1) :
    (s.setTables s.current (appendFrames parser (s.files s.current) state records).1.1).Kept
      rating := by
  have hgrown := appendFrames_grown parser (s.files s.current) state records
  set tables := (appendFrames parser (s.files s.current) state records).1.1 with htables
  have hself : (s.setTables s.current tables).files s.current = tables := by
    simp [Service.setTables]
  refine ⟨fun file => ?_, h.current, h.known, h.running, ?_⟩
  · by_cases hfile : file = s.current
    · subst hfile
      rw [hself]
      exact hgrown.numbered (h.numbered _)
    · simpa [Service.setTables, hfile] using h.numbered file
  · apply h.sound_of_file s.current
    · intro f hf
      exact ⟨Function.update_of_ne hf _ _, rfl⟩
    · intro w
      rw [hself]
      exact hgrown.framesMaxId_le w
    · intro entry hentry hfile hlive hlive'
      have hsame : framesMaxId ((s.files s.current).window entry.1.window) =
          framesMaxId (tables.window entry.1.window) := by
        have hmax := hlive.symm.trans hlive'
        dsimp only [assessments] at hmax
        rwa [hfile, hself] at hmax
      obtain ⟨hwindow, hrecords⟩ := hgrown.window_eq (h.numbered _) hsame
      apply value_congr (hpath entry hentry hlive hlive')
      · rw [hfile, hself, hwindow]
      · rw [hfile, hself, hrecords]

/-- A log replaces the tables of a file that no result was kept for. -/
theorem replaceLog_kept (h : s.Kept rating) {tables : Tables} (htables : tables.Numbered)
    (hnew : registry ∨ ∀ entry ∈ s.cache.entries, entry.1.file ≠ s.current) :
    (s.replaceLog registry tables).Kept rating := by
  rw [Service.replaceLog]
  split
  · refine ⟨fun file => ?_, Nat.lt_succ_self _, fun entry hentry => ?_, h.running, ?_⟩
    · by_cases hfile : file = s.nextFile
      · simpa [hfile] using htables
      · simpa [hfile] using h.numbered file
    · exact (h.known entry hentry).trans (Nat.lt_succ_self _)
    · refine h.sound_of_untouched (fun entry hentry => ?_) rfl
      exact Function.update_of_ne (h.known entry hentry).ne _ _
  · next hregistry =>
      have hunused := hnew.resolve_left hregistry
      refine ⟨fun file => ?_, h.current, h.known, h.running, ?_⟩
      · by_cases hfile : file = s.current
        · simpa [Service.setTables, hfile] using htables
        · simpa [Service.setTables, hfile] using h.numbered file
      · refine h.sound_of_untouched (fun entry hentry => ?_) rfl
        exact Function.update_of_ne (hunused entry hentry) _ _

/-- The state in which the worker of a file has ended, with or without success. -/
def Service.ended (s : Service Verdict) (file : ℕ) (done : Bool) : Service Verdict :=
  { s with
    backfill := Function.update s.backfill file ⟨false, done⟩
    workers := Function.update s.workers file none }

theorem ended_kept (h : s.Kept rating) (file : ℕ) (done : Bool)
    (hpath : ∀ entry ∈ s.cache.entries, (assessments rating).Live s entry.1 →
      (assessments rating).Live (s.ended file done) entry.1 →
        s.ready entry.1 = (s.ended file done).ready entry.1) :
    (s.ended file done).Kept rating := by
  refine ⟨h.numbered, h.current, h.known, fun f hf => ?_, ?_⟩
  · have hfile : f ≠ file := by
      rintro rfl
      exact hf (Function.update_self _ _ _)
    have hworker : s.workers f ≠ none := by simpa [Service.ended, hfile] using hf
    simpa [Service.ended, hfile] using h.running f hworker
  · exact h.sound_of_flags file rfl (fun f hf => Function.update_of_ne hf _ _) hpath

/-- A transaction leaves frames and times alone, and the columns are not in use while it runs. -/
theorem transaction_kept (h : s.Kept rating) {file : ℕ} {phase : BackfillPhase}
    (hworker : s.workers file = some phase) (next : BackfillPhase)
    (hsame : ∀ entry ∈ s.cache.entries, (assessments rating).Live s entry.1 → entry.1.file = file →
      SameNetworks phase (s.files file) entry.1.window) :
    Service.Kept rating
      { s.setTables file (phase.apply (s.files file)) with
        workers := Function.update s.workers file (some next) } := by
  have hrunning : (s.backfill file).running := h.running file (by rw [hworker]; exact nofun)
  refine ⟨fun f => ?_, h.current, h.known, fun f hf => ?_, ?_⟩
  · by_cases hfile : f = file
    · subst hfile
      simpa [Service.setTables] using (h.numbered f).apply phase
    · simpa [Service.setTables, hfile] using h.numbered f
  · by_cases hfile : f = file
    · exact hfile ▸ hrunning
    · exact h.running f (by simpa [hfile] using hf)
  · apply h.sound_of_file file
    · intro f hf
      exact ⟨Function.update_of_ne hf _ _, rfl⟩
    · intro w
      simp [Service.setTables, framesMaxId_apply]
    · intro entry hentry hfile hlive _
      subst hfile
      have hbefore : sqlPathReady (s.backfill entry.1.file) (s.files entry.1.file)
          entry.1.window = false := not_ready_of_running hrunning
      have hafter : sqlPathReady (s.backfill entry.1.file)
          (phase.apply (s.files entry.1.file)) entry.1.window = false := by
        rw [sqlPathReady, hrunning]
        rfl
      simp only [assessments, Service.setTables, Function.update_self]
      rw [freshAssessment_of_not_ready rating hbefore, freshAssessment_of_not_ready rating hafter]
      refine (assessByPython_congr rating (map_full_apply phase _ _) ?_).symm
      exact iterAssessmentRecords_apply (h.numbered _) phase _ (hsame entry hentry hlive rfl)

theorem openIndex_lt (hcurrent : s.current < s.nextFile) {index : Option ℕ} {file : ℕ}
    (hopen : s.openIndex registry index = some file) : file < s.nextFile := by
  cases index with
  | none =>
      obtain rfl := Option.some.inj hopen
      exact hcurrent
  | some f =>
      rw [Service.openIndex] at hopen
      split at hopen
      · next hf =>
          obtain rfl := Option.some.inj hopen
          exact hf.2
      · cases hopen

/-- Every harmless event keeps the invariant. -/
theorem step_kept (h : s.Kept rating) (hg : Harmless parser registry rating s e)
    (he : (listenerService parser registry rating).step s e = some s') : s'.Kept rating := by
  have hpath := hg.samePath s' he
  cases e with
  | appendFrames state records =>
      obtain rfl := Option.some.inj he
      exact appendFrames_kept h state records hpath
  | indexFile lines =>
      obtain rfl := Option.some.inj he
      have hnumbered := (indexFile_grown parser lines).numbered numbered_empty
      exact replaceLog_kept h hnumbered (hg.newFile trivial)
  | resetIndex =>
      obtain rfl := Option.some.inj he
      exact replaceLog_kept h numbered_empty (hg.newFile trivial)
  | listBeaconPeriods index startTime endTime nidText =>
      obtain ⟨file, hopen, rfl⟩ := Option.map_eq_some_iff.mp he
      exact listBeaconPeriods_kept h (openIndex_lt h.current hopen) startTime endTime nidText hpath
  | backfillStep file =>
      obtain ⟨phase, hworker, rfl⟩ := Option.map_eq_some_iff.mp he
      have hsame := hg.sameNetworks file phase rfl hworker
      rw [Service.backfillStep] at hpath ⊢
      dsimp only at hpath ⊢
      cases hnext : phase.next (phase.batch (s.files file).frames) with
      | some phase' => exact transaction_kept h hworker phase' hsame
      | none =>
          rw [hnext] at hpath
          exact ended_kept h file true hpath
  | backfillFails file =>
      obtain ⟨phase, -, rfl⟩ := Option.map_eq_some_iff.mp he
      exact ended_kept h file (s.backfill file).done hpath

/-! ## Runs -/

/-- A call returns what would be computed without the cache. -/
def Coherent (registry : Bool) (rating : Rating Verdict) (s : Service Verdict) :
    ServiceEvent → Prop
  | .listBeaconPeriods index startTime endTime nidText => ∀ file,
      s.openIndex registry index = some file →
        (s.listBeaconPeriods rating file startTime endTime nidText).1 =
          s.freshResult rating file startTime endTime nidText
  | _ => True

/-- As long as nothing is kept every event is harmless. -/
theorem harmless_of_empty (h : s.cache = .empty) (e : ServiceEvent) :
    Harmless parser registry rating s e := by
  constructor <;> simp [h, Dict.empty]

/-- With a registry a new log gets a file that nothing was kept for. -/
theorem harmless_of_registry (h : s.Kept rating) (hnew : e.Replaces) :
    Harmless parser true rating s e := by
  have hready : ∀ tables, ∀ entry ∈ s.cache.entries,
      s.ready entry.1 = (s.replaceLog true tables).ready entry.1 := by
    intro tables entry hentry
    have hfile : (s.replaceLog true tables).files entry.1.file = s.files entry.1.file :=
      Function.update_of_ne (h.known entry hentry).ne _ _
    rw [Service.ready, Service.ready, hfile]
    rfl
  refine ⟨fun _ => Or.inl rfl, fun s' he entry hentry _ _ => ?_, ?_⟩
  · cases e with
    | indexFile lines =>
        obtain rfl := Option.some.inj he
        exact hready _ entry hentry
    | resetIndex =>
        obtain rfl := Option.some.inj he
        exact hready _ entry hentry
    | _ => exact hnew.elim
  · rintro file phase rfl
    exact hnew.elim

/-- A process that has just started over some files. -/
def Service.opened (files : ℕ → Tables) (current nextFile : ℕ) : Service Verdict :=
  { files, current, nextFile }

theorem opened_kept {files : ℕ → Tables} {current nextFile : ℕ}
    (hnumbered : ∀ file, (files file).Numbered) (hcurrent : current < nextFile) :
    (Service.opened files current nextFile).Kept rating :=
  ⟨hnumbered, hcurrent, fun _ h => (nomatch h), fun _ h => absurd rfl h, Sound.empty⟩

/-- Where every event of a run leaves alone what the kept results were computed from, every call of
the run returns what would be computed without the cache. -/
theorem coherent_of_harmless (parser : Option Parser) (registry : Bool) (rating : Rating Verdict)
    {files : ℕ → Tables} {current nextFile : ℕ} (hnumbered : ∀ file, (files file).Numbered)
    (hcurrent : current < nextFile) {events : List ServiceEvent}
    (hharmless : (listenerService parser registry rating).Follows (Harmless parser registry rating)
      (.opened files current nextFile) events) :
    (listenerService parser registry rating).Follows (Coherent registry rating)
      (.opened files current nextFile) events := by
  apply hharmless.imp (Service.Kept rating)
  · intro s e hs _
    cases e <;> try trivial
    exact fun file _ => hs.listed file _ _ _
  · exact fun s e s' hs hg he => step_kept hs hg he
  · exact opened_kept hnumbered hcurrent

end Service

/-! ## A run that goes wrong -/

/-- A rating that reads nothing. -/
def blankRating : Rating Unit where
  extractSlotFields _ := none
  extractRouteFields _ := none
  extractChannelFields _ := none
  estimatePeriod _ := none
  verdict _ := ()
  overallHealth _ := .healthy

/-- A frame of a network. -/
def oneFrame (nid : Byte) : LogRecord :=
  let frame := [0x7E, 0xFF, 0x02] ++ List.replicate 21 0 ++ [nid] ++ List.replicate 14 0 ++ [0x7E]
  ⟨"1", "08:00:00.000", " ".intercalate (frame.map hex02)⟩

theorem oneFrame_time (nid : Byte) : (oneFrame nid).logTime ≠ "" := by simp [oneFrame]

theorem oneFrame_nid (nid : Byte) : extractNid (oneFrame nid).hexFrame = some (nid : ℕ) := by
  have htext := filter_spaced (fun c => !Adapter10376.pySpace c) rfl (by decide)
    ([0x7E, 0xFF, 0x02] ++ List.replicate 21 0 ++ [nid] ++ List.replicate 14 0 ++ [0x7E])
  unfold extractNid decodeFrame oneFrame
  dsimp only
  rw [htext, fromHexChars_upper]
  simp [byteAt, slice]
/-- A log of one frame. -/
def oneFrameLog (nid : Byte) : List Bytes :=
  let text := "[1][08:00:00.000]" ++ (oneFrame nid).hexFrame
  [text.toList.map fun c => Fin.ofNat 256 c.toNat]

theorem oneFrameLog_read (nid : Byte) (h : nid = 1 ∨ nid = 2) :
    (oneFrameLog nid).filterMap extractLogRecord = [oneFrame nid] := by
  unfold oneFrameLog oneFrame
  dsimp only
  rw [String.toList_append, toList_spaced]
  rcases h with rfl | rfl <;> decide +kernel

/-- The window of all frames. -/
def allFrames : Window := ⟨"", ""⟩

/-- A log of one record. -/
theorem indexFile_single {lines : List Bytes} {record : LogRecord}
    (h : lines.filterMap extractLogRecord = [record]) :
    (indexFile none lines).1.frames = [{ appendedRow 1 record {} with
      nid := extractNid record.hexFrame, assessDetail := some false }] := by
  rw [indexFile, h]
  rfl

/-- An assessment of a single frame without a summary finds the network of its control header. -/
theorem networks_single {lines : List Bytes} {record : LogRecord} {n : ℕ} (state : BackfillState)
    (h : lines.filterMap extractLogRecord = [record]) (htime : record.logTime ≠ "")
    (hnid : extractNid record.hexFrame = some n) :
    (freshAssessment blankRating state (indexFile none lines).1 allFrames none).networks.map
      Network.nid = [n] := by
  let row : FrameRow :=
    { appendedRow 1 record {} with nid := extractNid record.hexFrame, assessDetail := some false }
  have hwindow : (indexFile none lines).1.window allFrames = [row] := by
    rw [Tables.window, indexFile_single h]
    rfl
  have hready : sqlPathReady state (indexFile none lines).1 allFrames = false := by
    simp [sqlPathReady, hwindow, row, appendedRow]
  have hrow : row.full.logTime ≠ "" := htime
  have hnid' : row.full.nid = some n := hnid
  rw [freshAssessment_of_not_ready blankRating hready, assessByPython, assessByNetworkStream, hwindow,
    List.map_singleton, List.foldl_cons, List.foldl_nil, streamRow, if_neg hrow]
  simp only [hnid']
  rfl

/-- The service after the assessment of one log, with the next log put in. -/
def nextLog (first second : Tables) : Service Unit :=
  let s : Service Unit := (Service.opened (fun _ => {}) 0 1).replaceLog false first
  (s.listBeaconPeriods blankRating 0 "" "" "").2.replaceLog false second

theorem listBeaconPeriods_current (s : Service Unit) (file : ℕ) (startTime endTime nidText : String) :
    (s.listBeaconPeriods blankRating file startTime endTime nidText).2.current = s.current := by
  rw [Service.listBeaconPeriods]
  split
  · rfl
  · next w nid _ =>
      dsimp only
      split
      · rfl
      · rcases requestUnlessReady_cases s file w with hsame | ⟨-, -, -, hstart⟩
        · rw [hsame]
        · rw [hstart]
          rfl

theorem nextLog_current (first second : Tables) : (nextLog first second).current = 0 :=
  listBeaconPeriods_current _ _ _ _ _

theorem nextLog_files (first second : Tables) : (nextLog first second).files 0 = second := by
  have hcurrent := nextLog_current first second
  conv_lhs => rw [← hcurrent]
  exact Function.update_self _ _ _

theorem freshResult_all (s : Service Unit) : s.freshResult blankRating 0 "" "" "" =
    .ok (freshAssessment blankRating (s.backfill 0) (s.files 0) allFrames none) := rfl

/-- A log whose identifiers end with those of the log before it is given the old result. -/
theorem nextLog_listed {first second : Tables}
    (hmax : framesMaxId (second.window allFrames) = framesMaxId (first.window allFrames)) :
    ((nextLog first second).listBeaconPeriods blankRating 0 "" "" "").1 =
      .ok (freshAssessment blankRating {} first allFrames none) := by
  have hquery : Service.assessmentQuery ((nextLog first second).files 0) "" "" "" =
      .ok (allFrames, none) := rfl
  have hget : (nextLog first second).cache.get?
      ⟨0, "", "", none, framesMaxId (first.window allFrames)⟩ =
        some (freshAssessment blankRating {} first allFrames none) := Dict.get?_set_self _ _ _
  rw [Service.listBeaconPeriods, hquery]
  dsimp only
  rw [nextLog_files, hmax, hget]

/-- Two logs are indexed into the same file, and an assessment is asked for after each. -/
def reindexed (first second : List Bytes) : List ServiceEvent :=
  [.indexFile first, .listBeaconPeriods none "" "" "", .indexFile second,
    .listBeaconPeriods none "" "" ""]

/-- The last call of the run. -/
theorem reindexed_last {first second : List Bytes}
    (h : (listenerService none false blankRating).Follows (Coherent false blankRating)
      (.opened (fun _ => {}) 0 1) (reindexed first second)) :
    Coherent false blankRating (nextLog (indexFile none first).1 (indexFile none second).1)
      (.listBeaconPeriods none "" "" "") := by
  obtain ⟨-, h⟩ := h
  obtain ⟨-, h⟩ := h _ rfl
  obtain ⟨-, h⟩ := h _ rfl
  obtain ⟨h, -⟩ := h _ rfl
  exact h

/-- A log of network 2 after a log of network 1: the assessment is the one of network 1. -/
theorem reindexed_stale : ¬ ∀ registry events, (listenerService none registry blankRating).Follows
    (Coherent registry blankRating) (.opened (fun _ => {}) 0 1) events := by
  intro hall
  have hcoherent := reindexed_last (hall false (reindexed (oneFrameLog 1) (oneFrameLog 2)))
  have hfirst := oneFrameLog_read 1 (Or.inl rfl)
  have hsecond := oneFrameLog_read 2 (Or.inr rfl)
  have hmax : ∀ {lines : List Bytes} {record : LogRecord},
      lines.filterMap extractLogRecord = [record] →
        framesMaxId ((indexFile none lines).1.window allFrames) = 1 := by
    intro lines record h
    rw [Tables.window, indexFile_single h]
    rfl
  have hlast := hcoherent 0 (congrArg some (nextLog_current _ _))
  rw [nextLog_listed ((hmax hsecond).trans (hmax hfirst).symm), freshResult_all, nextLog_files] at hlast
  have hnetworks := congrArg (fun a => a.networks.map Network.nid) (Except.ok.inj hlast)
  rw [networks_single _ hfirst (oneFrame_time 1) (oneFrame_nid 1),
    networks_single _ hsecond (oneFrame_time 2) (oneFrame_nid 2)] at hnetworks
  exact absurd hnetworks (by decide)

/-- Two logs in files of their own, with an assessment of the first. -/
theorem indexed_coherent : (listenerService none true blankRating).Follows
    (Coherent true blankRating) (.opened (fun _ => {}) 0 1)
      [.indexFile (oneFrameLog 1), .listBeaconPeriods none "" "" "", .indexFile (oneFrameLog 2)] := by
  apply coherent_of_harmless none true blankRating (fun _ => numbered_empty) Nat.one_pos
  have hopened : Service.Kept blankRating (.opened (fun _ => {}) 0 1) :=
    opened_kept (fun _ => numbered_empty) Nat.one_pos
  refine ⟨harmless_of_empty rfl _, fun s hs => ?_⟩
  have hkept := step_kept hopened (harmless_of_empty rfl _) hs
  obtain rfl := Option.some.inj hs
  refine ⟨harmless_of_empty rfl _, fun s' hs' => ?_⟩
  exact ⟨harmless_of_registry (step_kept hkept (harmless_of_empty rfl _) hs') trivial, fun _ _ => trivial⟩

end HplcWorkbench.ListenerLog
