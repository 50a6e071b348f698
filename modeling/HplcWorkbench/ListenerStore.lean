import HplcWorkbench.FrameJournal

/-!
# The store of the listener

Frames, report rows and snapshots stand in five tables. Each insert of a frame or a report row
deletes what is older than five days from the frames and the report rows, snapshots are kept. The
database does not enforce foreign keys, so a row may outlive the frame it refers to.
-/

namespace HplcWorkbench.ListenerStore
open Transitions

/-- `_REPORT_RETAIN_DAYS`. -/
def reportRetainDays : ℕ := 5

/-- A row of `frame_log`. Days are counted, an empty day is `none`. -/
structure FrameRow where
  id : ℕ
  day : Option ℕ
  entry : Journal.Entry
  deriving DecidableEq, Repr

/-- What the rows of both report tables have in common. -/
structure ReportRow where
  id : ℕ
  frameId : Option ℕ
  day : Option ℕ
  payload : String
  deriving DecidableEq, Repr

/-- A row of `report_event`. -/
structure ReportEvent extends ReportRow where
  afn : String
  fn : String
  eventType : String
  deriving DecidableEq, Repr

/-- A row of `report_meter_data`. -/
structure ReportMeterData extends ReportRow
  deriving DecidableEq, Repr

/-- A row of `query_snapshot`. -/
structure QuerySnapshot where
  id : ℕ
  afn : String
  fn : String
  mode : String
  status : String
  total : Option ℕ
  itemCount : Option ℕ
  deriving DecidableEq, Repr

/-- A row of `query_snapshot_item`. -/
structure SnapshotItem where
  id : ℕ
  snapshotId : ℕ
  seqIndex : ℕ
  frameId : Option ℕ
  addr : String
  payload : String
  deriving DecidableEq, Repr

/-- The tables, the clock and the next identifier of each table. -/
structure Store where
  today : ℕ
  frameLog : List FrameRow := []
  reportEvent : List ReportEvent := []
  reportMeterData : List ReportMeterData := []
  querySnapshot : List QuerySnapshot := []
  querySnapshotItem : List SnapshotItem := []
  nextFrame : ℕ := 1
  nextEvent : ℕ := 1
  nextMeter : ℕ := 1
  nextSnapshot : ℕ := 1
  nextItem : ℕ := 1
  deriving DecidableEq

/-- `day = '' OR day < ?`. -/
def expired (cutoff : ℕ) : Option ℕ → Bool
  | none => true
  | some day => day < cutoff

namespace Store

/-- The first day of the retention window. -/
def cutoff (s : Store) : ℕ := s.today - (reportRetainDays - 1)

/-- `_prune_reports`. -/
def pruneReports (s : Store) : Store :=
  { s with
    reportEvent := s.reportEvent.filter (fun r => !expired s.cutoff r.day)
    reportMeterData := s.reportMeterData.filter (fun r => !expired s.cutoff r.day)
    frameLog := s.frameLog.filter (fun r => !expired s.cutoff r.day) }

def addFrame (s : Store) (entry : Journal.Entry) : Store :=
  pruneReports { s with
    frameLog := s.frameLog ++ [⟨s.nextFrame, some s.today, entry⟩]
    nextFrame := s.nextFrame + 1 }

def addReportEvent (s : Store) (frameId : Option ℕ) (afn fn eventType payload : String) : Store :=
  pruneReports { s with
    reportEvent := s.reportEvent ++ [⟨⟨s.nextEvent, frameId, some s.today, payload⟩, afn, fn, eventType⟩]
    nextEvent := s.nextEvent + 1 }

def addReportMeterData (s : Store) (frameId : Option ℕ) (payload : String) : Store :=
  pruneReports { s with
    reportMeterData := s.reportMeterData ++ [⟨⟨s.nextMeter, frameId, some s.today, payload⟩⟩]
    nextMeter := s.nextMeter + 1 }

def openSnapshot (s : Store) (afn fn mode : String) : Store :=
  { s with
    querySnapshot := s.querySnapshot ++ [⟨s.nextSnapshot, afn, fn, mode, "running", none, none⟩]
    nextSnapshot := s.nextSnapshot + 1 }

def addSnapshotItem (s : Store) (snapshotId seqIndex : ℕ) (addr payload : String)
    (frameId : Option ℕ) : Store :=
  { s with
    querySnapshotItem := s.querySnapshotItem ++
      [⟨s.nextItem, snapshotId, seqIndex, frameId, addr, payload⟩]
    nextItem := s.nextItem + 1 }

def closeSnapshot (s : Store) (snapshotId : ℕ) (status : String) (total itemCount : Option ℕ) : Store :=
  { s with
    querySnapshot := s.querySnapshot.map fun r =>
      if r.id = snapshotId then
        { r with status := status, total := total.or r.total, itemCount := itemCount.or r.itemCount }
      else r }

end Store

inductive Event
  /-- the clock moves on to a day -/
  | day (today : ℕ)
  | addFrame (entry : Journal.Entry)
  | addReportEvent (frameId : Option ℕ) (afn fn eventType payload : String)
  | addReportMeterData (frameId : Option ℕ) (payload : String)
  | openSnapshot (afn fn mode : String)
  | addSnapshotItem (snapshotId seqIndex : ℕ) (addr payload : String) (frameId : Option ℕ)
  | closeSnapshot (snapshotId : ℕ) (status : String) (total itemCount : Option ℕ)
  deriving DecidableEq, Repr

/-- The operations in any order, on any days. -/
def listenerStore : Machine Store Event where
  step s
    | .day today => if s.today ≤ today then some { s with today := today } else none
    | .addFrame entry => some (s.addFrame entry)
    | .addReportEvent frameId afn fn eventType payload =>
      some (s.addReportEvent frameId afn fn eventType payload)
    | .addReportMeterData frameId payload => some (s.addReportMeterData frameId payload)
    | .openSnapshot afn fn mode => some (s.openSnapshot afn fn mode)
    | .addSnapshotItem snapshotId seqIndex addr payload frameId =>
      some (s.addSnapshotItem snapshotId seqIndex addr payload frameId)
    | .closeSnapshot snapshotId status total itemCount =>
      some (s.closeSnapshot snapshotId status total itemCount)

/-! ## References -/

namespace Store

/-- The rows of both report tables. -/
def reportRows (s : Store) : List ReportRow :=
  s.reportEvent.map (·.toReportRow) ++ s.reportMeterData.map (·.toReportRow)

def HasFrame (s : Store) (frameId : ℕ) : Prop := ∃ x ∈ s.frameLog, x.id = frameId

/-- Every report row and every snapshot item with a frame identifier refers to a frame that is
there. -/
def Integrity (s : Store) : Prop :=
  (∀ r ∈ s.reportRows, ∀ f, r.frameId = some f → s.HasFrame f) ∧
  ∀ i ∈ s.querySnapshotItem, ∀ f, i.frameId = some f → s.HasFrame f

/-- No frame that is older than the retention window is referred to by a report row inside the
window or by a snapshot item. -/
def NothingOutlives (s : Store) : Prop :=
  ∀ x ∈ s.frameLog, expired s.cutoff x.day = true →
    (∀ r ∈ s.reportRows, r.frameId = some x.id → expired s.cutoff r.day = true) ∧
    ∀ i ∈ s.querySnapshotItem, i.frameId ≠ some x.id

end Store

/-- A row is written while its frame is there, a report row while its frame is inside the retention
window, and an insert that deletes finds no old frame that a younger row or a snapshot item needs. -/
def Traceable (s : Store) : Event → Prop
  | .addFrame _ => s.NothingOutlives
  | .addReportEvent frameId _ _ _ _ | .addReportMeterData frameId _ => s.NothingOutlives ∧
    ∀ f, frameId = some f → ∃ x ∈ s.frameLog, x.id = f ∧ expired s.cutoff x.day = false
  | .addSnapshotItem _ _ _ _ frameId => ∀ f, frameId = some f → s.HasFrame f
  | _ => True

/-- All frames have identifiers of their own, which were given out. -/
structure Sound (s : Store) : Prop where
  integrity : s.Integrity
  given : ∀ x ∈ s.frameLog, x.id < s.nextFrame
  unique : ∀ x ∈ s.frameLog, ∀ y ∈ s.frameLog, x.id = y.id → x = y

section Pruning
variable {s : Store}

/-- What a deletion has to leave: every row it keeps still has its frame. -/
def KeepsFrames (s : Store) : Prop :=
  (∀ r ∈ s.reportRows, expired s.cutoff r.day = false → ∀ f, r.frameId = some f →
    ∃ x ∈ s.frameLog, x.id = f ∧ expired s.cutoff x.day = false) ∧
  ∀ i ∈ s.querySnapshotItem, ∀ f, i.frameId = some f →
    ∃ x ∈ s.frameLog, x.id = f ∧ expired s.cutoff x.day = false

theorem hasFrame_pruneReports (f : ℕ) : s.pruneReports.HasFrame f ↔
    ∃ x ∈ s.frameLog, x.id = f ∧ expired s.cutoff x.day = false := by
  simp only [Store.HasFrame, Store.pruneReports, List.mem_filter, Bool.not_eq_true']
  exact exists_congr fun x => by tauto

theorem mem_reportRows_pruneReports {r : ReportRow} :
    r ∈ s.pruneReports.reportRows ↔ r ∈ s.reportRows ∧ expired s.cutoff r.day = false := by
  simp only [Store.reportRows, Store.pruneReports, List.mem_append, List.mem_map, List.mem_filter,
    Bool.not_eq_true']
  constructor
  · rintro (⟨e, ⟨he, hday⟩, rfl⟩ | ⟨e, ⟨he, hday⟩, rfl⟩)
    · exact ⟨.inl ⟨e, he, rfl⟩, hday⟩
    · exact ⟨.inr ⟨e, he, rfl⟩, hday⟩
  · rintro ⟨⟨e, he, rfl⟩ | ⟨e, he, rfl⟩, hday⟩
    · exact .inl ⟨e, ⟨he, hday⟩, rfl⟩
    · exact .inr ⟨e, ⟨he, hday⟩, rfl⟩

theorem integrity_pruneReports : s.pruneReports.Integrity ↔ KeepsFrames s := by
  unfold Store.Integrity KeepsFrames
  simp only [hasFrame_pruneReports, mem_reportRows_pruneReports, and_imp]
  rfl

theorem keepsFrames_iff (h : s.Integrity)
    (hunique : ∀ x ∈ s.frameLog, ∀ y ∈ s.frameLog, x.id = y.id → x = y) :
    KeepsFrames s ↔ s.NothingOutlives := by
  constructor
  · rintro ⟨hrows, hitems⟩ x hx hold
    have hgone (f : ℕ) (hf : f = x.id) :
        ¬ ∃ y ∈ s.frameLog, y.id = f ∧ expired s.cutoff y.day = false := by
      rintro ⟨y, hy, hid, hyoung⟩
      rw [hunique y hy x hx (hid.trans hf), hold] at hyoung
      cases hyoung
    constructor
    · intro r hr hframe
      by_contra hyoung
      exact hgone _ rfl (hrows r hr (by simpa using hyoung) _ hframe)
    · intro i hi hframe
      exact hgone _ rfl (hitems i hi _ hframe)
  · intro hnothing
    constructor
    · intro r hr hyoung f hframe
      obtain ⟨x, hx, rfl⟩ := h.1 r hr f hframe
      refine ⟨x, hx, rfl, ?_⟩
      by_contra hold
      rw [(hnothing x hx (by simpa using hold)).1 r hr hframe] at hyoung
      cases hyoung
    · intro i hi f hframe
      obtain ⟨x, hx, rfl⟩ := h.2 i hi f hframe
      refine ⟨x, hx, rfl, ?_⟩
      by_contra hold
      exact (hnothing x hx (by simpa using hold)).2 i hi hframe

theorem expired_today (s : Store) : expired s.cutoff (some s.today) = false :=
  decide_eq_false (Nat.not_lt.mpr (Nat.sub_le _ _))

/-- Deleting leaves frames that were there. -/
theorem Sound.pruneReports (hint : s.pruneReports.Integrity) (hgiven : ∀ x ∈ s.frameLog, x.id < s.nextFrame)
    (hunique : ∀ x ∈ s.frameLog, ∀ y ∈ s.frameLog, x.id = y.id → x = y) : Sound s.pruneReports :=
  ⟨hint, fun x hx => hgiven x (List.mem_of_mem_filter hx),
    fun x hx y hy => hunique x (List.mem_of_mem_filter hx) y (List.mem_of_mem_filter hy)⟩

end Pruning

/-! ## Steps -/

section Steps
variable {s s' : Store}

/-- A new frame has an identifier of its own. -/
theorem Sound.frame (h : Sound s) (entry : Journal.Entry) :
    (∀ x ∈ s.frameLog ++ [⟨s.nextFrame, some s.today, entry⟩], x.id < s.nextFrame + 1) ∧
    ∀ x ∈ s.frameLog ++ [⟨s.nextFrame, some s.today, entry⟩],
      ∀ y ∈ s.frameLog ++ [⟨s.nextFrame, some s.today, entry⟩], x.id = y.id → x = y := by
  simp only [List.mem_append, List.mem_singleton]
  constructor
  · rintro x (hx | rfl)
    · exact (h.given x hx).trans (Nat.lt_succ_self _)
    · exact Nat.lt_succ_self _
  · rintro x (hx | rfl) y (hy | rfl) hid
    · exact h.unique x hx y hy hid
    · exact absurd hid (h.given x hx).ne
    · exact absurd hid.symm (h.given y hy).ne
    · rfl

theorem Sound.addFrame_iff (h : Sound s) (entry : Journal.Entry) :
    (s.addFrame entry).Integrity ↔ s.NothingOutlives := by
  rw [Store.addFrame, integrity_pruneReports, keepsFrames_iff ?_ (h.frame entry).2]
  · constructor
    · exact fun hnothing x hx => hnothing x (List.mem_append_left _ hx)
    · intro hnothing x hx hold
      obtain hx | hx := List.mem_append.mp hx
      · exact hnothing x hx hold
      · rw [List.mem_singleton.mp hx] at hold
        cases (expired_today s).symm.trans hold
  · constructor
    · intro r hr f hframe
      obtain ⟨x, hx, hid⟩ := h.integrity.1 r hr f hframe
      exact ⟨x, List.mem_append_left _ hx, hid⟩
    · intro i hi f hframe
      obtain ⟨x, hx, hid⟩ := h.integrity.2 i hi f hframe
      exact ⟨x, List.mem_append_left _ hx, hid⟩

/-- A report row of today is inserted, and what is old deleted. -/
theorem Sound.report_iff (h : Sound s) {t : Store} {row : ReportRow}
    (hrows : ∀ r, r ∈ t.reportRows ↔ r ∈ s.reportRows ∨ r = row) (hday : row.day = some s.today)
    (htoday : t.today = s.today) (hframes : t.frameLog = s.frameLog)
    (hitems : t.querySnapshotItem = s.querySnapshotItem) :
    t.pruneReports.Integrity ↔ s.NothingOutlives ∧ ∀ f, row.frameId = some f →
      ∃ x ∈ s.frameLog, x.id = f ∧ expired s.cutoff x.day = false := by
  have hcutoff : t.cutoff = s.cutoff := by rw [Store.cutoff, htoday, Store.cutoff]
  rw [integrity_pruneReports, ← keepsFrames_iff h.integrity h.unique, KeepsFrames, KeepsFrames, hcutoff,
    hframes, hitems]
  constructor
  · rintro ⟨hall, hkept⟩
    refine ⟨⟨fun r hr => hall r ((hrows r).mpr (.inl hr)), hkept⟩, ?_⟩
    exact hall row ((hrows row).mpr (.inr rfl)) (hday ▸ expired_today s)
  · rintro ⟨⟨hall, hkept⟩, hrow⟩
    refine ⟨fun r hr => ?_, hkept⟩
    obtain hr | rfl := (hrows r).mp hr
    · exact hall r hr
    · exact fun _ => hrow

theorem mem_reportRows_addEvent {e : ReportEvent} {n : ℕ} (r : ReportRow) :
    r ∈ Store.reportRows { s with reportEvent := s.reportEvent ++ [e], nextEvent := n } ↔
      r ∈ s.reportRows ∨ r = e.toReportRow := by
  simp only [Store.reportRows, List.map_append, List.mem_append, List.map_singleton,
    List.mem_singleton]
  exact or_right_comm

theorem mem_reportRows_addMeter {m : ReportMeterData} {n : ℕ} (r : ReportRow) :
    r ∈ Store.reportRows { s with reportMeterData := s.reportMeterData ++ [m], nextMeter := n } ↔
      r ∈ s.reportRows ∨ r = m.toReportRow := by
  simp only [Store.reportRows, List.map_append, List.mem_append, List.map_singleton,
    List.mem_singleton]
  exact or_assoc.symm

/-- A step leaves every reference sound exactly when it is traceable. -/
theorem Sound.integrity_iff (h : Sound s) {e : Event} (he : listenerStore.step s e = some s') :
    s'.Integrity ↔ Traceable s e := by
  cases e with
  | day today =>
      simp only [listenerStore] at he
      split at he
      case isFalse => cases he
      case isTrue =>
        obtain rfl := Option.some.inj he
        exact iff_of_true h.integrity trivial
  | addFrame entry =>
      obtain rfl := Option.some.inj he
      exact h.addFrame_iff entry
  | addReportEvent frameId afn fn eventType payload =>
      obtain rfl := Option.some.inj he
      exact h.report_iff mem_reportRows_addEvent rfl rfl rfl rfl
  | addReportMeterData frameId payload =>
      obtain rfl := Option.some.inj he
      exact h.report_iff mem_reportRows_addMeter rfl rfl rfl rfl
  | openSnapshot afn fn mode =>
      obtain rfl := Option.some.inj he
      exact iff_of_true h.integrity trivial
  | addSnapshotItem snapshotId seqIndex addr payload frameId =>
      obtain rfl := Option.some.inj he
      constructor
      · intro hint f hframe
        exact hint.2 _ (List.mem_append_right _ (List.mem_singleton_self _)) f hframe
      · intro hframe
        refine ⟨h.integrity.1, fun i hi f hf => ?_⟩
        obtain hi | hi := List.mem_append.mp hi
        · exact h.integrity.2 i hi f hf
        · rw [List.mem_singleton.mp hi] at hf
          exact hframe f hf
  | closeSnapshot snapshotId status total itemCount =>
      obtain rfl := Option.some.inj he
      exact iff_of_true h.integrity trivial

theorem Sound.step (h : Sound s) {e : Event} (hg : Traceable s e)
    (he : listenerStore.step s e = some s') : Sound s' := by
  have hint := (h.integrity_iff he).mpr hg
  cases e with
  | day today =>
      simp only [listenerStore] at he
      split at he
      case isFalse => cases he
      case isTrue =>
        obtain rfl := Option.some.inj he
        exact ⟨hint, h.given, h.unique⟩
  | addFrame entry =>
      obtain rfl := Option.some.inj he
      exact Sound.pruneReports hint (h.frame entry).1 (h.frame entry).2
  | addReportEvent frameId afn fn eventType payload =>
      obtain rfl := Option.some.inj he
      exact Sound.pruneReports hint h.given h.unique
  | addReportMeterData frameId payload =>
      obtain rfl := Option.some.inj he
      exact Sound.pruneReports hint h.given h.unique
  | openSnapshot afn fn mode =>
      obtain rfl := Option.some.inj he
      exact ⟨hint, h.given, h.unique⟩
  | addSnapshotItem snapshotId seqIndex addr payload frameId =>
      obtain rfl := Option.some.inj he
      exact ⟨hint, h.given, h.unique⟩
  | closeSnapshot snapshotId status total itemCount =>
      obtain rfl := Option.some.inj he
      exact ⟨hint, h.given, h.unique⟩

theorem Sound.empty (today : ℕ) : Sound { today } :=
  ⟨⟨fun _ hr => absurd hr List.not_mem_nil, fun _ hi => absurd hi List.not_mem_nil⟩,
    fun _ hx => absurd hx List.not_mem_nil, fun _ hx => absurd hx List.not_mem_nil⟩

end Steps

/-- Every state that a run reaches keeps its references. -/
def AlwaysSound (today : ℕ) (events : List Event) : Prop :=
  listenerStore.Follows (fun s e => ∀ s', listenerStore.step s e = some s' → s'.Integrity)
    { today } events

/-- All states of a run keep their references exactly when all its steps are traceable. -/
theorem alwaysSound_iff (today : ℕ) (events : List Event) :
    AlwaysSound today events ↔ listenerStore.Follows Traceable { today } events := by
  refine Machine.follows_iff Sound ?_ ?_ (fun s e s' hs hg he => hs.step hg he)
    (Sound.empty today)
  · intro s e s' hs he
    rw [← hs.integrity_iff he]
    constructor
    · exact fun hall => hall s' he
    · intro hint t ht
      exact Option.some.inj (he.symm.trans ht) ▸ hint
  · intro s e _ he
    refine iff_of_true (fun s' he' => by cases he.symm.trans he') ?_
    cases e with
    | day today => trivial
    | _ => cases he

/-- A report frame that arrives just before midnight: its row is written on the next day, and four
days later another frame arrives. -/
def acrossMidnight (entry : Journal.Entry) : List Event :=
  [.addFrame entry, .day 1, .addReportEvent (some 1) "06" "F1" "上报从节点信息" "{}", .day 5,
    .addFrame entry]

/-- The row outlives its frame. -/
theorem row_outlives_frame :
    ¬ ∀ (today : ℕ) (events : List Event), AlwaysSound today events := by
  intro hclaim
  let entry : Journal.Entry := ⟨1, .rx, none, none, [], some "06", some "F1", some "up"⟩
  obtain ⟨-, hrest⟩ := hclaim 0 (acrossMidnight entry)
  obtain ⟨-, hrest⟩ := hrest _ rfl
  obtain ⟨-, hrest⟩ := hrest _ rfl
  obtain ⟨-, hrest⟩ := hrest _ rfl
  obtain ⟨hlast, -⟩ := hrest _ rfl
  obtain ⟨hrows, -⟩ := hlast _ rfl
  obtain ⟨x, hx, hid⟩ := hrows _ (List.mem_cons_self) 1 rfl
  have hnew := List.mem_singleton.mp hx
  rw [hnew] at hid
  cases hid

end HplcWorkbench.ListenerStore
