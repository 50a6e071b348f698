import HplcWorkbench.AssessmentCache
import HplcWorkbench.NwkScan

/-!
# Incremental scans and full scans

What stands in the tables of the scan is at any time what one scan of the frames up to the position
gives. New frames come in behind the position and leave that part alone; a call that empties the
frames of a file does not, since it knows nothing of the position.
-/

namespace HplcWorkbench.ListenerLog

open OrderedDict Transitions PrefixScan

/-! ## Counting -/

theorem Counters.add_assoc (a b c : Counters) : (a.add b).add c = a.add (b.add c) := by
  simp only [Counters.add, Nat.add_assoc]

theorem Counters.zero_add (a : Counters) : Counters.add {} a = a := by
  simp only [Counters.add, Nat.zero_add]

/-! ## One scan -/

section Scan
variable {decode : FrameDecoder}

/-- The columns that the scan reads. -/
def FrameRow.scanned (row : FrameRow) : ℕ × String × String := (row.id, row.logTime, row.rawHex)

/-- The event of a frame. -/
def Yields (decode : FrameDecoder) (frame : FrameRow) (row : EventRow) : Prop :=
  ∃ parsed, decode frame.rawHex = some parsed ∧ parsed.delimiter ≠ 2 ∧
    ∃ ev ∈ parsed.events, eventRow frame parsed ev = .ok row

/-- What a frame is counted as. -/
def frameTally (decode : FrameDecoder) (frame : FrameRow) : Counters :=
  match decode frame.rawHex with
  | none => { frames := 1, decodeFail := 1 }
  | some parsed => tally parsed

/-- The tables of the scan hold exactly the events of the frames and their totals, as one scan of
the frames from scratch gives them. -/
structure UpToDate (decode : FrameDecoder) (frames : List FrameRow) (nwk : NwkTables) : Prop where
  rows : ∀ id row, nwk.events.get? id = some row ↔
    ∃ frame ∈ frames, frame.id = id ∧ Yields decode frame row
  counters : nwk.counters = (frames.map (frameTally decode)).foldr Counters.add {}
  fromScratch : consumeAll decode (.empty, {}) frames = .ok (nwk.events, nwk.counters)

theorem insertEvents_congr {row row' : FrameRow} (h : row.scanned = row'.scanned)
    (parsed : DualMacFrame) (events : Dict ℕ EventRow) (evs : List NetworkEvent) :
    insertEvents row parsed events evs = insertEvents row' parsed events evs := by
  obtain ⟨hid, htime, -⟩ : row.id = row'.id ∧ row.logTime = row'.logTime ∧ row.rawHex = row'.rawHex := by
    simpa [FrameRow.scanned] using h
  induction evs generalizing events with
  | nil => rfl
  | cons ev rest ih => simp only [insertEvents, eventRow, hid, htime, ih]

theorem consume_congr {row row' : FrameRow} (h : row.scanned = row'.scanned)
    (s : Dict ℕ EventRow × Counters) : consume decode s row = consume decode s row' := by
  have hraw : row.rawHex = row'.rawHex := congrArg (fun k => k.2.2) h
  simp only [consume, hraw, insertEvents_congr h]

/-- The scan reads nothing else of the rows. -/
theorem consumeAll_congr {rows rows' : List FrameRow}
    (h : rows.map FrameRow.scanned = rows'.map FrameRow.scanned) (s : Dict ℕ EventRow × Counters) :
    consumeAll decode s rows = consumeAll decode s rows' := by
  induction rows generalizing rows' s with
  | nil =>
      rw [List.map_nil, eq_comm, List.map_eq_nil_iff] at h
      rw [h]
  | cons row rest ih =>
      cases rows' with
      | nil => cases h
      | cons row' rest' =>
          obtain ⟨hrow, hrest⟩ := List.cons.inj h
          simp only [consumeAll, consume_congr hrow, ih hrest]

theorem consumeAll_append (s : Dict ℕ EventRow × Counters) (rows more : List FrameRow) :
    consumeAll decode s (rows ++ more) =
      consumeAll decode s rows >>= fun s => consumeAll decode s more := by
  induction rows generalizing s with
  | nil => rfl
  | cons row rest ih =>
      rw [List.cons_append, consumeAll, consumeAll, bind_assoc]
      exact congrArg _ (funext fun s' => ih s')

theorem consume_add (events : Dict ℕ EventRow) (a c : Counters) (row : FrameRow) :
    consume decode (events, a.add c) row =
      (consume decode (events, c) row).map fun r => (r.1, a.add r.2) := by
  unfold consume
  cases decode row.rawHex with
  | none => exact congrArg (fun n => Except.ok (events, n)) (Counters.add_assoc _ _ _)
  | some parsed =>
      dsimp only
      split
      · exact congrArg (fun n => Except.ok (events, n)) (Counters.add_assoc _ _ _)
      · cases insertEvents row parsed events parsed.events with
        | error e => rfl
        | ok events' => exact congrArg (fun n => Except.ok (events', n)) (Counters.add_assoc _ _ _)

/-- A batch may be counted from zero and added afterwards. -/
theorem consumeAll_add (events : Dict ℕ EventRow) (a c : Counters) (rows : List FrameRow) :
    consumeAll decode (events, a.add c) rows =
      (consumeAll decode (events, c) rows).map fun r => (r.1, a.add r.2) := by
  induction rows generalizing events c with
  | nil => rfl
  | cons row rest ih =>
      rw [consumeAll, consumeAll, consume_add]
      cases consume decode (events, c) row with
      | error e => rfl
      | ok s => exact ih s.1 s.2

theorem consume_eq {s s' : Dict ℕ EventRow × Counters} {frame : FrameRow}
    (h : consume decode s frame = .ok s') :
    s'.2 = s.2.add (frameTally decode frame) ∧
      (s'.1 = s.1 ∧ (∀ row, ¬ Yields decode frame row) ∨
        ∃ row, s'.1 = s.1.set frame.id row ∧ ∀ row', Yields decode frame row' ↔ row' = row) := by
  unfold consume at h
  unfold frameTally
  cases hdecode : decode frame.rawHex with
  | none =>
      rw [hdecode] at h
      cases h
      refine ⟨rfl, .inl ⟨rfl, ?_⟩⟩
      rintro row ⟨parsed, hparsed, -⟩
      cases hdecode.symm.trans hparsed
  | some parsed =>
      rw [hdecode] at h
      dsimp only at h ⊢
      by_cases hsack : parsed.delimiter = 2
      · rw [if_pos hsack] at h
        cases h
        refine ⟨rfl, .inl ⟨rfl, ?_⟩⟩
        rintro row ⟨parsed', hparsed, hdelimiter, -⟩
        obtain rfl := Option.some.inj (hdecode.symm.trans hparsed)
        exact hdelimiter hsack
      · rw [if_neg hsack] at h
        obtain ⟨events, hinsert, h⟩ := bind_eq_ok h
        cases h
        refine ⟨rfl, ?_⟩
        have hyields : ∀ row, Yields decode frame row ↔
            ∃ ev ∈ parsed.events, eventRow frame parsed ev = .ok row := by
          intro row
          constructor
          · rintro ⟨parsed', hparsed, -, hev⟩
            obtain rfl := Option.some.inj (hdecode.symm.trans hparsed)
            exact hev
          · exact fun hev => ⟨parsed, hdecode, hsack, hev⟩
        -- a frame has one event at most, so none of its rows replaces another
        have hsingle := parsed.single
        match hevents : parsed.events, hsingle with
        | [], _ =>
            rw [hevents] at hinsert hyields
            cases hinsert
            exact .inl ⟨rfl, fun row hrow => by simpa using (hyields row).mp hrow⟩
        | [ev], _ =>
            rw [hevents] at hinsert hyields
            obtain ⟨row, hrow, hset⟩ := bind_eq_ok hinsert
            cases hset
            refine .inr ⟨row, rfl, fun row' => (hyields row').trans ?_⟩
            simp only [List.mem_singleton, exists_eq_left, hrow, Except.ok.injEq]
            exact eq_comm
        | _ :: _ :: _, hlength => exact absurd hlength (by simp)

/-- A scan of frames that were not scanned before adds the event of each of them. -/
theorem consumeAll_eq {s s' : Dict ℕ EventRow × Counters} {frames : List FrameRow}
    (hids : (frames.map FrameRow.id).Pairwise (· < ·))
    (hnew : ∀ frame ∈ frames, s.1.get? frame.id = none)
    (h : consumeAll decode s frames = .ok s') :
    s'.2 = s.2.add ((frames.map (frameTally decode)).foldr Counters.add {}) ∧
      ∀ id row, s'.1.get? id = some row ↔
        s.1.get? id = some row ∨ ∃ frame ∈ frames, frame.id = id ∧ Yields decode frame row := by
  induction frames generalizing s with
  | nil =>
      cases h
      exact ⟨rfl, fun id row => by simp⟩
  | cons frame rest ih =>
      obtain ⟨t, ht, h⟩ := bind_eq_ok h
      obtain ⟨hfirst, hids⟩ := List.pairwise_cons.mp hids
      rw [List.forall_mem_cons] at hnew
      obtain ⟨hcount, hevents⟩ := consume_eq ht
      have hget : ∀ id row, t.1.get? id = some row ↔
          s.1.get? id = some row ∨ frame.id = id ∧ Yields decode frame row := by
        intro id row
        obtain ⟨hsame, hnone⟩ | ⟨ev, hset, hyields⟩ := hevents
        · rw [hsame]
          simp [hnone]
        · rw [hset]
          by_cases hid : id = frame.id
          · rw [hid, Dict.get?_set_self, hnew.1, hyields]
            simp [eq_comm]
          · rw [Dict.get?_set_of_ne _ _ _ _ hid]
            simp [Ne.symm hid]
      have hnew' : ∀ f ∈ rest, t.1.get? f.id = none := by
        intro f hf
        have hlt : frame.id < f.id := hfirst _ (List.mem_map_of_mem hf)
        by_contra hsome
        obtain ⟨row, hrow⟩ := Option.ne_none_iff_exists'.mp hsome
        obtain hold | ⟨hid, -⟩ := (hget f.id row).mp hrow
        · exact Option.some_ne_none _ (hold.symm.trans (hnew.2 f hf))
        · exact Nat.ne_of_lt hlt hid
      obtain ⟨hrest, hrows⟩ := ih hids hnew' h
      refine ⟨?_, fun id row => ?_⟩
      · rw [hrest, hcount, Counters.add_assoc]
        rfl
      · rw [hrows, hget, List.exists_mem_cons_iff, or_assoc]

theorem upToDate_of_consumeAll {frames : List FrameRow} {nwk : NwkTables}
    (hids : (frames.map FrameRow.id).Pairwise (· < ·))
    (h : consumeAll decode (.empty, {}) frames = .ok (nwk.events, nwk.counters)) :
    UpToDate decode frames nwk := by
  obtain ⟨hcounters, hrows⟩ := consumeAll_eq hids (fun _ _ => rfl) h
  refine ⟨fun id row => (hrows id row).trans ?_, hcounters.trans (Counters.zero_add _), h⟩
  simp

/-! ## Positions -/

/-- The part of the frames that was scanned. -/
def scannedPart (p : ℕ) (frames : List FrameRow) : List (ℕ × String × String) :=
  (upTo FrameRow.id p frames).map FrameRow.scanned

/-- A refresh reads the frames behind the position, from the first one on. -/
theorem limitRows_eq (maxFrames : Option ℤ) (rows : List FrameRow) :
    ∃ n, limitRows maxFrames rows = rows.take n := by
  unfold limitRows
  split
  · exact ⟨_, rfl⟩
  · split
    · exact ⟨_, rfl⟩
    · split
      · exact ⟨rows.length, List.take_length.symm⟩
      · exact ⟨_, rfl⟩

/-- What stands in the tables of the scan is what a scan up to the position gives. -/
structure NwkTables.Scanned (decode : FrameDecoder) (nwk : NwkTables) (tables : Tables) : Prop where
  behind : nwk.lastFrameId < tables.nextFrame
  scan : consumeAll decode (.empty, {}) (upTo FrameRow.id nwk.lastFrameId tables.frames) =
    .ok (nwk.events, nwk.counters)

variable {decode : FrameDecoder} {nwk nwk' : NwkTables} {tables tables' : Tables}

theorem NwkTables.Scanned.congr (h : nwk.Scanned decode tables)
    (hbehind : nwk.lastFrameId < tables'.nextFrame)
    (hpart : scannedPart nwk.lastFrameId tables'.frames = scannedPart nwk.lastFrameId tables.frames) :
    nwk.Scanned decode tables' :=
  ⟨hbehind, (consumeAll_congr hpart _).trans h.scan⟩

/-- A refresh moves the position and keeps the tables in step with it. -/
theorem NwkTables.Scanned.refresh (h : nwk.Scanned decode tables) (hnum : tables.Numbered)
    {maxFrames : Option ℤ} {report : RefreshReport}
    (hrefresh : refreshTables decode tables nwk maxFrames = .ok (report, nwk')) :
    nwk'.Scanned decode tables := by
  obtain ⟨⟨events, counters⟩, hbatch, hrefresh⟩ := bind_eq_ok hrefresh
  obtain ⟨n, hlimit⟩ := limitRows_eq maxFrames (after FrameRow.id nwk.lastFrameId tables.frames)
  rw [hlimit] at hbatch hrefresh
  cases hrefresh
  refine ⟨position_lt h.behind hnum.below n, ?_⟩
  dsimp only
  have hstored : consumeAll decode (nwk.events, nwk.counters)
      ((after FrameRow.id nwk.lastFrameId tables.frames).take n) =
        .ok (events, nwk.counters.add counters) := by
    have hadd := @consumeAll_add decode nwk.events nwk.counters {}
      ((after FrameRow.id nwk.lastFrameId tables.frames).take n)
    rw [hbatch] at hadd
    exact hadd
  rw [upTo_position hnum.ids, consumeAll_append, h.scan]
  exact hstored

/-- What is not pending was read to its end. -/
theorem refresh_complete (h : nwk.Scanned decode tables) (hnum : tables.Numbered)
    {maxFrames : Option ℤ} {report : RefreshReport}
    (hrefresh : refreshTables decode tables nwk maxFrames = .ok (report, nwk'))
    (hdone : report.pending = false) : UpToDate decode tables.frames nwk' := by
  have hscanned := h.refresh hnum hrefresh
  have hlast : framesMaxId tables.frames ≤ nwk'.lastFrameId := by
    obtain ⟨⟨events, counters⟩, -, hrefresh⟩ := bind_eq_ok hrefresh
    cases hrefresh
    exact Nat.not_lt.mp (of_decide_eq_false hdone)
  have hall : upTo FrameRow.id nwk'.lastFrameId tables.frames = tables.frames :=
    upTo_eq_self (framesMaxId_le_iff.mp hlast)
  have hscan := hscanned.scan
  rw [hall] at hscan
  exact upToDate_of_consumeAll hnum.ids hscan

end Scan

/-! ## What the log service does to the frames -/

section Service
variable {Verdict : Type} {parser : Option Parser} {registry : Bool} {rating : Rating Verdict}
  {decode : FrameDecoder} {s s' : ScannedService Verdict} {e : ScanEvent}

/-- Frames were put in at the end, and the columns of the scan are as they were. -/
def Extended (tables tables' : Tables) : Prop :=
  tables.nextFrame ≤ tables'.nextFrame ∧ ∃ more : List FrameRow,
    tables'.frames.map FrameRow.scanned = (tables.frames ++ more).map FrameRow.scanned ∧
      ∀ row ∈ more, tables.nextFrame ≤ row.id

theorem Extended.refl (tables : Tables) : Extended tables tables :=
  ⟨le_rfl, [], by simp, by simp⟩

theorem Grown.extended {P : FrameRow → Prop} {tables tables' : Tables} (h : Grown P tables tables') :
    Extended tables tables' := by
  obtain ⟨rows, reports, hframes, -, hrows, -⟩ := h.exists_rows
  exact ⟨h.nextFrame_le, rows, by rw [hframes], fun row hrow => (hrows row hrow).2⟩

theorem extended_updateRows (phase : BackfillPhase) (batch : List FrameRow) (tables : Tables) :
    Extended tables { tables with frames := updateRows phase.write batch tables.frames } := by
  refine ⟨le_rfl, [], ?_, by simp⟩
  dsimp only
  rw [updateRows_eq, List.map_map, List.append_nil]
  refine List.map_congr_left fun row _ => ?_
  have hfull : (phase.touch batch row).full = row.full := touch_full
  have hraw : (phase.touch batch row).rawHex = row.rawHex := congrArg StreamRow.rawHex hfull
  rw [Function.comp_apply, FrameRow.scanned, touch_id, touch_logTime, hraw, FrameRow.scanned]

theorem upTo_scanned (p : ℕ) (frames : List FrameRow) :
    scannedPart p frames = upTo Prod.fst p (frames.map FrameRow.scanned) := by
  rw [scannedPart, upTo, upTo, List.filter_map]
  rfl

theorem Extended.scannedPart_eq {tables tables' : Tables} (h : Extended tables tables') {p : ℕ}
    (hp : p < tables.nextFrame) : scannedPart p tables'.frames = scannedPart p tables.frames := by
  obtain ⟨-, more, hframes, hmore⟩ := h
  have hlater : ∀ row ∈ more, p < row.id := fun row hrow => hp.trans_le (hmore row hrow)
  rw [upTo_scanned, hframes, ← upTo_scanned, scannedPart, upTo_append hlater, scannedPart]

/-- The invariant: the files that exist are scanned up to their positions, and the file that comes
next was never scanned. -/
structure ScannedService.Kept (decode : FrameDecoder) (s : ScannedService Verdict) : Prop where
  numbered : ∀ file, (s.service.files file).Numbered
  current : s.service.current < s.service.nextFile
  unscanned : ∀ file, s.service.nextFile ≤ file → s.nwk file = {}
  scanned : ∀ file, (s.nwk file).Scanned decode (s.service.files file)

/-- What most calls do: no file loses frames. -/
theorem ScannedService.Kept.of_extended (h : s.Kept decode) {service : Service Verdict}
    (hnum : ∀ file, (service.files file).Numbered)
    (hext : ∀ file, Extended (s.service.files file) (service.files file))
    (hcurrent : service.current = s.service.current) (hnext : service.nextFile = s.service.nextFile) :
    ScannedService.Kept decode { s with service } where
  numbered := hnum
  current := by
    rw [hcurrent, hnext]
    exact h.current
  unscanned := by
    rw [hnext]
    exact h.unscanned
  scanned file :=
    (h.scanned file).congr ((h.scanned file).behind.trans_le (hext file).1)
      ((hext file).scannedPart_eq (h.scanned file).behind)

theorem ScannedService.Kept.setTables (h : s.Kept decode) {file : ℕ} {tables : Tables}
    (hnum : tables.Numbered) (hext : Extended (s.service.files file) tables) :
    ScannedService.Kept decode { s with service := s.service.setTables file tables } := by
  refine h.of_extended ?_ ?_ ?_ ?_
  · intro f
    by_cases hf : f = file
    · simpa [Service.setTables, hf] using hnum
    · simpa [Service.setTables, hf] using h.numbered f
  · intro f
    by_cases hf : f = file
    · subst hf
      simpa [Service.setTables] using hext
    · simpa [Service.setTables, hf] using Extended.refl _
  · rfl
  · rfl

/-- Up to the position of the scan the current file holds the same frames in other tables, and new
frames will stand behind it. -/
def ScannedService.SamePart (s : ScannedService Verdict) (tables : Tables) : Prop :=
  (s.nwk s.service.current).lastFrameId < tables.nextFrame ∧
    scannedPart (s.nwk s.service.current).lastFrameId tables.frames =
      scannedPart (s.nwk s.service.current).lastFrameId (s.service.files s.service.current).frames

theorem ScannedService.Kept.replaceLog (h : s.Kept decode) {tables : Tables} (hnum : tables.Numbered)
    (hfirst : ∀ row ∈ tables.frames, 0 < row.id) (hsame : registry ∨ s.SamePart tables) :
    ScannedService.Kept decode { s with service := s.service.replaceLog registry tables } := by
  cases registry with
  | false =>
      obtain ⟨hbehind, hpart⟩ : s.SamePart tables := by simpa using hsame
      refine ⟨fun f => ?_, h.current, h.unscanned, fun f => ?_⟩
      · by_cases hf : f = s.service.current
        · simpa [Service.replaceLog, Service.setTables, hf] using hnum
        · simpa [Service.replaceLog, Service.setTables, hf] using h.numbered f
      · by_cases hf : f = s.service.current
        · subst hf
          simpa [Service.replaceLog, Service.setTables] using (h.scanned _).congr hbehind hpart
        · simpa [Service.replaceLog, Service.setTables, hf] using h.scanned f
  | true =>
      refine ⟨fun f => ?_, Nat.lt_succ_self _, fun f hf => h.unscanned f (Nat.le_of_succ_le hf),
        fun f => ?_⟩
      · by_cases hf : f = s.service.nextFile
        · simpa [Service.replaceLog, hf] using hnum
        · simpa [Service.replaceLog, hf] using h.numbered f
      · by_cases hf : f = s.service.nextFile
        · have hnew : NwkTables.Scanned decode {} tables :=
            ⟨hnum.pos, by rw [upTo_eq_nil hfirst]; rfl⟩
          simpa [Service.replaceLog, hf, h.unscanned _ (Nat.le_refl _)] using hnew
        · simpa [Service.replaceLog, hf] using h.scanned f

theorem indexFile_first (lines : List Bytes) : ∀ row ∈ (indexFile parser lines).1.frames, 0 < row.id := by
  obtain ⟨rows, reports, hframes, -, hrows, -⟩ := (indexFile_grown parser lines).exists_rows
  rw [hframes, List.nil_append]
  exact fun row hrow => (hrows row hrow).2

theorem listBeaconPeriods_tables (s : Service Verdict) (file : ℕ) (startTime endTime nidText : String) :
    let s' := (s.listBeaconPeriods rating file startTime endTime nidText).2
    s'.files = s.files ∧ s'.current = s.current ∧ s'.nextFile = s.nextFile := by
  rw [Service.listBeaconPeriods]
  split
  · exact ⟨rfl, rfl, rfl⟩
  · next w nid _ =>
      dsimp only
      split
      · exact ⟨rfl, rfl, rfl⟩
      · obtain hsame | ⟨-, -, -, hstart⟩ := requestUnlessReady_cases s file w
        · rw [hsame]
          exact ⟨rfl, rfl, rfl⟩
        · rw [hstart]
          exact ⟨rfl, rfl, rfl⟩

/-- A call that empties the frames of a file leaves its scan alone: it opens a new file, or up to the
position of the scan the frames are the same afterwards. -/
def Undisturbed (parser : Option Parser) (registry : Bool) (s : ScannedService Verdict) :
    ScanEvent → Prop
  | .service (.indexFile lines) => registry ∨ s.SamePart (indexFile parser lines).1
  | .service .resetIndex => registry ∨ s.SamePart {}
  | _ => True

theorem refresh_kept (h : s.Kept decode) (file : ℕ) (hfile : file < s.service.nextFile)
    (maxFrames : Option ℤ) : (s.refresh decode file maxFrames).Kept decode := by
  rw [ScannedService.refresh]
  cases hrefresh : refreshTables decode (s.service.files file) (s.nwk file) maxFrames with
  | error e => exact h
  | ok r =>
      refine ⟨h.numbered, h.current, fun f hf => ?_, fun f => ?_⟩
      · have hne : f ≠ file := (hfile.trans_le hf).ne'
        exact (Function.update_of_ne hne _ _).trans (h.unscanned f hf)
      · by_cases hf : f = file
        · subst hf
          simpa using (h.scanned f).refresh (h.numbered f) hrefresh
        · simpa [hf] using h.scanned f

/-- Every undisturbed step keeps the invariant. -/
theorem scannedStep_kept (h : s.Kept decode) (hg : Undisturbed parser registry s e)
    (he : (scannedService decode parser registry rating).step s e = some s') : s'.Kept decode := by
  cases e with
  | refresh index maxFrames =>
      obtain ⟨file, hopen, rfl⟩ := Option.map_eq_some_iff.mp he
      exact refresh_kept h file (openIndex_lt h.current hopen) maxFrames
  | service e =>
      obtain ⟨service, hservice, rfl⟩ := Option.map_eq_some_iff.mp he
      cases e with
      | appendFrames state records =>
          obtain rfl := Option.some.inj hservice
          have hgrown := appendFrames_grown parser (s.service.files s.service.current) state records
          exact h.setTables (hgrown.numbered (h.numbered _)) hgrown.extended
      | indexFile lines =>
          obtain rfl := Option.some.inj hservice
          exact h.replaceLog ((indexFile_grown parser lines).numbered numbered_empty)
            (indexFile_first lines) hg
      | resetIndex =>
          obtain rfl := Option.some.inj hservice
          exact h.replaceLog numbered_empty (fun _ hrow => nomatch hrow) hg
      | listBeaconPeriods index startTime endTime nidText =>
          obtain ⟨file, -, rfl⟩ := Option.map_eq_some_iff.mp hservice
          obtain ⟨hfiles, hcurrent, hnext⟩ :=
            @listBeaconPeriods_tables Verdict rating s.service file startTime endTime nidText
          refine h.of_extended (fun f => ?_) (fun f => ?_) hcurrent hnext
          · rw [hfiles]
            exact h.numbered f
          · rw [hfiles]
            exact .refl _
      | backfillStep file =>
          obtain ⟨phase, -, rfl⟩ := Option.map_eq_some_iff.mp hservice
          rw [Service.backfillStep]
          dsimp only
          split
          · have hset := h.setTables ((h.numbered file).apply phase) (extended_updateRows phase _ _)
            exact hset.of_extended hset.numbered (fun f => .refl _) rfl rfl
          · exact h.of_extended h.numbered (fun f => .refl _) rfl rfl
      | backfillFails file =>
          obtain ⟨phase, -, rfl⟩ := Option.map_eq_some_iff.mp hservice
          exact h.of_extended h.numbered (fun f => .refl _) rfl rfl

/-- Where a refresh of a file reports that nothing is pending, the tables of the scan are those of
the frames in the file. -/
def Complete (decode : FrameDecoder) (registry : Bool) (s : ScannedService Verdict) : ScanEvent → Prop
  | .refresh index maxFrames => ∀ file report nwk, s.service.openIndex registry index = some file →
      refreshTables decode (s.service.files file) (s.nwk file) maxFrames = .ok (report, nwk) →
        report.pending = false → UpToDate decode (s.service.files file).frames nwk
  | _ => True

/-- A process over files that were never scanned. -/
def ScannedService.opened (files : ℕ → Tables) (current nextFile : ℕ) : ScannedService Verdict :=
  { service := .opened files current nextFile, nwk := fun _ => {} }

/-- In a run whose calls leave the scans of the files alone, what a refresh reports as complete is
what a full scan gives. -/
theorem complete_of_undisturbed (decode : FrameDecoder) (parser : Option Parser) (registry : Bool)
    (rating : Rating Verdict) {files : ℕ → Tables} {current nextFile : ℕ}
    (hnumbered : ∀ file, (files file).Numbered) (hfirst : ∀ file, ∀ row ∈ (files file).frames, 0 < row.id)
    (hcurrent : current < nextFile) {events : List ScanEvent}
    (hundisturbed : (scannedService decode parser registry rating).Follows (Undisturbed parser registry)
      (.opened files current nextFile) events) :
    (scannedService decode parser registry rating).Follows (Complete decode registry)
      (.opened files current nextFile) events := by
  apply hundisturbed.imp (ScannedService.Kept decode)
  · intro s e hs _
    cases e with
    | service e => trivial
    | refresh index maxFrames =>
        intro file report nwk hopen hrefresh hdone
        exact refresh_complete (hs.scanned file) (hs.numbered file) hrefresh hdone
  · exact fun s e s' hs hg he => scannedStep_kept hs hg he
  · refine ⟨hnumbered, hcurrent, fun _ _ => rfl, fun file => ⟨(hnumbered file).pos, ?_⟩⟩
    change consumeAll decode (.empty, {}) (upTo FrameRow.id 0 (files file).frames) = _
    rw [upTo_eq_nil (hfirst file)]
    rfl

end Service

/-! ## A file that is emptied after its scan -/

/-- What is decoded of `oneFrame`: a control header without anything behind it. -/
def headerOnly : FrameDecoder := fun _ => some { nidHex := "000001", delimiter := 0 }

/-- The scan of a log of one frame. -/
theorem refresh_single {lines : List Bytes} {record : LogRecord}
    (h : lines.filterMap extractLogRecord = [record]) :
    refreshTables headerOnly (indexFile none lines).1 {} none =
      .ok (⟨1, 1, false⟩, { lastFrameId := 1, counters := { frames := 1 } }) := by
  rw [refreshTables, indexFile_single h]
  rfl

/-- The scan of a file that was emptied. -/
theorem refresh_emptied : refreshTables headerOnly {} { lastFrameId := 1, counters := { frames := 1 } }
    none = .ok (⟨0, 1, false⟩, { lastFrameId := 1, counters := { frames := 1 } }) := rfl

/-- A process that has put a log into its only file. -/
def loaded (lines : List Bytes) : ScannedService Unit :=
  { service := (Service.opened (fun _ => {}) 0 1).replaceLog false (indexFile none lines).1
    nwk := fun _ => {} }

theorem loaded_refresh {lines : List Bytes} {record : LogRecord}
    (h : lines.filterMap extractLogRecord = [record]) :
    (loaded lines).refresh headerOnly 0 none =
      { loaded lines with
        nwk := Function.update (fun _ => {}) 0 { lastFrameId := 1, counters := { frames := 1 } } } := by
  have hfiles : (loaded lines).service.files 0 = (indexFile none lines).1 := by
    simp [loaded, Service.replaceLog, Service.setTables, Service.opened]
  have hnwk : (loaded lines).nwk 0 = {} := rfl
  rw [ScannedService.refresh, hfiles, hnwk, refresh_single h]
  rfl

/-- A log is scanned, then the index is emptied and scanned again. -/
def emptiedAfterScan (lines : List Bytes) : List ScanEvent :=
  [.service (.indexFile lines), .refresh none none, .service .resetIndex, .refresh none none]

/-- The last call of the run. -/
theorem emptiedAfterScan_last {lines : List Bytes}
    (h : (scannedService headerOnly none false blankRating).Follows (Complete headerOnly false)
      (.opened (fun _ => {}) 0 1) (emptiedAfterScan lines)) :
    let s := (loaded lines).refresh headerOnly 0 none
    Complete headerOnly false { s with service := s.service.replaceLog false {} } (.refresh none none) := by
  obtain ⟨-, h⟩ := h
  obtain ⟨-, h⟩ := h _ rfl
  obtain ⟨-, h⟩ := h _ rfl
  obtain ⟨h, -⟩ := h _ rfl
  exact h

/-- The counters of a file that was emptied still hold a frame. -/
theorem emptied_not_complete :
    ¬ ∀ registry events, (scannedService headerOnly none registry blankRating).Follows
      (Complete headerOnly registry) (.opened (fun _ => {}) 0 1) events := by
  intro hall
  have hlog := oneFrameLog_read 1 (Or.inl rfl)
  have hlast := emptiedAfterScan_last (hall false (emptiedAfterScan (oneFrameLog 1)))
  rw [loaded_refresh hlog] at hlast
  have hstale := hlast 0 ⟨0, 1, false⟩ _ rfl refresh_emptied rfl
  exact absurd (congrArg Counters.frames hstale.counters) (by decide)

/-- Two logs in files of their own, each scanned to its end. -/
theorem indexed_complete : (scannedService headerOnly none true blankRating).Follows
    (Complete headerOnly true) (.opened (fun _ => {}) 0 1)
      [.service (.indexFile (oneFrameLog 1)), .refresh none none,
        .service (.indexFile (oneFrameLog 2)), .refresh none (some 1)] :=
  complete_of_undisturbed headerOnly none true blankRating (fun _ => numbered_empty)
    (fun _ _ hrow => nomatch hrow) Nat.one_pos
    ⟨.inl rfl, fun _ _ => ⟨trivial, fun _ _ => ⟨.inl rfl, fun _ _ => ⟨trivial, fun _ _ => trivial⟩⟩⟩⟩

end HplcWorkbench.ListenerLog
