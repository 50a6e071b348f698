import HplcWorkbench.TraceClusters
import HplcWorkbench.TraceColumns

/-!
# Loading frames while rows wait

A row that waits for the backfill is not found by the trace, and one that does not is loaded the same way
before and after, but for a frame that asks for meters and names no source. The meters that a flow asks
for are those of requests that were heard from the concentrator itself.
-/

namespace HplcWorkbench.Trace

open OrderedDict TraceExtract Transitions
open Adapter10376 (Direction)

/-! ## Loading while rows wait -/

theorem toUpper_of_not {c : Char} (h : ¬ ('a'.val ≤ c.val ∧ c.val ≤ 'z'.val)) : c.toUpper = c :=
  dif_neg h

theorem toUpper_toUpper (c : Char) : c.toUpper.toUpper = c.toUpper := by
  by_cases h : 'a'.val ≤ c.val ∧ c.val ≤ 'z'.val
  · have hval : c.toUpper.val = c.val + ('A'.val - 'a'.val) := by
      delta Char.toUpper
      rw [dif_pos h]
    refine toUpper_of_not ?_
    rw [hval]
    simp only [UInt32.le_iff_toNat_le, UInt32.toNat_add, UInt32.toNat_sub] at h ⊢
    simp at h ⊢
    omega
  · rw [toUpper_of_not h, toUpper_of_not h]

theorem upper_upper (s : String) : upper (upper s) = upper s := by
  rw [upper, upper, String.toList_ofList, List.map_map]
  exact congrArg String.ofList (List.map_congr_left fun c _ => toUpper_toUpper c)

theorem upper_ne_empty {s : String} (h : s ≠ "") : upper s ≠ "" := by
  intro hempty
  have hlist := congrArg String.toList hempty
  rw [upper, String.toList_ofList] at hlist
  exact h (String.toList_inj.mp (List.map_eq_nil_iff.mp hlist))

section Loading
variable {summary : Dict String String} {rawHex appId : String} {row : Row}

/-- What the application data of a summary say. -/
def extracted (summary : Dict String String) (appId : String) : Option Extract :=
  if appId ∈ traceAppIds then
    (appRaw summary).bind fun raw => extractTraceFields appId raw (summary.get? "SRC")
  else none

/-- The meters that the columns keep of them. -/
def meterItems (ext : Extract) : Option (List MeterItem) :=
  if ext.direction = some .down then written (targetItems ext)
  else if ext.direction = some .up then written (responseItems ext)
  else none

theorem told_eq_some {text : Option String} {s : String} :
    told text = some s ↔ text = some s ∧ s ≠ "" := by
  rw [told, Option.filter_eq_some_iff, decide_eq_true_eq]

/-- The source of a frame counts in capitals. -/
theorem extract_source (raw : Bytes) :
    extractTraceFields appId raw (capitals summary "SRC") =
      extractTraceFields appId raw (summary.get? "SRC") := by
  have hsource : (told (capitals summary "SRC")).map (fun src =>
      if upper src = "001" then Direction.down else .up) =
        (told (summary.get? "SRC")).map fun src => if upper src = "001" then .down else .up := by
    cases h : told (summary.get? "SRC") with
    | none =>
        have hnone : capitals summary "SRC" = none := by
          rw [capitals, h]
          rfl
        rw [hnone]
        rfl
    | some src =>
        have hsome : capitals summary "SRC" = some (upper src) := by
          rw [capitals, h]
          rfl
        have htold : told (some (upper src)) = some (upper src) :=
          told_eq_some.mpr ⟨rfl, upper_ne_empty (told_eq_some.mp h).2⟩
        rw [hsome, htold, Option.map_some, Option.map_some, upper_upper]
  rw [extractTraceFields, extractTraceFields, hsource]

/-- The columns of a frame with application data. -/
theorem material_app (h : (traceMaterial summary rawHex).appId = appId) (hne : appId ≠ "") :
    capitals summary "APP_ID" = some appId ∧
      (traceMaterial summary rawHex).msgSeq = (extracted summary appId).bind Extract.msgSeq ∧
      (traceMaterial summary rawHex).meterAddrs = (extracted summary appId).bind meterItems := by
  by_cases hack : capitals summary "SRC" = none ∧ summary.get? "FrmType" = some "ACK" ∧ rawHex ≠ ""
  · rw [traceMaterial, if_pos hack] at h
    exact absurd h.symm hne
  · rw [traceMaterial, if_neg hack] at h ⊢
    cases hcap : capitals summary "APP_ID" with
    | none =>
        simp only [hcap] at h
        exact absurd h.symm hne
    | some id =>
        simp only [hcap, extract_source] at h ⊢
        rw [← extracted] at h ⊢
        cases hext : extracted summary id with
        | none =>
            rw [hext] at h
            obtain rfl : id = appId := h
            rw [hext]
            exact ⟨rfl, rfl, rfl⟩
        | some ext =>
            rw [hext] at h
            obtain rfl : id = appId := h
            rw [hext]
            exact ⟨rfl, rfl, rfl⟩

theorem withMeters_confirm (ext : Extract) (protoType : ℕ) (data : Bytes) :
    (withMeters ext protoType data).confirm = ext.confirm := by
  rw [withMeters]
  split_ifs <;> rfl

theorem extractMeter_confirm (ext : Extract) (business : Bytes) :
    (extractMeter ext business).confirm = ext.confirm := by
  by_cases hshort : business.length < 8
  · rw [extractMeter, if_pos hshort]
  · rw [extractMeter, if_neg hshort]
    exact (withMeters_confirm _ _ _).trans ((apply_ite Extract.confirm _ _ _).trans (ite_self _))

theorem extractSimple_confirm {ext : Extract} {business : Bytes} {msgId : ℤ} {layout : ℕ × ℕ}
    (hid : msgId ≠ 0x0020) (hnone : ext.confirm = none) :
    (extractSimple ext business msgId layout).confirm = none := by
  have hbit : ¬ (msgId = 0x0020 ∧ business.length > 1) := fun h => hid h.1
  by_cases hshort : business.length < layout.1 + layout.2
  · rw [extractSimple, if_pos hshort]
    exact hnone
  · simp only [extractSimple, if_neg hshort, if_neg hbit]
    refine (apply_ite Extract.confirm _ _ _).trans ?_
    rw [apply_ite Extract.confirm, ite_self, ite_self]

/-- Only the application 0020 confirms. -/
theorem extract_confirm {raw : Bytes} {src : Option String} {ext : Extract}
    (hid : hexTextValue appId ≠ some 0x0020) (h : extractTraceFields appId raw src = some ext) :
    ext.confirm = none := by
  cases hvalue : hexTextValue appId with
  | none =>
      rw [extractTraceFields, hvalue] at h
      cases h
  | some msgId =>
      have hother : msgId ≠ 0x0020 := fun heq => hid (heq ▸ hvalue)
      simp only [extractTraceFields, hvalue] at h
      split_ifs at h
      · obtain rfl := Option.some.inj h
        exact extractMeter_confirm _ _
      · obtain ⟨layout, -, rfl⟩ := Option.map_eq_some_iff.mp h
        exact extractSimple_confirm hother rfl

theorem extracted_confirm {ext : Extract} (hid : appId ≠ "0020")
    (h : extracted summary appId = some ext) : ext.confirm = none := by
  rw [extracted] at h
  split_ifs at h with hmem
  obtain ⟨raw, -, hext⟩ := Option.bind_eq_some_iff.mp h
  refine extract_confirm ?_ hext
  simp only [traceAppIds, List.mem_cons, List.not_mem_nil, or_false] at hmem
  rcases hmem with rfl | rfl | rfl | rfl | rfl | rfl | rfl
  · decide
  · decide
  · decide
  · decide
  · decide
  · exact absurd rfl hid
  · decide

/-- The meters that the summary gives while the columns are not ready. -/
def summaryItems (ext : Extract) : Option (List MeterItem) :=
  if ext.direction = some .up then some (responseItems ext)
  else (written (targetItems ext)).or (meterItems ext)

theorem appId_of_columns (h : row.columns.map Columns.appId = some appId) (hne : appId ≠ "") :
    row.appId = some appId := by
  rw [Row.appId, h, told_eq_some.mpr ⟨rfl, hne⟩]
  rfl

theorem told_of_extracted (h : (told (summary.get? "APP_RAW")).isSome = false) :
    extracted summary appId = none := by
  rw [extracted, appRaw, Option.not_isSome_iff_eq_none.mp (Bool.eq_false_iff.mp h)]
  split_ifs <;> rfl

/-- Once the columns are ready a frame is loaded from them. -/
theorem loaded_ready (hfilled : row.Filled) (happ : row.columns.map Columns.appId = some appId)
    (hne : appId ≠ "") :
    row.loaded true = pure ⟨(extracted row.summary appId).bind Extract.msgSeq,
      (extracted row.summary appId).bind meterItems,
      (extracted row.summary appId).bind Extract.confirm⟩ := by
  have hid : (traceMaterial row.summary row.rawHex).appId = appId := by
    rw [hfilled] at happ
    exact Option.some.inj happ
  obtain ⟨hcap, hseq, hmeters⟩ := material_app hid hne
  have hupper : upper appId = appId := by
    obtain ⟨text, -, rfl⟩ := Option.map_eq_some_iff.mp hcap
    exact upper_upper text
  rw [Row.loaded, if_pos rfl, appId_of_columns happ hne, Option.map_some, hupper, Row.column,
    Row.column, hfilled, Option.bind_some, Option.bind_some, hseq, hmeters]
  by_cases hconfirm : some appId = some "0020" ∧ (told (row.summary.get? "APP_RAW")).isSome
  · obtain ⟨hreport, htold⟩ := hconfirm
    obtain rfl := Option.some.inj hreport
    rw [if_pos ⟨rfl, htold⟩]
    rfl
  · rw [if_neg hconfirm]
    have hnone : (extracted row.summary appId).bind Extract.confirm = none := by
      cases hext : extracted row.summary appId with
      | none => rfl
      | some ext =>
          rw [Option.bind_some]
          refine extracted_confirm (fun hreport => hconfirm ⟨congrArg some hreport, ?_⟩) hext
          by_contra htold
          cases (told_of_extracted (Bool.eq_false_iff.mpr htold)).symm.trans hext
    rw [hnone]

/-- Before that it is loaded from its summary. -/
theorem loaded_waiting (hfilled : row.Filled) (happ : row.columns.map Columns.appId = some appId)
    (hne : appId ≠ "") :
    row.loaded false = pure ⟨(extracted row.summary appId).bind Extract.msgSeq,
      (extracted row.summary appId).bind summaryItems,
      (extracted row.summary appId).bind Extract.confirm⟩ := by
  have hid : (traceMaterial row.summary row.rawHex).appId = appId := by
    rw [hfilled] at happ
    exact Option.some.inj happ
  obtain ⟨hcap, hseq, hmeters⟩ := material_app hid hne
  have hupper : upper appId = appId := by
    obtain ⟨text, -, rfl⟩ := Option.map_eq_some_iff.mp hcap
    exact upper_upper text
  rw [Row.loaded, if_neg Bool.false_ne_true, appId_of_columns happ hne, Option.map_some, hupper,
    Row.column, Row.column, hfilled, Option.bind_some, Option.bind_some, hseq, hmeters]
  cases htold : (told (row.summary.get? "APP_RAW")).isSome with
  | false =>
      rw [if_pos Bool.false_ne_true, told_of_extracted htold]
      rfl
  | true =>
      rw [if_neg (not_not.mpr rfl)]
      simp only
      rw [← extracted]
      cases hext : extracted row.summary appId with
      | none => rfl
      | some ext => rfl

/-- The frame of a row, with the meters as they are taken from its application data. -/
def Row.frameOf (row : Row) (appId : String) (items : Extract → Option (List MeterItem)) : Frame where
  frameId := row.id
  logTime := row.logTime
  flowDir := row.column Columns.flowDir
  msgSeq := (extracted row.summary appId).bind Extract.msgSeq
  staTei := row.column Columns.staTei
  oriTei := row.column Columns.oriTei
  meterAddrs := (extracted row.summary appId).bind items
  ackPeer := row.column Columns.ackPeer
  summary := row.summary
  confirm := (extracted row.summary appId).bind Extract.confirm

/-- How the meters are taken. -/
def itemsWhen (ready : Bool) : Extract → Option (List MeterItem) :=
  if ready then meterItems else summaryItems

theorem toFrame_filled (ready : Bool) (hfilled : row.Filled)
    (happ : row.columns.map Columns.appId = some appId) (hne : appId ≠ "") :
    row.toFrame ready = pure (some (row.frameOf appId (itemsWhen ready))) := by
  have hsome : ¬ (row.appId = none ∧ told (row.column Columns.ackPeer) = none) := by
    intro h
    cases (appId_of_columns happ hne).symm.trans h.1
  rw [Row.toFrame, if_neg hsome]
  cases ready with
  | false =>
      rw [loaded_waiting hfilled happ hne]
      rfl
  | true =>
      rw [loaded_ready hfilled happ hne]
      rfl

/-- The trace reads no meters as an empty list of them. -/
def Frame.plain (f : Frame) : Frame := { f with meterAddrs := some (f.meterAddrs.getD []) }

/-- A frame asks for meters and does not say which way it goes. -/
def Undirected (appId : String) (row : Row) : Prop :=
  ∃ ext, extracted row.summary appId = some ext ∧ ext.direction = none ∧ ext.targets ≠ []

theorem getD_written (items : List MeterItem) : (written items).getD [] = items := by
  rw [written]
  split_ifs with hnil
  · exact hnil.symm
  · rfl

theorem items_alike (ext : Extract) :
    (summaryItems ext).getD [] = (meterItems ext).getD [] ↔
      ¬ (ext.direction = none ∧ ext.targets ≠ []) := by
  cases hdir : ext.direction with
  | none =>
      have hnone : meterItems ext = none := by
        rw [meterItems, hdir]
        rfl
      have hsum : summaryItems ext = written (targetItems ext) := by
        rw [summaryItems, hdir, hnone]
        exact Option.or_none
      rw [hnone, hsum, getD_written, targetItems, Option.getD_none, List.map_eq_nil_iff]
      simp
  | some d =>
      refine iff_of_true ?_ (fun h => by cases h.1)
      cases d with
      | up => simp [summaryItems, meterItems, hdir, getD_written]
      | down => simp [summaryItems, meterItems, hdir]

theorem frameOf_plain :
    (row.frameOf appId summaryItems).plain = (row.frameOf appId meterItems).plain ↔
      ¬ Undirected appId row := by
  rw [Frame.plain, Frame.plain, Frame.mk.injEq, Undirected]
  simp only [Row.frameOf, true_and, and_true, Option.some.injEq]
  cases extracted row.summary appId with
  | none => simp
  | some ext =>
      rw [Option.bind_some, Option.bind_some, items_alike]
      simp

theorem mapM_of_pure {α β : Type} {f : α → PyM β} {g : α → β} {l : List α}
    (h : ∀ x ∈ l, f x = pure (g x)) : l.mapM f = pure (l.map g) := by
  induction l with
  | nil => rfl
  | cons x l ih =>
      rw [List.mapM_cons, h x List.mem_cons_self,
        ih fun y hy => h y (List.mem_cons_of_mem _ hy)]
      rfl

theorem filterMap_guarded {α β : Type} {p : α → Bool} {f : α → β} (l : List α) :
    (l.map fun x => if p x then some (f x) else none).filterMap id = (l.filter p).map f := by
  induction l with
  | nil => rfl
  | cons x l ih =>
      rw [List.map_cons, List.filterMap_cons, ih]
      cases hp : p x <;> simp [hp]

/-- The rows that a query finds, over columns that hold what the summaries say. -/
def FrameQuery.takes (q : FrameQuery) (inWindow : Row → Bool) (row : Row) : Bool :=
  q.selects (fun _ => false) true inWindow row && q.keeps row &&
    q.msgSeq.all fun n => (extracted row.summary q.appId).bind Extract.msgSeq = some n

variable {q : FrameQuery} {inWindow like : Row → Bool} {ready : Bool} {rows : List Row}

/-- A row is found by its column; the search in its summary adds none. -/
theorem selects_column :
    q.selects like ready inWindow row = q.selects (fun _ => false) true inWindow row := by
  rw [FrameQuery.selects, FrameQuery.selects]
  cases row.columns <;> simp

theorem column_of_takes (h : q.takes inWindow row = true) :
    row.columns.map Columns.appId = some q.appId := by
  simp only [FrameQuery.takes, FrameQuery.selects, Bool.and_eq_true, decide_eq_true_eq] at h
  exact h.1.1.1.1.1.1.1

theorem loadFrames_eq (hwindow : q.window.holds = pure inWindow) (hne : q.appId ≠ "")
    (hrows : ∀ row ∈ rows, row.columns = none ∨ row.Filled) :
    loadFrames q like ready rows =
      pure ((rows.filter (q.takes inWindow)).map fun row => row.frameOf q.appId (itemsWhen ready)) := by
  have hselects : rows.filter (q.selects like ready inWindow) =
      rows.filter (q.selects (fun _ => false) true inWindow) :=
    List.filter_congr fun row _ => selects_column
  have hframes : ∀ row ∈ rows.filter (q.selects (fun _ => false) true inWindow),
      (do pure ((← row.toFrame ready).filter fun _ => q.keeps row) : PyM (Option Frame)) =
        pure (if q.keeps row then some (row.frameOf q.appId (itemsWhen ready)) else none) := by
    intro row hrow
    obtain ⟨hmem, hselected⟩ := List.mem_filter.mp hrow
    simp only [FrameQuery.selects, Bool.and_eq_true, decide_eq_true_eq] at hselected
    have happ := hselected.1.1.1.1.1
    have hfilled : row.Filled := by
      refine (hrows row hmem).resolve_left fun hnone => ?_
      rw [hnone] at happ
      cases happ
    rw [toFrame_filled ready hfilled happ hne]
    rfl
  rw [loadFrames, hwindow, pure_bind, hselects, mapM_of_pure hframes, pure_bind]
  rw [filterMap_guarded, List.filter_map, List.filter_filter, List.filter_filter]
  congr 2
  refine List.filter_congr fun row _ => ?_
  rw [FrameQuery.takes, Bool.and_assoc, Bool.and_comm, Bool.and_comm (q.keeps row)]
  rfl

/-- The row with the columns of its own frame. -/
def Row.fresh (row : Row) : Row := { row with columns := some (traceMaterial row.summary row.rawHex) }

theorem fresh_of_filled (h : row.Filled) : row.fresh = row := by
  rw [Row.fresh, ← h]

/-- The rows that do not wait. -/
def filledRows (rows : List Row) : List Row :=
  (rows.filter fun row => row.columns.isSome).map Row.fresh

theorem filter_takes (hrows : ∀ row ∈ rows, row.columns = none ∨ row.Filled) :
    rows.filter (q.takes inWindow) = (filledRows rows).filter (q.takes inWindow) := by
  have hfresh : filledRows rows = rows.filter fun row => row.columns.isSome := by
    refine (List.map_congr_left fun row hrow => ?_).trans (List.map_id _)
    obtain ⟨hmem, hsome⟩ := List.mem_filter.mp hrow
    refine fresh_of_filled ((hrows row hmem).resolve_left fun hnone => ?_)
    rw [hnone] at hsome
    cases hsome
  rw [hfresh, List.filter_filter]
  refine List.filter_congr fun row _ => ?_
  cases htakes : q.takes inWindow row with
  | false => rfl
  | true =>
      obtain ⟨cols, hcols, -⟩ := Option.map_eq_some_iff.mp (column_of_takes htakes)
      rw [hcols]
      rfl

/-- At every moment a trace finds the rows that are filled, each as its own summary has it; whether
the backfill is over shows in a frame only where it asks for meters and has no direction. -/
theorem trace_reads_filled {s s' : TraceStore} {events : List StoreEvent} (htable : Table s)
    (hidle : s.pass = .idle) (hdone : s.done = false) (hfollows : traceStore.Follows Whole s events)
    (h : traceStore.run s events = some s') (hwindow : q.window.holds = pure inWindow)
    (hne : q.appId ≠ "") :
    loadFrames q like ready s'.rows = loadFrames q like ready (filledRows s'.rows) ∧
      (s'.done = true → filledRows s'.rows = s'.rows.map Row.fresh) ∧
      (List.map Frame.plain <$> loadFrames q like false s'.rows =
          List.map Frame.plain <$> loadFrames q like true s'.rows ↔
        ∀ row ∈ s'.rows, q.takes inWindow row = true → ¬ Undirected q.appId row) := by
  have hsound := sound_run htable hidle hdone hfollows h
  have hfilled : ∀ row ∈ filledRows s'.rows, row.columns = none ∨ row.Filled := by
    intro row hrow
    obtain ⟨old, -, rfl⟩ := List.mem_map.mp hrow
    exact Or.inr rfl
  refine ⟨?_, ?_, ?_⟩
  · rw [loadFrames_eq hwindow hne hsound.filled, loadFrames_eq hwindow hne hfilled,
      filter_takes hsound.filled]
  · intro hover
    rw [filledRows, List.filter_eq_self.mpr]
    intro row hrow
    exact Option.isSome_iff_ne_none.mpr (hsound.done hover row hrow)
  · rw [loadFrames_eq hwindow hne hsound.filled, loadFrames_eq hwindow hne hsound.filled]
    refine (Except.ok.injEq _ _).to_iff.trans ?_
    rw [List.map_map, List.map_map, List.map_inj_left]
    constructor
    · intro hsame row hrow htakes
      exact frameOf_plain.mp (hsame row (List.mem_filter.mpr ⟨hrow, htakes⟩))
    · intro hdirected row hrow
      obtain ⟨hmem, htakes⟩ := List.mem_filter.mp hrow
      exact frameOf_plain.mpr (hdirected row hmem htakes)

/-- A query for the application of the old row. -/
def oldQuery : FrameQuery := { appId := "0008" }

theorem trace_reads_filled_pass :
    loadFrames oldQuery (fun _ => false) true passedStore.rows =
        loadFrames oldQuery (fun _ => false) true (filledRows passedStore.rows) ∧
      (passedStore.done = true → filledRows passedStore.rows = passedStore.rows.map Row.fresh) ∧
      (List.map Frame.plain <$> loadFrames oldQuery (fun _ => false) false passedStore.rows =
          List.map Frame.plain <$> loadFrames oldQuery (fun _ => false) true passedStore.rows ↔
        ∀ row ∈ passedStore.rows, oldQuery.takes (fun _ => true) row = true →
          ¬ Undirected oldQuery.appId row) :=
  trace_reads_filled oldStore_table rfl rfl (onePass_whole oldStore) onePass_run rfl (by decide)

end Loading

/-! ## Whom a flow asks -/

section Targets
variable {summary : Dict String String} {appId addr : String} {ext : Extract}

/-- An entry names a target. -/
def nameTarget (targets : List String) : MeterItem → List String
  | .text addr => if addr ∈ targets then targets else targets ++ [addr]
  | .reply _ _ => targets

theorem flowTargets_eq (flow : Flow) :
    flowTargets flow = (byFrameId flow.downs).foldl (fun targets down =>
      (down.meterAddrs.getD []).foldl nameTarget targets) [] := rfl

theorem mem_nameTarget {items : List MeterItem} {targets : List String} :
    addr ∈ items.foldl nameTarget targets ↔ addr ∈ targets ∨ .text addr ∈ items := by
  induction items generalizing targets with
  | nil => simp
  | cons item items ih =>
      rw [List.foldl_cons, ih, List.mem_cons]
      cases item with
      | reply other denied => simp [nameTarget]
      | text other =>
          rw [MeterItem.text.injEq, nameTarget]
          split_ifs with hin
          · constructor
            · exact Or.imp_right Or.inr
            · rintro (hold | rfl | hlater)
              · exact Or.inl hold
              · exact Or.inl hin
              · exact Or.inr hlater
          · rw [List.mem_append, List.mem_singleton, or_assoc]

theorem mem_flowTargets {flow : Flow} :
    addr ∈ flowTargets flow ↔ ∃ down ∈ flow.downs, .text addr ∈ down.meterAddrs.getD [] := by
  have hfold : ∀ (downs : List Frame) (targets : List String),
      addr ∈ downs.foldl (fun targets down =>
        (down.meterAddrs.getD []).foldl nameTarget targets) targets ↔
        addr ∈ targets ∨ ∃ down ∈ downs, .text addr ∈ down.meterAddrs.getD [] := by
    intro downs
    induction downs with
    | nil => simp
    | cons down downs ih =>
        intro targets
        rw [List.foldl_cons, ih, mem_nameTarget, or_assoc]
        simp
  rw [flowTargets_eq, hfold]
  simp [(perm_byFrameId flow.downs).mem_iff]

theorem withMeters_direction (protoType : ℕ) (data : Bytes) :
    (withMeters ext protoType data).direction = ext.direction := by
  rw [withMeters]
  split_ifs <;> rfl

theorem extractMeter_direction (business : Bytes) :
    (extractMeter ext business).direction = ext.direction := by
  by_cases hshort : business.length < 8
  · rw [extractMeter, if_pos hshort]
  · rw [extractMeter, if_neg hshort]
    exact (withMeters_direction _ _).trans ((apply_ite Extract.direction _ _ _).trans (ite_self _))

theorem extractSimple_direction {d : Direction} (hd : ext.direction = some d) (business : Bytes)
    (msgId : ℤ) (layout : ℕ × ℕ) : (extractSimple ext business msgId layout).direction = some d := by
  by_cases hshort : business.length < layout.1 + layout.2
  · rw [extractSimple, if_pos hshort]
    exact hd
  · simp only [extractSimple, if_neg hshort, hd, Option.orElse_some]
    refine (apply_ite Extract.direction _ _ _).trans ?_
    rw [apply_ite Extract.direction, ite_self, ite_self]

/-- A source that is told says which way the frame goes. -/
theorem extract_direction {raw : Bytes} {src : String} (hne : src ≠ "")
    (h : extractTraceFields appId raw (some src) = some ext) :
    ext.direction = some (if upper src = "001" then .down else .up) := by
  cases hvalue : hexTextValue appId with
  | none =>
      rw [extractTraceFields, hvalue] at h
      cases h
  | some msgId =>
      simp only [extractTraceFields, hvalue, told_eq_some.mpr ⟨rfl, hne⟩, Option.map_some] at h
      generalize (if upper src = "001" then Direction.down else .up) = d at h ⊢
      split_ifs at h with hshort hmeter
      · obtain rfl := Option.some.inj h
        exact extractMeter_direction _
      · obtain ⟨layout, -, rfl⟩ := Option.map_eq_some_iff.mp h
        exact extractSimple_direction rfl _ _ _

theorem extracted_direction {src : String} (hsrc : capitals summary "SRC" = some src)
    (h : extracted summary appId = some ext) :
    ext.direction = some (if src = "001" then .down else .up) := by
  rw [extracted] at h
  split_ifs at h with hmem
  obtain ⟨raw, -, hext⟩ := Option.bind_eq_some_iff.mp h
  obtain ⟨text, htext, rfl⟩ := Option.map_eq_some_iff.mp hsrc
  rw [← extract_source, hsrc] at hext
  rw [extract_direction (upper_ne_empty (told_eq_some.mp htext).2) hext, upper_upper]

theorem text_of_items {ready : Bool} (h : .text addr ∈ (itemsWhen ready ext).getD []) :
    ext.direction ≠ some .up ∧ addr ∈ ext.targets := by
  have hreply : .text addr ∉ responseItems ext := by
    rw [responseItems, List.mem_map]
    rintro ⟨r, -, hr⟩
    cases hr
  have htarget : .text addr ∈ targetItems ext → addr ∈ ext.targets := by
    rw [targetItems, List.mem_map]
    rintro ⟨other, hother, hsame⟩
    cases hsame
    exact hother
  cases hdir : ext.direction with
  | none =>
      refine ⟨by simp, ?_⟩
      cases ready with
      | true => simp [itemsWhen, meterItems, hdir] at h
      | false =>
          simp [itemsWhen, summaryItems, meterItems, hdir, getD_written] at h
          exact htarget h
  | some d =>
      cases d with
      | up =>
          cases ready with
          | true =>
              simp [itemsWhen, meterItems, hdir, getD_written] at h
              exact absurd h hreply
          | false =>
              simp [itemsWhen, summaryItems, hdir] at h
              exact absurd h hreply
      | down =>
          refine ⟨by simp, ?_⟩
          cases ready with
          | true =>
              simp [itemsWhen, meterItems, hdir, getD_written] at h
              exact htarget h
          | false =>
              simp [itemsWhen, summaryItems, meterItems, hdir, getD_written] at h
              exact htarget h

/-- Only a frame from the concentrator, or one without a source, asks for a meter. -/
theorem source_of_text {ready : Bool} {row : Row}
    (h : .text addr ∈ (row.frameOf appId (itemsWhen ready)).meterAddrs.getD []) :
    ∃ ext, extracted row.summary appId = some ext ∧ addr ∈ ext.targets ∧
      ∀ src, capitals row.summary "SRC" = some src → src = "001" := by
  rw [Row.frameOf] at h
  cases hext : extracted row.summary appId with
  | none =>
      simp only [hext] at h
      cases h
  | some ext =>
      simp only [hext, Option.bind_some] at h
      obtain ⟨hup, hin⟩ := text_of_items h
      refine ⟨ext, rfl, hin, ?_⟩
      intro src hsrc
      by_contra hother
      rw [extracted_direction hsrc hext, if_neg hother] at hup
      exact hup rfl

variable {q : FrameQuery} {inWindow like : Row → Bool} {ready : Bool}

/-- A flow asks for no meter but those of requests that were heard from the concentrator itself; a
request that a proxy hands on names none. -/
theorem targets_heard {s s' : TraceStore} {events : List StoreEvent} {frames cluster : List Frame}
    {flow : Flow} (htable : Table s) (hidle : s.pass = .idle) (hdone : s.done = false)
    (hfollows : traceStore.Follows Whole s events) (h : traceStore.run s events = some s')
    (hne : q.appId ≠ "") (hframes : loadFrames q like ready s'.rows = pure frames)
    (hcluster : ∀ f ∈ cluster, { f with absMs := none } ∈ frames)
    (hflow : flow ∈ buildFlows cluster q.appId) (haddr : addr ∈ flowTargets flow) :
    ∃ row ∈ s'.rows, ∃ ext, extracted row.summary q.appId = some ext ∧ addr ∈ ext.targets ∧
      ∀ src, capitals row.summary "SRC" = some src → src = "001" := by
  have hsound := sound_run htable hidle hdone hfollows h
  obtain ⟨down, hdown, htext⟩ := mem_flowTargets.mp haddr
  have hmem : down ∈ cluster := by
    have hall : down ∈ (buildFlows cluster q.appId).flatMap Flow.frames :=
      List.mem_flatMap.mpr ⟨flow, hflow, List.mem_append_left _ hdown⟩
    exact List.mem_of_mem_filter ((grouped cluster q.appId).once.mem_iff.mp hall)
  have hloaded := hcluster down hmem
  cases hwindow : q.window.holds with
  | error e =>
      rw [loadFrames, hwindow] at hframes
      cases hframes
  | ok inWindow =>
      rw [loadFrames_eq hwindow hne hsound.filled] at hframes
      obtain rfl := Except.ok.inj hframes
      obtain ⟨row, hrow, hsame⟩ := List.mem_map.mp hloaded
      have hasks : .text addr ∈ (row.frameOf q.appId (itemsWhen ready)).meterAddrs.getD [] := by
        rw [hsame]
        exact htext
      exact ⟨row, List.mem_of_mem_filter hrow, source_of_text hasks⟩

/-- The frame of the old row. -/
def oldFrame : Frame := oldRow.fresh.frameOf "0008" meterItems

theorem buildFlows_one {f : Frame} {seq : ℕ} (hseq : f.msgSeq = some seq) (appId : String) :
    buildFlows [f] appId = [Flow.start appId seq f] := by
  have hone : (byFrameId [f]).foldl (addFrame appId) Dict.empty = addFrame appId Dict.empty f := rfl
  rw [buildFlows, hone, addFrame, hseq]
  rfl

theorem oldFrame_seq : oldFrame.msgSeq = some 7 := by decide +kernel

theorem targets_heard_pass : ∃ row ∈ passedStore.rows, ∃ ext,
    extracted row.summary oldQuery.appId = some ext ∧ "000000000001" ∈ ext.targets ∧
      ∀ src, capitals row.summary "SRC" = some src → src = "001" := by
  have hsound := sound_run oldStore_table rfl rfl (onePass_whole oldStore) onePass_run
  have hfound : oldQuery.takes (fun _ => true) oldRow.fresh = true := by decide +kernel
  have hasks : MeterItem.text "000000000001" ∈ oldFrame.meterAddrs.getD [] := by decide +kernel
  have hdown : oldFrame.flowDir = some 0 := by decide +kernel
  have hwindow : oldQuery.window.holds = pure fun _ => true := rfl
  have hne : oldQuery.appId ≠ "" := by decide
  have hframes : loadFrames oldQuery (fun _ => false) true passedStore.rows = _ :=
    loadFrames_eq hwindow hne hsound.filled
  have hin : oldFrame ∈ (passedStore.rows.filter (oldQuery.takes fun _ => true)).map
      fun row => row.frameOf oldQuery.appId (itemsWhen true) :=
    List.mem_map.mpr ⟨oldRow.fresh, List.mem_filter.mpr ⟨List.mem_cons_self, hfound⟩, rfl⟩
  have hcluster : ∀ f ∈ [oldFrame], { f with absMs := none } ∈
      (passedStore.rows.filter (oldQuery.takes fun _ => true)).map
        fun row => row.frameOf oldQuery.appId (itemsWhen true) := by
    have hplain : ∀ (row : Row) (items : Extract → Option (List MeterItem)),
        { row.frameOf "0008" items with absMs := none } = row.frameOf "0008" items :=
      fun _ _ => rfl
    intro f hf
    rw [List.mem_singleton.mp hf, oldFrame, hplain]
    exact hin
  have hflow : Flow.start "0008" 7 oldFrame ∈ buildFlows [oldFrame] oldQuery.appId := by
    rw [buildFlows_one oldFrame_seq]
    exact List.mem_singleton_self _
  have haddr : "000000000001" ∈ flowTargets (Flow.start "0008" 7 oldFrame) := by
    refine mem_flowTargets.mpr ⟨oldFrame, ?_, hasks⟩
    rw [Flow.start, if_pos hdown]
    exact List.mem_singleton_self _
  exact targets_heard oldStore_table rfl rfl (onePass_whole oldStore) onePass_run hne hframes hcluster
    hflow haddr

end Targets

end HplcWorkbench.Trace
