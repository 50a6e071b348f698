import HplcWorkbench.TraceReplay
import Mathlib.Data.List.Fold
import Mathlib.Data.List.MinMax

/-!
# Live traces

A live trace keeps the last frame that was there when it was registered. A snapshot replays the frames
behind it: the feature gets a window that begins there, and the queries of the replay see the tables one
after the other, while frames arrive and the worker fills columns.
-/

namespace HplcWorkbench.Trace

open OrderedDict Transitions

/-- `LiveTrace`: what a snapshot takes of it. -/
structure LiveTrace where
  feature : Params
  startFrameId : ℕ

/-- `_max_frame_id`. -/
def maxFrameId (store : TraceStore) : ℕ := (store.rows.map Row.id).foldl max 0

/-- `register_live`. -/
def registerLive (store : TraceStore) (feature : PyVal) : PyM LiveTrace := do
  let nf ← validateFeature feature
  check (nf.windowMode = .live) "live 注册要求 window.mode == \"live\""
  match feature with
  | .dict p => pure ⟨p, maxFrameId store⟩
  | _ => featureError "特征必须是 JSON 对象"

/-- `feature[key] = value`. -/
def putKey (p : Params) (key : String) (value : PyVal) : Params :=
  if p.has key then p.map fun e => if e.1 = key then (key, value) else e else p ++ [(key, value)]

/-- The window of a snapshot. -/
def liveWindow (startFrameId : ℕ) : PyVal :=
  .dict [("mode", .str "cursor_range"), ("start_id", .int (startFrameId + 1))]

/-- The feature that a snapshot replays. -/
def LiveTrace.replayed (h : LiveTrace) : PyVal :=
  .dict (putKey h.feature "window" (liveWindow h.startFrameId))

/-- The tables as the queries of a replay find them. -/
structure Found where
  ready : TraceStore
  frames : TraceStore
  bad : TraceStore
  acks : TraceStore
  confirms : TraceStore

/-- `live_snapshot` where none is kept. -/
def liveSnapshot (like : Row → Bool) (countBad : NormalizedFeature → List Row → ℕ) (h : LiveTrace)
    (found : Found) : PyM TraceReport := do
  let nf ← validateFeature h.replayed
  runReplay nf "live" [] like found.ready.ready (countBad nf found.bad.rows) found.frames.rows
    found.acks.rows found.confirms.rows

/-! ## The feature of a snapshot -/

section Features
variable {key other : String} {value : PyVal}

theorem lookup_map_putKey (p : Params) (hkey : p.has key = true) :
    (p.map fun e => if e.1 = key then (key, value) else e).lookup key = some value := by
  induction p with
  | nil => cases hkey
  | cons e p ih =>
      obtain ⟨k, v⟩ := e
      rw [List.map_cons]
      by_cases hk : k = key
      · rw [if_pos hk, List.lookup_cons_self]
      · have hne : (key == k) = false := beq_eq_false_iff_ne.mpr (Ne.symm hk)
        have hrest : Params.has p key = true := by
          rwa [Params.has, List.lookup_cons, hne] at hkey
        rw [if_neg hk, List.lookup_cons, hne]
        exact ih hrest

theorem lookup_map_putKey_of_ne (p : Params) (h : other ≠ key) :
    (p.map fun e => if e.1 = key then (key, value) else e).lookup other = p.lookup other := by
  induction p with
  | nil => rfl
  | cons e p ih =>
      obtain ⟨k, v⟩ := e
      rw [List.map_cons]
      by_cases hk : k = key
      · have hne : (other == key) = false := beq_eq_false_iff_ne.mpr h
        rw [if_pos hk, List.lookup_cons, List.lookup_cons, hk, hne]
        exact ih
      · rw [if_neg hk, List.lookup_cons, List.lookup_cons]
        cases other == k with
        | true => rfl
        | false => exact ih

theorem get_putKey_self (p : Params) : (putKey p key value).get key = value := by
  rw [putKey]
  split_ifs with hkey
  · rw [Params.get, lookup_map_putKey p hkey]
    rfl
  · have hnone : p.lookup key = none := by
      rwa [Params.has, Bool.not_eq_true, Option.isSome_eq_false_iff, Option.isNone_iff_eq_none] at hkey
    rw [Params.get, List.lookup_append, hnone, Option.none_or, List.lookup_cons_self]
    rfl

theorem get_putKey_of_ne (p : Params) (h : other ≠ key) : (putKey p key value).get other = p.get other := by
  rw [putKey]
  split_ifs with hkey
  · rw [Params.get, lookup_map_putKey_of_ne p h, Params.get]
  · have hne : (other == key) = false := beq_eq_false_iff_ne.mpr h
    rw [Params.get, List.lookup_append, List.lookup_cons, hne, List.lookup_nil, Option.or_none, Params.get]

theorem registered_dict {store : TraceStore} {feature : PyVal} {h : LiveTrace}
    (hregister : registerLive store feature = .ok h) :
    feature = .dict h.feature ∧ h.startFrameId = maxFrameId store ∧
      ∃ nf, validateFeature feature = .ok nf := by
  obtain ⟨nf, hnf, hregister⟩ := bind_eq_ok hregister
  obtain ⟨_, -, hregister⟩ := bind_eq_ok hregister
  cases feature with
  | dict q =>
      obtain rfl := Except.ok.inj hregister
      exact ⟨rfl, rfl, nf, hnf⟩
  | _ => cases hnf

theorem live_window (p : Params) (start : ℕ) :
    readWindow (putKey p "window" (liveWindow start)) =
      pure ⟨.cursorRange, "", "", some (start + 1), none⟩ := by
  have hobject : objectOr (putKey p "window" (liveWindow start)) "window" "window 必须是 JSON 对象" =
      pure [("mode", .str "cursor_range"), ("start_id", .int (start + 1))] :=
    objectOr_dict _ (get_putKey_self p)
  have hmode : readMode [("mode", .str "cursor_range"), ("start_id", .int (start + 1))] =
      pure .cursorRange := by
    simp [readMode, valueOr, Params.get, PyVal.truthy, WindowMode.ofVal]
  have hstart : readId [("mode", .str "cursor_range"), ("start_id", .int (start + 1))] "start_id" =
      pure (some (start + 1)) := by
    have hget : Params.get [("mode", .str "cursor_range"), ("start_id", .int (start + 1))] "start_id" =
        .int ((start : ℤ) + 1) := by
      simp [Params.get, List.lookup_cons]
    rw [readId, hget]
    have hpos : ¬ ((start : ℤ) + 1 < 0) := by omega
    simp only [if_neg hpos]
    rfl
  have hnone : ∀ key : String, key ≠ "mode" → key ≠ "start_id" →
      Params.get [("mode", .str "cursor_range"), ("start_id", .int (start + 1))] key = .none := by
    intro key hkey hkey'
    simp [Params.get, List.lookup_cons, beq_eq_false_iff_ne.mpr hkey, beq_eq_false_iff_ne.mpr hkey']
  have hend : readId [("mode", .str "cursor_range"), ("start_id", .int (start + 1))] "end_id" =
      pure none := by
    rw [readId, hnone "end_id" (by decide) (by decide)]
  rw [readWindow, hobject, pure_bind, hmode, pure_bind, hstart, hend,
    hnone "start_time" (by decide) (by decide), hnone "end_time" (by decide) (by decide)]
  rfl

/-- What was accepted at the registration is accepted with the window of a snapshot. -/
theorem live_accepted {store : TraceStore} {feature : PyVal} {h : LiveTrace}
    (hregister : registerLive store feature = .ok h) :
    ∃ nf, validateFeature h.replayed = .ok nf ∧ nf.StartsAt (h.startFrameId + 1) ∧ nf.appId ≠ "" := by
  obtain ⟨rfl, -, nf, hnf⟩ := registered_dict hregister
  obtain ⟨r, rfl⟩ := validate_iff.mp hnf
  have hget : ∀ key : String, key ≠ "window" →
      (putKey h.feature "window" (liveWindow h.startFrameId)).get key = h.feature.get key :=
    fun key hne => get_putKey_of_ne h.feature hne
  let r' : Reading (putKey h.feature "window" (liveWindow h.startFrameId)) := { r with
    window := ⟨.cursorRange, "", "", some (h.startFrameId + 1), none⟩
    reads_scope := by
      rw [readScope, valueOr, hget "scope" (by decide), ← valueOr, ← readScope]
      exact r.reads_scope
    reads_feat := by
      rw [objectOr, hget "feature" (by decide), ← objectOr]
      exact r.reads_feat
    reads_window := live_window h.feature h.startFrameId
    reads_policy := by
      rw [objectOr, hget "response_policy" (by decide), ← objectOr]
      exact r.reads_policy }
  exact ⟨r'.feature, validate_iff.mpr ⟨r', rfl⟩, ⟨rfl, rfl⟩, r.named⟩

end Features

/-! ## Tables that grow -/

section Growth
variable {s s' : TraceStore} {start n : ℕ} {e : StoreEvent}

/-- The rows behind `start` up to `n`. -/
def segment (start n : ℕ) (rows : List Row) : List Row :=
  (rowsFrom (start + 1) rows).filter fun row => row.id ≤ n

/-- The rows behind `start` have their columns. -/
def FilledFrom (start : ℕ) (s : TraceStore) : Prop := ∀ row ∈ s.rows, start < row.id → row.Filled

/-- Behind `start` rows are added and none is changed. -/
structure Grows (start : ℕ) (s s' : TraceStore) : Prop where
  next : s.nextId ≤ s'.nextId
  rows : ∃ more, rowsFrom (start + 1) s'.rows = rowsFrom (start + 1) s.rows ++ more ∧
    ∀ row ∈ more, s.nextId ≤ row.id
  filled : FilledFrom start s'

theorem updated_self {batch : List (ℕ × Columns)} {row : Row} (hfilled : row.Filled)
    (hown : ∀ e ∈ batch, row.id = e.1 → e.2 = traceMaterial row.summary row.rawHex) :
    updated batch row = row := by
  induction batch with
  | nil => rfl
  | cons e batch ih =>
      have hsame : (if row.id = e.1 then { row with columns := some e.2 } else row) = row := by
        split_ifs with hid
        · rw [hown e List.mem_cons_self hid, ← hfilled]
        · rfl
      have hcons : updated (e :: batch) row =
          updated batch (if row.id = e.1 then { row with columns := some e.2 } else row) := rfl
      rw [hcons, hsame]
      exact ih fun e he => hown e (List.mem_cons_of_mem _ he)

theorem Grows.same (hnext : s.nextId ≤ s'.nextId)
    (hrows : rowsFrom (start + 1) s'.rows = rowsFrom (start + 1) s.rows) (h : FilledFrom start s) :
    Grows start s s' := by
  refine ⟨hnext, ⟨[], hrows.trans (List.append_nil _).symm, fun row hrow => by cases hrow⟩, ?_⟩
  intro row hrow hid
  have hin : row ∈ rowsFrom (start + 1) s'.rows := List.mem_filter.mpr ⟨hrow, decide_eq_true hid⟩
  rw [hrows] at hin
  exact h row (List.mem_of_mem_filter hin) hid

theorem grows_step (hsound : Sound s) (hfilled : FilledFrom start s) (he : e ≠ .reset)
    (hstep : traceStore.step s e = some s') : Grows start s s' := by
  cases moved_of_step hstep with
  | append logTime rawHex summary nid =>
      refine ⟨Nat.le_succ _, ⟨_, List.filter_append _ _, ?_⟩, ?_⟩
      · intro row hrow
        rw [List.mem_singleton.mp (List.mem_of_mem_filter hrow)]
      · intro row hrow hid
        rcases List.mem_append.mp hrow with hold | hnew
        · exact hfilled row hold hid
        · rw [List.mem_singleton.mp hnew]
          rfl
  | reset => exact absurd rfl he
  | start hpass => exact .same le_rfl rfl hfilled
  | read hpass hlast => exact .same le_rfl rfl hfilled
  | ended hpass hlast => exact .same le_rfl rfl hfilled
  | @write lastId batch hpass =>
      refine .same le_rfl ?_ hfilled
      have hown := hsound.own
      rw [hpass] at hown
      have hid : ∀ row : Row, (updated batch row).id = row.id := fun row => (updated_columns batch row).1
      have hmap : rowsFrom (start + 1) (s.rows.map (updated batch)) =
          (rowsFrom (start + 1) s.rows).map (updated batch) := by
        rw [rowsFrom, List.filter_map, rowsFrom]
        congr 1
        exact List.filter_congr fun row _ => by rw [Function.comp_apply, hid]
      rw [hmap]
      refine (List.map_congr_left fun row hrow => ?_).trans (List.map_id _)
      obtain ⟨hmem, hlater⟩ := List.mem_filter.mp hrow
      exact updated_self (hfilled row hmem (of_decide_eq_true hlater)) fun e he => hown e he row hmem

theorem Grows.trans {t : TraceStore} (h : Grows start s s') (h' : Grows start s' t) :
    Grows start s t := by
  obtain ⟨more, hmore, hids⟩ := h.rows
  obtain ⟨more', hmore', hids'⟩ := h'.rows
  refine ⟨h.next.trans h'.next, ⟨more ++ more', ?_, ?_⟩, h'.filled⟩
  · rw [hmore', hmore, List.append_assoc]
  · intro row hrow
    rcases List.mem_append.mp hrow with hin | hin
    · exact hids row hin
    · exact h.next.trans (hids' row hin)

theorem Grows.refl (h : FilledFrom start s) : Grows start s s := .same le_rfl rfl h

theorem Grows.segment (h : Grows start s s') (hn : n < s.nextId) :
    segment start n s'.rows = segment start n s.rows := by
  obtain ⟨more, hmore, hids⟩ := h.rows
  have hnone : more.filter (fun row => decide (row.id ≤ n)) = [] := by
    refine List.filter_eq_nil_iff.mpr fun row hrow hle => ?_
    exact absurd (hids row hrow) (Nat.not_le.mpr ((of_decide_eq_true hle).trans_lt hn))
  rw [Trace.segment, hmore, List.filter_append, hnone, List.append_nil, Trace.segment]

theorem segment_all (h : Sound s) : rowsFrom (start + 1) s.rows = segment start (s.nextId - 1) s.rows := by
  refine (List.filter_eq_self.mpr fun row hrow => ?_).symm
  exact decide_eq_true (Nat.le_pred_of_lt (h.below row (List.mem_of_mem_filter hrow)))

/-- Frames arrived and the worker went on, but the index was not built anew. -/
abbrev Later : TraceStore → TraceStore → Prop := traceStore.Reach fun _ e => e ≠ .reset

theorem grows_later (h : Later s s') (hsound : Sound s) (hfilled : FilledFrom start s) :
    Sound s' ∧ Grows start s s' := by
  refine h.invariant (P := fun t => Sound t ∧ Grows start s t) ⟨hsound, .refl hfilled⟩ ?_
  rintro t e t' - ⟨ht, hgrows⟩ he hstep
  have hwhole : Whole t e := by
    cases e with
    | reset => exact absurd rfl he
    | _ => trivial
  exact ⟨ht.step hwhole hstep, hgrows.trans (grows_step ht hgrows.filled he hstep)⟩

theorem le_maxFrameId {row : Row} (hrow : row ∈ s.rows) : row.id ≤ maxFrameId s := by
  rw [maxFrameId, List.foldl_eq_foldr]
  exact List.le_max_of_le' 0 (List.mem_map_of_mem hrow) le_rfl

end Growth

/-! ## Snapshots -/

section Snapshots
variable {s₀ s s' : TraceStore} {start : ℕ} {found : Found} {like : Row → Bool}
  {countBad : NormalizedFeature → List Row → ℕ} {feature : PyVal} {h : LiveTrace}

/-- The queries of a replay come one after the other. -/
structure Found.After (found : Found) (s : TraceStore) : Prop where
  ready : Later s found.ready
  frames : Later found.ready found.frames
  bad : Later found.frames found.bad
  acks : Later found.bad found.acks
  confirms : Later found.acks found.confirms

/-- What the tables hold behind `start` at one query is what they hold of it at a later one, up to the
frame that had arrived. -/
theorem rowsFrom_later (hsound : Sound s) (hfilled : FilledFrom start s) (h : Later s s') :
    rowsFrom (start + 1) s.rows = segment start (s.nextId - 1) s'.rows := by
  rw [(grows_later h hsound hfilled).2.segment (Nat.sub_lt hsound.positive.1 Nat.one_pos)]
  exact segment_all hsound

/-- A trace is registered while the worker may be anywhere. However frames arrive before and between the
queries of a snapshot, it returns a report: the replay of what came behind the registration, up to the
last frame that had arrived at each query. No frame is shown that was there before. -/
theorem snapshot_registered {events : List StoreEvent} (htable : Table s₀) (hidle : s₀.pass = .idle)
    (hdone : s₀.done = false) (hfollows : traceStore.Follows Whole s₀ events)
    (hrun : traceStore.run s₀ events = some s) (hregister : registerLive s feature = .ok h)
    (hafter : found.After s) :
    ∃ nf report, validateFeature h.replayed = .ok nf ∧ liveSnapshot like countBad h found = .ok report ∧
      runReplay nf "live" [] like found.ready.ready (countBad nf found.bad.rows)
        (segment h.startFrameId (found.frames.nextId - 1) found.confirms.rows)
        (segment h.startFrameId (found.acks.nextId - 1) found.confirms.rows)
        (segment h.startFrameId (found.confirms.nextId - 1) found.confirms.rows) = .ok report ∧
      ∀ p ∈ (report.rounds.flatMap RoundReport.flows).flatMap FlowReport.frames,
        h.startFrameId < p.frameId ∧ ∀ row ∈ s.rows, row.id < p.frameId := by
  have hsound := sound_run htable hidle hdone hfollows hrun
  have hmax : h.startFrameId = maxFrameId s := (registered_dict hregister).2.1
  have hfilled : FilledFrom h.startFrameId s := fun row hrow hid =>
    absurd (hmax ▸ le_maxFrameId hrow) (Nat.not_le.mpr hid)
  obtain ⟨nf, hnf, hstarts, hne⟩ := live_accepted hregister
  obtain ⟨hframes, hgrown⟩ := grows_later (hafter.ready.trans hafter.frames) hsound hfilled
  obtain ⟨hacks, hmore⟩ := grows_later (hafter.bad.trans hafter.acks) hframes hgrown.filled
  have hconfirms := (grows_later hafter.confirms hacks hmore.filled).1
  have hseen : ∀ row ∈ rowsFrom (h.startFrameId + 1) found.frames.rows, row.columns = none ∨ row.Filled := by
    intro row hrow
    obtain ⟨hmem, hlater⟩ := List.mem_filter.mp hrow
    exact .inr (hgrown.filled row hmem (of_decide_eq_true hlater))
  obtain ⟨report, hreport⟩ : ∃ report, runReplay nf "live" [] like found.ready.ready
      (countBad nf found.bad.rows) (rowsFrom (h.startFrameId + 1) found.frames.rows)
      (rowsFrom (h.startFrameId + 1) found.acks.rows)
      (rowsFrom (h.startFrameId + 1) found.confirms.rows) = .ok report :=
    runReplay_returns hstarts hne hseen
  refine ⟨nf, report, hnf, ?_, ?_, fun p hp => ?_⟩
  · rw [liveSnapshot, hnf]
    exact (runReplay_from hstarts).symm.trans hreport
  · rw [← rowsFrom_later hframes hgrown.filled (hafter.bad.trans (hafter.acks.trans hafter.confirms)),
      ← rowsFrom_later hacks hmore.filled hafter.confirms, ← segment_all hconfirms]
    exact hreport
  · have hstart := shown_from hstarts hne hseen hreport hp
    exact ⟨hstart, fun row hrow => (hmax ▸ le_maxFrameId hrow).trans_lt hstart⟩

/-! ### One snapshot -/

def liveRequest : PyVal :=
  .dict [("feature", .dict [("app_id", .str "0008")]), ("window", .dict [("mode", .str "live")])]

/-- One more frame like the one of the older database. -/
def heardAgain : StoreEvent := .append "" "" oldRow.summary none

theorem snapshot_registered_old : ∃ h grown,
    registerLive oldStore liveRequest = .ok h ∧ Later oldStore grown ∧
    ∃ nf report, validateFeature h.replayed = .ok nf ∧
      liveSnapshot (fun _ => false) (fun _ _ => 0) h ⟨oldStore, grown, grown, grown, grown⟩ = .ok report ∧
      runReplay nf "live" [] (fun _ => false) oldStore.ready 0
        (segment h.startFrameId (grown.nextId - 1) grown.rows)
        (segment h.startFrameId (grown.nextId - 1) grown.rows)
        (segment h.startFrameId (grown.nextId - 1) grown.rows) = .ok report ∧
      ∀ p ∈ (report.rounds.flatMap RoundReport.flows).flatMap FlowReport.frames,
        h.startFrameId < p.frameId ∧ ∀ row ∈ oldStore.rows, row.id < p.frameId := by
  have hregister : (registerLive oldStore liveRequest).toOption.isSome = true := by decide +kernel
  obtain ⟨h, hregister⟩ := Option.isSome_iff_exists.mp hregister
  have hregister : registerLive oldStore liveRequest = .ok h := by
    cases hresult : registerLive oldStore liveRequest with
    | error e =>
        rw [hresult] at hregister
        cases hregister
    | ok h' =>
        rw [hresult] at hregister
        exact congrArg Except.ok (Option.some.inj hregister)
  have hfollows : traceStore.Follows Whole oldStore [] := trivial
  have hheard : traceStore.run oldStore [heardAgain] = some _ := rfl
  have hgrown : Later oldStore _ := Machine.reach_of_run (by simp [heardAgain]) hheard
  exact ⟨h, _, hregister, hgrown, snapshot_registered oldStore_table rfl rfl hfollows rfl hregister
    ⟨.start, hgrown, .start, .start, .start⟩⟩

end Snapshots

end HplcWorkbench.Trace
