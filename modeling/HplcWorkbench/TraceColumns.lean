import HplcWorkbench.TraceMaterial

/-!
# Rows behind the trace

A row waits for the backfill or holds what its own frame says, whatever is appended while a pass is
under way; only dropping the tables between the reading and the writing of a batch can give a row the
columns of another frame. When a pass is over no row waits, and it ends after a few steps for a row.
-/

namespace HplcWorkbench.Trace

open OrderedDict TraceExtract Transitions

/-! ## Passes of the backfill -/

/-- The columns say what the frame of the row says. -/
def Row.Filled (row : Row) : Prop := row.columns = some (traceMaterial row.summary row.rawHex)

/-- The tables are not dropped while a batch has been read and not yet written. -/
def Whole (s : TraceStore) : StoreEvent → Prop
  | .reset => ∀ lastId batch, s.pass ≠ .writing lastId batch
  | _ => True

/-- How far a pass got: what still waits lies ahead of it or in its batch. -/
def Ahead (rows : List Row) : Pass → Prop
  | .idle => True
  | .reading lastId => ∀ row ∈ rows, row.columns = none → lastId < row.id
  | .writing lastId batch => ∀ row ∈ rows, row.columns = none →
      lastId < row.id ∨ row.id ∈ batch.map Prod.fst

/-- A batch holds the columns of the rows whose identifiers it names. -/
def OwnBatch (rows : List Row) : Pass → Prop
  | .writing _ batch => ∀ e ∈ batch, ∀ row ∈ rows, row.id = e.1 →
      e.2 = traceMaterial row.summary row.rawHex
  | _ => True

/-- The table of a database, whose rows may all wait. -/
structure Table (s : TraceStore) : Prop where
  filled : ∀ row ∈ s.rows, row.columns = none ∨ row.Filled
  positive : 0 < s.nextId ∧ ∀ row ∈ s.rows, 0 < row.id
  below : ∀ row ∈ s.rows, row.id < s.nextId
  sorted : s.rows.Pairwise fun a b => a.id < b.id

structure Sound (s : TraceStore) : Prop extends Table s where
  ahead : Ahead s.rows s.pass
  own : OwnBatch s.rows s.pass
  fresh : ∀ lastId batch, s.pass = .writing lastId batch → ∀ e ∈ batch, e.1 < s.nextId
  done : s.done = true → ∀ row ∈ s.rows, row.columns ≠ none

section Passes
variable {s s' : TraceStore}

theorem updated_columns (batch : List (ℕ × Columns)) (row : Row) :
    (updated batch row).id = row.id ∧ (updated batch row).summary = row.summary ∧
      (updated batch row).rawHex = row.rawHex ∧
      ((updated batch row).columns = row.columns ∧ row.id ∉ batch.map Prod.fst ∨
        ∃ e ∈ batch, row.id = e.1 ∧ (updated batch row).columns = some e.2) := by
  induction batch generalizing row with
  | nil => exact ⟨rfl, rfl, rfl, Or.inl ⟨rfl, List.not_mem_nil⟩⟩
  | cons e batch ih =>
      have hcons : updated (e :: batch) row =
          updated batch (if row.id = e.1 then { row with columns := some e.2 } else row) := rfl
      rw [hcons]
      by_cases hid : row.id = e.1
      · rw [if_pos hid]
        obtain ⟨h1, h2, h3, h4⟩ := ih { row with columns := some e.2 }
        refine ⟨h1, h2, h3, Or.inr ?_⟩
        rcases h4 with ⟨hkept, -⟩ | ⟨e', he', hid', hcols⟩
        · exact ⟨e, List.mem_cons_self, hid, hkept⟩
        · exact ⟨e', List.mem_cons_of_mem _ he', hid', hcols⟩
      · rw [if_neg hid]
        obtain ⟨h1, h2, h3, h4⟩ := ih row
        refine ⟨h1, h2, h3, ?_⟩
        rcases h4 with ⟨hkept, hnot⟩ | ⟨e', he', hid', hcols⟩
        · refine Or.inl ⟨hkept, ?_⟩
          rw [List.map_cons, List.mem_cons]
          exact not_or.mpr ⟨hid, hnot⟩
        · exact Or.inr ⟨e', List.mem_cons_of_mem _ he', hid', hcols⟩

/-- A row that is written to holds what its own frame says. -/
theorem updated_filled {batch : List (ℕ × Columns)} {row : Row}
    (hown : ∀ e ∈ batch, row.id = e.1 → e.2 = traceMaterial row.summary row.rawHex)
    (hfilled : row.columns = none ∨ row.Filled) :
    ((updated batch row).columns = none ∧ row.columns = none ∧ row.id ∉ batch.map Prod.fst) ∨
      (updated batch row).Filled := by
  obtain ⟨-, hsummary, hraw, hcols⟩ := updated_columns batch row
  rw [Row.Filled, hsummary, hraw]
  rcases hcols with ⟨hkept, hnot⟩ | ⟨e, he, hid, hcols⟩
  · rcases hfilled with hnone | hown'
    · exact Or.inl ⟨hkept.trans hnone, hnone, hnot⟩
    · exact Or.inr (hkept.trans hown')
  · exact Or.inr (hcols.trans (congrArg some (hown e he hid)))

theorem Sound.append (h : Sound s) (logTime rawHex : String) (summary : Dict String String)
    (nid : Option ℕ) : Sound { s with
      rows := s.rows ++
        [⟨s.nextId, logTime, rawHex, summary, nid, some (traceMaterial summary rawHex)⟩]
      nextId := s.nextId + 1 } := by
  have hmem : ∀ row ∈ s.rows ++
      [⟨s.nextId, logTime, rawHex, summary, nid, some (traceMaterial summary rawHex)⟩],
      row ∈ s.rows ∨ (row.id = s.nextId ∧ row.Filled) := by
    intro row hrow
    rcases List.mem_append.mp hrow with hold | hnew
    · exact Or.inl hold
    · obtain rfl := List.mem_singleton.mp hnew
      exact Or.inr ⟨rfl, rfl⟩
  have hwaits : ∀ row : Row, row.Filled → row.columns ≠ none := by
    intro row hfilled hnone
    cases hfilled.symm.trans hnone
  refine ⟨⟨?_, ⟨Nat.succ_pos _, ?_⟩, ?_, ?_⟩, ?_, ?_, ?_, ?_⟩
  · intro row hrow
    rcases hmem row hrow with hold | ⟨-, hfilled⟩
    · exact h.filled row hold
    · exact Or.inr hfilled
  · intro row hrow
    rcases hmem row hrow with hold | ⟨hid, -⟩
    · exact h.positive.2 row hold
    · rw [hid]
      exact h.positive.1
  · intro row hrow
    rcases hmem row hrow with hold | ⟨hid, -⟩
    · exact (h.below row hold).trans (Nat.lt_succ_self _)
    · rw [hid]
      exact Nat.lt_succ_self _
  · refine List.pairwise_append.mpr ⟨h.sorted, List.pairwise_singleton _ _, ?_⟩
    intro a ha b hb
    obtain rfl := List.mem_singleton.mp hb
    exact h.below a ha
  · have hahead := h.ahead
    cases hpass : s.pass with
    | idle => trivial
    | reading lastId =>
        rw [hpass] at hahead
        intro row hrow hnone
        rcases hmem row hrow with hold | ⟨-, hfilled⟩
        · exact hahead row hold hnone
        · exact absurd hnone (hwaits row hfilled)
    | writing lastId batch =>
        rw [hpass] at hahead
        intro row hrow hnone
        rcases hmem row hrow with hold | ⟨-, hfilled⟩
        · exact hahead row hold hnone
        · exact absurd hnone (hwaits row hfilled)
  · have hown := h.own
    cases hpass : s.pass with
    | idle => trivial
    | reading lastId => trivial
    | writing lastId batch =>
        rw [hpass] at hown
        intro e he row hrow hid
        rcases hmem row hrow with hold | ⟨hnext, -⟩
        · exact hown e he row hold hid
        · have hless := h.fresh lastId batch hpass e he
          omega
  · intro lastId batch hpass e he
    exact (h.fresh lastId batch hpass e he).trans (Nat.lt_succ_self _)
  · intro hdone row hrow
    rcases hmem row hrow with hold | ⟨-, hfilled⟩
    · exact h.done hdone row hold
    · exact hwaits row hfilled

theorem Sound.reset (hwhole : Whole s .reset) : Sound { s with rows := [], nextId := 1 } := by
  refine ⟨⟨?_, ⟨Nat.one_pos, ?_⟩, ?_, List.Pairwise.nil⟩, ?_, ?_, ?_, ?_⟩
  · intro row hrow
    cases hrow
  · intro row hrow
    cases hrow
  · intro row hrow
    cases hrow
  · cases hpass : s.pass with
    | idle => trivial
    | reading lastId =>
        intro row hrow
        cases hrow
    | writing lastId batch => exact absurd hpass (hwhole lastId batch)
  · cases hpass : s.pass with
    | idle => trivial
    | reading lastId => trivial
    | writing lastId batch => exact absurd hpass (hwhole lastId batch)
  · intro lastId batch hpass
    exact absurd hpass (hwhole lastId batch)
  · intro _ row hrow
    cases hrow

theorem eq_of_id {rows : List Row} (hsorted : rows.Pairwise fun a b => a.id < b.id) {a b : Row}
    (ha : a ∈ rows) (hb : b ∈ rows) (hid : a.id = b.id) : a = b := by
  have hsame : rows.Pairwise fun a b => a.id = b.id → a = b :=
    hsorted.imp fun hless hid => absurd hid hless.ne
  have hflip : rows.Pairwise (flip fun a b => a.id = b.id → a = b) :=
    hsorted.imp fun hless hid => absurd hid hless.ne'
  exact List.Pairwise.forall_of_forall_of_flip (fun _ _ _ => rfl) hsame hflip ha hb hid

/-- What a batch leaves behind lies after its last row. -/
theorem batch_reaches {rows : List Row} {lastId : ℕ} {last : Row} (n : ℕ)
    (hsorted : rows.Pairwise fun a b => a.id < b.id)
    (hlast : ((rows.filter fun row => lastId < row.id && row.columns.isNone).take n).getLast? =
      some last) {row : Row} (hrow : row ∈ rows) (hid : lastId < row.id) (hnone : row.columns = none) :
    last.id < row.id ∨
      row ∈ (rows.filter fun row => lastId < row.id && row.columns.isNone).take n := by
  have hpending : row ∈ rows.filter fun row => lastId < row.id && row.columns.isNone := by
    refine List.mem_filter.mpr ⟨hrow, ?_⟩
    rw [hnone]
    simpa using hid
  have hpairs := hsorted.filter fun row => decide (lastId < row.id) && row.columns.isNone
  rw [← List.take_append_drop n (rows.filter fun row => lastId < row.id && row.columns.isNone)]
    at hpending hpairs
  rcases List.mem_append.mp hpending with htaken | hdropped
  · exact Or.inr htaken
  · exact Or.inl ((List.pairwise_append.mp hpairs).2.2 last (List.mem_of_getLast? hlast) row hdropped)

theorem Sound.read (h : Sound s) {lastId : ℕ} (hpass : s.pass = .reading lastId) {last : Row}
    (hlast : (s.batchAfter lastId).getLast? = some last) :
    Sound { s with
      pass := .writing last.id ((s.batchAfter lastId).map fun row =>
        (row.id, traceMaterial row.summary row.rawHex)) } := by
  have hahead := h.ahead
  rw [hpass] at hahead
  have hids : ((s.batchAfter lastId).map fun row =>
      (row.id, traceMaterial row.summary row.rawHex)).map Prod.fst =
        (s.batchAfter lastId).map Row.id := List.map_map
  have hmem : ∀ row ∈ s.batchAfter lastId, row ∈ s.rows := by
    intro row hrow
    exact List.mem_of_mem_filter (List.mem_of_mem_take hrow)
  refine ⟨⟨h.filled, h.positive, h.below, h.sorted⟩, ?_, ?_, ?_, h.done⟩
  · intro row hrow hnone
    rw [hids]
    rcases batch_reaches backfillBatch h.sorted hlast hrow (hahead row hrow hnone) hnone with
      hafter | hin
    · exact Or.inl hafter
    · exact Or.inr (List.mem_map_of_mem hin)
  · intro e he row hrow hid
    obtain ⟨own, hown, rfl⟩ := List.mem_map.mp he
    rw [eq_of_id h.sorted hrow (hmem own hown) hid]
  · intro lastId' batch hwriting e he
    cases hwriting
    obtain ⟨own, hown, rfl⟩ := List.mem_map.mp he
    exact h.below own (hmem own hown)

theorem Sound.ended (h : Sound s) {lastId : ℕ} (hpass : s.pass = .reading lastId)
    (hlast : (s.batchAfter lastId).getLast? = none) : Sound { s with pass := .idle, done := true } := by
  have hahead := h.ahead
  rw [hpass] at hahead
  refine ⟨⟨h.filled, h.positive, h.below, h.sorted⟩, trivial, trivial, ?_, ?_⟩
  · intro lastId' batch hwriting
    cases hwriting
  · intro _ row hrow hnone
    have hempty := List.getLast?_eq_none_iff.mp hlast
    rcases List.take_eq_nil_iff.mp hempty with hzero | hnil
    · cases hzero
    · refine List.filter_eq_nil_iff.mp hnil row hrow ?_
      rw [hnone]
      simpa using hahead row hrow hnone

theorem Sound.write (h : Sound s) {lastId : ℕ} {batch : List (ℕ × Columns)}
    (hpass : s.pass = .writing lastId batch) :
    Sound { s with rows := s.rows.map (updated batch), pass := .reading lastId } := by
  have hahead := h.ahead
  have hown := h.own
  rw [hpass] at hahead hown
  have hmem : ∀ row ∈ s.rows.map (updated batch), ∃ old ∈ s.rows, row.id = old.id ∧
      (row.columns = none ∧ old.columns = none ∧ old.id ∉ batch.map Prod.fst ∨ row.Filled) := by
    intro row hrow
    obtain ⟨old, hold, rfl⟩ := List.mem_map.mp hrow
    refine ⟨old, hold, (updated_columns batch old).1, ?_⟩
    exact updated_filled (fun e he hid => hown e he old hold hid) (h.filled old hold)
  refine ⟨⟨?_, ⟨h.positive.1, ?_⟩, ?_, ?_⟩, ?_, trivial, ?_, ?_⟩
  · intro row hrow
    obtain ⟨old, -, -, hcols⟩ := hmem row hrow
    exact hcols.imp_left fun h => h.1
  · intro row hrow
    obtain ⟨old, hold, hid, -⟩ := hmem row hrow
    rw [hid]
    exact h.positive.2 old hold
  · intro row hrow
    obtain ⟨old, hold, hid, -⟩ := hmem row hrow
    rw [hid]
    exact h.below old hold
  · refine List.pairwise_map.mpr (h.sorted.imp ?_)
    intro a b hless
    rw [(updated_columns batch a).1, (updated_columns batch b).1]
    exact hless
  · intro row hrow hnone
    obtain ⟨old, hold, hid, ⟨-, hpending, hnot⟩ | hfilled⟩ := hmem row hrow
    · rw [hid]
      exact (hahead old hold hpending).resolve_right hnot
    · cases hfilled.symm.trans hnone
  · intro lastId' batch' hwriting
    cases hwriting
  · intro hdone row hrow hnone
    obtain ⟨old, hold, hid, ⟨-, hpending, -⟩ | hfilled⟩ := hmem row hrow
    · exact h.done hdone old hold hpending
    · cases hfilled.symm.trans hnone

theorem Sound.start (h : Sound s) : Sound { s with pass := .reading 0, done := false } := by
  refine ⟨⟨h.filled, h.positive, h.below, h.sorted⟩, ?_, trivial, ?_, ?_⟩
  · intro row hrow _
    exact h.positive.2 row hrow
  · intro lastId batch hwriting
    cases hwriting
  · intro hdone
    cases hdone

/-- What an event does to the table and the pass. -/
inductive Moved (s : TraceStore) : StoreEvent → TraceStore → Prop
  | append (logTime rawHex : String) (summary : Dict String String) (nid : Option ℕ) :
      Moved s (.append logTime rawHex summary nid) { s with
        rows := s.rows ++
          [⟨s.nextId, logTime, rawHex, summary, nid, some (traceMaterial summary rawHex)⟩]
        nextId := s.nextId + 1 }
  | reset : Moved s .reset { s with rows := [], nextId := 1 }
  | start : s.pass = .idle → Moved s .start { s with pass := .reading 0, done := false }
  | read {lastId : ℕ} {last : Row} : s.pass = .reading lastId →
      (s.batchAfter lastId).getLast? = some last → Moved s .read { s with
        pass := .writing last.id ((s.batchAfter lastId).map fun row =>
          (row.id, traceMaterial row.summary row.rawHex)) }
  | ended {lastId : ℕ} : s.pass = .reading lastId → (s.batchAfter lastId).getLast? = none →
      Moved s .read { s with pass := .idle, done := true }
  | write {lastId : ℕ} {batch : List (ℕ × Columns)} : s.pass = .writing lastId batch →
      Moved s .write { s with rows := s.rows.map (updated batch), pass := .reading lastId }

theorem moved_of_step {e : StoreEvent} (h : traceStore.step s e = some s') : Moved s e s' := by
  cases e with
  | append logTime rawHex summary nid => exact Option.some.inj h ▸ .append logTime rawHex summary nid
  | reset => exact Option.some.inj h ▸ .reset
  | start =>
      cases hpass : s.pass with
      | idle =>
          simp only [traceStore, storeStep, hpass, Option.some.injEq] at h
          exact h ▸ .start hpass
      | reading lastId => simp [traceStore, storeStep, hpass] at h
      | writing lastId batch => simp [traceStore, storeStep, hpass] at h
  | read =>
      cases hpass : s.pass with
      | idle => simp [traceStore, storeStep, hpass] at h
      | reading lastId =>
          cases hlast : (s.batchAfter lastId).getLast? with
          | none =>
              simp only [traceStore, storeStep, hpass, hlast, Option.some.injEq] at h
              exact h ▸ .ended hpass hlast
          | some last =>
              simp only [traceStore, storeStep, hpass, hlast, Option.some.injEq] at h
              exact h ▸ .read hpass hlast
      | writing lastId batch => simp [traceStore, storeStep, hpass] at h
  | write =>
      cases hpass : s.pass with
      | idle => simp [traceStore, storeStep, hpass] at h
      | reading lastId => simp [traceStore, storeStep, hpass] at h
      | writing lastId batch =>
          simp only [traceStore, storeStep, hpass, Option.some.injEq] at h
          exact h ▸ .write hpass

theorem Sound.step {e : StoreEvent} (h : Sound s) (hwhole : Whole s e)
    (hstep : traceStore.step s e = some s') : Sound s' := by
  cases moved_of_step hstep with
  | append logTime rawHex summary nid => exact h.append logTime rawHex summary nid
  | reset => exact Sound.reset hwhole
  | start hpass => exact h.start
  | read hpass hlast => exact h.read hpass hlast
  | ended hpass hlast => exact h.ended hpass hlast
  | write hpass => exact h.write hpass

theorem Table.sound (h : Table s) (hidle : s.pass = .idle) (hdone : s.done = false) : Sound s := by
  refine ⟨h, ?_, ?_, ?_, ?_⟩
  · rw [hidle]
    trivial
  · rw [hidle]
    trivial
  · intro lastId batch hwriting
    cases hidle.symm.trans hwriting
  · intro htrue
    cases hdone.symm.trans htrue

theorem sound_run {events : List StoreEvent} (htable : Table s) (hidle : s.pass = .idle)
    (hdone : s.done = false) (hfollows : traceStore.Follows Whole s events)
    (h : traceStore.run s events = some s') : Sound s' :=
  Machine.run_invariant Sound (fun _ _ _ hs hwhole hstep => hs.step hwhole hstep)
    (htable.sound hidle hdone) hfollows h

/-- Whatever is appended while the worker runs, a row waits or holds what its own frame says, and none
waits when a pass is over. -/
theorem columns_own {events : List StoreEvent} (htable : Table s) (hidle : s.pass = .idle)
    (hdone : s.done = false) (hfollows : traceStore.Follows Whole s events)
    (h : traceStore.run s events = some s') :
    (∀ row ∈ s'.rows, row.columns = none ∨
      row.columns = some (traceMaterial row.summary row.rawHex)) ∧
      (s'.done = true → ∀ row ∈ s'.rows,
        row.columns = some (traceMaterial row.summary row.rawHex)) := by
  have hsound := sound_run htable hidle hdone hfollows h
  refine ⟨hsound.filled, ?_⟩
  intro hover row hrow
  exact (hsound.filled row hrow).resolve_left (hsound.done hover row hrow)

/-- A row of an older database. -/
def oldRow : Row :=
  let summary := ((Dict.empty.set "SRC" "001").set "APP_ID" "0008").set "APP_RAW"
    "00000000000000000700010000000000"
  ⟨1, "", "", summary, none, none⟩

/-- A database of one such row. -/
def oldStore : TraceStore := ⟨[oldRow], 2, .idle, false⟩

theorem oldStore_table : Table oldStore := by
  refine ⟨?_, ⟨Nat.succ_pos 1, ?_⟩, ?_, List.pairwise_singleton _ _⟩
  · intro row hrow
    obtain rfl := List.mem_singleton.mp hrow
    exact Or.inl rfl
  · intro row hrow
    obtain rfl := List.mem_singleton.mp hrow
    exact Nat.one_pos
  · intro row hrow
    obtain rfl := List.mem_singleton.mp hrow
    exact Nat.one_lt_two

/-- A pass over it while a frame is stored. -/
def onePass : List StoreEvent := [.start, .read, .append "" "" .empty none, .write, .read]

def passedStore : TraceStore :=
  ⟨[{ oldRow with columns := some (traceMaterial oldRow.summary "") },
    ⟨2, "", "", .empty, none, some (traceMaterial .empty "")⟩], 3, .idle, true⟩

theorem onePass_whole (t : TraceStore) : traceStore.Follows Whole t onePass := by
  refine Machine.follows_of_forall ?_
  intro e he t'
  simp only [onePass, List.mem_cons, List.not_mem_nil, or_false] at he
  rcases he with rfl | rfl | rfl | rfl | rfl <;> trivial

theorem run_onePass (summary : Dict String String) :
    traceStore.run ⟨[⟨1, "", "", summary, none, none⟩], 2, .idle, false⟩ onePass =
      some ⟨[⟨1, "", "", summary, none, some (traceMaterial summary "")⟩,
        ⟨2, "", "", .empty, none, some (traceMaterial .empty "")⟩], 3, .idle, true⟩ := rfl

theorem onePass_run : traceStore.run oldStore onePass = some passedStore := run_onePass oldRow.summary

theorem columns_own_pass :
    (∀ row ∈ passedStore.rows, row.columns = none ∨
      row.columns = some (traceMaterial row.summary row.rawHex)) ∧
      (passedStore.done = true → ∀ row ∈ passedStore.rows,
        row.columns = some (traceMaterial row.summary row.rawHex)) :=
  columns_own oldStore_table rfl rfl (onePass_whole oldStore) onePass_run

-- dropping the tables while a batch is held gives the next frame the columns of the old row
example : (traceStore.run ⟨[⟨1, "", "", Dict.empty.set "SRC" "001", none, none⟩], 2, .idle, false⟩
    [.start, .read, .reset, .append "" "" .empty none, .write]).map
      (fun s => s.rows.map fun row => row.column Columns.flowDir) = some [some 0] := rfl

/-! ## The work of the worker -/

/-- A step of the pass itself. -/
def StoreEvent.isWork : StoreEvent → Bool
  | .read => true
  | .write => true
  | _ => false

def StoreEvent.isStart : StoreEvent → Bool
  | .start => true
  | _ => false

/-- The rows that wait. -/
def TraceStore.waiting (s : TraceStore) : ℕ := s.rows.countP fun row => row.columns.isNone

/-- The steps that a pass still takes at most, over a table with so many waiting rows. -/
def Pass.left (waiting : ℕ) : Pass → ℕ
  | .idle => 0
  | .reading _ => 2 * waiting + 1
  | .writing _ _ => 2 * waiting

/-- A batch that is held has a row that waits. -/
def Held (s : TraceStore) : Prop :=
  ∀ lastId batch, s.pass = .writing lastId batch →
    ∃ row ∈ s.rows, row.columns = none ∧ row.id ∈ batch.map Prod.fst

theorem Held.step {e : StoreEvent} (h : Held s) (hwhole : Whole s e)
    (hstep : traceStore.step s e = some s') : Held s' := by
  intro lastId' batch' hwriting
  cases moved_of_step hstep with
  | append logTime rawHex summary nid =>
      obtain ⟨row, hrow, hpending⟩ := h lastId' batch' hwriting
      exact ⟨row, List.mem_append_left _ hrow, hpending⟩
  | reset => exact absurd hwriting (hwhole lastId' batch')
  | start hpass => cases hwriting
  | read hpass hlast =>
      cases hwriting
      have hmem := List.mem_of_getLast? hlast
      have hpending := List.mem_filter.mp (List.mem_of_mem_take hmem)
      have hnone := (Bool.and_eq_true_iff.mp hpending.2).2
      refine ⟨_, hpending.1, Option.isNone_iff_eq_none.mp hnone, ?_⟩
      rw [List.map_map]
      exact List.mem_map_of_mem hmem
  | ended hpass hlast => cases hwriting
  | write hpass => cases hwriting

/-- Writing leaves no row waiting that did not wait, and not the rows of its batch. -/
theorem waiting_written {rows : List Row} {batch : List (ℕ × Columns)} {row : Row}
    (hrow : row ∈ rows) (hnone : row.columns = none) (hin : row.id ∈ batch.map Prod.fst) :
    (rows.map (updated batch)).countP (fun row => row.columns.isNone) + 1 ≤
      rows.countP fun row => row.columns.isNone := by
  have hkept : ∀ row : Row, (updated batch row).columns.isNone = true → row.columns.isNone = true := by
    intro row hpending
    obtain ⟨-, -, -, ⟨hkept, -⟩ | ⟨e, -, -, hcols⟩⟩ := updated_columns batch row
    · rw [hkept] at hpending
      exact hpending
    · rw [hcols] at hpending
      cases hpending
  have hwritten : (updated batch row).columns.isNone = false := by
    obtain ⟨-, -, -, ⟨-, hnot⟩ | ⟨e, -, -, hcols⟩⟩ := updated_columns batch row
    · exact absurd hin hnot
    · rw [hcols]
      rfl
  obtain ⟨before, after, rfl⟩ := List.append_of_mem hrow
  rw [List.countP_map, List.countP_append, List.countP_append, List.countP_cons, List.countP_cons]
  have hfront := List.countP_mono_left (l := before) fun row _ => hkept row
  have hback := List.countP_mono_left (l := after) fun row _ => hkept row
  simp only [Function.comp_def, hwritten, hnone, Option.isNone_none, if_true, Bool.false_eq_true,
    if_false]
  omega

/-- A step of the worker takes from what is left, and only a start gives to it. -/
theorem left_step {e : StoreEvent} (hheld : Held s) (hwhole : Whole s e)
    (hstep : traceStore.step s e = some s') :
    s'.waiting ≤ s.waiting ∧ s'.pass.left s'.waiting + e.isWork.toNat ≤
      s.pass.left s.waiting + e.isStart.toNat * (2 * s.waiting + 1) := by
  cases moved_of_step hstep with
  | append logTime rawHex summary nid =>
      have hsame : TraceStore.waiting { s with
          rows := s.rows ++
            [⟨s.nextId, logTime, rawHex, summary, nid, some (traceMaterial summary rawHex)⟩]
          nextId := s.nextId + 1 } = s.waiting := by
        rw [TraceStore.waiting, List.countP_append]
        rfl
      rw [hsame]
      exact ⟨le_rfl, Nat.le_add_right _ _⟩
  | reset =>
      refine ⟨Nat.zero_le _, ?_⟩
      cases hpass : s.pass with
      | idle => exact Nat.zero_le _
      | reading lastId =>
          have hone : Pass.left (TraceStore.waiting { s with rows := [], nextId := 1 })
              (.reading lastId) + StoreEvent.reset.isWork.toNat = 1 := rfl
          simp only [hpass] at hone ⊢
          rw [hone, Pass.left]
          omega
      | writing lastId batch => exact absurd hpass (hwhole lastId batch)
  | start hpass =>
      refine ⟨le_rfl, ?_⟩
      rw [hpass]
      simp only [TraceStore.waiting, Pass.left, StoreEvent.isWork, StoreEvent.isStart,
        Bool.toNat_true, Bool.toNat_false]
      omega
  | read hpass hlast =>
      refine ⟨le_rfl, ?_⟩
      rw [hpass]
      exact Nat.le_add_right _ _
  | ended hpass hlast =>
      refine ⟨le_rfl, ?_⟩
      rw [hpass]
      simp only [Pass.left, StoreEvent.isWork, StoreEvent.isStart, Bool.toNat_true, Bool.toNat_false]
      omega
  | write hpass =>
      obtain ⟨row, hrow, hnone, hin⟩ := hheld _ _ hpass
      have hless := waiting_written hrow hnone hin
      simp only [TraceStore.waiting, Pass.left, StoreEvent.isWork, StoreEvent.isStart, hpass,
        Bool.toNat_true, Bool.toNat_false]
      omega

/-- The worker takes at most two steps for a row that waits and one more, each time it is started. -/
theorem worker_rests {events : List StoreEvent} (hidle : s.pass = .idle)
    (hfollows : traceStore.Follows Whole s events) (h : traceStore.run s events = some s') :
    events.countP StoreEvent.isWork ≤
      events.countP StoreEvent.isStart * (2 * s.waiting + 1) := by
  have hrun : ∀ t : TraceStore, Held t → t.waiting ≤ s.waiting → traceStore.Follows Whole t events →
      traceStore.run t events = some s' →
        events.countP StoreEvent.isWork ≤
          t.pass.left t.waiting + events.countP StoreEvent.isStart * (2 * s.waiting + 1) := by
    clear hfollows h
    induction events with
    | nil => exact fun t _ _ _ _ => Nat.zero_le _
    | cons e events ih =>
        intro t hheld hfew hfollows ht
        obtain ⟨u, hstep, hrest⟩ := Option.bind_eq_some_iff.mp ht
        obtain ⟨hwait, hleft⟩ := left_step hheld hfollows.1 hstep
        have hmore := ih u (hheld.step hfollows.1 hstep) (hwait.trans hfew) (hfollows.2 u hstep) hrest
        rw [List.countP_cons, List.countP_cons]
        cases e <;>
          simp only [StoreEvent.isWork, StoreEvent.isStart, Bool.toNat_true, Bool.toNat_false,
            if_true, if_false, Bool.false_eq_true, Nat.add_mul] at hleft ⊢ <;>
          omega
  have hheld : Held s := by
    intro lastId batch hwriting
    cases hidle.symm.trans hwriting
  have hcount := hrun s hheld le_rfl hfollows h
  rw [hidle, Pass.left, Nat.zero_add] at hcount
  exact hcount

theorem worker_rests_pass :
    onePass.countP StoreEvent.isWork ≤
      onePass.countP StoreEvent.isStart * (2 * oldStore.waiting + 1) :=
  worker_rests rfl (onePass_whole oldStore) onePass_run

end Passes

end HplcWorkbench.Trace
