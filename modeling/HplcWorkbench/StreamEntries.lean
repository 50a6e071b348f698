import HplcWorkbench.ExactOutcomes
import HplcWorkbench.FrameStamps

/-!
# The entries of a stream assessment

An entry is made unless the reports of a network with cycles carry a number that cannot be added, and
the reports change nothing in a cycle but its rates. The entries are sorted unless one of them stands
for no network among others.
-/

namespace HplcWorkbench.ListenerLog

open ExactOutcomes OrderedDict

/-- The number of reports of a record can be added. -/
def AssessmentRecord.Countable (r : AssessmentRecord) : Prop :=
  match r.reportCount with
  | .str s => s = ""
  | .list items => items = []
  | .dict entries => entries = []
  | _ => True

/-- The cycle is the same but for the rates of the reports. -/
structure Cycle.Agrees (c c' : Cycle) : Prop where
  periodStart : c'.periodStart = c.periodStart
  periodEnd : c'.periodEnd = c.periodEnd
  frameCount : c'.frameCount = c.frameCount
  level : c'.level = c.level

/-! ## Reports -/

section Reports
variable (active : List String) (stability slot routeChannel : Option Level) {p : ℕ}

theorem returns_reportNumber (r : AssessmentRecord) :
    Returns (reportNumber r.reportCount) r.Countable fun _ => True := by
  unfold AssessmentRecord.Countable reportNumber
  cases r.reportCount with
  | none | bool | int | scaled => exact returns_pure trivial
  | str s =>
    dsimp only
    split
    case isTrue h => exact (returns_pure trivial).congr (iff_of_true trivial h)
    case isFalse h => exact (returns_error _).congr (iff_of_false id h)
  | list items =>
    dsimp only
    split
    case isTrue h => exact (returns_pure trivial).congr (iff_of_true trivial h)
    case isFalse h => exact (returns_error _).congr (iff_of_false id h)
  | dict entries =>
    dsimp only
    split
    case isTrue h => exact (returns_pure trivial).congr (iff_of_true trivial h)
    case isFalse h => exact (returns_error _).congr (iff_of_false id h)

/-- The rates of the reports in a period. -/
structure ReportPeriod.Of (active : List String) (bucket : ℤ × List AssessmentRecord)
    (e : ReportPeriod) : Prop where
  periodStart : e.periodStart = bucket.1
  successRate : e.successRate =
    (percent (bucket.2.countP AssessmentRecord.isSuccess) bucket.2.length).map round2
  offlineRate : e.offlineRate =
    (percent (offlineStations active bucket.2).length active.length).map round2

theorem returns_reportPeriod (bucket : ℤ × List AssessmentRecord) :
    Returns (reportPeriod active stability slot routeChannel p bucket) (∀ r ∈ bucket.2, r.Countable)
      (ReportPeriod.Of active bucket) :=
  (returns_mapM returns_reportNumber bucket.2).bind_total fun _ _ => returns_pure ⟨rfl, rfl, rfl⟩

theorem mem_inOrder {α : Type} {buckets : Dict ℤ α} {e : ℤ × α} :
    e ∈ inOrder buckets ↔ e ∈ buckets.entries :=
  (List.perm_insertionSort _ _).mem_iff

/-- The reports by their periods. -/
def reportBuckets (p : ℕ) (records : List AssessmentRecord) : Dict ℤ (List AssessmentRecord) :=
  KeyedFolds.collect (AssessmentRecord.periodStart p) (fun rows row => rows.getD [] ++ [row]) records

theorem get?_reportBuckets {records rows : List AssessmentRecord} {start : ℤ}
    (h : (reportBuckets p records).get? start = some rows) :
    rows = records.filter fun r => r.periodStart p = start := by
  rw [KeyedFolds.get?_groups h, List.map_id']
  rfl

theorem returns_assessPeriods (hp : p ≠ 0) (records : List AssessmentRecord) :
    Returns (assessPeriods active stability slot routeChannel records p)
      (∀ r ∈ records, r.Countable)
      (List.Forall₂ (ReportPeriod.Of active) (inOrder (reportBuckets p records))) := by
  rw [assessPeriods, if_neg hp]
  apply (returns_mapM (returns_reportPeriod active stability slot routeChannel) _).congr
  constructor
  · intro h r hr
    obtain ⟨e, he, hkey⟩ := List.mem_map.mp
      (KeyedFolds.mem_keys_collect.mpr ⟨r, hr, rfl⟩ : r.periodStart p ∈
        (reportBuckets p records).entries.map Prod.fst)
    apply h e (mem_inOrder.mpr he)
    rw [get?_reportBuckets ((Dict.get?_eq_some_iff _ _ _).mpr he), List.mem_filter]
    exact ⟨hr, decide_eq_true hkey.symm⟩
  · intro h e he r hr
    rw [get?_reportBuckets ((Dict.get?_eq_some_iff _ _ _).mpr (mem_inOrder.mp he))] at hr
    exact h r (List.mem_of_mem_filter hr)

/-- What `assess_periods` raises for a period is no `ValueError`. -/
theorem assessPeriods_error (hp : p ≠ 0) {records : List AssessmentRecord} {message : String} :
    assessPeriods active stability slot routeChannel records p ≠ .error (.valueError message) := by
  rw [assessPeriods, if_neg hp]
  intro h
  obtain ⟨bucket, -, hbucket⟩ := exists_of_mapM_error h
  rw [reportPeriod] at hbucket
  cases hnumbers : bucket.2.mapM fun row => reportNumber row.reportCount with
  | ok numbers =>
    rw [hnumbers] at hbucket
    cases hbucket
  | error e =>
    rw [hnumbers] at hbucket
    cases hbucket
    obtain ⟨row, -, hrow⟩ := exists_of_mapM_error hnumbers
    unfold reportNumber at hrow
    split at hrow
    case h_5 | h_6 | h_7 => split at hrow <;> cases hrow
    all_goals cases hrow

end Reports

/-! ## Cycles -/

section Cycles
variable (input : RatingInput)

theorem supplement_agrees (extra : List ReportPeriod) (c : Cycle) : c.Agrees (c.supplement extra) := by
  rw [Cycle.supplement]
  split <;> exact ⟨rfl, rfl, rfl, rfl⟩

/-- The cycles of a network are those of its buckets, with the rates of the reports. -/
structure RatingInput.Rated (cycles : List Cycle) : Prop where
  bare : input.records = [] ∨ input.cycles = [] → cycles = input.cycles
  reported : input.records ≠ [] → input.cycles ≠ [] → ∃ extra, input.reports = .ok extra ∧
    cycles = input.cycles.map (Cycle.supplement extra)

theorem RatingInput.cycles_eq_nil (h : input.beaconPeriodMs.getD 0 = 0) : input.cycles = [] := by
  rw [cycles]
  cases hp : input.beaconPeriodMs with
  | none => rfl
  | some p =>
    rw [hp, Option.getD_some] at h
    exact if_pos h

theorem RatingInput.returns_ratedCycles :
    Returns input.ratedCycles (input.cycles ≠ [] → ∀ r ∈ input.records, r.Countable) input.Rated := by
  rw [ratedCycles]
  by_cases h : input.records = [] ∨ input.cycles = []
  · rw [if_pos h]
    refine (returns_pure ⟨fun _ => rfl, fun hr hc => absurd h (not_or.mpr ⟨hr, hc⟩)⟩).congr ?_
    refine iff_of_true trivial fun hc r hr => ?_
    exact absurd (h.resolve_right hc) (List.ne_nil_of_mem hr)
  · rw [if_neg h]
    have hcycles : input.cycles ≠ [] := (not_or.mp h).2
    have hp : input.beaconPeriodMs.getD 0 ≠ 0 := fun h0 => hcycles (input.cycles_eq_nil h0)
    have hreports := returns_assessPeriods (activeStations input.records) input.stability.level
      input.slot.level input.routeChannel.level hp input.records
    rw [← reports] at hreports
    cases hr : input.reports with
    | ok extra =>
      refine (returns_pure ⟨fun hnil => absurd hnil h, fun _ _ => ⟨extra, hr, rfl⟩⟩).congr ?_
      exact iff_of_true trivial fun _ => (hreports.exact extra hr).1
    | error e =>
      have hraise : ¬ ∀ r ∈ input.records, r.Countable := by
        intro hall
        obtain ⟨v, hv⟩ := hreports.ok hall
        rw [hr] at hv
        cases hv
      have hno : ∀ message, e ≠ .valueError message := by
        rintro message rfl
        exact assessPeriods_error _ _ _ _ hp hr
      cases e
      case valueError message => exact absurd rfl (hno message)
      all_goals exact (returns_error _).congr (iff_of_false id fun hall => hraise (hall hcycles))

end Cycles

/-! ## Order -/

theorem nidLess_ok {a b : Option ℕ} {less : Bool} (h : nidLess a b = .ok less) :
    a ≠ none ∧ b ≠ none := by
  cases a <;> cases b <;> first | exact ⟨Option.some_ne_none _, Option.some_ne_none _⟩ | cases h

theorem perm_of_insertEntry {n : NetworkEntry} {rest sorted : List NetworkEntry}
    (h : insertEntry n rest = .ok sorted) : sorted.Perm (n :: rest) := by
  induction rest generalizing sorted with
  | nil =>
    cases h
    exact List.Perm.refl _
  | cons m rest ih =>
    rw [insertEntry] at h
    obtain ⟨less, hless, h⟩ := bind_eq_ok h
    cases less with
    | false =>
      cases h
      exact List.Perm.refl _
    | true =>
      obtain ⟨tail, htail, h⟩ := bind_eq_ok h
      cases h
      exact ((ih htail).cons m).trans (List.Perm.swap n m rest)

theorem perm_of_sortEntries {entries sorted : List NetworkEntry} (h : sortEntries entries = .ok sorted) :
    sorted.Perm entries := by
  induction entries generalizing sorted with
  | nil =>
    cases h
    exact List.Perm.refl _
  | cons n rest ih =>
    rw [sortEntries] at h
    obtain ⟨tail, htail, h⟩ := bind_eq_ok h
    exact (perm_of_insertEntry h).trans ((ih htail).cons n)

theorem insertEntry_returns {n : NetworkEntry} {rest : List NetworkEntry} (hn : n.nid ≠ none)
    (hrest : ∀ m ∈ rest, m.nid ≠ none) : ∃ sorted, insertEntry n rest = .ok sorted := by
  induction rest with
  | nil => exact ⟨[n], rfl⟩
  | cons m rest ih =>
    rw [List.forall_mem_cons] at hrest
    obtain ⟨a, ha⟩ := Option.ne_none_iff_exists'.mp hrest.1
    obtain ⟨b, hb⟩ := Option.ne_none_iff_exists'.mp hn
    obtain ⟨sorted, hsorted⟩ := ih hrest.2
    rw [insertEntry, ha, hb, nidLess]
    cases hless : decide (a < b) with
    | false => exact ⟨n :: m :: rest, by rw [pure_bind, if_neg Bool.false_ne_true]; rfl⟩
    | true => exact ⟨m :: sorted, by rw [pure_bind, if_pos rfl, hsorted]; rfl⟩

/-- An entry for no network cannot stand beside another one. -/
theorem sortEntries_iff (entries : List NetworkEntry) :
    (∃ sorted, sortEntries entries = .ok sorted) ↔
      entries.length ≤ 1 ∨ ∀ n ∈ entries, n.nid ≠ none := by
  induction entries with
  | nil => exact iff_of_true ⟨[], rfl⟩ (.inl (Nat.zero_le 1))
  | cons n rest ih =>
    constructor
    · rintro ⟨sorted, h⟩
      rw [sortEntries] at h
      obtain ⟨tail, htail, h⟩ := bind_eq_ok h
      have hperm := perm_of_sortEntries htail
      cases tail with
      | nil =>
        rw [hperm.symm.eq_nil]
        exact .inl (Nat.le_refl 1)
      | cons m tail =>
        rw [insertEntry] at h
        obtain ⟨less, hless, -⟩ := bind_eq_ok h
        obtain ⟨hm, hn⟩ := nidLess_ok hless
        refine .inr (List.forall_mem_cons.mpr ⟨hn, ?_⟩)
        obtain hlen | hall := ih.mp ⟨_, htail⟩
        · have hsingle : tail = [] := by
            have := hperm.length_eq
            rw [List.length_cons] at this
            exact List.length_eq_zero_iff.mp (by omega)
          rw [hsingle] at hperm
          intro k hk
          rw [← hperm.mem_iff, List.mem_singleton] at hk
          rw [hk]
          exact hm
        · exact hall
    · intro h
      rw [sortEntries]
      cases rest with
      | nil => exact ⟨[n], rfl⟩
      | cons m rest =>
        have hall : ∀ k ∈ n :: m :: rest, k.nid ≠ none := h.resolve_left (by simp)
        rw [List.forall_mem_cons] at hall
        obtain ⟨tail, htail⟩ := ih.mpr (.inr hall.2)
        have hperm := perm_of_sortEntries htail
        rw [htail]
        exact insertEntry_returns hall.1 fun k hk => hall.2 k (hperm.mem_iff.mp hk)

/-! ## The result -/

section Result
variable (confidence : List ℕ → ℕ → ℕ) (records : List AssessmentRecord) (duration : Option ℕ)

/-- The entry of an accumulator. -/
structure EntryOf (e : Option ℕ × NetworkAccumulator) (n : NetworkEntry) : Prop where
  nid : n.nid = e.1
  scan : n.scan = e.2.scan (networkRating confidence)
  frameCount : n.frameCount = totalCount e.2.frmCounts
  cycles : (ratingInput confidence records duration e.1 e.2).Rated n.cycles
  summary : n.summary =
    let input := ratingInput confidence records duration e.1 e.2
    networkSummary n.cycles input.stability input.slot input.routeChannel input.csma

/-- The reports of a network with cycles can be added. -/
def Addable (e : Option ℕ × NetworkAccumulator) : Prop :=
  let input := ratingInput confidence records duration e.1 e.2
  input.cycles ≠ [] → ∀ r ∈ input.records, r.Countable

theorem returns_finalizeEntry (e : Option ℕ × NetworkAccumulator) :
    Returns (finalizeEntry confidence records duration e) (Addable confidence records duration e)
      (EntryOf confidence records duration e) := by
  rw [finalizeEntry]
  have hverdict : Returns (ratingInput confidence records duration e.1 e.2).verdict
      (Addable confidence records duration e) fun v =>
        let input := ratingInput confidence records duration e.1 e.2
        input.Rated v.cycles ∧
          v.summary = networkSummary v.cycles input.stability input.slot input.routeChannel input.csma := by
    rw [RatingInput.verdict]
    exact (RatingInput.returns_ratedCycles _).bind_total fun cycles h => returns_pure ⟨h, rfl⟩
  apply hverdict.bind_total
  rintro v ⟨hcycles, hsummary⟩
  exact returns_pure ⟨rfl, rfl, rfl, hcycles, hsummary⟩

theorem map_nid {es : List (Option ℕ × NetworkAccumulator)} {ns : List NetworkEntry}
    (h : List.Forall₂ (EntryOf confidence records duration) es ns) :
    ns.map NetworkEntry.nid = es.map Prod.fst := by
  induction h with
  | nil => rfl
  | cons hentry _ ih => rw [List.map_cons, List.map_cons, hentry.nid, ih]

theorem sum_frameCount {es : List (Option ℕ × NetworkAccumulator)} {ns : List NetworkEntry}
    (h : List.Forall₂ (EntryOf confidence records duration) es ns) :
    (ns.map NetworkEntry.frameCount).sum = (es.map fun e => totalCount e.2.frmCounts).sum := by
  induction h with
  | nil => rfl
  | cons hentry _ ih => rw [List.map_cons, List.map_cons, List.sum_cons, List.sum_cons, hentry.frameCount, ih]

/-- A result that is put together from the accumulators. -/
structure AssembledFrom (s : FrameState) (frameTotal unassignedTotal : Option ℕ) (a : StreamAssessment) :
    Prop where
  networks : ∃ entries, List.Forall₂ (EntryOf confidence records duration) s.accs.entries entries ∧
    a.networks.Perm entries
  overallHealth : a.overallHealth = aggregateLevel (a.networks.map fun n => n.summary.overallHealth)
  unassigned : a.unassignedFrameCount = unassignedTotal.getD s.unassigned
  filtered : a.filteredFrameCount = s.filtered
  frameTotal : a.frameTotal = frameTotal.getD s.counted

theorem returns_finalizeStream (s : FrameState) (frameTotal unassignedTotal : Option ℕ) :
    Returns (finalizeStream confidence records duration s frameTotal unassignedTotal)
      ((∀ e ∈ s.accs.entries, Addable confidence records duration e) ∧
        (s.accs.entries.length ≤ 1 ∨ ∀ e ∈ s.accs.entries, e.1 ≠ none))
      (AssembledFrom confidence records duration s frameTotal unassignedTotal) := by
  rw [finalizeStream]
  apply (returns_mapM (returns_finalizeEntry confidence records duration) _).bind
  intro entries hentries
  have hsort : Returns (sortEntries entries)
      (s.accs.entries.length ≤ 1 ∨ ∀ e ∈ s.accs.entries, e.1 ≠ none) (·.Perm entries) := by
    have hsorted : Returns (sortEntries entries)
        (entries.length ≤ 1 ∨ ∀ n ∈ entries, n.nid ≠ none) (·.Perm entries) :=
      ⟨(sortEntries_iff entries).mpr, fun networks h =>
        ⟨(sortEntries_iff entries).mp ⟨networks, h⟩, perm_of_sortEntries h⟩⟩
    have hkeys := List.forall_mem_map (P := (· ≠ none)) (f := NetworkEntry.nid) (l := entries)
    rw [map_nid confidence records duration hentries, List.forall_mem_map] at hkeys
    apply hsorted.congr
    rw [← hentries.length_eq, hkeys]
  apply hsort.bind_total
  intro networks hperm
  exact returns_pure ⟨⟨entries, hentries, hperm⟩, rfl, rfl, rfl, rfl⟩

end Result

end HplcWorkbench.ListenerLog
