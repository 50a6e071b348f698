import HplcWorkbench.StreamEntries

/-!
# What a stream assessment conserves

Each frame is in a network, unassigned or filtered, and in a network with a beacon period each frame
with a readable clock lies in exactly one cycle. A row that supplements no network makes an
accumulator of its own, which cannot be sorted among those of the networks.
-/

namespace HplcWorkbench.ListenerLog

open OrderedDict PeriodCells

/-- All frames are accounted for, and the cycles of a network are tiles of its period. -/
structure Conserved (nidFilter : Option ℕ) (items : List FrameItem) (a : StreamAssessment) : Prop where
  total : a.frameTotal = (a.networks.map NetworkEntry.frameCount).sum + a.unassignedFrameCount +
    a.filteredFrameCount
  tiles : ∀ n ∈ a.networks, ∀ p, n.scan.beaconPeriodMs = some p →
    Tiles p Cycle.periodStart Cycle.periodEnd Cycle.frameCount
      ((timedFrames nidFilter items n.nid).map Nat.cast) n.cycles

/-- All rows that reach an accumulator name a network, or none of them does. -/
def Sortable (nidFilter : Option ℕ) (items : List FrameItem) : Prop :=
  (∀ item ∈ items, item.reaches nidFilter → item.nid ≠ none) ∨
    ∀ item ∈ items, item.reaches nidFilter → item.nid = none

section Entry
variable {confidence : List ℕ → ℕ → ℕ} {records : List AssessmentRecord} {duration nidFilter : Option ℕ}
  {items : List FrameItem}

theorem scan_pos {acc : NetworkAccumulator} {p : ℕ}
    (h : (acc.scan (networkRating confidence)).beaconPeriodMs = some p) : 0 < p :=
  (scan_period (fun _ _ _ heq => estimatePeriod_range heq) h).1

theorem RatingInput.cycles_eq {input : RatingInput} {p : ℕ} (h : input.beaconPeriodMs = some p)
    (hp : 0 < p) :
    input.cycles = buildCycles input.stability.level input.csma.level input.routeChannel.level
      input.buckets p := by
  rw [cycles, h]
  exact if_neg hp.ne'

theorem exists_map_of_rated {input : RatingInput} {cycles : List Cycle} (h : input.Rated cycles) :
    ∃ f : Cycle → Cycle, cycles = input.cycles.map f ∧ ∀ c : Cycle, c.Agrees (f c) := by
  by_cases hbare : input.records = [] ∨ input.cycles = []
  · exact ⟨id, by rw [h.bare hbare, List.map_id], fun _ => ⟨rfl, rfl, rfl, rfl⟩⟩
  · rw [not_or] at hbare
    obtain ⟨extra, -, hcycles⟩ := h.reported hbare.1 hbare.2
    exact ⟨Cycle.supplement extra, hcycles, supplement_agrees extra⟩

/-- The cycles of an entry are tiles of its period. -/
theorem EntryOf.tiles {e : Option ℕ × NetworkAccumulator} {n : NetworkEntry} {p : ℕ}
    (h : EntryOf confidence records duration e n)
    (he : e ∈ (collectFrames confidence nidFilter items).accs.entries)
    (hp : n.scan.beaconPeriodMs = some p) :
    Tiles p Cycle.periodStart Cycle.periodEnd Cycle.frameCount
      ((timedFrames nidFilter items n.nid).map Nat.cast) n.cycles := by
  rw [h.scan] at hp
  have hpos : 0 < p := scan_pos hp
  have htimes : e.2.timeline.map Prod.fst = timedFrames nidFilter items e.1 :=
    map_fst_timeline ((Dict.get?_eq_some_iff _ _ _).mpr he)
  have hbuckets : (ratingInput confidence records duration e.1 e.2).buckets = e.2.bucketCounters p := by
    simp only [ratingInput, hp]
  obtain ⟨f, hcycles, hagrees⟩ := exists_map_of_rated h.cycles
  rw [RatingInput.cycles_eq (p := p) hp hpos, hbuckets, buildCycles, List.map_map] at hcycles
  rw [h.nid, ← htimes, hcycles]
  apply tiles_of_starts (Int.natCast_pos.mpr hpos)
  · rw [List.forall_mem_map]
    intro bucket _
    rw [Function.comp_apply, (hagrees _).periodEnd, (hagrees _).periodStart]
    rfl
  · rw [List.pairwise_map]
    apply (Dict.pairwise_sorted (e.2.bucketCounters p)).imp
    intro b c hlt
    rw [Function.comp_apply, Function.comp_apply, (hagrees _).periodStart, (hagrees _).periodStart]
    exact hlt
  · rw [List.forall_mem_map]
    intro bucket hbucket
    rw [Function.comp_apply, (hagrees _).periodStart]
    obtain ⟨entry, -, hstart⟩ := (mem_bucketCounters e.2 bucket.1).mp
      (List.mem_map_of_mem (mem_inOrder.mp hbucket))
    dsimp only [buildCycle]
    rw [hstart, bucketStart_eq]
    exact dvd_start p entry.1
  · rw [List.forall_mem_map, List.forall_mem_map]
    intro entry hentry
    obtain ⟨bucket, hbucket, hkey⟩ := List.mem_map.mp
      ((mem_bucketCounters e.2 (bucketStart p entry.1)).mpr ⟨entry, hentry, rfl⟩)
    refine ⟨_, List.mem_map_of_mem (mem_inOrder.mpr hbucket), ?_⟩
    rw [Function.comp_apply, (hagrees _).periodStart, ← bucketStart_eq, ← hkey]
    rfl
  · rw [List.forall_mem_map]
    intro bucket hbucket
    rw [Function.comp_apply, (hagrees _).frameCount, (hagrees _).periodStart]
    dsimp only [buildCycle]
    rw [totalCount_bucket (mem_inOrder.mp hbucket), List.countP_map (f := Nat.cast)]
    apply List.countP_congr
    intro ms _
    rw [Function.comp_apply, bucketStart_eq]
    exact Iff.rfl

variable (records duration) in
/-- A network has cycles where it has a period and a frame with a readable clock. -/
theorem cycles_ne_nil_iff (nid : Option ℕ) (acc : NetworkAccumulator) :
    (ratingInput confidence records duration nid acc).cycles ≠ [] ↔
      (acc.scan (networkRating confidence)).beaconPeriodMs ≠ none ∧ acc.timeline ≠ [] := by
  cases hp : (acc.scan (networkRating confidence)).beaconPeriodMs with
  | none =>
    have hnone : (ratingInput confidence records duration nid acc).cycles = [] := by
      simp only [RatingInput.cycles, ratingInput, hp]
    simp [hnone]
  | some p =>
    have hbuckets : (ratingInput confidence records duration nid acc).buckets = acc.bucketCounters p := by
      simp only [ratingInput, hp]
    rw [RatingInput.cycles_eq (p := p) hp (scan_pos hp), hbuckets, buildCycles, and_iff_right
      (Option.some_ne_none p), Ne, List.map_eq_nil_iff, not_iff_not, List.eq_nil_iff_forall_not_mem,
      List.eq_nil_iff_forall_not_mem]
    constructor
    · intro hempty entry hentry
      obtain ⟨bucket, hbucket, -⟩ := List.mem_map.mp
        ((mem_bucketCounters acc (bucketStart p entry.1)).mpr ⟨entry, hentry, rfl⟩)
      exact hempty bucket (mem_inOrder.mpr hbucket)
    · intro hempty bucket hbucket
      obtain ⟨entry, hentry, -⟩ := (mem_bucketCounters acc bucket.1).mp
        (List.mem_map_of_mem (mem_inOrder.mp hbucket))
      exact hempty entry hentry

end Entry

section Conservation
variable (confidence : List ℕ → ℕ → ℕ) (records : List AssessmentRecord) (duration nidFilter : Option ℕ)
  (items : List FrameItem)

/-- The reports of each network that has a period and a frame with a readable clock can be added. -/
def Reportable : Prop :=
  ∀ nid acc, (collectFrames confidence nidFilter items).accs.get? (some nid) = some acc →
    (acc.scan (networkRating confidence)).beaconPeriodMs ≠ none →
      timedFrames nidFilter items (some nid) ≠ [] → ∀ r ∈ records, r.nid = some nid → r.Countable

theorem addable_iff :
    (∀ e ∈ (collectFrames confidence nidFilter items).accs.entries, Addable confidence records duration e) ↔
      Reportable confidence records nidFilter items := by
  have htimes : ∀ nid acc, (collectFrames confidence nidFilter items).accs.get? nid = some acc →
      (acc.timeline ≠ [] ↔ timedFrames nidFilter items nid ≠ []) := by
    intro nid acc hget
    rw [← map_fst_timeline hget, Ne, Ne, List.map_eq_nil_iff]
  constructor
  · intro h nid acc hget hperiod htimed r hr hnid
    have hcycles := (cycles_ne_nil_iff records duration (some nid) acc).mpr
      ⟨hperiod, (htimes _ acc hget).mpr htimed⟩
    apply h (some nid, acc) ((Dict.get?_eq_some_iff _ _ _).mp hget) hcycles r
    exact List.mem_filter.mpr ⟨hr, decide_eq_true ⟨hnid ▸ Option.some_ne_none nid, hnid⟩⟩
  · rintro h ⟨nid, acc⟩ he hcycles r hr
    obtain ⟨hperiod, htimeline⟩ := (cycles_ne_nil_iff records duration nid acc).mp hcycles
    have hget := (Dict.get?_eq_some_iff _ _ _).mpr he
    obtain ⟨hmem, hgroup⟩ := List.mem_filter.mp hr
    rw [decide_eq_true_eq] at hgroup
    obtain ⟨x, hx⟩ := Option.ne_none_iff_exists'.mp hgroup.1
    obtain rfl : nid = some x := hgroup.2.symm.trans hx
    exact h x acc hget hperiod ((htimes _ acc hget).mp htimeline) r hmem hx

theorem sortable_iff :
    ((collectFrames confidence nidFilter items).accs.entries.length ≤ 1 ∨
      ∀ e ∈ (collectFrames confidence nidFilter items).accs.entries, e.1 ≠ none) ↔
        Sortable nidFilter items := by
  set accs := (collectFrames confidence nidFilter items).accs with haccs
  have hkey : ∀ nid, nid ∈ accs.entries.map Prod.fst ↔
      ∃ item ∈ items, item.reaches nidFilter ∧ item.nid = nid := fun nid => mem_keys_collectFrames
  have hnamed : (∀ e ∈ accs.entries, e.1 ≠ none) ↔
      ∀ item ∈ items, item.reaches nidFilter → item.nid ≠ none := by
    rw [← List.forall_mem_map (P := (· ≠ none))]
    constructor
    · intro h item hitem hreach
      exact h _ ((hkey item.nid).mpr ⟨item, hitem, hreach, rfl⟩)
    · intro h nid hnid
      obtain ⟨item, hitem, hreach, rfl⟩ := (hkey nid).mp hnid
      exact h item hitem hreach
  rw [hnamed, Sortable]
  constructor
  · rintro (hlen | hall)
    · cases hentries : accs.entries with
      | nil =>
        refine .inl fun item hitem hreach => ?_
        have hmem := (hkey item.nid).mpr ⟨item, hitem, hreach, rfl⟩
        rw [hentries] at hmem
        cases hmem
      | cons e rest =>
        rw [hentries, List.length_cons] at hlen
        obtain rfl : rest = [] := List.length_eq_zero_iff.mp (by omega)
        have hsame : ∀ item ∈ items, item.reaches nidFilter → item.nid = e.1 := by
          intro item hitem hreach
          have hmem := (hkey item.nid).mpr ⟨item, hitem, hreach, rfl⟩
          rw [hentries] at hmem
          exact List.mem_singleton.mp hmem
        by_cases he : e.1 = none
        · exact .inr fun item hitem hreach => (hsame item hitem hreach).trans he
        · exact .inl fun item hitem hreach => (hsame item hitem hreach).symm ▸ he
    · exact .inl hall
  · rintro (hall | hnone)
    · exact .inr hall
    · refine .inl ?_
      rw [← List.length_map Prod.fst]
      have hsub : accs.entries.map Prod.fst ⊆ [none] := by
        intro nid hnid
        obtain ⟨item, hitem, hreach, rfl⟩ := (hkey nid).mp hnid
        rw [hnone item hitem hreach]
        exact List.mem_singleton_self none
      exact (accs.nodup.subperm hsub).length_le

/-- The assessment is returned exactly when its rows can be sorted and its reports added, and then it
conserves frames and times. -/
theorem returns_assessFrameStream :
    ExactOutcomes.Returns (assessFrameStream confidence records duration nidFilter items none none)
      (Sortable nidFilter items ∧ Reportable confidence records nidFilter items)
      (Conserved nidFilter items) := by
  have hreturns := returns_finalizeStream confidence records duration
    (collectFrames confidence nidFilter items) none none
  rw [addable_iff, sortable_iff, and_comm] at hreturns
  apply hreturns.weaken
  intro a hassembled
  obtain ⟨entries, hentries, hperm⟩ := hassembled.networks
  refine ⟨?_, ?_⟩
  · have hcounted := foldl_frameItem_counted (networkRating confidence) nidFilter items {}
    rw [(hperm.map NetworkEntry.frameCount).sum_eq, sum_frameCount _ _ _ hentries, sum_frameCounts,
      hassembled.frameTotal, hassembled.unassigned, hassembled.filtered, Option.getD_none, Option.getD_none,
      collectFrames]
    dsimp only at hcounted
    omega
  · intro n hn p hp
    obtain ⟨e, he, hentry⟩ := ExactOutcomes.exists_of_mem_forall₂ hentries (hperm.mem_iff.mp hn)
    exact hentry.tiles he hp

theorem assessment_conserved_iff :
    (∃ a, assessFrameStream confidence records duration nidFilter items none none = .ok a ∧
      Conserved nidFilter items a) ↔
        Sortable nidFilter items ∧ Reportable confidence records nidFilter items := by
  have h := returns_assessFrameStream confidence records duration nidFilter items
  constructor
  · rintro ⟨a, ha, -⟩
    exact (h.exact a ha).1
  · intro hpre
    obtain ⟨a, ha⟩ := h.ok hpre
    exact ⟨a, ha, (h.exact a ha).2⟩

end Conservation

/-- A frame of a network and a detail text without one. -/
def strayDetail : List FrameItem :=
  [{ logTime := "08:00:00.000", rawHex := "", summary := none, column := some 1, frmType := some "ACK" },
    { logTime := "08:00:01.000", rawHex := "", summary := some [("Detail", .str "路由评估剩余时间:50s")],
      detailOnly := true }]

theorem not_sortable_strayDetail : ¬ Sortable none strayDetail := by
  rintro (hall | hnone)
  · exact hall _ (List.mem_cons_of_mem _ List.mem_cons_self) (by decide) (by decide)
  · exact absurd (hnone _ List.mem_cons_self (by decide)) (by decide)

theorem strayDetail_not_conserved :
    ¬ ∃ a, assessFrameStream (fun _ _ => 0) [] none none strayDetail none none = .ok a ∧
      Conserved none strayDetail a := by
  rintro ⟨a, ha, -⟩
  have h := returns_assessFrameStream (fun _ _ => 0) [] none none strayDetail
  exact not_sortable_strayDetail (h.exact a ha).1.1

end HplcWorkbench.ListenerLog
