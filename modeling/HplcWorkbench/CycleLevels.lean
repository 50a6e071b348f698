import HplcWorkbench.AssessmentConservation
import Mathlib.Order.Bounds.Basic

/-!
# The levels of cycles with reports

The level of a cycle is settled before the rates of its reports are known. It agrees with these rates
where the stability, the density of the frames or the routes of the network are already as bad.
-/

namespace HplcWorkbench.ListenerLog

open ExactOutcomes OrderedDict

/-- The level that the documented thresholds give a cycle with these rates. -/
def documentedLevel (successRate offlineRate : Option ℚ) : Level :=
  if successRate.any (· < 90) || offlineRate.any (10 < ·) then .fault
  else if successRate.any (· < 98) || offlineRate.any (2 < ·) then .degraded
  else .healthy

/-- No cycle is better than its rates, and the health of the networks and of the whole is the worst of
the levels below. -/
structure LevelsAgree (a : StreamAssessment) : Prop where
  cycles : ∀ n ∈ a.networks, ∀ c ∈ n.cycles, documentedLevel c.successRate c.offlineRate ≤ c.level
  networks : ∀ n ∈ a.networks, IsLUB
    {level | level ∈ n.cycles.map Cycle.level ++ [n.summary.stability.level, n.summary.slot.level,
      n.summary.routeChannel.level, n.summary.csma.level]} n.summary.overallHealth
  overall : IsLUB {level | level ∈ a.networks.map fun n => n.summary.overallHealth} a.overallHealth

/-- Of the rates alone `_classify` makes the documented level. -/
theorem classify_rates (successRate offlineRate : Option ℚ) :
    classify successRate offlineRate none none none = documentedLevel successRate offlineRate := by
  cases successRate with
  | none =>
    cases offlineRate with
    | none => rfl
    | some o =>
      simp only [classify, documentedLevel, offlineLevel, Option.map_some, Option.map_none,
        Option.any_some, Option.any_none, Bool.false_or, decide_eq_true_eq]
      split_ifs <;> first | rfl | grind
  | some s =>
    cases offlineRate with
    | none =>
      simp only [classify, documentedLevel, successLevel, Option.map_some, Option.map_none,
        Option.any_some, Option.any_none, Bool.or_false, decide_eq_true_eq]
      split_ifs <;> first | rfl | grind
    | some o =>
      simp only [classify, documentedLevel, successLevel, offlineLevel, Option.map_some,
        Option.any_some, Bool.or_eq_true, decide_eq_true_eq]
      split_ifs <;> first | rfl | grind

theorem isLUB_aggregateLevel (levels : List Level) :
    IsLUB {level | level ∈ levels} (aggregateLevel levels) := by
  rw [aggregateLevel]
  split
  case isTrue hfault => exact ⟨fun level _ => by cases level <;> decide, fun _ hbound => hbound hfault⟩
  case isFalse hfault =>
    split
    case isTrue hdegraded =>
      refine ⟨fun level hlevel => ?_, fun _ hbound => hbound hdegraded⟩
      cases level with
      | fault => exact absurd hlevel hfault
      | degraded | healthy => decide
    case isFalse hdegraded =>
      refine ⟨fun level hlevel => ?_, fun _ _ => bot_le⟩
      cases level with
      | fault => exact absurd hlevel hfault
      | degraded => exact absurd hlevel hdegraded
      | healthy => exact le_refl _

/-! ## The rates of a cycle -/

/-- The reports of a network in a period. -/
def reportsIn (records : List AssessmentRecord) (nid : Option ℕ) (p : ℕ) (start : ℤ) :
    List AssessmentRecord :=
  (recordGroup records nid).filter fun r => r.periodStart p = start

/-- The level that the reports of a period demand of its cycle. -/
def demandedLevel (active : List String) (rows : List AssessmentRecord) : Level :=
  if rows = [] then .healthy
  else
    documentedLevel ((percent (rows.countP AssessmentRecord.isSuccess) rows.length).map round2)
      ((percent (offlineStations active rows).length active.length).map round2)

section Rates
variable {active : List String} {records : List AssessmentRecord} {p : ℕ} {extra : List ReportPeriod}

/-- A cycle is supplemented with the rates of the reports in its period. -/
theorem documentedLevel_supplement
    (hextra : List.Forall₂ (ReportPeriod.Of active) (inOrder (reportBuckets p records)) extra)
    {c : Cycle} (hsuccess : c.successRate = none) (hoffline : c.offlineRate = none) :
    documentedLevel (c.supplement extra).successRate (c.supplement extra).offlineRate =
      demandedLevel active (records.filter fun r => r.periodStart p = c.periodStart) := by
  rw [Cycle.supplement]
  cases hfind : extra.find? fun e => e.periodStart = c.periodStart with
  | none =>
    have hempty : (records.filter fun r => r.periodStart p = c.periodStart) = [] := by
      rw [List.filter_eq_nil_iff]
      intro r hr hstart
      rw [decide_eq_true_eq] at hstart
      obtain ⟨bucket, hbucket, hkey⟩ := List.mem_map.mp
        (KeyedFolds.mem_keys_collect.mpr ⟨r, hr, hstart⟩ : c.periodStart ∈
          (reportBuckets p records).entries.map Prod.fst)
      obtain ⟨e, he, hof⟩ := exists_of_mem_forall₂ (List.Forall₂.flip (R := flip (ReportPeriod.Of active)) hextra)
        (mem_inOrder.mpr hbucket)
      apply List.find?_eq_none.mp hfind e he
      rw [decide_eq_true_eq, ← hkey]
      exact hof.periodStart
    rw [hempty, hsuccess, hoffline]
    rfl
  | some e =>
    obtain ⟨bucket, hbucket, hof⟩ := exists_of_mem_forall₂ hextra (List.mem_of_find?_eq_some hfind)
    have hstart : e.periodStart = c.periodStart := by simpa using List.find?_some hfind
    have hmem := mem_inOrder.mp hbucket
    have hrows := get?_reportBuckets ((Dict.get?_eq_some_iff _ _ _).mpr hmem)
    rw [← hof.periodStart, hstart] at hrows
    have hne : bucket.2 ≠ [] := by
      obtain ⟨r, hr, hkey⟩ := KeyedFolds.mem_keys_collect.mp (List.mem_map_of_mem hmem)
      rw [← hof.periodStart, hstart] at hkey
      rw [hrows]
      exact List.ne_nil_of_mem (List.mem_filter.mpr ⟨hr, decide_eq_true hkey⟩)
    dsimp only
    rw [← hrows, demandedLevel, if_neg hne, hof.successRate, hof.offlineRate]

end Rates

section Levels
variable {confidence : List ℕ → ℕ → ℕ} {records : List AssessmentRecord} {duration nidFilter : Option ℕ}
  {items : List FrameItem}

/-- The level that the dimensions give the cycles of a network. -/
def RatingInput.cycleLevel (input : RatingInput) : Level :=
  worstLevel [input.stability.level, input.csma.level, input.routeChannel.level]

/-- The cycles of a network are as bad as their reports demand. -/
def RatingInput.Covered (input : RatingInput) : Prop :=
  ∀ c ∈ input.cycles, demandedLevel (activeStations input.records)
    (input.records.filter fun r => r.periodStart (input.beaconPeriodMs.getD 0) = c.periodStart) ≤
      input.cycleLevel

theorem mem_cycles {input : RatingInput} {c : Cycle} (h : c ∈ input.cycles) :
    c.level = input.cycleLevel ∧ c.successRate = none ∧ c.offlineRate = none := by
  rw [RatingInput.cycles] at h
  cases hp : input.beaconPeriodMs with
  | none =>
    rw [hp] at h
    cases h
  | some p =>
    rw [hp] at h
    dsimp only at h
    split at h
    · cases h
    · obtain ⟨bucket, -, rfl⟩ := List.mem_map.mp h
      exact ⟨rfl, rfl, rfl⟩

/-- The cycles of an entry agree with their rates exactly when the dimensions cover the reports. -/
theorem rated_agree_iff {input : RatingInput} {cycles : List Cycle} (h : input.Rated cycles) :
    (∀ c ∈ cycles, documentedLevel c.successRate c.offlineRate ≤ c.level) ↔ input.Covered := by
  by_cases hbare : input.records = [] ∨ input.cycles = []
  · rw [h.bare hbare]
    apply iff_of_true
    · intro c hc
      obtain ⟨-, hsuccess, hoffline⟩ := mem_cycles hc
      rw [hsuccess, hoffline]
      exact bot_le
    · intro c hc
      rw [hbare.resolve_right (List.ne_nil_of_mem hc), List.filter_nil]
      exact bot_le
  · rw [not_or] at hbare
    obtain ⟨extra, hreports, rfl⟩ := h.reported hbare.1 hbare.2
    have hp : input.beaconPeriodMs.getD 0 ≠ 0 := fun h0 => hbare.2 (input.cycles_eq_nil h0)
    have hextra := ((returns_assessPeriods _ _ _ _ hp _).exact extra hreports).2
    rw [List.forall_mem_map, RatingInput.Covered]
    apply forall₂_congr
    intro c hc
    obtain ⟨hlevel, hsuccess, hoffline⟩ := mem_cycles hc
    rw [documentedLevel_supplement hextra hsuccess hoffline, (supplement_agrees extra c).level, hlevel]

/-- The cycles of a network start with its readable frames. -/
theorem covered_iff {nid : Option ℕ} {acc : NetworkAccumulator}
    (hget : (collectFrames confidence nidFilter items).accs.get? nid = some acc) :
    (ratingInput confidence records duration nid acc).Covered ↔
      ∀ p, (acc.scan (networkRating confidence)).beaconPeriodMs = some p →
        ∀ ms ∈ timedFrames nidFilter items nid,
          demandedLevel (activeStations (recordGroup records nid))
            (reportsIn records nid p (bucketStart p ms)) ≤
              (ratingInput confidence records duration nid acc).cycleLevel := by
  rw [RatingInput.Covered]
  cases hp : (acc.scan (networkRating confidence)).beaconPeriodMs with
  | none =>
    have hnone : (ratingInput confidence records duration nid acc).cycles = [] := by
      simp only [RatingInput.cycles, ratingInput, hp]
    rw [hnone]
    apply iff_of_true (List.forall_mem_nil _)
    intro p hp
    cases hp
  | some p =>
    have hperiod : (ratingInput confidence records duration nid acc).beaconPeriodMs = some p := hp
    have hbuckets : (ratingInput confidence records duration nid acc).buckets = acc.bucketCounters p := by
      simp only [ratingInput, hp]
    rw [RatingInput.cycles_eq hperiod (scan_pos hp), hbuckets, buildCycles, List.forall_mem_map, hperiod,
      Option.getD_some]
    constructor
    · rintro h q hq ms hms
      obtain rfl := Option.some.inj hq
      rw [← map_fst_timeline hget] at hms
      obtain ⟨entry, hentry, rfl⟩ := List.mem_map.mp hms
      obtain ⟨bucket, hbucket, hkey⟩ := List.mem_map.mp
        ((mem_bucketCounters acc (bucketStart p entry.1)).mpr ⟨entry, hentry, rfl⟩)
      rw [← hkey]
      exact h bucket (mem_inOrder.mpr hbucket)
    · intro h bucket hbucket
      obtain ⟨entry, hentry, hstart⟩ := (mem_bucketCounters acc bucket.1).mp
        (List.mem_map_of_mem (mem_inOrder.mp hbucket))
      have hms : entry.1 ∈ timedFrames nidFilter items nid := by
        rw [← map_fst_timeline hget]
        exact List.mem_map_of_mem hentry
      have hle := h p rfl entry.1 hms
      rw [← hstart] at hle
      exact hle

variable (confidence records duration nidFilter items) in
/-- In each network and each period with a readable frame of it, the stability, the density of the
frames or the routes are as bad as the reports in the period demand. -/
def RatesCovered : Prop :=
  ∀ nid acc p, (collectFrames confidence nidFilter items).accs.get? nid = some acc →
    (acc.scan (networkRating confidence)).beaconPeriodMs = some p →
      ∀ ms ∈ timedFrames nidFilter items nid,
        demandedLevel (activeStations (recordGroup records nid))
          (reportsIn records nid p (bucketStart p ms)) ≤
            (ratingInput confidence records duration nid acc).cycleLevel

theorem levelsAgree_iff {frameTotal unassignedTotal : Option ℕ} {a : StreamAssessment}
    (h : assessFrameStream confidence records duration nidFilter items frameTotal unassignedTotal = .ok a) :
    LevelsAgree a ↔ RatesCovered confidence records duration nidFilter items := by
  obtain ⟨-, hassembled⟩ := (returns_finalizeStream confidence records duration
    (collectFrames confidence nidFilter items) frameTotal unassignedTotal).exact a h
  obtain ⟨entries, hentries, hperm⟩ := hassembled.networks
  constructor
  · intro hagree nid acc p hget
    obtain ⟨n, hn, hentry⟩ := exists_of_mem_forall₂
      (List.Forall₂.flip (R := flip (EntryOf confidence records duration)) hentries)
      ((Dict.get?_eq_some_iff _ _ _).mp hget)
    exact (covered_iff hget).mp
      ((rated_agree_iff hentry.cycles).mp (hagree.cycles n (hperm.mem_iff.mpr hn))) p
  · intro hcovered
    refine ⟨?_, ?_, ?_⟩
    · intro n hn
      obtain ⟨e, he, hentry⟩ := exists_of_mem_forall₂ hentries (hperm.mem_iff.mp hn)
      have hget := (Dict.get?_eq_some_iff _ _ _).mpr he
      exact (rated_agree_iff hentry.cycles).mpr
        ((covered_iff hget).mpr fun p hp => hcovered e.1 e.2 p hget hp)
    · intro n hn
      obtain ⟨e, he, hentry⟩ := exists_of_mem_forall₂ hentries (hperm.mem_iff.mp hn)
      rw [hentry.summary]
      exact isLUB_aggregateLevel _
    · rw [hassembled.overallHealth]
      exact isLUB_aggregateLevel _

end Levels

/-- A central beacon that names its period. -/
def beaconItem : FrameItem where
  logTime := "08:00:00.000"
  rawHex := ""
  summary := some [("FrmType", .str "中央信标"), ("SNID", .str "000001"),
    ("Detail", .str "时隙分配[信标周期2000ms 信标时隙长度16ms RF信标时隙长度16ms CSMA时隙大小500ms]")]

/-- A report of the first network with an error code. -/
def failedReport : AssessmentRecord where
  timeSeconds := 28800000
  stationKey := "A"
  responseResult := .int 1
  reportCount := .int 1
  applicationError := .none
  nid := some 1

/-- The cycle of the failed report succeeds in no report and is healthy. -/
theorem failedReport_cycle :
    ∃ a, assessFrameStream (fun _ _ => 0) [failedReport] none none [beaconItem] none none = .ok a ∧
      ∃ n ∈ a.networks, ∃ c ∈ n.cycles, c.successRate = some 0 ∧ c.level = .healthy := by
  have h : (match assessFrameStream (fun _ _ => 0) [failedReport] none none [beaconItem] none none with
      | .ok a => a.networks.any fun n => n.cycles.any fun c =>
        decide (c.successRate = some 0 ∧ c.level = .healthy)
      | .error _ => false) = true := by decide +kernel
  cases hresult : assessFrameStream (fun _ _ => 0) [failedReport] none none [beaconItem] none none with
  | error e =>
    rw [hresult] at h
    cases h
  | ok a =>
    rw [hresult] at h
    simp only [List.any_eq_true, decide_eq_true_eq] at h
    exact ⟨a, rfl, h⟩

theorem failedReport_agrees_iff :
    ∃ a, assessFrameStream (fun _ _ => 0) [failedReport] none none [beaconItem] none none = .ok a ∧
      (LevelsAgree a ↔ RatesCovered (fun _ _ => 0) [failedReport] none none [beaconItem]) := by
  obtain ⟨a, ha, -⟩ := failedReport_cycle
  exact ⟨a, ha, levelsAgree_iff ha⟩

theorem failedReport_not_agrees :
    ¬ ∀ a, assessFrameStream (fun _ _ => 0) [failedReport] none none [beaconItem] none none = .ok a →
      LevelsAgree a := by
  intro h
  obtain ⟨a, ha, n, hn, c, hc, hrate, hlevel⟩ := failedReport_cycle
  have hle := (h a ha).cycles n hn c hc
  have hfault : documentedLevel c.successRate c.offlineRate = .fault := by
    rw [hrate, documentedLevel, Option.any_some, decide_eq_true (by norm_num), Bool.true_or, if_pos rfl]
  rw [hfault, hlevel] at hle
  exact absurd hle (by decide)

end HplcWorkbench.ListenerLog
