import HplcWorkbench.KeyedFolds
import HplcWorkbench.MinuteInstants
import Mathlib.Algebra.BigOperators.Group.List.Basic
import Mathlib.Algebra.Ring.Divisibility.Basic
import Mathlib.Data.Int.Interval
import Mathlib.Data.List.Sort

/-!
# Time buckets of a digest

The events of a network are counted by the second, and the seconds are merged into buckets of whole
minutes. A bucket is numbered from the first second on, but its label is aligned to the width.
-/

namespace HplcWorkbench.NwkDigest
open OrderedDict KeyedFolds ListenerLog

/-- A second of the day with what was counted in it. -/
structure SecondRow where
  sec : ℤ
  total : ℤ
  alarms : ℤ
  nonneg : 0 ≤ sec
  lt_day : sec < 86400

/-- `stop` is the source's `end`. -/
structure Bucket where
  start : String
  stop : String
  total : ℤ
  alarms : ℤ
  deriving DecidableEq, Repr

/-- `MAX_DIGEST_BUCKETS`. -/
def maxDigestBuckets : ℤ := 60

/-- `_fmt_bucket_time`. -/
def fmtBucketTime (seconds : ℤ) (withSeconds : Bool) : String :=
  let base := padDec 2 (seconds % 86400 / 3600).toNat ++ ":" ++ padDec 2 (seconds % 3600 / 60).toNat
  if withSeconds then base ++ ":" ++ padDec 2 (seconds % 60).toNat else base

def span (minSec maxSec : ℤ) : ℤ :=
  max ((if maxSec < minSec then maxSec + 86400 else maxSec) - minSec) 0

def bucketSeconds (span : ℤ) : ℤ :=
  if span ≤ 1800 then 60 else max 60 (-(-span / (60 * maxDigestBuckets)) * 60)

/-- A second before the first one is of the next day. -/
def lifted (minSec sec : ℤ) : ℤ := if minSec ≤ sec then sec else sec + 86400

def bucketKey (minSec width sec : ℤ) : ℤ := (lifted minSec sec - minSec) / width

/-- The total and the alarms of a bucket. -/
abbrev Cell := ℤ × ℤ

def addRow (cell : Option Cell) (row : SecondRow) : Cell :=
  let cell := cell.getD (0, 0)
  (cell.1 + row.total, cell.2 + row.alarms)

def merged (rows : List SecondRow) (minSec width : ℤ) : Dict ℤ Cell :=
  collect (fun row : SecondRow => bucketKey minSec width row.sec) addRow rows

def bucketOf (minSec width : ℤ) (entry : ℤ × Cell) : Bucket :=
  let start := minSec / width * width + entry.1 * width
  { start := fmtBucketTime start (decide (width < 60))
    stop := fmtBucketTime (start + width) (decide (width < 60))
    total := entry.2.1
    alarms := entry.2.2 }

/-- `_time_buckets`. -/
def timeBuckets (rows : List SecondRow) (minSec maxSec : ℤ) : List Bucket × ℤ :=
  if rows.isEmpty then ([], 60)
  else
    let width := bucketSeconds (span minSec maxSec)
    (((merged rows minSec width).entries.insertionSort (·.1 ≤ ·.1)).map (bucketOf minSec width), width)

/-! ## What the labels say -/

/-- The second of the day that a label shows. -/
def readLabelChars : List Char → Option ℤ
  | [h₁, h₂, ':', m₁, m₂] => do
    let hour ← digitsInt [h₁, h₂]
    let minute ← digitsInt [m₁, m₂]
    some (hour * 3600 + minute * 60)
  | _ => none

def readLabel (label : String) : Option ℤ := readLabelChars label.toList

/-- The labelled interval: its first second and its length, around midnight. -/
def Bucket.interval (b : Bucket) : Option (ℤ × ℤ) := do
  let start ← readLabel b.start
  let stop ← readLabel b.stop
  some (start, (stop - start) % 86400)

def Bucket.Covers (b : Bucket) (sec : ℤ) : Prop :=
  ∃ iv, b.interval = some iv ∧ (sec - iv.1) % 86400 < iv.2

/-- The labelled intervals follow one another within a day that begins with the first of them. -/
def Ascending (buckets : List Bucket) : Prop :=
  ∃ ivs : List (ℤ × ℤ), buckets.map Bucket.interval = ivs.map some ∧ ∀ first ∈ ivs.head?,
    (∀ iv ∈ ivs, (iv.1 - first.1) % 86400 + iv.2 ≤ 86400) ∧
      ivs.Pairwise fun a b => (a.1 - first.1) % 86400 + a.2 ≤ (b.1 - first.1) % 86400

/-- What is expected of the buckets. -/
structure Digested (rows : List SecondRow) (minSec maxSec : ℤ) : Prop where
  few : (timeBuckets rows minSec maxSec).1.length ≤ maxDigestBuckets.toNat
  total : ((timeBuckets rows minSec maxSec).1.map Bucket.total).sum = (rows.map SecondRow.total).sum
  alarms : ((timeBuckets rows minSec maxSec).1.map Bucket.alarms).sum = (rows.map SecondRow.alarms).sum
  ascending : Ascending (timeBuckets rows minSec maxSec).1
  /-- A row lies in the bucket that it is counted in. -/
  inside : ∀ width, width = (timeBuckets rows minSec maxSec).2 → ∀ row ∈ rows, ∀ cell,
    (merged rows minSec width).get? (bucketKey minSec width row.sec) = some cell →
      (bucketOf minSec width (bucketKey minSec width row.sec, cell)).Covers row.sec

/-- The rows begin with the second `minSec` and end with `maxSec`, perhaps on the next day. -/
structure Window (rows : List SecondRow) (minSec maxSec : ℤ) : Prop where
  first : ∃ row ∈ rows, row.sec = minSec
  last : ∃ row ∈ rows, row.sec = maxSec
  within : ∀ row ∈ rows, lifted minSec row.sec ≤ lifted minSec maxSec

/-- Every one of 61 buckets has a row. -/
def Overfull (rows : List SecondRow) (minSec maxSec : ℤ) : Prop :=
  span minSec maxSec = 60 * bucketSeconds (span minSec maxSec) ∧ ∀ k : ℤ, 0 ≤ k → k ≤ 60 →
    ∃ row ∈ rows, bucketKey minSec (bucketSeconds (span minSec maxSec)) row.sec = k

/-- From the first second of its bucket to the row there is a multiple of the width. -/
def Crosses (minSec width : ℤ) (row : SecondRow) : Prop :=
  width ≤ minSec % width + (lifted minSec row.sec - minSec) % width

/-! ## Widths and labels -/

section Labels
variable {rows : List SecondRow} {minSec maxSec width : ℤ}

theorem readLabel_fmtBucketTime {s : ℤ} (h : 60 ∣ s) :
    readLabel (fmtBucketTime s false) = some (s % 86400) := by
  obtain ⟨h₁, h₂, hhour, hhour'⟩ := exists_pair (n := (s % 86400 / 3600).toNat) (by omega)
  obtain ⟨m₁, m₂, hmin, hmin'⟩ := exists_pair (n := (s % 3600 / 60).toNat) (by omega)
  have hchars : (fmtBucketTime s false).toList = [h₁, h₂, ':', m₁, m₂] := by
    simp only [fmtBucketTime, Bool.false_eq_true, if_false, String.toList_append, hhour, hmin]
    rfl
  have hjoin : ((s % 86400 / 3600).toNat : ℤ) * 3600 + (s % 3600 / 60).toNat * 60 = s % 86400 := by
    omega
  rw [readLabel, hchars, readLabelChars, hhour', hmin', Option.bind_eq_bind, Option.bind_some,
    Option.bind_some, hjoin]

/-- The width is in whole minutes, and sixty of them are not less than the span. -/
theorem bucketSeconds_spec {s : ℤ} (h : 0 ≤ s) (hday : s < 86400) :
    60 ∣ bucketSeconds s ∧ 60 ≤ bucketSeconds s ∧ bucketSeconds s ≤ 1440 ∧
      s ≤ 60 * bucketSeconds s ∧ (s / bucketSeconds s + 1) * bucketSeconds s ≤ 86400 := by
  unfold bucketSeconds maxDigestBuckets
  split
  case isTrue hshort => omega
  case isFalse hlong =>
    have hpos : 60 ≤ -(-s / (60 * 60)) * 60 := by omega
    rw [max_eq_right hpos]
    set width := -(-s / (60 * 60)) * 60 with hwidth
    have hwidth' : 0 < width := by omega
    refine ⟨by omega, hpos, by omega, by omega, ?_⟩
    have hfloor : s / width * width ≤ s := Int.ediv_mul_le s (ne_of_gt hwidth')
    rw [add_mul, one_mul]
    by_cases hfits : width ≤ 86400 - s
    · omega
    · have hwide : width = 1440 := by omega
      rw [hwide] at hfloor ⊢
      omega

variable (minSec) in
theorem interval_bucketOf (hwidth : 60 ∣ width) (hpos : 60 ≤ width) (hday : width < 86400)
    (e : ℤ × Cell) : (bucketOf minSec width e).interval =
      some ((minSec / width * width + e.1 * width) % 86400, width) := by
  have hstart : 60 ∣ minSec / width * width + e.1 * width :=
    dvd_add (dvd_mul_of_dvd_right hwidth _) (dvd_mul_of_dvd_right hwidth _)
  have hlabel : decide (width < 60) = false := decide_eq_false (not_lt.mpr hpos)
  rw [Bucket.interval, bucketOf]
  dsimp only
  rw [hlabel, readLabel_fmtBucketTime hstart, readLabel_fmtBucketTime (dvd_add hstart hwidth)]
  dsimp only [Option.bind_eq_bind, Option.bind_some]
  rw [← Int.sub_emod, add_sub_cancel_left, Int.emod_eq_of_lt (by omega) hday]

variable (minSec width) in
/-- The second of a row behind the aligned start of its bucket. -/
theorem lifted_sub_start (sec : ℤ) :
    lifted minSec sec - (minSec / width * width + bucketKey minSec width sec * width) =
      minSec % width + (lifted minSec sec - minSec) % width := by
  have hfirst := Int.emod_add_ediv_mul minSec width
  have hrest := Int.emod_add_ediv_mul (lifted minSec sec - minSec) width
  unfold bucketKey
  omega

theorem covers_iff (hwidth : 60 ∣ width) (hpos : 60 ≤ width) (hday : width ≤ 1440) (row : SecondRow)
    (cell : Cell) : (bucketOf minSec width (bucketKey minSec width row.sec, cell)).Covers row.sec ↔
      ¬ Crosses minSec width row := by
  have hinterval := interval_bucketOf minSec hwidth hpos (by omega)
    (bucketKey minSec width row.sec, cell)
  have hbehind := lifted_sub_start minSec width row.sec
  have hfirst : 0 ≤ minSec % width ∧ minSec % width < width :=
    ⟨Int.emod_nonneg _ (by omega), Int.emod_lt_of_pos _ (by omega)⟩
  have hrest : 0 ≤ (lifted minSec row.sec - minSec) % width ∧
      (lifted minSec row.sec - minSec) % width < width :=
    ⟨Int.emod_nonneg _ (by omega), Int.emod_lt_of_pos _ (by omega)⟩
  have hclock : (row.sec - (minSec / width * width + bucketKey minSec width row.sec * width) % 86400) %
      86400 = minSec % width + (lifted minSec row.sec - minSec) % width := by
    have hlift : lifted minSec row.sec = row.sec ∨ lifted minSec row.sec = row.sec + 86400 := by
      unfold lifted
      split
      · exact Or.inl rfl
      · exact Or.inr rfl
    omega
  unfold Bucket.Covers Crosses
  rw [hinterval]
  constructor
  · rintro ⟨iv, hiv, hlt⟩ hcross
    obtain rfl := Option.some.inj hiv
    rw [hclock] at hlt
    omega
  · intro hcross
    exact ⟨_, rfl, by rw [hclock]; omega⟩

end Labels

/-! ## The buckets of a window -/

section Buckets
variable {rows : List SecondRow} {minSec maxSec width : ℤ}

theorem mem_keys_merged {k : ℤ} : k ∈ (merged rows minSec width).entries.map Prod.fst ↔
    ∃ row ∈ rows, bucketKey minSec width row.sec = k := mem_keys_collect

theorem timeBuckets_eq (h : rows ≠ []) (minSec maxSec : ℤ) :
    timeBuckets rows minSec maxSec =
      (((merged rows minSec (bucketSeconds (span minSec maxSec))).entries.insertionSort (·.1 ≤ ·.1)).map
        (bucketOf minSec (bucketSeconds (span minSec maxSec))), bucketSeconds (span minSec maxSec)) := by
  rw [timeBuckets, if_neg (by simpa using h)]

/-- What is added over the rows is what the cells have in total. -/
theorem sum_timeBuckets {weight : Bucket → ℤ} (cellWeight : Cell → ℤ) {part : SecondRow → ℤ}
    (hweight : ∀ minSec width e, weight (bucketOf minSec width e) = cellWeight e.2)
    (hadd : ∀ cell row, cellWeight (addRow cell row) = cell.elim 0 cellWeight + part row)
    (h : rows ≠ []) (minSec maxSec : ℤ) :
    ((timeBuckets rows minSec maxSec).1.map weight).sum = (rows.map part).sum := by
  rw [timeBuckets_eq h, List.map_map]
  have hperm := (List.perm_insertionSort (fun a b : ℤ × Cell => a.1 ≤ b.1)
    (merged rows minSec (bucketSeconds (span minSec maxSec))).entries).map
      (weight ∘ bucketOf minSec (bucketSeconds (span minSec maxSec)))
  rw [hperm.sum_eq, ← sum_collect (fun row : SecondRow => bucketKey minSec _ row.sec) addRow cellWeight
    part hadd rows]
  apply congrArg
  apply List.map_congr_left
  intro e _
  exact hweight _ _ e

namespace Window
variable (hwindow : Window rows minSec maxSec)
include hwindow

theorem rows_ne_nil : rows ≠ [] := by
  obtain ⟨row, hrow, -⟩ := hwindow.first
  exact List.ne_nil_of_mem hrow

theorem span_eq : span minSec maxSec = lifted minSec maxSec - minSec ∧
    0 ≤ span minSec maxSec ∧ span minSec maxSec < 86400 := by
  obtain ⟨first, -, hfirst⟩ := hwindow.first
  obtain ⟨last, -, hlast⟩ := hwindow.last
  have := first.nonneg
  have := first.lt_day
  have := last.nonneg
  have := last.lt_day
  unfold span lifted
  split <;> split <;> omega

theorem sub_le_span {row : SecondRow} (hrow : row ∈ rows) :
    0 ≤ lifted minSec row.sec - minSec ∧ lifted minSec row.sec - minSec ≤ span minSec maxSec := by
  have hle := hwindow.within row hrow
  obtain ⟨first, -, hfirst⟩ := hwindow.first
  have := first.lt_day
  have := row.nonneg
  have hlift : minSec ≤ lifted minSec row.sec := by
    unfold lifted
    split <;> omega
  rw [hwindow.span_eq.1]
  omega

theorem width_spec : 60 ∣ bucketSeconds (span minSec maxSec) ∧ 60 ≤ bucketSeconds (span minSec maxSec) ∧
    bucketSeconds (span minSec maxSec) ≤ 1440 ∧
      span minSec maxSec ≤ 60 * bucketSeconds (span minSec maxSec) ∧
      (span minSec maxSec / bucketSeconds (span minSec maxSec) + 1) * bucketSeconds (span minSec maxSec)
        ≤ 86400 :=
  bucketSeconds_spec hwindow.span_eq.2.1 hwindow.span_eq.2.2

theorem key_bounds {k : ℤ} (hk : k ∈ (merged rows minSec (bucketSeconds (span minSec maxSec))).entries.map
    Prod.fst) : 0 ≤ k ∧ k ≤ span minSec maxSec / bucketSeconds (span minSec maxSec) := by
  obtain ⟨row, hrow, rfl⟩ := mem_keys_merged.mp hk
  obtain ⟨hnonneg, hle⟩ := hwindow.sub_le_span hrow
  have hpos : 0 < bucketSeconds (span minSec maxSec) := by
    have := hwindow.width_spec.2.1
    omega
  exact ⟨Int.ediv_nonneg hnonneg hpos.le, Int.ediv_le_ediv hpos hle⟩

/-- There are at most 61 keys, and all of them only when the window is overfull. -/
theorem few_iff : (timeBuckets rows minSec maxSec).1.length ≤ 60 ↔ ¬ Overfull rows minSec maxSec := by
  rw [timeBuckets_eq hwindow.rows_ne_nil, List.length_map, List.length_insertionSort]
  set width := bucketSeconds (span minSec maxSec) with hwidth
  set keys := (merged rows minSec width).entries.map Prod.fst with hkeys
  have hlen : (merged rows minSec width).entries.length = keys.toFinset.card := by
    rw [List.toFinset_card_of_nodup (merged rows minSec width).nodup, List.length_map]
  have hbounds : ∀ k ∈ keys, 0 ≤ k ∧ k ≤ span minSec maxSec / width := fun k hk => hwindow.key_bounds hk
  obtain ⟨-, hpos, -, hspan, -⟩ := hwindow.width_spec
  rw [← hwidth] at hpos hspan
  rw [hlen]
  constructor
  · rintro hfew ⟨-, hall⟩
    have hsub : Finset.Icc (0 : ℤ) 60 ⊆ keys.toFinset := by
      intro k hk
      obtain ⟨hlo, hhi⟩ := Finset.mem_Icc.mp hk
      exact List.mem_toFinset.mpr (mem_keys_merged.mpr (hall k hlo hhi))
    have hcard := Finset.card_le_card hsub
    rw [Int.card_Icc] at hcard
    omega
  · intro hnot
    by_cases hfull : span minSec maxSec = 60 * width
    · -- one of the 61 keys has no row
      have hmiss : ∃ k : ℤ, (0 ≤ k ∧ k ≤ 60) ∧ k ∉ keys := by
        by_contra hno
        push Not at hno
        exact hnot ⟨hfull, fun k hlo hhi => mem_keys_merged.mp (hno k ⟨hlo, hhi⟩)⟩
      obtain ⟨missing, ⟨hlo, hhi⟩, hmissing⟩ := hmiss
      have hsub : keys.toFinset ⊆ (Finset.Icc (0 : ℤ) 60).erase missing := by
        intro k hk
        have hk' := List.mem_toFinset.mp hk
        have hle := hbounds k hk'
        rw [hfull, Int.mul_ediv_cancel _ (by omega)] at hle
        exact Finset.mem_erase.mpr ⟨fun h => hmissing (h ▸ hk'), Finset.mem_Icc.mpr hle⟩
      have hcard := Finset.card_le_card hsub
      rw [Finset.card_erase_of_mem (Finset.mem_Icc.mpr ⟨hlo, hhi⟩), Int.card_Icc] at hcard
      omega
    · have hsub : keys.toFinset ⊆ Finset.Icc (0 : ℤ) 59 := by
        intro k hk
        have hle := hbounds k (List.mem_toFinset.mp hk)
        have hlt : span minSec maxSec / width < 60 := Int.ediv_lt_of_lt_mul (by omega) (by omega)
        exact Finset.mem_Icc.mpr ⟨hle.1, by omega⟩
      have hcard := Finset.card_le_card hsub
      rw [Int.card_Icc] at hcard
      omega

/-- Where the label of a bucket lies behind that of an earlier one. -/
theorem elapsed_eq {j k : ℤ}
    (hj : j ∈ (merged rows minSec (bucketSeconds (span minSec maxSec))).entries.map Prod.fst)
    (hk : k ∈ (merged rows minSec (bucketSeconds (span minSec maxSec))).entries.map Prod.fst)
    (hle : j ≤ k) (start : ℤ) :
    ((start + k * bucketSeconds (span minSec maxSec)) % 86400 -
        (start + j * bucketSeconds (span minSec maxSec)) % 86400) % 86400 =
      (k - j) * bucketSeconds (span minSec maxSec) ∧
    (k - j) * bucketSeconds (span minSec maxSec) + bucketSeconds (span minSec maxSec) ≤ 86400 := by
  obtain ⟨-, hpos, -, -, hday⟩ := hwindow.width_spec
  have hfirst := hwindow.key_bounds hj
  have hlast := hwindow.key_bounds hk
  generalize bucketSeconds (span minSec maxSec) = width at *
  have hfits : (k - j + 1) * width ≤ 86400 :=
    (mul_le_mul_of_nonneg_right (by omega) (by omega)).trans hday
  have hnonneg : 0 ≤ (k - j) * width := mul_nonneg (by omega) (by omega)
  rw [add_mul, one_mul] at hfits
  rw [← Int.sub_emod, add_sub_add_left_eq_sub, ← sub_mul]
  exact ⟨Int.emod_eq_of_lt hnonneg (by omega), hfits⟩

theorem ascending : Ascending (timeBuckets rows minSec maxSec).1 := by
  rw [timeBuckets_eq hwindow.rows_ne_nil]
  obtain ⟨hdvd, hpos, hday, -, -⟩ := hwindow.width_spec
  have helapsed := @elapsed_eq _ _ _ hwindow
  set width := bucketSeconds (span minSec maxSec) with hwidth
  set entries := (merged rows minSec width).entries.insertionSort (·.1 ≤ ·.1) with hentries
  have hperm : entries.Perm (merged rows minSec width).entries := List.perm_insertionSort _ _
  have hmem : ∀ e ∈ entries, e.1 ∈ (merged rows minSec width).entries.map Prod.fst := fun e he =>
    List.mem_map.mpr ⟨e, hperm.mem_iff.mp he, rfl⟩
  have hsorted : entries.Pairwise fun d e => d.1 < e.1 := Dict.pairwise_sorted _
  refine ⟨entries.map fun e => ((minSec / width * width + e.1 * width) % 86400, width), ?_, ?_⟩
  · rw [List.map_map, List.map_map]
    exact List.map_congr_left fun e _ => interval_bucketOf minSec hdvd hpos (by omega) e
  · cases hcases : entries with
    | nil => rintro first ⟨⟩
    | cons d rest =>
      rintro _ ⟨⟩
      rw [hcases] at hmem hsorted
      have hfirst : ∀ e ∈ d :: rest, d.1 ≤ e.1 := by
        intro e he
        rcases List.mem_cons.mp he with rfl | he
        · exact le_rfl
        · exact (List.rel_of_pairwise_cons hsorted he).le
      constructor
      · rintro _ hiv
        obtain ⟨e, he, rfl⟩ := List.mem_map.mp hiv
        obtain ⟨heq, hle⟩ := helapsed (hmem d List.mem_cons_self) (hmem e he) (hfirst e he)
          (minSec / width * width)
        dsimp only
        rw [heq]
        exact hle
      · rw [List.pairwise_map]
        apply hsorted.imp_of_mem
        intro a b ha hb hlt
        dsimp only
        rw [(helapsed (hmem d List.mem_cons_self) (hmem a ha) (hfirst a ha) _).1,
          (helapsed (hmem d List.mem_cons_self) (hmem b hb) (hfirst b hb) _).1]
        have hstep : (a.1 - d.1 + 1) * width ≤ (b.1 - d.1) * width :=
          mul_le_mul_of_nonneg_right (by omega) (by omega)
        rw [add_mul, one_mul] at hstep
        exact hstep

end Window

/-- `digest` passes the least and the greatest second. -/
theorem window_of_bounds {first last : SecondRow} (hfirst : first ∈ rows) (hlast : last ∈ rows)
    (h : ∀ row ∈ rows, first.sec ≤ row.sec ∧ row.sec ≤ last.sec) : Window rows first.sec last.sec where
  first := ⟨first, hfirst, rfl⟩
  last := ⟨last, hlast, rfl⟩
  within row hrow := by
    rw [lifted, if_pos (h row hrow).1, lifted, if_pos (h last hlast).1]
    exact (h row hrow).2

/-- The buckets are as expected exactly when at most 60 of them have rows and no row lies behind a
multiple of the width that comes after the start of its bucket. -/
theorem digested_iff (hwindow : Window rows minSec maxSec) : Digested rows minSec maxSec ↔
    ¬ Overfull rows minSec maxSec ∧
      ∀ row ∈ rows, ¬ Crosses minSec (bucketSeconds (span minSec maxSec)) row := by
  obtain ⟨hdvd, hpos, hday, -⟩ := hwindow.width_spec
  have hwidth : (timeBuckets rows minSec maxSec).2 = bucketSeconds (span minSec maxSec) :=
    congrArg Prod.snd (timeBuckets_eq hwindow.rows_ne_nil minSec maxSec)
  constructor
  · intro h
    refine ⟨hwindow.few_iff.mp h.few, fun row hrow => ?_⟩
    cases hcell : (merged rows minSec (bucketSeconds (span minSec maxSec))).get?
        (bucketKey minSec (bucketSeconds (span minSec maxSec)) row.sec) with
    | none => exact absurd rfl (get?_collect_eq_none_iff.mp hcell row hrow)
    | some cell => exact (covers_iff hdvd hpos hday row cell).mp (h.inside _ hwidth.symm row hrow cell hcell)
  · rintro ⟨hfew, hcross⟩
    exact {
      few := hwindow.few_iff.mpr hfew
      total := sum_timeBuckets Prod.fst (fun _ _ _ => rfl) (fun cell _ => by cases cell <;> rfl)
        hwindow.rows_ne_nil minSec maxSec
      alarms := sum_timeBuckets Prod.snd (fun _ _ _ => rfl) (fun cell _ => by cases cell <;> rfl)
        hwindow.rows_ne_nil minSec maxSec
      ascending := hwindow.ascending
      inside := by
        rintro width rfl row hrow cell -
        rw [hwidth]
        exact (covers_iff hdvd hpos hday row cell).mpr (hcross row hrow) }

/-- Two events at 00:00:30 and at 00:01:20. -/
def offMinute : List SecondRow :=
  [⟨30, 1, 0, by decide, by decide⟩, ⟨80, 1, 1, by decide, by decide⟩]

/-- An event at every full minute of an hour, the last one included. -/
def fullHour : List SecondRow :=
  (List.range 61).attach.map fun k =>
    ⟨k.val * 60, 1, 0, by omega, by have := List.mem_range.mp k.property; omega⟩

theorem window_offMinute : Window offMinute 30 80 :=
  window_of_bounds List.mem_cons_self (List.mem_cons_of_mem _ List.mem_cons_self)
    (by decide)

theorem offMinute_digested_iff : Digested offMinute 30 80 ↔ ¬ Overfull offMinute 30 80 ∧
    ∀ row ∈ offMinute, ¬ Crosses 30 (bucketSeconds (span 30 80)) row := digested_iff window_offMinute

/-- The second 80 is counted in the bucket that is labelled 00:00 to 00:01, and the hour has 61
buckets. -/
theorem digested_fails : ¬ Digested offMinute 30 80 ∧ ¬ Digested fullHour 0 3600 := by
  constructor
  · intro h
    have hcovers := h.inside 60 rfl ⟨80, 1, 1, by decide, by decide⟩
      (List.mem_cons_of_mem _ List.mem_cons_self) (2, 1) rfl
    rw [covers_iff (by decide) le_rfl (by decide)] at hcovers
    exact hcovers (by unfold Crosses; decide)
  · intro h
    have hfew : (timeBuckets fullHour 0 3600).1.length ≤ 60 := h.few
    revert hfew
    decide +kernel

end Buckets

end HplcWorkbench.NwkDigest
