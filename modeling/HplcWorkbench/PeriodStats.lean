import HplcWorkbench.Bytes
import HplcWorkbench.IntervalSweep
import HplcWorkbench.OrderedDict
import Mathlib.Data.Rat.Floor

/-!
# Reading attempts by period

`aggregate` puts every attempt into the period of its start. Times are rational numbers where the
code has floats, and the text of a period's start is left to the local time zone.
-/

namespace HplcWorkbench.PeriodStats

open OrderedDict (Dict)
open IntervalSweep (Before load peak)

/-- What `float` is called on; text that shows a number counts as the number. -/
inductive Epoch
  | none
  | number (x : ℚ)
  | unreadable
  deriving DecidableEq, Repr

structure RawAttempt where
  meter : String
  startEpoch : Epoch
  endEpoch : Epoch
  status : String
  duplicate : Bool
  deriving DecidableEq, Repr

/-- `stop` is the source's `end`. -/
structure Attempt where
  meter : String
  start : ℚ
  stop : Option ℚ
  status : String
  duplicate : Bool
  deriving DecidableEq, Repr

/-- An attempt of `atts`, or none where `float` raises. -/
def readAttempt (a : RawAttempt) : Option Attempt :=
  match a.startEpoch, a.endEpoch with
  | .number start, .none => some ⟨a.meter, start, none, a.status, a.duplicate⟩
  | .number start, .number stop => some ⟨a.meter, start, some stop, a.status, a.duplicate⟩
  | _, _ => none

def Attempt.interval (a : Attempt) : IntervalSweep.Interval ℚ := ⟨a.start, a.stop⟩

/-- `_bucket_start`. -/
def bucketStart (epoch : ℚ) (period : ℤ) : PyM ℤ :=
  if period = 0 then throw (.zeroDivisionError "float floor division by zero")
  else pure (⌊epoch / period⌋ * period)

structure Bucket where
  periodStart : String
  periodSeconds : ℤ
  dispatchCount : ℕ := 0
  successCount : ℕ := 0
  failedCount : ℕ := 0
  duplicateCount : ℕ := 0
  avgDurationMs : Option ℤ := none
  maxConcurrent : ℤ := 0
  deriving DecidableEq, Repr

/-- What the first loop keeps. -/
structure Pass where
  buckets : Dict ℤ Bucket := .empty
  openUntil : Dict String ℚ := .empty

section Aggregate
variable (localIso : ℤ → PyM String) (period : ℤ)

def bucketOf (buckets : Dict ℤ Bucket) (start : ℚ) : PyM (ℤ × Bucket) := do
  let key ← bucketStart start period
  match buckets.get? key with
  | some b => pure (key, b)
  | none => pure (key, { periodStart := ← localIso key, periodSeconds := period })

def counted (c : Bool) : ℕ := if c then 1 else 0

/-- Whether the first loop counts an attempt as dispatched twice. -/
def isRepeat (openUntil : Dict String ℚ) (a : Attempt) : Bool :=
  a.duplicate || (a.stop.isSome && decide (a.start < (openUntil.get? a.meter).getD 0))

/-- One round of the first loop. -/
def dispatch (s : Pass) (a : Attempt) : PyM Pass := do
  let (key, b) ← bucketOf localIso period s.buckets a.start
  pure {
    buckets := s.buckets.set key { b with
      dispatchCount := b.dispatchCount + 1
      successCount := b.successCount + counted (a.status = "success")
      failedCount := b.failedCount + counted (!decide (a.status = "success"))
      duplicateCount := b.duplicateCount + counted (isRepeat s.openUntil a) }
    openUntil := match a.stop with
      | some stop => s.openUntil.set a.meter stop
      | none => s.openUntil }

def inStartOrder (atts : List Attempt) : List Attempt :=
  atts.insertionSort fun a b => a.start ≤ b.start

/-- The attempts of a bucket. -/
def inside (atts : List Attempt) (lo : ℤ) : List Attempt :=
  atts.filter fun a => lo ≤ a.start ∧ a.start < lo + period

/-- `int` of a quotient. -/
def truncate (x : ℚ) : ℤ := if 0 ≤ x then ⌊x⌋ else ⌈x⌉

/-- One round of the second loop. -/
def sweepBucket (atts : List Attempt) (lo : ℤ) (b : Bucket) : Bucket :=
  let own := inside period atts lo
  let marks := (own.map Attempt.interval).flatMap IntervalSweep.Interval.marks
  let durs := own.filterMap fun a => a.stop.map fun stop => (stop - a.start) * 1000
  { b with
    maxConcurrent := peak (marks.insertionSort Before)
    avgDurationMs := if durs = [] then none else some (truncate (durs.sum / durs.length)) }

structure Report where
  periodSeconds : ℤ
  buckets : List Bucket
  attemptsTotal : ℕ
  deriving DecidableEq, Repr

def aggregate (attempts : List RawAttempt) : PyM Report := do
  let atts := attempts.filterMap readAttempt
  let s ← (inStartOrder atts).foldlM (dispatch localIso period) {}
  let buckets := s.buckets.entries.map fun e => (e.1, sweepBucket period atts e.1 e.2)
  pure {
    periodSeconds := period
    buckets := (buckets.insertionSort fun x y => x.1 ≤ y.1).map Prod.snd
    attemptsTotal := atts.length }

end Aggregate

/-! ## The first loop -/

/-- The attempts, each with those before it. -/
def history (before : List Attempt) : List Attempt → List (List Attempt × Attempt)
  | [] => []
  | a :: rest => (before, a) :: history (before ++ [a]) rest

theorem history_append (before xs ys : List Attempt) :
    history before (xs ++ ys) = history before xs ++ history (before ++ xs) ys := by
  induction xs generalizing before with
  | nil => simp [history]
  | cons a xs ih =>
    rw [List.cons_append, history, history, ih, List.cons_append, List.append_assoc,
      List.singleton_append]

/-- The end of the last settled attempt of a meter. -/
def lastEnd (before : List Attempt) (meter : String) : Option ℚ :=
  ((before.filter (·.meter = meter)).filterMap Attempt.stop).getLast?

def Repeats (e : List Attempt × Attempt) : Prop :=
  e.2.duplicate = true ∨ e.2.stop.isSome = true ∧ e.2.start < (lastEnd e.1 e.2.meter).getD 0

instance : DecidablePred Repeats := fun e =>
  inferInstanceAs (Decidable (e.2.duplicate = true ∨
    e.2.stop.isSome = true ∧ e.2.start < (lastEnd e.1 e.2.meter).getD 0))

/-- The bucket of an attempt. -/
def Attempt.key (period : ℤ) (a : Attempt) : ℤ := ⌊a.start / period⌋ * period

/-- A bucket after the attempts `before`. -/
structure Tally (localIso : ℤ → PyM String) (period : ℤ) (before : List Attempt) (lo : ℤ)
    (b : Bucket) : Prop where
  named : localIso lo = .ok b.periodStart
  dispatched : b.dispatchCount = before.countP (·.key period = lo)
  success : b.successCount = before.countP fun a => a.key period = lo ∧ a.status = "success"
  failed : b.failedCount = before.countP fun a => a.key period = lo ∧ a.status ≠ "success"
  duplicate : b.duplicateCount = (history [] before).countP fun e => e.2.key period = lo ∧ Repeats e

/-- The first loop after the attempts `before`. -/
structure Tallied (localIso : ℤ → PyM String) (period : ℤ) (before : List Attempt) (s : Pass) :
    Prop where
  known : ∀ lo, s.buckets.get? lo = none ↔ ∀ a ∈ before, a.key period ≠ lo
  tally : ∀ lo b, s.buckets.get? lo = some b → Tally localIso period before lo b
  remembered : ∀ meter, s.openUntil.get? meter = lastEnd before meter

section FirstLoop
variable {localIso : ℤ → PyM String} {period : ℤ} {before : List Attempt} {s s' : Pass}
  {a : Attempt} {lo : ℤ} {b : Bucket}

theorem tallied_start (localIso : ℤ → PyM String) (period : ℤ) : Tallied localIso period [] {} where
  known lo := by simp
  tally lo b h := by cases h
  remembered meter := rfl

theorem bucketStart_key (hperiod : period ≠ 0) (a : Attempt) :
    bucketStart a.start period = pure (a.key period) := if_neg hperiod

theorem mem_history {before xs : List Attempt} {e : List Attempt × Attempt}
    (he : e ∈ history before xs) : e.2 ∈ xs := by
  induction xs generalizing before with
  | nil => cases he
  | cons a xs ih =>
    rcases List.mem_cons.mp he with rfl | he
    · exact List.mem_cons_self
    · exact List.mem_cons_of_mem a (ih he)

/-- A bucket without attempts yet. -/
theorem tally_fresh {text : String} (hnone : ∀ a ∈ before, a.key period ≠ lo)
    (hname : localIso lo = .ok text) :
    Tally localIso period before lo { periodStart := text, periodSeconds := period } where
  named := hname
  dispatched := by
    symm
    rw [List.countP_eq_zero]
    intro a ha
    simp [hnone a ha]
  success := by
    symm
    rw [List.countP_eq_zero]
    intro a ha
    simp [hnone a ha]
  failed := by
    symm
    rw [List.countP_eq_zero]
    intro a ha
    simp [hnone a ha]
  duplicate := by
    symm
    rw [List.countP_eq_zero]
    intro e he
    simp [hnone e.2 (mem_history he)]

theorem bucketOf_returns (hperiod : period ≠ 0) (h : Tallied localIso period before s)
    (a : Attempt) :
    (∃ r, bucketOf localIso period s.buckets a.start = .ok r) ↔
      ∃ text, localIso (a.key period) = .ok text := by
  rw [bucketOf, bucketStart_key hperiod, pure_bind]
  cases hknown : s.buckets.get? (a.key period) with
  | some b =>
    have hname := (h.tally _ _ hknown).named
    exact ⟨fun _ => ⟨_, hname⟩, fun _ => ⟨_, rfl⟩⟩
  | none =>
    dsimp only
    cases hname : localIso (a.key period) with
    | error e =>
      constructor
      · rintro ⟨r, hr⟩
        cases hr
      · rintro ⟨text, htext⟩
        cases htext
    | ok text => exact ⟨fun _ => ⟨text, rfl⟩, fun _ => ⟨_, rfl⟩⟩

theorem bucketOf_spec (hperiod : period ≠ 0) (h : Tallied localIso period before s)
    (hr : bucketOf localIso period s.buckets a.start = .ok (lo, b)) :
    lo = a.key period ∧ Tally localIso period before lo b := by
  rw [bucketOf, bucketStart_key hperiod, pure_bind] at hr
  cases hknown : s.buckets.get? (a.key period) with
  | some b' =>
    simp only [hknown] at hr
    cases hr
    exact ⟨rfl, h.tally _ _ hknown⟩
  | none =>
    simp only [hknown] at hr
    obtain ⟨text, hname, hpure⟩ := bind_eq_ok hr
    cases hpure
    exact ⟨rfl, tally_fresh ((h.known _).mp hknown) hname⟩

/-- What the loop adds to the bucket of an attempt. -/
theorem tally_own (h : Tally localIso period before lo b) (hlo : lo = a.key period) {r : Bool}
    (hr : r = true ↔ Repeats (before, a)) :
    Tally localIso period (before ++ [a]) lo { b with
      dispatchCount := b.dispatchCount + 1
      successCount := b.successCount + counted (a.status = "success")
      failedCount := b.failedCount + counted (!decide (a.status = "success"))
      duplicateCount := b.duplicateCount + counted r } where
  named := h.named
  dispatched := by simp [h.dispatched, hlo]
  success := by simp [h.success, hlo, counted, List.countP_singleton]
  failed := by
    by_cases hstatus : a.status = "success"
    · simp [h.failed, counted, hstatus]
    · simp [h.failed, hlo, counted, hstatus]
  duplicate := by
    rw [history_append, List.countP_append, h.duplicate]
    simp [history, hlo, List.countP_singleton, counted, ← hr]

/-- The other buckets stay as they are. -/
theorem tally_other (h : Tally localIso period before lo b) (hlo : a.key period ≠ lo) :
    Tally localIso period (before ++ [a]) lo b where
  named := h.named
  dispatched := by simp [h.dispatched, hlo]
  success := by simp [h.success, hlo]
  failed := by simp [h.failed, hlo]
  duplicate := by
    rw [history_append, List.countP_append, h.duplicate]
    simp [history, hlo]

theorem lastEnd_append (before : List Attempt) (a : Attempt) (meter : String) :
    lastEnd (before ++ [a]) meter =
      if a.meter = meter then a.stop.or (lastEnd before meter) else lastEnd before meter := by
  by_cases hmeter : a.meter = meter
  · cases hstop : a.stop <;> simp [lastEnd, hmeter, hstop, List.filter_append]
  · simp [lastEnd, hmeter, List.filter_append]

theorem dispatch_returns (hperiod : period ≠ 0) (h : Tallied localIso period before s)
    (a : Attempt) :
    (∃ s', dispatch localIso period s a = .ok s') ↔ ∃ text, localIso (a.key period) = .ok text := by
  rw [← bucketOf_returns hperiod h a]
  constructor
  · rintro ⟨s', hs'⟩
    obtain ⟨r, hr, -⟩ := bind_eq_ok hs'
    exact ⟨r, hr⟩
  · rintro ⟨r, hr⟩
    rw [dispatch, hr]
    exact ⟨_, rfl⟩

/-- One round of the first loop. -/
theorem dispatch_tallied (hperiod : period ≠ 0) (h : Tallied localIso period before s)
    (hs' : dispatch localIso period s a = .ok s') : Tallied localIso period (before ++ [a]) s' := by
  obtain ⟨⟨lo, b⟩, hbucket, hpure⟩ := bind_eq_ok hs'
  obtain ⟨hlo, htally⟩ := bucketOf_spec hperiod h hbucket
  cases hpure
  have hrepeat : isRepeat s.openUntil a = true ↔ Repeats (before, a) := by
    rw [isRepeat, h.remembered]
    simp [Repeats]
  constructor
  · intro lo'
    by_cases hsame : lo' = lo
    · subst hsame
      rw [OrderedDict.Dict.get?_set_self]
      simp [hlo]
    · rw [OrderedDict.Dict.get?_set_of_ne _ _ _ _ hsame, h.known]
      simp [hlo ▸ Ne.symm hsame, or_imp, forall_and]
  · intro lo' b' hget
    by_cases hsame : lo' = lo
    · subst hsame
      rw [OrderedDict.Dict.get?_set_self] at hget
      cases hget
      exact tally_own htally hlo hrepeat
    · rw [OrderedDict.Dict.get?_set_of_ne _ _ _ _ hsame] at hget
      exact tally_other (h.tally _ _ hget) (hlo ▸ Ne.symm hsame)
  · intro meter
    rw [lastEnd_append]
    cases hstop : a.stop with
    | none => simp [h.remembered]
    | some stop =>
      by_cases hmeter : a.meter = meter
      · subst hmeter
        simp [OrderedDict.Dict.get?_set_self]
      · rw [if_neg hmeter, OrderedDict.Dict.get?_set_of_ne _ _ _ _ (Ne.symm hmeter), h.remembered]

theorem foldlM_tallied (hperiod : period ≠ 0) (h : Tallied localIso period before s)
    (rest : List Attempt) :
    ((∃ s', rest.foldlM (dispatch localIso period) s = .ok s') ↔
      ∀ a ∈ rest, ∃ text, localIso (a.key period) = .ok text) ∧
    ∀ s', rest.foldlM (dispatch localIso period) s = .ok s' →
      Tallied localIso period (before ++ rest) s' := by
  induction rest generalizing before s with
  | nil =>
    constructor
    · exact ⟨fun _ => List.forall_mem_nil _, fun _ => ⟨s, rfl⟩⟩
    · rintro s' hs'
      cases hs'
      rwa [List.append_nil]
  | cons a rest ih =>
    rw [List.foldlM_cons]
    constructor
    · constructor
      · rintro ⟨s', hs'⟩
        obtain ⟨s₁, hfirst, hrest⟩ := bind_eq_ok hs'
        have hhead := (dispatch_returns hperiod h a).mp ⟨s₁, hfirst⟩
        have htail := (ih (dispatch_tallied hperiod h hfirst)).1.mp ⟨s', hrest⟩
        exact List.forall_mem_cons.mpr ⟨hhead, htail⟩
      · intro hall
        obtain ⟨hhead, htail⟩ := List.forall_mem_cons.mp hall
        obtain ⟨s₁, hfirst⟩ := (dispatch_returns hperiod h a).mpr hhead
        obtain ⟨s', hrest⟩ := (ih (dispatch_tallied hperiod h hfirst)).1.mpr htail
        exact ⟨s', by rw [hfirst]; exact hrest⟩
    · intro s' hs'
      obtain ⟨s₁, hfirst, hrest⟩ := bind_eq_ok hs'
      have htallied := (ih (dispatch_tallied hperiod h hfirst)).2 s' hrest
      rwa [List.append_assoc] at htallied

end FirstLoop

/-! ## What the report says -/

section Report
variable {localIso : ℤ → PyM String} {period : ℤ}

theorem key_eq_iff (hperiod : 0 < period) (a : Attempt) (lo : ℤ) :
    a.key period = lo ↔ period ∣ lo ∧ (lo : ℚ) ≤ a.start ∧ a.start < lo + period := by
  have hpos : (0 : ℚ) < period := by exact_mod_cast hperiod
  constructor
  · rintro rfl
    refine ⟨Dvd.intro_left _ rfl, ?_, ?_⟩
    · have hfloor := Int.floor_le (a.start / period)
      rw [le_div_iff₀ hpos] at hfloor
      rw [Attempt.key]
      exact_mod_cast hfloor
    · have hfloor := Int.lt_floor_add_one (a.start / period)
      rw [div_lt_iff₀ hpos, add_mul, one_mul] at hfloor
      rw [Attempt.key]
      exact_mod_cast hfloor
  · rintro ⟨⟨k, rfl⟩, hle, hlt⟩
    rw [Int.cast_mul] at hle hlt
    have hfloor : ⌊a.start / period⌋ = k := by
      rw [Int.floor_eq_iff, le_div_iff₀ hpos, div_lt_iff₀ hpos]
      constructor <;> linarith
    rw [Attempt.key, hfloor, mul_comm]

theorem perm_inStartOrder (atts : List Attempt) : (inStartOrder atts).Perm atts :=
  List.perm_insertionSort _ atts

/-- The buckets behind a report, each with the start of its period. -/
theorem aggregate_spec (localIso : ℤ → PyM String) (hperiod : 0 < period) (attempts : List RawAttempt) {atts : List Attempt}
    (hatts : atts = attempts.filterMap readAttempt) :
    ((∃ r, aggregate localIso period attempts = .ok r) ↔
      ∀ a ∈ atts, ∃ text, localIso (a.key period) = .ok text) ∧
    ∀ r, aggregate localIso period attempts = .ok r → ∃ found : List (ℤ × Bucket),
      r.buckets = found.map Prod.snd ∧ found.Pairwise (fun x y => x.1 < y.1) ∧
      (∀ lo, lo ∈ found.map Prod.fst ↔ ∃ a ∈ atts, a.key period = lo) ∧
      ∀ e ∈ found, ∃ b, Tally localIso period (inStartOrder atts) e.1 b ∧
        e.2 = sweepBucket period atts e.1 b := by
  subst hatts
  set atts := attempts.filterMap readAttempt with hatts
  have hperm := perm_inStartOrder atts
  obtain ⟨hreturns, htallied⟩ := foldlM_tallied hperiod.ne' (tallied_start localIso period)
    (inStartOrder atts)
  constructor
  · have hall : (∀ a ∈ inStartOrder atts, ∃ text, localIso (a.key period) = .ok text) ↔
        ∀ a ∈ atts, ∃ text, localIso (a.key period) = .ok text :=
      forall_congr' fun a => by rw [hperm.mem_iff]
    rw [← hall, ← hreturns, aggregate, ← hatts]
    constructor
    · rintro ⟨r, hr⟩
      obtain ⟨s, hpass, -⟩ := bind_eq_ok hr
      exact ⟨s, hpass⟩
    · rintro ⟨s, hpass⟩
      rw [hpass]
      exact ⟨_, rfl⟩
  · intro r hr
    rw [aggregate, ← hatts] at hr
    obtain ⟨s, hpass, hpure⟩ := bind_eq_ok hr
    have h := htallied s hpass
    rw [List.nil_append] at h
    cases hpure
    set swept := s.buckets.entries.map fun e => (e.1, sweepBucket period atts e.1 e.2) with hswept
    have hkeys : swept.map Prod.fst = s.buckets.entries.map Prod.fst := by
      rw [hswept, List.map_map]
      rfl
    have hsorted := List.perm_insertionSort (fun x y : ℤ × Bucket => x.1 ≤ y.1) swept
    refine ⟨_, rfl, OrderedDict.Dict.pairwise_sorted ⟨swept, hkeys ▸ s.buckets.nodup⟩, ?_, ?_⟩
    · intro lo
      rw [(hsorted.map Prod.fst).mem_iff, hkeys]
      have hknown := h.known lo
      rw [OrderedDict.Dict.get?_eq_none_iff] at hknown
      rw [← not_iff_not, hknown]
      simp [hperm.mem_iff]
    · intro e he
      obtain ⟨⟨lo, b⟩, hmem, rfl⟩ := List.mem_map.mp (hsorted.mem_iff.mp he)
      exact ⟨b, h.tally lo b ((OrderedDict.Dict.get?_eq_some_iff _ _ _).mpr hmem), rfl⟩

/-- What the report says about the bucket from `lo` on. -/
structure Swept (localIso : ℤ → PyM String) (period : ℤ) (atts : List Attempt) (lo : ℤ)
    (b : Bucket) : Prop where
  aligned : period ∣ lo
  named : localIso lo = .ok b.periodStart
  dispatched : b.dispatchCount = (inside period atts lo).length
  success : b.successCount = (inside period atts lo).countP (·.status = "success")
  split : b.dispatchCount = b.successCount + b.failedCount
  peak : IsGreatest (Set.range fun t : ℚ =>
    (load ((inside period atts lo).map Attempt.interval) t : ℤ)) b.maxConcurrent

theorem swept_bucket {atts : List Attempt} {lo : ℤ} {b : Bucket} (hperiod : 0 < period)
    (horder : ∀ a ∈ atts, ∀ stop ∈ a.stop, a.start ≤ stop) (haligned : period ∣ lo)
    (h : Tally localIso period (inStartOrder atts) lo b) :
    Swept localIso period atts lo (sweepBucket period atts lo b) := by
  have hinside (a : Attempt) :
      a.key period = lo ↔ (lo : ℚ) ≤ a.start ∧ a.start < lo + period := by
    rw [key_eq_iff hperiod]
    exact and_iff_right haligned
  have hcount (p : Attempt → Bool) : (inStartOrder atts).countP (fun a => a.key period = lo ∧ p a) =
      (inside period atts lo).countP p := by
    rw [(perm_inStartOrder atts).countP_eq, inside, List.countP_filter]
    apply List.countP_congr
    intro a _
    simp [hinside, and_comm]
  have hdispatched : b.dispatchCount = (inside period atts lo).length := by
    rw [h.dispatched, ← List.countP_true, ← hcount]
    simp
  have hsuccess : b.successCount = (inside period atts lo).countP (·.status = "success") := by
    rw [← hcount]
    simpa using h.success
  have hfailed : b.failedCount = (inside period atts lo).countP (¬ ·.status = "success") := by
    rw [← hcount]
    simpa using h.failed
  refine ⟨haligned, h.named, hdispatched, hsuccess, ?_, ?_⟩
  · change b.dispatchCount = b.successCount + b.failedCount
    rw [hdispatched, hsuccess, hfailed,
      List.length_eq_countP_add_countP fun a : Attempt => a.status = "success"]
    simp
  · apply IntervalSweep.isGreatest_peak
    intro i hi stop hstop
    obtain ⟨a, ha, rfl⟩ := List.mem_map.mp hi
    exact horder a (List.mem_of_mem_filter ha) stop hstop

/-- Every attempt with a start that can be read is in one bucket, and the sweep of each bucket
finds the largest number of its attempts in flight at one time. -/
theorem aggregate_sweeps (localIso : ℤ → PyM String) {period : ℤ} (hperiod : 0 < period)
    (attempts : List RawAttempt) {atts : List Attempt}
    (hatts : atts = attempts.filterMap readAttempt)
    (horder : ∀ a ∈ atts, ∀ stop ∈ a.stop, a.start ≤ stop) :
    ((∃ r, aggregate localIso period attempts = .ok r) ↔
      ∀ a ∈ atts, ∃ text, localIso (a.key period) = .ok text) ∧
    ∀ r, aggregate localIso period attempts = .ok r → ∃ los : List ℤ,
      los.Pairwise (· < ·) ∧ List.Forall₂ (Swept localIso period atts) los r.buckets ∧
      ∀ a ∈ atts, ∃! lo, lo ∈ los ∧ (lo : ℚ) ≤ a.start ∧ a.start < lo + period := by
  obtain ⟨hreturns, hreport⟩ := aggregate_spec localIso hperiod attempts hatts
  refine ⟨hreturns, fun r hr => ?_⟩
  obtain ⟨found, hbuckets, hsorted, hkeys, hfound⟩ := hreport r hr
  have haligned : ∀ e ∈ found, period ∣ e.1 := by
    intro e he
    obtain ⟨a, -, hkey⟩ := (hkeys e.1).mp (List.mem_map_of_mem he)
    exact ((key_eq_iff hperiod a e.1).mp hkey).1
  refine ⟨found.map Prod.fst, List.pairwise_map.mpr hsorted, ?_, ?_⟩
  · rw [hbuckets, List.forall₂_map_left_iff, List.forall₂_map_right_iff, List.forall₂_same]
    intro e he
    obtain ⟨b, htally, hswept⟩ := hfound e he
    rw [hswept]
    exact swept_bucket hperiod horder (haligned e he) htally
  · intro a ha
    refine ⟨a.key period, ⟨(hkeys _).mpr ⟨a, ha, rfl⟩, ?_⟩, ?_⟩
    · exact ((key_eq_iff hperiod a _).mp rfl).2
    · rintro lo ⟨hlo, hinside⟩
      obtain ⟨e, he, rfl⟩ := List.mem_map.mp hlo
      exact ((key_eq_iff hperiod a e.1).mpr ⟨haligned e he, hinside⟩).symm

/-- Two readings that overlap, one that takes no time, and one of the next period. -/
def fourReadings : List RawAttempt :=
  [⟨"1", .number 0, .number 10, "success", false⟩, ⟨"2", .number 5, .none, "timeout", false⟩,
    ⟨"3", .number 10, .number 10, "success", false⟩,
    ⟨"4", .number 900, .number 903, "deny", false⟩]

theorem fourReadings_sweeps :
    ∃ atts, atts = fourReadings.filterMap readAttempt ∧
      ((∃ r, aggregate (fun lo => .ok (toString lo)) 900 fourReadings = .ok r) ↔
        ∀ a ∈ atts, ∃ text, (fun lo => .ok (toString lo) : ℤ → PyM String) (a.key 900) = .ok text) ∧
      ∀ r, aggregate (fun lo => .ok (toString lo)) 900 fourReadings = .ok r → ∃ los : List ℤ,
        los.Pairwise (· < ·) ∧
        List.Forall₂ (Swept (fun lo => .ok (toString lo)) 900 atts) los r.buckets ∧
        ∀ a ∈ atts, ∃! lo, lo ∈ los ∧ (lo : ℚ) ≤ a.start ∧ a.start < lo + (900 : ℤ) := by
  refine ⟨_, rfl, aggregate_sweeps _ (by decide) fourReadings rfl ?_⟩
  intro a ha stop hstop
  simp only [fourReadings, List.filterMap_cons, readAttempt, List.filterMap_nil, List.mem_cons,
    List.not_mem_nil, or_false] at ha
  rcases ha with rfl | rfl | rfl | rfl
  · cases hstop
    norm_num
  · cases hstop
  · cases hstop
    norm_num
  · cases hstop
    norm_num

end Report

end HplcWorkbench.PeriodStats
