import HplcWorkbench.PeriodStats
import Mathlib.Data.List.Dedup

/-!
# Dispatches of a meter that is still busy

The first loop remembers one end for each meter, that of the last settled attempt, and asks it only
about attempts that are settled themselves. An attempt that was never answered leaves no trace.
-/

namespace HplcWorkbench.PeriodStats

/-- The attempt of the same meter right before an attempt. -/
def previous (e : List Attempt × Attempt) : Option Attempt :=
  (e.1.filter (·.meter = e.2.meter)).getLast?

/-- The meter was dispatched while its attempt before had no end yet. -/
def StillOpen (e : List Attempt × Attempt) : Prop :=
  ∃ p ∈ previous e, ∀ stop ∈ p.stop, e.2.start < stop

instance : DecidablePred StillOpen := fun e =>
  inferInstanceAs (Decidable (∃ p ∈ previous e, ∀ stop ∈ p.stop, e.2.start < stop))

/-- The starts of the periods that have attempts. -/
def bucketStarts (period : ℤ) (atts : List Attempt) : List ℤ :=
  ((atts.map (Attempt.key period)).dedup).insertionSort (· ≤ ·)

/-- Every dispatch of a meter that was still open is counted, in the bucket of its own start. -/
def DuplicatesCounted (period : ℤ) (atts : List Attempt) (buckets : List Bucket) : Prop :=
  (buckets.map Bucket.duplicateCount).sum = (history [] (inStartOrder atts)).countP StillOpen ∧
  List.Forall₂ (fun lo b => b.duplicateCount =
      (history [] (inStartOrder atts)).countP fun e => e.2.key period = lo ∧ StillOpen e)
    (bucketStarts period atts) buckets

/-- A dispatch of an open meter that leaves no mark: it has no end itself, or the attempt before has
none and the last end of the meter does not reach it. -/
def Missed (e : List Attempt × Attempt) : Prop :=
  StillOpen e ∧ (e.2.stop = none ∨
    (∃ p ∈ previous e, p.stop = none) ∧ ¬ e.2.start < (lastEnd e.1 e.2.meter).getD 0)

instance : DecidablePred Missed := fun e =>
  inferInstanceAs (Decidable (StillOpen e ∧ (e.2.stop = none ∨
    (∃ p ∈ previous e, p.stop = none) ∧ ¬ e.2.start < (lastEnd e.1 e.2.meter).getD 0)))

/-- The first attempt of a meter, settled and before the epoch. -/
def Phantom (e : List Attempt × Attempt) : Prop :=
  previous e = none ∧ e.2.stop.isSome = true ∧ e.2.start < 0

instance : DecidablePred Phantom := fun e =>
  inferInstanceAs (Decidable (previous e = none ∧ e.2.stop.isSome = true ∧ e.2.start < 0))

/-- The end that is remembered is that of the attempt before, when it has one. -/
theorem lastEnd_previous (e : List Attempt × Attempt) :
    (previous e = none → lastEnd e.1 e.2.meter = none) ∧
    ∀ p ∈ previous e, ∀ stop ∈ p.stop, lastEnd e.1 e.2.meter = some stop := by
  rw [previous, lastEnd]
  rcases List.eq_nil_or_concat' (e.1.filter (·.meter = e.2.meter)) with hnil | ⟨own, p, hown⟩
  · rw [hnil]
    constructor
    · exact fun _ => rfl
    · rintro p ⟨⟩
  · rw [hown, List.getLast?_concat]
    constructor
    · rintro ⟨⟩
    rintro p' ⟨⟩ stop hstop
    have hend : [p].filterMap Attempt.stop = [stop] := by simp [Option.mem_def.mp hstop]
    rw [List.filterMap_append, hend, List.getLast?_concat]

theorem counts_agree (e : List Attempt × Attempt) (hflag : e.2.duplicate = false) :
    (if Repeats e then 1 else 0) + (if Missed e then 1 else 0) =
      (if StillOpen e then 1 else 0) + if Phantom e then 1 else 0 := by
  obtain ⟨hfirst, hsettled⟩ := lastEnd_previous e
  cases hstop : e.2.stop with
  | none => simp [Repeats, Missed, Phantom, hstop, hflag]
  | some stop =>
    cases hprevious : previous e with
    | none => simp [Repeats, Missed, Phantom, StillOpen, hstop, hflag, hprevious, hfirst hprevious]
    | some p =>
      cases hend : p.stop with
      | none =>
        by_cases hlate : e.2.start < (lastEnd e.1 e.2.meter).getD 0
        · simp [Repeats, Missed, Phantom, StillOpen, hstop, hflag, hprevious, hend, hlate]
        · simp [Repeats, Missed, Phantom, StillOpen, hstop, hflag, hprevious, hend, hlate]
      | some until_ =>
        have hlast := hsettled p hprevious until_ hend
        simp [Repeats, Missed, Phantom, StillOpen, hstop, hflag, hprevious, hend, hlast]

/-- What is counted and what is missed, over the attempts of one period. -/
theorem countP_agree (φ : Attempt → Bool) (es : List (List Attempt × Attempt))
    (hflag : ∀ e ∈ es, e.2.duplicate = false) :
    es.countP (fun e => φ e.2 ∧ Repeats e) + es.countP (fun e => φ e.2 ∧ Missed e) =
      es.countP (fun e => φ e.2 ∧ StillOpen e) + es.countP fun e => φ e.2 ∧ Phantom e := by
  induction es with
  | nil => rfl
  | cons e es ih =>
    have htail := ih fun e' he' => hflag e' (List.mem_cons_of_mem e he')
    have hhead := counts_agree e (hflag e List.mem_cons_self)
    simp only [List.countP_cons, decide_eq_true_eq, Bool.decide_and, Bool.decide_eq_true,
      Bool.and_eq_true] at htail ⊢
    cases φ e.2 with
    | false => simpa using htail
    | true =>
      simp only [true_and]
      omega

theorem countP_key_cons {α : Type} (key : α → ℤ) (p : α → Bool) (es : List α) {lo : ℤ} {los : List ℤ}
    (hnew : lo ∉ los) :
    es.countP (fun e => key e = lo ∧ p e) + es.countP (fun e => key e ∈ los ∧ p e) =
      es.countP fun e => key e ∈ lo :: los ∧ p e := by
  induction es with
  | nil => rfl
  | cons e es ih =>
    simp only [List.countP_cons, List.mem_cons, decide_eq_true_eq] at ih ⊢
    by_cases hlo : key e = lo
    · simp only [hlo, hnew, true_and, true_or, false_and, if_false]
      omega
    · simp only [hlo, false_and, false_or, if_false]
      omega

/-- Counts over the values of a key add up. -/
theorem sum_countP_key {α : Type} (key : α → ℤ) (p : α → Bool) (es : List α) {los : List ℤ}
    (hnodup : los.Nodup) :
    (los.map fun lo => es.countP fun e => key e = lo ∧ p e).sum =
      es.countP fun e => key e ∈ los ∧ p e := by
  induction los with
  | nil => simp
  | cons lo los ih =>
    obtain ⟨hnew, hrest⟩ := List.nodup_cons.mp hnodup
    rw [List.map_cons, List.sum_cons, ih hrest, countP_key_cons key p es hnew]

theorem mem_bucketStarts {period : ℤ} {atts : List Attempt} {lo : ℤ} :
    lo ∈ bucketStarts period atts ↔ ∃ a ∈ atts, a.key period = lo := by
  rw [bucketStarts, List.mem_insertionSort, List.mem_dedup, List.mem_map]

theorem nodup_bucketStarts (period : ℤ) (atts : List Attempt) : (bucketStarts period atts).Nodup :=
  (List.perm_insertionSort _ _).nodup_iff.mpr (List.nodup_dedup _)

/-- The bucket starts of a report are those of its attempts. -/
theorem eq_bucketStarts {period : ℤ} {atts : List Attempt} {los : List ℤ}
    (hsorted : los.Pairwise (· < ·)) (hmem : ∀ lo, lo ∈ los ↔ ∃ a ∈ atts, a.key period = lo) :
    los = bucketStarts period atts := by
  have hperm : los.Perm (bucketStarts period atts) := by
    rw [List.perm_ext_iff_of_nodup (hsorted.imp ne_of_lt) (nodup_bucketStarts period atts)]
    intro lo
    rw [hmem, mem_bucketStarts]
  have hordered : (bucketStarts period atts).Pairwise (· ≤ ·) := List.pairwise_insertionSort _ _
  exact hperm.eq_of_pairwise' (hsorted.imp le_of_lt) hordered

/-- The duplicates are counted as they are exactly when every period has as many missed as phantom
ones. -/
theorem duplicates_counted_iff {localIso : ℤ → PyM String} {period : ℤ} (hperiod : 0 < period)
    {attempts : List RawAttempt} {atts : List Attempt} (hatts : atts = attempts.filterMap readAttempt)
    (hflag : ∀ a ∈ atts, a.duplicate = false) {r : Report}
    (hr : aggregate localIso period attempts = .ok r) :
    DuplicatesCounted period atts r.buckets ↔ ∀ lo,
      (history [] (inStartOrder atts)).countP (fun e => e.2.key period = lo ∧ Missed e) =
        (history [] (inStartOrder atts)).countP fun e => e.2.key period = lo ∧ Phantom e := by
  set es := history [] (inStartOrder atts) with hes
  have hmem : ∀ e ∈ es, e.2 ∈ atts := fun e he =>
    (perm_inStartOrder atts).mem_iff.mp (mem_history he)
  obtain ⟨found, hbuckets, hsorted, hkeys, hfound⟩ :=
    (aggregate_spec localIso hperiod attempts hatts).2 r hr
  have hstarts := eq_bucketStarts (List.pairwise_map.mpr hsorted) hkeys
  have hcounted : ∀ e ∈ found, e.2.duplicateCount =
      es.countP fun x => x.2.key period = e.1 ∧ Repeats x := by
    intro e he
    obtain ⟨b, htally, hswept⟩ := hfound e he
    rw [hswept]
    exact htally.duplicate
  have hbalance (lo : ℤ) :
      es.countP (fun e => e.2.key period = lo ∧ Repeats e) +
        es.countP (fun e => e.2.key period = lo ∧ Missed e) =
      es.countP (fun e => e.2.key period = lo ∧ StillOpen e) +
        es.countP fun e => e.2.key period = lo ∧ Phantom e := by
    have hagree := countP_agree (fun a => a.key period = lo) es fun e he => hflag e.2 (hmem e he)
    simpa using hagree
  have hnone (lo : ℤ) (hlo : ¬∃ a ∈ atts, a.key period = lo) (p : List Attempt × Attempt → Bool) :
      es.countP (fun e => e.2.key period = lo ∧ p e) = 0 := by
    rw [List.countP_eq_zero]
    intro e he hp
    rw [decide_eq_true_eq] at hp
    exact hlo ⟨e.2, hmem e he, hp.1⟩
  have htotal : ((bucketStarts period atts).map fun lo =>
      es.countP fun e => e.2.key period = lo ∧ StillOpen e).sum = es.countP StillOpen := by
    have hsum := sum_countP_key (fun e : List Attempt × Attempt => e.2.key period)
      (fun e => StillOpen e) es (nodup_bucketStarts period atts)
    simp only [decide_eq_true_eq] at hsum
    rw [hsum]
    apply List.countP_congr
    intro e he
    have hin : e.2.key period ∈ bucketStarts period atts := mem_bucketStarts.mpr ⟨_, hmem e he, rfl⟩
    simp [hin]
  rw [DuplicatesCounted, hbuckets, ← hstarts, List.forall₂_map_left_iff, List.forall₂_map_right_iff,
    List.forall₂_same]
  constructor
  · rintro ⟨-, hbucket⟩ lo
    by_cases hlo : ∃ a ∈ atts, a.key period = lo
    · obtain ⟨e, he, rfl⟩ := List.mem_map.mp ((hkeys lo).mpr hlo)
      have hsame : es.countP (fun x => x.2.key period = e.1 ∧ Repeats x) =
          es.countP fun x => x.2.key period = e.1 ∧ StillOpen x :=
        (hcounted e he).symm.trans (hbucket e he)
      have hboth := hbalance e.1
      omega
    · have hmissed := hnone lo hlo fun e => Missed e
      have hphantom := hnone lo hlo fun e => Phantom e
      simp only [decide_eq_true_eq] at hmissed hphantom
      rw [hmissed, hphantom]
  · intro hequal
    have hbucket : ∀ e ∈ found, e.2.duplicateCount =
        es.countP fun x => x.2.key period = e.1 ∧ StillOpen x := by
      intro e he
      have hboth := hbalance e.1
      rw [hcounted e he]
      have hsame := hequal e.1
      omega
    refine ⟨?_, hbucket⟩
    rw [← htotal, ← hstarts, List.map_map, List.map_map]
    exact congrArg List.sum (List.map_congr_left hbucket)

/-- A reading that is never answered, and the next one of its meter. -/
def unanswered : List RawAttempt :=
  [⟨"1", .number 0, .none, "timeout", false⟩, ⟨"1", .number 10, .number 12, "success", false⟩]

def unansweredReport : Report := ⟨900, [⟨"", 900, 2, 1, 1, 0, some 2000, 2⟩], 2⟩

theorem unanswered_not_counted :
    ¬ ∀ (localIso : ℤ → PyM String) (period : ℤ) (attempts : List RawAttempt) (r : Report),
      0 < period → (∀ a ∈ attempts.filterMap readAttempt, a.duplicate = false) →
      aggregate localIso period attempts = .ok r →
      DuplicatesCounted period (attempts.filterMap readAttempt) r.buckets := by
  intro h
  have hr : aggregate (fun _ => .ok "") 900 unanswered = .ok unansweredReport := by decide +kernel
  obtain ⟨hsum, -⟩ := h _ 900 unanswered unansweredReport (by decide) (by decide) hr
  have hopen : (history [] (inStartOrder (unanswered.filterMap readAttempt))).countP StillOpen = 1 := by
    decide +kernel
  rw [hopen] at hsum
  cases hsum

/-- Two readings of a meter that overlap, both answered. -/
def overlapping : List RawAttempt :=
  [⟨"1", .number 0, .number 20, "timeout", false⟩, ⟨"1", .number 10, .number 12, "success", false⟩]

theorem overlapping_counted :
    ∃ atts r, atts = overlapping.filterMap readAttempt ∧
      aggregate (fun _ => .ok "") 900 overlapping = .ok r ∧
      (DuplicatesCounted 900 atts r.buckets ↔ ∀ lo,
        (history [] (inStartOrder atts)).countP (fun e => e.2.key 900 = lo ∧ Missed e) =
          (history [] (inStartOrder atts)).countP fun e => e.2.key 900 = lo ∧ Phantom e) := by
  have hr : aggregate (fun _ => .ok "") 900 overlapping =
      .ok ⟨900, [⟨"", 900, 2, 1, 1, 1, some 11000, 2⟩], 2⟩ := by decide +kernel
  exact ⟨_, _, rfl, hr, duplicates_counted_iff (by decide) rfl (by decide) hr⟩

end HplcWorkbench.PeriodStats
