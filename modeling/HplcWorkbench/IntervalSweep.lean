import Mathlib.Algebra.Order.BigOperators.Group.List
import Mathlib.Algebra.Ring.Int.Defs
import Mathlib.Data.List.Induction
import Mathlib.Data.List.Sort
import Mathlib.Order.Bounds.Basic

/-!
# The largest number of intervals at one time

A mark for each start and each end, in order of time and the ends of a moment before its starts:
the running sum over the marks reaches the largest number of intervals that contain one moment.
An interval contains its start and not its end, so that an empty one is never counted.
-/

namespace IntervalSweep
variable {T : Type}

/-- An interval without an end lasts for ever. -/
structure Interval (T : Type) where
  start : T
  stop : Option T

def Interval.marks (i : Interval T) : List (T × ℤ) :=
  (i.start, 1) :: (i.stop.map fun e => (e, -1)).toList

/-- The running sum and the largest value it had. -/
def step (s : ℤ × ℤ) (m : T × ℤ) : ℤ × ℤ := (s.1 + m.2, max s.2 (s.1 + m.2))

def peak (marks : List (T × ℤ)) : ℤ := (marks.foldl step (0, 0)).2

def total (marks : List (T × ℤ)) : ℤ := (marks.map Prod.snd).sum

@[simp] theorem total_nil : total ([] : List (T × ℤ)) = 0 := rfl

@[simp] theorem total_cons (m : T × ℤ) (marks : List (T × ℤ)) :
    total (m :: marks) = m.2 + total marks := List.sum_cons

@[simp] theorem total_append (xs ys : List (T × ℤ)) : total (xs ++ ys) = total xs + total ys := by
  rw [total, List.map_append, List.sum_append]
  rfl

/-! ## The peak is the largest sum of a prefix -/

theorem le_foldl_step (marks before after : List (T × ℤ)) (s : ℤ × ℤ) (hs : s.1 ≤ s.2)
    (h : marks = before ++ after) : s.1 + total before ≤ (marks.foldl step s).2 := by
  have hgrows (marks : List (T × ℤ)) (s : ℤ × ℤ) : s.2 ≤ (marks.foldl step s).2 := by
    induction marks generalizing s with
    | nil => exact le_rfl
    | cons m marks ih => exact (le_max_left _ _).trans (ih (step s m))
  induction before generalizing marks s with
  | nil =>
    rw [total_nil, add_zero]
    exact hs.trans (hgrows marks s)
  | cons m before ih =>
    rw [h, List.cons_append, List.foldl_cons, total_cons, ← add_assoc]
    exact ih (before ++ after) (step s m) (le_max_right _ _) rfl

theorem foldl_step_attained (marks : List (T × ℤ)) (s : ℤ × ℤ) :
    (marks.foldl step s).2 = s.2 ∨
      ∃ before after, marks = before ++ after ∧ (marks.foldl step s).2 = s.1 + total before := by
  induction marks generalizing s with
  | nil => exact .inl rfl
  | cons m marks ih =>
    rw [List.foldl_cons]
    rcases ih (step s m) with heq | ⟨before, after, hsplit, heq⟩
    · rcases le_total (s.1 + m.2) s.2 with hle | hle
      · left
        rw [heq]
        exact max_eq_left hle
      · right
        refine ⟨[m], marks, rfl, ?_⟩
        rw [heq, total_cons, total_nil, add_zero]
        exact max_eq_right hle
    · right
      refine ⟨m :: before, after, by rw [hsplit, List.cons_append], ?_⟩
      rw [heq, total_cons, ← add_assoc]
      rfl

/-! ## Marks and loads -/

section Order
variable [LinearOrder T]

def Interval.Contains (i : Interval T) (t : T) : Prop := i.start ≤ t ∧ ∀ e ∈ i.stop, t < e

instance (i : Interval T) (t : T) : Decidable (i.Contains t) :=
  inferInstanceAs (Decidable (i.start ≤ t ∧ ∀ e ∈ i.stop, t < e))

/-- The intervals that contain a moment. -/
def load (intervals : List (Interval T)) (t : T) : ℕ := intervals.countP (·.Contains t)

/-- The order of the marks. -/
def Before (m n : T × ℤ) : Prop := m.1 < n.1 ∨ m.1 = n.1 ∧ m.2 ≤ n.2

instance : DecidableRel (@Before T _) := fun m n =>
  inferInstanceAs (Decidable (m.1 < n.1 ∨ m.1 = n.1 ∧ m.2 ≤ n.2))

instance : Std.Total (@Before T _) where
  total m n := by
    rcases lt_trichotomy m.1 n.1 with hlt | heq | hgt
    · exact .inl (.inl hlt)
    · rcases le_total m.2 n.2 with hle | hle
      · exact .inl (.inr ⟨heq, hle⟩)
      · exact .inr (.inr ⟨heq.symm, hle⟩)
    · exact .inr (.inl hgt)

instance : IsTrans (T × ℤ) Before where
  trans m n o hmn hno := by
    rcases hmn with hlt | ⟨heq, hle⟩
    · rcases hno with hlt' | ⟨heq', -⟩
      · exact .inl (hlt.trans hlt')
      · exact .inl (heq' ▸ hlt)
    · rcases hno with hlt' | ⟨heq', hle'⟩
      · exact .inl (heq ▸ hlt')
      · exact .inr ⟨heq.trans heq', hle.trans hle'⟩

/-- The marks up to a moment. -/
def upTo (marks : List (T × ℤ)) (t : T) : List (T × ℤ) := marks.filter (·.1 ≤ t)

/-! ## The sum up to a moment is the load -/

theorem total_upTo_marks (i : Interval T) (t : T) (horder : ∀ e ∈ i.stop, i.start ≤ e) :
    total (upTo i.marks t) = if i.Contains t then 1 else 0 := by
  obtain ⟨start, stop⟩ := i
  cases stop with
  | none =>
    by_cases hstart : start ≤ t
    · simp [upTo, Interval.marks, Interval.Contains, hstart]
    · simp [upTo, Interval.marks, Interval.Contains, hstart]
  | some e =>
    have hle : start ≤ e := horder e rfl
    by_cases hstart : start ≤ t
    · by_cases hstop : e ≤ t
      · simp [upTo, Interval.marks, Interval.Contains, hstart, hstop]
      · simp [upTo, Interval.marks, Interval.Contains, hstart, hstop]
    · have hstop : ¬e ≤ t := fun h => hstart (hle.trans h)
      simp [upTo, Interval.marks, Interval.Contains, hstart, hstop]

theorem total_upTo_flatMap (intervals : List (Interval T)) (t : T)
    (horder : ∀ i ∈ intervals, ∀ e ∈ i.stop, i.start ≤ e) :
    total (upTo (intervals.flatMap Interval.marks) t) = load intervals t := by
  induction intervals with
  | nil => rfl
  | cons i intervals ih =>
    have hhead := total_upTo_marks i t (horder i List.mem_cons_self)
    have htail := ih fun j hj => horder j (List.mem_cons_of_mem i hj)
    rw [upTo] at hhead htail
    rw [List.flatMap_cons, upTo, List.filter_append, total_append, hhead, htail, load, load,
      List.countP_cons]
    by_cases hi : i.Contains t
    · simp [hi, add_comm]
    · simp [hi]

theorem total_upTo_perm {xs ys : List (T × ℤ)} (h : xs.Perm ys) (t : T) :
    total (upTo xs t) = total (upTo ys t) := ((h.filter _).map Prod.snd).sum_eq

/-! ## Prefixes of the sorted marks -/

/-- Up to the moment of its last mark a sorted prefix that ends in a start misses starts only. -/
theorem total_prefix_start {before after : List (T × ℤ)} {t : T}
    (hsorted : (before ++ (t, 1) :: after).Pairwise Before) :
    total (before ++ [(t, 1)]) ≤ total (upTo (before ++ (t, 1) :: after) t) := by
  obtain ⟨-, hlater, hearlier⟩ := List.pairwise_append.mp hsorted
  have hbefore : upTo before t = before := by
    apply List.filter_eq_self.mpr
    intro m hm
    rcases hearlier m hm (t, 1) List.mem_cons_self with hlt | ⟨heq, -⟩
    · exact decide_eq_true hlt.le
    · exact decide_eq_true heq.le
  have hafter : 0 ≤ total (upTo after t) := by
    apply List.sum_nonneg
    intro d hd
    obtain ⟨m, hm, rfl⟩ := List.mem_map.mp hd
    obtain ⟨hmem, htime⟩ := List.mem_filter.mp hm
    rcases (List.pairwise_cons.mp hlater).1 m hmem with hlt | ⟨-, hle⟩
    · exact absurd hlt (not_lt.mpr (of_decide_eq_true htime))
    · exact zero_le_one.trans hle
  rw [upTo, List.filter_append, List.filter_cons, if_pos (decide_eq_true le_rfl)]
  rw [upTo] at hbefore hafter
  rw [hbefore, total_append, total_append, total_cons, total_cons, total_nil]
  omega

theorem total_prefix_le {marks before after : List (T × ℤ)} (hsorted : marks.Pairwise Before)
    (hunit : ∀ m ∈ marks, m.2 = 1 ∨ m.2 = -1) (hload : ∃ t, 0 ≤ total (upTo marks t))
    (h : marks = before ++ after) : ∃ t, total before ≤ total (upTo marks t) := by
  induction before using List.reverseRecOn generalizing after with
  | nil => exact hload
  | append_singleton before m ih =>
    obtain ⟨t, d⟩ := m
    rw [List.append_assoc, List.singleton_append] at h
    have hmem : (t, d) ∈ marks := by
      rw [h]
      exact List.mem_append_right _ List.mem_cons_self
    rcases hunit _ hmem with hd | hd
    · dsimp only at hd
      subst hd
      refine ⟨t, ?_⟩
      rw [h] at hsorted ⊢
      exact total_prefix_start hsorted
    · dsimp only at hd
      obtain ⟨t', hle⟩ := ih h
      refine ⟨t', ?_⟩
      rw [total_append, total_cons, total_nil, hd]
      omega

/-- The marks up to a moment are a prefix. -/
theorem upTo_prefix {marks : List (T × ℤ)} (hsorted : marks.Pairwise Before) (t : T) :
    ∃ after, marks = upTo marks t ++ after := by
  induction marks with
  | nil => exact ⟨[], rfl⟩
  | cons m marks ih =>
    obtain ⟨hhead, htail⟩ := List.pairwise_cons.mp hsorted
    by_cases hm : m.1 ≤ t
    · obtain ⟨after, hsplit⟩ := ih htail
      refine ⟨after, ?_⟩
      rw [upTo] at hsplit
      rw [upTo, List.filter_cons, if_pos (decide_eq_true hm), List.cons_append, ← hsplit]
    · refine ⟨m :: marks, ?_⟩
      have hnone : upTo (m :: marks) t = [] := by
        apply List.filter_eq_nil_iff.mpr
        intro n hn hle
        apply hm
        have hle' : n.1 ≤ t := of_decide_eq_true hle
        rcases List.mem_cons.mp hn with rfl | hn
        · exact hle'
        · rcases hhead n hn with hlt | ⟨heq, -⟩
          · exact hlt.le.trans hle'
          · exact heq.le.trans hle'
      rw [hnone, List.nil_append]

/-! ## The sweep -/

/-- A sweep over the marks in order finds the largest number of intervals at one moment. -/
theorem isGreatest_peak_of_pairwise [Nonempty T] {intervals : List (Interval T)}
    {marks : List (T × ℤ)} (hperm : marks.Perm (intervals.flatMap Interval.marks)) (hsorted : marks.Pairwise Before)
    (horder : ∀ i ∈ intervals, ∀ e ∈ i.stop, i.start ≤ e) :
    IsGreatest (Set.range fun t : T => (load intervals t : ℤ)) (peak marks) := by
  have hsum (t : T) : total (upTo marks t) = load intervals t := by
    rw [total_upTo_perm hperm, total_upTo_flatMap intervals t horder]
  have hbound (t : T) : (load intervals t : ℤ) ≤ peak marks := by
    obtain ⟨after, hsplit⟩ := upTo_prefix hsorted t
    have hle := le_foldl_step marks (upTo marks t) after (0, 0) le_rfl hsplit
    rw [hsum, zero_add] at hle
    exact hle
  have hunit : ∀ m ∈ marks, m.2 = 1 ∨ m.2 = -1 := by
    intro m hm
    obtain ⟨i, -, hi⟩ := List.mem_flatMap.mp (hperm.mem_iff.mp hm)
    rcases List.mem_cons.mp hi with rfl | hi
    · exact .inl rfl
    · obtain ⟨e, -, rfl⟩ := Option.map_eq_some_iff.mp (Option.mem_toList.mp hi)
      exact .inr rfl
  have hnonneg (t : T) : 0 ≤ total (upTo marks t) := by
    rw [hsum]
    exact Int.natCast_nonneg _
  obtain ⟨t₀⟩ := ‹Nonempty T›
  have hreached : ∃ t, peak marks ≤ load intervals t := by
    rcases foldl_step_attained marks (0, 0) with heq | ⟨before, after, hsplit, heq⟩
    · exact ⟨t₀, heq.le.trans (Int.natCast_nonneg _)⟩
    · obtain ⟨t, hle⟩ := total_prefix_le hsorted hunit ⟨t₀, hnonneg t₀⟩ hsplit
      rw [hsum] at hle
      rw [zero_add] at heq
      exact ⟨t, heq.le.trans hle⟩
  constructor
  · obtain ⟨t, hle⟩ := hreached
    exact ⟨t, le_antisymm (hbound t) hle⟩
  · rintro _ ⟨t, rfl⟩
    exact hbound t

theorem isGreatest_peak [Nonempty T] (intervals : List (Interval T))
    (horder : ∀ i ∈ intervals, ∀ e ∈ i.stop, i.start ≤ e) :
    IsGreatest (Set.range fun t : T => (load intervals t : ℤ))
      (peak ((intervals.flatMap Interval.marks).insertionSort Before)) :=
  isGreatest_peak_of_pairwise (List.perm_insertionSort _ _) (List.pairwise_insertionSort _ _) horder

end Order

end IntervalSweep
