import Mathlib.Data.List.Basic

/-!
# Scans that remember a position

Rows with increasing keys are read in batches. What lies up to the position of the last key read is
the part of the rows that was scanned; a batch moves the position behind itself, and rows that come
in behind it leave the scanned part alone.
-/

namespace PrefixScan
variable {Row : Type} (key : Row → ℕ)

/-- The rows up to a position. -/
def upTo (p : ℕ) (rows : List Row) : List Row := rows.filter fun r => key r ≤ p

/-- The rows behind a position. -/
def after (p : ℕ) (rows : List Row) : List Row := rows.filter fun r => p < key r

/-- The position behind a batch. -/
def position (p : ℕ) (batch : List Row) : ℕ := (batch.getLast?.map key).getD p

variable {key} {p : ℕ} {rows more : List Row}

theorem mem_after {r : Row} : r ∈ after key p rows ↔ r ∈ rows ∧ p < key r := by
  rw [after, List.mem_filter, decide_eq_true_eq]

theorem upTo_eq_self (h : ∀ r ∈ rows, key r ≤ p) : upTo key p rows = rows :=
  List.filter_eq_self.mpr fun r hr => decide_eq_true (h r hr)

theorem upTo_eq_nil (h : ∀ r ∈ rows, p < key r) : upTo key p rows = [] :=
  List.filter_eq_nil_iff.mpr fun r hr => by
    rw [decide_eq_true_eq]
    exact Nat.not_le.mpr (h r hr)

/-- Rows behind the position do not belong to the scanned part. -/
theorem upTo_append (h : ∀ r ∈ more, p < key r) : upTo key p (rows ++ more) = upTo key p rows := by
  rw [upTo, List.filter_append, ← upTo, ← upTo, upTo_eq_nil h, List.append_nil]

/-- The position divides the rows. -/
theorem upTo_append_after (h : (rows.map key).Pairwise (· < ·)) :
    upTo key p rows ++ after key p rows = rows := by
  induction rows with
  | nil => rfl
  | cons r rest ih =>
      obtain ⟨hfirst, hrest⟩ := List.pairwise_cons.mp h
      by_cases hr : key r ≤ p
      · have hcons : upTo key p (r :: rest) = r :: upTo key p rest :=
          List.filter_cons_of_pos (decide_eq_true hr)
        have hafter : after key p (r :: rest) = after key p rest :=
          List.filter_cons_of_neg (by simpa using hr)
        rw [hcons, hafter, List.cons_append, ih hrest]
      · have hlater : ∀ s ∈ r :: rest, p < key s := by
          rw [List.forall_mem_cons]
          refine ⟨Nat.not_le.mp hr, fun s hs => ?_⟩
          exact Nat.lt_trans (Nat.not_le.mp hr) (hfirst _ (List.mem_map_of_mem hs))
        rw [upTo_eq_nil hlater, List.nil_append]
        exact List.filter_eq_self.mpr fun s hs => decide_eq_true (hlater s hs)

/-- Behind a batch lies what lay behind the old position, up to the last row of the batch. -/
theorem upTo_position (h : (rows.map key).Pairwise (· < ·)) {n : ℕ} :
    upTo key (position key p ((after key p rows).take n)) rows =
      upTo key p rows ++ (after key p rows).take n := by
  cases hlast : ((after key p rows).take n).getLast? with
  | none =>
      rw [List.getLast?_eq_none_iff] at hlast
      rw [hlast, position, List.append_nil]
      rfl
  | some last =>
      have hposition : position key p ((after key p rows).take n) = key last := by
        rw [position, hlast]
        rfl
      obtain ⟨front, hbatch⟩ := List.getLast?_eq_some_iff.mp hlast
      have hmem : last ∈ after key p rows :=
        List.mem_of_mem_take (by rw [hbatch]; simp)
      have hpast : p < key last := (mem_after.mp hmem).2
      have hrows : rows = (upTo key p rows ++ front ++ [last]) ++ (after key p rows).drop n := by
        have hsplit := List.take_append_drop n (after key p rows)
        have hall := upTo_append_after (p := p) h
        rw [← hsplit, hbatch] at hall
        simpa [List.append_assoc] using hall.symm
      have hsorted := h
      rw [hrows, List.map_append, List.pairwise_append] at hsorted
      obtain ⟨hfront, -, hbehind⟩ := hsorted
      rw [hposition, hbatch]
      conv_lhs => rw [hrows]
      rw [upTo_append, upTo_eq_self, List.append_assoc]
      · intro r hr
        rw [List.map_append, List.pairwise_append] at hfront
        obtain hr | hr := List.mem_append.mp hr
        · exact Nat.le_of_lt (hfront.2.2 _ (List.mem_map_of_mem hr) (key last) (by simp))
        · exact Nat.le_of_eq (congrArg key (List.mem_singleton.mp hr))
      · intro r hr
        exact hbehind _ (by simp) _ (List.mem_map_of_mem hr)

/-- A position stays below a bound on the rows. -/
theorem position_lt {bound : ℕ} (hp : p < bound) (h : ∀ r ∈ rows, key r < bound) (n : ℕ) :
    position key p ((after key p rows).take n) < bound := by
  cases hlast : ((after key p rows).take n).getLast? with
  | none => rw [position, hlast]; exact hp
  | some last =>
      have hmem : last ∈ after key p rows := List.mem_of_mem_take (List.mem_of_getLast? hlast)
      rw [position, hlast]
      exact h last (mem_after.mp hmem).1

end PrefixScan
