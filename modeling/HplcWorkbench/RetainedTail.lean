import Mathlib.Data.List.Basic

/-!
# The last entries of a log

A log that drops its first entries when it is longer than `n` has the last `n` entries that were pushed.
Where the entries are numbered, they are those whose numbers are not too small.
-/

namespace RetainedTail

variable {α : Type*} (n : ℕ)

/-- The last `n` entries. -/
def keepLast (xs : List α) : List α := xs.drop (xs.length - n)

/-- An entry is pushed, and the first ones are dropped where there are more than `n`. -/
def push (xs : List α) (x : α) : List α :=
  if n < (xs ++ [x]).length then (xs ++ [x]).drop ((xs ++ [x]).length - n) else xs ++ [x]

theorem push_keepLast (xs : List α) (x : α) : push n (keepLast n xs) x = keepLast n (xs ++ [x]) := by
  have happend : keepLast n xs ++ [x] = (xs ++ [x]).drop (xs.length - n) := by
    rw [keepLast, List.drop_append_of_le_length (Nat.sub_le _ _)]
  have hlength : (keepLast n xs ++ [x]).length = xs.length + 1 - (xs.length - n) := by
    rw [happend, List.length_drop, List.length_append]
    rfl
  rw [push, hlength, happend, keepLast, List.drop_drop, List.length_append, List.length_singleton]
  split
  · congr 1
    omega
  · congr 1
    omega

/-- Numbered entries are retained down to a number. -/
theorem keepLast_eq_filter {xs : List α} {number : α → ℕ}
    (h : ∀ (i : ℕ) (hi : i < xs.length), number xs[i] = i) :
    keepLast n xs = xs.filter fun x => xs.length ≤ number x + n := by
  have htake : (xs.take (xs.length - n)).filter (fun x => xs.length ≤ number x + n) = [] := by
    apply List.filter_eq_nil_iff.mpr
    intro x hx
    obtain ⟨i, hi, rfl⟩ := List.getElem_of_mem hx
    rw [List.length_take] at hi
    rw [List.getElem_take, h i (by omega), decide_eq_true_eq]
    omega
  have hdrop : (xs.drop (xs.length - n)).filter (fun x => xs.length ≤ number x + n) =
      xs.drop (xs.length - n) := by
    apply List.filter_eq_self.mpr
    intro x hx
    obtain ⟨i, hi, rfl⟩ := List.getElem_of_mem hx
    rw [List.length_drop] at hi
    rw [List.getElem_drop, h _ (by omega), decide_eq_true_eq]
    omega
  conv_rhs => rw [← List.take_append_drop (xs.length - n) xs]
  rw [List.filter_append, List.take_append_drop, htake, hdrop, List.nil_append, keepLast]

end RetainedTail
