import Mathlib.Data.Nat.ModEq
import Mathlib.Data.List.Basic

/-!
# Stop and wait with wrapping block numbers

The sender repeats a block until it is acknowledged. The receiver counts the blocks modulo `m`,
stores the one it expects and acknowledges a repeat of the last without storing it, so that a
lost acknowledgement does no harm.
-/

namespace StopAndWait
variable {Block Error State : Type*} {m k : ℕ} {block : ℕ → Block} {stored : List Block}

/-- The number of the block that follows `k` others. -/
def number (m k : ℕ) : ℕ := (k + 1) % m

/-- Whether a block is acknowledged, and what the receiver then holds. -/
def accept (m : ℕ) (stored : List Block) (n : ℕ) (b : Block) : Bool × List Block :=
  if n = number m stored.length then (true, stored ++ [b])
  else if stored ≠ [] ∧ n = stored.length % m then (true, stored)
  else (false, stored)

def firstBlocks (block : ℕ → Block) (k : ℕ) : List Block := (List.range k).map block

@[simp] theorem length_firstBlocks : (firstBlocks block k).length = k := by
  simp [firstBlocks]

theorem firstBlocks_succ : firstBlocks block (k + 1) = firstBlocks block k ++ [block k] := by
  simp [firstBlocks, List.range_succ]

/-- Block `k` is on its way: it is the next one, or it is held already and only its
acknowledgement is missing. -/
def Sending (block : ℕ → Block) (k : ℕ) (stored : List Block) : Prop :=
  stored = firstBlocks block k ∨ stored = firstBlocks block (k + 1)

theorem number_succ_ne (hm : 1 < m) : number m k ≠ number m (k + 1) := by
  intro h
  have hmod : 0 ≡ 1 [MOD m] := Nat.ModEq.add_left_cancel' (k + 1) h
  have hone : 0 % m = 1 % m := hmod
  rw [Nat.zero_mod, Nat.mod_eq_of_lt hm] at hone
  exact Nat.zero_ne_one hone

/-- Two numbers are enough to tell the next block from a repeat. -/
theorem accept_current (hm : 1 < m) (h : Sending block k stored) :
    accept m stored (number m k) (block k) = (true, firstBlocks block (k + 1)) := by
  rcases h with rfl | rfl
  · simp [accept, firstBlocks_succ]
  · have hrepeat : firstBlocks block (k + 1) ≠ [] := by simp [firstBlocks_succ]
    have hlast : number m k = (firstBlocks block (k + 1)).length % m := by
      rw [length_firstBlocks]
      rfl
    rw [accept, if_neg (by simpa using number_succ_ne hm), if_pos ⟨hrepeat, hlast⟩]

/-- What the sender makes of one attempt. -/
inductive Verdict (Error : Type*)
  | acknowledged
  | cancelled (e : Error)
  | again

/-- At most `n` attempts. -/
def retry (attempt : State → Verdict Error × State) (exhausted : Error) :
    ℕ → State → Except Error Unit × State
  | 0, s => (.error exhausted, s)
  | n + 1, s =>
    match attempt s with
    | (.acknowledged, s') => (.ok (), s')
    | (.cancelled e, s') => (.error e, s')
    | (.again, s') => retry attempt exhausted n s'

section Retry
variable {attempt : State → Verdict Error × State} {exhausted : Error} {n : ℕ} {s : State}

/-- What survives a repetition holds when the acknowledged attempt is made. -/
theorem retry_ok (exhausted : Error) {P Q : State → Prop} (hs : P s)
    (hagain : ∀ s, P s → (attempt s).1 = .again → P (attempt s).2)
    (hacknowledged : ∀ s, P s → (attempt s).1 = .acknowledged → Q (attempt s).2)
    (hok : (retry attempt exhausted n s).1 = .ok ()) : Q (retry attempt exhausted n s).2 := by
  induction n generalizing s with
  | zero => cases hok
  | succ n ih =>
    cases hattempt : attempt s with
    | mk verdict s' =>
      have hs' : s' = (attempt s).2 := by rw [hattempt]
      cases verdict with
      | acknowledged =>
        simp only [retry, hattempt]
        exact hs' ▸ hacknowledged s hs (by rw [hattempt])
      | cancelled e => simp only [retry, hattempt, reduceCtorEq] at hok
      | again =>
        simp only [retry, hattempt] at hok ⊢
        exact ih (hs' ▸ hagain s hs (by rw [hattempt])) hok

/-- `n` attempts cost at most `n` times what one attempt costs. -/
theorem retry_cost (attempt : State → Verdict Error × State) (exhausted : Error)
    (cost : State → ℕ) (hone : ∀ s, cost (attempt s).2 ≤ cost s + 1) :
    cost (retry attempt exhausted n s).2 ≤ cost s + n := by
  induction n generalizing s with
  | zero => rfl
  | succ n ih =>
    cases hattempt : attempt s with
    | mk verdict s' =>
      have hfirst : cost s' ≤ cost s + 1 := by simpa only [hattempt] using hone s
      cases verdict with
      | acknowledged => simp only [retry, hattempt]; omega
      | cancelled e => simp only [retry, hattempt]; omega
      | again =>
        simp only [retry, hattempt]
        exact ih.trans (by omega)

end Retry

end StopAndWait
