import Mathlib.Algebra.Order.Ring.Int
import Mathlib.Data.Int.ModEq
import Mathlib.Data.List.Pairwise

/-!
# Cells of one period

Times are put into half-open cells that begin at the multiples of a period. Cells that begin at
different multiples are disjoint, and each time lies in the cell that begins with it rounded down.
-/

namespace PeriodCells

/-- The multiple of the period at or before a time. -/
def start (p t : ℤ) : ℤ := t - t % p

section Start
variable {p s t : ℤ}

theorem dvd_start (p t : ℤ) : p ∣ start p t := Int.dvd_self_sub_emod

theorem start_le (hp : 0 < p) (t : ℤ) : start p t ≤ t :=
  Int.sub_le_self t (Int.emod_nonneg t hp.ne')

theorem lt_start_add (hp : 0 < p) (t : ℤ) : t < start p t + p := by
  have hlt := Int.emod_lt_of_pos t hp
  rw [start]
  omega

/-- Different multiples are a period apart. -/
theorem add_le_of_lt (hs : p ∣ s) (ht : p ∣ t) (hlt : s < t) : s + p ≤ t := by
  have hle : p ≤ t - s := Int.le_of_dvd (Int.sub_pos_of_lt hlt) (Int.dvd_sub ht hs)
  omega

/-- A time lies in the cell that it starts and in no other. -/
theorem start_eq_iff (hp : 0 < p) (hs : p ∣ s) : start p t = s ↔ s ≤ t ∧ t < s + p := by
  constructor
  · rintro rfl
    exact ⟨start_le hp t, lt_start_add hp t⟩
  · rintro ⟨hle, hlt⟩
    have hbelow := start_le hp t
    have habove := lt_start_add hp t
    have hdvd := dvd_start p t
    obtain h | h | h := lt_trichotomy (start p t) s
    · have := add_le_of_lt hdvd hs h
      omega
    · exact h
    · have := add_le_of_lt hs hdvd h
      omega

end Start

/-- Cells of one period each, pairwise disjoint, that together hold every time exactly once. -/
structure Tiles {γ : Type} (p : ℤ) (first last : γ → ℤ) (size : γ → ℕ) (times : List ℤ)
    (cells : List γ) : Prop where
  width : ∀ c ∈ cells, last c = first c + p
  disjoint : cells.Pairwise fun c d => last c ≤ first d
  once : ∀ t ∈ times, ∃! c, c ∈ cells ∧ first c ≤ t ∧ t < last c
  sizes : ∀ c ∈ cells, size c = times.countP fun t => first c ≤ t ∧ t < last c

/-- Cells in order that begin at the starts of the times are tiles. -/
theorem tiles_of_starts {γ : Type} {p : ℤ} {first last : γ → ℤ} {size : γ → ℕ} {times : List ℤ}
    {cells : List γ} (hp : 0 < p) (hwidth : ∀ c ∈ cells, last c = first c + p)
    (hsorted : cells.Pairwise fun c d => first c < first d) (haligned : ∀ c ∈ cells, p ∣ first c)
    (hcover : ∀ t ∈ times, ∃ c ∈ cells, first c = start p t)
    (hsizes : ∀ c ∈ cells, size c = times.countP fun t => start p t = first c) :
    Tiles p first last size times cells where
  width := hwidth
  disjoint := by
    apply hsorted.imp_of_mem
    intro c d hc hd hlt
    rw [hwidth c hc]
    exact add_le_of_lt (haligned c hc) (haligned d hd) hlt
  once t ht := by
    obtain ⟨c, hc, hstart⟩ := hcover t ht
    refine ⟨c, ⟨hc, ?_⟩, ?_⟩
    · rw [hwidth c hc]
      exact (start_eq_iff hp (haligned c hc)).mp hstart.symm
    · rintro d ⟨hd, hin⟩
      rw [hwidth d hd] at hin
      have hsame : first c = first d := hstart.trans ((start_eq_iff hp (haligned d hd)).mpr hin)
      by_contra hne
      have hapart : cells.Pairwise fun c d => first c ≠ first d := hsorted.imp ne_of_lt
      have hsymm : Std.Symm fun c d => first c ≠ first d := ⟨fun _ _ h => h.symm⟩
      exact hapart.forall hc hd (Ne.symm hne) hsame
  sizes c hc := by
    rw [hsizes c hc]
    apply List.countP_congr
    intro t ht
    simp only [decide_eq_true_eq]
    rw [hwidth c hc]
    exact start_eq_iff hp (haligned c hc)

end PeriodCells
