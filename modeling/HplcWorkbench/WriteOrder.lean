import Mathlib.Data.List.Induction
import Mathlib.Logic.Function.Basic

/-!
# Numbers that are given out and written later

A thread takes the next number, holds it, and then writes it or loses it. The numbers are written in
their order, and none is lost, exactly as long as each one that is written is the least that is held.
Once that is broken it is not regained.
-/

namespace WriteOrder

structure Log (T : Type) where
  count : ℕ := 0
  held : T → Option ℕ := fun _ => none
  written : List ℕ := []

namespace Log
variable {T : Type} [DecidableEq T]

/-- A thread takes the next number. -/
def number (l : Log T) (t : T) : Log T :=
  ⟨l.count + 1, Function.update l.held t (some l.count), l.written⟩

/-- A thread writes its number, or loses it. -/
def write (l : Log T) (t : T) (n : ℕ) (kept : Bool) : Log T :=
  ⟨l.count, Function.update l.held t none, if kept then l.written ++ [n] else l.written⟩

omit [DecidableEq T] in
/-- What was written is put away. -/
def restart (l : Log T) : Log T := ⟨l.count, l.held, []⟩

/-- Each number is held by one thread, and none is held that was written. -/
structure Owned (l : Log T) : Prop where
  lt : ∀ t n, l.held t = some n → n < l.count
  unique : ∀ t t' n, l.held t = some n → l.held t' = some n → t = t'
  unwritten : ∀ t n, l.held t = some n → n ∉ l.written
  written_lt : ∀ n ∈ l.written, n < l.count

/-- The first numbers were written in their order, and the others are held. -/
structure InOrder (l : Log T) : Prop where
  written_eq : l.written = List.range l.written.length
  held : ∀ n, l.written.length ≤ n → n < l.count → ∃ t, l.held t = some n

variable {l : Log T} {t : T} {n : ℕ} {kept : Bool}

theorem update_eq_some {held : T → Option ℕ} {v : Option ℕ} {t' : T} {m : ℕ} :
    Function.update held t v t' = some m ↔ t' = t ∧ v = some m ∨ t' ≠ t ∧ held t' = some m := by
  by_cases h : t' = t
  · subst h
    simp
  · simp [h]

section Owned

omit [DecidableEq T] in
theorem owned_empty : Owned ({} : Log T) := by
  constructor <;> simp

theorem Owned.number (h : l.Owned) (t : T) : (l.number t).Owned := by
  unfold Log.number
  constructor
  · intro t' m hm
    rcases update_eq_some.mp hm with ⟨-, hm⟩ | ⟨-, hm⟩
    · rw [← Option.some.inj hm]
      exact Nat.lt_succ_self _
    · exact Nat.lt_succ_of_lt (h.lt t' m hm)
  · intro t₁ t₂ m h₁ h₂
    rcases update_eq_some.mp h₁ with ⟨rfl, hnew₁⟩ | ⟨-, hold₁⟩ <;>
      rcases update_eq_some.mp h₂ with ⟨rfl, hnew₂⟩ | ⟨-, hold₂⟩
    · rfl
    · exact absurd (Option.some.inj hnew₁) (Nat.ne_of_gt (h.lt t₂ m hold₂))
    · exact absurd (Option.some.inj hnew₂) (Nat.ne_of_gt (h.lt t₁ m hold₁))
    · exact h.unique t₁ t₂ m hold₁ hold₂
  · intro t' m hm hwritten
    rcases update_eq_some.mp hm with ⟨-, hm⟩ | ⟨-, hm⟩
    · exact absurd (Option.some.inj hm) (Nat.ne_of_gt (h.written_lt m hwritten))
    · exact h.unwritten t' m hm hwritten
  · intro m hm
    exact Nat.lt_succ_of_lt (h.written_lt m hm)

theorem Owned.write (h : l.Owned) (ht : l.held t = some n) (kept : Bool) :
    (l.write t n kept).Owned := by
  have hother : ∀ t' m, Function.update l.held t none t' = some m → t' ≠ t ∧ l.held t' = some m := by
    intro t' m hm
    rcases update_eq_some.mp hm with ⟨-, hm⟩ | hm
    · cases hm
    · exact hm
  have hmem : ∀ m, m ∈ (l.write t n kept).written → m ∈ l.written ∨ m = n := by
    intro m hm
    unfold Log.write at hm
    cases kept with
    | false => exact .inl hm
    | true => exact (List.mem_append.mp hm).imp_right List.mem_singleton.mp
  constructor
  · intro t' m hm
    exact h.lt t' m (hother t' m hm).2
  · intro t₁ t₂ m h₁ h₂
    exact h.unique t₁ t₂ m (hother t₁ m h₁).2 (hother t₂ m h₂).2
  · intro t' m hm hwritten
    obtain ⟨hne, hheld⟩ := hother t' m hm
    rcases hmem m hwritten with hold | rfl
    · exact h.unwritten t' m hheld hold
    · exact hne (h.unique t' t m hheld ht)
  · intro m hm
    rcases hmem m hm with hold | rfl
    · exact h.written_lt m hold
    · exact h.lt t m ht

omit [DecidableEq T] in
theorem Owned.restart (h : l.Owned) : l.restart.Owned where
  lt := h.lt
  unique := h.unique
  unwritten _ _ _ := List.not_mem_nil
  written_lt _ hm := absurd hm List.not_mem_nil

omit [DecidableEq T] in
theorem InOrder.le_held (hordered : l.InOrder) (h : l.Owned) (ht : l.held t = some n) :
    l.written.length ≤ n := by
  apply Nat.le_of_not_lt
  intro hlt
  apply h.unwritten t n ht
  rw [hordered.written_eq]
  exact List.mem_range.mpr hlt

end Owned

/-! ## What keeps the order -/

omit [DecidableEq T] in
theorem inOrder_empty : InOrder ({} : Log T) where
  written_eq := rfl
  held n _ hn := absurd hn (Nat.not_lt_zero n)

theorem number_inOrder_iff (ht : l.held t = none) : (l.number t).InOrder ↔ l.InOrder := by
  unfold number
  constructor
  · rintro ⟨hwritten, hheld⟩
    refine ⟨hwritten, ?_⟩
    intro n hle hlt
    obtain ⟨t', hn⟩ := hheld n hle (Nat.lt_succ_of_lt hlt)
    rcases update_eq_some.mp hn with ⟨-, hn⟩ | ⟨-, hn⟩
    · exact absurd (Option.some.inj hn) (Nat.ne_of_gt hlt)
    · exact ⟨t', hn⟩
  · rintro ⟨hwritten, hheld⟩
    refine ⟨hwritten, ?_⟩
    intro n hle hlt
    rcases Nat.lt_succ_iff_lt_or_eq.mp hlt with hlt | rfl
    · obtain ⟨t', hn⟩ := hheld n hle hlt
      refine ⟨t', update_eq_some.mpr (.inr ⟨?_, hn⟩)⟩
      rintro rfl
      cases ht.symm.trans hn
    · exact ⟨t, update_eq_some.mpr (.inl ⟨rfl, rfl⟩)⟩

/-- A write keeps the order exactly where the number is kept and is the least that is held. -/
theorem write_inOrder_iff (h : l.Owned) (ht : l.held t = some n) (hordered : l.InOrder) :
    (l.write t n kept).InOrder ↔ kept = true ∧ ∀ t' m, l.held t' = some m → n ≤ m := by
  have hheld : ∀ t' m, (l.write t n kept).held t' = some m → t' ≠ t ∧ l.held t' = some m := by
    intro t' m hm
    rcases update_eq_some.mp hm with ⟨-, hnone⟩ | hm
    · cases hnone
    · exact hm
  have hnot : ∀ t', (l.write t n kept).held t' ≠ some n := by
    intro t' hn
    exact (hheld t' n hn).1 (h.unique t' t n (hheld t' n hn).2 ht)
  constructor
  · rintro ⟨hwritten, hrest⟩
    have hlt : n < (l.write t n kept).written.length := by
      by_contra hle
      obtain ⟨t', hn⟩ := hrest n (Nat.le_of_not_lt hle) (h.lt t n ht)
      exact hnot t' hn
    cases kept with
    | false =>
      exact absurd (hordered.le_held h ht) (Nat.not_le.mpr hlt)
    | true =>
      refine ⟨rfl, ?_⟩
      intro t' m hm
      have hn : n ≤ l.written.length := by
        rw [write, if_pos rfl, List.length_append, List.length_singleton] at hlt
        exact Nat.lt_succ_iff.mp hlt
      exact Nat.le_trans hn (hordered.le_held h hm)
  · rintro ⟨rfl, hleast⟩
    have hn : n = l.written.length := by
      apply Nat.le_antisymm _ (hordered.le_held h ht)
      obtain ⟨t', hfirst⟩ := hordered.held l.written.length (Nat.le_refl _)
        (Nat.lt_of_le_of_lt (hordered.le_held h ht) (h.lt t n ht))
      exact hleast t' _ hfirst
    have hwritten : (l.write t n true).written = List.range (l.written.length + 1) := by
      rw [write, if_pos rfl, List.range_succ, ← hordered.written_eq, hn]
    have hlength : (l.write t n true).written.length = l.written.length + 1 := by
      rw [hwritten, List.length_range]
    constructor
    · rw [hlength, hwritten]
    · intro m hle hlt
      rw [hlength] at hle
      obtain ⟨t', hm⟩ := hordered.held m (Nat.le_of_succ_le hle) hlt
      refine ⟨t', update_eq_some.mpr (.inr ⟨?_, hm⟩)⟩
      rintro rfl
      exact absurd (Option.some.inj (ht.symm.trans hm)) (Nat.ne_of_lt (hn ▸ hle))

/-- The order is not regained by a write. -/
theorem inOrder_of_write (ht : l.held t = some n) (hordered : (l.write t n kept).InOrder) :
    l.InOrder := by
  have hback : ∀ m, (∃ t', (l.write t n kept).held t' = some m) → ∃ t', l.held t' = some m := by
    rintro m ⟨t', hm⟩
    rcases update_eq_some.mp hm with ⟨-, hnone⟩ | ⟨-, hm⟩
    · cases hnone
    · exact ⟨t', hm⟩
  obtain ⟨hwritten, hheld⟩ := hordered
  cases kept with
  | false => exact ⟨hwritten, fun m hle hlt => hback m (hheld m hle hlt)⟩
  | true =>
    rw [write, if_pos rfl, List.length_append, List.length_singleton, List.range_succ] at hwritten
    obtain ⟨hrange, hn⟩ := List.append_inj' hwritten rfl
    refine ⟨hrange, ?_⟩
    intro m hle hlt
    rcases Nat.eq_or_lt_of_le hle with rfl | hgt
    · rw [← List.singleton_inj.mp hn]
      exact ⟨t, ht⟩
    · apply hback
      apply hheld m _ hlt
      rw [write, if_pos rfl, List.length_append, List.length_singleton]
      exact hgt

omit [DecidableEq T] in
/-- Putting away what was written keeps the order exactly where nothing was. -/
theorem restart_inOrder_iff (h : l.Owned) : l.restart.InOrder ↔ l.InOrder ∧ l.written = [] := by
  constructor
  · rintro ⟨-, hheld⟩
    have hnil : l.written = [] := by
      apply List.eq_nil_iff_forall_not_mem.mpr
      intro n hn
      obtain ⟨t, ht⟩ := hheld n (Nat.zero_le n) (h.written_lt n hn)
      exact h.unwritten t n ht hn
    refine ⟨⟨?_, ?_⟩, hnil⟩
    · rw [hnil]
      rfl
    · intro n _ hlt
      exact hheld n (Nat.zero_le n) hlt
  · rintro ⟨⟨-, hheld⟩, hnil⟩
    refine ⟨rfl, ?_⟩
    intro n _ hlt
    apply hheld n _ hlt
    rw [hnil]
    exact Nat.zero_le n

omit [DecidableEq T] in
/-- Where none is held, the order is kept exactly if all numbers were written in order. -/
theorem inOrder_iff_of_quiet (h : l.Owned) (hquiet : ∀ t, l.held t = none) :
    l.InOrder ↔ l.written = List.range l.count := by
  constructor
  · rintro ⟨hwritten, hheld⟩
    have hlength : l.written.length = l.count := by
      apply Nat.le_antisymm
      · by_contra hlt
        have hmem : l.count ∈ l.written := by
          rw [hwritten]
          exact List.mem_range.mpr (Nat.lt_of_not_le hlt)
        exact Nat.lt_irrefl _ (h.written_lt _ hmem)
      · by_contra hlt
        obtain ⟨t, ht⟩ := hheld l.written.length (Nat.le_refl _) (Nat.lt_of_not_le hlt)
        cases (hquiet t).symm.trans ht
    rw [← hlength]
    exact hwritten
  · intro hwritten
    have hlength : l.written.length = l.count := by rw [hwritten, List.length_range]
    refine ⟨by rw [hlength, hwritten], ?_⟩
    intro n hle hlt
    exact absurd (hlength ▸ hle) (Nat.not_le.mpr hlt)

end Log
end WriteOrder
