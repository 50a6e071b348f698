import Mathlib.Data.Nat.Bitwise
import Mathlib.Logic.Function.Iterate

/-!
# Reflected cyclic redundancy checks

One bit leaves the register at its low end and, where it was set, the polynomial is added. This is
linear, so a byte may be taken through a table of 256 entries, and with the top bit of the
polynomial set it loses nothing: two messages that differ in one byte leave different registers.
-/

namespace ReflectedCrc
variable (poly : ℕ)

/-- One bit. -/
def shift (r : ℕ) : ℕ := (r >>> 1) ^^^ if r.testBit 0 then poly else 0

/-- One byte, bit by bit. -/
def byteStep (r b : ℕ) : ℕ := (shift poly)^[8] (r ^^^ b)

/-- A message, bit by bit. -/
def register (init : ℕ) (message : List ℕ) : ℕ := message.foldl (byteStep poly) init

/-- One byte by a table. -/
def tableStep (table : ℕ → ℕ) (r b : ℕ) : ℕ := (r >>> 8) ^^^ table ((r ^^^ b) &&& 0xFF)

/-! ## Tables -/

theorem shift_xor (a b : ℕ) : shift poly (a ^^^ b) = shift poly a ^^^ shift poly b := by
  rw [shift, shift, shift, Nat.shiftRight_xor_distrib, Nat.testBit_xor]
  apply Nat.eq_of_testBit_eq
  intro i
  cases a.testBit 0 <;> cases b.testBit 0 <;> simp only [Nat.testBit_xor] <;>
    cases (a >>> 1).testBit i <;> cases (b >>> 1).testBit i <;> cases poly.testBit i <;> simp

theorem shift_iterate_xor (n a b : ℕ) :
    (shift poly)^[n] (a ^^^ b) = (shift poly)^[n] a ^^^ (shift poly)^[n] b := by
  induction n generalizing a b with
  | zero => rfl
  | succ n ih => rw [Function.iterate_succ_apply, shift_xor, ih]; rfl

/-- Bits that are not set leave without a trace. -/
theorem shift_iterate_shiftLeft (n a : ℕ) : (shift poly)^[n] (a <<< n) = a := by
  induction n with
  | zero => rw [Function.iterate_zero_apply, Nat.shiftLeft_zero]
  | succ n ih =>
      have hlow : (a <<< (n + 1)).testBit 0 = false := by simp
      have hnext : shift poly (a <<< (n + 1)) = a <<< n := by
        rw [shift, hlow, if_neg Bool.false_ne_true, Nat.xor_zero, Nat.shiftLeft_succ,
          Nat.shiftRight_one, Nat.mul_div_cancel_left _ Nat.two_pos]
      rw [Function.iterate_succ_apply, hnext, ih]

theorem split_low (n r : ℕ) : r = ((r >>> n) <<< n) ^^^ (r % 2 ^ n) := by
  apply Nat.eq_of_testBit_eq
  intro i
  rw [Nat.testBit_xor, Nat.testBit_shiftLeft, Nat.testBit_shiftRight, Nat.testBit_mod_two_pow]
  by_cases hi : i < n
  · simp [hi, Nat.not_le.mpr hi]
  · have hback : n + (i - n) = i := by omega
    simp [hi, hback, not_lt.mp hi]

/-- The bits that stay and the bits that leave act on their own. -/
theorem shift_iterate_eq (n r : ℕ) :
    (shift poly)^[n] r = (r >>> n) ^^^ (shift poly)^[n] (r % 2 ^ n) := by
  conv_lhs => rw [split_low n r]
  rw [shift_iterate_xor, shift_iterate_shiftLeft]

theorem tableStep_eq {table : ℕ → ℕ} (htable : ∀ i < 256, table i = (shift poly)^[8] i) (r : ℕ) {b : ℕ}
    (hb : b < 256) : tableStep table r b = byteStep poly r b := by
  have hmask : (r ^^^ b) &&& 0xFF = (r ^^^ b) % 2 ^ 8 := Nat.and_two_pow_sub_one_eq_mod _ 8
  have hlow : (r ^^^ b) % 2 ^ 8 < 256 := Nat.mod_lt _ (by decide)
  have hhigh : b >>> 8 = 0 := by
    rw [Nat.shiftRight_eq_div_pow]
    exact Nat.div_eq_of_lt hb
  rw [tableStep, byteStep, shift_iterate_eq, hmask, htable _ hlow,
    Nat.shiftRight_xor_distrib, hhigh, Nat.xor_zero]

/-! ## One changed byte -/

section Width
variable {poly} {w : ℕ} (hpoly : poly < 2 ^ (w + 1)) (htop : poly.testBit w = true)
include hpoly

theorem shift_lt {r : ℕ} (h : r < 2 ^ (w + 1)) : shift poly r < 2 ^ (w + 1) := by
  have hhalf : r >>> 1 < 2 ^ (w + 1) := lt_of_le_of_lt (Nat.shiftRight_le r 1) h
  refine Nat.xor_lt_two_pow hhalf ?_
  split
  · exact hpoly
  · exact Nat.two_pow_pos _

theorem shift_iterate_lt {r : ℕ} (h : r < 2 ^ (w + 1)) (n : ℕ) :
    (shift poly)^[n] r < 2 ^ (w + 1) := by
  induction n with
  | zero => exact h
  | succ n ih =>
      rw [Function.iterate_succ_apply']
      exact shift_lt hpoly ih

theorem byteStep_lt {r b : ℕ} (hr : r < 2 ^ (w + 1)) (hb : b < 2 ^ (w + 1)) :
    byteStep poly r b < 2 ^ (w + 1) :=
  shift_iterate_lt hpoly (Nat.xor_lt_two_pow hr hb) 8

theorem register_lt {init : ℕ} (hinit : init < 2 ^ (w + 1)) {message : List ℕ}
    (hmessage : ∀ b ∈ message, b < 2 ^ (w + 1)) : register poly init message < 2 ^ (w + 1) := by
  induction message generalizing init with
  | nil => exact hinit
  | cons b rest ih =>
      rw [List.forall_mem_cons] at hmessage
      exact ih (byteStep_lt hpoly hinit hmessage.1) hmessage.2

omit hpoly in
/-- The top bit tells whether the polynomial was added. -/
theorem shift_testBit_top {r : ℕ} (h : r < 2 ^ (w + 1)) (htop : poly.testBit w = true) :
    (shift poly r).testBit w = r.testBit 0 := by
  have hclear : (r >>> 1).testBit w = false := by
    rw [Nat.testBit_shiftRight, Nat.add_comm]
    exact Nat.testBit_lt_two_pow h
  rw [shift, Nat.testBit_xor, hclear, Bool.false_xor]
  cases r.testBit 0 <;> simp [htop]

omit hpoly in
theorem shift_injective {a b : ℕ} (ha : a < 2 ^ (w + 1)) (hb : b < 2 ^ (w + 1))
    (htop : poly.testBit w = true) (h : shift poly a = shift poly b) : a = b := by
  have hlow : a.testBit 0 = b.testBit 0 := by
    rw [← shift_testBit_top ha htop, h, shift_testBit_top hb htop]
  rw [shift, shift, hlow] at h
  have hhigh : a >>> 1 = b >>> 1 := Nat.xor_left_inj.mp h
  apply Nat.eq_of_testBit_eq
  intro i
  cases i with
  | zero => exact hlow
  | succ i =>
      have hbit := congrArg (Nat.testBit · i) hhigh
      simpa [Nat.testBit_shiftRight, Nat.add_comm] using hbit

include htop

theorem shift_iterate_injective {a b : ℕ} (ha : a < 2 ^ (w + 1)) (hb : b < 2 ^ (w + 1)) (n : ℕ)
    (h : (shift poly)^[n] a = (shift poly)^[n] b) : a = b := by
  induction n with
  | zero => exact h
  | succ n ih =>
      rw [Function.iterate_succ_apply', Function.iterate_succ_apply'] at h
      exact ih (shift_injective (shift_iterate_lt hpoly ha n) (shift_iterate_lt hpoly hb n) htop h)

theorem byteStep_eq_iff {r s a b : ℕ} (hr : r < 2 ^ (w + 1)) (hs : s < 2 ^ (w + 1))
    (ha : a < 2 ^ (w + 1)) (hb : b < 2 ^ (w + 1)) :
    byteStep poly r a = byteStep poly s b ↔ r ^^^ a = s ^^^ b := by
  constructor
  · intro h
    exact shift_iterate_injective hpoly htop (Nat.xor_lt_two_pow hr ha) (Nat.xor_lt_two_pow hs hb) 8 h
  · intro h
    rw [byteStep, byteStep, h]

/-- What follows keeps two registers apart. -/
theorem register_injective {r s : ℕ} (hr : r < 2 ^ (w + 1)) (hs : s < 2 ^ (w + 1)) {message : List ℕ}
    (hmessage : ∀ b ∈ message, b < 2 ^ (w + 1)) (h : register poly r message = register poly s message) :
    r = s := by
  induction message generalizing r s with
  | nil => exact h
  | cons b rest ih =>
      rw [List.forall_mem_cons] at hmessage
      obtain ⟨hb, hrest⟩ := hmessage
      have hstep := ih (byteStep_lt hpoly hr hb) (byteStep_lt hpoly hs hb) hrest h
      exact Nat.xor_left_inj.mp ((byteStep_eq_iff hpoly htop hr hs hb hb).mp hstep)

/-- One byte that is changed changes the register. -/
theorem register_ne {init : ℕ} (hinit : init < 2 ^ (w + 1)) {before after : List ℕ} {a b : ℕ}
    (hbefore : ∀ c ∈ before, c < 2 ^ (w + 1)) (hafter : ∀ c ∈ after, c < 2 ^ (w + 1))
    (ha : a < 2 ^ (w + 1)) (hb : b < 2 ^ (w + 1)) (hne : a ≠ b) :
    register poly init (before ++ a :: after) ≠ register poly init (before ++ b :: after) := by
  intro h
  rw [register, List.foldl_append, register, List.foldl_append] at h
  have hr := register_lt hpoly hinit hbefore
  have hstep := register_injective hpoly htop (byteStep_lt hpoly hr ha)
    (byteStep_lt hpoly hr hb) hafter h
  exact hne (Nat.xor_right_inj.mp ((byteStep_eq_iff hpoly htop hr hr ha hb).mp hstep))

end Width

end ReflectedCrc
