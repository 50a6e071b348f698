import Mathlib.Data.BitVec
import Mathlib.Logic.Function.Iterate

/-!
# Cyclic redundancy checks, most significant bit first

A message bit is added to the top of the register; the bit that leaves at the top adds the
polynomial. With the constant term of the polynomial set no step loses anything, so that a burst
as long as the register is always seen, and a register that is fed its own bits is cleared.
-/

namespace ForwardCrc
variable {w : ℕ} (poly : BitVec w)

/-- A bit at the top of the register. -/
def top (w : ℕ) (b : Bool) : BitVec w := if b then BitVec.intMin w else 0#w

def shift (r : BitVec w) : BitVec w := (r <<< 1) ^^^ (if r.msb then poly else 0#w)

/-- One bit of the message. -/
def bitStep (r : BitVec w) (b : Bool) : BitVec w := shift poly (r ^^^ top w b)

/-- A message, bit by bit. -/
def feed (r : BitVec w) (message : List Bool) : BitVec w := message.foldl (bitStep poly) r

/-- A message as the first bits of a word. -/
def word (w : ℕ) : List Bool → BitVec w
  | [] => 0#w
  | b :: message => top w b ^^^ (word w message >>> 1)

/-- The bits of a word, the top one first. -/
def bitsOf {n : ℕ} (x : BitVec n) : List Bool := List.ofFn fun i : Fin n => x.getMsbD i

@[simp] theorem feed_nil (r : BitVec w) : feed poly r [] = r := rfl

@[simp] theorem feed_cons (r : BitVec w) (b : Bool) (message : List Bool) :
    feed poly r (b :: message) = feed poly (bitStep poly r b) message := rfl

theorem feed_append (r : BitVec w) (xs ys : List Bool) :
    feed poly r (xs ++ ys) = feed poly (feed poly r xs) ys := List.foldl_append

@[simp] theorem length_bitsOf {n : ℕ} (x : BitVec n) : (bitsOf x).length = n := List.length_ofFn

/-! ## Linearity -/

theorem shift_xor (r s : BitVec w) : shift poly (r ^^^ s) = shift poly r ^^^ shift poly s := by
  rw [shift, shift, shift, BitVec.shiftLeft_xor_distrib, BitVec.msb_xor]
  apply BitVec.eq_of_getLsbD_eq
  intro i _
  cases r.msb <;> cases s.msb <;> simp only [BitVec.getLsbD_xor] <;>
    cases (r <<< 1).getLsbD i <;> cases (s <<< 1).getLsbD i <;> cases poly.getLsbD i <;> simp

theorem shift_zero : shift poly 0#w = 0#w := by
  have hself := shift_xor poly 0#w 0#w
  rw [BitVec.xor_self] at hself
  rw [hself, BitVec.xor_self]

theorem iterate_shift_xor (n : ℕ) (r s : BitVec w) :
    (shift poly)^[n] (r ^^^ s) = (shift poly)^[n] r ^^^ (shift poly)^[n] s := by
  induction n generalizing r s with
  | zero => rfl
  | succ n ih => rw [Function.iterate_succ_apply, shift_xor, ih]; rfl

theorem iterate_shift_zero (n : ℕ) : (shift poly)^[n] 0#w = 0#w :=
  Function.iterate_fixed (shift_zero poly) n

/-! ## Nothing is lost -/

section Constant
variable {poly}

theorem shift_eq_zero (hpoly : poly.getLsbD 0 = true) {r : BitVec w} (h : shift poly r = 0#w) :
    r = 0#w := by
  have hbit (i : ℕ) : (shift poly r).getLsbD i = false := by rw [h]; exact BitVec.getLsbD_zero
  have hwidth : 0 < w := BitVec.lt_of_getLsbD hpoly
  -- the constant term shows whether a bit has left
  have hmsb : r.msb = false := by
    have hlow := hbit 0
    by_contra hset
    rw [Bool.not_eq_false] at hset
    simp [shift, hset, hpoly] at hlow
  apply BitVec.eq_of_getLsbD_eq
  intro i hi
  rw [BitVec.getLsbD_zero]
  by_cases hlast : i + 1 = w
  · have hplace : i = w - 1 := by omega
    rw [hplace, ← BitVec.msb_eq_getLsbD_last, hmsb]
  · have hnext := hbit (i + 1)
    have hlt : i + 1 < w := by omega
    rw [shift, hmsb, if_neg Bool.false_ne_true, BitVec.xor_zero, BitVec.getLsbD_shiftLeft] at hnext
    simpa [hlt] using hnext

theorem shift_injective (hpoly : poly.getLsbD 0 = true) : Function.Injective (shift poly) := by
  intro r s h
  apply BitVec.xor_eq_zero_iff.mp
  apply shift_eq_zero hpoly
  rw [shift_xor, h, BitVec.xor_self]

theorem bitStep_injective (hpoly : poly.getLsbD 0 = true) (b : Bool) :
    Function.Injective fun r => bitStep poly r b := by
  intro r s h
  have hadded : r ^^^ top w b = s ^^^ top w b := shift_injective hpoly h
  exact (BitVec.xor_left_inj (top w b)).mp hadded

theorem feed_injective (hpoly : poly.getLsbD 0 = true) (message : List Bool) :
    Function.Injective fun r => feed poly r message := by
  induction message with
  | nil => exact Function.injective_id
  | cons b message ih => exact ih.comp (bitStep_injective hpoly b)

end Constant

/-! ## Words -/

theorem getLsbD_top (w : ℕ) (b : Bool) (i : ℕ) :
    (top w b).getLsbD i = (b && decide (i + 1 = w)) := by
  cases b with
  | false => exact BitVec.getLsbD_zero
  | true => rw [top, if_pos rfl, BitVec.getLsbD_intMin, Bool.true_and]

theorem getMsbD_top (w : ℕ) (b : Bool) (i : ℕ) :
    (top w b).getMsbD i = (b && decide (i = 0 ∧ 0 < w)) := by
  rw [BitVec.getMsbD_eq_getLsbD, getLsbD_top]
  by_cases hi : i < w
  · have hplace : w - 1 - i + 1 = w ↔ i = 0 ∧ 0 < w := by omega
    simp [hi, hplace]
  · have hout : ¬(i = 0 ∧ 0 < w) := by omega
    simp [hi, hout]

theorem getMsbD_ushiftRight_one (x : BitVec w) (i : ℕ) :
    (x >>> 1).getMsbD (i + 1) = (decide (i + 1 < w) && x.getMsbD i) := by
  rw [BitVec.getMsbD_ushiftRight]
  by_cases hi : i + 1 < w
  · simp [hi]
  · simp [hi]

theorem getMsbD_word (message : List Bool) (i : ℕ) :
    (word w message).getMsbD i = (decide (i < w) && message.getD i false) := by
  induction message generalizing i with
  | nil => simp [word]
  | cons b message ih =>
    rw [word, BitVec.getMsbD_xor, getMsbD_top]
    cases i with
    | zero => simp [BitVec.getMsbD_ushiftRight, Bool.and_comm]
    | succ i =>
      rw [getMsbD_ushiftRight_one, ih]
      by_cases hi : i + 1 < w
      · have hlt : i < w := by omega
        simp [hi, hlt]
      · simp [hi]

theorem word_bitsOf (x : BitVec w) : word w (bitsOf x) = x := by
  apply BitVec.eq_of_getMsbD_eq
  intro i hi
  rw [getMsbD_word]
  simp [bitsOf, hi]

theorem word_injective {xs ys : List Bool} (hlength : xs.length = ys.length)
    (hfits : xs.length ≤ w) (h : word w xs = word w ys) : xs = ys := by
  apply List.ext_getElem hlength
  intro i hx hy
  have hbit : (word w xs).getMsbD i = (word w ys).getMsbD i := by rw [h]
  have hi : i < w := by omega
  rw [getMsbD_word, getMsbD_word] at hbit
  simpa [hi, hx, hy] using hbit

/-- Bits that have come down by one place are still to come. -/
theorem shift_ushiftRight (message : List Bool) (hfits : message.length < w) :
    shift poly (word w message >>> 1) = word w message := by
  have hwidth : 0 < w := by omega
  have hmsb : (word w message >>> 1).msb = false := by
    rw [BitVec.msb_ushiftRight]
    simp
  rw [shift, hmsb, if_neg Bool.false_ne_true, BitVec.xor_zero]
  apply BitVec.eq_of_getMsbD_eq
  intro i hi
  rw [BitVec.getMsbD_shiftLeft, Nat.add_comm, Nat.add_comm 1 i, getMsbD_ushiftRight_one,
    getMsbD_word]
  by_cases hlast : i + 1 < w
  · simp [hlast]
  · have hout : message.length ≤ i := by omega
    simp [hlast, hout]

/-- A message that fits into the register may be added to it at once. -/
theorem feed_eq_iterate (r : BitVec w) (message : List Bool) (hfits : message.length ≤ w) :
    feed poly r message = (shift poly)^[message.length] (r ^^^ word w message) := by
  induction message generalizing r with
  | nil => simp [word]
  | cons b message ih =>
    rw [List.length_cons] at hfits
    rw [feed_cons, ih (bitStep poly r b) (by omega), List.length_cons,
      Function.iterate_succ_apply, word, ← BitVec.xor_assoc, shift_xor poly (r ^^^ top w b),
      shift_ushiftRight poly message (by omega), bitStep]

/-! ## What a check sees -/

theorem feed_own_bits (r : BitVec w) : feed poly r (bitsOf r) = 0#w := by
  rw [feed_eq_iterate poly r (bitsOf r) (by rw [length_bitsOf]), word_bitsOf, BitVec.xor_self]
  exact iterate_shift_zero poly _

/-- Two messages that differ inside a burst no longer than the register. -/
theorem feed_burst {poly : BitVec w} (hpoly : poly.getLsbD 0 = true) (r : BitVec w)
    (before after : List Bool) {xs ys : List Bool} (hlength : xs.length = ys.length)
    (hfits : xs.length ≤ w) (hne : xs ≠ ys) :
    feed poly r (before ++ xs ++ after) ≠ feed poly r (before ++ ys ++ after) := by
  intro h
  apply hne
  rw [feed_append, feed_append, feed_append, feed_append] at h
  have hburst := feed_injective hpoly after h
  rw [feed_eq_iterate poly _ xs hfits, feed_eq_iterate poly _ ys (hlength ▸ hfits),
    ← hlength] at hburst
  have hadded := (shift_injective hpoly).iterate xs.length hburst
  exact word_injective hlength hfits ((BitVec.xor_right_inj _).mp hadded)

/-- Two messages that agree outside a window no longer than the register. -/
theorem feed_window {poly : BitVec w} (hpoly : poly.getLsbD 0 = true) (r : BitVec w)
    {xs ys : List Bool} (hlength : xs.length = ys.length) (hne : xs ≠ ys) (start : ℕ)
    (hwindow : ∀ i, i < start ∨ start + w ≤ i → xs[i]? = ys[i]?) :
    feed poly r xs ≠ feed poly r ys := by
  have hparts (zs : List Bool) :
      zs = zs.take start ++ (zs.drop start).take w ++ zs.drop (start + w) := by
    rw [List.append_assoc, ← List.drop_drop, List.take_append_drop, List.take_append_drop]
  have hbefore : xs.take start = ys.take start := by
    apply List.ext_getElem?
    intro i
    rw [List.getElem?_take, List.getElem?_take]
    split_ifs with hi
    · exact hwindow i (.inl hi)
    · rfl
  have hafter : xs.drop (start + w) = ys.drop (start + w) := by
    apply List.ext_getElem?
    intro i
    rw [List.getElem?_drop, List.getElem?_drop]
    exact hwindow _ (.inr (by omega))
  have hburst : (xs.drop start).take w ≠ (ys.drop start).take w := by
    intro heq
    apply hne
    rw [hparts xs, hparts ys, hbefore, heq, hafter]
  rw [hparts xs, hparts ys, hbefore, hafter]
  exact feed_burst hpoly r _ _ (by simp [hlength]) (List.length_take_le _ _) hburst

end ForwardCrc
