import HplcWorkbench.ForwardCrc
import HplcWorkbench.XmodemTransfer

/-!
# What the CRC of a block detects

`crc16_xmodem` works on whole bytes. Each is eight steps of the bit-serial check with the
polynomial 0x1021, from which both the self-check of a block that carries its CRC and the
detection of bursts follow.
-/

namespace HplcWorkbench.Xmodem

open ForwardCrc (feed bitsOf shift word)

def polynomial : BitVec 16 := 0x1021#16

/-- The bits of a byte in the order in which they go out, the top one first. -/
def byteBits (b : Byte) : List Bool := bitsOf (BitVec.ofNat 8 b)

def messageBits (data : Bytes) : List Bool := data.flatMap byteBits

@[simp] theorem length_byteBits (b : Byte) : (byteBits b).length = 8 := ForwardCrc.length_bitsOf _

theorem length_messageBits (data : Bytes) : (messageBits data).length = 8 * data.length := by
  induction data with
  | nil => rfl
  | cons b data ih =>
    rw [messageBits, List.flatMap_cons, List.length_append, length_byteBits, List.length_cons]
    rw [messageBits] at ih
    omega

theorem byteBits_injective : Function.Injective byteBits := by
  intro b c h
  have hword : BitVec.ofNat 8 (b : ℕ) = BitVec.ofNat 8 (c : ℕ) := by
    rw [← ForwardCrc.word_bitsOf (BitVec.ofNat 8 (b : ℕ)),
      ← ForwardCrc.word_bitsOf (BitVec.ofNat 8 (c : ℕ))]
    exact congrArg (word 8) h
  have hnat := congrArg BitVec.toNat hword
  rw [BitVec.toNat_ofNat, BitVec.toNat_ofNat] at hnat
  apply Fin.ext
  omega

theorem messageBits_injective : Function.Injective messageBits := by
  intro xs ys h
  induction xs generalizing ys with
  | nil =>
    have hlength := congrArg List.length h
    rw [length_messageBits, length_messageBits, List.length_nil] at hlength
    exact (List.eq_nil_of_length_eq_zero (by omega)).symm
  | cons b xs ih =>
    cases ys with
    | nil =>
      have hlength := congrArg List.length h
      rw [length_messageBits, length_messageBits, List.length_nil, List.length_cons] at hlength
      omega
    | cons c ys =>
      rw [messageBits, messageBits, List.flatMap_cons, List.flatMap_cons] at h
      obtain ⟨hbyte, hrest⟩ := List.append_inj h (by rw [length_byteBits, length_byteBits])
      rw [byteBits_injective hbyte, ih hrest]

/-! ## The register -/

theorem crcShift_toNat (r : BitVec 16) : crcShift r.toNat = (shift polynomial r).toNat := by
  have hmask (n : ℕ) : n &&& 0xFFFF = n % 2 ^ 16 := Nat.and_two_pow_sub_one_eq_mod n 16
  have htop : r.toNat &&& 0x8000 ≠ 0 ↔ r.msb = true := by
    rw [BitVec.msb_eq_getLsbD_last, ← BitVec.testBit_toNat]
    have hand := Nat.and_two_pow r.toNat 15
    norm_num at hand
    rw [hand]
    cases r.toNat.testBit 15 <;> simp
  rw [crcShift, shift]
  by_cases hset : r.msb = true
  · rw [if_pos (htop.mpr hset), if_pos hset, hmask, BitVec.toNat_xor, BitVec.toNat_shiftLeft]
    rw [Nat.xor_mod_two_pow]
    rfl
  · rw [if_neg (mt htop.mp hset), if_neg hset, hmask, BitVec.xor_zero, BitVec.toNat_shiftLeft]

theorem crcShift_iterate_toNat (n : ℕ) (r : BitVec 16) :
    crcShift^[n] r.toNat = ((shift polynomial)^[n] r).toNat := by
  induction n generalizing r with
  | zero => rfl
  | succ n ih => rw [Function.iterate_succ_apply, crcShift_toNat, ih, Function.iterate_succ_apply]

theorem getD_byteBits (b : Byte) {i : ℕ} (hi : i < 8) :
    (byteBits b).getD i false = (b : ℕ).testBit (7 - i) := by
  have hplace : 7 - i < 8 := by omega
  have hlength : i < (byteBits b).length := by rw [length_byteBits]; exact hi
  rw [List.getD_eq_getElem _ _ hlength]
  simp only [byteBits, bitsOf, List.getElem_ofFn, BitVec.getMsbD_eq_getLsbD, hi, decide_true,
    Bool.true_and, BitVec.getLsbD_ofNat, hplace]

theorem word_byteBits (b : Byte) : (word 16 (byteBits b)).toNat = (b : ℕ) <<< 8 := by
  have hword : word 16 (byteBits b) = BitVec.ofNat 16 b <<< 8 := by
    apply BitVec.eq_of_getMsbD_eq
    intro i hi
    rw [ForwardCrc.getMsbD_word, BitVec.getMsbD_shiftLeft, BitVec.getMsbD_eq_getLsbD,
      BitVec.getLsbD_ofNat]
    by_cases hbyte : i < 8
    · have hplace : 16 - 1 - (i + 8) = 7 - i := by omega
      have hinside : i + 8 < 16 := by omega
      have hbit : 7 - i < 16 := by omega
      rw [getD_byteBits b hbyte, hplace]
      simp [hi, hinside, hbit]
    · have hout : (byteBits b).getD i false = false := by
        apply List.getD_eq_default
        rw [length_byteBits]
        omega
      have houtside : ¬i + 8 < 16 := by omega
      rw [hout, Bool.and_false, decide_eq_false houtside, Bool.false_and]
  have hlt : (b : ℕ) <<< 8 < 2 ^ 16 := by
    rw [Nat.shiftLeft_eq]
    omega
  rw [hword, BitVec.toNat_shiftLeft, BitVec.toNat_ofNat, Nat.mod_eq_of_lt (a := (b : ℕ)) (by omega),
    Nat.mod_eq_of_lt hlt]

/-- A byte of the message is its eight bits. -/
theorem crcByte_toNat (r : BitVec 16) (b : Byte) :
    crcByte r.toNat b = (feed polynomial r (byteBits b)).toNat := by
  have hbyte : (b : ℕ) &&& 0xFF = b := by
    rw [BitFields.and_mask8, Nat.mod_eq_of_lt b.isLt]
  rw [crcByte, hbyte, ← word_byteBits, ← BitVec.toNat_xor, crcShift_iterate_toNat,
    ForwardCrc.feed_eq_iterate polynomial r (byteBits b) (by rw [length_byteBits]; decide),
    length_byteBits]

theorem foldl_crcByte (r : BitVec 16) (data : Bytes) :
    data.foldl crcByte r.toNat = (feed polynomial r (messageBits data)).toNat := by
  induction data generalizing r with
  | nil => rfl
  | cons b data ih =>
    rw [List.foldl_cons, crcByte_toNat, ih, messageBits, messageBits, List.flatMap_cons,
      ForwardCrc.feed_append]

theorem blockCrc_toNat (block : Bytes) :
    blockCrc block = (feed polynomial 0#16 (messageBits block)).toNat := by
  have hmask (n : ℕ) : n &&& 0xFFFF = n % 2 ^ 16 := Nat.and_two_pow_sub_one_eq_mod n 16
  have hfold := foldl_crcByte 0#16 block
  rw [BitVec.toNat_ofNat, Nat.zero_mod] at hfold
  rw [blockCrc, hfold, hmask, Nat.mod_eq_of_lt (BitVec.isLt _)]

/-- The big-endian bytes of the register are its bits. -/
theorem messageBits_register (r : BitVec 16) :
    messageBits [byte (r.toNat >>> 8), byte r.toNat] = bitsOf r := by
  have hbit (n : ℕ) {i : ℕ} (hi : i < 8) :
      (byteBits (byte n)).getD i false = n.testBit (7 - i) := by
    have hplace : 7 - i < 8 := by omega
    rw [getD_byteBits _ hi, byte_val, show 256 = 2 ^ 8 from rfl, Nat.testBit_mod_two_pow]
    simp [hplace]
  apply ForwardCrc.word_injective (w := 16)
  · rw [length_messageBits, ForwardCrc.length_bitsOf]
    rfl
  · rw [length_messageBits, List.length_cons, List.length_singleton]
  rw [ForwardCrc.word_bitsOf]
  apply BitVec.eq_of_getMsbD_eq
  intro i hi
  have hpair (hi' lo : Byte) : messageBits [hi', lo] = byteBits hi' ++ byteBits lo := by
    simp [messageBits]
  rw [ForwardCrc.getMsbD_word, hpair, BitVec.getMsbD_eq_getLsbD, ← BitVec.testBit_toNat]
  simp only [hi, decide_true, Bool.true_and]
  by_cases hhigh : i < 8
  · rw [List.getD_append _ _ _ _ (by rw [length_byteBits]; exact hhigh), hbit _ hhigh,
      Nat.testBit_shiftRight]
    congr 1
    omega
  · rw [List.getD_append_right _ _ _ _ (by rw [length_byteBits]; omega), length_byteBits,
      hbit _ (by omega)]
    congr 1
    omega

/-! ## What it detects -/

theorem blockCrc_self (block : Bytes) :
    blockCrc (block ++ [byte (blockCrc block >>> 8), byte (blockCrc block)]) = 0 := by
  have happend (xs ys : Bytes) : messageBits (xs ++ ys) = messageBits xs ++ messageBits ys :=
    List.flatMap_append
  rw [blockCrc_toNat, happend, ForwardCrc.feed_append, blockCrc_toNat, messageBits_register,
    ForwardCrc.feed_own_bits, BitVec.toNat_ofNat, Nat.zero_mod]

theorem blockCrc_burst {data changed : Bytes} (start : ℕ) (hlength : data.length = changed.length)
    (hne : data ≠ changed)
    (hwindow : ∀ i, i < start ∨ start + 16 ≤ i →
      (messageBits data)[i]? = (messageBits changed)[i]?) :
    blockCrc data ≠ blockCrc changed := by
  have hbits : (messageBits data).length = (messageBits changed).length := by
    rw [length_messageBits, length_messageBits, hlength]
  have hpoly : polynomial.getLsbD 0 = true := by decide
  have hfeed := ForwardCrc.feed_window hpoly 0#16 hbits (messageBits_injective.ne hne) start hwindow
  rw [blockCrc_toNat, blockCrc_toNat]
  intro h
  exact hfeed (BitVec.eq_of_toNat_eq h)

/-- A message that carries its CRC checks to zero, and no burst of up to sixteen bits passes. -/
theorem crc16Xmodem_detects :
    (∀ data, ∃ crc, crc16Xmodem data 0 none = .ok crc ∧
      crc16Xmodem (data ++ [byte (crc >>> 8), byte crc]) 0 none = .ok 0) ∧
    ∀ (data changed : Bytes) (start : ℕ), data.length = changed.length → data ≠ changed →
      (∀ i, i < start ∨ start + 16 ≤ i → (messageBits data)[i]? = (messageBits changed)[i]?) →
      ∃ crc crc', crc16Xmodem data 0 none = .ok crc ∧ crc16Xmodem changed 0 none = .ok crc' ∧
        crc ≠ crc' := by
  constructor
  · intro data
    refine ⟨blockCrc data, crc16Xmodem_block data, ?_⟩
    rw [crc16Xmodem_block, blockCrc_self]
    rfl
  · intro data changed start hlength hne hwindow
    exact ⟨blockCrc data, blockCrc changed, crc16Xmodem_block data, crc16Xmodem_block changed,
      blockCrc_burst start hlength hne hwindow⟩

theorem crc16Xmodem_detects_flips :
    (∃ crc, crc16Xmodem [0x31, 0x32, 0x33] 0 none = .ok crc ∧
      crc16Xmodem (([0x31, 0x32, 0x33] : Bytes) ++ [byte (crc >>> 8), byte crc]) 0 none = .ok 0) ∧
    ∃ crc crc', crc16Xmodem [0x31, 0x32, 0x33] 0 none = .ok crc ∧
      crc16Xmodem [0x31, 0x35, 0x42] 0 none = .ok crc' ∧ crc ≠ crc' := by
  refine ⟨crc16Xmodem_detects.1 _, crc16Xmodem_detects.2 _ _ 8 rfl (by decide) ?_⟩
  intro i hi
  simp only [messageBits, List.flatMap_cons]
  rcases hi with hbefore | hafter
  · rw [List.getElem?_append_left (by rw [length_byteBits]; exact hbefore),
      List.getElem?_append_left (by rw [length_byteBits]; exact hbefore)]
  · rw [List.getElem?_eq_none (by simp; omega), List.getElem?_eq_none (by simp; omega)]

end HplcWorkbench.Xmodem
