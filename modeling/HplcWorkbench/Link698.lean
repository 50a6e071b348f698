import HplcWorkbench.ProtocolFrame
import Mathlib.Data.Nat.Bitwise

/-!
# The link layer of the DL/T 698.45 adapter

`68 | L | C | SA | CA | HCS | APDU | FCS | 16`, where the low four bits of the first address
byte give the length of the server address and both checks are the table-driven FCS-16. A
message followed by its own check leaves the remainder `F0B8`.
-/

namespace HplcWorkbench.Adapter698

/-- `_FCSTAB`. -/
def fcsTab : List ℕ :=
  [0x0000, 0x1189, 0x2312, 0x329b, 0x4624, 0x57ad, 0x6536, 0x74bf, 0x8c48, 0x9dc1, 0xaf5a, 0xbed3,
    0xca6c, 0xdbe5, 0xe97e, 0xf8f7, 0x1081, 0x0108, 0x3393, 0x221a, 0x56a5, 0x472c, 0x75b7, 0x643e,
    0x9cc9, 0x8d40, 0xbfdb, 0xae52, 0xdaed, 0xcb64, 0xf9ff, 0xe876, 0x2102, 0x308b, 0x0210, 0x1399,
    0x6726, 0x76af, 0x4434, 0x55bd, 0xad4a, 0xbcc3, 0x8e58, 0x9fd1, 0xeb6e, 0xfae7, 0xc87c, 0xd9f5,
    0x3183, 0x200a, 0x1291, 0x0318, 0x77a7, 0x662e, 0x54b5, 0x453c, 0xbdcb, 0xac42, 0x9ed9, 0x8f50,
    0xfbef, 0xea66, 0xd8fd, 0xc974, 0x4204, 0x538d, 0x6116, 0x709f, 0x0420, 0x15a9, 0x2732, 0x36bb,
    0xce4c, 0xdfc5, 0xed5e, 0xfcd7, 0x8868, 0x99e1, 0xab7a, 0xbaf3, 0x5285, 0x430c, 0x7197, 0x601e,
    0x14a1, 0x0528, 0x37b3, 0x263a, 0xdecd, 0xcf44, 0xfddf, 0xec56, 0x98e9, 0x8960, 0xbbfb, 0xaa72,
    0x6306, 0x728f, 0x4014, 0x519d, 0x2522, 0x34ab, 0x0630, 0x17b9, 0xef4e, 0xfec7, 0xcc5c, 0xddd5,
    0xa96a, 0xb8e3, 0x8a78, 0x9bf1, 0x7387, 0x620e, 0x5095, 0x411c, 0x35a3, 0x242a, 0x16b1, 0x0738,
    0xffcf, 0xee46, 0xdcdd, 0xcd54, 0xb9eb, 0xa862, 0x9af9, 0x8b70, 0x8408, 0x9581, 0xa71a, 0xb693,
    0xc22c, 0xd3a5, 0xe13e, 0xf0b7, 0x0840, 0x19c9, 0x2b52, 0x3adb, 0x4e64, 0x5fed, 0x6d76, 0x7cff,
    0x9489, 0x8500, 0xb79b, 0xa612, 0xd2ad, 0xc324, 0xf1bf, 0xe036, 0x18c1, 0x0948, 0x3bd3, 0x2a5a,
    0x5ee5, 0x4f6c, 0x7df7, 0x6c7e, 0xa50a, 0xb483, 0x8618, 0x9791, 0xe32e, 0xf2a7, 0xc03c, 0xd1b5,
    0x2942, 0x38cb, 0x0a50, 0x1bd9, 0x6f66, 0x7eef, 0x4c74, 0x5dfd, 0xb58b, 0xa402, 0x9699, 0x8710,
    0xf3af, 0xe226, 0xd0bd, 0xc134, 0x39c3, 0x284a, 0x1ad1, 0x0b58, 0x7fe7, 0x6e6e, 0x5cf5, 0x4d7c,
    0xc60c, 0xd785, 0xe51e, 0xf497, 0x8028, 0x91a1, 0xa33a, 0xb2b3, 0x4a44, 0x5bcd, 0x6956, 0x78df,
    0x0c60, 0x1de9, 0x2f72, 0x3efb, 0xd68d, 0xc704, 0xf59f, 0xe416, 0x90a9, 0x8120, 0xb3bb, 0xa232,
    0x5ac5, 0x4b4c, 0x79d7, 0x685e, 0x1ce1, 0x0d68, 0x3ff3, 0x2e7a, 0xe70e, 0xf687, 0xc41c, 0xd595,
    0xa12a, 0xb0a3, 0x8238, 0x93b1, 0x6b46, 0x7acf, 0x4854, 0x59dd, 0x2d62, 0x3ceb, 0x0e70, 0x1ff9,
    0xf78f, 0xe606, 0xd49d, 0xc514, 0xb1ab, 0xa022, 0x92b9, 0x8330, 0x7bc7, 0x6a4e, 0x58d5, 0x495c,
    0x3de3, 0x2c6a, 0x1ef1, 0x0f78]

theorem fcsTab_lt (i : ℕ) : fcsTab.getD i 0 < 65536 := by
  have hall : ∀ x ∈ fcsTab, x < 65536 := by decide +kernel
  by_cases hi : i < fcsTab.length
  · rw [List.getD_eq_getElem _ _ hi]
    exact hall _ (List.getElem_mem hi)
  · rw [List.getD_eq_default _ _ (not_lt.mp hi)]
    norm_num

/-- One round of `_crc16`. -/
def crcStep (fcs : ℕ) (b : Byte) : ℕ :=
  (fcs >>> 8) ^^^ fcsTab.getD ((fcs ^^^ (b : ℕ)) &&& 0xFF) 0

/-- `_crc16` with its default start value. -/
def crc16 (data : Bytes) : ℕ := data.foldl crcStep 0xFFFF

def fcsBytes (data : Bytes) : Bytes :=
  let v := crc16 data ^^^ 0xFFFF
  [byte (v &&& 0xFF), byte ((v >>> 8) &&& 0xFF)]

def checkFcs (dataWithoutFcs fcs : Bytes) : Bool := crc16 (dataWithoutFcs ++ fcs) = 0xF0B8

theorem crcStep_lt {fcs : ℕ} (h : fcs < 65536) (b : Byte) : crcStep fcs b < 65536 := by
  have hshift : fcs >>> 8 < 2 ^ 16 := by
    rw [BitFields.shiftRight_eq]
    omega
  exact Nat.xor_lt_two_pow hshift (fcsTab_lt _)

theorem crc16_lt (data : Bytes) : crc16 data < 65536 := by
  have hfold : ∀ (data : Bytes) (v : ℕ), v < 65536 → data.foldl crcStep v < 65536 := by
    intro data
    induction data with
    | nil => exact fun v hv => hv
    | cons b rest ih => exact fun v hv => ih _ (crcStep_lt hv b)
  exact hfold data _ (by norm_num)

theorem testBit_byteMask (i : ℕ) : (0xFF : ℕ).testBit i = decide (i < 8) :=
  Nat.testBit_two_pow_sub_one 8 i

theorem testBit_wordMask (i : ℕ) : (0xFFFF : ℕ).testBit i = decide (i < 16) :=
  Nat.testBit_two_pow_sub_one 16 i

/-- The low check byte complements the low half of the remainder. -/
theorem low_check_index (v : ℕ) : (v ^^^ ((v ^^^ 0xFFFF) &&& 0xFF)) &&& 0xFF = 0xFF := by
  apply Nat.eq_of_testBit_eq
  intro i
  simp only [Nat.testBit_and, Nat.testBit_xor, testBit_byteMask, testBit_wordMask]
  by_cases hi : i < 8
  · have h16 : i < 16 := by omega
    cases v.testBit i <;> simp [hi, h16]
  · simp [hi]

/-- The high check byte complements the high half. -/
theorem high_check_index (v t : ℕ) :
    (((v >>> 8) ^^^ t) ^^^ (((v ^^^ 0xFFFF) >>> 8) &&& 0xFF)) &&& 0xFF = (t ^^^ 0xFF) &&& 0xFF := by
  apply Nat.eq_of_testBit_eq
  intro i
  simp only [Nat.testBit_and, Nat.testBit_xor, Nat.testBit_shiftRight, testBit_byteMask,
    testBit_wordMask]
  by_cases hi : i < 8
  · have h16 : 8 + i < 16 := by omega
    cases v.testBit (8 + i) <;> cases t.testBit i <;> simp [hi, h16]
  · simp [hi]

/-- A message followed by its check always passes. -/
theorem checkFcs_fcsBytes (data : Bytes) : checkFcs data (fcsBytes data) = true := by
  have hv := crc16_lt data
  have hlow : crcStep (crc16 data) (byte ((crc16 data ^^^ 0xFFFF) &&& 0xFF)) =
      (crc16 data >>> 8) ^^^ 0x0F78 := by
    have hmask : (crc16 data ^^^ 0xFFFF) &&& 0xFF < 256 := by
      rw [BitFields.and_mask8]
      omega
    rw [crcStep, byte_val, Nat.mod_eq_of_lt hmask, low_check_index]
    rfl
  have hhigh : crcStep ((crc16 data >>> 8) ^^^ 0x0F78)
      (byte (((crc16 data ^^^ 0xFFFF) >>> 8) &&& 0xFF)) = 0xF0B8 := by
    have hmask : ((crc16 data ^^^ 0xFFFF) >>> 8) &&& 0xFF < 256 := by
      rw [BitFields.and_mask8]
      omega
    have hzero : crc16 data >>> 8 >>> 8 = 0 := by
      rw [← Nat.shiftRight_add, BitFields.shiftRight_eq]
      exact Nat.div_eq_of_lt hv
    rw [crcStep, byte_val, Nat.mod_eq_of_lt hmask, high_check_index, Nat.shiftRight_xor_distrib,
      hzero, Nat.zero_xor]
    rfl
  rw [checkFcs, decide_eq_true_eq, fcsBytes, crc16, List.foldl_append]
  change crcStep (crcStep (crc16 data) _) _ = _
  rw [hlow, hhigh]

/-! ## Frames -/

/-- `build_frame`. -/
def buildFrame (apdu addrBytes : Bytes) (ca control : Byte) : Bytes :=
  let L := 2 + 1 + addrBytes.length + 1 + 2 + apdu.length + 2
  let body : Bytes := [0x68, byte (L &&& 0xFF), byte ((L >>> 8) &&& 0xFF)] ++ [control] ++ addrBytes ++
    [ca]
  let body := body ++ fcsBytes (body.drop 1) ++ apdu
  body ++ fcsBytes (body.drop 1) ++ [0x16]

/-- `(SA_head & 0x0F) + 2`. -/
def saLen (saHead : Byte) : ℕ := ((saHead : ℕ) &&& 0x0F) + 2

/-- `try_extract`. The two checks it computes do not take part in the decision. -/
def tryExtract (buf : Bytes) : Option ExtractResult :=
  let n := buf.length
  if n < 4 ∨ byteAt buf 0 ≠ 0x68 then none
  else if byteAt buf 3 = 0x68 then none
  else
    let L := le16 (byteAt buf 1) (byteAt buf 2)
    if L < 12 ∨ L > 2000 then none
    else
      let frameEnd := L + 1
      if frameEnd ≥ n ∨ byteAt buf frameEnd ≠ 0x16 then none
      else
        let raw := buf.take (frameEnd + 1)
        if raw.length < 4 + saLen (byteAt raw 4) + 8 then none
        else some ⟨raw, frameEnd + 1⟩

/-- The keys of `_APDU_NAMES` with their names. -/
def apduName? : ℕ → Option String
  | 0x01 => some "LINK-Request"
  | 0x81 => some "LINK-Response"
  | 0x02 => some "CONNECT-Request"
  | 0x82 => some "CONNECT-Response"
  | 0x03 => some "RELEASE-Request"
  | 0x83 => some "RELEASE-Response"
  | 0x05 => some "GET-Request"
  | 0x85 => some "GET-Response"
  | 0x06 => some "SET-Request"
  | 0x86 => some "SET-Response"
  | 0x07 => some "ACTION-Request"
  | 0x87 => some "ACTION-Response"
  | 0x08 => some "REPORT-Response"
  | 0x88 => some "REPORT-Notification"
  | 0x09 => some "PROXY-Request"
  | 0x89 => some "PROXY-Response"
  | 0x84 => some "RELEASE-Notification"
  | 0x10 => some "SECURITY-Request"
  | 0x90 => some "SECURITY-Response"
  | _ => none

/-- `_APDU_NAMES.get(tag, f"APDU-0x{tag:02X}")`. -/
def apduName (tag : Byte) : String := (apduName? tag).getD ("APDU-" ++ hex0x tag)

/-- The guard of `confidence` against 645 frames: a `68` at position 7 and the length that a
645 frame with this length byte would have. -/
def looksLike645 (raw : Bytes) : Bool :=
  byteAt raw 7 = 0x68 && (byteAt raw 9 : ℕ) ≤ 200 && raw.length = 12 + (byteAt raw 9 : ℕ)

/-- `confidence`, in hundredths. -/
def confidence (raw : Bytes) : ℕ :=
  let n := raw.length
  if n < 12 ∨ byteAt raw 0 ≠ 0x68 ∨ byteAt raw (n - 1) ≠ 0x16 then 0
  else if byteAt raw 3 = 0x68 then 0
  else if looksLike645 raw then 0
  else if n ≠ le16 (byteAt raw 1) (byteAt raw 2) + 2 then 0
  else
    let saLength := saLen (byteAt raw 4)
    if n < 4 + saLength + 3 then 0
    else
      let hcsPos := 4 + saLength + 1
      let fcsPos := n - 3
      let knownApdu := fcsPos > hcsPos + 2 && (apduName? (byteAt raw (hcsPos + 2))).isSome
      if ¬ checkFcs (slice raw 1 (4 + saLength + 1)) (slice raw hcsPos (hcsPos + 2)) then 30
      else if ¬ checkFcs (slice raw 1 fcsPos) (slice raw fcsPos (fcsPos + 2)) then 50
      else if knownApdu then 100
      else 85

/-- The link fields of a frame, as `decode` cuts them. -/
structure LinkFields where
  L : ℕ
  c : Byte
  sa : Bytes
  ca : Byte
  hcs : Bytes
  fcs : Bytes
  apdu : Bytes
  hcsOk : Bool
  fcsOk : Bool
  deriving DecidableEq, Repr

def decodeLink (raw : Bytes) : PyM LinkFields := do
  let lo ← index raw 1
  let hi ← index raw 2
  let c ← index raw 3
  let saHead ← index raw 4
  let saLength := saLen saHead
  let ca ← index raw (4 + saLength)
  let hcsPos := 4 + saLength + 1
  let fcsPos := raw.length - 3
  let hcs := slice raw hcsPos (hcsPos + 2)
  let fcs := slice raw fcsPos (fcsPos + 2)
  pure {
    L := le16 lo hi
    c := c
    sa := slice raw 4 (4 + saLength)
    ca := ca
    hcs := hcs
    fcs := fcs
    apdu := slice raw (hcsPos + 2) fcsPos
    hcsOk := checkFcs (slice raw 1 (4 + saLength + 1)) hcs
    fcsOk := checkFcs (slice raw 1 fcsPos) fcs }

end HplcWorkbench.Adapter698
