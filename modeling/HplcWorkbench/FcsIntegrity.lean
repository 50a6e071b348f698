import HplcWorkbench.Link698
import HplcWorkbench.ReflectedCrc

/-!
# What the frame check detects

The table holds the polynomial `8408` taken through eight bits, so `_crc16` is the reflected CRC-16
from every start value, and a frame with one changed byte never passes its check.
-/

namespace HplcWorkbench.Adapter698
open ReflectedCrc (register)

/-- `_crc16` with its start value. -/
def crc16From (data : Bytes) (init : ℕ) : ℕ := data.foldl crcStep init

theorem crc16_eq (data : Bytes) : crc16 data = crc16From data 0xFFFF := rfl

theorem fcsTab_entries : fcsTab = (List.range 256).map (ReflectedCrc.shift 0x8408)^[8] := by
  decide +kernel

theorem fcsTab_eq : ∀ i < 256, fcsTab.getD i 0 = (ReflectedCrc.shift 0x8408)^[8] i := by
  intro i hi
  rw [fcsTab_entries, List.getD_eq_getElem _ _ (by simpa using hi), List.getElem_map,
    List.getElem_range]

theorem crcStep_eq (fcs : ℕ) (b : Byte) : crcStep fcs b = ReflectedCrc.byteStep 0x8408 fcs b :=
  ReflectedCrc.tableStep_eq 0x8408 fcsTab_eq fcs b.isLt

/-- The table gives what the polynomial gives. -/
theorem crc16From_eq (data : Bytes) (init : ℕ) :
    crc16From data init = register 0x8408 init (data.map Fin.val) := by
  induction data generalizing init with
  | nil => rfl
  | cons b rest ih =>
      rw [crc16From, List.foldl_cons, crcStep_eq]
      exact ih _

theorem byteValues_lt (data : Bytes) : ∀ b ∈ data.map Fin.val, b < 2 ^ (15 + 1) := by
  intro b hb
  obtain ⟨c, -, rfl⟩ := List.mem_map.mp hb
  exact c.isLt.trans (by decide)

theorem crc16_change (before after : Bytes) {a b : Byte} (hne : a ≠ b) :
    crc16 (before ++ a :: after) ≠ crc16 (before ++ b :: after) := by
  have hval : (a : ℕ) ≠ b := fun h => hne (Fin.ext h)
  have hwide : ∀ c : Byte, (c : ℕ) < 2 ^ (15 + 1) := fun c => c.isLt.trans (by decide)
  rw [crc16_eq, crc16_eq, crc16From_eq, crc16From_eq, List.map_append, List.map_append, List.map_cons,
    List.map_cons]
  exact ReflectedCrc.register_ne (by decide) (by decide) (by decide) (byteValues_lt before)
    (byteValues_lt after) (hwide a) (hwide b) hval

theorem crc16_set {frame : Bytes} {i : ℕ} (hi : i < frame.length) {b : Byte} (hne : frame[i] ≠ b) :
    crc16 (frame.set i b) ≠ crc16 frame := by
  have hold : frame = frame.take i ++ frame[i] :: frame.drop (i + 1) := by
    rw [List.cons_getElem_drop_succ, List.take_append_drop]
  have hnew : frame.set i b = frame.take i ++ b :: frame.drop (i + 1) := by
    rw [List.set_eq_take_append_cons_drop, if_pos hi]
  intro hsame
  refine crc16_change (frame.take i) (frame.drop (i + 1)) hne ?_
  rw [← hold, ← hnew, hsame]

/-! ## The check of a message -/

/-- Only the entry of zero has no high byte. -/
theorem fcsTab_high : ∀ p ∈ fcsTab.zipIdx, p.1 >>> 8 = 0 → p.2 = 0 := by
  decide +kernel

theorem fcsTab_high_injective {i j : ℕ} (hi : i < 256) (hj : j < 256)
    (h : fcsTab.getD i 0 >>> 8 = fcsTab.getD j 0 >>> 8) : i = j := by
  have hk : i ^^^ j < 256 := Nat.xor_lt_two_pow (n := 8) hi hj
  have hentry : (fcsTab.getD (i ^^^ j) 0, i ^^^ j) ∈ fcsTab.zipIdx := by
    have hin : i ^^^ j < fcsTab.length := by
      rwa [fcsTab_entries, List.length_map, List.length_range]
    rw [List.mem_zipIdx_iff_getElem?, List.getElem?_eq_getElem hin, List.getD_eq_getElem _ _ hin]
  -- the entry of the difference is the difference of the entries
  have hdiff : fcsTab.getD (i ^^^ j) 0 = fcsTab.getD i 0 ^^^ fcsTab.getD j 0 := by
    rw [fcsTab_eq _ hk, fcsTab_eq _ hi, fcsTab_eq _ hj, ReflectedCrc.shift_iterate_xor]
  have hhigh : fcsTab.getD (i ^^^ j) 0 >>> 8 = 0 := by
    rw [hdiff, Nat.shiftRight_xor_distrib, h, Nat.xor_self]
  exact Nat.xor_eq_zero_iff.mp (fcsTab_high _ hentry hhigh)

theorem crcStep_shiftRight {v : ℕ} (hv : v < 65536) (b : Byte) :
    crcStep v b >>> 8 = fcsTab.getD ((v ^^^ (b : ℕ)) &&& 0xFF) 0 >>> 8 := by
  have hzero : v >>> 8 >>> 8 = 0 := by
    rw [← Nat.shiftRight_add, BitFields.shiftRight_eq]
    exact Nat.div_eq_of_lt hv
  rw [crcStep, Nat.shiftRight_xor_distrib, hzero, Nat.zero_xor]

/-- Two bytes after a message are read off the remainder. -/
theorem crcStep_pair_injective {v : ℕ} (hv : v < 65536) {a b a' b' : Byte}
    (h : crcStep (crcStep v a) b = crcStep (crcStep v a') b') : a = a' ∧ b = b' := by
  have hwide : ∀ c : Byte, (c : ℕ) < 2 ^ (15 + 1) := fun c => c.isLt.trans (by decide)
  have hmix : ∀ {r s : ℕ} {c d : Byte}, r < 65536 → s < 65536 → crcStep r c = crcStep s d →
      r ^^^ (c : ℕ) = s ^^^ (d : ℕ) := by
    intro r s c d hr hs hstep
    rw [crcStep_eq, crcStep_eq] at hstep
    exact (ReflectedCrc.byteStep_eq_iff (by decide) (by decide) hr hs (hwide c) (hwide d)).mp hstep
  have hhigh : ∀ (r : ℕ) (c : Byte), (r ^^^ (c : ℕ)) >>> 8 = r >>> 8 := by
    intro r c
    have hzero : (c : ℕ) >>> 8 = 0 := by
      rw [BitFields.shiftRight_eq]
      exact Nat.div_eq_of_lt c.isLt
    rw [Nat.shiftRight_xor_distrib, hzero, Nat.xor_zero]
  have hmask : ∀ n : ℕ, n &&& 0xFF < 256 := by
    intro n
    rw [BitFields.and_mask8]
    omega
  have hsecond := hmix (crcStep_lt hv a) (crcStep_lt hv a') h
  have hshift : crcStep v a >>> 8 = crcStep v a' >>> 8 := by
    rw [← hhigh _ b, hsecond, hhigh]
  rw [crcStep_shiftRight hv, crcStep_shiftRight hv] at hshift
  have hindex := fcsTab_high_injective (hmask _) (hmask _) hshift
  have hfirst : crcStep v a = crcStep v a' := by
    rw [crcStep, crcStep, hindex]
  rw [hfirst] at hsecond
  exact ⟨Fin.ext (Nat.xor_right_injective (hmix hv hv hfirst)),
    Fin.ext (Nat.xor_right_injective hsecond)⟩

/-- Only its own check passes for a message. -/
theorem checkFcs_iff {data fcs : Bytes} (hlength : fcs.length = 2) :
    checkFcs data fcs = true ↔ fcs = fcsBytes data := by
  refine ⟨fun h => ?_, fun h => h ▸ checkFcs_fcsBytes data⟩
  have hown := checkFcs_fcsBytes data
  obtain ⟨a, b, rfl⟩ := List.length_eq_two.mp hlength
  unfold fcsBytes at hown ⊢
  dsimp only at hown ⊢
  generalize byte ((crc16 data ^^^ 0xFFFF) &&& 0xFF) = a' at hown ⊢
  generalize byte (((crc16 data ^^^ 0xFFFF) >>> 8) &&& 0xFF) = b' at hown ⊢
  rw [checkFcs, decide_eq_true_eq] at h hown
  have hsame : crc16 (data ++ [a, b]) = crc16 (data ++ [a', b']) := h.trans hown.symm
  rw [crc16, crc16, List.foldl_append, List.foldl_append] at hsame
  obtain ⟨rfl, rfl⟩ := crcStep_pair_injective (crc16_lt data) hsame
  rfl

/-- Every message passes with its own check, and with one byte changed in the message or in the check
it never does. -/
theorem check_sound (data : Bytes) :
    (∀ init, crc16From data init = register 0x8408 init (data.map Fin.val)) ∧
      checkFcs data (fcsBytes data) = true ∧
      ∀ (i : Fin (data ++ fcsBytes data).length) (b : Byte), (data ++ fcsBytes data)[i] ≠ b →
        checkFcs (((data ++ fcsBytes data).set i b).take data.length)
          (((data ++ fcsBytes data).set i b).drop data.length) = false := by
  have hcheck := checkFcs_fcsBytes data
  refine ⟨crc16From_eq data, hcheck, fun i b hne => ?_⟩
  rw [checkFcs, decide_eq_true_eq] at hcheck
  rw [checkFcs, List.take_append_drop, decide_eq_false_iff_not, ← hcheck]
  exact crc16_set i.isLt hne

end HplcWorkbench.Adapter698
