import HplcWorkbench.Frame10376
import HplcWorkbench.StreamCutting

/-!
# The stream scanner

`scan_frame` looks for the first `0x68` whose bytes form a frame. At every `0x68` it decides
from the bytes from there on: too short to tell, a false head, or a frame. The decision for a
false head or a frame never changes when bytes follow, which makes the scanner a stable cutter.
-/

namespace HplcWorkbench.FrameCodec
open StreamCutting

/-- What `scan_frame` decides at a `0x68`. -/
inductive HeadVerdict
  | wait
  | skip
  | frame (candidate : Bytes)
  deriving DecidableEq, Repr

/-- The structure and checksum test of a candidate. -/
def candidateOk (candidate : Bytes) : Bool :=
  let n := candidate.length
  byteAt candidate 3 ≠ 0x68 && byteAt candidate (n - 1) = 0x16 &&
    byteSum (slice candidate 3 (n - 2)) % 256 = byteAt candidate (n - 2)

/-- The decision at a `0x68`, with `s` the buffer from this byte on. -/
def judgeHead (s : Bytes) : HeadVerdict :=
  if s.length < 4 then .wait
  else
    let L := le16 (byteAt s 1) (byteAt s 2)
    if L < 10 then .skip
    else if s.length < L then .wait
    else if candidateOk (s.take L) then .frame (s.take L)
    else .skip

/-- The loop of `scan_frame`, `i` bytes into the buffer. -/
def scanFrom (i : ℕ) : Bytes → Option (Bytes × ℕ)
  | [] => none
  | b :: rest =>
    if b ≠ 0x68 then scanFrom (i + 1) rest
    else
      match judgeHead (b :: rest) with
      | .wait => none
      | .skip => scanFrom (i + 1) rest
      | .frame candidate => some (candidate, i + candidate.length)

/-- `scan_frame`: the frame and the consumed bytes, or `none` for `(None, 0)`. -/
def scanFrame (buf : Bytes) : Option (Bytes × ℕ) := scanFrom 0 buf

/-- A complete valid 1376.2 frame. -/
structure ValidFrame (f : Bytes) : Prop where
  head : byteAt f 0 = 0x68
  declared : le16 (byteAt f 1) (byteAt f 2) = f.length
  long : 10 ≤ f.length
  accepted : candidateOk f = true

instance (f : Bytes) : Decidable (ValidFrame f) :=
  decidable_of_iff (byteAt f 0 = 0x68 ∧ le16 (byteAt f 1) (byteAt f 2) = f.length ∧
    10 ≤ f.length ∧ candidateOk f = true)
    ⟨fun h => ⟨h.1, h.2.1, h.2.2.1, h.2.2.2⟩, fun h => ⟨h.head, h.declared, h.long, h.accepted⟩⟩

theorem ValidFrame.judgeHead_append {f : Bytes} (h : ValidFrame f) (t : Bytes) :
    judgeHead (f ++ t) = .frame f := by
  have hlen := h.long
  have h1 : byteAt (f ++ t) 1 = byteAt f 1 := byteAt_append (by omega)
  have h2 : byteAt (f ++ t) 2 = byteAt f 2 := byteAt_append (by omega)
  have hnotShort : ¬ (f ++ t).length < 4 := by
    rw [List.length_append]
    omega
  have hnotCut : ¬ (f ++ t).length < f.length := by
    rw [List.length_append]
    omega
  simp only [judgeHead, if_neg hnotShort, h1, h2, h.declared, if_neg (not_lt.mpr hlen),
    if_neg hnotCut, List.take_left, h.accepted, if_true]

theorem ValidFrame.ne_nil {f : Bytes} (h : ValidFrame f) : f ≠ [] := by
  intro hf
  have hlen := h.long
  rw [hf] at hlen
  simp at hlen

/-- What a frame verdict says. -/
theorem judgeHead_frame {s f : Bytes} (h : judgeHead s = .frame f) (hs : byteAt s 0 = 0x68) :
    ValidFrame f ∧ f = s.take f.length ∧ f.length ≤ s.length := by
  simp only [judgeHead] at h
  split_ifs at h with h4 h10 hcut hok
  obtain rfl := HeadVerdict.frame.inj h
  have hlen : (s.take (le16 (byteAt s 1) (byteAt s 2))).length =
      le16 (byteAt s 1) (byteAt s 2) := by
    rw [List.length_take]
    omega
  refine ⟨⟨?_, ?_, ?_, hok⟩, ?_, ?_⟩
  · rw [byteAt_take (by omega), hs]
  · rw [hlen, byteAt_take (by omega), byteAt_take (by omega)]
  · omega
  · rw [hlen]
  · omega

/-- Only waiting can be revised by later bytes. -/
theorem judgeHead_stable {s : Bytes} (h : judgeHead s ≠ .wait) (t : Bytes) :
    judgeHead (s ++ t) = judgeHead s := by
  have h4 : ¬ s.length < 4 := by
    intro hlt
    exact h (by simp only [judgeHead, if_pos hlt])
  have h1 : byteAt (s ++ t) 1 = byteAt s 1 := byteAt_append (by omega)
  have h2 : byteAt (s ++ t) 2 = byteAt s 2 := byteAt_append (by omega)
  have h4' : ¬ (s ++ t).length < 4 := by
    rw [List.length_append]
    omega
  simp only [judgeHead, if_neg h4, if_neg h4', h1, h2] at h ⊢
  by_cases h10 : le16 (byteAt s 1) (byteAt s 2) < 10
  · simp only [if_pos h10]
  · have hcut : ¬ s.length < le16 (byteAt s 1) (byteAt s 2) := by
      intro hlt
      exact h (by simp only [if_neg h10, if_pos hlt])
    have hcut' : ¬ (s ++ t).length < le16 (byteAt s 1) (byteAt s 2) := by
      rw [List.length_append]
      omega
    simp only [if_neg h10, if_neg hcut, if_neg hcut', List.take_append_of_le_length (not_lt.mp hcut)]

theorem scanFrom_some {i k : ℕ} {b f : Bytes} (h : scanFrom i b = some (f, k)) :
    ∃ noise rest, b = noise ++ f ++ rest ∧ k = i + noise.length + f.length ∧ ValidFrame f := by
  induction b generalizing i with
  | nil => cases h
  | cons x rest ih =>
      have hskip : scanFrom (i + 1) rest = some (f, k) →
          ∃ noise rest', x :: rest = noise ++ f ++ rest' ∧ k = i + noise.length + f.length ∧
            ValidFrame f := by
        intro hs
        obtain ⟨noise, rest', hb, hk, hv⟩ := ih hs
        refine ⟨x :: noise, rest', by rw [hb]; rfl, ?_, hv⟩
        rw [hk, List.length_cons]
        omega
      by_cases hx : x ≠ 0x68
      · rw [scanFrom, if_pos hx] at h
        exact hskip h
      · rw [scanFrom, if_neg hx] at h
        cases hj : judgeHead (x :: rest) with
        | wait => simp only [hj] at h; cases h
        | skip => simp only [hj] at h; exact hskip h
        | frame candidate =>
            simp only [hj, Option.some.injEq, Prod.mk.injEq] at h
            obtain ⟨rfl, rfl⟩ := h
            obtain ⟨hv, htake, hle⟩ := judgeHead_frame hj (not_ne_iff.mp hx)
            refine ⟨[], (x :: rest).drop candidate.length, ?_, by simp, hv⟩
            conv_lhs => rw [← List.take_append_drop candidate.length (x :: rest), ← htake]
            rfl

theorem scanFrom_stable {i k : ℕ} {b f : Bytes} (h : scanFrom i b = some (f, k)) (t : Bytes) :
    scanFrom i (b ++ t) = some (f, k) := by
  induction b generalizing i with
  | nil => cases h
  | cons x rest ih =>
      rw [List.cons_append]
      by_cases hx : x ≠ 0x68
      · rw [scanFrom, if_pos hx] at h ⊢
        exact ih h
      · rw [scanFrom, if_neg hx] at h ⊢
        rw [← List.cons_append]
        cases hj : judgeHead (x :: rest) with
        | wait => simp only [hj] at h; cases h
        | skip =>
            rw [judgeHead_stable (by rw [hj]; exact HeadVerdict.noConfusion), hj]
            simp only [hj] at h ⊢
            exact ih h
        | frame candidate =>
            rw [judgeHead_stable (by rw [hj]; exact HeadVerdict.noConfusion), hj]
            simpa only [hj] using h

/-- The scanner as a cutter of byte streams. -/
def scanner : Cutter Byte where
  cut := scanFrame
  frame_pos h := by
    obtain ⟨_, _, _, _, hv⟩ := scanFrom_some h
    have hlen := hv.long
    omega
  frame_at := by
    intro b f k h
    obtain ⟨noise, rest, hb, hk, _⟩ := scanFrom_some h
    refine ⟨noise, ?_, ?_⟩
    · rw [hb, hk, Nat.zero_add, ← List.length_append, List.take_left]
    · rw [hb, hk, List.length_append, List.length_append]
      omega
  stable h t := scanFrom_stable h t

theorem scanner_valid (b f : Bytes) (k : ℕ) (h : scanner.cut b = some (f, k)) :
    ValidFrame f := by
  obtain ⟨_, _, _, _, hv⟩ := scanFrom_some h
  exact hv

/-- A buffer that starts with a valid frame yields this frame. -/
theorem scanFrame_valid {f : Bytes} (h : ValidFrame f) (t : Bytes) :
    scanFrame (f ++ t) = some (f, f.length) := by
  obtain ⟨x, rest, rfl⟩ := List.exists_cons_of_ne_nil h.ne_nil
  have hx : ¬ x ≠ 0x68 := not_ne_iff.mpr h.head
  have hj := h.judgeHead_append t
  rw [List.cons_append] at hj
  rw [scanFrame, List.cons_append, scanFrom, if_neg hx, hj]
  simp only [Nat.zero_add]

end HplcWorkbench.FrameCodec
