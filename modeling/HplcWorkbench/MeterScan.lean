import HplcWorkbench.EscapedFrame645
import HplcWorkbench.HexText

/-!
# The scan for meter frames in a business payload

`_scan_645` reads the second start mark of a 645 frame as the control code and the control code as
the data length. It lands on the next frame only where both happen to fit: for a control code 68H
and 103 bytes of data.
-/

namespace HplcWorkbench.TraceExtract

open Adapter645

/-- One entry of the scan: address, control code and denial. -/
abbrev Entry := String × Byte × Bool

/-- `_scan_645`. The first argument counts the bytes that an accepted frame still covers. -/
def scanFrom : ℕ → Bytes → List Entry
  | _, [] => []
  | skip + 1, _ :: rest => scanFrom skip rest
  | 0, b :: rest =>
    let data := b :: rest
    if data.length < 11 then []
    else if b ≠ 0x68 then scanFrom 0 rest
    else
      let length := (byteAt data 8 : ℕ)
      let stop := length + 11
      if length > 200 ∨ stop > data.length ∨ byteAt data (stop - 1) ≠ 0x16 then scanFrom 0 rest
      else
        let ctrl := byteAt data 7
        (upper (hex (slice data 1 7).reverse), ctrl, (ctrl : ℕ) &&& 0xC0 = 0xC0) ::
          scanFrom (stop - 1) rest

def scan645 (data : Bytes) : List Entry := scanFrom 0 data

/-! ## Frames in a payload -/

/-- A frame with the bytes `FE` before it. -/
structure MeterFrame where
  lead : ℕ
  addr : {bs : Bytes // bs.length = 6}
  control : Byte
  dom : {bs : Bytes // bs.length < 256}

namespace MeterFrame

/-- The frame as `build_frame` writes it, behind its leading bytes. -/
def built (f : MeterFrame) : PyM Bytes := do
  let frame ← buildFrame f.addr.1 f.control f.dom.1
  pure (List.replicate f.lead 0xFE ++ frame)

/-- What the scan should find. -/
def entry (f : MeterFrame) : Entry :=
  (upper (hex f.addr.1.reverse), f.control, (f.control : ℕ) &&& 0xC0 = 0xC0)

def bytes (f : MeterFrame) : Bytes :=
  List.replicate f.lead 0xFE ++ logicalFrame f.addr.1 f.control f.dom.1

theorem built_eq (f : MeterFrame) : f.built = .ok f.bytes := by
  rw [built, buildFrame_eq f.dom.2]
  rfl

/-- The bytes of the frame itself, with its checksum. -/
theorem logicalFrame_eq (f : MeterFrame) :
    ∃ cs, logicalFrame f.addr.1 f.control f.dom.1 =
      0x68 :: (f.addr.1 ++ [0x68, f.control, byte f.dom.1.length] ++ f.dom.1 ++ [cs, 0x16]) := by
  refine ⟨byte (byteSum (frameHead f.addr.1 f.control f.dom.1) % 256), ?_⟩
  simp only [logicalFrame, frameHead, List.append_assoc, List.cons_append, List.nil_append]

end MeterFrame

/-- The scan finds one entry for each frame of a payload, in order. -/
def Recovered (frames : List MeterFrame) : Prop :=
  ∃ parts, frames.mapM MeterFrame.built = .ok parts ∧
    scan645 parts.flatten = frames.map MeterFrame.entry

/-! ## Steps of the scan -/

section Scan
variable {data : Bytes}

theorem scanFrom_eq_drop (skip : ℕ) (data : Bytes) :
    scanFrom skip data = scanFrom 0 (data.drop skip) := by
  induction skip generalizing data with
  | zero => rfl
  | succ skip ih =>
      cases data with
      | nil => rfl
      | cons b rest => exact ih rest

theorem scanFrom_short (h : data.length < 11) : scanFrom 0 data = [] := by
  cases data with
  | nil => rfl
  | cons b rest =>
      rw [scanFrom]
      exact if_pos h

theorem scanFrom_other {b : Byte} {rest : Bytes} (hb : b ≠ 0x68) :
    scanFrom 0 (b :: rest) = scanFrom 0 rest := by
  rw [scanFrom]
  dsimp only
  by_cases hshort : (b :: rest).length < 11
  · rw [if_pos hshort]
    rw [List.length_cons] at hshort
    exact (scanFrom_short (by omega)).symm
  · rw [if_neg hshort, if_pos hb]

theorem scanFrom_lead (lead : ℕ) (rest : Bytes) :
    scanFrom 0 (List.replicate lead 0xFE ++ rest) = scanFrom 0 rest := by
  induction lead with
  | zero => rfl
  | succ lead ih =>
      rw [List.replicate_succ, List.cons_append, scanFrom_other (by decide), ih]

/-- A start mark is accepted with the length that stands eight bytes behind it. -/
def Accepted (data : Bytes) : Prop :=
  ¬ data.length < 11 ∧ (byteAt data 8 : ℕ) ≤ 200 ∧ (byteAt data 8 : ℕ) + 11 ≤ data.length ∧
    byteAt data ((byteAt data 8 : ℕ) + 10) = 0x16

instance (data : Bytes) : Decidable (Accepted data) :=
  inferInstanceAs (Decidable (_ ∧ _ ∧ _ ∧ _))

/-- The entry of an accepted start mark. -/
def entryAt (data : Bytes) : Entry :=
  (upper (hex (slice data 1 7).reverse), byteAt data 7, (byteAt data 7 : ℕ) &&& 0xC0 = 0xC0)

theorem scanFrom_mark (rest : Bytes) :
    scanFrom 0 (0x68 :: rest) =
      if Accepted (0x68 :: rest) then
        entryAt (0x68 :: rest) ::
          scanFrom 0 ((0x68 :: rest).drop ((byteAt (0x68 :: rest) 8 : ℕ) + 11))
      else scanFrom 0 rest := by
  rw [scanFrom]
  dsimp only
  by_cases hshort : (0x68 :: rest : Bytes).length < 11
  · have hnot : ¬ Accepted (0x68 :: rest) := fun h => h.1 hshort
    rw [if_pos hshort, if_neg hnot]
    rw [List.length_cons] at hshort
    exact (scanFrom_short (by omega)).symm
  · rw [if_neg hshort, if_neg (by simp)]
    have hstop : (byteAt (0x68 :: rest) 8 : ℕ) + 11 - 1 = (byteAt (0x68 :: rest) 8 : ℕ) + 10 := rfl
    rw [hstop]
    by_cases haccepted : Accepted (0x68 :: rest)
    · have ⟨_, hsize, hfits, hend⟩ := haccepted
      rw [if_pos haccepted, if_neg (by rintro (h | h | h) <;> [omega; omega; exact h hend]),
        scanFrom_eq_drop]
      rfl
    · rw [if_neg haccepted, if_pos]
      by_contra h
      simp only [not_or, Nat.not_lt, ne_eq, not_not] at h
      exact haccepted ⟨hshort, h.1, h.2.1, h.2.2⟩

end Scan

/-! ## Frames that fit -/

namespace MeterFrame
variable (f : MeterFrame) (rest : Bytes)

/-- The bytes of a frame without those before it. -/
def core : Bytes := logicalFrame f.addr.1 f.control f.dom.1

theorem core_shape :
    ∃ a₀ a₁ a₂ a₃ a₄ a₅ cs, f.addr.1 = [a₀, a₁, a₂, a₃, a₄, a₅] ∧
      f.core = 0x68 :: a₀ :: a₁ :: a₂ :: a₃ :: a₄ :: a₅ :: 0x68 :: f.control ::
        byte f.dom.1.length :: (f.dom.1 ++ [cs, 0x16]) := by
  obtain ⟨cs, hframe⟩ := f.logicalFrame_eq
  rw [core, hframe]
  match haddr : f.addr.1, f.addr.2 with
  | [a₀, a₁, a₂, a₃, a₄, a₅], _ => exact ⟨a₀, a₁, a₂, a₃, a₄, a₅, cs, rfl, by simp⟩

theorem core_length : f.core.length = f.dom.1.length + 12 := by
  obtain ⟨a₀, a₁, a₂, a₃, a₄, a₅, cs, -, hcore⟩ := f.core_shape
  rw [hcore]
  simp

theorem core_end : byteAt (f.core ++ rest) (f.dom.1.length + 11) = 0x16 := by
  obtain ⟨a₀, a₁, a₂, a₃, a₄, a₅, cs, -, hcore⟩ := f.core_shape
  rw [byteAt_append (by rw [core_length]; omega), hcore]
  simp [byteAt]

theorem scan_core :
    scanFrom 0 (f.core ++ rest) =
      if Accepted (f.core ++ rest) then
        (upper (hex f.addr.1.reverse), 0x68, false) ::
          scanFrom 0 ((f.core ++ rest).drop ((f.control : ℕ) + 11))
      else scanFrom 0 ((f.core ++ rest).drop 1) := by
  obtain ⟨a₀, a₁, a₂, a₃, a₄, a₅, cs, haddr, hcore⟩ := f.core_shape
  have hentry : entryAt (f.core ++ rest) = (upper (hex f.addr.1.reverse), 0x68, false) := by
    have hctrl : byteAt (f.core ++ rest) 7 = 0x68 := by
      rw [hcore]
      rfl
    have haddress : slice (f.core ++ rest) 1 7 = f.addr.1 := by
      rw [haddr, hcore]
      rfl
    have hmaster : decide (((0x68 : Byte) : ℕ) &&& 0xC0 = 0xC0) = false := by decide
    rw [entryAt, hctrl, haddress, hmaster]
  have hmark : byteAt (f.core ++ rest) 8 = f.control := by
    rw [hcore]
    rfl
  rw [← hentry, ← hmark, hcore, List.cons_append]
  exact scanFrom_mark _

theorem accepted_core_iff :
    Accepted (f.core ++ rest) ↔ (f.control : ℕ) ≤ 200 ∧
      (f.control : ℕ) + 11 ≤ f.dom.1.length + 12 + rest.length ∧
        byteAt (f.core ++ rest) ((f.control : ℕ) + 10) = 0x16 := by
  have hmark : byteAt (f.core ++ rest) 8 = f.control := by
    obtain ⟨a₀, a₁, a₂, a₃, a₄, a₅, cs, -, hcore⟩ := f.core_shape
    rw [hcore]
    rfl
  rw [Accepted, hmark, List.length_append, core_length]
  constructor
  · exact fun h => h.2
  · exact fun h => ⟨by omega, h⟩

end MeterFrame

/-- The control code and the data length that the scan reads in the right places. -/
structure MeterFrame.Fits (f : MeterFrame) : Prop where
  control : f.control = 0x68
  length : f.dom.1.length = 103

theorem scan_fitting {f : MeterFrame} (h : f.Fits) (rest : Bytes) :
    scanFrom 0 (f.bytes ++ rest) = f.entry :: scanFrom 0 rest := by
  have hcontrol : (f.control : ℕ) = 104 := by
    rw [h.control]
    rfl
  have haccepted : Accepted (f.core ++ rest) := by
    have hend := f.core_end rest
    rw [h.length] at hend
    rw [f.accepted_core_iff rest, hcontrol, h.length]
    exact ⟨by omega, by omega, hend⟩
  have hdrop : (f.core ++ rest).drop 115 = rest := by
    refine List.drop_left' ?_
    rw [f.core_length, h.length]
  have hentry : f.entry = (upper (hex f.addr.1.reverse), 0x68, false) := by
    have hmaster : decide (((0x68 : Byte) : ℕ) &&& 0xC0 = 0xC0) = false := by decide
    rw [MeterFrame.entry, h.control, hmaster]
  rw [MeterFrame.bytes, List.append_assoc, scanFrom_lead]
  change scanFrom 0 (f.core ++ rest) = _
  rw [f.scan_core rest, if_pos haccepted, hcontrol, hdrop, hentry]

theorem scan_all_fitting {frames : List MeterFrame} (h : ∀ f ∈ frames, f.Fits) :
    scan645 (frames.flatMap MeterFrame.bytes) = frames.map MeterFrame.entry := by
  rw [scan645]
  induction frames with
  | nil => rfl
  | cons f rest ih =>
      rw [List.flatMap_cons, scan_fitting (h f List.mem_cons_self),
        ih fun g hg => h g (List.mem_cons_of_mem f hg), List.map_cons]

theorem recovered_iff_scan (frames : List MeterFrame) :
    Recovered frames ↔
      scan645 (frames.flatMap MeterFrame.bytes) = frames.map MeterFrame.entry := by
  have hbuilt : frames.mapM MeterFrame.built = .ok (frames.map MeterFrame.bytes) := by
    induction frames with
    | nil => rfl
    | cons f rest ih =>
        rw [List.mapM_cons, f.built_eq, ih]
        rfl
  rw [List.flatMap_def]
  constructor
  · rintro ⟨parts, hparts, hscan⟩
    obtain rfl := Except.ok.inj (hparts.symm.trans hbuilt)
    exact hscan
  · exact fun h => ⟨_, hbuilt, h⟩

/-! ## Frames that imitate nothing -/

/-- Nothing but the start of a frame with this address shows the start mark and the address. -/
def blankAddr : Bytes := List.replicate 6 0x99

def startMark : Bytes := 0x68 :: blankAddr

/-- The places that show the start mark and the address. -/
def starts : Bytes → ℕ
  | [] => 0
  | b :: rest => (if startMark <+: b :: rest then 1 else 0) + starts rest

section Starts
variable {b : Byte} {rest : Bytes}

theorem starts_cons_of_not (h : ¬ startMark <+: b :: rest) : starts (b :: rest) = starts rest := by
  rw [starts, if_neg h, Nat.zero_add]

theorem starts_cons_ne (h : b ≠ 0x68) : starts (b :: rest) = starts rest := by
  apply starts_cons_of_not
  intro hprefix
  exact h (List.cons_prefix_cons.mp hprefix).1.symm

theorem starts_replicate (h : b ≠ 0x68) (k : ℕ) : starts (List.replicate k b ++ rest) = starts rest := by
  induction k with
  | zero => rfl
  | succ k ih => rw [List.replicate_succ, List.cons_append, starts_cons_ne h, ih]

theorem starts_le_cons : starts rest ≤ starts (b :: rest) := by
  rw [starts]
  exact Nat.le_add_left _ _

theorem starts_drop_le (k : ℕ) (data : Bytes) : starts (data.drop k) ≤ starts data := by
  induction k generalizing data with
  | zero => exact le_rfl
  | succ k ih =>
      cases data with
      | nil => exact le_rfl
      | cons b rest => exact (ih rest).trans starts_le_cons

/-- An entry with the blank address. -/
def isBlank (e : Entry) : Bool := e.1 = upper (hex blankAddr)

theorem startMark_of_blank {data : Bytes} (h : isBlank (entryAt (0x68 :: data))) :
    startMark <+: 0x68 :: data := by
  have haddress : (slice (0x68 :: data) 1 7).reverse = blankAddr := by
    have hread := congrArg fromHex (of_decide_eq_true h)
    rwa [entryAt, fromHex_upper, fromHex_upper, Option.some.injEq] at hread
  have hsix : data.take 6 = blankAddr := List.reverse_eq_iff.mp haddress
  exact List.cons_prefix_cons.mpr ⟨rfl, hsix ▸ List.take_prefix 6 data⟩

/-- The scan finds the blank address no more often than it is there. -/
theorem countP_scan_le (skip : ℕ) (data : Bytes) :
    (scanFrom skip data).countP isBlank ≤ starts data := by
  induction data generalizing skip with
  | nil => exact Nat.zero_le _
  | cons b rest ih =>
      cases skip with
      | succ skip => exact (ih skip).trans starts_le_cons
      | zero =>
          by_cases hb : b = 0x68
          · subst hb
            rw [scanFrom_mark]
            by_cases haccepted : Accepted (0x68 :: rest)
            · rw [if_pos haccepted, List.countP_cons, starts]
              have hrest := ih ((byteAt (0x68 :: rest) 8 : ℕ) + 10)
              rw [scanFrom_eq_drop] at hrest
              have hfirst : (if isBlank (entryAt (0x68 :: rest)) then 1 else 0) ≤
                  if startMark <+: 0x68 :: rest then 1 else 0 := by
                by_cases hblank : isBlank (entryAt (0x68 :: rest))
                · rw [if_pos hblank, if_pos (startMark_of_blank hblank)]
                · rw [if_neg hblank]
                  exact Nat.zero_le _
              have hdrop : (0x68 :: rest).drop ((byteAt (0x68 :: rest) 8 : ℕ) + 11) =
                  rest.drop ((byteAt (0x68 :: rest) 8 : ℕ) + 10) := rfl
              rw [hdrop]
              omega
            · rw [if_neg haccepted]
              exact (ih 0).trans starts_le_cons
          · rw [scanFrom_other hb]
            exact (ih 0).trans starts_le_cons

end Starts

namespace MeterFrame

/-- The frame with the blank address and zeros as its data. -/
def blank (f : MeterFrame) : MeterFrame :=
  { f with
    addr := ⟨blankAddr, rfl⟩
    dom := ⟨List.replicate f.dom.1.length 0, by rw [List.length_replicate]; exact f.dom.2⟩ }

variable (f : MeterFrame) (rest : Bytes)

theorem blank_length : f.blank.dom.1.length = f.dom.1.length := List.length_replicate

/-- The bytes of a blank frame show the mark only at their start. -/
theorem starts_blank_tail : starts ((f.blank.core ++ rest).drop 1) = starts rest := by
  obtain ⟨cs, hframe⟩ := f.blank.logicalFrame_eq
  have hcore : (f.blank.core ++ rest).drop 1 =
      List.replicate 6 0x99 ++ (0x68 :: f.control :: byte f.dom.1.length ::
        (List.replicate f.dom.1.length 0 ++ (cs :: 0x16 :: rest))) := by
    have hlength := f.blank_length
    rw [core, hframe, hlength]
    simp [blank, blankAddr]
  generalize hn : f.dom.1.length = n at hcore
  have hzeros : ∀ k, List.replicate (k + 1) 0x99 <+: List.replicate n (0 : Byte) ++ (cs :: 0x16 :: rest) →
      n = 0 := by
    intro k h
    cases n with
    | zero => rfl
    | succ n => exact absurd (List.cons_prefix_cons.mp h).1 (by decide)
  have hlength : ∀ b : Byte, b ≠ 0 → byte n = b → n ≠ 0 := by
    rintro b hb rfl rfl
    exact hb rfl
  rw [hcore, starts_replicate (by decide), starts_cons_of_not, starts_cons_of_not, starts_cons_of_not,
    starts_replicate (by decide), starts_cons_of_not, starts_cons_ne (by decide)]
  · intro h
    exact absurd (List.cons_prefix_cons.mp (List.cons_prefix_cons.mp h).2).1 (by decide)
  · intro h
    obtain ⟨hmark, h⟩ := List.cons_prefix_cons.mp h
    exact hlength 0x68 (by decide) hmark.symm (hzeros 5 h)
  · intro h
    obtain ⟨hmark, h⟩ := List.cons_prefix_cons.mp (List.cons_prefix_cons.mp h).2
    exact hlength 0x99 (by decide) hmark.symm (hzeros 4 h)
  · intro h
    obtain ⟨hmark, h⟩ := List.cons_prefix_cons.mp
      (List.cons_prefix_cons.mp (List.cons_prefix_cons.mp h).2).2
    exact hlength 0x99 (by decide) hmark.symm (hzeros 3 h)

theorem starts_blank : starts (f.blank.bytes ++ rest) = starts rest + 1 := by
  rw [bytes, List.append_assoc, starts_replicate (by decide)]
  change starts (f.blank.core ++ rest) = _
  obtain ⟨cs, hframe⟩ := f.blank.logicalFrame_eq
  have htail := f.starts_blank_tail rest
  have hcons : f.blank.core ++ rest = 0x68 :: (f.blank.core ++ rest).drop 1 := by
    rw [core, hframe]
    rfl
  have hmark : startMark <+: f.blank.core ++ rest := by
    rw [core, hframe]
    exact ⟨_, rfl⟩
  rw [hcons] at hmark ⊢
  rw [starts, if_pos hmark, htail, Nat.add_comm]

theorem isBlank_entry : isBlank f.blank.entry := by
  have hblank : blankAddr.reverse = blankAddr := rfl
  rw [isBlank, entry]
  change decide (upper (hex blankAddr.reverse) = _) = true
  rw [hblank]
  exact decide_eq_true rfl

/-- The byte that the control code 68H points at is no end mark, but in a frame that fits. -/
theorem blank_pointed (hcontrol : f.control = 0x68) (hlong : 103 < f.dom.1.length) :
    byteAt (f.blank.core ++ rest) 114 ≠ 0x16 := by
  have hcount := f.dom.2
  have hlength := f.blank_length
  rw [byteAt_append (by rw [core_length, hlength]; omega)]
  by_cases hsum : f.dom.1.length = 104
  · have hcore : f.blank.core = logicalFrame blankAddr 0x68 (List.replicate 104 0) := by
      rw [core]
      change logicalFrame blankAddr f.control (List.replicate f.dom.1.length 0) = _
      rw [hcontrol, hsum]
    rw [hcore]
    decide
  · obtain ⟨cs, hframe⟩ := f.blank.logicalFrame_eq
    have hcore : f.blank.core = 0x68 :: (blankAddr ++ [0x68, f.control, byte f.dom.1.length]) ++
        (List.replicate f.dom.1.length 0 ++ [cs, 0x16]) := by
      rw [core, hframe, hlength]
      simp [blank]
    have hzero : byteAt f.blank.core 114 = 0 := by
      rw [hcore, byteAt, List.getD_eq_getElem?_getD, List.getElem?_append_right (by simp [blankAddr]),
        List.getElem?_append_left (by simp [blankAddr]; omega)]
      simp [blankAddr]
    rw [hzero]
    decide

end MeterFrame

/-- The blank frames of a payload. -/
def blanks (frames : List MeterFrame) : List MeterFrame := frames.map MeterFrame.blank

theorem starts_blanks (frames : List MeterFrame) :
    starts ((blanks frames).flatMap MeterFrame.bytes) = frames.length := by
  induction frames with
  | nil => rfl
  | cons f rest ih =>
      rw [blanks, List.map_cons, List.flatMap_cons, f.starts_blank]
      exact congrArg (· + 1) ih

theorem countP_blanks (frames : List MeterFrame) :
    ((blanks frames).map MeterFrame.entry).countP isBlank = frames.length := by
  induction frames with
  | nil => rfl
  | cons f rest ih =>
      rw [blanks, List.map_cons, List.map_cons, List.countP_cons_of_pos f.isBlank_entry]
      exact congrArg (· + 1) ih

/-- Where an end mark stands behind a short blank frame, it is behind the start of the next one. -/
theorem starts_behind {fs : List MeterFrame} {k : ℕ}
    (hend : byteAt ((blanks fs).flatMap MeterFrame.bytes) k = 0x16)
    (hlong : k < ((blanks fs).flatMap MeterFrame.bytes).length) :
    starts (((blanks fs).flatMap MeterFrame.bytes).drop (k + 1)) < fs.length := by
  cases fs with
  | nil => exact absurd hlong (Nat.not_lt_zero k)
  | cons g gs =>
      have hbytes : (blanks (g :: gs)).flatMap MeterFrame.bytes =
          List.replicate g.lead 0xFE ++ (g.blank.core ++ (blanks gs).flatMap MeterFrame.bytes) := by
        rw [blanks, List.map_cons, List.flatMap_cons, MeterFrame.bytes, List.append_assoc]
        rfl
      rw [hbytes] at hend ⊢
      have hlead : g.lead ≤ k := by
        by_contra hk
        rw [byteAt_append (by rw [List.length_replicate]; omega), byteAt] at hend
        simp [Nat.lt_of_not_le hk] at hend
      have hdrop : (List.replicate g.lead 0xFE ++
            (g.blank.core ++ (blanks gs).flatMap MeterFrame.bytes)).drop (k + 1) =
          ((g.blank.core ++ (blanks gs).flatMap MeterFrame.bytes).drop 1).drop (k - g.lead) := by
        rw [List.drop_append, List.drop_eq_nil_of_le (by simp; omega), List.nil_append,
          List.length_replicate, List.drop_drop]
        congr 1
        omega
      rw [hdrop, List.length_cons]
      calc starts _ ≤ starts ((g.blank.core ++ (blanks gs).flatMap MeterFrame.bytes).drop 1) :=
            starts_drop_le _ _
        _ = gs.length := by rw [g.starts_blank_tail, starts_blanks]
        _ < gs.length + 1 := Nat.lt_succ_self _

/-- Blank frames are found only where all of them fit. -/
theorem fits_of_blanks {frames : List MeterFrame}
    (h : scanFrom 0 ((blanks frames).flatMap MeterFrame.bytes) = (blanks frames).map MeterFrame.entry) :
    ∀ f ∈ frames, f.Fits := by
  induction frames with
  | nil => exact fun f hf => absurd hf List.not_mem_nil
  | cons f fs ih =>
      set rest := (blanks fs).flatMap MeterFrame.bytes with hrest
      have hstarts : starts rest = fs.length := starts_blanks fs
      have hlength := f.blank_length
      have hscan : scanFrom 0 (f.blank.core ++ rest) =
          f.blank.entry :: (blanks fs).map MeterFrame.entry := by
        rw [blanks, List.map_cons, List.flatMap_cons, MeterFrame.bytes, List.append_assoc,
          scanFrom_lead] at h
        exact h
      -- a start that is not accepted leaves too few places for the address
      have haccepted : Accepted (f.blank.core ++ rest) := by
        by_contra hnot
        rw [f.blank.scan_core rest, if_neg hnot] at hscan
        have hle := countP_scan_le 0 ((f.blank.core ++ rest).drop 1)
        rw [hscan, List.countP_cons_of_pos f.isBlank_entry, countP_blanks, f.starts_blank_tail,
          hstarts] at hle
        omega
      rw [f.blank.scan_core rest, if_pos haccepted] at hscan
      have hcontrol : f.control = 0x68 :=
        (congrArg (fun e : Entry => e.2.1) (List.cons.inj hscan).1).symm
      have hvalue : (f.blank.control : ℕ) = 104 := congrArg Fin.val hcontrol
      obtain ⟨-, hfits, hend⟩ := (f.blank.accepted_core_iff rest).mp haccepted
      have htail := (List.cons.inj hscan).2
      rw [hvalue] at hfits hend htail
      rw [hlength] at hfits
      have hdom : f.dom.1.length = 103 := by
        rcases Nat.lt_trichotomy f.dom.1.length 103 with hshort | hexact | hlong
        · have hcore : f.blank.core.length = f.dom.1.length + 12 := by
            rw [f.blank.core_length, hlength]
          have hpointed : byteAt rest (102 - f.dom.1.length) = 0x16 := by
            rw [byteAt, List.getD_eq_getElem?_getD, List.getElem?_append_right (by omega)] at hend
            rw [byteAt, List.getD_eq_getElem?_getD]
            have hindex : 104 + 10 - f.blank.core.length = 102 - f.dom.1.length := by omega
            rwa [hindex] at hend
          have hfew := starts_behind hpointed (by rw [← hrest]; omega)
          rw [← hrest] at hfew
          have hdrop : (f.blank.core ++ rest).drop 115 =
              rest.drop (102 - f.dom.1.length + 1) := by
            rw [List.drop_append, List.drop_eq_nil_of_le (by omega), List.nil_append, hcore]
            congr 1
            omega
          have hle := countP_scan_le 0 ((f.blank.core ++ rest).drop 115)
          rw [htail, countP_blanks, hdrop] at hle
          omega
        · exact hexact
        · exact absurd hend (f.blank_pointed rest hcontrol hlong)
      have hdrop : (f.blank.core ++ rest).drop 115 = rest :=
        List.drop_left' (by rw [f.blank.core_length, hlength, hdom])
      rw [hdrop] at htail
      intro g hg
      rcases List.mem_cons.mp hg with rfl | hg
      · exact ⟨hcontrol, hdom⟩
      · exact ih htail g hg

/-! ## All contents of given shapes -/

/-- The leading bytes, the control code and the number of data bytes. -/
def MeterFrame.shape (f : MeterFrame) : ℕ × Byte × ℕ := (f.lead, f.control, f.dom.1.length)

theorem fits_iff_of_shape {f g : MeterFrame} (h : f.shape = g.shape) : f.Fits ↔ g.Fits := by
  have hcontrol : f.control = g.control := congrArg (fun s => s.2.1) h
  have hlength : f.dom.1.length = g.dom.1.length := congrArg (fun s => s.2.2) h
  constructor
  · rintro ⟨hc, hl⟩
    exact ⟨hcontrol ▸ hc, hlength ▸ hl⟩
  · rintro ⟨hc, hl⟩
    exact ⟨hcontrol ▸ hc, hlength ▸ hl⟩

/-- Frames of given control codes and data lengths are recovered, whatever their addresses and data
are, exactly when each control code is 68H and each data length is 103. -/
theorem recovered_iff_fits (frames : List MeterFrame) :
    (∀ others : List MeterFrame, others.map MeterFrame.shape = frames.map MeterFrame.shape →
        Recovered others) ↔
      ∀ f ∈ frames, f.Fits := by
  constructor
  · intro h
    have hshapes : (blanks frames).map MeterFrame.shape = frames.map MeterFrame.shape := by
      rw [blanks, List.map_map]
      refine List.map_congr_left fun f _ => ?_
      exact congrArg (fun n => (f.lead, f.control, n)) f.blank_length
    exact fits_of_blanks ((recovered_iff_scan _).mp (h _ hshapes))
  · intro h others hshapes
    refine (recovered_iff_scan others).mpr (scan_all_fitting fun g hg => ?_)
    obtain ⟨f, hf, hshape⟩ := List.mem_map.mp (hshapes ▸ List.mem_map_of_mem hg)
    exact (fits_iff_of_shape hshape).mp (h f hf)

/-- A request to read the voltage of a meter. -/
def readRequest : MeterFrame :=
  ⟨0, ⟨[0x12, 0x90, 0x78, 0x56, 0x34, 0x12], rfl⟩, 0x11, ⟨[0x33, 0x34, 0x34, 0x35], by decide⟩⟩

/-- Nothing is found in the payload of one request. -/
theorem readRequest_missed :
    readRequest.built = .ok [0x68, 0x12, 0x90, 0x78, 0x56, 0x34, 0x12, 0x68, 0x11, 4,
        0x33, 0x34, 0x34, 0x35, 0x6B, 0x16] ∧
      scan645 [0x68, 0x12, 0x90, 0x78, 0x56, 0x34, 0x12, 0x68, 0x11, 4,
        0x33, 0x34, 0x34, 0x35, 0x6B, 0x16] = [] ∧
      readRequest.entry = ("123456789012", 0x11, false) := by
  decide

end HplcWorkbench.TraceExtract
