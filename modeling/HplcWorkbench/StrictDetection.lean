import HplcWorkbench.DecodeReturns
import HplcWorkbench.DecodeSafety
import HplcWorkbench.FcsIntegrity
import HplcWorkbench.VerifyFrame

/-!
# The strict mode of the facade

Without a protocol `decode` takes the adapter with the best score and runs its decoder, provided the
score reaches the threshold. The scores above it are those of frames whose length, end byte and
checks are right. Two things are left open: a decoder may raise on such a frame, and a frame may be
too short for all its fields.
-/

namespace HplcWorkbench
open ExactOutcomes

/-! ## 645 -/

namespace Adapter645

/-- All the bytes that the length announces, and their sum. -/
structure CompleteFrame (raw : Bytes) : Prop where
  whole : Whole (logicalBytes raw)
  sum : byteSum (slice (logicalBytes raw) 0 ((logicalBytes raw).length - 2)) % 256 =
    (byteAt (logicalBytes raw) ((logicalBytes raw).length - 2) : ℕ)

/-- What `confidence` takes for a frame. -/
structure Recognised (raw : Bytes) : Prop where
  complete : CompleteFrame raw
  third : byteAt (logicalBytes raw) 3 ≠ 0x68
  function : 1 ≤ (byteAt (logicalBytes raw) 8 : ℕ) &&& 0x0F ∧
    (byteAt (logicalBytes raw) 8 : ℕ) &&& 0x0F ≤ 0x0C

variable {raw : Bytes}

theorem Recognised.confidence_eq (h : Recognised raw) : confidence raw = 100 := by
  obtain ⟨⟨⟨hhead, hsecond, hlast, hshort, hlength⟩, hsum⟩, hthird, hfunction⟩ := h
  unfold confidence
  dsimp only
  rw [if_neg (by omega), if_neg (by simp [hhead, hsecond, hlast]), if_neg hthird, if_neg (by omega),
    if_neg (not_not.mpr hfunction), if_pos hsum]

theorem recognised_iff : 80 ≤ confidence raw ↔ Recognised raw := by
  constructor
  · intro h
    unfold confidence at h
    dsimp only at h
    split_ifs at h with hlong hmarks hthird hlength hfunction hsum
    all_goals try omega
    simp only [not_or, not_not, ne_eq] at hmarks
    exact ⟨⟨⟨hmarks.1, hmarks.2.1, hmarks.2.2, by omega, by omega⟩, hsum⟩, hthird,
      hfunction⟩
  · intro h
    rw [h.confidence_eq]
    decide

end Adapter645

/-! ## 698.45 -/

namespace Adapter698

/-- Every field of `68 | L | C | SA | CA | HCS | APDU | FCS | 16`, the APDU possibly empty. -/
structure CompleteFrame (raw : Bytes) : Prop where
  head : byteAt raw 0 = 0x68
  declared : raw.length = le16 (byteAt raw 1) (byteAt raw 2) + 2
  room : saLen (byteAt raw 4) + 10 ≤ raw.length
  headCheck : slice raw (saLen (byteAt raw 4) + 5) (saLen (byteAt raw 4) + 7) =
    fcsBytes (slice raw 1 (saLen (byteAt raw 4) + 5))
  frameCheck : slice raw (raw.length - 3) (raw.length - 1) = fcsBytes (slice raw 1 (raw.length - 3))
  last : byteAt raw (raw.length - 1) = 0x16

/-- What `confidence` takes for a frame. Here the two checks may be the same two bytes. -/
structure Recognised (raw : Bytes) : Prop where
  long : 12 ≤ raw.length
  head : byteAt raw 0 = 0x68
  control : byteAt raw 3 ≠ 0x68
  other : looksLike645 raw = false
  declared : raw.length = le16 (byteAt raw 1) (byteAt raw 2) + 2
  address : saLen (byteAt raw 4) + 7 ≤ raw.length
  headCheck : slice raw (saLen (byteAt raw 4) + 5) (saLen (byteAt raw 4) + 7) =
    fcsBytes (slice raw 1 (saLen (byteAt raw 4) + 5))
  frameCheck : slice raw (raw.length - 3) (raw.length - 1) = fcsBytes (slice raw 1 (raw.length - 3))
  last : byteAt raw (raw.length - 1) = 0x16

variable {raw : Bytes}

theorem Recognised.complete_iff (h : Recognised raw) :
    CompleteFrame raw ↔ saLen (byteAt raw 4) + 10 ≤ raw.length :=
  ⟨fun hc => hc.room, fun hroom => ⟨h.head, h.declared, hroom, h.headCheck, h.frameCheck, h.last⟩⟩

/-- A check at its place in the frame. -/
theorem checkFcs_slice_iff (data : Bytes) {pos : ℕ} (hpos : pos + 2 ≤ raw.length) :
    checkFcs data (slice raw pos (pos + 2)) = true ↔ slice raw pos (pos + 2) = fcsBytes data := by
  apply checkFcs_iff
  rw [slice_length]
  omega

theorem recognised_iff : 80 ≤ confidence raw ↔ Recognised raw := by
  unfold confidence
  dsimp only
  have hcut : ∀ m, 4 + m + 1 = m + 5 := fun m => by omega
  by_cases hmarks : raw.length < 12 ∨ byteAt raw 0 ≠ 0x68 ∨ byteAt raw (raw.length - 1) ≠ 0x16
  · rw [if_pos hmarks]
    refine iff_of_false (by decide) fun h => ?_
    rcases hmarks with hlong | hhead | hlast
    · exact absurd h.long (by omega)
    · exact hhead h.head
    · exact hlast h.last
  rw [if_neg hmarks]
  simp only [not_or, not_not, not_lt, ne_eq] at hmarks
  by_cases hcontrol : byteAt raw 3 = 0x68
  · rw [if_pos hcontrol]
    exact iff_of_false (by decide) fun h => h.control hcontrol
  rw [if_neg hcontrol]
  by_cases hother : looksLike645 raw = true
  · rw [if_pos hother]
    refine iff_of_false (by decide) fun h => ?_
    rw [h.other] at hother
    cases hother
  rw [if_neg hother]
  by_cases hdeclared : raw.length = le16 (byteAt raw 1) (byteAt raw 2) + 2
  swap
  · rw [if_pos hdeclared]
    exact iff_of_false (by decide) fun h => hdeclared h.declared
  rw [if_neg (not_not.mpr hdeclared)]
  by_cases haddress : raw.length < 4 + saLen (byteAt raw 4) + 3
  · rw [if_pos haddress]
    exact iff_of_false (by decide) fun h => absurd h.address (by omega)
  rw [if_neg haddress, hcut]
  have hhcs := @checkFcs_slice_iff raw (slice raw 1 (saLen (byteAt raw 4) + 5))
    (saLen (byteAt raw 4) + 5) (by omega)
  have hfcs := @checkFcs_slice_iff raw (slice raw 1 (raw.length - 3)) (raw.length - 3) (by omega)
  have hend : raw.length - 3 + 2 = raw.length - 1 := by omega
  rw [hend] at hfcs ⊢
  by_cases hheadCheck : checkFcs (slice raw 1 (saLen (byteAt raw 4) + 5))
      (slice raw (saLen (byteAt raw 4) + 5) (saLen (byteAt raw 4) + 5 + 2)) = true
  swap
  · rw [if_pos hheadCheck]
    exact iff_of_false (by decide) fun h => hheadCheck (hhcs.mpr h.headCheck)
  rw [if_neg (not_not.mpr hheadCheck)]
  by_cases hframeCheck : checkFcs (slice raw 1 (raw.length - 3))
      (slice raw (raw.length - 3) (raw.length - 1)) = true
  swap
  · rw [if_pos hframeCheck]
    exact iff_of_false (by decide) fun h => hframeCheck (hfcs.mpr h.frameCheck)
  rw [if_neg (not_not.mpr hframeCheck)]
  refine iff_of_true (by split_ifs <;> decide) ?_
  exact ⟨hmarks.1, hmarks.2.1, hcontrol, Bool.not_eq_true _ ▸ hother, hdeclared, by omega,
    hhcs.mp hheadCheck, hfcs.mp hframeCheck, hmarks.2.2⟩

end Adapter698

/-! ## 1376.2 -/

namespace Adapter10376

/-- The information field of a frame. -/
def infoOf (raw : Bytes) : Info := parseInfo (parseControl (byteAt raw 3)).direction (slice raw 4 10)

/-- Every field of `68 | L | C | R | A | AFN | DT1 | DT2 | data | CS | 16`, the data possibly empty. -/
structure CompleteFrame (raw : Bytes) : Prop where
  head : byteAt raw 0 = 0x68
  declared : le16 (byteAt raw 1) (byteAt raw 2) = raw.length
  room : addrLen (infoOf raw) + 15 ≤ raw.length
  sum : byteSum (slice raw 3 (raw.length - 2)) % 256 = (byteAt raw (raw.length - 2) : ℕ)
  last : byteAt raw (raw.length - 1) = 0x16

/-- What `confidence` takes for a frame. Here AFN and DT may be missing. -/
structure Recognised (raw : Bytes) : Prop where
  long : 12 ≤ raw.length
  head : byteAt raw 0 = 0x68
  control : byteAt raw 3 ≠ 0x68
  declared : le16 (byteAt raw 1) (byteAt raw 2) = raw.length
  sum : byteSum (slice raw 3 (raw.length - 2)) % 256 = (byteAt raw (raw.length - 2) : ℕ)
  last : byteAt raw (raw.length - 1) = 0x16

variable {raw : Bytes}

theorem Recognised.complete_iff (h : Recognised raw) :
    CompleteFrame raw ↔ addrLen (infoOf raw) + 15 ≤ raw.length :=
  ⟨fun hc => hc.room, fun hroom => ⟨h.head, h.declared, hroom, h.sum, h.last⟩⟩

theorem recognised_iff : 80 ≤ confidence raw ↔ Recognised raw := by
  constructor
  · intro h
    unfold confidence at h
    dsimp only at h
    split_ifs at h with hmarks hdeclared hsum
    all_goals try omega
    all_goals
      simp only [not_or, not_not, not_lt, ne_eq] at hmarks hdeclared
      exact ⟨hmarks.1, hmarks.2.1, hmarks.2.2.2, hdeclared.1, hsum, hmarks.2.2.1⟩
  · rintro ⟨hlong, hhead, hcontrol, hdeclared, hsum, hlast⟩
    unfold confidence
    dsimp only
    rw [if_neg (by simp [hhead, hcontrol, hlast]; omega), if_neg (by omega), if_pos hsum]
    split_ifs <;> decide

/-- The header is read when the frame has room for it. -/
theorem decodeHeader_room (hlong : 12 ≤ raw.length) :
    ∃ header, decodeHeader raw = .ok header ∧
      (header = none ↔ ¬ addrLen (infoOf raw) + 15 ≤ raw.length) := by
  have hinfo : slice (slice raw 4 (raw.length - 2)) 0 6 = slice raw 4 10 := by
    simp only [slice, List.drop_zero, List.take_drop, List.take_take]
    congr 2
    omega
  have huser : (slice raw 4 (raw.length - 2)).length = raw.length - 6 := by
    rw [slice_length]
    omega
  unfold decodeHeader
  have hindex : ∀ i < 12, index raw i = .ok (byteAt raw i) := by
    intro i hi
    obtain ⟨v, hv⟩ := (Adapter698.index_total (show i < raw.length by omega)).ok trivial
    rw [hv, ((Adapter698.index_total (show i < raw.length by omega)).exact v hv).2]
  simp only [hindex 1 (by decide), hindex 2 (by decide), hindex 3 (by decide), bind, Except.bind, hinfo,
    huser]
  by_cases hroom : addrLen (infoOf raw) + 15 ≤ raw.length
  · rw [if_neg (by unfold infoOf at hroom; omega)]
    exact ⟨_, rfl, by simp [hroom]⟩
  · rw [if_pos (by unfold infoOf at hroom; omega)]
    exact ⟨none, rfl, by simp [hroom]⟩

end Adapter10376

/-! ## The router -/

namespace Facade

/-- The bytes are one complete frame of the protocol. -/
def Daily.CompleteFrame : Daily → Bytes → Prop
  | dlt645 => Adapter645.CompleteFrame
  | dlt69845 => Adapter698.CompleteFrame
  | qgdw103762 => Adapter10376.CompleteFrame

def Daily.Recognised : Daily → Bytes → Prop
  | dlt645 => Adapter645.Recognised
  | dlt69845 => Adapter698.Recognised
  | qgdw103762 => Adapter10376.Recognised

/-- The protocol that the bytes are taken for: 645 goes before the other two, which exclude each
other by their lengths. -/
def Daily.Detected : Daily → Bytes → Prop
  | dlt645, raw => Adapter645.Recognised raw
  | dlt69845, raw => Adapter698.Recognised raw ∧ ¬ Adapter645.Recognised raw
  | qgdw103762, raw => Adapter10376.Recognised raw ∧ ¬ Adapter645.Recognised raw

/-- The frame has room for all its fields, and its decoder finds all that it reads. -/
def Daily.Sound (store : MetadataStore) : Daily → Bytes → Prop
  | dlt645, raw => Adapter645.Decodable store raw
  | dlt69845, raw => Adapter698.saLen (byteAt raw 4) + 10 ≤ raw.length ∧
    Adapter698.Readable (Adapter698.opened (Adapter698.frameApdu raw))
  | qgdw103762, raw =>
    Adapter10376.addrLen (Adapter10376.infoOf raw) + 15 ≤ raw.length ∧
      ∀ h, Adapter10376.decodeHeader raw = .ok (some h) → Adapter10376.Clean store h

section Select
variable {Adapter : Type*} (score : Adapter → ℕ)

theorem select_fold (adapters : List Adapter) (start : Adapter) :
    ∃ best, adapters.foldl (fun best a =>
        match best with
        | none => some a
        | some b => if score a > score b then some a else some b) (some start) = some best ∧
      ∀ a ∈ start :: adapters, score a ≤ score best := by
  induction adapters generalizing start with
  | nil => exact ⟨start, rfl, by simp⟩
  | cons a rest ih =>
    rw [List.foldl_cons]
    dsimp only
    by_cases hbetter : score a > score start
    · rw [if_pos hbetter]
      obtain ⟨best, hbest, hmax⟩ := ih a
      refine ⟨best, hbest, List.forall_mem_cons.mpr ⟨?_, hmax⟩⟩
      exact hbetter.le.trans (hmax a List.mem_cons_self)
    · rw [if_neg hbetter]
      obtain ⟨best, hbest, hmax⟩ := ih start
      obtain ⟨hstart, hrest⟩ := List.forall_mem_cons.mp hmax
      refine ⟨best, hbest, List.forall_mem_cons.mpr ⟨hstart, List.forall_mem_cons.mpr ⟨?_, hrest⟩⟩⟩
      exact (not_lt.mp hbetter).trans hstart

end Select

section Detection
variable {store : MetadataStore} {raw : Bytes} {d : Daily}

theorem recognised_iff : autoConfidenceMin ≤ d.confidence raw ↔ d.Recognised raw := by
  cases d with
  | dlt645 => exact Adapter645.recognised_iff
  | dlt69845 => exact Adapter698.recognised_iff
  | qgdw103762 => exact Adapter10376.recognised_iff

/-- The best of the three scores. -/
theorem select_best (raw : Bytes) : ∃ best, select (Daily.confidence · raw) dailyAdapters = some best ∧
    ∀ d : Daily, d.confidence raw ≤ best.confidence raw := by
  obtain ⟨best, hbest, hmax⟩ := select_fold (Daily.confidence · raw) [.dlt69845, .qgdw103762] .dlt645
  refine ⟨best, hbest, fun d => hmax d ?_⟩
  cases d <;> simp

theorem Daily.Detected.recognised (h : d.Detected raw) : d.Recognised raw := by
  cases d with
  | dlt645 => exact h
  | dlt69845 => exact h.1
  | qgdw103762 => exact h.1

/-- At most one protocol is detected. -/
theorem Daily.Detected.eq {d' : Daily} (h : d.Detected raw) (h' : d'.Recognised raw)
    (hnot : d' = .dlt645 ∨ ¬ Adapter645.Recognised raw) : d = d' := by
  have hexclusive : Adapter698.Recognised raw → ¬ Adapter10376.Recognised raw := by
    intro h698 h10376
    have hlonger := h698.declared
    rw [h10376.declared] at hlonger
    omega
  cases d with
  | dlt645 =>
    rcases hnot with rfl | hnot
    · rfl
    · exact absurd h hnot
  | dlt69845 =>
    cases d' with
    | dlt645 => exact absurd h' h.2
    | dlt69845 => rfl
    | qgdw103762 => exact absurd h' (hexclusive h.1)
  | qgdw103762 =>
    cases d' with
    | dlt645 => exact absurd h' h.2
    | dlt69845 => exact absurd h.1 (hexclusive h')
    | qgdw103762 => rfl

theorem decodeAuto_of_detected (h : d.Detected raw) :
    decodeAuto store raw autoConfidenceMin =
      (d.decode store raw).map (.auto d.protocol (d.confidence raw)) := by
  by_cases h645 : Adapter645.Recognised raw
  · have hd : d = .dlt645 := h.eq h645 (Or.inl rfl)
    subst hd
    rw [decodeAuto_645 h645.confidence_eq, Daily.confidence, h645.confidence_eq]
    rfl
  · obtain ⟨best, hbest, hmax⟩ := select_best raw
    have hhigh := (recognised_iff.mpr h.recognised).trans (hmax d)
    have hsame : d = best := h.eq (recognised_iff.mp hhigh) (Or.inr h645)
    subst hsame
    rw [decodeAuto, hbest]
    dsimp only
    rw [if_neg (not_lt.mpr hhigh)]
    rfl

theorem decodeAuto_of_none (h : ∀ d : Daily, ¬ d.Detected raw) :
    ∃ scores, decodeAuto store raw autoConfidenceMin = .ok (.unrecognized scores) := by
  obtain ⟨best, hbest, -⟩ := select_best raw
  have hlow : best.confidence raw < autoConfidenceMin := by
    rw [← not_le, recognised_iff]
    intro hbest
    have h645 : ¬ Adapter645.Recognised raw := h .dlt645
    cases best with
    | dlt645 => exact h645 hbest
    | dlt69845 => exact h .dlt69845 ⟨hbest, h645⟩
    | qgdw103762 => exact h .qgdw103762 ⟨hbest, h645⟩
  rw [decodeAuto, hbest]
  dsimp only
  rw [if_pos hlow]
  exact ⟨_, rfl⟩

/-- A detected frame is complete and decoded exactly if it is sound. -/
theorem sound_iff (h : d.Recognised raw) :
    d.Sound store raw ↔ d.CompleteFrame raw ∧ ∃ pf, d.decode store raw = .ok pf := by
  cases d with
  | dlt645 =>
    have hreads := Adapter645.decode_returns_of_length store h.complete.whole.length
    exact hreads.iff.symm.trans (iff_and_self.mpr fun _ => h.complete)
  | dlt69845 =>
    have hroom := Adapter698.Recognised.address h
    have hreads := @Adapter698.decode_returns_of_address store raw (by omega)
    exact and_congr (Adapter698.Recognised.complete_iff h).symm hreads.iff.symm
  | qgdw103762 =>
    obtain ⟨header, hheader, -⟩ := Adapter10376.decodeHeader_room (Adapter10376.Recognised.long h)
    have hclean : (∀ h, Adapter10376.decodeHeader raw = .ok (some h) → Adapter10376.Clean store h) ↔
        ∀ h, header = some h → Adapter10376.Clean store h := by
      rw [hheader]
      simp only [Except.ok.injEq]
    exact and_congr (Adapter10376.Recognised.complete_iff h).symm
      (hclean.trans (Adapter10376.decode_returns store hheader).iff.symm)

end Detection

/-! ## Decoding and verifying -/

/-- `r["protocol"]` of a decoded frame. -/
def DecodeResult.protocol : DecodeResult → Option String
  | specified p _ => some p
  | auto p _ _ => some p
  | _ => none

/-- Detection returns, takes only complete frames, and verifies only what it shows. -/
structure StrictDetection (str : PyVal → String) (upperCase : String → String)
    (store : MetadataStore) (frame : FrameInput) : Prop where
  returns : ∃ r, decode store frame none autoConfidenceMin = .ok r
  complete : ∀ r, decode store frame none autoConfidenceMin = .ok r → r.ok = true →
    ∃ raw d, toBytes frame = .ok raw ∧ r.protocol = some (Daily.protocol d) ∧ d.CompleteFrame raw
  verified : ∀ expect v,
    verify str upperCase store frame none expect autoConfidenceMin = .ok (.checked v) →
    v.verified = true →
    (∃ raw d, toBytes frame = .ok raw ∧ v.protocol = Daily.protocol d ∧ d.CompleteFrame raw) ∧
      ∀ wanted ∈ expect, ∀ e ∈ wanted.entries, HasExpected str upperCase v.frame e

section Strict
variable (str : PyVal → String) (upperCase : String → String) (store : MetadataStore)
variable {frame : FrameInput} {raw : Bytes}

/-- A frame that is not decoded is not verified either. -/
theorem strictDetection_of_refused {r : DecodeResult}
    (hr : decode store frame none autoConfidenceMin = .ok r) (hok : r.ok = false) :
    StrictDetection str upperCase store frame := by
  refine ⟨⟨r, hr⟩, fun r' hr' hok' => ?_, fun expect v hv => ?_⟩
  · obtain rfl := Except.ok.inj (hr.symm.trans hr')
    rw [hok] at hok'
    cases hok'
  · rw [verify, hr] at hv
    cases r with
    | specified p pf => cases hok
    | auto p confidence pf => cases hok
    | invalidHex detail => cases hv
    | unsupportedProtocol p => cases hv
    | decodeFailed p detail => cases hv
    | unrecognized scores => cases hv

theorem strictDetection_of_decoded {d : Daily} {confidence : ℕ} {pf : ProtocolFrame}
    (hr : decode store frame none autoConfidenceMin = .ok (.auto d.protocol confidence pf))
    (hraw : toBytes frame = .ok raw) (hcomplete : d.CompleteFrame raw) :
    StrictDetection str upperCase store frame := by
  refine ⟨⟨_, hr⟩, fun r' hr' _ => ?_, fun expect v hv hverified => ?_⟩
  · obtain rfl := Except.ok.inj (hr.symm.trans hr')
    exact ⟨raw, d, hraw, rfl, hcomplete⟩
  · rw [verify, hr] at hv
    obtain rfl := VerifyResult.checked.inj (Except.ok.inj hv)
    exact ⟨⟨raw, d, hraw, rfl, hcomplete⟩, isVerified_sound hverified⟩

theorem strictDetection_iff (frame : FrameInput) :
    StrictDetection str upperCase store frame ↔
      ∀ raw, toBytes frame = .ok raw → ∀ d : Daily, d.Detected raw → d.Sound store raw := by
  cases hraw : toBytes frame with
  | error e =>
    have hr : decode store frame none autoConfidenceMin = .ok (.invalidHex e) := by
      rw [decode, hraw]
      rfl
    refine iff_of_true (strictDetection_of_refused str upperCase store hr rfl) fun raw h => ?_
    cases h
  | ok raw =>
    have hdecode : decode store frame none autoConfidenceMin =
        decodeAuto store raw autoConfidenceMin := by
      rw [decode, hraw]
    constructor
    · rintro ⟨⟨r, hr⟩, hcomplete, -⟩ raw' hraw' d hd
      obtain rfl := Except.ok.inj hraw'
      rw [sound_iff hd.recognised]
      rw [hdecode, decodeAuto_of_detected hd] at hr
      cases hpf : d.decode store raw with
      | error e =>
        rw [hpf] at hr
        cases hr
      | ok pf =>
        rw [hpf] at hr
        obtain rfl := Except.ok.inj hr
        have hr' : decode store frame none autoConfidenceMin =
            .ok (.auto d.protocol (d.confidence raw) pf) := by
          rw [hdecode, decodeAuto_of_detected hd, hpf]
          rfl
        obtain ⟨raw', d', hraw', hprotocol, hwhole⟩ := hcomplete _ hr' rfl
        obtain rfl := Except.ok.inj (hraw.symm.trans hraw')
        have hsame : d = d' := by
          have hname : d.protocol = d'.protocol := Option.some.inj hprotocol
          cases d <;> cases d' <;> first | rfl | exact absurd hname (by decide)
        subst hsame
        exact ⟨hwhole, pf, rfl⟩
    · intro hsound
      by_cases hnone : ∀ d : Daily, ¬ d.Detected raw
      · obtain ⟨scores, hscores⟩ := @decodeAuto_of_none store raw hnone
        exact strictDetection_of_refused str upperCase store (hdecode.trans hscores) rfl
      · obtain ⟨d, hd⟩ := not_forall_not.mp hnone
        obtain ⟨hcomplete, pf, hpf⟩ := (sound_iff hd.recognised).mp (hsound raw rfl d hd)
        have hr : decode store frame none autoConfidenceMin =
            .ok (.auto d.protocol (d.confidence raw) pf) := by
          rw [hdecode, decodeAuto_of_detected hd, hpf]
          rfl
        exact strictDetection_of_decoded str upperCase store hr hraw hcomplete

end Strict

/-- The record answer is recognised, and its decoder raises. -/
theorem shortRecord_not_strict : ¬ ∀ (str : PyVal → String) (upperCase : String → String)
    (store : MetadataStore) (frame : FrameInput), StrictDetection str upperCase store frame := by
  intro h
  have hraise : decode (fun _ _ => none) (.bytes Adapter698.shortRecordFrame) none autoConfidenceMin =
      .error .indexError := by
    rfl
  obtain ⟨r, hr⟩ := (h (fun _ => "") id (fun _ _ => none) (.bytes Adapter698.shortRecordFrame)).returns
  rw [hraise] at hr
  cases hr

end Facade

end HplcWorkbench
