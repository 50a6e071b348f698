import HplcWorkbench.DecodeReturns
import HplcWorkbench.FrameJournal
import HplcWorkbench.FrameReaders

/-!
# The summary of a recorded frame

`summarize_frame` decodes what the journal records and keeps AFN, Fn and the direction. When the
decoder raises it tries the local codec, which calls the same decoder, and keeps nothing.
-/

namespace HplcWorkbench.Journal

open ExactOutcomes
open Adapter10376 (pyStrip Header decodeHeader Clean)

/-- `normalize_afn`. -/
def normalizeAfn : PyVal → Option String
  | .none | .bool _ => none
  | .int n => if 0 ≤ n ∧ n ≤ 0xFF then some (hexPad 2 n.toNat) else none
  | v =>
    let text := (pyStrip v.toStr.toList).map Char.toLower
    let digits := match text with
      | '0' :: 'x' :: rest => rest
      | cs => cs
    match hexTextValue (String.ofList digits) with
    | some n => if 0 ≤ n ∧ n ≤ 0xFF then some (hexPad 2 n.toNat) else none
    | none => none

/-- `normalize_fn`. -/
def normalizeFn : PyVal → Option String
  | .none | .bool _ => none
  | v =>
    let text := pyStrip v.toStr.toList
    let digits := match text with
      | c :: rest => if (c = 'F' ∨ c = 'f') ∧ rest ≠ [] ∧ rest.all Char.isDigit then rest else c :: rest
      | [] => []
    match PyVal.textValue (String.ofList digits) with
    | some n => if 0 ≤ n ∧ n ≤ 0xFFFF then some ("F" ++ toString n) else none
    | none => none

/-- A field's number, or else the key that only the local codec adds. -/
def numberOr (field : Option DataField) (key : PyVal) : PyVal :=
  match field.map DataField.raw with
  | some (.int n) => .int n
  | some (.bool b) => .bool b
  | _ => key

def directionOf : PyVal → Option String
  | .int ctl => some (if (ctl / 128) % 2 = 1 then "up" else "down")
  | .bool _ => some "down"
  | _ => none

/-- The summary of a decoded frame, with the keys of the local codec. -/
def summaryOf (fields : List DataField) (afn fn ctrl : PyVal) : Summary where
  afn := normalizeAfn (numberOr (FrameCodec.fieldOf fields "AFN") afn)
  fn := normalizeFn (numberOr (FrameCodec.fieldOf fields "FN") fn)
  updown := directionOf (numberOr (FrameCodec.fieldOf fields "控制域C") ctrl)

/-- `summarize_frame`. -/
def summarizeFrame (store : MetadataStore) (raw : Bytes) : Summary :=
  match Adapter10376.decode store raw with
  | .ok frame => summaryOf frame.fields .none .none .none
  | .error _ =>
    match FrameCodec.decodeLocalFrame store raw with
    | .ok d => summaryOf d.frame.fields (d.afn.getD .none) (d.fn.getD .none) (.int (d.ctrl : ℕ))
    | .error _ => ⟨none, none, none⟩

/-! ## What is recorded -/

/-- The frame is decoded, and its AFN and Fn are recorded if it has them. -/
structure Recorded (store : MetadataStore) (raw : Bytes) : Prop where
  decoded : ∃ frame, Adapter10376.decode store raw = .ok frame
  afn : ∀ h, decodeHeader raw = .ok (some h) →
    (summarizeFrame store raw).afn = some (hex02 h.afn)
  fn : ∀ h, decodeHeader raw = .ok (some h) →
    (summarizeFrame store raw).fn = some ("F" ++ toString h.fn)

theorem normalizeAfn_byte (b : Byte) : normalizeAfn (.int (b : ℕ)) = some (hex02 b) := by
  have hrange : (0 : ℤ) ≤ ((b : ℕ) : ℤ) ∧ ((b : ℕ) : ℤ) ≤ 0xFF := by omega
  exact if_pos hrange

section Decimal
variable (n : ℕ)

theorem toDigits_digits : ∀ c ∈ Nat.toDigits 10 n, c.isDigit = true := fun _ hc =>
  Nat.isDigit_of_mem_toDigits (by decide) (by decide) hc

theorem pyStrip_toDigits : pyStrip (Nat.toDigits 10 n) = Nat.toDigits 10 n := by
  refine Adapter10376.pyStrip_digits fun c hc => ?_
  have hdigit := toDigits_digits n c hc
  rw [Char.isDigit, Bool.and_eq_true, decide_eq_true_eq, decide_eq_true_eq] at hdigit
  exact hdigit

theorem toDigits_cons : ∃ c rest, Nat.toDigits 10 n = c :: rest ∧ c.isDigit = true := by
  obtain ⟨c, rest, hcons⟩ := List.exists_cons_of_ne_nil
    (List.ne_nil_of_length_pos (Nat.length_toDigits_pos (b := 10) (n := n)))
  refine ⟨c, rest, hcons, toDigits_digits n c ?_⟩
  rw [hcons]
  exact List.mem_cons_self

theorem textValue_toDigits : PyVal.textValue (String.ofList (Nat.toDigits 10 n)) = some (n : ℤ) := by
  have hvalue : PyVal.digitsValue 0 (Nat.toDigits 10 n) = some n := by
    rw [digitsValue_digits (toDigits_digits n), Nat.ofDigitChars_ten_toDigits]
  obtain ⟨c, rest, hcons, hdigit⟩ := toDigits_cons n
  rw [PyVal.textValue, String.toList_ofList, pyStrip_toDigits, hcons]
  rw [hcons] at hvalue
  split
  · rename_i h
    rw [(List.cons.inj h).1] at hdigit
    cases hdigit
  · rename_i h
    rw [(List.cons.inj h).1] at hdigit
    cases hdigit
  · rw [PyVal.unsignedValue, if_pos hdigit, hvalue]
    rfl

theorem normalizeFn_nat (hn : n ≤ 0xFFFF) : normalizeFn (.int n) = some ("F" ++ toString n) := by
  obtain ⟨c, rest, hcons, hdigit⟩ := toDigits_cons n
  have htext : pyStrip (PyVal.int (n : ℕ)).toStr.toList = c :: rest := by
    change pyStrip (toString n).toList = _
    rw [Nat.toString_eq_ofList_toDigits, String.toList_ofList, pyStrip_toDigits, hcons]
  have hmark : ¬ ((c = 'F' ∨ c = 'f') ∧ rest ≠ [] ∧ rest.all Char.isDigit) := by
    rintro ⟨rfl | rfl, -⟩ <;> cases hdigit
  have hvalue := textValue_toDigits n
  have hrange : (0 : ℤ) ≤ (n : ℤ) ∧ (n : ℤ) ≤ 0xFFFF := by omega
  rw [hcons] at hvalue
  simp only [normalizeFn, htext, if_neg hmark, hvalue, if_pos hrange]
  rfl

end Decimal

theorem dtToFn_le (dt1 dt2 : Byte) : Adapter10376.dtToFn dt1 dt2 ≤ 0xFFFF := by
  have hbase : ∀ n base, Adapter10376.dt1ToBase n = some base → base ≤ 8 := by
    intro n base h
    unfold Adapter10376.dt1ToBase at h
    split at h <;> simp_all <;> omega
  unfold Adapter10376.dtToFn
  cases h : Adapter10376.dt1ToBase dt1 with
  | none => exact Nat.zero_le _
  | some base =>
    have hle := hbase _ _ h
    dsimp only
    omega

section Recording
variable {store : MetadataStore} {raw : Bytes}

/-- The header walk never raises, and its Fn fits the journal. -/
theorem decodeHeader_returns (hlong : 10 ≤ raw.length) :
    Returns (decodeHeader raw) True fun header => ∀ h, header = some h → h.fn ≤ 0xFFFF := by
  unfold decodeHeader
  refine (Adapter698.index_total (by omega)).then fun lo _ => ?_
  refine (Adapter698.index_total (by omega)).then fun hi _ => ?_
  refine (Adapter698.index_total (by omega)).then fun c _ => ?_
  dsimp only
  split_ifs
  · exact returns_pure fun h hh => by cases hh
  all_goals
    refine returns_pure fun h hh => ?_
    obtain rfl := Option.some.inj hh
    exact dtToFn_le _ _

theorem recorded_iff_decoded (hlong : 10 ≤ raw.length) : Recorded store raw ↔
    ∃ frame, Adapter10376.decode store raw = .ok frame := by
  refine ⟨Recorded.decoded, ?_⟩
  rintro ⟨frame, hframe⟩
  have hsummary : ∀ h, decodeHeader raw = .ok (some h) →
      summarizeFrame store raw = summaryOf (Adapter10376.headerFields h) .none .none .none := by
    intro h hheader
    rw [summarizeFrame, hframe]
    dsimp only
    rw [(fields_of_decode hheader hframe).1]
  refine ⟨⟨frame, hframe⟩, fun h hheader => ?_, fun h hheader => ?_⟩
  · rw [hsummary h hheader]
    simp only [summaryOf, numberOr, afn_field]
    exact normalizeAfn_byte h.afn
  · have hfn := ((decodeHeader_returns hlong).exact _ hheader).2 h rfl
    rw [hsummary h hheader]
    simp only [summaryOf, numberOr, fn_field]
    exact normalizeFn_nat h.fn hfn

/-- An accepted frame is decoded and recorded exactly when nothing in it is cut or too large. -/
theorem recorded_iff {buf : Bytes} {k : ℕ} (hframe : FrameCodec.scanFrame buf = some (raw, k)) :
    Recorded store raw ↔ ∀ h, decodeHeader raw = .ok (some h) → Clean store h := by
  have hlong := (FrameCodec.scanner_valid buf raw k hframe).long
  obtain ⟨header, hheader⟩ := (decodeHeader_returns hlong).ok trivial
  have hsome : (∀ h, decodeHeader raw = .ok (some h) → Clean store h) ↔
      ∀ h, header = some h → Clean store h := by
    rw [hheader]
    simp only [Except.ok.injEq]
  rw [recorded_iff_decoded hlong, hsome]
  exact (Adapter10376.decode_returns store hheader).iff

end Recording

/-- The request 03H-F1. -/
def queryFrame : Bytes :=
  [0x68, 0x0F, 0x00, 0x43, 0x00, 0x00, 0x00, 0x00, 0x00, 0x01, 0x03, 0x01, 0x00, 0x48, 0x16]

theorem queryFrame_recorded : Recorded (fun _ _ => none) queryFrame := by
  have hscan : FrameCodec.scanFrame queryFrame = some (queryFrame, 15) := by decide +kernel
  have hafn : (decodeHeader queryFrame).map (·.map (·.afn)) = .ok (some 0x03) := by decide +kernel
  refine (recorded_iff hscan).mpr fun h hheader => ?_
  rw [hheader] at hafn
  have hquery : h.afn = 0x03 := Option.some.inj (Except.ok.inj hafn)
  refine ⟨?_, ?_, ?_⟩
  · rintro ⟨h06, -⟩
    cases hquery.symm.trans h06
  · rintro ⟨h10, -⟩
    cases hquery.symm.trans h10
  · intro hcarries
    rw [hquery] at hcarries
    cases hcarries

/-- A page of 10H-F21 that ends before its start number. -/
def cutPageFrame : Bytes :=
  [0x68, 0x12, 0x00, 0xC3, 0x00, 0x00, 0x00, 0x00, 0x00, 0x01, 0x10, 0x10, 0x02, 0x05, 0x00, 0x00,
    0xEB, 0x16]

/-- The frame is accepted, but the decoder indexes behind its end. -/
theorem cutPageFrame_not_recorded : ¬ ∀ store buf raw k,
    FrameCodec.scanFrame buf = some (raw, k) → Recorded store raw := by
  intro h
  have hscan : FrameCodec.scanFrame cutPageFrame = some (cutPageFrame, 18) := by decide +kernel
  obtain ⟨frame, hframe⟩ := (h (fun _ _ => none) cutPageFrame cutPageFrame 18 hscan).decoded
  have hraises : (Adapter10376.decode (fun _ _ => none) cutPageFrame).map (fun _ => ()) =
      .error .indexError := by decide +kernel
  rw [hframe] at hraises
  cases hraises

end HplcWorkbench.Journal
