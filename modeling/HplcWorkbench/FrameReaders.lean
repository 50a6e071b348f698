import HplcWorkbench.FrameRoundTrip

/-!
# The readers of a 1376.2 frame

Besides the adapter's `decode`, five functions find AFN, Fn or the application data on their own:
the sink cuts the frame text again, the deep application and the local codec take a fixed
offset, the read-only statistics skip as many bytes as the printed address field has, and the
deep application computes Fn from the bitmap with a formula of its own.
-/

namespace HplcWorkbench
open Adapter10376

/-! ## The readers -/

namespace FrameCodec

/-- `fields[name]` of the dict that `decode_frame` builds: a later field of the same name wins. -/
def fieldOf (fields : List DataField) (name : String) : Option DataField :=
  fields.reverse.find? (fun f => f.name = name)

/-- The keys that `decode_local_13762_frame` adds to the decoded frame. -/
structure LocalFrame where
  frame : ProtocolFrame
  ctrl : Byte
  info : String
  afn : Option PyVal
  fn : Option PyVal
  buff : Bytes

def decodeLocalFrame (store : MetadataStore) (raw : Bytes) : PyM LocalFrame := do
  let frame ← decode store raw
  let ctrl ← index raw 3
  pure {
    frame := frame
    ctrl := ctrl
    info := hex (slice raw 4 10)
    afn := (fieldOf frame.fields "AFN").map DataField.raw
    fn := (fieldOf frame.fields "FN").map DataField.raw
    buff := (slice raw 4 (raw.length - 2)).drop (6 + 3) }

end FrameCodec

namespace Sink

/-- `_appdata_from_entry`, on the entry's `frame_hex`. -/
def appdataFromEntry (frameHex : String) : PyM (Option Bytes) :=
  let hx := dropSpaces frameHex
  if hx.toList.length < 8 then pure none
  else
    match fromHex hx with
    | none => pure none
    | some raw => do
      let first ← index raw 0
      if first ≠ 0x68 then pure none
      else
        let userdata := slice raw 4 (raw.length - 2)
        if userdata.length < 9 then pure none
        else
          let info0 := (byteAt userdata 0 : ℕ)
          let relay := (info0 >>> 4) &&& 0x0F
          let pos := if (info0 >>> 3) &&& 0x01 = 1 then 6 + (6 + 6 * relay + 6) else 6
          if pos + 3 > userdata.length then pure none else pure (some (userdata.drop (pos + 3)))

end Sink

namespace DeepApp

/-- The Fn formula of `frame_afn_fn`. -/
def fnOfBitmap (dt1 dt2 : ℕ) : ℕ := (dt2 &&& 0x1F) * 32 + (dt1 &&& 0x1F)

/-- `frame_afn_fn`, `none` for whatever fails on the way. -/
def frameAfnFn (store : MetadataStore) (raw : Bytes) : Option (ℕ × ℕ) :=
  match decode store raw with
  | .error _ => none
  | .ok frame =>
    match (FrameCodec.fieldOf frame.fields "AFN").map DataField.raw,
      (FrameCodec.fieldOf frame.fields "数据单元标识").map DataField.raw with
    | some (.int afn), some (.list [.int dt1, .int dt2]) =>
      some (afn.toNat, fnOfBitmap dt1.toNat dt2.toNat)
    | _, _ => none

/-- `_app_payload`. -/
def appPayload (raw : Bytes) : Bytes := slice raw 13 (raw.length - 2)

end DeepApp

namespace ConcurrentReadonly

/-- `_payload`. -/
def payload (parsed : ProtocolFrame) (frameHex : String) : String :=
  let hexStr := dropSpaces (if parsed.rawHex ≠ "" then parsed.rawHex else frameHex)
  let raw := (fromHex hexStr).getD []
  let chars := hexStr.toList
  let fallback := String.ofList ((chars.take (chars.length - 4)).drop 26)
  if raw.length ≥ 15 ∧ byteAt raw 0 = 0x68 then
    let addrHex := upper (dropSpaces
      (((FrameCodec.fieldOf parsed.fields "地址域A").map DataField.hex).getD ""))
    let digits := addrHex.toList.length
    let addrLen := if digits % 2 = 0 then digits / 2 else 0
    let pos := 4 + 6 + addrLen
    if pos < raw.length - 3 then upper (hex (slice raw (pos + 3) (raw.length - 2))) else fallback
  else fallback

end ConcurrentReadonly

/-- All readers report the AFN, the Fn and the application data that `decode` finds. -/
def ReadersAgree (store : MetadataStore) (raw : Bytes) : Prop :=
  ∃ frame h, decode store raw = .ok frame ∧ decodeHeader raw = .ok (some h) ∧
    DeepApp.frameAfnFn store raw = some ((h.afn : ℕ), h.fn) ∧
    DeepApp.appPayload raw = h.appdata ∧
    Sink.appdataFromEntry (hex raw) = .ok (some h.appdata) ∧
    (∃ d, FrameCodec.decodeLocalFrame store raw = .ok d ∧ d.afn = some (.int (h.afn : ℕ)) ∧
      d.fn = some (.int h.fn) ∧ d.buff = h.appdata) ∧
    ConcurrentReadonly.payload frame (hex raw) = upper (hex h.appdata)

/-! ## What each reader finds in a built frame -/

section Fields
variable (h : Header)

theorem afn_field : (FrameCodec.fieldOf (headerFields h) "AFN").map DataField.raw =
    some (.int (h.afn : ℕ)) := by
  simp [FrameCodec.fieldOf, headerFields]

theorem fn_field : (FrameCodec.fieldOf (headerFields h) "FN").map DataField.raw =
    some (.int h.fn) := by
  simp [FrameCodec.fieldOf, headerFields]

theorem bitmap_field : (FrameCodec.fieldOf (headerFields h) "数据单元标识").map DataField.raw =
    some (.list [.int (h.dt1 : ℕ), .int (h.dt2 : ℕ)]) := by
  simp [FrameCodec.fieldOf, headerFields]

theorem address_field : (FrameCodec.fieldOf (headerFields h) "地址域A").map DataField.hex =
    some (hex h.addrRaw) := by
  simp [FrameCodec.fieldOf, headerFields, Header.addrHex]

end Fields

section Readers
variable {store : MetadataStore} {raw : Bytes} {h : Header} {frame : ProtocolFrame}

/-- A decoded frame prints its header. -/
theorem fields_of_decode (hheader : decodeHeader raw = .ok (some h))
    (hdecode : decode store raw = .ok frame) :
    frame.fields = headerFields h ∧ frame.rawHex = hex raw := by
  obtain ⟨body, hbody⟩ := body_of_decode hheader hdecode
  obtain rfl := Except.ok.inj (hdecode.symm.trans (decode_of_body hheader hbody))
  exact ⟨rfl, rfl⟩

theorem frameAfnFn_of_decode (hheader : decodeHeader raw = .ok (some h))
    (hdecode : decode store raw = .ok frame) :
    DeepApp.frameAfnFn store raw = some ((h.afn : ℕ), DeepApp.fnOfBitmap h.dt1 h.dt2) := by
  have hfields := (fields_of_decode hheader hdecode).1
  simp only [DeepApp.frameAfnFn, hdecode, hfields, afn_field, bitmap_field, Int.toNat_natCast]

theorem decodeLocalFrame_of_decode (hheader : decodeHeader raw = .ok (some h))
    (hdecode : decode store raw = .ok frame) (hlen : 3 < raw.length) :
    FrameCodec.decodeLocalFrame store raw = .ok
      { frame := frame, ctrl := raw[3], info := hex (slice raw 4 10), afn := some (.int (h.afn : ℕ)),
        fn := some (.int h.fn), buff := (slice raw 4 (raw.length - 2)).drop 9 } := by
  have hfields := (fields_of_decode hheader hdecode).1
  rw [FrameCodec.decodeLocalFrame, hdecode, index_eq_ok hlen]
  simp only [bind, Except.bind, hfields, afn_field, fn_field]
  rfl

end Readers

section LinkFrame
variable {c : Byte} {userdata : Bytes} {endByte : ℕ}

theorem appPayload_linkFrame :
    DeepApp.appPayload (linkFrame c userdata endByte) = userdata.drop 9 := by
  have hcut : ∀ data : Bytes, ∀ j, slice data 13 j = (slice data 4 j).drop 9 := by
    intro data j
    rw [slice, slice, List.drop_drop]
  rw [DeepApp.appPayload, hcut, linkFrame_length, slice_linkFrame]

/-- The sink's reading, with its own idea of the module mark. -/
theorem appdataFromEntry_linkFrame (hlen : 9 ≤ userdata.length) :
    Sink.appdataFromEntry (hex (linkFrame c userdata endByte)) =
      .ok (let info0 := (byteAt userdata 0 : ℕ)
        let skip := if info0 / 8 % 2 = 1 then 12 + 6 * (info0 / 16 % 16) else 0
        if 9 + skip > userdata.length then none else some (userdata.drop (9 + skip))) := by
  have hlong : ¬ (hex (linkFrame c userdata endByte)).toList.length < 8 := by
    rw [toList_hex, hexChars_length, linkFrame_length]
    omega
  have hhead : index (linkFrame c userdata endByte) 0 = .ok 0x68 := rfl
  have hbit : ∀ n : ℕ, n >>> 3 &&& 0x01 = n / 8 % 2 := by
    intro n
    rw [BitFields.and_mask1, BitFields.shiftRight_eq]
    rfl
  have hnibble : ∀ n : ℕ, n >>> 4 &&& 0x0F = n / 16 % 16 := by
    intro n
    rw [BitFields.and_mask4, BitFields.shiftRight_eq]
    rfl
  simp only [Sink.appdataFromEntry, dropSpaces_hex, if_neg hlong, fromHex_hex, hhead, bind,
    Except.bind, linkFrame_length, slice_linkFrame, if_neg (not_lt.mpr hlen), hbit, hnibble, ne_eq,
    not_true_eq_false, if_false]
  by_cases hmark : (byteAt userdata 0 : ℕ) / 8 % 2 = 1
  · have hpos : 6 + (6 + 6 * ((byteAt userdata 0 : ℕ) / 16 % 16) + 6) + 3 =
        9 + (12 + 6 * ((byteAt userdata 0 : ℕ) / 16 % 16)) := by omega
    rw [if_pos hmark, if_pos hmark, hpos]
    split_ifs <;> rfl
  · rw [if_neg hmark, if_neg hmark]
    split_ifs <;> rfl

/-- Without an address field the statistics find the bytes behind the bitmap. -/
theorem payload_linkFrame (hlen : 9 ≤ userdata.length) {parsed : ProtocolFrame} {h : Header}
    (hhex : parsed.rawHex = hex (linkFrame c userdata endByte))
    (hfields : parsed.fields = headerFields h) (haddr : h.addrRaw = []) (frameHex : String) :
    ConcurrentReadonly.payload parsed frameHex = upper (hex (userdata.drop 9)) := by
  have htext : dropSpaces (if parsed.rawHex ≠ "" then parsed.rawHex else frameHex) =
      hex (linkFrame c userdata endByte) := by
    have hne : parsed.rawHex ≠ "" := by
      intro hempty
      have hcount := congrArg (fun s : String => s.toList.length) (hhex.symm.trans hempty)
      simp only [toList_hex, hexChars_length, linkFrame_length, String.toList_empty,
        List.length_nil] at hcount
      omega
    rw [if_pos hne, hhex, dropSpaces_hex]
  have hdigits : (upper (dropSpaces
      (((FrameCodec.fieldOf parsed.fields "地址域A").map DataField.hex).getD ""))).toList.length =
        0 := by
    rw [hfields, address_field, haddr]
    rfl
  have hlong : 15 ≤ userdata.length + 6 := by omega
  have hroom : 10 < userdata.length + 6 - 3 := by omega
  have hhead : byteAt (linkFrame c userdata endByte) 0 = 0x68 := rfl
  have hcut : slice (linkFrame c userdata endByte) (10 + 3) (userdata.length + 6 - 2) =
      userdata.drop 9 := by
    have happ : DeepApp.appPayload (linkFrame c userdata endByte) = userdata.drop 9 :=
      appPayload_linkFrame
    rwa [DeepApp.appPayload, linkFrame_length] at happ
  simp only [ConcurrentReadonly.payload, htext, fromHex_hex, Option.getD_some, hdigits,
    linkFrame_length]
  rw [if_pos ⟨hlong, hhead⟩]
  simp only [Nat.zero_div, if_true, Nat.add_zero]
  rw [if_pos hroom, hcut]

end LinkFrame

end HplcWorkbench
