import HplcWorkbench.Decode10376
import HplcWorkbench.LinkRoundTrips
import HplcWorkbench.ScanFrame

/-!
# What a built 1376.2 frame decodes to

A frame is header, address bytes, AFN, Fn bitmap and application data. The builder marks the
presence of address bytes in the information field but leaves the relay level at 0, so that the
decoder always takes twelve address bytes.
-/

namespace HplcWorkbench.Adapter10376
open FrameCodec

/-! ## Link frames -/

section LinkFrame
variable {c : Byte} {userdata : Bytes}

theorem linkFrame_eq (c : Byte) (userdata : Bytes) (endByte : ℕ) :
    linkFrame c userdata endByte =
      [0x68, byte ((userdata.length + 6) &&& 0xFF), byte (((userdata.length + 6) >>> 8) &&& 0xFF), c]
        ++ userdata ++ [byte (byteSum (c :: userdata) % 256), byte (endByte &&& 0xFF)] := rfl

theorem linkFrame_length (endByte : ℕ) :
    (linkFrame c userdata endByte).length = userdata.length + 6 := by
  simp [linkFrame_eq]

theorem slice_linkFrame (endByte : ℕ) :
    slice (linkFrame c userdata endByte) 4 (userdata.length + 6 - 2) = userdata := by
  simp [linkFrame_eq, slice]

theorem slice_linkFrame_sum (endByte : ℕ) :
    slice (linkFrame c userdata endByte) 3 (userdata.length + 6 - 2) = c :: userdata := by
  simp [linkFrame_eq, slice]

theorem byteAt_linkFrame_sum (endByte : ℕ) :
    byteAt (linkFrame c userdata endByte) (userdata.length + 6 - 2) =
      byte (byteSum (c :: userdata) % 256) := by
  simp [linkFrame_eq, byteAt]

theorem byteAt_linkFrame_end (endByte : ℕ) :
    byteAt (linkFrame c userdata endByte) (userdata.length + 6 - 1) = byte (endByte &&& 0xFF) := by
  simp [linkFrame_eq, byteAt]

theorem le16_linkFrame (h : userdata.length + 6 < 65536) (endByte : ℕ) :
    le16 (byteAt (linkFrame c userdata endByte) 1) (byteAt (linkFrame c userdata endByte) 2) =
      userdata.length + 6 :=
  le16_bytes h

theorem linkFrame_valid (hc : c ≠ 0x68) (hlong : 4 ≤ userdata.length)
    (h : userdata.length + 6 < 65536) : ValidFrame (linkFrame c userdata 0x16) where
  head := rfl
  declared := (le16_linkFrame h 0x16).trans (linkFrame_length 0x16).symm
  long := by
    rw [linkFrame_length]
    omega
  accepted := by
    have hthird : byteAt (linkFrame c userdata 0x16) 3 = c := rfl
    have hlast : byte (0x16 &&& 0xFF) = 0x16 := rfl
    simp only [candidateOk, hthird, linkFrame_length, byteAt_linkFrame_end, slice_linkFrame_sum,
      byteAt_linkFrame_sum, byte_val, hlast]
    simpa using hc

/-- What the two length bytes say: the length modulo 65536. -/
def declaredLength (userdata : Bytes) : ℕ :=
  le16 (byte ((userdata.length + 6) &&& 0xFF)) (byte (((userdata.length + 6) >>> 8) &&& 0xFF))

/-- The header walk over a link frame, in terms of its user data. -/
theorem decodeHeader_linkFrame (endByte : ℕ) :
    decodeHeader (linkFrame c userdata endByte) =
      let ctl := parseControl c
      let info := parseInfo ctl.direction (userdata.take 6)
      let pos := 6 + addrLen info
      let addrRaw := slice userdata 6 pos
      .ok (if pos + 3 > userdata.length then none
        else some {
          L := declaredLength userdata
          c := c
          ctl := ctl
          infoRaw := userdata.take 6
          info := info
          addrRaw := addrRaw
          address := if info.moduleId = 1 then parseAddress addrRaw else .absent
          afn := byteAt userdata pos
          dt1 := byteAt userdata (pos + 1)
          dt2 := byteAt userdata (pos + 2)
          fn := dtToFn (byteAt userdata (pos + 1)) (byteAt userdata (pos + 2))
          appdata := userdata.drop (pos + 3)
          csByte := byte (byteSum (c :: userdata) % 256)
          cs := byteSum (c :: userdata) % 256 }) := by
  have h1 : index (linkFrame c userdata endByte) 1 =
      .ok (byte ((userdata.length + 6) &&& 0xFF)) := rfl
  have h2 : index (linkFrame c userdata endByte) 2 =
      .ok (byte (((userdata.length + 6) >>> 8) &&& 0xFF)) := rfl
  have h3 : index (linkFrame c userdata endByte) 3 = .ok c := rfl
  have hprefix : slice userdata 0 6 = userdata.take 6 := List.drop_zero
  simp only [decodeHeader, h1, h2, h3, linkFrame_length, slice_linkFrame, slice_linkFrame_sum,
    byteAt_linkFrame_sum, hprefix, bind, Except.bind, pure, Except.pure]
  split_ifs <;> rfl

end LinkFrame

/-! ## User data -/

theorem userData_length (a : FrameArgs) (addrBytes : Bytes) :
    (userData a addrBytes).length = 9 + addrBytes.length + a.appdata.length := by
  simp [userData, packInfo_length]
  omega

theorem take_userData (a : FrameArgs) (addrBytes : Bytes) :
    (userData a addrBytes).take 6 = packInfo a.direction (markAddress a.info addrBytes) := by
  rw [userData, List.append_assoc, List.append_assoc,
    List.take_left' (packInfo_length _ _)]

/-- The bytes behind the information field. -/
theorem drop_userData (a : FrameArgs) (addrBytes : Bytes) :
    (userData a addrBytes).drop 6 =
      addrBytes ++ ([byte (a.afn &&& 0xFF), (fnToDt a.fn).1, (fnToDt a.fn).2] ++ a.appdata) := by
  rw [userData, List.append_assoc, List.append_assoc, List.drop_left' (packInfo_length _ _)]

theorem byteAt_userData (a : FrameArgs) (addrBytes : Bytes) (i : ℕ) :
    byteAt (userData a addrBytes) (6 + addrBytes.length + i) =
      byteAt ([byte (a.afn &&& 0xFF), (fnToDt a.fn).1, (fnToDt a.fn).2] ++ a.appdata) i := by
  have hdrop := drop_userData a addrBytes
  have hget : (userData a addrBytes)[6 + addrBytes.length + i]? =
      ((userData a addrBytes).drop 6)[addrBytes.length + i]? := by
    rw [List.getElem?_drop, Nat.add_assoc]
  rw [byteAt, byteAt, List.getD_eq_getElem?_getD, List.getD_eq_getElem?_getD, hget, hdrop,
    List.getElem?_append_right (by omega), Nat.add_sub_cancel_left]

theorem markAddress_fields_inRange {info : InfoArg} {direction : Direction} (addrBytes : Bytes)
    (h : (info.fields direction).InRange) :
    ((markAddress info addrBytes).fields direction).InRange := by
  rw [markAddress]
  split_ifs
  · cases direction <;> simp only [InfoArg.fields, Info.InRange, UpInfo.InRange, DownInfo.InRange,
      Option.getD_some] at h ⊢ <;> omega
  · exact h

theorem buildFrame_of_packed {a : FrameArgs} {addrBytes : Bytes}
    (h : packAddress a.address = .ok addrBytes) :
    buildFrame a =
      .ok (linkFrame (packControl a.direction a.prm a.commMode) (userData a addrBytes) a.endByte) := by
  rw [buildFrame, h]
  rfl

/-- The header that the decoder reads from a built frame with these address bytes. -/
def builtHeader (a : FrameArgs) (addrBytes : Bytes) : Header :=
  let c := packControl a.direction a.prm a.commMode
  let userdata := userData a addrBytes
  let info := parseInfo a.direction (packInfo a.direction (markAddress a.info addrBytes))
  let pos := 6 + addrLen info
  { L := declaredLength userdata
    c := c
    ctl := parseControl c
    infoRaw := packInfo a.direction (markAddress a.info addrBytes)
    info := info
    addrRaw := slice userdata 6 pos
    address := if info.moduleId = 1 then parseAddress (slice userdata 6 pos) else .absent
    afn := byteAt userdata pos
    dt1 := byteAt userdata (pos + 1)
    dt2 := byteAt userdata (pos + 2)
    fn := dtToFn (byteAt userdata (pos + 1)) (byteAt userdata (pos + 2))
    appdata := userdata.drop (pos + 3)
    csByte := byte (byteSum (c :: userdata) % 256)
    cs := byteSum (c :: userdata) % 256 }

theorem builtHeader_csOk (a : FrameArgs) (addrBytes : Bytes) :
    (builtHeader a addrBytes).csOk = true := by
  simp [Header.csOk, builtHeader]

theorem decodeHeader_built (a : FrameArgs) (addrBytes : Bytes) :
    decodeHeader (linkFrame (packControl a.direction a.prm a.commMode) (userData a addrBytes)
        a.endByte) =
      .ok (if 6 + addrLen (builtHeader a addrBytes).info + 3 > (userData a addrBytes).length then none
        else some (builtHeader a addrBytes)) := by
  rw [decodeHeader_linkFrame]
  simp only [take_userData, parseControl_direction]
  rfl

theorem builtHeader_info {a : FrameArgs} {addrBytes : Bytes}
    (h : (a.info.fields a.direction).InRange) :
    (builtHeader a addrBytes).info = (markAddress a.info addrBytes).fields a.direction :=
  parseInfo_packInfo (markAddress_fields_inRange addrBytes h)

/-- The decoder is in step with the builder when the flags announce the address bytes that are
there. -/
theorem builtHeader_in_step {a : FrameArgs} {addrBytes : Bytes}
    (h : addrLen (builtHeader a addrBytes).info = addrBytes.length) :
    (builtHeader a addrBytes).addrRaw = addrBytes ∧
      (builtHeader a addrBytes).afn = byte (a.afn &&& 0xFF) ∧
      (builtHeader a addrBytes).dt1 = (fnToDt a.fn).1 ∧
      (builtHeader a addrBytes).dt2 = (fnToDt a.fn).2 ∧
      (builtHeader a addrBytes).appdata = a.appdata := by
  have hpos : 6 + addrLen (builtHeader a addrBytes).info = 6 + addrBytes.length := by rw [h]
  have hafn : (builtHeader a addrBytes).afn =
      byteAt (userData a addrBytes) (6 + addrLen (builtHeader a addrBytes).info) := rfl
  have hdt1 : (builtHeader a addrBytes).dt1 =
      byteAt (userData a addrBytes) (6 + addrLen (builtHeader a addrBytes).info + 1) := rfl
  have hdt2 : (builtHeader a addrBytes).dt2 =
      byteAt (userData a addrBytes) (6 + addrLen (builtHeader a addrBytes).info + 2) := rfl
  have happ : (builtHeader a addrBytes).appdata =
      (userData a addrBytes).drop (6 + addrLen (builtHeader a addrBytes).info + 3) := rfl
  have haddr : (builtHeader a addrBytes).addrRaw =
      slice (userData a addrBytes) 6 (6 + addrLen (builtHeader a addrBytes).info) := rfl
  refine ⟨?_, ?_, ?_, ?_, ?_⟩
  · rw [haddr, hpos, slice, List.drop_take, drop_userData, Nat.add_sub_cancel_left, List.take_left]
  · rw [hafn, hpos]
    exact byteAt_userData a addrBytes 0
  · rw [hdt1, hpos]
    exact byteAt_userData a addrBytes 1
  · rw [hdt2, hpos]
    exact byteAt_userData a addrBytes 2
  · rw [happ, hpos, Nat.add_assoc 6, ← List.drop_drop, drop_userData, ← List.drop_drop,
      List.drop_left]
    rfl

/-! ## Packed addresses -/

/-- One optional address of the address field. -/
theorem packPart_ok {s : String} (h : s = "" ∨ TwelveDigits s) :
    ∃ bs, packPart s = .ok bs ∧ (s = "" → bs = []) ∧
      (s ≠ "" → bs.length = 6 ∧ bcdToStr bs = s) := by
  by_cases hs : s = ""
  · refine ⟨[], ?_, fun _ => rfl, fun hne => absurd hs hne⟩
    rw [packPart, if_neg (not_not.mpr hs)]
    rfl
  · obtain ⟨bs, hbs, hlen, htext⟩ := strToBcd_digits (h.resolve_left hs)
    refine ⟨bs, ?_, fun he => absurd he hs, fun _ => ⟨hlen, htext⟩⟩
    rw [packPart, if_pos hs, hbs]

theorem packRelays_ok {relay : List String} (h : ∀ r ∈ relay, TwelveDigits r) :
    ∃ bs, packRelays relay = .ok bs ∧ bs.length = 6 * relay.length := by
  induction relay with
  | nil => exact ⟨[], rfl, rfl⟩
  | cons r rest ih =>
      obtain ⟨first, hfirst, hlen, _⟩ := strToBcd_digits (h r (by simp))
      obtain ⟨more, hmore, hcount⟩ := ih (fun r' hr' => h r' (by simp [hr']))
      refine ⟨first ++ more, ?_, ?_⟩
      · simp only [packRelays, hfirst, hmore]
        rfl
      · rw [List.length_append, hlen, hcount, List.length_cons]
        omega

end HplcWorkbench.Adapter10376
