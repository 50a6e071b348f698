import HplcWorkbench.Apdu698

/-!
# Building, cutting and decoding a 698.45 frame

A built frame is its head, the head check, the APDU and the frame check between the start and
the end byte. Every slice that the readers take is one of these parts.
-/

namespace HplcWorkbench.Adapter698

/-- Length, control byte and addresses: what the head check covers. -/
def frameHead (apdu addrBytes : Bytes) (ca control : Byte) : Bytes :=
  let L := addrBytes.length + apdu.length + 8
  [byte (L &&& 0xFF), byte ((L >>> 8) &&& 0xFF), control] ++ addrBytes ++ [ca]

/-- What the frame check covers. -/
def frameBody (apdu addrBytes : Bytes) (ca control : Byte) : Bytes :=
  let head := frameHead apdu addrBytes ca control
  head ++ fcsBytes head ++ apdu

section Parts
variable {apdu addrBytes : Bytes} {ca control : Byte}

@[simp] theorem fcsBytes_length (data : Bytes) : (fcsBytes data).length = 2 := rfl

@[simp] theorem frameHead_length :
    (frameHead apdu addrBytes ca control).length = addrBytes.length + 4 := by
  simp [frameHead]

@[simp] theorem frameBody_length :
    (frameBody apdu addrBytes ca control).length = addrBytes.length + apdu.length + 6 := by
  simp [frameBody]
  omega

theorem buildFrame_eq :
    buildFrame apdu addrBytes ca control = [0x68] ++ frameBody apdu addrBytes ca control ++
      (fcsBytes (frameBody apdu addrBytes ca control) ++ [0x16]) := by
  have hL : 2 + 1 + addrBytes.length + 1 + 2 + apdu.length + 2 =
      addrBytes.length + apdu.length + 8 := by omega
  simp only [buildFrame, hL, frameBody, frameHead, List.cons_append, List.nil_append,
    List.drop_succ_cons, List.drop_zero, List.append_assoc]

@[simp] theorem buildFrame_length :
    (buildFrame apdu addrBytes ca control).length = addrBytes.length + apdu.length + 10 := by
  rw [buildFrame_eq]
  simp

/-- The same frame with the head apart. -/
theorem buildFrame_head :
    buildFrame apdu addrBytes ca control = [0x68] ++ frameHead apdu addrBytes ca control ++
      (fcsBytes (frameHead apdu addrBytes ca control) ++ apdu ++
        (fcsBytes (frameBody apdu addrBytes ca control) ++ [0x16])) := by
  rw [buildFrame_eq, frameBody]
  simp only [List.append_assoc]

theorem slice_head (j : ℕ) (hj : j = addrBytes.length + 5) :
    slice (buildFrame apdu addrBytes ca control) 1 j = frameHead apdu addrBytes ca control :=
  slice_of_parts buildFrame_head rfl (by simp; omega)

theorem slice_hcs (i : ℕ) (hi : i = addrBytes.length + 5) :
    slice (buildFrame apdu addrBytes ca control) i (i + 2) =
      fcsBytes (frameHead apdu addrBytes ca control) := by
  have hparts : buildFrame apdu addrBytes ca control =
      ([0x68] ++ frameHead apdu addrBytes ca control) ++
        fcsBytes (frameHead apdu addrBytes ca control) ++
          (apdu ++ (fcsBytes (frameBody apdu addrBytes ca control) ++ [0x16])) := by
    rw [buildFrame_head]
    simp only [List.append_assoc]
  exact slice_of_parts hparts (by simp; omega) (by simp; omega)

theorem slice_apdu (i j : ℕ) (hi : i = addrBytes.length + 7)
    (hj : j = addrBytes.length + apdu.length + 7) :
    slice (buildFrame apdu addrBytes ca control) i j = apdu := by
  have hparts : buildFrame apdu addrBytes ca control =
      ([0x68] ++ frameHead apdu addrBytes ca control ++
        fcsBytes (frameHead apdu addrBytes ca control)) ++ apdu ++
          (fcsBytes (frameBody apdu addrBytes ca control) ++ [0x16]) := by
    rw [buildFrame_head]
    simp only [List.append_assoc]
  exact slice_of_parts hparts (by simp; omega) (by simp; omega)

theorem slice_body (j : ℕ) (hj : j = addrBytes.length + apdu.length + 7) :
    slice (buildFrame apdu addrBytes ca control) 1 j = frameBody apdu addrBytes ca control :=
  slice_of_parts buildFrame_eq rfl (by simp; omega)

theorem slice_fcs (i : ℕ) (hi : i = addrBytes.length + apdu.length + 7) :
    slice (buildFrame apdu addrBytes ca control) i (i + 2) =
      fcsBytes (frameBody apdu addrBytes ca control) := by
  have hparts : buildFrame apdu addrBytes ca control =
      ([0x68] ++ frameBody apdu addrBytes ca control) ++
        fcsBytes (frameBody apdu addrBytes ca control) ++ [0x16] := by
    rw [buildFrame_eq]
    simp only [List.append_assoc]
  exact slice_of_parts hparts (by simp; omega) (by simp; omega)

theorem slice_sa (j : ℕ) (hj : j = addrBytes.length + 4) :
    slice (buildFrame apdu addrBytes ca control) 4 j = addrBytes := by
  have hparts : buildFrame apdu addrBytes ca control =
      [0x68, byte ((addrBytes.length + apdu.length + 8) &&& 0xFF),
        byte (((addrBytes.length + apdu.length + 8) >>> 8) &&& 0xFF), control] ++ addrBytes ++
        ([ca] ++ (fcsBytes (frameHead apdu addrBytes ca control) ++ apdu ++
          (fcsBytes (frameBody apdu addrBytes ca control) ++ [0x16]))) := by
    rw [buildFrame_head]
    generalize fcsBytes (frameHead apdu addrBytes ca control) = hcs
    rw [frameHead]
    simp only [List.append_assoc, List.cons_append, List.nil_append]
  exact slice_of_parts hparts rfl (by simp; omega)

theorem byteAt_ca (i : ℕ) (hi : i = addrBytes.length + 4) :
    byteAt (buildFrame apdu addrBytes ca control) i = ca := by
  subst hi
  rw [buildFrame_head, frameHead]
  simp [byteAt]

theorem byteAt_end (i : ℕ) (hi : i = addrBytes.length + apdu.length + 9) :
    byteAt (buildFrame apdu addrBytes ca control) i = 0x16 := by
  have hlast : [0x68] ++ frameBody apdu addrBytes ca control ++
      (fcsBytes (frameBody apdu addrBytes ca control) ++ [0x16]) =
        ([0x68] ++ frameBody apdu addrBytes ca control ++
          fcsBytes (frameBody apdu addrBytes ca control)) ++ [0x16] := by
    simp only [List.append_assoc]
  have hlen : i = ([0x68] ++ frameBody apdu addrBytes ca control ++
      fcsBytes (frameBody apdu addrBytes ca control)).length := by
    simp
    omega
  rw [buildFrame_eq, hlast, byteAt, hlen]
  simp only [List.getD_eq_getElem?_getD, List.getElem?_concat_length, Option.getD_some]

theorem le16_length (h : addrBytes.length + apdu.length + 8 < 65536) :
    le16 (byteAt (buildFrame apdu addrBytes ca control) 1)
      (byteAt (buildFrame apdu addrBytes ca control) 2) = addrBytes.length + apdu.length + 8 := by
  rw [buildFrame_head, frameHead]
  exact le16_bytes h

theorem byteAt_control : byteAt (buildFrame apdu addrBytes ca control) 3 = control := by
  rw [buildFrame_head, frameHead]
  rfl

theorem byteAt_saHead (h : addrBytes ≠ []) :
    byteAt (buildFrame apdu addrBytes ca control) 4 = byteAt addrBytes 0 := by
  obtain ⟨head, rest, rfl⟩ := List.exists_cons_of_ne_nil h
  rw [buildFrame_head, frameHead]
  rfl

theorem byteAt_apdu (i : ℕ) (hi : i = addrBytes.length + 7) (h : apdu ≠ []) :
    byteAt (buildFrame apdu addrBytes ca control) i = byteAt apdu 0 := by
  have hpos : 0 < apdu.length := List.length_pos_of_ne_nil h
  have hcut : slice (buildFrame apdu addrBytes ca control) i (i + apdu.length) = apdu :=
    slice_apdu i (i + apdu.length) hi (by omega)
  rw [← Nat.add_zero i, ← byteAt_slice (j := i + apdu.length) (by omega), hcut]

end Parts

/-! ## The round trip -/

/-- A control byte and an address that the format allows, and a frame within the bounds of
`try_extract`. -/
structure FrameInBounds (apdu addrBytes : Bytes) (ca control : Byte) : Prop where
  singleHead : control ≠ 0x68
  address : addrBytes.length = saLen (byteAt addrBytes 0)
  lower : 12 ≤ (buildFrame apdu addrBytes ca control).length - 2
  upper : (buildFrame apdu addrBytes ca control).length - 2 ≤ 2000
  room : 4 + saLen (byteAt addrBytes 0) + 8 ≤ (buildFrame apdu addrBytes ca control).length

/-- What `decode` finds in the link layer of a built frame. -/
def builtLink (apdu addrBytes : Bytes) (ca control : Byte) : LinkFields where
  L := addrBytes.length + apdu.length + 8
  c := control
  sa := addrBytes
  ca := ca
  hcs := fcsBytes (frameHead apdu addrBytes ca control)
  fcs := fcsBytes (frameBody apdu addrBytes ca control)
  apdu := apdu
  hcsOk := true
  fcsOk := true

section RoundTrip
variable {apdu addrBytes : Bytes} {ca control : Byte}

theorem FrameInBounds.apdu_long (h : FrameInBounds apdu addrBytes ca control) :
    2 ≤ apdu.length := by
  have hroom := h.room
  rw [buildFrame_length, ← h.address] at hroom
  omega

theorem FrameInBounds.length_le (h : FrameInBounds apdu addrBytes ca control) :
    addrBytes.length + apdu.length + 8 ≤ 2000 := by
  have hupper := h.upper
  rw [buildFrame_length] at hupper
  omega

theorem FrameInBounds.address_ne_nil (h : FrameInBounds apdu addrBytes ca control) :
    addrBytes ≠ [] := by
  intro hnil
  have haddr := h.address
  rw [hnil, saLen] at haddr
  simp at haddr

theorem FrameInBounds.saLen_eq (h : FrameInBounds apdu addrBytes ca control) :
    saLen (byteAt (buildFrame apdu addrBytes ca control) 4) = addrBytes.length := by
  rw [byteAt_saHead h.address_ne_nil, ← h.address]

theorem FrameInBounds.declared (h : FrameInBounds apdu addrBytes ca control) :
    le16 (byteAt (buildFrame apdu addrBytes ca control) 1)
      (byteAt (buildFrame apdu addrBytes ca control) 2) = addrBytes.length + apdu.length + 8 := by
  have hle := h.length_le
  exact le16_length (by omega)

theorem tryExtract_built (h : FrameInBounds apdu addrBytes ca control) (s : Bytes) :
    tryExtract (buildFrame apdu addrBytes ca control ++ s) =
      some ⟨buildFrame apdu addrBytes ca control, (buildFrame apdu addrBytes ca control).length⟩ := by
  have hle := h.length_le
  have hapdu := h.apdu_long
  have hlen : (buildFrame apdu addrBytes ca control).length =
      addrBytes.length + apdu.length + 10 := buildFrame_length
  have hat : ∀ i < addrBytes.length + apdu.length + 10,
      byteAt (buildFrame apdu addrBytes ca control ++ s) i =
        byteAt (buildFrame apdu addrBytes ca control) i :=
    fun i hi => byteAt_append (by omega)
  have hL := h.declared
  have hhead : byteAt (buildFrame apdu addrBytes ca control) 0 = 0x68 := rfl
  have hcut : (buildFrame apdu addrBytes ca control ++ s).take
      (addrBytes.length + apdu.length + 8 + 1 + 1) = buildFrame apdu addrBytes ca control :=
    List.take_left' (by omega)
  have hlower := h.lower
  have hroom := h.room
  rw [← h.address] at hroom
  have hend : byteAt (buildFrame apdu addrBytes ca control ++ s)
      (addrBytes.length + apdu.length + 8 + 1) = 0x16 := by
    rw [hat _ (by omega), byteAt_end _ rfl]
  simp only [tryExtract, List.length_append, hlen, hat 0 (by omega), hat 1 (by omega),
    hat 2 (by omega), hat 3 (by omega), hhead, byteAt_control, hL, hend, hcut, h.saLen_eq, ne_eq,
    not_true_eq_false, or_false]
  rw [if_neg (by omega), if_neg h.singleHead, if_neg (by omega), if_neg (by omega),
    if_neg (by omega)]

/-- Every built frame rates 85 or 100, except one that has the outline of a 645 frame. -/
theorem confidence_built (h : FrameInBounds apdu addrBytes ca control) :
    confidence (buildFrame apdu addrBytes ca control) =
      if looksLike645 (buildFrame apdu addrBytes ca control) then 0
      else if (apduName? (byteAt apdu 0)).isSome then 100 else 85 := by
  have hle := h.length_le
  have hapdu := h.apdu_long
  have hlen : (buildFrame apdu addrBytes ca control).length =
      addrBytes.length + apdu.length + 10 := buildFrame_length
  have hL := h.declared
  have hhead : byteAt (buildFrame apdu addrBytes ca control) 0 = 0x68 := rfl
  have hne : apdu ≠ [] := by
    rintro rfl
    simp at hapdu
  have hcount : addrBytes.length ≥ 2 := by
    have haddr := h.address
    rw [saLen] at haddr
    omega
  have hhcs : checkFcs (slice (buildFrame apdu addrBytes ca control) 1 (4 + addrBytes.length + 1))
      (slice (buildFrame apdu addrBytes ca control) (4 + addrBytes.length + 1)
        (4 + addrBytes.length + 1 + 2)) = true := by
    rw [slice_head _ (by omega), slice_hcs _ (by omega), checkFcs_fcsBytes]
  have hfcs : checkFcs
      (slice (buildFrame apdu addrBytes ca control) 1 (addrBytes.length + apdu.length + 10 - 3))
      (slice (buildFrame apdu addrBytes ca control) (addrBytes.length + apdu.length + 10 - 3)
        (addrBytes.length + apdu.length + 10 - 3 + 2)) = true := by
    rw [slice_body _ (by omega), slice_fcs _ (by omega), checkFcs_fcsBytes]
  have htag : byteAt (buildFrame apdu addrBytes ca control) (4 + addrBytes.length + 1 + 2) =
      byteAt apdu 0 := byteAt_apdu _ (by omega) hne
  have hroom : decide (addrBytes.length + apdu.length + 10 - 3 > 4 + addrBytes.length + 1 + 2) =
      true := decide_eq_true (by omega)
  have hend : byteAt (buildFrame apdu addrBytes ca control)
      (addrBytes.length + apdu.length + 10 - 1) = 0x16 := byteAt_end _ rfl
  simp only [confidence, hlen, hhead, hend, byteAt_control, hL, h.saLen_eq, hhcs, hfcs, htag, hroom,
    Bool.true_and, ne_eq, not_true_eq_false, or_false, if_false]
  rw [if_neg (by omega), if_neg h.singleHead]
  split_ifs <;> first | rfl | omega

theorem decodeLink_built (h : FrameInBounds apdu addrBytes ca control) :
    decodeLink (buildFrame apdu addrBytes ca control) =
      .ok (builtLink apdu addrBytes ca control) := by
  have hle := h.length_le
  have hlen : (buildFrame apdu addrBytes ca control).length =
      addrBytes.length + apdu.length + 10 := buildFrame_length
  have hL := h.declared
  have hindex : ∀ i < addrBytes.length + apdu.length + 10,
      index (buildFrame apdu addrBytes ca control) i =
        .ok (byteAt (buildFrame apdu addrBytes ca control) i) := by
    intro i hi
    have hin : i < (buildFrame apdu addrBytes ca control).length := by omega
    rw [index_eq_ok hin, byteAt, List.getD_eq_getElem _ _ hin]
  have hca : byteAt (buildFrame apdu addrBytes ca control) (4 + addrBytes.length) = ca :=
    byteAt_ca _ (by omega)
  have hfcsPos : addrBytes.length + apdu.length + 10 - 3 = addrBytes.length + apdu.length + 7 := by
    omega
  simp only [decodeLink, hindex 1 (by omega), hindex 2 (by omega), hindex 3 (by omega),
    hindex 4 (by omega), bind, Except.bind, h.saLen_eq, hindex _ (show 4 + addrBytes.length <
      addrBytes.length + apdu.length + 10 by omega), hlen, hfcsPos, hL, hca, byteAt_control,
    slice_sa _ (show 4 + addrBytes.length = addrBytes.length + 4 by omega),
    slice_head _ (show 4 + addrBytes.length + 1 = addrBytes.length + 5 by omega),
    slice_hcs _ (show 4 + addrBytes.length + 1 = addrBytes.length + 5 by omega),
    slice_apdu _ _ (show 4 + addrBytes.length + 1 + 2 = addrBytes.length + 7 by omega) rfl,
    slice_body _ rfl, slice_fcs _ rfl, checkFcs_fcsBytes]
  rfl

theorem decode_built (store : MetadataStore) (h : FrameInBounds apdu addrBytes ca control)
    {out : ApduOut} (hparse : parseApdu store apdu = .ok out) :
    decode store (buildFrame apdu addrBytes ca control) =
      .ok { newFrame "698.45" (hex (buildFrame apdu addrBytes ca control)) with
        fields := linkDataFields (builtLink apdu addrBytes ca control) ++
          [⟨"APDU类型", .str (apduName (byteAt apdu 0)), none, hex02 (byteAt apdu 0),
            .int (byteAt apdu 0 : ℕ), ""⟩] ++ out.fields
        items := out.items
        warnings := out.warnings } := by
  have hapdu := h.apdu_long
  obtain ⟨tag, rest, rfl⟩ : ∃ tag rest, apdu = tag :: rest := by
    apply List.exists_cons_of_ne_nil
    rintro rfl
    simp at hapdu
  rw [decode, decodeLink_built h]
  simp only [bind, Except.bind, builtLink, hparse]
  rfl

/-- The cutter returns the frame, the rating rejects it only when it has the outline of a 645
frame, and the link fields are read back with both checks correct. -/
theorem built_frame_recovered (store : MetadataStore) (h : FrameInBounds apdu addrBytes ca control) :
    (∀ s, tryExtract (buildFrame apdu addrBytes ca control ++ s) =
      some ⟨buildFrame apdu addrBytes ca control,
        (buildFrame apdu addrBytes ca control).length⟩) ∧
      confidence (buildFrame apdu addrBytes ca control) =
        (if looksLike645 (buildFrame apdu addrBytes ca control) then 0
        else if (apduName? (byteAt apdu 0)).isSome then 100 else 85) ∧
      decodeLink (buildFrame apdu addrBytes ca control) =
        .ok (builtLink apdu addrBytes ca control) ∧
      ∀ out, parseApdu store apdu = .ok out →
        ∃ pf, decode store (buildFrame apdu addrBytes ca control) = .ok pf ∧
          linkDataFields (builtLink apdu addrBytes ca control) <+: pf.fields ∧
          pf.warnings = out.warnings := by
  refine ⟨tryExtract_built h, confidence_built h, decodeLink_built h, ?_⟩
  intro out hparse
  refine ⟨_, decode_built store h hparse, ?_, rfl⟩
  rw [List.append_assoc]
  exact List.prefix_append ..

end RoundTrip

/-- A link request of three bytes to a seven-byte address. -/
theorem linkRequest_inBounds :
    FrameInBounds [0x01, 0x00, 0x00] [0x05, 0x01, 0x02, 0x03, 0x04, 0x05, 0x06] 0x10 0x81 where
  singleHead := by decide
  address := by decide
  lower := by decide
  upper := by decide
  room := by decide

theorem linkRequest_recovered :
    confidence (buildFrame [0x01, 0x00, 0x00] [0x05, 0x01, 0x02, 0x03, 0x04, 0x05, 0x06] 0x10
      0x81) = 100 :=
  (built_frame_recovered (fun _ _ => none) linkRequest_inBounds).2.1.trans (by decide)

/-- The same request to an address with a `68` and a byte that fits a 645 length. -/
theorem outline645_rejected :
    ¬ ∀ apdu addrBytes ca control, FrameInBounds apdu addrBytes ca control →
      0 < confidence (buildFrame apdu addrBytes ca control) := by
  intro hall
  have hpos := hall [0x01, 0x00, 0x00] [0x05, 0x01, 0x02, 0x68, 0x04, 0x08, 0x06] 0x10 0x81
    ⟨by decide, by decide, by decide, by decide, by decide⟩
  have hzero : confidence (buildFrame [0x01, 0x00, 0x00]
      [0x05, 0x01, 0x02, 0x68, 0x04, 0x08, 0x06] 0x10 0x81) = 0 := by decide
  omega

end HplcWorkbench.Adapter698
