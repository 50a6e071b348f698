import HplcWorkbench.Adapter645

/-!
# An escaped 645 frame on the wire

Undoing the escape of a built frame gives its logical bytes back, whatever they are, because the
bytes that are sent as they are never hold `1B`.
-/

namespace HplcWorkbench.Adapter645
variable {addrB dom : Bytes} {control : Byte}

/-- A frame before its checksum. -/
def frameHead (addrB : Bytes) (control : Byte) (dom : Bytes) : Bytes :=
  [0x68] ++ addrB ++ [0x68, control, byte dom.length] ++ dom

def logicalFrame (addrB : Bytes) (control : Byte) (dom : Bytes) : Bytes :=
  frameHead addrB control dom ++ [byte (byteSum (frameHead addrB control dom) % 256), 0x16]

/-- One byte as the transport layer sends it. -/
def escapeByte (b : Byte) : Bytes := if b ∈ escapeSet then [0x1B, b] else [b]

def wireFrame (addrB : Bytes) (control : Byte) (dom : Bytes) : Bytes :=
  [0x68] ++ addrB ++ [0x68] ++
    ([control, byte dom.length] ++ dom ++
      [byte (byteSum (frameHead addrB control dom) % 256)]).flatMap escapeByte ++ [0x16]

theorem buildFrame_eq (hlength : dom.length < 256) :
    buildFrame addrB control dom = .ok (logicalFrame addrB control dom) := by
  have hc : byteOf (control : ℕ) = .ok control := by
    rw [byteOf, if_pos control.isLt, byte_of_val]
    rfl
  have hlen : byteOf dom.length = .ok (byte dom.length) := by
    rw [byteOf, if_pos hlength]
    rfl
  rw [buildFrame, hc, hlen]
  rfl

theorem buildFrameEscaped_eq (haddr : addrB.length = 6) (hlength : dom.length < 256) :
    buildFrameEscaped addrB control dom = .ok (wireFrame addrB control dom) := by
  set cs := byte (byteSum (frameHead addrB control dom) % 256) with hcs
  set middle := [control, byte dom.length] ++ dom ++ [cs] with hmiddle
  have hparts : logicalFrame addrB control dom = ([0x68] ++ addrB ++ [0x68]) ++ middle ++ [0x16] := by
    simp [logicalFrame, frameHead, hmiddle, hcs]
  have hend : (logicalFrame addrB control dom).length - 1 =
      ([0x68] ++ addrB ++ [0x68] ++ middle : Bytes).length := by
    rw [hparts, List.length_append]
    rfl
  have hhead : slice (logicalFrame addrB control dom) 0 8 = [0x68] ++ addrB ++ [0x68] := by
    have hstart : logicalFrame addrB control dom =
        [] ++ ([0x68] ++ addrB ++ [0x68]) ++ (middle ++ [0x16]) := by
      rw [hparts, List.append_assoc, List.nil_append]
    exact slice_of_parts hstart rfl (by simp [haddr])
  have hmid : slice (logicalFrame addrB control dom) 8 ((logicalFrame addrB control dom).length - 1) =
      middle := by
    refine slice_of_parts hparts ?_ ?_
    · simp [haddr]
    · rw [hend, List.length_append]
  have hlast : (logicalFrame addrB control dom).drop ((logicalFrame addrB control dom).length - 1) =
      [0x16] := by
    rw [hend, hparts]
    exact List.drop_left
  rw [buildFrameEscaped, buildFrame_eq hlength]
  change Except.ok _ = _
  rw [hhead, hmid, hlast]
  rfl

theorem unescape_append (xs rest : Bytes) (h : 0x1B ∉ xs) :
    unescape (xs ++ rest) = xs ++ unescape rest := by
  induction xs with
  | nil => rfl
  | cons b xs ih =>
    have hb : b ≠ 0x1B := fun hb => h (by simp [hb])
    have hxs : 0x1B ∉ xs := fun hmem => h (List.mem_cons_of_mem _ hmem)
    rw [List.cons_append, unescape, ih hxs]
    · rfl
    · rintro v more rfl
      exact absurd rfl hb

theorem unescape_escapeByte (b : Byte) (rest : Bytes) :
    unescape (escapeByte b ++ rest) = b :: unescape rest := by
  by_cases hb : b ∈ escapeSet
  · rw [escapeByte, if_pos hb]
    rfl
  · have hne : (0x1B : Byte) ∉ [b] := by
      intro h
      rw [← List.mem_singleton.mp h] at hb
      exact hb (by decide)
    rw [escapeByte, if_neg hb, unescape_append _ _ hne]
    rfl

theorem unescape_escaped (xs rest : Bytes) :
    unescape (xs.flatMap escapeByte ++ rest) = xs ++ unescape rest := by
  induction xs with
  | nil => rfl
  | cons b xs ih =>
    rw [List.flatMap_cons, List.append_assoc, unescape_escapeByte, ih]
    rfl

theorem unescape_wireFrame (haddr : 0x1B ∉ addrB) :
    unescape (wireFrame addrB control dom) = logicalFrame addrB control dom := by
  have hhead : (0x1B : Byte) ∉ [0x68] ++ addrB ++ [0x68] := by
    simp [haddr]
  rw [wireFrame, List.append_assoc, unescape_append _ _ hhead, unescape_escaped]
  simp [logicalFrame, frameHead, unescape]

section Positions
variable (haddr : addrB.length = 6)
include haddr

theorem frameHead_length : (frameHead addrB control dom).length = 10 + dom.length := by
  simp only [frameHead, List.length_append, List.length_cons, List.length_nil, haddr]

theorem logicalFrame_length (control : Byte) (dom : Bytes) :
    (logicalFrame addrB control dom).length = 12 + dom.length := by
  simp only [logicalFrame, List.length_append, frameHead_length haddr, List.length_cons,
    List.length_nil]
  omega

/-- What stands at the positions the readers look at. -/
theorem logicalFrame_bytes (control : Byte) (dom : Bytes) :
    byteAt (logicalFrame addrB control dom) 0 = 0x68 ∧
    byteAt (logicalFrame addrB control dom) 3 = byteAt addrB 2 ∧
    byteAt (logicalFrame addrB control dom) 7 = 0x68 ∧
    (logicalFrame addrB control dom)[8]? = some control ∧
    (logicalFrame addrB control dom)[9]? = some (byte dom.length) := by
  match addrB, haddr with
  | [a0, a1, a2, a3, a4, a5], _ => exact ⟨rfl, rfl, rfl, rfl, rfl⟩

theorem slice_address : slice (logicalFrame addrB control dom) 1 7 = addrB := by
  have hparts : logicalFrame addrB control dom =
      [0x68] ++ addrB ++ ([0x68, control, byte dom.length] ++ dom ++
        [byte (byteSum (frameHead addrB control dom) % 256), 0x16]) := by
    simp [logicalFrame, frameHead]
  exact slice_of_parts hparts rfl (by simp [haddr])

theorem slice_data : slice (logicalFrame addrB control dom) 10 (10 + dom.length) = dom := by
  have hparts : logicalFrame addrB control dom =
      ([0x68] ++ addrB ++ [0x68, control, byte dom.length]) ++ dom ++
        [byte (byteSum (frameHead addrB control dom) % 256), 0x16] := rfl
  refine slice_of_parts hparts ?_ ?_
  · simp [haddr]
  · simp [haddr]

theorem checksum_at :
    (logicalFrame addrB control dom)[10 + dom.length]? =
      some (byte (byteSum (frameHead addrB control dom) % 256)) := by
  rw [logicalFrame, List.getElem?_append_right (by rw [frameHead_length haddr]),
    frameHead_length haddr, Nat.sub_self]
  rfl

theorem slice_checked :
    slice (logicalFrame addrB control dom) 0 ((logicalFrame addrB control dom).length - 2) =
      frameHead addrB control dom := by
  have hparts : logicalFrame addrB control dom = [] ++ frameHead addrB control dom ++
      [byte (byteSum (frameHead addrB control dom) % 256), 0x16] := rfl
  refine slice_of_parts hparts rfl ?_
  rw [logicalFrame_length haddr control dom, frameHead_length haddr, List.length_nil]
  omega

theorem byteAt_last :
    byteAt (logicalFrame addrB control dom) ((logicalFrame addrB control dom).length - 1) = 0x16 := by
  have hend : (logicalFrame addrB control dom).length - 1 =
      (frameHead addrB control dom).length + 1 := by
    rw [logicalFrame_length haddr control dom, frameHead_length haddr]
    omega
  rw [hend, byteAt, logicalFrame, List.getD_append_right _ _ _ _ (Nat.le_add_right _ _),
    Nat.add_sub_cancel_left]
  rfl

theorem checksumField_logicalFrame :
    checksumField (logicalFrame addrB control dom) dom.length =
      ([⟨"校验和CS", .str (hex0x (byte (byteSum (frameHead addrB control dom) % 256))), none,
        hex02 (byte (byteSum (frameHead addrB control dom) % 256)),
        .int ((byte (byteSum (frameHead addrB control dom) % 256) : Byte) : ℕ), "校验通过"⟩], []) := by
  have hsum : byteSum (frameHead addrB control dom) % 256 =
      ((byte (byteSum (frameHead addrB control dom) % 256) : Byte) : ℕ) := by
    rw [byte_val, Nat.mod_mod]
  simp only [checksumField, checksum_at haddr, slice_checked haddr]
  simp only [← hsum, if_true]
  rfl

end Positions

theorem byteAt_of_getElem? {data : Bytes} {i : ℕ} {b : Byte} (h : data[i]? = some b) :
    byteAt data i = b := by
  rw [byteAt, List.getD_eq_getElem?_getD, h]
  rfl

theorem index_of_getElem? {data : Bytes} {i : ℕ} {b : Byte} (h : data[i]? = some b) :
    index data i = .ok b := by
  rw [index, h]
  rfl

section Reading
variable (haddr : addrB.length = 6) (hno1B : 0x1B ∉ addrB) (hlength : dom.length ≤ 200)
include haddr hno1B hlength

theorem logicalBytes_wireFrame :
    logicalBytes (wireFrame addrB control dom) = logicalFrame addrB control dom := by
  obtain ⟨hstart, -, hsecond, -, hL⟩ := logicalFrame_bytes haddr control dom
  have hLval : ((byteAt (logicalFrame addrB control dom) 9 : Byte) : ℕ) = dom.length := by
    rw [byteAt_of_getElem? hL, byte_val]
    omega
  have hlen := logicalFrame_length haddr control dom
  simp only [logicalBytes, unescape_wireFrame hno1B]
  rw [if_pos ⟨by omega, hstart, hsecond, byteAt_last haddr⟩, hLval, if_pos ⟨hlength, hlen⟩]

/-- A `68` as third address byte is taken for the second start byte of a 1376.2 frame. -/
theorem confidence_wireFrame (hlow : 1 ≤ (control : ℕ) % 16) (hhigh : (control : ℕ) % 16 ≤ 12) :
    confidence (wireFrame addrB control dom) = if byteAt addrB 2 = 0x68 then 0 else 100 := by
  obtain ⟨hstart, hthird, hsecond, hc, hL⟩ :=
    logicalFrame_bytes haddr control dom
  have hLval : ((byteAt (logicalFrame addrB control dom) 9 : Byte) : ℕ) = dom.length := by
    rw [byteAt_of_getElem? hL, byte_val]
    omega
  have hlen := logicalFrame_length haddr control dom
  have hcs : byteAt (logicalFrame addrB control dom)
      ((logicalFrame addrB control dom).length - 2) =
        byte (byteSum (frameHead addrB control dom) % 256) := by
    have hpos : (logicalFrame addrB control dom).length - 2 = 10 + dom.length := by omega
    rw [hpos, byteAt_of_getElem? (checksum_at haddr)]
  have hsum : byteSum (frameHead addrB control dom) % 256 =
      ((byte (byteSum (frameHead addrB control dom) % 256) : Byte) : ℕ) := by
    rw [byte_val, Nat.mod_mod]
  simp only [confidence, logicalBytes_wireFrame haddr hno1B hlength]
  rw [if_neg (by omega), if_neg (by simp [hstart, hsecond, byteAt_last haddr]), hthird]
  by_cases h68 : byteAt addrB 2 = 0x68
  · rw [if_pos h68, if_pos h68]
  · rw [if_neg h68, if_neg h68, if_neg (by omega), byteAt_of_getElem? hc, BitFields.and_mask4,
      if_neg (by omega), slice_checked haddr, hcs, if_pos hsum]

/-- The data field as `decode` reads it, by the function code alone. -/
def readData (control : Byte) (dom : Bytes) : Bytes :=
  if dom.length > 0 ∧ (control : ℕ) &&& 0x0F ∉ noEncryptFuncs then unmask dom else dom

/-- The frame that `decode` makes of a built frame with these items. -/
def readFrame (addrB : Bytes) (control : Byte) (dom : Bytes)
    (body : List DataField × List String) : ProtocolFrame :=
  let cs := byte (byteSum (frameHead addrB control dom) % 256)
  { newFrame "645" (hex (wireFrame addrB control dom)) with
    fields := [⟨"地址域", .str (upper (hex addrB)), none, hex addrB, .str (hex addrB), ""⟩,
      controlField control,
      ⟨"长度域", .int (byte dom.length : Byte), none, hex02 (byte dom.length),
        .int (byte dom.length : Byte), ""⟩,
      ⟨"校验和CS", .str (hex0x cs), none, hex02 cs, .int (cs : ℕ), "校验通过"⟩]
    items := body.1
    warnings := body.2 }

theorem decode_wireFrame (store : MetadataStore) :
    decode store (wireFrame addrB control dom) =
      (dataItems store ((control : ℕ) &&& 0x0F) dom.length (readData control dom)).map
        (readFrame addrB control dom) := by
  obtain ⟨-, -, -, hc, hL⟩ := logicalFrame_bytes haddr control dom
  have hLval : ((byte dom.length : Byte) : ℕ) = dom.length := by
    rw [byte_val]
    omega
  simp only [decode, logicalBytes_wireFrame haddr hno1B hlength, index_of_getElem? hc,
    index_of_getElem? hL, bind, Except.bind, hLval, slice_address haddr, slice_data haddr,
    checksumField_logicalFrame haddr]
  change Except.bind (dataItems store ((control : ℕ) &&& 0x0F) dom.length (readData control dom)) _ = _
  cases dataItems store ((control : ℕ) &&& 0x0F) dom.length (readData control dom) with
  | error e => rfl
  | ok body =>
    simp only [Except.bind, Except.map, readFrame, hLval]
    rfl

end Reading

end HplcWorkbench.Adapter645
