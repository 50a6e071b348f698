import HplcWorkbench.FrameReaders

/-!
# When the readers of a frame agree

Two readers assume that there is no address field and one tests another bit for it, so all of
them agree only on frames without one. The two Fn formulas have only F1 and F2 in common.
-/

namespace HplcWorkbench
open Adapter10376

/-- The bytes behind the information field of a built frame. -/
def Adapter10376.FrameArgs.wire (a : FrameArgs) (addrBytes : Bytes) : Bytes :=
  addrBytes ++ ([byte (a.afn &&& 0xFF), (fnToDt a.fn).1, (fnToDt a.fn).2] ++ a.appdata)

/-- No reader takes the flags of the information field for an announced address: the module mark
is not 1, and bit 3 of the first byte is clear. -/
def NoAddressSeen (a : FrameArgs) (addrBytes : Bytes) : Prop :=
  match a.direction with
  | .down => (markAddress a.info addrBytes).moduleId.getD 0 % 4 ≠ 1 ∧
      (markAddress a.info addrBytes).conflictDetect.getD 0 % 2 = 0
  | .up => (markAddress a.info addrBytes).moduleId.getD 0 % 4 = 0

section Flags
variable (a : FrameArgs) (addrBytes : Bytes)

theorem builtHeader_moduleId : (builtHeader a addrBytes).info.moduleId =
    (markAddress a.info addrBytes).moduleId.getD 0 % 4 := by
  have hdef : (builtHeader a addrBytes).info =
      parseInfo a.direction (packInfo a.direction (markAddress a.info addrBytes)) := rfl
  rw [hdef]
  cases a.direction with
  | down =>
      simp only [parseInfo, packInfo, Info.moduleId, List.getD_cons_zero, downFirst_val]
      rw [BitFields.and_mask2, BitFields.shiftRight_eq]
      omega
  | up =>
      simp only [parseInfo, packInfo, Info.moduleId, List.getD_cons_zero, upFirst_val]
      rw [BitFields.and_mask2, BitFields.shiftRight_eq]
      omega

/-- The bit that the sink takes for the module mark. -/
theorem sinkMark_eq : (byteAt (userData a addrBytes) 0 : ℕ) / 8 % 2 =
    match a.direction with
    | .down => (markAddress a.info addrBytes).conflictDetect.getD 0 % 2
    | .up => (markAddress a.info addrBytes).moduleId.getD 0 % 4 / 2 := by
  have hfirst : byteAt (userData a addrBytes) 0 =
      byteAt (packInfo a.direction (markAddress a.info addrBytes)) 0 := by
    rw [← take_userData, byteAt_take (by omega)]
  rw [hfirst]
  cases a.direction with
  | down =>
      simp only [packInfo, byteAt, List.getD_cons_zero, downFirst_val]
      omega
  | up =>
      simp only [packInfo, byteAt, List.getD_cons_zero, upFirst_val]
      omega

theorem noAddressSeen_iff : NoAddressSeen a addrBytes ↔
    (builtHeader a addrBytes).info.moduleId ≠ 1 ∧
      (byteAt (userData a addrBytes) 0 : ℕ) / 8 % 2 ≠ 1 := by
  rw [sinkMark_eq, builtHeader_moduleId, NoAddressSeen]
  cases a.direction with
  | down =>
      simp only
      omega
  | up =>
      simp only
      omega

theorem byteAt_wire (i : ℕ) :
    byteAt (a.wire addrBytes) i = byteAt (userData a addrBytes) (6 + i) := by
  rw [FrameArgs.wire, ← drop_userData]
  simp [byteAt]

theorem drop_wire (i : ℕ) :
    (a.wire addrBytes).drop i = (userData a addrBytes).drop (6 + i) := by
  rw [FrameArgs.wire, ← drop_userData, List.drop_drop]

end Flags

section Agreement
variable {store : MetadataStore} {a : FrameArgs} {addrBytes raw : Bytes}

/-- When the readers agree, the header they agree on starts right behind the information field. -/
theorem noAddressSeen_of_agree (hpack : packAddress a.address = .ok addrBytes)
    (hbuilt : buildFrame a = .ok raw) (h : ReadersAgree store raw) : NoAddressSeen a addrBytes := by
  obtain rfl := Except.ok.inj (hbuilt.symm.trans (buildFrame_of_packed hpack))
  obtain ⟨frame, hd, _, hheader, _, happ, hsink, _⟩ := h
  rw [decodeHeader_built] at hheader
  have hlen := userData_length a addrBytes
  have hheader := Except.ok.inj hheader
  split_ifs at hheader with hshort
  obtain rfl := Option.some.inj hheader
  have hdata : (builtHeader a addrBytes).appdata =
      (userData a addrBytes).drop (6 + addrLen (builtHeader a addrBytes).info + 3) := rfl
  rw [appPayload_linkFrame, hdata] at happ
  have hcount := congrArg List.length happ
  rw [List.length_drop, List.length_drop] at hcount
  rw [noAddressSeen_iff]
  constructor
  · intro hmark
    rw [addrLen, if_pos hmark] at hcount hshort
    omega
  · intro hmark
    rw [appdataFromEntry_linkFrame (by omega), hdata, ← happ] at hsink
    have hsink := Except.ok.inj hsink
    simp only [if_pos hmark] at hsink
    split_ifs at hsink with hcut
    have hdrop := congrArg List.length (Option.some.inj hsink)
    rw [List.length_drop, List.length_drop] at hdrop
    omega

theorem builtHeader_of_noAddress (h : NoAddressSeen a addrBytes) :
    addrLen (builtHeader a addrBytes).info = 0 := by
  rw [addrLen, if_neg ((noAddressSeen_iff a addrBytes).mp h).1]

/-- Without an announced address the header is read off the bytes behind the information field. -/
theorem header_of_noAddress (h : NoAddressSeen a addrBytes) :
    (builtHeader a addrBytes).addrRaw = [] ∧
      (builtHeader a addrBytes).afn = byteAt (a.wire addrBytes) 0 ∧
      (builtHeader a addrBytes).dt1 = byteAt (a.wire addrBytes) 1 ∧
      (builtHeader a addrBytes).dt2 = byteAt (a.wire addrBytes) 2 ∧
      (builtHeader a addrBytes).appdata = (a.wire addrBytes).drop 3 := by
  have hlen := builtHeader_of_noAddress h
  have haddr : (builtHeader a addrBytes).addrRaw =
      slice (userData a addrBytes) 6 (6 + addrLen (builtHeader a addrBytes).info) := rfl
  have hafn : (builtHeader a addrBytes).afn =
      byteAt (userData a addrBytes) (6 + addrLen (builtHeader a addrBytes).info) := rfl
  have hdt1 : (builtHeader a addrBytes).dt1 =
      byteAt (userData a addrBytes) (6 + addrLen (builtHeader a addrBytes).info + 1) := rfl
  have hdt2 : (builtHeader a addrBytes).dt2 =
      byteAt (userData a addrBytes) (6 + addrLen (builtHeader a addrBytes).info + 2) := rfl
  have happ : (builtHeader a addrBytes).appdata =
      (userData a addrBytes).drop (6 + addrLen (builtHeader a addrBytes).info + 3) := rfl
  refine ⟨?_, ?_, ?_, ?_, ?_⟩
  · rw [haddr, hlen, slice]
    simp
  · rw [hafn, hlen, byteAt_wire]
  · rw [hdt1, hlen, byteAt_wire]
  · rw [hdt2, hlen, byteAt_wire]
  · rw [happ, hlen, drop_wire]

/-- The readers of a built frame agree exactly when no flag announces an address, the bitmap has
the same Fn in both formulas, and the application data can be decoded. -/
theorem readersAgree_iff (store : MetadataStore) (hpack : packAddress a.address = .ok addrBytes)
    (hbuilt : buildFrame a = .ok raw) :
    ReadersAgree store raw ↔
      NoAddressSeen a addrBytes ∧
        DeepApp.fnOfBitmap (byteAt (a.wire addrBytes) 1) (byteAt (a.wire addrBytes) 2) =
          dtToFn (byteAt (a.wire addrBytes) 1) (byteAt (a.wire addrBytes) 2) ∧
        ∃ body, decodeBody store (byteAt (a.wire addrBytes) 0)
          (dtToFn (byteAt (a.wire addrBytes) 1) (byteAt (a.wire addrBytes) 2))
          ((a.wire addrBytes).drop 3) a.direction = .ok body := by
  have hraw : raw = linkFrame (packControl a.direction a.prm a.commMode) (userData a addrBytes)
      a.endByte := Except.ok.inj (hbuilt.symm.trans (buildFrame_of_packed hpack))
  have hlen := userData_length a addrBytes
  have hdir : (builtHeader a addrBytes).ctl.direction = a.direction :=
    parseControl_direction a.direction a.prm a.commMode
  have hfn : (builtHeader a addrBytes).fn =
      dtToFn (builtHeader a addrBytes).dt1 (builtHeader a addrBytes).dt2 := rfl
  constructor
  · intro hagree
    have hflags := noAddressSeen_of_agree hpack hbuilt hagree
    obtain ⟨_, hafn, hdt1, hdt2, happ⟩ := header_of_noAddress hflags
    obtain ⟨frame, h, hdecode, hheader, hdeep, _⟩ := hagree
    have hbuiltHeader : h = builtHeader a addrBytes := by
      rw [hraw, decodeHeader_built] at hheader
      have hheader := Except.ok.inj hheader
      split_ifs at hheader
      exact (Option.some.inj hheader).symm
    rw [frameAfnFn_of_decode hheader hdecode] at hdeep
    have hpair := congrArg Prod.snd (Option.some.inj hdeep)
    obtain ⟨body, hbody⟩ := body_of_decode hheader hdecode
    subst hbuiltHeader
    rw [hfn, hdt1, hdt2] at hpair
    rw [hfn, hafn, hdt1, hdt2, happ, hdir] at hbody
    exact ⟨hflags, hpair, body, hbody⟩
  · rintro ⟨hflags, hpair, body, hbody⟩
    obtain ⟨haddr, hafn, hdt1, hdt2, happ⟩ := header_of_noAddress hflags
    have hheader : decodeHeader raw = .ok (some (builtHeader a addrBytes)) := by
      rw [hraw, decodeHeader_built, builtHeader_of_noAddress hflags, if_neg (by omega)]
    have hdata : (builtHeader a addrBytes).appdata = (userData a addrBytes).drop 9 := by
      rw [happ, drop_wire]
    rw [← hafn, ← hdt1, ← hdt2, ← hfn, ← happ, ← hdir] at hbody
    rw [← hdt1, ← hdt2, ← hfn] at hpair
    have hdecode := decode_of_body hheader hbody
    have hlong : 3 < raw.length := by
      rw [hraw, linkFrame_length]
      omega
    refine ⟨_, _, hdecode, hheader, ?_, ?_, ?_, ⟨_, decodeLocalFrame_of_decode hheader hdecode hlong,
      rfl, rfl, ?_⟩, ?_⟩
    · rw [frameAfnFn_of_decode hheader hdecode, hpair]
    · rw [hraw, appPayload_linkFrame, hdata]
    · have hbit := ((noAddressSeen_iff a addrBytes).mp hflags).2
      rw [hraw, appdataFromEntry_linkFrame (by omega), hdata]
      simp only [if_neg hbit, Nat.add_zero]
      rw [if_neg (by omega)]
    · change (slice raw 4 (raw.length - 2)).drop 9 = _
      rw [hraw, linkFrame_length, slice_linkFrame, hdata]
    · rw [hdata]
      exact payload_linkFrame (by omega) (congrArg hex hraw) rfl haddr _

/-- The two Fn formulas agree on a bitmap that the builder writes only for F1 and F2. -/
theorem fnOfBitmap_fnToDt {fn : ℕ} (h1 : 1 ≤ fn) (h2 : fn ≤ 255) :
    DeepApp.fnOfBitmap (fnToDt fn).1 (fnToDt fn).2 = dtToFn (fnToDt fn).1 (fnToDt fn).2 ↔
      fn = 1 ∨ fn = 2 := by
  interval_cases fn <;> decide

end Agreement

/-- A query F1 and a query F4 without address field. -/
def queryF1 : FrameArgs where
  afn := 0x10

def queryF4 : FrameArgs where
  afn := 0x10
  fn := 4

def queryF1Frame : Bytes :=
  [0x68, 0x0F, 0x00, 0x43, 0, 0, 0, 0, 0, 0, 0x10, 0x01, 0x00, 0x54, 0x16]

def queryF4Frame : Bytes :=
  [0x68, 0x0F, 0x00, 0x43, 0, 0, 0, 0, 0, 0, 0x10, 0x08, 0x00, 0x5B, 0x16]

theorem queryF1_agreed : ReadersAgree (fun _ _ => none) queryF1Frame :=
  (readersAgree_iff _ (show packAddress queryF1.address = .ok [] by decide)
    (show buildFrame queryF1 = .ok queryF1Frame by decide)).mpr
    ⟨⟨by decide, by decide⟩, by decide, _, rfl⟩

/-- The deep application reads the frame of F4 as F8. -/
theorem queryF4_disagreed :
    ¬ ∀ (store : MetadataStore) (a : FrameArgs) (raw : Bytes), buildFrame a = .ok raw →
      ReadersAgree store raw := by
  intro hall
  obtain ⟨frame, h, hdecode, hheader, hdeep, _⟩ :=
    hall (fun _ _ => none) queryF4 queryF4Frame (by decide)
  rw [frameAfnFn_of_decode hheader hdecode] at hdeep
  have hfn : DeepApp.fnOfBitmap h.dt1 h.dt2 = h.fn := congrArg Prod.snd (Option.some.inj hdeep)
  have hread : (decodeHeader queryF4Frame).map (Option.map fun h => (h.dt1, h.dt2, h.fn)) =
      .ok (some (8, 0, 4)) := by decide
  rw [hheader] at hread
  have hparts : (h.dt1, h.dt2, h.fn) = (8, 0, 4) := Option.some.inj (Except.ok.inj hread)
  simp only [Prod.mk.injEq] at hparts
  obtain ⟨hdt1, hdt2, hfour⟩ := hparts
  rw [hdt1, hdt2, hfour] at hfn
  exact absurd hfn (by decide)

end HplcWorkbench
