import HplcWorkbench.DualMacDecode

/-!
# What decoding a frame of the dual-mode link layer raises

Every read that fails is caught and becomes a warning. What is left is the text of an association
confirmation, which needs a field of its table.
-/

namespace HplcWorkbench.DualMac

section Reads
variable {c : Bytes} {i n pos : ℕ}

theorem u8At_of_lt (h : i < c.length) : u8At c i = some (byteAt c i).val := by
  rw [u8At, byteAt, List.getElem?_eq_getElem h, List.getD_eq_getElem _ _ h, Option.map_some]

theorem u8At_of_le (h : c.length ≤ i) : u8At c i = none := by
  rw [u8At, List.getElem?_eq_none h, Option.map_none]

theorem le16At_of_lt (h : i + 1 < c.length) :
    le16At c i = some (le16 (byteAt c i) (byteAt c (i + 1))) := by
  rw [le16At, u8At_of_lt (by omega), u8At_of_lt h]
  rfl

theorem le16At_of_le (h : c.length ≤ i + 1) : le16At c i = none := by
  rw [le16At, u8At_of_le h]
  cases u8At c i <;> rfl

theorem getTei_of_lt (h : i + 1 < c.length) :
    getTei c i = some ((byteAt c i).val ||| ((byteAt c (i + 1)).val &&& 0x0F) <<< 8) := by
  rw [getTei, u8At_of_lt (by omega), u8At_of_lt h]
  rfl

theorem le32At_of_lt (h : i + 3 < c.length) :
    le32At c i = some ((byteAt c i).val ||| (byteAt c (i + 1)).val <<< 8 |||
      (byteAt c (i + 2)).val <<< 16 ||| (byteAt c (i + 3)).val <<< 24) := by
  rw [le32At, u8At_of_lt (by omega), u8At_of_lt (by omega), u8At_of_lt (by omega), u8At_of_lt h]
  rfl

theorem pcoEntry_isSome : (pcoEntry (slice c pos (pos + 2))).isSome = true ↔ pos + 2 ≤ c.length := by
  have hlength : (slice c pos (pos + 2)).length = min (pos + 2) c.length - pos := slice_length
  by_cases h : pos + 2 ≤ c.length
  · rw [pcoEntry, getTei_of_lt (by omega), u8At_of_lt (by omega)]
    exact iff_of_true rfl h
  · rw [pcoEntry, u8At_of_le (c := slice c pos (pos + 2)) (i := 1) (by omega)]
    refine iff_of_false ?_ h
    cases getTei (slice c pos (pos + 2)) 0 <;> exact Bool.false_ne_true

theorem some_bind {α β : Type} (a : α) (f : α → Option β) : (some a >>= f) = f a := rfl

theorem mapM_isSome {α β : Type} {f : α → Option β} {xs : List α} :
    (xs.mapM f).isSome = true ↔ ∀ x ∈ xs, (f x).isSome = true := by
  induction xs with
  | nil => simp
  | cons x xs ih =>
    rw [List.mapM_cons, List.forall_mem_cons, ← ih]
    cases f x with
    | none => simp
    | some y => cases xs.mapM f <;> simp

theorem subStas_isSome (c : Bytes) (n pos : ℕ) : (subStas c n pos).isSome = true := by
  induction n generalizing pos with
  | zero => rfl
  | succ n ih =>
    rw [subStas]
    split_ifs with h
    · rfl
    · obtain ⟨rest, hrest⟩ := Option.isSome_iff_exists.mp (ih (pos + 2))
      rw [getTei_of_lt (by omega), hrest]
      rfl

theorem directPcos_isSome (c : Bytes) (n pos : ℕ) : (directPcos c n pos).isSome = true := by
  induction n generalizing pos with
  | zero => rfl
  | succ n ih =>
    rw [directPcos]
    split_ifs with h
    · rfl
    · obtain ⟨entry, hentry⟩ := Option.isSome_iff_exists.mp
        (pcoEntry_isSome.mpr (show pos + 2 ≤ c.length by omega))
      rw [le16At_of_lt (by omega), hentry]
      obtain ⟨subs, hsubs⟩ := Option.isSome_iff_exists.mp (subStas_isSome c
        (le16 (byteAt c (pos + 2)) (byteAt c (pos + 3))) (pos + 4))
      obtain ⟨rest, hrest⟩ := Option.isSome_iff_exists.mp (ih subs.2)
      dsimp only [bind, Option.bind]
      rw [hsubs]
      dsimp only
      rw [hrest]
      rfl

end Reads

/-- The table of an association confirmation ends before its route head or before the last of its
direct stations. -/
def ShortConfirm (table : Bytes) : Prop :=
  table.length < 46 ∨
    0 < le16 (byteAt table 40) (byteAt table 41) ∧
      table.length < 48 + 2 * le16 (byteAt table 40) (byteAt table 41)

instance (table : Bytes) : Decidable (ShortConfirm table) := by
  unfold ShortConfirm
  infer_instance

theorem table70_eq_none_iff (c : Bytes) : table70 c = none ↔ ShortConfirm c := by
  rw [table70]
  by_cases hhead : c.length < 46
  · refine iff_of_true ?_ (.inl hhead)
    rw [le16At_of_le (i := 44) (by omega)]
    cases u8At c 12 <;> cases le16At c 40 <;> cases le16At c 42 <;> rfl
  · set cnt := le16 (byteAt c 40) (byteAt c 41) with hcnt
    have hstas : ((List.range cnt).mapM fun i =>
        pcoEntry (slice c (48 + i * 2) (50 + i * 2))).isSome = true ↔ ¬ ShortConfirm c := by
      rw [mapM_isSome, ShortConfirm, ← hcnt]
      have hfits (i : ℕ) : (pcoEntry (slice c (48 + i * 2) (50 + i * 2))).isSome = true ↔
          50 + i * 2 ≤ c.length := by
        rw [show 50 + i * 2 = 48 + i * 2 + 2 by omega]
        exact pcoEntry_isSome
      simp only [List.mem_range, hfits]
      constructor
      · intro hall hshort
        have hlast := hall (cnt - 1) (by omega)
        omega
      · intro hlong i hi
        omega
    rw [← not_iff_not, ← hstas]
    rw [u8At_of_lt (i := 12) (by omega), some_bind, le16At_of_lt (i := 40) (by omega), some_bind,
      le16At_of_lt (i := 42) (by omega), some_bind, le16At_of_lt (i := 44) (by omega), some_bind,
      ← hcnt]
    cases (List.range cnt).mapM fun i => pcoEntry (slice c (48 + i * 2) (50 + i * 2)) with
    | none => exact iff_of_false (fun h => h rfl) Bool.false_ne_true
    | some stas =>
      obtain ⟨pcos, hpcos⟩ := Option.isSome_iff_exists.mp (directPcos_isSome c
        (le16 (byteAt c 42) (byteAt c 43)) (48 + cnt * 2))
      refine iff_of_true ?_ rfl
      rw [some_bind, hpcos, u8At_of_lt (i := 13) (by omega), getTei_of_lt (i := 14) (by omega),
        u8At_of_lt (i := 15) (by omega), getTei_of_lt (i := 16) (by omega),
        u8At_of_lt (i := 18) (by omega), u8At_of_lt (i := 19) (by omega),
        le32At_of_lt (i := 20) (by omega), le32At_of_lt (i := 24) (by omega),
        le32At_of_lt (i := 28) (by omega), le32At_of_lt (i := 32) (by omega)]
      exact Option.some_ne_none _

/-! ## What the layers leave for the events -/

/-- The confirmation whose text needs a field that was not read. -/
def Unprintable (mac : Option MacHeader) (mgmt : Option MgmtMessage) : Prop :=
  ∃ h ∈ mac, ∃ m ∈ mgmt, h.msduType = 0 ∧ m.mmtype = 1 ∧ m.fields.staTei = none

theorem mgmtEvent_returns (src dst : ℕ) (mgmt : MgmtMessage) :
    (∃ event, mgmtEvent src dst mgmt = .ok event) ↔
      ¬ (mgmt.mmtype = 1 ∧ mgmt.fields.staTei = none) := by
  by_cases hconfirm : mgmt.mmtype = 1
  · unfold mgmtEvent
    rw [hconfirm]
    dsimp only
    cases mgmt.fields.staTei with
    | none =>
      refine iff_of_false ?_ (fun h => h ⟨rfl, rfl⟩)
      rintro ⟨event, ⟨⟩⟩
    | some tei =>
      refine iff_of_true ⟨_, rfl⟩ ?_
      rintro ⟨-, ⟨⟩⟩
  · refine iff_of_true ?_ (fun h => hconfirm h.1)
    unfold mgmtEvent
    split
    case h_2 h => exact absurd h hconfirm
    all_goals exact ⟨_, rfl⟩

/-- Only the events of a frame with management messages can raise. -/
theorem extractEvents_returns (fch : Fch) (mac : Option MacHeader) (msdu : Option Msdu)
    (mgmt : Option MgmtMessage) (beacon : Option Beacon) :
    (∃ events, extractEvents fch mac msdu mgmt beacon = .ok events) ↔
      ¬ (fch.delimiter = 1 ∧ Unprintable mac mgmt) := by
  unfold extractEvents
  split
  case h_1 hdelimiter =>
    refine iff_of_true ⟨_, rfl⟩ (fun h => ?_)
    rw [hdelimiter] at h
    cases h.1
  case h_2 hdelimiter =>
    refine iff_of_true ⟨_, rfl⟩ (fun h => ?_)
    rw [hdelimiter] at h
    cases h.1
  case h_3 mac hdelimiter =>
    rw [and_iff_right hdelimiter]
    by_cases happ : mac.msduType = 48
    · rw [if_pos happ]
      refine iff_of_true ⟨_, rfl⟩ ?_
      rintro ⟨h, ⟨⟩, m, -, htype, -⟩
      omega
    rw [if_neg happ]
    cases mgmt with
    | none =>
      refine iff_of_true ⟨_, rfl⟩ ?_
      rintro ⟨h, -, m, ⟨⟩, -⟩
    | some mgmt =>
      dsimp only
      by_cases hmgmt : mac.msduType = 0
      · have hunprintable : Unprintable (some mac) (some mgmt) ↔
            mgmt.mmtype = 1 ∧ mgmt.fields.staTei = none := by
          constructor
          · rintro ⟨h, ⟨⟩, m, ⟨⟩, -, hm⟩
            exact hm
          · exact fun hm => ⟨mac, rfl, mgmt, rfl, hmgmt, hm⟩
        rw [if_pos hmgmt, hunprintable, ← mgmtEvent_returns mac.teis mac.teid]
        cases mgmtEvent mac.teis mac.teid mgmt with
        | error e =>
          refine iff_of_false ?_ ?_
          · rintro ⟨events, ⟨⟩⟩
          · rintro ⟨event, ⟨⟩⟩
        | ok event => exact iff_of_true ⟨_, rfl⟩ ⟨_, rfl⟩
      · rw [if_neg hmgmt]
        refine iff_of_true ⟨_, rfl⟩ ?_
        rintro ⟨h, ⟨⟩, m, -, htype, -⟩
        exact hmgmt htype
  case h_4 hbeacon hcoord hsof =>
    refine iff_of_true ⟨_, rfl⟩ ?_
    rintro ⟨hdelimiter, h, hmac, -⟩
    exact hsof h hdelimiter hmac

theorem parseMgmt_returns {msdu : Bytes} (h : 4 ≤ msdu.length) :
    ∃ m, parseMgmt msdu = .ok m ∧ m.mmtype = le16 (byteAt msdu 0) (byteAt msdu 1) ∧
      (m.mmtype = 1 → (m.fields.staTei = none ↔ ShortConfirm (msdu.drop 4))) := by
  rw [parseMgmt, if_neg (not_lt.mpr h)]
  dsimp only
  cases hread : handler (le16 (byteAt msdu 0) (byteAt msdu 1)) with
  | none =>
    refine ⟨_, rfl, rfl, fun hconfirm => ?_⟩
    dsimp only at hconfirm
    rw [hconfirm] at hread
    cases hread
  | some read =>
    have hshort (hconfirm : le16 (byteAt msdu 0) (byteAt msdu 1) = 1) :
        read (msdu.drop 4) = (table70 (msdu.drop 4)).map .assocCnf := by
      rw [hconfirm] at hread
      cases hread
      rfl
    dsimp only
    cases hfields : read (msdu.drop 4) with
    | none =>
      refine ⟨_, rfl, rfl, fun hconfirm => iff_of_true rfl ?_⟩
      rw [← table70_eq_none_iff, ← Option.map_eq_none_iff, ← hshort hconfirm, hfields]
    | some fields =>
      refine ⟨_, rfl, rfl, fun hconfirm => ?_⟩
      rw [hshort hconfirm, Option.map_eq_some_iff] at hfields
      obtain ⟨t, ht, rfl⟩ := hfields
      rw [← table70_eq_none_iff, ht]
      exact iff_of_false (Option.some_ne_none _) (Option.some_ne_none _)

/-! ## The frame -/

/-- Where the MSDU starts, and how long the MAC header says it is. -/
def msduStart (region : Bytes) : ℕ := if (byteAt region 11).val.testBit 3 then 28 else 16

def msduLen (region : Bytes) : ℕ :=
  ((byteAt region 9).val &&& 0x07) <<< 8 ||| (byteAt region 8).val

/-- The region has a whole MSDU with an association confirmation whose table is too short. -/
structure CutConfirm (region : Bytes) : Prop where
  header : 16 ≤ region.length
  management : (byteAt region 7).val = 0
  whole : msduStart region + msduLen region ≤ region.length
  typed : 4 ≤ msduLen region
  confirm : le16 (byteAt region (msduStart region)) (byteAt region (msduStart region + 1)) = 1
  short : ShortConfirm (slice region (msduStart region + 4) (msduStart region + msduLen region))

theorem parseMacHeader_returns {region : Bytes} (h : 16 ≤ region.length) :
    ∃ mac, parseMacHeader region = .ok mac ∧ mac.msduType = (byteAt region 7).val ∧
      mac.headerLen = msduStart region ∧ mac.msduLen = msduLen region := by
  rw [parseMacHeader, if_neg (not_lt.mpr h)]
  exact ⟨_, rfl, rfl, rfl, rfl⟩

/-- What cannot be read of an SOF frame is caught. -/
theorem readSof_returns (out : DualMacFrame) (hmac : out.mac = none) (hmgmt : out.mgmt = none) :
    ∃ out', readSof out = .ok out' ∧
      (Unprintable out'.mac out'.mgmt ↔ CutConfirm out.gw.region) := by
  by_cases hheader : 16 ≤ out.gw.region.length
  · obtain ⟨mac, hparse, htype, hstart, hlen⟩ := parseMacHeader_returns hheader
    rw [readSof, hparse]
    dsimp only
    set msdu := extractMsdu out.gw.region mac with hmsdu
    by_cases hwhole : msduStart out.gw.region + msduLen out.gw.region ≤ out.gw.region.length
    · have htruncated : msdu.truncated = false := by
        rw [hmsdu, extractMsdu, hstart, hlen]
        dsimp only
        split_ifs <;> rfl
      have hdata : msdu.data =
          slice out.gw.region (msduStart out.gw.region)
            (msduStart out.gw.region + msduLen out.gw.region) := by
        rw [hmsdu, extractMsdu, hstart, hlen]
        dsimp only
        split_ifs <;> rfl
      have hlength : msdu.data.length = msduLen out.gw.region := by
        rw [hdata, slice_length]
        omega
      by_cases hread : mac.msduType = 0 ∧ 4 ≤ msdu.data.length
      · obtain ⟨mgmt, hmgmt', hmm, hshort⟩ := parseMgmt_returns hread.2
        have hcondition : mac.msduType = 0 ∧ msdu.data ≠ [] ∧ ¬ msdu.truncated = true := by
          refine ⟨hread.1, fun hnil => ?_, by rw [htruncated]; exact Bool.false_ne_true⟩
          rw [hnil] at hread
          exact absurd hread.2 (by decide)
        rw [if_pos hcondition, hmgmt']
        rw [hdata, byteAt_slice (by omega), byteAt_slice (by omega), Nat.add_zero] at hmm
        rw [hdata, slice, List.drop_drop, ← slice] at hshort
        refine ⟨_, rfl, ?_, ?_⟩
        · rintro ⟨h, ⟨⟩, m, ⟨⟩, -, hconfirm, htei⟩
          exact ⟨hheader, htype ▸ hread.1, hwhole, hlength ▸ hread.2, hmm ▸ hconfirm,
            (hshort hconfirm).mp htei⟩
        · intro hcut
          have hconfirm := hmm.trans hcut.confirm
          exact ⟨mac, rfl, mgmt, rfl, hread.1, hconfirm, (hshort hconfirm).mpr hcut.short⟩
      · have hnot : ¬ CutConfirm out.gw.region := fun hcut =>
          hread ⟨htype.trans hcut.management, hlength ▸ hcut.typed⟩
        by_cases hcondition : mac.msduType = 0 ∧ msdu.data ≠ [] ∧ ¬ msdu.truncated = true
        · have hlong : msdu.data.length < 4 := by
            by_contra hge
            exact hread ⟨hcondition.1, not_lt.mp hge⟩
          rw [if_pos hcondition, parseMgmt, if_pos hlong]
          refine ⟨_, rfl, iff_of_false ?_ hnot⟩
          rintro ⟨h, -, m, hm, -⟩
          dsimp only at hm
          rw [hmgmt] at hm
          cases hm
        · rw [if_neg hcondition]
          refine ⟨_, rfl, iff_of_false ?_ hnot⟩
          rintro ⟨h, -, m, hm, -⟩
          dsimp only at hm
          rw [hmgmt] at hm
          cases hm
    · have htruncated : msdu.truncated = true := by
        rw [hmsdu, extractMsdu, hstart, hlen]
        dsimp only
        rw [if_neg (by omega), if_neg hwhole]
      rw [if_neg fun h => h.2.2 htruncated]
      refine ⟨_, rfl, iff_of_false ?_ fun h => hwhole h.whole⟩
      rintro ⟨h, -, m, hm, -⟩
      dsimp only at hm
      rw [hmgmt] at hm
      cases hm
  · rw [readSof, parseMacHeader, if_pos (not_le.mp hheader)]
    refine ⟨_, rfl, iff_of_false ?_ fun h => hheader h.header⟩
    rintro ⟨h, hh, -⟩
    dsimp only at hh
    rw [hmac] at hh
    cases hh

/-- What cannot be read of a beacon is caught. -/
theorem readBeacon_returns (out : DualMacFrame) :
    ∃ out', readBeacon out = .ok out' ∧ out'.mac = out.mac := by
  rw [readBeacon, parseBeacon]
  split_ifs
  · exact ⟨_, rfl, rfl⟩
  · exact ⟨_, rfl, rfl⟩

/-- A frame is decoded unless it is an SOF frame with a cut association confirmation. -/
theorem decodeFrame_returns_iff {raw data : Bytes} {gw : GwFrame} {fch : Fch}
    (hdata : stripGw raw = .ok data) (hgw : parseGwFrame data = .ok gw)
    (hfch : parseFch gw.fch = .ok fch) :
    (∃ out, decodeFrame raw = .ok out) ↔ ¬ (fch.delimiter = 1 ∧ CutConfirm gw.region) := by
  have hlayers (out : DualMacFrame) :
      (∃ out', (do
        let events ← extractEvents fch out.mac out.msdu out.mgmt out.beacon
        pure ({ out with events := events } : DualMacFrame)) = .ok out') ↔
      ¬ (fch.delimiter = 1 ∧ Unprintable out.mac out.mgmt) := by
    rw [← extractEvents_returns fch out.mac out.msdu out.mgmt out.beacon]
    cases extractEvents fch out.mac out.msdu out.mgmt out.beacon with
    | error e =>
      refine iff_of_false ?_ ?_
      · rintro ⟨out', ⟨⟩⟩
      · rintro ⟨events, ⟨⟩⟩
    | ok events => exact iff_of_true ⟨_, rfl⟩ ⟨_, rfl⟩
  rw [decodeFrame, hdata]
  dsimp only [bind, Except.bind]
  rw [hgw]
  dsimp only
  rw [hfch]
  dsimp only
  set out : DualMacFrame := { gw := gw, fch := fch, warnings := gw.warnings ++ fch.warnings }
  by_cases hsof : fch.delimiter = 1 ∧ gw.region ≠ []
  · rw [if_pos hsof]
    obtain ⟨out', hread, hcut⟩ := readSof_returns out rfl rfl
    rw [hread]
    exact (hlayers out').trans (not_congr (and_congr_right fun _ => hcut))
  · have hnot : ¬ (fch.delimiter = 1 ∧ CutConfirm gw.region) := by
      rintro ⟨hdelimiter, hcut⟩
      refine hsof ⟨hdelimiter, ?_⟩
      rintro hnil
      have hheader := hcut.header
      rw [hnil] at hheader
      exact absurd hheader (by decide)
    rw [if_neg hsof]
    refine iff_of_true ?_ hnot
    have hnone (out' : DualMacFrame) (hmac : out'.mac = none) : ∃ o, (do
        let events ← extractEvents fch out'.mac out'.msdu out'.mgmt out'.beacon
        pure ({ out' with events := events } : DualMacFrame)) = .ok o := by
      rw [hlayers out']
      rintro ⟨-, h, hh, -⟩
      rw [hmac] at hh
      cases hh
    by_cases hbeacon : fch.delimiter = 0 ∧ gw.region ≠ []
    · rw [if_pos hbeacon]
      obtain ⟨out', hread, hmac⟩ := readBeacon_returns out
      rw [hread]
      exact hnone out' hmac
    · rw [if_neg hbeacon]
      exact hnone out rfl

/-- A frame without a payload. -/
def emptyBeacon : Bytes := List.replicate 40 0

theorem emptyBeacon_returns : ∃ gw fch, parseGwFrame emptyBeacon = .ok gw ∧
    parseFch gw.fch = .ok fch ∧ ((∃ out, decodeFrame emptyBeacon = .ok out) ↔
      ¬ (fch.delimiter = 1 ∧ CutConfirm gw.region)) :=
  ⟨_, _, rfl, rfl, decodeFrame_returns_iff rfl rfl rfl⟩

/-- An SOF frame whose MSDU of four bytes is an association confirmation without a table. -/
def cutConfirm : Bytes :=
  List.replicate 20 0 ++ (0x01 :: List.replicate 15 0) ++
    (List.replicate 8 0 ++ 0x04 :: List.replicate 7 0) ++ [0x01, 0, 0, 0] ++ List.replicate 4 0

theorem cutConfirm_raises :
    ¬ ∀ (raw data : Bytes) (gw : GwFrame) (fch : Fch), stripGw raw = .ok data →
      parseGwFrame data = .ok gw → parseFch gw.fch = .ok fch →
      ∃ out, decodeFrame raw = .ok out := by
  intro h
  obtain ⟨out, hout⟩ := h cutConfirm cutConfirm _ _ rfl rfl rfl
  cases hout

end HplcWorkbench.DualMac
