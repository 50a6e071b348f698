import HplcWorkbench.AttemptConservation
import HplcWorkbench.BatchJob
import HplcWorkbench.HexReading

/-!
# Which meter a request is about

A batch request carries one plain 645 frame for its meter. The 1376.2 adapter finds it and the 645
adapter decodes it, with the meter address in the field 地址域. The statistics ask for 地址域A,
which is the name that the 1376.2 adapter uses for the link address, and so they find no meter in
any request.
-/

namespace HplcWorkbench.ConcurrentReadonly
open Adapter10376 (FrameArgs AddressArg pyStrip)
open FrameCodec (fieldOf)

/-! ## Requests -/

/-- `meter_read_645`. -/
def meterRead645 (addr : String) : PyM Bytes :=
  let a := pyStrip addr.toList
  let refused := PyErr.valueError ("表地址须为 12 位数字: " ++ (PyVal.str addr).repr)
  if a.length ≠ 12 ∨ ¬ Batch.isDigits a then throw refused
  else
    match fromHexChars a with
    | none => throw refused
    | some addrBytes => Adapter645.buildFrame addrBytes.reverse 0x91 (List.replicate 4 0x33)

/-- What `_read_one` takes from the job; `ccoAddr` is empty when the profile has none. -/
structure ReadConfig where
  mode : Batch.Mode := .single
  protocolType : ℤ := 2
  ccoAddr : String := ""

/-- `_address`. -/
def ReadConfig.address (cfg : ReadConfig) : AddressArg :=
  if cfg.ccoAddr = "" then {} else { src := cfg.ccoAddr, dst := cfg.ccoAddr }

/-- One byte of `bytes([n])`. -/
def protocolByte (n : ℤ) : PyM Byte :=
  if n < 0 then throw (.valueError "bytes must be in range(0, 256)") else byteOf n.toNat

/-- The application data of a request. -/
def requestData (protocol : Byte) (app : Bytes) : Bytes :=
  [protocol, 0x00, byte app.length, byte (app.length / 256)] ++ app

def requestArgs (cfg : ReadConfig) (seq : ℕ) (appdata : Bytes) : FrameArgs where
  info := { seq := some seq }
  address := cfg.address
  afn := cfg.mode.afn
  fn := 1
  appdata := appdata

/-- The frame that `_read_one` sends as its `seq`-th request. -/
def readRequest (cfg : ReadConfig) (seq : ℕ) (meter : String) : PyM Bytes := do
  let app ← meterRead645 meter
  let protocol ← protocolByte cfg.protocolType
  Adapter10376.buildFrame (requestArgs cfg seq (requestData protocol app))

/-! ## The embedded frames of a payload -/

/-- No 698.45 frame can be cut off at any place. -/
def Without698 (data : Bytes) : Prop := ∀ k, Adapter698.tryExtract (data.drop k) = none

section Scan
variable {store : MetadataStore} {data : Bytes}

theorem decode645_unnamed {raw : Bytes} {pf : ProtocolFrame}
    (h : Adapter645.decode store raw = .ok pf) : fieldOf pf.fields "地址域A" = none := by
  simp only [Adapter645.decode, bind, Except.bind] at h
  cases hc : index (Adapter645.logicalBytes raw) 8 with
  | error e =>
      rw [hc] at h
      cases h
  | ok c =>
      rw [hc] at h
      cases hL : index (Adapter645.logicalBytes raw) 9 with
      | error e =>
          rw [hL] at h
          cases h
      | ok L =>
          rw [hL] at h
          dsimp only at h
          split at h
          · cases h
          · obtain rfl := Except.ok.inj h
            have hsum : ∀ f ∈ (Adapter645.checksumField (Adapter645.logicalBytes raw) L).1,
                f.name = "校验和CS" := by
              intro f hf
              unfold Adapter645.checksumField at hf
              split at hf
              · cases hf
              · rw [List.mem_singleton.mp hf]
            refine List.find?_eq_none.mpr fun f hf => ?_
            rw [List.mem_reverse, List.mem_append] at hf
            rcases hf with hf | hf
            · have hname : f.name ∈ ["地址域", "控制码", "长度域"] := by
                simp only [List.mem_cons, List.not_mem_nil, or_false] at hf ⊢
                rcases hf with rfl | rfl | rfl
                · exact Or.inl rfl
                · exact Or.inr (Or.inl rfl)
                · exact Or.inr (Or.inr rfl)
              intro heq
              rw [of_decide_eq_true heq] at hname
              revert hname
              decide
            · rw [hsum f hf]
              decide

/-- What a scan finds there are 645 frames, and they have no field of that name. -/
theorem scanNested_unnamed (h698 : Without698 data) (fuel k : ℕ) {frames : List ProtocolFrame}
    (h : Adapter10376.scanNestedFuel store fuel (data.drop k) = .ok frames) :
    ∀ pf ∈ frames, fieldOf pf.fields "地址域A" = none := by
  induction fuel generalizing k frames with
  | zero =>
      obtain rfl := Except.ok.inj h
      exact fun pf hpf => absurd hpf List.not_mem_nil
  | succ fuel ih =>
      cases hdata : data.drop k with
      | nil =>
          rw [hdata] at h
          obtain rfl := Except.ok.inj h
          exact fun pf hpf => absurd hpf List.not_mem_nil
      | cons b rest =>
          have hnext : rest = data.drop (k + 1) := by
            rw [← List.drop_drop, hdata]
            rfl
          rw [hdata, Adapter10376.scanNestedFuel] at h
          have hbest : Adapter10376.bestNested (b :: rest) =
              (Adapter645.tryExtract (b :: rest)).map fun r => (.a645, r) := by
            have hnone := h698 k
            rw [hdata] at hnone
            rw [Adapter10376.bestNested, hnone]
            cases Adapter645.tryExtract (b :: rest) <;> rfl
          rw [hbest] at h
          cases hcut : Adapter645.tryExtract (b :: rest) with
          | none =>
              rw [hcut, hnext] at h
              exact ih (k + 1) h
          | some res =>
              rw [hcut] at h
              simp only [Option.map_some, Adapter10376.NestedAdapter.decode, bind, Except.bind] at h
              cases hpf : Adapter645.decode store res.raw with
              | error e =>
                  rw [hpf] at h
                  cases h
              | ok pf =>
                  rw [hpf, ← hdata, List.drop_drop] at h
                  cases hmore : Adapter10376.scanNestedFuel store fuel (data.drop (k + res.consumed)) with
                  | error e =>
                      rw [hmore] at h
                      cases h
                  | ok more =>
                      rw [hmore] at h
                      obtain rfl := Except.ok.inj h
                      intro pf' hpf'
                      rcases List.mem_cons.mp hpf' with rfl | hpf'
                      · exact decode645_unnamed hpf
                      · exact ih _ hmore pf' hpf'

theorem nestedAddrs_nil {pf : ProtocolFrame}
    (h : ∀ n ∈ pf.nested, fieldOf n.fields "地址域A" = none) : nestedAddrs pf = .ok [] := by
  have htexts : ∀ frames : List ProtocolFrame, (∀ n ∈ frames, fieldOf n.fields "地址域A" = none) →
      frames.mapM (fun n => addressText (fieldOf n.fields "地址域A")) =
        .ok (List.replicate frames.length "") := by
    intro frames hframes
    induction frames with
    | nil => rfl
    | cons n rest ih =>
        rw [List.mapM_cons, hframes n List.mem_cons_self,
          ih fun m hm => hframes m (List.mem_cons_of_mem _ hm)]
        rfl
  rw [nestedAddrs, htexts pf.nested h]
  have hempty : (List.replicate pf.nested.length "").filter (· ≠ "") = [] :=
    List.filter_eq_nil_iff.mpr fun s hs => by simp [List.eq_of_mem_replicate hs]
  simp only [bind, Except.bind, hempty]
  rfl

end Scan

/-! ## The payload of a request -/

section Payload

theorem lowNibble_digit {b : Byte} {bs : Bytes} (hb : b ∈ bs)
    (hdigits : ∀ c ∈ hexChars bs, Adapter10376.IsDigit c) : (b : ℕ) % 16 ≤ 9 := by
  have hmem : hexDigitLower ((b : ℕ) % 16) ∈ hexChars bs :=
    List.mem_flatMap.mpr ⟨b, hb, List.mem_cons_of_mem _ List.mem_cons_self⟩
  have hdigit := hdigits _ hmem
  have hsmall : (b : ℕ) % 16 < 16 := Nat.mod_lt _ (by omega)
  revert hdigit
  generalize (b : ℕ) % 16 = n at hsmall
  interval_cases n <;> decide

/-- The 645 frame of a request: six bytes of decimal digits behind the start byte. -/
theorem meterRead645_shape {meter : String} {app : Bytes} (h : meterRead645 meter = .ok app) :
    ∃ addr : Bytes, ∃ cs : Byte, addr.length = 6 ∧ (∀ b ∈ addr, (b : ℕ) % 16 ≤ 9) ∧
      app = 0x68 :: (addr ++ [0x68, 0x91, 4, 0x33, 0x33, 0x33, 0x33, cs, 0x16]) := by
  unfold meterRead645 at h
  dsimp only at h
  split_ifs at h with hbad
  obtain ⟨hlength, hdigits⟩ := not_or.mp hbad
  have hall : ∀ c ∈ pyStrip meter.toList, Adapter10376.IsDigit c := by
    intro c hc
    rw [not_not, Batch.isDigits, Bool.and_eq_true, List.all_eq_true] at hdigits
    have hrange := hdigits.2 c hc
    rw [Bool.and_eq_true, decide_eq_true_iff, decide_eq_true_iff] at hrange
    exact hrange
  obtain ⟨bs, hbs, -, hcount, hchars⟩ :=
    fromHexChars_digits 6 (pyStrip meter.toList) (by omega) hall
  rw [hbs] at h
  have hframe := Except.ok.inj h
  simp only [List.append_assoc, List.cons_append, List.nil_append] at hframe
  refine ⟨bs.reverse, _, ?_, fun b hb => ?_, hframe.symm⟩
  · rw [List.length_reverse, hcount]
  · apply lowNibble_digit (List.mem_reverse.mp hb)
    rwa [hchars]

/-- A meter address has no low byte that could be the length of a 698.45 frame. -/
theorem requestData_without698 {protocol : Byte} {addr : Bytes} {cs : Byte} (hlength : addr.length = 6)
    (hdigits : ∀ b ∈ addr, (b : ℕ) % 16 ≤ 9) :
    Without698 (requestData protocol
      (0x68 :: (addr ++ [0x68, 0x91, 4, 0x33, 0x33, 0x33, 0x33, cs, 0x16]))) := by
  intro k
  match addr, hlength with
  | [a₀, a₁, a₂, a₃, a₄, a₅], _ =>
    simp only [List.forall_mem_cons] at hdigits
    obtain ⟨h₀, h₁, h₂, h₃, h₄, h₅, -⟩ := hdigits
    by_cases hk : k < 20
    · -- a length of 12 to 18 needs a zero behind it, which only address bytes can be
      interval_cases k <;> simp [requestData, Adapter698.tryExtract, byteAt, le16_eq] <;> omega
    · rw [List.drop_eq_nil_of_le (Nat.not_lt.mp hk)]
      rfl

end Payload

/-! ## The header of a request -/

section Header
open Adapter10376

theorem pairsToBytes_length {digits : List Char} {bs : Bytes} (h : pairsToBytes digits = .ok bs) :
    2 * bs.length = digits.length := by
  induction digits using pairsToBytes.induct generalizing bs with
  | case1 hi lo rest x y hx hy ih =>
      rw [pairsToBytes, hx, hy] at h
      cases hmore : pairsToBytes rest with
      | error e =>
          rw [hmore] at h
          cases h
      | ok more =>
          rw [hmore] at h
          obtain rfl := Except.ok.inj h
          have hcount := ih hmore
          simp only [List.length_cons]
          omega
  | case2 hi lo rest hbad =>
      rw [pairsToBytes] at h
      split at h
      · rename_i x y hx hy
        exact absurd hy (hbad x y hx)
      · cases h
  | case3 c => cases h
  | case4 =>
      obtain rfl := Except.ok.inj h
      rfl

theorem packPart_length {s : String} {bs : Bytes} (h : packPart s = .ok bs) :
    bs.length = if s = "" then 0 else 6 := by
  unfold packPart at h
  by_cases hs : s = ""
  · rw [if_neg (not_not.mpr hs)] at h
    obtain rfl := Except.ok.inj h
    rw [if_pos hs]
    rfl
  · rw [if_pos hs, strToBcd] at h
    have hcount := pairsToBytes_length h
    rw [List.length_take, List.length_append, List.length_replicate] at hcount
    rw [if_neg hs]
    omega

theorem packAddress_length {cfg : ReadConfig} {bs : Bytes} (h : packAddress cfg.address = .ok bs) :
    bs.length = if cfg.ccoAddr = "" then 0 else 12 := by
  have hends : cfg.address.src = cfg.ccoAddr ∧ cfg.address.dst = cfg.ccoAddr ∧
      cfg.address.relay = [] := by
    unfold ReadConfig.address
    by_cases hcco : cfg.ccoAddr = ""
    · rw [if_pos hcco]
      exact ⟨hcco.symm, hcco.symm, rfl⟩
    · rw [if_neg hcco]
      exact ⟨rfl, rfl, rfl⟩
  rw [packAddress, hends.1, hends.2.1, hends.2.2] at h
  cases hpart : packPart cfg.ccoAddr with
  | error e =>
      rw [hpart] at h
      cases h
  | ok part =>
      rw [hpart] at h
      obtain rfl := Except.ok.inj h
      have hcount := packPart_length hpart
      rw [List.length_append, List.length_append, hcount]
      split_ifs <;> rfl

/-- The address flags of a request announce the address bytes it has. -/
theorem request_addrLen (cfg : ReadConfig) (seq : ℕ) (appdata : Bytes) {bs : Bytes}
    (h : packAddress cfg.address = .ok bs) :
    addrLen (builtHeader (requestArgs cfg seq appdata) bs).info = bs.length := by
  have hcount := packAddress_length h
  by_cases hcco : cfg.ccoAddr = ""
  · rw [if_pos hcco] at hcount
    obtain rfl := List.length_eq_zero_iff.mp hcount
    simp [builtHeader, requestArgs, markAddress, packInfo, parseInfo, addrLen, Info.moduleId]
  · rw [if_neg hcco] at hcount
    cases bs with
    | nil => cases hcount
    | cons b rest =>
      rw [hcount]
      simp [builtHeader, requestArgs, markAddress, packInfo, parseInfo, addrLen, Info.moduleId,
        Info.relayLevel]

theorem request_header {cfg : ReadConfig} {seq : ℕ} {appdata raw : Bytes}
    (h : buildFrame (requestArgs cfg seq appdata) = .ok raw) :
    ∃ header, decodeHeader raw = .ok (some header) ∧ header.appdata = appdata ∧
      header.afn = byte cfg.mode.afn ∧ header.fn = 1 ∧ header.ctl.direction = .down := by
  cases hpacked : packAddress cfg.address with
  | error e =>
      have hargs : packAddress (requestArgs cfg seq appdata).address = .error e := hpacked
      rw [buildFrame, hargs] at h
      cases h
  | ok bs =>
      have hstep := request_addrLen cfg seq appdata hpacked
      rw [buildFrame_of_packed (a := requestArgs cfg seq appdata) hpacked] at h
      obtain rfl := Except.ok.inj h
      obtain ⟨-, hafn, hdt1, hdt2, hdata⟩ := builtHeader_in_step hstep
      have hfn : (builtHeader (requestArgs cfg seq appdata) bs).fn = 1 := by
        change dtToFn (builtHeader (requestArgs cfg seq appdata) bs).dt1
          (builtHeader (requestArgs cfg seq appdata) bs).dt2 = 1
        rw [hdt1, hdt2]
        exact show dtToFn (fnToDt 1).1 (fnToDt 1).2 = 1 by decide
      have hmode : byte ((requestArgs cfg seq appdata).afn &&& 0xFF) = byte cfg.mode.afn := by
        change byte (cfg.mode.afn &&& 0xFF) = byte cfg.mode.afn
        cases cfg.mode <;> decide
      refine ⟨builtHeader (requestArgs cfg seq appdata) bs, ?_, hdata, hafn.trans hmode, hfn,
        parseControl_direction .down none 3⟩
      have hlong : ¬ 6 + addrLen (builtHeader (requestArgs cfg seq appdata) bs).info + 3 >
          (userData (requestArgs cfg seq appdata) bs).length := by
        rw [hstep, userData_length]
        omega
      rw [decodeHeader_built, if_neg hlong]

end Header

/-! ## What the statistics make of a request -/

section Requests
variable {cfg : ReadConfig} {seq : ℕ} {meter : String} {raw : Bytes} {store : MetadataStore}
  {pf : ProtocolFrame}

theorem request_unnamed (h : readRequest cfg seq meter = .ok raw)
    (hdecode : Adapter10376.decode store raw = .ok pf) :
    ∀ n ∈ pf.nested, fieldOf n.fields "地址域A" = none := by
  rw [readRequest] at h
  cases happ : meterRead645 meter with
  | error e =>
      rw [happ] at h
      cases h
  | ok app =>
      rw [happ] at h
      cases hprotocol : protocolByte cfg.protocolType with
      | error e =>
          rw [hprotocol] at h
          cases h
      | ok protocol =>
          rw [hprotocol] at h
          obtain ⟨addr, cs, hlength, hdigits, rfl⟩ := meterRead645_shape happ
          obtain ⟨header, hheader, hdata, -⟩ := request_header h
          obtain ⟨body, hbody⟩ := Adapter10376.body_of_decode hheader hdecode
          obtain rfl := Except.ok.inj (hdecode.symm.trans
            (Adapter10376.decode_of_body hheader hbody))
          have hne : requestData protocol
              (0x68 :: (addr ++ [0x68, 0x91, 4, 0x33, 0x33, 0x33, 0x33, cs, 0x16])) ≠ [] :=
            List.cons_ne_nil _ _
          rw [hdata, Adapter10376.decodeBody, if_neg hne] at hbody
          cases hitems : Adapter10376.appItems header.afn header.fn (requestData protocol
              (0x68 :: (addr ++ [0x68, 0x91, 4, 0x33, 0x33, 0x33, 0x33, cs, 0x16])))
              header.ctl.direction with
          | error e =>
              rw [hitems] at hbody
              cases hbody
          | ok items =>
              rw [hitems] at hbody
              simp only [bind, Except.bind] at hbody
              split_ifs at hbody
              · split at hbody
                · cases hbody
                · rename_i nested hnested
                  obtain rfl := Except.ok.inj hbody
                  exact scanNested_unnamed (requestData_without698 hlength hdigits) _ 0 hnested
              · obtain rfl := Except.ok.inj hbody
                exact fun n hn => absurd hn List.not_mem_nil

theorem meter_ne_unknown (h : readRequest cfg seq meter = .ok raw) : meter ≠ "?" := by
  rintro rfl
  have hrefused : ∀ e, meterRead645 "?" = .error e → False := by
    intro e he
    rw [readRequest, he] at h
    cases h
  exact hrefused _ rfl

/-- No meter is found in a request, and the attempt that it opens is for the unknown meter. -/
theorem request_opens_unknown (h : readRequest cfg seq meter = .ok raw)
    (hdecode : Adapter10376.decode store raw = .ok pf) :
    nestedAddrs pf = .ok [] ∧ meter ≠ "?" ∧
      ∀ epoch row ep, row.parsed = pf → row.direction = some .down → epoch row.ts = some ep →
        rowTouches epoch row = .ok [.sent "?" ep] := by
  have hnone := nestedAddrs_nil (request_unnamed h hdecode)
  refine ⟨hnone, meter_ne_unknown h, fun epoch row ep hparsed hdown hep => ?_⟩
  rw [rowTouches, hep, hdown]
  dsimp only
  rw [namedMeters, hparsed, hnone]
  rfl

end Requests

/-- The request for one meter, as a job without a profile sends it first. -/
def firstRequest : Bytes :=
  [0x68, 0x23, 0x00, 0x43, 0x00, 0x00, 0x00, 0x00, 0x00, 0x01, 0xF1, 0x01, 0x00, 0x02, 0x00,
    0x10, 0x00, 0x68, 0x66, 0x55, 0x44, 0x33, 0x22, 0x11, 0x68, 0x91, 0x04, 0x33, 0x33, 0x33,
    0x33, 0x96, 0x16, 0x8A, 0x16]

theorem firstRequest_sent :
    readRequest { mode := .batch } 1 "112233445566" = .ok firstRequest := by
  decide +kernel

theorem firstRequest_decoded :
    ∃ pf, Adapter10376.decode (fun _ _ => none) firstRequest = .ok pf := by
  have hok : (Adapter10376.decode (fun _ _ => none) firstRequest).isOk = true := by decide +kernel
  cases h : Adapter10376.decode (fun _ _ => none) firstRequest with
  | error e =>
      rw [h] at hok
      cases hok
  | ok pf => exact ⟨pf, rfl⟩

theorem firstRequest_opens_unknown : ∃ pf,
    Adapter10376.decode (fun _ _ => none) firstRequest = .ok pf ∧
      nestedAddrs pf = .ok [] ∧ "112233445566" ≠ "?" ∧
      ∀ epoch row ep, row.parsed = pf → row.direction = some .down → epoch row.ts = some ep →
        rowTouches epoch row = .ok [.sent "?" ep] := by
  obtain ⟨pf, hpf⟩ := firstRequest_decoded
  exact ⟨pf, hpf, request_opens_unknown firstRequest_sent hpf⟩

/-- The meter 112233445566 is not found in the request for it. -/
theorem firstRequest_meter_missed : ¬ ∀ cfg seq meter raw store pf,
    readRequest cfg seq meter = .ok raw → Adapter10376.decode store raw = .ok pf →
      nestedAddrs pf = .ok [meter] := by
  intro hall
  obtain ⟨pf, hpf⟩ := firstRequest_decoded
  have hfound := hall _ _ _ _ _ _ firstRequest_sent hpf
  rw [nestedAddrs_nil (request_unnamed firstRequest_sent hpf)] at hfound
  cases hfound

end HplcWorkbench.ConcurrentReadonly
