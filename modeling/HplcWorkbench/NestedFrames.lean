import HplcWorkbench.FrameForms645
import HplcWorkbench.RoundTrip698
import HplcWorkbench.NestedMeters
import HplcWorkbench.AppEncode

/-!
# Meter frames built into a 1376.2 frame

A reported frame was cut somewhere in the payload by the adapter that rated it best there. The
reported length tells how much of the payload it took, so a frame that fills the payload is reported
only by the cut that takes the whole payload.

`build_frame_json` makes the application data out of one 645 or 698.45 frame and wraps it.
`decode_frame_json` looks for meter frames in the application data of four AFNs.
-/

namespace HplcWorkbench.Adapter10376

/-! ## What the scan finds -/

section Scan
variable {store : MetadataStore} {payload : Bytes}

/-- A reported frame was decoded from a cut at some position. -/
theorem scanNestedFuel_mem (fuel k : ℕ) {frames : List ProtocolFrame}
    (h : scanNestedFuel store fuel (payload.drop k) = .ok frames) {pf : ProtocolFrame}
    (hpf : pf ∈ frames) : ∃ i adapter res, k ≤ i ∧ i < payload.length ∧
      bestNested (payload.drop i) = some (adapter, res) ∧ adapter.decode store res.raw = .ok pf := by
  induction fuel generalizing k frames with
  | zero =>
      obtain rfl := Except.ok.inj h
      exact absurd hpf List.not_mem_nil
  | succ fuel ih =>
      cases hdata : payload.drop k with
      | nil =>
          rw [hdata] at h
          obtain rfl := Except.ok.inj h
          exact absurd hpf List.not_mem_nil
      | cons b rest =>
          have hlt : k < payload.length := by
            have hlength := congrArg List.length hdata
            rw [List.length_drop, List.length_cons] at hlength
            omega
          have hnext : rest = payload.drop (k + 1) := by
            rw [← List.drop_drop, hdata]
            rfl
          rw [hdata, scanNestedFuel] at h
          cases hbest : bestNested (b :: rest) with
          | none =>
              rw [hbest, hnext] at h
              obtain ⟨i, adapter, res, hki, hrest⟩ := ih (k + 1) h hpf
              exact ⟨i, adapter, res, by omega, hrest⟩
          | some best =>
              obtain ⟨adapter, res⟩ := best
              rw [hbest] at h
              dsimp only at h
              rw [← hdata, List.drop_drop] at h
              obtain ⟨first, hfirst, h⟩ := bind_eq_ok h
              obtain ⟨more, hmore, h⟩ := bind_eq_ok h
              obtain rfl := Except.ok.inj h
              rcases List.mem_cons.mp hpf with rfl | hpf
              · exact ⟨k, adapter, res, le_rfl, hlt, hdata ▸ hbest, hfirst⟩
              · obtain ⟨i, adapter', res', hki, hrest⟩ := ih _ hmore hpf
                exact ⟨i, adapter', res', by omega, hrest⟩

theorem scanNested_mem {frames : List ProtocolFrame} (h : scanNested store payload = .ok frames)
    {pf : ProtocolFrame} (hpf : pf ∈ frames) : ∃ i adapter res, i < payload.length ∧
      bestNested (payload.drop i) = some (adapter, res) ∧ adapter.decode store res.raw = .ok pf := by
  obtain ⟨i, adapter, res, -, hi, hbest, hdecode⟩ :=
    @scanNestedFuel_mem store payload payload.length 0 _ h _ hpf
  exact ⟨i, adapter, res, hi, hbest, hdecode⟩

/-- A cut of the whole payload is the only one. -/
theorem scanNested_whole {adapter : NestedAdapter} (hne : payload ≠ [])
    (hbest : bestNested payload = some (adapter, ⟨payload, payload.length⟩)) :
    scanNested store payload = (adapter.decode store payload).map fun pf => [pf] := by
  obtain ⟨b, rest, rfl⟩ := List.exists_cons_of_ne_nil hne
  rw [scanNested, List.length_cons, scanNestedFuel, hbest]
  have hrest : scanNestedFuel store rest.length ((b :: rest).drop (b :: rest).length) = .ok [] := by
    rw [List.drop_length]
    cases rest.length <;> rfl
  dsimp only
  rw [hrest]
  cases adapter.decode store (b :: rest) <;> rfl

theorem bestNested_645 {r : ExtractResult} (hcut : Adapter645.tryExtract payload = some r) :
    bestNested payload = some (.a645, r) ↔ ∀ r', Adapter698.tryExtract payload = some r' →
      Adapter698.confidence r'.raw ≤ Adapter645.confidence r.raw := by
  rw [bestNested, hcut]
  cases h698 : Adapter698.tryExtract payload with
  | none => exact iff_of_true rfl fun r' hr' => by cases hr'
  | some r' =>
      by_cases hgt : Adapter698.confidence r'.raw > Adapter645.confidence r.raw
      · simp [hgt]
      · simp [hgt, not_lt.mp hgt]

theorem bestNested_698 {r : ExtractResult} (hcut : Adapter698.tryExtract payload = some r) :
    bestNested payload = some (.a698, r) ↔ ∀ r', Adapter645.tryExtract payload = some r' →
      Adapter645.confidence r'.raw < Adapter698.confidence r.raw := by
  rw [bestNested, hcut]
  cases h645 : Adapter645.tryExtract payload with
  | none => exact iff_of_true rfl fun r' hr' => by cases hr'
  | some r' =>
      by_cases hgt : Adapter698.confidence r.raw > Adapter645.confidence r'.raw
      · simp [hgt]
      · simp [hgt]

/-- A cut as long as the payload is the payload. -/
theorem cut_whole {i : ℕ} {adapter : NestedAdapter} {res : ExtractResult}
    (hi : i < payload.length) (hbest : bestNested (payload.drop i) = some (adapter, res))
    (hlong : payload.length ≤ res.raw.length) :
    bestNested payload = some (adapter, ⟨payload, payload.length⟩) ∧ res.raw = payload := by
  have hcut : res.CutOf (payload.drop i) := by
    rcases bestNested_cut hbest with ⟨-, h⟩ | ⟨-, h⟩
    · exact Adapter645.tryExtract_cutOf h
    · exact Adapter698.tryExtract_cutOf h
  have hle := hcut.le
  have hraw := hcut.raw_eq
  rw [List.length_drop] at hle
  rw [hraw, List.length_take, List.length_drop] at hlong
  obtain rfl : i = 0 := by omega
  rw [List.drop_zero] at hbest hraw
  have hcount : res.consumed = payload.length := by omega
  rw [hcount, List.take_length] at hraw
  obtain ⟨raw, consumed⟩ := res
  obtain rfl : raw = payload := hraw
  obtain rfl : consumed = raw.length := hcount
  exact ⟨hbest, rfl⟩

end Scan

/-! ## Descriptions -/

/-- `data` of a request with a nested frame. -/
inductive NestedArg
  | nested645 (nd : Params)
  | nested698 (nd : Params)

/-- A nested frame that was accepted. -/
inductive NestedFrame
  | meter (addr : Exactly 6) (control : Byte) (payload : UpTo Byte 255)
  | server (addr : Exactly 6) (ca : Byte) (apdu : Bytes)
  deriving DecidableEq

theorem strToBcd_length {s : String} {n : ℕ} {bs : Bytes} (h : strToBcd s n = .ok bs) :
    bs.length = n := by
  have hcount := ConcurrentReadonly.pairsToBytes_length h
  rw [List.length_take, List.length_append, List.length_replicate] at hcount
  omega

/-- `_str_to_bcd(str(v), 6)`. -/
def packedAddr (v : PyVal) : PyM (Exactly 6) :=
  match h : strToBcd v.toStr 6 with
  | .ok bs => pure ⟨bs, strToBcd_length h⟩
  | .error e => throw e

/-- A number in `bytes([n])`. -/
def intByte (n : ℤ) : PyM Byte :=
  if n < 0 then throw (.valueError "bytes must be in range(0, 256)") else byteOf n.toNat

/-- `bytes.fromhex(str(v).replace(" ", ""))`. -/
def hexArg (v : PyVal) : PyM Bytes :=
  match fromHex (dropSpaces v.toStr) with
  | some bs => pure bs
  | none => throw (.valueError "non-hexadecimal number found in fromhex() arg")

/-- `bytes([v])`. -/
def byteArg : PyVal → PyM Byte
  | .int n => intByte n
  | .bool b => pure (if b then 1 else 0)
  | _ => throw (.typeError "an integer is required")

namespace NestedArg

/-- What the description asks for, with the range checks of the two `build_frame`. -/
def read : NestedArg → PyM NestedFrame
  | nested645 nd => do
    let control ← hexInt (nd.getD "control" (.str "01")).toStr
    let payload ← hexArg (nd.getD "payload" (.str ""))
    let addr ← packedAddr (nd.getD "addr" (.str "000000000000"))
    let control ← intByte control
    pure (.meter addr control (← upTo payload 255 (.valueError "bytes must be in range(0, 256)")))
  | nested698 nd => do
    let addr ← packedAddr (nd.getD "addr" (.str "000000000000"))
    let apdu ← hexArg (nd.getD "apdu" (.str ""))
    pure (.server addr (← byteArg (nd.getD "ca" (.int 0))) apdu)

end NestedArg

namespace NestedFrame
open Facade (biasedData)

/-- The nested frame as its own `build_frame` makes it; the payload of a 645 frame gets `33H` unless
the control byte is `03` or `08`. -/
def build : NestedFrame → PyM Bytes
  | meter addr control payload => Adapter645.buildFrame addr control (biasedData control payload)
  | server addr ca apdu => pure (Adapter698.buildFrame apdu addr ca 0x43)

/-- The bytes of the nested frame. -/
def bytes : NestedFrame → Bytes
  | meter addr control payload => Adapter645.logicalFrame addr control (biasedData control payload)
  | server addr ca apdu => Adapter698.buildFrame apdu addr ca 0x43

theorem build_eq (f : NestedFrame) : f.build = .ok f.bytes := by
  cases f with
  | meter addr control payload =>
      have hlength := payload.property
      rw [build, Adapter645.buildFrame_eq (by rw [Facade.biasedData_length]; omega)]
      rfl
  | server addr ca apdu => rfl

end NestedFrame

/-- `build_frame_json`, with the rest of the request in `a`. -/
def buildFrameJson (a : FrameArgs) (arg : NestedArg) : PyM Bytes := do
  let f ← arg.read
  let appdata ← f.build
  buildFrame { a with appdata := appdata }

/-- The address flags of the outer frame announce the address bytes that are there. -/
def InStep (a : FrameArgs) : Prop :=
  ∃ addrBytes, packAddress a.address = .ok addrBytes ∧
    addrLen (builtHeader a addrBytes).info = addrBytes.length

/-! ## Reports -/

namespace NestedFrame

/-- `pf` reports the nested frame: its address, its control and data or its APDU, its length and
correct checks. -/
def ReportedBy (store : MetadataStore) (pf : ProtocolFrame) : NestedFrame → Prop
  | meter addr control payload =>
    Facade.Reports store (upper (hex addr)) control payload pf ∧
      ∃ field ∈ pf.fields, field.name = "长度域" ∧ field.raw = .int payload.val.length
  | server addr ca apdu => pf.structure_ = "698.45" ∧
    ∃ out, Adapter698.parseApdu store apdu = .ok out ∧ pf.items = out.items ∧
      pf.fields = Adapter698.linkDataFields (Adapter698.builtLink apdu addr ca 0x43) ++
        [⟨"APDU类型", .str (Adapter698.apduName (byteAt apdu 0)), none, hex02 (byteAt apdu 0),
          .int (byteAt apdu 0 : ℕ), ""⟩] ++ out.fields

/-- The adapter of the nested frame finds it at the start of its bytes and prefers it there, and its
decoder reads it as it was written. -/
def Survives (store : MetadataStore) : NestedFrame → Prop
  | f@(meter _ control payload) => payload.val.length ≤ 200 ∧
    (0x1B ∉ f.bytes ∨ ¬ Adapter645.BeginsEscaped f.bytes) ∧
    (∀ r, Adapter698.tryExtract f.bytes = some r →
      Adapter698.confidence r.raw ≤ Adapter645.confidence f.bytes) ∧
    Facade.BiasAgreed control payload ∧ Facade.FitsFloat store control payload
  | f@(server addr _ apdu) => (byteAt addr.val 0 : ℕ) &&& 0x0F = 4 ∧
    2 ≤ apdu.length ∧ apdu.length ≤ 1986 ∧
    (∀ r, Adapter645.tryExtract f.bytes = some r →
      Adapter645.confidence r.raw < Adapter698.confidence f.bytes) ∧
    Adapter698.Readable (Adapter698.opened apdu)

end NestedFrame

end HplcWorkbench.Adapter10376

/-! ## A frame that fills the payload -/

namespace HplcWorkbench

namespace Adapter645

section Plain
variable {addr dom raw : Bytes} {control : Byte} (haddr : addr.length = 6)
include haddr

theorem decode_of_logical (store : MetadataStore) (hdom : dom.length < 256)
    (hlogical : logicalBytes raw = logicalFrame addr control dom) :
    decode store raw = (dataItems store ((control : ℕ) &&& 0x0F) dom.length
      (readData control dom)).map fun body =>
        { readFrame addr control dom body with rawHex := hex raw } := by
  obtain ⟨-, -, -, hc, hL⟩ := logicalFrame_bytes haddr control dom
  have hLval : ((byte dom.length : Byte) : ℕ) = dom.length := by
    rw [byte_val]
    omega
  simp only [decode, hlogical, index_of_getElem? hc, index_of_getElem? hL, bind, Except.bind, hLval,
    slice_address haddr, slice_data haddr, checksumField_logicalFrame haddr]
  change Except.bind (dataItems store ((control : ℕ) &&& 0x0F) dom.length (readData control dom)) _ = _
  cases dataItems store ((control : ℕ) &&& 0x0F) dom.length (readData control dom) with
  | error e => rfl
  | ok body =>
    simp only [Except.bind, Except.map, readFrame, hLval]
    rfl

end Plain

theorem byteAt_of_index {data : Bytes} {i : ℕ} {b : Byte} (h : index data i = .ok b) :
    byteAt data i = b := by
  unfold index at h
  split at h
  · rename_i c hc
    rw [byteAt_of_getElem? hc]
    exact Except.ok.inj h
  · cases h

/-- The length field of a decoded frame. -/
theorem length_of_decode {store : MetadataStore} {raw : Bytes} {pf : ProtocolFrame}
    (h : decode store raw = .ok pf) {field : DataField} (hfield : field ∈ pf.fields)
    (hname : field.name = "长度域") : field.raw = .int (byteAt (logicalBytes raw) 9 : ℕ) := by
  unfold decode at h
  obtain ⟨c, -, h⟩ := bind_eq_ok h
  obtain ⟨L, hL, h⟩ := bind_eq_ok h
  obtain ⟨body, -, h⟩ := bind_eq_ok h
  obtain rfl := Except.ok.inj h
  rw [byteAt_of_index hL]
  have hsum : ∀ f ∈ (checksumField (logicalBytes raw) L).1, f.name = "校验和CS" := by
    intro f hf
    unfold checksumField at hf
    split at hf
    · cases hf
    · rw [List.mem_singleton.mp hf]
  rcases List.mem_append.mp hfield with hfield | hfield
  · simp only [List.mem_cons, List.not_mem_nil, or_false] at hfield
    rcases hfield with rfl | rfl | rfl
    · exact absurd hname (by simp)
    · exact absurd hname (by simp [controlField])
    · rfl
  · rw [hsum field hfield] at hname
    exact absurd hname (by simp)

theorem structure_of_decode {store : MetadataStore} {raw : Bytes} {pf : ProtocolFrame}
    (h : decode store raw = .ok pf) : pf.structure_ = "645" := by
  unfold decode at h
  obtain ⟨c, -, h⟩ := bind_eq_ok h
  obtain ⟨L, -, h⟩ := bind_eq_ok h
  obtain ⟨body, -, h⟩ := bind_eq_ok h
  obtain rfl := Except.ok.inj h
  rfl

end Adapter645

namespace Adapter698

theorem structure_of_decode {store : MetadataStore} {raw : Bytes} {pf : ProtocolFrame}
    (h : decode store raw = .ok pf) : pf.structure_ = "698.45" := by
  unfold decode at h
  obtain ⟨l, -, h⟩ := bind_eq_ok h
  dsimp only at h
  split at h
  · obtain rfl := Except.ok.inj h
    rfl
  · obtain ⟨out, -, h⟩ := bind_eq_ok h
    obtain rfl := Except.ok.inj h
    rfl

end Adapter698

namespace Adapter10376
open Facade (biasedData funcOf)

/-- The scan of the bytes of `f` reports `f`. -/
def Found (store : MetadataStore) (f : NestedFrame) : Prop :=
  ∃ frames, scanNested store f.bytes = .ok frames ∧ ∃ pf ∈ frames, f.ReportedBy store pf

section Meter
variable {store : MetadataStore} {addr : Exactly 6} {control : Byte} {payload : UpTo Byte 255}

theorem meter_length : (NestedFrame.meter addr control payload).bytes.length =
    12 + payload.val.length := by
  rw [NestedFrame.bytes, Adapter645.logicalFrame_length addr.property, Facade.biasedData_length]

theorem meter_survives_of_found (h : Found store (.meter addr control payload)) :
    (NestedFrame.meter addr control payload).Survives store := by
  obtain ⟨frames, hscan, pf, hpf, hreports, field, hfield, hname, hraw⟩ := h
  obtain ⟨i, adapter, res, hi, hbest, hdecode⟩ := scanNested_mem hscan hpf
  have hmeter : adapter = .a645 ∧ Adapter645.tryExtract
      ((NestedFrame.meter addr control payload).bytes.drop i) = some res := by
    rcases bestNested_cut hbest with hcut | ⟨rfl, -⟩
    · exact hcut
    · have hother := Adapter698.structure_of_decode hdecode
      rw [hreports.framed] at hother
      exact absurd hother (by simp)
  obtain ⟨rfl, hcut⟩ := hmeter
  -- the reported length leaves room for no other cut than the whole
  have hcount : (byteAt (Adapter645.logicalBytes res.raw) 9 : ℕ) = payload.val.length := by
    have hfound := Adapter645.length_of_decode hdecode hfield hname
    rw [hraw] at hfound
    exact_mod_cast (PyVal.int.inj hfound).symm
  have hlogical := Adapter645.logicalBytes_length hcut
  have hle := Adapter645.logicalBytes_length_le res.raw
  have hlong : (NestedFrame.meter addr control payload).bytes.length ≤ res.raw.length := by
    rw [meter_length]
    omega
  have hshort := Adapter645.declared_le hcut
  obtain ⟨hwhole, hsame⟩ := cut_whole hi hbest hlong
  rw [hsame] at hlogical hle hcount hshort hdecode
  have hcutWhole : Adapter645.tryExtract (NestedFrame.meter addr control payload).bytes =
      some ⟨(NestedFrame.meter addr control payload).bytes,
        (NestedFrame.meter addr control payload).bytes.length⟩ := by
    rcases bestNested_cut hwhole with ⟨-, hcut⟩ | ⟨hother, -⟩
    · exact hcut
    · cases hother
  have hself := @Adapter645.logicalBytes_eq_self (NestedFrame.meter addr control payload).bytes
    (by rw [hlogical, hcount, meter_length])
  have hdom : (biasedData control payload).length = payload.val.length :=
    Facade.biasedData_length payload.val
  have hrecovered := (@Adapter645.plain_recovered_iff _ _ control addr.property
    (show (biasedData control payload).length ≤ 200 by omega) []).mp
    ⟨by rw [List.append_nil]; exact hcutWhole, hself⟩
  rw [List.append_nil] at hrecovered
  rw [NestedAdapter.decode, Adapter645.decode_of_logical addr.property store (by omega) hself,
    hdom] at hdecode
  have hdata : Facade.BiasAgreed control payload ∧ Facade.FitsFloat store control payload := by
    rw [← Facade.data_shown_iff]
    obtain ⟨item, hitems, hshows⟩ := hreports.sameData
    cases hbody : Adapter645.dataItems store (funcOf control) payload.val.length
        (Adapter645.readData control (biasedData control payload)) with
    | error e =>
        rw [show (control : ℕ) &&& 0x0F = funcOf control from rfl, hbody] at hdecode
        cases hdecode
    | ok body =>
        rw [show (control : ℕ) &&& 0x0F = funcOf control from rfl, hbody] at hdecode
        obtain rfl := Except.ok.inj hdecode
        obtain ⟨items, warnings⟩ := body
        obtain rfl : items = [item] := hitems
        exact ⟨item, warnings, rfl, hshows⟩
  exact ⟨by omega, hrecovered, (bestNested_645 hcutWhole).mp hwhole, hdata⟩

theorem meter_found_of_survives (h : (NestedFrame.meter addr control payload).Survives store) :
    Found store (.meter addr control payload) := by
  obtain ⟨hshort, hmarks, hbest, hdata⟩ := h
  have hdom : (biasedData control payload).length = payload.val.length :=
    Facade.biasedData_length payload.val
  obtain ⟨hcut, hself⟩ := (@Adapter645.plain_recovered_iff _ _ control addr.property
    (show (biasedData control payload).length ≤ 200 by omega) []).mpr
    (by rw [List.append_nil]; exact hmarks)
  rw [List.append_nil] at hcut
  have hwhole := (bestNested_645 hcut).mpr hbest
  obtain ⟨item, warnings, hitems, hshows⟩ := (Facade.data_shown_iff store control payload).mpr hdata
  have hdecode := @Adapter645.decode_of_logical _ _ (NestedFrame.meter addr control payload).bytes _
    addr.property store (by omega) hself
  rw [hdom, show (control : ℕ) &&& 0x0F = funcOf control from rfl, hitems] at hdecode
  have hscan := @scanNested_whole store _ _ (List.cons_ne_nil _ _) hwhole
  rw [NestedAdapter.decode] at hscan
  refine ⟨_, hscan.trans (congrArg _ hdecode), _, List.mem_singleton_self _, ?_, ?_⟩
  · have hread := @Facade.reports_readFrame _ _ _ addr.val (biasedData control payload) _ _ warnings rfl
      hshows
    exact ⟨hread.framed, hread.sameAddress, hread.sameControl, hread.checked, hread.sameData⟩
  · refine ⟨_, List.mem_cons_of_mem _ (List.mem_cons_of_mem _ List.mem_cons_self), rfl, ?_⟩
    have hvalue : ((byte (biasedData control payload).length : Byte) : ℕ) = payload.val.length := by
      rw [byte_val, hdom]
      omega
    exact congrArg (fun n : ℕ => PyVal.int n) hvalue

end Meter

section Server
variable {store : MetadataStore} {addr : Exactly 6} {ca : Byte} {apdu : Bytes}

theorem server_length : (NestedFrame.server addr ca apdu).bytes.length = apdu.length + 16 := by
  rw [NestedFrame.bytes, Adapter698.buildFrame_length, addr.property]
  omega

theorem linkDataFields_length (l : Adapter698.LinkFields) :
    (Adapter698.linkDataFields l).length = 6 := rfl

theorem linkDataFields_inj {l l' : Adapter698.LinkFields}
    (h : Adapter698.linkDataFields l = Adapter698.linkDataFields l') : l.L = l'.L ∧ l.sa = l'.sa := by
  have hL := congrArg (fun fields => (fields[0]?).map DataField.raw) h
  have hsa := congrArg (fun fields => (fields[2]?).map DataField.hex) h
  have hcount : PyVal.int l.L = PyVal.int l'.L := Option.some.inj hL
  have hserver : hex l.sa = hex l'.sa := Option.some.inj hsa
  exact ⟨Int.natCast_inj.mp (PyVal.int.inj hcount), hex_injective hserver⟩

theorem decodeLink_fields {raw : Bytes} {l : Adapter698.LinkFields}
    (h : Adapter698.decodeLink raw = .ok l) : l.L = le16 (byteAt raw 1) (byteAt raw 2) ∧
      l.sa = slice raw 4 (4 + Adapter698.saLen (byteAt raw 4)) := by
  unfold Adapter698.decodeLink at h
  obtain ⟨lo, hlo, h⟩ := bind_eq_ok h
  obtain ⟨hi, hhi, h⟩ := bind_eq_ok h
  obtain ⟨c, -, h⟩ := bind_eq_ok h
  obtain ⟨head, hhead, h⟩ := bind_eq_ok h
  obtain ⟨ca, -, h⟩ := bind_eq_ok h
  obtain rfl := Except.ok.inj h
  rw [Adapter645.byteAt_of_index hlo, Adapter645.byteAt_of_index hhi,
    Adapter645.byteAt_of_index hhead]
  exact ⟨rfl, rfl⟩

theorem fields_of_decode {raw : Bytes} {pf : ProtocolFrame}
    (h : Adapter698.decode store raw = .ok pf) : ∃ l rest, Adapter698.decodeLink raw = .ok l ∧
      pf.fields = Adapter698.linkDataFields l ++ rest := by
  unfold Adapter698.decode at h
  obtain ⟨l, hlink, h⟩ := bind_eq_ok h
  dsimp only at h
  split at h
  · obtain rfl := Except.ok.inj h
    exact ⟨l, [], hlink, (List.append_nil _).symm⟩
  · obtain ⟨out, -, h⟩ := bind_eq_ok h
    obtain rfl := Except.ok.inj h
    exact ⟨l, _, hlink, List.append_assoc _ _ _⟩

/-- The link fields of a reported frame, and the length of what was cut. -/
theorem reported_link {buf : Bytes} {res : ExtractResult} {pf : ProtocolFrame}
    (hcut : Adapter698.tryExtract buf = some res) (hdecode : Adapter698.decode store res.raw = .ok pf)
    {l : Adapter698.LinkFields} {more : List DataField}
    (hfields : pf.fields = Adapter698.linkDataFields l ++ more) :
    res.raw.length = l.L + 2 ∧ slice res.raw 4 (4 + Adapter698.saLen (byteAt res.raw 4)) = l.sa := by
  obtain ⟨L, ⟨hL, -, -, hlow, -, hlong, -⟩, rfl⟩ := Adapter698.tryExtract_eq_some_iff.mp hcut
  have hraw : (buf.take (L + 2)).length = L + 2 := by
    rw [List.length_take]
    omega
  have hlo : byteAt (buf.take (L + 2)) 1 = byteAt buf 1 := byteAt_take (by omega)
  have hhi : byteAt (buf.take (L + 2)) 2 = byteAt buf 2 := byteAt_take (by omega)
  obtain ⟨found, rest, hlink, hrest⟩ := fields_of_decode hdecode
  obtain ⟨hfoundL, hfoundSa⟩ := decodeLink_fields hlink
  obtain ⟨hsame, -⟩ := List.append_inj (hrest.symm.trans hfields)
    ((linkDataFields_length found).trans (linkDataFields_length l).symm)
  obtain ⟨hcount, hsa⟩ := linkDataFields_inj hsame
  have hlink : l.L = L := by rw [← hcount, hfoundL, hlo, hhi, ← hL]
  exact ⟨by rw [hlink]; exact hraw, hfoundSa.symm.trans hsa⟩

theorem server_survives_of_found (h : Found store (.server addr ca apdu)) :
    (NestedFrame.server addr ca apdu).Survives store := by
  obtain ⟨frames, hscan, pf, hpf, hstructure, out, hparse, -, hfields⟩ := h
  obtain ⟨i, adapter, res, hi, hbest, hdecode⟩ := scanNested_mem hscan hpf
  have hserver : adapter = .a698 ∧ Adapter698.tryExtract
      ((NestedFrame.server addr ca apdu).bytes.drop i) = some res := by
    rcases bestNested_cut hbest with ⟨rfl, -⟩ | hcut
    · have hother := Adapter645.structure_of_decode hdecode
      rw [hstructure] at hother
      exact absurd hother (by simp)
    · exact hcut
  obtain ⟨rfl, hcut⟩ := hserver
  rw [List.append_assoc] at hfields
  obtain ⟨hlength, hsa⟩ := reported_link hcut hdecode hfields
  have hcount : (Adapter698.builtLink apdu addr ca 0x43).L = apdu.length + 14 := by
    change addr.val.length + apdu.length + 8 = _
    rw [addr.property]
    omega
  obtain ⟨hwhole, hsame⟩ := cut_whole hi hbest (by rw [server_length, hlength, hcount])
  have hcutWhole : Adapter698.tryExtract (NestedFrame.server addr ca apdu).bytes =
      some ⟨(NestedFrame.server addr ca apdu).bytes,
        (NestedFrame.server addr ca apdu).bytes.length⟩ := by
    rcases bestNested_cut hwhole with ⟨hother, -⟩ | ⟨-, hcut⟩
    · cases hother
    · exact hcut
  rw [hsame] at hsa
  have hhead : byteAt (NestedFrame.server addr ca apdu).bytes 4 = byteAt addr.val 0 :=
    Adapter698.byteAt_saHead (List.ne_nil_of_length_eq_add_one addr.property)
  obtain ⟨L, ⟨-, -, -, -, hupper, hroomL, -, hroom⟩, hcutEq⟩ :=
    Adapter698.tryExtract_eq_some_iff.mp hcutWhole
  have hL : L + 2 = apdu.length + 16 := by
    rw [← @server_length addr ca]
    exact (congrArg ExtractResult.consumed hcutEq).symm
  rw [hhead] at hsa hroom
  have hsaLen : Adapter698.saLen (byteAt addr.val 0) = 6 := by
    have hsize := congrArg List.length hsa
    change _ = addr.val.length at hsize
    rw [slice_length, addr.property, server_length] at hsize
    omega
  rw [hsaLen] at hroom
  refine ⟨?_, by omega, by omega, (bestNested_698 hcutWhole).mp hwhole, ?_⟩
  · unfold Adapter698.saLen at hsaLen
    omega
  · have hne : apdu ≠ [] := by
      rintro rfl
      rw [List.length_nil] at hL
      omega
    exact ((Adapter698.parseApdu_returns store apdu hne).2 out hparse).1

theorem server_found_of_survives (h : (NestedFrame.server addr ca apdu).Survives store) :
    Found store (.server addr ca apdu) := by
  obtain ⟨hhead, hlow, hhigh, hbest, hreadable⟩ := h
  have hlength := @server_length addr ca apdu
  have hsaLen : Adapter698.saLen (byteAt addr.val 0) = 6 := by
    unfold Adapter698.saLen
    omega
  have hbounds : Adapter698.FrameInBounds apdu addr ca 0x43 := by
    rw [NestedFrame.bytes] at hlength
    refine ⟨by decide, addr.property.trans hsaLen.symm, ?_, ?_, ?_⟩
    · omega
    · omega
    · rw [hsaLen]
      omega
  have hne : apdu ≠ [] := List.length_pos_iff.mp (by omega)
  have hcut := Adapter698.tryExtract_built hbounds []
  rw [List.append_nil] at hcut
  have hwhole := (bestNested_698 hcut).mpr hbest
  obtain ⟨out, hparse⟩ := (Adapter698.parseApdu_returns store apdu hne).1 hreadable
  have hdecode := Adapter698.decode_built store hbounds hparse
  have hscan := @scanNested_whole store _ _ (List.cons_ne_nil _ _) hwhole
  rw [NestedAdapter.decode] at hscan
  exact ⟨_, hscan.trans (congrArg _ hdecode), _, List.mem_singleton_self _, rfl, out, hparse, rfl, rfl⟩

end Server

theorem found_iff (store : MetadataStore) (f : NestedFrame) : Found store f ↔ f.Survives store := by
  cases f with
  | meter addr control payload => exact ⟨meter_survives_of_found, meter_found_of_survives⟩
  | server addr ca apdu => exact ⟨server_survives_of_found, server_found_of_survives⟩

/-! ## The outer frame -/

/-- The function number that the decoder reads from the outer frame. -/
def FrameArgs.sentFn (a : FrameArgs) : ℕ := dtToFn (fnToDt a.fn).1 (fnToDt a.fn).2

/-- `decode_frame_json` of the outer frame reports the nested frame. -/
def ReportedIn (store : MetadataStore) (f : NestedFrame) (frame : Bytes) : Prop :=
  ∃ outer, decode store frame = .ok outer ∧ ∃ pf ∈ outer.nested, f.ReportedBy store pf

/-- Where the outer frame lets the scan run over the nested frame. -/
def Scanned (a : FrameArgs) (f : NestedFrame) : Prop :=
  carriesFrames (byte (a.afn &&& 0xFF)) = true ∧
    ¬ CutTime (byte (a.afn &&& 0xFF)) a.sentFn f.bytes

theorem NestedFrame.bytes_ne_nil (f : NestedFrame) : f.bytes ≠ [] := by
  cases f with
  | meter addr control payload => exact List.cons_ne_nil _ _
  | server addr ca apdu => exact List.cons_ne_nil _ _

/-- The outer frame with its nested frame as application data, decoded. -/
theorem header_of_built {a : FrameArgs} {arg : NestedArg} {f : NestedFrame} {frame : Bytes}
    (hf : arg.read = .ok f) (hbuilt : buildFrameJson a arg = .ok frame) (hstep : InStep a) :
    ∃ h, decodeHeader frame = .ok (some h) ∧ h.afn = byte (a.afn &&& 0xFF) ∧ h.fn = a.sentFn ∧
      h.appdata = f.bytes := by
  obtain ⟨addrBytes, hpacked, hlen⟩ := hstep
  unfold buildFrameJson at hbuilt
  rw [hf] at hbuilt
  change (f.build >>= fun appdata => buildFrame { a with appdata := appdata }) = _ at hbuilt
  rw [f.build_eq] at hbuilt
  change buildFrame { a with appdata := f.bytes } = _ at hbuilt
  rw [buildFrame_of_packed (a := { a with appdata := f.bytes }) hpacked] at hbuilt
  obtain rfl := Except.ok.inj hbuilt
  have hstep : addrLen (builtHeader { a with appdata := f.bytes } addrBytes).info =
      addrBytes.length := hlen
  obtain ⟨-, hafn, hdt1, hdt2, hdata⟩ := builtHeader_in_step hstep
  refine ⟨builtHeader { a with appdata := f.bytes } addrBytes, ?_, hafn, ?_, hdata⟩
  · have hlong : ¬ 6 + addrLen (builtHeader { a with appdata := f.bytes } addrBytes).info + 3 >
        (userData { a with appdata := f.bytes } addrBytes).length := by
      rw [hstep, userData_length]
      omega
    rw [decodeHeader_built, if_neg hlong]
  · change dtToFn (builtHeader { a with appdata := f.bytes } addrBytes).dt1
      (builtHeader { a with appdata := f.bytes } addrBytes).dt2 = _
    rw [hdt1, hdt2]
    rfl

section Outer
variable {store : MetadataStore} {a : FrameArgs} {arg : NestedArg} {f : NestedFrame} {frame : Bytes}
  (hf : arg.read = .ok f) (hbuilt : buildFrameJson a arg = .ok frame) (hstep : InStep a)
include hf hbuilt hstep

theorem found_of_reported (hreported : ReportedIn store f frame) : Scanned a f ∧ Found store f := by
  obtain ⟨h, hheader, hafn, hfn, hdata⟩ := header_of_built hf hbuilt hstep
  obtain ⟨outer, hdecode, pf, hpf, hreport⟩ := hreported
  obtain ⟨body, hbody⟩ := body_of_decode hheader hdecode
  obtain rfl := Except.ok.inj (hdecode.symm.trans (decode_of_body hheader hbody))
  rw [hafn, hfn, hdata, decodeBody, if_neg f.bytes_ne_nil] at hbody
  obtain ⟨items, happ, hbody⟩ := bind_eq_ok hbody
  by_cases hcarries : carriesFrames (byte (a.afn &&& 0xFF)) = true
  · rw [if_pos hcarries] at hbody
    obtain ⟨frames, hscan, hbody⟩ := bind_eq_ok hbody
    obtain rfl := Except.ok.inj hbody
    have hitems := (appItems_returns a.sentFn f.bytes (byte (a.afn &&& 0xFF)) h.ctl.direction).2
    exact ⟨⟨hcarries, ((hitems items happ).1).1⟩, frames, hscan, pf, hpf, hreport⟩
  · rw [if_neg hcarries] at hbody
    obtain rfl := Except.ok.inj hbody
    exact absurd hpf List.not_mem_nil

theorem reported_of_found (hscanned : Scanned a f) (hfound : Found store f) :
    ReportedIn store f frame := by
  obtain ⟨h, hheader, hafn, hfn, hdata⟩ := header_of_built hf hbuilt hstep
  obtain ⟨hcarries, htime⟩ := hscanned
  obtain ⟨frames, hscan, pf, hpf, hreport⟩ := hfound
  have hpage : ¬ CutPage (byte (a.afn &&& 0xFF)) a.sentFn f.bytes h.ctl.direction := by
    rintro ⟨h10, -⟩
    rw [h10] at hcarries
    exact absurd hcarries (by decide)
  obtain ⟨items, happ⟩ := (appItems_returns a.sentFn f.bytes (byte (a.afn &&& 0xFF))
    h.ctl.direction).1 ⟨htime, hpage⟩
  have hbody : decodeBody store h.afn h.fn h.appdata h.ctl.direction =
      .ok (items ++ frames.mapIdx (nestedItem "1376.2应用数据内"), frames) := by
    rw [hafn, hfn, hdata, decodeBody, if_neg f.bytes_ne_nil, happ]
    simp only [bind, Except.bind, hcarries, if_true, hscan]
    rfl
  exact ⟨_, decode_of_body hheader hbody, pf, hpf, hreport⟩

end Outer

theorem buildFrameJson_ok {a : FrameArgs} {arg : NestedArg} {f : NestedFrame}
    (hf : arg.read = .ok f) (hstep : InStep a) : ∃ frame, buildFrameJson a arg = .ok frame := by
  obtain ⟨addrBytes, hpacked, -⟩ := hstep
  unfold buildFrameJson
  rw [hf]
  change ∃ frame, (f.build >>= fun appdata => buildFrame { a with appdata := appdata }) = .ok frame
  rw [f.build_eq]
  exact ⟨_, buildFrame_of_packed (a := { a with appdata := f.bytes }) hpacked⟩

/-- A request to read data of the meter 112233445566. -/
def meterArg : NestedArg :=
  .nested645 [("addr", .str "112233445566"), ("control", .str "11"), ("payload", .str "00000000")]

def meterFrame : NestedFrame :=
  .meter ⟨[0x11, 0x22, 0x33, 0x44, 0x55, 0x66], rfl⟩ 0x11 ⟨[0, 0, 0, 0], by decide⟩

/-- A link request, without an address. -/
def serverArg : NestedArg := .nested698 [("apdu", .str "010000")]

def serverFrame : NestedFrame := .server ⟨[0, 0, 0, 0, 0, 0], rfl⟩ 0 [1, 0, 0]

def reportArgs : FrameArgs := { afn := 0x13 }

theorem reportArgs_inStep : InStep reportArgs := ⟨[], rfl, rfl⟩

theorem meterArg_read : meterArg.read = .ok meterFrame := by decide +kernel

theorem serverArg_read : serverArg.read = .ok serverFrame := by decide +kernel

theorem meterFrame_bytes : meterFrame.bytes = [0x68, 0x11, 0x22, 0x33, 0x44, 0x55, 0x66, 0x68,
    0x11, 0x04, 0x33, 0x33, 0x33, 0x33, 0x16, 0x16] := by
  decide +kernel

theorem meterFrame_survives : meterFrame.Survives fun _ _ => none := by
  have hnone : Adapter698.tryExtract meterFrame.bytes = none := by
    rw [meterFrame_bytes]
    rfl
  refine ⟨by decide, .inl ?_, fun r hr => ?_, fun h => absurd h (by decide),
    .inr fun _ h => nomatch h⟩
  · change 0x1B ∉ meterFrame.bytes
    rw [meterFrame_bytes]
    decide
  · cases hnone.symm.trans hr

end Adapter10376

end HplcWorkbench
