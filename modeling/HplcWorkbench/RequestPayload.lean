import HplcWorkbench.AppEncode
import HplcWorkbench.FrameForms645
import HplcWorkbench.NestedMeters

/-!
# The data unit of a batch request

The sender writes the data unit of a request by hand, protocol, a zero byte and a length of two
bytes. That is how the codec writes F1H-F1. A data unit of 02H-F1 has neither the zero byte nor a
second length byte.
-/

namespace HplcWorkbench

/-! ## Embedded frames of a short data unit -/

namespace Adapter645

theorem decValue_lt (digits : List Char) (h : ∀ c ∈ digits, c.toNat - 48 ≤ 9) :
    decValue digits < 10 ^ digits.length := by
  suffices ∀ n, digits.foldl (fun n c => n * 10 + (c.toNat - 48)) n < (n + 1) * 10 ^ digits.length by
    have := this 0
    rwa [Nat.zero_add, Nat.one_mul] at this
  induction digits with
  | nil => exact fun n => by simp
  | cons c cs ih =>
      intro n
      obtain ⟨hc, hcs⟩ := List.forall_mem_cons.mp h
      refine lt_of_lt_of_le (ih hcs _) ?_
      rw [List.length_cons, pow_succ', ← Nat.mul_assoc]
      exact Nat.mul_le_mul_right _ (show n * 10 + (c.toNat - 48) + 1 ≤ (n + 1) * 10 by omega)

theorem nibbleDigits {n : ℕ} (h : n < 16) :
    (Nat.toDigits 10 n).length ≤ 2 ∧ ∀ c ∈ Nat.toDigits 10 n, c.toNat - 48 ≤ 9 := by
  constructor
  · exact (Nat.length_toDigits_le_iff (by decide) (by decide)).mpr (by omega)
  · intro c hc
    have hdigit := Nat.isDigit_of_mem_toDigits (by decide) (by decide) hc
    have hbound : c.toNat ≤ 57 := (Char.isDigit_iff_toNat.mp hdigit).2
    omega

theorem bcdChars_digits (data : Bytes) :
    (bcdChars data).length ≤ 4 * data.length ∧ ∀ c ∈ bcdChars data, c.toNat - 48 ≤ 9 := by
  induction data with
  | nil => exact ⟨le_rfl, fun _ hc => absurd hc List.not_mem_nil⟩
  | cons b data ih =>
      have hhigh := nibbleDigits (n := ((b : ℕ) >>> 4) &&& 0xF)
        (lt_of_le_of_lt Nat.and_le_right (by decide))
      have hlow := nibbleDigits (n := (b : ℕ) &&& 0xF)
        (lt_of_le_of_lt Nat.and_le_right (by decide))
      have hsplit : bcdChars (b :: data) = (Nat.toDigits 10 (((b : ℕ) >>> 4) &&& 0xF) ++
          Nat.toDigits 10 ((b : ℕ) &&& 0xF)) ++ bcdChars data := rfl
      rw [hsplit]
      constructor
      · simp only [List.length_append, List.length_cons]
        have := hhigh.1
        have := hlow.1
        have := ih.1
        omega
      · intro c hc
        rcases List.mem_append.mp hc with hc | hc
        · rcases List.mem_append.mp hc with hc | hc
          · exact hhigh.2 c hc
          · exact hlow.2 c hc
        · exact ih.2 c hc

/-- A short frame has no number that is too large for a float. -/
theorem decodable_of_short (store : MetadataStore) {raw : Bytes} (h : raw.length ≤ 64) :
    Decodable store raw := by
  unfold Decodable
  dsimp only
  generalize hdom : slice (logicalBytes raw) 10 ((logicalBytes raw).length - 2) = dom
  have hsize : dom.length ≤ 64 := by
    have := logicalBytes_length_le raw
    rw [← hdom, slice_length]
    omega
  refine Or.inr fun entry _ _ _ => ?_
  generalize hrest : (readData (byteAt (logicalBytes raw) 8) dom).drop 4 = rest
  have hlength : rest.length ≤ 64 := by
    rw [← hrest, List.length_drop, readData]
    split_ifs
    · rw [unmask, List.length_map]
      omega
    · omega
  obtain ⟨hcount, hdigits⟩ := bcdChars_digits rest.reverse
  rw [List.length_reverse] at hcount
  have hpow : 10 ^ (bcdChars rest.reverse).length ≤ 10 ^ 256 :=
    Nat.pow_le_pow_right (by decide) (by omega)
  have hfloat : 10 ^ 256 ≤ 2 ^ 1024 - 2 ^ 970 := by decide +kernel
  calc bcdDecode rest < 10 ^ (bcdChars rest.reverse).length := decValue_lt _ hdigits
    _ ≤ 2 ^ 1024 - 2 ^ 970 := hpow.trans hfloat
    _ ≤ (2 ^ 1024 - 2 ^ 970) * 10 ^ entry.scale.getD 0 :=
      Nat.le_mul_of_pos_right _ (Nat.pow_pos (by decide))

end Adapter645

namespace Adapter10376

/-- Each embedded frame is cut where the scan stands. -/
theorem embeddedFuel_cut (fuel : ℕ) (payload : Bytes) {e : NestedAdapter × Bytes}
    (h : e ∈ embeddedFuel fuel payload) :
    ∃ k res, bestNested (payload.drop k) = some (e.1, res) ∧ e.2 = res.raw := by
  induction fuel generalizing payload with
  | zero => exact absurd h List.not_mem_nil
  | succ fuel ih =>
      cases payload with
      | nil => exact absurd h List.not_mem_nil
      | cons b rest =>
          rw [embeddedFuel] at h
          cases hbest : bestNested (b :: rest) with
          | none =>
              rw [hbest] at h
              obtain ⟨k, res, hcut, hraw⟩ := ih rest h
              exact ⟨k + 1, res, hcut, hraw⟩
          | some best =>
              obtain ⟨adapter, res⟩ := best
              rw [hbest] at h
              rcases List.mem_cons.mp h with rfl | h
              · exact ⟨0, res, hbest, rfl⟩
              · obtain ⟨k, res', hcut, hraw⟩ := ih _ h
                rw [List.drop_drop] at hcut
                exact ⟨_, res', hcut, hraw⟩

theorem allDecodable_of_short (store : MetadataStore) {payload : Bytes}
    (h698 : ConcurrentReadonly.Without698 payload) (h : payload.length ≤ 64) :
    AllDecodable store (embedded payload) := by
  intro e he
  obtain ⟨k, res, hbest, hraw⟩ := embeddedFuel_cut _ _ he
  obtain ⟨adapter, raw⟩ := e
  obtain rfl : raw = res.raw := hraw
  rcases bestNested_cut hbest with ⟨rfl, hcut⟩ | ⟨-, hcut⟩
  · have hle : res.raw.length ≤ 64 := by
      rw [(Adapter645.tryExtract_cutOf hcut).raw_eq, List.length_take, List.length_drop]
      omega
    exact Adapter645.decodable_of_short store hle
  · exact absurd hcut (by rw [h698 k]; exact nofun)

end Adapter10376

namespace ConcurrentReadonly
open Adapter10376

/-! ## What the codec writes -/

/-- The parameters of a forwarded payload. -/
def payloadParams (protocol : ℤ) (app : Bytes) : Params :=
  [("protocol", .int protocol), ("payload", .str (hex app))]

/-- The item that shows the payload. -/
def payloadName : Batch.Mode → String
  | .single => "转发报文"
  | .batch => "报文内容"

/-- The decoded frame declares the length of `app` and shows `app`. -/
def ShowsPayload (mode : Batch.Mode) (app : Bytes) (pf : ProtocolFrame) : Prop :=
  (∃ item ∈ pf.items, item.name = "报文长度" ∧ item.value = .str (dec app.length ++ "B")) ∧
    ∃ item ∈ pf.items, item.name = payloadName mode ∧ item.value = .str (hex app)

/-- The data unit of a request for `app` is the one that the codec writes, and whoever decodes the
request finds `app` in it. -/
def CarriesPayload (cfg : ReadConfig) (meter : String) (app : Bytes) (protocol : Byte) : Prop :=
  encodeAppData cfg.mode.afn 1 (payloadParams cfg.protocolType app) .down =
      .ok (requestData protocol app) ∧
    ∀ store seq raw, readRequest cfg seq meter = .ok raw →
      ∃ pf, Adapter10376.decode store raw = .ok pf ∧ ShowsPayload cfg.mode app pf

section Units
variable {cfg : ReadConfig} {app : Bytes} {protocol : Byte}

theorem u8_of_le {n : ℤ} {hi : Byte} (name : String) (h₀ : 0 ≤ n) (h₁ : n ≤ (hi : ℕ)) :
    ∃ b : InRange 0 hi, u8 (.int n) name 0 hi = .ok b ∧ (b : Byte) = byte n.toNat := by
  have hrange : ((0 : Byte) : ℕ) ≤ n ∧ n ≤ (hi : ℕ) := ⟨h₀, h₁⟩
  exact ⟨_, dif_pos hrange, rfl⟩

theorem le_of_u8 {n : ℤ} {hi : Byte} {name : String} {b : InRange 0 hi}
    (h : u8 (.int n) name 0 hi = .ok b) : n ≤ (hi : ℕ) := by
  change (dite _ _ _ : PyM (InRange 0 hi)) = _ at h
  split at h
  · rename_i hrange
    exact hrange.2
  · cases h

theorem payload_given (n : ℤ) (app : Bytes) (hint : String) :
    req (payloadParams n app) "payload" hint = .ok (.str (hex app)) := rfl

theorem protocol_given (n : ℤ) (app : Bytes) :
    req (payloadParams n app) "protocol" = .ok (.int n) := rfl

theorem hexBytes_hex (app : Bytes) (name : String) : hexBytes (.str (hex app)) name = .ok app := by
  rw [hexBytes, PyVal.toStr, dropSpaces_hex, fromHex_hex]
  rfl

theorem encode_batch {n : ℤ} (happ : app.length ≤ 65535) (h₀ : 0 ≤ n) (h₃ : n ≤ 3) :
    encodeAppData 0xF1 1 (payloadParams n app) .down = .ok (requestData (byte n.toNat) app) := by
  obtain ⟨b, hb, hval⟩ := @u8_of_le _ 3 "protocol" h₀ h₃
  have hread : concurrentArgs (payloadParams n app) = .ok (b, ⟨app, happ⟩) := by
    unfold concurrentArgs
    rw [payload_given, protocol_given]
    simp only [bind, Except.bind, hexBytes_hex, hb, upTo, dif_pos happ]
    rfl
  have hentry : encodeAppData 0xF1 1 (payloadParams n app) .down =
      (concurrentArgs (payloadParams n app) >>= fun f => pure (entryF1F1Down.write f)) := rfl
  rw [hentry, hread, ← hval]
  rfl

theorem protocol_of_encode_batch {n : ℤ} {bs : Bytes}
    (h : encodeAppData 0xF1 1 (payloadParams n app) .down = .ok bs) : n ≤ 3 := by
  have hentry : encodeAppData 0xF1 1 (payloadParams n app) .down =
      (concurrentArgs (payloadParams n app) >>= fun f => pure (entryF1F1Down.write f)) := rfl
  rw [hentry] at h
  obtain ⟨f, hread, -⟩ := bind_eq_ok h
  unfold concurrentArgs at hread
  rw [payload_given, protocol_given] at hread
  obtain ⟨v, -, hread⟩ := bind_eq_ok hread
  obtain ⟨_, -, hread⟩ := bind_eq_ok hread
  obtain ⟨w, hw, hread⟩ := bind_eq_ok hread
  obtain ⟨b, hb, -⟩ := bind_eq_ok hread
  obtain rfl := Except.ok.inj hw
  exact le_of_u8 hb

/-- The data unit of 02H-F1 has a head of two bytes. -/
theorem length_of_encode_single {n : ℤ} {bs : Bytes}
    (h : encodeAppData 0x02 1 (payloadParams n app) .down = .ok bs) :
    bs.length = app.length + 2 := by
  have hentry : encodeAppData 0x02 1 (payloadParams n app) .down =
      (entry02F1.read (payloadParams n app) >>= fun f => pure (entry02F1.write f)) := rfl
  rw [hentry] at h
  obtain ⟨f, hread, hwrite⟩ := bind_eq_ok h
  obtain rfl := Except.ok.inj hwrite
  change (req (payloadParams n app) "payload" "转发报文 hex" >>= _) = _ at hread
  rw [payload_given] at hread
  obtain ⟨v, hv, hread⟩ := bind_eq_ok hread
  obtain rfl := Except.ok.inj hv
  obtain ⟨bs, hbs, hread⟩ := bind_eq_ok hread
  rw [hexBytes_hex] at hbs
  obtain rfl := Except.ok.inj hbs
  obtain ⟨payload, hpayload, hread⟩ := bind_eq_ok hread
  obtain ⟨w, hw, hread⟩ := bind_eq_ok hread
  obtain ⟨b, hb, hread⟩ := bind_eq_ok hread
  obtain rfl := Except.ok.inj hread
  have hsame : payload.val = app := by
    unfold upTo at hpayload
    split at hpayload
    · obtain rfl := Except.ok.inj hpayload
      rfl
    · cases hpayload
  change ((b : Byte) :: withLength payload.val).length = app.length + 2
  rw [hsame]
  rfl

end Units

/-! ## What the receiver decodes -/

section Requests
variable {cfg : ReadConfig} {meter : String} {app : Bytes} {protocol : Byte}

theorem meterRead645_length (h : meterRead645 meter = .ok app) : app.length = 16 := by
  obtain ⟨addr, cs, hlength, -, rfl⟩ := meterRead645_shape h
  simp [hlength]

theorem requestData_length (protocol : Byte) (app : Bytes) :
    (requestData protocol app).length = 4 + app.length := by
  rw [requestData, List.length_append]
  rfl

theorem protocolByte_eq {n : ℤ} (h : protocolByte n = .ok protocol) :
    0 ≤ n ∧ protocol = byte n.toNat := by
  unfold protocolByte at h
  split_ifs at h with hneg
  unfold byteOf at h
  split_ifs at h
  exact ⟨not_lt.mp hneg, (Except.ok.inj h).symm⟩

/-- The items of F1H-F1 for a data unit with the payload behind its head. -/
theorem batchItems_show (protocol : Byte) (happ : app.length < 256) :
    let items := itemsF1F1 (requestData protocol app) false
    (∃ item ∈ items, item.name = "报文长度" ∧ item.value = .str (dec app.length ++ "B")) ∧
      ∃ item ∈ items, item.name = "报文内容" ∧ item.value = .str (hex app) := by
  have hcount : le16At (requestData protocol app) 2 = app.length := by
    change le16 (byte app.length) (byte (app.length / 256)) = app.length
    rw [le16_eq, byte_val, byte_val]
    omega
  have hpayload : slice (requestData protocol app) 4 (4 + app.length) = app :=
    @slice_of_parts _ _ _ _ _ [] (List.append_nil _).symm rfl rfl
  have hlong : ¬ (false : Bool) = true ∧ (requestData protocol app).length ≥ 4 :=
    ⟨by simp, by rw [requestData_length]; omega⟩
  dsimp only
  rw [itemsF1F1, if_pos hlong, hcount]
  dsimp only
  rw [hpayload]
  exact ⟨⟨_, .tail _ (.tail _ (.head _)), rfl, rfl⟩,
    ⟨_, .tail _ (.tail _ (.tail _ (.head _))), rfl, rfl⟩⟩

/-- The receiver of a request in batch mode finds the length and the payload where they were
written. -/
theorem batch_shown (hmode : cfg.mode = .batch) (happ : meterRead645 meter = .ok app)
    (hprotocol : protocolByte cfg.protocolType = .ok protocol) (store : MetadataStore) (seq : ℕ)
    {raw : Bytes} (h : readRequest cfg seq meter = .ok raw) :
    ∃ pf, Adapter10376.decode store raw = .ok pf ∧ ShowsPayload .batch app pf := by
  have hlength := meterRead645_length happ
  have hsize := requestData_length protocol app
  rw [readRequest, happ] at h
  change (protocolByte cfg.protocolType >>= _) = _ at h
  rw [hprotocol] at h
  obtain ⟨header, hheader, hdata, hafn, hfn, hdown⟩ := request_header h
  rw [hmode] at hafn
  have hclean : Clean store header := by
    refine ⟨fun hc => ?_, fun hc => ?_, fun _ => ?_⟩
    · rw [hc.1] at hafn
      exact absurd hafn (by decide)
    · rw [hc.1] at hafn
      exact absurd hafn (by decide)
    · rw [hdata]
      obtain ⟨addr, cs, haddr, hdigits, rfl⟩ := meterRead645_shape happ
      exact allDecodable_of_short store (requestData_without698 haddr hdigits) (by omega)
  obtain ⟨body, hbody⟩ := (decodeBody_returns store header).1 hclean
  refine ⟨_, decode_of_body hheader hbody, ?_⟩
  have hne : requestData protocol app ≠ [] := List.cons_ne_nil _ _
  rw [hafn, hfn, hdown, hdata, decodeBody, if_neg hne] at hbody
  obtain ⟨items, hitems, hbody⟩ := bind_eq_ok hbody
  obtain ⟨nested, -, hbody⟩ := bind_eq_ok hbody
  obtain rfl := Except.ok.inj hbody
  obtain rfl : itemsF1F1 (requestData protocol app) false = items := Except.ok.inj hitems
  obtain ⟨⟨count, hcount, hvalue⟩, ⟨payload, hpayload, hcontent⟩⟩ :=
    @batchItems_show app protocol (by omega)
  exact ⟨⟨count, .tail _ (List.mem_append_left _ hcount), hvalue⟩,
    ⟨payload, .tail _ (List.mem_append_left _ hpayload), hcontent⟩⟩

/-- A request has the data unit that its AFN asks for exactly in batch mode and for a protocol that
the codec knows. -/
theorem request_carries_iff (cfg : ReadConfig) (meter : String) {app : Bytes} {protocol : Byte}
    (happ : meterRead645 meter = .ok app)
    (hprotocol : protocolByte cfg.protocolType = .ok protocol) :
    CarriesPayload cfg meter app protocol ↔ cfg.mode = .batch ∧ cfg.protocolType ≤ 3 := by
  have hlength := meterRead645_length happ
  constructor
  · rintro ⟨hencode, -⟩
    cases hmode : cfg.mode with
    | single =>
        rw [hmode] at hencode
        have hcount := length_of_encode_single hencode
        rw [requestData_length] at hcount
        omega
    | batch =>
        rw [hmode] at hencode
        exact ⟨rfl, protocol_of_encode_batch hencode⟩
  · rintro ⟨hmode, hle⟩
    have hnonneg := protocolByte_eq hprotocol
    refine ⟨?_, fun store seq raw hraw => ?_⟩
    · rw [hmode, hnonneg.2]
      exact encode_batch (by omega) hnonneg.1 hle
    · rw [hmode]
      exact batch_shown hmode happ hprotocol store seq hraw

end Requests

def meterRequest : Bytes :=
  [0x68, 0x66, 0x55, 0x44, 0x33, 0x22, 0x11, 0x68, 0x91, 0x04, 0x33, 0x33, 0x33, 0x33, 0x96, 0x16]

theorem meterRequest_built : meterRead645 "112233445566" = .ok meterRequest := by
  decide +kernel

theorem batchRequest_carries : CarriesPayload { mode := .batch } "112233445566" meterRequest 2 :=
  (request_carries_iff { mode := .batch } "112233445566" meterRequest_built rfl).mpr
    ⟨rfl, by decide⟩

/-- In the default mode the codec writes 18 bytes where the sender writes 20. -/
theorem singleRequest_differs : ¬ ∀ (cfg : ReadConfig) (meter : String) (app : Bytes)
    (protocol : Byte), meterRead645 meter = .ok app → protocolByte cfg.protocolType = .ok protocol →
      CarriesPayload cfg meter app protocol := by
  intro hall
  have hcarries := hall {} "112233445566" meterRequest 2 meterRequest_built rfl
  exact absurd (length_of_encode_single hcarries.1) (by decide)

end ConcurrentReadonly

end HplcWorkbench
