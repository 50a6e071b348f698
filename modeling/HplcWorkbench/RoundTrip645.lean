import HplcWorkbench.EscapedFrame645
import HplcWorkbench.Facade
import HplcWorkbench.HexReading

/-!
# 645 frames through the facade

`build` and automatic `decode` agree except on three kinds of input: a third address byte `68`,
on which the recogniser gives up; a function code 3 or 8 inside another control byte, on which
only `build` adds the bias; and a number that is too large to be scaled.
-/

namespace HplcWorkbench.Facade

open Adapter10376 (pySpace pyStrip TwelveDigits IsDigit)
open Adapter645 (noEncryptFuncs wireFrame dataItems bcdDecode)

/-! ## Texts -/

section Texts

theorem dropHexMark_plain {cs : List Char} (h : ∀ c ∈ cs, PlainDigit c) : dropHexMark cs = cs := by
  unfold dropHexMark
  split
  · rename_i x rest
    have hx := (h x (by simp)).noMark.2
    rw [if_neg (not_or.mpr hx)]
  · rfl

/-- The facade reads back the text it prints a frame in. -/
theorem toBytes_upper (data : Bytes) : toBytes (.text (upper (hex data))) = .ok data := by
  have hplain : ∀ c ∈ (hexChars data).map Char.toUpper, PlainDigit c :=
    fun c hc => plainDigit_upperChars hc
  have hkeep : ((hexChars data).map Char.toUpper).filter (fun c => !pySpace c) =
      (hexChars data).map Char.toUpper :=
    List.filter_eq_self.mpr fun c hc => by simp [(hplain c hc).noSpace]
  have hall : ((hexChars data).map Char.toUpper).all (fun c => (hexDigitValue c).isSome) = true :=
    List.all_eq_true.mpr fun c hc => (hplain c hc).value
  have heven : ((hexChars data).map Char.toUpper).length % 2 = 0 := by
    rw [List.length_map, hexChars_length]
    omega
  rw [toBytes, toList_upper_hex, hkeep, dropHexMark_plain hplain]
  rw [if_pos ⟨heven, hall⟩, fromHexChars_upper]
  rfl

end Texts

/-! ## Addresses -/

section Address

theorem addrBytes645_digits {addr : String} (h : TwelveDigits addr) :
    ∃ bs, addrBytes645 (.str addr) = .ok bs ∧ bs.length = 6 ∧ hexChars bs = addr.toList := by
  obtain ⟨hlength, hdigits⟩ := h
  have hplain : ∀ c ∈ addr.toList, PlainDigit c := by
    intro c hc
    obtain ⟨k, hk, rfl⟩ := digit_lower (hdigits c hc)
    exact plainDigit_lower (by omega)
  obtain ⟨bs, hbs, -, hcount, hchars⟩ := fromHexChars_digits 6 addr.toList hlength hdigits
  have hall : addr.toList.all (fun c => (hexDigitValue c).isSome) = true :=
    List.all_eq_true.mpr fun c hc => (hplain c hc).value
  refine ⟨bs, ?_, hcount, hchars⟩
  rw [addrBytes645, PyVal.toStr, pyStrip_eq_self fun c hc => (hplain c hc).noSpace,
    if_neg (by simp [hlength, hall]), bytesFromHex, fromHex, String.toList_ofList, hbs]
  rfl

/-- The address text has `68` as its third pair of digits. -/
def ThirdIs68 (addr : String) : Prop := (addr.toList.drop 4).take 2 = ['6', '8']

instance (addr : String) : Decidable (ThirdIs68 addr) :=
  inferInstanceAs (Decidable (_ = _))

section Bytes
variable {addr : String} {bs : Bytes} (hlength : bs.length = 6) (hchars : hexChars bs = addr.toList)
include hchars

theorem upper_address (hdigits : ∀ c ∈ addr.toList, IsDigit c) : upper (hex bs) = addr := by
  have hkeep : addr.toList.map Char.toUpper = addr.toList := by
    refine (List.map_congr_left fun c hc => ?_).trans (List.map_id _)
    obtain ⟨k, hk, rfl⟩ := (hdigits c hc).exists_val
    interval_cases k <;> rfl
  rw [upper, toList_hex, hchars, hkeep, String.ofList_toList]

theorem no1B_address (hdigits : ∀ c ∈ addr.toList, IsDigit c) : (0x1B : Byte) ∉ bs := by
  intro hmem
  have hb : 'b' ∈ addr.toList := by
    rw [← hchars]
    exact List.mem_flatMap.mpr ⟨0x1B, hmem, by decide⟩
  exact absurd (hdigits 'b' hb) (by decide)

include hlength in
theorem thirdIs68_iff : ThirdIs68 addr ↔ byteAt bs 2 = 0x68 := by
  match bs, hlength with
  | [b0, b1, b2, b3, b4, b5], _ =>
    have hpair : (addr.toList.drop 4).take 2 =
        [hexDigitLower ((b2 : ℕ) / 16), hexDigitLower ((b2 : ℕ) % 16)] := by
      rw [← hchars]
      rfl
    have htable : ∀ b : Byte,
        [hexDigitLower ((b : ℕ) / 16), hexDigitLower ((b : ℕ) % 16)] = ['6', '8'] ↔ b = 0x68 := by
      decide +kernel
    rw [ThirdIs68, hpair, htable]
    rfl

end Bytes

end Address

/-! ## Building -/

/-- A data identifier, as the protocol tables write it: high byte first. -/
structure DataId where
  di3 : Byte
  di2 : Byte
  di1 : Byte
  di0 : Byte
  deriving DecidableEq, Repr

def DataId.text (d : DataId) : String := upper (hex [d.di3, d.di2, d.di1, d.di0])

/-- The identifier at the start of the data field. -/
def DataId.bytes (d : DataId) : Bytes := [d.di0, d.di1, d.di2, d.di3]

/-- The logical data field. -/
def logicalData (di : Option DataId) (data : Bytes) : Bytes :=
  (di.elim [] DataId.bytes) ++ data

/-- The `params` of a 645 frame. -/
def params645 (addr : String) (control : Byte) (di : Option DataId) (data : Bytes) : Params :=
  [("addr", .str addr), ("control", .str (upper (hex [control])))] ++
    (di.elim [] fun d => [("di", .str d.text)]) ++ [("data", .str (hex data))]

/-- The data field that `build` puts on the wire. -/
def biasedData (control : Byte) (payload : Bytes) : Bytes :=
  if control ≠ 0x03 ∧ control ≠ 0x08 then addBias payload else payload

section Build
variable {addr : String} {control : Byte} {di : Option DataId} {data : Bytes}

/-- The bytes of a number of four bytes, low byte first. -/
theorem toBytesLittle4_of_bytes (d : DataId) :
    toBytesLittle4 (Int.ofNat (((d.di3 * 256 + d.di2) * 256 + d.di1) * 256 + d.di0 : ℕ)) =
      .ok d.bytes := by
  set n : ℕ := ((d.di3 * 256 + d.di2) * 256 + d.di1) * 256 + d.di0 with hn
  have hbound : n < 2 ^ 32 := by omega
  have hsign : ¬ Int.ofNat n < 0 := Int.not_lt.mpr (Int.natCast_nonneg n)
  have hsize : ¬ Int.ofNat n ≥ 2 ^ 32 := by
    change ¬ (2 : ℤ) ^ 32 ≤ (n : ℤ)
    omega
  have h0 : byte n = d.di0 := Fin.ext (by rw [byte_val]; omega)
  have h1 : byte (n / 2 ^ 8) = d.di1 := Fin.ext (by rw [byte_val]; omega)
  have h2 : byte (n / 2 ^ 16) = d.di2 := Fin.ext (by rw [byte_val]; omega)
  have h3 : byte (n / 2 ^ 24) = d.di3 := Fin.ext (by rw [byte_val]; omega)
  rw [toBytesLittle4, if_neg hsign, if_neg hsize]
  simp only [Int.ofNat_eq_natCast, Int.toNat_natCast, h0, h1, h2, h3]
  rfl

theorem hexInt_dataId (d : DataId) :
    hexInt d.text = .ok (Int.ofNat (((d.di3 * 256 + d.di2) * 256 + d.di1) * 256 + d.di0 : ℕ)) := by
  rw [DataId.text, hexInt_upper]
  simp only [List.foldl, Nat.zero_mul, Nat.zero_add]

theorem hexInt_control : hexInt (upper (hex [control])) = .ok (Int.ofNat control) := by
  rw [hexInt_upper]
  simp only [List.foldl, Nat.zero_mul, Nat.zero_add]

theorem DataId.text_ne (d : DataId) : d.text ≠ "" := by
  intro h
  have hlength := congrArg (fun s : String => s.toList.length) h
  simp [DataId.text, toList_upper_hex, hexChars_length] at hlength

theorem diBytes_params (di : Option DataId) :
    diBytes (params645 addr control di data) = .ok (di.elim [] DataId.bytes) := by
  cases di with
  | none => rfl
  | some d =>
    have hget : (params645 addr control (some d) data).get "di" = .str d.text := rfl
    rw [diBytes, hget, if_pos (by simpa [PyVal.truthy] using d.text_ne)]
    change (hexInt d.text >>= toBytesLittle4) = _
    rw [hexInt_dataId]
    exact toBytesLittle4_of_bytes d

theorem dataBytes_params (di : Option DataId) :
    dataBytes (params645 addr control di data) = .ok data := by
  have hget : (params645 addr control di data).get "data" = .str (hex data) := by
    cases di with
    | none => rfl
    | some d => rfl
  rw [dataBytes, hget]
  by_cases hdata : data = []
  · subst hdata
    rfl
  · have htext : hex data ≠ "" := fun h => hdata (hex_injective h)
    rw [if_pos (by simpa [PyVal.truthy] using htext), PyVal.toStr, dropSpaces_hex, bytesFromHex,
      fromHex_hex]
    rfl

theorem biasedData_length (payload : Bytes) :
    (biasedData control payload).length = payload.length := by
  unfold biasedData
  split
  · rw [addBias, List.length_map]
  · rfl

/-- `build` succeeds with the escaped frame of the biased data field. -/
theorem build_params (build13762 : Params → PyM BuildResult) (control : Byte)
    (haddr : TwelveDigits addr) (hlength : (logicalData di data).length ≤ 200) :
    ∃ bs, bs.length = 6 ∧ hexChars bs = addr.toList ∧
      build build13762 "645" (params645 addr control di data) =
        built .dlt645 (wireFrame bs control (biasedData control (logicalData di data))) := by
  obtain ⟨bs, hbs, hcount, hchars⟩ := addrBytes645_digits haddr
  refine ⟨bs, hcount, hchars, ?_⟩
  have hdaily : dailyOf "645" = some .dlt645 := by decide +kernel
  have haddrGet : (params645 addr control di data).getD "addr" (.str "") = .str addr := rfl
  have hcontrolGet : ((params645 addr control di data).getD "control" (.str "11")).toStr =
      upper (hex [control]) := rfl
  have hunsigned : unsigned (Int.ofNat control) = .ok (control : ℕ) := by
    have hsign : ¬ Int.ofNat control < 0 := Int.not_lt.mpr (Int.natCast_nonneg _)
    rw [unsigned, if_neg hsign]
    rfl
  have hpayload : (if Int.ofNat control ≠ 0x03 ∧ Int.ofNat control ≠ 0x08 then
      addBias (di.elim [] DataId.bytes ++ data) else di.elim [] DataId.bytes ++ data) =
        biasedData control (logicalData di data) := by
    have hexact : (Int.ofNat control ≠ 0x03 ∧ Int.ofNat control ≠ 0x08) ↔
        (control ≠ 0x03 ∧ control ≠ 0x08) := by
      rw [ne_eq, ne_eq, ne_eq, ne_eq, Fin.ext_iff, Fin.ext_iff]
      change (¬ ((control : ℕ) : ℤ) = 3 ∧ ¬ ((control : ℕ) : ℤ) = 8) ↔
        (¬ (control : ℕ) = 3 ∧ ¬ (control : ℕ) = 8)
      omega
    simp only [hexact, biasedData, logicalData]
  have hwire : (biasedData control (logicalData di data)).length < 256 := by
    rw [biasedData_length]
    omega
  have hbuild : build645 (params645 addr control di data) =
      .ok (built .dlt645 (wireFrame bs control (biasedData control (logicalData di data)))) := by
    simp only [build645, haddrGet, hbs, hcontrolGet, hexInt_control, diBytes_params,
      dataBytes_params, bind, Except.bind, hunsigned, hpayload,
      Adapter645.buildFrameEscaped_eq hcount hwire]
    rfl
  rw [build, hdaily]
  simp only [hbuild]

end Build

/-! ## The data item -/

/-- The function code of a control byte, as `decode` masks it. -/
def funcOf (control : Byte) : ℕ := (control : ℕ) &&& 0x0F

/-- The dictionary key of the data identifier at the start of a data field. -/
def diKey (payload : Bytes) : String := upper (hex (payload.take 4).reverse)

/-- The name under which the data identifier is shown. -/
def diName (store : MetadataStore) (payload : Bytes) : String :=
  match store "645" (diKey payload) with
  | some entry => entry.name.getD (diKey payload)
  | none => "未知DI(" ++ diKey payload ++ ")"

/-- The data field is shown as a whole, not as an identifier with its data. -/
def ShownWhole (control : Byte) (payload : Bytes) : Prop :=
  funcOf control ∈ noEncryptFuncs ∨ payload.length < 4

/-- The item shows the logical data field, the data identifier first. -/
structure ShowsData (store : MetadataStore) (control : Byte) (payload : Bytes) (item : DataField) :
    Prop where
  whole : ShownWhole control payload → item.hex = hex payload
  identified : ¬ ShownWhole control payload →
    item.name = diName store payload ∧ item.raw = .str (hex (payload.drop 4))

/-- The number behind a data identifier is small enough for a float if it is scaled. -/
def NumberFits (store : MetadataStore) (payload : Bytes) : Prop :=
  ∀ entry, store "645" (diKey payload) = some entry →
    entry.dataType.getD "bcd_compact" = "bcd_compact" → entry.scale.getD 0 ≠ 0 →
    bcdDecode (payload.drop 4) < (2 ^ 1024 - 2 ^ 970) * 10 ^ entry.scale.getD 0

def FitsFloat (store : MetadataStore) (control : Byte) (payload : Bytes) : Prop :=
  ShownWhole control payload ∨ NumberFits store payload

section Item
variable {store : MetadataStore} {control : Byte} {payload : Bytes}

theorem dataItems_whole (store : MetadataStore) (h : ShownWhole control payload) :
    ∃ item, dataItems store (funcOf control) payload.length payload = .ok ([item], []) ∧
      item.hex = hex payload := by
  unfold dataItems
  by_cases h3 : funcOf control = 0x03 ∧ payload.length > 0
  · rw [if_pos h3]
    exact ⟨_, rfl, rfl⟩
  rw [if_neg h3]
  by_cases h8 : funcOf control = 0x08 ∧ payload.length > 0
  · rw [if_pos h8]
    match payload with
    | sec :: minute :: hour :: day :: month :: year :: rest =>
      rw [if_pos (by simp)]
      exact ⟨_, rfl, rfl⟩
    | [] | [_] | [_, _] | [_, _, _] | [_, _, _, _] | [_, _, _, _, _] => exact ⟨_, rfl, rfl⟩
  rw [if_neg h8, if_neg]
  · exact ⟨_, rfl, rfl⟩
  · rcases h with hfunc | hshort
    · simp only [noEncryptFuncs, List.mem_cons, List.not_mem_nil, or_false] at hfunc
      omega
    · omega

theorem diItem_eq {d0 d1 d2 d3 : Byte} {rest : Bytes} :
    Adapter645.diItem store (d0 :: d1 :: d2 :: d3 :: rest) =
      match store "645" (diKey (d0 :: d1 :: d2 :: d3 :: rest)) with
      | some entry => do
        let value ← if entry.dataType.getD "bcd_compact" = "bcd_compact" ∧ rest ≠ [] then
            Adapter645.bcdValue rest (entry.scale.getD 0)
          else pure (.str (hex rest))
        pure (⟨entry.name.getD (diKey (d0 :: d1 :: d2 :: d3 :: rest)), value, entry.unit, hex rest,
          .str (hex rest), entry.desc.getD ""⟩, [])
      | none => pure (⟨"未知DI(" ++ diKey (d0 :: d1 :: d2 :: d3 :: rest) ++ ")", .str (hex rest), none,
          hex rest, .str (hex rest), "未在字典中登记，保留原始值"⟩,
          ["未知数据标识 DI=" ++ diKey (d0 :: d1 :: d2 :: d3 :: rest)]) := rfl

theorem dataItems_identified (h : ¬ ShownWhole control payload) :
    dataItems store (funcOf control) payload.length payload =
      (Adapter645.diItem store payload).map fun r => ([r.1], r.2) := by
  obtain ⟨hfunc, hlong⟩ := not_or.mp h
  simp only [noEncryptFuncs, List.mem_cons, List.not_mem_nil, or_false, not_or] at hfunc
  unfold dataItems
  rw [if_neg (fun h3 => hfunc.1 h3.1), if_neg (fun h8 => hfunc.2 h8.1), if_pos (by omega)]
  cases Adapter645.diItem store payload with
  | error e => rfl
  | ok r => rfl

theorem bcdValue_cases (rest : Bytes) (scale : ℕ) :
    (∃ value, Adapter645.bcdValue rest scale = .ok value) ↔
      (scale ≠ 0 → bcdDecode rest < (2 ^ 1024 - 2 ^ 970) * 10 ^ scale) := by
  unfold Adapter645.bcdValue
  by_cases hscale : scale = 0
  · simp only [hscale, if_true]
    exact ⟨fun _ h => absurd rfl h, fun _ => ⟨_, rfl⟩⟩
  · rw [if_neg hscale]
    by_cases hsize : bcdDecode rest ≥ (2 ^ 1024 - 2 ^ 970) * 10 ^ scale
    · rw [if_pos hsize]
      refine ⟨?_, fun h => absurd (h hscale) (Nat.not_lt.mpr hsize)⟩
      rintro ⟨value, h⟩
      cases h
    · rw [if_neg hsize]
      exact ⟨fun _ _ => Nat.lt_of_not_le hsize, fun _ => ⟨_, rfl⟩⟩

theorem two_pow_gap {m n : ℕ} (h : m < n) : 0 < 2 ^ n - 2 ^ m :=
  Nat.sub_pos_of_lt (Nat.pow_lt_pow_right Nat.one_lt_two h)

theorem diItem_spec (store : MetadataStore) (hlong : 4 ≤ payload.length) :
    (NumberFits store payload → ∃ item warnings,
      Adapter645.diItem store payload = .ok (item, warnings) ∧
      item.name = diName store payload ∧ item.raw = .str (hex (payload.drop 4))) ∧
    (¬ NumberFits store payload → ∃ e, Adapter645.diItem store payload = .error e) := by
  match payload, hlong with
  | d0 :: d1 :: d2 :: d3 :: rest, _ =>
    set payload := d0 :: d1 :: d2 :: d3 :: rest with hpayload
    have hdrop : payload.drop 4 = rest := rfl
    rw [diItem_eq, ← hpayload]
    cases hentry : store "645" (diKey payload) with
    | none =>
      have hfits : NumberFits store payload := by
        intro entry h
        rw [hentry] at h
        cases h
      refine ⟨fun _ => ⟨_, _, rfl, ?_, rfl⟩, fun h => absurd hfits h⟩
      rw [diName, hentry]
    | some entry =>
      have hname : entry.name.getD (diKey payload) = diName store payload := by
        rw [diName, hentry]
      have hfits : NumberFits store payload ↔ (entry.dataType.getD "bcd_compact" = "bcd_compact" →
          entry.scale.getD 0 ≠ 0 →
            bcdDecode rest < (2 ^ 1024 - 2 ^ 970) * 10 ^ entry.scale.getD 0) :=
        ⟨fun h => h entry hentry, fun h e he => by
          rw [hentry] at he
          cases he
          exact h⟩
      by_cases hscaled : entry.dataType.getD "bcd_compact" = "bcd_compact" ∧ rest ≠ []
      · have hvalue := bcdValue_cases rest (entry.scale.getD 0)
        simp only [hscaled, ne_eq, not_false_eq_true, and_self, if_true]
        constructor
        · intro h
          obtain ⟨value, hok⟩ := hvalue.mpr (hfits.mp h hscaled.1)
          rw [hok]
          exact ⟨_, _, rfl, hname, rfl⟩
        · intro h
          cases hbcd : Adapter645.bcdValue rest (entry.scale.getD 0) with
          | error e => exact ⟨e, rfl⟩
          | ok value => exact absurd (hfits.mpr fun _ => hvalue.mp ⟨value, hbcd⟩) h
      · have htrue : NumberFits store payload := by
          refine hfits.mpr fun hcompact _ => ?_
          obtain rfl : rest = [] := by
            by_contra hrest
            exact hscaled ⟨hcompact, hrest⟩
          have hzero : bcdDecode ([] : Bytes) = 0 := rfl
          rw [hzero]
          exact Nat.mul_pos (two_pow_gap (by decide)) (Nat.pow_pos (by decide))
        simp only [hscaled, if_false]
        exact ⟨fun _ => ⟨_, _, rfl, hname, rfl⟩, fun h => absurd htrue h⟩

/-- The data field is decoded exactly when its number fits, and then shown. -/
theorem dataItems_spec (store : MetadataStore) (control : Byte) (payload : Bytes) :
    (FitsFloat store control payload → ∃ item warnings,
      dataItems store (funcOf control) payload.length payload = .ok ([item], warnings) ∧
      ShowsData store control payload item) ∧
    (¬ FitsFloat store control payload → ∃ e,
      dataItems store (funcOf control) payload.length payload = .error e) := by
  by_cases hwhole : ShownWhole control payload
  · obtain ⟨item, hitem, hhex⟩ := dataItems_whole store hwhole
    exact ⟨fun _ => ⟨item, [], hitem, fun _ => hhex, fun h => absurd hwhole h⟩,
      fun h => absurd (Or.inl hwhole) h⟩
  · have hfits : FitsFloat store control payload ↔ NumberFits store payload :=
      ⟨fun h => h.resolve_left hwhole, Or.inr⟩
    obtain ⟨hok, herror⟩ := diItem_spec store
      (show 4 ≤ payload.length by simpa using (not_or.mp hwhole).2)
    rw [hfits, dataItems_identified hwhole]
    constructor
    · intro h
      obtain ⟨item, warnings, hitem, hname, hraw⟩ := hok h
      rw [hitem]
      exact ⟨item, warnings, rfl, fun hw => absurd hw hwhole, fun _ => ⟨hname, hraw⟩⟩
    · intro h
      obtain ⟨e, he⟩ := herror h
      rw [he]
      exact ⟨e, rfl⟩

end Item

/-! ## The bias -/

section Bias
variable {control : Byte} {payload : Bytes}

/-- `build` and `decode` agree whether the data field is biased. -/
def BiasAgreed (control : Byte) (payload : Bytes) : Prop :=
  funcOf control ∈ noEncryptFuncs → control = 0x03 ∨ control = 0x08 ∨ payload = []

theorem unmask_addBias (payload : Bytes) : Adapter645.unmask (addBias payload) = payload := by
  rw [Adapter645.unmask, addBias, List.map_map]
  refine (List.map_congr_left fun b _ => ?_).trans (List.map_id _)
  apply Fin.ext
  simp only [Function.comp_apply, byte_val, BitFields.and_mask8, id_eq]
  omega

theorem addBias_ne (h : payload ≠ []) : addBias payload ≠ payload := by
  match payload, h with
  | b :: rest, _ =>
    intro heq
    have hfirst : byte (((b : ℕ) + 0x33) &&& 0xFF) = b := (List.cons.inj heq).1
    have hval := congrArg Fin.val hfirst
    rw [byte_val, BitFields.and_mask8] at hval
    omega

theorem readData_biased_of_agreed (h : BiasAgreed control payload) :
    Adapter645.readData control (biasedData control payload) = payload := by
  rw [Adapter645.readData, biasedData_length]
  by_cases hfunc : funcOf control ∈ noEncryptFuncs
  · rw [if_neg (fun hboth => hboth.2 hfunc), biasedData]
    rcases h hfunc with rfl | rfl | rfl
    · rfl
    · rfl
    · split
      · rfl
      · rfl
  · have hbiased : biasedData control payload = addBias payload := by
      rw [biasedData, if_pos]
      constructor
      · rintro rfl
        exact hfunc (by decide)
      · rintro rfl
        exact hfunc (by decide)
    by_cases hempty : payload = []
    · subst hempty
      rw [hbiased]
      rfl
    · rw [if_pos ⟨List.length_pos_of_ne_nil hempty, hfunc⟩, hbiased, unmask_addBias]

theorem readData_biased_of_not_agreed (h : ¬ BiasAgreed control payload) :
    Adapter645.readData control (biasedData control payload) = addBias payload ∧
      payload ≠ [] ∧ funcOf control ∈ noEncryptFuncs := by
  obtain ⟨hfunc, hnone⟩ := Classical.not_imp.mp h
  obtain ⟨h3, hnone⟩ := not_or.mp hnone
  obtain ⟨h8, hempty⟩ := not_or.mp hnone
  refine ⟨?_, hempty, hfunc⟩
  rw [Adapter645.readData, if_neg (fun hboth => hboth.2 hfunc), biasedData, if_pos ⟨h3, h8⟩]

/-- The decoder shows the data field that the builder was given exactly when both agree about the
bias and the number in it fits. -/
theorem data_shown_iff (store : MetadataStore) (control : Byte) (payload : Bytes) :
    (∃ item warnings, dataItems store (funcOf control) payload.length
        (Adapter645.readData control (biasedData control payload)) = .ok ([item], warnings) ∧
      ShowsData store control payload item) ↔
    BiasAgreed control payload ∧ FitsFloat store control payload := by
  by_cases hbias : BiasAgreed control payload
  · rw [readData_biased_of_agreed hbias, and_iff_right hbias]
    obtain ⟨hok, herror⟩ := dataItems_spec store control payload
    refine ⟨?_, hok⟩
    rintro ⟨item, warnings, hitems, -⟩
    by_contra hfits
    obtain ⟨e, he⟩ := herror hfits
    cases he.symm.trans hitems
  · obtain ⟨hdata, hnonempty, hfunc⟩ := readData_biased_of_not_agreed hbias
    have hlen : (addBias payload).length = payload.length := by rw [addBias, List.length_map]
    obtain ⟨shown, hitem, hhex⟩ := dataItems_whole store
      (show ShownWhole control (addBias payload) from Or.inl hfunc)
    rw [hlen] at hitem
    rw [hdata, hitem]
    refine iff_of_false ?_ (fun h => hbias h.1)
    rintro ⟨item, warnings, hitems, hshows⟩
    obtain ⟨hsame, -⟩ := Prod.mk.inj (Except.ok.inj hitems)
    obtain rfl : shown = item := List.singleton_injective hsame
    have hwhole := hshows.whole (Or.inl hfunc)
    rw [hhex] at hwhole
    exact absurd (hex_injective hwhole) (addBias_ne hnonempty)

end Bias

/-! ## The round trip -/

section Router
variable {store : MetadataStore} {raw : Bytes}

theorem confidence_le (raw : Bytes) (d : Daily) : d.confidence raw ≤ 100 := by
  cases d with
  | dlt645 => simp only [Daily.confidence, Adapter645.confidence]; split_ifs <;> omega
  | dlt69845 => simp only [Daily.confidence, Adapter698.confidence]; split_ifs <;> omega
  | qgdw103762 => simp only [Daily.confidence, Adapter10376.confidence]; split_ifs <;> omega

/-- The full score of the first adapter cannot be beaten. -/
theorem decodeAuto_645 (h : Adapter645.confidence raw = 100) :
    decodeAuto store raw autoConfidenceMin =
      (Adapter645.decode store raw).map (.auto "645" 100) := by
  have hselect : select (Daily.confidence · raw) dailyAdapters = some .dlt645 := by
    have h698 := Nat.not_lt.mpr (confidence_le raw .dlt69845)
    have h13762 := Nat.not_lt.mpr (confidence_le raw .qgdw103762)
    have h645 : Daily.confidence .dlt645 raw = 100 := h
    simp only [select, dailyAdapters, List.foldl, h645, gt_iff_lt, h698, h13762, if_false]
  rw [decodeAuto, hselect]
  simp only [Daily.confidence, h]
  rw [if_neg (by decide)]
  rfl

/-- A `68` in the fourth place is rejected by all three adapters. -/
theorem decodeAuto_rejected (h645 : Adapter645.confidence raw = 0) (h68 : byteAt raw 3 = 0x68) :
    ∃ scores, decodeAuto store raw autoConfidenceMin = .ok (.unrecognized scores) := by
  have h698 : Adapter698.confidence raw = 0 := by
    simp only [Adapter698.confidence, h68]
    split_ifs <;> rfl
  have h13762 : Adapter10376.confidence raw = 0 := by
    rw [Adapter10376.confidence, if_pos (by simp [h68])]
  have hselect : select (Daily.confidence · raw) dailyAdapters = some .dlt645 := by
    simp [select, dailyAdapters, Daily.confidence, h645, h698, h13762]
  rw [decodeAuto, hselect]
  simp only [Daily.confidence, h645]
  rw [if_pos (by decide)]
  exact ⟨_, rfl⟩

end Router

/-- What a decoded frame says about the address, the control byte and the data field it was
built from. -/
structure Reports (store : MetadataStore) (addr : String) (control : Byte) (payload : Bytes)
    (pf : ProtocolFrame) : Prop where
  framed : pf.structure_ = "645"
  sameAddress : ∃ f ∈ pf.fields, f.name = "地址域" ∧ f.value = .str addr
  sameControl : ∃ f ∈ pf.fields, f.name = "控制码" ∧ f.raw = .int (control : ℕ)
  checked : ∃ f ∈ pf.fields, f.name = "校验和CS" ∧ f.desc = "校验通过"
  sameData : ∃ item, pf.items = [item] ∧ ShowsData store control payload item

/-- The frame is built, recognised as 645 and decoded to what it was built from. -/
def RoundTrips (build13762 : Params → PyM BuildResult) (store : MetadataStore) (addr : String)
    (control : Byte) (di : Option DataId) (data : Bytes) : Prop :=
  ∃ text length, build build13762 "645" (params645 addr control di data) =
      .built "645" text length ∧
    ∃ score pf, decode store (.text text) none autoConfidenceMin = .ok (.auto "645" score pf) ∧
      Reports store addr control (logicalData di data) pf

/-- The three things that have to hold of the input. -/
structure Survives (store : MetadataStore) (addr : String) (control : Byte) (payload : Bytes) :
    Prop where
  notThird : ¬ ThirdIs68 addr
  bias : BiasAgreed control payload
  fits : FitsFloat store control payload

section RoundTrip
variable {build13762 : Params → PyM BuildResult} {store : MetadataStore} {addr : String}
  {control : Byte} {di : Option DataId} {data : Bytes}

theorem decode_built (store : MetadataStore) (bs dom : Bytes) (haddr : TwelveDigits addr)
    (hcount : bs.length = 6) (hchars : hexChars bs = addr.toList) (hlow : 1 ≤ (control : ℕ) % 16)
    (hhigh : (control : ℕ) % 16 ≤ 12) (hlength : dom.length ≤ 200) :
    (¬ ThirdIs68 addr → decode store (.text (upper (hex (wireFrame bs control dom)))) none
        autoConfidenceMin =
      (dataItems store (funcOf control) dom.length (Adapter645.readData control dom)).map
        (fun body => .auto "645" 100 (Adapter645.readFrame bs control dom body))) ∧
    (ThirdIs68 addr → ∃ scores, decode store (.text (upper (hex (wireFrame bs control dom)))) none
        autoConfidenceMin = .ok (.unrecognized scores)) := by
  have hno1B := no1B_address hchars haddr.2
  have hconfidence := Adapter645.confidence_wireFrame hcount hno1B hlength hlow hhigh
  rw [decode, toBytes_upper]
  dsimp only
  constructor
  · intro hthird
    rw [if_neg (fun h => hthird ((thirdIs68_iff hcount hchars).mpr h))] at hconfidence
    rw [decodeAuto_645 hconfidence, Adapter645.decode_wireFrame hcount hno1B hlength]
    change Except.map _ (Except.map _ (dataItems store (funcOf control) dom.length _)) = _
    cases dataItems store (funcOf control) dom.length (Adapter645.readData control dom) with
    | error e => rfl
    | ok body => rfl
  · intro hthird
    have h68 := (thirdIs68_iff hcount hchars).mp hthird
    rw [if_pos h68] at hconfidence
    refine decodeAuto_rejected hconfidence ?_
    match bs, hcount with
    | [b0, b1, b2, b3, b4, b5], _ => exact h68

theorem reports_readFrame {bs dom payload : Bytes} {item : DataField} {warnings : List String}
    (haddr : upper (hex bs) = addr) (hshows : ShowsData store control payload item) :
    Reports store addr control payload
      (Adapter645.readFrame bs control dom ([item], warnings)) where
  framed := rfl
  sameAddress := ⟨_, List.mem_cons_self, rfl, congrArg PyVal.str haddr⟩
  sameControl := ⟨_, List.mem_cons_of_mem _ List.mem_cons_self, rfl, rfl⟩
  checked := ⟨_, List.mem_cons_of_mem _ (List.mem_cons_of_mem _
    (List.mem_cons_of_mem _ List.mem_cons_self)), rfl, rfl⟩
  sameData := ⟨item, rfl, hshows⟩

/-- A built frame comes back exactly when the third address byte is not `68`, both sides agree
about the bias, and the number in it fits. -/
theorem frame645_roundTrips_iff (build13762 : Params → PyM BuildResult) (store : MetadataStore)
    (addr : String) (haddr : TwelveDigits addr) (control : Byte) (hlow : 1 ≤ (control : ℕ) % 16)
    (hhigh : (control : ℕ) % 16 ≤ 12) (di : Option DataId) (data : Bytes)
    (hlength : (logicalData di data).length ≤ 200) :
    RoundTrips build13762 store addr control di data ↔
      Survives store addr control (logicalData di data) := by
  obtain ⟨bs, hcount, hchars, hbuild⟩ := build_params build13762 control haddr hlength
  set payload := logicalData di data with hpayload
  set dom := biasedData control payload with hdom
  have hdomLength : dom.length = payload.length := biasedData_length payload
  obtain ⟨hread, hrejected⟩ := decode_built store bs dom haddr hcount hchars hlow hhigh
    (by omega)
  have hreduce : RoundTrips build13762 store addr control di data ↔
      ∃ score pf, decode store (.text (upper (hex (wireFrame bs control dom)))) none
        autoConfidenceMin = .ok (.auto "645" score pf) ∧ Reports store addr control payload pf := by
    rw [RoundTrips, hbuild]
    constructor
    · rintro ⟨text, length, hbuilt, h⟩
      have htext : upper (hex (wireFrame bs control dom)) = text :=
        (BuildResult.built.inj hbuilt).2.1
      rw [htext]
      exact h
    · intro h
      exact ⟨_, _, rfl, h⟩
  rw [hreduce]
  by_cases hthird : ThirdIs68 addr
  · obtain ⟨scores, hscores⟩ := hrejected hthird
    rw [hscores]
    constructor
    · rintro ⟨score, pf, h, -⟩
      cases h
    · intro h
      exact absurd hthird h.notThird
  rw [hread hthird, hdomLength, hdom]
  have hshown := data_shown_iff store control payload
  constructor
  · rintro ⟨score, pf, h, hreports⟩
    cases hitems : dataItems store (funcOf control) payload.length
        (Adapter645.readData control (biasedData control payload)) with
    | error e =>
        rw [hitems] at h
        cases h
    | ok body =>
        rw [hitems] at h
        cases h
        obtain ⟨item, hitem, hshows⟩ := hreports.sameData
        obtain ⟨items, warnings⟩ := body
        obtain rfl : items = [item] := hitem
        obtain ⟨hbias, hfits⟩ := hshown.mp ⟨item, warnings, hitems, hshows⟩
        exact ⟨hthird, hbias, hfits⟩
  · intro h
    obtain ⟨item, warnings, hitems, hshows⟩ := hshown.mpr ⟨h.bias, h.fits⟩
    rw [hitems]
    exact ⟨100, _, rfl, reports_readFrame (upper_address hchars haddr.2) hshows⟩

theorem roundTrips_plain :
    RoundTrips (fun _ => .error .indexError) (fun _ _ => none) "123456789012" 0x11
      (some ⟨0x00, 0x01, 0x00, 0x00⟩) [0x68, 0x16, 0x1B] :=
  (frame645_roundTrips_iff (fun _ => .error .indexError) (fun _ _ => none) "123456789012" (by decide +kernel)
    0x11 (by decide) (by decide) (some ⟨0x00, 0x01, 0x00, 0x00⟩) [0x68, 0x16, 0x1B]
    (by decide)).mpr
    { notThird := by decide +kernel
      bias := fun h => absurd h (by decide)
      fits := Or.inr fun _ h => by cases h }

/-- The address `000068000000` is not recognised. -/
theorem third_68_not_recognised :
    ¬ ∀ (build13762 : Params → PyM BuildResult) (store : MetadataStore) (addr : String),
      TwelveDigits addr → ∀ control : Byte, 1 ≤ (control : ℕ) % 16 → (control : ℕ) % 16 ≤ 12 →
        ∀ (di : Option DataId) (data : Bytes), (logicalData di data).length ≤ 200 →
          RoundTrips build13762 store addr control di data := by
  intro hclaim
  have haddr : TwelveDigits "000068000000" := by decide +kernel
  obtain ⟨text, length, hbuilt, score, pf, hdecoded, -⟩ :=
    hclaim (fun _ => .error .indexError) (fun _ _ => none) "000068000000" haddr 0x11 (by decide)
      (by decide) none [] (by decide)
  obtain ⟨bs, hcount, hchars, hbuild⟩ := build_params (fun _ => .error .indexError) 0x11 haddr
    (show (logicalData none []).length ≤ 200 by decide)
  obtain ⟨scores, hscores⟩ := (decode_built (fun _ _ => none) bs
    (biasedData 0x11 (logicalData none [])) haddr hcount hchars (show 1 ≤ (0x11 : Byte).val % 16 by decide)
    (by decide) (by decide)).2 (by decide +kernel)
  have htext := (BuildResult.built.inj (hbuild.symm.trans hbuilt)).2.1
  rw [← htext, hscores] at hdecoded
  cases hdecoded

end RoundTrip

end HplcWorkbench.Facade
