import HplcWorkbench.FrameRoundTrip

/-!
# Building, scanning and decoding a 1376.2 frame

A caller who leaves the module mark and the relay level alone gets its arguments back exactly
when it lists no relay and gives both ends or neither, and when the application data is
readable. A relay list is packed into the address field without being counted in the relay
level, so the decoder takes the second address for the destination and the third for AFN.
-/

namespace HplcWorkbench.Adapter10376
open FrameCodec

/-- The arguments of `build_frame` in range, with the two address flags left to the builder. -/
structure FrameArgs.InDomain (a : FrameArgs) : Prop where
  commMode : a.commMode < 64
  control : packControl a.direction a.prm a.commMode ≠ 0x68
  info : (a.info.fields a.direction).InRange
  moduleId : a.info.moduleId = none
  relayLevel : a.info.relayLevel = none
  src : a.address.src = "" ∨ TwelveDigits a.address.src
  relay : ∀ r ∈ a.address.relay, TwelveDigits r
  relayCount : a.address.relay.length ≤ 15
  dst : a.address.dst = "" ∨ TwelveDigits a.address.dst
  afn : a.afn < 256
  fn : 1 ≤ a.fn ∧ a.fn ≤ 255
  endByte : a.endByte = 0x16
  fits : ∀ frame, buildFrame a = .ok frame → frame.length < 65536

/-- The information fields the caller gave, with the module mark set if there is an address. -/
def FrameArgs.givenInfo (a : FrameArgs) : Info :=
  InfoArg.fields { a.info with
    moduleId := if a.address = {} then none else some 1 } a.direction

/-- The header holds what the caller gave. -/
structure Recovers (a : FrameArgs) (h : Header) : Prop where
  direction : h.ctl.direction = a.direction
  commMode : h.ctl.commMode = a.commMode
  info : h.info = a.givenInfo
  src : h.address.src = a.address.src
  relay : h.address.relay = a.address.relay
  dst : h.address.dst = a.address.dst
  afn : (h.afn : ℕ) = a.afn
  fn : h.fn = a.fn
  appdata : h.appdata = a.appdata
  checksum : h.csOk = true

/-- The built frame is scanned off any stream that starts with it, and decodes to what the
caller gave. -/
def RoundTrips (store : MetadataStore) (a : FrameArgs) : Prop :=
  ∃ frame, buildFrame a = .ok frame ∧
    (∀ s, scanFrame (frame ++ s) = some (frame, frame.length)) ∧
    ∃ h pf, decodeHeader frame = .ok (some h) ∧ Recovers a h ∧ decode store frame = .ok pf ∧
      pf.fields = headerFields h ∧ pf.warnings = []

/-- No relay, and both ends or none. -/
abbrev AddressReadable (addr : AddressArg) : Prop :=
  addr.relay = [] ∧ (addr.src = "" ↔ addr.dst = "")

/-- Neither the walk over the application data nor an embedded frame's decoder raises. -/
def BodyReadable (store : MetadataStore) (a : FrameArgs) : Prop :=
  ∃ body, decodeBody store (byte a.afn) a.fn a.appdata a.direction = .ok body

section Domain
variable {a : FrameArgs}

/-- The address bytes, one block for each part of the address. -/
theorem FrameArgs.InDomain.packed (ha : a.InDomain) :
    ∃ s r d, packAddress a.address = .ok (s ++ r ++ d) ∧ r.length = 6 * a.address.relay.length ∧
      (a.address.src = "" → s = []) ∧
      (a.address.src ≠ "" → s.length = 6 ∧ bcdToStr s = a.address.src) ∧
      (a.address.dst = "" → d = []) ∧
      (a.address.dst ≠ "" → d.length = 6 ∧ bcdToStr d = a.address.dst) := by
  obtain ⟨s, hs, hs0, hs1⟩ := packPart_ok ha.src
  obtain ⟨r, hr, hr0⟩ := packRelays_ok ha.relay
  obtain ⟨d, hd, hd0, hd1⟩ := packPart_ok ha.dst
  refine ⟨s, r, d, ?_, hr0, hs0, hs1, hd0, hd1⟩
  rw [packAddress, hs, hr, hd]
  rfl

theorem FrameArgs.InDomain.buildFrame_eq (ha : a.InDomain) {addrBytes : Bytes}
    (h : packAddress a.address = .ok addrBytes) :
    buildFrame a =
      .ok (linkFrame (packControl a.direction a.prm a.commMode) (userData a addrBytes) 0x16) := by
  rw [buildFrame_of_packed h, ha.endByte]

theorem FrameArgs.InDomain.userData_fits (ha : a.InDomain) {addrBytes : Bytes}
    (h : packAddress a.address = .ok addrBytes) : (userData a addrBytes).length + 6 < 65536 := by
  have hfits := ha.fits _ (ha.buildFrame_eq h)
  rwa [linkFrame_length] at hfits

theorem FrameArgs.InDomain.scanned (ha : a.InDomain) {addrBytes : Bytes}
    (h : packAddress a.address = .ok addrBytes) (s : Bytes) :
    let frame := linkFrame (packControl a.direction a.prm a.commMode) (userData a addrBytes) 0x16
    scanFrame (frame ++ s) = some (frame, frame.length) := by
  have hlong : 4 ≤ (userData a addrBytes).length := by
    rw [userData_length]
    omega
  exact scanFrame_valid (linkFrame_valid ha.control hlong (ha.userData_fits h)) s

/-- Without address bytes no address field is announced, with them two addresses are. -/
theorem FrameArgs.InDomain.addrLen_eq (ha : a.InDomain) (addrBytes : Bytes) :
    addrLen (builtHeader a addrBytes).info = if addrBytes = [] then 0 else 12 := by
  rw [builtHeader_info ha.info]
  have hmodule := ha.moduleId
  have hrelay := ha.relayLevel
  by_cases hb : addrBytes = []
  · rw [markAddress, if_neg (by tauto), if_pos hb]
    cases a.direction <;>
      simp [addrLen, InfoArg.fields, Info.moduleId, hmodule]
  · rw [markAddress, if_pos ⟨hb, hmodule⟩, if_neg hb]
    cases a.direction <;>
      simp [addrLen, InfoArg.fields, Info.moduleId, Info.relayLevel, hrelay]

theorem FrameArgs.InDomain.address_eq (ha : a.InDomain) (addrBytes : Bytes) :
    (builtHeader a addrBytes).address =
      if addrBytes = [] then .absent else parseAddress (slice (userData a addrBytes) 6 18) := by
  have hmodule := ha.moduleId
  have hlen := ha.addrLen_eq addrBytes
  have hinfo : (builtHeader a addrBytes).info =
      (markAddress a.info addrBytes).fields a.direction := builtHeader_info ha.info
  have hdef : (builtHeader a addrBytes).address =
      if (builtHeader a addrBytes).info.moduleId = 1 then
        parseAddress (slice (userData a addrBytes) 6 (6 + addrLen (builtHeader a addrBytes).info))
      else .absent := rfl
  rw [hdef, hlen, hinfo]
  by_cases hb : addrBytes = []
  · have hmark : ((markAddress a.info addrBytes).fields a.direction).moduleId ≠ 1 := by
      rw [markAddress, if_neg (by tauto)]
      cases a.direction <;> simp [InfoArg.fields, Info.moduleId, hmodule]
    rw [if_neg hmark, if_pos hb]
  · have hmark : ((markAddress a.info addrBytes).fields a.direction).moduleId = 1 := by
      rw [markAddress, if_pos ⟨hb, hmodule⟩]
      cases a.direction <;> rfl
    rw [if_pos hmark, if_neg hb, if_neg hb]

theorem FrameArgs.InDomain.decodeHeader_eq (ha : a.InDomain) (addrBytes : Bytes) :
    decodeHeader (linkFrame (packControl a.direction a.prm a.commMode) (userData a addrBytes) 0x16) =
      .ok (if 6 + (if addrBytes = [] then 0 else 12) + 3 > (userData a addrBytes).length then none
        else some (builtHeader a addrBytes)) := by
  rw [← ha.endByte, decodeHeader_built, ha.addrLen_eq]

end Domain

/-! ## Addresses read from twelve bytes -/

theorem bcdToStr_ne_empty {bs : Bytes} (h : bs ≠ []) : bcdToStr bs ≠ "" := by
  obtain ⟨b, rest, rfl⟩ := List.exists_cons_of_ne_nil h
  intro hempty
  have hchars := congrArg String.toList hempty
  have hdigits := Nat.length_toDigits_pos (b := 10) (n := (((b : ℕ) >>> 4) &&& 0xF))
  have hnil : bcdChars (b :: rest) = [] := by simpa [bcdToStr] using hchars
  rw [bcdChars, List.flatMap_cons] at hnil
  simp only [List.append_eq_nil_iff] at hnil
  rw [hnil.1.1] at hdigits
  exact absurd hdigits (by simp)

/-- At most six bytes are a destination and no relay. -/
theorem cutRelays_short {bs : Bytes} (h : bs.length ≤ 6) :
    cutRelays bs = ([], bcdToStr bs) := by
  match bs, h with
  | [], _ => rfl
  | [_], _ => rfl
  | [_, _], _ => rfl
  | [_, _, _], _ => rfl
  | [_, _, _, _], _ => rfl
  | [_, _, _, _, _], _ => rfl
  | [_, _, _, _, _, _], _ => rfl

theorem parseAddress_twelve {bs : Bytes} (hpos : bs ≠ []) (h : bs.length ≤ 12) :
    parseAddress bs = ⟨bcdToStr (bs.take 6), [], bcdToStr (bs.drop 6), true⟩ := by
  have hshort : (bs.drop 6).length ≤ 6 := by
    rw [List.length_drop]
    omega
  have hne : bs.length ≠ 0 := by simpa using hpos
  rw [parseAddress, if_neg hne, cutRelays_short hshort, slice, List.drop_zero]

/-! ## The exact condition -/

section Condition
variable {store : MetadataStore} {a : FrameArgs}

/-- Whenever address bytes are written, the decoder finds a source, a destination and no relay. -/
theorem FrameArgs.InDomain.address_of_bytes (ha : a.InDomain) {addrBytes : Bytes}
    (hlong : 6 ≤ addrBytes.length) :
    (builtHeader a addrBytes).address.src ≠ "" ∧ (builtHeader a addrBytes).address.relay = [] ∧
      (builtHeader a addrBytes).address.dst ≠ "" := by
  have hb : addrBytes ≠ [] := by
    rintro rfl
    simp at hlong
  have hlen := userData_length a addrBytes
  have hcount : (slice (userData a addrBytes) 6 18).length =
      min 18 (userData a addrBytes).length - 6 := slice_length
  have hpos : slice (userData a addrBytes) 6 18 ≠ [] := by
    intro hnil
    rw [hnil, List.length_nil] at hcount
    omega
  rw [ha.address_eq, if_neg hb, parseAddress_twelve hpos (by omega)]
  refine ⟨bcdToStr_ne_empty ?_, rfl, bcdToStr_ne_empty ?_⟩
  · intro hnil
    have htake := congrArg List.length hnil
    rw [List.length_take, List.length_nil] at htake
    omega
  · intro hnil
    have hdrop := congrArg List.length hnil
    rw [List.length_drop, List.length_nil] at hdrop
    omega

theorem addressReadable_of_recovers (ha : a.InDomain) {addrBytes : Bytes}
    (hpack : packAddress a.address = .ok addrBytes) (h : Recovers a (builtHeader a addrBytes)) :
    AddressReadable a.address := by
  obtain ⟨s, r, d, hbytes, hr, hs0, hs1, hd0, hd1⟩ := ha.packed
  obtain rfl : s ++ r ++ d = addrBytes := Except.ok.inj (hbytes.symm.trans hpack)
  by_cases hlong : 6 ≤ (s ++ r ++ d).length
  · obtain ⟨hsrc, hrelay, hdst⟩ := ha.address_of_bytes hlong
    rw [h.src] at hsrc
    rw [h.relay] at hrelay
    rw [h.dst] at hdst
    exact ⟨hrelay, iff_of_false hsrc hdst⟩
  · simp only [List.length_append] at hlong
    have hsrc : a.address.src = "" := by
      by_contra hne
      have := (hs1 hne).1
      omega
    have hdst : a.address.dst = "" := by
      by_contra hne
      have := (hd1 hne).1
      omega
    refine ⟨List.length_eq_zero_iff.mp (by omega), iff_of_true hsrc hdst⟩

/-- All but the address is recovered once the decoder is in step with the builder. -/
theorem recovers_in_step (ha : a.InDomain) {addrBytes : Bytes}
    (hstep : (if addrBytes = [] then 0 else 12) = addrBytes.length)
    (hinfo : (markAddress a.info addrBytes).fields a.direction = a.givenInfo)
    (hsrc : (builtHeader a addrBytes).address.src = a.address.src)
    (hrelay : (builtHeader a addrBytes).address.relay = a.address.relay)
    (hdst : (builtHeader a addrBytes).address.dst = a.address.dst) :
    Recovers a (builtHeader a addrBytes) := by
  have hctl := parseControl_packControl a.direction a.prm ha.commMode
  obtain ⟨_, hafn, hdt1, hdt2, happ⟩ :=
    builtHeader_in_step ((ha.addrLen_eq addrBytes).trans hstep)
  have hfn : (builtHeader a addrBytes).fn =
      dtToFn (builtHeader a addrBytes).dt1 (builtHeader a addrBytes).dt2 := rfl
  refine ⟨congrArg Control.direction hctl, congrArg Control.commMode hctl,
    (builtHeader_info ha.info).trans hinfo, hsrc, hrelay, hdst, ?_, ?_, happ, builtHeader_csOk _ _⟩
  · have hlt := ha.afn
    rw [hafn, BitFields.and_mask8, byte_val]
    omega
  · rw [hfn, hdt1, hdt2, dtToFn_fnToDt ha.fn.1 ha.fn.2]

theorem recovers_without_address (ha : a.InDomain) (h : a.address = {}) :
    Recovers a (builtHeader a []) := by
  have haddress := ha.address_eq []
  rw [if_pos rfl] at haddress
  apply recovers_in_step ha rfl
  · have hmodule := ha.moduleId
    rw [FrameArgs.givenInfo, if_pos h, markAddress, if_neg (by simp), ← hmodule]
  · rw [haddress, h]
    rfl
  · rw [haddress, h]
    rfl
  · rw [haddress, h]
    rfl

theorem recovers_with_ends (ha : a.InDomain) {s d : Bytes} (hs : s.length = 6) (hd : d.length = 6)
    (hsrc : bcdToStr s = a.address.src) (hdst : bcdToStr d = a.address.dst)
    (hrelay : a.address.relay = []) (hgiven : a.address ≠ {}) :
    Recovers a (builtHeader a (s ++ d)) := by
  have hne : s ++ d ≠ [] := by
    intro hnil
    have hcount := congrArg List.length hnil
    simp only [List.length_append, List.length_nil] at hcount
    omega
  have htwelve : (s ++ d).length = 12 := by
    rw [List.length_append, hs, hd]
  have hslice : slice (userData a (s ++ d)) 6 18 = s ++ d := by
    rw [slice, List.drop_take, drop_userData]
    exact List.take_left' htwelve
  have haddress := ha.address_eq (s ++ d)
  rw [if_neg hne, hslice, parseAddress_twelve hne htwelve.le, List.take_left' hs,
    List.drop_left' hs, hsrc, hdst] at haddress
  apply recovers_in_step ha
  · rw [if_neg hne, htwelve]
  · rw [FrameArgs.givenInfo, if_neg hgiven, markAddress, if_pos ⟨hne, ha.moduleId⟩]
  · rw [haddress]
  · rw [haddress, hrelay]
  · rw [haddress]

theorem recovers_of_readable (ha : a.InDomain) (hread : AddressReadable a.address)
    {addrBytes : Bytes} (hpack : packAddress a.address = .ok addrBytes) :
    Recovers a (builtHeader a addrBytes) ∧
      ¬ 6 + (if addrBytes = [] then 0 else 12) + 3 > (userData a addrBytes).length := by
  obtain ⟨s, r, d, hbytes, hr, hs0, hs1, hd0, hd1⟩ := ha.packed
  obtain rfl : s ++ r ++ d = addrBytes := Except.ok.inj (hbytes.symm.trans hpack)
  obtain ⟨hrelay, hends⟩ := hread
  obtain rfl : r = [] := by
    apply List.length_eq_zero_iff.mp
    rw [hr, hrelay]
    rfl
  rw [List.append_nil]
  have hlen := userData_length a (s ++ d)
  by_cases hsrc : a.address.src = ""
  · have hdst := hends.mp hsrc
    have hempty : a.address = {} := by
      cases hcase : a.address
      simp_all
    obtain rfl := hs0 hsrc
    obtain rfl := hd0 hdst
    refine ⟨recovers_without_address ha hempty, ?_⟩
    rw [hlen, List.append_nil, if_pos rfl, List.length_nil]
    omega
  · have hdst : a.address.dst ≠ "" := fun he => hsrc (hends.mpr he)
    obtain ⟨hslen, hstext⟩ := hs1 hsrc
    obtain ⟨hdlen, hdtext⟩ := hd1 hdst
    have hgiven : a.address ≠ {} := fun he => hsrc (congrArg AddressArg.src he)
    refine ⟨recovers_with_ends ha hslen hdlen hstext hdtext hrelay hgiven, ?_⟩
    rw [hlen, List.length_append]
    split_ifs <;> omega

theorem roundTrips_iff (store : MetadataStore) (a : FrameArgs) (ha : a.InDomain) :
    RoundTrips store a ↔ AddressReadable a.address ∧ BodyReadable store a := by
  obtain ⟨s, r, d, hpack, _⟩ := ha.packed
  have hframe := ha.buildFrame_eq hpack
  have hheader := ha.decodeHeader_eq (s ++ r ++ d)
  have hbody : ∀ h, Recovers a h →
      decodeBody store h.afn h.fn h.appdata h.ctl.direction =
        decodeBody store (byte a.afn) a.fn a.appdata a.direction := by
    intro h hr
    rw [hr.fn, hr.appdata, hr.direction, ← hr.afn, byte_of_val]
  constructor
  · rintro ⟨frame, hbuilt, _, h, pf, hdecoded, hr, hpf, _⟩
    obtain rfl := Except.ok.inj (hbuilt.symm.trans hframe)
    have hsome := Except.ok.inj (hdecoded.symm.trans hheader)
    by_cases hshort : 6 + (if s ++ r ++ d = [] then 0 else 12) + 3 >
        (userData a (s ++ r ++ d)).length
    · rw [if_pos hshort] at hsome
      cases hsome
    rw [if_neg hshort] at hsome
    obtain rfl := Option.some.inj hsome
    obtain ⟨body, hb⟩ := body_of_decode hdecoded hpf
    rw [hbody _ hr] at hb
    exact ⟨addressReadable_of_recovers ha hpack hr, body, hb⟩
  · rintro ⟨haddr, body, hb⟩
    obtain ⟨hr, hfits⟩ := recovers_of_readable ha haddr hpack
    rw [if_neg hfits] at hheader
    have hdecode := decode_of_body hheader ((hbody _ hr).trans hb)
    refine ⟨_, hframe, ha.scanned hpack, _, _, hheader, hr, hdecode, rfl, ?_⟩
    exact if_pos hr.checksum

end Condition

/-- A query to meter 3 from node 1, without and with node 2 as relay. -/
def directArgs : FrameArgs where
  address := ⟨"000000000001", [], "000000000003"⟩

def relayedArgs : FrameArgs where
  address := ⟨"000000000001", ["000000000002"], "000000000003"⟩

def directFrame : Bytes :=
  [0x68, 0x1B, 0x00, 0x43, 0x02, 0, 0, 0, 0, 0, 0, 0, 0, 0, 0, 1, 0, 0, 0, 0, 0, 3, 0x03, 0x01, 0x00,
    0x4D, 0x16]

def relayedFrame : Bytes :=
  [0x68, 0x21, 0x00, 0x43, 0x02, 0, 0, 0, 0, 0, 0, 0, 0, 0, 0, 1, 0, 0, 0, 0, 0, 2, 0, 0, 0, 0, 0, 3,
    0x03, 0x01, 0x00, 0x4F, 0x16]

theorem buildFrame_directArgs : buildFrame directArgs = .ok directFrame := by decide

theorem buildFrame_relayedArgs : buildFrame relayedArgs = .ok relayedFrame := by decide

theorem fits_of_built {a : FrameArgs} {frame : Bytes} (hbuilt : buildFrame a = .ok frame)
    (hlen : frame.length < 65536) : ∀ f, buildFrame a = .ok f → f.length < 65536 := by
  intro f hf
  obtain rfl := Except.ok.inj (hbuilt.symm.trans hf)
  exact hlen

theorem directArgs_inDomain : directArgs.InDomain where
  commMode := by decide
  control := by decide
  info := by
    change _ ∧ _
    decide
  moduleId := rfl
  relayLevel := rfl
  src := Or.inr (by decide)
  relay := by decide
  relayCount := by decide
  dst := Or.inr (by decide)
  afn := by decide
  fn := by decide
  endByte := rfl
  fits := fits_of_built buildFrame_directArgs (by decide)

theorem relayedArgs_inDomain : relayedArgs.InDomain where
  commMode := by decide
  control := by decide
  info := by
    change _ ∧ _
    decide
  moduleId := rfl
  relayLevel := rfl
  src := Or.inr (by decide)
  relay := by decide
  relayCount := by decide
  dst := Or.inr (by decide)
  afn := by decide
  fn := by decide
  endByte := rfl
  fits := fits_of_built buildFrame_relayedArgs (by decide)

theorem direct_frame_round_trips : RoundTrips (fun _ _ => none) directArgs :=
  (roundTrips_iff _ directArgs directArgs_inDomain).mpr
    ⟨by decide, _, if_pos rfl⟩

/-- The relay is packed but not counted, so the decoder reads it as the destination. -/
theorem relay_not_recovered :
    ¬ ∀ (store : MetadataStore) (a : FrameArgs), a.InDomain → RoundTrips store a := by
  intro hall
  obtain ⟨frame, hbuilt, _, h, _, hheader, hr, _⟩ :=
    hall (fun _ _ => none) relayedArgs relayedArgs_inDomain
  obtain rfl := Except.ok.inj (buildFrame_relayedArgs.symm.trans hbuilt)
  have hrelays : (decodeHeader relayedFrame).map (Option.map (fun h => h.address.relay)) =
      .ok (some []) := by decide
  rw [hheader] at hrelays
  have hnone : h.address.relay = [] := Option.some.inj (Except.ok.inj hrelays)
  exact absurd (hr.relay.symm.trans hnone) (by decide)

end HplcWorkbench.Adapter10376
