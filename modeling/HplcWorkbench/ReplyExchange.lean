import HplcWorkbench.AutoReply
import HplcWorkbench.HexReading
import HplcWorkbench.TransitionSystems

/-!
# Replies to replies

Two stations on a line answer each other's frames. The built-in table confirms confirmations, so that
between two stations with this table a confirmation is never the last frame. The rules of an open line
fit no reply, so that an exchange with it ends.
-/

namespace HplcWorkbench.AutoReply

open Adapter10376 Transitions
open FrameCodec (fieldOf lowByte buildLocalFrame)
open Batch (intField)

/-! ## Frames that are decoded -/

section Decoded
variable {store : MetadataStore} {raw : Bytes} {h : Header} {decoded : ProtocolFrame}

theorem intField_of_decode (hheader : decodeHeader raw = .ok (some h))
    (hdecode : decode store raw = .ok decoded) :
    intField decoded "AFN" = some ((h.afn : ℕ) : ℤ) ∧ intField decoded "FN" = some (h.fn : ℤ) := by
  have hfields := (fields_of_decode hheader hdecode).1
  have hafn := afn_field h
  have hfn := fn_field h
  rw [← hfields] at hafn hfn
  exact ⟨by rw [intField, hafn], by rw [intField, hfn]⟩

/-- A frame without AFN is decoded without fields. -/
theorem intField_of_short (hheader : decodeHeader raw = .ok none)
    (hdecode : decode store raw = .ok decoded) (name : String) : intField decoded name = none := by
  rw [decode, hheader] at hdecode
  obtain rfl := Except.ok.inj hdecode
  rfl

theorem header_of_decode (hdecode : decode store raw = .ok decoded) :
    ∃ header, decodeHeader raw = .ok header := by
  obtain ⟨header, hheader, -⟩ := bind_eq_ok hdecode
  exact ⟨header, hheader⟩

/-- The entry of a table for an AFN and a Fn. -/
def entryFor (table : List Entry) (afn : Byte) (fn : ℕ) : Option Entry :=
  table.find? fun e => ((afn : ℕ) : ℤ) = e.afn && e.fn.all fun n => (fn : ℤ) = n

theorem find_table (table : List Entry) (hheader : decodeHeader raw = .ok (some h))
    (hdecode : decode store raw = .ok decoded) :
    (table.find? fun e => e.fits decoded) = entryFor table h.afn h.fn := by
  obtain ⟨hafn, hfn⟩ := intField_of_decode hheader hdecode
  unfold entryFor Entry.fits
  rw [hafn, hfn]
  simp only [Option.some.injEq]

theorem find_short (table : List Entry) (hheader : decodeHeader raw = .ok none)
    (hdecode : decode store raw = .ok decoded) :
    (table.find? fun e => e.fits decoded) = none := by
  have hafn := intField_of_short hheader hdecode "AFN"
  rw [List.find?_eq_none]
  intro e _
  simp [Entry.fits, hafn]

end Decoded

/-! ## The frames that are sent back -/

/-- The confirmation in the local format, 00H-F1 with the number 1. -/
def confirmFrame : Bytes :=
  [0x68, 0x0F, 0x00, 0x43, 0, 0, 0, 0, 0, 0x01, 0x00, 0x01, 0x00, 0x45, 0x16]

theorem localConfirm_built (now : Clock) (decoded : ProtocolFrame) (rule : ReplyRule)
    (hrule : rule.reply = localConfirm) (seqOverride : Option ℕ) :
    buildReply now decoded rule seqOverride = .ok confirmFrame := by
  rw [buildReply, hrule]
  rfl

theorem length_pairsToBytes {digits : List Char} {bs : Bytes} (h : pairsToBytes digits = .ok bs) :
    digits.length = 2 * bs.length := by
  induction digits using pairsToBytes.induct generalizing bs with
  | case1 hi lo rest x y hhi hlo ih =>
      rw [pairsToBytes, hhi, hlo] at h
      obtain ⟨more, hmore, hrest⟩ := bind_eq_ok h
      obtain rfl := Except.ok.inj hrest
      rw [List.length_cons, List.length_cons, List.length_cons, ih hmore]
      omega
  | case2 hi lo rest hnone =>
      rw [pairsToBytes] at h
      split at h
      · next x y hhi hlo => exact absurd hlo (hnone x y hhi)
      · cases h
  | case3 c => cases h
  | case4 =>
      obtain rfl := Except.ok.inj h
      rfl

/-- Whatever text is packed as an address, it takes six bytes. -/
theorem length_strToBcd {s : String} {bs : Bytes} (h : strToBcd s 6 = .ok bs) : bs.length = 6 := by
  have hcount := length_pairsToBytes h
  rw [List.length_take, List.length_append, List.length_replicate] at hcount
  omega

theorem length_packPart {s : String} (hs : s ≠ "") {bs : Bytes} (h : packPart s = .ok bs) :
    bs.length = 6 := by
  rw [packPart, if_pos hs] at h
  exact length_strToBcd h

/-- A reply has two addresses or none. -/
theorem replyAddress_packed {decoded : ProtocolFrame} {addrBytes : Bytes}
    (h : packAddress (replyAddress decoded) = .ok addrBytes) :
    addrBytes = [] ∨ addrBytes.length = 12 := by
  have hnone : packAddress {} = .ok addrBytes → addrBytes = [] := by
    intro hempty
    exact (Except.ok.inj hempty).symm
  have htext : ∀ cs : List Char, cs.length ≥ 12 → String.ofList (cs.take 12) ≠ "" := by
    intro cs hcs hempty
    have hlist := congrArg (fun s : String => s.toList.length) hempty
    simp only [String.toList_ofList, List.length_take, String.toList_empty, List.length_nil] at hlist
    omega
  unfold replyAddress at h
  cases hvalue : (fieldOf decoded.fields "地址域A").map DataField.value with
  | none =>
      rw [hvalue] at h
      exact Or.inl (hnone h)
  | some v =>
      rw [hvalue] at h
      cases v with
      | str s =>
          dsimp only at h
          split_ifs at h with hgiven
          · obtain ⟨-, -, hlong⟩ := hgiven
            obtain ⟨src, hsrc, hmore⟩ := bind_eq_ok h
            obtain ⟨relay, hrelay, hlast⟩ := bind_eq_ok hmore
            obtain ⟨dst, hdst, hall⟩ := bind_eq_ok hlast
            obtain rfl := Except.ok.inj hall
            obtain rfl := Except.ok.inj hrelay
            have hsrclen := length_packPart (htext s.toList (by omega)) hsrc
            have hdstlen := by
              rw [List.drop_take] at hdst
              exact length_packPart (htext (s.toList.drop 12) (by rw [List.length_drop]; omega)) hdst
            refine Or.inr ?_
            rw [List.append_nil, List.length_append, hsrclen, hdstlen]
          · exact Or.inl (hnone h)
      | none => exact Or.inl (hnone h)
      | bool b => exact Or.inl (hnone h)
      | int n => exact Or.inl (hnone h)
      | scaled m k => exact Or.inl (hnone h)
      | list items => exact Or.inl (hnone h)
      | dict entries => exact Or.inl (hnone h)

/-! ## Addresses that are sent back -/

theorem take_hexChars (n : ℕ) (data : Bytes) :
    (hexChars data).take (2 * n) = hexChars (data.take n) := by
  induction n generalizing data with
  | zero => rfl
  | succ n ih =>
      cases data with
      | nil => rfl
      | cons b data =>
          rw [hexChars_cons, List.take_succ_cons, hexChars_cons, ← ih data]
          rfl

theorem drop_hexChars (n : ℕ) (data : Bytes) :
    (hexChars data).drop (2 * n) = hexChars (data.drop n) := by
  induction n generalizing data with
  | zero => rfl
  | succ n ih =>
      cases data with
      | nil => rfl
      | cons b data =>
          rw [hexChars_cons, List.drop_succ_cons, ← ih data]
          rfl

theorem pairsToBytes_hexChars (data : Bytes) : pairsToBytes (hexChars data) = .ok data := by
  induction data with
  | nil => rfl
  | cons b data ih =>
      have hhi : (b : ℕ) / 16 < 16 := by omega
      have hlo : (b : ℕ) % 16 < 16 := by omega
      have hjoin : byte (((b : ℕ) / 16) <<< 4 ||| (b : ℕ) % 16) = b := by
        have hsum : (b : ℕ) / 16 * 2 ^ 4 + (b : ℕ) % 16 = b := by omega
        rw [BitFields.shiftLeft_or _ hlo, hsum, byte_of_val]
      rw [hexChars_cons]
      simp only [pairsToBytes, hexDigitValue_lower hhi, hexDigitValue_lower hlo, ih, hjoin]
      rfl

theorem strToBcd_hexChars {data : Bytes} (h : data.length = 6) :
    strToBcd (String.ofList (hexChars data)) 6 = .ok data := by
  have hplain : ∀ c ∈ hexChars data, PlainDigit c := by
    intro c hc
    rw [hexChars, List.mem_flatMap] at hc
    obtain ⟨b, -, hb⟩ := hc
    rcases List.mem_cons.mp hb with rfl | hb
    · exact plainDigit_lower (by omega)
    · obtain rfl := List.mem_singleton.mp hb
      exact plainDigit_lower (by omega)
  have hstrip : pyStrip (hexChars data) = hexChars data :=
    pyStrip_eq_self fun c hc => (hplain c hc).noSpace
  have hfilter : (hexChars data).filter (· ≠ '-') = hexChars data := by
    rw [List.filter_eq_self]
    intro c hc
    simpa using (hplain c hc).noSign.1
  have hcount : (hexChars data).length = 12 := by rw [hexChars_length, h]
  unfold strToBcd
  simp only [String.toList_ofList, hstrip, hfilter, hcount, Nat.reduceMul, Nat.sub_self,
    List.replicate_zero, List.nil_append]
  rw [List.take_of_length_le (by omega)]
  exact pairsToBytes_hexChars data

/-- A reply goes back with the first two addresses of the frame. -/
theorem packAddress_reply {store : MetadataStore} {raw : Bytes} {h : Header} {decoded : ProtocolFrame}
    (hheader : decodeHeader raw = .ok (some h)) (hdecode : decode store raw = .ok decoded) :
    packAddress (replyAddress decoded) =
      .ok (if 12 ≤ h.addrRaw.length then h.addrRaw.take 12 else []) := by
  have hvalue : (fieldOf decoded.fields "地址域A").map DataField.value =
      some (.str (if h.addrRaw ≠ [] then h.addrHex else "(无)")) := by
    rw [(fields_of_decode hheader hdecode).1]
    simp [fieldOf, headerFields]
  unfold replyAddress
  rw [hvalue]
  dsimp only
  by_cases hlong : 12 ≤ h.addrRaw.length
  · have hne : h.addrRaw ≠ [] := by
      intro hnil
      rw [hnil] at hlong
      cases hlong
    have htext : h.addrHex.toList = hexChars h.addrRaw := toList_hex _
    have hcount : (hexChars h.addrRaw).length ≥ 24 := by
      rw [hexChars_length]
      omega
    have hgiven : h.addrHex ≠ "" ∧ h.addrHex ≠ "(无)" := by
      constructor <;>
      · intro heq
        rw [← htext, heq] at hcount
        simp at hcount
    rw [if_pos hne, htext, if_pos ⟨hgiven.1, hgiven.2, hcount⟩, if_pos hlong]
    have hsrc : (hexChars h.addrRaw).take 12 = hexChars (h.addrRaw.take 6) := take_hexChars 6 _
    have hdst : ((hexChars h.addrRaw).take 24).drop 12 = hexChars ((h.addrRaw.take 12).drop 6) := by
      rw [show (24 : ℕ) = 2 * 12 from rfl, take_hexChars, show (12 : ℕ) = 2 * 6 from rfl,
        drop_hexChars]
    have hpart : ∀ part : Bytes, part.length = 6 →
        packPart (String.ofList (hexChars part)) = .ok part := by
      intro part hpart
      have hnonempty : String.ofList (hexChars part) ≠ "" := by
        intro heq
        have hlist := congrArg (fun s : String => s.toList.length) heq
        simp only [String.toList_ofList, hexChars_length, hpart, String.toList_empty,
          List.length_nil] at hlist
        omega
      rw [packPart, if_pos hnonempty, strToBcd_hexChars hpart]
    have hjoin : h.addrRaw.take 6 ++ (h.addrRaw.take 12).drop 6 = h.addrRaw.take 12 := by
      conv_rhs => rw [← List.take_append_drop 6 (h.addrRaw.take 12), List.take_take]
      rfl
    rw [packAddress, hsrc, hdst, hpart _ (by rw [List.length_take]; omega),
      hpart _ (by rw [List.length_drop, List.length_take]; omega)]
    simp only [packRelays, bind, Except.bind, pure, Except.pure, List.append_nil, hjoin]
  · have hshort : ¬ ((if h.addrRaw ≠ [] then h.addrHex else "(无)") ≠ "" ∧
        (if h.addrRaw ≠ [] then h.addrHex else "(无)") ≠ "(无)" ∧
        (if h.addrRaw ≠ [] then h.addrHex else "(无)").toList.length ≥ 24) := by
      rintro ⟨-, -, hcount⟩
      split_ifs at hcount with hne
      · have htext : h.addrHex.toList = hexChars h.addrRaw := toList_hex _
        rw [htext, hexChars_length] at hcount
        omega
      · simp at hcount
    rw [if_neg hshort, if_neg hlong]
    rfl

/-- The header that is read from a reply in the standard format. -/
theorem decodeHeader_reply {a : FrameArgs} {addrBytes : Bytes} (hdir : a.direction = .down)
    (hinfo : ∃ seq, a.info = { seq := seq } ∧ seq.getD 0 < 256)
    (haddr : addrBytes = [] ∨ addrBytes.length = 12) :
    ∃ h, decodeHeader (linkFrame (packControl a.direction a.prm a.commMode) (userData a addrBytes)
        a.endByte) = .ok (some h) ∧ h.afn = byte (a.afn &&& 0xFF) ∧
      h.fn = dtToFn (fnToDt a.fn).1 (fnToDt a.fn).2 ∧ h.appdata = a.appdata := by
  obtain ⟨seq, hseq, hlt⟩ := hinfo
  have hrange : (a.info.fields a.direction).InRange := by
    rw [hdir, hseq]
    simp only [InfoArg.fields, Info.InRange, DownInfo.InRange, Option.getD_none]
    omega
  have hcount : addrLen (builtHeader a addrBytes).info = addrBytes.length := by
    rw [builtHeader_info hrange, hdir, hseq, markAddress]
    rcases haddr with rfl | hlen
    · rfl
    · have hne : addrBytes ≠ [] := by
        rintro rfl
        cases hlen
      rw [if_pos ⟨hne, rfl⟩, hlen]
      rfl
  obtain ⟨-, hafn, hdt1, hdt2, happ⟩ := builtHeader_in_step hcount
  refine ⟨builtHeader a addrBytes, ?_, hafn, ?_, happ⟩
  · rw [decodeHeader_built, hcount, if_neg]
    rw [userData_length]
    omega
  · have hfn : (builtHeader a addrBytes).fn =
        dtToFn (builtHeader a addrBytes).dt1 (builtHeader a addrBytes).dt2 := rfl
    rw [hfn, hdt1, hdt2]

theorem standard_reply {now : Clock} {decoded : ProtocolFrame} {rule : ReplyRule} {reply : Bytes}
    (afn fn : ℤ) (hformat : localFormat rule.reply = false)
    (hafn : normAfn (rule.reply.getD "afn" (.int 0)) = .ok (some afn))
    (hfn : (rule.reply.getD "fn" (.int 1)).toInt = .ok fn)
    (h : buildReply now decoded rule none = .ok reply) :
    ∃ header, decodeHeader reply = .ok (some header) ∧ header.afn = byte (lowByte afn &&& 0xFF) ∧
      header.fn = dtToFn (fnToDt (lowByte fn)).1 (fnToDt (lowByte fn)).2 := by
  rw [buildReply, hformat, if_neg Bool.false_ne_true] at h
  obtain ⟨info, hinfo, hafter⟩ := bind_eq_ok h
  rw [hafn, hfn] at hafter
  obtain ⟨userdata, -, hframe⟩ := bind_eq_ok (x := replyData now rule.reply decoded) hafter
  obtain ⟨addrBytes, haddr, hlink⟩ :=
    bind_eq_ok (x := packAddress (replyAddress decoded)) hframe
  obtain rfl := Except.ok.inj hlink
  have hnumbered : ∃ seq, (if info = none then {} else { seq := some (messageNumber info) } : InfoArg) =
      { seq := seq } ∧ seq.getD 0 < 256 := by
    cases info with
    | none => exact ⟨none, rfl, by decide⟩
    | some bs => exact ⟨_, rfl, messageNumber_lt (some bs)⟩
  obtain ⟨header, hheader, hread, hnumber, -⟩ := decodeHeader_reply (a := {
      direction := .down
      info := if info = none then {} else { seq := some (messageNumber info) }
      address := replyAddress decoded
      afn := lowByte afn
      fn := lowByte fn
      appdata := userdata }) rfl hnumbered (replyAddress_packed haddr)
  exact ⟨header, hheader, hread, hnumber⟩

/-! ## Confirmations -/

/-- AFN and Fn that the built-in table answers with 00H-F1. -/
def asksConfirmation (afn : Byte) (fn : ℕ) : Bool :=
  afn = 0x00 || afn = 0x01 || (afn = 0x03 && fn = 10) || (afn = 0x06 && (fn = 3 || fn = 230))

/-- A frame that can be decoded and that the built-in table answers with 00H-F1. -/
def provokes (store : MetadataStore) (raw : Bytes) : Bool :=
  match decodeHeader raw with
  | .ok (some h) => asksConfirmation h.afn h.fn && (decode store raw).isOk
  | _ => false

section Confirmations
variable {store : MetadataStore} {raw reply : Bytes} {h : Header}

theorem provokes_iff : provokes store raw = true ↔ ∃ h decoded, decodeHeader raw = .ok (some h) ∧
    asksConfirmation h.afn h.fn = true ∧ decode store raw = .ok decoded := by
  unfold provokes
  constructor
  · intro hprovokes
    split at hprovokes
    · next h hheader =>
        rw [Bool.and_eq_true] at hprovokes
        obtain ⟨hasks, hok⟩ := hprovokes
        cases hdecode : decode store raw with
        | error e =>
            rw [hdecode] at hok
            cases hok
        | ok decoded => exact ⟨h, decoded, hheader, hasks, rfl⟩
    · cases hprovokes
  · rintro ⟨h, decoded, hheader, hasks, hdecode⟩
    rw [hheader, hdecode]
    simp [hasks, Except.isOk, Except.toBool]

/-- A frame with AFN 00H is decoded whatever its data. -/
theorem provokes_of_afn (hheader : decodeHeader raw = .ok (some h)) (hafn : h.afn = 0x00) :
    provokes store raw = true := by
  have hbody : ∃ body, decodeBody store h.afn h.fn h.appdata h.ctl.direction = .ok body := by
    have hitems : appItems 0x00 h.fn h.appdata h.ctl.direction = .ok (items00 h.fn h.appdata) := rfl
    rw [decodeBody, hafn, hitems]
    by_cases hempty : h.appdata = []
    · exact ⟨_, if_pos hempty⟩
    · exact ⟨(items00 h.fn h.appdata, []), if_neg hempty⟩
  obtain ⟨body, hbody⟩ := hbody
  refine provokes_iff.mpr ⟨h, _, hheader, ?_, decode_of_body hheader hbody⟩
  simp [asksConfirmation, hafn]

theorem provokes_confirmFrame : provokes store confirmFrame = true := by
  have hheader : ∃ h, decodeHeader confirmFrame = .ok (some h) ∧ h.afn = 0x00 := ⟨_, rfl, rfl⟩
  obtain ⟨h, hheader, hafn⟩ := hheader
  exact provokes_of_afn hheader hafn

/-- The reply is built from the entry of the table. -/
theorem answer_eq (overrides table : List Entry) (now : Clock) {decoded : ProtocolFrame}
    (hheader : decodeHeader raw = .ok (some h)) (hdecode : decode store raw = .ok decoded) :
    (Responder.mk (overrides.map Entry.rule) (table.map Entry.rule)).answer store now raw =
      (entryFor (overrides ++ table) h.afn h.fn).bind fun e =>
        (buildReply now decoded e.rule none).toOption := by
  rw [Responder.answer, Responder.replyFor, hdecode]
  dsimp only
  rw [Responder.find, ← List.map_append, firstMatch_table, find_table _ hheader hdecode]
  cases entryFor (overrides ++ table) h.afn h.fn with
  | none => rfl
  | some e =>
      simp only [Option.map_some, bind, Except.bind, Option.bind_some]
      cases buildReply now decoded e.rule none <;> rfl

/-- What is answered has a header, and the table has an entry for it. -/
theorem answer_some (overrides table : List Entry) {now : Clock}
    (hanswer : (Responder.mk (overrides.map Entry.rule) (table.map Entry.rule)).answer store now raw =
      some reply) :
    ∃ h decoded e, decodeHeader raw = .ok (some h) ∧ decode store raw = .ok decoded ∧
      entryFor (overrides ++ table) h.afn h.fn = some e ∧
      buildReply now decoded e.rule none = .ok reply := by
  cases hdecode : decode store raw with
  | error e =>
      rw [Responder.answer, Responder.replyFor, hdecode] at hanswer
      cases hanswer
  | ok decoded =>
      obtain ⟨header, hheader⟩ := header_of_decode hdecode
      cases header with
      | none =>
          rw [Responder.answer, Responder.replyFor, hdecode] at hanswer
          dsimp only at hanswer
          rw [Responder.find, ← List.map_append, firstMatch_table, find_short _ hheader hdecode]
            at hanswer
          cases hanswer
      | some h =>
          rw [answer_eq overrides table now hheader hdecode] at hanswer
          obtain ⟨e, hentry, hbuilt⟩ := Option.bind_eq_some_iff.mp hanswer
          refine ⟨h, decoded, e, hheader, rfl, hentry, ?_⟩
          cases hresult : buildReply now decoded e.rule none with
          | error e =>
              rw [hresult] at hbuilt
              cases hbuilt
          | ok frame =>
              rw [hresult] at hbuilt
              exact congrArg Except.ok (Option.some.inj hbuilt)

theorem infoBytes_of_decode {decoded : ProtocolFrame} (hheader : decodeHeader raw = .ok (some h))
    (hdecode : decode store raw = .ok decoded) : ∃ info, infoBytes decoded = .ok info := by
  have hfield : (fieldOf decoded.fields "信息域R").map DataField.raw = some (.str (hex h.infoRaw)) := by
    rw [(fields_of_decode hheader hdecode).1]
    simp [fieldOf, headerFields]
  unfold infoBytes
  rw [hfield]
  dsimp only
  by_cases hempty : hex h.infoRaw = ""
  · exact ⟨none, if_pos hempty⟩
  · refine ⟨some h.infoRaw, ?_⟩
    rw [if_neg hempty, fromHex_hex]
    rfl

/-- A confirmation in the standard format can be built for every frame. -/
theorem confirmReply_built {decoded : ProtocolFrame} (rule : ReplyRule) (now : Clock)
    (hrule : rule.reply = confirmReply) (hheader : decodeHeader raw = .ok (some h))
    (hdecode : decode store raw = .ok decoded) :
    ∃ reply, buildReply now decoded rule none = .ok reply := by
  obtain ⟨info, hinfo⟩ := infoBytes_of_decode hheader hdecode
  have hstandard : localFormat confirmReply = false := by decide
  have hafn : normAfn (confirmReply.getD "afn" (.int 0)) = .ok (some 0) := rfl
  have hfn : (confirmReply.getD "fn" (.int 1)).toInt = .ok 1 := rfl
  have hdata : replyData now confirmReply decoded = .ok [0x00] := rfl
  rw [buildReply, hrule, hstandard, if_neg Bool.false_ne_true, hinfo]
  simp only [bind, Except.bind, hafn, hfn, hdata, needAfn, pure, Except.pure]
  exact ⟨_, buildFrame_of_packed (packAddress_reply hheader hdecode)⟩

/-- Such a frame is answered with a confirmation, which is such a frame itself. -/
theorem builtin_confirms (now : Clock) (h : provokes store raw = true) :
    ∃ reply, builtin.answer store now raw = some reply ∧ provokes store reply = true := by
  obtain ⟨h, decoded, hheader, hasks, hdecode⟩ := provokes_iff.mp h
  have hanswer := answer_eq [] builtinTable now hheader hdecode
  have hlocal : ∀ e : Entry, e.reply = localConfirm →
      entryFor builtinTable h.afn h.fn = some e →
        ∃ reply, builtin.answer store now raw = some reply ∧ provokes store reply = true := by
    intro e he hentry
    refine ⟨confirmFrame, ?_, provokes_confirmFrame⟩
    have hbuilt : buildReply now decoded e.rule none = .ok confirmFrame :=
      localConfirm_built now decoded e.rule he none
    rw [List.nil_append, hentry, Option.bind_some, hbuilt] at hanswer
    exact hanswer
  simp only [asksConfirmation, Bool.or_eq_true, Bool.and_eq_true, decide_eq_true_eq] at hasks
  rcases hasks with ((hafn | hafn) | ⟨hafn, hfn⟩) | ⟨hafn, hfn | hfn⟩
  · exact hlocal ⟨"builtin.local_ack", 0x00, none, localConfirm⟩ rfl (by rw [hafn]; rfl)
  · have hentry : entryFor builtinTable h.afn h.fn =
        some ⟨"builtin.01xx_init", 0x01, none, confirmReply⟩ := by
      rw [hafn]
      rfl
    obtain ⟨reply, hbuilt⟩ := confirmReply_built
      (Entry.rule ⟨"builtin.01xx_init", 0x01, none, confirmReply⟩) now rfl hheader hdecode
    obtain ⟨header, hread, hconfirm, -⟩ := standard_reply 0 1 rfl rfl rfl hbuilt
    refine ⟨reply, ?_, provokes_of_afn hread hconfirm⟩
    rw [List.nil_append, hentry, Option.bind_some, hbuilt] at hanswer
    exact hanswer
  · exact hlocal ⟨"builtin.local_03F10_running", 0x03, some 10, localConfirm⟩ rfl
      (by rw [hafn, hfn]; rfl)
  · exact hlocal ⟨"builtin.local_06F3_route", 0x06, some 3, localConfirm⟩ rfl
      (by rw [hafn, hfn]; rfl)
  · exact hlocal ⟨"builtin.local_06F230_mclt_report", 0x06, some 230, localConfirm⟩ rfl
      (by rw [hafn, hfn]; rfl)

end Confirmations

/-! ## Replies that are not answered -/

section Quiet
variable {store : MetadataStore} {raw reply : Bytes} {h : Header}

theorem resident_quiet (now : Clock) (hheader : decodeHeader raw = .ok (some h))
    (hnone : entryFor autoAckTable h.afn h.fn = none) : resident.answer store now raw = none := by
  cases hanswer : resident.answer store now raw with
  | none => rfl
  | some reply =>
      obtain ⟨h', -, e, hheader', -, hentry, -⟩ := answer_some autoAckTable [] hanswer
      obtain rfl := Option.some.inj (Except.ok.inj (hheader.symm.trans hheader'))
      rw [List.append_nil, hnone] at hentry
      cases hentry

/-- No reply of a built-in rule or of a rule of an open line has an AFN and a Fn that a rule of an
open line fits. -/
theorem reply_unmatched {now : Clock} {decoded : ProtocolFrame} {e : Entry}
    (he : e ∈ builtinTable ++ autoAckTable) (hbuilt : buildReply now decoded e.rule none = .ok reply) :
    ∃ header, decodeHeader reply = .ok (some header) ∧
      entryFor autoAckTable header.afn header.fn = none := by
  have hlocal : e.reply = localConfirm → ∃ header, decodeHeader reply = .ok (some header) ∧
      entryFor autoAckTable header.afn header.fn = none := by
    intro hreply
    obtain rfl := Except.ok.inj (hbuilt.symm.trans (localConfirm_built now decoded e.rule hreply none))
    exact ⟨_, rfl, rfl⟩
  have hstandard : ∀ afn fn : ℤ, localFormat e.reply = false →
      normAfn (e.reply.getD "afn" (.int 0)) = .ok (some afn) →
      (e.reply.getD "fn" (.int 1)).toInt = .ok fn →
      entryFor autoAckTable (byte (lowByte afn &&& 0xFF))
        (dtToFn (fnToDt (lowByte fn)).1 (fnToDt (lowByte fn)).2) = none →
      ∃ header, decodeHeader reply = .ok (some header) ∧
        entryFor autoAckTable header.afn header.fn = none := by
    intro afn fn hformat hafn hfn hnone
    obtain ⟨header, hheader, hread, hnumber⟩ := standard_reply afn fn hformat hafn hfn hbuilt
    rw [← hread, ← hnumber] at hnone
    exact ⟨header, hheader, hnone⟩
  simp only [builtinTable, autoAckTable, List.cons_append, List.nil_append, List.mem_cons,
    List.not_mem_nil, or_false] at he
  rcases he with rfl | rfl | rfl | rfl | rfl | rfl | rfl | rfl | rfl | rfl | rfl | rfl | rfl
  · exact hlocal rfl
  · exact hlocal rfl
  · exact hlocal rfl
  · exact hlocal rfl
  · exact hstandard 0x00 1 rfl rfl rfl rfl
  · exact hstandard 0x00 1 rfl rfl rfl rfl
  · exact hstandard 0x03 1 rfl rfl rfl rfl
  · exact hstandard 0x10 1 rfl rfl rfl rfl
  · exact hstandard 0x02 1 rfl rfl rfl rfl
  · exact hstandard 0x14 2 rfl rfl rfl rfl
  · exact hlocal rfl
  · exact hlocal rfl
  · exact hlocal rfl

theorem reply_quiet {r : Responder} (hr : r = builtin ∨ r = resident) {now : Clock}
    (hanswer : r.answer store now raw = some reply) (later : Clock) :
    resident.answer store later reply = none := by
  have hentry : ∃ e ∈ builtinTable ++ autoAckTable, ∃ decoded,
      buildReply now decoded e.rule none = .ok reply := by
    rcases hr with rfl | rfl
    · obtain ⟨h, decoded, e, -, -, hentry, hbuilt⟩ := answer_some [] builtinTable hanswer
      exact ⟨e, List.mem_append_left _ (List.mem_of_find?_eq_some hentry), decoded, hbuilt⟩
    · obtain ⟨h, decoded, e, -, -, hentry, hbuilt⟩ := answer_some autoAckTable [] hanswer
      rw [List.append_nil] at hentry
      exact ⟨e, List.mem_append_right _ (List.mem_of_find?_eq_some hentry), decoded, hbuilt⟩
  obtain ⟨e, he, decoded, hbuilt⟩ := hentry
  obtain ⟨header, hheader, hnone⟩ := reply_unmatched he hbuilt
  exact resident_quiet later hheader hnone

/-- The rules of an open line send the same frame at any time. -/
theorem resident_answer_now (now now' : Clock) :
    resident.answer store now raw = resident.answer store now' raw := by
  have hsame : ∀ n n' : Clock, ∀ frame, resident.answer store n raw = some frame →
      resident.answer store n' raw = some frame := by
    intro n n' frame hanswer
    obtain ⟨h, decoded, e, hheader, hdecode, hentry, hbuilt⟩ := answer_some autoAckTable [] hanswer
    have hreply : e.reply = localConfirm := by
      rw [List.append_nil] at hentry
      have he := List.mem_of_find?_eq_some hentry
      simp only [autoAckTable, List.mem_cons, List.not_mem_nil, or_false] at he
      rcases he with rfl | rfl | rfl <;> rfl
    have hother := localConfirm_built n' decoded e.rule hreply none
    obtain rfl := Except.ok.inj (hbuilt.symm.trans (localConfirm_built n decoded e.rule hreply none))
    have hanswer' := answer_eq autoAckTable [] n' hheader hdecode
    rw [hentry, Option.bind_some, hother] at hanswer'
    exact hanswer'
  cases hanswer : resident.answer store now raw with
  | some frame => exact (hsame now now' frame hanswer).symm
  | none =>
      cases hanswer' : resident.answer store now' raw with
      | none => rfl
      | some frame => exact hanswer.symm.trans (hsame now' now frame hanswer')

/-- What the rules of an open line confirm, the built-in table confirms with the same frame. -/
theorem resident_builtin {now : Clock} (hanswer : resident.answer store now raw = some reply)
    (later : Clock) : reply = confirmFrame ∧ builtin.answer store later raw = some confirmFrame := by
  obtain ⟨h, decoded, e, hheader, hdecode, hentry, hbuilt⟩ := answer_some autoAckTable [] hanswer
  rw [List.append_nil] at hentry
  have he := List.mem_of_find?_eq_some hentry
  have hfits := List.find?_some hentry
  simp only [autoAckTable, List.mem_cons, List.not_mem_nil, or_false] at he
  have hlocal : ∀ b : Entry, b.reply = localConfirm → e.reply = localConfirm →
      entryFor builtinTable h.afn h.fn = some b →
        reply = confirmFrame ∧ builtin.answer store later raw = some confirmFrame := by
    intro b hb hreply hfound
    have hother := localConfirm_built later decoded b.rule hb none
    have hanswer' := answer_eq [] builtinTable later hheader hdecode
    rw [List.nil_append, hfound, Option.bind_some, hother] at hanswer'
    obtain rfl := Except.ok.inj (hbuilt.symm.trans (localConfirm_built now decoded e.rule hreply none))
    exact ⟨rfl, hanswer'⟩
  rcases he with rfl | rfl | rfl
  · simp only [Option.all_some, Bool.and_eq_true, decide_eq_true_eq] at hfits
    refine hlocal ⟨"builtin.local_06F230_mclt_report", 0x06, some 230, localConfirm⟩ rfl rfl ?_
    simp [entryFor, builtinTable, List.find?, hfits.1, hfits.2]
  · simp only [Option.all_some, Bool.and_eq_true, decide_eq_true_eq] at hfits
    refine hlocal ⟨"builtin.local_06F3_route", 0x06, some 3, localConfirm⟩ rfl rfl ?_
    simp [entryFor, builtinTable, List.find?, hfits.1, hfits.2]
  · simp only [Option.all_some, Bool.and_eq_true, decide_eq_true_eq] at hfits
    refine hlocal ⟨"builtin.local_03F10_running", 0x03, some 10, localConfirm⟩ rfl rfl ?_
    simp [entryFor, builtinTable, List.find?, hfits.1, hfits.2]

end Quiet

/-! ## Two stations on a line -/

/-- The frames that are on their way to either station. -/
structure Line where
  toLeft : List Bytes
  toRight : List Bytes

/-- A frame arrives at a station, which answers it. -/
inductive Delivery
  | left (now : Clock)
  | right (now : Clock)

section Exchange
variable (store : MetadataStore)

def deliver (l r : Responder) (s : Line) : Delivery → Option Line
  | .left now =>
    match s.toLeft with
    | [] => none
    | f :: rest => some ⟨rest, s.toRight ++ (l.answer store now f).toList⟩
  | .right now =>
    match s.toRight with
    | [] => none
    | f :: rest => some ⟨s.toLeft ++ (r.answer store now f).toList, rest⟩

def exchange (l r : Responder) : Machine Line Delivery := ⟨deliver store l r⟩

/-- How many frames on the line the built-in table answers with a confirmation. -/
def Line.provoking (s : Line) : ℕ := s.toLeft.countP (provokes store) + s.toRight.countP (provokes store)

variable {store} {s s' : Line} {events : List Delivery}

theorem provoking_deliver {event : Delivery} (h : deliver store builtin builtin s event = some s') :
    s.provoking store ≤ s'.provoking store := by
  have hreply : ∀ now f, (if provokes store f = true then 1 else 0) ≤
      (builtin.answer store now f).toList.countP (provokes store) := by
    intro now f
    split_ifs with hprovokes
    · obtain ⟨reply, hanswer, hagain⟩ := builtin_confirms now hprovokes
      rw [hanswer, Option.toList_some, List.countP_singleton, if_pos hagain]
    · exact Nat.zero_le _
  obtain ⟨toLeft, toRight⟩ := s
  cases event with
  | left now =>
      cases toLeft with
      | nil => cases h
      | cons f rest =>
          obtain rfl := Option.some.inj h
          have hcount := hreply now f
          simp only [Line.provoking, List.countP_cons, List.countP_append]
          omega
  | right now =>
      cases toRight with
      | nil => cases h
      | cons f rest =>
          obtain rfl := Option.some.inj h
          have hcount := hreply now f
          simp only [Line.provoking, List.countP_cons, List.countP_append]
          omega

/-- Between two stations with the built-in table the frames that ask for a confirmation never get
fewer, so that the line never falls silent once there is one. -/
theorem confirmations_persist (h : (exchange store builtin builtin).run s events = some s') :
    s.provoking store ≤ s'.provoking store ∧
      (0 < s.provoking store → ∃ event next, deliver store builtin builtin s' event = some next) := by
  have hle : s.provoking store ≤ s'.provoking store := by
    refine (Machine.reachable_of_run h).invariant (P := fun t => s.provoking store ≤ t.provoking store)
      (Nat.le_refl _) ?_
    intro t event t' _ ht _ hstep
    exact ht.trans (provoking_deliver hstep)
  refine ⟨hle, fun hpos => ?_⟩
  obtain ⟨toLeft, toRight⟩ := s'
  cases toLeft with
  | cons f rest => exact ⟨.left ⟨0, 0, 0, 0, 0, 0⟩, _, rfl⟩
  | nil =>
      cases toRight with
      | cons f rest => exact ⟨.right ⟨0, 0, 0, 0, 0, 0⟩, _, rfl⟩
      | nil =>
          have hzero : Line.provoking store ⟨[], []⟩ = 0 := rfl
          omega

theorem confirmations_persist_one : Line.provoking (fun _ _ => none) ⟨[confirmFrame], []⟩ ≤
      Line.provoking (fun _ _ => none) ⟨[], [confirmFrame]⟩ ∧
    (0 < Line.provoking (fun _ _ => none) ⟨[confirmFrame], []⟩ → ∃ event next,
      deliver (fun _ _ => none) builtin builtin ⟨[], [confirmFrame]⟩ event = some next) := by
  have hrun : (exchange (fun _ _ => none) builtin builtin).run ⟨[confirmFrame], []⟩
      [.left ⟨0, 0, 0, 0, 0, 0⟩] = some ⟨[], [confirmFrame]⟩ := rfl
  exact confirmations_persist hrun

variable (store) in
/-- How many deliveries a frame on its way to the open line brings about: its own, that of the reply
and that of the reply to the reply. -/
def deliveries (f : Bytes) : ℕ :=
  if (resident.answer store ⟨0, 0, 0, 0, 0, 0⟩ f).isSome then 3 else 1

variable (store) in
def Line.weight (s : Line) : ℕ := (s.toLeft.map (deliveries store)).sum + 2 * s.toRight.length

theorem deliveries_reply {r : Responder} (hr : r = builtin ∨ r = resident) (now : Clock) (f : Bytes) :
    ((r.answer store now f).toList.map (deliveries store)).sum ≤ 1 := by
  cases hanswer : r.answer store now f with
  | none => exact Nat.zero_le 1
  | some reply =>
      have hquiet := reply_quiet hr hanswer ⟨0, 0, 0, 0, 0, 0⟩
      simp [deliveries, hquiet]

/-- Every delivery uses up part of the weight. -/
theorem weight_deliver {r : Responder} (hr : r = builtin ∨ r = resident) {event : Delivery}
    (h : deliver store resident r s event = some s') : s'.weight store + 1 ≤ s.weight store := by
  obtain ⟨toLeft, toRight⟩ := s
  cases event with
  | left now =>
      cases toLeft with
      | nil => cases h
      | cons f rest =>
          obtain rfl := Option.some.inj h
          have hsame : resident.answer store now f =
              resident.answer store ⟨0, 0, 0, 0, 0, 0⟩ f := resident_answer_now now _
          have hdeliveries : 1 + 2 * (resident.answer store now f).toList.length ≤
              deliveries store f := by
            rw [deliveries, hsame]
            cases resident.answer store ⟨0, 0, 0, 0, 0, 0⟩ f with
            | none => exact Nat.le_refl 1
            | some reply => exact Nat.le_refl 3
          simp only [Line.weight, List.map_cons, List.sum_cons, List.length_append]
          omega
  | right now =>
      cases toRight with
      | nil => cases h
      | cons f rest =>
          obtain rfl := Option.some.inj h
          have hreply : ((r.answer store now f).toList.map (deliveries store)).sum ≤ 1 :=
            deliveries_reply hr now f
          simp only [Line.weight, List.map_append, List.sum_append, List.length_cons]
          omega

variable (store) in
theorem deliveries_sum_le (frames : List Bytes) :
    (frames.map (deliveries store)).sum ≤ 3 * frames.length := by
  induction frames with
  | nil => exact Nat.le_refl 0
  | cons f frames ih =>
      have hmost : deliveries store f ≤ 3 := by
        rw [deliveries]
        split_ifs <;> omega
      rw [List.map_cons, List.sum_cons, List.length_cons]
      omega

/-- An exchange with an open line ends, after at most three deliveries for a frame sent to it and two
for a frame that it sent. -/
theorem exchange_ends {r : Responder} (hr : r = builtin ∨ r = resident)
    (h : (exchange store resident r).run s events = some s') :
    events.length ≤ 3 * s.toLeft.length + 2 * s.toRight.length := by
  have hrun : ∀ t : Line, (exchange store resident r).run t events = some s' →
      events.length ≤ t.weight store := by
    clear h
    induction events with
    | nil => exact fun t _ => Nat.zero_le _
    | cons event events ih =>
        intro t ht
        obtain ⟨u, hstep, hrest⟩ := Option.bind_eq_some_iff.mp ht
        have hless := weight_deliver hr hstep
        have hmore := ih u hrest
        rw [List.length_cons]
        omega
  have hlength := hrun s h
  have hweight := deliveries_sum_le store s.toLeft
  rw [Line.weight] at hlength
  omega

/-- The report 06H-F3. -/
def reportFrame : Bytes :=
  [0x68, 0x10, 0x00, 0x83, 0, 0, 0, 0, 0, 0x01, 0x06, 0x04, 0x00, 0x01, 0x8F, 0x16]

theorem exchange_ends_report :
    [Delivery.left ⟨0, 0, 0, 0, 0, 0⟩, .right ⟨0, 0, 0, 0, 0, 0⟩, .left ⟨0, 0, 0, 0, 0, 0⟩].length ≤
      3 * (Line.mk [reportFrame] []).toLeft.length + 2 * (Line.mk [reportFrame] []).toRight.length := by
  have hrun : (exchange (fun _ _ => none) resident builtin).run ⟨[reportFrame], []⟩
      [.left ⟨0, 0, 0, 0, 0, 0⟩, .right ⟨0, 0, 0, 0, 0, 0⟩, .left ⟨0, 0, 0, 0, 0, 0⟩] =
        some ⟨[], []⟩ := rfl
  exact exchange_ends (Or.inl rfl) hrun

end Exchange

end HplcWorkbench.AutoReply
