import HplcWorkbench.AppEncode
import HplcWorkbench.FrameReaders
import HplcWorkbench.HexReading
import HplcWorkbench.RecordExtractor

/-!
# The archive of the simulated concentrator

`query_archive` cuts the records out of a 10H-F2 answer and turns each into a node. The encoder
writes an address as its digits stand; the extractor reverses the bytes, and the node the
characters of what the extractor printed.
-/

namespace HplcWorkbench.DeepApp

open Adapter10376 RecordExtractor

/-- The contract of 10H-F2 in `afn_fn.json`. -/
def resp10F2 : Contract where
  fields := [⟨"从节点总数量", "BIN", .fixed 2⟩, ⟨"本次应答的从节点数量n", "BIN", .fixed 1⟩]
  list := some {
    count := "本次应答的从节点数量n"
    record := [.value ⟨"从节点地址", "BCD", .fixed 6⟩, .value ⟨"从节点信息", "BS", .fixed 2⟩] }

structure Node where
  addr : String
  nodeInfoHex : String
  signal : ℕ
  relay : ℕ
  online : Bool
  deriving DecidableEq, Repr

/-- The text of the node information in a record. -/
def infoHex (rec : Row) : String :=
  match (rec.lookup "从节点信息").getD (.dict []) with
  | .dict info => ((info.lookup "hex").getD (.str "")).toStr
  | v => v.toStr

/-- `_node_from_record`. -/
def nodeFromRecord (rec : Row) : Node :=
  let raw := infoHex rec
  let v := ((fromHex raw).map leValue).getD 0
  let low := v &&& 0xFF
  let addrWire := ((rec.lookup "从节点地址").getD (.str "")).toStr
  { addr := if addrWire.length = 12 then String.ofList addrWire.toList.reverse else addrWire
    nodeInfoHex := raw
    signal := (low >>> 4) &&& 0x0F
    relay := low &&& 0x0F
    online := (low >>> 4) &&& 0x0F > 0 }

structure Archive where
  total : PyVal
  nodes : List Node

/-- `query_archive` over the frames received after its request; without an answer it raises
`TimeoutError`. -/
def queryArchive (store : MetadataStore) (received : List Bytes) : PyM (Option Archive) :=
  match received.find? fun raw => frameAfnFn store raw = some (0x10, 2) with
  | none => pure none
  | some reply => do
    let out ← extractResponse (appPayload reply) resp10F2
    let nodes := out.records.map nodeFromRecord
    pure (some ⟨(out.head.lookup "从节点总数量").getD (.int nodes.length), nodes⟩)

/-! ## The nodes of an archive -/

/-- A node of the archive, as it is given. -/
structure ArchiveNode where
  addr : String
  digits : TwelveDigits addr
  quality : Fin 16
  relay : Fin 16

/-- The nodes of one answer. -/
abbrev Page := UpTo ArchiveNode 255

def ArchiveNode.params (nd : ArchiveNode) : PyVal :=
  .dict [("addr", .str nd.addr),
    ("info", .dict [("quality", .int (nd.quality : ℕ)), ("relay", .int (nd.relay : ℕ))])]

def pageParams (total : Word) (page : Page) : Params :=
  [("total", .int (total : ℕ)), ("nodes", .list (page.1.map ArchiveNode.params))]

/-- The answer of the concentrator: the data unit of `encode_app_data` in a frame of its own. -/
def pageReply (total : Word) (page : Page) : PyM Bytes := do
  let appdata ← encodeAppData 0x10 2 (pageParams total page) .up
  buildFrame { direction := .up, afn := 0x10, fn := 2, appdata := appdata }

/-! ## The answer -/

/-- The address of a node as the answer carries it. -/
def ArchiveNode.wire (nd : ArchiveNode) : Bytes := (fromHexChars nd.addr.toList).getD []

def ArchiveNode.infoByte (nd : ArchiveNode) : Byte := byte ((nd.quality : ℕ) * 16 + nd.relay)

def ArchiveNode.bytes (nd : ArchiveNode) : Bytes := nd.wire ++ [nd.infoByte, 0]

def pageBytes (total : Word) (page : Page) : Bytes :=
  Word.toBytes total ++ byte page.1.length :: page.1.flatMap ArchiveNode.bytes

theorem wire_spec (nd : ArchiveNode) : strToBcd nd.addr 6 = .ok nd.wire ∧ nd.wire.length = 6 ∧
    hexChars nd.wire = nd.addr.toList := by
  obtain ⟨bs, hbs, hpairs, hcount, hchars⟩ :=
    fromHexChars_digits 6 nd.addr.toList nd.digits.1 nd.digits.2
  have hwire : nd.wire = bs := by rw [ArchiveNode.wire, hbs, Option.getD_some]
  rw [hwire, strToBcd_eq nd.digits]
  exact ⟨hpairs, hcount, hchars⟩

theorem nibble_le (n : Fin 16) : (0 : Byte) ≤ byte n ∧ byte n ≤ 15 := by
  constructor
  · exact Nat.zero_le _
  · rw [Fin.le_def, byte_val]
    change (n : ℕ) % 256 ≤ 15
    omega

/-- What the encoder reads of a node. -/
def ArchiveNode.read (nd : ArchiveNode) : InfoNode :=
  ⟨⟨nd.addr, nd.digits, nd.wire, (wire_spec nd).1⟩,
    .parts ⟨byte nd.quality, nibble_le nd.quality⟩ ⟨byte nd.relay, nibble_le nd.relay⟩
      ⟨0, by decide⟩ ⟨0, by decide⟩⟩

section Answer
variable (nd : ArchiveNode)

theorem read_bytes : nd.read.bytes = nd.bytes := by
  have hq : ((byte nd.quality : Byte) : ℕ) = nd.quality := by
    rw [byte_val]
    omega
  have hr : ((byte nd.relay : Byte) : ℕ) = nd.relay := by
    rw [byte_val]
    omega
  have hvalue : ((nd.read.info.value : Word) : ℕ) = (nd.quality : ℕ) * 16 + nd.relay := by
    have hjoin : (nd.quality : ℕ) <<< 4 ||| nd.relay = (nd.quality : ℕ) * 16 + nd.relay :=
      BitFields.shiftLeft_or _ (by omega)
    change ((((byte nd.quality : Byte) : ℕ) <<< 4 ||| ((byte nd.relay : Byte) : ℕ) ||| 0) % 65536) = _
    rw [hq, hr, hjoin, Nat.or_zero]
    omega
  have hhigh : byte (((nd.quality : ℕ) * 16 + nd.relay) / 256) = 0 := by
    have hzero : ((nd.quality : ℕ) * 16 + nd.relay) / 256 = 0 := by omega
    rw [hzero]
    rfl
  change nd.wire ++ Word.toBytes nd.read.info.value = _
  rw [Word.toBytes, hvalue, hhigh]
  rfl

theorem bcdBytes_packed {s : String} {bs : Bytes} (hs : TwelveDigits s)
    (hpacked : strToBcd s 6 = .ok bs) (name : String) :
    bcdBytes (.str s) name = .ok ⟨s, hs, bs, hpacked⟩ := by
  have hstrip : String.ofList (pyStrip (PyVal.str s).toStr.toList) = s := by
    rw [PyVal.toStr, pyStrip_digits hs.2, String.ofList_toList]
  unfold bcdBytes
  dsimp only
  generalize String.ofList (pyStrip (PyVal.str s).toStr.toList) = t at hstrip
  subst hstrip
  rw [dif_pos hs]
  split
  · rename_i bs' hbs'
    obtain rfl := Except.ok.inj (hbs'.symm.trans hpacked)
    rfl
  · rename_i e he
    cases he.symm.trans hpacked

theorem u8_nibble (n : Fin 16) (name : String) :
    u8 (.int (n : ℕ)) name 0 15 = .ok ⟨byte n, nibble_le n⟩ := by
  have hrange : ((0 : Byte) : ℕ) ≤ ((n : ℕ) : ℤ) ∧ ((n : ℕ) : ℤ) ≤ ((15 : Byte) : ℕ) := by
    constructor
    · simp
    · change ((n : ℕ) : ℤ) ≤ (15 : ℕ)
      omega
  change dite _ _ _ = _
  rw [dif_pos hrange]
  rfl

theorem nodeInfo_params :
    nodeInfo [("addr", .str nd.addr),
      ("info", .dict [("quality", .int (nd.quality : ℕ)), ("relay", .int (nd.relay : ℕ))])] =
        .ok nd.read.info := by
  have hq := u8_nibble nd.quality "quality"
  have hr := u8_nibble nd.relay "relay"
  change (u8 (.int (nd.quality : ℕ)) "quality" 0 15 >>= fun quality =>
    u8 (.int (nd.relay : ℕ)) "relay" 0 15 >>= fun relay => _) = _
  rw [hq]
  change (u8 (.int (nd.relay : ℕ)) "relay" 0 15 >>= fun relay => _) = _
  rw [hr]
  rfl

theorem mapM_params (nodes : List ArchiveNode) :
    (nodes.map ArchiveNode.params).mapM (fun v => do
        let nd ← v.asDict
        let addr ← nodeAddr nd
        pure (⟨addr, ← nodeInfo nd⟩ : InfoNode)) = (.ok (nodes.map ArchiveNode.read) : PyM _) := by
  induction nodes with
  | nil => rfl
  | cons nd nodes ih =>
    have haddr : nodeAddr [("addr", .str nd.addr),
        ("info", .dict [("quality", .int (nd.quality : ℕ)), ("relay", .int (nd.relay : ℕ))])] =
          .ok nd.read.addr := bcdBytes_packed nd.digits (wire_spec nd).1 _
    rw [List.map_cons, List.mapM_cons, ih]
    simp only [ArchiveNode.params, PyVal.asDict, pure, Except.pure, bind, Except.bind, haddr,
      nodeInfo_params]
    rfl

end Answer

section Page
variable (total : Word) (page : Page)

theorem encode_page :
    encodeAppData 0x10 2 (pageParams total page) .up = .ok (pageBytes total page) := by
  have hnodes : nodeRows (pageParams total page) "nodes" (fun nd => do
      let addr ← nodeAddr nd
      pure (⟨addr, ← nodeInfo nd⟩ : InfoNode)) = .ok (page.1.map ArchiveNode.read) :=
    mapM_params page.1
  have htotal : u16 (.int (total : ℕ)) "total" = .ok total := by
    have hrange : (0 : ℤ) ≤ ((total : ℕ) : ℤ) ∧ ((total : ℕ) : ℤ) ≤ 0xFFFF := by omega
    change ite _ _ _ = _
    rw [if_pos hrange, Int.toNat_natCast, Fin.ofNat_val_eq_self]
    rfl
  have hcount : (page.1.map ArchiveNode.read).length ≤ 255 := by
    rw [List.length_map]
    exact page.2
  have hupTo : upTo (page.1.map ArchiveNode.read) 255 byteRange =
      .ok ⟨page.1.map ArchiveNode.read, hcount⟩ := by
    rw [upTo, dif_pos hcount]
    rfl
  have hread : entry10F2Up.read (pageParams total page) =
      .ok (total, ⟨page.1.map ArchiveNode.read, hcount⟩) := by
    have hreq : req (pageParams total page) "total" = .ok (.int (total : ℕ)) := rfl
    simp only [entry10F2Up]
    rw [hnodes]
    simp only [bind, Except.bind, hreq, htotal, hupTo]
    rfl
  have hbytes : (page.1.map ArchiveNode.read).flatMap InfoNode.bytes =
      page.1.flatMap ArchiveNode.bytes := by
    rw [List.flatMap_map]
    simp only [read_bytes]
  have hentry : tableEntry 0x10 2 .up = some entry10F2Up := rfl
  change entry10F2Up.encode (pageParams total page) = _
  rw [TableEntry.encode, hread]
  change Except.ok (Word.toBytes total ++ byte (page.1.map ArchiveNode.read).length ::
    (page.1.map ArchiveNode.read).flatMap InfoNode.bytes) = _
  rw [List.length_map, hbytes]
  rfl

/-- The frame that carries the data unit. -/
def replyFrame (appdata : Bytes) : Bytes :=
  let a : FrameArgs := { direction := .up, afn := 0x10, fn := 2, appdata := appdata }
  linkFrame (packControl a.direction a.prm a.commMode) (userData a []) a.endByte

theorem pageReply_eq : pageReply total page = .ok (replyFrame (pageBytes total page)) := by
  rw [pageReply, encode_page]
  rfl

theorem appPayload_reply (appdata : Bytes) : appPayload (replyFrame appdata) = appdata := by
  rw [replyFrame, appPayload_linkFrame]
  rfl

/-- The answer is recognised. -/
theorem frameAfnFn_reply (store : MetadataStore) (appdata : Bytes) (hlong : 3 ≤ appdata.length) :
    frameAfnFn store (replyFrame appdata) = some (0x10, 2) := by
  set a : FrameArgs := { direction := .up, afn := 0x10, fn := 2, appdata := appdata } with ha
  have hrange : (InfoArg.fields {} .up).InRange := by
    change _ ∧ _
    decide
  have hinfo : (builtHeader a []).info = (markAddress a.info []).fields a.direction :=
    builtHeader_info hrange
  have hnone : addrLen (builtHeader a []).info = ([] : Bytes).length := by
    rw [hinfo]
    rfl
  obtain ⟨-, hafn, hdt1, hdt2, happ⟩ := builtHeader_in_step hnone
  have hheader : decodeHeader (replyFrame appdata) = .ok (some (builtHeader a [])) := by
    have hbuilt := decodeHeader_built a []
    rw [if_neg] at hbuilt
    · exact hbuilt
    · rw [hnone, userData_length]
      simp only [List.length_nil]
      omega
  have hdirection : (builtHeader a []).ctl.direction = .up :=
    parseControl_direction .up none 3
  have hfn : (builtHeader a []).fn = 2 := by
    change dtToFn (builtHeader a []).dt1 (builtHeader a []).dt2 = 2
    rw [hdt1, hdt2]
    change dtToFn (fnToDt 2).1 (fnToDt 2).2 = 2
    decide
  have hbody : ∃ body, decodeBody store (builtHeader a []).afn (builtHeader a []).fn
      (builtHeader a []).appdata (builtHeader a []).ctl.direction = .ok body := by
    have hsome : appdata ≠ [] := by
      rintro rfl
      cases hlong
    have hitems : ∃ items, appItems 0x10 2 appdata .up = .ok items := by
      change ∃ items, items10 2 appdata true = .ok items
      rw [items10, if_neg (by omega), if_pos ⟨Or.inl rfl, hlong⟩]
      exact ⟨_, rfl⟩
    obtain ⟨items, hitems⟩ := hitems
    have hafn10 : (builtHeader a []).afn = 0x10 :=
      hafn.trans (show byte (0x10 &&& 0xFF) = 0x10 by decide)
    rw [hafn10, hfn, happ, hdirection, decodeBody, if_neg hsome, hitems]
    exact ⟨_, rfl⟩
  obtain ⟨body, hbody⟩ := hbody
  rw [frameAfnFn_of_decode hheader (decode_of_body hheader hbody), hafn, hdt1, hdt2]
  change some (((byte (0x10 &&& 0xFF) : Byte) : ℕ),
    fnOfBitmap ((fnToDt 2).1 : ℕ) ((fnToDt 2).2 : ℕ)) = some (0x10, 2)
  decide

/-! ## The records -/

/-- The entries of a node's record. -/
def recordOf (nd : ArchiveNode) : Row :=
  setValue (setValue [] ⟨"从节点地址", "BCD", .fixed 6⟩ (.str (hex nd.wire.reverse)) nd.wire)
    ⟨"从节点信息", "BS", .fixed 2⟩ (decodeValue "BS" [nd.infoByte, 0]) [nd.infoByte, 0]

/-- The record part of `resp10F2`. -/
def record10F2 : List FieldSpec :=
  [.value ⟨"从节点地址", "BCD", .fixed 6⟩, .value ⟨"从节点信息", "BS", .fixed 2⟩]

theorem parseRecord_node (nd : ArchiveNode) (rest : Bytes) :
    parseRecord (nd.bytes ++ rest) record10F2 = .ok (some (recordOf nd, 8), []) := by
  have hlength := (wire_spec nd).2.1
  have hwire : nd.wire ≠ [] := by
    intro h
    rw [h] at hlength
    cases hlength
  set addrRow := setValue [] ⟨"从节点地址", "BCD", .fixed 6⟩ (.str (hex nd.wire.reverse)) nd.wire
    with haddrRow
  have haddr : parseValue (nd.bytes ++ rest) [] 0 ⟨"从节点地址", "BCD", .fixed 6⟩ =
      .ok (some (addrRow, 6), []) := by
    have h := parseValue_fixed [] ([nd.infoByte, 0] ++ rest) [] "从节点地址" "BCD" hwire
    rw [hlength, List.nil_append, ← List.append_assoc] at h
    exact h
  have hinfo : parseValue (nd.bytes ++ rest) addrRow 6 ⟨"从节点信息", "BS", .fixed 2⟩ =
      .ok (some (recordOf nd, 8), []) := by
    have h := parseValue_fixed nd.wire rest addrRow "从节点信息" "BS"
      (List.cons_ne_nil nd.infoByte [0])
    rw [hlength] at h
    exact h
  simp only [parseRecord, record10F2, parseFields, parseField, bind, Except.bind, haddr, hinfo]
  rfl

/-- The records of the nodes, numbered from `i`. -/
def recordsFrom (i : ℕ) : List ArchiveNode → List Row
  | [] => []
  | nd :: nodes => (("_seq_index", .int i) :: recordOf nd) :: recordsFrom (i + 1) nodes

theorem parseRecords_nodes (nodes : List ArchiveNode) (pre : Bytes) (i : ℕ) :
    parseRecords record10F2 (pre ++ nodes.flatMap ArchiveNode.bytes) nodes.length i pre.length =
      .ok (recordsFrom i nodes, (pre ++ nodes.flatMap ArchiveNode.bytes).length, []) := by
  induction nodes generalizing pre i with
  | nil =>
    rw [List.flatMap_nil, List.append_nil]
    rfl
  | cons nd nodes ih =>
    have hlength : nd.bytes.length = 8 := by
      rw [ArchiveNode.bytes, List.length_append, (wire_spec nd).2.1]
      rfl
    have hrecord := parseRecord_node nd (nodes.flatMap ArchiveNode.bytes)
    have hrest := ih (pre ++ nd.bytes) (i + 1)
    rw [List.length_append, hlength, List.append_assoc] at hrest
    rw [List.flatMap_cons, List.length_cons, parseRecords, List.drop_left, hrecord]
    simp only [bind, Except.bind, hrest]
    rfl

/-- The extractor finds the total, the count and one record for each node. -/
theorem extractResponse_page (total : Word) (page : Page) :
    ∃ out, extractResponse (pageBytes total page) resp10F2 = .ok out ∧
      out.records = recordsFrom 0 page.1 ∧ out.remaining = 0 ∧ out.warnings = [] ∧
      out.head.lookup "从节点总数量" = some (.int (total : ℕ)) := by
  set body := page.1.flatMap ArchiveNode.bytes with hbody
  set totalSpec : ValueSpec := ⟨"从节点总数量", "BIN", .fixed 2⟩ with htotalSpec
  set countSpec : ValueSpec := ⟨"本次应答的从节点数量n", "BIN", .fixed 1⟩ with hcountSpec
  set totalRow := setValue [] totalSpec (decodeValue "BIN" (Word.toBytes total))
    (Word.toBytes total) with htotalRow
  set head := setValue totalRow countSpec (decodeValue "BIN" [byte page.1.length])
    [byte page.1.length] with hhead
  have hparse : parseHead (pageBytes total page) [] 0 [totalSpec, countSpec] = .ok (head, 3, []) := by
    have htotal : parseHead ([] ++ Word.toBytes total ++ (byte page.1.length :: body)) [] 0
        (totalSpec :: [countSpec]) = _ :=
      parseHead_fixed [] (byte page.1.length :: body) [] "从节点总数量" "BIN" [countSpec]
    have hcount : parseHead (Word.toBytes total ++ [byte page.1.length] ++ body) totalRow 2
        (countSpec :: []) = _ :=
      parseHead_fixed (Word.toBytes total) body totalRow "本次应答的从节点数量n" "BIN" []
    rw [List.append_assoc] at hcount
    exact htotal.trans hcount
  have hcountVal : readField head "本次应答的从节点数量n" = .ok page.1.length := by
    have hlookup : head.lookup "本次应答的从节点数量n" =
        some (decodeValue "BIN" [byte page.1.length]) := lookup_setValue countSpec
    have hvalue : leValue [byte page.1.length] = page.1.length := by
      have hpage := page.2
      simp only [leValue, List.foldr, byte_val]
      omega
    rw [readField, hlookup, Option.getD_some, decodeValue, if_pos rfl, hvalue]
    rfl
  have htotalVal : head.lookup "从节点总数量" = some (.int (total : ℕ)) := by
    have hlookup : head.lookup "从节点总数量" = some (decodeValue "BIN" (Word.toBytes total)) := by
      rw [hhead, lookup_setValue_of_ne (by decide) (by decide)]
      exact lookup_setValue totalSpec
    have hvalue : leValue (Word.toBytes total) = total := by
      simp only [leValue, Word.toBytes, List.foldr, byte_val]
      omega
    rw [hlookup, decodeValue, if_pos rfl, hvalue]
  have hrecords := parseRecords_nodes page.1 (Word.toBytes total ++ [byte page.1.length]) 0
  have hbuf : Word.toBytes total ++ [byte page.1.length] ++ body = pageBytes total page := by
    rw [List.append_assoc]
    rfl
  rw [hbuf] at hrecords
  refine ⟨⟨head, recordsFrom 0 page.1, (pageBytes total page).length,
    (pageBytes total page).length - (pageBytes total page).length, []⟩, ?_, rfl, Nat.sub_self _, rfl,
    htotalVal⟩
  have hlist : resp10F2.list = some ⟨"本次应答的从节点数量n", record10F2⟩ := rfl
  have hfields : resp10F2.fields = [totalSpec, countSpec] := rfl
  have hstart : (Word.toBytes total ++ [byte page.1.length]).length = 3 := rfl
  rw [hstart] at hrecords
  simp only [extractResponse, hfields, hparse, hlist, hcountVal, bind, Except.bind, hrecords]
  rfl

end Page

/-! ## What is shown of a node -/

/-- The digits of each byte exchanged. -/
def swapDigits (bs : Bytes) : String := String.ofList (hexChars bs.reverse).reverse

section Shown
variable (nd : ArchiveNode) (i : ℕ)

theorem record_addr :
    (("_seq_index", PyVal.int i) :: recordOf nd).lookup "从节点地址" =
      some (.str (hex nd.wire.reverse)) := by
  rw [List.lookup_cons, beq_false_of_ne (by decide), recordOf,
    lookup_setValue_of_ne (by decide) (by decide)]
  exact lookup_setValue ⟨"从节点地址", "BCD", .fixed 6⟩

theorem record_info :
    (("_seq_index", PyVal.int i) :: recordOf nd).lookup "从节点信息" =
      some (decodeValue "BS" [nd.infoByte, 0]) := by
  rw [List.lookup_cons, beq_false_of_ne (by decide), recordOf]
  exact lookup_setValue ⟨"从节点信息", "BS", .fixed 2⟩

theorem infoHex_recordOf :
    infoHex (("_seq_index", .int i) :: recordOf nd) = upper (hex [nd.infoByte, 0]) := by
  rw [infoHex, record_info]
  rfl

theorem nodeFromRecord_recordOf :
    nodeFromRecord (("_seq_index", .int i) :: recordOf nd) =
      { addr := swapDigits nd.wire
        nodeInfoHex := upper (hex [nd.infoByte, 0])
        signal := nd.quality
        relay := nd.relay
        online := (nd.quality : ℕ) > 0 } := by
  have hvalue : leValue [nd.infoByte, 0] = (nd.quality : ℕ) * 16 + nd.relay := by
    simp only [leValue, List.foldr, ArchiveNode.infoByte, byte_val]
    change _ % 256 + 256 * (0 + 256 * 0) = _
    omega
  have hsignal : ((((nd.quality : ℕ) * 16 + nd.relay) &&& 0xFF) >>> 4) &&& 0x0F = nd.quality := by
    rw [BitFields.and_mask8, BitFields.shiftRight_eq, BitFields.and_mask4]
    omega
  have hrelay : (((nd.quality : ℕ) * 16 + nd.relay) &&& 0xFF) &&& 0x0F = nd.relay := by
    rw [BitFields.and_mask8, BitFields.and_mask4]
    omega
  have hlength : (hex nd.wire.reverse).length = 12 := by
    rw [← String.length_toList, toList_hex, hexChars_length, List.length_reverse, (wire_spec nd).2.1]
  simp only [nodeFromRecord, infoHex_recordOf, record_addr, fromHex_upper, Option.map_some,
    Option.getD_some, hvalue, hsignal, hrelay, PyVal.toStr, hlength, if_true, toList_hex]
  rfl

/-- The three readings of an address are the same. -/
def ArchiveNode.Symmetric (nd : ArchiveNode) : Prop :=
  ∃ a b c, nd.addr.toList = [a, a, b, b, c, c, c, c, b, b, a, a]

theorem symmetric_iff :
    nd.Symmetric ↔ swapDigits nd.wire = nd.addr ∧ hex nd.wire.reverse = nd.addr := by
  obtain ⟨-, hlength, hchars⟩ := wire_spec nd
  match hwire : nd.wire, hlength with
  | [b0, b1, b2, b3, b4, b5], _ =>
    have htext : ∀ cs : List Char, String.ofList cs = nd.addr ↔ cs = nd.addr.toList := by
      intro cs
      constructor
      · intro h
        rw [← h, String.toList_ofList]
      · intro h
        rw [h, String.ofList_toList]
    rw [hwire] at hchars
    rw [ArchiveNode.Symmetric, swapDigits, hex, htext, htext, ← hchars]
    simp only [hexChars, List.reverse_cons, List.reverse_nil, List.nil_append, List.cons_append,
      List.flatMap_cons, List.flatMap_nil, List.cons.injEq, and_true]
    constructor
    · rintro ⟨a, b, c, h⟩
      grind
    · intro h
      exact ⟨hexDigitLower ((b0 : ℕ) / 16), hexDigitLower ((b1 : ℕ) / 16),
        hexDigitLower ((b2 : ℕ) / 16), by grind⟩

end Shown

/-! ## The archive -/

/-- Address, signal quality and relay level. -/
abbrev Given := String × ℕ × ℕ

def ArchiveNode.given (nd : ArchiveNode) : Given := (nd.addr, nd.quality, nd.relay)

def Node.given (nd : Node) : Given := (nd.addr, nd.signal, nd.relay)

/-- What a record says: its address as the extractor printed it. -/
def recordGiven (rec : Row) : Given :=
  (((rec.lookup "从节点地址").getD (.str "")).toStr, (nodeFromRecord rec).signal,
    (nodeFromRecord rec).relay)

/-- The pages are answered, and the queries and the extractor find the nodes of all pages, in
order and as they were given. -/
def ArchiveReturned (store : MetadataStore) (total : Word) (pages : List Page) : Prop :=
  ∃ replies : List Bytes, pages.mapM (pageReply total) = .ok replies ∧
    (∃ archives : List Archive, replies.mapM (fun reply => queryArchive store [reply]) =
        .ok (archives.map some) ∧
      (archives.flatMap Archive.nodes).map Node.given =
        (pages.flatMap Subtype.val).map ArchiveNode.given) ∧
    ∃ outs : List Extracted, replies.mapM (fun reply => extractResponse (appPayload reply) resp10F2) = .ok outs ∧
      (outs.flatMap Extracted.records).map recordGiven =
        (pages.flatMap Subtype.val).map ArchiveNode.given

theorem mapM_ok {α β : Type} {f : α → PyM β} {g : α → β} (h : ∀ x, f x = .ok (g x))
    (xs : List α) : xs.mapM f = .ok (xs.map g) := by
  induction xs with
  | nil => rfl
  | cons x xs ih =>
    rw [List.mapM_cons, h, ih]
    rfl

section Pages
variable (store : MetadataStore) (total : Word)

theorem map_recordsFrom {γ : Type} {f : Row → γ} {g : ArchiveNode → γ}
    (h : ∀ nd i, f (("_seq_index", .int (i : ℕ)) :: recordOf nd) = g nd) (nodes : List ArchiveNode)
    (i : ℕ) : (recordsFrom i nodes).map f = nodes.map g := by
  induction nodes generalizing i with
  | nil => rfl
  | cons nd nodes ih => rw [recordsFrom, List.map_cons, List.map_cons, h, ih]

/-- Every node comes back with the digits of each address byte exchanged, every record with the
address bytes reversed. -/
theorem archive_answers (pages : List Page) :
    ∃ (replies : List Bytes) (archives : List Archive) (outs : List Extracted),
      pages.mapM (pageReply total) = .ok replies ∧
      replies.mapM (fun reply => queryArchive store [reply]) = .ok (archives.map some) ∧
      replies.mapM (fun reply => extractResponse (appPayload reply) resp10F2) = .ok outs ∧
      (archives.flatMap Archive.nodes).map Node.given = (pages.flatMap Subtype.val).map
        (fun nd => (swapDigits nd.wire, (nd.quality : ℕ), (nd.relay : ℕ))) ∧
      (outs.flatMap Extracted.records).map recordGiven = (pages.flatMap Subtype.val).map
        (fun nd => (hex nd.wire.reverse, (nd.quality : ℕ), (nd.relay : ℕ))) := by
  choose out hout hrecords hremaining hwarnings htotal using extractResponse_page total
  have hreply : ∀ page, pageReply total page = .ok (replyFrame (pageBytes total page)) :=
    pageReply_eq total
  have hextract : ∀ page : Page,
      extractResponse (appPayload (replyFrame (pageBytes total page))) resp10F2 = .ok (out page) := by
    intro page
    rw [appPayload_reply, hout]
  have hquery : ∀ page : Page, queryArchive store [replyFrame (pageBytes total page)] =
      .ok (some ⟨.int (total : ℕ), (recordsFrom 0 page.1).map nodeFromRecord⟩) := by
    intro page
    have hfound := frameAfnFn_reply store (pageBytes total page) (by
      simp only [pageBytes, Word.toBytes, List.length_append, List.length_cons, List.length_nil]
      omega)
    have hfind : [replyFrame (pageBytes total page)].find?
        (fun raw => decide (frameAfnFn store raw = some (0x10, 2))) =
          some (replyFrame (pageBytes total page)) := by
      rw [List.find?_cons_of_pos (by simpa using hfound)]
    rw [queryArchive, hfind]
    simp only [hextract, bind, Except.bind, htotal, hrecords, Option.getD_some]
    rfl
  refine ⟨_, pages.map fun page => ⟨.int (total : ℕ), (recordsFrom 0 page.1).map nodeFromRecord⟩,
    pages.map out, mapM_ok hreply pages, ?_, ?_, ?_, ?_⟩
  · rw [List.mapM_map, List.map_map]
    exact mapM_ok hquery pages
  · rw [List.mapM_map]
    exact mapM_ok hextract pages
  · rw [List.flatMap_map, List.map_flatMap, List.map_flatMap]
    refine List.flatMap_congr fun page _ => ?_
    rw [List.map_map]
    exact map_recordsFrom (fun nd i => by
      rw [Function.comp_apply, nodeFromRecord_recordOf]
      rfl) page.1 0
  · rw [List.flatMap_map, List.map_flatMap, List.map_flatMap]
    refine List.flatMap_congr fun page _ => ?_
    rw [hrecords]
    exact map_recordsFrom (fun nd i => by
      rw [recordGiven, nodeFromRecord_recordOf, record_addr]
      rfl) page.1 0

/-- The archive comes back exactly when no address changes under either reversal. -/
theorem archiveReturned_iff (pages : List Page) :
    ArchiveReturned store total pages ↔ ∀ page ∈ pages, ∀ nd ∈ page.1, nd.Symmetric := by
  obtain ⟨replies, archives, outs, hreplies, harchives, houts, hnodes, hrecords⟩ :=
    archive_answers store total pages
  have hreduce : ArchiveReturned store total pages ↔
      (archives.flatMap Archive.nodes).map Node.given =
        (pages.flatMap Subtype.val).map ArchiveNode.given ∧
      (outs.flatMap Extracted.records).map recordGiven =
        (pages.flatMap Subtype.val).map ArchiveNode.given := by
    unfold ArchiveReturned
    constructor
    · rintro ⟨replies', hreplies', ⟨archives', harchives', hnodes'⟩, outs', houts', hrecords'⟩
      obtain rfl := Except.ok.inj (hreplies.symm.trans hreplies')
      obtain rfl := Except.ok.inj (houts.symm.trans houts')
      obtain rfl := List.map_injective_iff.mpr (Option.some_injective _)
        (Except.ok.inj (harchives.symm.trans harchives'))
      exact ⟨hnodes', hrecords'⟩
    · rintro ⟨hnodes', hrecords'⟩
      exact ⟨replies, hreplies, ⟨archives, harchives, hnodes'⟩, outs, houts, hrecords'⟩
  rw [hreduce, hnodes, hrecords, List.map_inj_left, List.map_inj_left]
  simp only [List.mem_flatMap, ArchiveNode.given, Prod.mk.injEq, and_true]
  constructor
  · rintro ⟨hswap, hreverse⟩ page hpage nd hnd
    exact (symmetric_iff nd).mpr ⟨hswap nd ⟨page, hpage, hnd⟩, hreverse nd ⟨page, hpage, hnd⟩⟩
  · intro h
    constructor
    · rintro nd ⟨page, hpage, hnd⟩
      exact ((symmetric_iff nd).mp (h page hpage nd hnd)).1
    · rintro nd ⟨page, hpage, hnd⟩
      exact ((symmetric_iff nd).mp (h page hpage nd hnd)).2

end Pages

/-- A node whose digits are all different in the outer bytes. -/
def plainNode : ArchiveNode := ⟨"123456789012", by decide, 9, 2⟩

/-- The node comes back as 214365870921. -/
theorem address_digits_swapped :
    ¬ ∀ store total pages, ArchiveReturned store total pages := by
  intro h
  obtain ⟨replies, hreplies, ⟨archives, harchives, hnodes⟩, -⟩ := h (fun _ _ => none) 1 [⟨[plainNode], by decide⟩]
  obtain ⟨replies', archives', -, hreplies', harchives', -, hnodes', -⟩ :=
    archive_answers (fun _ _ => none) 1 [⟨[plainNode], by decide⟩]
  obtain rfl := Except.ok.inj (hreplies.symm.trans hreplies')
  obtain rfl := List.map_injective_iff.mpr (Option.some_injective _)
    (Except.ok.inj (harchives.symm.trans harchives'))
  have hsame := congrArg (List.map Prod.fst) (hnodes.symm.trans hnodes')
  exact absurd hsame (by decide +kernel)

end HplcWorkbench.DeepApp
