import HplcWorkbench.DualMacTables

/-!
# Decoding a frame of the dual-mode link layer

A beacon has a fixed head and items behind it, each with its length. The slot item tells the four
periods of the beacon period.

A frame is read layer by layer; what cannot be read becomes a warning, and from what was read the
events of the network are taken. Only an association confirmation is printed from a field that is
not there when its table was too short.
-/

namespace HplcWorkbench.DualMac

structure Item47 where
  staTei : ℕ
  proxyTei : ℕ
  pathLowestSuc : ℕ
  staMac : String
  role : ℕ
  roleName : String
  layer : ℕ
  pcoLqi : ℕ
  staPhase : ℕ
  rfHopCnt : ℕ

structure Item48 where
  routerPeriodS : ℕ
  routerEvaluateRemainS : ℕ
  pcoDiscoverListPeriodS : ℕ
  staDiscoverListPeriodS : ℕ

structure Item57 where
  staTei : ℕ
  proxyTei : ℕ
  role : ℕ
  layer : ℕ
  staMac : String
  rfHopCnt : ℕ
  csmaStartNtb : ℕ
  csmaLengthMs : ℕ

/-- The fixed head of the slot item. -/
structure Item50 where
  noCentralSlots : ℕ
  centralSlots : ℕ
  csmaPhaseCnt : ℕ
  proxySlots : ℕ
  beaconSlotLengthMs : ℕ
  csmaCutUpLength10ms : ℕ
  bindCsmaPhaseCnt : ℕ
  bindCsmaLid : ℕ
  tdmaSlotLengthMs : ℕ
  tdmaLid : ℕ
  originateNtb : ℕ
  beaconPeriodMs : ℕ
  rfBeaconSlotLengthMs : ℕ

inductive ItemFields
  | empty
  | station (i : Item47)
  | route (i : Item48)
  | band (band cutoverRemainMs : ℕ)
  | rfRoute (discoverListPeriodS recvRateAgeingCycle : ℕ)
  | rfChannel (objectChnl cutoverRemainMs objectOption : ℕ)
  | reduced (i : Item57)
  | calendar (calendarSecs calendarNtb : ℕ)
  | slots (i : Item50)

def roleName : ℕ → String
  | 0 => "未知"
  | 1 => "STA"
  | 2 => "PCO"
  | 4 => "CCO"
  | n => "保留(" ++ toString n ++ ")"

/-- The high half of one byte, and the byte behind it. -/
def proxyTeiAt (c : Bytes) (off : ℕ) : Option ℕ := do
  pure ((← u8At c off) >>> 4 &&& 0x0F ||| (← u8At c (off + 1)) <<< 4)

/-- `_item47`. -/
def item47 (c : Bytes) : Option Item47 := do
  pure
    { staTei := ← getTei c 0
      proxyTei := ← proxyTeiAt c 1
      pathLowestSuc := ← u8At c 3
      staMac := hexUpper (slice c 4 10)
      role := (← u8At c 10) &&& 0x0F
      roleName := DualMac.roleName ((← u8At c 10) &&& 0x0F)
      layer := (← u8At c 10) >>> 4 &&& 0x0F
      pcoLqi := ← u8At c 11
      staPhase := (← u8At c 12) &&& 0x03
      rfHopCnt := (← u8At c 12) >>> 2 &&& 0x0F }

/-- `_item48`. -/
def item48 (c : Bytes) : Option Item48 := do
  pure ⟨← le16At c 0, ← le16At c 2, ← le16At c 4, ← le16At c 6⟩

/-- `_item57`. -/
def item57 (c : Bytes) : Option Item57 := do
  pure
    { staTei := ← getTei c 0
      proxyTei := ← proxyTeiAt c 1
      role := (← u8At c 3) &&& 0x0F
      layer := (← u8At c 3) >>> 4 &&& 0x0F
      staMac := hexUpper (slice c 4 10)
      rfHopCnt := (← u8At c 10) &&& 0x0F
      csmaStartNtb := ← le32At c 11
      csmaLengthMs := ← le16At c 15 }

def beaconPeriodCapMs : ℕ := 15000

/-- `_item50_head`. -/
def item50Head (c : Bytes) : Option Item50 := do
  pure
    { noCentralSlots := ← u8At c 0
      centralSlots := (← u8At c 1) &&& 0x0F
      csmaPhaseCnt := (← u8At c 1) >>> 4 &&& 0x03
      proxySlots := ← u8At c 3
      beaconSlotLengthMs := ← u8At c 4
      csmaCutUpLength10ms := ← u8At c 5
      bindCsmaPhaseCnt := ← u8At c 6
      bindCsmaLid := ← u8At c 7
      tdmaSlotLengthMs := ← u8At c 8
      tdmaLid := ← u8At c 9
      originateNtb := ← le32At c 10
      beaconPeriodMs := min (← le32At c 14) beaconPeriodCapMs
      rfBeaconSlotLengthMs := (← u8At c 18) ||| ((← u8At c 19) &&& 0x03) <<< 8 }

/-- `_parse_item_fields`. -/
def parseItemFields (itemId : ℕ) (c : Bytes) : Option ItemFields :=
  match itemId with
  | 0x00 => (item47 c).map .station
  | 0x01 => (item48 c).map .route
  | 0x02 => do pure (.band (← u8At c 0) (← le32At c 1))
  | 0x03 => do pure (.rfRoute (← u8At c 0) (← u8At c 1))
  | 0x04 => do pure (.rfChannel (← u8At c 0) (← le32At c 1) ((← u8At c 5) &&& 0x03))
  | 0x05 => (item57 c).map .reduced
  | 0x06 => do pure (.calendar (← le32At c 0) (← le32At c 4))
  | 0xC0 => (item50Head c).map .slots
  | _ => some .empty

structure NoCentralSlot where
  tei : ℕ
  beaconType : String
  rfBeaconFlag : ℕ

/-- `_item50_no_central`. -/
def item50NoCentral (c : Bytes) (count : ℕ) : Option (List NoCentralSlot) :=
  (List.range count).mapM fun i => do
    let b := slice c (20 + i * 2) (22 + i * 2)
    pure ⟨← getTei b 0, if (← u8At b 1).testBit 4 then "代理信标" else "发现信标",
      (← u8At b 1) >>> 5 &&& 0x07⟩

structure CsmaSlot where
  lengthMs : ℕ
  phase : ℕ

def csmaSlots (c : Bytes) (base count : ℕ) : Option (List CsmaSlot) :=
  (List.range count).mapM fun i => do
    let b := slice c (base + i * 4) (base + i * 4 + 4)
    pure ⟨← le24At b 0, (← u8At b 3) &&& 0x03⟩

structure Period where
  start : ℕ
  stop : ℕ

structure Periods where
  beacon : Period
  tdma : Period
  csma : Period
  bindCsma : Period

structure Schedule where
  head : Item50
  noCentralList : List NoCentralSlot
  csmaSlots : List CsmaSlot
  bindCsmaSlots : List CsmaSlot
  periodsMs : Periods

/-- `rebuild_schedule`. -/
def rebuildSchedule (c : Bytes) (bcnType : ℕ) : Option Schedule := do
  let head ← item50Head c
  let csmaBase := 20 + head.noCentralSlots * 2
  let csma ← csmaSlots c csmaBase head.csmaPhaseCnt
  let bind ← csmaSlots c (csmaBase + head.csmaPhaseCnt * 4) head.bindCsmaPhaseCnt
  let beaconT := (head.noCentralSlots + head.centralSlots) * head.beaconSlotLengthMs
  let tdmaT := head.tdmaSlotLengthMs * if bcnType = 2 then 3 else 1
  let csmaStart := beaconT + tdmaT
  -- the CSMA period ends 2 ms before its slots do
  let csmaTotal := (csma.map CsmaSlot.lengthMs).sum - 2
  let bindStart := csmaStart + csmaTotal
  let bindTotal := (bind.map CsmaSlot.lengthMs).sum
  let noCentral ← if bcnType ≠ 0 then item50NoCentral c head.noCentralSlots else some []
  pure
    { head := head
      noCentralList := noCentral
      csmaSlots := csma
      bindCsmaSlots := bind
      periodsMs :=
        { beacon := ⟨0, beaconT⟩
          tdma := ⟨beaconT, csmaStart⟩
          csma := ⟨csmaStart, csmaStart + csmaTotal⟩
          bindCsma := ⟨bindStart, bindStart + bindTotal⟩ } }

structure BeaconItem where
  itemId : ℕ
  name : String
  raw : Bytes
  fields : ItemFields

structure Beacon where
  bcnType : ℕ
  networkingStop : Bool
  reduceBeacon : Bool
  permitAssoc : Bool
  useBeaconFrame : Bool
  netFormNo : ℕ
  ccoMac : Bytes
  cycleCount : ℕ
  rfChnl : ℕ
  rfOption : ℕ
  items : List BeaconItem
  bpcsOk : Bool
  schedule : Option Schedule
  warnings : List String

def Beacon.bcnTypeName (b : Beacon) : String :=
  match b.bcnType with
  | 0 => "发现信标"
  | 1 => "代理信标"
  | 2 => "中央信标"
  | n => "保留(" ++ toString n ++ ")"

def Beacon.ccoMacText (b : Beacon) : String := hexUpper b.ccoMac

def itemName : ℕ → String
  | 0x00 => "站点能力"
  | 0x01 => "路由参数"
  | 0x02 => "频段变更"
  | 0x03 => "无线路由参数"
  | 0x04 => "无线信道变更"
  | 0x05 => "精简信标站点信息及时隙"
  | 0x06 => "万年历同步"
  | 0xC0 => "时隙分配"
  | n => "保留(0x" ++ hexPad 2 n ++ ")"

/-- The items from an offset on, and the warnings on the way. -/
def beaconItems (content : Bytes) : ℕ → ℕ → List BeaconItem × List String
  | 0, _ => ([], [])
  | n + 1, offset =>
    if content.length ≤ offset then ([], ["条目数超出载荷长度，提前结束"])
    else
      let itemId := (byteAt content offset).val
      let size := if 0xC0 ≤ itemId then 2 else 1
      if content.length ≤ offset + size then ([], ["条目长度域越界"])
      else
        let length := if size = 2 then le16 (byteAt content (offset + 1)) (byteAt content (offset + 2))
          else (byteAt content (offset + 1)).val
        if length < 1 + size ∨ content.length < offset + length then
          ([], ["条目 0x" ++ hexPad 2 itemId ++ " 长度非法（" ++ toString length ++ "）"])
        else
          let body := slice content (offset + 1 + size) (offset + length)
          let fields := parseItemFields itemId body
          let (items, warnings) := beaconItems content n (offset + length)
          (⟨itemId, itemName itemId, body, fields.getD .empty⟩ :: items,
            (if fields.isNone then
              ["条目 0x" ++ hexPad 2 itemId ++ " 解析失败：index out of range"] else []) ++ warnings)

/-- `parse_beacon`, which also checks the BPCS. -/
def parseBeacon (content : Bytes) : PyM Beacon :=
  if content.length < 21 then throw (.valueError "信标内容不足 21 字节（表38 头）")
  else
    let head := fun i => (byteAt content i).val
    let (items, warnings) := beaconItems content (head 20) 21
    let bcnType := head 0 &&& 0x07
    let slot := items.find? fun item => item.itemId = 0xC0
    let schedule := slot.bind fun item => rebuildSchedule item.raw bcnType
    let cut := content.length - 4
    pure
      { bcnType := bcnType
        networkingStop := (head 0).testBit 3
        reduceBeacon := (head 0).testBit 4
        permitAssoc := (head 0).testBit 6
        useBeaconFrame := (head 0).testBit 7
        netFormNo := head 1
        ccoMac := slice content 2 8
        cycleCount := head 8 ||| head 9 <<< 8 ||| head 10 <<< 16 ||| head 11 <<< 24
        rfChnl := head 12
        rfOption := head 13 &&& 0x03
        items := items
        bpcsOk := verifyCrc (content.take cut) (content.drop cut)
        schedule := schedule
        warnings := warnings ++
          if slot.isSome ∧ schedule.isNone then ["时隙重建失败：index out of range"] else [] }

end HplcWorkbench.DualMac

namespace HplcWorkbench.DualMac

/-! ## The events -/

inductive EventKind
  | beaconCentral
  | beaconProxy
  | beaconDiscover
  | assocReq
  | assocCnf
  | assocGather
  | proxyChangeReq
  | proxyChangeCnf
  | leaveInd
  | heartbeat
  | discoverList
  | successRate
  | nidConflict
  | rfConflict
  | routeRequest
  | routeReply
  | routeError
  | routeAck
  | coordFrame
  | appData
  deriving DecidableEq

/-- `EVENT_NAMES`. -/
def EventKind.name : EventKind → String
  | .beaconCentral => "中央信标"
  | .beaconProxy => "代理信标"
  | .beaconDiscover => "发现信标"
  | .assocReq => "关联请求"
  | .assocCnf => "关联确认"
  | .assocGather => "关联汇总入网"
  | .proxyChangeReq => "代理变更请求"
  | .proxyChangeCnf => "代理变更确认"
  | .leaveInd => "离网指示"
  | .heartbeat => "心跳检测"
  | .discoverList => "发现列表"
  | .successRate => "成功率上报"
  | .nidConflict => "NID冲突上报"
  | .rfConflict => "无线信道冲突上报"
  | .routeRequest => "路由请求"
  | .routeReply => "路由回复"
  | .routeError => "路由错误"
  | .routeAck => "路由应答"
  | .coordFrame => "网间协调帧"
  | .appData => "1376.2业务透传"

structure BeaconEvent where
  ccoMac : String
  cycleCount : ℕ
  permitAssoc : Bool
  networkingStop : Bool
  items : List String
  bpcsOk : Bool
  schedule : Option (ℕ × Periods × List CsmaSlot)

structure AppEvent where
  msduSqn : ℕ
  msduLen : ℕ
  sendType : String
  icvOk : Option Bool

inductive EventFields
  | beacon (b : BeaconEvent)
  | coord (v : Variable)
  | app (a : AppEvent)
  | mgmt (f : MgmtFields)
  | other (mmtype : String) (f : MgmtFields)

structure Event where
  kind : EventKind
  name : String
  direction : String
  srcTei : String
  dstTei : String
  summary : String
  fields : EventFields

/-- `_dir`. -/
def direction (src dst : ℕ) : String :=
  if src = 1 then "down" else if dst = 1 then "up" else "mesh"

/-- `_base`. -/
def base (kind : EventKind) (src dst : ℕ) (fields : EventFields) (summary : String) : Event where
  kind := kind
  name := kind.name
  direction := direction src dst
  srcTei := hexPad 3 src
  dstTei := hexPad 3 dst
  summary := summary
  fields := fields

/-! ### `fields.get(key)` -/

section Fields

def MgmtFields.staMac : MgmtFields → Option String
  | .assocReq t => some t.staMac
  | .assocCnf t => some t.staMac
  | _ => none

def MgmtFields.proxyCandidates : MgmtFields → Option (List PcoEntry)
  | .assocReq t => some t.proxyCandidates
  | .proxyChangeReq t => some t.proxyCandidates
  | _ => none

def MgmtFields.rslt : MgmtFields → Option ℕ
  | .assocCnf t => some t.rslt
  | .assocGather t => some t.rslt
  | _ => none

def MgmtFields.rsltName : MgmtFields → Option String
  | .assocCnf t => some t.rsltName
  | _ => none

def MgmtFields.retryTimeMs : MgmtFields → Option ℕ
  | .assocCnf t => some t.retryTimeMs
  | _ => none

def MgmtFields.staTei : MgmtFields → Option ℕ
  | .assocCnf t => some t.staTei
  | .proxyChangeReq t => some t.staTei
  | .proxyChangeCnf t => some t.staTei
  | .proxyChangeBitmap t => some t.staTei
  | _ => none

def MgmtFields.proxyTei : MgmtFields → Option ℕ
  | .assocCnf t => some t.proxyTei
  | .assocGather t => some t.proxyTei
  | .proxyChangeCnf t => some t.proxyTei
  | .proxyChangeBitmap t => some t.proxyTei
  | .successRate t => some t.proxyTei
  | _ => none

def MgmtFields.oldProxyTei : MgmtFields → Option ℕ
  | .proxyChangeReq t => some t.oldProxyTei
  | _ => none

def MgmtFields.staCnt : MgmtFields → Option ℕ
  | .assocGather t => some t.staCnt
  | .leave t => some t.staCnt
  | _ => none

def MgmtFields.result : MgmtFields → Option ℕ
  | .proxyChangeCnf t => some t.result
  | .proxyChangeBitmap t => some t.result
  | _ => none

def MgmtFields.subStaCnt : MgmtFields → Option ℕ
  | .proxyChangeCnf t => some t.subStaCnt
  | .successRate t => some t.subStaCnt
  | _ => none

def MgmtFields.reasonName : MgmtFields → Option String
  | .leave t => some t.reasonName
  | _ => none

def MgmtFields.delayTimeMs : MgmtFields → Option ℕ
  | .leave t => some t.delayTimeMs
  | _ => none

def MgmtFields.osaTei : MgmtFields → Option ℕ
  | .heartbeat t => some t.osaTei
  | _ => none

def MgmtFields.activeCnt : MgmtFields → Option ℕ
  | .heartbeat t => some t.activeCnt
  | _ => none

def MgmtFields.bitmapSize : MgmtFields → Option ℕ
  | .proxyChangeBitmap t => some t.bitmapSize
  | .heartbeat t => some t.bitmapSize
  | _ => none

def MgmtFields.neighborNids : MgmtFields → Option (List String)
  | .nidConflict t => some t.neighborNids
  | _ => none

def MgmtFields.chnls : MgmtFields → Option (List ℕ)
  | .rfConflict t => some t.chnls
  | _ => none

def MgmtFields.options : MgmtFields → Option (List ℕ)
  | .rfConflict t => some t.options
  | _ => none

def MgmtFields.sqn : MgmtFields → Option ℕ
  | .routeRequest t => some t.sqn
  | .routeReply t => some t.sqn
  | .routeError t => some t.sqn
  | .routeAck t => some t.sqn
  | _ => none

def MgmtFields.unreachTeis : MgmtFields → Option (List ℕ)
  | .routeError t => some t.unreachTeis
  | _ => none

end Fields

/-! ### Texts -/

/-- `str(v)` of a value or of `None`. -/
def shown {α : Type} (text : α → String) (v : Option α) : String := (v.map text).getD "None"

def num (n : ℕ) : String := toString n

/-- `str` of a list, whose texts stand in quotes. -/
def listText {α : Type} (text : α → String) (xs : List α) : String :=
  "[" ++ ", ".intercalate (xs.map text) ++ "]"

def quoted (s : String) : String := "'" ++ s ++ "'"

/-- `f"{v:03X}"`, which `None` does not take. -/
def formatTei : Option ℕ → PyM String
  | some tei => pure (hexPad 3 tei)
  | none => throw (.typeError "unsupported format string passed to NoneType.__format__")

def beaconKind : ℕ → EventKind
  | 1 => .beaconProxy
  | 2 => .beaconCentral
  | _ => .beaconDiscover

def Variable.teis : Variable → Option ℕ
  | .sof v => some v.teis
  | .sack v => some v.teis
  | .beacon v => some v.teis
  | _ => none

def Variable.durationMs : Variable → Option ℕ
  | .coord v => some v.durationMs
  | _ => none

def Variable.neighborNid : Variable → Option ℕ
  | .coord v => some v.neighborNid
  | _ => none

def beaconEvent (fch : Fch) (b : Beacon) : Event :=
  base (beaconKind b.bcnType) (fch.varFields.teis.getD 0) 0
    (.beacon
      { ccoMac := b.ccoMacText
        cycleCount := b.cycleCount
        permitAssoc := b.permitAssoc
        networkingStop := b.networkingStop
        items := b.items.map BeaconItem.name
        bpcsOk := b.bpcsOk
        schedule := b.schedule.map fun s => (s.head.beaconPeriodMs, s.periodsMs, s.csmaSlots) })
    (b.bcnTypeName ++ " 周期#" ++ num b.cycleCount ++ if b.permitAssoc then " 允许关联" else "")

def coordEvent (fch : Fch) : Event :=
  base .coordFrame 0 0 (.coord fch.varFields)
    ("带宽宣告 " ++ shown num fch.varFields.durationMs ++ "ms" ++ " 邻居NID " ++
      hexPad 6 (fch.varFields.neighborNid.getD 0))

def appEvent (mac : MacHeader) (msdu : Option Msdu) : Event :=
  base .appData mac.teis mac.teid
    (.app ⟨mac.msduSqn, mac.msduLen, mac.sendTypeName, msdu.bind Msdu.icvOk⟩)
    ("业务透传 序号#" ++ num mac.msduSqn ++ " " ++ num mac.msduLen ++ "B")

/-- The event of a management message. -/
def mgmtEvent (src dst : ℕ) (mgmt : MgmtMessage) : PyM Event :=
  let f := mgmt.fields
  let tei := fun (v : Option ℕ) => hexPad 3 (v.getD 0)
  let event := fun kind summary => pure (base kind src dst (.mgmt f) summary)
  match mgmt.mmtype with
  | 0x0000 =>
    let cand := ",".intercalate ((f.proxyCandidates.getD []).map fun c =>
      hexPad 3 c.tei ++ "(" ++ c.linkType ++ ")")
    event .assocReq ("站点 " ++ f.staMac.getD "" ++ " 申请入网 候选代理[" ++ cand ++ "]")
  | 0x0001 => do
    let extra := if f.rslt ≠ some 0 ∧ f.rslt ≠ some 0xA then
      " 退避" ++ shown num f.retryTimeMs ++ "ms" else ""
    -- the other texts have a default for a field that is not there
    let sta ← formatTei f.staTei
    event .assocCnf ("确认 " ++ sta ++ " 结果[" ++ shown id f.rsltName ++ "] 代理[" ++
      tei f.proxyTei ++ "]" ++ extra)
  | 0x0002 => event .assocGather
    ("汇总 " ++ shown num f.staCnt ++ " 站经代理 " ++ tei f.proxyTei ++ " 入网")
  | 0x0003 => event .proxyChangeReq
    ("站点 " ++ tei f.staTei ++ " 申请变更代理（原 " ++ tei f.oldProxyTei ++ "）")
  | 0x0004 | 0x0005 => event .proxyChangeCnf
    ("确认 " ++ tei f.staTei ++ " → 新代理 " ++ tei f.proxyTei ++ " 结果[" ++ shown num f.result ++
      "]" ++ ((f.subStaCnt.map fun n => " 子站" ++ num n).getD ""))
  | 0x0006 => event .leaveInd
    ("离网 " ++ shown num f.staCnt ++ " 站 原因[" ++ shown id f.reasonName ++ "] 延迟" ++
      shown num f.delayTimeMs ++ "ms")
  | 0x0007 => event .heartbeat
    ("心跳 来自 " ++ tei f.osaTei ++ " 活跃 " ++ shown num f.activeCnt ++ " 站（位图 " ++
      shown num f.bitmapSize ++ "B）")
  | 0x0008 => event .discoverList "发现列表上报"
  | 0x0009 => event .successRate
    ("成功率上报 代理 " ++ tei f.proxyTei ++ " " ++ shown num f.subStaCnt ++ " 子站")
  | 0x000A => event .nidConflict
    ("NID冲突 邻居 " ++ shown (listText quoted) f.neighborNids)
  | 0x0080 => event .rfConflict
    ("信道冲突 chnl=" ++ shown (listText num) f.chnls ++ " option=" ++
      shown (listText num) f.options)
  | 0x0050 => event .routeRequest ("路由请求 sqn=" ++ shown num f.sqn)
  | 0x0051 => event .routeReply ("路由回复 sqn=" ++ shown num f.sqn)
  | 0x0052 => event .routeError ("路由错误 不可达 " ++ shown (listText num) f.unreachTeis)
  | 0x0053 => event .routeAck ("路由应答 sqn=" ++ shown num f.sqn)
  | mm =>
    let mmtype := "0x" ++ hexPad 4 mm
    pure (base .appData src dst (.other mmtype f) ("管理消息 " ++ mmtype))

/-- `extract_events`. -/
def extractEvents (fch : Fch) (mac : Option MacHeader) (msdu : Option Msdu)
    (mgmt : Option MgmtMessage) (beacon : Option Beacon) : PyM (List Event) :=
  match fch.delimiter, beacon, mac with
  | 0, some b, _ => pure [beaconEvent fch b]
  | 3, _, _ => pure [coordEvent fch]
  | 1, _, some mac =>
    if mac.msduType = 48 then pure [appEvent mac msdu]
    else
      match mgmt with
      | some mgmt =>
        if mac.msduType = 0 then return [← mgmtEvent mac.teis mac.teid mgmt] else pure []
      | none => pure []
  | _, _, _ => pure []

/-! ## The frame -/

structure DualMacFrame where
  gw : GwFrame
  fch : Fch
  mac : Option MacHeader := none
  msdu : Option Msdu := none
  mgmt : Option MgmtMessage := none
  beacon : Option Beacon := none
  events : List Event := []
  warnings : List String

/-- `str(exc)` where `except (IndexError, ValueError) as exc` takes it. -/
def caught : PyErr → Option String
  | .indexError => some "index out of range"
  | .valueError message => some message
  | _ => none

/-- A warning for what is caught. -/
def DualMacFrame.warn (out : DualMacFrame) (text : String) (e : PyErr) : PyM DualMacFrame :=
  match caught e with
  | some message => pure { out with warnings := out.warnings ++ [text ++ message] }
  | none => throw e

def readSof (out : DualMacFrame) : PyM DualMacFrame :=
  match parseMacHeader out.gw.region with
  | .error e => out.warn "SOF 解析失败：" e
  | .ok mac =>
    let msdu := extractMsdu out.gw.region mac
    let out := { out with
      mac := some mac
      msdu := some msdu
      warnings := out.warnings ++
        (if msdu.truncated then
          ["载荷区不完整（疑似网关截断长帧），MSDU 已按可用长度截取"] else []) ++
        if msdu.icvOk = some false then
          ["ICV 校验失败（MSDU crc32 不匹配，可能空口误码）"] else [] }
    if mac.msduType = 0 ∧ msdu.data ≠ [] ∧ ¬ msdu.truncated then
      match parseMgmt msdu.data with
      | .error e => out.warn "SOF 解析失败：" e
      | .ok mgmt => pure { out with mgmt := some mgmt, warnings := out.warnings ++ mgmt.warnings }
    else pure out

def readBeacon (out : DualMacFrame) : PyM DualMacFrame :=
  match parseBeacon out.gw.region with
  | .error e => out.warn "信标解析失败：" e
  | .ok beacon =>
    pure { out with beacon := some beacon, warnings := out.warnings ++ beacon.warnings }

/-- `decode_frame` of a byte string. -/
def decodeFrame (raw : Bytes) : PyM DualMacFrame := do
  let data ← stripGw raw
  let gw ← parseGwFrame data
  let fch ← parseFch gw.fch
  let out : DualMacFrame := { gw := gw, fch := fch, warnings := gw.warnings ++ fch.warnings }
  let out ←
    if fch.delimiter = 1 ∧ gw.region ≠ [] then readSof out
    else if fch.delimiter = 0 ∧ gw.region ≠ [] then readBeacon out
    else pure out
  let events ← extractEvents fch out.mac out.msdu out.mgmt out.beacon
  pure { out with events := events }

end HplcWorkbench.DualMac
