import HplcWorkbench.DualMacFrames

/-!
# Network management messages of the dual-mode link layer

A management MSDU has its type, two reserved bytes and the table of the type. A table whose bytes
are not all there is kept as hexadecimal text.
-/

namespace HplcWorkbench.DualMac

structure PcoEntry where
  tei : ℕ
  linkType : String
  deriving DecidableEq

/-- The link type in bit 4. -/
def linkType (b : ℕ) : String := if b.testBit 4 then "无线" else "载波"

/-- `_pco_entry`, of the two bytes at an offset. -/
def pcoEntry (b : Bytes) : Option PcoEntry := do
  pure ⟨← getTei b 0, linkType (← u8At b 1)⟩

/-- `for i in range(n)` that breaks at the first entry that does not fit. -/
def readFitting {α : Type} (fits : ℕ → Bool) (read : ℕ → Option α) : ℕ → ℕ → Option (List α)
  | 0, _ => some []
  | n + 1, i => if fits i then do pure ((← read i) :: (← readFitting fits read n (i + 1))) else some []

structure Table60 where
  staMac : String
  proxyCandidates : List PcoEntry
  phase : ℕ
  terminaterType : ℕ
  terminaterName : String
  macAddrType : String
  moduleType : String
  mcltEnable : Bool
  random : ℕ

def reserved (n : ℕ) : String := "保留(" ++ toString n ++ ")"

def terminaterTypeName : ℕ → String
  | 1 => "抄控器"
  | 2 => "集中器本地通信单元"
  | 3 => "电表通信单元"
  | 4 => "中继器"
  | 5 => "II型采集器"
  | 6 => "I型采集器单元"
  | 7 => "三相电表通信单元"
  | n => reserved n

def moduleTypeName : ℕ → String
  | 0 => "HPLC单模"
  | 1 => "双模HPLC+RF"
  | 2 => "无线单模"
  | n => reserved n

/-- `_table60`. -/
def table60 (c : Bytes) : Option Table60 := do
  let candidates ← (List.range 5).mapM fun i => pcoEntry (slice c (6 + i * 2) (8 + i * 2))
  let term ← u8At c 17
  let module := (← u8At c 19) &&& 0x03
  pure
    { staMac := hexUpper (slice c 0 6)
      proxyCandidates := candidates
      phase := (← u8At c 16) &&& 0x3F
      terminaterType := term
      terminaterName := terminaterTypeName term
      macAddrType := if (← u8At c 18) ≠ 0 then "模块MAC" else "电能表地址"
      moduleType := moduleTypeName module
      mcltEnable := (← u8At c 19).testBit 2
      random := ← le32At c 20 }

structure DirectPco where
  entry : PcoEntry
  subStaCnt : ℕ
  subStas : List ℕ

structure Table70 where
  staMac : String
  ccoMac : String
  rslt : ℕ
  rsltName : String
  staLayer : ℕ
  staTei : ℕ
  linkType : String
  hplcBand : ℕ
  proxyTei : ℕ
  packetSize : ℕ
  packetNo : ℕ
  random : ℕ
  retryTimeMs : ℕ
  t2tSqn : ℕ
  pathSqn : ℕ
  directStaCnt : ℕ
  directPcoCnt : ℕ
  routerTableSize : ℕ
  directStas : List PcoEntry
  directPcos : List DirectPco

def assocRsltName : ℕ → String
  | 0x0 => "成功"
  | 0x1 => "不在白名单"
  | 0x2 => "在黑名单"
  | 0x3 => "站点超上限"
  | 0x4 => "未设白名单"
  | 0x5 => "代理超上限"
  | 0x6 => "子站超上限"
  | 0x8 => "重复MAC"
  | 0x9 => "层次超限"
  | 0xA => "再次关联成功"
  | 0xB => "以子站为代理"
  | 0xC => "存在环路"
  | 0xD => "未知原因"
  | 0xE => "RF代理超限"
  | 0xF => "其他"
  | n => "保留(0x" ++ String.ofList (Nat.toDigits 16 n) ++ ")"

/-- The stations below a proxy, and the position behind them. -/
def subStas (c : Bytes) : ℕ → ℕ → Option (List ℕ × ℕ)
  | 0, pos => some ([], pos)
  | n + 1, pos =>
    if c.length < pos + 2 then some ([], pos)
    else do
      let tei ← getTei c pos
      let (teis, next) ← subStas c n (pos + 2)
      pure (tei :: teis, next)

def directPcos (c : Bytes) : ℕ → ℕ → Option (List DirectPco)
  | 0, _ => some []
  | n + 1, pos =>
    if c.length < pos + 4 then some []
    else do
      let subCnt ← le16At c (pos + 2)
      let entry ← pcoEntry (slice c pos (pos + 2))
      let (teis, next) ← subStas c subCnt (pos + 4)
      pure (⟨entry, subCnt, teis⟩ :: (← directPcos c n next))

/-- `_table70`. -/
def table70 (c : Bytes) : Option Table70 := do
  let rslt ← u8At c 12
  let directStaCnt ← le16At c 40
  let directPcoCnt ← le16At c 42
  let routerSize ← le16At c 44
  let directStas ← (List.range directStaCnt).mapM fun i =>
    pcoEntry (slice c (48 + i * 2) (50 + i * 2))
  let directPcos ← directPcos c directPcoCnt (48 + directStaCnt * 2)
  pure
    { staMac := hexUpper (slice c 0 6)
      ccoMac := hexUpper (slice c 6 12)
      rslt := rslt
      rsltName := assocRsltName rslt
      staLayer := ← u8At c 13
      staTei := ← getTei c 14
      linkType := DualMac.linkType (← u8At c 15)
      hplcBand := (← u8At c 15) >>> 5 &&& 0x03
      proxyTei := ← getTei c 16
      packetSize := ← u8At c 18
      packetNo := ← u8At c 19
      random := ← le32At c 20
      retryTimeMs := ← le32At c 24
      t2tSqn := ← le32At c 28
      pathSqn := ← le32At c 32
      directStaCnt := directStaCnt
      directPcoCnt := directPcoCnt
      routerTableSize := routerSize
      directStas := directStas
      directPcos := directPcos }

structure GatheredSta where
  mac : String
  tei : ℕ

structure Table76 where
  rslt : ℕ
  staLayer : ℕ
  ccoMac : String
  proxyTei : ℕ
  hplcBand : ℕ
  staCnt : ℕ
  stas : List GatheredSta

/-- `_table76`. -/
def table76 (c : Bytes) : Option Table76 := do
  let staCnt ← u8At c 11
  let stas ← readFitting (fun i => 16 + i * 8 + 8 ≤ c.length) (fun i => do
    pure (⟨hexUpper (slice c (16 + i * 8) (16 + i * 8 + 6)), ← getTei c (16 + i * 8 + 6)⟩ : GatheredSta))
    staCnt 0
  pure
    { rslt := ← u8At c 0
      staLayer := ← u8At c 1
      ccoMac := hexUpper (slice c 2 8)
      proxyTei := ← getTei c 8
      hplcBand := (← u8At c 9) >>> 4 &&& 0x03
      staCnt := staCnt
      stas := stas }

structure Table79 where
  staTei : ℕ
  proxyCandidates : List PcoEntry
  oldProxyTei : ℕ
  proxyType : ℕ
  whyChange : ℕ
  t2tSqn : ℕ
  phase : Option ℕ

/-- `_table79`. -/
def table79 (c : Bytes) : Option Table79 := do
  let candidates ← (List.range 5).mapM fun i => pcoEntry (slice c (2 + i * 2) (4 + i * 2))
  pure
    { staTei := ← getTei c 0
      proxyCandidates := candidates
      oldProxyTei := ← getTei c 12
      proxyType := ← u8At c 14
      whyChange := ← u8At c 15
      t2tSqn := ← le32At c 16
      phase := (u8At c 20).map (· &&& 0x3F) }

structure Table84 where
  result : ℕ
  packetCnt : ℕ
  packetSqn : ℕ
  staTei : ℕ
  linkType : String
  proxyTei : ℕ
  t2tSqn : ℕ
  pathSqn : ℕ
  subStaCnt : ℕ
  subStas : List ℕ

/-- `_table84`. -/
def table84 (c : Bytes) : Option Table84 := do
  let subCnt ← le16At c 16
  let subs ← ((List.range subCnt).filter fun i => 22 + i * 2 ≤ c.length).mapM fun i =>
    getTei c (20 + i * 2)
  pure
    { result := ← u8At c 0
      packetCnt := ← u8At c 1
      packetSqn := ← u8At c 2
      staTei := ← getTei c 4
      linkType := DualMac.linkType (← u8At c 5)
      proxyTei := ← getTei c 6
      t2tSqn := ← le32At c 8
      pathSqn := ← le32At c 12
      subStaCnt := subCnt
      subStas := subs }

structure Table88 where
  result : ℕ
  bitmapSize : ℕ
  staTei : ℕ
  linkType : String
  proxyTei : ℕ
  t2tSqn : ℕ
  pathSqn : ℕ
  bitmapHex : String

/-- `_table88`. -/
def table88 (c : Bytes) : Option Table88 := do
  let bitmapSize ← le16At c 2
  pure
    { result := ← u8At c 0
      bitmapSize := bitmapSize
      staTei := ← getTei c 4
      linkType := DualMac.linkType (← u8At c 5)
      proxyTei := ← getTei c 6
      t2tSqn := ← le32At c 8
      pathSqn := ← le32At c 12
      bitmapHex :=
        if 20 + bitmapSize ≤ c.length then hexUpper (slice c 20 (20 + bitmapSize)) else "" }

structure Table91 where
  reason : ℕ
  reasonName : String
  staCnt : ℕ
  delayTimeMs : ℕ
  macs : List String

def leaveReasonName : ℕ → String
  | 0 => "CCO通知立刻离线"
  | 1 => "拓扑层级超上限"
  | 2 => "不在最新白名单"
  | n => reserved n

/-- `_table91`. -/
def table91 (c : Bytes) : Option Table91 := do
  let staCnt ← le16At c 2
  let macs := ((List.range staCnt).filter fun i => 22 + i * 6 ≤ c.length).map fun i =>
    hexUpper (slice c (16 + i * 6) (22 + i * 6))
  let reason ← le16At c 0
  pure
    { reason := reason
      reasonName := leaveReasonName reason
      staCnt := staCnt
      delayTimeMs := ← le16At c 4
      macs := macs }

structure Table94 where
  osaTei : ℕ
  mostDiscoverStaTei : ℕ
  mostDiscoverSta : ℕ
  bitmapSize : ℕ
  bitmapHex : String
  activeCnt : ℕ

/-- `_bitmap_popcount`. -/
def bitmapPopcount (bitmap : Bytes) : ℕ :=
  (bitmap.map fun b => (Nat.toDigits 2 b.val).countP (· = '1')).sum

/-- `_table94`. -/
def table94 (c : Bytes) : Option Table94 := do
  let bitmapSize ← le16At c 6
  pure
    { osaTei := ← getTei c 0
      mostDiscoverStaTei := ← getTei c 2
      mostDiscoverSta := ← le16At c 4
      bitmapSize := bitmapSize
      bitmapHex := hexUpper (slice c 8 (8 + bitmapSize))
      activeCnt := bitmapPopcount (slice c 8 (8 + bitmapSize)) }

structure SuccessRate where
  tei : ℕ
  down : ℕ
  up : ℕ

structure Table100 where
  proxyTei : ℕ
  subStaCnt : ℕ
  entries : List SuccessRate

/-- `_table100`. -/
def table100 (c : Bytes) : Option Table100 := do
  let cnt ← le16At c 2
  let entries ← readFitting (fun i => 4 + i * 4 + 4 ≤ c.length) (fun i => do
    pure (⟨← getTei c (4 + i * 4), ← u8At c (4 + i * 4 + 2), ← u8At c (4 + i * 4 + 3)⟩ : SuccessRate))
    cnt 0
  pure ⟨← getTei c 0, cnt, entries⟩

structure Table102 where
  ccoMac : String
  neighborNwkCnt : ℕ
  nidWidth : ℕ
  neighborNids : List String

/-- `_table102`. -/
def table102 (c : Bytes) : Option Table102 := do
  let cnt ← u8At c 6
  let byte7 ← u8At c 7
  let width := if byte7 ≠ 0 then byte7 else 3
  let nids ← ((List.range cnt).filter fun i => 11 + i * width ≤ c.length).mapM fun i => do
    pure (hexPad 6 (← le24At c (8 + i * width)))
  pure ⟨hexUpper (slice c 0 6), cnt, width, nids⟩

structure Table121 where
  ccoMac : String
  neighborNwkCnt : ℕ
  chnls : List ℕ
  options : List ℕ

/-- `_table121`. -/
def table121 (c : Bytes) : Option Table121 := do
  let cnt ← u8At c 6
  let chnls ← ((List.range cnt).filter fun i => 7 + i < c.length).mapM fun i => u8At c (7 + i)
  let opts ← ((List.range cnt).filter fun i => 7 + cnt + i < c.length).mapM fun i => do
    pure ((← u8At c (7 + cnt + i)) &&& 0x03)
  pure ⟨hexUpper (slice c 0 6), cnt, chnls, opts⟩

structure RoutePath where
  tei : ℕ
  sucRate : ℕ
  lqi : ℕ

/-- `_route_path_entries`. -/
def routePathEntries (c : Bytes) (count base : ℕ) : Option (List RoutePath) :=
  let part := fun i => slice c (base + i * 4) (base + i * 4 + 4)
  readFitting (fun i => 4 ≤ (part i).length) (fun i => do
    pure (⟨← getTei (part i) 0, ← u8At (part i) 2, ← u8At (part i) 3⟩ : RoutePath)) count 0

structure Table111 where
  version : ℕ
  sqn : ℕ
  pathPreference : Bool
  payloadType : ℕ
  payloadLen : ℕ
  paths : List RoutePath

/-- `_table111`. -/
def table111 (c : Bytes) : Option Table111 := do
  let length ← u8At c 6
  let version ← u8At c 0
  let sqn ← le32At c 1
  let byte5 ← u8At c 5
  let payloadType := byte5 >>> 4 &&& 0x0F
  let paths ← if payloadType = 1 then routePathEntries c (length / 4) 7 else some []
  pure ⟨version, sqn, byte5.testBit 3, payloadType, length, paths⟩

structure Table114 where
  version : ℕ
  sqn : ℕ
  payloadLen : ℕ
  paths : List RoutePath

/-- `_table114`. -/
def table114 (c : Bytes) : Option Table114 := do
  let length ← u8At c 6
  pure ⟨← u8At c 0, ← le32At c 1, length, ← routePathEntries c ((length - 7) / 4) 7⟩

structure Table117 where
  version : ℕ
  sqn : ℕ
  unreachCnt : ℕ
  unreachTeis : List ℕ

/-- `_table117`. -/
def table117 (c : Bytes) : Option Table117 := do
  let cnt ← u8At c 6
  let teis ← ((List.range cnt).filter fun i => 9 + i * 2 ≤ c.length).mapM fun i =>
    getTei c (7 + i * 2)
  pure ⟨← u8At c 0, ← le32At c 1, cnt, teis⟩

structure Table118 where
  version : ℕ
  sqn : ℕ

/-- `_table118`. -/
def table118 (c : Bytes) : Option Table118 := do
  pure ⟨← u8At c 0, ← le32At c 4⟩

/-- The fields of a message: those of the table of its type, or the text of a table that has no
reader or could not be read. -/
inductive MgmtFields
  | tableHex (hex : String)
  | assocReq (t : Table60)
  | assocCnf (t : Table70)
  | assocGather (t : Table76)
  | proxyChangeReq (t : Table79)
  | proxyChangeCnf (t : Table84)
  | proxyChangeBitmap (t : Table88)
  | leave (t : Table91)
  | heartbeat (t : Table94)
  | successRate (t : Table100)
  | nidConflict (t : Table102)
  | routeRequest (t : Table111)
  | routeReply (t : Table114)
  | routeError (t : Table117)
  | routeAck (t : Table118)
  | rfConflict (t : Table121)

/-- `_HANDLERS`. -/
def handler : ℕ → Option (Bytes → Option MgmtFields)
  | 0x0000 => some fun c => (table60 c).map .assocReq
  | 0x0001 => some fun c => (table70 c).map .assocCnf
  | 0x0002 => some fun c => (table76 c).map .assocGather
  | 0x0003 => some fun c => (table79 c).map .proxyChangeReq
  | 0x0004 => some fun c => (table84 c).map .proxyChangeCnf
  | 0x0005 => some fun c => (table88 c).map .proxyChangeBitmap
  | 0x0006 => some fun c => (table91 c).map .leave
  | 0x0007 => some fun c => (table94 c).map .heartbeat
  | 0x0009 => some fun c => (table100 c).map .successRate
  | 0x000A => some fun c => (table102 c).map .nidConflict
  | 0x0050 => some fun c => (table111 c).map .routeRequest
  | 0x0051 => some fun c => (table114 c).map .routeReply
  | 0x0052 => some fun c => (table117 c).map .routeError
  | 0x0053 => some fun c => (table118 c).map .routeAck
  | 0x0080 => some fun c => (table121 c).map .rfConflict
  | _ => none

def mmName : ℕ → String
  | 0x0000 => "关联请求"
  | 0x0001 => "关联确认"
  | 0x0002 => "关联汇总指示"
  | 0x0003 => "代理变更请求"
  | 0x0004 => "代理变更确认"
  | 0x0005 => "代理变更确认(位图)"
  | 0x0006 => "离线指示"
  | 0x0007 => "心跳检测"
  | 0x0008 => "发现列表"
  | 0x0009 => "通信成功率上报"
  | 0x000A => "网络冲突上报"
  | 0x000B => "过零NTB采集指示"
  | 0x000C => "过零NTB上报"
  | 0x004F => "网络诊断报文"
  | 0x0050 => "路由请求"
  | 0x0051 => "路由回复"
  | 0x0052 => "路由错误"
  | 0x0053 => "路由应答"
  | 0x0054 => "链路确认请求"
  | 0x0055 => "链路确认回应"
  | 0x0080 => "无线信道冲突上报"
  | _ => ""

structure MgmtMessage where
  mmtype : ℕ
  name : String
  fields : MgmtFields
  raw : Bytes
  warnings : List String

/-- `parse_mgmt`. -/
def parseMgmt (msdu : Bytes) : PyM MgmtMessage :=
  if msdu.length < 4 then throw (.valueError "网管 MSDU 不足 4 字节")
  else
    let mmtype := le16 (byteAt msdu 0) (byteAt msdu 1)
    let table := msdu.drop 4
    let out : MgmtMessage := ⟨mmtype, mmName mmtype, .tableHex (hexUpper table), msdu, []⟩
    match handler mmtype with
    | none => pure out
    | some read =>
      match read table with
      | some fields => pure { out with fields := fields }
      | none => pure { out with warnings := ["表解析失败：index out of range"] }

end HplcWorkbench.DualMac
