import HplcWorkbench.Frame10376

/-!
# The application data walk of the 1376.2 decoder

`_app_items` turns the data unit of one (AFN, Fn, direction) into display items. Each AFN has
its own definition here. Branches whose length test does not cover every byte they index raise,
as the source does; the others read bytes whose presence they have tested.
-/

namespace HplcWorkbench.Adapter10376

/-- `_PROTOCOL_TYPE_NAMES.get(proto, '保留')`. -/
def protocolTypeName : ℕ → String
  | 0x00 => "透明传输"
  | 0x01 => "DL/T 645—1997"
  | 0x02 => "DL/T 645—2007"
  | 0x03 => "DL/T 698.45"
  | 0x04 => "从节点停复电事件"
  | 0x05 => "台区改切拒绝节点上报"
  | _ => "保留"

/-- `_proto_name`. -/
def protoName (proto : Byte) : String := hex0x proto ++ " (" ++ protocolTypeName proto ++ ")"

/-- `_DENY_ERROR_NAMES.get(err, '保留')`. -/
def denyErrorName : ℕ → String
  | 0 => "通信超时"
  | 1 => "无效数据单元"
  | 2 => "长度错"
  | 3 => "校验错误"
  | 4 => "信息类不存在"
  | 5 => "格式错误"
  | 6 => "表号重复"
  | 7 => "表号不存在"
  | 8 => "电表应用层无应答"
  | 9 => "主节点忙"
  | 10 => "主节点不支持此命令"
  | 11 => "从节点不应答"
  | 12 => "从节点不在网内"
  | 109 => "超过最大并发数"
  | 110 => "超过单个帧最大允许的电表协议报文条数"
  | 111 => "正在抄读该表"
  | _ => "保留"

/-- `_DEVICE_TYPE_NAMES.get(dev, '保留')`. -/
def deviceTypeName : ℕ → String
  | 0x00 => "采集器"
  | 0x01 => "电能表"
  | 0x02 => "HPLC通信单元"
  | 0x03 => "窄带载波通信单元"
  | 0x04 => "微功率无线通信单元"
  | 0x05 => "微功率+HPLC通信单元"
  | 0x06 => "微功率+窄带通信单元"
  | _ => "保留"

/-- `_BROADCAST_CTRL_NAMES.get(ctrl, '保留')`. -/
def broadcastCtrlName : ℕ → String
  | 0x00 => "透明传输"
  | 0x01 => "DL/T 645—1997"
  | 0x02 => "DL/T 645—2007"
  | 0x03 => "相位识别功能"
  | _ => "保留"

/-- `_BAND_NAMES.get(band, '保留')`. -/
def bandName : ℕ → String
  | 0 => "1.953~11.96MHz"
  | 1 => "2.441~5.615MHz"
  | 2 => "0.781~2.930MHz"
  | 3 => "1.758~2.930MHz"
  | _ => "保留"

/-- `_POWER_NAMES.get(pw, ...)` with the default of 05H-F5. -/
def powerName : ℕ → String
  | 0 => "最高"
  | 1 => "次高"
  | 2 => "次低"
  | 3 => "最低"
  | 255 => "保持不变"
  | _ => "保留"

/-- `_WORK_STEP_NAMES.get(v, '保留')`. -/
def workStepName : ℕ → String
  | 1 => "初始"
  | 2 => "直抄"
  | 3 => "中继"
  | 4 => "监控"
  | 5 => "广播"
  | 6 => "广播召读"
  | 7 => "读侦听"
  | 8 => "空闲"
  | _ => "保留"

/-- `_NODE_ROLE_NAMES.get(role, f'0x{role:X}')`. -/
def nodeRoleName : ℕ → String
  | 0x0 => "无效"
  | 0x1 => "末梢节点STA"
  | 0x2 => "代理节点PCO"
  | 0x4 => "主节点CCO"
  | role => "0x" ++ hexPad 1 role

/-- `_PIPELINE_DEV_NAMES.get(dev, '保留')`. -/
def pipelineDevName : ℕ → String
  | 1 => "抄控器"
  | 2 => "CCO"
  | 3 => "电表通信单元"
  | 4 => "中继器"
  | 5 => "II型采集器"
  | 6 => "I型采集器"
  | 7 => "三相表通信单元"
  | _ => "保留"

/-- `_FILE_ID_NAMES.get(fid, '保留')`. -/
def fileIdName : ℕ → String
  | 0x00 => "清除下装文件"
  | 0x03 => "本地通信模块升级文件"
  | 0x07 => "主节点和子节点模块升级"
  | 0x08 => "子节点模块升级"
  | _ => "保留"

/-- `_ID_FORMAT_NAMES.get(idfmt, f"保留({idfmt})")`. -/
def idFormatName : ℕ → String
  | 0 => "组合格式"
  | 1 => "BCD"
  | 2 => "BIN"
  | 3 => "ASCII"
  | f => "保留(" ++ toString f ++ ")"

/-! ## Item helpers -/

def dec (n : ℕ) : String := toString n

/-- `le16(data[i:i+2])` where both bytes have been tested. -/
def le16At (data : Bytes) (i : ℕ) : ℕ := le16 (byteAt data i) (byteAt data (i + 1))

/-- `le16(data[i:i+2])` where they have not. -/
def le16Checked (data : Bytes) (i : ℕ) : PyM ℕ := do
  let lo ← index data i
  let hi ← index data (i + 1)
  pure (le16 lo hi)

/-- `int.from_bytes(bs, 'little')`. -/
def leUnsigned (bs : Bytes) : ℕ := bs.foldr (fun b n => (b : ℕ) + 256 * n) 0

/-- `b.decode("ascii", "replace")`. -/
def asciiReplace (bs : Bytes) : String :=
  String.ofList (bs.map (fun b : Byte => if (b : ℕ) < 128 then Char.ofNat b else '\uFFFD'))

/-- A number shown in decimal with its byte as hex. -/
def numItem (name : String) (b : Byte) (desc : String := "") : DataField :=
  textField name (dec b) (hex02 b) desc

/-- A six-byte BCD address. -/
def bcdItem (name : String) (bs : Bytes) : DataField := textField name (bcdToStr bs) (hex bs) ""

/-- An address or dump shown as hex. -/
def dumpItem (name : String) (bs : Bytes) (desc : String := "") : DataField :=
  textField name (hex bs) (hex bs) desc

/-- A 16 bit number, its two bytes shown as hex, with a suffix after the number. -/
def wordItem (name : String) (data : Bytes) (i : ℕ) (suffix : String := "") (desc : String := "") :
    DataField :=
  textField name (dec (le16At data i) ++ suffix) (hex (slice data i (i + 2))) desc

def protoItem (name : String) (b : Byte) (desc : String := "") : DataField :=
  textField name (protoName b) (hex02 b) desc

/-- The length byte of a payload. -/
def plenItem (b : Byte) (desc : String := "") : DataField :=
  textField "报文长度" (dec b ++ "B") (hex02 b) desc

/-- `rate_text`. -/
def rateText (data : Bytes) (i : ℕ) : String :=
  let w := le16At data i
  dec (w &&& 0x7FFF) ++ " (" ++ (if w >>> 15 ≠ 0 then "kbps" else "bps") ++ ")"

/-- `decode_id`. -/
def decodeId (bs : Bytes) (fmt : ℕ) : String :=
  if fmt = 1 then bcdToStr bs else if fmt = 3 then asciiReplace bs else hex bs

/-- Rows of a fixed size: stop after `n` of them, or before a row that is cut off. -/
def fixedRows (data : Bytes) (size : ℕ) (row : ℕ → Bytes → List DataField) :
    ℕ → ℕ → ℕ → List DataField × ℕ
  | 0, _, pos => ([], pos)
  | n + 1, i, pos =>
    if pos + size > data.length then ([], pos)
    else
      let rest := fixedRows data size row n (i + 1) (pos + size)
      (row i (slice data pos (pos + size)) ++ rest.1, rest.2)

/-- `20YY-MM-DD hh:mm:ss` from six BCD bytes in the order second to year. -/
def bcdTimeText (data : Bytes) : String :=
  let part (i : ℕ) : String := bcdToStr (slice data i (i + 1))
  "20" ++ part 5 ++ "-" ++ part 4 ++ "-" ++ part 3 ++ " " ++ part 2 ++ ":" ++ part 1 ++ ":" ++ part 0

/-! ## One definition for each AFN -/

/-- AFN 00H. -/
def items00 (fn : ℕ) (data : Bytes) : List DataField :=
  if fn = 1 ∧ data.length ≥ 6 then
    let chStatus := slice data 0 4
    let wait := le16At data 4
    let cmdState := if ((byteAt chStatus 0 : ℕ) >>> 7) &&& 1 ≠ 0 then "已处理" else "未处理"
    [textField "命令状态" cmdState (hex chStatus) "确认帧 D7=命令状态",
      textField "信道状态" (hex chStatus) (hex chStatus) "1~31信道忙闲位图",
      textField "等待时间" (dec wait ++ "s") (hexPad 4 wait) "等待时间(秒)"]
  else if fn = 2 ∧ data.length ≥ 1 then
    let err := byteAt data 0
    [textField "错误状态字" (dec err ++ " (" ++ denyErrorName err ++ ")") (hex02 err) "否认原因"]
  else []

/-- AFN 01H. -/
def items01 (fn : ℕ) : List DataField :=
  let name := match fn with
    | 1 => "硬件初始化(复位)"
    | 2 => "参数区初始化(清除从节点档案)"
    | 3 => "数据区初始化(清除从节点通信信息)"
    | f => "F" ++ dec f
  [textField "初始化命令" name "" "无数据单元"]

/-- AFN 02H. -/
def items02 (fn : ℕ) (data : Bytes) : List DataField :=
  if fn = 1 ∧ data.length ≥ 2 then
    let proto := byteAt data 0
    let plen := byteAt data 1
    let payload := slice data 2 (2 + plen)
    [protoItem "通信协议类型" proto "转发帧承载的协议类型",
      plenItem plen "转发报文长度",
      dumpItem "转发报文" payload "转发内容（内嵌645/698，递归解析）"]
  else []

/-- The rates of 03H-F10, numbered from `i`. -/
def rateRows (data : Bytes) (first : ℕ) (n i pos : ℕ) : List DataField :=
  (fixedRows data 2 (fun k bs => [textField ("通信速率" ++ dec (k + first)) (rateText bs 0) (hex bs)
    (if first = 1 then "D15=速率单位标识(kbps/bps)" else "")]) n i pos).1

/-- One of the listened nodes of 03H-F3. -/
def listenRow (i : ℕ) (bs : Bytes) : List DataField :=
  let name := "从节点" ++ dec (i + 1)
  let q := byteAt bs 6
  [bcdItem (name ++ "地址") (slice bs 0 6),
    textField (name ++ "信号品质") (dec ((q : ℕ) >>> 4)) (hex02 q) "高4位",
    textField (name ++ "中继级别") (dec ((q : ℕ) &&& 0x0F)) "" "低4位",
    numItem (name ++ "侦听次数") (byteAt bs 7)]

/-- The rates after the fixed part of 03H-F10. -/
def trailingRates (data : Bytes) : List DataField :=
  (fixedRows data 2 (fun k bs => [textField ("通信速率" ++ dec (k + 1)) (rateText bs 0) (hex bs) ""])
    data.length 0 39).1

/-- The long form of 03H-F10. -/
def items03F10 (d : Bytes) : List DataField :=
  [textField "从节点监控最大超时时间" (dec (byteAt d 6) ++ "s") (hex02 (byteAt d 6)) "",
    wordItem "广播命令最大超时时间" d 7 "s",
    wordItem "最大支持的报文长度" d 9 "B",
    wordItem "文件传输最大单包长度" d 11 "B",
    textField "升级操作等待时间" (dec (byteAt d 13) ++ "s") (hex02 (byteAt d 13)) "",
    bcdItem "主节点地址" (slice d 14 20),
    wordItem "支持的最大从节点数量" d 20,
    wordItem "当前从节点数量" d 22,
    textField "协议发布日期" ("20" ++ bcdToStr (slice d 24 25) ++ "-" ++ bcdToStr (slice d 25 26) ++
      "-" ++ bcdToStr (slice d 26 27)) (hex (slice d 24 27)) "BCD YYMMDD",
    textField "协议最后备案日期" ("20" ++ bcdToStr (slice d 27 28) ++ "-" ++
      bcdToStr (slice d 28 29) ++ "-" ++ bcdToStr (slice d 29 30)) (hex (slice d 27 30)) "BCD YYMMDD",
    dumpItem "厂商代码及版本信息" (slice d 30 39) "9B"] ++ trailingRates d

/-- The data units that a 03H-F11 bitmap announces. -/
def supportedFns (bitmap : Bytes) : List ℕ :=
  (List.range 255).filterMap (fun i =>
    if ((byteAt bitmap (i >>> 3) : ℕ) >>> (i &&& 7)) &&& 1 ≠ 0 then some (i + 1) else none)

/-- AFN 03H. -/
def items03 (fn : ℕ) (data : Bytes) (up : Bool) : List DataField :=
  if fn = 1 ∧ data.length ≥ 9 then
    let day := byteAt data 4
    let month := byteAt data 5
    let year := byteAt data 6
    let ver := slice data 7 9
    [textField "厂商代码" (asciiReplace (slice data 0 2)) (hex (slice data 0 2)) "",
      textField "芯片代码" (asciiReplace (slice data 2 4)) (hex (slice data 2 4)) "",
      textField "版本日期" ("20" ++ hex02 year ++ "年" ++ hex02 month ++ "月" ++ hex02 day ++ "日")
        (hex02 day ++ " " ++ hex02 month ++ " " ++ hex02 year) "",
      textField "版本" ("V" ++ hex02 (byteAt ver 0) ++ "." ++ hex02 (byteAt ver 1)) (hex ver) ""]
  else if fn = 2 ∧ data.length ≥ 1 then
    [textField "噪声强度" (dec ((byteAt data 0 : ℕ) &&& 0x0F) ++ " (0~15)") (hex02 (byteAt data 0)) ""]
  else if fn = 3 ∧ data.length ≥ 2 then
    if ¬ up then
      [numItem "开始节点指针" (byteAt data 0), numItem "读取节点的数量" (byteAt data 1) "N≤16"]
    else
      let n := byteAt data 1
      [numItem "侦听到的从节点总数量" (byteAt data 0), numItem "本帧传输的从节点数量" n] ++
        (fixedRows data 8 listenRow n 0 2).1
  else if fn = 4 ∧ data.length ≥ 6 then [bcdItem "主节点地址" (slice data 0 6)]
  else if fn = 5 ∧ data.length ≥ 2 then
    let st := (byteAt data 0 : ℕ)
    let n := st &&& 0x0F
    [textField "主节点状态字" (hex (slice data 0 2)) (hex (slice data 0 2))
      ("周期抄表模式=" ++ dec ((st >>> 6) &&& 0x3) ++ " 主节点信道特征=" ++ dec ((st >>> 4) &&& 0x3) ++
        " 速率数量=" ++ dec n ++ " 信道数量=" ++ dec ((byteAt data 1 : ℕ) &&& 0x0F))] ++
      rateRows data 1 n 0 2
  else if fn = 6 ∧ data.length ≥ 1 then
    let b := byteAt data 0
    if ¬ up then [textField "持续时间" (dec b ++ "min") (hex02 b) "干扰持续时间"]
    else [textField "干扰状态" (if b ≠ 0 then "有干扰" else "无干扰") (hex02 b) ""]
  else if fn = 7 ∧ data.length ≥ 1 then
    [textField "最大超时时间" (dec (byteAt data 0) ++ "s") (hex02 (byteAt data 0))
      "从节点监控最大超时时间"]
  else if fn = 8 ∧ data.length ≥ 2 then
    [numItem "无线信道组" (byteAt data 0), numItem "无线主节点发射功率" (byteAt data 1)]
  else if fn = 9 ∧ data.length ≥ 2 then
    if ¬ up then
      let plen := byteAt data 1
      [protoItem "通信协议类型" (byteAt data 0), plenItem plen,
        dumpItem "报文内容" (slice data 2 (2 + plen)) "广播报文内容"]
    else
      wordItem "广播通信延迟时间" data 0 "s" "BIN 2B 小端" ::
        if data.length ≥ 4 then
          let plen := byteAt data 3
          [protoItem "通信协议类型" (byteAt data 2), plenItem plen,
            dumpItem "报文内容" (slice data 4 (4 + plen))]
        else []
  else if fn = 10 ∧ data.length ≥ 6 then
    dumpItem "本地通信模式字" (slice data 0 6) :: if data.length ≥ 39 then items03F10 data else []
  else if fn = 11 ∧ data.length ≥ 1 then
    textField "AFN功能码" (hex0x (byteAt data 0)) (hex02 (byteAt data 0)) "" ::
      if up ∧ data.length ≥ 33 then
        let bitmap := slice data 1 33
        let text := ",".intercalate ((supportedFns bitmap).map (fun x => "F" ++ dec x))
        [textField "支持的数据单元" (if text ≠ "" then text else "(无)") (hex bitmap)
          "32B位图 D0=F1 D254=F255"]
      else []
  else if fn = 12 ∧ data.length ≥ 4 then
    let idlen := byteAt data 2
    let idfmt := byteAt data 3
    let mid := slice data 4 (4 + idlen)
    [textField "模块厂商代码" (asciiReplace (slice data 0 2)) (hex (slice data 0 2)) "",
      numItem "模块ID号长度" idlen,
      textField "模块ID号格式" (idFormatName idfmt) (hex02 idfmt) "",
      textField "模块ID号" (decodeId mid idfmt) (hex mid) ""]
  else if fn = 16 ∧ data.length ≥ 1 then
    let b := byteAt data 0
    [textField "宽带载波频段" (dec b ++ " (" ++ bandName b ++ ")") (hex02 b) ""]
  else if fn = 100 ∧ data.length ≥ 1 then
    [numItem "场强门限" (byteAt data 0) "取值50~120，默认96"]
  else []

/-- AFN 04H. -/
def items04 (fn : ℕ) (data : Bytes) : List DataField :=
  if fn = 1 ∧ data.length ≥ 1 then
    let b := byteAt data 0
    [textField "持续时间" (if b = 0 then "停止发送" else dec b ++ "s") (hex02 b)
      "0=停止发送；持续交替发送0和1"]
  else if fn = 2 then [textField "从节点点名" "(无数据单元)" "" ""]
  else if fn = 3 ∧ data.length ≥ 9 then
    let plen := byteAt data 8
    [numItem "测试通信速率" (byteAt data 0), bcdItem "目标地址" (slice data 1 7),
      protoItem "通信协议类型" (byteAt data 7), plenItem plen,
      dumpItem "报文内容" (slice data 9 (9 + plen))]
  else []

/-- An item that shows a byte as allowed or forbidden. -/
def enableItem (name : String) (b : Byte) (desc : String := "") : DataField :=
  textField name (if b ≠ 0 then "允许" else "禁止") (hex02 b) desc

/-- AFN 05H. -/
def items05 (fn : ℕ) (data : Bytes) : List DataField :=
  let b := byteAt data 0
  if fn = 1 ∧ data.length ≥ 6 then [bcdItem "主节点地址" (slice data 0 6)]
  else if fn = 2 ∧ data.length ≥ 1 then [enableItem "事件上报状态" b]
  else if fn = 3 ∧ data.length ≥ 2 then
    let plen := byteAt data 1
    [textField "控制字" (hex0x b ++ " (" ++ broadcastCtrlName b ++ ")") (hex02 b) "广播控制字",
      plenItem plen, dumpItem "广播报文" (slice data 2 (2 + plen))]
  else if fn = 4 ∧ data.length ≥ 1 then [textField "最大超时时间" (dec b ++ "s") (hex02 b) ""]
  else if fn = 5 ∧ data.length ≥ 2 then
    let pw := byteAt data 1
    let chDesc := if b = 254 then "自动选择" else if b = 255 then "保持不变" else dec b ++ "组"
    [textField "无线信道组" (dec b ++ " (" ++ chDesc ++ ")") (hex02 b) "0~63组",
      textField "无线主节点发射功率" (dec pw ++ " (" ++ powerName pw ++ ")") (hex02 pw) ""]
  else if fn = 6 ∧ data.length ≥ 1 then [enableItem "台区识别使能" b]
  else if fn = 16 ∧ data.length ≥ 1 then
    [textField "宽带载波频段" (dec b ++ " (" ++ bandName b ++ ")") (hex02 b) ""]
  else if fn = 100 ∧ data.length ≥ 1 then [numItem "场强门限" b "取值50~120，默认96"]
  else if fn = 101 ∧ data.length ≥ 6 then
    [textField "中心节点时间" ("20" ++ hex02 (byteAt data 5) ++ "-" ++ hex02 (byteAt data 4) ++ "-" ++
      hex02 (byteAt data 3) ++ " " ++ hex02 (byteAt data 2) ++ ":" ++ hex02 (byteAt data 1) ++ ":" ++
      hex02 b) (hex (slice data 0 6)) "BCD 秒分时日月年"]
  else if fn = 200 ∧ data.length ≥ 1 then [enableItem "拒绝节点上报" b "2019版扩展"]
  else []

/-- The protocol type of a device, as 06H-F4 and 06H-F5 print it. -/
def deviceText (b : Byte) : String := hex0x b ++ " (" ++ deviceTypeName b ++ ")"

/-- The address, protocol and sequence items that start a node row of 06H-F1 and 06H-F4. -/
def nodeItems (name : String) (bs : Bytes) : List DataField :=
  let seq := le16At bs 7
  [bcdItem (name ++ "地址") (slice bs 0 6), protoItem (name ++ "协议类型") (byteAt bs 6),
    textField (name ++ "序号") (dec seq) (hexPad 4 seq) ""]

/-- A sub-node row of 06H-F4. -/
def subRow (name : String) (j : ℕ) (bs : Bytes) : List DataField :=
  [bcdItem (name ++ "下接节点" ++ dec (j + 1) ++ "地址") (slice bs 0 6),
    protoItem (name ++ "下接节点" ++ dec (j + 1) ++ "协议类型") (byteAt bs 6)]

/-- The node loop of 06H-F4: the count of sub-nodes in this frame is read only when the node
has sub-nodes at all. -/
def nodeRows06F4 (data : Bytes) : ℕ → ℕ → ℕ → List DataField
  | 0, _, _ => []
  | n + 1, i, pos =>
    if pos + 11 > data.length then []
    else
      let name := "从节点" ++ dec (i + 1)
      let bs := slice data pos (pos + 11)
      let m := byteAt bs 10
      let head := nodeItems name bs ++
        [textField (name ++ "设备类型") (deviceText (byteAt bs 9)) (hex02 (byteAt bs 9)) "",
          numItem (name ++ "下接从节点数量") m]
      let pos := pos + 11
      if (m : ℕ) ≥ 1 ∧ pos < data.length then
        let mm := byteAt data pos
        let subs := fixedRows data 7 (subRow name) mm 0 (pos + 1)
        head ++ [numItem (name ++ "本帧传输节点数量") mm] ++ subs.1 ++
          nodeRows06F4 data n (i + 1) subs.2
      else head ++ nodeRows06F4 data n (i + 1) pos

/-- The content of 06H-F5 by protocol and device type. -/
def eventItems (dt proto : Byte) (content : Bytes) : List DataField :=
  if proto = 0x04 ∧ content ≠ [] then
    if dt = 0x00 then
      textField "事件类型" "采集器停电事件" "" "设备类型=00H" ::
        (fixedRows content 7 (fun i bs =>
          [dumpItem ("电能表" ++ dec (i + 1) ++ "地址") (slice bs 0 6),
            textField ("电能表" ++ dec (i + 1) ++ "带电状态")
              (if byteAt bs 6 ≠ 0 then "未停电" else "停电") (hex02 (byteAt bs 6)) ""])
          (content.length / 7) 0 0).1
    else
      let ev := byteAt content 0
      let evText := match (ev : ℕ) with
        | 1 => "停电事件"
        | 2 => "复电事件"
        | e => "保留(" ++ dec e ++ ")"
      let addrs := content.drop 1
      textField "事件类型" evText (hex02 ev) "" ::
        (fixedRows addrs 6 (fun i bs => [bcdItem ("通信单元" ++ dec (i + 1) ++ "地址") bs])
          (addrs.length / 6) 0 0).1
  else if proto = 0x05 ∧ content ≠ [] then
    let n := byteAt content 0
    numItem "本次上报个数" n "n≤32" ::
      (fixedRows content 7 (fun i bs =>
        [dumpItem ("被拒节点" ++ dec (i + 1) ++ "地址") (slice bs 0 6),
          textField ("被拒节点" ++ dec (i + 1) ++ "设备类型") (hex0x (byteAt bs 6))
            (hex02 (byteAt bs 6)) ""]) n 0 1).1
  else []

/-- 06H-F230: the collection time is unpacked from six bytes once thirteen are there. -/
def items06F230 (data : Bytes) : PyM (List DataField) := do
  let head := [numItem "任务号" (byteAt data 0), bcdItem "从节点地址" (slice data 1 7),
    protoItem "通信协议类型" (byteAt data 7)]
  let time ← if data.length ≥ 13 then
      match slice data 8 14 with
      | [sec, minute, hour, day, month, year] =>
        pure [textField "采集时间" ("20" ++ hex02 year ++ "年" ++ hex02 month ++ "月" ++ hex02 day ++
          "日 " ++ hex02 hour ++ ":" ++ hex02 minute ++ ":" ++ hex02 sec) (hex (slice data 8 14))
          "BCD 秒分时日月年"]
      | _ => throw (.valueError "not enough values to unpack (expected 6, got 5)")
    else pure []
  let content := if data.length ≥ 16 then
      [wordItem "报文长度" data 14 "B" "BIN 2B 小端",
        dumpItem "报文内容" (slice data 16 (16 + le16At data 14))
          "内嵌 645/698 报文（嵌套帧见下）"]
    else []
  pure (head ++ time ++ content)

/-- AFN 06H. -/
def items06 (fn : ℕ) (data : Bytes) : PyM (List DataField) := do
  if fn = 1 ∧ data.length ≥ 1 then
    let n := byteAt data 0
    pure (numItem "上报从节点数量" n ::
      (fixedRows data 9 (fun i bs => nodeItems ("从节点" ++ dec (i + 1)) bs) n 0 1).1)
  else if fn = 2 ∧ data.length ≥ 6 then
    let seq := le16At data 0
    let upLen := le16At data 3
    let plen := byteAt data 5
    pure [textField "从节点序号" (dec seq) (hexPad 4 seq) "",
      protoItem "通信协议类型" (byteAt data 2),
      textField "上行时长" (dec upLen ++ "s") (hexPad 4 upLen) "",
      plenItem plen, dumpItem "上报报文" (slice data 6 (6 + plen))]
  else if fn = 3 ∧ data.length ≥ 1 then
    let b := byteAt data 0
    let text := match (b : ℕ) with
      | 1 => "抄表任务结束"
      | 2 => "搜表任务结束"
      | 3 => "台区识别任务结束"
      | t => "保留(" ++ dec t ++ ")"
    pure [textField "路由工作任务变动类型" text (hex02 b) ""]
  else if fn = 4 ∧ data.length ≥ 1 then
    let n := byteAt data 0
    pure (numItem "上报从节点数量" n :: nodeRows06F4 data n 0 1)
  else if fn = 5 ∧ data.length ≥ 3 then
    let dt := byteAt data 0
    let proto := byteAt data 1
    let plen := byteAt data 2
    let content := slice data 3 (3 + plen)
    pure ([textField "从节点设备类型" (deviceText dt) (hex02 dt) "",
      protoItem "通信协议类型" proto, plenItem plen] ++ eventItems dt proto content ++
      [dumpItem "报文内容" content "事件报文内容"])
  else if fn = 230 ∧ data.length ≥ 10 then items06F230 data
  else pure []

/-- A node row of 10H-F2, F3, F5, F6: the address and the information word. -/
def infoRow (desc : ℕ → String) (i : ℕ) (bs : Bytes) : List DataField :=
  let w := le16At bs 6
  [bcdItem ("从节点" ++ dec (i + 1) ++ "地址") (slice bs 0 6),
    textField ("从节点" ++ dec (i + 1) ++ "信息") ("0x" ++ hexPad 4 w) (hex (slice bs 6 8)) (desc w)]

def qualityRelayText (w : ℕ) : String :=
  "信号品质=" ++ dec ((w >>> 4) &&& 0xF) ++ " 中继级别=" ++ dec (w &&& 0xF)

def nodeInfoText (w : ℕ) : String :=
  qualityRelayText w ++ " 相线=" ++ dec ((w >>> 8) &&& 0xF) ++ " 协议类型=" ++
    dec ((w >>> 12) &&& 0x7)

/-- 10H-F4. -/
def items10F4 (data : Bytes) : List DataField :=
  let st := (byteAt data 0 : ℕ)
  let wk := (byteAt data 7 : ℕ)
  let state := match wk >>> 6 with
    | 0 => "抄表"
    | 1 => "搜表"
    | 2 => "升级"
    | _ => "其他"
  [textField "运行状态字" (hex0x (byteAt data 0)) (hex02 (byteAt data 0))
      ("纠错编码=" ++ dec ((st >>> 4) &&& 0xF) ++ " 上报事件=" ++ dec ((st >>> 3) &&& 1) ++
        " 工作=" ++ dec ((st >>> 2) &&& 1) ++ " 路由完成=" ++ dec ((st >>> 1) &&& 1)),
    wordItem "从节点总数量" data 1, wordItem "已抄从节点数量" data 3,
    wordItem "中继抄到从节点数量" data 5,
    textField "工作开关" (hex0x (byteAt data 7)) (hex02 (byteAt data 7))
      ("当前状态=" ++ state ++ " 台区识别=" ++ dec ((wk >>> 4) &&& 0x3) ++ " 上报事件=" ++
        dec ((wk >>> 3) &&& 1) ++ " 注册允许=" ++ dec ((wk >>> 2) &&& 1) ++ " 工作状态=" ++
        (if (wk >>> 1) &&& 1 ≠ 0 then "学习" else "抄表")),
    textField "通信速率" (rateText data 8) (hex (slice data 8 10)) ""] ++
    (List.range 3).map (fun p =>
      numItem ("第" ++ dec (p + 1) ++ "相中继级别") (byteAt data (10 + p))) ++
    (List.range 3).map (fun p =>
      let v := byteAt data (13 + p)
      textField ("第" ++ dec (p + 1) ++ "相工作步骤") (dec v ++ " (" ++ workStepName v ++ ")")
        (hex02 v) "")

/-- The node loop of 10H-F7, whose rows end with an identifier of announced length. -/
def nodeRows10F7 (data : Bytes) : ℕ → ℕ → ℕ → List DataField
  | 0, _, _ => []
  | n + 1, i, pos =>
    if pos + 11 > data.length then []
    else
      let name := "从节点" ++ dec (i + 1)
      let bs := slice data pos (pos + 11)
      let nt := (byteAt bs 6 : ℕ)
      let kind := match nt &&& 0xF with
        | 0 => "电表模块"
        | 1 => "采集器模块"
        | 15 => "未知"
        | k => dec k
      let idlen := byteAt bs 9
      let idfmt := byteAt bs 10
      let mid := slice data (pos + 11) (pos + 11 + idlen)
      [dumpItem (name ++ "地址") (slice bs 0 6) "BIN 6B",
        textField (name ++ "节点类型") (hex0x (byteAt bs 6)) (hex02 (byteAt bs 6))
          ("更新标识=" ++ dec ((nt >>> 7) &&& 1) ++ " 模块类型=" ++ kind),
        textField (name ++ "模块厂商代码") (asciiReplace (slice bs 7 9)) (hex (slice bs 7 9)) "",
        numItem (name ++ "模块ID号长度") idlen,
        textField (name ++ "模块ID号格式") (idFormatName idfmt) (hex02 idfmt) "",
        textField (name ++ "模块ID号") (decodeId mid idfmt) (hex mid) ""] ++
        nodeRows10F7 data n (i + 1) (pos + 11 + idlen)

/-- A topology row of 10H-F21. -/
def topologyRow (i : ℕ) (bs : Bytes) : List DataField :=
  let name := "节点" ++ dec (i + 1)
  let info := (byteAt bs 10 : ℕ)
  [dumpItem (name ++ "地址") (slice bs 0 6) "BIN 6B",
    textField (name ++ "TEI") (dec (le16At bs 6)) (hexPad 4 (le16At bs 6)) "节点标识",
    textField (name ++ "代理节点标识") (dec (le16At bs 8)) (hexPad 4 (le16At bs 8)) "",
    textField (name ++ "网络拓扑")
      ("层级=" ++ dec (info &&& 0xF) ++ " 角色=" ++ nodeRoleName (info >>> 4))
      (hex02 (byteAt bs 10)) ""]

/-- A phase row of 10H-F31. -/
def phaseRow (i : ℕ) (bs : Bytes) : List DataField :=
  let name := "节点" ++ dec (i + 1)
  let w := le16At bs 6
  let phases := "+".intercalate ((List.range 3).filterMap (fun p =>
    if (w >>> p) &&& 1 ≠ 0 then some (dec (p + 1)) else none))
  [dumpItem (name ++ "地址") (slice bs 0 6) "BIN 6B",
    textField (name ++ "相线信息") ("0x" ++ hexPad 4 w) (hex (slice bs 6 8))
      ("相位=" ++ (if phases ≠ "" then phases else "无") ++ " 电表类型=" ++
        (if (w >>> 4) &&& 1 ≠ 0 then "三相表" else "单相表") ++ " 线路异常=" ++
        (if (w >>> 5) &&& 1 ≠ 0 then "有" else "无") ++ " 相序类型=" ++ dec ((w >>> 5) &&& 0x7))]

/-- A chip row of 10H-F112. -/
def chipRow (i : ℕ) (bs : Bytes) : List DataField :=
  let name := "节点" ++ dec (i + 1)
  [dumpItem (name ++ "地址") (slice bs 0 6) "BIN 6B",
    textField (name ++ "设备类型") (hex0x (byteAt bs 6)) (hex02 (byteAt bs 6)) "",
    dumpItem (name ++ "芯片ID信息") (slice bs 7 31) "24B",
    textField (name ++ "芯片软件版本") (bcdToStr (slice bs 31 33)) (hex (slice bs 31 33)) "BCD 2B"]

/-- A version row of 10H-F101. -/
def versionRow (i : ℕ) (bs : Bytes) : List DataField :=
  let name := "从节点" ++ dec (i + 1)
  infoRow qualityRelayText i bs ++ [dumpItem (name ++ "软件版本") (slice bs 8 11)]

/-- The uplink forms of 10H-F21, F31 and F112, whose guard asks for three bytes only. -/
def pagedItems (data : Bytes) (size : ℕ) (row : ℕ → Bytes → List DataField) :
    PyM (List DataField) := do
  let start ← le16Checked data 2
  let n ← index data 4
  pure ([wordItem "节点总数量" data 0,
    textField "节点起始序号" (dec start) (hex (slice data 2 4)) "",
    numItem "本次应答的节点数量" n] ++ (fixedRows data size row n 0 5).1)

/-- The downlink request of a page: start number and count. -/
def pageRequest (startName countName : String) (data : Bytes) : List DataField :=
  [wordItem startName data 0, numItem countName (byteAt data 2)]

/-- AFN 10H. -/
def items10 (fn : ℕ) (data : Bytes) (up : Bool) : PyM (List DataField) := do
  if fn = 1 ∧ data.length ≥ 4 then
    pure [wordItem "从节点总数量" data 0 "" "BIN 2B 小端", wordItem "路由支持最大从节点数量" data 2]
  else if (fn = 2 ∨ fn = 5 ∨ fn = 6) ∧ data.length ≥ 3 then
    let name := if fn = 2 then "从节点" else if fn = 5 then "未抄读成功从节点" else "主动注册从节点"
    if ¬ up then pure (pageRequest (name ++ "起始序号") (name ++ "数量") data)
    else
      let n := byteAt data 2
      pure ([wordItem (name ++ "总数量") data 0, numItem ("本次应答的" ++ name ++ "数量") n] ++
        (fixedRows data 8 (infoRow nodeInfoText) n 0 3).1)
  else if fn = 3 then
    if ¬ up ∧ data.length ≥ 6 then pure [bcdItem "从节点地址" (slice data 0 6)]
    else if up ∧ data.length ≥ 1 then
      let n := byteAt data 0
      pure (numItem "提供路由的从节点总数量" n ::
        (fixedRows data 8 (infoRow qualityRelayText) n 0 1).1)
    else pure []
  else if fn = 4 ∧ data.length ≥ 17 then pure (items10F4 data)
  else if fn = 7 ∧ data.length ≥ 3 then
    if ¬ up then pure (pageRequest "从节点起始序号" "从节点数量" data)
    else
      let n := byteAt data 2
      pure ([wordItem "从节点总数量" data 0, numItem "本次应答的从节点数量" n] ++
        nodeRows10F7 data n 0 3)
  else if fn = 9 ∧ data.length ≥ 2 then pure [wordItem "网络规模" data 0 "" "HPLC"]
  else if fn = 21 ∧ data.length ≥ 3 then
    if ¬ up then pure (pageRequest "节点起始序号" "节点数量" data)
    else pagedItems data 11 topologyRow
  else if fn = 31 ∧ data.length ≥ 3 then
    if ¬ up then pure (pageRequest "节点起始序号" "节点数量" data)
    else pagedItems data 8 phaseRow
  else if fn = 40 ∧ data.length ≥ 8 then
    let dev := byteAt data 0
    let idType := byteAt data 7
    let idName := match (idType : ℕ) with
      | 1 => "芯片ID(长度24)"
      | 2 => "模块ID(长度11)"
      | _ => "保留"
    pure ([textField "设备类型" (dec dev ++ " (" ++ pipelineDevName dev ++ ")") (hex02 dev) "",
      dumpItem "节点地址" (slice data 1 7) "BIN 6B",
      textField "ID类型" (dec idType ++ " (" ++ idName ++ ")") (hex02 idType) ""] ++
      if up ∧ data.length ≥ 9 then
        let idlen := byteAt data 8
        [numItem "ID长度" idlen, dumpItem "ID信息" (slice data 9 (9 + idlen))]
      else [])
  else if fn = 100 ∧ data.length ≥ 2 then pure [wordItem "网络规模" data 0 "" "无线微功率"]
  else if fn = 101 ∧ data.length ≥ 3 then
    if ¬ up then pure (pageRequest "从节点起始序号" "从节点数量" data)
    else
      let n := byteAt data 2
      pure ([wordItem "从节点总数量" data 0, numItem "本次应答的从节点数量" n] ++
        (fixedRows data 11 versionRow n 0 3).1)
  else if fn = 104 ∧ data ≠ [] then
    pure [dumpItem "应用数据" data "查询升级后模块版本信息（蒸馏文档未给出格式，原始hex展示）"]
  else if fn = 111 ∧ data.length ≥ 10 then
    let n := byteAt data 0
    pure ([numItem "多网络节点总数量" n,
      textField "本节点网络标识号" (dec (leUnsigned (slice data 1 4))) (hex (slice data 1 4))
        "NID 3B 小端，1~16777215",
      dumpItem "本节点主节点地址" (slice data 4 10) "BIN 6B"] ++
      (fixedRows data 3 (fun i bs => [textField ("邻居节点" ++ dec (i + 1) ++ "网络标识号")
        (dec (leUnsigned bs)) (hex bs) ""]) ((n : ℕ) - 1) 0 10).1)
  else if fn = 112 ∧ data.length ≥ 3 then
    if ¬ up then pure (pageRequest "节点起始序号" "节点数量" data)
    else pagedItems data 33 chipRow
  else pure []

/-- AFN 11H. -/
def items11 (fn : ℕ) (data : Bytes) : List DataField :=
  let b := byteAt data 0
  if fn = 1 ∧ data.length ≥ 1 then
    numItem "从节点数量/操作标志" b "国网=从节点数量n；安徽扩展=1添加/0删除" ::
      (fixedRows data 7 (fun i bs =>
        [bcdItem ("从节点" ++ dec (i + 1) ++ "地址") (slice bs 0 6),
          protoItem ("从节点" ++ dec (i + 1) ++ "通信协议类型") (byteAt bs 6)]) data.length 0 1).1
  else if fn = 2 ∧ data.length ≥ 1 then
    numItem "从节点数量" b ::
      (fixedRows data 6 (fun i bs => [bcdItem ("从节点" ++ dec (i + 1) ++ "地址") bs]) b 0 1).1
  else if fn = 3 ∧ data.length ≥ 7 then
    let lv := byteAt data 6
    [bcdItem "从节点地址" (slice data 0 6), numItem "中继级别" lv] ++
      (fixedRows data 6 (fun i bs => [bcdItem ("第" ++ dec (i + 1) ++ "级中继从节点地址") bs]) lv 0 7).1
  else if fn = 4 ∧ data.length ≥ 3 then
    let mode := (b : ℕ)
    [textField "工作模式" (hex0x b) (hex02 b) ("纠错编码=" ++ dec ((mode >>> 4) &&& 0xF) ++
        " 注册允许=" ++ dec ((mode >>> 1) &&& 1) ++ " 工作状态=" ++
        (if mode &&& 1 ≠ 0 then "学习" else "抄表")),
      textField "通信速率" (rateText data 1) (hex (slice data 1 3)) "D15=速率单位标识"]
  else if fn = 5 ∧ data.length ≥ 10 then
    [textField "开始时间" (bcdTimeText data) (hex (slice data 0 6)) "BCD 秒分时日月年",
      wordItem "持续时间" data 6 "min",
      numItem "从节点重发次数" (byteAt data 8),
      numItem "随机等待时间片个数" (byteAt data 9) "时间片=150ms"]
  else if fn = 100 ∧ data.length ≥ 2 then [wordItem "网络规模" data 0]
  else
    match fn with
    | 6 => [textField "路由设置命令" "终止从节点主动注册" "" "无数据单元"]
    | 101 => [textField "路由设置命令" "启动网络维护进程" "" "无数据单元"]
    | 102 => [textField "路由设置命令" "启动组网" "" "无数据单元"]
    | _ => []

/-- AFN 12H. -/
def items12 (fn : ℕ) : List DataField :=
  let name := match fn with
    | 1 => "重启"
    | 2 => "暂停"
    | 3 => "恢复"
    | f => "F" ++ dec f
  [textField "路由控制命令" name "" "无数据单元"]

/-- A row of attached node addresses. -/
def attachedRow (i : ℕ) (bs : Bytes) : List DataField :=
  [bcdItem ("附属节点" ++ dec (i + 1) ++ "地址") bs]

/-- AFN 13H, F1. -/
def items13F1 (data : Bytes) (up : Bool) : List DataField :=
  if ¬ up ∧ data.length ≥ 3 then
    let n := byteAt data 2
    let subs := fixedRows data 6 attachedRow n 0 3
    let pos := subs.2
    [protoItem "通信协议类型" (byteAt data 0),
      textField "通信延时相关性标志" (if byteAt data 1 ≠ 0 then "与延时相关" else "与延时无关")
        (hex02 (byteAt data 1)) "",
      numItem "从节点附属节点数量" n] ++ subs.1 ++
      if pos < data.length then
        let plen := byteAt data pos
        [plenItem plen, dumpItem "报文内容" (slice data (pos + 1) (pos + 1 + plen))
          "监控报文（内嵌645/698，递归解析）"]
      else []
  else if up ∧ data.length ≥ 4 then
    let plen := byteAt data 3
    [wordItem "当前报文本地通信上行时长" data 0 "s", protoItem "通信协议类型" (byteAt data 2),
      plenItem plen, dumpItem "报文内容" (slice data 4 (4 + plen)) "应答报文（内嵌645/698，递归解析）"]
  else []

/-- 14H-F1 downlink. -/
def items14F1Down (data : Bytes) : List DataField :=
  let flag := byteAt data 0
  let flagText := match (flag : ℕ) with
    | 0 => "抄读失败"
    | 1 => "抄读成功"
    | 2 => "可以抄读"
    | f => "保留(" ++ dec f ++ ")"
  let ln := byteAt data 2
  let pos := 3 + (ln : ℕ)
  [textField "抄读标志" flagText (hex02 flag) "",
    textField "通信延时相关性标志" (if byteAt data 1 ≠ 0 then "相关" else "无关")
      (hex02 (byteAt data 1)) "",
    textField "路由请求数据长度" (dec ln ++ "B") (hex02 ln) "",
    dumpItem "路由请求数据内容" (slice data 3 (3 + ln))] ++
    if pos < data.length then
      let n := byteAt data pos
      numItem "从节点附属节点数量" n :: (fixedRows data 6 attachedRow n 0 (pos + 1)).1
    else []

/-- AFN 14H. -/
def items14 (fn : ℕ) (data : Bytes) (up : Bool) : List DataField :=
  if fn = 1 then
    if up ∧ data.length ≥ 9 then
      let phase := byteAt data 0
      let phaseText := match (phase : ℕ) with
        | 0 => "未知相"
        | 1 => "第1相"
        | 2 => "第2相"
        | 3 => "第3相"
        | p => "保留(" ++ dec p ++ ")"
      [textField "通信相位" phaseText (hex02 phase) "", bcdItem "从节点地址" (slice data 1 7),
        wordItem "从节点序号" data 7]
    else if ¬ up ∧ data.length ≥ 3 then items14F1Down data
    else []
  else if fn = 2 then
    if ¬ up ∧ data.length ≥ 6 then
      [textField "集中器时间" (bcdTimeText data) (hex (slice data 0 6)) "BCD 秒分时日月年"]
    else []
  else if fn = 3 then
    if up ∧ data.length ≥ 9 then
      let ln := byteAt data 8
      [bcdItem "从节点地址" (slice data 0 6), wordItem "预计延迟时间" data 6 "s",
        textField "抄读信息长度" (dec ln ++ "B") (hex02 ln) "",
        dumpItem "抄读数据内容" (slice data 9 (9 + ln))]
    else if ¬ up ∧ data.length ≥ 1 then
      let ln := byteAt data 0
      [textField "数据长度" (dec ln ++ "B") (hex02 ln) "L=0放弃本次通信",
        dumpItem "修正通信数据内容" (slice data 1 (1 + ln))]
    else []
  else if fn = 4 ∧ data.length ≥ 5 then
    let kind := byteAt data 0
    let kindText := match (kind : ℕ) with
      | 1 => "DL/T645-2007"
      | 2 => "DL/T698.45"
      | k => "保留(" ++ dec k ++ ")"
    [textField "数据项类型" kindText (hex02 kind) "", dumpItem "交采数据项标识" (slice data 1 5)] ++
      if ¬ up ∧ data.length > 5 then [dumpItem "交采数据项内容" (data.drop 5)] else []
  else []

/-- AFN 15H, F1. -/
def items15F1 (data : Bytes) (up : Bool) : List DataField :=
  if ¬ up ∧ data.length ≥ 11 then
    let fid := byteAt data 0
    let lf := le16At data 9
    [textField "文件标识" (hex0x fid ++ " (" ++ fileIdName fid ++ ")") (hex02 fid) "",
      textField "文件属性" (if byteAt data 1 ≠ 0 then "结束帧" else "起始帧/中间帧")
        (hex02 (byteAt data 1)) "",
      textField "文件指令" (hex0x (byteAt data 2)) (hex02 (byteAt data 2)) "00H=报文方式下装",
      wordItem "总段数" data 3, dumpItem "段标识" (slice data 5 9),
      textField "段数据长度" (dec lf ++ "B") (hexPad 4 lf) "",
      dumpItem "文件数据" (slice data 11 (11 + lf))]
  else if up ∧ data.length ≥ 4 then
    [dumpItem "收到当前段标识" (slice data 0 4) "0xFFFF=文件错误"]
  else []

/-- AFN F1H, F1. -/
def itemsF1F1 (data : Bytes) (up : Bool) : List DataField :=
  let lenDesc := "L=0抄表失败（链路层源地址A1=失败电表地址）"
  if ¬ up ∧ data.length ≥ 4 then
    let ln := le16At data 2
    [protoItem "规约类型" (byteAt data 0), textField "保留" (hex0x (byteAt data 1))
      (hex02 (byteAt data 1)) "",
      textField "报文长度" (dec ln ++ "B") (hexPad 4 ln) lenDesc,
      dumpItem "报文内容" (slice data 4 (4 + ln)) "并发抄表报文（内嵌645/698，递归解析）"]
  else if up ∧ data.length ≥ 3 then
    let ln := le16At data 1
    [protoItem "规约类型" (byteAt data 0),
      textField "报文长度" (dec ln ++ "B") (hexPad 4 ln) lenDesc,
      dumpItem "报文内容" (slice data 3 (3 + ln))]
  else []

/-- `_app_items`. -/
def appItems (afn : Byte) (fn : ℕ) (data : Bytes) (direction : Direction) :
    PyM (List DataField) :=
  let up : Bool := direction = .up
  match (afn : ℕ) with
  | 0x00 => pure (items00 fn data)
  | 0x01 => pure (items01 fn)
  | 0x02 => pure (items02 fn data)
  | 0x03 => pure (items03 fn data up)
  | 0x04 => pure (items04 fn data)
  | 0x05 => pure (items05 fn data)
  | 0x06 => items06 fn data
  | 0x10 => items10 fn data up
  | 0x11 => pure (items11 fn data)
  | 0x12 => pure (items12 fn)
  | 0x13 => pure (if fn = 1 then items13F1 data up else [])
  | 0x14 => pure (items14 fn data up)
  | 0x15 => pure (if fn = 1 then items15F1 data up else [])
  | 0xF1 => pure (if fn = 1 then itemsF1F1 data up else [])
  | _ => pure []

end HplcWorkbench.Adapter10376
