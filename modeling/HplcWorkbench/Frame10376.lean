import HplcWorkbench.LinkFields

/-!
# Building, cutting and reading a 1376.2 frame

The frame is `68 | L | C | R A AFN DT1 DT2 data | CS | 16`, with `L` the length of the whole
frame and `CS` the sum from `C` on. `decodeHeader` is the part of `decode` that walks from the
length to the application data; `headerFields` is how it prints what it found.
-/

namespace HplcWorkbench.Adapter10376

/-- The keyword arguments of `build_frame` with their defaults. -/
structure FrameArgs where
  direction : Direction := .down
  commMode : ℕ := 3
  prm : Option ℕ := none
  info : InfoArg := {}
  address : AddressArg := {}
  afn : ℕ := 0x03
  fn : ℕ := 1
  appdata : Bytes := []
  endByte : ℕ := 0x16
  deriving DecidableEq, Repr

/-- An address field without an explicit module mark sets the mark to 1. -/
def markAddress (info : InfoArg) (addrBytes : Bytes) : InfoArg :=
  if addrBytes ≠ [] ∧ info.moduleId = none then { info with moduleId := some 1 } else info

/-- Length, control byte, checksum and end byte around the user data. -/
def linkFrame (c : Byte) (userdata : Bytes) (endByte : ℕ) : Bytes :=
  let L := userdata.length + 6
  let frame := [0x68, byte (L &&& 0xFF), byte ((L >>> 8) &&& 0xFF), c] ++ userdata
  let cs := byteSum (frame.drop 3) % 256
  frame ++ [byte cs, byte (endByte &&& 0xFF)]

def userData (a : FrameArgs) (addrBytes : Bytes) : Bytes :=
  let dt := fnToDt a.fn
  packInfo a.direction (markAddress a.info addrBytes) ++ addrBytes ++
    [byte (a.afn &&& 0xFF), dt.1, dt.2] ++ a.appdata

def buildFrame (a : FrameArgs) : PyM Bytes := do
  let addrBytes ← packAddress a.address
  pure (linkFrame (packControl a.direction a.prm a.commMode) (userData a addrBytes) a.endByte)

/-- `try_extract`: the whole buffer must be the frame. -/
def tryExtract (buf : Bytes) : Option ExtractResult :=
  let n := buf.length
  if n < 12 ∨ byteAt buf 0 ≠ 0x68 ∨ byteAt buf (n - 1) ≠ 0x16 then none
  else if byteAt buf 3 = 0x68 then none
  else
    let L := le16 (byteAt buf 1) (byteAt buf 2)
    if L ≠ n then none
    else if L < 10 then none
    else some ⟨buf, n⟩

/-- Bytes of the address field, as the module mark and the relay level announce them. -/
def addrLen (info : Info) : ℕ :=
  if info.moduleId = 1 then 6 + 6 * info.relayLevel + 6 else 0

/-! ## Reading the header -/

/-- `_AFN_NAMES.get(afn, ...)`. -/
def afnName (afn : Byte) : String :=
  match (afn : ℕ) with
  | 0x00 => "确认/否认"
  | 0x01 => "初始化"
  | 0x02 => "数据转发"
  | 0x03 => "查询数据"
  | 0x04 => "链路接口检测"
  | 0x05 => "控制命令"
  | 0x06 => "主动上报"
  | 0x10 => "路由查询"
  | 0x11 => "路由设置"
  | 0x12 => "路由控制"
  | 0x13 => "路由数据转发"
  | 0x14 => "路由数据抄读"
  | 0x15 => "文件传输"
  | 0xF0 => "内部调试"
  | 0xF1 => "并发抄表"
  | _ => "AFN-" ++ hex0x afn

/-- `afn in _AFN_NAMES`. -/
def afnKnown (afn : Byte) : Bool :=
  (afn : ℕ) ∈ [0x00, 0x01, 0x02, 0x03, 0x04, 0x05, 0x06, 0x10, 0x11, 0x12, 0x13, 0x14, 0x15,
    0xF0, 0xF1]

/-- What `decode` knows of a frame before it looks into the application data. -/
structure Header where
  L : ℕ
  c : Byte
  ctl : Control
  infoRaw : Bytes
  info : Info
  addrRaw : Bytes
  address : Address
  afn : Byte
  dt1 : Byte
  dt2 : Byte
  fn : ℕ
  appdata : Bytes
  csByte : Byte
  cs : ℕ
  deriving DecidableEq, Repr

/-- `cs_ok`. -/
def Header.csOk (h : Header) : Bool := h.cs = h.csByte

/-- The walk of `decode` up to the application data. `none` is its early return with the
warning that AFN and DT are missing. -/
def decodeHeader (raw : Bytes) : PyM (Option Header) := do
  let lo ← index raw 1
  let hi ← index raw 2
  let c ← index raw 3
  let ctl := parseControl c
  let userdata := slice raw 4 (raw.length - 2)
  let infoRaw := slice userdata 0 6
  let info := parseInfo ctl.direction infoRaw
  let pos := 6 + addrLen info
  let addrRaw := slice userdata 6 pos
  let address := if info.moduleId = 1 then parseAddress addrRaw else .absent
  if pos + 3 > userdata.length then pure none
  else
    let dt1 := byteAt userdata (pos + 1)
    let dt2 := byteAt userdata (pos + 2)
    pure (some {
      L := le16 lo hi
      c := c
      ctl := ctl
      infoRaw := infoRaw
      info := info
      addrRaw := addrRaw
      address := address
      afn := byteAt userdata pos
      dt1 := dt1
      dt2 := dt2
      fn := dtToFn dt1 dt2
      appdata := userdata.drop (pos + 3)
      csByte := byteAt raw (raw.length - 2)
      cs := byteSum (slice raw 3 (raw.length - 2)) % 256 })

/-- `_afn_pos`: the byte where `confidence` expects the AFN. -/
def afnPos (raw : Bytes) : Byte :=
  let direction : Direction := if ((byteAt raw 3 : ℕ) >>> 7) &&& 0x01 ≠ 0 then .up else .down
  let info := parseInfo direction (slice raw 4 10)
  if 10 + addrLen info < raw.length then byteAt raw (10 + addrLen info) else 0

/-- `confidence`, in hundredths. -/
def confidence (raw : Bytes) : ℕ :=
  let n := raw.length
  if n < 12 ∨ byteAt raw 0 ≠ 0x68 ∨ byteAt raw (n - 1) ≠ 0x16 ∨ byteAt raw 3 = 0x68 then 0
  else
    let L := le16 (byteAt raw 1) (byteAt raw 2)
    if L ≠ n ∨ L < 10 then 0
    else
      let comm := (byteAt raw 3 : ℕ) &&& 0x3F
      let afnIsKnown := if n ≥ 14 then afnKnown (afnPos raw) else false
      let cs := byteSum (slice raw 3 (n - 2)) % 256
      if cs = byteAt raw (n - 2) then
        if commModeKnown comm || afnIsKnown then 100 else 90
      else 50

def Header.addrHex (h : Header) : String := hex h.addrRaw

def Header.csDesc (h : Header) : String :=
  "校验" ++ if h.csOk then "通过" else "失败(计算0x" ++ hexPad 2 h.cs ++ ")"

/-- The fields `decode` appends to the frame, in its order. -/
def headerFields (h : Header) : List DataField :=
  let cHex := hex02 h.c
  let afnValue := "0x" ++ hex02 h.afn ++ " (" ++ afnName h.afn ++ ")"
  [ ⟨"长度L", .int h.L, none, hexPad 4 h.L, .int h.L, ""⟩,
    ⟨"控制域C", .str ("0x" ++ cHex ++ " (DIR=" ++ toString h.ctl.dir ++ " PRM=" ++
      toString h.ctl.prm ++ " 通信方式=" ++ commModeName h.ctl.commMode ++ ")"), none, cHex,
      .int (h.c : ℕ), "方向=" ++ h.ctl.direction.text ++ "; 启动标志=" ++
        (if h.ctl.prm ≠ 0 then "启动站" else "从动站")⟩,
    ⟨"信息域R", .str (hex h.infoRaw), none, hex h.infoRaw, .str (hex h.infoRaw),
      "relay_level=" ++ toString h.info.relayLevel ++ " module_id=" ++
        toString h.info.moduleId ++ " seq=" ++ toString h.info.seq⟩,
    ⟨"地址域A", .str (if h.addrRaw ≠ [] then h.addrHex else "(无)"), none, h.addrHex,
      .str h.addrHex, ""⟩,
    ⟨"AFN", .str afnValue, none, hex02 h.afn, .int (h.afn : ℕ), ""⟩,
    ⟨"数据单元标识", .str ("DT1=" ++ hex0x h.dt1 ++ " DT2=" ++ hex0x h.dt2), none,
      hex02 h.dt1 ++ " " ++ hex02 h.dt2, .list [.int (h.dt1 : ℕ), .int (h.dt2 : ℕ)], ""⟩,
    ⟨"FN", .str ("F" ++ toString h.fn), none, hexPad 2 h.fn, .int h.fn, ""⟩,
    ⟨"校验和CS", .str (hex0x h.csByte), none, hex02 h.csByte, .int (h.csByte : ℕ), h.csDesc⟩ ]

/-- The item that repeats the AFN. -/
def afnItem (h : Header) : DataField :=
  ⟨"AFN", .str ("0x" ++ hex02 h.afn ++ " (" ++ afnName h.afn ++ ")"), none, hex02 h.afn,
    .int (h.afn : ℕ), "应用层功能码"⟩

/-- The checksum warning, when there is one. -/
def headerWarnings (h : Header) : List String :=
  if h.csOk then []
  else ["CS校验失败: 帧内" ++ hex0x h.csByte ++ " vs 计算0x" ++ hexPad 2 h.cs]

end HplcWorkbench.Adapter10376
