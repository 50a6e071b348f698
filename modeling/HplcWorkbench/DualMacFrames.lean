import HplcWorkbench.Bytes
import HplcWorkbench.ReflectedCrc

/-!
# Frames of the dual-mode link layer

A captured frame has a header of its own, the frame control header, the region of the payload and
a tail. The variable part of the control header depends on the delimiter; the region of an SOF
frame starts with a MAC header, which tells where the MSDU and its check value are.
-/

namespace HplcWorkbench.DualMac

/-! ## Reads -/

/-- `b[off]`. Here and below a read is `none` where it raises an `IndexError`. -/
def u8At (b : Bytes) (off : ℕ) : Option ℕ := b[off]?.map Fin.val

def le16At (b : Bytes) (off : ℕ) : Option ℕ := do
  pure ((← u8At b off) ||| (← u8At b (off + 1)) <<< 8)

def le24At (b : Bytes) (off : ℕ) : Option ℕ := do
  pure ((← u8At b off) ||| (← u8At b (off + 1)) <<< 8 ||| (← u8At b (off + 2)) <<< 16)

def le32At (b : Bytes) (off : ℕ) : Option ℕ := do
  pure ((← u8At b off) ||| (← u8At b (off + 1)) <<< 8 ||| (← u8At b (off + 2)) <<< 16 |||
    (← u8At b (off + 3)) <<< 24)

/-- `get_tei`: the low byte first, the high half byte behind it. -/
def getTei (b : Bytes) (off : ℕ) : Option ℕ := do
  pure ((← u8At b off) ||| ((← u8At b (off + 1)) &&& 0x0F) <<< 8)

/-- `data.hex().upper()`. -/
def hexUpper (data : Bytes) : String := upper (hex data)

/-- `int.from_bytes(data, "little")`. -/
def fromLittle (data : Bytes) : ℕ := data.foldr (fun b n => b.val + 256 * n) 0

/-- `zlib.crc32`. -/
def crc32 (data : Bytes) : ℕ :=
  ReflectedCrc.register 0xEDB88320 0xFFFFFFFF (data.map Fin.val) ^^^ 0xFFFFFFFF

/-- `verify_icv` and `verify_bpcs`. -/
def verifyCrc (data check : Bytes) : Bool :=
  if check.length < 4 then false else crc32 data = fromLittle (check.take 4)

/-! ## The captured frame -/

def gwPrefix : Bytes := [0x7E, 0xFF, 0x02]

/-- `strip_gw` of a byte string. -/
def stripGw (raw : Bytes) : PyM Bytes :=
  let data :=
    if raw.take 3 = gwPrefix then
      let data := raw.drop 3
      if data.getLast? = some 0x7E then data.dropLast else data
    else raw
  if data.length < 36 then throw (.valueError "GW 帧长度不足") else pure data

structure GwFrame where
  gwHeader : Bytes
  fch : Bytes
  region : Bytes
  gwTail : Bytes
  delimiter : ℕ
  nid : ℕ
  warnings : List String

/-- `le24(b, off)` where the length has been checked. -/
def nidAt (b : Bytes) (off : ℕ) : ℕ :=
  (byteAt b off).val ||| (byteAt b (off + 1)).val <<< 8 ||| (byteAt b (off + 2)).val <<< 16

/-- `parse_gw_frame`. -/
def parseGwFrame (data : Bytes) : PyM GwFrame :=
  if data.length < 36 then throw (.valueError "GW 帧长度不足")
  else
    let fch := slice data 20 36
    let rest := data.drop 36
    let region := if 4 ≤ rest.length then rest.take (rest.length - 4) else []
    let delimiter := (byteAt fch 0).val &&& 0x07
    pure
      { gwHeader := data.take 20
        fch := fch
        region := region
        gwTail := if 4 ≤ rest.length then rest.drop (rest.length - 4) else rest
        delimiter := delimiter
        nid := nidAt fch 1
        warnings := if delimiter = 2 ∧ region ≠ [] then ["选择确认帧携带意外载荷区"] else [] }

/-! ## The frame control header -/

structure VarSof where
  teis : ℕ
  teid : ℕ
  lid : ℕ
  frameTime10us : ℕ
  pbcnt : ℕ
  symbols : ℕ
  broadcast : Bool
  retrans : Bool
  encrypt : Bool
  baseTmi : ℕ
  expandTmi : ℕ

structure VarSack where
  recvResult : ℕ
  recvState : ℕ
  teis : ℕ
  teid : ℕ
  pbcnt : ℕ
  lqi : ℕ
  staLoad : ℕ
  expandFrameType : ℕ

structure VarBeacon where
  ntb : ℕ
  teis : ℕ
  baseTmi : ℕ
  mcs : ℕ
  symbols : ℕ
  phase : ℕ
  pbszIndex : ℕ

structure VarCoord where
  durationMs : ℕ
  offsetMs : ℕ
  neighborNid : ℕ
  rfChnl : ℕ
  rfOption : ℕ

inductive Variable
  | absent
  | sof (v : VarSof)
  | sack (v : VarSack)
  | beacon (v : VarBeacon)
  | coord (v : VarCoord)

structure Fch where
  delimiter : ℕ
  nwkType : ℕ
  nid : ℕ
  version : ℕ
  fccs : ℕ
  varFields : Variable
  warnings : List String

/-- `_tei_pair_hi_lo`. -/
def teiPairHiLo (b : Bytes) (loOff hiOff : ℕ) : Option ℕ := do
  pure ((← u8At b loOff) >>> 4 &&& 0x0F ||| (← u8At b hiOff) <<< 4)

def varSof (f : Bytes) : Option VarSof := do
  pure
    { teis := ← getTei f 4
      teid := ← teiPairHiLo f 5 6
      lid := ← u8At f 7
      frameTime10us := ← getTei f 8
      pbcnt := (← u8At f 9) >>> 4 &&& 0x0F
      symbols := (← u8At f 10) + ((← u8At f 11) &&& 1) * 256
      broadcast := (← u8At f 11).testBit 1
      retrans := (← u8At f 11).testBit 2
      encrypt := (← u8At f 11).testBit 3
      baseTmi := (← u8At f 11) >>> 4 &&& 0x0F
      expandTmi := (← u8At f 12) &&& 0x0F }

def varSack (f : Bytes) : Option VarSack := do
  pure
    { recvResult := (← u8At f 4) &&& 0x0F
      recvState := (← u8At f 4) >>> 4 &&& 0x0F
      teis := ← getTei f 5
      teid := ← teiPairHiLo f 6 7
      pbcnt := (← u8At f 8) &&& 0x07
      lqi := ← u8At f 9
      staLoad := ← u8At f 10
      expandFrameType := (← u8At f 12) &&& 0x0F }

def varBeacon (f : Bytes) : Option VarBeacon := do
  pure
    { ntb := ← le32At f 4
      teis := ← getTei f 8
      baseTmi := (← u8At f 9) >>> 4 &&& 0x0F
      mcs := (← u8At f 9) >>> 4 &&& 0x0F
      symbols := (← u8At f 10) + ((← u8At f 11) &&& 1) * 256
      phase := (← u8At f 11) >>> 1 &&& 0x03
      pbszIndex := (← u8At f 10) &&& 0x0F }

def varCoord (f : Bytes) : Option VarCoord := do
  pure
    { durationMs := ← le16At f 4
      offsetMs := ← le16At f 6
      neighborNid := ← le24At f 8
      rfChnl := ← u8At f 11
      rfOption := (← u8At f 12) &&& 0x03 }

def variablePart (delimiter : ℕ) (f : Bytes) : Option Variable :=
  match delimiter with
  | 1 => (varSof f).map .sof
  | 2 => (varSack f).map .sack
  | 0 => (varBeacon f).map .beacon
  | 3 => (varCoord f).map .coord
  | _ => some .absent

/-- `parse_fch`. -/
def parseFch (f : Bytes) : PyM Fch :=
  if f.length < 16 then throw (.valueError "FCH 不足 16 字节")
  else
    let delimiter := (byteAt f 0).val &&& 0x07
    let nwkType := (byteAt f 0).val >>> 3 &&& 0x1F
    let found := variablePart delimiter f
    pure
      { delimiter := delimiter
        nwkType := nwkType
        nid := nidAt f 1
        version := (byteAt f 12).val >>> 4 &&& 0x0F
        fccs := nidAt f 13
        varFields := found.getD .absent
        warnings :=
          (if nwkType ≠ 0 then ["网络类型非 0（" ++ toString nwkType ++ "），按保留值处理"] else []) ++
            if found.isNone then ["可变区解析越界，已尽力解析"] else [] }

/-! ## The MAC header and the MSDU -/

structure MacHeader where
  version : ℕ
  teis : ℕ
  teid : ℕ
  sendType : ℕ
  sendTimes : ℕ
  msduSqn : ℕ
  msduType : ℕ
  msduLen : ℕ
  restartTimes : ℕ
  proxyPathFlag : Bool
  hops : ℕ
  remainHops : ℕ
  broadcastDir : ℕ
  pathRepair : Bool
  macaddrFlag : Bool
  netFormNo : ℕ
  osMac : Bytes
  odMac : Bytes
  headerLen : ℕ
  warnings : List String

/-- `parse_mac_header`. -/
def parseMacHeader (region : Bytes) : PyM MacHeader :=
  if region.length < 16 then throw (.valueError "载荷区不足 16 字节，无法解析 MAC 帧头")
  else
    let h := fun i => (byteAt region i).val
    let version := h 0 &&& 0x0F
    let macaddrFlag := (h 11).testBit 3
    let addressed := macaddrFlag ∧ 28 ≤ region.length
    pure
      { version := version
        teis := h 0 >>> 4 ||| h 1 <<< 4
        teid := h 2 ||| (h 3 &&& 0x0F) <<< 8
        sendType := h 3 >>> 4 &&& 0x0F
        sendTimes := h 4 &&& 0x1F
        msduSqn := le16 (byteAt region 5) (byteAt region 6)
        msduType := h 7
        msduLen := (h 9 &&& 0x07) <<< 8 ||| h 8
        restartTimes := h 9 >>> 3 &&& 0x0F
        proxyPathFlag := (h 9).testBit 7
        hops := h 10 &&& 0x0F
        remainHops := h 10 >>> 4 &&& 0x0F
        broadcastDir := h 11 &&& 0x03
        pathRepair := (h 11).testBit 2
        macaddrFlag := macaddrFlag
        netFormNo := h 13
        osMac := if addressed then slice region 16 22 else []
        odMac := if addressed then slice region 22 28 else []
        headerLen := if macaddrFlag then 28 else 16
        warnings :=
          (if version = 1 then ["单跳帧（版本1）头布局不同，本解析器按标准帧处理"] else []) ++
            if macaddrFlag ∧ region.length < 28 then ["MAC 地址标志=1 但载荷区不足 28B"] else [] }

def MacHeader.sendTypeName (h : MacHeader) : String :=
  match h.sendType with
  | 0 => "单播"
  | 1 => "全网广播"
  | 2 => "本地广播"
  | 3 => "代理广播"
  | n => "保留(" ++ toString n ++ ")"

structure Msdu where
  data : Bytes
  truncated : Bool
  icvOk : Option Bool
  icv : Bytes

/-- `extract_msdu`. -/
def extractMsdu (region : Bytes) (header : MacHeader) : Msdu :=
  let start := header.headerLen
  let stop := start + header.msduLen
  let data := slice region start stop
  if stop + 4 ≤ region.length then
    let icv := slice region stop (stop + 4)
    ⟨data, false, some (verifyCrc data icv), icv⟩
  else if stop ≤ region.length then ⟨data, false, none, []⟩
  else ⟨region.drop start, true, none, []⟩

end HplcWorkbench.DualMac
