import HplcWorkbench.ProtocolFrame

/-!
# The DL/T 645 adapter

Frames are `68 | address | 68 | C | L | data | CS | 16`, on the wire either as they are or with
`1B` before the bytes `68`, `1B` and `16`. Cutting tries the escaped reading first and falls
back to the plain one; decoding undoes the escape when the result has the shape of a frame.
-/

namespace HplcWorkbench.Adapter645

/-- `_ESCAPE_SET`. -/
def escapeSet : List Byte := [0x68, 0x1B, 0x16]

/-- `_FUNC_NAMES.get(func, ...)`. -/
def funcName : ℕ → String
  | 0x01 => "读数据"
  | 0x02 => "读后续数据"
  | 0x03 => "读通信地址"
  | 0x04 => "写数据"
  | 0x05 => "写通信地址"
  | 0x06 => "冻结命令"
  | 0x07 => "电表清零"
  | 0x08 => "广播校时"
  | 0x09 => "更改通信速率"
  | 0x0A => "修改最大需量周期"
  | 0x0B => "清零最大需量"
  | 0x0C => "清电能表"
  | f => "未知功能码(" ++ toString f ++ ")"

/-- `_NO_ENCRYPT_FUNCS`. -/
def noEncryptFuncs : List ℕ := [0x03, 0x08]

def unescape : Bytes → Bytes
  | 0x1B :: v :: rest => v :: unescape rest
  | b :: rest => b :: unescape rest
  | [] => []

/-- `int(s)` of a string of decimal digits. -/
def decValue (digits : List Char) : ℕ := digits.foldl (fun n c => n * 10 + (c.toNat - 48)) 0

/-- `_bcd_decode`: low byte first. -/
def bcdDecode (data : Bytes) : ℕ := decValue (bcdChars data.reverse)

/-- `build_frame`. A control byte or a data length over 255 raises. -/
def buildFrame (addrBytes : Bytes) (control : ℕ) (dataDomain : Bytes) : PyM Bytes := do
  let c ← byteOf control
  let len ← byteOf dataDomain.length
  let body := [0x68] ++ addrBytes ++ [0x68, c, len] ++ dataDomain
  pure (body ++ [byte (byteSum body % 256), 0x16])

/-- `build_frame_escaped`: everything from the control byte to the checksum is escaped. -/
def buildFrameEscaped (addrBytes : Bytes) (control : ℕ) (dataDomain : Bytes) : PyM Bytes := do
  let logical ← buildFrame addrBytes control dataDomain
  let middle := slice logical 8 (logical.length - 1)
  pure (slice logical 0 8 ++ middle.flatMap (fun b => if b ∈ escapeSet then [0x1B, b] else [b]) ++
    logical.drop (logical.length - 1))

/-! ## Cutting -/

/-- `rb()`: one logical byte and the bytes after it, `none` for the `IndexError`. -/
def rb : Bytes → Option (Byte × Bytes)
  | [] => none
  | b :: rest =>
    if b = 0x1B then
      match rest with
      | [] => none
      | v :: more => some (v, more)
    else some (b, rest)

/-- `n` logical bytes. -/
def rbMany : ℕ → Bytes → Option (Bytes × Bytes)
  | 0, buf => some ([], buf)
  | n + 1, buf => do
    let (b, rest) ← rb buf
    let (bs, rest) ← rbMany n rest
    pure (b :: bs, rest)

/-- `_try_extract_escaped`. The search for an unescaped start byte stops at the first byte,
because the buffer has been seen to start with `68`. -/
def tryExtractEscaped (buf : Bytes) : Option ExtractResult := do
  guard (buf.head? = some 0x68)
  let (start, rest) ← rb buf
  guard (start = 0x68)
  let (_, rest) ← rbMany 6 rest
  let (second, rest) ← rb rest
  guard (second = 0x68)
  let (_, rest) ← rb rest
  let (L, rest) ← rb rest
  guard ((L : ℕ) ≤ 200)
  let (_, rest) ← rbMany L rest
  let (_, rest) ← rb rest
  let (last, rest) ← rb rest
  guard (last = 0x16)
  let consumed := buf.length - rest.length
  pure ⟨buf.take consumed, consumed⟩

/-- `_try_extract_plain`. -/
def tryExtractPlain (buf : Bytes) : Option ExtractResult := do
  guard (buf.head? = some 0x68)
  let second : Byte ← buf[7]?
  guard (second = 0x68)
  let L : Byte ← buf[9]?
  guard ((L : ℕ) ≤ 200)
  let last : Byte ← buf[11 + (L : ℕ)]?
  guard (last = 0x16)
  pure ⟨buf.take (12 + L), 12 + L⟩

def tryExtract (buf : Bytes) : Option ExtractResult :=
  match tryExtractEscaped buf with
  | some res => some res
  | none => tryExtractPlain buf

/-! ## Recognising and decoding -/

/-- `_logical_bytes`. -/
def logicalBytes (raw : Bytes) : Bytes :=
  let lb := unescape raw
  if lb.length ≥ 12 ∧ byteAt lb 0 = 0x68 ∧ byteAt lb 7 = 0x68 ∧ byteAt lb (lb.length - 1) = 0x16 then
    let L := (byteAt lb 9 : ℕ)
    if L ≤ 200 ∧ lb.length = 12 + L then lb else raw
  else raw

/-- `confidence`, in hundredths. -/
def confidence (raw : Bytes) : ℕ :=
  let lb := logicalBytes raw
  if lb.length < 12 then 0
  else if byteAt lb 0 ≠ 0x68 ∨ byteAt lb 7 ≠ 0x68 ∨ byteAt lb (lb.length - 1) ≠ 0x16 then 0
  else if byteAt lb 3 = 0x68 then 0
  else
    let L := (byteAt lb 9 : ℕ)
    if L > 200 ∨ lb.length ≠ 12 + L then 0
    else
      let func := (byteAt lb 8 : ℕ) &&& 0x0F
      if ¬ (0x01 ≤ func ∧ func ≤ 0x0C) then 30
      else if byteSum (slice lb 0 (lb.length - 2)) % 256 = byteAt lb (lb.length - 2) then 100
      else 40

/-- `_bcd_decode(payload) / 10 ** scale`, which overflows past the largest float. -/
def bcdValue (payload : Bytes) (scale : ℕ) : PyM PyVal :=
  let mantissa := bcdDecode payload
  if scale = 0 then pure (.int mantissa)
  else if mantissa ≥ (2 ^ 1024 - 2 ^ 970) * 10 ^ scale then
    throw (.overflowError "integer division result too large for a float")
  else pure (.scaled mantissa scale)

/-- The item of a data field that starts with a data identifier, with its warnings. -/
def diItem (store : MetadataStore) (data : Bytes) : PyM (DataField × List String) := do
  let di0 ← index data 0
  let di1 ← index data 1
  let di2 ← index data 2
  let di3 ← index data 3
  let diKey := upper (hex [di3, di2, di1, di0])
  let payload := data.drop 4
  match store "645" diKey with
  | some entry =>
    let value ← if entry.dataType.getD "bcd_compact" = "bcd_compact" ∧ payload ≠ [] then
        bcdValue payload (entry.scale.getD 0)
      else pure (.str (hex payload))
    pure (⟨entry.name.getD diKey, value, entry.unit, hex payload, .str (hex payload),
      entry.desc.getD ""⟩, [])
  | none =>
    pure (⟨"未知DI(" ++ diKey ++ ")", .str (hex payload), none, hex payload, .str (hex payload),
      "未在字典中登记，保留原始值"⟩, ["未知数据标识 DI=" ++ diKey])

/-- `f"20{year:02X}年{month:02X}月{day:02X}日 {hour:02X}:{minute:02X}:{sec:02X}"`. -/
def timeText (sec minute hour day month year : Byte) : String :=
  "20" ++ hex02 year ++ "年" ++ hex02 month ++ "月" ++ hex02 day ++ "日 " ++ hex02 hour ++ ":" ++
    hex02 minute ++ ":" ++ hex02 sec

/-- The items of the data field, by function code. -/
def dataItems (store : MetadataStore) (func L : ℕ) (data : Bytes) :
    PyM (List DataField × List String) := do
  if func = 0x03 ∧ L > 0 then
    pure ([⟨"通信地址", .str (upper (hex data)), none, hex data, .str (hex data), "读通信地址应答"⟩],
      [])
  else if func = 0x08 ∧ L > 0 then
    if L ≥ 6 then
      match data.take 6 with
      | [sec, minute, hour, day, month, year] =>
        pure ([⟨"校时时间", .str (timeText sec minute hour day month year), none, hex data,
          .str (hex data), "广播校时(秒分时日月年)"⟩], [])
      | _ => throw (.valueError "not enough values to unpack (expected 6)")
    else
      pure ([⟨"校时数据", .str (hex data), none, hex data, .str (hex data), ""⟩], [])
  else if L ≥ 4 then
    let (item, warnings) ← diItem store data
    pure ([item], warnings)
  else
    pure ([⟨"数据域(原始)", .str (hex data), none, hex data, .str (hex data), ""⟩], [])

/-- The field of the control code. -/
def controlField (c : Byte) : DataField :=
  let direction := if (c : ℕ) &&& 0x80 ≠ 0 then "上行(从站→主站)" else "下行(主站→从站)"
  let err := if (c : ℕ) &&& 0x40 ≠ 0 then "异常" else "正常"
  let more := if (c : ℕ) &&& 0x20 ≠ 0 then "有后续帧" else "无后续帧"
  ⟨"控制码", .str (hex0x c), none, hex02 c, .int (c : ℕ),
    direction ++ ";" ++ err ++ ";" ++ more ++ ";功能:" ++ funcName ((c : ℕ) &&& 0x0F)⟩

/-- The checksum field and its warning, when the byte is there. -/
def checksumField (lb : Bytes) (L : ℕ) : List DataField × List String :=
  match lb[10 + L]? with
  | none => ([], [])
  | some cs =>
    let computed := byteSum (slice lb 0 (lb.length - 2)) % 256
    let ok := computed = cs
    ([⟨"校验和CS", .str (hex0x cs), none, hex02 cs, .int (cs : ℕ),
      "校验" ++ if ok then "通过" else "失败(计算0x" ++ hexPad 2 computed ++ ")"⟩],
      if ok then [] else ["CS校验失败: 帧内" ++ hex0x cs ++ " vs 计算0x" ++ hexPad 2 computed])

/-- Removing the `+33H` of the data field. -/
def unmask (data : Bytes) : Bytes := data.map (fun b : Byte => byte ((b : ℕ) + 256 - 0x33))

def decode (store : MetadataStore) (raw : Bytes) : PyM ProtocolFrame := do
  let lb := logicalBytes raw
  let addrBytes := slice lb 1 7
  let c ← index lb 8
  let L ← index lb 9
  let data := slice lb 10 (10 + L)
  let func := (c : ℕ) &&& 0x0F
  let (csFields, csWarnings) := checksumField lb L
  let data := if (L : ℕ) > 0 ∧ func ∉ noEncryptFuncs then unmask data else data
  let (items, itemWarnings) ← dataItems store func L data
  pure { newFrame "645" (hex raw) with
    fields := [⟨"地址域", .str (upper (hex addrBytes)), none, hex addrBytes, .str (hex addrBytes), ""⟩,
      controlField c,
      ⟨"长度域", .int (L : ℕ), none, hex02 L, .int (L : ℕ), ""⟩] ++ csFields
    items := items
    warnings := csWarnings ++ itemWarnings }

end HplcWorkbench.Adapter645
