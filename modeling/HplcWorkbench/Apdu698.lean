import HplcWorkbench.Link698

/-!
# The APDU parser of the DL/T 698.45 adapter

Every parser appends fields, items and warnings and may raise where it indexes without a length
test. A-XDR data nests; the nesting of arrays and structures and of SECURITY envelopes is
bounded by the number of bytes, which the recursion takes as fuel.
-/

namespace HplcWorkbench.Adapter698

/-- What a parser appends to the frame. -/
structure ApduOut where
  fields : List DataField := []
  items : List DataField := []
  warnings : List String := []

instance : Append ApduOut where
  append a b := ⟨a.fields ++ b.fields, a.items ++ b.items, a.warnings ++ b.warnings⟩

def outFields (fields : List DataField) : ApduOut := { fields := fields }

def outItem (item : DataField) : ApduOut := { items := [item] }

def outWarning (warning : String) : ApduOut := { warnings := [warning] }

/-- A one-byte field that shows its number. -/
def byteField (name : String) (b : Byte) : DataField :=
  ⟨name, .int (b : ℕ), none, hex02 b, .int (b : ℕ), ""⟩

/-- A field whose value, hex and raw text are the same hex dump. -/
def hexField (name : String) (data : Bytes) : DataField :=
  ⟨name, .str (hex data), none, hex data, .str (hex data), ""⟩

/-- `names.get(t, default)` of the small type tables. -/
def nameOf (names : List (ℕ × String)) (t : ℕ) (default : String) : String :=
  ((names.find? (fun p => p.1 = t)).map Prod.snd).getD default

/-- The field of a request or response type. -/
def typeField (name : String) (names : List (ℕ × String)) (t : Byte) : DataField :=
  ⟨name, .str (hex0x t ++ " (" ++ nameOf names t "未知" ++ ")"), none, hex02 t, .int (t : ℕ), ""⟩

def getRequestTypes : List (ℕ × String) :=
  [(1, "GetRequestNormal"), (2, "GetRequestNormalList"), (3, "GetRequestRecord"),
    (4, "GetRequestRecordList"), (5, "GetRequestNext")]

def getResponseTypes : List (ℕ × String) :=
  [(1, "GetResponseNormal"), (2, "GetResponseNormalList"), (3, "GetResponseRecord"),
    (4, "GetResponseRecordList"), (5, "GetResponseNext")]

def setRequestTypes : List (ℕ × String) :=
  [(1, "SetRequestNormal"), (2, "SetRequestNormalList"), (3, "SetThenGetRequestNormalList")]

def setResponseTypes : List (ℕ × String) :=
  [(1, "SetResponseNormal"), (2, "SetResponseNormalList"), (3, "SetThenGetResponseNormalList")]

def actionRequestTypes : List (ℕ × String) :=
  [(1, "ActionRequestNormal"), (2, "ActionRequestNormalList"),
    (3, "ActionThenGetRequestNormalList")]

def actionResponseTypes : List (ℕ × String) :=
  [(1, "ActionResponseNormal"), (2, "ActionResponseNormalList"),
    (3, "ActionThenGetResponseNormalList")]

def proxyRequestTypes : List (ℕ × String) :=
  [(1, "ProxyGetRequestList"), (2, "ProxySetRequestList"), (3, "ProxyGetRequestRecordList"),
    (4, "ProxySetThenGetRequestList")]

def proxyResponseTypes : List (ℕ × String) :=
  [(1, "ProxyGetResponseList"), (2, "ProxySetResponseList"), (3, "ProxyGetResponseRecordList"),
    (4, "ProxySetThenGetResponseList")]

def axdrTypeNames : List (ℕ × String) :=
  [(0, "null"), (1, "array"), (2, "structure"), (3, "bool"), (4, "bit-string"),
    (5, "double-long"), (6, "double-long-unsigned"), (9, "octet-string"), (10, "visible-string"),
    (12, "utf8-string"), (15, "integer"), (16, "long"), (17, "unsigned"), (18, "long-unsigned"),
    (20, "long64"), (21, "long64-unsigned"), (22, "enum"), (23, "float32"), (24, "float64"),
    (25, "date-time"), (26, "date"), (27, "time"), (28, "date-time-s")]

/-! ## A-XDR data -/

/-- `int.from_bytes(bs, 'big', signed=False)`. -/
def beUnsigned (bs : Bytes) : ℕ := bs.foldl (fun n b => n * 256 + (b : ℕ)) 0

/-- `int.from_bytes(bs, 'big', signed=True)`. -/
def beSigned (bs : Bytes) : ℤ :=
  let n := beUnsigned bs
  if 2 * n ≥ 256 ^ bs.length then (n : ℤ) - (256 ^ bs.length : ℕ) else n

/-- `raw.decode('ascii')`, or the hex dump when that fails. -/
def asciiText (bs : Bytes) : String :=
  if bs.all (fun b : Byte => (b : ℕ) < 128) then String.ofList (bs.map (fun b : Byte => Char.ofNat b)) else hex bs

/-- `raw.decode('utf-8')`, or the hex dump when that fails. -/
def utf8Text (bs : Bytes) : String :=
  (String.fromUTF8? ⟨(bs.map (fun b : Byte => UInt8.ofNat (b : ℕ))).toArray⟩).getD (hex bs)

/-- `year-month-day hour:minute:second` of seven bytes. -/
def dateTimeS (bs : Bytes) : String :=
  let part (i : ℕ) : String := padDec 2 (byteAt bs i)
  padDec 4 ((byteAt bs 0 : ℕ) <<< 8 ||| (byteAt bs 1 : ℕ)) ++ "-" ++ part 2 ++ "-" ++ part 3 ++
    " " ++ part 4 ++ ":" ++ part 5 ++ ":" ++ part 6

/-- A value of `size` bytes after the tag, or the raw marker when they are not all there. -/
def fixedData (data : Bytes) (offset size : ℕ) (show_ : Bytes → PyVal) : PyVal × ℕ :=
  if offset + size < data.length then
    (show_ (slice data (offset + 1) (offset + 1 + size)), 1 + size)
  else (.str "<raw>", 1)

/-- A value with a length byte after the tag. -/
def countedData (data : Bytes) (offset : ℕ) (show_ : Bytes → PyVal) : PyVal × ℕ :=
  if offset + 1 ≥ data.length then (.str "<raw>", 1)
  else
    let ln := (byteAt data (offset + 1) : ℕ)
    if offset + 1 + ln < data.length then
      (show_ (slice data (offset + 2) (offset + 2 + ln)), 2 + ln)
    else (.str "<raw>", 1)

/-- The loop over the elements of an array or structure. -/
def elements (parse : ℕ → PyM (PyVal × ℕ)) : ℕ → ℕ → PyM (List PyVal × ℕ)
  | 0, pos => pure ([], pos)
  | count + 1, pos => do
    let (v, consumed) ← parse pos
    let (vs, pos) ← elements parse count (pos + consumed)
    pure (v :: vs, pos)

/-- The `ROAD` rows. -/
def roadRows (data : Bytes) (offset ln : ℕ) : List PyVal :=
  if offset + 5 + 4 * ln < data.length then
    (List.range ln).map (fun i => .str (hex (slice data (offset + 6 + 4 * i) (offset + 10 + 4 * i))))
  else []

/-- `_parse_data`: the value and the consumed bytes (the unit it returns is always `None`). -/
def parseDataFuel : ℕ → Bytes → ℕ → PyM (PyVal × ℕ)
  | 0, _, _ => pure (.str "<empty>", 0)
  | fuel + 1, data, offset =>
    if offset ≥ data.length then pure (.str "<empty>", 0)
    else
      match (byteAt data offset : ℕ) with
      | 0 => pure (.none, 1)
      | 3 => pure (fixedData data offset 1 (fun bs => .bool (beUnsigned bs % 2 = 1)))
      | 5 => pure (fixedData data offset 4 (fun bs => .int (beSigned bs)))
      | 6 => pure (fixedData data offset 4 (fun bs => .int (beUnsigned bs)))
      | 15 => pure (fixedData data offset 1 (fun bs => .int (beSigned bs)))
      | 16 => pure (fixedData data offset 2 (fun bs => .int (beSigned bs)))
      | 17 => pure (fixedData data offset 1 (fun bs => .int (beUnsigned bs)))
      | 18 => pure (fixedData data offset 2 (fun bs => .int (beUnsigned bs)))
      | 20 => pure (fixedData data offset 8 (fun bs => .int (beSigned bs)))
      | 21 => pure (fixedData data offset 8 (fun bs => .int (beUnsigned bs)))
      | 22 => pure (fixedData data offset 1 (fun bs => .int (beUnsigned bs)))
      | 23 => pure (fixedData data offset 4 (fun _ => .str "<float32>"))
      | 24 => pure (fixedData data offset 8 (fun _ => .str "<float64>"))
      | 25 => pure (fixedData data offset 10 (fun bs => .str (hex bs)))
      | 26 => pure (fixedData data offset 5 (fun bs => .str (hex bs)))
      | 27 => pure (fixedData data offset 3 (fun bs => .str (hex bs)))
      | 28 => pure (fixedData data offset 7 (fun bs => .str (dateTimeS bs)))
      | 9 => pure (countedData data offset (fun bs => .str (hex bs)))
      | 10 => pure (countedData data offset (fun bs => .str (asciiText bs)))
      | 12 => pure (countedData data offset (fun bs => .str (utf8Text bs)))
      | 4 => pure (countedData data offset (fun bs => .str (hex bs)))
      | 1 | 2 =>
        if offset + 1 ≥ data.length then pure (.str "<raw>", 1)
        else do
          let count := (byteAt data (offset + 1) : ℕ)
          let (vals, pos) ← elements (parseDataFuel fuel data) count (offset + 2)
          pure (.list vals, pos - offset)
      | 80 => pure (fixedData data offset 2 (fun bs => .str (hex bs)))
      | 81 => pure (fixedData data offset 4 (fun bs => .str (hex bs)))
      | 82 =>
        if offset + 1 ≥ data.length then pure (.str "<raw>", 1)
        else do
          let oad := slice data (offset + 1) (offset + 5)
          let ln ← index data (offset + 5)
          pure (.dict [("OAD", .str (hex oad)), ("rows", .list (roadRows data offset ln))],
            6 + 4 * (ln : ℕ))
      | _ => pure (.str (hex (data.drop (offset + 1))), data.length - offset)

/-- No value stands past the end of the data. -/
theorem parseDataFuel_past {data : Bytes} {offset : ℕ} (h : data.length ≤ offset) (fuel : ℕ) :
    parseDataFuel fuel data offset = pure (.str "<empty>", 0) := by
  cases fuel with
  | zero => rw [parseDataFuel]
  | succ fuel => rw [parseDataFuel, if_pos h]

/-- `_parse_data`. Each level of nesting takes two bytes. -/
def parseData (data : Bytes) (offset : ℕ) : PyM (PyVal × ℕ) :=
  parseDataFuel (data.length + 1) data offset

/-! ## OAD items -/

/-- `_oad_key`. -/
def oadKey (oad : Bytes) : String := upper (hex oad)

/-- `value / (10 ** scale)` for numbers. -/
def scaleValue (scale : ℕ) (value : PyVal) : PyVal :=
  if scale = 0 then value
  else
    match value with
    | .int n => .scaled n scale
    | .bool b => .scaled (if b then 1 else 0) scale
    | v => v

def lookupOadName (store : MetadataStore) (oad : Bytes) : String :=
  match store "698.45" (oadKey oad) with
  | some entry => entry.name.getD ("OAD(" ++ oadKey oad ++ ")")
  | none => "OAD(" ++ oadKey oad ++ ")"

/-- `_add_oad_item`, with the unit argument that is always `None`. -/
def addOadItem (store : MetadataStore) (oad : Bytes) (value : PyVal) (timeTag : Option Byte)
    (dataHex : String := "") (typeTag : String := "") : PyM ApduOut := do
  let key := oadKey oad
  let oi := String.ofList (key.toList.take 4)
  let attr ← index oad 2
  let idx ← index oad 3
  let (name, unit, value, desc) :=
    match store "698.45" key with
    | some entry => (entry.name.getD ("OAD(" ++ key ++ ")"), entry.unit,
        scaleValue (entry.scale.getD 0) value, entry.desc.getD "")
    | none => ("OAD(" ++ key ++ ")", none, value,
        "OI=" ++ oi ++ " 属性=" ++ toString (attr : ℕ) ++ " 索引=" ++ toString (idx : ℕ))
  let value := match value with
    | .none => .str key
    | v => v
  pure {
    fields := match timeTag with
      | some t => [byteField "时间标签" t]
      | none => []
    items := [⟨name, value, unit, if dataHex ≠ "" then dataHex else key, .str key,
      if typeTag ≠ "" then typeTag else desc⟩] }

/-- `_parse_result_data`. -/
def parseResultData (data : Bytes) (label : String) : PyM ApduOut := do
  match data with
  | [] => pure {}
  | tag :: more =>
    if tag = 0 then
      let value := match more with
        | dar :: _ => "访问错误(" ++ hex0x dar ++ ")"
        | [] => "访问错误"
      pure (outItem ⟨label, .str value, none, hex data, .str (hex data), "数据访问结果(DAR)"⟩)
    else if tag = 1 then
      let (val, _) ← parseData data 1
      pure (outItem ⟨label, val, none, hex data, .str (hex data), ""⟩)
    else pure (outItem (hexField label data))

/-- The loop over an OAD list, `naming` giving each item its value. -/
def oadLoop (store : MetadataStore) (apdu : Bytes) (naming : ℕ → PyVal) :
    ℕ → ℕ → ℕ → PyM (ApduOut × ℕ)
  | 0, _, pos => pure ({}, pos)
  | count + 1, i, pos =>
    if pos + 4 > apdu.length then pure ({}, pos)
    else do
      let first ← addOadItem store (slice apdu pos (pos + 4)) (naming i) none
      let (rest, pos) ← oadLoop store apdu naming count (i + 1) (pos + 4)
      pure (first ++ rest, pos)

/-- The optional time tag field, and the position after it. -/
def flagField (name : String) (apdu : Bytes) (pos : ℕ) : ApduOut × ℕ :=
  if pos < apdu.length then
    let b := byteAt apdu pos
    (outFields [⟨name, .str (if b = 0 then "无" else "有(" ++ hex0x b ++ ")"), none, hex02 b,
      .int (b : ℕ), ""⟩], pos + 1)
  else ({}, pos)

/-! ## Records -/

/-- The loop over the column descriptors; `prefix_` names the field and `withType` puts the type
byte into its hex text, as the response parser does. -/
def csdLoop (store : MetadataStore) (apdu : Bytes) (prefix_ : String) (withType : Bool) :
    ℕ → ℕ → ℕ → ApduOut × List Bytes × ℕ
  | 0, _, pos => ({}, [], pos)
  | count + 1, i, pos =>
    if pos + 5 > apdu.length then
      (outWarning ("RCSD CSD[" ++ toString i ++ "]数据不完整"), [], pos)
    else
      let csdType := byteAt apdu pos
      let oad := slice apdu (pos + 1) (pos + 5)
      let typeName := if csdType = 0 then "OAD" else if csdType = 1 then "OMD"
        else "type" ++ toString (csdType : ℕ)
      let csdHex := if withType then hex [csdType] ++ hex oad else hex oad
      let here := outFields [⟨prefix_ ++ "[" ++ toString i ++ "]", .str (upper (hex oad)), none,
        csdHex, .str (hex oad), typeName ++ ": " ++ lookupOadName store oad⟩]
      let (rest, oads, pos) := csdLoop store apdu prefix_ withType count (i + 1) (pos + 5)
      (here ++ rest, oad :: oads, pos)

/-- The loop over the server addresses of a population set. -/
def tsaLoop (apdu : Bytes) : ℕ → ℕ → ℕ → ApduOut × ℕ
  | 0, _, pos => ({}, pos)
  | count + 1, i, pos =>
    if pos + 2 > apdu.length then ({}, pos)
    else
      let tsaLen := (byteAt apdu (pos + 1) : ℕ)
      if pos + 2 + tsaLen > apdu.length then ({}, pos + 2)
      else
        let tsa := slice apdu (pos + 2) (pos + 2 + tsaLen)
        let here := outFields [⟨"TSA[" ++ toString i ++ "]", .str (upper (hex tsa)), none, hex tsa,
          .str (hex tsa), ""⟩]
        let (rest, pos) := tsaLoop apdu count (i + 1) (pos + 2 + tsaLen)
        (here ++ rest, pos)

def rsdNames : List (ℕ × String) :=
  [(0, "不选择"), (1, "指定值(Selector1)"), (2, "范围(Selector2)"), (3, "范围(Selector3)"),
    (4, "范围(Selector4)"), (5, "时间+表集合(Selector5)"), (6, "Selector6"), (7, "Selector7"),
    (8, "Selector8"), (9, "Selector9"), (10, "Selector10")]

/-- The part of the record selection that depends on its method; `none` is the early return. -/
def rsdBody (store : MetadataStore) (apdu : Bytes) (method pos : ℕ) :
    PyM (ApduOut × Option ℕ) := do
  if method = 0 then pure ({}, some pos)
  else if method = 1 then
    if pos + 4 > apdu.length then pure (outWarning "RSD Selector1 OAD不完整", none)
    else
      let oad := slice apdu pos (pos + 4)
      let pos := pos + 4
      let here := outFields [⟨"RSD对象", .str (upper (hex oad)), none, hex oad, .str (hex oad),
        lookupOadName store oad⟩]
      if pos < apdu.length then
        let (val, consumed) ← parseData apdu pos
        let dump := hex (slice apdu pos (pos + consumed))
        pure (here ++ outFields [⟨"RSD选择值", val, none, dump, .str dump, ""⟩],
          some (pos + consumed))
      else pure (here, some pos)
  else if method = 5 then
    let (start, pos) := if pos + 7 ≤ apdu.length then
        let bs := slice apdu pos (pos + 7)
        (outFields [⟨"RSD起始时间", .str (dateTimeS bs), none, hex bs, .str (hex bs), ""⟩], pos + 7)
      else ({}, pos)
    if pos < apdu.length then
      let psTag := byteAt apdu pos
      let pos := pos + 1
      if psTag = 3 ∧ pos < apdu.length then
        let tsaCount := byteAt apdu pos
        let (tsas, pos) := tsaLoop apdu tsaCount 0 (pos + 1)
        pure (start ++ outFields [byteField "RSD表集合数" tsaCount] ++ tsas, some pos)
      else pure (start, some pos)
    else pure (start, some pos)
  else if pos < apdu.length then
    pure (outFields [hexField "RSD原始数据" (apdu.drop pos)], some apdu.length)
  else pure ({}, some pos)

/-- `_parse_get_request_record`. -/
def parseGetRequestRecord (store : MetadataStore) (apdu : Bytes) : PyM ApduOut := do
  if 2 ≥ apdu.length then pure (outWarning "GetRequestRecord长度不足")
  else
    let piid := outFields [byteField "PIID" (byteAt apdu 2)]
    if 7 > apdu.length then pure (piid ++ outWarning "GetRequestRecord OAD不完整")
    else
      let oad ← addOadItem store (slice apdu 3 7) .none none
      let out := piid ++ oad
      if 7 ≥ apdu.length then pure (out ++ outWarning "GetRequestRecord RSD缺失")
      else
        let method := byteAt apdu 7
        let out := out ++ outFields [⟨"RSD选择方法",
          .str (nameOf rsdNames method ("方法" ++ toString (method : ℕ))), none, hex02 method,
          .int (method : ℕ), ""⟩]
        let (body, next) ← rsdBody store apdu method 8
        let out := out ++ body
        match next with
        | none => pure out
        | some pos =>
          if pos ≥ apdu.length then pure out
          else
            let count := byteAt apdu pos
            let (csds, _, pos) := csdLoop store apdu "读取列CSD" false count 0 (pos + 1)
            pure (out ++ outFields [byteField "RCSD对象个数" count] ++ csds ++
              (flagField "时间标签域" apdu pos).1)

/-- One row of a record: the columns from `i` on. -/
def columnLoop (store : MetadataStore) (apdu : Bytes) (oads : List Bytes) :
    ℕ → ℕ → ℕ → PyM (ApduOut × ℕ)
  | 0, _, pos => pure ({}, pos)
  | count + 1, i, pos =>
    if pos ≥ apdu.length then pure ({}, pos)
    else do
      let (val, consumed) ← parseData apdu pos
      let dataHex := if consumed > 0 then hex (slice apdu pos (pos + consumed)) else ""
      let typeTag := if consumed > 0 then nameOf axdrTypeNames (byteAt apdu pos) "" else ""
      let here ← addOadItem store (oads.getD i [0, 0, 0, 0]) val none dataHex typeTag
      let (rest, pos) ← columnLoop store apdu oads count (i + 1) (pos + consumed)
      pure (here ++ rest, pos)

def rowLoop (store : MetadataStore) (apdu : Bytes) (oads : List Bytes) (columns : ℕ) :
    ℕ → ℕ → PyM (ApduOut × ℕ)
  | 0, pos => pure ({}, pos)
  | rows + 1, pos => do
    let (here, pos) ← columnLoop store apdu oads columns 0 pos
    let (rest, pos) ← rowLoop store apdu oads columns rows pos
    pure (here ++ rest, pos)

def recordLoop (store : MetadataStore) (apdu : Bytes) (oads : List Bytes) (columns : ℕ) :
    ℕ → ℕ → PyM (ApduOut × ℕ)
  | 0, pos => pure ({}, pos)
  | records + 1, pos =>
    if pos ≥ apdu.length then pure ({}, pos)
    else do
      let (here, pos) ← rowLoop store apdu oads columns (byteAt apdu pos) (pos + 1)
      let (rest, pos) ← recordLoop store apdu oads columns records pos
      pure (here ++ rest, pos)

/-- `_parse_get_response_record`. -/
def parseGetResponseRecord (store : MetadataStore) (apdu : Bytes) : PyM ApduOut := do
  if 2 ≥ apdu.length then pure (outWarning "GetResponseRecord长度不足")
  else
    let piid := outFields [byteField "PIID-ACD" (byteAt apdu 2)]
    let oad ← addOadItem store (slice apdu 3 7) .none none
    let count ← index apdu 7
    let (csds, oads, pos) := csdLoop store apdu "CSD" true count 0 8
    let out := piid ++ oad ++ outFields [byteField "RCSD对象个数" count] ++ csds
    if pos ≥ apdu.length then pure out
    else
      let records := byteAt apdu pos
      let (body, pos) ← recordLoop store apdu oads count records (pos + 1)
      let (following, pos) := flagField "跟随上报域" apdu pos
      pure (out ++ outFields [byteField "记录条数" records] ++ body ++ following ++
        (flagField "时间标签域" apdu pos).1)

/-! ## Services -/

/-- `_parse_get_request`. -/
def parseGetRequest (store : MetadataStore) (apdu : Bytes) : PyM ApduOut := do
  if apdu.length < 2 then pure (outWarning "GET-Request长度不足")
  else
    let reqType := byteAt apdu 1
    let out := outFields [typeField "请求类型" getRequestTypes reqType]
    if reqType = 1 ∧ apdu.length ≥ 7 then
      let item ← addOadItem store (slice apdu 3 7) .none apdu[7]?
      pure (out ++ outFields [byteField "PIID" (byteAt apdu 2)] ++ item)
    else if reqType = 2 ∧ apdu.length ≥ 4 then
      let count := byteAt apdu 3
      let (items, _) ← oadLoop store apdu (fun i => .str ("OAD[" ++ toString (i + 1) ++ "]")) count 0 4
      pure (out ++ outFields [byteField "PIID" (byteAt apdu 2), byteField "OAD个数" count] ++ items)
    else if reqType = 3 then
      let record ← parseGetRequestRecord store apdu
      pure (out ++ record)
    else pure (out ++ outItem (hexField "GET请求数据" (apdu.drop 2)))

/-- The list of results of a GET response. -/
def getResultLoop (store : MetadataStore) (apdu : Bytes) : ℕ → ℕ → PyM ApduOut
  | 0, _ => pure {}
  | count + 1, pos =>
    if pos + 4 > apdu.length then pure {}
    else do
      let oad := slice apdu pos (pos + 4)
      let pos := pos + 4
      if pos < apdu.length ∧ byteAt apdu pos = 1 then
        let (val, consumed) ← parseData apdu (pos + 1)
        let here ← addOadItem store oad val none
        let rest ← getResultLoop store apdu count (pos + 1 + consumed)
        pure (here ++ rest)
      else
        let here ← addOadItem store oad .none none
        let rest ← getResultLoop store apdu count pos
        pure (here ++ rest)

/-- `_parse_get_response`. -/
def parseGetResponse (store : MetadataStore) (apdu : Bytes) : PyM ApduOut := do
  if apdu.length < 2 then pure (outWarning "GET-Response长度不足")
  else
    let respType := byteAt apdu 1
    let out := outFields [typeField "响应类型" getResponseTypes respType]
    if respType = 1 ∧ apdu.length ≥ 7 then
      let out := out ++ outFields [byteField "PIID-ACD" (byteAt apdu 2)]
      let oad := slice apdu 3 7
      match apdu.drop 7 with
      | [] => pure out
      | tag :: more =>
        let data := tag :: more
        if tag = 0 then
          let value := match more with
            | dar :: _ => if dar ≠ 0 then "错误(" ++ hex0x dar ++ ")" else "错误"
            | [] => "错误"
          pure (out ++ outItem ⟨"数据访问结果DAR", .str value, none, hex data, .str (hex data),
            "读取失败"⟩)
        else
          let (val, _) ← parseData data (if tag = 1 then 1 else 0)
          let item ← addOadItem store oad val none
          pure (out ++ item)
    else if respType = 2 ∧ apdu.length ≥ 4 then
      let count := byteAt apdu 3
      let items ← getResultLoop store apdu count 4
      pure (out ++ outFields [byteField "PIID-ACD" (byteAt apdu 2), byteField "OAD个数" count] ++ items)
    else if respType = 3 then
      let record ← parseGetResponseRecord store apdu
      pure (out ++ record)
    else pure (out ++ outItem (hexField "GET响应" (apdu.drop 1)))

/-- `_parse_set_request`. -/
def parseSetRequest (store : MetadataStore) (apdu : Bytes) : PyM ApduOut := do
  if apdu.length < 2 then pure (outWarning "SET-Request长度不足")
  else
    let reqType := byteAt apdu 1
    let out := outFields [typeField "请求类型" setRequestTypes reqType]
    if reqType = 1 ∧ apdu.length ≥ 7 then
      let data := apdu.drop 7
      let val ← if data ≠ [] then Prod.fst <$> parseData data 0 else pure .none
      let item ← addOadItem store (slice apdu 3 7) val none
      pure (out ++ outFields [byteField "PIID" (byteAt apdu 2)] ++ item)
    else if apdu.length > 2 then pure (out ++ outItem (hexField "SET数据" (apdu.drop 2)))
    else pure out

/-- `_parse_set_response`. -/
def parseSetResponse (store : MetadataStore) (apdu : Bytes) : PyM ApduOut := do
  if apdu.length < 3 then pure (outWarning "SET-Response长度不足")
  else
    let respType := byteAt apdu 1
    let out := outFields [typeField "响应类型" setResponseTypes respType,
      byteField "PIID" (byteAt apdu 2)]
    if respType = 1 ∧ apdu.length ≥ 7 then
      let item ← addOadItem store (slice apdu 3 7) .none none
      let result ← parseResultData (apdu.drop 7) "SET结果"
      pure (out ++ item ++ result)
    else
      let result ← parseResultData (apdu.drop 3) "SET结果"
      pure (out ++ result)

/-- The item of a method descriptor. -/
def omdItem (omd : Bytes) : ApduOut :=
  outItem ⟨"OMD", .str (upper (hex omd)), none, hex omd, .str (hex omd), ""⟩

/-- `_parse_action_request`. -/
def parseActionRequest (apdu : Bytes) : PyM ApduOut := do
  if apdu.length < 2 then pure (outWarning "ACTION-Request长度不足")
  else
    let reqType := byteAt apdu 1
    let out := outFields [typeField "请求类型" actionRequestTypes reqType]
    if reqType = 1 ∧ apdu.length ≥ 7 then
      let result ← parseResultData (apdu.drop 7) "ACTION数据"
      pure (out ++ outFields [byteField "PIID" (byteAt apdu 2)] ++ omdItem (slice apdu 3 7) ++ result)
    else if apdu.length > 2 then pure (out ++ outItem (hexField "ACTION数据" (apdu.drop 2)))
    else pure out

/-- `_parse_action_response`. -/
def parseActionResponse (apdu : Bytes) : PyM ApduOut := do
  if apdu.length < 3 then pure (outWarning "ACTION-Response长度不足")
  else
    let respType := byteAt apdu 1
    let out := outFields [typeField "响应类型" actionResponseTypes respType,
      byteField "PIID" (byteAt apdu 2)]
    if respType = 1 ∧ apdu.length ≥ 7 then
      let result ← parseResultData (apdu.drop 7) "ACTION结果"
      pure (out ++ omdItem (slice apdu 3 7) ++ result)
    else
      let result ← parseResultData (apdu.drop 3) "ACTION结果"
      pure (out ++ result)

/-- The loop over the servers of a PROXY request. -/
def proxyLoop (store : MetadataStore) (apdu : Bytes) : ℕ → ℕ → ℕ → PyM (ApduOut × ℕ)
  | 0, _, pos => pure ({}, pos)
  | count + 1, i, pos =>
    if pos + 2 > apdu.length then pure ({}, pos)
    else do
      let tsaTag := byteAt apdu pos
      let tsaTotal := 2 + (byteAt apdu (pos + 1) : ℕ)
      if pos + tsaTotal > apdu.length then
        pure (outItem (hexField ("服务器[" ++ toString i ++ "]原始数据") (apdu.drop pos)), apdu.length)
      else
        let tsa := slice apdu (pos + 2) (pos + tsaTotal)
        let here := outFields [⟨"服务器TSA[" ++ toString i ++ "]", .str (upper (hex tsa)), none,
          hex (slice apdu pos (pos + tsaTotal)), .str (hex tsa),
          "TSA(tag=" ++ hex0x tsaTag ++ ")"⟩]
        let pos := pos + tsaTotal
        if pos ≥ apdu.length then pure (here, pos)
        else
          let oadCount := byteAt apdu pos
          let here := here ++ outFields [byteField ("服务器[" ++ toString i ++ "]OAD个数") oadCount]
          let (oads, pos) ← oadLoop store apdu (fun _ => .none) oadCount 0 (pos + 1)
          let (rest, pos) ← proxyLoop store apdu count (i + 1) pos
          pure (here ++ oads ++ rest, pos)

/-- `_parse_proxy_request`. -/
def parseProxyRequest (store : MetadataStore) (apdu : Bytes) : PyM ApduOut := do
  if apdu.length < 3 then pure (outWarning "PROXY-Request长度不足")
  else
    let out := outFields [typeField "请求类型" proxyRequestTypes (byteAt apdu 1),
      byteField "PIID" (byteAt apdu 2)]
    let (timeoutOut, pos) := if 5 ≤ apdu.length then
        let timeout := (byteAt apdu 3 : ℕ) <<< 8 ||| (byteAt apdu 4 : ℕ)
        (outFields [⟨"超时时间", .int timeout, none, hexPad 4 timeout, .int timeout, ""⟩], 5)
      else ({}, 3)
    let (servers, pos) ← if pos < apdu.length then do
        let count := byteAt apdu pos
        let (body, pos) ← proxyLoop store apdu count 0 (pos + 1)
        pure (outFields [byteField "服务器个数" count] ++ body, pos)
      else pure ({}, pos)
    let (tag, pos) := flagField "时间标签域" apdu pos
    let rest : ApduOut := if pos < apdu.length then
        outItem (hexField "PROXY附加数据" (apdu.drop pos)) else {}
    pure (out ++ timeoutOut ++ servers ++ tag ++ rest)

/-- `_parse_proxy_response`. -/
def parseProxyResponse (apdu : Bytes) : PyM ApduOut := do
  if apdu.length < 3 then pure (outWarning "PROXY-Response长度不足")
  else
    let out := outFields [typeField "响应类型" proxyResponseTypes (byteAt apdu 1),
      byteField "PIID" (byteAt apdu 2)]
    if apdu.length > 3 then pure (out ++ outItem (hexField "PROXY响应数据" (apdu.drop 3)))
    else pure out

/-! ## SECURITY envelopes and dispatch -/

/-- The inner length of a SECURITY envelope and the position after it; `none` for the length
forms that are not supported. -/
def securityLength (apdu : Bytes) : Option (ℕ × ℕ) :=
  let lenByte := (byteAt apdu 2 : ℕ)
  if lenByte < 0x80 then some (lenByte, 3)
  else if lenByte = 0x81 then some (if 3 < apdu.length then (byteAt apdu 3 : ℕ) else 0, 4)
  else if lenByte = 0x82 then
    some (if 4 < apdu.length then (byteAt apdu 3 : ℕ) <<< 8 ||| (byteAt apdu 4 : ℕ) else 0, 5)
  else none

/-- The fields of the verification part of a SECURITY envelope. -/
def securityVerify (apdu : Bytes) (isResponse : Bool) (pos : ℕ) : ApduOut :=
  if pos < apdu.length then
    let first := byteAt apdu pos
    if isResponse then
      if first = 1 ∧ pos + 1 < apdu.length then
        let choice := byteAt apdu (pos + 1)
        if choice = 0 then
          let macLen := if pos + 2 < apdu.length then (byteAt apdu (pos + 2) : ℕ) else 0
          let mac := slice apdu (pos + 3) (pos + 3 + macLen)
          outFields [⟨"数据验证信息", .str "MAC", none, hex02 first, .int (first : ℕ),
            "MAC(" ++ toString macLen ++ "B): " ++ upper (hex mac)⟩]
        else
          outFields [⟨"数据验证信息", .str ("未知类型(" ++ hex0x choice ++ ")"), none,
            hex02 choice, .int (choice : ℕ), ""⟩]
      else outFields [⟨"数据验证信息", .str "无", none, hex02 first, .int (first : ℕ), ""⟩]
    else
      let name := nameOf [(0, "SID_MAC"), (1, "RN"), (2, "RN_MAC"), (3, "SID")] first (hex0x first)
      let here := outFields [⟨"数据验证类型", .str name, none, hex02 first, .int (first : ℕ), ""⟩]
      if pos + 1 < apdu.length then
        let data := apdu.drop (pos + 1)
        here ++ outFields [⟨"验证数据", .str (upper (hex data)), none, hex data, .str (hex data), ""⟩]
      else here
  else {}

/-- `_parse_apdu` with `_parse_security`, whose inner APDU is shorter than its envelope. -/
def parseApduFuel (store : MetadataStore) : ℕ → Bytes → PyM ApduOut
  | 0, _ => pure {}
  | fuel + 1, apdu => do
    let tag ← index apdu 0
    match (tag : ℕ) with
    | 0x05 => parseGetRequest store apdu
    | 0x85 => parseGetResponse store apdu
    | 0x06 => parseSetRequest store apdu
    | 0x86 => parseSetResponse store apdu
    | 0x07 => parseActionRequest apdu
    | 0x87 => parseActionResponse apdu
    | 0x09 => parseProxyRequest store apdu
    | 0x89 => parseProxyResponse apdu
    | 0x10 | 0x90 =>
      if apdu.length < 3 then pure (outWarning "SECURITY-APDU长度不足")
      else
        let choice := byteAt apdu 1
        if choice = 2 then
          pure (outFields [⟨"应用数据类型", .str ("异常错误(DAR=" ++ hex0x (byteAt apdu 2) ++ ")"),
            none, hex02 choice, .int (choice : ℕ), ""⟩])
        else
          match securityLength apdu with
          | none => pure (outWarning ("SECURITY长度编码不支持: " ++ hex0x (byteAt apdu 2)))
          | some (innerLen, pos) =>
            let inner := slice apdu pos (pos + innerLen)
            let name := nameOf [(0, "明文APDU"), (1, "密文APDU"), (2, "异常错误")] choice
              ("未知(" ++ hex0x choice ++ ")")
            let out := outFields [⟨"应用数据类型", .str name, none, hex02 choice,
                .int (choice : ℕ), ""⟩,
              ⟨"内层APDU长度", .int innerLen, none, hexPad 4 innerLen, .int innerLen, ""⟩] ++
              securityVerify apdu (tag = 0x90) (pos + innerLen)
            match inner with
            | [] => pure out
            | innerTag :: _ =>
              let body ← parseApduFuel store fuel inner
              pure (out ++ outFields [⟨"内层APDU类型", .str (apduName innerTag), none,
                hex02 innerTag, .int (innerTag : ℕ), ""⟩] ++ body)
    | 0x01 | 0x81 | 0x02 | 0x82 | 0x03 | 0x83 | 0x84 | 0x08 | 0x88 =>
      pure (outItem (hexField "APDU数据" apdu))
    | _ =>
      pure (outWarning ("未识别的APDU类型 " ++ hex0x tag) ++ outItem (hexField "APDU原始" apdu))

def parseApdu (store : MetadataStore) (apdu : Bytes) : PyM ApduOut :=
  parseApduFuel store (apdu.length + 1) apdu

/-! ## Decoding -/

def checkText (ok : Bool) : String := "校验" ++ if ok then "通过" else "失败"

/-- The link fields as `decode` prints them. -/
def linkDataFields (l : LinkFields) : List DataField :=
  let dir := if (l.c : ℕ) &&& 0x80 ≠ 0 then "服务器发出" else "客户机发出"
  let prm := if (l.c : ℕ) &&& 0x40 ≠ 0 then "启动站" else "从动站"
  let frag := if (l.c : ℕ) &&& 0x20 ≠ 0 then "分帧" else "完整"
  let func := (l.c : ℕ) &&& 0x0F
  let funcName := nameOf [(1, "链路管理"), (3, "用户数据")] func ("功能码" ++ toString func)
  let saType := if (byteAt l.sa 0 : ℕ) &&& 0x40 ≠ 0 then "通配地址" else "单地址"
  [ ⟨"长度域L", .int l.L, none, hexPad 4 l.L, .int l.L, ""⟩,
    ⟨"控制域C", .str (hex0x l.c), none, hex02 l.c, .int (l.c : ℕ),
      dir ++ ";" ++ prm ++ ";" ++ frag ++ ";" ++ funcName⟩,
    ⟨"服务器地址SA", .str (upper (hex l.sa)), none, hex l.sa, .str (hex l.sa),
      "逻辑地址:" ++ upper (hex (l.sa.drop 1).reverse) ++ ";" ++ saType ++ ";长度=" ++
        toString (saLen (byteAt l.sa 0)) ++ "B"⟩,
    ⟨"客户机地址CA", .str (hex0x l.ca), none, hex02 l.ca, .int (l.ca : ℕ), ""⟩,
    ⟨"帧头校验HCS", .str ("0x" ++ upper (hex l.hcs)), none, hex l.hcs, .none, checkText l.hcsOk⟩,
    ⟨"帧校验FCS", .str ("0x" ++ upper (hex l.fcs)), none, hex l.fcs, .none, checkText l.fcsOk⟩ ]

def linkWarnings (l : LinkFields) : List String :=
  (if l.hcsOk then [] else ["HCS校验失败"]) ++ (if l.fcsOk then [] else ["FCS校验失败"])

def decode (store : MetadataStore) (raw : Bytes) : PyM ProtocolFrame := do
  let l ← decodeLink raw
  let base := newFrame "698.45" (hex raw)
  match l.apdu with
  | [] => pure { base with fields := linkDataFields l, warnings := linkWarnings l ++ ["APDU为空"] }
  | tag :: _ =>
    let out ← parseApdu store l.apdu
    pure { base with
      fields := linkDataFields l ++
        [⟨"APDU类型", .str (apduName tag), none, hex02 tag, .int (tag : ℕ), ""⟩] ++ out.fields
      items := out.items
      warnings := linkWarnings l ++ out.warnings }

end HplcWorkbench.Adapter698
