import HplcWorkbench.PyParams
import HplcWorkbench.Frame10376

/-!
# The application data encoder of 1376.2

`_encode_app_data` is a table over (AFN, Fn, direction). An entry reads and checks the fields it
needs from the parameters, and writes them as bytes, numbers with the low byte first. Entries of
one shape are one definition, applied in the table to the keys, bounds and texts of each member.
-/

namespace HplcWorkbench.Adapter10376

/-- One entry of the table. -/
structure TableEntry where
  Fields : Type
  read : Params → PyM Fields
  write : Fields → Bytes

def TableEntry.encode (e : TableEntry) (p : Params) : PyM Bytes := do
  let fields ← e.read p
  pure (e.write fields)

/-! ## Shapes that several entries share -/

/-- A data unit without bytes. -/
def noUnit : TableEntry where
  Fields := Unit
  read _ := pure ()
  write _ := []

/-- One required byte. -/
def byteEntry (key : String) (lo : Byte := 0) (hi : Byte := 255) : TableEntry where
  Fields := InRange lo hi
  read p := do u8 (← req p key) key lo hi
  write b := [b]

/-- Two required bytes. -/
def bytePairEntry (first second : String) (hi : Byte := 255) : TableEntry where
  Fields := InRange 0 255 × InRange 0 hi
  read p := do
    let a ← u8 (← req p first) first
    let b ← u8 (← req p second) second 0 hi
    pure (a, b)
  write f := [f.1, f.2]

/-- One required number of two bytes. -/
def wordEntry (key : String) : TableEntry where
  Fields := Word
  read p := do u16 (← req p key) key
  write w := w.toBytes

/-- The address of one node. -/
def addrEntry (name : String) : TableEntry where
  Fields := BcdAddr
  read p := do bcdBytes (← req p "addr") name
  write a := a.bytes

/-- Start number and count of a page query. -/
def pageEntry : TableEntry where
  Fields := Word × InRange 0 255
  read p := do
    let start ← u16 (p.getD "start" (.int 0)) "start"
    let count ← u8 (p.getD "count" (.int 0)) "count"
    pure (start, count)
  write f := f.1.toBytes ++ [(f.2 : Byte)]

/-- The required payload of at most `limit` bytes. -/
def payloadArg (p : Params) (limit : ℕ) (e : PyErr) : PyM (UpTo Byte limit) := do
  upTo (← hexBytes (← req p "payload") "payload") limit e

/-- The limit text that most entries use. -/
def payloadTooLong : PyErr := .valueError "payload 长度超过 1B 长度域上限"

/-- A payload, its length before it. -/
def withLength (payload : Bytes) : Bytes := byte payload.length :: payload

/-- One byte, then a payload with its length. -/
def bytePayloadEntry (key : String) (e : PyErr) : TableEntry where
  Fields := UpTo Byte 255 × InRange 0 3
  read p := do
    let payload ← payloadArg p 255 e
    let first ← u8 (← req p key) key 0 3
    pure (payload, first)
  write f := (f.2 : Byte) :: withLength f.1

/-- A node address under `addr`, or under `sta` where `addr` is absent. -/
def nodeAddr (nd : Params) (name : String := "从节点地址") : PyM BcdAddr :=
  bcdBytes (nd.getD "addr" (nd.get "sta")) name

/-- The rows of a required node list. -/
def nodeRows {α : Type} (p : Params) (key : String) (row : Params → PyM α) : PyM (List α) := do
  (← nodesList p key).mapM (fun v => do row (← v.asDict))

/-- The elements of an optional list. -/
def optionalList {α : Type} (p : Params) (key : String) (row : PyVal → PyM α) : PyM (List α) := do
  (← (p.get key).orEmpty.elems).mapM row

/-! ## Rates and times -/

/-- A communication rate: unit mark and rate. -/
structure Rate where
  unit : ℤ
  rate : Word

/-- `_rate_word`. -/
def Rate.word (r : Rate) : Word :=
  Fin.ofNat 65536 ((r.unit % 2).toNat <<< 15 ||| ((r.rate : ℕ) &&& 0x7FFF))

/-- One element of a `rates` list. -/
def rateArg (v : PyVal) : PyM Rate := do
  let r ← v.asDict
  let rate ← u16 (r.getD "rate" (.int 0)) "rate"
  let unit ← (r.getD "unit" (.int 0)).toInt
  pure ⟨unit, rate⟩

/-- A time given as six numbers, or as the text of their digits. -/
inductive Time6
  | parts (sec min hour day mon year : Fin 100)
  | digits (text : BcdAddr)

/-- `_time6_bytes`. -/
def Time6.bytes : Time6 → Bytes
  | .parts sec min hour day mon year =>
    [bcdOf sec, bcdOf min, bcdOf hour, bcdOf day, bcdOf mon, bcdOf year]
  | .digits text => text.bytes

def time6 (p : Params) : PyM Time6 :=
  if p.has "time" then
    let v := p.get "time"
    let s := String.ofList (v.toStr.toList.filter (fun c => c ≠ ' ' ∧ c ≠ ':' ∧ c ≠ '-'))
    if hdigits : TwelveDigits s then
      match hpacked : strToBcd s 6 with
      | .ok bs => pure (.digits ⟨s, hdigits, bs, hpacked⟩)
      | .error e => throw e
    else throw (.valueError ("time 须为 12 位数字（秒分时日月年各2位）: " ++ v.repr))
  else do
    let sec ← intToBcd (p.getD "sec" (.int 0)) "sec" 59
    let min ← intToBcd (p.getD "min" (.int 0)) "min" 59
    let hour ← intToBcd (p.getD "hour" (.int 0)) "hour" 23
    let day ← intToBcd (p.getD "day" (.int 0)) "day" 31
    let mon ← intToBcd (p.getD "mon" (.int 0)) "mon" 12
    let year ← intToBcd (p.getD "year" (.int 0)) "year" 99
    pure (.parts sec min hour day mon year)

def timeEntry : TableEntry where
  Fields := Time6
  read := time6
  write := Time6.bytes

/-! ## AFN 00H and 02H -/

inductive Confirm
  | bare (processed : PyVal)
  | state (processed : Bool) (channels : InRange 0 255) (wait : Word)
  | deny

/-- 00H-F1. -/
def entry00F1 : TableEntry where
  Fields := Confirm
  read p :=
    let status := p.get "status"
    if status.isNone ∨ status.eqInt 0 ∨ status.eqStr "0" ∨ status.eqStr "confirm" ∨
        status.eqStr "ok" then
      if ¬ (p.get "wait").isNone ∨ ¬ (p.get "channels").isNone then do
        let channels ← u8 (p.getD "channels" (.int 0)) "channels"
        let wait ← u16 (p.getD "wait" (.int 0)) "wait"
        pure (.state (p.get "processed").truthy channels wait)
      else pure (.bare (p.get "processed"))
    else if status.eqInt 1 ∨ status.eqStr "1" ∨ status.eqStr "deny" ∨ status.eqStr "ng" then
      pure .deny
    else throw (.valueError ("00H-F1 status 非法: " ++ status.repr))
  write
    | .bare _ => []
    | .state processed channels wait =>
      [byte ((if processed then 0x80 else 0) ||| ((channels : Byte) : ℕ) &&& 0x7F), 0, 0, 0] ++
        wait.toBytes
    | .deny => [1]

/-- 02H-F1: the request names its limit in the error. -/
def entry02F1 : TableEntry where
  Fields := UpTo Byte 255 × InRange 0 3
  read p := do
    let bs ← hexBytes (← req p "payload" "转发报文 hex") "payload"
    let payload ← upTo bs 255 (.valueError ("payload 长度 " ++ toString bs.length ++
      " 超过 1B 长度域上限 255"))
    let protocol ← u8 (← req p "protocol") "protocol" 0 3
    pure (payload, protocol)
  write f := (f.2 : Byte) :: withLength f.1

/-! ## Requests -/

structure TestMessage where
  rate : InRange 0 255
  addr : BcdAddr
  protocol : InRange 0 3
  payload : UpTo Byte 255

/-- 04H-F3. -/
def entry04F3 : TableEntry where
  Fields := TestMessage
  read p := do
    let payload ← payloadArg p 255 payloadTooLong
    let rate ← u8 (← req p "rate") "rate"
    let addr ← bcdBytes (← req p "addr") "目标地址"
    let protocol ← u8 (← req p "protocol") "protocol" 0 3
    pure ⟨rate, addr, protocol, payload⟩
  write f := (f.rate : Byte) :: (f.addr.bytes ++ (f.protocol : Byte) :: withLength f.payload)

structure IdQuery where
  devType : InRange 1 7
  addr : Bytes
  idType : InRange 1 2

def idQuery (p : Params) : PyM IdQuery := do
  let devType ← u8 (← req p "dev_type") "dev_type" 1 7
  let addr ← hexBytes (← req p "addr") "节点地址"
  let idType ← u8 (← req p "id_type") "id_type" 1 2
  pure ⟨devType, addr, idType⟩

/-- 10H-F40 downlink. -/
def entry10F40Down : TableEntry where
  Fields := IdQuery
  read := idQuery
  write f := (f.devType : Byte) :: (f.addr ++ [(f.idType : Byte)])

/-- 10H-F231 downlink. -/
def entry10F231 : TableEntry where
  Fields := InRange 1 15 × InRange 2 3
  read p := do
    let taskNo ← u8 (p.getD "task_no" (.int 0)) "task_no" 1 15
    let protocol ← u8 (p.getD "protocol" (.int 2)) "protocol" 2 3
    pure (taskNo, protocol)
  write f := [(f.1 : Byte), (f.2 : Byte)]

/-- The byte that an `action` stands for. -/
def actionArg (v : PyVal) (on off hint : String) : PyM (InRange 0 1) :=
  if v.eqInt 1 ∨ v.eqStr on then pure ⟨1, by decide⟩
  else if v.eqInt 0 ∨ v.eqStr off then pure ⟨0, by decide⟩
  else throw (.valueError ("action 非法: " ++ v.repr ++ hint))

/-- A node and its protocol. -/
structure NodeProto where
  addr : BcdAddr
  protocol : InRange 0 3

def NodeProto.bytes (nd : NodeProto) : Bytes := nd.addr.bytes ++ [(nd.protocol : Byte)]

inductive AddNodes
  | nodes (nodes : UpTo NodeProto 255)
  | action (action : InRange 0 1) (addr : BcdAddr) (protocol : InRange 2 3)

/-- 11H-F1: a node list, or one node with an action. -/
def entry11F1 : TableEntry where
  Fields := AddNodes
  read p :=
    if p.has "nodes" then do
      let nodes ← nodeRows p "nodes" (fun nd => do
        let addr ← nodeAddr nd
        let protocol ← u8 (nd.getD "protocol" (.int 2)) "protocol" 0 3
        pure (⟨addr, protocol⟩ : NodeProto))
      pure (.nodes (← counted nodes "nodes"))
    else do
      let action ← actionArg (p.getD "action" (.str "add")) "add" "delete" ""
      let addr ← nodeAddr p "档案地址"
      let protocol ← u8 (p.getD "protocol" (.int 2)) "protocol" 2 3
      pure (.action action addr protocol)
  write
    | .nodes nodes => byte nodes.1.length :: nodes.1.flatMap NodeProto.bytes
    | .action action addr protocol => (action : Byte) :: addr.bytes ++ [(protocol : Byte)]

/-- 11H-F2: a meter list, or the one address under `addr`. -/
def entry11F2 : TableEntry where
  Fields := UpTo BcdAddr 255
  read p := do
    let meters := p.get "meters"
    let meters ← if ¬ meters.isNone then meters.elems
      else if p.has "addr" then pure [p.get "addr"]
      else throw (.valueError "缺少参数 addr/meters")
    counted (← meters.mapM (bcdBytes · "从节点地址")) "从节点数量"
  write meters := byte meters.1.length :: meters.1.flatMap BcdAddr.bytes

/-- 11H-F3. -/
def entry11F3 : TableEntry where
  Fields := BcdAddr × UpTo BcdAddr 15
  read p := do
    let relays ← optionalList p "relays" (bcdBytes · "中继地址")
    let addr ← bcdBytes (← req p "addr") "从节点地址"
    pure (addr, ← counted relays "中继级别" 15)
  write f := f.1.bytes ++ (byte f.2.1.length :: f.2.1.flatMap BcdAddr.bytes)

/-- 11H-F4. -/
def entry11F4 : TableEntry where
  Fields := InRange 0 255 × Rate
  read p := do
    let mode ← u8 (← req p "mode") "mode"
    let rate ← u16 (← req p "rate") "rate"
    let unit ← (p.getD "rate_unit" (.int 0)).toInt
    pure (mode, ⟨unit, rate⟩)
  write f := (f.1 : Byte) :: f.2.word.toBytes

structure Registration where
  time : Time6
  duration : Word
  retry : InRange 0 255
  slices : InRange 0 255

/-- 11H-F5. -/
def entry11F5 : TableEntry where
  Fields := Registration
  read p := do
    let time ← time6 p
    let duration ← u16 (← req p "duration") "duration"
    let retry ← u8 (← req p "retry") "retry"
    let slices ← u8 (← req p "slices") "slices"
    pure ⟨time, duration, retry, slices⟩
  write f := f.time.bytes ++ (f.duration.toBytes ++ [(f.retry : Byte), (f.slices : Byte)])

/-- One collected item of a meter group. -/
structure TaskItem where
  meterType : InRange 0 2
  item : Bytes
  replyLen : InRange 0 255

def TaskItem.bytes (it : TaskItem) : Bytes := it.item ++ [(it.replyLen : Byte)]

structure TaskConfig where
  taskNo : Byte
  action : InRange 0 1
  protocol : InRange 2 3
  cycle : InRange 0 255
  items : List TaskItem

/-- The items of one meter type, in their order. -/
def meterGroup (items : List TaskItem) (meterType : Byte) : List TaskItem :=
  items.filter (fun it => (it.meterType : Byte) = meterType)

/-- A group: its mark and item count, and for a group with items the reply length of all of them
and the items. -/
def groupBytes (meterType : Byte) (g : List TaskItem) : Bytes :=
  [meterType, byte g.length] ++
    if g = [] then []
    else
      let total := (g.map (fun it => ((it.replyLen : Byte) : ℕ))).sum
      [byte total, byte (total / 256)] ++ g.flatMap TaskItem.bytes

def itemArg (v : PyVal) : PyM TaskItem := do
  let it ← v.asDict
  let meterType ← u8 (it.getD "meter_type" (.int 0)) "items[].meter_type" 0 2
  let text := dropSpaces (it.getD "item" (.str "")).toStr
  if text.length ≠ 8 then throw (.valueError ("数据项标识必须为 4B hex: " ++ (it.get "item").repr))
  match fromHex text with
  | none => throw (.valueError "non-hexadecimal number found in fromhex() arg")
  | some item =>
    let replyLen ← u8 (it.getD "reply_len" (.int 0)) "items[].reply_len"
    pure ⟨meterType, item, replyLen⟩

/-- 11H-F231, `_encode_11f231`: three groups by meter type, each written out. -/
def entry11F231 : TableEntry where
  Fields := TaskConfig
  read p := do
    let action ← actionArg (p.getD "action" (.str "enable")) "enable" "delete"
      "（应为 enable/delete 或 0/1）"
    let number := p.getD "task_no" (.int 0)
    -- every task at once is 255, and only a delete may name it
    let taskNo ← if (action : Byte) = 0 ∧ (← number.toInt) = 0xFF then pure 0xFF
      else do pure (← u8 number "task_no" 1 15 : Byte)
    let protocol ← u8 (p.getD "protocol" (.int 2)) "protocol" 2 3
    let cycle ← u8 (p.getD "cycle_min" (.int 0)) "cycle_min"
    let items ← optionalList p "items" itemArg
    let _ ← [0, 1, 2].mapM (fun mt : Byte =>
      counted (meterGroup items mt) ("meter_type=" ++ toString mt ++ " 数据项数量"))
    pure ⟨taskNo, action, protocol, cycle, items⟩
  write f := [f.taskNo, (f.action : Byte), (f.protocol : Byte), (f.cycle : Byte)] ++
    ([0, 1, 2] : Bytes).flatMap (fun mt => groupBytes mt (meterGroup f.items mt))

/-- 11H-F232, `_encode_11f232`. -/
def entry11F232 : TableEntry where
  Fields := InRange 1 15 × UpTo BcdAddr 65535
  read p := do
    let taskNo ← u8 (p.getD "task_no" (.int 0)) "task_no" 1 15
    let meters ← optionalList p "meters" (fun m =>
      match m with
      | .dict entries => bcdBytes (Params.get entries "addr") "档案地址"
      | m => bcdBytes m "档案地址")
    pure (taskNo, ← upTo meters 65535 (.valueError ("档案个数=" ++ toString meters.length ++
      " 越界 [0,65535]")))
  write f := (f.1 : Byte) ::
    ([byte f.2.1.length, byte (f.2.1.length / 256)] ++ f.2.1.flatMap BcdAddr.bytes)

/-- The attached nodes of 13H-F1 and 14H-F1. -/
def attachedNodes (p : Params) : PyM (UpTo BcdAddr 255) := do
  counted (← optionalList p "subs" (bcdBytes · "附属节点地址")) "subs"

structure Monitoring where
  protocol : InRange 0 3
  delayFlag : InRange 0 1
  subs : UpTo BcdAddr 255
  payload : UpTo Byte 255

/-- 13H-F1 downlink. -/
def entry13F1Down : TableEntry where
  Fields := Monitoring
  read p := do
    let subs ← attachedNodes p
    let payload ← payloadArg p 255 payloadTooLong
    let protocol ← u8 (← req p "protocol") "protocol" 0 3
    let delayFlag ← u8 (p.getD "delay_flag" (.int 0)) "delay_flag" 0 1
    pure ⟨protocol, delayFlag, subs, payload⟩
  write f := [(f.protocol : Byte), (f.delayFlag : Byte), byte f.subs.1.length] ++
    (f.subs.1.flatMap BcdAddr.bytes ++ withLength f.payload)

/-- An optional hex text that stands for no bytes when it is empty. -/
def optionalHex (p : Params) (key : String) : PyM Bytes :=
  if (p.get key).truthy then hexBytes (p.get key) key else pure []

structure ReadContent where
  flag : InRange 0 2
  delayFlag : InRange 0 1
  payload : UpTo Byte 255
  subs : UpTo BcdAddr 255

/-- 14H-F1 downlink. -/
def entry14F1Down : TableEntry where
  Fields := ReadContent
  read p := do
    let payload ← upTo (← optionalHex p "payload") 255 payloadTooLong
    let subs ← attachedNodes p
    let flag ← u8 (← req p "flag") "flag" 0 2
    let delayFlag ← u8 (p.getD "delay_flag" (.int 0)) "delay_flag" 0 1
    pure ⟨flag, delayFlag, payload, subs⟩
  write f := (f.flag : Byte) :: (f.delayFlag : Byte) :: (withLength f.payload ++
    byte f.subs.1.length :: f.subs.1.flatMap BcdAddr.bytes)

/-- 14H-F3 downlink. -/
def entry14F3Down : TableEntry where
  Fields := UpTo Byte 255
  read p := payloadArg p 255 payloadTooLong
  write payload := withLength payload

structure SampledItem where
  kind : InRange 1 2
  item : Bytes
  content : Bytes

/-- 14H-F4 downlink. -/
def entry14F4Down : TableEntry where
  Fields := SampledItem
  read p := do
    let content ← optionalHex p "content"
    let kind ← u8 (← req p "type") "type" 1 2
    let item ← hexBytes (← req p "item") "item"
    pure ⟨kind, item, content⟩
  write f := (f.kind : Byte) :: (f.item ++ f.content)

def segId (p : Params) : PyM (Exactly 4) := do
  let v ← req p "seg_id"
  exactly (← hexBytes v "seg_id") 4 ("seg_id 须为 4B hex: " ++ v.repr)

structure FileSegment where
  fileId : InRange 0 255
  attr : InRange 0 1
  cmd : InRange 0 255
  totalSegs : Word
  segId : Exactly 4
  segLen : Word
  data : Bytes

/-- 15H-F1 downlink. -/
def entry15F1Down : TableEntry where
  Fields := FileSegment
  read p := do
    let data ← hexBytes (← req p "data") "data"
    let segId ← segId p
    let fileId ← u8 (← req p "file_id") "file_id"
    let attr ← u8 (p.getD "attr" (.int 0)) "attr" 0 1
    let cmd ← u8 (p.getD "cmd" (.int 0)) "cmd"
    let totalSegs ← u16 (← req p "total_segs") "total_segs"
    let segLen ← u16 (p.getD "seg_len" (.int data.length)) "seg_len"
    pure ⟨fileId, attr, cmd, totalSegs, segId, segLen, data⟩
  write f := [(f.fileId : Byte), (f.attr : Byte), (f.cmd : Byte)] ++ (f.totalSegs.toBytes ++
    (f.segId.1 ++ (f.segLen.toBytes ++ f.data)))

/-- The payload and protocol of F1H-F1, whose length takes two bytes. -/
def concurrentArgs (p : Params) : PyM (InRange 0 3 × UpTo Byte 65535) := do
  let bs ← hexBytes (← req p "payload") "payload"
  let protocol ← u8 (← req p "protocol") "protocol" 0 3
  pure (protocol, ← upTo bs 65535 (.valueError ("payload=" ++ toString bs.length ++
    " 越界 [0,65535]")))

/-- F1H-F1 downlink. -/
def entryF1F1Down : TableEntry where
  Fields := InRange 0 3 × UpTo Byte 65535
  read := concurrentArgs
  write f := [(f.1 : Byte), 0, byte f.2.1.length, byte (f.2.1.length / 256)] ++ f.2

/-! ## Replies and reports -/

/-- `str(v)[:2].ljust(2)` of a text. -/
def twoChars (text : String) : List Char :=
  let head := text.toList.take 2
  head ++ List.replicate (2 - head.length) ' '

/-- A two-letter code; its first two characters are ASCII. -/
structure Code where
  text : String
  ascii : ∀ c ∈ text.toList.take 2, c.toNat < 128

def Code.bytes (c : Code) : Bytes := (twoChars c.text).map (fun ch => byte ch.toNat)

/-- `.encode("ascii")` of the first two characters. -/
def codeArg (v : PyVal) : PyM Code :=
  let text := v.toStr
  if h : (text.toList.take 2).all (fun c => decide (c.toNat < 128)) = true then
    pure ⟨text, fun c hc => by simpa using List.all_eq_true.mp h c hc⟩
  else throw (.valueError "'ascii' codec can't encode character: ordinal not in range(128)")

structure Version where
  vendor : Code
  chip : Code
  day : Fin 100
  month : Fin 100
  year : Fin 100
  version : Exactly 2

/-- 03H-F1 uplink. -/
def entry03F1Up : TableEntry where
  Fields := Version
  read p := do
    let version ← exactly (← hexBytes (← req p "version") "version") 2 "version 须为 2B hex"
    let vendor ← codeArg (← req p "vendor")
    let chip ← codeArg (← req p "chip")
    let day ← intToBcd (← req p "day") "day" 31
    let month ← intToBcd (← req p "month") "month" 12
    let year ← intToBcd (← req p "year") "year" 99
    pure ⟨vendor, chip, day, month, year, version⟩
  write f := f.vendor.bytes ++ (f.chip.bytes ++
    ([bcdOf f.day, bcdOf f.month, bcdOf f.year] ++ f.version.1))

/-- A listened node. -/
structure ListenedNode where
  addr : BcdAddr
  quality : InRange 0 15
  relay : InRange 0 15
  listen : InRange 0 255

def ListenedNode.bytes (nd : ListenedNode) : Bytes :=
  nd.addr.bytes ++ [byte (((nd.quality : Byte) : ℕ) <<< 4 ||| ((nd.relay : Byte) : ℕ)),
    (nd.listen : Byte)]

/-- 03H-F3 uplink. -/
def entry03F3Up : TableEntry where
  Fields := InRange 0 255 × UpTo ListenedNode 255
  read p := do
    let nodes ← nodeRows p "nodes" (fun nd => do
      let addr ← nodeAddr nd
      let quality ← u8 (nd.getD "quality" (.int 0)) "quality" 0 15
      let relay ← u8 (nd.getD "relay" (.int 0)) "relay" 0 15
      let listen ← u8 (nd.getD "listen" (.int 0)) "listen"
      pure (⟨addr, quality, relay, listen⟩ : ListenedNode))
    let total ← u8 (← req p "total") "total"
    pure (total, ← upTo nodes 255 byteRange)
  write f := [(f.1 : Byte), byte f.2.1.length] ++ f.2.1.flatMap ListenedNode.bytes

structure MasterState where
  mode : InRange 0 3
  channel : InRange 0 3
  channelCnt : InRange 0 15
  rates : UpTo Rate 15

/-- 03H-F5 uplink. -/
def entry03F5Up : TableEntry where
  Fields := MasterState
  read p := do
    let rates ← counted (← optionalList p "rates" rateArg) "rates" 15
    let mode ← u8 (p.getD "mode" (.int 0)) "mode" 0 3
    let channel ← u8 (p.getD "channel" (.int 0)) "channel" 0 3
    let channelCnt ← u8 (p.getD "channel_cnt" (.int 0)) "channel_cnt" 0 15
    pure ⟨mode, channel, channelCnt, rates⟩
  write f := [byte (((f.mode : Byte) : ℕ) <<< 6 ||| ((f.channel : Byte) : ℕ) <<< 4 |||
    f.rates.1.length), (f.channelCnt : Byte)] ++ f.rates.1.flatMap (fun r => r.word.toBytes)

/-- A time of two bytes, then a protocol and a payload. -/
structure TimedPayload where
  time : Word
  protocol : InRange 0 3
  payload : UpTo Byte 255

/-- 03H-F9 and 13H-F1 uplink. -/
def timedPayloadEntry (key : String) (e : PyErr) : TableEntry where
  Fields := TimedPayload
  read p := do
    let payload ← payloadArg p 255 e
    let time ← u16 (← req p key) key
    let protocol ← u8 (← req p "protocol") "protocol" 0 3
    pure ⟨time, protocol, payload⟩
  write f := f.time.toBytes ++ (f.protocol : Byte) :: withLength f.payload

structure RunParams where
  mode : Bytes
  monitorTimeout : InRange 0 255
  broadcastTimeout : Word
  maxFrame : Word
  maxFilePkt : Word
  upgradeWait : InRange 0 255
  addr : BcdAddr
  maxNodes : Word
  curNodes : Word
  pubDate : Exactly 3
  recDate : Exactly 3
  vendorVer : Exactly 9
  rates : List Rate

def RunParams.bytes (f : RunParams) : Bytes :=
  f.mode ++ ((f.monitorTimeout : Byte) :: (f.broadcastTimeout.toBytes ++ (f.maxFrame.toBytes ++
    (f.maxFilePkt.toBytes ++ (f.upgradeWait : Byte) :: (f.addr.bytes ++ (f.maxNodes.toBytes ++
      (f.curNodes.toBytes ++ (f.pubDate.1 ++ (f.recDate.1 ++ (f.vendorVer.1 ++
        f.rates.flatMap (fun r => r.word.toBytes)))))))))))

/-- 03H-F10 uplink: no parameters stand for no data unit. -/
def entry03F10Up : TableEntry where
  Fields := Option RunParams
  read p :=
    if p = [] then pure none
    else do
      let mode ← hexBytes (← req p "mode" "6B 模式字 hex") "mode"
      let monitorTimeout ← u8 (← req p "monitor_timeout") "monitor_timeout"
      let broadcastTimeout ← u16 (← req p "broadcast_timeout") "broadcast_timeout"
      let maxFrame ← u16 (← req p "max_frame") "max_frame"
      let maxFilePkt ← u16 (← req p "max_file_pkt") "max_file_pkt"
      let upgradeWait ← u8 (← req p "upgrade_wait") "upgrade_wait"
      let addr ← bcdBytes (← req p "addr") "主节点地址"
      let maxNodes ← u16 (← req p "max_nodes") "max_nodes"
      let curNodes ← u16 (← req p "cur_nodes") "cur_nodes"
      let tooShort := "pub_date/rec_date 须为 3B，vendor_ver 须为 9B hex"
      let pubDate ← exactly (← hexBytes (← req p "pub_date") "pub_date") 3 tooShort
      let recDate ← exactly (← hexBytes (← req p "rec_date") "rec_date") 3 tooShort
      let vendorVer ← exactly (← hexBytes (← req p "vendor_ver") "vendor_ver") 9 tooShort
      let rates ← optionalList p "rates" rateArg
      pure (some ⟨mode, monitorTimeout, broadcastTimeout, maxFrame, maxFilePkt, upgradeWait, addr,
        maxNodes, curNodes, pubDate, recDate, vendorVer, rates⟩)
  write
    | none => []
    | some f => f.bytes

/-- A number of 03H-F11's `support` list. -/
def supportArg (v : PyVal) : PyM (InRange 1 255) := do
  let f ← v.toInt
  if h : 1 ≤ f ∧ f ≤ 255 then
    pure ⟨byte f.toNat, by
      constructor <;> rw [Fin.le_def, byte_val]
      · change 1 ≤ f.toNat % 256
        omega
      · change f.toNat % 256 ≤ 255
        omega⟩
  else throw (.valueError ("支持的数据单元 F" ++ toString f ++ " 越界 [1,255]"))

/-- One step of the loop that fills the bitmap. -/
def setBit (bitmap : Bytes) (f : ℕ) : Bytes :=
  bitmap.modify ((f - 1) >>> 3) (fun b => byte ((b : ℕ) ||| 1 <<< ((f - 1) &&& 7)))

/-- The 32-byte bitmap of 03H-F11. -/
def supportBitmap (support : List ℕ) : Bytes := support.foldl setBit (List.replicate 32 0)

/-- 03H-F11 uplink. -/
def entry03F11Up : TableEntry where
  Fields := InRange 0 255 × List (InRange 1 255)
  read p := do
    let support ← optionalList p "support" supportArg
    let afn ← u8 (← req p "afn") "afn"
    pure (afn, support)
  write f := (f.1 : Byte) :: supportBitmap (f.2.map (fun b => ((b : Byte) : ℕ)))

structure ModuleId where
  vendor : Code
  idFormat : InRange 0 3
  id : UpTo Byte 50

/-- 03H-F12 uplink. -/
def entry03F12Up : TableEntry where
  Fields := ModuleId
  read p := do
    let id ← upTo (← hexBytes (← req p "id") "id") 50 (.valueError "模块ID号最长 50B")
    let vendor ← codeArg (← req p "vendor")
    let idFormat ← u8 (← req p "id_format") "id_format" 0 3
    pure ⟨vendor, idFormat, id⟩
  write f := f.vendor.bytes ++ (byte f.id.1.length :: (f.idFormat : Byte) :: f.id.1)

/-- A reported node of 06H-F1. -/
structure ReportedNode where
  addr : BcdAddr
  protocol : InRange 0 3
  seq : Word

def ReportedNode.bytes (nd : ReportedNode) : Bytes :=
  nd.addr.bytes ++ (nd.protocol : Byte) :: nd.seq.toBytes

def reportedNode (nd : Params) : PyM ReportedNode := do
  let addr ← nodeAddr nd
  let protocol ← u8 (nd.getD "protocol" (.int 2)) "protocol" 0 3
  let seq ← u16 (nd.getD "seq" (.int 0)) "seq"
  pure ⟨addr, protocol, seq⟩

/-- 06H-F1 uplink. -/
def entry06F1 : TableEntry where
  Fields := UpTo ReportedNode 255
  read p := do counted (← nodeRows p "nodes" reportedNode) "nodes"
  write nodes := byte nodes.1.length :: nodes.1.flatMap ReportedNode.bytes

structure ReadReport where
  seq : Word
  protocol : InRange 0 3
  upLen : Word
  payload : UpTo Byte 255

/-- 06H-F2 uplink. -/
def entry06F2 : TableEntry where
  Fields := ReadReport
  read p := do
    let payload ← payloadArg p 255 payloadTooLong
    let seq ← u16 (← req p "seq") "seq"
    let protocol ← u8 (← req p "protocol") "protocol" 0 3
    let upLen ← u16 (p.getD "up_len" (.int 0)) "up_len"
    pure ⟨seq, protocol, upLen, payload⟩
  write f := f.seq.toBytes ++ (f.protocol : Byte) :: (f.upLen.toBytes ++ withLength f.payload)

/-- A node of 06H-F4 with the nodes attached to it. -/
structure ParentNode where
  node : ReportedNode
  devType : InRange 0 255
  subs : UpTo NodeProto 255
  frameSubs : InRange 0 255

def ParentNode.bytes (nd : ParentNode) : Bytes :=
  nd.node.bytes ++ ((nd.devType : Byte) :: byte nd.subs.1.length :: (nd.frameSubs : Byte) ::
    nd.subs.1.flatMap NodeProto.bytes)

def parentNode (nd : Params) : PyM ParentNode := do
  let node ← reportedNode nd
  let devType ← u8 (nd.getD "dev_type" (.int 1)) "dev_type"
  let subs ← optionalList nd "subs" (fun v => do
    let s ← v.asDict
    let addr ← bcdBytes (s.getD "addr" v) "下接节点地址"
    let protocol ← u8 (s.getD "protocol" (.int 2)) "protocol" 0 3
    pure (⟨addr, protocol⟩ : NodeProto))
  let frameSubs ← u8 (nd.getD "frame_subs" (.int subs.length)) "frame_subs"
  pure ⟨node, devType, ← counted subs "subs", frameSubs⟩

/-- 06H-F4 uplink. -/
def entry06F4 : TableEntry where
  Fields := UpTo ParentNode 255
  read p := do counted (← nodeRows p "nodes" parentNode) "nodes"
  write nodes := byte nodes.1.length :: nodes.1.flatMap ParentNode.bytes

/-- An address given as hex text, and one byte beside it. -/
structure MarkedAddr where
  addr : Bytes
  mark : Byte

def MarkedAddr.bytes (m : MarkedAddr) : Bytes := m.addr ++ [m.mark]

/-- The content of 06H-F5: given as it stands, or by the kind of event. -/
inductive Event
  | payload (bs : Bytes)
  | meters (meters : List MarkedAddr)
  | power (event : InRange 1 2) (addrs : List BcdAddr)
  | rejected (nodes : UpTo MarkedAddr 32)

def Event.bytes : Event → Bytes
  | .payload bs => bs
  | .meters rows => rows.flatMap MarkedAddr.bytes
  | .power event addrs => (event : Byte) :: addrs.flatMap BcdAddr.bytes
  | .rejected nodes => byte nodes.1.length :: nodes.1.flatMap MarkedAddr.bytes

/-- The device type and protocol that go with a form of the content. -/
def Event.Fits (devType protocol : Byte) : Event → Prop
  | .payload _ => True
  | .meters _ => protocol = 0x04 ∧ devType = 0x00
  | .power _ _ => protocol = 0x04 ∧ devType ≠ 0x00
  | .rejected _ => protocol = 0x05

def eventArg (p : Params) (devType protocol : Byte) :
    PyM {event : Event // event.Fits devType protocol} := do
  if p.has "payload" then
    pure ⟨.payload (← hexBytes (p.get "payload") "payload"), trivial⟩
  else if hmeters : protocol = 0x04 ∧ devType = 0x00 then
    let rows ← nodeRows p "meters" (fun m => do
      let addr ← hexBytes (← req m "addr") "meters[].addr"
      let power ← u8 (m.getD "power" (.int 0)) "power" 0 1
      pure (⟨addr, power⟩ : MarkedAddr))
    pure ⟨.meters rows, hmeters⟩
  else if hpower : protocol = 0x04 then
    let event ← u8 (← req p "event") "event" 1 2
    let addrs ← optionalList p "addrs" (bcdBytes · "通信单元地址")
    pure ⟨.power event addrs, hpower, fun hdev => hmeters ⟨hpower, hdev⟩⟩
  else if hrejected : protocol = 0x05 then
    let rows ← nodeRows p "rejected" (fun r => do
      let addr ← hexBytes (← req r "addr") "rejected[].addr"
      let devType ← u8 (r.getD "dev_type" (.int 1)) "dev_type"
      pure (⟨addr, devType⟩ : MarkedAddr))
    let nodes ← upTo rows 32 (.valueError "rejected 个数超过 32")
    pure ⟨.rejected nodes, hrejected⟩
  else throw (.valueError "06H-F5 需提供 payload 或 event/addrs、meters、rejected")

structure EventReport where
  devType : InRange 0 255
  protocol : InRange 0 5
  event : Event
  fits : event.Fits devType protocol
  short : event.bytes.length ≤ 255

/-- 06H-F5 uplink. -/
def entry06F5 : TableEntry where
  Fields := EventReport
  read p := do
    let devType ← u8 (← req p "dev_type") "dev_type"
    let protocol ← u8 (← req p "protocol") "protocol" 0 5
    let event ← eventArg p devType protocol
    if hshort : event.1.bytes.length ≤ 255 then
      pure ⟨devType, protocol, event.1, event.2, hshort⟩
    else throw (.valueError "报文内容超过 1B 长度域上限")
  write f := (f.devType : Byte) :: (f.protocol : Byte) :: withLength f.event.bytes

/-- 10H-F1 uplink. -/
def entry10F1Up : TableEntry where
  Fields := Word × Word
  read p := do
    let total ← u16 (← req p "total") "total"
    let most ← u16 (← req p "max") "max"
    pure (total, most)
  write f := f.1.toBytes ++ f.2.toBytes

/-- The information of a node: its parts, or the word they make up. -/
inductive NodeInfo
  | parts (quality relay : InRange 0 15) (proto : InRange 0 7) (phase : InRange 0 15)
  | word (w : Word)

def NodeInfo.value : NodeInfo → Word
  | .parts quality relay proto phase =>
    Fin.ofNat 65536 (((quality : Byte) : ℕ) <<< 4 ||| ((relay : Byte) : ℕ) |||
      (((proto : Byte) : ℕ) <<< 12 ||| ((phase : Byte) : ℕ) <<< 8))
  | .word w => w

def nodeInfo (nd : Params) : PyM NodeInfo := do
  match nd.get "info" with
  | .dict info =>
    let info : Params := info
    let quality ← u8 (info.getD "quality" (.int 0)) "quality" 0 15
    let relay ← u8 (info.getD "relay" (.int 0)) "relay" 0 15
    let proto ← u8 (info.getD "proto" (.int 0)) "proto" 0 7
    let phase ← u8 (info.getD "phase" (.int 0)) "phase" 0 15
    pure (.parts quality relay proto phase)
  | info => pure (.word (← u16 (if info.truthy then info else .int 0) "info"))

structure InfoNode where
  addr : BcdAddr
  info : NodeInfo

def InfoNode.bytes (nd : InfoNode) : Bytes := nd.addr.bytes ++ nd.info.value.toBytes

/-- 10H-F2, F5 and F6 uplink. -/
def entry10F2Up : TableEntry where
  Fields := Word × UpTo InfoNode 255
  read p := do
    let nodes ← nodeRows p "nodes" (fun nd => do
      let addr ← nodeAddr nd
      pure (⟨addr, ← nodeInfo nd⟩ : InfoNode))
    let total ← u16 (← req p "total") "total"
    pure (total, ← upTo nodes 255 byteRange)
  write f := f.1.toBytes ++ byte f.2.1.length :: f.2.1.flatMap InfoNode.bytes

/-- A node address and a word about it. -/
structure WordNode where
  addr : BcdAddr
  info : Word

def WordNode.bytes (nd : WordNode) : Bytes := nd.addr.bytes ++ nd.info.toBytes

/-- 10H-F3 uplink. -/
def entry10F3Up : TableEntry where
  Fields := UpTo WordNode 255
  read p := do
    let nodes ← nodeRows p "nodes" (fun nd => do
      let addr ← nodeAddr nd
      let info ← u16 (nd.getD "info" (.int 0)) "info"
      pure (⟨addr, info⟩ : WordNode))
    counted nodes "nodes"
  write nodes := byte nodes.1.length :: nodes.1.flatMap WordNode.bytes

structure RouteState where
  status : InRange 0 255
  total : Word
  read : Word
  relayRead : Word
  switch : InRange 0 255
  rate : Word
  relayLevel : List (InRange 0 255)
  steps : List (InRange 0 255)

/-- The three phases of 10H-F4, zero where the list is absent or empty. -/
def phaseBytes (p : Params) (key : String) : PyM (List (InRange 0 255)) := do
  let v := p.get key
  let v := if v.truthy then v else .list [.int 0, .int 0, .int 0]
  (← v.elems).mapM (u8 · key)

/-- 10H-F4 uplink. -/
def entry10F4Up : TableEntry where
  Fields := RouteState
  read p := do
    let status ← u8 (← req p "status") "status"
    let total ← u16 (← req p "total") "total"
    let read ← u16 (← req p "read") "read"
    let relayRead ← u16 (← req p "relay_read") "relay_read"
    let switch ← u8 (← req p "switch") "switch"
    let rate ← u16 (← req p "rate") "rate"
    let relayLevel ← phaseBytes p "relay_level"
    let steps ← phaseBytes p "steps"
    pure ⟨status, total, read, relayRead, switch, rate, relayLevel, steps⟩
  write f := (f.status : Byte) :: (f.total.toBytes ++ (f.read.toBytes ++ (f.relayRead.toBytes ++
    (f.switch : Byte) :: ((Rate.word ⟨0, f.rate⟩).toBytes ++ (f.relayLevel.map Subtype.val ++
      f.steps.map Subtype.val)))))

/-- The six-byte hex address of a node. -/
def hexAddr (nd : Params) : PyM (Exactly 6) := do
  exactly (← hexBytes (← req nd "addr") "nodes[].addr") 6 "nodes[].addr 须为 6B hex"

/-- A module of 10H-F7. -/
structure ModuleNode where
  addr : Exactly 6
  nodeType : InRange 0 255
  vendor : String
  idFormat : InRange 0 3
  id : UpTo Byte 255

/-- `str(v).encode("ascii", "replace")[:2].ljust(2)`. -/
def codeReplaced (text : String) : Bytes :=
  (twoChars text).map (fun c => if c.toNat < 128 then byte c.toNat else byte '?'.toNat)

def ModuleNode.bytes (nd : ModuleNode) : Bytes :=
  nd.addr.1 ++ (nd.nodeType : Byte) :: (codeReplaced nd.vendor ++
    (byte nd.id.1.length :: (nd.idFormat : Byte) :: nd.id.1))

/-- 10H-F7 uplink. -/
def entry10F7Up : TableEntry where
  Fields := Word × UpTo ModuleNode 255
  read p := do
    let nodes ← nodeRows p "nodes" (fun nd => do
      let addr ← hexAddr nd
      let nodeType ← u8 (nd.getD "node_type" (.int 0)) "node_type"
      let vendor := (nd.getD "vendor" (.str "  ")).toStr
      let id ← upTo (← hexBytes (nd.getD "id" (.str "")) "id") 255 byteRange
      let idFormat ← u8 (nd.getD "id_format" (.int 2)) "id_format" 0 3
      pure (⟨addr, nodeType, vendor, idFormat, id⟩ : ModuleNode))
    let total ← u16 (← req p "total") "total"
    pure (total, ← upTo nodes 255 byteRange)
  write f := f.1.toBytes ++ byte f.2.1.length :: f.2.1.flatMap ModuleNode.bytes

/-- The page head of 10H-F21, F31 and F112: total, start, and rows behind their count. -/
structure Page (α : Type) where
  total : Word
  start : Word
  nodes : UpTo α 255

def pageOf {α : Type} (p : Params) (row : Params → PyM α) : PyM (Page α) := do
  let nodes ← nodeRows p "nodes" row
  let total ← u16 (← req p "total") "total"
  let start ← u16 (p.getD "start" (.int 0)) "start"
  pure ⟨total, start, ← upTo nodes 255 byteRange⟩

def Page.bytes {α : Type} (row : α → Bytes) (f : Page α) : Bytes :=
  f.total.toBytes ++ (f.start.toBytes ++ byte f.nodes.1.length :: f.nodes.1.flatMap row)

def pagedEntry {α : Type} (row : Params → PyM α) (bytes : α → Bytes) : TableEntry where
  Fields := Page α
  read p := pageOf p row
  write := Page.bytes bytes

/-- A node of the topology, 10H-F21. -/
structure TopologyNode where
  addr : Exactly 6
  tei : Word
  proxy : Word
  role : InRange 0 15
  level : InRange 0 15

def TopologyNode.bytes (nd : TopologyNode) : Bytes :=
  nd.addr.1 ++ (nd.tei.toBytes ++ (nd.proxy.toBytes ++
    [byte (((nd.role : Byte) : ℕ) <<< 4 ||| ((nd.level : Byte) : ℕ))]))

def topologyNode (nd : Params) : PyM TopologyNode := do
  let addr ← hexAddr nd
  let tei ← u16 (← req nd "tei") "tei"
  let proxy ← u16 (nd.getD "proxy" (.int 0)) "proxy"
  let role ← u8 (nd.getD "role" (.int 0)) "role" 0 15
  let level ← u8 (nd.getD "level" (.int 0)) "level" 0 15
  pure ⟨addr, tei, proxy, role, level⟩

/-- 10H-F21 uplink. -/
def entry10F21Up : TableEntry := pagedEntry topologyNode TopologyNode.bytes

/-- A node and its phase word, 10H-F31. -/
structure PhaseNode where
  addr : Exactly 6
  info : Word

def PhaseNode.bytes (nd : PhaseNode) : Bytes := nd.addr.1 ++ nd.info.toBytes

def phaseNode (nd : Params) : PyM PhaseNode := do
  let addr ← hexAddr nd
  let info ← u16 (nd.getD "info" (.int 0)) "info"
  pure ⟨addr, info⟩

/-- 10H-F31 uplink. -/
def entry10F31Up : TableEntry := pagedEntry phaseNode PhaseNode.bytes

/-- A node and its chip, 10H-F112. -/
structure ChipNode where
  addr : Exactly 6
  devType : InRange 0 255
  chipId : Exactly 24
  version : Exactly 2

def ChipNode.bytes (nd : ChipNode) : Bytes :=
  nd.addr.1 ++ (nd.devType : Byte) :: (nd.chipId.1 ++ nd.version.1)

def chipNode (nd : Params) : PyM ChipNode := do
  let addr ← hexAddr nd
  let chipId ← exactly (← hexBytes (← req nd "chip_id") "chip_id") 24 "chip_id 须为 24B hex"
  let version ← exactly (← hexBytes (nd.getD "ver" (.str "0000")) "ver") 2 "ver 须为 2B hex"
  let devType ← u8 (nd.getD "dev_type" (.int 1)) "dev_type"
  pure ⟨addr, devType, chipId, version⟩

/-- 10H-F112 uplink. -/
def entry10F112Up : TableEntry := pagedEntry chipNode ChipNode.bytes

/-- 10H-F40 uplink. -/
def entry10F40Up : TableEntry where
  Fields := IdQuery × UpTo Byte 255
  read p := do
    let id ← upTo (← hexBytes (← req p "id") "id") 255 byteRange
    pure (← idQuery p, id)
  write f := (f.1.devType : Byte) :: (f.1.addr ++ (f.1.idType : Byte) :: withLength f.2)

/-- A node and its software version, 10H-F101. -/
structure VersionNode where
  addr : BcdAddr
  info : Word
  version : Exactly 3

def VersionNode.bytes (nd : VersionNode) : Bytes :=
  nd.addr.bytes ++ (nd.info.toBytes ++ nd.version.1)

/-- 10H-F101 uplink. -/
def entry10F101Up : TableEntry where
  Fields := Word × UpTo VersionNode 255
  read p := do
    let nodes ← nodeRows p "nodes" (fun nd => do
      let addr ← nodeAddr nd
      let info ← u16 (nd.getD "info" (.int 0)) "info"
      let version ← exactly (← hexBytes (nd.getD "ver" (.str "000000")) "ver") 3 "ver 须为 3B hex"
      pure (⟨addr, info, version⟩ : VersionNode))
    let total ← u16 (← req p "total") "total"
    pure (total, ← upTo nodes 255 byteRange)
  write f := f.1.toBytes ++ byte f.2.1.length :: f.2.1.flatMap VersionNode.bytes

/-- A network identifier: a number, or its three bytes. -/
inductive Nid
  | number (n : Fin 16777216)
  | raw (bs : Exactly 3)

/-- `_nid3`. -/
def nid3 (v : PyVal) (name : String) : PyM Nid := do
  match v with
  | .str s =>
    pure (.raw (← exactly (← hexBytes (.str s) name) 3 (name ++ " 须为 3B hex: " ++ v.repr)))
  | v =>
    let iv ← v.toInt
    if 0 ≤ iv ∧ iv ≤ 0xFFFFFF then pure (.number (Fin.ofNat 16777216 iv.toNat))
    else throw (.valueError (name ++ "=" ++ toString iv ++ " 越界 [0,16777215]"))

def Nid.bytes : Nid → Bytes
  | .number n => [byte n, byte ((n : ℕ) / 256), byte ((n : ℕ) / 65536)]
  | .raw bs => bs.1

structure Networks where
  selfNid : Nid
  selfMaster : Bytes
  neighbors : UpTo Nid 254

/-- 10H-F111 uplink. -/
def entry10F111Up : TableEntry where
  Fields := Networks
  read p := do
    let neighbors ← optionalList p "neighbors" (nid3 · "neighbors[]")
    let selfNid ← nid3 (← req p "self_nid") "self_nid"
    let selfMaster ← hexBytes (← req p "self_master") "self_master"
    pure ⟨selfNid, selfMaster, ← upTo neighbors 254 (.valueError ("nodes=" ++
      toString (neighbors.length + 1) ++ " 越界 [0,255]"))⟩
  write f := byte (f.neighbors.1.length + 1) :: (f.selfNid.bytes ++ (f.selfMaster ++
    f.neighbors.1.flatMap Nid.bytes))

structure ReadRequest where
  phase : InRange 0 3
  addr : BcdAddr
  seq : Word

/-- 14H-F1 uplink. -/
def entry14F1Up : TableEntry where
  Fields := ReadRequest
  read p := do
    let phase ← u8 (← req p "phase") "phase" 0 3
    let addr ← bcdBytes (← req p "addr") "从节点地址"
    let seq ← u16 (← req p "seq") "seq"
    pure ⟨phase, addr, seq⟩
  write f := (f.phase : Byte) :: (f.addr.bytes ++ f.seq.toBytes)

structure DelayedRead where
  addr : BcdAddr
  delay : Word
  payload : UpTo Byte 255

/-- 14H-F3 uplink. -/
def entry14F3Up : TableEntry where
  Fields := DelayedRead
  read p := do
    let payload ← payloadArg p 255 payloadTooLong
    let addr ← bcdBytes (← req p "addr") "从节点地址"
    let delay ← u16 (← req p "delay") "delay"
    pure ⟨addr, delay, payload⟩
  write f := f.addr.bytes ++ (f.delay.toBytes ++ withLength f.payload)

/-- 14H-F4 uplink. -/
def entry14F4Up : TableEntry where
  Fields := InRange 1 2 × Bytes
  read p := do
    let kind ← u8 (← req p "type") "type" 1 2
    let item ← hexBytes (← req p "item") "item"
    pure (kind, item)
  write f := (f.1 : Byte) :: f.2

/-- 15H-F1 uplink. -/
def entry15F1Up : TableEntry where
  Fields := Exactly 4
  read := segId
  write seg := seg.1

/-- F1H-F1 uplink. -/
def entryF1F1Up : TableEntry where
  Fields := InRange 0 3 × UpTo Byte 65535
  read := concurrentArgs
  write f := [(f.1 : Byte), byte f.2.1.length, byte (f.2.1.length / 256)] ++ f.2.1

/-! ## The table -/

/-- `_NO_UNIT_DOWN`. -/
def noUnitDown (afn fn : ℕ) : Bool :=
  match afn with
  | 0x01 => fn ∈ [1, 2, 3]
  | 0x03 => fn ∈ [1, 2, 4, 5, 7, 8, 10, 12, 16, 100]
  | 0x04 => fn ∈ [2]
  | 0x10 => fn ∈ [1, 4, 9, 100, 104, 111]
  | 0x11 => fn ∈ [6, 101, 102]
  | 0x12 => fn ∈ [1, 2, 3]
  | _ => false

def entries03Down : ℕ → Option TableEntry
  | 3 => some (bytePairEntry "start" "count" 16)
  | 6 => some (byteEntry "duration")
  | 9 => some (bytePayloadEntry "protocol" byteRange)
  | 11 => some (byteEntry "afn")
  | _ => none

def entries04Down : ℕ → Option TableEntry
  | 1 => some (byteEntry "duration")
  | 3 => some entry04F3
  | _ => none

def entries05Down : ℕ → Option TableEntry
  | 1 => some (addrEntry "主节点地址")
  | 2 => some (byteEntry "enable" 0 1)
  | 3 => some (bytePayloadEntry "ctrl" payloadTooLong)
  | 4 => some (byteEntry "timeout")
  | 5 => some (bytePairEntry "channel" "power")
  | 6 => some (byteEntry "enable" 0 1)
  | 16 => some (byteEntry "band" 0 3)
  | 100 => some (byteEntry "threshold")
  | 101 => some timeEntry
  | 200 => some (byteEntry "enable" 0 1)
  | _ => none

def entries10Down : ℕ → Option TableEntry
  | 2 | 5 | 6 | 7 | 21 | 31 | 101 | 112 => some pageEntry
  | 3 => some (addrEntry "从节点地址")
  | 40 => some entry10F40Down
  | 230 => some noUnit
  | 231 => some entry10F231
  | _ => none

def entries11Down : ℕ → Option TableEntry
  | 1 => some entry11F1
  | 2 => some entry11F2
  | 3 => some entry11F3
  | 4 => some entry11F4
  | 5 => some entry11F5
  | 100 => some (wordEntry "scale")
  | 231 => some entry11F231
  | 232 => some entry11F232
  | _ => none

def entries14Down : ℕ → Option TableEntry
  | 1 => some entry14F1Down
  | 2 => some timeEntry
  | 3 => some entry14F3Down
  | 4 => some entry14F4Down
  | _ => none

def entriesDown (afn fn : ℕ) : Option TableEntry :=
  if noUnitDown afn fn then some noUnit
  else
    match afn with
    | 0x03 => entries03Down fn
    | 0x04 => entries04Down fn
    | 0x05 => entries05Down fn
    | 0x10 => entries10Down fn
    | 0x11 => entries11Down fn
    | 0x13 => if fn = 1 then some entry13F1Down else none
    | 0x14 => entries14Down fn
    | 0x15 => if fn = 1 then some entry15F1Down else none
    | 0xF1 => if fn = 1 then some entryF1F1Down else none
    | _ => none

def entries03Up : ℕ → Option TableEntry
  | 1 => some entry03F1Up
  | 2 => some (byteEntry "noise" 0 15)
  | 3 => some entry03F3Up
  | 4 => some (addrEntry "主节点地址")
  | 5 => some entry03F5Up
  | 6 => some (byteEntry "status" 0 1)
  | 7 => some (byteEntry "timeout")
  | 8 => some (bytePairEntry "channel" "power")
  | 9 => some (timedPayloadEntry "delay" byteRange)
  | 10 => some entry03F10Up
  | 11 => some entry03F11Up
  | 12 => some entry03F12Up
  | 16 => some (byteEntry "band" 0 3)
  | 100 => some (byteEntry "threshold")
  | _ => none

def entries06Up : ℕ → Option TableEntry
  | 1 => some entry06F1
  | 2 => some entry06F2
  | 3 => some (byteEntry "type" 1 3)
  | 4 => some entry06F4
  | 5 => some entry06F5
  | _ => none

def entries10Up : ℕ → Option TableEntry
  | 1 => some entry10F1Up
  | 2 | 5 | 6 => some entry10F2Up
  | 3 => some entry10F3Up
  | 4 => some entry10F4Up
  | 7 => some entry10F7Up
  | 9 | 100 => some (wordEntry "scale")
  | 21 => some entry10F21Up
  | 31 => some entry10F31Up
  | 40 => some entry10F40Up
  | 101 => some entry10F101Up
  | 111 => some entry10F111Up
  | 112 => some entry10F112Up
  | _ => none

def entries14Up : ℕ → Option TableEntry
  | 1 => some entry14F1Up
  | 2 => some noUnit
  | 3 => some entry14F3Up
  | 4 => some entry14F4Up
  | _ => none

def entriesUp (afn fn : ℕ) : Option TableEntry :=
  match afn with
  | 0x03 => entries03Up fn
  | 0x06 => entries06Up fn
  | 0x10 => entries10Up fn
  | 0x13 => if fn = 1 then some (timedPayloadEntry "up_len" payloadTooLong) else none
  | 0x14 => entries14Up fn
  | 0x15 => if fn = 1 then some entry15F1Up else none
  | 0xF1 => if fn = 1 then some entryF1F1Up else none
  | _ => none

/-- The entry of (AFN, Fn, direction); the two directions share AFN 00H and 02H. -/
def tableEntry (afn fn : ℕ) (direction : Direction) : Option TableEntry :=
  match afn, fn with
  | 0x00, 1 => some entry00F1
  | 0x00, 2 => some (byteEntry "err")
  | 0x02, 1 => some entry02F1
  | afn, fn =>
    match direction with
    | .down => entriesDown afn fn
    | .up => entriesUp afn fn

/-- The uplink commands whose answer is a confirmation frame. -/
def confirmedUp (afn fn : ℕ) : Bool :=
  match afn with
  | 0x04 => fn ∈ [1, 2, 3]
  | 0x05 => fn ∈ [1, 2, 3, 4, 5, 6, 16, 100, 101, 200]
  | 0x11 => fn ∈ [1, 2, 3, 4, 5, 100]
  | 0x12 => fn ∈ [1, 2, 3]
  | _ => false

/-- The `UnsupportedFn` of a place without an entry. -/
def unsupported (afn fn : ℕ) (direction : Direction) : PyErr :=
  let place := "0x" ++ hexPad 2 afn ++ "-F" ++ toString fn
  if direction = .up ∧ confirmedUp afn fn then
    .unsupportedFn (place ++ " 上行应答为 AFN=00H 确认/否认帧，请构 (0x00,1)")
  else if direction = .up ∧ afn = 0x10 ∧ fn = 104 then
    .unsupportedFn "10H-F104 上行格式蒸馏文档未定义，请用 data.raw 透传"
  else .unsupportedFn ("未覆盖 Fn " ++ place ++ "（非标准数据单元标识，契约约定明确报错）")

/-- `encode_app_data`. -/
def encodeAppData (afn fn : ℕ) (p : Params) (direction : Direction) : PyM Bytes :=
  let afn := afn &&& 0xFF
  match tableEntry afn fn direction with
  | some e => e.encode p
  | none => throw (unsupported afn fn direction)

end HplcWorkbench.Adapter10376
