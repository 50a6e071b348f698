import HplcWorkbench.AddressMatch
import HplcWorkbench.PyParams
import HplcWorkbench.RoundTrip10376

/-!
# Automatic replies

A responder decodes a frame, takes the first rule that fits its AFN and Fn and builds the reply that
the rule describes. The rules of a test stand before the built-in table; the responder of an open
line has three rules of its own and no table.
-/

namespace HplcWorkbench

open Adapter10376

/-! ## Building frames -/

namespace FrameCodec

/-- The dict that `_parse_info` returns, as an argument of `build_frame`. -/
def infoArg : Info → InfoArg
  | .up i => {
      relayLevel := some i.relayLevel
      moduleId := some i.moduleId
      routeFlag := some i.routeFlag
      channel := some i.channel
      meterChannel := some i.meterChannel
      phase := some i.phase
      sigQuality := some i.sigQuality
      eventFlag := some i.eventFlag
      seq := some i.seq }
  | .down i => {
      relayLevel := some i.relayLevel
      conflictDetect := some i.conflictDetect
      moduleId := some i.moduleId
      subNode := some i.subNode
      ecc := some i.ecc
      channel := some i.channel
      expectReplyLen := some i.expectReplyLen
      rateUnit := some i.rateUnit
      rate := some i.rate
      seq := some i.seq }

/-- `n & 0xFF`. -/
def lowByte (n : ℤ) : ℕ := (n % 256).toNat

/-- The arguments of `build_local_13762_frame` besides AFN, Fn and data. -/
structure LocalArgs where
  ctrl : ℕ := 0x43
  info : Bytes := [0, 0, 0, 0, 0, 0]
  seq : ℤ := 1

def buildLocalFrame (a : LocalArgs) (afn fn : ℤ) (buff : Bytes) : PyM Bytes :=
  let direction : Direction := if (a.ctrl >>> 7) &&& 0x01 ≠ 0 then .up else .down
  let info : InfoArg := if a.info.length ≥ 6 then infoArg (parseInfo direction a.info) else {}
  buildFrame {
    direction := direction
    prm := some ((a.ctrl >>> 6) &&& 0x01)
    commMode := a.ctrl &&& 0x3F
    info := { info with seq := some (lowByte a.seq) }
    afn := lowByte afn
    fn := lowByte fn
    appdata := buff }

end FrameCodec

/-! ## Rules -/

namespace AutoReply
open FrameCodec (fieldOf lowByte buildLocalFrame)
open Batch (intField)

/-- `ReplyRule`: the dicts `match` and `reply`. -/
structure ReplyRule where
  id : String
  condition : Params
  reply : Params

/-- `_norm_afn`. -/
def normAfn : PyVal → PyM (Option ℤ)
  | .int n => pure (some n)
  | .bool b => pure (some (if b then 1 else 0))
  | .str s => do pure (some (← hexInt s))
  | _ => pure none

def ReplyRule.afnMatches (r : ReplyRule) (decoded : ProtocolFrame) : PyM Bool :=
  let afn := r.condition.get "afn"
  if afn.isNone then pure true
  else do
    let expected ← normAfn afn
    match intField decoded "AFN" with
    | some got => pure (expected = some got)
    | none =>
      -- `0x11` is looked for in a text in capital letters
      if expected = none then throw (.typeError "unsupported format string") else pure false

def ReplyRule.fnMatches (r : ReplyRule) (decoded : ProtocolFrame) : PyM Bool :=
  let fn := r.condition.get "fn"
  if fn.isNone then pure true
  else
    match intField decoded "FN" with
    | none => pure false
    | some got => do pure (got = (← fn.toInt))

/-- `ReplyRule.matches`. -/
def ReplyRule.matches (r : ReplyRule) (decoded : ProtocolFrame) : PyM Bool := do
  if ← r.afnMatches decoded then r.fnMatches decoded else pure false

/-- The rules of the test and the table behind them. -/
structure Responder where
  overrides : List ReplyRule
  builtin : List ReplyRule

def firstMatch : List ReplyRule → ProtocolFrame → PyM (Option ReplyRule)
  | [], _ => pure none
  | r :: rest, decoded => do
    if ← r.matches decoded then pure (some r) else firstMatch rest decoded

/-- `_find`. -/
def Responder.find (r : Responder) (decoded : ProtocolFrame) : PyM (Option ReplyRule) :=
  firstMatch (r.overrides ++ r.builtin) decoded

/-! ## Replies -/

/-- `datetime.now()`. -/
structure Clock where
  second : ℕ
  minute : ℕ
  hour : ℕ
  day : ℕ
  month : ℕ
  year : ℕ

/-- `_now_bcd_time`. -/
def nowBcdTime (now : Clock) : Bytes :=
  [now.second, now.minute, now.hour, now.day, now.month, now.year % 100].map fun n =>
    byte ((n / 10) <<< 4 ||| (n % 10))

/-- `bytes.fromhex(s.replace(" ", ""))`, of an empty text too. -/
def hexText (s : String) : PyM Bytes :=
  match fromHex (dropSpaces s) with
  | some bs => pure bs
  | none => throw (.valueError "non-hexadecimal number found in fromhex() arg")

/-- One number of `bytes(v)`. -/
def byteElement : PyVal → PyM Byte
  | .int n =>
    if 0 ≤ n ∧ n < 256 then pure (byte n.toNat)
    else throw (.valueError "bytes must be in range(0, 256)")
  | .bool b => pure (if b then 1 else 0)
  | _ => throw (.typeError "object cannot be interpreted as an integer")

/-- `bytes(v)`: of a number, so many zero bytes. -/
def toBytes : PyVal → PyM Bytes
  | .list items => items.mapM byteElement
  | .dict [] => pure []
  | .int n => if n < 0 then throw (.valueError "negative count") else pure (List.replicate n.toNat 0)
  | .bool b => pure (if b then [0] else [])
  | _ => throw (.typeError "cannot convert object to bytes")

/-- `userdata` of a rule. -/
def givenData (v : PyVal) : PyM Bytes :=
  match v with
  | .str s => hexText s
  | v => toBytes v

/-- The data of a reply in the local format; a decoded frame has no `buff` to echo. -/
def localData (reply : Params) : PyM Bytes :=
  let given := reply.getD "userdata" (.str "")
  match reply.getD "userdata_builder" (.str "confirm") with
  | .str "deny" => pure [0x01]
  | .str "confirm" => pure []
  | .str "echo" => pure []
  | .str "copy" => pure []
  | _ => if given.truthy then givenData given else pure []

/-- `bytes.fromhex(decoded["raw_hex"])[4:-2]`. -/
def echoed (decoded : ProtocolFrame) : PyM Bytes :=
  if decoded.rawHex = "" then pure []
  else
    match fromHex decoded.rawHex with
    | some raw => pure (slice raw 4 (raw.length - 2))
    | none => throw (.valueError "non-hexadecimal number found in fromhex() arg")

/-- The data of a reply in the standard format. -/
def replyData (now : Clock) (reply : Params) (decoded : ProtocolFrame) : PyM Bytes :=
  match reply.getD "userdata_builder" (.str "none") with
  | .str "confirm" => pure [0x00]
  | .str "deny" => pure [0x01]
  | .str "echo" => echoed decoded
  | .str "copy_rtsa" => echoed decoded
  | .str "clock" => pure (nowBcdTime now)
  | _ => givenData (reply.getD "userdata" (.str ""))

/-- The information field, as bytes. -/
def infoBytes (decoded : ProtocolFrame) : PyM (Option Bytes) :=
  match (fieldOf decoded.fields "信息域R").map DataField.raw with
  | some (.str text) =>
    if text = "" then pure none
    else
      match fromHex text with
      | some bs => pure (some bs)
      | none => throw (.valueError "non-hexadecimal number found in fromhex() arg")
  | _ => pure none

/-- The number of the message that is answered, 0 if it has none. -/
def messageNumber : Option Bytes → ℕ
  | some bs => if bs.length ≥ 6 then byteAt bs 5 else 0
  | none => 0

theorem messageNumber_lt (info : Option Bytes) : messageNumber info < 256 := by
  cases info with
  | none => exact Nat.zero_lt_succ 255
  | some bs =>
      rw [messageNumber]
      split_ifs
      · exact (byteAt bs 5).isLt
      · exact Nat.zero_lt_succ 255

/-- The addresses of the reply: the first two of the frame that is answered. -/
def replyAddress (decoded : ProtocolFrame) : AddressArg :=
  match (fieldOf decoded.fields "地址域A").map DataField.value with
  | some (.str s) =>
    let cs := s.toList
    if s ≠ "" ∧ s ≠ "(无)" ∧ cs.length ≥ 24 then
      { src := String.ofList (cs.take 12), dst := String.ofList ((cs.take 24).drop 12) }
    else {}
  | _ => {}

/-- `fmt == "local"`; the frames of `decode_frame` have no AFN of their own, so that `auto` is the
standard format. -/
def localFormat (reply : Params) : Bool := (reply.getD "format" (.str "auto")).eqStr "local"

/-- `afn & 0xFF` of a rule without a readable AFN. -/
def needAfn : Option ℤ → PyM ℤ
  | some n => pure n
  | none => throw (.typeError "unsupported operand type(s) for &")

/-- `_build_reply`. -/
def buildReply (now : Clock) (decoded : ProtocolFrame) (rule : ReplyRule) (seqOverride : Option ℕ) :
    PyM Bytes := do
  let reply := rule.reply
  if localFormat reply then
    let afn ← normAfn (reply.getD "afn" (.int 0))
    let fn ← (reply.getD "fn" (.int 1)).toInt
    let buff ← localData reply
    buildLocalFrame {} (← needAfn afn) fn buff
  else
    let info ← infoBytes decoded
    let seq := seqOverride.getD (messageNumber info)
    let afn ← normAfn (reply.getD "afn" (.int 0))
    let fn ← (reply.getD "fn" (.int 1)).toInt
    let userdata ← replyData now reply decoded
    buildFrame {
      direction := .down
      info := if info = none then {} else { seq := some seq }
      address := replyAddress decoded
      afn := lowByte (← needAfn afn)
      fn := lowByte fn
      appdata := userdata }

/-- `reply_for`. -/
def Responder.replyFor (r : Responder) (store : MetadataStore) (now : Clock) (raw : Bytes)
    (seqOverride : Option ℕ := none) : PyM (Option Bytes) :=
  match decode store raw with
  | .error _ => pure none
  | .ok decoded => do
    match ← r.find decoded with
    | none => pure none
    | some rule => pure (some (← buildReply now decoded rule seqOverride))

/-- What a frame is answered with: the callers go on when `reply_for` raises. -/
def Responder.answer (r : Responder) (store : MetadataStore) (now : Clock) (raw : Bytes) :
    Option Bytes :=
  match r.replyFor store now raw with
  | .ok reply => reply
  | .error _ => none

/-! ## The tables -/

/-- A rule for one AFN, and for one Fn if it is given. -/
structure Entry where
  id : String
  afn : ℤ
  fn : Option ℤ
  reply : Params

def Entry.rule (e : Entry) : ReplyRule where
  id := e.id
  condition := ("afn", .int e.afn) :: (e.fn.map fun n => ("fn", .int n)).toList
  reply := e.reply

/-- The reply 00H-F1 in the local format. -/
def localConfirm : Params := [("afn", .int 0x00), ("fn", .int 1), ("format", .str "local")]

def confirmReply : Params := [("afn", .int 0x00), ("userdata_builder", .str "confirm")]

def echoReply (afn : ℤ) : Params := [("afn", .int afn), ("userdata_builder", .str "echo")]

/-- `_BUILTIN_RULES`. -/
def builtinTable : List Entry :=
  [ ⟨"builtin.local_ack", 0x00, none, localConfirm⟩,
    ⟨"builtin.local_03F10_running", 0x03, some 10, localConfirm⟩,
    ⟨"builtin.local_06F3_route", 0x06, some 3, localConfirm⟩,
    ⟨"builtin.local_06F230_mclt_report", 0x06, some 230, localConfirm⟩,
    ⟨"builtin.00F1_confirm", 0x00, none, confirmReply⟩,
    ⟨"builtin.01xx_init", 0x01, none, confirmReply⟩,
    ⟨"builtin.03xx_query", 0x03, none, echoReply 0x03⟩,
    ⟨"builtin.10xx_route", 0x10, none, echoReply 0x10⟩,
    ⟨"builtin.02xx_forward", 0x02, none, echoReply 0x02⟩,
    ⟨"builtin.14F2_clock", 0x14, some 2,
      [("afn", .int 0x14), ("fn", .int 2), ("userdata_builder", .str "clock")]⟩ ]

/-- The rules of `_auto_ack_responder`. -/
def autoAckTable : List Entry :=
  [ ⟨"autoack.06f230", 0x06, some 230, localConfirm⟩,
    ⟨"autoack.06f3", 0x06, some 3, localConfirm⟩,
    ⟨"autoack.03f10", 0x03, some 10, localConfirm⟩ ]

/-- `Responder()`. -/
def builtin : Responder := ⟨[], builtinTable.map Entry.rule⟩

/-- `_auto_ack_responder()`. -/
def resident : Responder := ⟨autoAckTable.map Entry.rule, []⟩

/-! ## Which rule fits -/

section Tables
variable {decoded : ProtocolFrame}

/-- The frame has the AFN of the entry, and its Fn if there is one. -/
def Entry.fits (e : Entry) (decoded : ProtocolFrame) : Bool :=
  intField decoded "AFN" = some e.afn && e.fn.all fun n => intField decoded "FN" = some n

theorem matches_rule (e : Entry) : e.rule.matches decoded = .ok (e.fits decoded) := by
  have hafn : e.rule.afnMatches decoded = .ok (decide (intField decoded "AFN" = some e.afn)) := by
    have hget : e.rule.condition.get "afn" = .int e.afn := rfl
    unfold ReplyRule.afnMatches
    rw [hget]
    cases intField decoded "AFN" with
    | none => rfl
    | some got =>
        simp only [PyVal.isNone, Bool.false_eq_true, if_false, normAfn, pure_bind, Option.some.injEq,
          eq_comm]
        rfl
  have hfn : e.rule.fnMatches decoded =
      .ok (e.fn.all fun n => intField decoded "FN" = some n) := by
    unfold ReplyRule.fnMatches
    cases hn : e.fn with
    | none =>
        have hget : e.rule.condition.get "fn" = .none := by
          rw [Entry.rule, hn]
          rfl
        rw [hget]
        rfl
    | some n =>
        have hget : e.rule.condition.get "fn" = .int n := by
          rw [Entry.rule, hn]
          rfl
        rw [hget]
        cases intField decoded "FN" with
        | none => rfl
        | some got =>
            simp only [PyVal.isNone, Bool.false_eq_true, if_false, PyVal.toInt, pure_bind,
              Option.all_some, Option.some.injEq]
            rfl
  rw [ReplyRule.matches, hafn, hfn]
  by_cases h : intField decoded "AFN" = some e.afn
  · simp [Entry.fits, h, bind, Except.bind]
  · simp [Entry.fits, h, bind, Except.bind, pure, Except.pure]

theorem firstMatch_table (table : List Entry) :
    firstMatch (table.map Entry.rule) decoded =
      .ok ((table.find? fun e => e.fits decoded).map Entry.rule) := by
  induction table with
  | nil => rfl
  | cons e table ih =>
      rw [List.map_cons, firstMatch, matches_rule, List.find?_cons]
      cases e.fits decoded with
      | true => rfl
      | false => exact ih

end Tables

end AutoReply

end HplcWorkbench
