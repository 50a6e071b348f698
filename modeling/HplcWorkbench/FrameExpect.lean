import HplcWorkbench.AutoReply
import HplcWorkbench.AppEncode
import HplcWorkbench.ListenerObservation
import Mathlib.Algebra.Order.Ring.Unbundled.Rat

/-!
# Sent frames and expected frames

A step describes the frame it sends by AFN, Fn and parameters, and the frame it expects by AFN, Fn,
direction, fields and fields of embedded frames. For a sent AFN and Fn a table of rules gives the
expected answer and how long to wait for it.
-/

namespace HplcWorkbench

open Adapter10376

/-! ## Comparing values -/

namespace PyVal

/-- The number that a value is in a comparison. -/
def number : PyVal → Option ℚ
  | .bool b => some (if b then 1 else 0)
  | .int n => some n
  | .scaled mantissa scale => some (mantissa / 10 ^ scale)
  | _ => Option.none

/-- Digits with a point, and the digits behind the point. -/
def decimalValue (cs : List Char) : Option ℚ :=
  match cs.span (· ≠ '.') with
  | (whole, []) => (unsignedValue whole).map fun n => (n : ℚ)
  | (whole, _ :: fraction) => do
    let m ← if whole = [] then some 0 else unsignedValue whole
    let f ← if fraction = [] ∧ whole ≠ [] then some 0 else unsignedValue fraction
    some (m + f / 10 ^ (fraction.filter (· ≠ '_')).length)

/-- `float(s)` of a decimal number, as a rational number. -/
def floatText (s : String) : Option ℚ :=
  let signed (cs : List Char) : Option ℚ :=
    match cs with
    | '-' :: rest => (decimalValue rest).map fun q => -q
    | '+' :: rest => decimalValue rest
    | rest => decimalValue rest
  match (pyStrip s.toList).span fun c => c ≠ 'e' ∧ c ≠ 'E' with
  | (mantissa, []) => signed mantissa
  | (mantissa, _ :: exponent) => do
    let m ← signed mantissa
    let e ← textValue (String.ofList exponent)
    some (m * 10 ^ e)

/-- `float(v)`, `none` where it raises. -/
def float : PyVal → Option ℚ
  | .str s => floatText s
  | v => v.number

end PyVal

/-! ## Sent frames -/

namespace ScenarioCodec
open FrameCodec (LocalArgs buildLocalFrame lowByte)
open AutoReply (byteElement)

/-- `ScenarioCodecError`. -/
def codecError (message : String) : PyErr := .valueError message

/-- `_norm_afn`. -/
def normAfn : PyVal → PyM ℤ
  | .int n => pure (n % 256)
  | .bool b => pure (if b then 1 else 0)
  | v => hexInt v.toStr

/-- `_norm_fn`. -/
def normFn : PyVal → PyM ℤ
  | .int n => pure n
  | .bool b => pure (if b then 1 else 0)
  | v =>
    let s := (pyStrip v.toStr.toList).map Char.toUpper
    (PyVal.str (String.ofList (if s.head? = some 'F' then s.drop 1 else s))).toInt

/-- The source address has to be a text. -/
def srcText : PyVal → PyM String
  | .str s => pure s
  | _ => throw (.attributeError "object has no attribute 'strip'")

/-- `build_address`, with the texts that `_pack_address` makes of it. -/
def buildAddress (profile params : Params) (direction : Direction) : PyM AddressArg :=
  let src := params.get "src"
  let dst := params.get "dst"
  let broadcast : PyVal := .str "999999999999"
  if ¬ (src.truthy ∨ dst.truthy ∨ (params.get "broadcast").truthy) then pure {}
  else
    let cco := if src.truthy then src else profile.get "cco_addr"
    if ¬ cco.truthy then pure {}
    else
      let target :=
        if dst.isNone ∧ (params.get "broadcast").truthy then broadcast else dst
      match direction with
      | .up => do
        let sta := if target.truthy then target else broadcast
        pure { src := ← srcText sta, dst := cco.toStr }
      | .down => do
        let sta := if target.truthy then target else cco
        pure { src := ← srcText cco, dst := sta.toStr }

/-- `encode_app_data(afn, fn, params)`: the table for the way down, whatever the direction. -/
def encodeParams (afn fn : ℤ) (params : Params) : PyM Bytes :=
  encodeAppData (lowByte afn) fn.toNat params .down

/-- `build_send`. -/
def buildSend (send profile : Params) (seq : ℤ) : PyM Bytes := do
  if (send.get "afn").isNone then throw (codecError "send 缺 afn")
  if (send.get "fn").isNone then throw (codecError "send 缺 fn")
  if (send.get "raw").truthy then
    throw (codecError "send.raw 已移除（ADR-5 用例语义化），请改用 afn/fn + params")
  let afn ← normAfn (send.get "afn")
  let fn ← normFn (send.get "fn")
  let direction : Direction :=
    if (send.getD "direction" (.str "down")).eqStr "up" then .up else .down
  let params ← if (send.get "params").truthy then (send.get "params").asDict else pure []
  let commMode ← (send.getD "comm_mode" (profile.getD "comm_mode" (.int 3))).toInt
  let appdata ← encodeParams afn fn params
  buildFrame {
    direction := direction
    commMode := lowByte commMode
    info := { seq := some (if (profile.getD "seq_auto" (.bool true)).truthy then lowByte seq else 0) }
    address := ← buildAddress profile params direction
    afn := lowByte afn
    fn := lowByte fn
    appdata := appdata }

/-- `s.replace("0x", " ").replace(",", " ")`. -/
def hexBlanks : List Char → List Char
  | '0' :: 'x' :: rest => ' ' :: hexBlanks rest
  | c :: rest => (if c = ',' then ' ' else c) :: hexBlanks rest
  | [] => []

/-- `hex_to_bytes`: numbers between blanks. -/
def hexToBytes (s : String) : PyM Bytes :=
  let parts := ((hexBlanks s.toList).splitOnP pySpace).filter (· ≠ [])
  parts.mapM fun part => do byteElement (.int (← hexInt (String.ofList part)))

/-- `_to_int`, in front of the bit operations that need a number. -/
def toInt (v : PyVal) (base16 : Bool) : PyM ℤ :=
  match v with
  | .int n => pure n
  | .bool b => pure (if b then 1 else 0)
  | .str s => if base16 then hexInt s else (PyVal.str s).toInt
  | _ => throw (.typeError "unsupported operand type(s) for &")

/-- The branch of `build_send_frame` for frames in the local format. -/
def buildLocalSend (send : Params) : PyM Bytes := do
  let afn ← toInt (send.getD "afn" (.int 0)) true
  let fn ← toInt (send.getD "fn" (.int 1)) false
  let buff ← match send.getD "buff" (.list []) with
    | .str s => hexToBytes s
    | v => if v.truthy then AutoReply.toBytes v else pure []
  let ctrl ← toInt (send.getD "ctrl" (.int 0x43)) true
  let seq ← toInt (send.getD "seq" (.int 1)) false
  let info ← AutoReply.toBytes (send.getD "info" (.list (List.replicate 6 (.int 0))))
  buildLocalFrame { ctrl := lowByte ctrl, info := info, seq := seq } afn fn buff

/-- `build_send_frame`. -/
def buildSendFrame (send profile : Params) (seq : ℤ) : PyM Bytes :=
  if (send.get "raw").truthy then
    throw (codecError "send.raw 已移除（ADR-5 用例语义化），请改用 afn/fn + params 描述命令")
  else if (send.get "format").eqStr "local" then buildLocalSend send
  else buildSend send profile seq

end ScenarioCodec

/-! ## Expected frames -/

namespace Matcher
open FrameCodec (fieldOf)
open Batch (intField upBit)

/-- `_field_value`. -/
def fieldValue (decoded : ProtocolFrame) (name : String) : PyVal :=
  match fieldOf decoded.fields name with
  | none => .none
  | some f => if f.raw.isNone then f.value else f.raw

/-- `_compare`. -/
def compare (got want : PyVal) (op : String) : PyM Bool :=
  match op with
  | "eq" =>
    match got.float, want.float with
    | some p, some q => pure (p = q)
    | _, _ => pure (got.eq want)
  | "contains" =>
    match want, got with
    | .str needle, .str text => pure (Batch.inText needle text)
    | v, .list items => pure (items.any fun x => x.eq v)
    | .list _, .dict _ => throw (.typeError "unhashable type: 'list'")
    | .dict _, .dict _ => throw (.typeError "unhashable type: 'dict'")
    | v, .dict entries => pure (entries.any fun e => v.eqStr e.1)
    | _, _ => throw (.typeError "argument is not a container of the value")
  | "startswith" => pure (want.toStr.toList.isPrefixOf got.toStr.toList)
  | _ => pure (got.eq want)

/-- `_match_nested_field`: the first field of the name decides. -/
def matchNestedField (decoded : ProtocolFrame) (nf : Params) : PyM Bool :=
  let structure_ := nf.get "structure"
  let name := nf.get "field"
  let candidates := decoded.nested.flatMap fun n =>
    if structure_.truthy ∧ ¬ structure_.eqStr n.structure_ then []
    else n.items.filter fun it => name.eqStr it.name
  match candidates with
  | [] => pure false
  | it :: _ => compare it.value (nf.get "eq") (nf.getD "op" (.str "eq")).toStr

/-- The number that an expected AFN stands for; what is no number is printed in the refusal. -/
def afnEquals (got : Option ℤ) (want : PyVal) : PyM Bool := do
  match want with
  | .str s =>
    let n ← hexInt s
    pure (got = some n)
  | want =>
    match got with
    | none => pure false
    | some n =>
      if want.eqInt n then pure true
      else
        match want with
        | .int _ => pure false
        | .bool _ => pure false
        | .scaled _ _ => throw (.valueError "Unknown format code 'X'")
        | _ => throw (.typeError "unsupported format string")

def afnFits (decoded : ProtocolFrame) (expect : Params) : PyM Bool :=
  let want := expect.get "afn"
  if want.isNone then pure true else afnEquals (intField decoded "AFN") want

def fnFits (decoded : ProtocolFrame) (expect : Params) : PyM Bool :=
  let want := expect.get "fn"
  if want.isNone then pure true
  else do
    let n ← want.toInt
    pure (intField decoded "FN" = some n)

def dirFits (decoded : ProtocolFrame) (expect : Params) : Bool :=
  let want := expect.get "dir"
  want.isNone || want.eqStr (if upBit decoded = 1 then "up" else "down")

/-- `want_fmt`: both formats mean the same frame. -/
def formatFits (expect : Params) : Bool :=
  let want := expect.get "format"
  want.isNone || want.eqStr "local" || want.eqStr "standard" || want.eqStr "auto"

def fieldsFit (decoded : ProtocolFrame) (expect : Params) : PyM Bool :=
  let want := expect.get "fields"
  if ¬ want.truthy then pure true
  else do
    let entries ← want.asDict
    pure (entries.all fun e => (fieldValue decoded e.1).eq e.2)

def allM (test : PyVal → PyM Bool) : List PyVal → PyM Bool
  | [] => pure true
  | v :: rest => do
    if ← test v then allM test rest else pure false

def nestedFits (decoded : ProtocolFrame) (expect : Params) : PyM Bool :=
  if (expect.get "nested").truthy ∧ decoded.nested = [] then pure false
  else do
    let fields ← (expect.get "nested_fields").orEmpty.elems
    allM (fun nf => do matchNestedField decoded (← nf.asDict)) fields

/-- The tests of `match_frame` on a decoded frame, in their order. -/
def fits (decoded : ProtocolFrame) (expect : Params) : PyM Bool := do
  if ¬ formatFits expect then return false
  if ¬ (← afnFits decoded expect) then return false
  if ¬ (← fnFits decoded expect) then return false
  if ¬ dirFits decoded expect then return false
  if ¬ (← fieldsFit decoded expect) then return false
  nestedFits decoded expect

/-- `match_frame`: whether the frame matches, and the frame if it was decoded. -/
def matchFrame (store : MetadataStore) (raw : Bytes) (expect : Option Params) :
    PyM (Bool × Option ProtocolFrame) :=
  match decode store raw with
  | .error _ => pure (false, none)
  | .ok decoded =>
    match expect with
    | none => pure (true, some decoded)
    | some expect => do pure (← fits decoded expect, some decoded)

end Matcher

/-! ## Expected answers -/

namespace ExpectRules

/-- A rule of `expect_rules.json`; `none` in the expected AFN and Fn is `self`. -/
structure Rule where
  id : String
  afn : ℤ
  fn : Option ℤ
  expectAfn : Option ℤ
  expectFn : Option ℤ
  form : String
  tier : String

def rules : List Rule :=
  [ ⟨"er.02f1", 0x02, some 1, some 0x02, some 1, "table", "single_read"⟩,
    ⟨"er.03", 0x03, none, none, none, "table", "default"⟩,
    ⟨"er.05", 0x05, none, some 0x00, some 1, "confirm_or_deny", "default"⟩,
    ⟨"er.10", 0x10, none, none, none, "table", "default"⟩,
    ⟨"er.11", 0x11, none, some 0x00, some 1, "confirm_or_deny", "default"⟩,
    ⟨"er.12", 0x12, none, some 0x00, some 1, "confirm_or_deny", "default"⟩,
    ⟨"er.13", 0x13, none, none, none, "table", "batch_read"⟩,
    ⟨"er.f1", 0xF1, some 1, some 0xF1, some 1, "table", "batch_read"⟩ ]

/-- `timeout_tiers`, in seconds. -/
def tierSeconds : String → ℕ
  | "single_read" => 59
  | "batch_read" => 99
  | _ => 5

/-- `deny_codes`. -/
def denyCodes : List (ℕ × String) :=
  [ (0, "通信超时"), (1, "无效数据单元"), (2, "长度错"), (3, "校验错误"), (4, "信息类不存在"),
    (5, "格式错误"), (6, "表号重复"), (7, "表号不存在"), (8, "电表应用层无应答"), (9, "主节点忙"),
    (10, "主节点不支持此命令"), (11, "从节点不应答"), (12, "从节点不在网内"),
    (109, "超过最大并发数（6D，CCO aps_max_trans 上限）"),
    (110, "超过单个1376.2帧最大允许的电表协议报文条数（6E）"), (111, "正在抄读该表（6F）") ]

/-- `deny_text`. -/
def denyText (code : ℕ) : String :=
  (denyCodes.lookup code).getD ("未知错误状态字 " ++ toString code)

/-- `_norm_fn`. -/
def normFn : PyVal → PyM ℤ
  | .int n => pure n
  | .bool b => pure (if b then 1 else 0)
  | v =>
    (PyVal.str (String.ofList (((pyStrip v.toStr.toList).map Char.toUpper).dropWhile (· = 'F')))).toInt

/-- `rule_for`: a rule for the Fn before the first one for the AFN alone. -/
def ruleFor (afn : ℤ) (fn : Option ℤ) : Option Rule :=
  let own := rules.filter fun r => r.afn = afn
  (own.find? fun r => r.fn.isSome ∧ r.fn = fn).or (own.find? fun r => r.fn = none)

/-- `_norm_fn(fn) if fn is not None else None`. -/
def givenFn (fn : PyVal) : PyM (Option ℤ) :=
  if fn.isNone then pure none else do pure (some (← normFn fn))

/-- The expectation of a rule for the AFN and the Fn that were sent. -/
def Rule.expect (rule : Rule) (afn : ℤ) (fn : Option ℤ) : Params :=
  [ ("dir", .str "up"), ("afn", .int (rule.expectAfn.getD afn)),
    ("fn", .int (rule.expectFn.getD (fn.getD 0))), ("form", .str rule.form) ]

/-- `default_expect`. -/
def defaultExpect (afn fn : PyVal) : PyM (Option (Params × Rule)) := do
  let a ← ScenarioCodec.normAfn afn
  let f ← givenFn fn
  pure ((ruleFor a f).map fun rule => (rule.expect a f, rule))

/-- `timeout_for`, the seconds. -/
def timeoutFor (afn fn : PyVal) : PyM ℕ := do
  let a ← ScenarioCodec.normAfn afn
  let f ← givenFn fn
  pure (tierSeconds ((ruleFor a f).elim "default" Rule.tier))

/-- `is_report_afn`. -/
def isReportAfn (afn : PyVal) : Bool :=
  match ScenarioCodec.normAfn afn with
  | .ok a => a = 0x06
  | .error _ => false

end ExpectRules

end HplcWorkbench
