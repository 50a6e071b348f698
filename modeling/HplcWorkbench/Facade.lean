import HplcWorkbench.Decode10376
import HplcWorkbench.PyParams

/-!
# The facade of the parser library

`decode` and `build` work on the three daily protocols. Without a protocol, `decode` asks the
router and refuses what scores below a threshold; with one, it decodes whatever it is given.
Scores are in hundredths. The 1376.2 builder belongs to another module and is a parameter here.
-/

namespace HplcWorkbench.Facade

open Adapter10376 (pySpace pyStrip)

/-- `DAILY_PROTOCOLS`. -/
inductive Daily
  | dlt645
  | dlt69845
  | qgdw103762
  deriving DecidableEq, Repr

namespace Daily

def protocol : Daily → String
  | dlt645 => "645"
  | dlt69845 => "698.45"
  | qgdw103762 => "1376.2"

def confidence : Daily → Bytes → ℕ
  | dlt645 => Adapter645.confidence
  | dlt69845 => Adapter698.confidence
  | qgdw103762 => Adapter10376.confidence

def decode (store : MetadataStore) : Daily → Bytes → PyM ProtocolFrame
  | dlt645 => Adapter645.decode store
  | dlt69845 => Adapter698.decode store
  | qgdw103762 => Adapter10376.decode store

end Daily

/-- The adapters of `_daily_router`, in the order in which `build_adapters` lists them. -/
def dailyAdapters : List Daily := [.dlt645, .dlt69845, .qgdw103762]

/-- `ProtocolRouter.select` without a preferred protocol: of equal scores the first wins. -/
def select {Adapter : Type*} (score : Adapter → ℕ) (adapters : List Adapter) : Option Adapter :=
  adapters.foldl (fun best a =>
    match best with
    | none => some a
    | some b => if score a > score b then some a else some b) none

/-- `_PROTOCOL_ALIASES`. -/
def protocolAliases : List (String × String) :=
  [("645", "645"), ("645-2007", "645"), ("645-1997", "645"),
    ("698", "698.45"), ("698.45", "698.45"), ("69845", "698.45"),
    ("1376.2", "1376.2"), ("13762", "1376.2"), ("10376.2", "1376.2"), ("103762", "1376.2")]

/-- `_norm_protocol`. -/
def normProtocol (protocol : String) : String :=
  let key := String.ofList ((pyStrip protocol.toList).map Char.toLower)
  (protocolAliases.lookup key).getD protocol

/-- The daily protocol a name stands for. -/
def dailyOf (protocol : String) : Option Daily :=
  dailyAdapters.find? fun d => d.protocol = normProtocol protocol

/-! ## Decoding -/

/-- What `decode` accepts as a frame. -/
inductive FrameInput
  | bytes (raw : Bytes)
  | text (s : String)
  | other

/-- `s[2:]` where the text starts with `0x`. -/
def dropHexMark : List Char → List Char
  | '0' :: x :: rest => if x = 'x' ∨ x = 'X' then rest else '0' :: x :: rest
  | digits => digits

/-- `_to_bytes`. -/
def toBytes : FrameInput → PyM Bytes
  | .bytes raw => pure raw
  | .text s =>
    let digits := dropHexMark (s.toList.filter fun c => !pySpace c)
    if digits.length % 2 = 0 ∧ digits.all (fun c => (hexDigitValue c).isSome) then
      match fromHexChars digits with
      | some raw => pure raw
      | none => throw (.valueError "non-hexadecimal number found in fromhex() arg")
    else throw (.valueError "帧 hex 非法：长度非偶数或含非 hex 字符")
  | .other => throw (.valueError "帧仅支持 hex 字符串或 bytes")

/-- The dictionary `decode` returns. A decoded frame is kept as it is, with its warnings in it. -/
inductive DecodeResult
  | invalidHex (detail : PyErr)
  | unsupportedProtocol (protocol : String)
  | decodeFailed (protocol : String) (detail : PyErr)
  | unrecognized (scores : List (String × ℕ))
  | specified (protocol : String) (frame : ProtocolFrame)
  | auto (protocol : String) (confidence : ℕ) (frame : ProtocolFrame)

def DecodeResult.ok : DecodeResult → Bool
  | specified .. => true
  | auto .. => true
  | _ => false

/-- `AUTO_CONFIDENCE_MIN`. -/
def autoConfidenceMin : ℕ := 80

/-- The branch of `decode` without a protocol. Only here an exception of the adapter goes
through. -/
def decodeAuto (store : MetadataStore) (raw : Bytes) (autoMin : ℕ) : PyM DecodeResult :=
  let scores := dailyAdapters.map fun d => (d.protocol, d.confidence raw)
  match select (Daily.confidence · raw) dailyAdapters with
  | none => pure (.unrecognized scores)
  | some best =>
    if best.confidence raw < autoMin then pure (.unrecognized scores)
    else do
      let pf ← best.decode store raw
      pure (.auto best.protocol (best.confidence raw) pf)

def decode (store : MetadataStore) (frame : FrameInput) (protocol : Option String)
    (autoMin : ℕ) : PyM DecodeResult :=
  match toBytes frame with
  | .error e => pure (.invalidHex e)
  | .ok raw =>
    match protocol with
    | some name =>
      match dailyOf name with
      | none => pure (.unsupportedProtocol name)
      | some d =>
        match d.decode store raw with
        | .error e => pure (.decodeFailed d.protocol e)
        | .ok pf => pure (.specified d.protocol pf)
    | none => decodeAuto store raw autoMin

/-! ## Building -/

/-- `n.to_bytes(4, "little")`. -/
def toBytesLittle4 (n : ℤ) : PyM Bytes :=
  if n < 0 then throw (.overflowError "can't convert negative int to unsigned")
  else if n ≥ 2 ^ 32 then throw (.overflowError "int too big to convert")
  else
    let n := n.toNat
    pure [byte n, byte (n / 2 ^ 8), byte (n / 2 ^ 16), byte (n / 2 ^ 24)]

/-- `bytes.fromhex(s)`. -/
def bytesFromHex (s : String) : PyM Bytes :=
  match fromHex s with
  | some bs => pure bs
  | none => throw (.valueError "non-hexadecimal number found in fromhex() arg")

/-- `_addr_bytes_645`. -/
def addrBytes645 (addr : PyVal) : PyM Bytes :=
  let s := pyStrip addr.toStr.toList
  if s.length ≠ 12 ∨ ¬ s.all (fun c => (hexDigitValue c).isSome) then
    throw (.valueError "645 地址须为 12 位 BCD hex（如 123456789012）")
  else bytesFromHex (String.ofList s)

/-- The dictionary `build` returns. -/
inductive BuildResult
  | built (protocol frameHex : String) (length : ℕ)
  | unsupportedProtocol (protocol : String)
  | failed (protocol : String) (detail : PyErr)
  deriving DecidableEq, Repr

/-- The `+33H` of a data field. -/
def addBias (payload : Bytes) : Bytes := payload.map fun b : Byte => byte (((b : ℕ) + 0x33) &&& 0xFF)

def built (d : Daily) (frame : Bytes) : BuildResult :=
  .built d.protocol (upper (hex frame)) frame.length

/-- The bytes of a data identifier, none without one. -/
def diBytes (p : Params) : PyM Bytes :=
  if (p.get "di").truthy then do toBytesLittle4 (← hexInt (p.get "di").toStr) else pure []

def dataBytes (p : Params) : PyM Bytes :=
  if (p.get "data").truthy then bytesFromHex (dropSpaces (p.get "data").toStr) else pure []

/-- A number that `bytes([...])` takes has no sign. -/
def unsigned (n : ℤ) : PyM ℕ :=
  if n < 0 then throw (.valueError "bytes must be in range(0, 256)") else pure n.toNat

/-- `_build_645`. -/
def build645 (p : Params) : PyM BuildResult := do
  let addrB ← addrBytes645 (p.getD "addr" (.str ""))
  let control ← hexInt (p.getD "control" (.str "11")).toStr
  let di ← diBytes p
  let data ← dataBytes p
  let payload := if control ≠ 0x03 ∧ control ≠ 0x08 then addBias (di ++ data) else di ++ data
  let frame ← Adapter645.buildFrameEscaped addrB (← unsigned control) payload
  pure (built .dlt645 frame)

/-- `_build_698`. -/
def build698 (p : Params) : PyM BuildResult := do
  let addrHex := dropSpaces (p.getD "addr" (.str "")).toStr
  if addrHex = "" ∨ addrHex.length % 2 ≠ 0 then
    throw (.valueError "698 地址须为偶数位 SA 完整域 hex（如 05353781090030）")
  let addrB ← bytesFromHex addrHex
  let ca ← hexInt (p.getD "ca" (.str "00")).toStr
  let control ← hexInt (p.getD "control" (.str "43")).toStr
  let apdu ←
    if (p.get "apdu").truthy then bytesFromHex (dropSpaces (p.get "apdu").toStr)
    else if (p.get "oad").truthy then do
      let oad ← bytesFromHex (p.get "oad").toStr
      pure ([0x05, 0x01] ++ oad ++ [0x00])
    else throw (.valueError "698 构帧需 oad（GET-RequestNormal）或 apdu hex")
  let control ← byteOf (← unsigned control)
  let ca ← byteOf (← unsigned ca)
  pure (built .dlt69845 (Adapter698.buildFrame apdu addrB ca control))

/-- An exception of a builder becomes the error result. -/
def build (build13762 : Params → PyM BuildResult) (protocol : String) (p : Params) : BuildResult :=
  match dailyOf protocol with
  | none => .unsupportedProtocol protocol
  | some d =>
    let result :=
      match d with
      | .dlt645 => build645 p
      | .dlt69845 => build698 p
      | .qgdw103762 => build13762 p
    match result with
    | .ok r => r
    | .error e => .failed d.protocol e

end HplcWorkbench.Facade
