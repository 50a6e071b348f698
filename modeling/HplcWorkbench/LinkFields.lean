import HplcWorkbench.HexText
import HplcWorkbench.ProtocolFrame

/-!
# The header fields of a 1376.2 frame

Control byte, information field, address field and the Fn bitmap, each as a packing function
and a parsing function. The information field is laid out differently in the two directions,
and its module mark decides whether an address field follows.
-/

namespace HplcWorkbench.Adapter10376

inductive Direction
  | down
  | up
  deriving DecidableEq, Repr

/-- `direction == "up"` as the direction bit. -/
def Direction.bit : Direction → ℕ
  | .down => 0
  | .up => 1

def Direction.text : Direction → String
  | .down => "down"
  | .up => "up"

/-! ## Fn bitmap -/

/-- `_DT1_TO_BASE`. -/
def dt1ToBase : ℕ → Option ℕ
  | 1 => some 1
  | 2 => some 2
  | 4 => some 3
  | 8 => some 4
  | 16 => some 5
  | 32 => some 6
  | 64 => some 7
  | 128 => some 8
  | _ => none

def fnToDt (fn : ℕ) : Byte × Byte :=
  let fn := fn &&& 0xFF
  let fn := if fn < 1 then 1 else fn
  let dt2 := (fn - 1) >>> 3
  let rem := fn &&& 0x07
  let dt1 := if rem ≠ 0 then 1 <<< (rem - 1) else 128
  (byte dt1, byte dt2)

def dtToFn (dt1 dt2 : Byte) : ℕ :=
  match dt1ToBase dt1 with
  | none => 0
  | some base => (dt2 : ℕ) * 8 + base

/-! ## Control byte -/

/-- `_COMM_MODE_NAMES.get(mode, ...)`. -/
def commModeName : ℕ → String
  | 0 => "保留"
  | 1 => "集中式路由载波通信"
  | 2 => "分布式路由载波通信"
  | 3 => "HPLC载波通信"
  | 10 => "微功率无线通信"
  | 20 => "以太网通信"
  | m => "保留(" ++ toString m ++ ")"

/-- `mode in _COMM_MODE_NAMES`. -/
def commModeKnown (mode : ℕ) : Bool := mode ∈ [0, 1, 2, 3, 10, 20]

/-- The primary bit that stands in for `prm=None`. -/
def defaultPrm : Direction → ℕ
  | .up => 0
  | .down => 1

def packControl (direction : Direction) (prm : Option ℕ) (commMode : ℕ) : Byte :=
  byte (direction.bit <<< 7 ||| ((prm.getD (defaultPrm direction)) &&& 0x01) <<< 6 |||
    (commMode &&& 0x3F))

structure Control where
  dir : ℕ
  prm : ℕ
  commMode : ℕ
  direction : Direction
  deriving DecidableEq, Repr

def parseControl (c : Byte) : Control where
  dir := ((c : ℕ) >>> 7) &&& 0x01
  prm := ((c : ℕ) >>> 6) &&& 0x01
  commMode := (c : ℕ) &&& 0x3F
  direction := if ((c : ℕ) >>> 7) &&& 0x01 ≠ 0 then .up else .down

/-! ## Information field -/

/-- The `info` argument: a dict whose absent keys read as `None`. -/
structure InfoArg where
  relayLevel : Option ℕ := none
  moduleId : Option ℕ := none
  routeFlag : Option ℕ := none
  channel : Option ℕ := none
  meterChannel : Option ℕ := none
  phase : Option ℕ := none
  sigQuality : Option ℕ := none
  eventFlag : Option ℕ := none
  seq : Option ℕ := none
  conflictDetect : Option ℕ := none
  subNode : Option ℕ := none
  ecc : Option ℕ := none
  expectReplyLen : Option ℕ := none
  rate : Option ℕ := none
  rateUnit : Option ℕ := none
  deriving DecidableEq, Repr

def packInfo (direction : Direction) (info : InfoArg) : Bytes :=
  match direction with
  | .up =>
    let b0 := ((info.relayLevel.getD 0 &&& 0x0F) <<< 4) |||
      ((info.moduleId.getD 0 &&& 0x03) <<< 2) ||| (info.routeFlag.getD 0 &&& 0x01)
    let b1 := info.channel.getD 0 &&& 0x0F
    let b2 := ((info.meterChannel.getD 0 &&& 0x0F) <<< 4) ||| (info.phase.getD 0 &&& 0x0F)
    let b3 := ((info.sigQuality.getD 0 &&& 0x0F) <<< 4) ||| (info.sigQuality.getD 0 &&& 0x0F)
    let b4 := info.eventFlag.getD 0 &&& 0x01
    let b5 := info.seq.getD 0 &&& 0xFF
    [byte b0, byte b1, byte b2, byte b3, byte b4, byte b5]
  | .down =>
    let b0 := ((info.relayLevel.getD 0 &&& 0x0F) <<< 4) |||
      ((info.conflictDetect.getD 0 &&& 0x01) <<< 3) |||
      ((info.moduleId.getD 0 &&& 0x03) <<< 1) ||| (info.subNode.getD 0 &&& 0x01)
    let b1 := ((info.ecc.getD 0 &&& 0x0F) <<< 4) ||| (info.channel.getD 0 &&& 0x0F)
    let b2 := info.expectReplyLen.getD 0 &&& 0xFF
    let rate := info.rate.getD 0 &&& 0x7FFF
    let rateUnit := info.rateUnit.getD 0 &&& 0x01
    let b3 := ((rateUnit &&& 0x01) <<< 7) ||| ((rate >>> 8) &&& 0x7F)
    let b4 := rate &&& 0xFF
    let b5 := info.seq.getD 0 &&& 0xFF
    [byte b0, byte b1, byte b2, byte b3, byte b4, byte b5]

structure UpInfo where
  relayLevel : ℕ
  moduleId : ℕ
  routeFlag : ℕ
  channel : ℕ
  meterChannel : ℕ
  phase : ℕ
  sigQuality : ℕ
  eventFlag : ℕ
  seq : ℕ
  deriving DecidableEq, Repr

structure DownInfo where
  relayLevel : ℕ
  conflictDetect : ℕ
  moduleId : ℕ
  subNode : ℕ
  ecc : ℕ
  channel : ℕ
  expectReplyLen : ℕ
  rateUnit : ℕ
  rate : ℕ
  seq : ℕ
  deriving DecidableEq, Repr

/-- The dict that `_parse_info` returns: its keys depend on the direction. -/
inductive Info
  | up (fields : UpInfo)
  | down (fields : DownInfo)
  deriving DecidableEq, Repr

def Info.relayLevel : Info → ℕ
  | .up i => i.relayLevel
  | .down i => i.relayLevel

def Info.moduleId : Info → ℕ
  | .up i => i.moduleId
  | .down i => i.moduleId

def Info.seq : Info → ℕ
  | .up i => i.seq
  | .down i => i.seq

def parseInfo (direction : Direction) (info : Bytes) : Info :=
  let at_ (i : ℕ) : ℕ := info.getD i 0  -- a short field is padded with zero bytes
  match direction with
  | .up => .up {
      relayLevel := (at_ 0 >>> 4) &&& 0x0F
      moduleId := (at_ 0 >>> 2) &&& 0x03
      routeFlag := at_ 0 &&& 0x01
      channel := at_ 1 &&& 0x0F
      meterChannel := (at_ 2 >>> 4) &&& 0x0F
      phase := at_ 2 &&& 0x0F
      sigQuality := (at_ 3 >>> 4) &&& 0x0F
      eventFlag := at_ 4 &&& 0x01
      seq := at_ 5 }
  | .down => .down {
      relayLevel := (at_ 0 >>> 4) &&& 0x0F
      conflictDetect := (at_ 0 >>> 3) &&& 0x01
      moduleId := (at_ 0 >>> 1) &&& 0x03
      subNode := at_ 0 &&& 0x01
      ecc := (at_ 1 >>> 4) &&& 0x0F
      channel := at_ 1 &&& 0x0F
      expectReplyLen := at_ 2
      rateUnit := (at_ 3 >>> 7) &&& 0x01
      rate := ((at_ 3 &&& 0x7F) <<< 8) ||| at_ 4
      seq := at_ 5 }

/-! ## Address field -/

/-- What `str.strip()` removes. -/
def pySpace (c : Char) : Bool :=
  c.toNat ∈ [9, 10, 11, 12, 13, 28, 29, 30, 31, 32, 133, 160, 5760, 8192, 8193, 8194, 8195, 8196,
    8197, 8198, 8199, 8200, 8201, 8202, 8232, 8233, 8239, 8287, 12288]

/-- `s.strip()`. -/
def pyStrip (s : List Char) : List Char :=
  ((s.dropWhile pySpace).reverse.dropWhile pySpace).reverse

/-- Pairs of digits to bytes, the last step of `_str_to_bcd`. -/
def pairsToBytes : List Char → PyM Bytes
  | hi :: lo :: rest =>
    match hexDigitValue hi, hexDigitValue lo with
    | some h, some l => do
      let more ← pairsToBytes rest
      pure (byte (h <<< 4 ||| l) :: more)
    | _, _ => throw (.valueError "invalid literal for int() with base 16")
  | [_] => throw .indexError
  | [] => pure []

/-- `_str_to_bcd`: pad on the left, cut on the right, two digits a byte. -/
def strToBcd (s : String) (nbytes : ℕ) : PyM Bytes :=
  let digits := (pyStrip s.toList).filter (· ≠ '-')
  let digits := List.replicate (nbytes * 2 - digits.length) '0' ++ digits
  pairsToBytes (digits.take (nbytes * 2))

/-- The `address` argument `{src, relay, dst}`. -/
structure AddressArg where
  src : String := ""
  relay : List String := []
  dst : String := ""
  deriving DecidableEq, Repr

def packRelays : List String → PyM Bytes
  | [] => pure []
  | r :: rest => do
    let first ← strToBcd r 6
    let more ← packRelays rest
    pure (first ++ more)

/-- Source and destination are packed only when they are given. -/
def packPart (s : String) : PyM Bytes := if s ≠ "" then strToBcd s 6 else pure []

def packAddress (addr : AddressArg) : PyM Bytes := do
  let src ← packPart addr.src
  let relay ← packRelays addr.relay
  let dst ← packPart addr.dst
  pure (src ++ relay ++ dst)

structure Address where
  src : String
  relay : List String
  dst : String
  hasAddress : Bool
  deriving DecidableEq, Repr

/-- The address that stands for an absent address field. -/
def Address.absent : Address := ⟨"", [], "", false⟩

/-- The relay loop of `_parse_address`: six bytes are cut while more than six remain, and what
is left is the destination. -/
def cutRelays : Bytes → List String × String
  | a :: b :: c :: d :: e :: f :: g :: rest =>
    let tail := cutRelays (g :: rest)
    (bcdToStr [a, b, c, d, e, f] :: tail.1, tail.2)
  | [] => ([], "")
  | last => ([], bcdToStr last)

def parseAddress (data : Bytes) : Address :=
  if data.length = 0 then .absent
  else
    let tail := cutRelays (data.drop 6)
    ⟨bcdToStr (slice data 0 6), tail.1, tail.2, true⟩

end HplcWorkbench.Adapter10376
