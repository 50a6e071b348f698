import HplcWorkbench.Adapter645
import HplcWorkbench.Link698
import HplcWorkbench.Frame10376

/-!
# The frame splitter

A message begins with a port byte, an identifier and a control byte. It has no length of its own:
it ends with the first 645 or 698.45 frame embedded in it, or where the header of a collected-data
report says.

`FrameSplitter` asks its adapters in order to cut a frame off the front of its buffer. If none
does, `_resync` may delete bytes that it takes for noise, and the loop starts over; otherwise the
buffer waits for the next chunk.
-/

namespace HplcWorkbench.DualMode43

/-- The keys of `_PORT_NAMES`. -/
def ports : List Byte := [0x11, 0x12, 0x1A]

/-- The keys of `_SECURITY_NAMES`. -/
def securities : List ℕ := [0x0, 0x1, 0x2, 0x3]

/-- The keys of `_MESSAGE_NAMES`. -/
def messageIds : List ℕ :=
  [0x0001, 0x0002, 0x0003, 0x0004, 0x0006, 0x0008, 0x0011, 0x0012, 0x0013, 0x0020, 0x0030, 0x0031,
    0x0032, 0x0033, 0x0034, 0x0035, 0x0036, 0x0040, 0x0041, 0x00A0, 0x00A1, 0x00A2, 0x00A3, 0x00A4,
    0x00E2, 0x00E3, 0x00E4]

/-- `set(range(0x0030, 0x0037))`. -/
def upgradeIds : List ℕ := [0x30, 0x31, 0x32, 0x33, 0x34, 0x35, 0x36]

/-- `_message_parts`: identifier and security. -/
def messageParts (rawMsgId : ℕ) : ℕ × ℕ := (rawMsgId &&& 0x0FFF, (rawMsgId >>> 12) &&& 0x0F)

def validHeader (buf : Bytes) : Bool :=
  if buf.length < 4 ∨ byteAt buf 0 ∉ ports then false
  else
    let (msgId, security) := messageParts (le16 (byteAt buf 1) (byteAt buf 2))
    if security ∉ securities ∨ msgId ∉ messageIds then false
    else if byteAt buf 0 = 0x12 then msgId ∈ upgradeIds
    else if byteAt buf 0 = 0x1A then msgId = 0x00A0
    else msgId ∉ upgradeIds ∧ msgId ≠ 0x00A0

/-- The embedded frame at the front of the payload, 698.45 before 645 at equal scores. -/
def nestedHere (payload : Bytes) : Option ExtractResult :=
  if byteAt payload 0 ≠ 0x68 then none
  else
    let r698 := (Adapter698.tryExtract payload).filter fun r => Adapter698.confidence r.raw > 0
    let r645 := (Adapter645.tryExtract payload).filter fun r => Adapter645.confidence r.raw > 0
    match r698, r645 with
    | some r, some r' =>
      if Adapter645.confidence r'.raw > Adapter698.confidence r.raw then some r' else some r
    | some r, none => some r
    | none, r' => r'

/-- `_find_first_nested` from position `i` on: where the first embedded frame ends. -/
def findFirstNested : ℕ → Bytes → Option ℕ
  | _, [] => none
  | i, b :: rest =>
    match nestedHere (b :: rest) with
    | some r => some (i + r.consumed)
    | none => findFirstNested (i + 1) rest

/-- The end that the header of a collected-data report announces. -/
def reportEnd (buf : Bytes) : Option ℕ :=
  let business := buf.drop 4
  if 8 ≤ business.length then
    let headerLen := (byteAt business 0 : ℕ) >>> 6 ||| ((byteAt business 1 : ℕ) &&& 0x0F) <<< 2
    let startFlag := ((byteAt business 1 : ℕ) >>> 5) &&& 0x01
    if startFlag = 1 ∧ 4 ≤ headerLen then
      let stop := 4 + headerLen + le16 (byteAt business 6) (byteAt business 7)
      if 8 ≤ stop ∧ stop ≤ buf.length then some stop else none
    else none
  else none

def tryExtract (buf : Bytes) : Option ExtractResult :=
  if ¬ validHeader buf then none
  else
    let (msgId, _) := messageParts (le16 (byteAt buf 1) (byteAt buf 2))
    let report := if msgId = 0x00E4 then reportEnd buf else none
    (report.or (findFirstNested 4 (buf.drop 4))).map fun stop => ⟨buf.take stop, stop⟩

end HplcWorkbench.DualMode43

namespace HplcWorkbench

/-! ## Adapters -/

/-- The adapters of `build_adapters`, by the protocol they are registered for. -/
inductive Protocol
  | dualMode43
  | dlt645
  | dlt69845
  | qgdw103762
  deriving DecidableEq, Repr

def Protocol.tryExtract : Protocol → Bytes → Option ExtractResult
  | .dualMode43 => DualMode43.tryExtract
  | .dlt645 => Adapter645.tryExtract
  | .dlt69845 => Adapter698.tryExtract
  | .qgdw103762 => Adapter10376.tryExtract

/-- The adapters of the meter protocols, in their order. -/
def meterAdapters : List Protocol := [.dlt645, .dlt69845, .qgdw103762]

def buildAdapters : List Protocol := .dualMode43 :: meterAdapters

/-- What an adapter cuts is a prefix of the buffer that is not empty. -/
structure ExtractResult.CutOf (r : ExtractResult) (buf : Bytes) : Prop where
  raw_eq : r.raw = buf.take r.consumed
  pos : 0 < r.consumed
  le : r.consumed ≤ buf.length

namespace FrameSplitter

def maxFrame : ℕ := 4096

def frameStartBytes : List Byte := [0x68, 0x11, 0x12, 0x1A]

/-- The first position from `k` on at which a frame can start. -/
def nextStart (buf : Bytes) (k : ℕ) : Option ℕ :=
  ((buf.drop k).findIdx? fun b => b ∈ frameStartBytes).map (· + k)

def skipPort (buf : Bytes) : Option ℕ :=
  if byteAt buf 0 ∈ DualMode43.ports ∧ 4 ≤ buf.length then nextStart buf 1 else none

/-- A complete envelope of another protocol is deleted, and so is the head of a frame that does not
end where its length says. -/
def skipEnvelope (buf : Bytes) : Option ℕ :=
  if byteAt buf 0 = 0x68 ∧ 3 ≤ buf.length then
    let total := le16 (byteAt buf 1) (byteAt buf 2)
    if 12 ≤ total ∧ total ≤ maxFrame ∧ total ≤ buf.length ∧ byteAt buf (total - 1) = 0x16 then
      some total
    else if 12 ≤ total ∧ total ≤ 2000 ∧ total + 2 ≤ buf.length ∧ byteAt buf (total + 1) ≠ 0x16 then
      nextStart buf 1
    else none
  else none

def skipTooLong (buf : Bytes) : Option ℕ :=
  if buf.length > maxFrame then some ((nextStart buf 1).getD buf.length) else none

/-- `_resync`: how many bytes it deletes, `none` where it returns `False`. -/
def resync (buf : Bytes) : Option ℕ :=
  if buf = [] then none
  else if byteAt buf 0 ∉ frameStartBytes then some ((nextStart buf 0).getD buf.length)
  else (skipPort buf).or ((skipEnvelope buf).or (skipTooLong buf))

/-- The first adapter that cuts a frame. -/
def firstHit (adapters : List Protocol) (buf : Bytes) : Option (Protocol × ExtractResult) :=
  adapters.findSome? fun a => (a.tryExtract buf).map fun r => (a, r)

def feedLoop (adapters : List Protocol) : ℕ → Bytes → List (Protocol × Bytes) × Bytes
  | 0, buf => ([], buf)
  | fuel + 1, buf =>
    match firstHit adapters buf with
    | some (a, res) =>
      let r := feedLoop adapters fuel (buf.drop res.consumed)
      ((a, res.raw) :: r.1, r.2)
    | none =>
      match resync buf with
      | some k => feedLoop adapters fuel (buf.drop k)
      | none => ([], buf)

/-- `feed`: the frames of this call and the pending bytes. Every round deletes a byte at least, so
the length of the buffer is fuel enough. -/
def feed (adapters : List Protocol) (buf chunk : Bytes) : List (Protocol × Bytes) × Bytes :=
  feedLoop adapters ((buf ++ chunk).length + 1) (buf ++ chunk)

/-- The frames that successive calls return. -/
def feedAll (adapters : List Protocol) : Bytes → List Bytes → List (Protocol × Bytes)
  | _, [] => []
  | buf, chunk :: chunks =>
    (feed adapters buf chunk).1 ++ feedAll adapters (feed adapters buf chunk).2 chunks

end FrameSplitter

end HplcWorkbench
