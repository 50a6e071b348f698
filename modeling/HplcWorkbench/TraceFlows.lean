import HplcWorkbench.Bytes
import HplcWorkbench.OrderedDict
import Mathlib.Data.List.Sort

/-!
# Flows of the communication trace

The captured frames of a round are grouped by message number into flows, each with its downlinks
and its uplinks. The report of a flow tells how far it got: sent, acknowledged by the link,
responded, confirmed or denied.
-/

namespace HplcWorkbench.Trace
open OrderedDict

/-- An entry of `meter_addrs`: an address, or an address with the verdict of its answer. -/
inductive MeterItem
  | text (addr : String)
  | reply (addr : String) (denied : Bool)
  deriving DecidableEq

/-- `_Frame`. -/
structure Frame where
  frameId : ℕ
  logTime : String := ""
  absMs : Option ℤ := none
  flowDir : Option ℕ := none
  msgSeq : Option ℕ := none
  staTei : Option String := none
  oriTei : Option String := none
  meterAddrs : Option (List MeterItem) := none
  ackPeer : Option String := none
  summary : Dict String String := .empty
  confirm : Option Bool := none

/-- What the reports read of a `NormalizedFeature`. -/
structure Feature where
  appId : String
  useAckEvidence : Bool
  confirmVia0x0020 : Bool
  expectMeters : List String := []
  clusterGapS : ℤ := 60

/-- The flow of a message number has a frame. -/
structure Flow where
  appId : String
  msgSeq : ℕ
  downs : List Frame
  ups : List Frame
  captured : downs ++ ups ≠ []

/-- `sorted(frames, key=lambda f: f.frame_id)`. -/
def byFrameId (frames : List Frame) : List Frame :=
  frames.insertionSort fun a b => a.frameId ≤ b.frameId

/-! ## Grouping -/

def Flow.start (appId : String) (seq : ℕ) (frame : Frame) : Flow :=
  if frame.flowDir = some 0 then ⟨appId, seq, [frame], [], List.cons_ne_nil _ _⟩
  else ⟨appId, seq, [], [frame], List.cons_ne_nil _ _⟩

def Flow.add (flow : Flow) (frame : Frame) : Flow :=
  if frame.flowDir = some 0 then
    { flow with
      downs := flow.downs ++ [frame]
      captured := by simp }
  else
    { flow with
      ups := flow.ups ++ [frame]
      captured := by simp }

/-- `grouped.setdefault(...)` and the append to one of its lists. -/
def addFrame (appId : String) (grouped : Dict ℕ Flow) (frame : Frame) : Dict ℕ Flow :=
  match frame.msgSeq with
  | none => grouped
  | some seq =>
    match grouped.get? seq with
    | none => grouped.set seq (.start appId seq frame)
    | some flow => grouped.set seq (flow.add frame)

def Flow.firstId (flow : Flow) : ℕ :=
  ((flow.downs ++ flow.ups).map Frame.frameId).min (by simpa using flow.captured)

/-- `_build_flows`. -/
def buildFlows (cluster : List Frame) (appId : String) : List Flow :=
  let grouped := (byFrameId cluster).foldl (addFrame appId) Dict.empty
  (grouped.entries.map Prod.snd).insertionSort fun a b => a.firstId ≤ b.firstId

/-! ## The report of a flow -/

inductive Stage
  | armed
  | sent
  | acked
  | responded
  | confirmed
  | denied
  deriving DecidableEq, Repr

inductive Verdict
  | none
  | confirmed
  | notConfirmed
  | denied
  deriving DecidableEq, Repr

inductive EvidenceKind
  | none
  | explicitAck
  | retransmitted
  | noRetransmitInference
  deriving DecidableEq, Repr

structure S3 where
  verdict : Verdict
  evidenceKind : EvidenceKind
  deriving DecidableEq, Repr

structure Sent where
  frameId : ℕ
  t : String
  retries : ℕ

structure Retransmission where
  frameId : ℕ
  t : String
  intervalMs : Option ℤ

structure Ack where
  frameId : ℕ
  t : String

structure FirstResponse where
  frameId : ℕ
  t : String
  latencyMs : Option ℤ
  respondedSta : Option String

structure Confirm where
  frameId : ℕ
  t : String
  denied : Bool

/-- The answer of a meter. -/
structure Response where
  addr : String
  denied : Bool
  frameId : ℕ
  deriving DecidableEq

inductive ProjectedDirection
  | downlink
  | uplink
  | ack
  deriving DecidableEq

inductive Role
  | sent
  | retransmission
  | response
  | ack
  | confirm
  deriving DecidableEq

structure Projection where
  frameId : ℕ
  logTime : String
  direction : ProjectedDirection
  role : Role
  frmType : Option String
  nid : Option String
  src : Option String
  dst : Option String
  oriS : Option String
  chType : Option String
  appId : Option String
  msgSeq : Option String
  flowDir : Option ℕ
  meterAddrs : List MeterItem

structure FlowReport where
  flowKey : String
  appId : String
  msgSeq : String
  viaTei : Option String
  sent : Option Sent
  retransmissions : List Retransmission
  ack : Option Ack
  response : Option FirstResponse
  confirm : Option Confirm
  stage : Stage
  s3 : S3
  targets : List String
  responses : List Response
  frames : List Projection

/-- A text as `and` and `or` take it: an empty one is none. -/
def told (text : Option String) : Option String := text.filter (· ≠ "")

/-- `later.abs_ms - earlier.abs_ms`, where both are known. -/
def elapsed (earlier later : Frame) : Option ℤ := do
  pure ((← later.absMs) - (← earlier.absMs))

/-- The peer of the flow, if possible one that is not the broadcast address. -/
def viaTei (downs ups : List Frame) : Option String :=
  match downs.find? fun d => (told d.staTei).isSome && d.staTei ≠ some "FFF" with
  | some d => d.staTei
  | none => (downs ++ ups).head?.bind Frame.staTei

/-- The downlinks behind `prev`. -/
def retransmissionsAfter : Frame → List Frame → List Retransmission
  | _, [] => []
  | prev, later :: rest =>
    ⟨later.frameId, later.logTime, elapsed prev later⟩ :: retransmissionsAfter later rest

/-- `_attribute_ack`. -/
def attributeAck (first : Frame) (viaTei : String) (acks : Dict ℕ Frame) : Option Ack :=
  let candidates := (acks.entries.map Prod.snd).filter fun f =>
    f.ackPeer = some viaTei ∧ first.frameId < f.frameId
  (byFrameId candidates).head?.map fun nearest => ⟨nearest.frameId, nearest.logTime⟩

/-- `_flow_targets`. -/
def flowTargets (flow : Flow) : List String :=
  (byFrameId flow.downs).foldl (fun targets down =>
    (down.meterAddrs.getD []).foldl (fun targets item =>
      match item with
      | .text addr => if addr ∈ targets then targets else targets ++ [addr]
      | .reply _ _ => targets) targets) []

/-- Of the answers of a meter the last one that is no denial stays, and else the first one. -/
def respond (responses : Dict String Response) (r : Response) : Dict String Response :=
  match responses.get? r.addr with
  | none => responses.set r.addr r
  | some _ => if r.denied then responses else responses.set r.addr r

/-- The answer in an entry of an uplink. -/
def answer (up : Frame) : MeterItem → Option Response
  | .text addr => if addr = "" then none else some ⟨addr, false, up.frameId⟩
  | .reply addr denied => if addr = "" then none else some ⟨addr, denied, up.frameId⟩

def respondItem (up : Frame) (responses : Dict String Response) (item : MeterItem) :
    Dict String Response :=
  match answer up item with
  | none => responses
  | some r => respond responses r

/-- `_flow_responses`. -/
def flowResponses (flow : Flow) : List Response :=
  let responses := (byFrameId flow.ups).foldl (fun responses up =>
    (up.meterAddrs.getD []).foldl (respondItem up) responses) Dict.empty
  responses.entries.map Prod.snd

/-- `denied_addrs`: the meters of which a denial was heard. -/
def deniedAddrs (ups : List Frame) : List String :=
  ups.flatMap fun up => (up.meterAddrs.getD []).filterMap fun
    | .text _ => none
    | .reply addr denied => if denied ∧ addr ≠ "" then some addr else none

/-- `_retx_after_response`. -/
def retxAfterResponse (flow : Flow) (retransmissions : List Retransmission) : Bool :=
  match (flow.ups.map Frame.frameId).max? with
  | none => false
  | some lastUpId => retransmissions.any (lastUpId < ·.frameId)

/-- `_flow_stage`. -/
def flowStage (flow : Flow) (downs ups : List Frame) (ack : Option Ack) (confirm : Option Confirm)
    (retransmissions : List Retransmission) (deniedAddrs : List String) (nf : Feature) :
    Stage × S3 :=
  if downs ≠ [] ∧ ups ≠ [] then
    let s3 : S3 :=
      if nf.confirmVia0x0020 ∧ confirm.any (!·.denied) then ⟨.confirmed, .explicitAck⟩
      else if retxAfterResponse flow retransmissions then ⟨.notConfirmed, .retransmitted⟩
      else ⟨.confirmed, .noRetransmitInference⟩
    let respAddrs := (flowResponses flow).map Response.addr
    if respAddrs ≠ [] ∧ ∀ addr ∈ respAddrs, addr ∈ deniedAddrs then
      (.denied, ⟨.denied, .explicitAck⟩)
    else (if s3.verdict = .confirmed then .confirmed else .responded, s3)
  else if downs ≠ [] then
    (if ack.isSome then .acked else .sent, ⟨.none, .none⟩)
  else if ups ≠ [] then
    -- a flow that starts with an uplink: the 0x0020 frame is its receipt
    match confirm with
    | some c =>
      if c.denied then (.denied, ⟨.denied, .explicitAck⟩) else (.confirmed, ⟨.confirmed, .explicitAck⟩)
    | none => (.responded, ⟨.none, .none⟩)
  else (.armed, ⟨.none, .none⟩)

/-- `_frame_projection`. -/
def frameProjection (direction : ProjectedDirection) (role : Role) (frame : Frame) :
    Projection where
  frameId := frame.frameId
  logTime := frame.logTime
  direction := direction
  role := role
  frmType := frame.summary.get? "FrmType"
  nid := frame.summary.get? "SNID"
  src := frame.summary.get? "SRC"
  dst := frame.summary.get? "DST"
  oriS := frame.summary.get? "ORI_S"
  chType := frame.summary.get? "ChType"
  appId := frame.summary.get? "APP_ID"
  msgSeq := frame.msgSeq.map fun seq => "0x" ++ hexPad 4 seq
  flowDir := frame.flowDir
  meterAddrs := frame.meterAddrs.getD []

def ProjectedDirection.text : ProjectedDirection → String
  | .downlink => "downlink"
  | .uplink => "uplink"
  | .ack => "ack"

/-- The frames of a report, of which `directions` only picks the ones to show. -/
def projections (downs ups : List Frame) (ackFrame confirmFrame : Option Frame)
    (directions : List String) : List Projection :=
  let shown := (downs.take 1).map (frameProjection .downlink .sent) ++
    (downs.drop 1).map (frameProjection .downlink .retransmission) ++
    ups.map (frameProjection .uplink .response) ++
    ackFrame.toList.map (frameProjection .ack .ack) ++
    confirmFrame.toList.map (frameProjection .downlink .confirm)
  let shown := shown.insertionSort fun a b => a.frameId ≤ b.frameId
  if directions ≠ [] then shown.filter (·.direction.text ∈ directions) else shown

/-- A 0x0020 frame from before the first downlink. -/
def beforeFirst (downs : List Frame) (cf : Frame) : Bool :=
  match downs.head? with
  | none => false
  | some first => (elapsed first cf).any (· < 0)

/-- The 0x0020 frame of a flow. -/
def confirmFrame (nf : Feature) (confirms : Dict ℕ (List Frame)) (seq : ℕ) (downs : List Frame) :
    Option Frame :=
  if nf.confirmVia0x0020 then
    ((confirms.get? seq).getD []).find? fun cf => !beforeFirst downs cf
  else none

/-- `_flow_report`. -/
def flowReport (flow : Flow) (acks : Dict ℕ Frame) (confirms : Dict ℕ (List Frame)) (nf : Feature)
    (directions : List String) : FlowReport :=
  let downs := byFrameId flow.downs
  let ups := byFrameId flow.ups
  let seq := flow.msgSeq
  let via := viaTei downs ups
  let retransmissions := match downs with
    | [] => []
    | first :: rest => retransmissionsAfter first rest
  let ack := do
    let first ← downs.head?
    let via ← told via
    if nf.useAckEvidence then attributeAck first via acks else none
  let confirmed := confirmFrame nf confirms seq downs
  let confirm := confirmed.map fun cf => ⟨cf.frameId, cf.logTime, cf.confirm = some false⟩
  let verdict := flowStage flow downs ups ack confirm retransmissions (deniedAddrs ups) nf
  { flowKey := flow.appId ++ ":" ++ hexPad 4 seq
    appId := flow.appId
    msgSeq := "0x" ++ hexPad 4 seq
    viaTei := via
    sent := downs.head?.map fun first => ⟨first.frameId, first.logTime, downs.length - 1⟩
    retransmissions := retransmissions
    ack := ack
    response := ups.head?.map fun first =>
      ⟨first.frameId, first.logTime, downs.head?.bind (elapsed · first),
        (told first.oriTei).orElse fun _ => first.staTei⟩
    confirm := confirm
    stage := verdict.1
    s3 := verdict.2
    targets := flowTargets flow
    responses := flowResponses flow
    frames := projections downs ups (ack.bind fun a => acks.get? a.frameId) confirmed directions }

end HplcWorkbench.Trace
