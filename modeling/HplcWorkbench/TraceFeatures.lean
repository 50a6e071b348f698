import HplcWorkbench.HexReading
import HplcWorkbench.TraceLoading

/-!
# What a trace looks for

A feature is a JSON object that names an application, a window and how answers are judged; it is checked
and put into one form before frames are loaded. The page drafts such an object from one frame, which is
sent back as it stands. A draft is refused where the message number has more than 16 bits, and it misses
its own frame only where the concentrator hands on what another station sent first.
-/

namespace HplcWorkbench.Trace

open OrderedDict TraceExtract
open Adapter10376 (pySpace pyStrip)

/-! ## The form of a feature -/

inductive Scope
  | flow
  | round
  | campaign
  deriving DecidableEq

inductive WindowMode
  | live
  | timeRange
  | cursorRange
  deriving DecidableEq

structure NormalizedFeature where
  scope : Scope
  appId : String
  msgSeq : Option ℕ
  frmType : Option String
  dstTei : Option String
  appRawContains : Option String
  nid : Option ℕ
  channel : Option String
  startTime : String
  endTime : String
  startId : Option ℕ
  endId : Option ℕ
  windowMode : WindowMode
  timeoutMs : Option ℤ
  useAckEvidence : Bool
  confirmVia0x0020 : Bool
  expectMeters : List String
  rawHexContains : Option String
  clusterGapS : ℤ
  raw : PyVal

namespace NormalizedFeature
variable (nf : NormalizedFeature)

def window : FrameWindow :=
  match nf.windowMode with
  | .live => .live
  | .timeRange => .timeRange nf.startTime nf.endTime
  | .cursorRange => .cursorRange nf.startId nf.endId

/-- What `_load_frames` reads. -/
def query : FrameQuery where
  appId := nf.appId
  msgSeq := nf.msgSeq
  frmType := nf.frmType
  dstTei := nf.dstTei
  appRawContains := nf.appRawContains
  rawHexContains := nf.rawHexContains
  nid := nf.nid
  channel := nf.channel
  window := nf.window

/-- What the reports read. -/
def judged : Feature where
  appId := nf.appId
  useAckEvidence := nf.useAckEvidence
  confirmVia0x0020 := nf.confirmVia0x0020
  expectMeters := nf.expectMeters
  clusterGapS := nf.clusterGapS

end NormalizedFeature

/-! ## Reading a feature -/

def featureError {α : Type} (message : String) : PyM α := throw (.valueError message)

/-- `if not ok: raise FeatureError(message)`. -/
def check (ok : Prop) [Decidable ok] (message : String) : PyM Unit :=
  if ok then pure () else featureError message

/-- `str(value or "")`. -/
def orText (v : PyVal) : String := if v.truthy then v.toStr else ""

/-- `s.strip()`. -/
def strip (s : String) : String := String.ofList (pyStrip s.toList)

/-- `s or None`. -/
def orNone (s : String) : Option String := if s = "" then none else some s

/-- `p.get(key) or {}`, which has to be an object. -/
def objectOr (p : Params) (key message : String) : PyM Params :=
  match (if (p.get key).truthy then p.get key else .dict []) with
  | .dict entries => pure entries
  | _ => featureError message

/-- `_parse_hex_int`. -/
def parseHexInt (value : PyVal) (name : String) (bits : ℕ) : PyM (Option ℕ) :=
  let text := strip (orText value)
  if text = "" then pure none
  else
    match (hexTextValue text).orElse fun _ => PyVal.textValue text with
    | none => featureError (name ++ " 格式无效：" ++ value.toStr)
    | some parsed =>
      if 0 ≤ parsed ∧ parsed < 2 ^ bits then pure (some parsed.toNat)
      else featureError (name ++ " 超出 " ++ toString bits ++ "bit 范围：" ++ value.toStr)

/-- `_HEX_DIGITS`. -/
def hexDigits : List Char := "0123456789ABCDEF".toList

/-- `_normalise_hex_condition`. -/
def normaliseHexCondition (value : PyVal) (name : String) : PyM (Option String) :=
  let text := upper (String.ofList ((orText value).toList.filter fun c => ¬ pySpace c))
  if text = "" then pure none
  else if text.length % 2 ≠ 0 ∨ ¬ (2 ≤ text.length ∧ text.length ≤ 512) ∨
      text.toList.any (fun c => c ∉ hexDigits) then
    featureError (name ++ " 必须是删除空白后 2–512 个偶数长度的十六进制字符")
  else pure (some text)

/-- `_SCOPES`. -/
def Scope.ofVal : PyVal → Option Scope
  | .str "flow" => some .flow
  | .str "round" => some .round
  | .str "campaign" => some .campaign
  | _ => none

/-- `_WINDOW_MODES`. -/
def WindowMode.ofVal : PyVal → Option WindowMode
  | .str "live" => some .live
  | .str "time_range" => some .timeRange
  | .str "cursor_range" => some .cursorRange
  | _ => none

/-- A value of a dict, or what stands for a false one. -/
def valueOr (p : Params) (key : String) (other : PyVal) : PyVal :=
  if (p.get key).truthy then p.get key else other

def readScope (p : Params) : PyM Scope :=
  let scope := valueOr p "scope" (.str "round")
  match Scope.ofVal scope with
  | some s => pure s
  | none => featureError ("scope 必须是 flow/round/campaign：" ++ scope.toStr)

def readMode (window : Params) : PyM WindowMode :=
  let mode := valueOr window "mode" (.str "time_range")
  match WindowMode.ofVal mode with
  | some m => pure m
  | none => featureError ("window.mode 必须是 live/time_range/cursor_range：" ++ mode.toStr)

/-- A bound of the identifiers: absent, or an integer that is not negative and no truth value. -/
def readId (window : Params) (name : String) : PyM (Option ℕ) :=
  match window.get name with
  | .none => pure none
  | .int n => if n < 0 then featureError ("window." ++ name ++ " 必须是非负整数") else pure (some n.toNat)
  | _ => featureError ("window." ++ name ++ " 必须是非负整数")

/-- A positive number that is no truth value, cut off to an integer. -/
def positive : PyVal → Option ℤ
  | .int n => if 0 < n then some n else none
  | .scaled mantissa scale => if 0 < mantissa then some (mantissa.tdiv (10 ^ scale)) else none
  | _ => none

def readTimeout (policy : Params) : PyM (Option ℤ) :=
  match policy.get "timeout_ms", positive (policy.get "timeout_ms") with
  | .none, _ => pure none
  | _, some n => pure (some n)
  | _, none => featureError "response_policy.timeout_ms 必须为正数"

def readGap (policy : Params) : PyM ℤ :=
  match positive (valueOr policy "cluster_gap_seconds" (.int 60)) with
  | some n => pure n
  | none => featureError "response_policy.cluster_gap_seconds 必须为正数"

/-- The texts without repetition and in order. -/
def readMeters (policy : Params) : PyM (List String) := do
  let listed ← (policy.get "expect_meters").orEmpty.elems
  let texts := listed.map fun a => strip a.toStr
  pure (((texts.filter (· ≠ "")).map upper).dedup.insertionSort (· ≤ ·))

/-- The window of a feature. -/
structure ReadWindow where
  mode : WindowMode
  startTime : String
  endTime : String
  startId : Option ℕ
  endId : Option ℕ

def readWindow (p : Params) : PyM ReadWindow := do
  let window ← objectOr p "window" "window 必须是 JSON 对象"
  let mode ← readMode window
  let startTime := orText (window.get "start_time")
  let endTime := orText (window.get "end_time")
  check (¬ (mode = .timeRange ∧ startTime ≠ "" ∧ endTime ≠ "" ∧ endTime < startTime))
    "window.end_time 不能早于 start_time"
  let startId ← readId window "start_id"
  let endId ← readId window "end_id"
  check (¬ (startId.any fun lo => endId.any fun hi => hi < lo)) "window.end_id 不能小于 start_id"
  pure ⟨mode, startTime, endTime, startId, endId⟩

/-- `validate_feature`. -/
def validateFeature (feature : PyVal) : PyM NormalizedFeature :=
  match feature with
  | .dict p => do
    let scope ← readScope p
    let feat ← objectOr p "feature" "feature 必须是 JSON 对象"
    let appId := upper (strip (orText (feat.get "app_id")))
    check (appId ≠ "") "feature.app_id 必填（如 0003）"
    let msgSeq ← parseHexInt (feat.get "msg_seq") "feature.msg_seq" 16
    check (¬ (scope = .flow ∧ msgSeq = none)) "flow 粒度必须提供 feature.msg_seq（配对键）"
    check (¬ (msgSeq = none ∧ appId ∉ traceAppIds))
      ("feature.app_id 不在追踪范围（0001/0002/0003/0008/0011/0020/00A1）：" ++ appId)
    let window ← readWindow p
    let rawHexContains ← normaliseHexCondition (feat.get "raw_hex_contains") "feature.raw_hex_contains"
    let nid ← parseHexInt (feat.get "nid") "feature.nid" 24
    -- the application is never empty here
    check (rawHexContains = none ∨ appId ≠ "" ∨ nid ≠ none ∨
        (window.mode = .timeRange ∧ (window.startTime ≠ "" ∨ window.endTime ≠ "")) ∨
        (window.mode = .cursorRange ∧ (window.startId ≠ none ∨ window.endId ≠ none)))
      "feature.raw_hex_contains 必须搭配 app_id、NID、时间窗或帧 ID 窗口收窄"
    let policy ← objectOr p "response_policy" "response_policy 必须是 JSON 对象"
    let timeoutMs ← readTimeout policy
    let expectMeters ← readMeters policy
    let clusterGapS ← readGap policy
    pure {
      scope := scope
      appId := appId
      msgSeq := msgSeq
      frmType := orNone (strip (orText (feat.get "frm_type")))
      dstTei := orNone (upper (strip (orText (feat.get "dst_tei"))))
      appRawContains := orNone (upper (strip (orText (feat.get "app_raw_contains"))))
      nid := nid
      channel := orNone (strip (orText (feat.get "channel")))
      startTime := window.startTime
      endTime := window.endTime
      startId := window.startId
      endId := window.endId
      windowMode := window.mode
      timeoutMs := timeoutMs
      useAckEvidence := (policy.getD "use_ack_evidence" (.bool true)).truthy
      confirmVia0x0020 := (policy.getD "confirm_via_0x0020" (.bool true)).truthy
      expectMeters := expectMeters
      rawHexContains := rawHexContains
      clusterGapS := clusterGapS
      raw := feature }
  | _ => featureError "特征必须是 JSON 对象"

/-! ## The draft of a feature -/

def seqTip (seq : ℕ) : String :=
  "该帧报文序号 0x" ++ hexPad 4 seq ++ "；将 msg_seq 留空可升级为 campaign 聚合"

def targetsTip (n : ℕ) : String := "下行载荷解析出 " ++ toString n ++ " 个目标表地址"

def uplinkTip : String := "该帧为上行帧；追踪其应答链请以对端下行帧为锚"

/-- What the application data of the frame say, where they can be read. -/
def draftExtract (summary : Dict String String) (appId : String) : Option Extract :=
  (appRaw summary).bind fun raw => extractTraceFields appId raw (summary.get? "SRC")

/-- The meters that a draft expects. -/
def draftMeters (ext : Option Extract) : List String :=
  match ext with
  | some e => if e.direction = some .down then e.targets else []
  | none => []

/-- The application that a draft names. -/
def draftApp (summary : Dict String String) : String := upper ((summary.get? "APP_ID").getD "")

/-- The message number of a draft. -/
def draftSeq (summary : Dict String String) : Option ℕ :=
  (draftExtract summary (draftApp summary)).bind Extract.msgSeq

/-- The receiver that a draft names, of a frame that the concentrator sent. -/
def draftDst (summary : Dict String String) : String :=
  if summary.get? "SRC" = some "001" then (summary.get? "DST").getD "" else ""

def draftFeat (summary : Dict String String) : Params := [
  ("frm_type", ((summary.get? "FrmType").map PyVal.str).getD .none),
  ("app_id", .str (draftApp summary)),
  ("dst_tei", .str (draftDst summary)),
  ("msg_seq", .str (((draftSeq summary).map (hexPad 4)).getD "")),
  ("app_raw_contains", .str ""), ("nid", .str ""), ("channel", .str "")]

def draftPolicy (meters : List String) : Params :=
  if meters = [] then [] else [("expect_meters", .list (meters.map PyVal.str))]

def draftTips (summary : Dict String String) (meters : List String) : List PyVal :=
  ((draftSeq summary).map fun n => .str (seqTip n)).toList ++
    (if meters = [] then [] else [.str (targetsTip meters.length)]) ++
    if summary.get? "SRC" ≠ some "001" ∧ (told (summary.get? "SRC")).isSome then [.str uplinkTip] else []

/-- The object that a draft is. -/
def draftObject (summary : Dict String String) : Params :=
  let meters := draftMeters (draftExtract summary (draftApp summary))
  [("scope", .str "round"), ("feature", .dict (draftFeat summary)),
    ("response_policy", .dict (draftPolicy meters)), ("tips", .list (draftTips summary meters))]

/-- `build_feature_hint`, of the summary of the frame. -/
def buildFeatureHint (summary : Dict String String) : Option PyVal :=
  if draftApp summary ∈ traceAppIds then some (.dict (draftObject summary)) else none

/-! ## What is accepted -/

section Accepted

theorem objectOr_dict {p d : Params} {key : String} (message : String) (h : p.get key = .dict d) :
    objectOr p key message = pure d := by
  rw [objectOr, h]
  cases d with
  | nil => rfl
  | cons e rest => rfl

/-- The parts of an object that is accepted. -/
structure Reading (p : Params) where
  scope : Scope
  feat : Params
  msgSeq : Option ℕ
  window : ReadWindow
  rawHexContains : Option String
  nid : Option ℕ
  policy : Params
  timeoutMs : Option ℤ
  expectMeters : List String
  clusterGapS : ℤ
  reads_scope : readScope p = pure scope
  reads_feat : objectOr p "feature" "feature 必须是 JSON 对象" = pure feat
  named : upper (strip (orText (feat.get "app_id"))) ≠ ""
  reads_seq : parseHexInt (feat.get "msg_seq") "feature.msg_seq" 16 = pure msgSeq
  paired : ¬ (scope = .flow ∧ msgSeq = none)
  traced : ¬ (msgSeq = none ∧ upper (strip (orText (feat.get "app_id"))) ∉ traceAppIds)
  reads_window : readWindow p = pure window
  reads_hex : normaliseHexCondition (feat.get "raw_hex_contains") "feature.raw_hex_contains" =
    pure rawHexContains
  reads_nid : parseHexInt (feat.get "nid") "feature.nid" 24 = pure nid
  reads_policy : objectOr p "response_policy" "response_policy 必须是 JSON 对象" = pure policy
  reads_timeout : readTimeout policy = pure timeoutMs
  reads_meters : readMeters policy = pure expectMeters
  reads_gap : readGap policy = pure clusterGapS

/-- The form that they are put into. -/
def Reading.feature {p : Params} (r : Reading p) : NormalizedFeature where
  scope := r.scope
  appId := upper (strip (orText (r.feat.get "app_id")))
  msgSeq := r.msgSeq
  frmType := orNone (strip (orText (r.feat.get "frm_type")))
  dstTei := orNone (upper (strip (orText (r.feat.get "dst_tei"))))
  appRawContains := orNone (upper (strip (orText (r.feat.get "app_raw_contains"))))
  nid := r.nid
  channel := orNone (strip (orText (r.feat.get "channel")))
  startTime := r.window.startTime
  endTime := r.window.endTime
  startId := r.window.startId
  endId := r.window.endId
  windowMode := r.window.mode
  timeoutMs := r.timeoutMs
  useAckEvidence := (r.policy.getD "use_ack_evidence" (.bool true)).truthy
  confirmVia0x0020 := (r.policy.getD "confirm_via_0x0020" (.bool true)).truthy
  expectMeters := r.expectMeters
  rawHexContains := r.rawHexContains
  clusterGapS := r.clusterGapS
  raw := .dict p

theorem check_eq_ok {ok : Prop} [Decidable ok] {message : String} :
    check ok message = pure () ↔ ok := by
  by_cases h : ok
  · rw [check, if_pos h]
    exact iff_of_true rfl h
  · rw [check, if_neg h]
    exact iff_of_false (fun hok => by cases hok) h

/-- An object is accepted as what its parts are read as. -/
theorem validate_iff {p : Params} {nf : NormalizedFeature} :
    validateFeature (.dict p) = pure nf ↔ ∃ r : Reading p, nf = r.feature := by
  constructor
  · intro h
    obtain ⟨scope, hscope, h⟩ := bind_eq_ok h
    obtain ⟨feat, hfeat, h⟩ := bind_eq_ok h
    obtain ⟨_, hnamed, h⟩ := bind_eq_ok h
    obtain ⟨msgSeq, hseq, h⟩ := bind_eq_ok h
    obtain ⟨_, hpaired, h⟩ := bind_eq_ok h
    obtain ⟨_, htraced, h⟩ := bind_eq_ok h
    obtain ⟨window, hwindow, h⟩ := bind_eq_ok h
    obtain ⟨rawHex, hhex, h⟩ := bind_eq_ok h
    obtain ⟨nid, hnid, h⟩ := bind_eq_ok h
    obtain ⟨_, -, h⟩ := bind_eq_ok h
    obtain ⟨policy, hpolicy, h⟩ := bind_eq_ok h
    obtain ⟨timeoutMs, htimeout, h⟩ := bind_eq_ok h
    obtain ⟨meters, hmeters, h⟩ := bind_eq_ok h
    obtain ⟨gap, hgap, h⟩ := bind_eq_ok h
    exact ⟨⟨scope, feat, msgSeq, window, rawHex, nid, policy, timeoutMs, meters, gap, hscope, hfeat,
      check_eq_ok.mp hnamed, hseq, check_eq_ok.mp hpaired, check_eq_ok.mp htraced, hwindow, hhex, hnid,
      hpolicy, htimeout, hmeters, hgap⟩, (Except.ok.inj h).symm⟩
  · rintro ⟨r, rfl⟩
    have hnarrowed : r.rawHexContains = none ∨ upper (strip (orText (r.feat.get "app_id"))) ≠ "" ∨
        r.nid ≠ none ∨
        (r.window.mode = .timeRange ∧ (r.window.startTime ≠ "" ∨ r.window.endTime ≠ "")) ∨
        (r.window.mode = .cursorRange ∧ (r.window.startId ≠ none ∨ r.window.endId ≠ none)) :=
      Or.inr (Or.inl r.named)
    rw [validateFeature, r.reads_scope, pure_bind, r.reads_feat, pure_bind]
    dsimp only
    rw [check_eq_ok.mpr r.named, pure_bind, r.reads_seq, pure_bind, check_eq_ok.mpr r.paired, pure_bind,
      check_eq_ok.mpr r.traced, pure_bind, r.reads_window, pure_bind, r.reads_hex, pure_bind,
      r.reads_nid, pure_bind, check_eq_ok.mpr hnarrowed, pure_bind, r.reads_policy, pure_bind,
      r.reads_timeout, pure_bind, r.reads_meters, pure_bind, r.reads_gap]
    rfl

end Accepted

/-! ## Drafts are accepted -/

section Drafts
variable {summary : Dict String String} {hint : PyVal}

theorem orText_str (s : String) : orText (.str s) = s := by
  rw [orText, PyVal.truthy, PyVal.toStr]
  by_cases h : s = ""
  · rw [h]
    rfl
  · rw [if_pos (decide_eq_true h)]

theorem strip_plain {s : String} (h : ∀ c ∈ s.toList, pySpace c = false) : strip s = s := by
  rw [strip, pyStrip_eq_self h, String.ofList_toList]

theorem orText_text (text : Option String) :
    orText ((text.map PyVal.str).getD .none) = text.getD "" := by
  cases text with
  | none => rfl
  | some s => exact orText_str s

theorem strip_hexPad (w n : ℕ) : strip (hexPad w n) = hexPad w n := by
  refine strip_plain fun c hc => ?_
  rw [hexPad_eq, String.toList_ofList] at hc
  exact (plainDigit_padded _ _ c hc).noSpace

theorem hexPad_ne_empty (w n : ℕ) : hexPad w n ≠ "" := by
  intro hempty
  have hlist := congrArg String.toList hempty
  rw [hexPad_eq, String.toList_ofList] at hlist
  exact paddedDigits_ne_nil _ _ hlist

theorem parse_seq (seq : Option ℕ) (name : String) (bits : ℕ) :
    parseHexInt (.str ((seq.map (hexPad 4)).getD "")) name bits =
      if seq.all (· < 2 ^ bits) then pure seq
      else featureError (name ++ " 超出 " ++ toString bits ++ "bit 范围：" ++
        (seq.map (hexPad 4)).getD "") := by
  cases seq with
  | none => rfl
  | some n =>
      have hrange : (0 ≤ (n : ℤ) ∧ (n : ℤ) < 2 ^ bits) ↔ (some n).all (· < 2 ^ bits) = true := by
        rw [Option.all_some, decide_eq_true_eq, and_iff_right (Int.natCast_nonneg n)]
        exact_mod_cast Iff.rfl
      rw [parseHexInt, Option.map_some, Option.getD_some, orText_str, strip_hexPad,
        hexTextValue_hexPad]
      simp only [if_neg (hexPad_ne_empty 4 n), Option.orElse_some, if_congr hrange rfl rfl]
      rfl

theorem strip_app {appId : String} (h : appId ∈ traceAppIds) : upper (strip appId) = appId := by
  simp only [traceAppIds, List.mem_cons, List.not_mem_nil, or_false] at h
  rcases h with rfl | rfl | rfl | rfl | rfl | rfl | rfl <;> decide

theorem readMeters_draft (meters : List String) :
    readMeters (draftPolicy meters) =
      pure ((((meters.map strip).filter (· ≠ "")).map upper).dedup.insertionSort (· ≤ ·)) := by
  rw [readMeters, draftPolicy]
  split_ifs with hnil
  · rw [hnil]
    rfl
  · have hget : Params.get [("expect_meters", PyVal.list (meters.map PyVal.str))] "expect_meters" =
        .list (meters.map PyVal.str) := by
      simp [Params.get]
    have hfull : (PyVal.list (meters.map PyVal.str)).truthy = true := by
      simpa [PyVal.truthy] using hnil
    rw [hget, PyVal.orEmpty, if_pos hfull, PyVal.elems, pure_bind, List.map_map]
    rfl

theorem hint_eq_some : buildFeatureHint summary = some hint ↔
    draftApp summary ∈ traceAppIds ∧ .dict (draftObject summary) = hint := by
  rw [buildFeatureHint, Option.ite_none_right_eq_some, Option.some.injEq]

/-- The parts of a draft. -/
def draftReading (hin : draftApp summary ∈ traceAppIds)
    (hsmall : (draftSeq summary).all (· < 2 ^ 16) = true) : Reading (draftObject summary) :=
  have happ : upper (strip (orText ((draftFeat summary).get "app_id"))) = draftApp summary := by
    have hget : (draftFeat summary).get "app_id" = .str (draftApp summary) := by
      simp [Params.get, draftFeat, List.lookup_cons]
    rw [hget, orText_str, strip_app hin]
  have hne : draftApp summary ≠ "" := fun hempty => absurd (hempty ▸ hin) (by decide)
  { scope := .round
    feat := draftFeat summary
    msgSeq := draftSeq summary
    window := ⟨.timeRange, "", "", none, none⟩
    rawHexContains := none
    nid := none
    policy := draftPolicy (draftMeters (draftExtract summary (draftApp summary)))
    timeoutMs := none
    expectMeters := ((((draftMeters (draftExtract summary (draftApp summary))).map strip).filter
      (· ≠ "")).map upper).dedup.insertionSort (· ≤ ·)
    clusterGapS := 60
    reads_scope := by
      simp [readScope, valueOr, Params.get, draftObject, PyVal.truthy, Scope.ofVal]
    reads_feat := objectOr_dict _ (by simp [Params.get, draftObject, List.lookup_cons])
    named := by rwa [happ]
    reads_seq := by
      have hget : (draftFeat summary).get "msg_seq" =
          .str (((draftSeq summary).map (hexPad 4)).getD "") := by
        simp [Params.get, draftFeat, List.lookup_cons]
      rw [hget, parse_seq, if_pos hsmall]
    paired := fun h => Scope.noConfusion h.1
    traced := fun h => h.2 (happ ▸ hin)
    reads_window := by
      have hget : (draftObject summary).get "window" = .none := by
        simp [Params.get, draftObject, List.lookup_cons]
      rw [readWindow, objectOr, hget]
      rfl
    reads_hex := by
      have hget : (draftFeat summary).get "raw_hex_contains" = .none := by
        simp [Params.get, draftFeat, List.lookup_cons]
      rw [hget]
      rfl
    reads_nid := by
      have hget : (draftFeat summary).get "nid" = .str "" := by
        simp [Params.get, draftFeat, List.lookup_cons]
      rw [hget]
      rfl
    reads_policy := objectOr_dict _ (by simp [Params.get, draftObject, List.lookup_cons])
    reads_timeout := by
      have hget : (draftPolicy (draftMeters (draftExtract summary (draftApp summary)))).get
          "timeout_ms" = .none := by
        rw [draftPolicy]
        split_ifs <;> simp [Params.get, List.lookup_cons]
      rw [readTimeout, hget]
    reads_meters := readMeters_draft _
    reads_gap := by
      have hget : (draftPolicy (draftMeters (draftExtract summary (draftApp summary)))).get
          "cluster_gap_seconds" = .none := by
        rw [draftPolicy]
        split_ifs <;> simp [Params.get, List.lookup_cons]
      rw [readGap, valueOr, hget]
      rfl }

end Drafts

/-! ## A draft finds its frame -/

section Finding
variable {summary : Dict String String} {hint : PyVal} {row : Row}

theorem reading_draft (r : Reading (draftObject summary)) : r.feat = draftFeat summary := by
  have hfeat : objectOr (draftObject summary) "feature" "feature 必须是 JSON 对象" =
      pure (draftFeat summary) :=
    objectOr_dict _ (by simp [Params.get, draftObject, List.lookup_cons])
  exact Except.ok.inj (r.reads_feat.symm.trans hfeat)

theorem draft_seq (r : Reading (draftObject summary)) :
    (draftSeq summary).all (· < 2 ^ 16) = true ∧ r.msgSeq = draftSeq summary := by
  have hseq := r.reads_seq
  have hget : (draftFeat summary).get "msg_seq" = .str (((draftSeq summary).map (hexPad 4)).getD "") := by
    simp [Params.get, draftFeat, List.lookup_cons]
  rw [reading_draft, hget, parse_seq] at hseq
  by_cases hsmall : (draftSeq summary).all (· < 2 ^ 16) = true
  · rw [if_pos hsmall] at hseq
    exact ⟨hsmall, (Except.ok.inj hseq).symm⟩
  · rw [if_neg hsmall] at hseq
    cases hseq

/-- What an accepted draft asks the frames for. -/
theorem query_draft (hin : draftApp summary ∈ traceAppIds) (r : Reading (draftObject summary)) :
    r.feature.query = {
      appId := draftApp summary
      msgSeq := draftSeq summary
      frmType := orNone (strip ((summary.get? "FrmType").getD ""))
      dstTei := orNone (upper (strip (draftDst summary)))
      window := .timeRange "" "" } := by
  obtain ⟨hsmall, hseq⟩ := draft_seq r
  have hfeat := reading_draft r
  have hwindow : r.window = (draftReading hin hsmall).window :=
    Except.ok.inj (r.reads_window.symm.trans (draftReading hin hsmall).reads_window)
  have hhex : r.rawHexContains = none :=
    Except.ok.inj (r.reads_hex.symm.trans (hfeat ▸ (draftReading hin hsmall).reads_hex))
  have hnid : r.nid = none :=
    Except.ok.inj (r.reads_nid.symm.trans (hfeat ▸ (draftReading hin hsmall).reads_nid))
  have happ : (draftFeat summary).get "app_id" = .str (draftApp summary) := by
    simp [Params.get, draftFeat, List.lookup_cons]
  have hfrm : (draftFeat summary).get "frm_type" =
      ((summary.get? "FrmType").map PyVal.str).getD .none := by
    simp [Params.get, draftFeat]
  have hdst : (draftFeat summary).get "dst_tei" = .str (draftDst summary) := by
    simp [Params.get, draftFeat, List.lookup_cons]
  have hraw : (draftFeat summary).get "app_raw_contains" = .str "" := by
    simp [Params.get, draftFeat, List.lookup_cons]
  have hchannel : (draftFeat summary).get "channel" = .str "" := by
    simp [Params.get, draftFeat, List.lookup_cons]
  rw [NormalizedFeature.query, NormalizedFeature.window, Reading.feature]
  simp only [hwindow, hhex, hnid, hseq, hfeat, happ, hfrm, hdst, hraw, hchannel, orText_str, orText_text,
    strip_app hin]
  rfl

/-- A bare acknowledgement has no columns of an application. -/
def BareAck (row : Row) : Prop :=
  capitals row.summary "SRC" = none ∧ row.summary.get? "FrmType" = some "ACK" ∧ row.rawHex ≠ ""

/-- The concentrator hands on to another receiver what another station sent first. -/
def HandedOn (summary : Dict String String) : Prop :=
  summary.get? "SRC" = some "001" ∧ (∃ ori, capitals summary "ORI_S" = some ori ∧ ori ≠ "001") ∧
    ∃ dst, capitals summary "DST" = some dst ∧ dst ≠ "001"

/-- A text of the summary has no blanks around it. -/
def Trimmed (summary : Dict String String) (key : String) : Prop :=
  ∀ text, summary.get? key = some text → strip text = text

theorem orNone_upper (text : Option String) :
    orNone (upper (text.getD "")) = (told text).map upper := by
  have hempty : orNone (upper "") = none := rfl
  cases text with
  | none => exact hempty
  | some s =>
      by_cases h : s = ""
      · rw [h]
        rfl
      · rw [Option.getD_some, orNone, if_neg (upper_ne_empty h), told_eq_some.mpr ⟨rfl, h⟩]
        rfl

theorem getD_trimmed {key : String} (htrim : Trimmed summary key) :
    strip ((summary.get? key).getD "") = (summary.get? key).getD "" := by
  cases h : summary.get? key with
  | none => rfl
  | some text => exact htrim text h

theorem draft_dst (htrim : Trimmed summary "DST") :
    orNone (upper (strip (draftDst summary))) =
      if summary.get? "SRC" = some "001" then capitals summary "DST" else none := by
  rw [draftDst]
  split_ifs with hsrc
  · rw [getD_trimmed htrim, orNone_upper, capitals]
  · rfl

/-- The columns of a frame that is no bare acknowledgement. -/
theorem material_sta (hbare : ¬ BareAck row) :
    (traceMaterial row.summary row.rawHex).staTei =
      if capitals row.summary "ORI_S" = some "001" ∨
          (capitals row.summary "ORI_S" = none ∧ capitals row.summary "SRC" = some "001") then
        capitals row.summary "DST"
      else (capitals row.summary "SRC").or (capitals row.summary "ORI_S") := by
  rw [BareAck] at hbare
  rw [traceMaterial, if_neg hbare]
  cases capitals row.summary "APP_ID" with
  | none => rfl
  | some appId =>
      dsimp only
      generalize (if appId ∈ traceAppIds then _ else none : Option Extract) = ext
      cases ext <;> rfl

theorem draft_named (hin : draftApp summary ∈ traceAppIds) : draftApp summary ≠ "" := by
  intro hempty
  rw [hempty] at hin
  exact absurd hin (by decide)

theorem capitals_app (hin : draftApp summary ∈ traceAppIds) :
    capitals summary "APP_ID" = some (draftApp summary) := by
  rw [draftApp] at hin ⊢
  have hne : summary.get? "APP_ID" ≠ none ∧ summary.get? "APP_ID" ≠ some "" := by
    constructor <;> intro h <;> rw [h] at hin <;> exact absurd hin (by decide)
  obtain ⟨text, htext⟩ := Option.ne_none_iff_exists'.mp hne.1
  have htold : told (summary.get? "APP_ID") = some text :=
    told_eq_some.mpr ⟨htext, fun h => hne.2 (h ▸ htext)⟩
  rw [capitals, htold, htext]
  rfl

theorem material_id (hin : draftApp row.summary ∈ traceAppIds) :
    (traceMaterial row.summary row.rawHex).appId = draftApp row.summary ↔ ¬ BareAck row := by
  rw [BareAck]
  constructor
  · intro h hbare
    rw [traceMaterial, if_pos hbare] at h
    have hempty : draftApp row.summary = "" := h.symm
    rw [hempty] at hin
    exact absurd hin (by decide)
  · intro hbare
    rw [traceMaterial, if_neg hbare, capitals_app hin]
    dsimp only
    generalize (if draftApp row.summary ∈ traceAppIds then _ else none : Option Extract) = ext
    cases ext <;> rfl

theorem extracted_draft (hin : draftApp summary ∈ traceAppIds) :
    (extracted summary (draftApp summary)).bind Extract.msgSeq = draftSeq summary := by
  rw [extracted, if_pos hin, draftSeq, draftExtract]

theorem capitals_source (h : summary.get? "SRC" = some "001") :
    capitals summary "SRC" = some "001" := by
  rw [capitals, h]
  decide

/-- The receiver that a draft asks for stands in the columns, unless the frame was handed on. -/
theorem dst_draft (hbare : ¬ BareAck row) :
    (∀ t ∈ (if row.summary.get? "SRC" = some "001" then capitals row.summary "DST" else none),
      (traceMaterial row.summary row.rawHex).staTei = some t) ↔ ¬ HandedOn row.summary := by
  rw [material_sta hbare, HandedOn]
  by_cases hsrc : row.summary.get? "SRC" = some "001"
  · rw [if_pos hsrc, capitals_source hsrc]
    cases hdst : capitals row.summary "DST" with
    | none => simp
    | some dst =>
        cases hori : capitals row.summary "ORI_S" with
        | none => simp
        | some ori =>
            by_cases hcentral : ori = "001"
            · simp [hcentral]
            · simp [hcentral, hsrc, eq_comm]
  · rw [if_neg hsrc]
    simp [hsrc]

theorem takes_draft (hin : draftApp row.summary ∈ traceAppIds) (hfilled : row.Filled)
    (hfrm : Trimmed row.summary "FrmType") (hdst : Trimmed row.summary "DST")
    (r : Reading (draftObject row.summary)) :
    r.feature.query.takes (fun _ => true) row = true ↔ ¬ BareAck row ∧ ¬ HandedOn row.summary := by
  rw [query_draft hin r, getD_trimmed hfrm, draft_dst hdst]
  have hkeeps : ∀ (q : FrameQuery), q.frmType = orNone ((row.summary.get? "FrmType").getD "") →
      q.channel = none → q.appRawContains = none → q.rawHexContains = none → q.keeps row = true := by
    intro q hfrmType hchannel hraw hhex
    rw [FrameQuery.keeps, hfrmType, hchannel, hraw, hhex]
    cases h : row.summary.get? "FrmType" with
    | none => rfl
    | some text =>
        rw [Option.getD_some, orNone]
        split_ifs <;> simp
  rw [FrameQuery.takes, hkeeps _ rfl rfl rfl rfl, FrameQuery.selects, Row.column, Row.column, hfilled]
  have hid := material_id hin
  by_cases hbare : BareAck row
  · have hother : (traceMaterial row.summary row.rawHex).appId ≠ draftApp row.summary :=
      fun h => hid.mp h hbare
    simp [hother, hbare]
  · have hsame := hid.mpr hbare
    have hne := draft_named hin
    obtain ⟨-, hseq, -⟩ := material_app hsame hne
    rw [extracted_draft hin] at hseq
    rw [← dst_draft hbare]
    simp only [Option.map_some, Option.bind_some, hsame, hseq, extracted_draft hin]
    have hown : ((draftSeq row.summary).all fun n => decide (draftSeq row.summary = some n)) = true := by
      cases draftSeq row.summary <;> simp
    have hcolumn : ((draftSeq row.summary).all fun n =>
        (draftSeq row.summary).all fun m => decide (m = n)) = true := by
      cases draftSeq row.summary <;> simp
    rw [hown, hcolumn]
    simp [hbare, Option.all_eq_true]

/-- The draft of a frame is refused where its message number has more than sixteen bits. A trace for it
finds the frame it was drafted from, unless the frame is a bare acknowledgement or the concentrator
handed it on for another station. -/
theorem draft_finds_frame (hhint : buildFeatureHint row.summary = some hint) (hfilled : row.Filled)
    (hfrm : Trimmed row.summary "FrmType") (hdst : Trimmed row.summary "DST") :
    ((∃ nf, validateFeature hint = pure nf) ↔ ∀ seq ∈ draftSeq row.summary, seq < 2 ^ 16) ∧
      ∀ nf, validateFeature hint = pure nf →
        ∀ (rows : List Row) (like : Row → Bool) (ready : Bool), row ∈ rows →
          (rows.map Row.id).Nodup → (∀ r ∈ rows, r.columns = none ∨ r.Filled) →
          ∃ frames, loadFrames nf.query like ready rows = pure frames ∧
            (row.id ∈ frames.map Frame.frameId ↔ ¬ BareAck row ∧ ¬ HandedOn row.summary) := by
  obtain ⟨hin, rfl⟩ := hint_eq_some.mp hhint
  refine ⟨?_, ?_⟩
  · have hsmall : (draftSeq row.summary).all (· < 2 ^ 16) = true ↔
        ∀ seq ∈ draftSeq row.summary, seq < 2 ^ 16 := by
      cases draftSeq row.summary <;> simp
    rw [← hsmall]
    constructor
    · rintro ⟨nf, hnf⟩
      obtain ⟨r, -⟩ := validate_iff.mp hnf
      exact (draft_seq r).1
    · intro hall
      exact ⟨_, validate_iff.mpr ⟨draftReading hin hall, rfl⟩⟩
  · intro nf hnf rows like ready hmem hnodup hrows
    obtain ⟨r, rfl⟩ := validate_iff.mp hnf
    have hquery := query_draft hin r
    have hwindow : r.feature.query.window.holds = pure fun _ => true := by
      rw [hquery]
      rfl
    have hne : r.feature.query.appId ≠ "" := by
      rw [hquery]
      exact draft_named hin
    refine ⟨_, loadFrames_eq hwindow hne hrows, ?_⟩
    rw [← takes_draft hin hfilled hfrm hdst r, List.map_map, List.mem_map]
    constructor
    · rintro ⟨other, hother, hid⟩
      obtain ⟨hin', htakes⟩ := List.mem_filter.mp hother
      obtain rfl : other = row := List.inj_on_of_nodup_map hnodup hin' hmem hid
      exact htakes
    · intro htakes
      exact ⟨row, List.mem_filter.mpr ⟨hmem, htakes⟩, rfl⟩

theorem oldRow_trimmed : Trimmed oldRow.fresh.summary "FrmType" ∧ Trimmed oldRow.fresh.summary "DST" := by
  constructor <;> intro text htext <;> cases htext

theorem draft_finds_frame_old :
    ((∃ nf, validateFeature (.dict (draftObject oldRow.fresh.summary)) = pure nf) ↔
        ∀ seq ∈ draftSeq oldRow.fresh.summary, seq < 2 ^ 16) ∧
      ∀ nf, validateFeature (.dict (draftObject oldRow.fresh.summary)) = pure nf →
        ∀ (rows : List Row) (like : Row → Bool) (ready : Bool), oldRow.fresh ∈ rows →
          (rows.map Row.id).Nodup → (∀ r ∈ rows, r.columns = none ∨ r.Filled) →
          ∃ frames, loadFrames nf.query like ready rows = pure frames ∧
            (oldRow.fresh.id ∈ frames.map Frame.frameId ↔
              ¬ BareAck oldRow.fresh ∧ ¬ HandedOn oldRow.fresh.summary) := by
  have hin : draftApp oldRow.fresh.summary ∈ traceAppIds := by decide +kernel
  exact draft_finds_frame (hint_eq_some.mpr ⟨hin, rfl⟩) rfl oldRow_trimmed.1 oldRow_trimmed.2

end Finding

end HplcWorkbench.Trace
