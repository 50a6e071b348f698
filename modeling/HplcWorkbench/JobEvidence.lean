import HplcWorkbench.InvestigationJob

/-!
# Evidence of a job

The evidence of a job shows its observations at level L2, each frame of the listener with a reference,
and returns whole frames at level L3 for the references of the job. The references that are shown are
made from the results of each kind; those that are allowed are made from the matches of a result, which
the result of the minute periods does not have.

The length of the JSON text is left open, and so is the archive of the frames.
-/

namespace HplcWorkbench.JobEvidence
open Adapter10376 (pyStrip)
open ListenerLog (digitsInt)

/-! ## Results of observations -/

/-- The registry names an index `idx-` and a time, or `legacy-log-index`. -/
abbrev IndexId := {s : String // s ≠ "" ∧ ':' ∉ s.toList}

/-- `frame_key`. -/
structure FrameKey where
  indexId : IndexId
  frameId : ℕ
  deriving DecidableEq

/-- An entry of `matches` or of the `reports` of a period, with what else it holds. -/
structure FrameEntry where
  key : FrameKey
  fields : Params

/-- What the evidence reads in the result of a listener observation; a key that is missing is `none`. -/
structure ListenerFindings where
  indexId : Option IndexId := none
  matched : Option (List FrameEntry) := none
  trace : Option Params := none
  periods : Option (List (List FrameEntry)) := none

/-- The keys of `_listener_result`. -/
def listenerResult (indexId : IndexId) (selected : List FrameEntry) : ListenerFindings :=
  { indexId := some indexId, matched := some selected }

/-- The keys of `_trace_query_result`. -/
def traceQueryResult (indexId : IndexId) (frames : List FrameEntry) (trace : Params) : ListenerFindings :=
  { indexId := some indexId, matched := some (frames.take 50), trace := some trace }

/-- The keys of `_minute_periods_result`. -/
def minutePeriodsResult (indexId : IndexId) (periods : List (List FrameEntry)) : ListenerFindings :=
  { indexId := some indexId, periods := some periods }

/-- An observation of the listener, with what it found; one that failed has no result. -/
inductive ListenerRun
  | frameQuery (indexId : IndexId) (selected : List FrameEntry)
  | traceQuery (indexId : IndexId) (frames : List FrameEntry) (trace : Params)
  | minutePeriods (indexId : IndexId) (periods : List (List FrameEntry))
  | failed

def ListenerRun.found : ListenerRun → ListenerFindings
  | .frameQuery indexId selected => listenerResult indexId selected
  | .traceQuery indexId frames trace => traceQueryResult indexId frames trace
  | .minutePeriods indexId periods => minutePeriodsResult indexId periods
  | .failed => {}

/-- `item["result"] or {}`, by the source of the observation. -/
inductive Findings
  | moduleLog (conditionMet reason : PyVal) (snippet : List PyVal) (artifactId : Option String)
  | listener (run : ListenerRun) (artifactId : Option String)
  | simcon (page : Option Control.FramePage)

/-- An observation of a finished job. -/
structure ObservedItem where
  operationId : Option String
  error : Option String
  findings : Findings

/-! ## References -/

inductive SourceKind
  | moduleLog
  | listener
  | simcon
  deriving DecidableEq, Repr

structure EvidenceRef where
  source : SourceKind
  evidenceId : Option String := none
  rawRef : Option String := none
  indexId : Option IndexId := none
  frameId : Option ℕ := none
  operationId : Option String
  deriving DecidableEq

/-- `result.get("matches") or []`. -/
def ListenerFindings.entries (found : ListenerFindings) : List FrameEntry := found.matched.getD []

/-- `_refs` of an item. -/
def itemRefs (item : ObservedItem) : List EvidenceRef :=
  match item.findings with
  | .moduleLog _ _ _ artifactId =>
    [{ source := .moduleLog, evidenceId := artifactId, operationId := item.operationId }]
  | .listener run _ =>
    if run.found.entries ≠ [] then
      (run.found.entries.take 50).map fun entry =>
        { source := .listener, indexId := some entry.key.indexId, frameId := some entry.key.frameId,
          operationId := item.operationId }
    else [{ source := .listener, indexId := run.found.indexId, operationId := item.operationId }]
  | .simcon _ => [{ source := .simcon, rawRef := some "simcon:frames", operationId := item.operationId }]

/-- `_refs`. -/
def refs (results : List ObservedItem) : List EvidenceRef := results.flatMap itemRefs

/-- `listener:<index_id>:<frame_id>`. -/
def refText (key : FrameKey) : String := "listener:" ++ key.indexId.1 ++ ":" ++ toString key.frameId

/-! ## Level L2 -/

/-- `_strip_paths`. -/
def isPathKey (key : String) : Bool :=
  String.ofList (key.toList.map Char.toLower) ∈ ["path", "source_log_path", "log_path"]

mutual

def stripPaths : PyVal → PyVal
  | .dict entries => .dict (stripEntries entries)
  | .list items => .list ((stripItems items).take 50)
  | v => v

def stripItems : List PyVal → List PyVal
  | [] => []
  | v :: rest => stripPaths v :: stripItems rest

def stripEntries : List (String × PyVal) → List (String × PyVal)
  | [] => []
  | (key, v) :: rest => if isPathKey key then stripEntries rest else (key, stripPaths v) :: stripEntries rest

end

/-- A frame in the evidence, with its reference. -/
structure FrameEvidence where
  key : FrameKey
  ref : String
  fields : Params

inductive EvidenceData
  | moduleLog (conditionMet reason : PyVal) (snippet : List PyVal)
  | listener (indexId : Option IndexId) (frames : List FrameEvidence) (reason : Option String)
  | simcon (result : Params)

structure EvidenceItem where
  source : SourceKind
  evidenceId : Option String
  data : EvidenceData

def frameEvidence (fields : FrameEntry → Params) (entry : FrameEntry) : FrameEvidence where
  key := entry.key
  ref := refText entry.key
  fields := stripEntries (fields entry)

def pick (keys : List String) (entry : FrameEntry) : Params := keys.map fun key => (key, Params.get entry.fields key)

/-- What a frame of `minute_periods` is shown with. -/
def reportFields : List String :=
  ["log_time", "freeze_time", "response_result", "source_mac", "source_tei", "report_count", "data_length",
    "application_error"]

/-- What a frame of `trace_query` is shown with. -/
def traceFields : List String :=
  ["log_time", "direction", "role", "frm_type", "nid", "src", "dst", "ori_s", "ch_type", "app_id", "msg_seq",
    "flow_dir", "meter_addrs", "detail_url"]

/-- What a frame of `frame_query` is shown with. -/
def queryFields (entry : FrameEntry) : Params :=
  let summary :=
    match Params.get entry.fields "summary" with
    | .dict entries => entries
    | _ => []
  [("log_time", Params.get entry.fields "log_time"), ("frm_type", Params.get summary "FrmType"),
    ("detail_url", Params.get entry.fields "detail_url")]

/-- `_listener_evidence_projection` at L2: the kind of the result is told by its keys. -/
def listenerFrames (found : ListenerFindings) : List FrameEvidence :=
  match found.periods, found.trace with
  | some periods, _ => (periods.flatten.map (frameEvidence (pick reportFields))).take 50
  | none, some _ => (found.entries.map (frameEvidence (pick traceFields))).take 50
  | none, none => (found.entries.map (frameEvidence queryFields)).take 50

/-- `_evidence_item` at L2. -/
def evidenceItem (item : ObservedItem) : EvidenceItem :=
  let errorText := (item.error.filter (· ≠ ""))
  match item.findings with
  | .moduleLog conditionMet reason snippet artifactId =>
    { source := .moduleLog, evidenceId := artifactId
      data := .moduleLog (stripPaths conditionMet)
        (stripPaths (if reason.truthy then reason else (errorText.map PyVal.str).getD reason))
        ((stripItems (snippet.take 50)).take 50) }
  | .listener run artifactId =>
    { source := .listener, evidenceId := artifactId
      data := .listener run.found.indexId (listenerFrames run.found) errorText }
  | .simcon page =>
    { source := .simcon, evidenceId := none
      data := .simcon (stripEntries ((page.map Control.FramePage.params).getD [] ++
        errorText.toList.map fun text => ("reason", .str text))) }

/-- The last entry of the list field that is cut first, if it has one. -/
def EvidenceData.cut : EvidenceData → Option EvidenceData
  | .moduleLog conditionMet reason snippet =>
    if snippet ≠ [] then some (.moduleLog conditionMet reason snippet.dropLast) else none
  | .listener indexId frames reason =>
    if frames ≠ [] then some (.listener indexId frames.dropLast reason) else none
  | .simcon _ => none

/-- A round of `_bound_items_to`: the last item loses an entry, or goes. -/
def cutLast (items : List EvidenceItem) : List EvidenceItem :=
  match items.getLast? with
  | none => []
  | some last =>
    match last.data.cut with
    | some data => items.dropLast ++ [{ last with data := data }]
    | none => items.dropLast

/-- The items, with the entries that can be cut. -/
def EvidenceData.weight : EvidenceData → ℕ
  | .moduleLog _ _ snippet => snippet.length
  | .listener _ frames _ => frames.length
  | .simcon _ => 0

def weight (items : List EvidenceItem) : ℕ := (items.map fun item => item.data.weight + 1).sum

theorem EvidenceData.weight_cut {data data' : EvidenceData} (h : data.cut = some data') :
    data'.weight < data.weight := by
  cases data with
  | moduleLog conditionMet reason snippet =>
    rw [EvidenceData.cut] at h
    split at h
    · rename_i hne
      obtain rfl := Option.some.inj h
      have hpos := List.length_pos_iff.mpr hne
      rw [EvidenceData.weight, EvidenceData.weight, List.length_dropLast]
      omega
    · cases h
  | listener indexId frames reason =>
    rw [EvidenceData.cut] at h
    split at h
    · rename_i hne
      obtain rfl := Option.some.inj h
      have hpos := List.length_pos_iff.mpr hne
      rw [EvidenceData.weight, EvidenceData.weight, List.length_dropLast]
      omega
    · cases h
  | simcon result => cases h

theorem weight_cutLast {items : List EvidenceItem} (h : items ≠ []) : weight (cutLast items) < weight items := by
  have hlast := List.getLast?_eq_getLast_of_ne_nil h
  have hsplit : weight items = weight items.dropLast + ((items.getLast h).data.weight + 1) := by
    conv_lhs => rw [← List.dropLast_append_getLast h]
    simp [weight]
  rw [cutLast, hlast]
  dsimp only
  split
  · rename_i data hdata
    have hcut := EvidenceData.weight_cut hdata
    simp only [weight, List.map_append, List.sum_append, List.map_cons, List.map_nil, List.sum_cons,
      List.sum_nil] at hsplit ⊢
    omega
  · omega

section Bound
variable (size : List EvidenceItem → ℕ) (maxBytes : ℕ)

/-- The loop of `_bound_items_to`. -/
def shrink (items : List EvidenceItem) : List EvidenceItem :=
  if maxBytes < size items then
    if _h : items = [] then [] else shrink (cutLast items)
  else items
termination_by weight items
decreasing_by exact weight_cutLast _h

/-- `_bound_items_to`. -/
def boundItemsTo (items : List EvidenceItem) : List EvidenceItem := (shrink size maxBytes items).take 50

end Bound

/-- `_L2_MAX_BYTES`. -/
def l2MaxBytes : ℕ := 16 * 1024

/-- The items of `read_job_evidence` at L2; `size` is the length of the JSON text. -/
def l2Items (size : List EvidenceItem → ℕ) (results : List ObservedItem) : List EvidenceItem :=
  boundItemsTo size l2MaxBytes (results.map evidenceItem)

/-! ## Level L3 -/

inductive EvidenceError
  | invalidObservation (message : String)
  | refForbidden (message : String)
  /-- what the archive raises for a frame -/
  | frame (message : String)
  deriving DecidableEq, Repr

/-- The index and the frame of a reference, as `_LISTENER_REF_RE` reads them. -/
def parseRef (text : List Char) : Option (String × ℕ) :=
  if text.take 9 = "listener:".toList then
    match (text.drop 9).span (· ≠ ':') with
    | (indexId, ':' :: digits) =>
      if indexId ≠ [] ∧ digits ≠ [] then (digitsInt digits).map fun n => (String.ofList indexId, n) else none
    | _ => none
  else none

/-- The frames that a job allows. -/
def allowed (evidenceRefs : List EvidenceRef) : List String :=
  evidenceRefs.filterMap fun ref =>
    match ref.source, ref.indexId, ref.frameId with
    | .listener, some indexId, some frameId => some (refText ⟨indexId, frameId⟩)
    | _, _, _ => none

/-- A whole frame. -/
structure WholeFrame where
  ref : String
  indexId : String
  frameId : ℕ
  fields : Params
  traceLink : String

/-- One round of `_l3_items`. -/
def l3Item (frameDetail : String → ℕ → Except String Params) (evidenceRefs : List EvidenceRef) (refText : String) :
    Except EvidenceError WholeFrame :=
  match parseRef (pyStrip refText.toList) with
  | none => .error (.invalidObservation ("L3 ref 格式错误：" ++ refText ++
      "；合法格式 listener:<index_id>:<frame_id>，如 listener:idx-xxx:123"))
  | some (indexId, frameId) =>
    if String.ofList (pyStrip refText.toList) ∉ allowed evidenceRefs then
      .error (.refForbidden ("L3 ref 不属于该 job：" ++ refText))
    else
      match frameDetail indexId frameId with
      | .error message => .error (.frame message)
      | .ok frame =>
        .ok {
          ref := "listener:" ++ indexId ++ ":" ++ toString frameId
          indexId := indexId
          frameId := frameId
          fields := stripEntries (["raw_hex", "summary", "parse_error", "analysis"].map fun key =>
            (key, Params.get frame key))
          traceLink := "/api/ai/v1/listener/indexes/" ++ indexId ++ "/frames/" ++ toString frameId }

/-- `_l3_items`. -/
def l3Items (frameDetail : String → ℕ → Except String Params) (results : List ObservedItem) (texts : List String) :
    Except EvidenceError (List WholeFrame) :=
  if texts = [] then .ok []
  else if 10 < texts.length then .error (.invalidObservation "L3 每次最多 10 个 ref")
  else texts.mapM (l3Item frameDetail (refs results))

end HplcWorkbench.JobEvidence
