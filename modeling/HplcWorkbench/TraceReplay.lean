import HplcWorkbench.TraceFeatures

/-!
# The replay of a trace

A replay reads the frames that a feature asks for, the acknowledgements of their stations and the
confirmations of their message numbers, and reports them round by round. The queries follow each other,
so that each sees the tables of a moment of its own. A frame with a message number is shown in one flow,
and an answer of a meter is observed at one station.
-/

namespace HplcWorkbench.Trace

open OrderedDict

/-! ## Evidence -/

/-- `_ACK_ID_MARGIN`. -/
def ackIdMargin : ℕ := 1000

/-- `_stitch_abs_time`. -/
def stitchAbsTime (frames : List Frame) : List Frame :=
  frames.zipWith (fun frame (absMs : Option ℕ) => { frame with absMs := absMs.map Int.ofNat })
    (ListenerLog.absoluteMs {} (frames.map Frame.logTime))

namespace NormalizedFeature
variable (nf : NormalizedFeature)

/-- The bounds of the evidence for frames up to `maxId`. -/
def evidenceHolds (maxId : ℕ) : PyM (Row → Bool) := do
  let bounds : Row → Bool ←
    if nf.windowMode = .timeRange ∧ nf.endTime ≠ "" then do
      let stop ← ListenerLog.timeRangeBound nf.endTime true
      pure fun row => ¬ stop < row.logTime
    else if nf.windowMode = .cursorRange then
      pure fun row => (nf.startId.all fun n => n ≤ row.id) && row.id ≤ nf.endId.getD maxId + ackIdMargin
    else pure fun row => row.id ≤ maxId + ackIdMargin
  pure fun row => bounds row && nf.nid.all fun n => row.nid = some n

/-- The acknowledgements of the stations. -/
def loadAcks (staTeis : List String) (maxId : ℕ) (rows : List Row) : PyM (List Frame) :=
  if nf.useAckEvidence ∧ staTeis ≠ [] then do
    let holds ← nf.evidenceHolds maxId
    let found ← (rows.filter fun row =>
      ((row.column Columns.ackPeer).any fun peer => peer ∈ staTeis) && holds row).mapM (·.toFrame true)
    pure (found.filterMap id)
  else pure []

/-- The confirmations of the message numbers. -/
def loadConfirms (seqs : List ℕ) (maxId : ℕ) (rows : List Row) : PyM (List Frame) :=
  if nf.confirmVia0x0020 ∧ seqs ≠ [] then do
    let holds ← nf.evidenceHolds maxId
    let found ← (rows.filter fun row =>
      row.columns.map Columns.appId = some "0020" && row.column Columns.flowDir = some 0 &&
        ((row.column Columns.msgSeq).any fun seq => nf.msgSeq.elim (seq ∈ seqs) (seq = ·)) &&
        holds row).mapM (·.toFrame true)
    pure ((found.filterMap id).filter fun frame => frame.msgSeq.isSome)
  else pure []

end NormalizedFeature

/-- `confirms.setdefault(frame.msg_seq, []).append(frame)`. -/
def addConfirm (confirms : Dict ℕ (List Frame)) (frame : Frame) : Dict ℕ (List Frame) :=
  match frame.msgSeq with
  | none => confirms
  | some seq => confirms.set seq ((confirms.get? seq).getD [] ++ [frame])

structure Evidence where
  acks : Dict ℕ Frame
  confirms : Dict ℕ (List Frame)

/-- `_load_evidence`. The times are stitched in the order of the two dicts. -/
def loadEvidence (nf : NormalizedFeature) (frames : List Frame) (ackRows confirmRows : List Row) :
    PyM Evidence := do
  let maxId := (frames.map Frame.frameId).foldl max 0
  let acks ← nf.loadAcks (frames.filterMap fun f => told f.staTei) maxId ackRows
  let confirms ← nf.loadConfirms (frames.filterMap Frame.msgSeq) maxId confirmRows
  let grouped := (confirms.foldl addConfirm .empty).entries.flatMap Prod.snd
  let stitched := stitchAbsTime (acks ++ grouped)
  pure {
    acks := (stitched.take acks.length).foldl (fun acks f => acks.set f.frameId f) .empty
    confirms := (stitched.drop acks.length).foldl addConfirm .empty }

/-! ## The report -/

/-- How often a station answered for a meter. -/
structure Observation where
  meterAddr : String
  staTei : Option String
  observations : ℕ
  deriving DecidableEq

/-- The meters that a flow has answers of, each with the station that answered. -/
def FlowReport.observed (report : FlowReport) : List (String × Option String) :=
  report.responses.map fun r => (r.addr, report.response.bind FirstResponse.respondedSta)

def observe (seen : Dict (String × Option String) ℕ) (key : String × Option String) :
    Dict (String × Option String) ℕ :=
  seen.set key ((seen.get? key).getD 0 + 1)

/-- `_proxy_graph`. -/
def proxyGraph (flowReports : List FlowReport) : List Observation :=
  let seen := (flowReports.flatMap FlowReport.observed).foldl observe .empty
  (seen.entries.map fun e => ⟨e.1.1, e.1.2, e.2⟩).insertionSort fun (a b : Observation) =>
    b.observations < a.observations ∨ a.observations = b.observations ∧ a.meterAddr ≤ b.meterAddr

structure TraceReport where
  mode : String
  scope : Scope
  feature : PyVal
  summary : Summary
  rounds : List RoundReport
  proxyGraph : List Observation
  flow : Option FlowReport

/-- `_empty_report`. -/
def emptyReport (nf : NormalizedFeature) (badFrames : ℕ) (mode : String) : TraceReport where
  mode := mode
  scope := nf.scope
  feature := nf.raw
  summary := ⟨0, 0, 0, 0, 0, 0, 0, 0, badFrames⟩
  rounds := []
  proxyGraph := []
  flow := none

/-- The report of frames that were found. -/
def reportOf (nf : NormalizedFeature) (mode : String) (directions : List String) (badFrames : ℕ)
    (frames : List Frame) (evidence : Evidence) : TraceReport :=
  let rounds := replayRounds frames evidence.acks evidence.confirms nf.judged directions badFrames
  let flowReports := rounds.flatMap RoundReport.flows
  { mode := mode
    scope := nf.scope
    feature := nf.raw
    summary := summary rounds badFrames
    rounds := rounds
    proxyGraph := proxyGraph flowReports
    flow := if nf.scope = .flow then flowReports.head? else none }

/-- `run_replay`. The frames, the acknowledgements and the confirmations are read one after the other;
the number of bad frames comes from the query behind the frames. -/
def runReplay (nf : NormalizedFeature) (mode : String) (directions : List String) (like : Row → Bool)
    (ready : Bool) (badFrames : ℕ) (rows ackRows confirmRows : List Row) : PyM TraceReport := do
  let frames ← loadFrames nf.query like ready rows
  if frames.isEmpty then pure (emptyReport nf badFrames mode)
  else
    let frames := stitchAbsTime frames
    let evidence ← loadEvidence nf frames ackRows confirmRows
    pure (reportOf nf mode directions badFrames frames evidence)

/-! ## Stitching -/

section Stitching
variable {frames : List Frame}

theorem length_absoluteMs (t : ListenerLog.TimeTracker) (texts : List String) :
    (ListenerLog.absoluteMs t texts).length = texts.length := by
  induction texts generalizing t with
  | nil => rfl
  | cons text texts ih =>
      rw [ListenerLog.absoluteMs, List.length_cons, List.length_cons, ih]

theorem map_zipWith_times {β : Type} {g : Frame → β} (hg : ∀ f t, g { f with absMs := t } = g f)
    (times : List (Option ℕ)) (h : times.length = frames.length) :
    (frames.zipWith (fun frame (absMs : Option ℕ) => { frame with absMs := absMs.map Int.ofNat })
      times).map g = frames.map g := by
  induction frames generalizing times with
  | nil => rfl
  | cons f frames ih =>
      cases times with
      | nil => cases h
      | cons t times =>
          rw [List.zipWith_cons_cons, List.map_cons, List.map_cons, hg,
            ih times (Nat.succ_injective h)]

/-- Stitching changes the times and nothing else. -/
theorem map_stitch {β : Type} {g : Frame → β} (hg : ∀ f t, g { f with absMs := t } = g f) :
    (stitchAbsTime frames).map g = frames.map g := by
  refine map_zipWith_times hg _ ?_
  rw [length_absoluteMs, List.length_map]

/-- The numbers of the frames with a message number. -/
def sequenced (frames : List Frame) : List ℕ :=
  (frames.filter fun f => f.msgSeq.isSome).map Frame.frameId

theorem sequenced_stitch : sequenced (stitchAbsTime frames) = sequenced frames := by
  have hpairs : ∀ fs : List Frame, sequenced fs =
      ((fs.map fun f => (f.msgSeq.isSome, f.frameId)).filter Prod.fst).map Prod.snd := by
    intro fs
    rw [sequenced, List.filter_map, List.map_map]
    rfl
  rw [hpairs, hpairs, map_stitch fun _ _ => rfl]

end Stitching

/-! ## What a flow shows -/

section Shown
variable {flow : Flow} {acks : Dict ℕ Frame} {confirms : Dict ℕ (List Frame)} {nf : Feature}

/-- The roles of the frames that belong to a flow. -/
def Role.own (role : Role) : Bool := role = .sent || role = .retransmission || role = .response

/-- The frames of a report that belong to its flow. -/
def FlowReport.own (report : FlowReport) : List ℕ :=
  (report.frames.filter fun p => p.role.own).map Projection.frameId

theorem filter_own {role : Role} (direction : ProjectedDirection) (frames : List Frame) :
    ((frames.map (frameProjection direction role)).filter fun p => p.role.own) =
      if role.own then frames.map (frameProjection direction role) else [] := by
  split_ifs with h
  · refine List.filter_eq_self.mpr fun p hp => ?_
    obtain ⟨f, -, rfl⟩ := List.mem_map.mp hp
    exact h
  · refine List.filter_eq_nil_iff.mpr fun p hp => ?_
    obtain ⟨f, -, rfl⟩ := List.mem_map.mp hp
    exact h

theorem own_projections (downs ups : List Frame) (ackFrame confirmFrame : Option Frame) :
    (((projections downs ups ackFrame confirmFrame []).filter fun p => p.role.own).map
      Projection.frameId).Perm ((downs ++ ups).map Frame.frameId) := by
  have hids : ∀ (direction : ProjectedDirection) (role : Role) (frames : List Frame),
      (frames.map (frameProjection direction role)).map Projection.frameId =
        frames.map Frame.frameId := by
    intro direction role frames
    rw [List.map_map]
    rfl
  rw [projections, if_neg (not_not.mpr rfl)]
  refine (((List.perm_insertionSort _ _).filter _).map _).trans (List.Perm.of_eq ?_)
  rw [List.filter_append, List.filter_append, List.filter_append, List.filter_append, filter_own,
    filter_own, filter_own, filter_own, filter_own]
  simp only [Role.own, reduceCtorEq, decide_true, decide_false, Bool.or_true, Bool.or_false, if_true,
    Bool.false_eq_true, if_false, List.append_nil, List.map_append, hids]
  rw [← List.map_append, List.take_append_drop]

theorem own_flowReport (flow : Flow) :
    (flowReport flow acks confirms nf []).own.Perm (flow.frames.map Frame.frameId) := by
  refine (own_projections _ _ _ _).trans ?_
  rw [Flow.frames]
  exact ((perm_byFrameId flow.downs).append (perm_byFrameId flow.ups)).map _

theorem flows_replayRounds (frames : List Frame) (directions : List String) (badFrames : ℕ) :
    (replayRounds frames acks confirms nf directions badFrames).flatMap RoundReport.flows =
      (cluster frames (nf.clusterGapS * 1000)).flatMap fun c =>
        (buildFlows c nf.appId).map fun f => flowReport f acks confirms nf directions := by
  have hfst := List.zipIdx_map_fst 0 (cluster frames (nf.clusterGapS * 1000))
  rw [replayRounds, List.flatMap_map]
  conv_rhs => rw [← hfst, List.flatMap_map]
  rfl

/-- The flows of all rounds together show the frames that have a message number. -/
theorem own_rounds (frames : List Frame) (badFrames : ℕ) :
    (((replayRounds frames acks confirms nf [] badFrames).flatMap RoundReport.flows).flatMap
      FlowReport.own).Perm (sequenced frames) := by
  have hcluster : ∀ c : List Frame,
      (((buildFlows c nf.appId).map fun f => flowReport f acks confirms nf []).flatMap
        FlowReport.own).Perm (sequenced c) := by
    intro c
    rw [List.flatMap_map, sequenced]
    refine (List.Perm.flatMap_left _ fun flow _ => own_flowReport flow).trans ?_
    rw [← List.map_flatMap]
    exact (grouped c nf.appId).once.map _
  rw [flows_replayRounds, List.flatMap_assoc]
  refine (List.Perm.flatMap_left _ fun c _ => hcluster c).trans ?_
  have hflat : (cluster frames (nf.clusterGapS * 1000)).flatMap sequenced =
      sequenced (cluster frames (nf.clusterGapS * 1000)).flatten := by
    rw [sequenced, List.filter_flatten, List.map_flatten, List.map_map, List.flatMap_def]
    rfl
  rw [hflat]
  exact ((partitioned frames (nf.clusterGapS * 1000)).once.filter _).map _

theorem mem_projections {downs ups : List Frame} {ackFrame confirmFrame : Option Frame}
    {directions : List String} {p : Projection}
    (hp : p ∈ projections downs ups ackFrame confirmFrame directions) :
    ∃ f ∈ downs ++ ups ++ ackFrame.toList ++ confirmFrame.toList, f.frameId = p.frameId := by
  have hshown : p ∈ projections downs ups ackFrame confirmFrame [] := by
    rw [projections] at hp ⊢
    split_ifs at hp with hsome
    · exact List.mem_of_mem_filter hp
    · exact hp
  rw [projections, if_neg (not_not.mpr rfl), (List.perm_insertionSort _ _).mem_iff] at hshown
  simp only [List.mem_append, List.mem_map] at hshown ⊢
  rcases hshown with (((⟨f, hf, rfl⟩ | ⟨f, hf, rfl⟩) | ⟨f, hf, rfl⟩) | ⟨f, hf, rfl⟩) | ⟨f, hf, rfl⟩
  · exact ⟨f, Or.inl (Or.inl (Or.inl (List.mem_of_mem_take hf))), rfl⟩
  · exact ⟨f, Or.inl (Or.inl (Or.inl (List.mem_of_mem_drop hf))), rfl⟩
  · exact ⟨f, Or.inl (Or.inl (Or.inr hf)), rfl⟩
  · exact ⟨f, Or.inl (Or.inr hf), rfl⟩
  · exact ⟨f, Or.inr hf, rfl⟩

/-- The evidence that a report may show. -/
def evidenceFrames (acks : Dict ℕ Frame) (confirms : Dict ℕ (List Frame)) : List Frame :=
  acks.entries.map Prod.snd ++ confirms.entries.flatMap Prod.snd

/-- What a flow shows besides its own frames is evidence. -/
theorem shown_flowReport {directions : List String} {p : Projection}
    (hp : p ∈ (flowReport flow acks confirms nf directions).frames) :
    ∃ f ∈ flow.frames ++ evidenceFrames acks confirms, f.frameId = p.frameId := by
  obtain ⟨f, hf, hid⟩ := mem_projections hp
  refine ⟨f, ?_, hid⟩
  rw [List.mem_append, List.mem_append, List.mem_append, (perm_byFrameId _).mem_iff,
    (perm_byFrameId _).mem_iff, Option.mem_toList, Option.mem_toList] at hf
  rw [Flow.frames, evidenceFrames, List.mem_append, List.mem_append, List.mem_append]
  rcases hf with (hown | hack) | hconfirm
  · exact Or.inl hown
  · obtain ⟨a, -, hget⟩ := Option.bind_eq_some_iff.mp hack
    refine Or.inr (Or.inl (List.mem_map.mpr ⟨_, (Dict.get?_eq_some_iff _ _ _).mp hget, rfl⟩))
  · rw [confirmFrame] at hconfirm
    split_ifs at hconfirm with hon
    have hin := List.mem_of_find?_eq_some hconfirm
    cases hget : confirms.get? flow.msgSeq with
    | none =>
        rw [hget] at hin
        cases hin
    | some frames =>
        rw [hget] at hin
        exact Or.inr (Or.inr (List.mem_flatMap.mpr
          ⟨_, (Dict.get?_eq_some_iff _ _ _).mp hget, hin⟩))

theorem shown_rounds {frames : List Frame} {directions : List String} {badFrames : ℕ} {p : Projection}
    (hp : p ∈ ((replayRounds frames acks confirms nf directions badFrames).flatMap
      RoundReport.flows).flatMap FlowReport.frames) :
    ∃ f ∈ frames ++ evidenceFrames acks confirms, f.frameId = p.frameId := by
  rw [flows_replayRounds] at hp
  obtain ⟨report, hreport, hshown⟩ := List.mem_flatMap.mp hp
  obtain ⟨c, hc, hmap⟩ := List.mem_flatMap.mp hreport
  obtain ⟨flow, hflow, rfl⟩ := List.mem_map.mp hmap
  obtain ⟨f, hf, hid⟩ := shown_flowReport hshown
  refine ⟨f, ?_, hid⟩
  rcases List.mem_append.mp hf with hown | hevidence
  · have hin : f ∈ c.filter fun f => f.msgSeq.isSome :=
      (grouped c nf.appId).once.mem_iff.mp (List.mem_flatMap.mpr ⟨flow, hflow, hown⟩)
    refine List.mem_append_left _ ?_
    exact (partitioned frames _).once.mem_iff.mp (List.mem_flatten_of_mem hc (List.mem_of_mem_filter hin))
  · exact List.mem_append_right _ hevidence

end Shown

/-! ## What is observed -/

section Observed
variable {flowReports : List FlowReport} {keys : List (String × Option String)}
  {key : String × Option String}

theorem get?_foldl_observe (seen : Dict (String × Option String) ℕ) :
    (keys.foldl observe seen).get? key =
      if key ∈ keys then some ((seen.get? key).getD 0 + keys.count key) else seen.get? key := by
  induction keys generalizing seen with
  | nil => rfl
  | cons k keys ih =>
      rw [List.foldl_cons, ih, observe]
      by_cases hk : key = k
      · subst hk
        rw [Dict.get?_set_self, if_pos List.mem_cons_self, List.count_cons_self, Option.getD_some]
        split_ifs with hin
        · congr 1
          omega
        · rw [List.count_eq_zero.mpr hin]
      · have hmem : key ∈ k :: keys ↔ key ∈ keys := by
          rw [List.mem_cons, or_iff_right hk]
        rw [Dict.get?_set_of_ne _ _ _ _ hk, if_congr hmem rfl rfl, List.count_cons_of_ne (Ne.symm hk)]

/-- The counts behind the graph. -/
def observations (flowReports : List FlowReport) : Dict (String × Option String) ℕ :=
  (flowReports.flatMap FlowReport.observed).foldl observe .empty

theorem perm_proxyGraph : (proxyGraph flowReports).Perm
    ((observations flowReports).entries.map fun e => ⟨e.1.1, e.1.2, e.2⟩) :=
  List.perm_insertionSort _ _

/-- The graph names the pairs of a meter and a station that answered for it, with the number of the
answers. -/
theorem mem_proxyGraph {o : Observation} :
    o ∈ proxyGraph flowReports ↔
      o.observations = (flowReports.flatMap FlowReport.observed).count (o.meterAddr, o.staTei) ∧
        0 < o.observations := by
  have hentry : o ∈ proxyGraph flowReports ↔
      (observations flowReports).get? (o.meterAddr, o.staTei) = some o.observations := by
    rw [perm_proxyGraph.mem_iff, List.mem_map, Dict.get?_eq_some_iff]
    constructor
    · rintro ⟨e, he, rfl⟩
      exact he
    · exact fun he => ⟨_, he, rfl⟩
  rw [hentry, observations, get?_foldl_observe]
  split_ifs with hin
  · have hpos := List.count_pos_iff.mpr hin
    rw [Dict.get?_empty, Option.getD_none, Nat.zero_add, Option.some.injEq]
    omega
  · rw [Dict.get?_empty, List.count_eq_zero.mpr hin]
    simp

theorem nodup_proxyGraph :
    ((proxyGraph flowReports).map fun o => (o.meterAddr, o.staTei)).Nodup := by
  refine (perm_proxyGraph.map _).nodup_iff.mpr ?_
  rw [List.map_map]
  exact (observations flowReports).nodup

end Observed

/-! ## What the evidence is made of -/

section Evidences
variable {nf : NormalizedFeature} {row : Row} {rows ackRows confirmRows : List Row} {maxId : ℕ}
  {holds : Row → Bool} {frames : List Frame}

/-- A row once the columns are ready. -/
def Row.readyFrame (row : Row) : Option Frame := (row.toFrame true).toOption.join

theorem toFrame_ready (row : Row) : row.toFrame true = pure row.readyFrame ∧
    ∀ f ∈ row.readyFrame, f.frameId = row.id := by
  have hloaded : ∃ loaded, row.loaded true = pure loaded := by
    rw [Row.loaded, if_pos rfl]
    split_ifs
    · exact ⟨_, rfl⟩
    · exact ⟨_, rfl⟩
  obtain ⟨loaded, hloaded⟩ := hloaded
  rw [Row.readyFrame, Row.toFrame]
  split_ifs with hplain
  · exact ⟨rfl, fun f hf => by cases hf⟩
  · rw [hloaded, pure_bind]
    exact ⟨rfl, fun f hf => by rw [← Option.some.inj hf]⟩

theorem mapM_ready (p : Row → Bool) (rows : List Row) :
    (rows.filter p).mapM (fun row => row.toFrame true) = pure ((rows.filter p).map Row.readyFrame) :=
  mapM_of_pure fun row _ => (toFrame_ready row).1

theorem mem_ready {p : Row → Bool} {f : Frame}
    (hf : f ∈ ((rows.filter p).map Row.readyFrame).filterMap id) :
    ∃ row ∈ rows, p row = true ∧ row.id = f.frameId := by
  obtain ⟨found, hfound, hsome⟩ := List.mem_filterMap.mp hf
  obtain ⟨row, hrow, rfl⟩ := List.mem_map.mp hfound
  obtain ⟨hmem, hp⟩ := List.mem_filter.mp hrow
  exact ⟨row, hmem, hp, ((toFrame_ready row).2 f hsome).symm⟩

theorem loadAcks_eq (rows : List Row) (h : nf.evidenceHolds maxId = pure holds) (staTeis : List String) :
    ∃ acks, nf.loadAcks staTeis maxId rows = pure acks ∧
      ∀ f ∈ acks, ∃ row ∈ rows, holds row = true ∧ row.id = f.frameId := by
  rw [NormalizedFeature.loadAcks]
  split_ifs with hon
  · rw [h, pure_bind, mapM_ready, pure_bind]
    refine ⟨_, rfl, fun f hf => ?_⟩
    obtain ⟨row, hrow, hp, hid⟩ := mem_ready hf
    exact ⟨row, hrow, ((Bool.and_eq_true _ _).mp hp).2, hid⟩
  · exact ⟨[], rfl, fun f hf => absurd hf List.not_mem_nil⟩

theorem loadConfirms_eq (rows : List Row) (h : nf.evidenceHolds maxId = pure holds) (seqs : List ℕ) :
    ∃ confirms, nf.loadConfirms seqs maxId rows = pure confirms ∧
      ∀ f ∈ confirms, ∃ row ∈ rows, holds row = true ∧ row.id = f.frameId := by
  rw [NormalizedFeature.loadConfirms]
  split_ifs with hon
  · rw [h, pure_bind, mapM_ready, pure_bind]
    refine ⟨_, rfl, fun f hf => ?_⟩
    obtain ⟨row, hrow, hp, hid⟩ := mem_ready (List.mem_of_mem_filter hf)
    exact ⟨row, hrow, ((Bool.and_eq_true _ _).mp hp).2, hid⟩
  · exact ⟨[], rfl, fun f hf => absurd hf List.not_mem_nil⟩

theorem mem_addConfirm {confirms : List Frame} {d : Dict ℕ (List Frame)} {f : Frame}
    (hf : f ∈ (confirms.foldl addConfirm d).entries.flatMap Prod.snd) :
    f ∈ confirms ∨ f ∈ d.entries.flatMap Prod.snd := by
  induction confirms generalizing d with
  | nil => exact Or.inr hf
  | cons c confirms ih =>
      rcases ih hf with hlater | hnow
      · exact Or.inl (List.mem_cons_of_mem _ hlater)
      · rw [addConfirm] at hnow
        cases hseq : c.msgSeq with
        | none =>
            rw [hseq] at hnow
            exact Or.inr hnow
        | some seq =>
            rw [hseq] at hnow
            obtain ⟨e, he, hin⟩ := List.mem_flatMap.mp hnow
            rcases Dict.mem_set _ _ _ he with rfl | hold
            · rcases List.mem_append.mp hin with hbefore | hnew
              · cases hget : d.get? seq with
                | none =>
                    rw [hget] at hbefore
                    cases hbefore
                | some frames =>
                    rw [hget] at hbefore
                    exact Or.inr (List.mem_flatMap.mpr
                      ⟨_, (Dict.get?_eq_some_iff _ _ _).mp hget, hbefore⟩)
              · rw [List.mem_singleton.mp hnew]
                exact Or.inl List.mem_cons_self
            · exact Or.inr (List.mem_flatMap.mpr ⟨e, hold, hin⟩)

theorem mem_foldl_set {acks : List Frame} {d : Dict ℕ Frame} {f : Frame}
    (hf : f ∈ (acks.foldl (fun d f => d.set f.frameId f) d).entries.map Prod.snd) :
    f ∈ acks ∨ f ∈ d.entries.map Prod.snd := by
  induction acks generalizing d with
  | nil => exact Or.inr hf
  | cons a acks ih =>
      rcases ih hf with hlater | hnow
      · exact Or.inl (List.mem_cons_of_mem _ hlater)
      · obtain ⟨e, he, rfl⟩ := List.mem_map.mp hnow
        rcases Dict.mem_set _ _ _ he with rfl | hold
        · exact Or.inl List.mem_cons_self
        · exact Or.inr (List.mem_map.mpr ⟨e, hold, rfl⟩)

/-- The evidence is made of rows that the bounds admit. -/
theorem loadEvidence_eq (ackRows confirmRows : List Row)
    (h : nf.evidenceHolds ((frames.map Frame.frameId).foldl max 0) = pure holds) :
    ∃ e, loadEvidence nf frames ackRows confirmRows = pure e ∧
      ∀ f ∈ evidenceFrames e.acks e.confirms, ∃ row ∈ ackRows ++ confirmRows,
        holds row = true ∧ row.id = f.frameId := by
  obtain ⟨acks, hacks, hackRows⟩ := loadAcks_eq ackRows h
    (frames.filterMap fun f => told f.staTei)
  obtain ⟨confirms, hconfirms, hconfirmRows⟩ := loadConfirms_eq confirmRows h
    (frames.filterMap Frame.msgSeq)
  rw [loadEvidence, hacks, pure_bind, hconfirms, pure_bind]
  refine ⟨_, rfl, ?_⟩
  have hstitched : ∀ f ∈ stitchAbsTime (acks ++
      (confirms.foldl addConfirm .empty).entries.flatMap Prod.snd),
      ∃ row ∈ ackRows ++ confirmRows, holds row = true ∧ row.id = f.frameId := by
    intro f hf
    have hid : f.frameId ∈ (acks ++ (confirms.foldl addConfirm .empty).entries.flatMap Prod.snd).map
        Frame.frameId := by
      rw [← map_stitch fun _ _ => rfl]
      exact List.mem_map_of_mem hf
    obtain ⟨g, hg, hsame⟩ := List.mem_map.mp hid
    rw [← hsame]
    rcases List.mem_append.mp hg with hack | hgrouped
    · obtain ⟨row, hrow, hrest⟩ := hackRows g hack
      exact ⟨row, List.mem_append_left _ hrow, hrest⟩
    · have hin : g ∈ confirms := (mem_addConfirm hgrouped).resolve_right List.not_mem_nil
      obtain ⟨row, hrow, hrest⟩ := hconfirmRows g hin
      exact ⟨row, List.mem_append_right _ hrow, hrest⟩
  intro f hf
  rcases List.mem_append.mp hf with hack | hconfirm
  · exact hstitched f (List.mem_of_mem_take ((mem_foldl_set hack).resolve_right List.not_mem_nil))
  · exact hstitched f (List.mem_of_mem_drop ((mem_addConfirm hconfirm).resolve_right List.not_mem_nil))

end Evidences

/-! ## Windows that start at an identifier -/

section Windows
variable {nf : NormalizedFeature} {maxId start : ℕ} {rows ackRows confirmRows : List Row}
  {like : Row → Bool} {ready : Bool}

/-- The window of a feature starts at an identifier. -/
def NormalizedFeature.StartsAt (nf : NormalizedFeature) (start : ℕ) : Prop :=
  nf.windowMode = .cursorRange ∧ nf.startId = some start

/-- The rows from an identifier on. -/
def rowsFrom (start : ℕ) (rows : List Row) : List Row := rows.filter fun row => start ≤ row.id

theorem filter_rowsFrom {p : Row → Bool} (hp : ∀ row, p row = true → start ≤ row.id) :
    (rowsFrom start rows).filter p = rows.filter p := by
  rw [rowsFrom, List.filter_filter]
  refine List.filter_congr fun row _ => ?_
  cases h : p row with
  | false => rfl
  | true => exact decide_eq_true (hp row h)

theorem window_starts (h : nf.StartsAt start) :
    ∃ holds, nf.query.window.holds = pure holds ∧ ∀ row, holds row = true → start ≤ row.id := by
  obtain ⟨hmode, hstart⟩ := h
  have hwindow : nf.query.window = .cursorRange (some start) nf.endId := by
    rw [NormalizedFeature.query, NormalizedFeature.window, hmode, hstart]
  rw [hwindow]
  exact ⟨_, rfl, fun row hrow => of_decide_eq_true ((Bool.and_eq_true _ _).mp hrow).1⟩

theorem evidence_starts (h : nf.StartsAt start) (maxId : ℕ) :
    ∃ holds, nf.evidenceHolds maxId = pure holds ∧ ∀ row, holds row = true → start ≤ row.id := by
  obtain ⟨hmode, hstart⟩ := h
  have hother : ¬ (nf.windowMode = .timeRange ∧ nf.endTime ≠ "") := by
    rw [hmode]
    exact fun h => WindowMode.noConfusion h.1
  rw [NormalizedFeature.evidenceHolds, if_neg hother, if_pos hmode, hstart, pure_bind]
  refine ⟨_, rfl, fun row hrow => ?_⟩
  have hbounds := ((Bool.and_eq_true _ _).mp hrow).1
  exact of_decide_eq_true ((Bool.and_eq_true _ _).mp hbounds).1

theorem loadFrames_from (h : nf.StartsAt start) :
    loadFrames nf.query like ready (rowsFrom start rows) = loadFrames nf.query like ready rows := by
  obtain ⟨holds, hholds, hbound⟩ := window_starts h
  rw [loadFrames, loadFrames, hholds, pure_bind, pure_bind, filter_rowsFrom]
  intro row hrow
  simp only [FrameQuery.selects, Bool.and_eq_true] at hrow
  exact hbound row hrow.1.2

theorem loadAcks_from (h : nf.StartsAt start) (staTeis : List String) :
    nf.loadAcks staTeis maxId (rowsFrom start rows) = nf.loadAcks staTeis maxId rows := by
  obtain ⟨holds, hholds, hbound⟩ := evidence_starts h maxId
  rw [NormalizedFeature.loadAcks, NormalizedFeature.loadAcks, hholds, pure_bind, pure_bind, filter_rowsFrom]
  intro row hrow
  exact hbound row ((Bool.and_eq_true _ _).mp hrow).2

theorem loadConfirms_from (h : nf.StartsAt start) (seqs : List ℕ) :
    nf.loadConfirms seqs maxId (rowsFrom start rows) = nf.loadConfirms seqs maxId rows := by
  obtain ⟨holds, hholds, hbound⟩ := evidence_starts h maxId
  rw [NormalizedFeature.loadConfirms, NormalizedFeature.loadConfirms, hholds, pure_bind, pure_bind,
    filter_rowsFrom]
  intro row hrow
  exact hbound row ((Bool.and_eq_true _ _).mp hrow).2

end Windows

/-! ## The whole replay -/

section Replays
variable {nf : NormalizedFeature} {mode : String} {directions : List String} {like : Row → Bool}
  {ready : Bool} {badFrames : ℕ} {rows ackRows confirmRows : List Row} {report : TraceReport}

theorem runReplay_cases (h : runReplay nf mode directions like ready badFrames rows ackRows confirmRows =
      pure report) :
    ∃ frames, loadFrames nf.query like ready rows = pure frames ∧
      (frames = [] ∧ report = emptyReport nf badFrames mode ∨
        ∃ e, loadEvidence nf (stitchAbsTime frames) ackRows confirmRows = pure e ∧
          report.rounds = replayRounds (stitchAbsTime frames) e.acks e.confirms nf.judged directions
            badFrames ∧
          report.proxyGraph = proxyGraph (report.rounds.flatMap RoundReport.flows)) := by
  obtain ⟨frames, hframes, h⟩ := bind_eq_ok h
  refine ⟨frames, hframes, ?_⟩
  cases frames with
  | nil => exact Or.inl ⟨rfl, (Except.ok.inj h).symm⟩
  | cons f frames =>
      have hfull : ¬ (f :: frames).isEmpty = true := Bool.false_ne_true
      rw [if_neg hfull] at h
      obtain ⟨e, he, h⟩ := bind_eq_ok h
      obtain rfl := Except.ok.inj h
      exact Or.inr ⟨e, he, rfl, by simp only [reportOf]⟩

/-- A replay from an identifier on reads no row before it. -/
theorem runReplay_from {start : ℕ} (h : nf.StartsAt start) :
    runReplay nf mode directions like ready badFrames (rowsFrom start rows) (rowsFrom start ackRows)
        (rowsFrom start confirmRows) =
      runReplay nf mode directions like ready badFrames rows ackRows confirmRows := by
  have hevidence : ∀ frames : List Frame,
      loadEvidence nf frames (rowsFrom start ackRows) (rowsFrom start confirmRows) =
        loadEvidence nf frames ackRows confirmRows := by
    intro frames
    rw [loadEvidence, loadEvidence, loadAcks_from h, loadConfirms_from h]
  simp only [runReplay, loadFrames_from h, hevidence]

/-- A replay of filled rows from an identifier on succeeds. -/
theorem runReplay_returns {start : ℕ} (h : nf.StartsAt start) (hne : nf.appId ≠ "")
    (hrows : ∀ row ∈ rows, row.columns = none ∨ row.Filled) :
    ∃ report, runReplay nf mode directions like ready badFrames rows ackRows confirmRows =
      pure report := by
  obtain ⟨inWindow, hwindow, -⟩ := window_starts h
  rw [runReplay, loadFrames_eq hwindow hne hrows, pure_bind]
  generalize (rows.filter (nf.query.takes inWindow)).map _ = frames
  split_ifs
  · exact ⟨_, rfl⟩
  · dsimp only
    obtain ⟨holds, hholds, -⟩ := evidence_starts h
      (((stitchAbsTime frames).map Frame.frameId).foldl max 0)
    obtain ⟨e, he, -⟩ := loadEvidence_eq ackRows confirmRows hholds
    rw [he, pure_bind]
    exact ⟨_, rfl⟩

/-- It shows only frames from there on. -/
theorem shown_from {start : ℕ} (hstart : nf.StartsAt start) (hne : nf.appId ≠ "")
    (hrows : ∀ row ∈ rows, row.columns = none ∨ row.Filled)
    (h : runReplay nf mode directions like ready badFrames rows ackRows confirmRows = pure report)
    {p : Projection} (hp : p ∈ (report.rounds.flatMap RoundReport.flows).flatMap FlowReport.frames) :
    start ≤ p.frameId := by
  obtain ⟨inWindow, hwindow, hbound⟩ := window_starts hstart
  obtain ⟨frames, hframes, ⟨-, rfl⟩ | ⟨e, he, hrounds, -⟩⟩ := runReplay_cases h
  · exact absurd hp List.not_mem_nil
  · rw [hrounds] at hp
    obtain ⟨f, hf, hid⟩ := shown_rounds hp
    rw [← hid]
    rcases List.mem_append.mp hf with hloaded | hevidence
    · have hin : f.frameId ∈ frames.map Frame.frameId := by
        rw [← map_stitch fun _ _ => rfl]
        exact List.mem_map_of_mem hloaded
      rw [loadFrames_eq hwindow hne hrows] at hframes
      obtain rfl := Except.ok.inj hframes
      rw [List.map_map] at hin
      obtain ⟨row, hrow, hsame⟩ := List.mem_map.mp hin
      have htakes := (List.mem_filter.mp hrow).2
      rw [← hsame]
      simp only [FrameQuery.takes, FrameQuery.selects, Bool.and_eq_true] at htakes
      exact hbound row htakes.1.1.1.2
    · obtain ⟨holds, hholds, hlater⟩ := evidence_starts hstart
        (((stitchAbsTime frames).map Frame.frameId).foldl max 0)
      obtain ⟨e', he', hmade⟩ := loadEvidence_eq ackRows confirmRows hholds
      obtain rfl := Except.ok.inj (he'.symm.trans he)
      obtain ⟨row, -, hrow, hsame⟩ := hmade f hevidence
      rw [← hsame]
      exact hlater row hrow

/-- In a replay of all directions every frame that was loaded with a message number is shown once as a
frame of its flow, and the graph counts every answer of a meter once, at the station that answered. -/
theorem replay_accounts (h : runReplay nf mode [] like ready badFrames rows ackRows confirmRows =
      pure report) :
    (∃ frames, loadFrames nf.query like ready rows = pure frames ∧
      ((report.rounds.flatMap RoundReport.flows).flatMap FlowReport.own).Perm (sequenced frames)) ∧
    (∀ o, o ∈ report.proxyGraph ↔
      o.observations = ((report.rounds.flatMap RoundReport.flows).flatMap FlowReport.observed).count
        (o.meterAddr, o.staTei) ∧ 0 < o.observations) ∧
    (report.proxyGraph.map fun o => (o.meterAddr, o.staTei)).Nodup := by
  obtain ⟨frames, hframes, ⟨rfl, rfl⟩ | ⟨e, -, hrounds, hgraph⟩⟩ := runReplay_cases h
  · refine ⟨⟨[], hframes, List.Perm.nil⟩, fun o => ?_, List.nodup_nil⟩
    rw [emptyReport]
    refine iff_of_false List.not_mem_nil ?_
    rintro ⟨hzero, hpos⟩
    rw [hzero] at hpos
    exact absurd hpos (Nat.lt_irrefl 0)
  · refine ⟨⟨frames, hframes, ?_⟩, ?_, ?_⟩
    · rw [hrounds, ← sequenced_stitch]
      exact own_rounds _ _
    · rw [hgraph]
      exact fun o => mem_proxyGraph
    · rw [hgraph]
      exact nodup_proxyGraph

/-- A feature of reports from the first frame on. -/
def reportFeature : NormalizedFeature where
  scope := .round
  appId := "0008"
  msgSeq := none
  frmType := none
  dstTei := none
  appRawContains := none
  nid := none
  channel := none
  startTime := ""
  endTime := ""
  startId := some 1
  endId := none
  windowMode := .cursorRange
  timeoutMs := none
  useAckEvidence := true
  confirmVia0x0020 := true
  expectMeters := []
  rawHexContains := none
  clusterGapS := 60
  raw := .none

theorem replay_accounts_old : ∃ report,
    runReplay reportFeature "replay" [] (fun _ => false) true 0 [oldRow.fresh] [] [] = pure report ∧
    (∃ frames, loadFrames reportFeature.query (fun _ => false) true [oldRow.fresh] = pure frames ∧
      ((report.rounds.flatMap RoundReport.flows).flatMap FlowReport.own).Perm (sequenced frames)) ∧
    (∀ o, o ∈ report.proxyGraph ↔
      o.observations = ((report.rounds.flatMap RoundReport.flows).flatMap FlowReport.observed).count
        (o.meterAddr, o.staTei) ∧ 0 < o.observations) ∧
    (report.proxyGraph.map fun o => (o.meterAddr, o.staTei)).Nodup := by
  have hne : reportFeature.appId ≠ "" := by decide
  have hrows : ∀ row ∈ [oldRow.fresh], row.columns = none ∨ row.Filled := by
    intro row hrow
    rw [List.mem_singleton.mp hrow]
    exact Or.inr rfl
  obtain ⟨report, hreport⟩ := runReplay_returns (show reportFeature.StartsAt 1 from ⟨rfl, rfl⟩) hne hrows
  exact ⟨report, hreport, replay_accounts hreport⟩

end Replays

end HplcWorkbench.Trace
