import HplcWorkbench.TraceRounds
import Mathlib.Data.List.SplitBy

/-!
# Clusters of the communication trace

The captured frames are cut into rounds where the air is silent for longer than a gap, a round is
grouped into flows, and the summary counts the flows by stage. No frame and no flow is lost or
counted twice on the way.
-/

namespace HplcWorkbench.Trace
open OrderedDict KeyedFolds List

/-- The time of a frame that has one. -/
def Frame.time (f : Frame) : ℤ := f.absMs.getD 0

/-- The order of the key `(f.abs_ms, f.frame_id)`. -/
def Frame.Before (a b : Frame) : Prop := a.time < b.time ∨ a.time = b.time ∧ a.frameId ≤ b.frameId

instance : DecidableRel Frame.Before := fun a b =>
  inferInstanceAs (Decidable (a.time < b.time ∨ a.time = b.time ∧ a.frameId ≤ b.frameId))

instance : Std.Total Frame.Before where
  total a b := by
    unfold Frame.Before
    omega

instance : IsTrans Frame Frame.Before where
  trans a b c hab hbc := by
    unfold Frame.Before at *
    omega

/-- A cluster has a last frame. -/
structure Cluster where
  earlier : List Frame
  last : Frame

def Cluster.frames (c : Cluster) : List Frame := c.earlier ++ [c.last]

/-- `clusters[-1].append(frame)`, or `clusters.append([frame])`. -/
def addToCluster (gapMs : ℤ) (clusters : List Cluster) (frame : Frame) : List Cluster :=
  match clusters.getLast? with
  | none => [⟨[], frame⟩]
  | some c =>
    if frame.time - c.last.time ≤ gapMs then clusters.dropLast ++ [⟨c.frames, frame⟩]
    else clusters ++ [⟨[], frame⟩]

/-- `_cluster`. -/
def cluster (frames : List Frame) (gapMs : ℤ) : List (List Frame) :=
  let ordered := (frames.filter (·.absMs.isSome)).insertionSort Frame.Before
  let clusters := ordered.foldl (addToCluster gapMs) []
  clusters.map Cluster.frames ++ (frames.filter (·.absMs.isNone)).map fun frame => [frame]

structure Summary where
  rounds : ℕ
  meters : ℕ
  fullChain : ℕ
  noAck : ℕ
  noResponse : ℕ
  denied : ℕ
  noConfirm : ℕ
  flows : ℕ
  badFrames : ℕ

/-- `_summary`. -/
def summary (rounds : List RoundReport) (badFrames : ℕ) : Summary :=
  let flowReports := rounds.flatMap RoundReport.flows
  let stages := flowReports.map FlowReport.stage
  { rounds := rounds.length
    meters := (rounds.map fun r => r.meters.targets).sum
    fullChain := stages.countP (· = .confirmed)
    noAck := stages.countP (· = .sent)
    noResponse := stages.countP (· = .acked)
    denied := stages.countP (· = .denied)
    noConfirm := stages.countP (· = .responded)
    flows := flowReports.length
    badFrames := badFrames }

/-- Each flow is counted under one stage. -/
def Summary.Counted (s : Summary) : Prop :=
  s.fullChain + s.noAck + s.noResponse + s.denied + s.noConfirm = s.flows

/-- The rounds that `run_replay` reports. -/
def replayRounds (frames : List Frame) (acks : Dict ℕ Frame) (confirms : Dict ℕ (List Frame))
    (nf : Feature) (directions : List String) (badFrames : ℕ) : List RoundReport :=
  (cluster frames (nf.clusterGapS * 1000)).zipIdx.map fun (c, index) =>
    let reports := (buildFlows c nf.appId).map fun f => flowReport f acks confirms nf directions
    roundReport index c reports nf badFrames

/-! ## Cutting at the gaps -/

def near (gapMs : ℤ) (a b : Frame) : Bool := b.time - a.time ≤ gapMs

/-- Between two clusters that follow each other there is more than the gap, where both times are
known. A frame without a time is a cluster of its own. -/
def Apart (gapMs : ℤ) (c d : List Frame) : Prop :=
  ∀ a ∈ c.getLast?, ∀ b ∈ d.head?, ∀ s t, a.absMs = some s → b.absMs = some t → gapMs < t - s

/-- Each frame is in one cluster, and the clusters are divided by the gaps. -/
structure Partitioned (frames : List Frame) (gapMs : ℤ) (clusters : List (List Frame)) : Prop where
  once : clusters.flatten.Perm frames
  filled : ∀ c ∈ clusters, c ≠ []
  inside : ∀ c ∈ clusters, c.IsChain fun a b =>
    ∃ s t, a.absMs = some s ∧ b.absMs = some t ∧ s ≤ t ∧ t - s ≤ gapMs
  between : clusters.IsChain (Apart gapMs)

section Cutting
variable {gapMs : ℤ} {frames : List Frame}

theorem addToCluster_concat (clusters : List Cluster) (c : Cluster) (frame : Frame) :
    addToCluster gapMs (clusters ++ [c]) frame =
      if near gapMs c.last frame then clusters ++ [⟨c.frames, frame⟩]
      else clusters ++ [c] ++ [⟨[], frame⟩] := by
  simp [addToCluster, near]

theorem foldl_addToCluster (xs : List Frame) (clusters : List Cluster) (a : Frame)
    (earlier : List Frame) :
    (xs.foldl (addToCluster gapMs) (clusters ++ [⟨earlier.reverse, a⟩])).map Cluster.frames =
      List.splitBy.loop (near gapMs) xs a earlier (clusters.map Cluster.frames).reverse := by
  induction xs generalizing clusters a earlier with
  | nil => simp [List.splitBy.loop, Cluster.frames]
  | cons x xs ih =>
    rw [List.foldl_cons, addToCluster_concat, List.splitBy.loop]
    cases hnear : near gapMs a x with
    | true =>
      have hframes : Cluster.frames ⟨earlier.reverse, a⟩ = (a :: earlier).reverse := by
        rw [Cluster.frames, List.reverse_cons]
      rw [if_pos rfl, hframes]
      exact ih clusters x (a :: earlier)
    | false =>
      have hnext := ih (clusters ++ [⟨earlier.reverse, a⟩]) x []
      rw [List.map_append, List.reverse_append, List.reverse_nil] at hnext
      rw [if_neg Bool.false_ne_true, hnext]
      simp [Cluster.frames]

/-- The clusters are the longest pieces without a gap. -/
theorem clusters_eq_splitBy (xs : List Frame) :
    (xs.foldl (addToCluster gapMs) []).map Cluster.frames = xs.splitBy (near gapMs) := by
  cases xs with
  | nil => rfl
  | cons x xs => exact foldl_addToCluster xs [] x []

theorem time_of_timed {f : Frame} (h : f.absMs.isSome = true) : f.absMs = some f.time := by
  obtain ⟨t, ht⟩ := Option.isSome_iff_exists.mp h
  rw [Frame.time, ht, Option.getD_some]

/-- The frames with a time, in the order of their times. -/
def timed (frames : List Frame) : List Frame :=
  (frames.filter (·.absMs.isSome)).insertionSort Frame.Before

theorem perm_timed (frames : List Frame) :
    (timed frames).Perm (frames.filter (·.absMs.isSome)) := List.perm_insertionSort _ _

theorem isSome_of_mem_timed {f : Frame} (hf : f ∈ timed frames) : f.absMs.isSome = true :=
  (List.mem_filter.mp ((perm_timed frames).mem_iff.mp hf)).2

theorem cluster_eq (frames : List Frame) (gapMs : ℤ) :
    cluster frames gapMs = (timed frames).splitBy (near gapMs) ++
      (frames.filter (·.absMs.isNone)).map fun frame => [frame] := by
  rw [cluster, timed, clusters_eq_splitBy]

theorem splitBy_inside {part : List Frame} (hc : part ∈ (timed frames).splitBy (near gapMs)) :
    part.IsChain fun a b =>
      ∃ s t, a.absMs = some s ∧ b.absMs = some t ∧ s ≤ t ∧ t - s ≤ gapMs := by
  have hnear := List.isChain_of_mem_splitBy hc
  have hsub : part.Sublist (timed frames) := by
    have hflat := List.sublist_flatten_of_mem hc
    rwa [List.flatten_splitBy] at hflat
  have hordered : part.IsChain Frame.Before :=
    ((List.pairwise_insertionSort Frame.Before _).sublist hsub).isChain
  rw [List.isChain_iff_getElem] at hnear hordered ⊢
  intro i hi
  have htimed (j : ℕ) (hj : j < part.length) : part[j].absMs = some part[j].time :=
    time_of_timed (isSome_of_mem_timed (hsub.subset (List.getElem_mem hj)))
  have hgap := of_decide_eq_true (hnear i hi)
  have hbefore := hordered i hi
  unfold Frame.Before at hbefore
  exact ⟨_, _, htimed i (by omega), htimed (i + 1) hi, by omega, hgap⟩

theorem partitioned (frames : List Frame) (gapMs : ℤ) :
    Partitioned frames gapMs (cluster frames gapMs) := by
  rw [cluster_eq]
  constructor
  · have huntimed : (frames.filter (·.absMs.isNone)) = frames.filter fun f => !f.absMs.isSome :=
      List.filter_congr fun f _ => by rw [Option.not_isSome]
    rw [List.flatten_append, List.flatten_splitBy, ← List.flatMap_def, List.flatMap_singleton',
      huntimed]
    calc timed frames ++ frames.filter (fun f => !f.absMs.isSome)
      _ ~ frames.filter (·.absMs.isSome) ++ frames.filter (fun f => !f.absMs.isSome) :=
        (perm_timed frames).append_right _
      _ ~ frames := List.filter_append_perm _ frames
  · intro c hc
    rcases List.mem_append.mp hc with hc | hc
    · exact List.ne_nil_of_mem_splitBy hc
    · obtain ⟨f, -, rfl⟩ := List.mem_map.mp hc
      exact List.cons_ne_nil f []
  · intro c hc
    rcases List.mem_append.mp hc with hc | hc
    · exact splitBy_inside hc
    · obtain ⟨f, -, rfl⟩ := List.mem_map.mp hc
      exact List.isChain_singleton f
  · rw [List.isChain_append]
    have huntimed (c : List Frame) (hc : c ∈ (frames.filter (·.absMs.isNone)).map fun f => [f])
        (f : Frame) (hf : f ∈ c) : f.absMs = none := by
      obtain ⟨f', hf', rfl⟩ := List.mem_map.mp hc
      rw [List.mem_singleton.mp hf]
      exact Option.isNone_iff_eq_none.mp (List.mem_filter.mp hf').2
    refine ⟨?_, ?_, ?_⟩
    · refine (List.isChain_getLast_head_splitBy (near gapMs) (timed frames)).imp ?_
      rintro c d ⟨hc, hd, hfar⟩ a ha b hb s t hs ht
      rw [List.getLast?_eq_some_getLast hc, Option.mem_some_iff] at ha
      rw [List.head?_eq_some_head hd, Option.mem_some_iff] at hb
      rw [ha, hb, near, Frame.time, Frame.time, hs, ht] at hfar
      exact not_le.mp (of_decide_eq_false hfar)
    · have hany := List.pairwise_of_forall (R := fun _ _ => True) (fun _ _ => trivial)
        (l := (frames.filter (·.absMs.isNone)).map fun f => [f])
      refine (hany.imp_of_mem ?_).isChain
      intro c d hc _ _ a ha _ _ s t hs
      rw [huntimed c hc a (List.mem_of_getLast? ha)] at hs
      cases hs
    · intro c _ d hd a _ b hb s t _ ht
      rw [huntimed d (List.mem_of_head? hd) b (List.mem_of_head? hb)] at ht
      cases ht

end Cutting

/-! ## Grouping into flows -/

def Flow.frames (flow : Flow) : List Frame := flow.downs ++ flow.ups

/-- Each frame with a message number is in one flow, which is the one of its number. -/
structure Grouped (cluster : List Frame) (flows : List Flow) : Prop where
  once : (flows.flatMap Flow.frames).Perm (cluster.filter (·.msgSeq.isSome))
  keyed : ∀ flow ∈ flows, ∀ f ∈ flow.frames, f.msgSeq = some flow.msgSeq
  distinct : (flows.map Flow.msgSeq).Nodup

/-- The frames of a cluster that have a message number, each with it. -/
def numbered (frames : List Frame) : List (ℕ × Frame) :=
  frames.filterMap fun f => f.msgSeq.map fun seq => (seq, f)

/-- `addFrame`, for one message number. -/
def join (appId : String) : Option Flow → ℕ × Frame → Flow
  | none, e => .start appId e.1 e.2
  | some flow, e => flow.add e.2

section Grouping
variable {appId : String} {frames : List Frame}

theorem mem_numbered {e : ℕ × Frame} :
    e ∈ numbered frames ↔ e.2 ∈ frames ∧ e.2.msgSeq = some e.1 := by
  rw [numbered, List.mem_filterMap]
  constructor
  · rintro ⟨f, hf, he⟩
    obtain ⟨seq, hseq, rfl⟩ := Option.map_eq_some_iff.mp he
    exact ⟨hf, hseq⟩
  · rintro ⟨hf, hseq⟩
    exact ⟨e.2, hf, by rw [hseq, Option.map_some]⟩

theorem map_numbered (frames : List Frame) :
    (numbered frames).map Prod.snd = frames.filter (·.msgSeq.isSome) := by
  rw [numbered]
  induction frames with
  | nil => rfl
  | cons f frames ih =>
    cases hseq : f.msgSeq with
    | none => simpa [hseq] using ih
    | some seq => simpa [hseq] using ih

theorem foldl_addFrame (frames : List Frame) :
    frames.foldl (addFrame appId) Dict.empty =
      collect Prod.fst (join appId) (numbered frames) := by
  rw [collect, numbered, List.foldl_filterMap]
  congr 1
  funext grouped f
  rw [addFrame]
  cases f.msgSeq with
  | none => rfl
  | some seq =>
    rw [Option.map_some]
    dsimp only [step, join]
    cases grouped.get? seq <;> rfl

theorem frames_start (seq : ℕ) (f : Frame) : (Flow.start appId seq f).frames = [f] := by
  rw [Flow.start, Flow.frames]
  split_ifs <;> rfl

theorem frames_add (flow : Flow) (f : Frame) : (flow.add f).frames.Perm (flow.frames ++ [f]) := by
  rw [Flow.add, Flow.frames, Flow.frames]
  split_ifs
  · dsimp only
    rw [List.append_assoc, List.append_assoc]
    exact List.perm_append_comm.append_left _
  · dsimp only
    rw [List.append_assoc]

theorem msgSeq_start (seq : ℕ) (f : Frame) : (Flow.start appId seq f).msgSeq = seq := by
  rw [Flow.start]
  split_ifs <;> rfl

theorem msgSeq_add (flow : Flow) (f : Frame) : (flow.add f).msgSeq = flow.msgSeq := by
  rw [Flow.add]
  split_ifs <;> rfl

/-- What a flow has from the frames of its number. -/
theorem settled_join {es : List (ℕ × Frame)} {flow : Flow} (h : settled (join appId) es = some flow) :
    (∃ e ∈ es, flow.msgSeq = e.1) ∧ flow.frames.Perm (es.map Prod.snd) := by
  refine settled_induction (p := fun es flow =>
    (∃ e ∈ es, flow.msgSeq = e.1) ∧ flow.frames.Perm (es.map Prod.snd)) ?_ ?_ h
  · intro e
    exact ⟨⟨e, List.mem_singleton_self e, msgSeq_start e.1 e.2⟩, List.Perm.of_eq (frames_start e.1 e.2)⟩
  · rintro es flow e ⟨⟨e', he', hseq⟩, hperm⟩
    refine ⟨⟨e', List.mem_append_left _ he', (msgSeq_add flow e.2).trans hseq⟩, ?_⟩
    rw [List.map_append]
    exact (frames_add flow e.2).trans (hperm.append_right _)

theorem perm_byFrameId (frames : List Frame) : (byFrameId frames).Perm frames :=
  List.perm_insertionSort _ _

theorem grouped (cluster : List Frame) (appId : String) :
    Grouped cluster (buildFlows cluster appId) := by
  set es := numbered (byFrameId cluster) with hes
  set d := collect Prod.fst (join appId) es with hd
  have hflows : (buildFlows cluster appId).Perm (d.entries.map Prod.snd) := by
    rw [buildFlows, foldl_addFrame]
    exact List.perm_insertionSort _ _
  have hentry (e : ℕ × Flow) (he : e ∈ d.entries) : e.2.msgSeq = e.1 ∧
      e.2.frames.Perm ((fiber Prod.fst es e.1).map Prod.snd) := by
    have hget := (Dict.get?_eq_some_iff d e.1 e.2).mpr he
    rw [hd, get?_collect] at hget
    obtain ⟨⟨e', he', hseq⟩, hframes⟩ := settled_join hget
    exact ⟨hseq.trans (mem_fiber.mp he').2, hframes⟩
  constructor
  · have hcontent : (d.entries.flatMap fun e => e.2.frames).Perm (es.flatMap fun e => [e.2]) := by
      apply perm_collect
      intro flow e
      cases flow with
      | none => exact List.Perm.of_eq (frames_start e.1 e.2)
      | some flow => exact frames_add flow e.2
    calc (buildFlows cluster appId).flatMap Flow.frames
      _ ~ (d.entries.map Prod.snd).flatMap Flow.frames := hflows.flatMap_right _
      _ ~ es.flatMap fun e => [e.2] := by
        rw [List.flatMap_map]
        exact hcontent
      _ = (byFrameId cluster).filter (·.msgSeq.isSome) := by
        rw [← List.map_eq_flatMap, hes, map_numbered]
      _ ~ cluster.filter (·.msgSeq.isSome) := (perm_byFrameId cluster).filter _
  · intro flow hflow f hf
    obtain ⟨e, he, rfl⟩ := List.mem_map.mp (hflows.mem_iff.mp hflow)
    obtain ⟨hseq, hframes⟩ := hentry e he
    obtain ⟨e', he', rfl⟩ := List.mem_map.mp (hframes.mem_iff.mp hf)
    obtain ⟨hmem, hkey⟩ := mem_fiber.mp he'
    rw [(mem_numbered.mp hmem).2, hkey, hseq]
  · have hkeys : (d.entries.map Prod.snd).map Flow.msgSeq = d.entries.map Prod.fst := by
      rw [List.map_map]
      exact List.map_congr_left fun e he => (hentry e he).1
    rw [(hflows.map Flow.msgSeq).nodup_iff, hkeys]
    exact d.nodup

end Grouping

/-! ## Counting the stages -/

theorem flowReport_stage_ne_armed (flow : Flow) (acks : Dict ℕ Frame)
    (confirms : Dict ℕ (List Frame)) (nf : Feature) (directions : List String) :
    (flowReport flow acks confirms nf directions).stage ≠ .armed := by
  set report := flowReport flow acks confirms nf directions with hreport
  by_cases hdowns : byFrameId flow.downs = []
  · have hups : byFrameId flow.ups ≠ [] := by
      have hcaptured := flow.captured
      rw [byFrameId_eq_nil.mp hdowns, List.nil_append] at hcaptured
      rwa [ne_eq, byFrameId_eq_nil]
    have hstage := flowStage_ups hups (s := report.stage) (by rw [hreport, flowReport, hdowns])
    rcases hstage with ⟨hs, -⟩ | ⟨hs | hs, -⟩ <;> rw [hs] <;> decide
  · by_cases hups : byFrameId flow.ups = []
    · have hstage := flowStage_downs hdowns (s := report.stage) (by rw [hreport, flowReport, hups])
      rcases hstage with hs | hs <;> rw [hs] <;> decide
    · have hstage := flowStage_both hdowns hups (s := report.stage) rfl
      rcases hstage with ⟨hs, -⟩ | ⟨hs | hs, -⟩ <;> rw [hs] <;> decide

/-- Only an armed flow would not be counted. -/
theorem sum_stages {stages : List Stage} (h : ∀ s ∈ stages, s ≠ .armed) :
    stages.countP (· = .confirmed) + stages.countP (· = .sent) + stages.countP (· = .acked) +
      stages.countP (· = .denied) + stages.countP (· = .responded) = stages.length := by
  induction stages with
  | nil => rfl
  | cons s stages ih =>
    obtain ⟨hs, hrest⟩ := List.forall_mem_cons.mp h
    have hsum := ih hrest
    simp only [List.countP_cons, List.length_cons]
    cases s with
    | armed => exact absurd rfl hs
    | _ =>
      simp
      omega

/-- The frames of a capture are cut into clusters and grouped into flows without a loss, and every
flow is counted under one stage. -/
theorem clustering_conserves (frames : List Frame) (gapMs : ℤ) :
    Partitioned frames gapMs (cluster frames gapMs) ∧
    (∀ (c : List Frame) (appId : String), Grouped c (buildFlows c appId)) ∧
    ∀ (acks : Dict ℕ Frame) (confirms : Dict ℕ (List Frame)) (nf : Feature)
      (directions : List String) (badFrames : ℕ),
      (summary (replayRounds frames acks confirms nf directions badFrames) badFrames).Counted := by
  refine ⟨partitioned frames gapMs, grouped, ?_⟩
  intro acks confirms nf directions badFrames
  have hstages : ∀ s ∈ ((replayRounds frames acks confirms nf directions badFrames).flatMap
      RoundReport.flows).map FlowReport.stage, s ≠ .armed := by
    intro s hs
    obtain ⟨report, hreport, rfl⟩ := List.mem_map.mp hs
    obtain ⟨round, hround, hreport⟩ := List.mem_flatMap.mp hreport
    obtain ⟨⟨c, index⟩, -, rfl⟩ := List.mem_map.mp hround
    obtain ⟨flow, -, rfl⟩ := List.mem_map.mp hreport
    exact flowReport_stage_ne_armed flow acks confirms nf directions
  exact (sum_stages hstages).trans (List.length_map _)

end HplcWorkbench.Trace
