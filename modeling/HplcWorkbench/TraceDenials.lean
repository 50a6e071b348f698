import HplcWorkbench.KeyedFolds
import HplcWorkbench.TraceFlows

/-!
# Denials in the trace of a flow

The answers of a meter in one flow end in one response, which is a denial when all of them are.
The stage of the flow is decided from the meters of which a denial was heard at any time.
-/

namespace HplcWorkbench.Trace
open OrderedDict KeyedFolds

/-- The answers of a flow as they were heard. -/
def answers (flow : Flow) : List Response :=
  (byFrameId flow.ups).flatMap fun up => (up.meterAddrs.getD []).filterMap (answer up)

/-- `respond`, for the answers of one meter. -/
def settle : Option Response → Response → Response
  | none, r => r
  | some prior, r => if r.denied then prior else r

section Responses
variable {flow : Flow} {rs : List Response} {r : Response} {addr : String}

theorem respond_eq_step (responses : Dict String Response) (r : Response) :
    respond responses r = step Response.addr settle responses r := by
  unfold respond step
  cases hprior : responses.get? r.addr with
  | none => rfl
  | some prior =>
    cases hdenied : r.denied with
    | false => simp [settle, hdenied]
    | true => simp [settle, hdenied, Dict.set_self _ hprior]

/-- The final answers of the meters. -/
theorem flowResponses_eq (flow : Flow) :
    flowResponses flow = (collect Response.addr settle (answers flow)).entries.map Prod.snd := by
  have hrespond : step Response.addr settle = respond :=
    funext₂ fun d r => (respond_eq_step d r).symm
  have hitem (up : Frame) (items : List MeterItem) (d : Dict String Response) :
      items.foldl (respondItem up) d = (items.filterMap (answer up)).foldl respond d := by
    rw [List.foldl_filterMap]
    congr 1
    funext d item
    rw [respondItem]
    cases answer up item <;> rfl
  simp only [flowResponses, collect, answers, hrespond, List.foldl_flatMap, hitem]

/-- Answers of one meter end in a denial when each of them is one. -/
theorem settled_settle (h : settled settle rs = some r) :
    r ∈ rs ∧ (r.denied = true ↔ ∀ x ∈ rs, x.denied = true) := by
  refine settled_induction (p := fun rs r => r ∈ rs ∧ (r.denied = true ↔ ∀ x ∈ rs, x.denied = true))
    ?_ ?_ h
  · intro x
    exact ⟨List.mem_singleton_self x, by simp [settle]⟩
  · rintro rs prior x ⟨hmem, hprior⟩
    rw [settle]
    cases hdenied : x.denied with
    | true =>
      refine ⟨List.mem_append_left _ hmem, ?_⟩
      rw [List.forall_mem_append, List.forall_mem_singleton]
      exact hprior.trans (and_iff_left hdenied).symm
    | false =>
      refine ⟨List.mem_append_right _ (List.mem_singleton_self x), ?_⟩
      simp [hdenied]

theorem mem_responses :
    r ∈ (collect Response.addr settle rs).entries.map Prod.snd ↔
      settled settle (fiber Response.addr rs r.addr) = some r := by
  rw [← get?_collect, Dict.get?_eq_some_iff, List.mem_map]
  constructor
  · rintro ⟨⟨k, r'⟩, hmem, rfl⟩
    have hget := (Dict.get?_eq_some_iff _ _ _).mpr hmem
    rw [get?_collect] at hget
    obtain ⟨-, hkey⟩ := mem_fiber.mp (settled_settle hget).1
    rw [hkey]
    exact hmem
  · intro hmem
    exact ⟨_, hmem, rfl⟩

/-- A meter is in the list with a denial when each of its answers is one. -/
theorem denied_of_mem_responses (h : r ∈ (collect Response.addr settle rs).entries.map Prod.snd) :
    r ∈ rs ∧ (r.denied = true ↔ ∀ x ∈ rs, x.addr = r.addr → x.denied = true) := by
  obtain ⟨hmem, hdenied⟩ := settled_settle (mem_responses.mp h)
  refine ⟨(mem_fiber.mp hmem).1, hdenied.trans ?_⟩
  simp only [mem_fiber, and_imp]

theorem exists_response (h : r ∈ rs) :
    ∃ r' ∈ (collect Response.addr settle rs).entries.map Prod.snd, r'.addr = r.addr := by
  cases hsettled : settled settle (fiber Response.addr rs r.addr) with
  | none =>
    rw [settled_eq_none_iff] at hsettled
    have hmem : r ∈ fiber Response.addr rs r.addr := mem_fiber.mpr ⟨h, rfl⟩
    rw [hsettled] at hmem
    cases hmem
  | some r' =>
    have haddr := (mem_fiber.mp (settled_settle hsettled).1).2
    rw [← haddr] at hsettled
    exact ⟨r', mem_responses.mpr hsettled, haddr⟩

theorem all_denied_iff :
    (∀ r ∈ (collect Response.addr settle rs).entries.map Prod.snd, r.denied = true) ↔
      ∀ r ∈ rs, r.denied = true := by
  constructor
  · intro h r hr
    obtain ⟨r', hr', haddr⟩ := exists_response hr
    exact (denied_of_mem_responses hr').2.mp (h r' hr') r hr haddr.symm
  · intro h r hr
    exact h r (denied_of_mem_responses hr).1

theorem responses_eq_nil_iff :
    (collect Response.addr settle rs).entries.map Prod.snd = [] ↔ rs = [] := by
  constructor
  · intro h
    by_contra hne
    obtain ⟨r, hr⟩ := List.exists_mem_of_ne_nil rs hne
    obtain ⟨r', hr', -⟩ := exists_response hr
    rw [h] at hr'
    cases hr'
  · rintro rfl
    rfl

theorem mem_deniedAddrs :
    addr ∈ deniedAddrs (byFrameId flow.ups) ↔
      ∃ r ∈ answers flow, r.addr = addr ∧ r.denied = true := by
  simp only [deniedAddrs, answers, List.mem_flatMap, List.mem_filterMap]
  constructor
  · rintro ⟨up, hup, item, hitem, haddr⟩
    cases item with
    | text addr' => cases haddr
    | reply addr' denied =>
      dsimp only at haddr
      split_ifs at haddr with hdenied
      cases haddr
      exact ⟨⟨_, denied, up.frameId⟩, ⟨up, hup, _, hitem, if_neg hdenied.2⟩, rfl, hdenied.1⟩
  · rintro ⟨r, ⟨up, hup, item, hitem, hr⟩, rfl, hdenied⟩
    refine ⟨up, hup, item, hitem, ?_⟩
    cases item with
    | text addr' =>
      rw [answer] at hr
      split_ifs at hr
      cases hr
      cases hdenied
    | reply addr' denied =>
      rw [answer] at hr
      split_ifs at hr with hempty
      cases hr
      exact if_pos ⟨hdenied, hempty⟩

end Responses

/-! ## The stage -/

/-- The stage and the response list of a report tell the same of the denials of a flow. -/
structure DenialConsistent (flow : Flow) (report : FlowReport) : Prop where
  denied : report.stage = .denied ↔
    report.responses ≠ [] ∧ ∀ r ∈ report.responses, r.denied = true
  answered : ∀ d a : Response, [d, a].Sublist (answers flow) → d.addr = a.addr →
    d.denied = true → a.denied = false → report.stage = .responded ∨ report.stage = .confirmed

/-- The CCO denies the receipt of a flow of uplinks. -/
def ReceiptDenied (flow : Flow) (confirms : Dict ℕ (List Frame)) (nf : Feature) : Prop :=
  nf.confirmVia0x0020 = true ∧
    ∃ cf ∈ ((confirms.get? flow.msgSeq).getD []).head?, cf.confirm = some false

/-- No denied meter has answered, unless there is a meter that has only answered; and the receipt
of a flow of uplinks is denied exactly when all its answers are denials. -/
def DenialsAgree (flow : Flow) (confirms : Dict ℕ (List Frame)) (nf : Feature) : Prop :=
  if flow.downs = [] then
    ReceiptDenied flow confirms nf ↔
      answers flow ≠ [] ∧ ∀ r ∈ answers flow, r.denied = true
  else
    (∃ r ∈ answers flow, ∀ d ∈ answers flow, d.addr = r.addr → d.denied = false) ∨
      ∀ r ∈ answers flow, ∀ d ∈ answers flow, d.addr = r.addr → d.denied = r.denied

section Stage
variable {flow : Flow} {downs ups : List Frame} {ack : Option Ack} {confirm : Option Confirm}
  {retransmissions : List Retransmission} {denials : List String} {nf : Feature}
  {acks : Dict ℕ Frame} {confirms : Dict ℕ (List Frame)} {directions : List String}

theorem byFrameId_eq_nil {frames : List Frame} : byFrameId frames = [] ↔ frames = [] := by
  rw [← List.length_eq_zero_iff, byFrameId, List.length_insertionSort, List.length_eq_zero_iff]

theorem flowStage_both (hdowns : downs ≠ []) (hups : ups ≠ []) {s : Stage}
    (hs : s = (flowStage flow downs ups ack confirm retransmissions denials nf).1) :
    (s = .denied ∧ flowResponses flow ≠ [] ∧ ∀ r ∈ flowResponses flow, r.addr ∈ denials) ∨
      ((s = .responded ∨ s = .confirmed) ∧
        ¬ (flowResponses flow ≠ [] ∧ ∀ r ∈ flowResponses flow, r.addr ∈ denials)) := by
  have hiff : ((flowResponses flow).map Response.addr ≠ [] ∧
      ∀ addr ∈ (flowResponses flow).map Response.addr, addr ∈ denials) ↔
      (flowResponses flow ≠ [] ∧ ∀ r ∈ flowResponses flow, r.addr ∈ denials) := by
    rw [List.forall_mem_map, ne_eq, List.map_eq_nil_iff]
  unfold flowStage at hs
  rw [if_pos ⟨hdowns, hups⟩] at hs
  rw [← hiff]
  by_cases hdenied : (flowResponses flow).map Response.addr ≠ [] ∧
      ∀ addr ∈ (flowResponses flow).map Response.addr, addr ∈ denials
  · dsimp only at hs
    rw [if_pos hdenied] at hs
    exact .inl ⟨hs, hdenied⟩
  · dsimp only at hs
    rw [if_neg hdenied] at hs
    rw [hs]
    exact .inr ⟨(ite_eq_or_eq _ _ _).symm, hdenied⟩

theorem flowStage_downs (hdowns : downs ≠ []) {s : Stage}
    (hs : s = (flowStage flow downs [] ack confirm retransmissions denials nf).1) :
    s = .acked ∨ s = .sent := by
  unfold flowStage at hs
  rw [if_neg fun h => h.2 rfl, if_pos hdowns] at hs
  rw [hs]
  exact ite_eq_or_eq _ _ _

theorem flowStage_ups (hups : ups ≠ []) {s : Stage}
    (hs : s = (flowStage flow [] ups ack confirm retransmissions denials nf).1) :
    (s = .denied ∧ ∃ c ∈ confirm, c.denied = true) ∨
      ((s = .responded ∨ s = .confirmed) ∧ ¬ ∃ c ∈ confirm, c.denied = true) := by
  unfold flowStage at hs
  rw [if_neg fun h => h.1 rfl, if_neg fun h => h rfl, if_pos hups] at hs
  cases confirm with
  | none =>
    refine .inr ⟨.inl hs, ?_⟩
    rintro ⟨c, ⟨⟩, -⟩
  | some c =>
    dsimp only at hs
    split_ifs at hs with hdenied
    · exact .inl ⟨hs, c, rfl, hdenied⟩
    · refine .inr ⟨.inr hs, ?_⟩
      rintro ⟨c', ⟨⟩, hdenied'⟩
      exact hdenied hdenied'

/-- Without a downlink the first 0x0020 frame is the receipt. -/
theorem confirm_denied_iff :
    (∃ c ∈ (confirmFrame nf confirms flow.msgSeq []).map fun cf =>
        (⟨cf.frameId, cf.logTime, cf.confirm = some false⟩ : Confirm), c.denied = true) ↔
      ReceiptDenied flow confirms nf := by
  rw [ReceiptDenied, confirmFrame]
  cases nf.confirmVia0x0020 with
  | false => simp
  | true =>
    cases (confirms.get? flow.msgSeq).getD [] with
    | nil => simp
    | cons cf rest => simp [beforeFirst]

/-- A denial of every meter is a denial by every answer, if no meter has given both. -/
theorem denied_once_iff {rs : List Response} :
    ((rs ≠ [] ∧ ∀ r ∈ rs, ∃ d ∈ rs, d.addr = r.addr ∧ d.denied = true) ↔
        (rs ≠ [] ∧ ∀ r ∈ rs, r.denied = true)) ↔
      (∃ r ∈ rs, ∀ d ∈ rs, d.addr = r.addr → d.denied = false) ∨
        ∀ r ∈ rs, ∀ d ∈ rs, d.addr = r.addr → d.denied = r.denied := by
  constructor
  · intro h
    by_cases honce : ∀ r ∈ rs, ∃ d ∈ rs, d.addr = r.addr ∧ d.denied = true
    · right
      intro r hr d hd _
      have hall := (h.mp ⟨List.ne_nil_of_mem hr, honce⟩).2
      rw [hall r hr, hall d hd]
    · left
      push Not at honce
      obtain ⟨r, hr, hnever⟩ := honce
      exact ⟨r, hr, fun d hd haddr => eq_false_of_ne_true (hnever d hd haddr)⟩
  · intro h
    constructor
    · rintro ⟨hne, honce⟩
      refine ⟨hne, fun r hr => ?_⟩
      obtain ⟨d, hd, haddr, hdenied⟩ := honce r hr
      rcases h with ⟨r', hr', hnever⟩ | hsame
      · obtain ⟨d', hd', haddr', hdenied'⟩ := honce r' hr'
        rw [hnever d' hd' haddr'] at hdenied'
        cases hdenied'
      · rw [← hsame r hr d hd haddr, hdenied]
    · rintro ⟨hne, hall⟩
      exact ⟨hne, fun r hr => ⟨r, hr, rfl, hall r hr⟩⟩

/-- In what the final list says of the answers. -/
theorem final_denied_iff :
    (flowResponses flow ≠ [] ∧ ∀ r ∈ flowResponses flow, r.denied = true) ↔
      answers flow ≠ [] ∧ ∀ r ∈ answers flow, r.denied = true := by
  rw [flowResponses_eq, all_denied_iff, ne_eq, responses_eq_nil_iff]

theorem denied_once_of_addrs :
    (flowResponses flow ≠ [] ∧ ∀ r ∈ flowResponses flow, r.addr ∈ deniedAddrs (byFrameId flow.ups)) ↔
      answers flow ≠ [] ∧ ∀ r ∈ answers flow, ∃ d ∈ answers flow, d.addr = r.addr ∧ d.denied = true := by
  simp only [mem_deniedAddrs]
  rw [flowResponses_eq, ne_eq, responses_eq_nil_iff]
  refine and_congr_right fun _ => ⟨fun h r hr => ?_, fun h r hr => ?_⟩
  · obtain ⟨r', hr', haddr⟩ := exists_response hr
    rw [← haddr]
    exact h r' hr'
  · exact h r (denied_of_mem_responses hr).1

theorem not_all_denied {rs : List Response} {d a : Response} (h : [d, a].Sublist rs)
    (ha : a.denied = false) : ¬ (rs ≠ [] ∧ ∀ r ∈ rs, r.denied = true) := by
  rintro ⟨-, hall⟩
  have hmem := h.subset (List.mem_cons_of_mem d (List.mem_singleton_self a))
  rw [hall a hmem] at ha
  cases ha

end Stage

/-- The stage of a flow tells of its denials what the response list does exactly when no denied
meter has answered beside denied ones only, and the receipt of uplinks agrees with them. -/
theorem denialConsistent_iff (flow : Flow) (acks : Dict ℕ Frame) (confirms : Dict ℕ (List Frame))
    (nf : Feature) (directions : List String) :
    DenialConsistent flow (flowReport flow acks confirms nf directions) ↔
      DenialsAgree flow confirms nf := by
  set report := flowReport flow acks confirms nf directions with hreport
  have hresponses : report.responses = flowResponses flow := rfl
  -- the two halves agree once the stage is one of three
  have hconsistent {P : Prop} (hstage : (report.stage = .denied ∧ P) ∨
      ((report.stage = .responded ∨ report.stage = .confirmed) ∧ ¬ P)) :
      DenialConsistent flow report ↔
        (P ↔ answers flow ≠ [] ∧ ∀ r ∈ answers flow, r.denied = true) := by
    have hdenied : report.stage = .denied ↔ P := by
      rcases hstage with ⟨hstage, hP⟩ | ⟨hstage | hstage, hP⟩
      · exact ⟨fun _ => hP, fun _ => hstage⟩
      · rw [hstage]
        exact ⟨fun h => (by cases h), fun h => absurd h hP⟩
      · rw [hstage]
        exact ⟨fun h => (by cases h), fun h => absurd h hP⟩
    rw [← final_denied_iff, ← hdenied]
    constructor
    · exact fun h => h.denied
    · intro h
      refine ⟨h, fun d a hsub _ _ ha => ?_⟩
      have hnot := not_all_denied hsub ha
      rw [← final_denied_iff, ← h, hdenied] at hnot
      exact (hstage.resolve_left fun h' => hnot h'.2).1
  rw [DenialsAgree]
  by_cases hdowns : flow.downs = []
  · have hups : byFrameId flow.ups ≠ [] := by
      have hcaptured := flow.captured
      rw [hdowns, List.nil_append] at hcaptured
      rwa [ne_eq, byFrameId_eq_nil]
    have hdowns' := byFrameId_eq_nil.mpr hdowns
    have hstage := flowStage_ups hups (s := report.stage) (by rw [hreport, flowReport, hdowns'])
    rw [hconsistent hstage, if_pos hdowns, confirm_denied_iff]
  · have hdowns' : byFrameId flow.downs ≠ [] := fun h => hdowns (byFrameId_eq_nil.mp h)
    rw [if_neg hdowns, ← denied_once_iff]
    by_cases hups : byFrameId flow.ups = []
    · have hanswers : answers flow = [] := by rw [answers, hups, List.flatMap_nil]
      have hstage : report.stage ≠ .denied := by
        have hs := flowStage_downs hdowns' (s := report.stage) (by rw [hreport, flowReport, hups])
        rcases hs with hs | hs <;> rw [hs] <;> decide
      refine iff_of_true ⟨iff_of_false hstage ?_, fun d a hsub => ?_⟩ ?_
      · rw [hresponses, final_denied_iff, hanswers]
        exact fun h => h.1 rfl
      · rw [hanswers] at hsub
        cases hsub
      · rw [hanswers]
        exact iff_of_false (fun h => h.1 rfl) fun h => h.1 rfl
    · have hstage := flowStage_both hdowns' hups (s := report.stage) rfl
      rw [hconsistent hstage, denied_once_of_addrs]

/-- A read request, the denial of the meter, and its data after a retry. -/
def deniedThenRead : List Frame :=
  [{ frameId := 1, flowDir := some 0, msgSeq := some 5, meterAddrs := some [.text "112233445566"] },
    { frameId := 2, flowDir := some 1, msgSeq := some 5,
      meterAddrs := some [.reply "112233445566" true] },
    { frameId := 3, flowDir := some 1, msgSeq := some 5,
      meterAddrs := some [.reply "112233445566" false] }]

def readFeature : Feature :=
  { appId := "0003", useAckEvidence := false, confirmVia0x0020 := false }

theorem read_after_denial_denied :
    ¬ ∀ (cluster : List Frame) (acks : Dict ℕ Frame) (confirms : Dict ℕ (List Frame))
      (nf : Feature) (directions : List String), ∀ flow ∈ buildFlows cluster nf.appId,
        DenialConsistent flow (flowReport flow acks confirms nf directions) := by
  intro h
  have hflow := h deniedThenRead .empty .empty readFeature []
  rw [show buildFlows deniedThenRead readFeature.appId =
    [⟨"0003", 5, deniedThenRead.take 1, deniedThenRead.drop 1, List.cons_ne_nil _ _⟩] from rfl,
    List.forall_mem_singleton] at hflow
  have hall := (hflow.denied.mp (by decide)).2
  cases hall ⟨"112233445566", false, 3⟩ List.mem_cons_self

end HplcWorkbench.Trace
