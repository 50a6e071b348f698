import HplcWorkbench.FlowMatching
import HplcWorkbench.RunEntryPoints

/-!
# The verdict of a run on its flow

A run takes its verdict and its assertions from the lists of the comparison. An optional step that is
missing is on a list, though the comparison passes with it; a negative step that is satisfied has no
hit, and its assertion fails.
-/

namespace HplcWorkbench.FlowComparison
open Orchestration (Surroundings StepsRequest Simcon Run Report AssertionResult MonitorResult Gives scanned
  stimulated compared feedbackOf collected verdictInconclusiveReasons verdictOf assertionsOf runStages)

/-! ## What the run gets -/

def StepStatus.text : StepStatus → String
  | .hit => "hit"
  | .missing => "missing"
  | .timeout => "timeout"
  | .negateTriggered => "negate_triggered"
  | .negateOk => "negate_ok"

theorem StepStatus.text_eq_hit {status : StepStatus} : status.text = "hit" ↔ status = .hit := by
  cases status <;> decide +kernel

def FlowVerdict.text : FlowVerdict → String
  | .pass => "pass"
  | .fail => "fail"

def Entry.toFlowStep (entry : Entry) : Orchestration.FlowStep :=
  ⟨entry.step, entry.status.text, entry.actualTime.getD ""⟩

/-- `model_dump`, as far as the run reads it. -/
def Comparison.dump (c : Comparison) : Orchestration.FlowCompare where
  steps := c.steps.map Entry.toFlowStep
  missing := c.missing
  timeouts := c.timeouts
  outOfOrder := c.outOfOrder
  negated := c.negated
  verdict := c.verdict.text

/-- The name that the run has for a step. -/
def assertionName (step : ExpectedStep) : String := if step.step ≠ "" then step.step else step.eventType

section Runs
variable {V F D : Type} (zone : ℤ → ℤ) (eventOf : V → Event) (flow : List ExpectedStep)

/-- Surroundings with the flow of the scenario and the comparison with it. -/
def withFlow (env : Surroundings V F D) : Surroundings V F D :=
  { env with
    compareFlow := fun events => .ok (compareFlow zone flow (events.map eventOf)).dump
    expectedFlow := flow.map assertionName }

/-- The events of the scan. -/
def scanEvents (scan : Option (MonitorResult V)) : List Event := ((scan.map (·.events)).getD []).map eventOf

/-- The stimulus was skipped, has not said anything or has passed. -/
def StimulusPasses (simcon : Simcon V) : Prop :=
  ((simcon.bind id).any fun payload => decide (payload.summary.bind (·.verdict) ≠ some "pass")) = false

variable (env : Surroundings V F D) (request : StepsRequest)

/-- What the calls of a run have returned. -/
structure Returned (frames : List F) (scan : Option (MonitorResult V)) (simcon : Simcon V) : Prop where
  frames : env.listenerFrames = .ok frames
  scan : scanned env request = .ok scan
  simcon : stimulated env request = .ok simcon

/-- The comparison that the run has. -/
def comparisonOf (scan : Option (MonitorResult V)) : Option Comparison :=
  if request.skipCompare then none else some (compareFlow zone flow (scanEvents eventOf scan))

/-- If the run passes, no assertion of its report fails and no required step is unmatched. If nothing
else decides, the run passes exactly when the comparison does. -/
structure Consistent (frames : List F) (scan : Option (MonitorResult V)) (simcon : Simcon V)
    (report : Report D) : Prop where
  assertions : report.verdict = .pass → ∀ a ∈ report.assertions, a.outcome ≠ "fail"
  matched : report.verdict = .pass → ∀ x ∈ flowOutcomes zone flow (scanEvents eventOf scan),
    x.1.1.negate = false → x.1.1.optional = false → x.2.isHit = true
  verdicts : request.skipCompare = false → StimulusPasses simcon →
    verdictInconclusiveReasons request scan simcon frames = [] →
      (report.verdict = .pass ↔ (compareFlow zone flow (scanEvents eventOf scan)).verdict = .pass)

/-- The verdict and the assertions that a report has. -/
def judged : Orchestration.Call (Orchestration.Verdict × List AssertionResult) := do
  let frames ← env.listenerFrames
  let scan ← scanned env request
  let simcon ← stimulated env request
  let compare ← compared env request scan
  let feedback ← feedbackOf env scan simcon compare
  let reasons := verdictInconclusiveReasons request scan simcon frames
  let verdict := verdictOf simcon reasons compare
  let _ ← env.assemble (collected frames scan simcon compare feedback)
  pure (verdict, assertionsOf env simcon reasons compare verdict)

theorem gives_judged :
    Gives (fun report => (report.verdict, report.assertions)) (runStages env request none)
      (judged env request) := by
  open Orchestration in
  unfold runStages judged
  apply (gives_call _).bind
  intro frames _
  apply (gives_pure ()).skip
  apply (gives_record _ _ _ _).skip
  apply (gives_pure ()).skip
  apply gives_monitorStage.bind
  intro scan _
  apply (gives_pure ()).skip
  apply gives_stimulusStage.bind
  intro simcon _
  apply (gives_pure ()).skip
  apply (gives_compareStage scan).bind
  intro compare _
  apply (gives_pure ()).skip
  apply (gives_call _).bind
  intro feedback _
  apply (gives_record _ _ _ _).skip
  apply (gives_call _).bind
  intro detail _
  exact fun run => rfl

/-- A report has the verdict and the assertions that belong to the comparison. -/
theorem report_eq {run : Run} {report : Report D}
    (h : ((runStages (withFlow zone eventOf flow env) request none).run run).1 = .ok report)
    {frames : List F} {scan : Option (MonitorResult V)} {simcon : Simcon V}
    (hreturned : Returned env request frames scan simcon) :
    let compare := (comparisonOf zone eventOf flow request scan).map Comparison.dump
    let reasons := verdictInconclusiveReasons request scan simcon frames
    report.verdict = verdictOf simcon reasons compare ∧
      report.assertions = assertionsOf (withFlow zone eventOf flow env) simcon reasons compare report.verdict := by
  have hgives := gives_judged (withFlow zone eventOf flow env) request run
  rw [h] at hgives
  obtain ⟨frames', hframes, hrest⟩ := Orchestration.bind_ok_iff.mp hgives.symm
  obtain rfl : frames = frames' := Except.ok.inj (hreturned.frames.symm.trans hframes)
  obtain ⟨scan', hscan, hrest⟩ := Orchestration.bind_ok_iff.mp hrest
  obtain rfl : scan = scan' := Except.ok.inj (hreturned.scan.symm.trans hscan)
  obtain ⟨simcon', hsimcon, hrest⟩ := Orchestration.bind_ok_iff.mp hrest
  obtain rfl : simcon = simcon' := Except.ok.inj (hreturned.simcon.symm.trans hsimcon)
  obtain ⟨compare, hcompare, hrest⟩ := Orchestration.bind_ok_iff.mp hrest
  have hcompared : compare = (comparisonOf zone eventOf flow request scan).map Comparison.dump := by
    unfold compared at hcompare
    unfold comparisonOf
    split at hcompare
    · rename_i hskip
      rw [if_pos hskip]
      exact (Except.ok.inj hcompare).symm
    · rename_i hskip
      rw [if_neg hskip]
      exact (Except.ok.inj hcompare).symm
  obtain ⟨feedback, -, hrest⟩ := Orchestration.bind_ok_iff.mp hrest
  obtain ⟨detail, -, hrest⟩ := Orchestration.bind_ok_iff.mp hrest
  obtain ⟨hverdict, hassertions⟩ := Prod.mk.inj (Except.ok.inj hrest)
  dsimp only
  rw [← hcompared, ← hassertions, ← hverdict]
  exact ⟨rfl, rfl⟩

end Runs

/-! ## The verdict and the assertions -/

section Verdicts
variable {V F D : Type} {flow : List ExpectedStep}

theorem verdictOf_eq_pass_iff (simcon : Simcon V) (reasons : List String) (c : Option Comparison) :
    verdictOf simcon reasons (c.map Comparison.dump) = .pass ↔ StimulusPasses simcon ∧ reasons = [] ∧
      ∀ c' ∈ c, c'.missing = [] ∧ c'.timeouts = [] ∧ c'.negated = [] ∧ c'.outOfOrder = [] := by
  unfold verdictOf StimulusPasses
  cases hsimcon : (simcon.bind id).any fun payload => decide (payload.summary.bind (·.verdict) ≠ some "pass") with
  | true => simp
  | false =>
    by_cases hreasons : reasons = []
    · cases c with
      | none => simp [hreasons]
      | some c =>
        simp only [hreasons, Option.map_some, Option.any_some, Comparison.dump, decide_eq_true_eq]
        by_cases hlists : c.missing = [] ∧ c.timeouts = [] ∧ c.negated = [] ∧ c.outOfOrder = []
        · obtain ⟨h₁, h₂, h₃, h₄⟩ := hlists
          simp [h₁, h₂, h₃, h₄]
        · have hmarked : c.missing ≠ [] ∨ c.timeouts ≠ [] ∨ c.negated ≠ [] ∨ c.outOfOrder ≠ [] := by
            by_contra hno
            push Not at hno
            exact hlists hno
          simp [hmarked, hlists]
    · simp [hreasons]

/-- No assertion of a run that passes fails exactly when the first entry of every name is a hit. -/
theorem assertions_pass_iff (env : Surroundings V F D) (simcon : Simcon V) (reasons : List String)
    (compare : Option Orchestration.FlowCompare) :
    (∀ a ∈ assertionsOf env simcon reasons compare .pass, a.outcome ≠ "fail") ↔
      ∀ name ∈ env.expectedFlow,
        ((((compare.map (·.steps)).getD []).find? (·.step = name)).map (·.status)) = some "hit" := by
  have hpass : "pass" ≠ "fail" := by decide +kernel
  unfold assertionsOf
  dsimp only
  constructor
  · intro h name hname
    by_contra hno
    apply h _ (List.mem_append_left _ (List.mem_append_left _ (List.mem_map_of_mem hname)))
    exact if_neg hno
  · intro h a ha
    rcases List.mem_append.mp ha with ha | ha
    · rcases List.mem_append.mp ha with ha | ha
      · obtain ⟨name, hname, rfl⟩ := List.mem_map.mp ha
        dsimp only
        rw [if_pos (h name hname)]
        exact hpass
      · split at ha
        · obtain rfl := List.mem_singleton.mp ha
          exact hpass
        · cases ha
    · rw [if_neg (by decide)] at ha
      cases ha

/-- The first entry of a name in the comparison is a hit. -/
theorem find_dump (c : Comparison) (outs : List (Indexed × Outcome))
    (h : c.steps = outs.map fun x => entryOf x.1 x.2) (name : String) :
    ((c.dump.steps.find? (·.step = name)).map (·.status)) = some "hit" ↔
      ∃ x, outs.find? (fun x => decide (x.1.name = name)) = some x ∧ x.2.isHit = true := by
  have hname : (fun st : Orchestration.FlowStep => decide (st.step = name)) ∘ Entry.toFlowStep ∘
      (fun x : Indexed × Outcome => entryOf x.1 x.2) = fun x => decide (x.1.name = name) := by
    funext x
    rcases x with ⟨s, _ | _ | _ | _ | _⟩ <;> rfl
  have hstatus : ∀ x : Indexed × Outcome, (entryOf x.1 x.2).toFlowStep.status = "hit" ↔ x.2.isHit = true := by
    intro x
    rw [Entry.toFlowStep, StepStatus.text_eq_hit]
    rcases x with ⟨s, _ | _ | _ | _ | _⟩ <;> simp [entryOf, Outcome.isHit]
  rw [Comparison.dump, h, List.map_map, List.find?_map, hname]
  cases outs.find? fun x => decide (x.1.name = name) with
  | none => simp
  | some x =>
    rw [Option.map_some, Option.map_some, Option.some_inj]
    apply (hstatus x).trans
    constructor
    · exact fun hx => ⟨x, rfl, hx⟩
    · rintro ⟨x', hsome, hx⟩
      obtain rfl := Option.some.inj hsome
      exact hx

end Verdicts

/-! ## Kinds of outcomes -/

section Kinds
variable {zone : ℤ → ℤ} {events : List Event}

theorem outcomes_map_fst (steps : List Indexed) (place : Place) :
    (outcomes zone events steps place).map Prod.fst = steps := by
  induction steps generalizing place with
  | nil => rfl
  | cons s steps ih => rw [outcomes_cons, List.map_cons, ih]

theorem exists_place_of_mem_outcomes {steps : List Indexed} {place : Place} {x : Indexed × Outcome}
    (h : x ∈ outcomes zone events steps place) : ∃ place, x.2 = (advance zone events x.1.1 place).1 := by
  induction steps generalizing place with
  | nil => cases h
  | cons s steps ih =>
    rw [outcomes_cons] at h
    rcases List.mem_cons.mp h with rfl | h
    · exact ⟨place, rfl⟩
    · exact ih h

/-- A negative step is triggered or quiet, and a positive one is hit, late or missing. -/
theorem kind_of_mem_outcomes {steps : List Indexed} {place : Place} {x : Indexed × Outcome}
    (h : x ∈ outcomes zone events steps place) :
    (x.1.1.negate = true → x.2.isHit = false ∧ x.2.isMissing = false ∧ x.2.isLate = false) ∧
      (x.1.1.negate = false → x.2.isTriggered = false ∧
        (x.2.isHit = true ↔ x.2.isMissing = false ∧ x.2.isLate = false)) := by
  obtain ⟨place, hx⟩ := exists_place_of_mem_outcomes h
  rw [hx]
  unfold advance
  cases hnegate : x.1.1.negate with
  | true =>
    rw [if_pos rfl]
    refine ⟨fun _ => ?_, fun hfalse => absurd hfalse.symm Bool.false_ne_true⟩
    split <;> exact ⟨rfl, rfl, rfl⟩
  | false =>
    rw [if_neg Bool.false_ne_true]
    refine ⟨fun htrue => absurd htrue Bool.false_ne_true, fun _ => ?_⟩
    split
    · exact ⟨rfl, by simp [Outcome.isHit, Outcome.isMissing]⟩
    · dsimp only
      split
      · exact ⟨rfl, by simp [Outcome.isHit, Outcome.isLate]⟩
      · exact ⟨rfl, by simp [Outcome.isHit, Outcome.isMissing, Outcome.isLate]⟩

/-- Every positive step is hit, the optional ones too. -/
def AllHit (outs : List (Indexed × Outcome)) : Prop :=
  ∀ x ∈ outs, x.1.1.negate = false → x.2.isHit = true

variable (zone events) in
/-- Nothing is on the lists exactly when the matching succeeds and every positive step is hit. -/
theorem lists_nil_iff (steps : List Indexed) (place : Place) :
    (namesOf Outcome.isMissing (outcomes zone events steps place) = [] ∧
      namesOf Outcome.isLate (outcomes zone events steps place) = [] ∧
      namesOf Outcome.isTriggered (outcomes zone events steps place) = []) ↔
    (outcomes zone events steps place).all succeeds = true ∧ AllHit (outcomes zone events steps place) := by
  constructor
  · rintro ⟨hmissing, hlate, htriggered⟩
    refine ⟨all_succeeds hmissing hlate htriggered, fun x hx hpositive => ?_⟩
    exact ((kind_of_mem_outcomes hx).2 hpositive).2.mpr
      ⟨namesOf_eq_nil_iff.mp hmissing x hx, namesOf_eq_nil_iff.mp hlate x hx⟩
  · rintro ⟨hsucceeds, hhit⟩
    rw [List.all_eq_true] at hsucceeds
    rw [namesOf_eq_nil_iff, namesOf_eq_nil_iff, namesOf_eq_nil_iff]
    refine ⟨fun x hx => ?_, fun x hx => ?_, fun x hx => ?_⟩
    · cases hnegate : x.1.1.negate with
      | true => exact ((kind_of_mem_outcomes hx).1 hnegate).2.1
      | false => exact (((kind_of_mem_outcomes hx).2 hnegate).2.mp (hhit x hx hnegate)).1
    · cases hnegate : x.1.1.negate with
      | true => exact ((kind_of_mem_outcomes hx).1 hnegate).2.2
      | false => exact (((kind_of_mem_outcomes hx).2 hnegate).2.mp (hhit x hx hnegate)).2
    · have hx' := hsucceeds x hx
      rcases x with ⟨s, _ | _ | _ | _ | _⟩
      · rfl
      · rfl
      · rfl
      · cases hx'
      · rfl

end Kinds

/-! ## When the three agree -/

section Agreement
variable {V F D : Type} {zone : ℤ → ℤ} {eventOf : V → Event} {flow : List ExpectedStep}
  {env : Surroundings V F D} {request : StepsRequest} {frames : List F} {scan : Option (MonitorResult V)}
  {simcon : Simcon V} {report : Report D}

/-- The first step that the comparison gives the name of this step is a positive one. -/
def NamesPositive (flow : List ExpectedStep) (step : ExpectedStep) : Prop :=
  ∃ s : Indexed, flow.zipIdx.find? (fun s : Indexed => decide (s.name = assertionName step)) = some s ∧
    s.1.negate = false

/-- Where every positive step is hit, the assertion of a step passes if its name is that of a positive
one. -/
theorem assertion_passes_iff {events : List Event} (hhit : AllHit (flowOutcomes zone flow events))
    (step : ExpectedStep) :
    (((((compareFlow zone flow events).dump.steps.find? (·.step = assertionName step)).map (·.status))) =
      some "hit") ↔ NamesPositive flow step := by
  rw [find_dump _ _ (compareFlow_spec zone flow events).1]
  have hfst : flow.zipIdx = (flowOutcomes zone flow events).map Prod.fst := (outcomes_map_fst _ _).symm
  unfold NamesPositive
  rw [hfst, List.find?_map]
  constructor
  · rintro ⟨x, hfind, hx⟩
    refine ⟨x.1, Option.map_eq_some_iff.mpr ⟨x, hfind, rfl⟩, ?_⟩
    cases hnegate : x.1.1.negate with
    | false => rfl
    | true =>
      rw [((kind_of_mem_outcomes (List.mem_of_find?_eq_some hfind)).1 hnegate).1] at hx
      cases hx
  · rintro ⟨s, hfind, hpositive⟩
    obtain ⟨x, hx, rfl⟩ := Option.map_eq_some_iff.mp hfind
    exact ⟨x, hx, hhit x (List.mem_of_find?_eq_some hx) hpositive⟩

section Reports

/-- A run without comparison that passes has an assertion that fails for every step. -/
theorem consistent_skipped (hskip : request.skipCompare = true)
    (hverdict : report.verdict = verdictOf simcon (verdictInconclusiveReasons request scan simcon frames)
      ((none : Option Comparison).map Comparison.dump))
    (hassertions : report.assertions = assertionsOf (withFlow zone eventOf flow env) simcon
      (verdictInconclusiveReasons request scan simcon frames) ((none : Option Comparison).map Comparison.dump)
      report.verdict) :
    Consistent zone eventOf flow request frames scan simcon report ↔
      (StimulusPasses simcon → verdictInconclusiveReasons request scan simcon frames = [] → flow = []) := by
  have hpass : report.verdict = .pass ↔ StimulusPasses simcon ∧
      verdictInconclusiveReasons request scan simcon frames = [] := by
    rw [hverdict, verdictOf_eq_pass_iff]
    exact and_congr_right fun _ => and_iff_left fun _ hc => by cases hc
  constructor
  · intro h hstimulus hreasons
    have hverdict' := hpass.mpr ⟨hstimulus, hreasons⟩
    have hnone := h.assertions hverdict'
    rw [hassertions, hverdict', assertions_pass_iff] at hnone
    apply List.eq_nil_iff_forall_not_mem.mpr
    intro step hstep
    cases hnone (assertionName step) (List.mem_map_of_mem hstep)
  · intro h
    refine ⟨fun hverdict' => ?_, fun hverdict' x hx => ?_, fun hno => ?_⟩
    · obtain ⟨hstimulus, hreasons⟩ := hpass.mp hverdict'
      rw [hassertions, hverdict', assertions_pass_iff]
      intro name hname
      obtain rfl := h hstimulus hreasons
      cases hname
    · obtain ⟨hstimulus, hreasons⟩ := hpass.mp hverdict'
      obtain rfl := h hstimulus hreasons
      cases hx
    · rw [hskip] at hno
      cases hno

theorem consistent_compared (hskip : request.skipCompare = false)
    (hverdict : report.verdict = verdictOf simcon (verdictInconclusiveReasons request scan simcon frames)
      ((some (compareFlow zone flow (scanEvents eventOf scan))).map Comparison.dump))
    (hassertions : report.assertions = assertionsOf (withFlow zone eventOf flow env) simcon
      (verdictInconclusiveReasons request scan simcon frames)
      ((some (compareFlow zone flow (scanEvents eventOf scan))).map Comparison.dump) report.verdict) :
    Consistent zone eventOf flow request frames scan simcon report ↔
      (StimulusPasses simcon → verdictInconclusiveReasons request scan simcon frames = [] →
        (flowOutcomes zone flow (scanEvents eventOf scan)).all succeeds = true →
        (hitPlaces zone flow (scanEvents eventOf scan)).Pairwise (· ≤ ·) →
          AllHit (flowOutcomes zone flow (scanEvents eventOf scan)) ∧
            ∀ step ∈ flow, NamesPositive flow step) := by
  obtain ⟨-, hmissing, htimeouts, hnegated, hcverdict, horder⟩ :=
    compareFlow_spec zone flow (scanEvents eventOf scan)
  have hlists := lists_nil_iff zone (inTimeOrder zone (scanEvents eventOf scan))
    flow.zipIdx { rest := inTimeOrder zone (scanEvents eventOf scan) }
  have hpass : report.verdict = .pass ↔ StimulusPasses simcon ∧
      verdictInconclusiveReasons request scan simcon frames = [] ∧
      ((flowOutcomes zone flow (scanEvents eventOf scan)).all succeeds = true ∧
        AllHit (flowOutcomes zone flow (scanEvents eventOf scan))) ∧
      (hitPlaces zone flow (scanEvents eventOf scan)).Pairwise (· ≤ ·) := by
    rw [hverdict, verdictOf_eq_pass_iff]
    apply and_congr_right fun _ => and_congr_right fun _ => ?_
    rw [← and_assoc] at hlists
    constructor
    · intro hnil
      obtain ⟨h₁, h₂, h₃, h₄⟩ := hnil _ rfl
      rw [hmissing] at h₁
      rw [htimeouts] at h₂
      rw [hnegated] at h₃
      exact ⟨hlists.mp ⟨⟨h₁, h₂⟩, h₃⟩, horder.mp h₄⟩
    · rintro ⟨hclean, hinorder⟩ c hc
      obtain rfl := Option.some.inj hc
      obtain ⟨⟨h₁, h₂⟩, h₃⟩ := hlists.mpr hclean
      rw [hmissing, htimeouts, hnegated]
      exact ⟨h₁, h₂, h₃, horder.mpr hinorder⟩
  have hassert : report.verdict = .pass → AllHit (flowOutcomes zone flow (scanEvents eventOf scan)) →
      ((∀ a ∈ report.assertions, a.outcome ≠ "fail") ↔ ∀ step ∈ flow, NamesPositive flow step) := by
    intro hverdict' hhit
    rw [hassertions, hverdict', assertions_pass_iff]
    constructor
    · intro h step hstep
      exact (assertion_passes_iff hhit step).mp (h _ (List.mem_map_of_mem hstep))
    · intro h name hname
      obtain ⟨step, hstep, rfl⟩ := List.mem_map.mp hname
      exact (assertion_passes_iff hhit step).mpr (h step hstep)
  constructor
  · intro h hstimulus hreasons hsucceeds hinorder
    have hverdict' := (h.verdicts hskip hstimulus hreasons).mpr (hcverdict.mpr ⟨hsucceeds, hinorder⟩)
    have hhit := (hpass.mp hverdict').2.2.1.2
    exact ⟨hhit, (hassert hverdict' hhit).mp (h.assertions hverdict')⟩
  · intro h
    refine ⟨fun hverdict' => ?_, fun hverdict' x hx hpositive _ => ?_, fun _ hstimulus hreasons => ?_⟩
    · obtain ⟨hstimulus, hreasons, ⟨hsucceeds, hhit⟩, hinorder⟩ := hpass.mp hverdict'
      exact (hassert hverdict' hhit).mpr (h hstimulus hreasons hsucceeds hinorder).2
    · exact (hpass.mp hverdict').2.2.1.2 x hx hpositive
    · rw [hcverdict, hpass]
      constructor
      · rintro ⟨-, -, ⟨hsucceeds, -⟩, hinorder⟩
        exact ⟨hsucceeds, hinorder⟩
      · rintro ⟨hsucceeds, hinorder⟩
        exact ⟨hstimulus, hreasons, ⟨hsucceeds, (h hstimulus hreasons hsucceeds hinorder).1⟩, hinorder⟩

end Reports

/-- The verdict, the assertions and the comparison agree exactly when, if nothing else decides the run:
a run without comparison has no flow, and otherwise, if the matching satisfies the flow in order, every
optional step is hit too and every name is first that of a positive step. -/
theorem consistent_iff {run : Run}
    (h : ((runStages (withFlow zone eventOf flow env) request none).run run).1 = .ok report)
    (hreturned : Returned env request frames scan simcon) :
    Consistent zone eventOf flow request frames scan simcon report ↔
      (StimulusPasses simcon → verdictInconclusiveReasons request scan simcon frames = [] →
        (request.skipCompare = true → flow = []) ∧
        (request.skipCompare = false →
          (flowOutcomes zone flow (scanEvents eventOf scan)).all succeeds = true →
          (hitPlaces zone flow (scanEvents eventOf scan)).Pairwise (· ≤ ·) →
            AllHit (flowOutcomes zone flow (scanEvents eventOf scan)) ∧
              ∀ step ∈ flow, NamesPositive flow step)) := by
  obtain ⟨hverdict, hassertions⟩ := report_eq zone eventOf flow env request h hreturned
  cases hskip : request.skipCompare with
  | true =>
    have hcompare : comparisonOf zone eventOf flow request scan = none := if_pos hskip
    rw [hcompare] at hverdict hassertions
    exact (consistent_skipped hskip hverdict hassertions).trans
      ⟨fun h hstimulus hreasons => ⟨fun _ => h hstimulus hreasons, fun hno => absurd hno.symm Bool.false_ne_true⟩,
        fun h hstimulus hreasons => (h hstimulus hreasons).1 rfl⟩
  | false =>
    have hcompare : comparisonOf zone eventOf flow request scan =
        some (compareFlow zone flow (scanEvents eventOf scan)) := if_neg (by rw [hskip]; exact Bool.false_ne_true)
    rw [hcompare] at hverdict hassertions
    exact (consistent_compared hskip hverdict hassertions).trans
      ⟨fun h hstimulus hreasons => ⟨fun hno => absurd hno Bool.false_ne_true, fun _ => h hstimulus hreasons⟩,
        fun h hstimulus hreasons => (h hstimulus hreasons).2 rfl⟩

end Agreement

/-! ## A negative step that is satisfied -/

/-- A run whose calls return, with one event. -/
def joined : Surroundings Event String Unit where
  listenerFrames := .ok []
  scan := .ok { events := [⟨some "network.onnet", none, "10:00:01"⟩] }
  stimulus := .ok none
  compareFlow := fun _ => .ok {}
  buildFeedback := fun _ _ _ => .ok []
  assemble := fun _ => .ok ()
  encodes := fun _ => true
  isIdentifier := fun _ => true
  expectedFlow := []

/-- The event occurs and the error does not. -/
def joinFlow : List ExpectedStep :=
  [{ step := "onnet", eventType := "network.onnet", withinMs := 30000 },
    { step := "no_error", eventType := "join.assoc.err", negate := true }]

def joinScan : MonitorResult Event := { events := [⟨some "network.onnet", none, "10:00:01"⟩] }

def joinRequest : StepsRequest := { skipStimulus := true }

def joinRun : Run := { id := "run-1" }

theorem returned_joined : Returned joined joinRequest [] (some joinScan) none := ⟨rfl, rfl, rfl⟩

theorem exists_report {V F D : Type} {env : Surroundings V F D} {request : StepsRequest} {detail : D}
    (h : Orchestration.outcome env request = .ok detail) (run : Run) :
    ∃ report, ((runStages env request none).run run).1 = .ok report := by
  have hgives := Orchestration.gives_runStages env request run
  rw [h] at hgives
  cases hrun : ((runStages env request none).run run).1 with
  | error e =>
    rw [hrun] at hgives
    cases hgives
  | ok report => exact ⟨report, rfl⟩

theorem joined_consistent_iff : ∃ report,
    ((runStages (withFlow (fun _ => 0) id joinFlow joined) joinRequest none).run joinRun).1 = .ok report ∧
    (Consistent (fun _ => 0) id joinFlow joinRequest ([] : List String) (some joinScan) none report ↔
      (StimulusPasses (none : Simcon Event) →
        verdictInconclusiveReasons joinRequest (some joinScan) none ([] : List String) = [] →
        (joinRequest.skipCompare = true → joinFlow = []) ∧
        (joinRequest.skipCompare = false →
          (flowOutcomes (fun _ => 0) joinFlow (scanEvents id (some joinScan))).all succeeds = true →
          (hitPlaces (fun _ => 0) joinFlow (scanEvents id (some joinScan))).Pairwise (· ≤ ·) →
            AllHit (flowOutcomes (fun _ => 0) joinFlow (scanEvents id (some joinScan))) ∧
              ∀ step ∈ joinFlow, NamesPositive joinFlow step))) := by
  obtain ⟨report, hreport⟩ := exists_report (show Orchestration.outcome (withFlow (fun _ => 0) id joinFlow joined)
    joinRequest = .ok () from rfl) joinRun
  exact ⟨report, hreport, consistent_iff hreport returned_joined⟩

/-- The run passes, and the assertion of the step that did not occur fails. -/
theorem joined_not_consistent : ¬ ∀ (flow : List ExpectedStep) (env : Surroundings Event String Unit)
    (request : StepsRequest) (frames : List String) (scan : Option (MonitorResult Event))
    (simcon : Simcon Event) (run : Run) (report : Report Unit), Returned env request frames scan simcon →
      ((runStages (withFlow (fun _ => 0) id flow env) request none).run run).1 = .ok report →
      Consistent (fun _ => 0) id flow request frames scan simcon report := by
  intro hclaim
  obtain ⟨report, hreport⟩ := exists_report (show Orchestration.outcome (withFlow (fun _ => 0) id joinFlow joined)
    joinRequest = .ok () from rfl) joinRun
  have h := hclaim joinFlow joined _ _ _ _ _ report returned_joined hreport
  obtain ⟨hverdict, hassertions⟩ := report_eq (fun _ => 0) id joinFlow joined _ hreport returned_joined
  have hpass : report.verdict = .pass := by
    rw [hverdict]
    decide +kernel
  rw [hpass] at hassertions
  have hfail : ∃ a ∈ report.assertions, a.outcome = "fail" := by
    rw [hassertions]
    decide +kernel
  obtain ⟨a, ha, houtcome⟩ := hfail
  exact h.assertions hpass a ha houtcome

end HplcWorkbench.FlowComparison
