import HplcWorkbench.FlowTimes
import Mathlib.Data.List.Sort
import Mathlib.Data.List.Chain

/-!
# Matching an expected flow with events

The steps of a flow are matched one after the other with the events in the order of their times. A
step may be optional, and a negative step must not occur. Afterwards the places of the steps that
were hit are looked up again by their types.

Every step has an outcome, and the matching goes on behind the event that the step was matched with.
The lists of the comparison are read off the outcomes, and its verdict is about them and about the
places of the hits.
-/

namespace HplcWorkbench.FlowComparison

/-- An event of a scan. -/
structure Event where
  type : Option String := none
  label : Option String := none
  time : String := ""
  deriving DecidableEq, Repr

/-- A step of `expected_flow`; a text that is missing is empty. -/
structure ExpectedStep where
  step : String := ""
  eventType : String := ""
  withinMs : ℚ := 60000
  negate : Bool := false
  optional : Bool := false
  deriving DecidableEq, Repr

inductive StepStatus
  | hit
  | missing
  | timeout
  | negateTriggered
  | negateOk
  deriving DecidableEq, Repr

/-- An entry of `steps`. -/
structure Entry where
  step : String
  status : StepStatus
  expectedWithinMs : Option ℚ := none
  actualTime : Option String := none
  actualEvent : Option (Option String × String) := none
  deriving DecidableEq, Repr

inductive FlowVerdict
  | pass
  | fail
  deriving DecidableEq, Repr

/-- `FlowCompare`. -/
structure Comparison where
  steps : List Entry := []
  missing : List String := []
  timeouts : List String := []
  outOfOrder : List String := []
  negated : List String := []
  verdict : FlowVerdict := .pass
  deriving DecidableEq, Repr

/-- `_matches`. -/
def matchesType (e : Event) (eventType : String) : Bool :=
  e.type = some eventType || e.label = some eventType

section Compare
variable (zone : ℤ → ℤ)

def Event.seconds (e : Event) : ℚ := evTime zone e.time

def inTimeOrder (events : List Event) : List Event :=
  events.insertionSort fun e f => e.seconds zone ≤ f.seconds zone

/-- The name of a step, for the one with index `idx`. -/
def stepName (step : ExpectedStep) (idx : ℕ) : String :=
  if step.step ≠ "" then step.step
  else if step.eventType ≠ "" then step.eventType
  else "step" ++ toString idx

/-- The state of the loop over the steps; `rest` are the events from the cursor on. -/
structure Progress where
  rest : List Event
  lastTime : Option ℚ := none
  flow : Comparison := {}

def negateStep (events : List Event) (name : String) (step : ExpectedStep) (p : Progress) : Progress :=
  match events.find? fun e => p.lastTime.all (· ≤ e.seconds zone) && matchesType e step.eventType with
  | some e =>
    { p with
      flow := { p.flow with
        steps := p.flow.steps ++
          [{ step := name, status := .negateTriggered, actualEvent := some (e.type, e.time) }]
        negated := p.flow.negated ++ [name]
        verdict := .fail } }
  | none =>
    { p with flow := { p.flow with steps := p.flow.steps ++ [{ step := name, status := .negateOk }] } }

def missingStep (name : String) (step : ExpectedStep) (p : Progress) : Progress :=
  { p with
    flow := { p.flow with
      steps := p.flow.steps ++
        [{ step := name, status := .missing, expectedWithinMs := some step.withinMs }]
      missing := p.flow.missing ++ [name]
      verdict := if step.optional then p.flow.verdict else .fail } }

/-- The event is found; `rest` are the events behind it. -/
def foundStep (name : String) (step : ExpectedStep) (found : Event) (rest : List Event) (p : Progress) :
    Progress :=
  let now := found.seconds zone
  { rest := rest
    lastTime := some now
    flow :=
      if p.lastTime.any fun last => step.withinMs < (now - last) * 1000 then
        { p.flow with
          steps := p.flow.steps ++ [{
            step := name, status := .timeout, actualTime := some found.time,
            expectedWithinMs := some step.withinMs }]
          timeouts := p.flow.timeouts ++ [name]
          verdict := if step.optional then p.flow.verdict else .fail }
      else
        { p.flow with
          steps := p.flow.steps ++ [{ step := name, status := .hit, actualTime := some found.time }] } }

def compareStep (events : List Event) (p : Progress) (entry : ExpectedStep × ℕ) : Progress :=
  let (step, idx) := entry
  let name := stepName step idx
  if step.negate then negateStep zone events name step p
  else
    match p.rest.dropWhile fun e => !matchesType e step.eventType with
    | [] => missingStep name step p
    | found :: rest => foundStep zone name step found rest p

/-! ## The order of the steps -/

/-- The type of the first step of a name. -/
def lookupType (flow : List ExpectedStep) (name : String) : Option String :=
  (flow.find? fun es => (if es.step ≠ "" then es.step else es.eventType) = name).map (·.eventType)

/-- The place of the first event of the type that a name stands for. -/
def hitIndex (flow : List ExpectedStep) (events : List Event) (name : String) : Option ℕ :=
  match lookupType flow name with
  | none => none
  | some eventType =>
    if eventType = "" then none else events.findIdx? fun e => matchesType e eventType

def hitIndices (flow : List ExpectedStep) (events : List Event) (steps : List Entry) : List ℕ :=
  (steps.filter fun entry => entry.status = .hit).filterMap fun entry => hitIndex flow events entry.step

/-- Where a place is less than the one before it, the verdict fails. -/
def orderStep (hits : List ℕ) (flow : Comparison) (i : ℕ) : Comparison :=
  if hits.getD i 0 < hits.getD (i - 1) 0 then
    let name := (flow.steps[i]?.map (·.step)).getD "?"
    { flow with
      outOfOrder := if name ∈ flow.outOfOrder then flow.outOfOrder else flow.outOfOrder ++ [name]
      verdict := .fail }
  else flow

def checkOrder (hits : List ℕ) (flow : Comparison) : Comparison :=
  (List.range' 1 (hits.length - 1)).foldl (orderStep hits) flow

/-- `compare_flow`. -/
def compareFlow (expectedFlow : List ExpectedStep) (actualEvents : List Event) : Comparison :=
  if expectedFlow = [] then {}
  else
    let events := inTimeOrder zone actualEvents
    let matched := (expectedFlow.zipIdx.foldl (compareStep zone events) { rest := events }).flow
    let flow := checkOrder (hitIndices expectedFlow events matched.steps) matched
    if flow.verdict = .fail ∧ flow.missing = [] ∧ flow.timeouts = [] ∧ flow.outOfOrder = [] ∧
        flow.negated = [] then
      { flow with verdict := .pass }
    else flow

end Compare

end HplcWorkbench.FlowComparison

namespace HplcWorkbench.FlowComparison

inductive Outcome
  | hit (e : Event)
  | late (e : Event)
  | missing
  | triggered (e : Event)
  | quiet
  deriving DecidableEq, Repr

/-- The events that are still to come, and the last one that was matched. -/
structure Place where
  rest : List Event
  last : Option Event := none
  deriving DecidableEq, Repr

/-- A step of the flow with its index. -/
abbrev Indexed := ExpectedStep × ℕ

def Indexed.name (s : Indexed) : String := stepName s.1 s.2

section Outcomes
variable (zone : ℤ → ℤ) (events : List Event)

/-- From `p` to `e` it takes longer than the step may. -/
def TooLate (step : ExpectedStep) (p e : Event) : Prop :=
  step.withinMs < (e.seconds zone - p.seconds zone) * 1000

instance (step : ExpectedStep) (p e : Event) : Decidable (TooLate zone step p e) :=
  inferInstanceAs (Decidable (_ < _))

def advance (step : ExpectedStep) (place : Place) : Outcome × Place :=
  if step.negate then
    match events.find? fun e => (place.last.map (·.seconds zone)).all (· ≤ e.seconds zone) &&
        matchesType e step.eventType with
    | some e => (.triggered e, place)
    | none => (.quiet, place)
  else
    match place.rest.dropWhile fun e => !matchesType e step.eventType with
    | [] => (.missing, place)
    | e :: rest =>
      (if place.last.any fun p => decide (TooLate zone step p e) then .late e else .hit e, ⟨rest, some e⟩)

/-- The outcomes of the steps, each at the place where the one before it has left off. -/
def outcomes : List Indexed → Place → List (Indexed × Outcome)
  | [], _ => []
  | s :: steps, place =>
    let (outcome, place) := advance zone events s.1 place
    (s, outcome) :: outcomes steps place

def entryOf (s : Indexed) : Outcome → Entry
  | .hit e => { step := s.name, status := .hit, actualTime := some e.time }
  | .late e =>
    { step := s.name, status := .timeout, actualTime := some e.time, expectedWithinMs := some s.1.withinMs }
  | .missing => { step := s.name, status := .missing, expectedWithinMs := some s.1.withinMs }
  | .triggered e => { step := s.name, status := .negateTriggered, actualEvent := some (e.type, e.time) }
  | .quiet => { step := s.name, status := .negateOk }

def Outcome.isMissing : Outcome → Bool
  | .missing => true
  | _ => false

def Outcome.isLate : Outcome → Bool
  | .late _ => true
  | _ => false

def Outcome.isTriggered : Outcome → Bool
  | .triggered _ => true
  | _ => false

def Outcome.isHit : Outcome → Bool
  | .hit _ => true
  | _ => false

/-- The outcome lets the verdict stand. -/
def succeeds (x : Indexed × Outcome) : Bool :=
  match x.2 with
  | .hit _ => true
  | .quiet => true
  | .missing => x.1.1.optional
  | .late _ => x.1.1.optional
  | .triggered _ => false

/-- The names of the steps with such an outcome. -/
def namesOf (p : Outcome → Bool) (outs : List (Indexed × Outcome)) : List String :=
  (outs.filter fun x => p x.2).map fun x => x.1.name

/-- An outcome is added to the comparison. -/
def account (flow : Comparison) (x : Indexed × Outcome) : Comparison :=
  { flow with
    steps := flow.steps ++ [entryOf x.1 x.2]
    missing := flow.missing ++ if x.2.isMissing then [x.1.name] else []
    timeouts := flow.timeouts ++ if x.2.isLate then [x.1.name] else []
    negated := flow.negated ++ if x.2.isTriggered then [x.1.name] else []
    verdict := if succeeds x then flow.verdict else .fail }

variable {zone events}

theorem outcomes_cons (s : Indexed) (steps : List Indexed) (place : Place) :
    outcomes zone events (s :: steps) place = (s, (advance zone events s.1 place).1) ::
      outcomes zone events steps (advance zone events s.1 place).2 := rfl

/-- A step of the loop has the outcome of the step. -/
theorem compareStep_eq (place : Place) (flow : Comparison) (s : Indexed) :
    compareStep zone events ⟨place.rest, place.last.map (·.seconds zone), flow⟩ s =
      ⟨(advance zone events s.1 place).2.rest, (advance zone events s.1 place).2.last.map (·.seconds zone),
        account flow (s, (advance zone events s.1 place).1)⟩ := by
  obtain ⟨step, idx⟩ := s
  unfold compareStep advance
  dsimp only
  by_cases hnegate : step.negate = true
  · rw [if_pos hnegate, if_pos hnegate, negateStep]
    dsimp only
    split
    · simp [account, entryOf, succeeds, Indexed.name, Outcome.isMissing, Outcome.isLate, Outcome.isTriggered]
    · simp [account, entryOf, succeeds, Indexed.name, Outcome.isMissing, Outcome.isLate, Outcome.isTriggered]
  · rw [if_neg hnegate, if_neg hnegate]
    cases place.rest.dropWhile fun e => !matchesType e step.eventType with
    | nil =>
      simp [missingStep, account, entryOf, succeeds, Indexed.name, Outcome.isMissing, Outcome.isLate,
        Outcome.isTriggered]
      rfl
    | cons e rest =>
      have hlate : ((place.last.map fun p => p.seconds zone).any fun last =>
          decide (step.withinMs < (e.seconds zone - last) * 1000)) =
            place.last.any fun p => decide (TooLate zone step p e) := by
        cases place.last <;> rfl
      dsimp only [foundStep]
      rw [hlate]
      cases place.last.any fun p => decide (TooLate zone step p e) <;>
        simp [account, entryOf, succeeds, Indexed.name, Outcome.isMissing, Outcome.isLate,
          Outcome.isTriggered]

theorem foldl_compareStep (steps : List Indexed) (place : Place) (flow : Comparison) :
    (steps.foldl (compareStep zone events) ⟨place.rest, place.last.map (·.seconds zone), flow⟩).flow =
      (outcomes zone events steps place).foldl account flow := by
  induction steps generalizing place flow with
  | nil => rfl
  | cons s steps ih =>
    rw [List.foldl_cons, compareStep_eq]
    exact ih _ _

end Outcomes

/-! ## The lists of a comparison -/

section Lists
variable (outs : List (Indexed × Outcome)) (flow : Comparison)

theorem foldl_account : outs.foldl account flow =
    { flow with
      steps := flow.steps ++ outs.map fun x => entryOf x.1 x.2
      missing := flow.missing ++ namesOf Outcome.isMissing outs
      timeouts := flow.timeouts ++ namesOf Outcome.isLate outs
      negated := flow.negated ++ namesOf Outcome.isTriggered outs
      verdict := if outs.all succeeds then flow.verdict else .fail } := by
  induction outs generalizing flow with
  | nil => simp [namesOf]
  | cons x outs ih =>
    have hnames : ∀ p : Outcome → Bool,
        namesOf p (x :: outs) = (if p x.2 then [x.1.name] else []) ++ namesOf p outs := by
      intro p
      cases hp : p x.2 <;> simp [namesOf, hp]
    rw [List.foldl_cons, ih, account]
    rw [List.all_cons]
    cases hx : succeeds x with
    | true =>
      rw [Bool.true_and, if_pos rfl]
      simp [hnames]
    | false =>
      rw [Bool.false_and, if_neg Bool.false_ne_true]
      simp [hnames]

theorem namesOf_eq_nil_iff {outs : List (Indexed × Outcome)} {p : Outcome → Bool} :
    namesOf p outs = [] ↔ ∀ x ∈ outs, p x.2 = false := by
  rw [namesOf, List.map_eq_nil_iff, List.filter_eq_nil_iff]
  exact forall₂_congr fun _ _ => Bool.not_eq_true _ ▸ Iff.rfl

theorem all_succeeds {outs : List (Indexed × Outcome)} (hmissing : namesOf Outcome.isMissing outs = [])
    (hlate : namesOf Outcome.isLate outs = []) (htriggered : namesOf Outcome.isTriggered outs = []) :
    outs.all succeeds = true := by
  rw [List.all_eq_true]
  intro x hx
  have hmissing' := namesOf_eq_nil_iff.mp hmissing x hx
  have hlate' := namesOf_eq_nil_iff.mp hlate x hx
  have htriggered' := namesOf_eq_nil_iff.mp htriggered x hx
  rcases x with ⟨s, _ | _ | _ | _ | _⟩
  · rfl
  · cases hlate'
  · cases hmissing'
  · cases htriggered'
  · rfl

end Lists

/-! ## The order of the hits -/

section Order
variable {hits : List ℕ} {flow : Comparison} {is : List ℕ}

/-- The indices where a place is less than the one before it. -/
def descents (hits : List ℕ) (is : List ℕ) : List ℕ :=
  is.filter fun i => hits.getD i 0 < hits.getD (i - 1) 0

theorem foldl_orderStep (hits is : List ℕ) (flow : Comparison) :
    let checked := is.foldl (orderStep hits) flow
    checked.steps = flow.steps ∧ checked.missing = flow.missing ∧ checked.timeouts = flow.timeouts ∧
      checked.negated = flow.negated ∧
      (checked.verdict = .pass ↔ flow.verdict = .pass ∧ descents hits is = []) ∧
      (checked.outOfOrder = [] ↔ flow.outOfOrder = [] ∧ descents hits is = []) := by
  induction is generalizing flow with
  | nil => simp [descents]
  | cons i is ih =>
    rw [List.foldl_cons]
    by_cases hi : hits.getD i 0 < hits.getD (i - 1) 0
    · have hdescents : descents hits (i :: is) ≠ [] := by
        rw [descents, List.filter_cons_of_pos (by exact decide_eq_true hi)]
        exact List.cons_ne_nil _ _
      obtain ⟨hsteps, hmissing, htimeouts, hnegated, hverdict, horder⟩ := ih (orderStep hits flow i)
      have hfail : (orderStep hits flow i).verdict = .fail := by rw [orderStep, if_pos hi]
      have hout : (orderStep hits flow i).outOfOrder ≠ [] := by
        rw [orderStep, if_pos hi]
        dsimp only
        split
        · rename_i hmem
          exact List.ne_nil_of_mem hmem
        · exact List.append_ne_nil_of_right_ne_nil _ (List.cons_ne_nil _ _)
      have hkeep : (orderStep hits flow i).steps = flow.steps ∧
          (orderStep hits flow i).missing = flow.missing ∧
          (orderStep hits flow i).timeouts = flow.timeouts ∧
          (orderStep hits flow i).negated = flow.negated := by
        rw [orderStep, if_pos hi]
        exact ⟨rfl, rfl, rfl, rfl⟩
      refine ⟨hsteps.trans hkeep.1, hmissing.trans hkeep.2.1, htimeouts.trans hkeep.2.2.1,
        hnegated.trans hkeep.2.2.2, hverdict.trans ⟨fun h => ?_, fun h => absurd h.2 hdescents⟩,
        horder.trans ⟨fun h => absurd h.1 hout, fun h => absurd h.2 hdescents⟩⟩
      rw [hfail] at h
      cases h.1
    · have hdescents : descents hits (i :: is) = descents hits is :=
        List.filter_cons_of_neg (by simpa using hi)
      have hkeep : orderStep hits flow i = flow := if_neg hi
      rw [hkeep, hdescents]
      exact ih flow

/-- There are no descents exactly when the places do not decrease. -/
theorem descents_eq_nil_iff (hits : List ℕ) :
    descents hits (List.range' 1 (hits.length - 1)) = [] ↔ hits.Pairwise (· ≤ ·) := by
  rw [← List.isChain_iff_pairwise, List.isChain_iff_getElem, descents, List.filter_eq_nil_iff]
  constructor
  · intro h i hi
    have hmem : i + 1 ∈ List.range' 1 (hits.length - 1) := List.mem_range'_1.mpr (by omega)
    have hle := h (i + 1) hmem
    rw [decide_eq_true_eq, not_lt, Nat.add_sub_cancel, List.getD_eq_getElem _ _ (by omega),
      List.getD_eq_getElem _ _ (by omega)] at hle
    exact hle
  · intro h i hi
    obtain ⟨hpos, hlt⟩ := List.mem_range'_1.mp hi
    have hle := h (i - 1) (by omega)
    rw [decide_eq_true_eq, not_lt, List.getD_eq_getElem _ _ (by omega), List.getD_eq_getElem _ _ (by omega)]
    simpa only [Nat.sub_add_cancel hpos] using hle

/-- The check only looks at the places. -/
theorem checkOrder_spec (hits : List ℕ) (flow : Comparison) :
    (checkOrder hits flow).steps = flow.steps ∧ (checkOrder hits flow).missing = flow.missing ∧
      (checkOrder hits flow).timeouts = flow.timeouts ∧ (checkOrder hits flow).negated = flow.negated ∧
      ((checkOrder hits flow).verdict = .pass ↔ flow.verdict = .pass ∧ hits.Pairwise (· ≤ ·)) ∧
      ((checkOrder hits flow).outOfOrder = [] ↔ flow.outOfOrder = [] ∧ hits.Pairwise (· ≤ ·)) := by
  have h := foldl_orderStep hits (List.range' 1 (hits.length - 1)) flow
  dsimp only at h
  rw [descents_eq_nil_iff] at h
  exact h

end Order

/-! ## The comparison as a whole -/

section Whole
variable (zone : ℤ → ℤ) (flow : List ExpectedStep) (events : List Event)

/-- The outcomes of a flow with events. -/
def flowOutcomes : List (Indexed × Outcome) :=
  outcomes zone (inTimeOrder zone events) flow.zipIdx { rest := inTimeOrder zone events }

/-- The places of the first events of the types of the steps that are hit, in the order of the steps. -/
def hitPlaces : List ℕ :=
  ((flowOutcomes zone flow events).filter fun x => x.2.isHit).filterMap fun x =>
    hitIndex flow (inTimeOrder zone events) x.1.name

theorem hitIndices_entries (events : List Event) (outs : List (Indexed × Outcome)) :
    hitIndices flow events (outs.map fun x => entryOf x.1 x.2) =
      (outs.filter fun x => x.2.isHit).filterMap fun x => hitIndex flow events x.1.name := by
  have hhit : (fun entry : Entry => decide (entry.status = .hit)) ∘ (fun x : Indexed × Outcome => entryOf x.1 x.2) =
      fun x => x.2.isHit := by
    funext x
    rcases x with ⟨s, - | - | - | - | -⟩ <;> rfl
  have hname : (fun entry : Entry => hitIndex flow events entry.step) ∘
      (fun x : Indexed × Outcome => entryOf x.1 x.2) = fun x => hitIndex flow events x.1.name := by
    funext x
    rcases x with ⟨s, - | - | - | - | -⟩ <;> rfl
  rw [hitIndices, List.filter_map, hhit, List.filterMap_map, hname]

/-- What the comparison returns. -/
theorem compareFlow_spec :
    let c := compareFlow zone flow events
    c.steps = (flowOutcomes zone flow events).map (fun x => entryOf x.1 x.2) ∧
      c.missing = namesOf Outcome.isMissing (flowOutcomes zone flow events) ∧
      c.timeouts = namesOf Outcome.isLate (flowOutcomes zone flow events) ∧
      c.negated = namesOf Outcome.isTriggered (flowOutcomes zone flow events) ∧
      (c.verdict = .pass ↔ (flowOutcomes zone flow events).all succeeds = true ∧
        (hitPlaces zone flow events).Pairwise (· ≤ ·)) ∧
      (c.outOfOrder = [] ↔ (hitPlaces zone flow events).Pairwise (· ≤ ·)) := by
  by_cases hempty : flow = []
  · subst hempty
    simp [compareFlow, flowOutcomes, outcomes, hitPlaces, namesOf]
  · set outs := flowOutcomes zone flow events with houts
    set sorted := inTimeOrder zone events with hsorted
    have hmatched : (flow.zipIdx.foldl (compareStep zone sorted) { rest := sorted }).flow =
        outs.foldl account {} := foldl_compareStep flow.zipIdx { rest := sorted } {}
    have hlists := foldl_account outs {}
    set matched := outs.foldl account {} with hdef
    have hhits : hitIndices flow sorted matched.steps = hitPlaces zone flow events := by
      rw [hlists, List.nil_append, hitIndices_entries, hitPlaces]
    obtain ⟨hsteps, hmissing, htimeouts, hnegated, hverdict, horder⟩ :=
      checkOrder_spec (hitPlaces zone flow events) matched
    have hcompare : compareFlow zone flow events = checkOrder (hitPlaces zone flow events) matched := by
      unfold compareFlow
      rw [if_neg hempty]
      dsimp only
      rw [hmatched, hhits]
      apply if_neg
      -- a verdict that fails has left its mark on one of the lists
      rintro ⟨hfail, hnomissing, hnotimeouts, hnoorder, hnonegated⟩
      rw [hmissing, hlists] at hnomissing
      rw [htimeouts, hlists] at hnotimeouts
      rw [hnegated, hlists] at hnonegated
      have hpass : (checkOrder (hitPlaces zone flow events) matched).verdict = .pass := by
        rw [hverdict, hlists]
        dsimp only
        rw [if_pos (all_succeeds hnomissing hnotimeouts hnonegated)]
        exact ⟨rfl, (horder.mp hnoorder).2⟩
      rw [hpass] at hfail
      cases hfail
    dsimp only
    rw [hcompare, hsteps, hmissing, htimeouts, hnegated, hverdict, horder, hlists]
    dsimp only [List.nil_append]
    refine ⟨rfl, rfl, rfl, rfl, ?_, and_iff_right rfl⟩
    cases outs.all succeeds with
    | true =>
      rw [if_pos rfl]
      simp
    | false =>
      rw [if_neg Bool.false_ne_true]
      simp

end Whole

end HplcWorkbench.FlowComparison
