import HplcWorkbench.FlowMatching
import HplcWorkbench.FlowInstants
import Mathlib.Data.List.TakeWhile
import Mathlib.Algebra.Order.Floor.Ring
import Mathlib.Data.Rat.Floor

/-!
# Order and elapsed time of the events

A flow that passes can be assigned to the events in its order. A flow that can be matched need not
pass: the places of its hits are those of the first events of their types, and these may come in
another order than the events that were matched.

The times of the events keep the elapsed time between them where the format is the ISO format, and for
clocks of one day. With milliseconds behind a point all events have to be in the same millisecond of a
second, and a date without separators makes all times equal.
-/

namespace HplcWorkbench.FlowComparison

section Assignments
variable (zone : ℤ → ℤ)

def ExpectedStep.required (step : ExpectedStep) : Bool := !step.negate && !step.optional

/-- The event of a required step is within its time of the event before it. -/
def InTime (p : Event) (t : ExpectedStep × Event) : Prop :=
  t.1.required = true → (t.2.seconds zone - p.seconds zone) * 1000 ≤ t.1.withinMs

/-- Positive steps with an event each, every required step among them: the events match, are in the
order of the steps, and that of a required step is within its time of the event before it. -/
structure Assigns (flow : List ExpectedStep) (events : List Event) (taken : List (ExpectedStep × Event)) :
    Prop where
  steps : (taken.map Prod.fst).Sublist (flow.filter fun s => !s.negate)
  required : (taken.map Prod.fst).filter ExpectedStep.required = flow.filter ExpectedStep.required
  matching : ∀ t ∈ taken, matchesType t.2 t.1.eventType = true
  ordered : (taken.map Prod.snd).Sublist events
  within : taken.IsChain fun a b => InTime zone a.2 b

/-- The events that the steps were matched with. -/
def Outcome.event? : Outcome → Option Event
  | .hit e => some e
  | .late e => some e
  | _ => none

def taken (outs : List (Indexed × Outcome)) : List (ExpectedStep × Event) :=
  outs.filterMap fun x => x.2.event?.map fun e => (x.1.1, e)

variable {zone} {events : List Event}

theorem advance_negate {step : ExpectedStep} (h : step.negate = true) (place : Place) :
    (advance zone events step place).1.event? = none ∧ (advance zone events step place).2 = place := by
  unfold advance
  rw [if_pos h]
  split <;> exact ⟨rfl, rfl⟩

/-- A positive step is missing, or it is matched with the first event of its type that is to come. -/
theorem advance_positive {step : ExpectedStep} (h : step.negate = false) (place : Place) :
    ((∀ e ∈ place.rest, matchesType e step.eventType = false) ∧
        advance zone events step place = (.missing, place)) ∨
      ∃ skipped e rest, place.rest = skipped ++ e :: rest ∧
        (∀ f ∈ skipped, matchesType f step.eventType = false) ∧ matchesType e step.eventType = true ∧
        advance zone events step place =
          (if place.last.any fun p => decide (TooLate zone step p e) then .late e else .hit e,
            ⟨rest, some e⟩) := by
  have hpositive : ¬ step.negate = true := by rw [h]; exact Bool.false_ne_true
  have hsplit := List.takeWhile_append_dropWhile (p := fun e => !matchesType e step.eventType) (l := place.rest)
  have hskipped : ∀ f ∈ place.rest.takeWhile (fun e => !matchesType e step.eventType),
      matchesType f step.eventType = false := by
    intro f hf
    simpa using List.mem_takeWhile_imp hf
  cases hdrop : place.rest.dropWhile fun e => !matchesType e step.eventType with
  | nil =>
    rw [hdrop, List.append_nil] at hsplit
    rw [hsplit] at hskipped
    refine Or.inl ⟨hskipped, ?_⟩
    rw [advance, if_neg hpositive, hdrop]
  | cons e rest =>
    rw [hdrop] at hsplit
    have hfirst : matchesType e step.eventType = true := by
      have hhead := List.head_dropWhile_not (fun e => !matchesType e step.eventType) (l := place.rest)
        (by rw [hdrop]; exact List.cons_ne_nil _ _)
      simpa [hdrop] using hhead
    refine Or.inr ⟨_, e, rest, hsplit.symm, hskipped, hfirst, ?_⟩
    rw [advance, if_neg hpositive, hdrop]

theorem taken_cons_of_none {x : Indexed × Outcome} (h : x.2.event? = none) (outs : List (Indexed × Outcome)) :
    taken (x :: outs) = taken outs := by
  rw [taken, List.filterMap_cons, h]
  rfl

theorem taken_cons_of_some {x : Indexed × Outcome} {e : Event} (h : x.2.event? = some e)
    (outs : List (Indexed × Outcome)) : taken (x :: outs) = (x.1.1, e) :: taken outs := by
  rw [taken, List.filterMap_cons, h]
  rfl

/-- Where no step fails, the events that were matched are an assignment. -/
theorem assigns_outcomes (steps : List Indexed) (place : Place)
    (h : (outcomes zone events steps place).all succeeds = true) :
    Assigns zone (steps.map Prod.fst) place.rest (taken (outcomes zone events steps place)) ∧
      ∀ p, place.last = some p → ∀ t ∈ (taken (outcomes zone events steps place)).head?, InTime zone p t := by
  induction steps generalizing place with
  | nil => exact ⟨⟨List.Sublist.slnil, rfl, fun _ ht => absurd ht List.not_mem_nil, List.nil_sublist _,
      List.isChain_nil⟩, fun _ _ t ht => by cases ht⟩
  | cons s steps ih =>
    rw [outcomes_cons] at h ⊢
    rw [List.all_cons, Bool.and_eq_true] at h
    obtain ⟨hfirst, hrest⟩ := h
    obtain ⟨htail, hhead⟩ := ih (advance zone events s.1 place).2 hrest
    cases hnegate : s.1.negate with
    | true =>
      obtain ⟨hnone, hplace⟩ := advance_negate hnegate place
      rw [hplace] at htail hhead
      rw [hplace, taken_cons_of_none hnone]
      refine ⟨⟨?_, ?_, htail.matching, htail.ordered, htail.within⟩, hhead⟩
      · rw [List.map_cons, List.filter_cons_of_neg (by rw [hnegate]; exact Bool.false_ne_true)]
        exact htail.steps
      · have hrequired : ¬ s.1.required = true := by rw [ExpectedStep.required, hnegate]; exact Bool.false_ne_true
        rw [List.map_cons, List.filter_cons_of_neg hrequired]
        exact htail.required
    | false =>
      have hkeep : (List.map Prod.fst (s :: steps)).filter (fun s => !s.negate) =
          s.1 :: (steps.map Prod.fst).filter fun s => !s.negate := by
        rw [List.map_cons, List.filter_cons_of_pos (by rw [hnegate]; rfl)]
      rcases advance_positive hnegate place with
        ⟨-, hmissing⟩ | ⟨skipped, e, rest, hsplit, -, hmatch, hfound⟩
      · rw [hmissing] at hfirst htail hhead ⊢
        have hoptional : s.1.optional = true := hfirst
        have hrequired : ¬ s.1.required = true := by
          rw [ExpectedStep.required, hoptional, Bool.not_true, Bool.and_false]
          exact Bool.false_ne_true
        rw [taken_cons_of_none rfl]
        refine ⟨⟨?_, ?_, htail.matching, htail.ordered, htail.within⟩, hhead⟩
        · rw [hkeep]
          exact htail.steps.cons _
        · rw [List.map_cons, List.filter_cons_of_neg hrequired]
          exact htail.required
      · -- the step is matched with `e`, in time if it is required
        obtain ⟨outcome, hout, hevent, htime⟩ : ∃ outcome : Outcome,
            advance zone events s.1 place = (outcome, ⟨rest, some e⟩) ∧ outcome.event? = some e ∧
              ∀ p, place.last = some p → InTime zone p (s.1, e) := by
          by_cases hlate : (place.last.any fun p => decide (TooLate zone s.1 p e)) = true
          · rw [if_pos hlate] at hfound
            refine ⟨_, hfound, rfl, fun p hp hreq => ?_⟩
            rw [hfound] at hfirst
            have hoptional : s.1.optional = true := hfirst
            rw [ExpectedStep.required, hoptional, Bool.not_true, Bool.and_false] at hreq
            cases hreq
          · rw [if_neg hlate] at hfound
            refine ⟨_, hfound, rfl, fun p hp _ => ?_⟩
            rw [hp, Option.any_some, decide_eq_true_eq] at hlate
            exact not_lt.mp hlate
        rw [hout] at htail hhead ⊢
        rw [taken_cons_of_some hevent]
        refine ⟨⟨?_, ?_, ?_, ?_, ?_⟩, ?_⟩
        · rw [hkeep]
          exact htail.steps.cons_cons _
        · by_cases hrequired : s.1.required = true
          · rw [List.map_cons, List.map_cons, List.filter_cons_of_pos hrequired,
              List.filter_cons_of_pos hrequired, htail.required]
          · rw [List.map_cons, List.map_cons, List.filter_cons_of_neg hrequired,
              List.filter_cons_of_neg hrequired, htail.required]
        · rintro t ht
          rcases List.mem_cons.mp ht with rfl | ht
          · exact hmatch
          · exact htail.matching t ht
        · rw [hsplit, List.map_cons]
          exact (htail.ordered.cons_cons e).trans (List.sublist_append_right skipped _)
        · exact List.isChain_cons.mpr ⟨hhead e rfl, htail.within⟩
        · rintro p hp t ht
          obtain rfl := Option.some.inj ht
          exact htime p hp

end Assignments

section Whole
variable (zone : ℤ → ℤ) (flow : List ExpectedStep) (events : List Event)

/-- Matching each step with the next event of its type satisfies every required step in time, and no
negative step is triggered. -/
def Satisfied : Prop := (flowOutcomes zone flow events).all succeeds = true

/-- A flow that passes is assigned to the events in its order, and a flow that the matching satisfies
passes. -/
structure Compared : Prop where
  sound : (compareFlow zone flow events).verdict = .pass →
    ∃ taken, Assigns zone flow (inTimeOrder zone events) taken
  complete : Satisfied zone flow events →
    (compareFlow zone flow events).verdict = .pass ∧ (compareFlow zone flow events).outOfOrder = []

variable {zone flow events}

theorem Satisfied.assigns (h : Satisfied zone flow events) :
    Assigns zone flow (inTimeOrder zone events) (taken (flowOutcomes zone flow events)) := by
  have hassigns := (assigns_outcomes flow.zipIdx { rest := inTimeOrder zone events } h).1
  rwa [List.zipIdx_map_fst] at hassigns

variable (zone flow events) in
/-- The comparison is right exactly when, if the matching satisfies the flow, the first events of the
types of the steps that are hit come in the order of the steps. -/
theorem compared_iff : Compared zone flow events ↔
    (Satisfied zone flow events → (hitPlaces zone flow events).Pairwise (· ≤ ·)) := by
  obtain ⟨-, -, -, -, hverdict, horder⟩ := compareFlow_spec zone flow events
  constructor
  · intro h hsatisfied
    exact horder.mp (h.complete hsatisfied).2
  · intro h
    constructor
    · intro hpass
      have hsatisfied : Satisfied zone flow events := (hverdict.mp hpass).1
      exact ⟨_, hsatisfied.assigns⟩
    · intro hsatisfied
      exact ⟨hverdict.mpr ⟨hsatisfied, h hsatisfied⟩, horder.mpr (h hsatisfied)⟩

/-- An event of type B, one of type A and another one of type B. -/
def repeatedType : List Event :=
  [⟨some "b", none, "10:00:00"⟩, ⟨some "a", none, "10:00:01"⟩, ⟨some "b", none, "10:00:02"⟩]

/-- A and then B are found, but the first B stands before A. -/
theorem repeatedType_not_compared :
    ¬ Compared (fun _ => 0) [⟨"", "a", 60000, false, false⟩, ⟨"", "b", 60000, false, false⟩] repeatedType := by
  intro h
  have hpass := (h.complete (by unfold Satisfied; decide +kernel)).1
  revert hpass
  decide +kernel

end Whole

end HplcWorkbench.FlowComparison

namespace HplcWorkbench.FlowComparison
open ListenerLog (clockText)

/-! ## The times of events are real -/

section Real
variable (zone : ℤ → ℤ) (real : Event → ℚ) (events : List Event)

/-- The events that steps were matched with, under their steps. -/
def matched (outs : List (Indexed × Outcome)) : List (Indexed × Event) :=
  outs.filterMap fun x => x.2.event?.map fun e => (x.1, e)

/-- The elapsed time between events is that between their times, the order of the times is that of the
instants, and a step that comes too late is on the list of timeouts. -/
structure RealTimes : Prop where
  elapsed : ∀ e ∈ events, ∀ f ∈ events, f.seconds zone - e.seconds zone = real f - real e
  chronological : (inTimeOrder zone events).Pairwise fun e f => real e ≤ real f
  reported : ∀ flow, (matched (flowOutcomes zone flow events)).IsChain fun p s =>
    s.1.1.withinMs < (real s.2 - real p.2) * 1000 → s.1.name ∈ (compareFlow zone flow events).timeouts

/-- The elapsed time between two instants is kept. -/
def KeepsTime : TimeFormat → ℚ → ℚ → Prop
  | .clock, x, y => ⌊x / 86400⌋ = ⌊y / 86400⌋
  | .clockMs, x, y => ⌊x / 86400⌋ = ⌊y / 86400⌋ ∧ Int.fract x = Int.fract y
  | .dated, x, y => x = y
  | .iso, _, _ => True

end Real

/-! ## Steps that come too late -/

section Late
variable {zone : ℤ → ℤ} {events : List Event}

theorem matched_cons_of_none {x : Indexed × Outcome} (h : x.2.event? = none) (outs : List (Indexed × Outcome)) :
    matched (x :: outs) = matched outs := by
  rw [matched, List.filterMap_cons, h]
  rfl

theorem matched_cons_of_some {x : Indexed × Outcome} {e : Event} (h : x.2.event? = some e)
    (outs : List (Indexed × Outcome)) : matched (x :: outs) = (x.1, e) :: matched outs := by
  rw [matched, List.filterMap_cons, h]
  rfl

/-- The events that steps are matched with are among those to come. -/
theorem mem_of_mem_matched (steps : List Indexed) (place : Place) {s : Indexed × Event}
    (hs : s ∈ matched (outcomes zone events steps place)) : s.2 ∈ place.rest := by
  induction steps generalizing place with
  | nil => exact absurd hs List.not_mem_nil
  | cons t steps ih =>
    rw [outcomes_cons] at hs
    cases hnegate : t.1.negate with
    | true =>
      obtain ⟨hnone, hplace⟩ := advance_negate hnegate place
      rw [matched_cons_of_none hnone, hplace] at hs
      exact ih place hs
    | false =>
      rcases advance_positive hnegate place with
        ⟨-, hmissing⟩ | ⟨skipped, e, rest, hsplit, -, -, hfound⟩
      · rw [hmissing, matched_cons_of_none rfl] at hs
        exact ih place hs
      · have hevent : (advance zone events t.1 place).1.event? = some e := by
          rw [hfound]
          dsimp only
          split <;> rfl
        rw [matched_cons_of_some hevent] at hs
        rw [hsplit]
        rcases List.mem_cons.mp hs with rfl | hs
        · exact List.mem_append_right _ List.mem_cons_self
        · rw [hfound] at hs
          exact List.mem_append_right _ (List.mem_cons_of_mem _ (ih _ hs))

/-- A step whose event is too late after the one before it is late. -/
theorem late_outcomes (names : List String) (steps : List Indexed) (place : Place)
    (hnames : namesOf Outcome.isLate (outcomes zone events steps place) ⊆ names) :
    ((matched (outcomes zone events steps place)).IsChain fun p s =>
        TooLate zone s.1.1 p.2 s.2 → s.1.name ∈ names) ∧
      ∀ p, place.last = some p → ∀ s ∈ (matched (outcomes zone events steps place)).head?,
        TooLate zone s.1.1 p s.2 → s.1.name ∈ names := by
  induction steps generalizing place with
  | nil => exact ⟨List.isChain_nil, fun p _ s hs => (by cases hs)⟩
  | cons t steps ih =>
    rw [outcomes_cons] at hnames ⊢
    have hrest : namesOf Outcome.isLate (outcomes zone events steps (advance zone events t.1 place).2) ⊆ names := by
      intro name hname
      apply hnames
      obtain ⟨x, hx, rfl⟩ := List.mem_map.mp hname
      obtain ⟨hx, hlate⟩ := List.mem_filter.mp hx
      exact List.mem_map.mpr ⟨x, List.mem_filter.mpr ⟨List.mem_cons_of_mem _ hx, hlate⟩, rfl⟩
    have htail := ih _ hrest
    cases hnegate : t.1.negate with
    | true =>
      obtain ⟨hnone, hplace⟩ := advance_negate hnegate place
      rw [matched_cons_of_none hnone]
      rw [hplace] at htail ⊢
      exact htail
    | false =>
      rcases advance_positive hnegate place with
        ⟨-, hmissing⟩ | ⟨skipped, e, rest, -, -, -, hfound⟩
      · rw [hmissing] at htail ⊢
        rw [matched_cons_of_none rfl]
        exact htail
      · have hevent : (advance zone events t.1 place).1.event? = some e := by
          rw [hfound]
          dsimp only
          split <;> rfl
        rw [matched_cons_of_some hevent]
        have hlast : (advance zone events t.1 place).2.last = some e := by rw [hfound]
        refine ⟨List.isChain_cons.mpr ⟨fun s hs => htail.2 e hlast s hs, htail.1⟩, ?_⟩
        rintro p hp s hs hlate
        obtain rfl := Option.some.inj hs
        have hany : (place.last.any fun p => decide (TooLate zone t.1 p e)) = true := by
          rw [hp, Option.any_some]
          exact decide_eq_true hlate
        rw [if_pos hany] at hfound
        apply hnames
        rw [hfound, namesOf, List.filter_cons_of_pos rfl]
        exact List.mem_cons_self

end Late

/-! ## When the elapsed time is kept -/

section Kept
variable {zone : ℤ → ℤ} {real : Event → ℚ} {events : List Event} {format : TimeFormat}

/-- Where the elapsed time is kept, the order and the timeouts are right. -/
theorem RealTimes.of_elapsed
    (h : ∀ e ∈ events, ∀ f ∈ events, f.seconds zone - e.seconds zone = real f - real e) :
    RealTimes zone real events := by
  have hsorted : ∀ e, e ∈ inTimeOrder zone events ↔ e ∈ events := fun e =>
    (List.perm_insertionSort _ events).mem_iff
  refine ⟨h, ?_, fun flow => ?_⟩
  · have hpairwise : (inTimeOrder zone events).Pairwise fun e f => e.seconds zone ≤ f.seconds zone :=
      List.pairwise_insertionSort _ events
    apply hpairwise.imp_of_mem
    intro e f he hf hle
    have hdiff := h e ((hsorted e).mp he) f ((hsorted f).mp hf)
    linarith
  · obtain ⟨-, -, htimeouts, -⟩ := compareFlow_spec zone flow events
    rw [htimeouts]
    apply (late_outcomes _ flow.zipIdx _ (List.Subset.refl _)).1.imp_of_mem_imp
    intro p s hp hs hlate hreal
    apply hlate
    have hdiff := h p.2 ((hsorted _).mp (mem_of_mem_matched _ _ hp)) s.2
      ((hsorted _).mp (mem_of_mem_matched _ _ hs))
    rw [TooLate, hdiff]
    exact hreal

theorem floor_day (day : ℤ) {r : ℚ} (hr : 0 ≤ r) (hlt : r < 86400) : ⌊(day * 86400 + r) / 86400⌋ = day := by
  rw [Int.floor_eq_iff]
  constructor
  · rw [le_div_iff₀ (by norm_num)]
    linarith
  · rw [div_lt_iff₀ (by norm_num)]
    linarith

theorem fract_milli (day : ℤ) (t : ℕ) :
    Int.fract ((day : ℚ) * 86400 + t / 1000) = ((t % 1000 : ℕ) : ℚ) / 1000 := by
  have hsplit : (t : ℚ) = 1000 * (t / 1000 : ℕ) + (t % 1000 : ℕ) := by
    exact_mod_cast (Nat.div_add_mod t 1000).symm
  have hlt : ((t % 1000 : ℕ) : ℚ) < 1000 := by exact_mod_cast Nat.mod_lt t (by decide)
  rw [Int.fract_eq_iff]
  generalize t / 1000 = q at hsplit
  refine ⟨by positivity, ?_, day * 86400 + q, ?_⟩
  · rw [div_lt_one (by norm_num)]
    exact hlt
  · rw [hsplit]
    push_cast
    ring

/-- What becomes of the elapsed time between two instants. -/
theorem elapsed_iff {s t : String} {x y : ℚ} (hs : Shows zone format s x) (ht : Shows zone format t y) :
    evTime zone t - evTime zone s = y - x ↔ KeepsTime format x y := by
  cases hs with
  | clock day s hs =>
    cases ht with
    | clock day' t ht =>
      have hfloor := floor_day day (r := s) (by positivity) (by exact_mod_cast hs)
      have hfloor' := floor_day day' (r := t) (by positivity) (by exact_mod_cast ht)
      rw [evTime_clockLabel, evTime_clockLabel, KeepsTime, hfloor, hfloor']
      constructor
      · intro h
        have hday : (day : ℚ) = day' := by linarith
        exact_mod_cast hday
      · rintro rfl
        ring
  | clockMs day s hs =>
    cases ht with
    | clockMs day' t ht =>
      have hmilli : ∀ u : ℕ, u < 86400000 → (u : ℚ) / 1000 < 86400 := by
        intro u hu
        rw [div_lt_iff₀ (by norm_num)]
        exact_mod_cast hu
      have hfloor := floor_day day (r := s / 1000) (by positivity) (hmilli s hs)
      have hfloor' := floor_day day' (r := t / 1000) (by positivity) (hmilli t ht)
      rw [evTime_clockText hs, evTime_clockText ht, KeepsTime, hfloor, hfloor', fract_milli, fract_milli]
      have hsplit : (s : ℚ) = 1000 * (s / 1000 : ℕ) + (s % 1000 : ℕ) := by
        exact_mod_cast (Nat.div_add_mod s 1000).symm
      have hsplit' : (t : ℚ) = 1000 * (t / 1000 : ℕ) + (t % 1000 : ℕ) := by
        exact_mod_cast (Nat.div_add_mod t 1000).symm
      constructor
      · intro h
        have hsum : (day : ℚ) * 86400000 + (s % 1000 : ℕ) = day' * 86400000 + (t % 1000 : ℕ) := by
          linarith
        have hlt : s % 1000 < 1000 := Nat.mod_lt s (by decide)
        have hlt' : t % 1000 < 1000 := Nat.mod_lt t (by decide)
        generalize s % 1000 = m at hsum hlt
        generalize t % 1000 = n at hsum hlt'
        have hsum' : day * 86400000 + (m : ℤ) = day' * 86400000 + n := by exact_mod_cast hsum
        have hday : day = day' := by omega
        have hrest : m = n := by omega
        exact ⟨hday, by rw [hrest]⟩
      · rintro ⟨rfl, hrest⟩
        linarith
  | dated d s hvalid hyear hs =>
    cases ht with
    | dated d' t hvalid' hyear' ht =>
      rw [evTime_datedLabel, evTime_datedLabel, KeepsTime, sub_zero, eq_comm, sub_eq_zero, eq_comm]
  | iso d =>
    cases ht with
    | iso d' =>
      rw [evTime_iso, evTime_iso]
      exact iff_of_true rfl trivial

/-- Two events at 10:00:00 and 10:00:02. -/
def clockEvents : List Event := [⟨some "a", none, "10:00:00"⟩, ⟨some "b", none, "10:00:02"⟩]

def clockReal (e : Event) : ℚ := if e.time = "10:00:00" then 36000 else 36002

theorem clockEvents_shows : ∀ e ∈ clockEvents, Shows (fun _ => 28800) .clock e.time (clockReal e) := by
  have hshows : ∀ s : ℕ, s < 86400 → ∀ {time : String} {x : ℚ}, clockLabel s = time → (s : ℚ) = x →
      Shows (fun _ => 28800) .clock time x := by
    rintro s hs time x rfl rfl
    simpa using Shows.clock 0 s hs
  intro e he
  simp only [clockEvents, List.mem_cons, List.not_mem_nil, or_false] at he
  rcases he with rfl | rfl
  · exact hshows 36000 (by decide) (by decide +kernel) (by decide +kernel)
  · exact hshows 36002 (by decide) (by decide +kernel) (by decide +kernel)

/-- Two events at 10:00 and 10:05 on the first day of 2026. -/
def datedEvents : List Event :=
  [⟨some "a", none, "20260101-10:00:00:000"⟩, ⟨some "b", none, "20260101-10:05:00:000"⟩]

def datedReal (e : Event) : ℚ :=
  ordinal 2026 1 1 * 86400 + if e.time = "20260101-10:00:00:000" then 36000 else 36300

end Kept

end HplcWorkbench.FlowComparison
