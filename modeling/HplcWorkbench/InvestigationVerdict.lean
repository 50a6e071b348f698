import HplcWorkbench.InvestigationJob

/-!
# Which verdicts are a pass

A refresh that ends an observation says whether its condition is met; a cancellation or a forced stop
says nothing about it, and nor does an operation that has not ended. The verdict passes what says
nothing, so a pass means that every condition is met unless an observation ended in one of these ways
and no other observation spoils the verdict.
-/

namespace HplcWorkbench.Control

open ListenerLog
open OperationStore (Operation terminalStates interrupt)

/-! ## What refreshes store -/

/-- The states in which a refresh concludes. -/
def concludedStates : List String := ["matched", "succeeded", "timed_out"]

theorem concluded_terminal : ∀ state ∈ concludedStates, state ∈ terminalStates := by decide

/-- A refresh stores that it waits, or whether the condition is met, or an error. -/
inductive Write.Shape : Write → Prop
  | pending : Shape ⟨"waiting", none, none⟩
  | concluded (state : String) (result : Params) (met : Bool) (hstate : state ∈ concludedStates)
      (hmet : Params.get result "condition_met" = .bool met)
      (hreason : met = true → Params.get result "reason" = .none) : Shape ⟨state, some result, none⟩
  | error (text : String) : Shape (.error_ text)

/-- What a refresh stores has one of the shapes. -/
def Shaped {Look : Type} (refresh : Look → Option Write) : Prop :=
  ∀ look w, refresh look = some w → w.Shape

theorem moduleObservationResult_met (payload : ModulePayload) (met : Bool) (now : String)
    (log snippet : PyVal) (reason : Option String) :
    Params.get (moduleObservationResult payload met now log snippet reason) "condition_met" = .bool met := by
  rfl

theorem moduleObservationResult_reason (payload : ModulePayload) (met : Bool) (now : String)
    (log snippet : PyVal) :
    Params.get (moduleObservationResult payload met now log snippet none) "reason" = .none := by
  rfl

theorem refreshModule_shaped (payload : ModulePayload) (complete : Bool) :
    Shaped (refreshModuleObservation payload complete) := by
  intro look w h
  have hconclude : ∀ (state : String) (met : Bool) (found : ModuleFindings), state ∈ concludedStates →
      some (⟨state, some (moduleObservationResult payload met look.now found.log found.snippet none),
        none⟩ : Write) = some w → w.Shape := by
    intro state met found hstate hw
    obtain rfl := Option.some.inj hw
    exact .concluded _ _ met hstate (moduleObservationResult_met ..)
      fun _ => moduleObservationResult_reason ..
  have herror : ∀ text, some (Write.error_ text) = some w → w.Shape := by
    intro text hw
    obtain rfl := Option.some.inj hw
    exact .error text
  unfold refreshModuleObservation at h
  dsimp only at h
  split at h
  · obtain rfl := Option.some.inj h
    exact .concluded _ _ false (by decide) (moduleObservationResult_met ..) fun h => by cases h
  · split at h
    · exact herror _ h
    · split at h
      · split at h
        · exact hconclude _ _ _ (by decide) h
        · split at h
          · exact hconclude _ _ _ (by decide) h
          · cases h
      · split at h
        · exact hconclude _ _ _ (by decide) h
        · split at h
          · exact hconclude _ _ _ (by decide) h
          · split at h
            · exact herror _ h
            · split at h
              · exact hconclude _ _ _ (by decide) h
              · cases h

theorem listenerResult_shape (state : String) (result : ListenerResult) (h : state ∈ concludedStates) :
    Write.Shape ⟨state, some result.params, none⟩ :=
  .concluded _ _ result.conditionMet h rfl fun _ => rfl

theorem refreshListener_shaped (detailOf : FrameRow → PyVal) (payload : ObservationPayload)
    (complete : Bool) : Shaped (refreshListener detailOf payload complete) := by
  intro look w h
  obtain rfl := Option.some.inj h
  cases refreshListenerObservation detailOf look.tables payload complete look.now with
  | waiting => exact .pending
  | matched result => exact listenerResult_shape _ result (by decide)
  | succeeded result => exact listenerResult_shape _ result (by decide)
  | timedOut result => exact listenerResult_shape _ result (by decide)
  | error e => exact .error e.text

theorem runTraceQuery_shaped (matchCount : ℤ) : Shaped (runTraceQueryObservation matchCount) := by
  intro look w h
  cases look with
  | error text =>
      obtain rfl := Option.some.inj h
      exact .error text
  | ok report =>
      obtain rfl := Option.some.inj h
      refine .concluded _ _ _ ?_ rfl fun _ => rfl
      split <;> decide

theorem runMinutePeriods_shaped (index : PyVal) (matchCount : ℤ) :
    Shaped (runMinutePeriodsObservation index matchCount) := by
  intro look w h
  cases look with
  | error text =>
      obtain rfl := Option.some.inj h
      exact .error text
  | ok periods =>
      obtain rfl := Option.some.inj h
      refine .concluded _ _ _ ?_ rfl fun _ => rfl
      split <;> decide

/-! ## Runs of an operation -/

section Runs
variable {Look : Type} {refresh : Look → Option Write} {o : Operation Params}

/-- The operation has not ended and says nothing yet. -/
structure Pending (o : Operation Params) : Prop where
  state : o.state ∉ terminalStates
  result : o.result = none
  error : o.error = none

theorem Pending.settle_eq (h : Pending o) (state : String) (result : Option Params)
    (error : Option String) (now : String) :
    (o.settle state result error now).state = state ∧ (o.settle state result error now).result = result ∧
      (o.settle state result error now).error = error := by
  rw [Operation.settle, if_neg h.state]
  refine ⟨rfl, ?_, ?_⟩
  · dsimp only
    rw [h.result, Option.or_none]
  · dsimp only
    rw [h.error, Option.or_none]

theorem apply_refresh_none {look : Look} (h : refresh look = none) (now : String) :
    ObservationStep.apply refresh o (.refresh look now) = o := by
  simp only [ObservationStep.apply, h]

theorem apply_refresh_some {look : Look} {w : Write} (h : refresh look = some w) (now : String) :
    ObservationStep.apply refresh o (.refresh look now) = o.settle w.state w.result w.error now := by
  simp only [ObservationStep.apply, h]

theorem ends_refresh_some {look : Look} {w : Write} (h : refresh look = some w) (now : String) :
    ObservationStep.ends refresh (.refresh look now) = decide (w.state ∈ terminalStates) := by
  simp only [ObservationStep.ends, h, Option.any_some]

theorem apply_of_terminal (h : o.state ∈ terminalStates) (step : ObservationStep Look) :
    step.apply refresh o = o := by
  have hsettle : ∀ state result error now, o.settle state result error now = o :=
    fun _ _ _ _ => if_pos h
  cases step with
  | refresh look now =>
      cases hw : refresh look with
      | none => exact apply_refresh_none hw now
      | some w => rw [apply_refresh_some hw, hsettle]
  | restart now => exact if_pos h
  | wait now | fail text now | cancel now | stopSource now => exact hsettle _ _ _ _

/-- A step that does not end the operation leaves it pending. -/
theorem Pending.apply (h : Pending o) (hshaped : Shaped refresh) {step : ObservationStep Look}
    (hstep : step.ends refresh = false) : Pending (step.apply refresh o) := by
  have hwait : ∀ now, Pending (o.settle "waiting" none none now) := by
    intro now
    obtain ⟨hstate, hresult, herror⟩ := h.settle_eq "waiting" none none now
    exact ⟨by rw [hstate]; decide, hresult, herror⟩
  cases step with
  | wait now => exact hwait now
  | refresh look now =>
      cases hw : refresh look with
      | none => rwa [apply_refresh_none hw]
      | some w =>
          rw [ends_refresh_some hw] at hstep
          rw [apply_refresh_some hw]
          cases hshaped look w hw with
          | pending => exact hwait now
          | concluded state result met hstate hmet hreason =>
              exact absurd (concluded_terminal state hstate) (of_decide_eq_false hstep)
          | error text => cases hstep
  | fail | cancel | stopSource | restart => cases hstep

/-- A step that ends the operation leaves it terminal. -/
theorem Pending.terminal_of_ends (h : Pending o) {step : ObservationStep Look}
    (hstep : step.ends refresh = true) : (step.apply refresh o).state ∈ terminalStates := by
  have hsettle : ∀ state result error now, state ∈ terminalStates →
      (o.settle state result error now).state ∈ terminalStates := by
    intro state result error now hstate
    rwa [(h.settle_eq state result error now).1]
  cases step with
  | wait now => cases hstep
  | refresh look now =>
      cases hw : refresh look with
      | none => simp [ObservationStep.ends, hw] at hstep
      | some w =>
          rw [ends_refresh_some hw] at hstep
          rw [apply_refresh_some hw]
          exact hsettle _ _ _ _ (of_decide_eq_true hstep)
  | fail text now => exact hsettle _ _ _ _ (by decide)
  | cancel now => exact hsettle _ _ _ _ (by decide)
  | stopSource now => exact hsettle _ _ _ _ (by decide)
  | restart now =>
      simp only [ObservationStep.apply, interrupt, if_neg h.state]
      decide

/-- A run is decided by the first step that ends it, taken in a pending operation. -/
theorem run_cases_ending (hshaped : Shaped refresh) (run : ObservationRun Look) :
    ∃ o, Pending o ∧
      run.operation refresh = match run.ending refresh with
        | none => o
        | some step => step.apply refresh o := by
  have hnew : Pending run.created :=
    ⟨by rw [run.isNew.1]; decide, run.isNew.2.1, run.isNew.2.2⟩
  unfold ObservationRun.operation ObservationRun.ending
  generalize run.created = o at hnew
  induction run.steps generalizing o with
  | nil => exact ⟨o, hnew, rfl⟩
  | cons step rest ih =>
      rw [List.foldl_cons, List.find?_cons]
      cases hends : step.ends refresh with
      | false => exact ih _ (hnew.apply hshaped hends)
      | true =>
          have hterminal := hnew.terminal_of_ends hends
          refine ⟨o, hnew, ?_⟩
          dsimp only
          clear ih
          induction rest with
          | nil => rfl
          | cons step' rest ih => rw [List.foldl_cons, apply_of_terminal hterminal, ih]

end Runs

/-! ## How an observation ends -/

/-- What the end of an observation does to the verdict. -/
inductive Outcome
  | met
  | silent
  | spoiled
  deriving DecidableEq, Repr

/-- A cancellation and a forced stop end an operation without a word about its condition, and an
operation that has not ended says as little. -/
def ObservationRun.outcome {Look : Type} (refresh : Look → Option Write) (run : ObservationRun Look) :
    Outcome :=
  if run.raised.isSome then .spoiled
  else
    match run.ending refresh with
    | none | some (.wait _) | some (.cancel _) | some (.stopSource _) => .silent
    | some (.refresh look _) => if (refresh look).any Write.met then .met else .spoiled
    | some (.fail _ _) | some (.restart _) => .spoiled

def Observation.outcome : Observation → Outcome
  | .simcon (.ok _) => .met
  | .simcon (.error _) => .spoiled
  | .moduleLog payload complete run => run.outcome (refreshModuleObservation payload complete)
  | .listener detailOf payload complete run => run.outcome (refreshListener detailOf payload complete)
  | .traceQuery matchCount run => run.outcome (runTraceQueryObservation matchCount)
  | .minutePeriods index matchCount run => run.outcome (runMinutePeriodsObservation index matchCount)

/-- What a pass should mean of an observation. -/
def ObservationItem.Achieved (item : ObservationItem) : Prop :=
  if item.source = "simcon" then item.state = "succeeded"
  else item.state ∈ terminalStates ∧ (item.field "condition_met").isBool true = true

/-- The verdict finds nothing against the observation. -/
structure ObservationItem.Clean (item : ObservationItem) : Prop where
  noError : item.error.any (· ≠ "") = false
  state : item.state ≠ "error"
  verified : (item.field "reason").eqStr "live_window_unverified" = false
  notFalse : (item.field "condition_met").isBool false = false

/-- What an observation returns, by the way it ended. -/
structure Outcome.Describes (outcome : Outcome) (item : ObservationItem) : Prop where
  clean : item.Clean ↔ outcome ≠ .spoiled
  achieved : outcome ≠ .spoiled → (item.Achieved ↔ outcome = .met)

section Items
variable {Look : Type} {refresh : Look → Option Write}

theorem describes_spoiled {item : ObservationItem} (h : ¬ item.Clean) : Outcome.Describes .spoiled item :=
  ⟨iff_of_false h fun hne => hne rfl, fun hne => absurd rfl hne⟩

theorem describes_silent {item : ObservationItem} (hclean : item.Clean) (hachieved : ¬ item.Achieved) :
    Outcome.Describes .silent item :=
  ⟨iff_of_true hclean (by decide), fun _ => iff_of_false hachieved (by decide)⟩

theorem describes_met {item : ObservationItem} (hclean : item.Clean) (hachieved : item.Achieved) :
    Outcome.Describes .met item :=
  ⟨iff_of_true hclean (by decide), fun _ => iff_of_true hachieved rfl⟩

/-- An operation that says nothing about its condition. -/
theorem describes_of_unsaid (ordinal : ℕ) {source : String} (hsource : source ≠ "simcon")
    (o : Operation Params) (hstate : o.state ≠ "error") (herror : o.error = none)
    (hreason : (Params.get (o.result.getD []) "reason").eqStr "live_window_unverified" = false)
    (hmet : Params.get (o.result.getD []) "condition_met" = .none) :
    Outcome.Describes .silent ⟨ordinal, source, o.state, some o.operationId, o.result, o.error⟩ := by
  refine describes_silent ⟨?_, hstate, hreason, ?_⟩ ?_
  · rw [herror]
    rfl
  · rw [ObservationItem.field, hmet]
    rfl
  · rw [ObservationItem.Achieved, if_neg hsource, ObservationItem.field, hmet]
    exact fun h => by cases h.2

/-- An operation that a refresh ended. -/
theorem describes_of_refresh (ordinal : ℕ) {source : String} (hsource : source ≠ "simcon")
    {o : Operation Params} (h : Pending o) (hshaped : Shaped refresh) {look : Look} {now : String}
    (hends : ObservationStep.ends refresh (.refresh look now) = true) :
    let after := ObservationStep.apply refresh o (.refresh look now)
    Outcome.Describes (if (refresh look).any Write.met then .met else .spoiled)
      ⟨ordinal, source, after.state, some after.operationId, after.result, after.error⟩ := by
  cases hw : refresh look with
  | none => simp [ObservationStep.ends, hw] at hends
  | some w =>
      dsimp only
      rw [apply_refresh_some hw]
      rw [ends_refresh_some hw] at hends
      obtain ⟨hstate, hresult, herror⟩ := h.settle_eq w.state w.result w.error now
      rw [hstate, hresult, herror, Option.any_some]
      cases hshaped look w hw with
      | pending => cases hends
      | error text =>
          refine describes_spoiled fun hclean => ?_
          exact hclean.state rfl
      | concluded state result met hin hmet hreason =>
          have hnotError : state ≠ "error" := by
            rintro rfl
            revert hin
            decide
          cases met with
          | false =>
              have hunmet : Write.met ⟨state, some result, none⟩ = false := by
                rw [Write.met, Option.any_some, hmet]
                rfl
              rw [hunmet]
              refine describes_spoiled fun hclean => ?_
              have hfield := hclean.notFalse
              rw [ObservationItem.field, Option.getD_some, hmet] at hfield
              cases hfield
          | true =>
              have hmetTrue : Write.met ⟨state, some result, none⟩ = true := by
                rw [Write.met, Option.any_some, hmet]
                rfl
              rw [hmetTrue]
              refine describes_met ⟨rfl, hnotError, ?_, ?_⟩ ?_
              · rw [ObservationItem.field, Option.getD_some, hreason rfl]
                rfl
              · rw [ObservationItem.field, Option.getD_some, hmet]
                rfl
              · rw [ObservationItem.Achieved, if_neg hsource, ObservationItem.field, Option.getD_some, hmet]
                exact ⟨concluded_terminal state hin, rfl⟩

/-- The outcome of a run describes what its worker returns. -/
theorem describes_runOperation (hshaped : Shaped refresh) (ordinal : ℕ) {source : String}
    (hsource : source ≠ "simcon") (run : ObservationRun Look) :
    (run.outcome refresh).Describes (runOperation refresh ordinal source run) := by
  unfold ObservationRun.outcome runOperation
  cases run.raised with
  | some text => exact describes_spoiled fun hclean => hclean.state rfl
  | none =>
      obtain ⟨o, ho, hrun⟩ := run_cases_ending hshaped run
      simp only [Option.isSome_none, Bool.false_eq_true, if_false, hrun]
      cases hending : run.ending refresh with
      | none =>
          refine describes_of_unsaid ordinal hsource o ?_ ho.error ?_ ?_
          · intro herror
            exact ho.state (herror ▸ by decide)
          · rw [ho.result]
            rfl
          · rw [ho.result]
            rfl
      | some step =>
          have hends : step.ends refresh = true := List.find?_some hending
          dsimp only
          cases step with
          | wait now => cases hends
          | refresh look now => exact describes_of_refresh ordinal hsource ho hshaped hends
          | fail text now =>
              obtain ⟨hstate, -, -⟩ := ho.settle_eq "error" none (some text) now
              exact describes_spoiled fun hclean => hclean.state hstate
          | cancel now =>
              obtain ⟨hstate, hresult, herror⟩ :=
                ho.settle_eq "cancelled" (some [("cancelled_at", .str now)]) none now
              refine describes_of_unsaid ordinal hsource _ ?_ herror ?_ ?_
              · exact hstate.trans_ne (by decide)
              · simp only [ObservationStep.apply, hresult]
                rfl
              · simp only [ObservationStep.apply, hresult]
                rfl
          | stopSource now =>
              obtain ⟨hstate, hresult, herror⟩ :=
                ho.settle_eq "source_stopped" (some [("source", .str "listener"),
                  ("reason", .str "listener_stopped_by_authorized_request"), ("stopped_at", .str now)])
                  none now
              refine describes_of_unsaid ordinal hsource _ ?_ herror ?_ ?_
              · exact hstate.trans_ne (by decide)
              · simp only [ObservationStep.apply, hresult]
                exact (by decide : decide ("listener_stopped_by_authorized_request" =
                  "live_window_unverified") = false)
              · simp only [ObservationStep.apply, hresult]
                rfl
          | restart now =>
              refine describes_spoiled fun hclean => ?_
              have herror := hclean.noError
              simp only [ObservationStep.apply, interrupt, if_neg ho.state] at herror
              cases herror

theorem describes_runObservation (ordinal : ℕ) (o : Observation) :
    o.outcome.Describes (runObservation ordinal o) := by
  cases o with
  | simcon answer =>
      cases answer with
      | ok page => exact describes_met ⟨rfl, by simp [runObservation], rfl, rfl⟩ rfl
      | error text => exact describes_spoiled fun hclean => hclean.state rfl
  | moduleLog payload complete run =>
      exact describes_runOperation (refreshModule_shaped payload complete) ordinal (by decide) run
  | listener detailOf payload complete run =>
      exact describes_runOperation (refreshListener_shaped detailOf payload complete) ordinal (by decide) run
  | traceQuery matchCount run =>
      exact describes_runOperation (runTraceQuery_shaped matchCount) ordinal (by decide) run
  | minutePeriods index matchCount run =>
      exact describes_runOperation (runMinutePeriods_shaped index matchCount) ordinal (by decide) run

end Items

/-! ## The verdict of a job -/

theorem verdict_succeeded_pass {results : List ObservationItem} :
    verdict "succeeded" results = some .pass ↔ results ≠ [] ∧ ∀ item ∈ results, item.Clean := by
  have hshown : ¬ ("succeeded" ∉ jobTerminal ∧ "succeeded" ∉ ["error", "timed_out"]) := by decide
  have hstate : "succeeded" ∉ ["error", "interrupted"] := by decide
  rw [verdict, if_neg hshown, if_neg hstate]
  constructor
  · intro h
    split at h
    case isTrue => cases h
    case isFalse herror =>
      split at h
      case isTrue => cases h
      case isFalse hreason =>
        split at h
        case isTrue => cases h
        case isFalse hmet =>
          split at h
          case isFalse => cases h
          case isTrue hne =>
            refine ⟨hne, fun item hitem => ?_⟩
            simp only [List.any_eq_true, not_exists, not_and, Bool.not_eq_true, Bool.or_eq_false_iff,
              decide_eq_false_iff_not] at herror hreason hmet
            exact ⟨(herror item hitem).1, (herror item hitem).2, hreason item hitem, hmet item hitem⟩
  · rintro ⟨hne, hclean⟩
    have herror : ¬ (results.any fun item => item.error.any (· ≠ "") || item.state = "error") = true := by
      simp only [List.any_eq_true, not_exists, not_and, Bool.not_eq_true, Bool.or_eq_false_iff,
        decide_eq_false_iff_not]
      exact fun item hitem => ⟨(hclean item hitem).noError, (hclean item hitem).state⟩
    have hreason : ¬ (results.any fun item =>
        (item.field "reason").eqStr "live_window_unverified") = true := by
      simp only [List.any_eq_true, not_exists, not_and, Bool.not_eq_true]
      exact fun item hitem => (hclean item hitem).verified
    have hmet : ¬ (results.any fun item => (item.field "condition_met").isBool false) = true := by
      simp only [List.any_eq_true, not_exists, not_and, Bool.not_eq_true]
      exact fun item hitem => (hclean item hitem).notFalse
    rw [if_neg herror, if_neg hreason, if_neg hmet, if_pos hne]

section Jobs
variable {inv : Investigation} {o : Operation (List ObservationItem)}

/-- The step ends a job that has not ended. -/
def JobStep.ends : JobStep inv → Bool
  | .start _ => false
  | .finish _ _ _ | .fail _ _ | .cancel _ | .restart _ => true

/-- The worker of the job comes to its end before anything else ends the job. -/
def JobRun.Finished (job : JobRun inv) : Prop :=
  ∃ completed all now, job.steps.find? JobStep.ends = some (.finish completed all now)

theorem settle_of_open (h : o.state ∉ terminalStates) (hresult : o.result = none) (state : String)
    (result : Option (List ObservationItem)) (error : Option String) (now : String) :
    (o.settle state result error now).state = state ∧
      (o.settle state result error now).result = result := by
  rw [Operation.settle, if_neg h]
  refine ⟨rfl, ?_⟩
  dsimp only
  rw [hresult, Option.or_none]

theorem JobStep.apply_of_terminal (h : o.state ∈ terminalStates) (step : JobStep inv) : step.apply o = o := by
  have hsettle : ∀ state result error now, o.settle state result error now = o :=
    fun _ _ _ _ => if_pos h
  cases step with
  | restart now => exact if_pos h
  | start now | finish completed all now | fail text now | cancel now => exact hsettle _ _ _ _

/-- A job is decided by the first step that ends it. -/
theorem JobRun.operation_cases (job : JobRun inv) :
    ∃ o : Operation (List ObservationItem), (o.state = "created" ∨ o.state = "running") ∧
      o.result = none ∧ job.operation = match job.steps.find? JobStep.ends with
        | none => o
        | some step => step.apply o := by
  have hnew : (job.created.state = "created" ∨ job.created.state = "running") ∧
      job.created.result = none := ⟨.inl job.isNew.1, job.isNew.2⟩
  unfold JobRun.operation
  generalize job.created = o at hnew
  induction job.steps generalizing o with
  | nil => exact ⟨o, hnew.1, hnew.2, rfl⟩
  | cons step rest ih =>
      have hopen : o.state ∉ terminalStates := by
        obtain h | h := hnew.1
        · rw [h]
          decide
        · rw [h]
          decide
      rw [List.foldl_cons, List.find?_cons]
      have hterminal : ∀ o', o'.state ∈ terminalStates →
          rest.foldl JobStep.apply o' = (o' : Operation (List ObservationItem)) := by
        intro o' ho'
        clear ih
        induction rest with
        | nil => rfl
        | cons step' rest ih => rw [List.foldl_cons, JobStep.apply_of_terminal ho', ih]
      cases step with
      | start now =>
          obtain ⟨hstate, hresult⟩ := settle_of_open hopen hnew.2 "running" none none now
          exact ih _ ⟨.inr hstate, hresult⟩
      | finish completed all now =>
          refine ⟨o, hnew.1, hnew.2, hterminal _ ?_⟩
          exact (settle_of_open hopen hnew.2 "succeeded" _ none now).1 ▸ (by decide)
      | fail text now =>
          refine ⟨o, hnew.1, hnew.2, hterminal _ ?_⟩
          exact (settle_of_open hopen hnew.2 "error" (some []) (some text) now).1 ▸ (by decide)
      | cancel now =>
          refine ⟨o, hnew.1, hnew.2, hterminal _ ?_⟩
          exact (settle_of_open hopen hnew.2 "cancelled" (some []) none now).1 ▸ (by decide)
      | restart now =>
          refine ⟨o, hnew.1, hnew.2, hterminal _ ?_⟩
          simp only [JobStep.apply, interrupt, if_neg hopen]
          decide

/-- Only a job that its worker finished passes, and only when nothing is held against its items. -/
theorem JobRun.verdict_pass (job : JobRun inv) :
    job.verdict = some .pass ↔ job.Finished ∧ ∀ item ∈ inv.items, item.Clean := by
  obtain ⟨o, hstate, hresult, hjob⟩ := job.operation_cases
  have hopen : o.state ∉ terminalStates := by
    obtain h | h := hstate
    · rw [h]
      decide
    · rw [h]
      decide
  have hnever : ∀ {state : String} {results : List ObservationItem},
      Control.verdict state results ≠ some .pass → job.operation.state = state →
      job.operation.result.getD [] = results → (¬ ∃ completed all now,
        job.steps.find? JobStep.ends = some (JobStep.finish completed all now)) →
      (job.verdict = some .pass ↔ job.Finished ∧ ∀ item ∈ inv.items, item.Clean) := by
    intro state results hverdict hs hr hfinished
    refine iff_of_false ?_ fun h => hfinished h.1
    rwa [JobRun.verdict, hs, hr]
  cases hending : job.steps.find? JobStep.ends with
  | none =>
      rw [hending] at hjob
      refine @hnever o.state [] ?_ (by rw [hjob]) (by rw [hjob, hresult]; rfl) (by simp [hending])
      obtain h | h := hstate
      · rw [h]
        decide
      · rw [h]
        decide
  | some step =>
      rw [hending] at hjob
      dsimp only at hjob
      cases step with
      | start now => cases (List.find?_some hending : (JobStep.start now : JobStep inv).ends = true)
      | finish completed all now =>
          obtain ⟨hs, hr⟩ := settle_of_open hopen hresult "succeeded"
            (some (completed.insertionSort fun a b => a.ordinal ≤ b.ordinal)) none now
          have hperm : (completed.insertionSort fun a b => a.ordinal ≤ b.ordinal).Perm inv.items :=
            (List.perm_insertionSort _ completed).trans all
          have hne : completed.insertionSort (fun a b => a.ordinal ≤ b.ordinal) ≠ [] := by
            rw [← List.length_pos_iff, hperm.length_eq, Investigation.items, List.length_mapIdx]
            exact inv.bounded.1
          have hfinished : job.Finished := ⟨completed, all, now, hending⟩
          rw [JobRun.verdict, hjob, JobStep.apply, hs, hr, Option.getD_some, verdict_succeeded_pass,
            and_iff_right hne, and_iff_right hfinished]
          exact forall_congr' fun item => by rw [hperm.mem_iff]
      | fail text now =>
          obtain ⟨hs, hr⟩ := settle_of_open hopen hresult "error" (some []) (some text) now
          exact @hnever "error" [] (by decide) (by rw [hjob]; exact hs)
            (by rw [hjob, JobStep.apply, hr]; rfl) (by simp [hending])
      | cancel now =>
          obtain ⟨hs, hr⟩ := settle_of_open hopen hresult "cancelled" (some []) none now
          exact @hnever "cancelled" [] (by decide) (by rw [hjob]; exact hs)
            (by rw [hjob, JobStep.apply, hr]; rfl) (by simp [hending])
      | restart now =>
          exact @hnever "interrupted" [] (by decide)
            (by simp only [hjob, JobStep.apply, interrupt, if_neg hopen])
            (by simp only [hjob, JobStep.apply, interrupt, if_neg hopen, hresult]; rfl) (by simp [hending])

/-- A pass of an investigation means what it says exactly when its worker did not finish the job, or
no observation ended by a cancellation or a forced stop or has not ended, or another observation spoils
the verdict. -/
theorem pass_sound_iff (job : JobRun inv) :
    (job.verdict = some .pass → ∀ item ∈ inv.items, item.Achieved) ↔
      (job.Finished → (∀ o ∈ inv.observations, o.outcome ≠ .silent) ∨
        ∃ o ∈ inv.observations, o.outcome = .spoiled) := by
  have hitems : ∀ {P : ObservationItem → Prop}, (∀ item ∈ inv.items, P item) ↔
      ∀ i (hi : i < inv.observations.length), P (runObservation i inv.observations[i]) := by
    intro P
    unfold Investigation.items
    constructor
    · intro h i hi
      exact h _ (List.mem_mapIdx.mpr ⟨i, hi, rfl⟩)
    · intro h item hitem
      obtain ⟨i, hi, rfl⟩ := List.mem_mapIdx.mp hitem
      exact h i hi
  have hdescribes := fun i (hi : i < inv.observations.length) =>
    describes_runObservation i inv.observations[i]
  rw [job.verdict_pass]
  constructor
  · intro h hfinished
    by_cases hspoiled : ∃ o ∈ inv.observations, o.outcome = .spoiled
    · exact .inr hspoiled
    · refine .inl fun o ho => ?_
      have hclean : ∀ item ∈ inv.items, item.Clean := hitems.mpr fun i hi =>
        (hdescribes i hi).clean.mpr fun h => hspoiled ⟨_, List.getElem_mem hi, h⟩
      obtain ⟨i, hi, rfl⟩ := List.mem_iff_getElem.mp ho
      have hachieved := hitems.mp (h ⟨hfinished, hclean⟩) i hi
      have hnot : inv.observations[i].outcome ≠ .spoiled := fun h => hspoiled ⟨_, ho, h⟩
      rw [((hdescribes i hi).achieved hnot).mp hachieved]
      decide
  · rintro h ⟨hfinished, hclean⟩
    refine hitems.mpr fun i hi => ?_
    have hnot : ∀ j (hj : j < inv.observations.length), inv.observations[j].outcome ≠ .spoiled :=
      fun j hj => (hdescribes j hj).clean.mp (hitems.mp hclean j hj)
    refine ((hdescribes i hi).achieved (hnot i hi)).mpr ?_
    obtain hsaid | ⟨o, ho, hspoiled⟩ := h hfinished
    · cases houtcome : inv.observations[i].outcome with
      | met => rfl
      | silent => exact absurd houtcome (hsaid _ (List.getElem_mem hi))
      | spoiled => exact absurd houtcome (hnot i hi)
    · obtain ⟨j, hj, rfl⟩ := List.mem_iff_getElem.mp ho
      exact absurd hspoiled (hnot j hj)

end Jobs

/-! ## A forced stop -/

/-- A live observation of the listener, which is stopped by force before anything was seen. -/
def stoppedObservation : Observation :=
  .listener (fun _ => .none) ⟨"current", .live 0 180, [("frame_kind", .str "central_beacon")], .first, 1⟩
    false
    { created := OperationStore.newOperation "observation" "ai:grant" [] "" "" none "op-1" "t0"
      isNew := ⟨rfl, rfl, rfl⟩
      steps := [.wait "t1", .stopSource "t2"]
      raised := none }

def stoppedInvestigation : Investigation := ⟨[stoppedObservation], by decide⟩

def stoppedJob : JobRun stoppedInvestigation where
  created := OperationStore.newOperation "investigation" "ai:grant" [] "" "" none "op-2" "t0"
  isNew := ⟨rfl, rfl⟩
  steps := [.start "t1", .finish stoppedInvestigation.items (.refl _) "t3"]

/-- The investigation passes, and no beacon was seen. -/
theorem stoppedJob_passes_unmet :
    ¬ ∀ (inv : Investigation) (job : JobRun inv), job.verdict = some .pass →
      ∀ item ∈ inv.items, item.Achieved := by
  intro hclaim
  have hpass : stoppedJob.verdict = some .pass := by rfl
  have hachieved := hclaim _ stoppedJob hpass (runObservation 0 stoppedObservation) List.mem_cons_self
  cases hachieved.2

end HplcWorkbench.Control
