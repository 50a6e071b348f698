import HplcWorkbench.RunExecutor

/-!
# `execute` and `submit`

Both run the same steps, each with handlers of its own around them. The steps call two ports and
some code that computes; each call returns, raises `PortError` or raises something else. What the
computing code does with its arguments is left open.
-/

namespace HplcWorkbench.Orchestration

/-! ## What the steps call -/

/-- What a call may raise. -/
inductive Raised
  /-- `RunCancelled` -/
  | cancelled
  | portError (code : String)
  | exception
  deriving DecidableEq, Repr

abbrev Call := Except Raised

/-- `MonitorResult`; `V` are the values of Python. -/
structure MonitorResult (V : Type) where
  files : List String := []
  events : List V := []
  evidence : List V := []
  summary : Option V := none
  drift : Bool := false

/-- A summary of the stimulus that is not empty. -/
structure SimconSummary where
  verdict : Option String := none
  total : ℕ := 0
  pass : ℕ := 0
  deriving DecidableEq, Repr

/-- A payload that is not empty. -/
structure SimconPayload (V : Type) where
  summary : Option SimconSummary := none
  steps : List V := []

/-- `StimulusResult.payload`: none, the empty dict or one with keys. -/
abbrev Simcon (V : Type) := Option (Option (SimconPayload V))

structure FlowStep where
  step : String
  status : String
  actualTime : String := ""
  deriving DecidableEq, Repr

structure FlowCompare where
  steps : List FlowStep := []
  missing : List String := []
  timeouts : List String := []
  outOfOrder : List String := []
  negated : List String := []
  verdict : String := "pass"
  deriving DecidableEq, Repr

/-- A request with all that the steps read of it; `listenerIndex` says whether `extras` names one. -/
structure StepsRequest extends RunRequest where
  skipFlash : Bool := false
  listenerIndex : Bool := false
  deriving DecidableEq, Repr

/-- What the steps have collected for the report. -/
structure Collected (V F : Type) where
  events : List V
  steps : List V
  frames : List F
  scan : Option (MonitorResult V)
  simcon : Option SimconSummary
  compare : Option FlowCompare
  feedback : List V

/-- What the steps of a run call: the frames of `extras` or of the index, the two ports, the
comparison, the feedback, and the code that puts evidence, summary and artifacts together. -/
structure Surroundings (V F D : Type) where
  listenerFrames : Call (List F)
  scan : Call (MonitorResult V)
  stimulus : Call (Simcon V)
  compareFlow : List V → Call FlowCompare
  buildFeedback : FlowCompare → Option SimconSummary → Bool → Call (List V)
  assemble : Collected V F → Call D
  /-- `json.dumps` goes through -/
  encodes : D → Bool
  /-- `str.isidentifier` -/
  isIdentifier : String → Bool
  /-- The names of `expected_flow`. -/
  expectedFlow : List String

/-! ## Runs and reports -/

structure StepResult where
  stage : String
  status : String
  evidenceCount : ℕ := 0
  error : Option String := none
  deriving DecidableEq, Repr

structure AssertionResult where
  assertionId : String
  outcome : String
  expected : Option String := none
  actual : String := ""
  deriving DecidableEq, Repr

/-- A report; the error report has no detail. -/
structure Report (D : Type) where
  verdict : Verdict
  errorCode : Option String := none
  steps : List StepResult
  assertions : List AssertionResult
  detail : Option D := none

structure Run where
  id : String
  status : RunStatus := .running
  error : Option String := none
  steps : List StepResult := []
  resourceLeases : List ResourceLease := []
  deriving DecidableEq

/-- The steps of a run, on the run. -/
abbrev Steps := ExceptT Raised (StateM Run)

/-! ## The steps -/

section Steps
variable {V F D : Type} (env : Surroundings V F D) (request : StepsRequest)

def recordStep (stage status : String) (detail : Option String) (evidenceCount : ℕ) : Steps Unit :=
  modify fun run =>
    { run with
      steps := run.steps ++
        [⟨stage, status, evidenceCount, if status = "error" then detail else none⟩] }

/-- `check_cancel`; `execute` has no event. -/
def checkCancel (cancelEvent : Option Bool) : Steps Unit :=
  if cancelEvent = some true then throw .cancelled else pure ()

/-- The scan, or nothing if it is skipped. -/
def scanned : Call (Option (MonitorResult V)) :=
  if request.skipMonitor then pure none else some <$> env.scan

def stimulated : Call (Simcon V) :=
  if request.skipStimulus then pure none else env.stimulus

def compared (scan : Option (MonitorResult V)) : Call (Option FlowCompare) :=
  if request.skipCompare then pure none
  else some <$> env.compareFlow ((scan.map (·.events)).getD [])

/-- `simcon and simcon.get("summary")`. -/
def Simcon.summary (simcon : Simcon V) : Option SimconSummary :=
  (simcon.bind id).bind (·.summary)

def feedbackOf (scan : Option (MonitorResult V)) (simcon : Simcon V) (compare : Option FlowCompare) :
    Call (List V) :=
  match compare with
  | none => pure []
  | some c => env.buildFeedback c simcon.summary ((scan.map (·.drift)).getD false)

/-- `_verdict_inconclusive_reasons`. -/
def verdictInconclusiveReasons (scan : Option (MonitorResult V)) (simcon : Simcon V) (frames : List F) :
    List String :=
  (if request.skipMonitor = false ∧ ((scan.map (·.events)).getD []).isEmpty then ["monitor 事件缺失"]
    else []) ++
  (if request.skipStimulus = false ∧ simcon.summary = none then ["stimulus 执行结果缺失"] else []) ++
  if request.listenerIndex ∧ frames.isEmpty then ["listener 帧缺失"] else []

def verdictOf (simcon : Simcon V) (reasons : List String) (compare : Option FlowCompare) : Verdict :=
  if (simcon.bind id).any fun payload => decide (payload.summary.bind (·.verdict) ≠ some "pass") then
    .fail
  else if reasons ≠ [] then .inconclusive
  else if compare.any fun c => decide (c.missing ≠ [] ∨ c.timeouts ≠ [] ∨ c.negated ≠ [] ∨
      c.outOfOrder ≠ []) then .fail
  else .pass

/-- The assertions of the expected flow, of the stimulus and of the sources that are missing. -/
def assertionsOf (simcon : Simcon V) (reasons : List String) (compare : Option FlowCompare)
    (verdict : Verdict) : List AssertionResult :=
  let flow := env.expectedFlow.map fun name =>
    let hit := ((compare.map (·.steps)).getD []).find? (·.step = name)
    ⟨name, if (hit.map (·.status)) = some "hit" then "pass" else "fail", some name,
      (hit.map (·.actualTime)).getD ""⟩
  let stimulus := if simcon.summary.bind (·.verdict) = some "pass" then
    [⟨"simcon.verdict", "pass", none, "pass"⟩] else []
  let missing := if verdict = .inconclusive then
    reasons.map fun reason => ⟨"source.missing", "inconclusive", some "必要来源证据齐全", reason⟩ else []
  flow ++ stimulus ++ missing

/-- The call inside the steps. -/
def call {α : Type} (x : Call α) : Steps α := fun run => (x, run)

def recordMonitor : Option (MonitorResult V) → Steps Unit
  | none => recordStep "monitor" "skipped" (some "skipped") 0
  | some result =>
    let detail := "events=" ++ toString result.events.length ++ " files=" ++ toString result.files.length
    recordStep "monitor" "ok" (some detail) result.events.length

def monitorStage : Steps (Option (MonitorResult V)) := do
  let scan ← call (scanned env request)
  recordMonitor scan
  pure scan

/-- The lease of the serial port. The table is a new one, so that the release behind the stimulus
concerns nobody else. -/
def leaseStage : Steps Unit :=
  if request.skipStimulus then pure ()
  else do
    let run ← get
    match acquireSerialLease {} run.id request.resource with
    | .error _ => throw .exception
    | .ok (lease, _) => set { run with resourceLeases := run.resourceLeases ++ [lease] }

def recordStimulus : Simcon V → Steps Unit
  | none => recordStep "stimulus" "skipped" (some "skipped") 0
  | some payload =>
    let summary := (payload.bind (·.summary)).getD {}
    let detail := "total=" ++ toString summary.total ++ " pass=" ++ toString summary.pass
    recordStep "stimulus" (if summary.verdict = some "pass" then "ok" else "error") (some detail) 0

def stimulusStage : Steps (Simcon V) := do
  leaseStage request
  let simcon ← call (stimulated env request)
  recordStimulus simcon
  pure simcon

def recordCompare : Option FlowCompare → Steps Unit
  | none => recordStep "compare" "skipped" (some "skipped") 0
  | some c =>
    let detail := "hit=" ++ toString c.steps.length ++ " missing=" ++ toString c.missing.length
    recordStep "compare" (if c.verdict = "pass" then "ok" else "error") (some detail) 0

def compareStage (scan : Option (MonitorResult V)) : Steps (Option FlowCompare) := do
  let compare ← call (compared env request scan)
  recordCompare compare
  pure compare

/-- What is handed over to the evidence and the report. -/
def collected (frames : List F) (scan : Option (MonitorResult V)) (simcon : Simcon V)
    (compare : Option FlowCompare) (feedback : List V) : Collected V F where
  events := (scan.map fun r => if r.evidence.isEmpty then r.events else r.evidence).getD []
  steps := ((simcon.bind id).map (·.steps)).getD []
  frames := frames
  scan := scan
  simcon := simcon.summary
  compare := compare
  feedback := feedback

/-- `_run_steps`. -/
def runStages (cancelEvent : Option Bool) : Steps (Report D) := do
  let frames ← call env.listenerFrames
  checkCancel cancelEvent
  recordStep "flash" (if request.skipFlash then "skipped" else "ok")
    (if request.skipFlash then some "skipped" else none) 0
  checkCancel cancelEvent
  let scan ← monitorStage env request
  checkCancel cancelEvent
  let simcon ← stimulusStage env request
  checkCancel cancelEvent
  let compare ← compareStage env request scan
  checkCancel cancelEvent
  let feedback ← call (feedbackOf env scan simcon compare)
  recordStep "feedback" (if feedback.isEmpty then "ok" else "error")
    (some ("issues=" ++ toString feedback.length)) 0
  let reasons := verdictInconclusiveReasons request scan simcon frames
  let verdict := verdictOf simcon reasons compare
  let detail ← call (env.assemble (collected frames scan simcon compare feedback))
  let run ← get
  pure {
    verdict := verdict
    steps := run.steps
    assertions := assertionsOf env simcon reasons compare verdict
    detail := some detail }

/-! ## The handlers -/

/-- `_safe_error` of a `PortError`. -/
def safeError (code : String) : String := if env.isIdentifier code then code else "port_error"

/-- `_error_report`. -/
def errorReport (run : Run) (code message : String) : Report D where
  verdict := .fail
  errorCode := some code
  steps := run.steps
  assertions := [⟨if code = "run_cancelled" then "run.cancelled" else "run.execute", "fail", none, message⟩]

/-- The handlers around the steps; they differ in the status of an exception that is no `PortError`. -/
def handlers (entry : Entry) (result : Call (Report D) × Run) : Run × Report D :=
  let (ended, run) := result
  match ended with
  | .ok report => ({ run with status := report.verdict.status }, report)
  | .error .cancelled =>
    ({ run with status := .cancelled }, errorReport run "run_cancelled" "用户取消")
  | .error (.portError code) =>
    let error := safeError env code
    ({ run with status := .failed, error := some error }, errorReport run error error)
  | .error .exception =>
    let error := "execution_error"
    ({ run with status := RunState.exceptionStatus entry, error := some error },
      errorReport run error error)

/-- What is left of a run: its row, the report saved and whether it is still in the table. -/
structure Ended (D : Type) where
  run : Run
  saved : Option (Report D)
  active : Bool

/-- `save_report`, and the entry is taken out of the table if it goes through. -/
def closed (ended : Run × Report D) : Ended D :=
  if ended.2.detail.all env.encodes then ⟨ended.1, some ended.2, false⟩
  else ⟨ended.1, none, true⟩

def execute (run : Run) : Ended D :=
  closed env (handlers env .execute ((runStages env request none).run run))

/-- `submit` with its thread, where nobody sets the cancel event. -/
def submit (run : Run) : Ended D :=
  closed env (handlers env .submit ((runStages env request (some false)).run run))

end Steps

/-- The two have ended alike and left nothing behind. -/
structure Agree {D : Type} (e s : Ended D) : Prop where
  status : e.run.status = s.run.status
  error : e.run.error = s.run.error
  code : (e.saved.map (·.errorCode)) = s.saved.map (·.errorCode)
  verdict : (e.saved.map (·.verdict)) = s.saved.map (·.verdict)
  executed : e.active = false
  submitted : s.active = false

/-! ## How the steps end -/

section Outcome
variable {V F D : Type} (env : Surroundings V F D) (request : StepsRequest)

/-- An exception that is no `PortError` leaves the steps, or their report cannot be saved. -/
inductive Unforeseen : Prop
  | listener (h : env.listenerFrames = .error .exception)
  | monitor {frames} (hframes : env.listenerFrames = .ok frames) (hasked : request.skipMonitor = false)
      (h : env.scan = .error .exception)
  | stimulus {frames scan} (hframes : env.listenerFrames = .ok frames)
      (hscan : scanned env request = .ok scan) (hasked : request.skipStimulus = false)
      (h : env.stimulus = .error .exception)
  | compare {frames scan simcon} (hframes : env.listenerFrames = .ok frames)
      (hscan : scanned env request = .ok scan) (hsimcon : stimulated env request = .ok simcon)
      (hasked : request.skipCompare = false)
      (h : env.compareFlow ((scan.map (·.events)).getD []) = .error .exception)
  | feedback {frames scan simcon compare} (hframes : env.listenerFrames = .ok frames)
      (hscan : scanned env request = .ok scan) (hsimcon : stimulated env request = .ok simcon)
      (hcompare : compared env request scan = .ok (some compare))
      (h : env.buildFeedback compare simcon.summary ((scan.map (·.drift)).getD false) =
        .error .exception)
  | assemble {frames scan simcon compare feedback} (hframes : env.listenerFrames = .ok frames)
      (hscan : scanned env request = .ok scan) (hsimcon : stimulated env request = .ok simcon)
      (hcompare : compared env request scan = .ok compare)
      (hfeedback : feedbackOf env scan simcon compare = .ok feedback)
      (h : env.assemble (collected frames scan simcon compare feedback) = .error .exception)
  | save {frames scan simcon compare feedback detail} (hframes : env.listenerFrames = .ok frames)
      (hscan : scanned env request = .ok scan) (hsimcon : stimulated env request = .ok simcon)
      (hcompare : compared env request scan = .ok compare)
      (hfeedback : feedbackOf env scan simcon compare = .ok feedback)
      (hdetail : env.assemble (collected frames scan simcon compare feedback) = .ok detail)
      (h : env.encodes detail = false)

/-- The detail of the report, or what is raised before it is there. -/
def outcome : Call D := do
  let frames ← env.listenerFrames
  let scan ← scanned env request
  let simcon ← stimulated env request
  let compare ← compared env request scan
  let feedback ← feedbackOf env scan simcon compare
  env.assemble (collected frames scan simcon compare feedback)

/-- Whatever the run is, the steps return or raise the same. -/
def Gives {α β : Type} (π : α → β) (x : Steps α) (r : Call β) : Prop :=
  ∀ run, (x.run run).1.map π = r

section Gives
variable {α β γ : Type} {env request}

theorem gives_call (x : Call α) : Gives id (call x) x := by
  intro run
  cases x <;> rfl

theorem stateM_bind (x : StateM Run α) (f : α → StateM Run β) (run : Run) :
    (x >>= f) run = f (x run).1 (x run).2 := rfl

theorem Gives.bind {π : β → γ} {x : Steps α} {f : α → Steps β} {r : Call α} {g : α → Call γ}
    (hx : Gives id x r) (hf : ∀ a, r = .ok a → Gives π (f a) (g a)) : Gives π (x >>= f) (r >>= g) := by
  intro run
  have hrun := hx run
  rw [ExceptT.run_bind, stateM_bind]
  cases hresult : (x.run run).1 with
  | error e =>
      rw [hresult] at hrun
      obtain rfl : Except.error e = r := hrun
      rfl
  | ok a =>
      rw [hresult] at hrun
      obtain rfl : Except.ok a = r := hrun
      exact hf a rfl _

theorem gives_record (stage status : String) (detail : Option String) (n : ℕ) :
    Gives id (recordStep stage status detail n) (pure ()) := fun _ => rfl

theorem gives_pure (a : α) : Gives id (pure a) (pure a) := fun _ => rfl

theorem Gives.skip {π : β → γ} {x : Steps Unit} {f : Unit → Steps β} {r : Call γ}
    (hx : Gives id x (pure ())) (hf : Gives π (f ()) r) : Gives π (x >>= f) r :=
  Gives.bind (g := fun _ => r) hx fun _ _ => hf

/-- A call whose value is recorded and handed on. -/
theorem gives_recorded {x : Call α} {record : α → Steps Unit} (h : ∀ a, Gives id (record a) (pure ())) :
    Gives id (do let a ← call x; record a; pure a) x := by
  have hbind : Gives id (do let a ← call x; record a; pure a) (x >>= pure) :=
    (gives_call x).bind fun a _ => (h a).skip (gives_pure a)
  rwa [bind_pure] at hbind

theorem gives_monitorStage : Gives id (monitorStage env request) (scanned env request) := by
  apply gives_recorded
  intro scan
  cases scan <;> exact gives_record _ _ _ _

theorem gives_leaseStage : Gives id (leaseStage request) (pure ()) := by
  unfold leaseStage
  split
  · exact gives_pure ()
  · exact fun run => rfl

theorem gives_stimulusStage : Gives id (stimulusStage env request) (stimulated env request) := by
  apply gives_leaseStage.skip
  apply gives_recorded
  intro simcon
  cases simcon <;> exact gives_record _ _ _ _

theorem gives_compareStage (scan : Option (MonitorResult V)) :
    Gives id (compareStage env request scan) (compared env request scan) := by
  apply gives_recorded
  intro compare
  cases compare <;> exact gives_record _ _ _ _

end Gives

theorem gives_runStages :
    Gives (·.detail) (runStages env request none) (some <$> outcome env request) := by
  unfold runStages outcome
  simp only [map_bind]
  apply (gives_call _).bind
  intro frames _
  apply (gives_pure ()).skip
  apply (gives_record _ _ _ _).skip
  apply (gives_pure ()).skip
  apply gives_monitorStage.bind
  intro scan _
  apply (gives_pure ()).skip
  apply gives_stimulusStage.bind
  intro simcon _
  apply (gives_pure ()).skip
  apply (gives_compareStage scan).bind
  intro compare _
  apply (gives_pure ()).skip
  apply (gives_call _).bind
  intro feedback _
  apply (gives_record _ _ _ _).skip
  rw [map_eq_pure_bind]
  apply (gives_call _).bind
  intro detail _
  exact fun run => rfl

theorem runStages_unset : runStages env request (some false) = runStages env request none := rfl

section Raising
variable {α β : Type} {env request}

theorem bind_error_iff {x : Call α} {f : α → Call β} {e : Raised} :
    x >>= f = .error e ↔ x = .error e ∨ ∃ a, x = .ok a ∧ f a = .error e := by
  cases x with
  | error e' =>
      constructor
      · rintro ⟨⟩
        exact .inl rfl
      · rintro (⟨⟨⟩⟩ | ⟨a, ⟨⟩, -⟩)
        rfl
  | ok a =>
      constructor
      · exact fun h => .inr ⟨a, rfl, h⟩
      · rintro (⟨⟨⟩⟩ | ⟨a, ⟨⟩, h⟩)
        exact h

theorem bind_ok_iff {x : Call α} {f : α → Call β} {b : β} :
    x >>= f = .ok b ↔ ∃ a, x = .ok a ∧ f a = .ok b := by
  cases x with
  | error e => exact iff_of_false nofun (by rintro ⟨a, ⟨⟩, -⟩)
  | ok a =>
      constructor
      · exact fun h => ⟨a, rfl, h⟩
      · rintro ⟨a, ⟨⟩, h⟩
        exact h

/-- A call that may be skipped raises if it is asked for and raises. -/
theorem skipped_error_iff {skip : Bool} {x : Call α} {a : α} {e : Raised} :
    (if skip then pure a else x) = .error e ↔ skip = false ∧ x = .error e := by
  cases skip with
  | true => exact iff_of_false nofun nofun
  | false => exact (and_iff_right rfl).symm

theorem some_map_error_iff {x : Call α} {e : Raised} :
    (some <$> x : Call (Option α)) = .error e ↔ x = .error e := by
  cases x with
  | error e' => exact ⟨fun h => congrArg _ (Except.error.inj h), fun h => congrArg _ (Except.error.inj h)⟩
  | ok a => exact iff_of_false nofun nofun

theorem scanned_error_iff {e : Raised} : scanned env request = .error e ↔
    request.skipMonitor = false ∧ env.scan = .error e := by
  rw [scanned, skipped_error_iff, some_map_error_iff]

theorem stimulated_error_iff {e : Raised} : stimulated env request = .error e ↔
    request.skipStimulus = false ∧ env.stimulus = .error e := skipped_error_iff

theorem compared_error_iff {scan : Option (MonitorResult V)} {e : Raised} :
    compared env request scan = .error e ↔
      request.skipCompare = false ∧ env.compareFlow ((scan.map (·.events)).getD []) = .error e := by
  rw [compared, skipped_error_iff, some_map_error_iff]

theorem feedbackOf_error {scan : Option (MonitorResult V)} {simcon : Simcon V}
    {compare : Option FlowCompare} {e : Raised} (h : feedbackOf env scan simcon compare = .error e) :
    ∃ c, compare = some c ∧
      env.buildFeedback c simcon.summary ((scan.map (·.drift)).getD false) = .error e := by
  cases compare with
  | none => cases h
  | some c => exact ⟨c, rfl, h⟩

end Raising

/-- The exceptions that leave the steps, and the reports that cannot be saved. -/
theorem unforeseen_iff : Unforeseen env request ↔
    outcome env request = .error .exception ∨
      ∃ detail, outcome env request = .ok detail ∧ env.encodes detail = false := by
  simp only [outcome, bind_error_iff, bind_ok_iff, scanned_error_iff, stimulated_error_iff,
    compared_error_iff]
  constructor
  · intro h
    cases h with
    | listener h => exact .inl (.inl h)
    | monitor hframes hasked h => exact .inl (.inr ⟨_, hframes, .inl ⟨hasked, h⟩⟩)
    | stimulus hframes hscan hasked h =>
        exact .inl (.inr ⟨_, hframes, .inr ⟨_, hscan, .inl ⟨hasked, h⟩⟩⟩)
    | compare hframes hscan hsimcon hasked h =>
        exact .inl (.inr ⟨_, hframes, .inr ⟨_, hscan, .inr ⟨_, hsimcon, .inl ⟨hasked, h⟩⟩⟩⟩)
    | feedback hframes hscan hsimcon hcompare h =>
        exact .inl (.inr ⟨_, hframes, .inr ⟨_, hscan, .inr ⟨_, hsimcon, .inr ⟨_, hcompare, .inl h⟩⟩⟩⟩)
    | assemble hframes hscan hsimcon hcompare hfeedback h =>
        exact .inl (.inr ⟨_, hframes, .inr ⟨_, hscan, .inr ⟨_, hsimcon, .inr ⟨_, hcompare,
          .inr ⟨_, hfeedback, h⟩⟩⟩⟩⟩)
    | save hframes hscan hsimcon hcompare hfeedback hdetail h =>
        exact .inr ⟨_, ⟨_, hframes, _, hscan, _, hsimcon, _, hcompare, _, hfeedback, hdetail⟩, h⟩
  · rintro (h | ⟨detail, ⟨_, hframes, _, hscan, _, hsimcon, _, hcompare, _, hfeedback, hdetail⟩, h⟩)
    · obtain h | ⟨frames, hframes, h⟩ := h
      · exact .listener h
      obtain ⟨hasked, h⟩ | ⟨scan, hscan, h⟩ := h
      · exact .monitor hframes hasked h
      obtain ⟨hasked, h⟩ | ⟨simcon, hsimcon, h⟩ := h
      · exact .stimulus hframes hscan hasked h
      obtain ⟨hasked, h⟩ | ⟨compare, hcompare, h⟩ := h
      · exact .compare hframes hscan hsimcon hasked h
      obtain h | ⟨feedback, hfeedback, h⟩ := h
      · obtain ⟨c, rfl, h⟩ := feedbackOf_error h
        exact .feedback hframes hscan hsimcon hcompare h
      · exact .assemble hframes hscan hsimcon hcompare hfeedback h
    · exact .save hframes hscan hsimcon hcompare hfeedback hdetail h

/-! ## The two entry points -/

theorem agree_ok_iff (report : Report D) (run : Run) :
    Agree (closed env (handlers env .execute (.ok report, run)))
      (closed env (handlers env .submit (.ok report, run))) ↔ report.detail.all env.encodes = true := by
  unfold handlers closed
  dsimp only
  by_cases hsaved : report.detail.all env.encodes = true
  · rw [if_pos hsaved]
    exact iff_of_true ⟨rfl, rfl, rfl, rfl, rfl, rfl⟩ hsaved
  · rw [if_neg hsaved]
    apply iff_of_false _ hsaved
    intro h
    cases h.executed

/-- The handlers part at an exception that is no `PortError`. -/
theorem agree_error_iff (e : Raised) (run : Run) :
    Agree (closed env (handlers env .execute (.error e, run)))
      (closed env (handlers env .submit (.error e, run))) ↔ e ≠ .exception := by
  cases e with
  | cancelled => exact iff_of_true ⟨rfl, rfl, rfl, rfl, rfl, rfl⟩ Raised.noConfusion
  | portError code => exact iff_of_true ⟨rfl, rfl, rfl, rfl, rfl, rfl⟩ Raised.noConfusion
  | exception =>
      apply iff_of_false _ fun h => h rfl
      intro h
      have hstatus : RunStatus.failed = RunStatus.error := h.status
      cases hstatus

/-- The two agree on a run exactly if no exception but a `PortError` leaves its steps and its report can
be saved. -/
theorem agree_iff_foreseen (run : Run) :
    Agree (execute env request run) (submit env request run) ↔ ¬ Unforeseen env request := by
  have hgives := gives_runStages env request run
  unfold execute submit
  rw [runStages_unset, unforeseen_iff]
  cases hrun : (runStages env request none).run run with
  | mk result run' =>
    rw [hrun] at hgives
    cases houtcome : outcome env request with
    | error e =>
        rw [houtcome] at hgives
        cases result with
        | ok report => cases hgives
        | error e' =>
            obtain rfl : e' = e := Except.error.inj hgives
            rw [agree_error_iff]
            simp
    | ok detail =>
        rw [houtcome] at hgives
        cases result with
        | error e => cases hgives
        | ok report =>
            have hdetail : report.detail = some detail := Except.ok.inj hgives
            rw [agree_ok_iff, hdetail]
            simp

end Outcome

/-- A monitor whose scan raises an exception of its own. -/
def brokenMonitor : Surroundings String String Unit where
  listenerFrames := .ok []
  scan := .error .exception
  stimulus := .ok none
  compareFlow := fun _ => .ok {}
  buildFeedback := fun _ _ _ => .ok []
  assemble := fun _ => .ok ()
  encodes := fun _ => true
  isIdentifier := fun _ => true
  expectedFlow := []

theorem brokenMonitor_disagrees : ¬ ∀ (env : Surroundings String String Unit) (request : StepsRequest)
    (run : Run), Agree (execute env request run) (submit env request run) := by
  intro hclaim
  have hstatus : RunStatus.failed = RunStatus.error := (hclaim brokenMonitor {} { id := "run-1" }).status
  cases hstatus

end HplcWorkbench.Orchestration
