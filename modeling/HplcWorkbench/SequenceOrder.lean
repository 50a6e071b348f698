import HplcWorkbench.SequenceTracker

/-!
# Sequences completed in order

Every machine that is under way stands for lines of its bucket that matched the first steps of the
rule in order, within the window, as long as every line that advances a machine matches the step
that its bucket awaits.
-/

namespace HplcWorkbench.LogHooks

open OrderedDict (Dict)

variable (py : Python) (rule : Rule) (seq : SequenceDef)

/-! ## What an event of completion should stand for -/

/-- A line of the bucket that matches the step. -/
def StepOn (bucket : Bucket) (step : SequenceStep) (line : ParsedLine) : Prop :=
  bucketFor py seq line = .ok bucket ∧ ∃ captures, tryMatchStep py rule seq step line = .ok (some captures)

/-- No line is earlier than the first one or later than its window. -/
def InWindow (matched : List ParsedLine) : Prop :=
  ∀ first ∈ matched.head?, ∀ line ∈ matched, ∃ start now, first.ms py = some start ∧
    line.ms py = some now ∧ start ≤ now ∧ now ≤ start + seq.windowMs

/-- Lines of the bucket, in their order, match the steps. -/
def Matched (lines : List ParsedLine) (bucket : Bucket) (steps : List SequenceStep) : Prop :=
  ∃ matched, matched.Sublist lines ∧ List.Forall₂ (StepOn py rule seq bucket) steps matched ∧
    InWindow py seq matched

/-- The times of the lines can be read and never decrease. -/
def Timed (lines : List ParsedLine) : Prop :=
  (∀ line ∈ lines, (line.ms py).isSome) ∧
    lines.Pairwise fun a b => ∀ s ∈ a.ms py, ∀ t ∈ b.ms py, s ≤ t

/-- The first step, from the awaited one on, that the line matches is the awaited one. -/
def Awaited (machines : Machines) (line : ParsedLine) : Prop :=
  ∀ bucket stepIndex captures, bucketFor py seq line = .ok bucket →
    firstMatch py rule seq line
      (seq.steps.zipIdx.drop (currentStepFor (cleanup seq machines (line.ms py)) bucket)) =
        .ok (some (stepIndex, captures)) →
    stepIndex = currentStepFor (cleanup seq machines (line.ms py)) bucket

/-- Every line of a run matches no later step than the awaited one. -/
def Orderly (machines : Machines) : List ParsedLine → Prop
  | [] => True
  | line :: rest => Awaited py rule seq machines line ∧
    ∀ fed, feedSequence py rule seq machines line = .ok fed → Orderly fed.machines rest

/-! ## What a line does -/

section OneLine
variable {py rule seq} {machines : Machines} {line : ParsedLine} {fed : Fed}

theorem firstMatch_mem {steps : List (SequenceStep × ℕ)} {stepIndex : ℕ}
    {captures : Dict String String}
    (h : firstMatch py rule seq line steps = .ok (some (stepIndex, captures))) :
    ∃ step, (step, stepIndex) ∈ steps ∧ tryMatchStep py rule seq step line = .ok (some captures) := by
  induction steps with
  | nil => cases h
  | cons e rest ih =>
      obtain ⟨m, hm, hrest⟩ := bind_eq_ok h
      cases m with
      | some found =>
          obtain ⟨rfl, rfl⟩ := Prod.mk.inj (Option.some.inj (Except.ok.inj hrest))
          exact ⟨e.1, List.mem_cons_self, hm⟩
      | none =>
          obtain ⟨step, hmem, hstep⟩ := ih hrest
          exact ⟨step, List.mem_cons_of_mem e hmem, hstep⟩

/-- A line leaves the machines that still have time, or advances one of them, which is gone again
if it completes. -/
theorem feedSequence_cases (h : feedSequence py rule seq machines line = .ok fed) :
    fed.machines = cleanup seq machines (line.ms py) ∧ fed.complete = none ∨
    ∃ bucket stepIndex captures, bucketFor py seq line = .ok bucket ∧
      firstMatch py rule seq line
        (seq.steps.zipIdx.drop (currentStepFor (cleanup seq machines (line.ms py)) bucket)) =
          .ok (some (stepIndex, captures)) ∧
      ∃ timeouts, takeStep py rule seq (cleanup seq machines (line.ms py)) bucket line stepIndex
        captures timeouts = .ok fed := by
  unfold feedSequence at h
  obtain ⟨bucket, hbucket, h⟩ := bind_eq_ok h
  obtain ⟨found, hfound, h⟩ := bind_eq_ok h
  cases found with
  | none =>
      obtain rfl := Except.ok.inj h
      exact .inl ⟨rfl, rfl⟩
  | some hit =>
      obtain ⟨stepIndex, captures⟩ := hit
      exact .inr ⟨bucket, stepIndex, captures, hbucket, hfound, _, h⟩

theorem emitComplete_bucket {machine : SequenceMachine} {bucket : Bucket} {event : SequenceEvent}
    (h : emitComplete py rule seq machine bucket = .ok (some event)) : event.bucket = bucket := by
  unfold emitComplete at h
  cases htemplate : seq.onComplete with
  | none =>
      rw [htemplate] at h
      cases h
  | some template =>
      rw [htemplate] at h
      obtain ⟨message, -, h⟩ := bind_eq_ok h
      rw [← Option.some.inj (Except.ok.inj h)]

/-- A line that matches the awaited step. -/
theorem takeStep_cases {live : Machines} {bucket : Bucket} {captures : Dict String String}
    {timeouts : List SequenceEvent}
    (h : takeStep py rule seq live bucket line (currentStepFor live bucket) captures timeouts =
      .ok fed) :
    (∀ e ∈ fed.machines.entries, e ∈ live.entries ∨
      e = (bucket, (getOrCreate py seq live bucket line).advance (currentStepFor live bucket) line
        captures)) ∧
    ∀ event, fed.complete = some event →
      event.bucket = bucket ∧ seq.steps.length ≤ currentStepFor live bucket + 1 := by
  unfold takeStep at h
  rw [if_neg (Nat.lt_irrefl _)] at h
  simp only at h
  split at h
  case isTrue hlast =>
    obtain ⟨emitted, hemitted, h⟩ := bind_eq_ok h
    obtain rfl := Except.ok.inj h
    constructor
    · intro e he
      exact (live.mem_set bucket _ ((Dict.mem_erase _ bucket).mp he).1).symm
    · rintro event rfl
      exact ⟨emitComplete_bucket hemitted, hlast⟩
  case isFalse =>
    obtain rfl := Except.ok.inj h
    constructor
    · exact fun e he => (live.mem_set bucket _ he).symm
    · rintro event ⟨⟩

theorem not_expired {machine : SequenceMachine} {window : ℤ} {start now : ℤ} (hwindow : 0 < window)
    (hstart : machine.startMs = some start) (h : machine.isExpired window (some now) = false) :
    now ≤ start + window := by
  unfold SequenceMachine.isExpired at h
  rw [if_neg (Int.not_le.mpr hwindow), hstart] at h
  exact Int.not_lt.mp (of_decide_eq_false h)

end OneLine

/-! ## What machines stand for -/

/-- A machine has been advanced through its first steps, from the time of the first. -/
structure Reached (lines : List ParsedLine) (bucket : Bucket) (machine : SequenceMachine) : Prop where
  pos : 0 < machine.currentStep
  matched : ∃ matched, matched.Sublist lines ∧
    List.Forall₂ (StepOn py rule seq bucket) (seq.steps.take machine.currentStep) matched ∧
    InWindow py seq matched ∧ machine.startMs = matched.head?.bind (ParsedLine.ms py)

def AllReached (lines : List ParsedLine) (machines : Machines) : Prop :=
  ∀ e ∈ machines.entries, Reached py rule seq lines e.1 e.2

section Runs
variable {py rule seq} {machines : Machines} {lines : List ParsedLine} {line : ParsedLine} {fed : Fed}

theorem Reached.later {bucket : Bucket} {machine : SequenceMachine}
    (h : Reached py rule seq lines bucket machine) (line : ParsedLine) :
    Reached py rule seq (lines ++ [line]) bucket machine := by
  obtain ⟨matched, hsub, hrest⟩ := h.matched
  exact ⟨h.pos, matched, hsub.trans (List.sublist_append_left lines [line]), hrest⟩

theorem mem_cleanup {e : Bucket × SequenceMachine} {now : Option ℤ} :
    e ∈ (cleanup seq machines now).entries ↔
      e ∈ machines.entries ∧ e.2.isExpired seq.windowMs now = false := by
  rw [cleanup, List.mem_filter, Bool.not_eq_true']

/-- The machine of the bucket is new, or it has been advanced before and is in time. -/
theorem getOrCreate_cases (live : Machines) (hlive : live = cleanup seq machines (line.ms py)) (bucket : Bucket) :
    currentStepFor live bucket = 0 ∧ (getOrCreate py seq live bucket line).startMs = line.ms py ∨
    ∃ machine, (bucket, machine) ∈ machines.entries ∧
      machine.isExpired seq.windowMs (line.ms py) = false ∧
      currentStepFor live bucket = machine.currentStep ∧
      getOrCreate py seq live bucket line = machine := by
  unfold currentStepFor getOrCreate
  cases hget : live.get? bucket with
  | none => exact .inl ⟨rfl, rfl⟩
  | some machine =>
      have hmem := (live.get?_eq_some_iff bucket machine).mp hget
      rw [hlive, mem_cleanup] at hmem
      exact .inr ⟨machine, hmem.1, hmem.2, rfl, rfl⟩

/-- Lines that are in time, one after the other, and one more. -/
theorem InWindow.later {matched : List ParsedLine} {start now : ℤ} (h : InWindow py seq matched)
    (hsome : matched ≠ []) (hstart : matched.head?.bind (ParsedLine.ms py) = some start)
    (hnow : line.ms py = some now) (hle : start ≤ now) (hintime : now ≤ start + seq.windowMs) :
    InWindow py seq (matched ++ [line]) := by
  obtain ⟨first, rest, rfl⟩ := List.exists_cons_of_ne_nil hsome
  intro f hf l hl
  obtain rfl : first = f := Option.some.inj hf
  obtain hl | hl := List.mem_append.mp hl
  · exact h first rfl l hl
  · rw [List.mem_singleton.mp hl]
    exact ⟨start, now, hstart, hnow, hle, hintime⟩

/-- The machine that a line in order advances. -/
theorem reached_advance (hwindow : 0 < seq.windowMs) (htimed : Timed py (lines ++ [line]))
    (hreached : AllReached py rule seq lines machines) {live : Machines}
    (hlive : live = cleanup seq machines (line.ms py)) {bucket : Bucket} {step : SequenceStep}
    (captures : Dict String String) (hstep : StepOn py rule seq bucket step line)
    (hawaited : seq.steps[currentStepFor live bucket]? = some step) :
    Reached py rule seq (lines ++ [line]) bucket
      ((getOrCreate py seq live bucket line).advance (currentStepFor live bucket) line captures) := by
  obtain ⟨now, hnow⟩ := Option.isSome_iff_exists.mp
    (htimed.1 line (List.mem_append_right _ (List.mem_singleton_self line)))
  have htake (k : ℕ) (hk : currentStepFor live bucket = k) :
      seq.steps.take (k + 1) = seq.steps.take k ++ [step] := by
    rw [List.take_add_one, ← hk, hawaited, Option.toList_some]
  constructor
  · exact Nat.succ_pos _
  · obtain ⟨hzero, hstart⟩ | ⟨machine, hmem, hfresh, hcurrent, hmachine⟩ :=
      getOrCreate_cases live hlive bucket
    · refine ⟨[line], List.sublist_append_right lines [line], ?_, ?_, ?_⟩
      · change List.Forall₂ _ (seq.steps.take (currentStepFor live bucket + 1)) [line]
        rw [hzero, htake 0 hzero]
        exact .cons hstep .nil
      · intro first hfirst l hl
        obtain rfl : line = first := Option.some.inj hfirst
        rw [List.mem_singleton.mp hl]
        exact ⟨now, now, hnow, hnow, Int.le_refl now, by omega⟩
      · exact hstart
    · obtain ⟨hpos, matched, hsub, hforall, hin, hms⟩ := hreached _ hmem
      have hsome : matched ≠ [] := by
        rintro rfl
        have hlen := hforall.length_eq
        rw [List.length_take, List.length_nil] at hlen
        have hlt := (List.getElem?_eq_some_iff.mp hawaited).1
        rw [hcurrent] at hlt
        omega
      obtain ⟨first, rest, rfl⟩ := List.exists_cons_of_ne_nil hsome
      obtain ⟨start, -, hfirst, -⟩ := hin first rfl first List.mem_cons_self
      have hstart : machine.startMs = some start := hms.trans hfirst
      have hle : start ≤ now := by
        have hpair := (List.pairwise_append.mp htimed.2).2.2 first (hsub.subset List.mem_cons_self)
          line (List.mem_singleton_self line)
        exact hpair start hfirst now hnow
      rw [hnow] at hfresh
      refine ⟨first :: rest ++ [line], hsub.append (List.Sublist.refl [line]), ?_, ?_, ?_⟩
      · change List.Forall₂ _ (seq.steps.take (currentStepFor live bucket + 1)) _
        rw [hcurrent, htake machine.currentStep hcurrent]
        exact List.rel_append hforall (.cons hstep .nil)
      · exact hin.later hsome hfirst hnow hle (not_expired hwindow hstart hfresh)
      · rw [hmachine]
        exact hms

/-- A line in order keeps what the machines stand for, and completes what it says. -/
theorem AllReached.feed (hreached : AllReached py rule seq lines machines)
    (hwindow : 0 < seq.windowMs) (htimed : Timed py (lines ++ [line]))
    (hawaited : Awaited py rule seq machines line)
    (h : feedSequence py rule seq machines line = .ok fed) :
    AllReached py rule seq (lines ++ [line]) fed.machines ∧ ∀ event, fed.complete = some event →
      Matched py rule seq (lines ++ [line]) event.bucket seq.steps := by
  obtain ⟨hmachines, hcomplete⟩ | ⟨bucket, stepIndex, captures, hbucket, hfound, timeouts, htake⟩ :=
    feedSequence_cases h
  · constructor
    · intro e he
      rw [hmachines, mem_cleanup] at he
      exact (hreached e he.1).later line
    · intro event hevent
      cases hcomplete.symm.trans hevent
  · obtain rfl := hawaited bucket stepIndex captures hbucket hfound
    obtain ⟨hentries, hevent⟩ := takeStep_cases htake
    obtain ⟨step, hmem, hmatch⟩ := firstMatch_mem hfound
    have hstep := List.mem_zipIdx_iff_getElem?.mp (List.mem_of_mem_drop hmem)
    have hnew : Reached py rule seq (lines ++ [line]) bucket _ :=
      reached_advance hwindow htimed hreached rfl captures
        ⟨hbucket, captures, hmatch⟩ hstep
    constructor
    · intro e he
      obtain hold | rfl := hentries e he
      · exact (hreached e (mem_cleanup.mp hold).1).later line
      · exact hnew
    · intro event hemitted
      obtain ⟨hsame, hall⟩ := hevent event hemitted
      obtain ⟨matched, hsub, hforall, hin, -⟩ := hnew.matched
      have hsteps : seq.steps.take ((getOrCreate py seq (cleanup seq machines (line.ms py)) bucket
          line).advance (currentStepFor (cleanup seq machines (line.ms py)) bucket) line
            captures).currentStep = seq.steps := List.take_of_length_le hall
      rw [hsteps] at hforall
      exact hsame ▸ ⟨matched, hsub, hforall, hin⟩

theorem AllReached.run {machines' : Machines} (hrule : rule.sequence = some seq)
    (hwindow : 0 < seq.windowMs) (more : List ParsedLine) (htimed : Timed py (lines ++ more))
    (hreached : AllReached py rule seq lines machines)
    (horderly : Orderly py rule seq machines more)
    (hrun : LogHooks.run py rule machines more = .ok machines') :
    AllReached py rule seq (lines ++ more) machines' := by
  induction more generalizing lines machines with
  | nil =>
      rw [List.append_nil]
      obtain rfl := Except.ok.inj hrun
      exact hreached
  | cons line rest ih =>
      unfold LogHooks.run at hrun
      rw [List.foldlM_cons] at hrun
      obtain ⟨next, hnext, hrest⟩ := bind_eq_ok hrun
      rw [LogHooks.feed, hrule] at hnext
      obtain ⟨fed, hfed, hmap⟩ := bind_eq_ok hnext
      obtain rfl := Except.ok.inj hmap
      rw [List.append_cons] at htimed ⊢
      have htimed' : Timed py (lines ++ [line]) := by
        constructor
        · exact fun l hl => htimed.1 l (List.mem_append_left rest hl)
        · exact (List.pairwise_append.mp htimed.2).1
      exact ih htimed (hreached.feed hwindow htimed' horderly.1 hfed).1 (horderly.2 fed hfed) hrest

/-- The lines in front are in order, and the last one finds its step awaited. -/
theorem Orderly.split {machines' : Machines} (hrule : rule.sequence = some seq)
    (h : Orderly py rule seq machines (lines ++ [line]))
    (hrun : LogHooks.run py rule machines lines = .ok machines') :
    Orderly py rule seq machines lines ∧ Awaited py rule seq machines' line := by
  induction lines generalizing machines with
  | nil =>
      obtain rfl := Except.ok.inj hrun
      exact ⟨trivial, h.1⟩
  | cons l rest ih =>
      unfold LogHooks.run at hrun
      rw [List.foldlM_cons] at hrun
      obtain ⟨next, hnext, hrest⟩ := bind_eq_ok hrun
      rw [LogHooks.feed, hrule] at hnext
      obtain ⟨fed, hfed, hmap⟩ := bind_eq_ok hnext
      obtain rfl := Except.ok.inj hmap
      obtain ⟨hlater, hawaited⟩ := ih (h.2 fed hfed) hrest
      constructor
      · constructor
        · exact h.1
        · intro fed' hfed'
          obtain rfl := Except.ok.inj (hfed.symm.trans hfed')
          exact hlater
      · exact hawaited

/-- The awaited step, where bucket and match are known. -/
theorem awaited_of_match {bucket : Bucket} {captures : Dict String String}
    (hbucket : bucketFor py seq line = .ok bucket)
    (hmatch : firstMatch py rule seq line
      (seq.steps.zipIdx.drop (currentStepFor (cleanup seq machines (line.ms py)) bucket)) =
        .ok (some (currentStepFor (cleanup seq machines (line.ms py)) bucket, captures))) :
    Awaited py rule seq machines line := by
  intro bucket' stepIndex captures' hbucket' hmatch'
  obtain rfl := Except.ok.inj (hbucket.symm.trans hbucket')
  exact (Prod.mk.inj (Option.some.inj (Except.ok.inj (hmatch.symm.trans hmatch')))).1.symm

end Runs

/-- In a run in which every line that advances a machine matches the step that its bucket awaits, an
event of completion stands for all steps. -/
theorem complete_matched (before : List ParsedLine) (line : ParsedLine) (machines : Machines)
    (fed : Fed) (event : SequenceEvent) (hrule : rule.sequence = some seq)
    (hwindow : 0 < seq.windowMs) (htimed : Timed py (before ++ [line]))
    (horderly : Orderly py rule seq .empty (before ++ [line]))
    (hrun : run py rule .empty before = .ok machines) (hfeed : feed py rule machines line = .ok fed)
    (hevent : fed.complete = some event) :
    Matched py rule seq (before ++ [line]) event.bucket seq.steps := by
  obtain ⟨hbefore, hawaited⟩ := horderly.split hrule hrun
  have hempty : AllReached py rule seq [] .empty := fun e he => absurd he List.not_mem_nil
  have htimed' : Timed py ([] ++ before) := by
    constructor
    · exact fun l hl => htimed.1 l (List.mem_append_left [line] hl)
    · exact (List.pairwise_append.mp htimed.2).1
  have hreached := hempty.run hrule hwindow before htimed' hbefore hrun
  rw [feed, hrule] at hfeed
  exact (hreached.feed hwindow htimed hawaited hfeed).2 event hevent

/-! ## A later step alone -/

/-- Patterns that are plain text, and times within a month. -/
def plainText : Python where
  search pattern _ text :=
    pure (if text.toList.tails.any pattern.toList.isPrefixOf then some ⟨pattern, []⟩ else none)
  format message _ := .ok message
  timestamp t := some ((((t.day * 24 + t.hour) * 60 + t.minute) * 60 + t.second) * 1000 + t.milli)

def joinSteps : SequenceDef where
  steps := [⟨"disc", "disc done", [], none⟩, ⟨"assoc", "assoc", [], none⟩]
  onComplete := some { message := some "joined" }

def joinRule : Rule where
  id := "join"
  sequence := some joinSteps

def assocLine : ParsedLine where
  time := some "20260811-19:15:00:000"
  text := some "assoc"

def discLine : ParsedLine where
  time := some "20260811-19:14:59:000"
  text := some "disc done"

/-- One line that matches the last step completes the rule. -/
theorem later_step_completes :
    ¬ ∀ (py : Python) (rule : Rule) (seq : SequenceDef) (before : List ParsedLine)
      (line : ParsedLine) (machines : Machines) (fed : Fed) (event : SequenceEvent),
      rule.sequence = some seq → 0 < seq.windowMs → Timed py (before ++ [line]) →
      run py rule .empty before = .ok machines → feed py rule machines line = .ok fed →
      fed.complete = some event → Matched py rule seq (before ++ [line]) event.bucket seq.steps := by
  intro hclaim
  have htimed : Timed plainText [assocLine] := by
    constructor
    · intro line hline
      rw [List.mem_singleton.mp hline]
      rfl
    · exact List.pairwise_singleton _ _
  have hcomplete : ((feed plainText joinRule .empty assocLine).toOption.bind
      Fed.complete).isSome := by rfl
  cases hfeed : feed plainText joinRule .empty assocLine with
  | error e =>
      rw [hfeed] at hcomplete
      cases hcomplete
  | ok fed =>
      rw [hfeed] at hcomplete
      obtain ⟨event, hevent⟩ := Option.isSome_iff_exists.mp hcomplete
      obtain ⟨matched, hsub, hforall, -⟩ :=
        hclaim plainText joinRule joinSteps [] assocLine .empty fed event rfl (by decide) htimed rfl
          hfeed hevent
      have hlong := hforall.length_eq ▸ hsub.length_le
      exact absurd hlong (by decide)

/-- What the first step leaves. -/
def discMachine : SequenceMachine where
  startTime := "20260811-19:14:59:000"
  startMs := some 1019699000
  currentStep := 1
  stepTimes := [some "20260811-19:14:59:000", none]

def discMachines : Machines := ⟨[(some "_default", discMachine)], List.nodup_singleton _⟩

theorem feed_disc : feedSequence plainText joinRule joinSteps .empty discLine =
    .ok ⟨discMachines, [], none⟩ := by rfl

def joinEvent : SequenceEvent where
  ruleId := "join"
  eventType := "join.complete"
  label := "join.complete"
  message := "joined"
  level := "info"
  time := "20260811-19:15:00:000"
  bucket := some "_default"
  captures := .empty
  sourceLine := ""

theorem feed_assoc : feed plainText joinRule discMachines assocLine =
    .ok ⟨.empty, [], some joinEvent⟩ := by rfl

theorem complete_matched_join :
    Matched plainText joinRule joinSteps [discLine, assocLine] (some "_default") joinSteps.steps := by
  have htimed : Timed plainText ([discLine] ++ [assocLine]) := by
    constructor
    · rw [List.singleton_append, List.forall_mem_cons, List.forall_mem_singleton]
      exact ⟨rfl, rfl⟩
    · rw [List.singleton_append, List.pairwise_pair]
      have hdisc : discLine.ms plainText = some 1019699000 := by rfl
      have hassoc : assocLine.ms plainText = some 1019700000 := by rfl
      rw [hdisc, hassoc]
      rintro s ⟨⟩ t ⟨⟩
      decide
  have horderly : Orderly plainText joinRule joinSteps .empty ([discLine] ++ [assocLine]) := by
    constructor
    · exact awaited_of_match rfl rfl
    · intro fed hfed
      obtain rfl := Except.ok.inj (feed_disc.symm.trans hfed)
      constructor
      · exact awaited_of_match rfl rfl
      · exact fun _ _ => trivial
  have hrun : run plainText joinRule .empty [discLine] = .ok discMachines := by rfl
  exact complete_matched plainText joinRule joinSteps [discLine] assocLine discMachines _ joinEvent
    rfl (by decide) htimed horderly hrun feed_assoc rfl

end HplcWorkbench.LogHooks
