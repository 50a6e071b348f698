import HplcWorkbench.PastEvents
import HplcWorkbench.SequenceOrder
import Mathlib.Data.List.Count
import Mathlib.Data.List.Induction
import Mathlib.Logic.Function.Basic

/-!
# What becomes of the machines of a sequence

The machines that a tracker creates are numbered, and the events are entered under the numbers of
their machines. A machine leaves the table by completing, by running out of time or at the final
flush, each time with one event, or without any when a line matches a later step than the one that
it awaits.
-/

namespace HplcWorkbench.LogHooks

open OrderedDict (Dict)

section Ledger
variable (py : Python) (rule : Rule) (seq : SequenceDef)

/-- A tracker, with the numbers of its machines, the events under these numbers, and the machines
that were taken from the table without an event. -/
structure Ledger where
  machines : Machines := .empty
  created : ℕ := 0
  number : Bucket → ℕ := fun _ => 0
  entries : List (ℕ × SequenceEvent) := []
  dropped : List ℕ := []

namespace Ledger

/-- The line matches a step from the awaited one on. -/
def take (s : Ledger) (live : Machines) (bucket : Bucket) (stepIndex : ℕ) (fed : Fed)
    (timeouts : List (ℕ × SequenceEvent)) : Ledger :=
  let reset : Bool := currentStepFor live bucket < stepIndex
  -- `_get_or_create` makes a machine where none is left
  let fresh : Bool := reset || (live.get? bucket).isNone
  let number := if fresh then s.created else s.number bucket
  { machines := fed.machines
    created := if fresh then s.created + 1 else s.created
    number := Function.update s.number bucket number
    entries := s.entries ++ timeouts ++ fed.complete.toList.map fun event => (number, event)
    dropped := s.dropped ++
      if reset then (live.get? bucket).toList.map fun _ => s.number bucket else [] }

/-- `feed`, with the numbers. -/
def feed (s : Ledger) (line : ParsedLine) : PyM Ledger := do
  let fed ← feedSequence py rule seq s.machines line
  let live := cleanup seq s.machines (line.ms py)
  let expired := s.machines.entries.filter fun e => e.2.isExpired seq.windowMs (line.ms py)
  let timeouts := expired.filterMap fun e =>
    (emitTimeout rule seq e.2 e.1).map fun event => (s.number e.1, event)
  let bucket ← bucketFor py seq line
  match ← firstMatch py rule seq line (seq.steps.zipIdx.drop (currentStepFor live bucket)) with
  | none => pure { s with machines := fed.machines, entries := s.entries ++ timeouts }
  | some (stepIndex, _) => pure (s.take live bucket stepIndex fed timeouts)

/-- `flush`: the machines that have not completed run out of time. -/
def flush (s : Ledger) : Ledger where
  machines := .empty
  created := s.created
  number := s.number
  entries := s.entries ++ s.machines.entries.filterMap fun e =>
    if e.2.currentStep < seq.steps.length then
      (emitTimeout rule seq e.2 e.1).map fun event => (s.number e.1, event)
    else none
  dropped := s.dropped

/-- Some lines. -/
def feeds (s : Ledger) (lines : List ParsedLine) : PyM Ledger := lines.foldlM (feed py rule seq) s

/-- A whole log: its lines and the final flush. -/
def run (lines : List ParsedLine) : PyM Ledger := do
  let s ← feeds py rule seq {} lines
  pure (s.flush rule seq)

/-- Every machine that was created ends in one event. -/
def Settled (s : Ledger) : Prop :=
  (∀ n < s.created, (s.entries.map Prod.fst).count n = 1) ∧ ∀ e ∈ s.entries, e.1 < s.created

/-- The machines under way. -/
def underWay (s : Ledger) : List ℕ := s.machines.entries.map fun e => s.number e.1

/-- Every machine has ended, is under way or was dropped. -/
def Balanced (s : Ledger) : Prop :=
  ∀ n, (s.entries.map Prod.fst).count n + s.underWay.count n + s.dropped.count n =
    (List.range s.created).count n

def InProgress (s : Ledger) : Prop := ∀ e ∈ s.machines.entries, e.2.currentStep < seq.steps.length

end Ledger

/-- The line matches a later step than the one that the machine of its bucket awaits. -/
def DropsMachine (machines : Machines) (line : ParsedLine) : Prop :=
  let live := cleanup seq machines (line.ms py)
  ∃ bucket stepIndex captures, bucketFor py seq line = .ok bucket ∧
    firstMatch py rule seq line (seq.steps.zipIdx.drop (currentStepFor live bucket)) =
      .ok (some (stepIndex, captures)) ∧
    currentStepFor live bucket < stepIndex ∧ live.get? bucket ≠ none

/-- A line of the log does so. -/
def SkipsSteps (lines : List ParsedLine) : Prop :=
  PastEvents.Once (fun before line => ∃ machines, LogHooks.run py rule .empty before = .ok machines ∧
    DropsMachine py rule seq machines line) lines

end Ledger

/-! ## One line -/

section OneLine
variable {py : Python} {rule : Rule} {seq : SequenceDef} {s s' : Ledger} {line : ParsedLine}

/-- The line matches no step, or a step from the awaited one on. -/
theorem Ledger.feed_cases (h : s.feed py rule seq line = .ok s') :
    let live := cleanup seq s.machines (line.ms py)
    let timeouts := (s.machines.entries.filter fun e =>
      e.2.isExpired seq.windowMs (line.ms py)).filterMap fun e =>
        (emitTimeout rule seq e.2 e.1).map fun event => (s.number e.1, event)
    (∃ bucket, bucketFor py seq line = .ok bucket ∧ firstMatch py rule seq line
        (seq.steps.zipIdx.drop (currentStepFor live bucket)) = .ok none ∧
      s' = { s with machines := live, entries := s.entries ++ timeouts }) ∨
    ∃ bucket stepIndex captures fed late, bucketFor py seq line = .ok bucket ∧
      firstMatch py rule seq line (seq.steps.zipIdx.drop (currentStepFor live bucket)) =
        .ok (some (stepIndex, captures)) ∧
      takeStep py rule seq live bucket line stepIndex captures late = .ok fed ∧
      s' = s.take live bucket stepIndex fed timeouts := by
  unfold Ledger.feed at h
  obtain ⟨fed, hfed, h⟩ := bind_eq_ok h
  obtain ⟨bucket, hbucket, h⟩ := bind_eq_ok h
  obtain ⟨found, hfound, h⟩ := bind_eq_ok h
  unfold feedSequence at hfed
  obtain ⟨bucket', hbucket', hfed⟩ := bind_eq_ok hfed
  obtain rfl := Except.ok.inj (hbucket.symm.trans hbucket')
  obtain ⟨found', hfound', hfed⟩ := bind_eq_ok hfed
  obtain rfl := Except.ok.inj (hfound.symm.trans hfound')
  cases found with
  | none =>
    obtain rfl := Except.ok.inj hfed
    exact .inl ⟨bucket, hbucket, hfound, (Except.ok.inj h).symm⟩
  | some found =>
    exact .inr ⟨bucket, found.1, found.2, fed, _, hbucket, hfound, hfed, (Except.ok.inj h).symm⟩

theorem emitTimeout_isSome (htimeout : seq.onTimeout.isSome) (machine : SequenceMachine)
    (bucket : Bucket) : (emitTimeout rule seq machine bucket).isSome := by
  rw [emitTimeout, Option.isSome_map]
  exact htimeout

/-- The numbers of the machines that run out of time. -/
theorem map_fst_timeouts (htimeout : seq.onTimeout.isSome) (number : Bucket → ℕ)
    (entries : List (Bucket × SequenceMachine)) :
    (entries.filterMap fun e =>
      (emitTimeout rule seq e.2 e.1).map fun event => (number e.1, event)).map Prod.fst =
        entries.map fun e => number e.1 := by
  induction entries with
  | nil => rfl
  | cons e rest ih =>
    obtain ⟨event, hevent⟩ := Option.isSome_iff_exists.mp
      (emitTimeout_isSome htimeout e.2 e.1)
    rw [List.filterMap_cons, hevent]
    exact congrArg _ ih

theorem emitComplete_isSome (hcomplete : seq.onComplete.isSome) {machine : SequenceMachine}
    {bucket : Bucket} {emitted : Option SequenceEvent}
    (h : emitComplete py rule seq machine bucket = .ok emitted) : emitted.isSome := by
  obtain ⟨template, htemplate⟩ := Option.isSome_iff_exists.mp hcomplete
  rw [emitComplete, htemplate] at h
  obtain ⟨message, -, h⟩ := bind_eq_ok h
  rw [← Except.ok.inj h]
  rfl

theorem map_snd_timeouts (number : Bucket → ℕ) (entries : List (Bucket × SequenceMachine)) :
    (entries.filterMap fun e =>
      (emitTimeout rule seq e.2 e.1).map fun event => (number e.1, event)).map Prod.snd =
        entries.filterMap fun e => emitTimeout rule seq e.2 e.1 := by
  rw [List.map_filterMap]
  apply List.filterMap_congr
  intro e _
  rw [Option.map_map]
  exact Option.map_id'

variable {live : Machines} {bucket : Bucket} {stepIndex : ℕ} {captures : Dict String String}
  {late : List SequenceEvent} {fed : Fed}

theorem takeStep_timeouts
    (h : takeStep py rule seq live bucket line stepIndex captures late = .ok fed) :
    fed.timeouts = late := by
  unfold takeStep at h
  dsimp only at h
  generalize (if currentStepFor live bucket < stepIndex then live.erase bucket else live) = kept at h
  split at h
  · obtain ⟨emitted, -, h⟩ := bind_eq_ok h
    rw [← Except.ok.inj h]
  · rw [← Except.ok.inj h]

/-- The machine of the bucket goes on, or it completes and is gone. The other machines stay. -/
theorem takeStep_table (hcomplete : seq.onComplete.isSome)
    (h : takeStep py rule seq live bucket line stepIndex captures late = .ok fed) :
    (fed.complete = none ∧ ∃ machine, machine.currentStep < seq.steps.length ∧
        fed.machines.entries.Perm ((bucket, machine) :: (live.erase bucket).entries)) ∨
      ∃ event, fed.complete = some event ∧
        fed.machines.entries.Perm (live.erase bucket).entries := by
  unfold takeStep at h
  dsimp only at h
  set kept := if currentStepFor live bucket < stepIndex then live.erase bucket else live with hkept
  have hrest : (kept.erase bucket).entries = (live.erase bucket).entries := by
    rw [hkept]
    split
    · rw [live.erase_erase]
    · rfl
  split at h
  case isTrue hlast =>
    obtain ⟨emitted, hemitted, h⟩ := bind_eq_ok h
    obtain ⟨event, rfl⟩ := Option.isSome_iff_exists.mp (emitComplete_isSome hcomplete hemitted)
    obtain rfl := Except.ok.inj h
    refine .inr ⟨event, rfl, ?_⟩
    rw [← hrest]
    exact kept.perm_erase_set bucket _
  case isFalse hlast =>
    obtain rfl := Except.ok.inj h
    refine .inl ⟨rfl, _, Nat.lt_of_not_le hlast, ?_⟩
    rw [← hrest]
    exact kept.perm_set bucket _

/-- The numbers of the other machines stay. -/
theorem map_number_erase (number : Bucket → ℕ) (n : ℕ) :
    ((live.erase bucket).entries.map fun e => Function.update number bucket n e.1) =
      (live.erase bucket).entries.map fun e => number e.1 := by
  apply List.map_congr_left
  intro e he
  exact Function.update_of_ne ((live.mem_erase bucket).mp he).2 n number

variable (live bucket) in
/-- The machine of the bucket, if there is one, and the others. -/
theorem perm_underWay (number : Bucket → ℕ) :
    (live.entries.map fun e => number e.1).Perm
      (((live.get? bucket).toList.map fun _ => number bucket) ++
        (live.erase bucket).entries.map fun e => number e.1) := by
  cases hget : live.get? bucket with
  | none => rw [live.entries_erase_of_none hget]; exact List.Perm.refl _
  | some machine => exact (live.perm_cons_erase hget).map _

variable (seq) in
/-- Those that run out of time and those that do not. -/
theorem perm_cleanup (machines : Machines) (now : Option ℤ) (number : Bucket → ℕ) :
    (machines.entries.map fun e => number e.1).Perm
      (((machines.entries.filter fun e => e.2.isExpired seq.windowMs now).map fun e => number e.1) ++
        (cleanup seq machines now).entries.map fun e => number e.1) := by
  rw [← List.map_append]
  exact (List.filter_append_perm _ _).symm.map _

end OneLine

/-! ## The balance of a run -/

section Balance
variable {py : Python} {rule : Rule} {seq : SequenceDef} {s s' : Ledger} {line : ParsedLine}

/-- The machine that took the line is under way or has completed. -/
theorem count_taken (hcomplete : seq.onComplete.isSome) {live : Machines} {bucket : Bucket}
    {stepIndex : ℕ} {captures : Dict String String} {late : List SequenceEvent} {fed : Fed}
    (h : takeStep py rule seq live bucket line stepIndex captures late = .ok fed)
    (number : Bucket → ℕ) (taken n : ℕ) :
    (fed.complete.toList.map fun _ => taken).count n +
        (fed.machines.entries.map fun e => Function.update number bucket taken e.1).count n =
      [taken].count n + ((live.erase bucket).entries.map fun e => number e.1).count n := by
  rcases takeStep_table hcomplete h with ⟨hnone, machine, -, htable⟩ | ⟨event, hsome, htable⟩
  · have hcount := (htable.map fun e => Function.update number bucket taken e.1).count_eq n
    rw [List.map_cons, map_number_erase, Function.update_self] at hcount
    rw [hnone, hcount, ← List.singleton_append, List.count_append]
    exact Nat.zero_add _
  · have hcount := (htable.map fun e => Function.update number bucket taken e.1).count_eq n
    rw [map_number_erase] at hcount
    rw [hsome, hcount]
    rfl

theorem Ledger.Balanced.feed (hcomplete : seq.onComplete.isSome) (htimeout : seq.onTimeout.isSome)
    (hbalanced : s.Balanced) (h : s.feed py rule seq line = .ok s') : s'.Balanced := by
  intro n
  have hbefore := hbalanced n
  have hlive := (perm_cleanup seq s.machines (line.ms py) s.number).count_eq n
  rw [List.count_append] at hlive
  rw [Ledger.underWay] at hbefore
  rcases Ledger.feed_cases h with ⟨bucket, -, -, rfl⟩ |
    ⟨bucket, stepIndex, captures, fed, late, -, -, htake, rfl⟩
  · rw [Ledger.underWay, List.map_append, List.count_append, map_fst_timeouts htimeout]
    dsimp only
    omega
  · have hothers := (perm_underWay (cleanup seq s.machines (line.ms py)) bucket
      s.number).count_eq n
    rw [List.count_append] at hothers
    have htaken := count_taken hcomplete htake s.number
    unfold Ledger.take Ledger.underWay
    dsimp only
    rw [List.map_append, List.map_append, List.count_append, List.count_append, List.count_append,
      map_fst_timeouts htimeout, List.map_map]
    have hrange : ∀ m, (List.range (m + 1)).count n = (List.range m).count n + [m].count n := by
      intro m
      rw [List.range_succ, List.count_append]
    by_cases hreset : currentStepFor (cleanup seq s.machines (line.ms py)) bucket < stepIndex
    · have hnew := htaken s.created n
      simp only [hreset, decide_true, Bool.true_or, if_true]
      rw [hrange]
      change _ + (fed.complete.toList.map fun _ => s.created).count n + _ + _ = _
      omega
    · cases hget : (cleanup seq s.machines (line.ms py)).get? bucket with
      | none =>
        have hnew := htaken s.created n
        rw [hget] at hothers
        simp only [hreset, decide_false, Bool.false_or, Option.isNone_none, if_true]
        rw [hrange]
        change _ + (fed.complete.toList.map fun _ => s.created).count n + _ + _ = _
        simp only [Option.toList_none, List.map_nil, List.count_nil] at hothers
        simp only [Bool.false_eq_true, if_false, List.count_nil]
        omega
      | some machine =>
        have hold := htaken (s.number bucket) n
        rw [hget] at hothers
        simp only [hreset, decide_false, Bool.false_or, Option.isNone_some, Bool.false_eq_true,
          if_false]
        change _ + (fed.complete.toList.map fun _ => s.number bucket).count n + _ + _ = _
        simp only [Option.toList_some, List.map_cons, List.map_nil] at hothers
        simp only [List.count_nil]
        omega

theorem Ledger.InProgress.feed (hcomplete : seq.onComplete.isSome) (hprogress : s.InProgress seq)
    (h : s.feed py rule seq line = .ok s') : s'.InProgress seq := by
  have hlive : ∀ e ∈ (cleanup seq s.machines (line.ms py)).entries,
      e.2.currentStep < seq.steps.length := fun e he => hprogress e (mem_cleanup.mp he).1
  rcases Ledger.feed_cases h with ⟨bucket, -, -, rfl⟩ |
    ⟨bucket, stepIndex, captures, fed, late, -, -, htake, rfl⟩
  · exact hlive
  · intro e he
    rcases takeStep_table hcomplete htake with ⟨-, machine, hstep, htable⟩ | ⟨event, -, htable⟩
    · rcases List.mem_cons.mp (htable.mem_iff.mp he) with rfl | he
      · exact hstep
      · exact hlive e ((Dict.mem_erase _ _).mp he).1
    · exact hlive e ((Dict.mem_erase _ _).mp (htable.mem_iff.mp he)).1

/-- The machines are those of the tracker, and the events those that it returns. -/
theorem Ledger.feed_tracker (h : s.feed py rule seq line = .ok s') :
    ∃ fed, feedSequence py rule seq s.machines line = .ok fed ∧ s'.machines = fed.machines ∧
      s'.entries.map Prod.snd = s.entries.map Prod.snd ++ fed.events := by
  unfold Ledger.feed at h
  obtain ⟨fed, hfed, h⟩ := bind_eq_ok h
  refine ⟨fed, hfed, ?_⟩
  obtain ⟨bucket, hbucket, h⟩ := bind_eq_ok h
  obtain ⟨found, hfound, h⟩ := bind_eq_ok h
  unfold feedSequence at hfed
  obtain ⟨bucket', hbucket', hfed⟩ := bind_eq_ok hfed
  obtain rfl := Except.ok.inj (hbucket.symm.trans hbucket')
  obtain ⟨found', hfound', hfed⟩ := bind_eq_ok hfed
  obtain rfl := Except.ok.inj (hfound.symm.trans hfound')
  cases found with
  | none =>
    obtain rfl := Except.ok.inj hfed
    obtain rfl := Except.ok.inj h
    rw [Fed.events, List.map_append, map_snd_timeouts]
    exact ⟨rfl, congrArg _ (List.append_nil _).symm⟩
  | some found =>
    obtain rfl := Except.ok.inj h
    refine ⟨rfl, ?_⟩
    rw [Ledger.take, Fed.events, takeStep_timeouts hfed]
    dsimp only
    rw [List.map_append, List.map_append, map_snd_timeouts, List.map_map, List.append_assoc]
    exact congrArg _ (congrArg _ (List.map_id _))

/-- A machine is dropped exactly where a line matches a later step than the one that it awaits. -/
theorem Ledger.feed_dropped (h : s.feed py rule seq line = .ok s') :
    ∃ more, s'.dropped = s.dropped ++ more ∧
      (more = [] ↔ ¬ DropsMachine py rule seq s.machines line) := by
  rcases Ledger.feed_cases h with ⟨bucket, hbucket, hfound, rfl⟩ |
    ⟨bucket, stepIndex, captures, fed, late, hbucket, hfound, htake, rfl⟩
  · refine ⟨[], (List.append_nil _).symm, iff_of_true rfl ?_⟩
    rintro ⟨bucket', stepIndex, captures, hbucket', hfound', -⟩
    obtain rfl := Except.ok.inj (hbucket.symm.trans hbucket')
    cases hfound.symm.trans hfound'
  · refine ⟨_, rfl, ?_⟩
    have hdrops : DropsMachine py rule seq s.machines line ↔
        currentStepFor (cleanup seq s.machines (line.ms py)) bucket < stepIndex ∧
          (cleanup seq s.machines (line.ms py)).get? bucket ≠ none := by
      constructor
      · rintro ⟨bucket', stepIndex', captures', hbucket', hfound', hreset, hsome⟩
        obtain rfl := Except.ok.inj (hbucket.symm.trans hbucket')
        obtain ⟨rfl, -⟩ := Prod.mk.inj (Option.some.inj (Except.ok.inj (hfound.symm.trans hfound')))
        exact ⟨hreset, hsome⟩
      · rintro ⟨hreset, hsome⟩
        exact ⟨bucket, stepIndex, captures, hbucket, hfound, hreset, hsome⟩
    rw [hdrops, not_and_or, not_not]
    by_cases hreset : currentStepFor (cleanup seq s.machines (line.ms py)) bucket < stepIndex
    · simp only [hreset, decide_true, if_true, List.map_eq_nil_iff, Option.toList_eq_nil_iff,
        not_true_eq_false, false_or]
    · simp only [hreset, decide_false, Bool.false_eq_true, if_false, not_false_eq_true, true_or]

/-! ### Whole runs -/

theorem run_concat (lines : List ParsedLine) (line : ParsedLine) :
    LogHooks.run py rule .empty (lines ++ [line]) =
      LogHooks.run py rule .empty lines >>= fun machines =>
        Fed.machines <$> LogHooks.feed py rule machines line := by
  rw [LogHooks.run, List.foldlM_append, ← LogHooks.run]
  simp only [List.foldlM_cons, List.foldlM_nil, bind_pure]

theorem skipsSteps_concat (lines : List ParsedLine) (line : ParsedLine) {machines : Machines}
    (hrun : LogHooks.run py rule .empty lines = .ok machines) :
    SkipsSteps py rule seq (lines ++ [line]) ↔
      DropsMachine py rule seq machines line ∨ SkipsSteps py rule seq lines := by
  rw [SkipsSteps, PastEvents.once_concat, ← SkipsSteps, hrun]
  apply or_congr_left
  constructor
  · rintro ⟨machines', hmachines, hdrops⟩
    rwa [Except.ok.inj hmachines]
  · intro hdrops
    exact ⟨machines, rfl, hdrops⟩

/-- What holds after the lines of a log. -/
structure Ledger.After (py : Python) (rule : Rule) (seq : SequenceDef) (lines : List ParsedLine)
    (s : Ledger) : Prop where
  balanced : s.Balanced
  inProgress : s.InProgress seq
  machines : LogHooks.run py rule .empty lines = .ok s.machines
  dropped : s.dropped = [] ↔ ¬ SkipsSteps py rule seq lines

theorem Ledger.After.empty : Ledger.After py rule seq [] {} where
  balanced _ := rfl
  inProgress _ he := absurd he List.not_mem_nil
  machines := rfl
  dropped := iff_of_true rfl PastEvents.not_once_nil

theorem Ledger.After.feed {lines : List ParsedLine} (hrule : rule.sequence = some seq)
    (hcomplete : seq.onComplete.isSome) (htimeout : seq.onTimeout.isSome)
    (hafter : s.After py rule seq lines) (h : s.feed py rule seq line = .ok s') :
    s'.After py rule seq (lines ++ [line]) where
  balanced := hafter.balanced.feed hcomplete htimeout h
  inProgress := hafter.inProgress.feed hcomplete h
  machines := by
    obtain ⟨fed, hfed, hmachines, -⟩ := Ledger.feed_tracker h
    rw [run_concat, hafter.machines, hmachines]
    change Fed.machines <$> LogHooks.feed py rule s.machines line = _
    rw [LogHooks.feed, hrule]
    exact congrArg (Fed.machines <$> ·) hfed
  dropped := by
    obtain ⟨more, hdropped, hmore⟩ := Ledger.feed_dropped h
    rw [hdropped, List.append_eq_nil_iff, skipsSteps_concat lines line hafter.machines, not_or,
      hafter.dropped, hmore, and_comm]

theorem Ledger.after_feeds (hrule : rule.sequence = some seq) (hcomplete : seq.onComplete.isSome)
    (htimeout : seq.onTimeout.isSome) (lines : List ParsedLine)
    (h : Ledger.feeds py rule seq {} lines = .ok s) : s.After py rule seq lines := by
  induction lines using List.reverseRecOn generalizing s with
  | nil =>
    obtain rfl := Except.ok.inj h
    exact Ledger.After.empty
  | append_singleton lines line ih =>
    rw [Ledger.feeds, List.foldlM_append] at h
    obtain ⟨t, ht, h⟩ := bind_eq_ok h
    rw [List.foldlM_cons] at h
    obtain ⟨t', hfeed, h⟩ := bind_eq_ok h
    obtain rfl := Except.ok.inj h
    exact (ih ht).feed hrule hcomplete htimeout hfeed

/-- The flush ends what is under way. -/
theorem Ledger.count_flush (rule : Rule) (htimeout : seq.onTimeout.isSome) (hbalanced : s.Balanced)
    (hprogress : s.InProgress seq) (n : ℕ) :
    ((s.flush rule seq).entries.map Prod.fst).count n + s.dropped.count n =
      (List.range s.created).count n := by
  have hall : (s.machines.entries.filterMap fun e =>
      if e.2.currentStep < seq.steps.length then
        (emitTimeout rule seq e.2 e.1).map fun event => (s.number e.1, event)
      else none) = s.machines.entries.filterMap fun e =>
        (emitTimeout rule seq e.2 e.1).map fun event => (s.number e.1, event) := by
    apply List.filterMap_congr
    intro e he
    rw [if_pos (hprogress e he)]
  have hbefore := hbalanced n
  rw [Ledger.flush]
  dsimp only
  rw [hall, List.map_append, List.count_append, map_fst_timeouts htimeout]
  exact hbefore

theorem Ledger.settled_flush_iff (htimeout : seq.onTimeout.isSome) (hbalanced : s.Balanced)
    (hprogress : s.InProgress seq) : (s.flush rule seq).Settled ↔ s.dropped = [] := by
  have hcount := Ledger.count_flush rule htimeout hbalanced hprogress
  have hcreated : (s.flush rule seq).created = s.created := rfl
  constructor
  · rintro ⟨hone, -⟩
    apply List.eq_nil_iff_forall_not_mem.mpr
    intro n hn
    have hpos := List.count_pos_iff.mpr hn
    have hle := List.nodup_iff_count_le_one.mp (List.nodup_range (n := s.created)) n
    have hsum := hcount n
    by_cases hnumber : n < s.created
    · have := hone n hnumber
      omega
    · have hzero := List.count_eq_zero_of_not_mem (fun h => hnumber (List.mem_range.mp h))
      omega
  · intro hdropped
    constructor
    · intro n hn
      rw [hcreated] at hn
      have hsum := hcount n
      rw [hdropped, List.count_nil, List.count_eq_one_of_mem List.nodup_range (List.mem_range.mpr hn)]
        at hsum
      exact hsum
    · intro e he
      have hpos := List.count_pos_iff.mpr (List.mem_map_of_mem (f := Prod.fst) he)
      have hsum := hcount e.1
      have hrange : 0 < (List.range s.created).count e.1 := by omega
      exact List.mem_range.mp (List.count_pos_iff.mp hrange)

end Balance

/-- Every machine that a tracker creates ends in one event exactly if no line matches a later step
than the one that the machine of its bucket awaits. -/
theorem settled_iff (py : Python) (rule : Rule) (seq : SequenceDef) (lines : List ParsedLine)
    (s : Ledger) (hrule : rule.sequence = some seq) (hcomplete : seq.onComplete.isSome)
    (htimeout : seq.onTimeout.isSome) (hrun : Ledger.run py rule seq lines = .ok s) :
    s.Settled ↔ ¬ SkipsSteps py rule seq lines := by
  obtain ⟨t, ht, h⟩ := bind_eq_ok hrun
  obtain rfl := Except.ok.inj h
  have hafter := Ledger.after_feeds hrule hcomplete htimeout lines ht
  rw [Ledger.settled_flush_iff htimeout hafter.balanced hafter.inProgress, hafter.dropped]

/-! ## A step that is left out -/

def joinFlow : SequenceDef where
  steps := [⟨"scan", "scan", [], none⟩, ⟨"auth", "auth", [], none⟩, ⟨"assoc", "assoc", [], none⟩]
  onComplete := some { message := some "joined" }
  onTimeout := some { type := some "join.timeout" }

def joinFlowRule : Rule where
  id := "join"
  sequence := some joinFlow

def scanLine : ParsedLine where
  time := some "20260811-19:14:59:000"
  text := some "scan"

theorem truncated_settled_iff :
    ∃ s, Ledger.run plainText joinFlowRule joinFlow [scanLine] = .ok s ∧
      (s.Settled ↔ ¬ SkipsSteps plainText joinFlowRule joinFlow [scanLine]) :=
  ⟨_, rfl, settled_iff plainText joinFlowRule joinFlow [scanLine] _ rfl rfl rfl rfl⟩

/-- The machine of the first line is replaced by a new one, and no event tells of it. -/
theorem skipped_not_settled :
    ∃ s, Ledger.run plainText joinFlowRule joinFlow [scanLine, assocLine] = .ok s ∧ ¬ s.Settled := by
  refine ⟨_, rfl, ?_⟩
  rintro ⟨hone, -⟩
  have hzero := hone 0 (by decide)
  exact absurd hzero (by decide)

end HplcWorkbench.LogHooks
