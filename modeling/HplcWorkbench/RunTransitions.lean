import HplcWorkbench.RunExecutor

/-!
# The statuses a run goes through

`cancel` writes the status of a run without asking the transition table, and the thread settles it
without asking whether a call of `cancel` has written. The statuses follow the table in exactly the
runs in which no call and no handler comes too late.
-/

namespace HplcWorkbench.Orchestration
open Transitions

/-! ## Status sequences -/

/-- A sequence of statuses, newest first, that takes allowed transitions only and never leaves a
terminal status. -/
structure Lawful (history : List RunStatus) : Prop where
  allowed : history.IsChain fun new old => new ∈ runTransitions old
  settled : ∀ newer t older, history = newer ++ t :: older → t ∈ terminal → ∀ x ∈ newer, x = t

theorem runTransitions_refl (a : RunStatus) : a ∈ runTransitions a := by
  cases a <;> decide

theorem runTransitions_terminal {t a : RunStatus} (ht : t ∈ terminal) (ha : a ∈ runTransitions t) :
    a = t := by
  cases t <;> revert ht <;> simp_all [terminal, runTransitions]

/-- The table alone keeps a terminal status. -/
theorem lawful_iff {history : List RunStatus} :
    Lawful history ↔ history.IsChain fun new old => new ∈ runTransitions old := by
  refine ⟨Lawful.allowed, fun h => ⟨h, ?_⟩⟩
  intro newer t older hsplit ht
  induction newer generalizing history with
  | nil => exact fun x hx => absurd hx List.not_mem_nil
  | cons a newer ih =>
      subst hsplit
      have hnewer := ih (List.IsChain.tail h) rfl
      intro x hx
      obtain rfl | hx := List.mem_cons.mp hx
      · cases newer with
        | nil => exact runTransitions_terminal ht (List.isChain_cons_cons.mp h).1
        | cons b newer =>
            rw [← hnewer b List.mem_cons_self] at ht ⊢
            exact runTransitions_terminal ht (List.isChain_cons_cons.mp h).1
      · exact hnewer x hx

theorem lawful_cons {a b : RunStatus} {history : List RunStatus} :
    Lawful (a :: b :: history) ↔ a ∈ runTransitions b ∧ Lawful (b :: history) := by
  rw [lawful_iff, lawful_iff, List.isChain_cons_cons]

/-! ## Steps that come in time -/

namespace RunState

/-- Some call of `cancel` has set the status. -/
def Marked (s : RunState) : Prop := ∃ c ∈ s.cancels, c ≠ .found ∧ c ≠ .flagged

instance (s : RunState) : Decidable s.Marked :=
  inferInstanceAs (Decidable (∃ c ∈ s.cancels, c ≠ .found ∧ c ≠ .flagged))

/-- Some call of `cancel` has set the status and not yet finished its store update. -/
def Updating (s : RunState) : Prop := ∃ c ∈ s.cancels, c = .marked ∨ ∃ row, c = .read row

end RunState

/-- The step comes in time: a call of `cancel` sets the status while the thread is inside
`_run_steps`; `check_cancel` raises once a call that set the event has set the status too; the
thread gets a verdict or a `PortError` only if no call has set the status; and the event is not
set between the verdict and the look at it. -/
def Timely (s : RunState) : Event → Prop
  | .cancelStep k => s.cancels[k]? = some .flagged → ∃ rest, s.thread = .steps rest
  | .thread .ok =>
    match s.thread with
    | .steps (.check :: _) => s.cancelEvent = true → s.Marked
    | .decided => s.cancelEvent = false
    | _ => True
  | .thread .portError | .thread (.verdict _) => ¬ s.Marked
  | _ => True

/-- The blocks of the thread. -/
inductive Block
  | idle
  | inside
  | decided
  | finishing
  deriving DecidableEq

def Thread.block : Thread → Block
  | .idle => .idle
  | .steps _ => .inside
  | .decided => .decided
  | .finishing _ => .finishing

/-- How the status of a run hangs together with where its thread stands, as long as the steps come
in time. -/
structure Ordered (request : RunRequest) (s : RunState) : Prop where
  lawful : Lawful s.history
  idle : s.thread.block = .idle → s.history = [] ∧ s.cancels = [] ∧ s.registered = false
  newest : s.thread.block ≠ .idle → ∃ older, s.history = s.status :: older
  executed : request.entry = .execute → s.cancels = [] ∧ s.registered = false
  inside : s.thread.block = .inside → s.status = if s.Marked then .cancelling else .running
  decided : s.thread.block = .decided → s.status ∈ [RunStatus.passed, .failed, .inconclusive]
  finished : s.thread.block = .finishing → s.status ∈ terminal

section Ordered
variable {request : RunRequest} {runId : String} {s s' : RunState}

/-- Replacing an element by one that counts alike. -/
theorem exists_mem_set_iff {α : Type*} {p : α → Prop} {l : List α} {k : ℕ} {a a' : α}
    (hk : l[k]? = some a) (h : p a' ↔ p a) : (∃ x ∈ l.set k a', p x) ↔ ∃ x ∈ l, p x := by
  obtain ⟨hlt, rfl⟩ := List.getElem?_eq_some_iff.mp hk
  constructor
  · rintro ⟨x, hx, hp⟩
    obtain hx | rfl := List.mem_or_eq_of_mem_set hx
    · exact ⟨x, hx, hp⟩
    · exact ⟨_, List.getElem_mem hlt, h.mp hp⟩
  · rintro ⟨x, hx, hp⟩
    obtain ⟨j, hj, rfl⟩ := List.mem_iff_getElem.mp hx
    by_cases hjk : j = k
    · subst hjk
      exact ⟨a', List.mem_set hlt a', h.mpr hp⟩
    · refine ⟨l[j], ?_, hp⟩
      rw [List.mem_iff_getElem]
      exact ⟨j, by simpa using hj, by rw [List.getElem_set_ne (Ne.symm hjk)]⟩

/-- The history with one more status. -/
theorem Ordered.lawful_set (h : Ordered request s) (hthread : s.thread.block ≠ .idle) (status : RunStatus) :
    Lawful (status :: s.history) ↔ status ∈ runTransitions s.status := by
  obtain ⟨older, hhist⟩ := h.newest hthread
  have hlawful := h.lawful
  rw [hhist] at hlawful ⊢
  rw [lawful_cons]
  exact and_iff_left hlawful

/-- An exception that is neither `RunCancelled` nor `PortError` is allowed. -/
theorem Ordered.exception (h : Ordered request s) (hthread : s.thread.block = .inside) :
    RunState.exceptionStatus request.entry ∈ runTransitions s.status := by
  rw [h.inside hthread]
  cases hentry : request.entry with
  | submit => split <;> decide
  | execute =>
      have hnone : ¬ s.Marked := by
        rw [RunState.Marked, (h.executed hentry).1]
        simp
      rw [if_neg hnone]
      decide

/-- From inside `_run_steps` the handlers of `RunCancelled` set an allowed status exactly when a call
has set the status, and those of a verdict or a `PortError` exactly when none has. -/
theorem Ordered.handler (h : Ordered request s) (hthread : s.thread.block = .inside) :
    (.cancelled ∈ runTransitions s.status ↔ s.Marked) ∧
    (.failed ∈ runTransitions s.status ↔ ¬ s.Marked) ∧
    ∀ v : Verdict, v.status ∈ runTransitions s.status ↔ ¬ s.Marked := by
  rw [h.inside hthread]
  by_cases hmarked : s.Marked
  · simp only [hmarked]
    refine ⟨by decide, by decide, fun v => ?_⟩
    cases v <;> decide
  · simp only [hmarked]
    refine ⟨by decide, by decide, fun v => ?_⟩
    cases v <;> decide

/-- A call of `cancel` sets an allowed status exactly while the thread is inside `_run_steps`. -/
theorem Ordered.lawful_cancelling (h : Ordered request s) {k : ℕ} (hk : s.cancels[k]? = some .flagged) :
    Lawful (.cancelling :: s.history) ↔ ∃ rest, s.thread = .steps rest := by
  cases ht : s.thread with
  | idle => simp [(h.idle (ht ▸ rfl)).2.1] at hk
  | steps rest =>
      rw [h.lawful_set (by simp [ht, Thread.block]), h.inside (ht ▸ rfl)]
      refine iff_of_true ?_ ⟨rest, rfl⟩
      split <;> decide
  | decided =>
      rw [h.lawful_set (by simp [ht, Thread.block])]
      refine iff_of_false ?_ (by simp)
      have hdecided := h.decided (ht ▸ rfl)
      simp only [List.mem_cons, List.not_mem_nil, or_false] at hdecided
      obtain hv | hv | hv := hdecided <;> rw [hv] <;> decide
  | finishing rest =>
      rw [h.lawful_set (by simp [ht, Thread.block])]
      refine iff_of_false (fun hallowed => ?_) (by simp)
      have hfinished := h.finished (ht ▸ rfl)
      rw [← runTransitions_terminal hfinished hallowed] at hfinished
      revert hfinished
      decide

/-- A step leaves the history lawful exactly when it comes in time. -/
theorem Ordered.lawful_step_iff (h : Ordered request s) {e : Event}
    (he : (runMachine request runId).step s e = some s') : Lawful s'.history ↔ Timely s e := by
  cases e with
  | start =>
      simp only [runMachine] at he
      split at he
      case isFalse => cases he
      case isTrue =>
        rw [← Option.some.inj he]
        exact iff_of_true (lawful_iff.mpr (List.isChain_singleton _)) trivial
  | thread o =>
      obtain ⟨i, rest, ht, rfl, rfl⟩ | ⟨i, rest, ht, rfl, rfl⟩ | ⟨i, rest, ht, rfl, rfl⟩ |
        ⟨v, ht, rfl, rfl⟩ | ⟨ht, rfl, rfl⟩ | ⟨i, rest, ht, rfl, rfl⟩ | ⟨i, rest, ht, rfl, rfl⟩ :=
        threadStep_cases he
      · have hidle : s.thread.block ≠ .idle := by simp [ht, Thread.block]
        cases i with
        | check =>
            simp only [Timely, ht]
            by_cases hevent : s.cancelEvent = true
            · simp only [RunState.perform, hevent, if_true, forall_const]
              exact (h.lawful_set hidle _).trans (h.handler (ht ▸ rfl)).1
            · rw [RunState.perform, if_neg hevent]
              exact iff_of_true h.lawful fun hset => absurd hset hevent
        | acquire =>
            simp only [Timely, ht, iff_true]
            rw [RunState.perform]
            cases acquireSerialLease s.leases runId request.resource with
            | ok leased => exact h.lawful
            | error e => exact (h.lawful_set hidle _).mpr (h.exception (ht ▸ rfl))
        | _ =>
            simp only [Timely, ht, iff_true]
            exact h.lawful
      · exact (h.lawful_set (by simp [ht, Thread.block]) _).trans (h.handler (ht ▸ rfl)).2.1
      · exact iff_of_true ((h.lawful_set (by simp [ht, Thread.block]) _).mpr (h.exception (ht ▸ rfl))) trivial
      · exact (h.lawful_set (by simp [ht, Thread.block]) _).trans ((h.handler (ht ▸ rfl)).2.2 v)
      · simp only [Timely, ht]
        cases hevent : s.cancelEvent with
        | false => simpa using h.lawful
        | true =>
            simp only [if_true, Bool.true_eq_false, iff_false]
            refine fun hlawful => ?_
            have hallowed := (h.lawful_set (by simp [ht, Thread.block]) _).mp hlawful
            have hdecided := h.decided (ht ▸ rfl)
            revert hallowed
            simp only [List.mem_cons, List.not_mem_nil, or_false] at hdecided
            obtain hv | hv | hv := hdecided <;> rw [hv] <;> decide
      · have hsame : (s.performFinish rest i).history = s.history := by cases i <;> rfl
        simp only [Timely, ht, iff_true, hsame]
        exact h.lawful
      · exact iff_of_true h.lawful trivial
  | cancel =>
      simp only [runMachine, Option.some.injEq] at he
      subst he
      refine iff_of_true ?_ trivial
      split <;> exact h.lawful
  | cancelStep k =>
      simp only [runMachine, RunState.cancelStep] at he
      split at he
      case h_2 hk =>
        rw [← Option.some.inj he]
        exact (h.lawful_cancelling hk).trans (by simp [Timely, hk])
      case h_5 => cases he
      all_goals
        rename_i hk
        rw [← Option.some.inj he]
        exact iff_of_true h.lawful (by simp [Timely, hk])
  | cancelRaises k =>
      simp only [runMachine, RunState.cancelRaises] at he
      split at he
      case h_3 => cases he
      all_goals
        rw [← Option.some.inj he]
        exact iff_of_true h.lawful trivial

theorem Ordered.leave (h : Ordered request s) {status : RunStatus} {thread : Thread}
    (hlawful : Lawful (s.leave status thread).history)
    (hthread : thread = .decided ∧ status ∈ [RunStatus.passed, .failed, .inconclusive] ∨
      thread = .finishing finish ∧ status ∈ terminal) :
    Ordered request (s.leave status thread) := by
  refine ⟨hlawful, ?_, fun _ => ⟨s.history, rfl⟩, h.executed, ?_, ?_, ?_⟩
  all_goals obtain ⟨rfl, hstatus⟩ | ⟨rfl, hstatus⟩ := hthread <;> intro hblock
  all_goals first | exact hstatus | cases hblock

/-- What moves on inside a block and leaves the status alone. -/
theorem Ordered.move (h : Ordered request s) {t : RunState} (hblock : t.thread.block = s.thread.block)
    (hstatus : t.status = s.status) (hhistory : t.history = s.history)
    (hmarked : t.Marked ↔ s.Marked)
    (hcancels : s.cancels = [] ∧ s.registered = false → t.cancels = [] ∧ t.registered = false) :
    Ordered request t := by
  refine ⟨hhistory ▸ h.lawful, fun ht => ?_, fun ht => ?_, fun hentry => hcancels (h.executed hentry),
    fun ht => ?_, fun ht => ?_, fun ht => ?_⟩
  · have hidle := h.idle (hblock ▸ ht)
    exact ⟨hhistory ▸ hidle.1, hcancels hidle.2⟩
  · rw [hhistory, hstatus]
    exact h.newest (hblock ▸ ht)
  · rw [hstatus, h.inside (hblock ▸ ht)]
    simp only [hmarked]
  · exact hstatus ▸ h.decided (hblock ▸ ht)
  · exact hstatus ▸ h.finished (hblock ▸ ht)

theorem Ordered.step (h : Ordered request s) {e : Event} (htimely : Timely s e)
    (he : (runMachine request runId).step s e = some s') : Ordered request s' := by
  have hlawful := (h.lawful_step_iff he).mpr htimely
  cases e with
  | start =>
      simp only [runMachine] at he
      split at he
      case isFalse => cases he
      case isTrue ht =>
        rw [← Option.some.inj he] at hlawful ⊢
        have hunmarked : ¬ (RunState.start request).Marked := by
          simp [RunState.Marked, RunState.start]
        refine ⟨hlawful, fun hb => ?_, fun _ => ⟨[], rfl⟩, fun hentry => ⟨rfl, ?_⟩,
          fun _ => (if_neg hunmarked).symm, fun hb => ?_, fun hb => ?_⟩
        · cases hb
        · simp [RunState.start, hentry]
        · cases hb
        · cases hb
  | thread o =>
      obtain ⟨i, rest, ht, rfl, rfl⟩ | ⟨i, rest, ht, rfl, rfl⟩ | ⟨i, rest, ht, rfl, rfl⟩ |
        ⟨v, ht, rfl, rfl⟩ | ⟨ht, rfl, rfl⟩ | ⟨i, rest, ht, rfl, rfl⟩ | ⟨i, rest, ht, rfl, rfl⟩ :=
        threadStep_cases he
      · have hmove {t : RunState} (hblock : t.thread.block = .inside) (hstatus : t.status = s.status)
            (hhistory : t.history = s.history) (hcancels : t.cancels = s.cancels)
            (hregistered : t.registered = s.registered) : Ordered request t :=
          h.move (by rw [hblock, ht]; rfl) hstatus hhistory (by rw [RunState.Marked, hcancels]; rfl)
            (by rw [hcancels, hregistered]; exact id)
        cases i with
        | check =>
            by_cases hevent : s.cancelEvent = true
            · rw [RunState.perform, if_pos hevent] at hlawful ⊢
              exact h.leave hlawful (.inr ⟨rfl, by decide⟩)
            · rw [RunState.perform, if_neg hevent]
              exact hmove rfl rfl rfl rfl rfl
        | acquire =>
            unfold RunState.perform at hlawful ⊢
            cases hlease : acquireSerialLease s.leases runId request.resource with
            | ok leased =>
                exact hmove rfl rfl rfl rfl rfl
            | error conflict =>
                simp only [hlease] at hlawful ⊢
                exact h.leave hlawful (.inr ⟨rfl, by cases request.entry <;> decide⟩)
        | _ => exact hmove rfl rfl rfl rfl rfl
      · exact h.leave hlawful (.inr ⟨rfl, by decide⟩)
      · exact h.leave hlawful (.inr ⟨rfl, by cases request.entry <;> decide⟩)
      · refine h.leave hlawful ?_
        split
        · exact .inl ⟨rfl, by cases v <;> decide⟩
        · exact .inr ⟨rfl, by cases v <;> decide⟩
      · simp only [Timely, ht] at htimely
        simp only [htimely, Bool.false_eq_true, if_false]
        refine ⟨h.lawful, fun hb => ?_, fun _ => h.newest (by simp [ht, Thread.block]), h.executed,
          fun hb => ?_, fun hb => ?_, fun _ => ?_⟩
        · cases hb
        · cases hb
        · cases hb
        · have hdecided := h.decided (ht ▸ rfl)
          simp only [List.mem_cons, List.not_mem_nil, or_false] at hdecided
          change s.status ∈ terminal
          obtain hv | hv | hv := hdecided <;> rw [hv] <;> decide
      · cases i with
        | unregister => exact h.move (ht ▸ rfl) rfl rfl Iff.rfl fun hc => ⟨hc.1, rfl⟩
        | _ => exact h.move (ht ▸ rfl) rfl rfl Iff.rfl id
      · exact h.move (ht ▸ rfl) rfl rfl Iff.rfl id
  | cancel =>
      simp only [runMachine, Option.some.injEq] at he
      subst he
      cases hregistered : s.registered with
      | false => simpa [hregistered] using h
      | true =>
          rw [if_pos rfl]
          refine h.move rfl rfl rfl ?_ fun hc => ?_
          · simp [RunState.Marked]
          · rw [hregistered] at hc
            cases hc.2
  | cancelStep k =>
      have hsome {c : CancelCall} (hk : s.cancels[k]? = some c) : ¬ (s.cancels = [] ∧ s.registered = false) := by
        rintro ⟨hc, -⟩
        simp [hc] at hk
      simp only [runMachine, RunState.cancelStep] at he
      split at he
      case h_1 hk =>
        rw [← Option.some.inj he]
        exact h.move rfl rfl rfl (exists_mem_set_iff hk (by simp)) fun hc => absurd hc (hsome hk)
      case h_2 hk =>
        obtain ⟨rest, ht⟩ := htimely hk
        rw [← Option.some.inj he] at hlawful ⊢
        have hmarked : RunState.Marked { s.setStatus .cancelling with cancels := s.cancels.set k .marked } :=
          ⟨.marked, List.mem_set (List.getElem?_eq_some_iff.mp hk).1 _, by decide⟩
        have hb : (s.setStatus .cancelling).thread.block = .inside := congrArg Thread.block ht
        refine ⟨hlawful, fun hb' => ?_, fun _ => ⟨s.history, rfl⟩, fun hentry => ?_,
          fun _ => (if_pos hmarked).symm, fun hb' => ?_, fun hb' => ?_⟩
        · cases hb.symm.trans hb'
        · exact absurd (h.executed hentry) (hsome hk)
        · cases hb.symm.trans hb'
        · cases hb.symm.trans hb'
      case h_3 hk =>
        rw [← Option.some.inj he]
        exact h.move rfl rfl rfl (exists_mem_set_iff hk (by simp)) fun hc => absurd hc (hsome hk)
      case h_4 row hk =>
        rw [← Option.some.inj he]
        exact h.move rfl rfl rfl (exists_mem_set_iff hk (by simp)) fun hc => absurd hc (hsome hk)
      case h_5 => cases he
  | cancelRaises k =>
      have hsome {c : CancelCall} (hk : s.cancels[k]? = some c) : ¬ (s.cancels = [] ∧ s.registered = false) := by
        rintro ⟨hc, -⟩
        simp [hc] at hk
      simp only [runMachine, RunState.cancelRaises] at he
      split at he
      case h_1 hk =>
        rw [← Option.some.inj he]
        exact h.move rfl rfl rfl (exists_mem_set_iff hk (by simp)) fun hc => absurd hc (hsome hk)
      case h_2 row hk =>
        rw [← Option.some.inj he]
        exact h.move rfl rfl rfl (exists_mem_set_iff hk (by simp)) fun hc => absurd hc (hsome hk)
      case h_3 => cases he

end Ordered

/-! ## The rows of the store -/

/-- The step does not fall into the store update of another thread, and the update of a call of
`cancel` does not fail. -/
def Uninterrupted (s : RunState) : Event → Prop
  | .thread _ => ¬ s.Updating
  | .cancelStep k => s.cancels[k]? = some .flagged → s.row = none ∧ ¬ s.Updating
  | .cancelRaises _ => False
  | _ => True

/-- The rows follow the status: what is about to be written is the status, and it may follow the
last row. -/
structure Recorded (s : RunState) : Prop where
  lawful : Lawful s.stored
  row : ∀ v, s.row = some v → v = s.status
  read : ∀ v, .read v ∈ s.cancels → v = s.status
  updating : s.Updating → s.thread.block = .inside
  last : s.thread.block ≠ .idle → ∃ last older, s.stored = last :: older ∧
    s.status ∈ runTransitions last ∧ (s.thread.block = .inside → ¬ s.Updating → last = s.status)

section Recorded
variable {request : RunRequest} {runId : String} {s s' : RunState}

theorem Recorded.leave (h : Recorded s) (hupdating : ¬ s.Updating) (hblock : s.thread.block = .inside)
    {status : RunStatus} {thread : Thread} (hallowed : status ∈ runTransitions s.status)
    (hthread : thread.block ≠ .inside) : Recorded (s.leave status thread) := by
  obtain ⟨last, older, hstored, -, hlast⟩ := h.last (by simp [hblock])
  refine ⟨h.lawful, fun v hv => ?_, fun v hv => ?_, fun hu => ?_, fun _ => ?_⟩
  · cases hv
  · exact absurd ⟨_, hv, .inr ⟨v, rfl⟩⟩ hupdating
  · exact absurd hu hupdating
  · refine ⟨last, older, hstored, ?_, fun hb => absurd hb hthread⟩
    rw [hlast hblock hupdating]
    exact hallowed

/-- What leaves the rows, the status and the pending updates alone. -/
theorem Recorded.move (h : Recorded s) {t : RunState} (hblock : t.thread.block = s.thread.block)
    (hstatus : t.status = s.status) (hstored : t.stored = s.stored)
    (hrow : t.row = none ∨ t.row = s.row ∨ t.row = some s.status)
    (hread : ∀ v, .read v ∈ t.cancels → v = s.status)
    (hupdating : t.Updating ↔ s.Updating) : Recorded t := by
  refine ⟨hstored ▸ h.lawful, fun v hv => ?_, hstatus ▸ hread, ?_, ?_⟩
  · rw [hstatus]
    obtain hrow | hrow | hrow := hrow
    · cases hrow.symm.trans hv
    · exact h.row v (hrow ▸ hv)
    · exact (Option.some.inj (hrow.symm.trans hv)).symm
  · rw [hupdating, hblock]
    exact h.updating
  · rw [hblock, hstored, hstatus, hupdating]
    exact h.last

/-- A row is written. -/
theorem Recorded.write (h : Recorded s) (hb : s.thread.block ≠ .idle) {t : RunState}
    (hblock : t.thread.block = s.thread.block) (hstatus : t.status = s.status)
    (hstored : t.stored = s.status :: s.stored) (hrow : t.row = none ∨ t.row = s.row)
    (hread : ∀ v, .read v ∈ t.cancels → .read v ∈ s.cancels)
    (hupdating : t.Updating → s.Updating) : Recorded t := by
  obtain ⟨last, older, hold, hallowed, -⟩ := h.last hb
  refine ⟨?_, fun v hv => ?_, fun v hv => hstatus ▸ h.read v (hread v hv), ?_, fun _ => ?_⟩
  · rw [hstored, hold, lawful_cons, ← hold]
    exact ⟨hallowed, h.lawful⟩
  · rw [hstatus]
    obtain hrow | hrow := hrow
    · cases hrow.symm.trans hv
    · exact h.row v (hrow ▸ hv)
  · rw [hblock]
    exact fun hu => h.updating (hupdating hu)
  · exact ⟨_, _, hstored, hstatus ▸ runTransitions_refl _, fun _ _ => hstatus.symm⟩

theorem Recorded.writeRow (h : Recorded s) {thread : Thread} (hb : s.thread.block ≠ .idle)
    (hblock : thread.block = s.thread.block) : Recorded (s.writeRow thread) := by
  cases hrow : s.row with
  | none =>
      exact h.move hblock rfl (by rw [RunState.writeRow, hrow]; rfl) (.inl rfl) h.read Iff.rfl
  | some v =>
      refine h.write hb hblock rfl ?_ (.inl rfl) (fun _ hv => hv) id
      rw [RunState.writeRow, hrow, h.row v hrow]
      rfl

theorem Recorded.start (request : RunRequest) : Recorded (.start request) := by
  have hidle : ¬ (RunState.start request).Updating := by simp [RunState.Updating, RunState.start]
  refine ⟨lawful_iff.mpr (List.isChain_singleton _), fun v hv => ?_, fun v hv => ?_,
    fun hu => absurd hu hidle, fun _ => ⟨.running, [], rfl, runTransitions_refl _, fun _ _ => rfl⟩⟩
  · cases hv
  · cases hv

theorem Recorded.perform (h : Recorded s) (hordered : Ordered request s) (hwhole : ¬ s.Updating)
    {i : Instr} {rest : List Instr} (ht : s.thread = .steps (i :: rest))
    (hlawful : Lawful (s.perform request runId rest i).history) :
    Recorded (s.perform request runId rest i) := by
  have hb : s.thread.block = .inside := ht ▸ rfl
  have hidle : s.thread.block ≠ .idle := by simp [hb]
  cases i with
  | check =>
      by_cases hevent : s.cancelEvent = true
      · rw [RunState.perform, if_pos hevent] at hlawful ⊢
        exact h.leave hwhole hb ((hordered.lawful_set hidle _).mp hlawful) (by decide)
      · rw [RunState.perform, if_neg hevent]
        exact h.move hb.symm rfl rfl (.inr (.inl rfl)) h.read Iff.rfl
  | acquire =>
      unfold RunState.perform at hlawful ⊢
      cases hlease : acquireSerialLease s.leases runId request.resource with
      | ok leased => exact h.move hb.symm rfl rfl (.inr (.inl rfl)) h.read Iff.rfl
      | error conflict =>
          simp only [hlease] at hlawful ⊢
          exact h.leave hwhole hb ((hordered.lawful_set hidle _).mp hlawful) (by decide)
  | readRow => exact h.move hb.symm rfl rfl (.inr (.inr rfl)) h.read Iff.rfl
  | writeRow => exact h.writeRow hidle hb.symm
  | _ => exact h.move hb.symm rfl rfl (.inr (.inl rfl)) h.read Iff.rfl

theorem Recorded.thread (h : Recorded s) (hordered : Ordered request s) {o : Outcome}
    (htimely : Timely s (.thread o)) (hwhole : ¬ s.Updating)
    (he : s.threadStep request runId o = some s') (hlawful : Lawful s'.history) : Recorded s' := by
  obtain ⟨i, rest, ht, rfl, rfl⟩ | ⟨i, rest, ht, rfl, rfl⟩ | ⟨i, rest, ht, rfl, rfl⟩ |
    ⟨v, ht, rfl, rfl⟩ | ⟨ht, rfl, rfl⟩ | ⟨i, rest, ht, rfl, rfl⟩ | ⟨i, rest, ht, rfl, rfl⟩ :=
    threadStep_cases he
  · exact h.perform hordered hwhole ht hlawful
  · have hallowed := (hordered.lawful_set (by simp [ht, Thread.block]) _).mp hlawful
    exact h.leave hwhole (ht ▸ rfl) hallowed (by decide)
  · have hallowed := (hordered.lawful_set (by simp [ht, Thread.block]) _).mp hlawful
    exact h.leave hwhole (ht ▸ rfl) hallowed (by decide)
  · have hallowed := (hordered.lawful_set (by simp [ht, Thread.block]) _).mp hlawful
    exact h.leave hwhole (ht ▸ rfl) hallowed (by split <;> decide)
  · simp only [Timely, ht] at htimely
    simp only [htimely, Bool.false_eq_true, if_false]
    obtain ⟨last, older, hstored, hallowed, -⟩ := h.last (by simp [ht, Thread.block])
    refine ⟨h.lawful, h.row, h.read, fun hu => absurd hu hwhole, fun _ => ?_⟩
    exact ⟨last, older, hstored, hallowed, fun hb => by cases hb⟩
  · have hb : s.thread.block = .finishing := ht ▸ rfl
    cases i with
    | readRow => exact h.move hb.symm rfl rfl (.inr (.inr rfl)) h.read Iff.rfl
    | writeRow => exact h.writeRow (by simp [hb]) hb.symm
    | _ => exact h.move hb.symm rfl rfl (.inr (.inl rfl)) h.read Iff.rfl
  · exact h.move (ht ▸ rfl) rfl rfl (.inl rfl) h.read Iff.rfl

theorem Recorded.cancelStep (h : Recorded s) (hordered : Ordered request s) {k : ℕ}
    (htimely : Timely s (.cancelStep k)) (hwhole : Uninterrupted s (.cancelStep k))
    (he : s.cancelStep k = some s') (hlawful : Lawful s'.history) : Recorded s' := by
  have hread {c : CancelCall} (hc : ∀ v, c ≠ .read v) (v : RunStatus)
      (hv : .read v ∈ s.cancels.set k c) : .read v ∈ s.cancels := by
    obtain hv | rfl := List.mem_or_eq_of_mem_set hv
    · exact hv
    · exact absurd rfl (hc v)
  unfold RunState.cancelStep at he
  split at he
  case h_1 hk =>
    rw [← Option.some.inj he]
    exact h.move rfl rfl rfl (.inr (.inl rfl)) (fun v hv => h.read v (hread (by simp) v hv))
      (exists_mem_set_iff hk (by simp))
  case h_2 hk =>
    obtain ⟨rest, ht⟩ := htimely hk
    obtain ⟨hrow, hupdating⟩ := hwhole hk
    rw [← Option.some.inj he] at hlawful ⊢
    have hb : s.thread.block = .inside := ht ▸ rfl
    have hallowed := (hordered.lawful_set (by simp [hb]) _).mp hlawful
    obtain ⟨last, older, hstored, -, hlast⟩ := h.last (by simp [hb])
    refine ⟨h.lawful, fun v hv => ?_, fun v hv => ?_, fun _ => hb, fun _ => ?_⟩
    · cases hrow.symm.trans hv
    · exact absurd ⟨_, hread (by simp) v hv, .inr ⟨v, rfl⟩⟩ hupdating
    · refine ⟨last, older, hstored, ?_, fun _ hnone => absurd ?_ hnone⟩
      · rw [hlast hb hupdating]
        exact hallowed
      · exact ⟨.marked, List.mem_set (List.getElem?_eq_some_iff.mp hk).1 _, .inl rfl⟩
  case h_3 hk =>
    rw [← Option.some.inj he]
    refine h.move rfl rfl rfl (.inr (.inl rfl)) (fun v hv => ?_) (exists_mem_set_iff hk (by simp))
    obtain hv | hv := List.mem_or_eq_of_mem_set hv
    · exact h.read v hv
    · exact CancelCall.read.inj hv
  case h_4 row hk =>
    rw [← Option.some.inj he]
    have hmem : .read row ∈ s.cancels := List.mem_of_getElem? hk
    have hb := h.updating ⟨_, hmem, .inr ⟨row, rfl⟩⟩
    refine h.write (by simp [hb]) rfl rfl ?_ (.inr rfl) (hread (by simp)) ?_
    · rw [h.read row hmem]
    · exact fun _ => ⟨_, hmem, .inr ⟨row, rfl⟩⟩
  case h_5 => cases he

theorem Recorded.step (h : Recorded s) (hordered : Ordered request s) {e : Event}
    (htimely : Timely s e) (hwhole : Uninterrupted s e)
    (he : (runMachine request runId).step s e = some s') : Recorded s' := by
  have hlawful := (hordered.lawful_step_iff he).mpr htimely
  cases e with
  | start =>
      simp only [runMachine] at he
      split at he
      case isFalse => cases he
      case isTrue => exact Option.some.inj he ▸ Recorded.start request
  | thread o => exact h.thread hordered htimely hwhole he hlawful
  | cancel =>
      simp only [runMachine, Option.some.injEq] at he
      subst he
      split
      · exact h.move rfl rfl rfl (.inr (.inl rfl)) (fun v hv => h.read v (by simpa using hv))
          (by simp [RunState.Updating])
      · exact h
  | cancelStep k => exact h.cancelStep hordered htimely hwhole he hlawful
  | cancelRaises k => exact hwhole.elim

end Recorded

/-! ## Whole runs -/

section Runs
variable {request : RunRequest} {runId : String}

theorem Ordered.unsubmitted : Ordered request {} := by
  refine ⟨lawful_iff.mpr List.isChain_nil, fun _ => ⟨rfl, rfl, rfl⟩, fun hb => absurd rfl hb,
    fun _ => ⟨rfl, rfl⟩, fun hb => ?_, fun hb => ?_, fun hb => ?_⟩
  all_goals cases hb

theorem Recorded.unsubmitted : Recorded {} := by
  have hidle : ¬ RunState.Updating {} := by simp [RunState.Updating]
  refine ⟨lawful_iff.mpr List.isChain_nil, fun v hv => ?_, fun v hv => ?_, fun hu => absurd hu hidle,
    fun hb => absurd rfl hb⟩
  · cases hv
  · cases hv

/-- Apart from the start a step adds at most one status. -/
theorem history_step {s s' : RunState} {e : Event} (he : (runMachine request runId).step s e = some s') :
    e = .start ∧ s.thread = .idle ∨ s'.history = s.history ∨ ∃ status, s'.history = status :: s.history := by
  cases e with
  | start =>
      simp only [runMachine] at he
      split at he
      case isFalse => cases he
      case isTrue ht => exact .inl ⟨rfl, ht⟩
  | thread o =>
      refine .inr ?_
      obtain ⟨i, rest, -, -, rfl⟩ | ⟨i, rest, -, -, rfl⟩ | ⟨i, rest, -, -, rfl⟩ | ⟨v, -, -, rfl⟩ |
        ⟨-, -, rfl⟩ | ⟨i, rest, -, -, rfl⟩ | ⟨i, rest, -, -, rfl⟩ := threadStep_cases he
      · cases i with
        | check =>
            unfold RunState.perform
            cases s.cancelEvent with
            | false => exact .inl rfl
            | true => exact .inr ⟨_, rfl⟩
        | acquire =>
            unfold RunState.perform
            cases acquireSerialLease s.leases runId request.resource with
            | ok leased => exact .inl rfl
            | error conflict => exact .inr ⟨_, rfl⟩
        | _ => exact .inl rfl
      · exact .inr ⟨_, rfl⟩
      · exact .inr ⟨_, rfl⟩
      · exact .inr ⟨_, rfl⟩
      · cases s.cancelEvent with
        | false => exact .inl rfl
        | true => exact .inr ⟨_, rfl⟩
      · cases i <;> exact .inl rfl
      · exact .inl rfl
  | cancel =>
      simp only [runMachine, Option.some.injEq] at he
      subst he
      split <;> exact .inr (.inl rfl)
  | cancelStep k =>
      refine .inr ?_
      simp only [runMachine, RunState.cancelStep] at he
      split at he
      case h_2 =>
        rw [← Option.some.inj he]
        exact .inr ⟨_, rfl⟩
      case h_5 => cases he
      all_goals
        rw [← Option.some.inj he]
        exact .inl rfl
  | cancelRaises k =>
      simp only [runMachine, RunState.cancelRaises] at he
      split at he
      case h_3 => cases he
      all_goals
        rw [← Option.some.inj he]
        exact .inr (.inl rfl)

/-- A run that is not submitted has no history and cannot be cancelled. -/
def Blank (s : RunState) : Prop :=
  s.thread = .idle → s.history = [] ∧ s.cancels = [] ∧ s.registered = false

theorem threadStep_not_idle {s s' : RunState} {o : Outcome}
    (he : s.threadStep request runId o = some s') : s'.thread ≠ .idle := by
  obtain ⟨i, rest, -, -, rfl⟩ | ⟨i, rest, -, -, rfl⟩ | ⟨i, rest, -, -, rfl⟩ | ⟨v, -, -, rfl⟩ |
    ⟨-, -, rfl⟩ | ⟨i, rest, -, -, rfl⟩ | ⟨i, rest, -, -, rfl⟩ := threadStep_cases he
  · cases i with
    | check =>
        unfold RunState.perform
        cases s.cancelEvent <;> simp [RunState.leave]
    | acquire =>
        unfold RunState.perform
        cases acquireSerialLease s.leases runId request.resource <;> simp [RunState.leave]
    | _ => simp [RunState.perform, RunState.writeRow]
  · simp [RunState.leave]
  · simp [RunState.leave]
  · unfold RunState.leave
    split <;> simp
  · simp
  · cases i <;> simp [RunState.performFinish, RunState.writeRow]
  · simp

theorem blank_step {s s' : RunState} {e : Event} (he : (runMachine request runId).step s e = some s')
    (h : Blank s) : Blank s' := by
  intro hidle
  cases e with
  | start =>
      simp only [runMachine] at he
      split at he
      case isFalse => cases he
      case isTrue =>
        rw [← Option.some.inj he] at hidle
        cases hidle
  | thread o => exact absurd hidle (threadStep_not_idle he)
  | cancel =>
      simp only [runMachine, Option.some.injEq] at he
      subst he
      cases hregistered : s.registered with
      | false =>
          rw [if_neg (by simp [hregistered])] at hidle ⊢
          exact h hidle
      | true =>
          simp only [hregistered, if_true] at hidle
          cases hregistered.symm.trans (h hidle).2.2
  | cancelStep k =>
      simp only [runMachine, RunState.cancelStep] at he
      split at he
      case h_5 => cases he
      all_goals
        rename_i hk
        rw [← Option.some.inj he] at hidle
        simp [(h hidle).2.1] at hk
  | cancelRaises k =>
      simp only [runMachine, RunState.cancelRaises] at he
      split at he
      case h_3 => cases he
      all_goals
        rename_i hk
        rw [← Option.some.inj he] at hidle
        simp [(h hidle).2.1] at hk

theorem lawful_back {s s' : RunState} {e : Event} (h : Blank s)
    (he : (runMachine request runId).step s e = some s') (hlawful : Lawful s'.history) :
    Lawful s.history := by
  obtain ⟨rfl, ht⟩ | hsame | ⟨status, hmore⟩ := history_step he
  · rw [(h ht).1]
    exact lawful_iff.mpr List.isChain_nil
  · exact hsame ▸ hlawful
  · rw [hmore, lawful_iff] at hlawful
    exact lawful_iff.mpr (List.IsChain.tail hlawful)

/-- The statuses of a run follow the table, and a terminal one stays, exactly when every step of the
run comes in time; the rows of the store do so too where no step interrupts an update. -/
theorem statuses_lawful_iff (request : RunRequest) (runId : String) (events : List Event)
    (s : RunState) (h : (runMachine request runId).run {} events = some s) :
    (Lawful s.history ↔ (runMachine request runId).Follows Timely {} events) ∧
    ((runMachine request runId).Follows (fun s e => Timely s e ∧ Uninterrupted s e) {} events →
      Lawful s.stored) := by
  constructor
  · exact Machine.run_iff_follows Blank (Ordered request)
      (P := fun s => Lawful s.history) (fun s e s' he hs => blank_step he hs)
      (fun s e s' hs he => lawful_back hs he) (fun s hs => hs.lawful)
      (fun s e s' hs he => hs.lawful_step_iff he) (fun s e s' hs htimely he => hs.step htimely he)
      Ordered.unsubmitted (fun _ => ⟨rfl, rfl, rfl⟩) h
  · intro hfollows
    have hinv := Machine.run_invariant (fun s => Ordered request s ∧ Recorded s)
      (fun s e s' hs hg he => ⟨hs.1.step hg.1 he, hs.2.step hs.1 hg.1 hg.2 he⟩)
      ⟨Ordered.unsubmitted, Recorded.unsubmitted⟩ hfollows h
    exact hinv.2.lawful

end Runs

/-- A call of `cancel` that comes while the verdict is being settled. -/
def lateCancel : List Event :=
  .start :: List.replicate (runSteps {}).length (.thread .ok) ++
    [.thread (.verdict .pass), .cancel, .cancelStep 0, .cancelStep 0]

/-- It takes the run out of its terminal status. -/
theorem late_cancel_reopens :
    ¬ ∀ (request : RunRequest) (runId : String) (events : List Event) (s : RunState),
      (runMachine request runId).run {} events = some s → Lawful s.history := by
  intro hclaim
  have hhistory : ((runMachine {} "run-1").run {} lateCancel).map (·.history) =
      some [.cancelling, .passed, .running] := by rfl
  obtain ⟨s, hs, hhist⟩ := Option.map_eq_some_iff.mp hhistory
  have hlawful := lawful_iff.mp (hclaim _ _ _ s hs)
  rw [hhist] at hlawful
  revert hlawful
  decide

/-- A call of `cancel` that has set the status before the thread looks at the event. -/
def timelyCancel : List Event :=
  [.start, .thread .ok, .cancel, .cancelStep 0, .cancelStep 0, .cancelStep 0, .cancelStep 0,
    .thread .ok, .thread .ok, .thread .ok]

theorem timelyCancel_follows : (runMachine {} "run-1").Follows Timely {} timelyCancel :=
  (statuses_lawful_iff {} "run-1" timelyCancel _ rfl).1.mp (lawful_iff.mpr (by decide))

end HplcWorkbench.Orchestration
