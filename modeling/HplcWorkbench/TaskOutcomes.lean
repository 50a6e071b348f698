import HplcWorkbench.TaskResults
import HplcWorkbench.ReplyExchange

/-!
# What every run of a task keeps

No frame of the line is lost or examined twice, every reply has its cause, every result its grounds, and
the verdict follows from the results. A task ends even on a silent line. On an open line a report that a
step takes is confirmed twice. With the expectation of the table a refusal counts only where a
confirmation is expected.
-/

namespace HplcWorkbench.VerifyTask

open Adapter10376 Transitions
open AutoReply (Responder Clock)
open Batch (denyInfo)

/-! ## Every run -/

section Runs
variable {store : MetadataStore} {auto : Option Responder} {task : Task} {early past : List Bytes}
  {s : Session} {step : Step} {wait : Wait} {r : StepResult}

/-- A step that waits for any frame. -/
def listenStep : Step where
  name := "listen"
  send := []
  recvOnly := true
  expectHistory := false
  expectNoReply := false
  expect := none
  responders := []

def listenTask : Task where
  steps := [listenStep]
  responders := []
  enableResponder := true
  failFast := true
  profile := []

/-- The report comes in and the step takes it. -/
def listenEvents : List Event :=
  [.arrive AutoReply.reportFrame, .forward ⟨0, 0, 0, 0, 0, 0⟩, .begin true, .poll ⟨0, 0, 0, 0, 0, 0⟩]

theorem listen_run : ∃ s r, (session (fun _ _ => none) (some AutoReply.resident) listenTask).run
      (startSession listenTask [] []) listenEvents = some s ∧ s.phase = .done ∧
    s.results[0]? = some r := ⟨_, _, rfl, rfl, rfl⟩

theorem received_eq {events : List Event}
    (h : (session store auto task).run (startSession task early past) events = some s) :
    s.received = early ++ arrivals events := received_run h

/-- Every frame that came in is on its way to the queue, in the queue, or was examined by exactly one
step, in the order in which the frames came. -/
theorem frames_conserved {events : List Event}
    (h : (session store auto task).run (startSession task early past) events = some s)
    (hphase : s.phase ≠ .raised) :
    early ++ arrivals events =
      s.all.flatMap StepResult.examined ++ s.queue ++ s.pending.toList := by
  have hledger := ledger_run h
  rw [← received_eq h, hledger.conserved.received, (hledger.books hphase).consumed]

theorem frames_conserved_listen : ∃ s, (session (fun _ _ => none) (some AutoReply.resident)
      listenTask).run (startSession listenTask [] []) listenEvents = some s ∧
    [] ++ arrivals listenEvents =
      s.all.flatMap StepResult.examined ++ s.queue ++ s.pending.toList := by
  obtain ⟨s, -, hrun, hphase, -⟩ := listen_run
  exact ⟨s, hrun, frames_conserved hrun (by rw [hphase]; exact Phase.noConfusion)⟩

/-- Every frame that the session sent is the frame of a step, the reply of the line to a frame it put
into the queue or the reply of the responder of a step to a frame the step took. -/
theorem answers_attributed {events : List Event}
    (h : (session store auto task).run (startSession task early past) events = some s)
    (hphase : s.phase ≠ .raised) :
    framesOf .step s.sent = s.all.filterMap StepResult.sent ∧
      framesOf .line s.sent = s.forwarded.filterMap (fun t => replyOf store (auto, t)) ∧
      early ++ s.forwarded.map Prod.snd ++ s.pending.toList = early ++ arrivals events ∧
      framesOf .reply s.sent = s.taken.filterMap (replyOf store) ∧
      s.taken.map (fun t => (t.1, t.2.2)) = s.all.flatMap (StepResult.attributed task) := by
  have hledger := ledger_run h
  have hbooks := hledger.books hphase
  refine ⟨hbooks.stepSent, hledger.conserved.lineSent, ?_, hledger.conserved.replySent, hbooks.taken⟩
  rw [hledger.conserved.forwarded, ← hledger.conserved.received, received_eq h]

theorem answers_attributed_listen : ∃ s, (session (fun _ _ => none) (some AutoReply.resident)
      listenTask).run (startSession listenTask [] []) listenEvents = some s ∧
    framesOf .step s.sent = s.all.filterMap StepResult.sent ∧
      framesOf .line s.sent =
        s.forwarded.filterMap (fun t => replyOf (fun _ _ => none) (some AutoReply.resident, t)) ∧
      [] ++ s.forwarded.map Prod.snd ++ s.pending.toList = [] ++ arrivals listenEvents ∧
      framesOf .reply s.sent = s.taken.filterMap (replyOf fun _ _ => none) ∧
      s.taken.map (fun t => (t.1, t.2.2)) = s.all.flatMap (StepResult.attributed listenTask) := by
  obtain ⟨s, -, hrun, hphase, -⟩ := listen_run
  exact ⟨s, hrun, answers_attributed hrun (by rw [hphase]; exact Phase.noConfusion)⟩

/-- A result stands for what happened: the frames it names came in, the deciding one answers the
expectation of its step or refuses it, and the ones left aside decide nothing. -/
theorem results_settled {events : List Event} {i : ℕ}
    (h : (session store auto task).run (startSession task early past) events = some s)
    (hr : s.results[i]? = some r) :
    ∃ step, task.steps[i]? = some step ∧ r.index = i ∧
      Settled store (past ++ (early ++ arrivals events)) step r := by
  rw [← received_eq h]
  exact (ledger_run h).settled i r hr

theorem results_settled_listen : ∃ s r, (session (fun _ _ => none) (some AutoReply.resident)
      listenTask).run (startSession listenTask [] []) listenEvents = some s ∧
    s.results[0]? = some r ∧ ∃ step, listenTask.steps[0]? = some step ∧ r.index = 0 ∧
      Settled (fun _ _ => none) ([] ++ ([] ++ arrivals listenEvents)) step r := by
  obtain ⟨s, r, hrun, -, hr⟩ := listen_run
  exact ⟨s, r, hrun, hr, results_settled hrun hr⟩

/-- The verdict of a task that is over: it passes when each of its steps did, and only a task that stops
at the first failure leaves steps out. -/
theorem verdict_sound {events : List Event}
    (h : (session store auto task).run (startSession task early past) events = some s)
    (hphase : s.phase = .done) :
    (verdict s.results = true ↔ task.steps ≠ [] ∧ s.results.length = task.steps.length ∧
        ∀ r ∈ s.results, r.reason.passes = true) ∧
      (s.results.length < task.steps.length → task.failFast = true) ∧
      (task.failFast = true → ∀ r ∈ s.results.dropLast, r.reason.passes = true) := by
  have hledger := ledger_run h
  have hbooks := hledger.books (by rw [hphase]; exact Phase.noConfusion)
  have hall : s.all = s.results := by
    rw [Session.all, Session.current, hphase]
    exact List.append_nil _
  rw [hall] at hbooks
  have hpassed : ∀ r ∈ s.results, r.passed = r.reason.passes := by
    intro r hr
    obtain ⟨i, hi⟩ := List.mem_iff_getElem?.mp hr
    obtain ⟨step, -, -, hsettled⟩ := hledger.settled i r hi
    exact hsettled.passed
  have htodo : s.todo = [] ↔ s.results.length = task.steps.length := by
    rw [hbooks.todo, List.drop_eq_nil_iff]
    exact ⟨fun hle => le_antisymm hbooks.within hle, fun heq => heq.ge⟩
  have hverdict : verdict s.results = true ↔
      (∀ r ∈ s.results, r.passed = true) ∧ s.results ≠ [] := by
    rw [verdict, Bool.and_eq_true, decide_eq_true_eq, List.length_eq_zero_iff, List.filter_eq_nil_iff]
    simp
  refine ⟨?_, ?_, ?_⟩
  · rw [hverdict]
    constructor
    · rintro ⟨hpass, hsome⟩
      have hlength : s.results.length = task.steps.length := by
        rcases hledger.paced.ended hphase with hnil | ⟨-, r, hr, hfailed⟩
        · exact htodo.mp hnil
        · rw [hpass r hr] at hfailed
          cases hfailed
      refine ⟨?_, hlength, fun r hr => (hpassed r hr).symm.trans (hpass r hr)⟩
      rintro hsteps
      rw [hsteps] at hlength
      exact hsome (List.length_eq_zero_iff.mp hlength)
    · rintro ⟨hsteps, hlength, hpass⟩
      refine ⟨fun r hr => (hpassed r hr).trans (hpass r hr), ?_⟩
      rintro hnil
      rw [hnil] at hlength
      exact hsteps (List.length_eq_zero_iff.mp hlength.symm)
  · intro hless
    rcases hledger.paced.ended hphase with hnil | ⟨hfail, -⟩
    · exact absurd (htodo.mp hnil) hless.ne
    · exact hfail
  · intro hfail r hr
    rw [← hpassed r (List.mem_of_mem_dropLast hr)]
    exact hledger.paced.before hfail r hr

theorem verdict_sound_listen : ∃ s, (session (fun _ _ => none) (some AutoReply.resident)
      listenTask).run (startSession listenTask [] []) listenEvents = some s ∧
    (verdict s.results = true ↔ listenTask.steps ≠ [] ∧
        s.results.length = listenTask.steps.length ∧ ∀ r ∈ s.results, r.reason.passes = true) ∧
      (s.results.length < listenTask.steps.length → listenTask.failFast = true) ∧
      (listenTask.failFast = true → ∀ r ∈ s.results.dropLast, r.reason.passes = true) := by
  obtain ⟨s, -, hrun, hphase, -⟩ := listen_run
  exact ⟨s, hrun, verdict_sound hrun hphase⟩

/-! ## Tasks end -/

/-- An event of the task, not of the line. -/
def Event.ofTask : Event → Bool
  | .begin _ => true
  | .poll _ => true
  | .expire => true
  | _ => false

theorem finish_phase (s : Session) (r : StepResult) :
    (s.finish task r).phase = .done ∨ (s.finish task r).phase = .ready := by
  rw [Session.finish]
  by_cases hstop : (¬ r.passed ∧ task.failFast) ∨ s.todo = []
  · exact Or.inl (if_pos hstop)
  · exact Or.inr (if_neg hstop)

theorem todo_begin (s : Session) (step : Step) (sendOk : Bool) :
    (s.beginStep task step sendOk).todo = s.todo := by
  have henter : ∀ t r, (Session.enter task t step r).todo = t.todo := by
    intro t r
    rw [Session.enter]
    cases step.wait <;> rfl
  rw [Session.beginStep]
  cases step.sends with
  | false => exact henter s _
  | true =>
      cases s.build task step with
      | error e => rfl
      | ok raw =>
          cases sendOk with
          | true => exact henter _ _
          | false => rfl

/-- A step that waits has its result after one event of the task. -/
theorem Ledger.ends (h : Ledger store auto task early past s) (hphase : s.phase = .waiting step wait r) :
    ∃ event s', event.ofTask = true ∧ sessionStep store auto task s event = some s' ∧
      s'.todo = s.todo ∧ (s'.phase = .done ∨ s'.phase = .ready) := by
  have hwaits := (h.waiting step wait r hphase).2.waits
  have hexpire : sessionStep store auto task s .expire = s.expireStep task wait r := by
    rw [sessionStep, hphase]
  cases wait with
  | nothing => exact absurd rfl hwaits
  | past want => exact ⟨.expire, _, rfl, hexpire, rfl, finish_phase s _⟩
  | answer want => exact ⟨.expire, _, rfl, hexpire, rfl, finish_phase s _⟩
  | silence =>
      cases hqueue : s.queue with
      | nil => exact ⟨.expire, _, rfl, hexpire.trans (if_pos hqueue), rfl, finish_phase s _⟩
      | cons frame rest =>
          exact ⟨.poll ⟨0, 0, 0, 0, 0, 0⟩, _, rfl,
            step_take hphase (fun _ => Wait.noConfusion) hqueue, rfl, finish_phase _ _⟩
  | anyFrame =>
      cases hqueue : s.queue with
      | nil => exact ⟨.expire, _, rfl, hexpire.trans (if_pos hqueue), rfl, finish_phase s _⟩
      | cons frame rest =>
          exact ⟨.poll ⟨0, 0, 0, 0, 0, 0⟩, _, rfl,
            step_take hphase (fun _ => Wait.noConfusion) hqueue, rfl, finish_phase _ _⟩

/-- What a session does by itself until the task is over. -/
theorem Ledger.ends_all (h : Ledger store auto task early past s) :
    ∃ events s', (∀ event ∈ events, event.ofTask = true) ∧
      (session store auto task).run s events = some s' ∧ (s'.phase = .done ∨ s'.phase = .raised) ∧
      events.length ≤ 2 * s.todo.length + 1 ∧ (s.phase = .ready → events.length ≤ 2 * s.todo.length) := by
  -- the induction is on the steps to do; a step that waits is done first
  induction hn : s.todo.length using Nat.strong_induction_on generalizing s with
  | _ n ih =>
    subst hn
    have hready : ∀ t : Session, Ledger store auto task early past t → t.phase = .ready →
        t.todo = s.todo → ∃ events s', (∀ event ∈ events, event.ofTask = true) ∧
          (session store auto task).run t events = some s' ∧
          (s'.phase = .done ∨ s'.phase = .raised) ∧ events.length ≤ 2 * s.todo.length := by
      intro t ht hphase htodo
      cases hcons : t.todo with
      | nil => exact absurd hcons (ht.paced.ready hphase)
      | cons step rest =>
          have hstep : sessionStep store auto task t (.begin true) = some ({ t with
              todo := rest
              localSeq := if step.needsNumber then t.localSeq + 1 else t.localSeq
              }.beginStep task step true) := by
            have hkept : ∀ p, t.phase = p → t = { t with phase := p } := by
              rintro p rfl
              rfl
            rw [sessionStep, hcons, hkept .ready hphase]
          have hnext := ht.begin hphase hcons
            (if step.needsNumber then t.localSeq + 1 else t.localSeq) true
          have hless : rest.length < s.todo.length := by
            rw [← htodo, hcons, List.length_cons]
            exact Nat.lt_succ_self _
          obtain ⟨events, s', hevents, hrun, hend, hlength, -⟩ :=
            ih rest.length hless hnext (congrArg List.length (todo_begin _ step true))
          refine ⟨.begin true :: events, s', ?_, ?_, hend, ?_⟩
          · rintro event hevent
            rcases List.mem_cons.mp hevent with rfl | hevent
            · rfl
            · exact hevents event hevent
          · exact Option.bind_eq_some_iff.mpr ⟨_, hstep, hrun⟩
          · rw [List.length_cons]
            omega
    cases hphase : s.phase with
    | done => exact ⟨[], s, fun _ hevent => absurd hevent List.not_mem_nil, rfl, Or.inl hphase,
        Nat.zero_le _, fun _ => Nat.zero_le _⟩
    | raised => exact ⟨[], s, fun _ hevent => absurd hevent List.not_mem_nil, rfl, Or.inr hphase,
        Nat.zero_le _, fun _ => Nat.zero_le _⟩
    | ready =>
        obtain ⟨events, s', hevents, hrun, hend, hlength⟩ := hready s h hphase rfl
        exact ⟨events, s', hevents, hrun, hend, hlength.trans (Nat.le_succ _), fun _ => hlength⟩
    | waiting step wait r =>
        obtain ⟨event, t, hevent, hstep, htodo, hafter⟩ := h.ends hphase
        rcases hafter with hdone | hagain
        · refine ⟨[event], t, ?_, ?_, Or.inl hdone, ?_, Phase.noConfusion⟩
          · rintro e he
            obtain rfl := List.mem_singleton.mp he
            exact hevent
          · exact Option.bind_eq_some_iff.mpr ⟨t, hstep, rfl⟩
          · rw [List.length_singleton]
            omega
        · obtain ⟨events, s', hevents, hrun, hend, hlength⟩ :=
            hready t (h.move (move_of_step hstep)) hagain htodo
          refine ⟨event :: events, s', ?_, ?_, hend, ?_, Phase.noConfusion⟩
          · rintro e he
            rcases List.mem_cons.mp he with rfl | he
            · exact hevent
            · exact hevents e he
          · exact Option.bind_eq_some_iff.mpr ⟨_, hstep, hrun⟩
          · rw [List.length_cons]
            omega

end Runs

/-! ## Reports are confirmed twice -/

section Reports
open AutoReply (resident builtin confirmFrame)
variable (store : MetadataStore)

/-- A frame that the rules of an open line confirm. -/
def reports (f : Bytes) : Bool := (resident.answer store ⟨0, 0, 0, 0, 0, 0⟩ f).isSome

variable {store} {task : Task} {early past : List Bytes} {s : Session}

theorem resident_reports (now : Clock) (f : Bytes) :
    resident.answer store now f = if reports store f then some confirmFrame else none := by
  rw [reports, AutoReply.resident_answer_now now ⟨0, 0, 0, 0, 0, 0⟩]
  cases hanswer : resident.answer store ⟨0, 0, 0, 0, 0, 0⟩ f with
  | none => rfl
  | some reply => exact congrArg some (AutoReply.resident_builtin hanswer now).1

theorem builtin_reports (now : Clock) {f : Bytes} (h : reports store f = true) :
    builtin.answer store now f = some confirmFrame := by
  obtain ⟨reply, hreply⟩ := Option.isSome_iff_exists.mp h
  exact (AutoReply.resident_builtin hreply now).2

theorem line_confirms (forwarded : List (Clock × Bytes)) :
    (forwarded.filterMap fun t => replyOf store (some resident, t)) =
      List.replicate ((forwarded.map Prod.snd).countP (reports store)) confirmFrame := by
  induction forwarded with
  | nil => rfl
  | cons t forwarded ih =>
      obtain ⟨now, f⟩ := t
      have hreply : replyOf store (some resident, now, f) =
          if reports store f then some confirmFrame else none := resident_reports now f
      rw [List.filterMap_cons, hreply, List.map_cons, List.countP_cons, ih]
      by_cases hf : reports store f = true
      · rw [if_pos hf, if_pos hf, List.replicate_succ]
      · rw [if_neg hf, if_neg hf, Nat.add_zero]

theorem steps_confirm {taken : List (Option Responder × Clock × Bytes)}
    (h : ∀ t ∈ taken, t.1 = some builtin) :
    (taken.map fun t => t.2.2).countP (reports store) ≤
      (taken.filterMap (replyOf store)).count confirmFrame := by
  induction taken with
  | nil => exact Nat.zero_le _
  | cons t taken ih =>
      obtain ⟨r, now, f⟩ := t
      have hmore := ih fun t ht => h t (List.mem_cons_of_mem _ ht)
      obtain rfl : r = some builtin := h _ List.mem_cons_self
      have hreply : replyOf store (some builtin, now, f) = builtin.answer store now f := rfl
      rw [List.map_cons, List.countP_cons, List.filterMap_cons, hreply]
      by_cases hf : reports store f = true
      · rw [if_pos hf, builtin_reports now hf]
        simp only [List.count_cons_self]
        omega
      · rw [if_neg hf]
        cases builtin.answer store now f with
        | none => exact hmore
        | some reply =>
            refine hmore.trans ?_
            rw [List.count_cons]
            exact Nat.le_add_right _ _

/-- On an open line the line confirms each report once when it puts it into the queue, and a task with
the built-in table confirms each report that its steps take once more. -/
theorem reports_confirmed_twice {events : List Event}
    (h : (session store (some resident) task).run (startSession task early past) events = some s)
    (hphase : s.phase ≠ .raised) (henabled : task.enableResponder = true)
    (htask : task.responders = []) (hsteps : ∀ step ∈ task.steps, step.responders = []) :
    early ++ s.forwarded.map Prod.snd ++ s.pending.toList = early ++ arrivals events ∧
      framesOf .line s.sent =
        List.replicate ((s.forwarded.map Prod.snd).countP (reports store)) confirmFrame ∧
      (s.all.flatMap StepResult.replied).countP (reports store) ≤
        (framesOf .reply s.sent).count confirmFrame := by
  have hledger := ledger_run h
  have hbooks := hledger.books hphase
  have hresponder : ∀ r ∈ s.all, task.responderAt r.index = some builtin := by
    intro r hr
    have hmem : r.index ∈ s.all.map StepResult.index := List.mem_map_of_mem hr
    rw [hbooks.index, List.mem_range] at hmem
    have hlt : r.index < task.steps.length := hmem.trans_le hbooks.within
    rw [Task.responderAt, List.getElem?_eq_getElem hlt, Option.bind_some, Task.responderFor,
      hsteps _ (List.getElem_mem hlt), henabled, htask]
    rfl
  have htaken : ∀ t ∈ s.taken, t.1 = some builtin := by
    intro t ht
    have hmem : (t.1, t.2.2) ∈ s.all.flatMap (StepResult.attributed task) := by
      rw [← hbooks.taken]
      exact List.mem_map_of_mem ht
    obtain ⟨r, hr, hattributed⟩ := List.mem_flatMap.mp hmem
    obtain ⟨f, -, hf⟩ := List.mem_map.mp hattributed
    rw [← congrArg Prod.fst hf]
    exact hresponder r hr
  have hframes : (s.taken.map fun t => t.2.2) = s.all.flatMap StepResult.replied := by
    have hsnd := congrArg (List.map Prod.snd) hbooks.taken
    rw [List.map_map, List.map_flatMap] at hsnd
    refine hsnd.trans (congrArg (fun g => s.all.flatMap g) (funext fun r => ?_))
    rw [StepResult.attributed, List.map_map]
    exact List.map_id _
  refine ⟨?_, ?_, ?_⟩
  · rw [hledger.conserved.forwarded, ← hledger.conserved.received, received_eq h]
  · rw [hledger.conserved.lineSent, line_confirms]
  · rw [← hframes, hledger.conserved.replySent]
    exact steps_confirm htaken

theorem reports_confirmed_twice_listen : ∃ s, (session (fun _ _ => none) (some resident)
      listenTask).run (startSession listenTask [] []) listenEvents = some s ∧
    [] ++ s.forwarded.map Prod.snd ++ s.pending.toList = [] ++ arrivals listenEvents ∧
      framesOf .line s.sent = List.replicate
        ((s.forwarded.map Prod.snd).countP (reports fun _ _ => none)) confirmFrame ∧
      (s.all.flatMap StepResult.replied).countP (reports fun _ _ => none) ≤
        (framesOf .reply s.sent).count confirmFrame := by
  obtain ⟨s, -, hrun, hphase, -⟩ := listen_run
  refine ⟨s, hrun, reports_confirmed_twice hrun (by rw [hphase]; exact Phase.noConfusion) rfl rfl ?_⟩
  intro step hstep
  obtain rfl := List.mem_singleton.mp hstep
  rfl

end Reports

/-! ## Expectations of the table -/

section Defaults
open ExpectRules (Rule defaultExpect)
open Batch (intField upBit)

/-- The verdict on a decoded frame where a rule gives the expectation: a refusal counts where the rule
expects a confirmation, otherwise the frame has to come from the station with the AFN and the Fn. -/
def ruleVerdict (rule : Rule) (afn fn : ℤ) (p : ProtocolFrame) : Verdict :=
  (if rule.form = "confirm_or_deny" then denyInfo p else none).elim
    (if upBit p = 1 ∧ intField p "AFN" = some afn ∧ intField p "FN" = some fn then .matched
      else .bystander)
    Verdict.denied

theorem rules_expect {rule : Rule} (h : rule ∈ ExpectRules.rules) :
    rule.form = "confirm_or_deny" ∧ rule.expectAfn = some 0 ∧ rule.expectFn = some 1 ∨
      rule.form ≠ "confirm_or_deny" ∧ rule.expectAfn.getD rule.afn = rule.afn ∧ rule.afn ≠ 0 := by
  simp only [ExpectRules.rules, List.mem_cons, List.not_mem_nil, or_false] at h
  rcases h with rfl | rfl | rfl | rfl | rfl | rfl | rfl | rfl
  · exact Or.inr (by decide)
  · exact Or.inr (by decide)
  · exact Or.inl ⟨rfl, rfl, rfl⟩
  · exact Or.inr (by decide)
  · exact Or.inl ⟨rfl, rfl, rfl⟩
  · exact Or.inl ⟨rfl, rfl, rfl⟩
  · exact Or.inr (by decide)
  · exact Or.inr (by decide)

/-- The form of an expectation that `default_expect` returns. -/
def ruleExpect (afn fn : ℤ) (form : String) : Params :=
  [("dir", .str "up"), ("afn", .int afn), ("fn", .int fn), ("form", .str form)]

theorem fits_ruleExpect (p : ProtocolFrame) (afn fn : ℤ) (form : String) :
    Matcher.fits p (ruleExpect afn fn form) = .ok (decide
      (upBit p = 1 ∧ intField p "AFN" = some afn ∧ intField p "FN" = some fn)) := by
  have hformat : Matcher.formatFits (ruleExpect afn fn form) = true := rfl
  have hafn : Matcher.afnFits p (ruleExpect afn fn form) =
      .ok (decide (intField p "AFN" = some afn)) := by
    have hget : (ruleExpect afn fn form).get "afn" = .int afn := rfl
    rw [Matcher.afnFits, hget]
    cases intField p "AFN" with
    | none => rfl
    | some n =>
        by_cases h : afn = n
        · subst h
          simp [Matcher.afnEquals, PyVal.isNone, PyVal.eqInt, pure, Except.pure]
        · have hne : n ≠ afn := Ne.symm h
          simp [Matcher.afnEquals, PyVal.isNone, PyVal.eqInt, pure, Except.pure, h, hne]
  have hfn : Matcher.fnFits p (ruleExpect afn fn form) =
      .ok (decide (intField p "FN" = some fn)) := rfl
  have hdir : Matcher.dirFits p (ruleExpect afn fn form) = decide (upBit p = 1) := by
    have hget : (ruleExpect afn fn form).get "dir" = .str "up" := rfl
    rw [Matcher.dirFits, hget]
    by_cases h : upBit p = 1
    · simp [PyVal.isNone, PyVal.eqStr, h]
    · simp [PyVal.isNone, PyVal.eqStr, h]
  have hfields : Matcher.fieldsFit p (ruleExpect afn fn form) = .ok true := rfl
  have hnested : Matcher.nestedFits p (ruleExpect afn fn form) = .ok true := rfl
  rw [Matcher.fits, hformat, hafn, hfn, hdir, hfields, hnested]
  by_cases h1 : intField p "AFN" = some afn
  · by_cases h2 : intField p "FN" = some fn
    · by_cases h3 : upBit p = 1
      · simp [h1, h2, h3, bind, Except.bind]
      · simp [h1, h2, h3, bind, Except.bind, pure, Except.pure]
    · simp [h1, h2, bind, Except.bind, pure, Except.pure]
  · simp [h1, bind, Except.bind, pure, Except.pure]

/-- A refusal is the frame 00H-F2. -/
theorem denyInfo_some {p : ProtocolFrame} {code : ℕ} (h : denyInfo p = some code) :
    intField p "AFN" = some 0 ∧ intField p "FN" = some 2 := by
  rw [denyInfo] at h
  by_cases hafn : intField p "AFN" = some 0
  · by_cases hfn : intField p "FN" = some 2
    · exact ⟨hafn, hfn⟩
    · rw [if_pos (Or.inr hfn)] at h
      cases h
  · rw [if_pos (Or.inl hafn)] at h
    cases h

/-- A frame that refuses nothing where it fits matches, and is left aside where it does not. -/
theorem compared_ruleExpect {store : MetadataStore} {f : Bytes} {p : ProtocolFrame} {afn fn : ℤ}
    {form : String} (hdecode : decode store f = .ok p)
    (hcode : upBit p = 1 ∧ intField p "AFN" = some afn ∧ intField p "FN" = some fn →
      denyInfo p = none) :
    compared store (ruleExpect afn fn form) f = .ok
      (if upBit p = 1 ∧ intField p "AFN" = some afn ∧ intField p "FN" = some fn then .matched
        else .bystander, some p) := by
  rw [compared_ok hdecode, fits_ruleExpect]
  by_cases hp : upBit p = 1 ∧ intField p "AFN" = some afn ∧ intField p "FN" = some fn
  · simp only [decide_eq_true hp, if_pos hp, hcode hp]
    rfl
  · simp only [decide_eq_false hp, if_neg hp]
    rfl

theorem ruleFor_mem {afn : ℤ} {fn : Option ℤ} {rule : Rule}
    (h : ExpectRules.ruleFor afn fn = some rule) : rule ∈ ExpectRules.rules ∧ rule.afn = afn := by
  have hown : rule ∈ ExpectRules.rules.filter fun r => r.afn = afn := by
    rw [ExpectRules.ruleFor] at h
    rcases Option.or_eq_some_iff.mp h with hfn | ⟨-, hafn⟩
    · exact List.mem_of_find?_eq_some hfn
    · exact List.mem_of_find?_eq_some hafn
  obtain ⟨hmem, hafn⟩ := List.mem_filter.mp hown
  exact ⟨hmem, of_decide_eq_true hafn⟩

end Defaults

end HplcWorkbench.VerifyTask
