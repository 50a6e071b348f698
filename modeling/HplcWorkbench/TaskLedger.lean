import HplcWorkbench.VerifyTask

/-!
# The ledger of a session

A frame that came in is on its way to the queue, in the queue, or was examined by one step. The frames
that a session sends are those of its steps, the replies of the line to the frames it put into the
queue and the replies of the steps to the frames they took. All this holds however the events of the
line fall between those of the task.
-/

namespace HplcWorkbench.VerifyTask

open Adapter10376 Transitions
open AutoReply (Responder Clock)
open SerialIO (trimHistory)

/-! ## The frames of a result -/

/-- The step took the frame that decided it off the queue. -/
def Reason.consumes : Reason → Bool
  | .notSilent => true
  | .received => true
  | .matched => true
  | .denied _ => true
  | _ => false

/-- The step replied to the frame that decided it. -/
def Reason.replies : Reason → Bool
  | .received => true
  | .pastMatched => true
  | .matched => true
  | .denied _ => true
  | _ => false

def Reason.passes : Reason → Bool
  | .silent => true
  | .received => true
  | .sentOnly => true
  | .pastMatched => true
  | .matched => true
  | _ => false

def StepResult.examined (r : StepResult) : List Bytes :=
  r.bystanders.map Bystander.frame ++ if r.reason.consumes then r.matched.toList else []

def StepResult.replied (r : StepResult) : List Bytes :=
  r.bystanders.map Bystander.frame ++ if r.reason.replies then r.matched.toList else []

/-- The result of the step that waits. -/
def Session.current (s : Session) : List StepResult :=
  match s.phase with
  | .waiting _ _ r => [r]
  | _ => []

/-- The results so far, that of the step that waits included. -/
def Session.all (s : Session) : List StepResult := s.results ++ s.current

/-- The frames of one sender. -/
def framesOf (o : Origin) (sent : List (Origin × Bytes)) : List Bytes :=
  (sent.filter fun p => p.1 = o).map Prod.snd

theorem framesOf_append (o : Origin) (xs ys : List (Origin × Bytes)) :
    framesOf o (xs ++ ys) = framesOf o xs ++ framesOf o ys := by
  rw [framesOf, List.filter_append, List.map_append]
  rfl

theorem framesOf_reply (o o' : Origin) (f : Option Bytes) :
    framesOf o (f.map fun f => (o', f)).toList = if o' = o then f.toList else [] := by
  cases f with
  | none => exact (ite_self []).symm
  | some f =>
      by_cases h : o' = o
      · simp [framesOf, h]
      · simp [framesOf, h]

/-- The responder of the step at a place. -/
def Task.responderAt (task : Task) (i : ℕ) : Option Responder := task.steps[i]?.bind task.responderFor

/-- The frames a result says were replied to, with the responder of its step. -/
def StepResult.attributed (task : Task) (r : StepResult) : List (Option Responder × Bytes) :=
  r.replied.map fun f => (task.responderAt r.index, f)

def replyOf (store : MetadataStore) (t : Option Responder × Clock × Bytes) : Option Bytes :=
  t.1.bind fun r => r.answer store t.2.1 t.2.2

/-! ## The line -/

section Line
variable (store : MetadataStore) (auto : Option Responder) (task : Task) (early past : List Bytes)

/-- What holds whatever the task does: `early` are the frames of the queue before the task, `past`
those of the history. -/
structure Conserved (s : Session) : Prop where
  received : s.received = s.consumed ++ s.queue ++ s.pending.toList
  forwarded : early ++ s.forwarded.map Prod.snd = s.consumed ++ s.queue
  lineSent : framesOf .line s.sent = s.forwarded.filterMap fun t => replyOf store (auto, t)
  replySent : framesOf .reply s.sent = s.taken.filterMap (replyOf store)
  history : ∀ f ∈ s.history, f ∈ past ++ s.received

variable {store auto task early past} {s s' : Session}

theorem conserved_start : Conserved store auto early past (startSession task early past) where
  received := by
    change early = [] ++ early ++ []
    rw [List.nil_append, List.append_nil]
  forwarded := by
    change early ++ [] = [] ++ early
    rw [List.append_nil, List.nil_append]
  lineSent := rfl
  replySent := rfl
  history := fun f hf => List.mem_append_left _ hf

variable (store) in
/-- The fields that tell where a frame is. -/
structure SameLine (s s' : Session) : Prop where
  received : s'.received = s.received
  forwarded : s'.forwarded = s.forwarded
  pending : s'.pending = s.pending
  history : s'.history = s.history
  frames : s'.consumed ++ s'.queue = s.consumed ++ s.queue
  lineSent : framesOf .line s'.sent = framesOf .line s.sent
  replySent : framesOf .reply s.sent = s.taken.filterMap (replyOf store) →
    framesOf .reply s'.sent = s'.taken.filterMap (replyOf store)

theorem SameLine.refl (s : Session) : SameLine store s s := ⟨rfl, rfl, rfl, rfl, rfl, rfl, id⟩

theorem SameLine.trans {t : Session} (h : SameLine store s s') (h' : SameLine store s' t) :
    SameLine store s t where
  received := h'.received.trans h.received
  forwarded := h'.forwarded.trans h.forwarded
  pending := h'.pending.trans h.pending
  history := h'.history.trans h.history
  frames := h'.frames.trans h.frames
  lineSent := h'.lineSent.trans h.lineSent
  replySent := fun hs => h'.replySent (h.replySent hs)

theorem Conserved.of_same (h : Conserved store auto early past s) (hsame : SameLine store s s') :
    Conserved store auto early past s' where
  received := by rw [hsame.received, hsame.pending, hsame.frames, h.received]
  forwarded := by rw [hsame.forwarded, hsame.frames, h.forwarded]
  lineSent := by rw [hsame.lineSent, hsame.forwarded, h.lineSent]
  replySent := hsame.replySent h.replySent
  history := by
    rw [hsame.history, hsame.received]
    exact h.history

theorem same_finish (s : Session) (r : StepResult) : SameLine store s (s.finish task r) :=
  ⟨rfl, rfl, rfl, rfl, rfl, rfl, id⟩

theorem same_phase (s : Session) (p : Phase) : SameLine store s { s with phase := p } :=
  ⟨rfl, rfl, rfl, rfl, rfl, rfl, id⟩

theorem same_next (s : Session) (rest : List Step) (n : ℕ) :
    SameLine store s { s with todo := rest, localSeq := n } := ⟨rfl, rfl, rfl, rfl, rfl, rfl, id⟩

/-- A frame that is taken off the queue counts as consumed. -/
theorem same_pop {frame : Bytes} {rest : List Bytes} (hqueue : s.queue = frame :: rest) :
    SameLine store s { s with queue := rest, consumed := s.consumed ++ [frame] } := by
  refine ⟨rfl, rfl, rfl, rfl, ?_, rfl, id⟩
  rw [hqueue, List.append_assoc]
  rfl

theorem same_enter (s : Session) (step : Step) (r : StepResult) :
    SameLine store s (s.enter task step r) := by
  rw [Session.enter]
  cases step.wait with
  | nothing => exact same_finish s _
  | silence => exact same_phase s _
  | anyFrame => exact same_phase s _
  | past expect => exact same_phase s _
  | answer expect => exact same_phase s _

/-- What is sent besides replies leaves them as they are. -/
theorem same_send (s : Session) (raw : Bytes) :
    SameLine store s { s with sent := s.sent ++ [(Origin.step, raw)] } where
  received := rfl
  forwarded := rfl
  pending := rfl
  history := rfl
  frames := rfl
  lineSent := by
    rw [framesOf_append]
    exact List.append_nil _
  replySent := by
    rw [framesOf_append]
    exact fun h => (List.append_nil _).trans h

theorem same_begin (s : Session) (step : Step) (sendOk : Bool) :
    SameLine store s (s.beginStep task step sendOk) := by
  rw [Session.beginStep]
  cases step.sends with
  | false => exact same_enter s step _
  | true =>
      cases s.build task step with
      | error e => exact same_finish s _
      | ok raw =>
          refine (same_send s raw).trans ?_
          cases sendOk with
          | true => exact same_enter _ step _
          | false => exact same_finish _ _

theorem same_autoReply (s : Session) (step : Step) (now : Clock) (frame : Bytes) :
    SameLine store s (s.autoReply store task step now frame) where
  received := rfl
  forwarded := rfl
  pending := rfl
  history := rfl
  frames := rfl
  lineSent := by
    rw [Session.autoReply, framesOf_append, framesOf_reply]
    exact List.append_nil _
  replySent := by
    intro h
    rw [Session.autoReply, framesOf_append, framesOf_reply, List.filterMap_append, h, if_pos rfl]
    cases hreply : (task.responderFor step).bind fun r => r.answer store now frame with
    | none => simp [replyOf, hreply]
    | some f => simp [replyOf, hreply]

theorem same_take (s : Session) (step : Step) (wait : Wait) (r : StepResult) (now : Clock)
    (frame : Bytes) : SameLine store s (s.take store task step wait r now frame) := by
  have hreply : SameLine store s (s.autoReply store task step now frame) :=
    same_autoReply s step now frame
  cases wait with
  | silence => exact same_finish s _
  | anyFrame => exact hreply.trans (same_finish _ _)
  | nothing => exact .refl s
  | past expect => exact .refl s
  | answer expect =>
      refine hreply.trans ?_
      rw [Session.take]
      cases judge store expect frame with
      | error e => exact same_phase _ _
      | ok out =>
          obtain ⟨verdict, decoded⟩ := out
          cases verdict with
          | bystander => exact same_phase _ _
          | matched => exact same_finish _ _
          | denied code => exact same_finish _ _

theorem same_scan (s : Session) (step : Step) (expect : Option Params) (r : StepResult) (now : Clock) :
    SameLine store s (s.scan store task step expect r now) := by
  rw [Session.scan]
  cases firstPast store expect s.history with
  | error e => exact same_phase s _
  | ok found =>
      cases found with
      | none => exact .refl s
      | some found => exact (same_autoReply s step now found.1).trans (same_finish _ _)

theorem same_expire {wait : Wait} {r : StepResult} (h : s.expireStep task wait r = some s') :
    SameLine store s s' := by
  cases wait with
  | nothing => cases h
  | past expect =>
      obtain rfl := Option.some.inj h
      exact same_finish s _
  | answer expect =>
      obtain rfl := Option.some.inj h
      exact same_finish s _
  | silence =>
      obtain ⟨-, hs'⟩ := Option.ite_none_right_eq_some.mp h
      obtain rfl := Option.some.inj hs'
      exact same_finish s _
  | anyFrame =>
      obtain ⟨-, hs'⟩ := Option.ite_none_right_eq_some.mp h
      obtain rfl := Option.some.inj hs'
      exact same_finish s _

theorem mem_of_trimHistory {f : Bytes} {history : List Bytes} (h : f ∈ trimHistory history) :
    f ∈ history := by
  rw [trimHistory] at h
  by_cases hlong : history.length > SerialIO.historyLimit
  · rw [if_pos hlong] at h
    exact List.mem_of_mem_drop h
  · rw [if_neg hlong] at h
    exact h

/-- A frame is recorded before it is answered, and answered before it is in the queue. -/
theorem Conserved.arrive {frame : Bytes} (h : Conserved store auto early past s)
    (hpending : s.pending = none) :
    Conserved store auto early past { s with
      pending := some frame
      history := trimHistory (s.history ++ [frame])
      received := s.received ++ [frame] } where
  received := by
    rw [h.received, hpending]
    exact congrArg (· ++ [frame]) (List.append_nil _)
  forwarded := h.forwarded
  lineSent := h.lineSent
  replySent := h.replySent
  history := by
    intro f hf
    rw [← List.append_assoc]
    rcases List.mem_append.mp (mem_of_trimHistory hf) with hold | hnew
    · exact List.mem_append_left _ (h.history f hold)
    · exact List.mem_append_right _ hnew

theorem Conserved.forward {frame : Bytes} {now : Clock} (h : Conserved store auto early past s)
    (hpending : s.pending = some frame) :
    Conserved store auto early past { s with
      pending := none
      queue := s.queue ++ [frame]
      forwarded := s.forwarded ++ [(now, frame)]
      sent := s.sent ++ ((auto.bind fun r => r.answer store now frame).map fun f => (.line, f)).toList }
    where
  received := by
    rw [h.received, hpending]
    simp
  forwarded := by
    rw [List.map_append, ← List.append_assoc, h.forwarded, List.append_assoc]
    rfl
  lineSent := by
    rw [framesOf_append, framesOf_reply, List.filterMap_append, h.lineSent, if_pos rfl]
    cases hreply : auto.bind fun r => r.answer store now frame with
    | none => simp [replyOf, hreply]
    | some f => simp [replyOf, hreply]
  replySent := by
    rw [framesOf_append, framesOf_reply]
    exact (List.append_nil _).trans h.replySent
  history := h.history

end Line

/-! ## The steps of a session -/

section Moves
variable (store : MetadataStore) (auto : Option Responder) (task : Task)

/-- What an event does, with the state that it needs. -/
inductive Move : Session → Event → Session → Prop
  | arrive {s : Session} {frame : Bytes} (hpending : s.pending = none) :
      Move s (.arrive frame) { s with
        pending := some frame
        history := trimHistory (s.history ++ [frame])
        received := s.received ++ [frame] }
  | forward {s : Session} {frame : Bytes} {now : Clock} (hpending : s.pending = some frame) :
      Move s (.forward now) { s with
        pending := none
        queue := s.queue ++ [frame]
        forwarded := s.forwarded ++ [(now, frame)]
        sent := s.sent ++
          ((auto.bind fun r => r.answer store now frame).map fun f => (Origin.line, f)).toList }
  | begin {s : Session} {step : Step} {rest : List Step} {sendOk : Bool} (hphase : s.phase = .ready)
      (htodo : s.todo = step :: rest) :
      Move s (.begin sendOk) ({ s with
        todo := rest
        localSeq := if step.needsNumber then s.localSeq + 1 else s.localSeq }.beginStep task step sendOk)
  | take {s : Session} {step : Step} {wait : Wait} {r : StepResult} {frame : Bytes} {rest : List Bytes}
      {now : Clock} (hphase : s.phase = .waiting step wait r) (hwait : ∀ want, wait ≠ .past want)
      (hqueue : s.queue = frame :: rest) :
      Move s (.poll now) ({ s with queue := rest, consumed := s.consumed ++ [frame] }.take store task
        step wait r now frame)
  | scan {s : Session} {step : Step} {want : Option Params} {r : StepResult} {now : Clock}
      (hphase : s.phase = .waiting step (.past want) r) :
      Move s (.poll now) (s.scan store task step want r now)
  | expire {s s' : Session} {step : Step} {wait : Wait} {r : StepResult}
      (hphase : s.phase = .waiting step wait r) (hexpire : s.expireStep task wait r = some s') :
      Move s .expire s'

variable {store auto task} {s s' : Session} {event : Event}

/-- A step that waits for frames takes the next one off the queue. -/
theorem step_take {now : Clock} {step : Step} {wait : Wait} {r : StepResult} {frame : Bytes}
    {rest : List Bytes} (hphase : s.phase = .waiting step wait r) (hwait : ∀ want, wait ≠ .past want)
    (hqueue : s.queue = frame :: rest) :
    sessionStep store auto task s (.poll now) = some ({ s with
      queue := rest
      consumed := s.consumed ++ [frame] }.take store task step wait r now frame) := by
  have hkept : s.phase = .waiting step wait r → { s with
      queue := rest
      consumed := s.consumed ++ [frame] } = { s with
      queue := rest
      consumed := s.consumed ++ [frame]
      phase := .waiting step wait r } := by
    intro h
    rw [h]
  rw [sessionStep, hkept hphase, hphase, hqueue]
  cases wait with
  | past want => exact absurd rfl (hwait want)
  | silence => rfl
  | anyFrame => rfl
  | answer want => rfl
  | nothing => rfl

/-- A step that waits scans the history or takes the next frame off the queue. -/
theorem move_of_poll {now : Clock} {step : Step} {wait : Wait} {r : StepResult}
    (hphase : s.phase = .waiting step wait r)
    (h : sessionStep store auto task s (.poll now) = some s') :
    Move store auto task s (.poll now) s' := by
  by_cases hpast : ∃ want, wait = .past want
  · obtain ⟨want, rfl⟩ := hpast
    rw [sessionStep, hphase] at h
    obtain rfl := Option.some.inj h
    exact .scan hphase
  · have hwait : ∀ want, wait ≠ .past want := fun want hwant => hpast ⟨want, hwant⟩
    cases hqueue : s.queue with
    | nil =>
        rw [sessionStep, hphase, hqueue] at h
        cases wait with
        | past want => exact absurd rfl (hwait want)
        | silence => cases h
        | anyFrame => cases h
        | nothing => cases h
        | answer want => cases h
    | cons frame rest =>
        obtain rfl := Option.some.inj ((step_take hphase hwait hqueue).symm.trans h)
        exact .take hphase hwait hqueue

theorem move_of_step (h : sessionStep store auto task s event = some s') :
    Move store auto task s event s' := by
  cases event with
  | arrive frame =>
      cases hpending : s.pending with
      | some other =>
          rw [sessionStep, hpending] at h
          cases h
      | none =>
          rw [sessionStep, hpending] at h
          obtain rfl := Option.some.inj h
          exact .arrive hpending
  | forward now =>
      obtain ⟨frame, hpending, rfl⟩ := Option.map_eq_some_iff.mp h
      exact .forward hpending
  | begin sendOk =>
      rw [sessionStep] at h
      cases hphase : s.phase with
      | ready =>
          cases htodo : s.todo with
          | nil =>
              rw [hphase, htodo] at h
              cases h
          | cons step rest =>
              have hs' : s' = { s with
                  todo := rest
                  localSeq := if step.needsNumber then s.localSeq + 1 else s.localSeq
                  }.beginStep task step sendOk := by
                rw [hphase, htodo] at h
                refine (Option.some.inj h).symm.trans ?_
                rw [hphase]
              rw [hs']
              exact .begin hphase htodo
      | raised => rw [hphase] at h; cases h
      | done => rw [hphase] at h; cases h
      | waiting step wait r => rw [hphase] at h; cases h
  | poll now =>
      cases hphase : s.phase with
      | waiting step wait r => exact move_of_poll hphase h
      | ready => rw [sessionStep, hphase] at h; cases h
      | raised => rw [sessionStep, hphase] at h; cases h
      | done => rw [sessionStep, hphase] at h; cases h
  | expire =>
      rw [sessionStep] at h
      cases hphase : s.phase with
      | waiting step wait r =>
          rw [hphase] at h
          exact .expire hphase h
      | ready => rw [hphase] at h; cases h
      | raised => rw [hphase] at h; cases h
      | done => rw [hphase] at h; cases h

/-- The frames that come in during a run. -/
def arrivals (events : List Event) : List Bytes :=
  events.filterMap fun
    | .arrive frame => some frame
    | _ => none

theorem received_move (h : Move store auto task s event s') :
    s'.received = s.received ++ arrivals [event] := by
  have hkept : SameLine store s s' → s'.received = s.received ++ [] :=
    fun hsame => hsame.received.trans (List.append_nil _).symm
  cases h with
  | arrive hpending => rfl
  | forward hpending => exact (List.append_nil _).symm
  | begin hphase htodo => exact hkept (SameLine.trans (same_next s _ _) (same_begin _ _ _))
  | take hphase hwait hqueue => exact hkept ((same_pop hqueue).trans (same_take _ _ _ _ _ _))
  | scan hphase => exact hkept (same_scan s _ _ _ _)
  | expire hphase hexpire => exact hkept (same_expire hexpire)

theorem received_run {events : List Event} (h : (session store auto task).run s events = some s') :
    s'.received = s.received ++ arrivals events := by
  induction events generalizing s with
  | nil =>
      obtain rfl := Option.some.inj h
      exact (List.append_nil _).symm
  | cons event events ih =>
      obtain ⟨t, hstep, hrest⟩ := Option.bind_eq_some_iff.mp h
      have hsplit : arrivals (event :: events) = arrivals [event] ++ arrivals events :=
        List.filterMap_append (l := [event])
      rw [ih hrest, received_move (move_of_step hstep), hsplit, List.append_assoc]

end Moves

/-! ## The books of the task -/

section Books
variable (store : MetadataStore) (task : Task)

/-- What the results so far say of the frames the steps sent, took and replied to. -/
structure Books (rs : List StepResult) (s : Session) : Prop where
  within : rs.length ≤ task.steps.length
  todo : s.todo = task.steps.drop rs.length
  index : rs.map StepResult.index = List.range rs.length
  consumed : s.consumed = rs.flatMap StepResult.examined
  stepSent : framesOf .step s.sent = rs.filterMap StepResult.sent
  taken : s.taken.map (fun t => (t.1, t.2.2)) = rs.flatMap (StepResult.attributed task)

variable {store task} {rs : List StepResult} {r r' : StepResult} {s s' : Session}

theorem all_finish (s : Session) (r : StepResult) : (s.finish task r).all = s.results ++ [r] := by
  rw [Session.all, Session.current, Session.finish]
  by_cases h : (¬ r.passed ∧ task.failFast) ∨ s.todo = []
  · rw [if_pos h]
    exact List.append_nil _
  · rw [if_neg h]
    exact List.append_nil _

theorem Books.last_index (h : Books task (rs ++ [r]) s) : r.index = rs.length := by
  have hlast := congrArg (fun l => l[rs.length]?) h.index
  simpa using hlast

theorem Books.finish (h : Books task (s.results ++ [r]) s) :
    Books task (s.finish task r).all (s.finish task r) := by
  rw [all_finish]
  exact ⟨h.within, h.todo, h.index, h.consumed, h.stepSent, h.taken⟩

theorem Books.wait (h : Books task (s.results ++ [r]) s) (step : Step) (wait : Wait) :
    Books task (Session.all { s with phase := .waiting step wait r })
      { s with phase := .waiting step wait r } :=
  ⟨h.within, h.todo, h.index, h.consumed, h.stepSent, h.taken⟩

/-- A result gets the frames that its step took and replied to. -/
theorem Books.amend (h : Books task (rs ++ [r]) s) (c t : List Bytes)
    (hindex : r'.index = r.index) (hsent : r'.sent = r.sent) (hexamined : r'.examined = r.examined ++ c)
    (hreplied : r'.replied = r.replied ++ t) (htodo : s'.todo = s.todo)
    (hconsumed : s'.consumed = s.consumed ++ c) (hstep : framesOf .step s'.sent = framesOf .step s.sent)
    (htaken : s'.taken.map (fun t => (t.1, t.2.2)) =
      s.taken.map (fun t => (t.1, t.2.2)) ++ t.map fun f => (task.responderAt r.index, f)) :
    Books task (rs ++ [r']) s' where
  within := by
    have hwithin := h.within
    rwa [List.length_append] at hwithin ⊢
  todo := by
    have hrest := h.todo
    rw [List.length_append] at hrest ⊢
    exact htodo.trans hrest
  index := by
    have hrange := h.index
    rw [List.map_append, List.length_append] at hrange ⊢
    rw [List.map_singleton, hindex]
    exact hrange
  consumed := by
    rw [hconsumed, h.consumed, List.flatMap_append, List.flatMap_append, List.flatMap_singleton,
      List.flatMap_singleton, hexamined, List.append_assoc]
  stepSent := by
    rw [hstep, h.stepSent, List.filterMap_append, List.filterMap_append]
    simp only [List.filterMap_cons, hsent]
  taken := by
    rw [htaken, h.taken, List.flatMap_append, List.flatMap_append, List.flatMap_singleton,
      List.flatMap_singleton, List.append_assoc]
    simp only [StepResult.attributed, hreplied, hindex, List.map_append]

/-- The next step opens its result. -/
theorem Books.start (h : Books task rs s) {step : Step} {rest : List Step} (htodo : s.todo = step :: rest)
    (hindex : r.index = rs.length) (hexamined : r.examined = []) (hreplied : r.replied = [])
    (hrest : s'.todo = rest) (hconsumed : s'.consumed = s.consumed) (htaken : s'.taken = s.taken)
    (hstep : framesOf .step s'.sent = framesOf .step s.sent ++ r.sent.toList) :
    Books task (rs ++ [r]) s' where
  within := by
    have hlength := congrArg List.length (h.todo.symm.trans htodo)
    rw [List.length_drop, List.length_cons] at hlength
    rw [List.length_append, List.length_singleton]
    omega
  todo := by
    rw [hrest, List.length_append, List.length_singleton, ← List.drop_drop, ← h.todo, htodo]
    rfl
  index := by
    rw [List.map_append, h.index, List.map_singleton, hindex, List.length_append,
      List.length_singleton, List.range_succ]
  consumed := by
    rw [hconsumed, h.consumed, List.flatMap_append, List.flatMap_singleton, hexamined, List.append_nil]
  stepSent := by
    rw [hstep, h.stepSent, List.filterMap_append]
    cases hsent : r.sent with
    | none => simp [hsent]
    | some f => simp [hsent]
  taken := by
    rw [htaken, h.taken, List.flatMap_append, List.flatMap_singleton, StepResult.attributed, hreplied]
    exact (List.append_nil _).symm

end Books

end HplcWorkbench.VerifyTask
