import HplcWorkbench.TaskLedger

/-!
# What the results of a task rest on

Every result of a task stands for something that happened on the line: a step that passed its wait saw
a frame that answers its expectation, a step that was refused saw the refusal, and no frame it left
aside would have decided it. Each event keeps this together with the ledger of the session.
-/

namespace HplcWorkbench.VerifyTask

open Adapter10376 Transitions
open AutoReply (Responder Clock)
open Batch (denyInfo)

/-! ## What decides a step -/

section Decisions
variable (store : MetadataStore)

/-- The frame fits the expectation and refuses nothing. -/
def Answers (expect : Params) (f : Bytes) : Prop :=
  ∃ p, decode store f = .ok p ∧ Matcher.fits p expect = .ok true ∧ denyInfo p = none

/-- The frame is a refusal and counts as the answer. -/
def Refuses (expect : Params) (code : ℕ) (f : Bytes) : Prop :=
  ∃ p, decode store f = .ok p ∧ denyInfo p = some code ∧
    ((expect.get "afn").eqInt 0 = true ∨ Matcher.fits p expect = .ok true)

/-- The frame decides nothing. -/
def Leaves (expect : Params) (f : Bytes) : Prop :=
  ∀ p, decode store f = .ok p → Matcher.fits p expect = .ok false ∧
    ((expect.get "afn").eqInt 0 = true → denyInfo p = none)

variable {store} {expect : Params} {f : Bytes}

theorem safeDecode_ok {p : ProtocolFrame} (h : decode store f = .ok p) : safeDecode store f = some p := by
  rw [safeDecode, h]
  rfl

theorem safeDecode_error {e : PyErr} (h : decode store f = .error e) : safeDecode store f = none := by
  rw [safeDecode, h]
  rfl

theorem matchFrame_ok {p : ProtocolFrame} (h : decode store f = .ok p) :
    Matcher.matchFrame store f (some expect) =
      (Matcher.fits p expect >>= fun hit => .ok (hit, some p)) := by
  rw [Matcher.matchFrame, h]
  rfl

theorem compared_ok {p : ProtocolFrame} (h : decode store f = .ok p) :
    compared store expect f = (Matcher.fits p expect >>= fun hit =>
      .ok (if hit then (denyInfo p).elim .matched .denied else .bystander, some p)) := by
  rw [compared, matchFrame_ok h]
  cases Matcher.fits p expect with
  | error e => rfl
  | ok hit => rfl

/-- A frame that is not decoded decides nothing. -/
theorem judge_error {e : PyErr} (h : decode store f = .error e) :
    judge store expect f = .ok (.bystander, none) := by
  have hcompared : compared store expect f = .ok (.bystander, none) := by
    rw [compared, Matcher.matchFrame, h]
    rfl
  rw [judge, safeDecode_error h]
  exact (ite_congr rfl (fun _ => hcompared) fun _ => hcompared).trans (ite_self _)

/-- A refusal where a confirmation is expected. -/
theorem judge_refusal {p : ProtocolFrame} {code : ℕ} (h : decode store f = .ok p)
    (hcode : denyInfo p = some code) (hafn : (expect.get "afn").eqInt 0 = true) :
    judge store expect f = .ok (.denied code, some p) := by
  have hrefusal : refusal (some p) = some code := hcode
  rw [judge, safeDecode_ok h, if_pos hafn, hrefusal]
  rfl

/-- Any other frame is compared with the expectation. -/
theorem judge_compared {p : ProtocolFrame} (h : decode store f = .ok p)
    (hno : (expect.get "afn").eqInt 0 = true → denyInfo p = none) :
    judge store expect f = compared store expect f := by
  rw [judge, safeDecode_ok h]
  by_cases hafn : (expect.get "afn").eqInt 0 = true
  · have hrefusal : refusal (some p) = none := hno hafn
    rw [if_pos hafn, hrefusal]
    rfl
  · exact if_neg hafn

/-- What a frame that the loop judged is. -/
theorem judge_spec {verdict : Verdict} {seen : Option ProtocolFrame}
    (h : judge store expect f = .ok (verdict, seen)) :
    (verdict = .matched ∧ Answers store expect f) ∨
      (∃ code, verdict = .denied code ∧ Refuses store expect code f) ∨
      (verdict = .bystander ∧ Leaves store expect f) := by
  cases hdecode : decode store f with
  | error e =>
      have hverdict := Except.ok.inj ((judge_error hdecode).symm.trans h)
      refine Or.inr (Or.inr ⟨(congrArg Prod.fst hverdict).symm, ?_⟩)
      rintro p hp
      cases hdecode.symm.trans hp
  | ok p =>
      by_cases hrefused : (expect.get "afn").eqInt 0 = true ∧ (denyInfo p).isSome
      · obtain ⟨hafn, hsome⟩ := hrefused
        obtain ⟨code, hcode⟩ := Option.isSome_iff_exists.mp hsome
        have hverdict := Except.ok.inj ((judge_refusal hdecode hcode hafn).symm.trans h)
        exact Or.inr (Or.inl ⟨code, (congrArg Prod.fst hverdict).symm, p, hdecode, hcode, Or.inl hafn⟩)
      · have hno : (expect.get "afn").eqInt 0 = true → denyInfo p = none := by
          intro hafn
          exact Option.not_isSome_iff_eq_none.mp fun hsome => hrefused ⟨hafn, hsome⟩
        rw [judge_compared hdecode hno, compared_ok hdecode] at h
        obtain ⟨hit, hfits, hout⟩ := bind_eq_ok h
        have hverdict := congrArg Prod.fst (Except.ok.inj hout)
        cases hit with
        | false =>
            refine Or.inr (Or.inr ⟨hverdict.symm, ?_⟩)
            rintro q hq
            obtain rfl := Except.ok.inj (hdecode.symm.trans hq)
            exact ⟨hfits, hno⟩
        | true =>
            cases hcode : denyInfo p with
            | none =>
                rw [hcode] at hverdict
                exact Or.inl ⟨hverdict.symm, p, hdecode, hfits, hcode⟩
            | some code =>
                rw [hcode] at hverdict
                exact Or.inr (Or.inl ⟨code, hverdict.symm, p, hdecode, hcode, Or.inr hfits⟩)

/-- A frame found in the history is in it and fits. -/
theorem firstPast_some {want : Option Params} {past : List Bytes} {seen : Option ProtocolFrame}
    (h : firstPast store want past = .ok (some (f, seen))) :
    f ∈ past ∧ ∃ p, decode store f = .ok p ∧ ∀ e ∈ want, Matcher.fits p e = .ok true := by
  induction past with
  | nil => cases Except.ok.inj h
  | cons g past ih =>
      obtain ⟨⟨hit, decoded⟩, hmatch, hrest⟩ := bind_eq_ok h
      cases hit with
      | false =>
          obtain ⟨hmem, hfits⟩ := ih hrest
          exact ⟨List.mem_cons_of_mem g hmem, hfits⟩
      | true =>
          obtain ⟨rfl, rfl⟩ := Prod.mk.inj (Option.some.inj (Except.ok.inj hrest))
          refine ⟨List.mem_cons_self, ?_⟩
          rw [Matcher.matchFrame] at hmatch
          cases hdecode : decode store g with
          | error e =>
              rw [hdecode] at hmatch
              cases hmatch
          | ok p =>
              refine ⟨p, rfl, ?_⟩
              rintro e rfl
              rw [hdecode] at hmatch
              obtain ⟨hit, hfits, hout⟩ := bind_eq_ok hmatch
              obtain rfl := congrArg Prod.fst (Except.ok.inj hout)
              exact hfits

end Decisions

/-! ## What a result stands for -/

section Ledger
variable (store : MetadataStore) (auto : Option Responder) (task : Task) (early past : List Bytes)

/-- What happened on the line where a result has a reason; `seen` are the frames that came in. -/
def Grounds (seen : List Bytes) (step : Step) (r : StepResult) : Reason → Prop
  | .buildFailed => step.sends = true
  | .sendFailed => step.sends = true
  | .sentOnly => step.wait = .nothing
  | .silent => step.wait = .silence
  | .notSilent => step.wait = .silence ∧ ∃ f ∈ seen, r.matched = some f
  | .waitTimeout => step.wait = .anyFrame
  | .received => step.wait = .anyFrame ∧ ∃ f ∈ seen, r.matched = some f
  | .pastTimeout => ∃ want, step.wait = .past want
  | .pastMatched => ∃ want, step.wait = .past want ∧ ∃ f ∈ seen, r.matched = some f ∧
      ∃ p, decode store f = .ok p ∧ ∀ e ∈ want, Matcher.fits p e = .ok true
  | .timeout => ∃ want, step.wait = .answer want
  | .matched => ∃ want, step.wait = .answer want ∧
      ∃ f ∈ seen, r.matched = some f ∧ Answers store want f
  | .denied code => ∃ want, step.wait = .answer want ∧
      ∃ f ∈ seen, r.matched = some f ∧ Refuses store want code f

/-- The frames left aside decide nothing. -/
def LeftAside (seen : List Bytes) (step : Step) (r : StepResult) : Prop :=
  ∀ b ∈ r.bystanders, b.frame ∈ seen ∧ ∃ want, step.wait = .answer want ∧ Leaves store want b.frame

structure Settled (seen : List Bytes) (step : Step) (r : StepResult) : Prop where
  name : r.name = step.name
  passed : r.passed = r.reason.passes
  sent : r.sent.isSome = (step.sends && decide (r.reason ≠ .buildFailed))
  leftAside : LeftAside store seen step r
  grounds : Grounds store seen step r r.reason

/-- The result of a step that waits. -/
structure Waiting (seen : List Bytes) (step : Step) (wait : Wait) (r : StepResult) : Prop where
  own : step.wait = wait
  waits : wait ≠ .nothing
  name : r.name = step.name
  passed : r.passed = false
  reason : r.reason = .buildFailed
  sent : r.sent.isSome = step.sends
  leftAside : LeftAside store seen step r

/-- How far a task gets: no step follows a failed one unless the task goes on regardless. -/
structure Paced (s : Session) : Prop where
  going : s.phase ≠ .done → task.failFast = true → ∀ r ∈ s.results, r.passed = true
  before : task.failFast = true → ∀ r ∈ s.results.dropLast, r.passed = true
  ready : s.phase = .ready → s.todo ≠ []
  ended : s.phase = .done →
    s.todo = [] ∨ task.failFast = true ∧ ∃ r ∈ s.results, r.passed = false

structure Ledger (s : Session) : Prop where
  conserved : Conserved store auto early past s
  paced : Paced task s
  books : s.phase ≠ .raised → Books task s.all s
  settled : ∀ (i : ℕ) (r : StepResult), s.results[i]? = some r →
    ∃ step, task.steps[i]? = some step ∧ r.index = i ∧ Settled store (past ++ s.received) step r
  waiting : ∀ step wait r, s.phase = .waiting step wait r →
    task.steps[s.results.length]? = some step ∧ Waiting store (past ++ s.received) step wait r

variable {store auto task early past} {s s' t : Session} {step : Step} {wait : Wait}
  {r : StepResult} {seen seen' : List Bytes}

theorem LeftAside.mono (h : LeftAside store seen step r) (hseen : ∀ f ∈ seen, f ∈ seen') :
    LeftAside store seen' step r := fun b hb => ⟨hseen _ (h b hb).1, (h b hb).2⟩

theorem Settled.mono (h : Settled store seen step r) (hseen : ∀ f ∈ seen, f ∈ seen') :
    Settled store seen' step r where
  name := h.name
  passed := h.passed
  sent := h.sent
  leftAside := h.leftAside.mono hseen
  grounds := by
    have hgrounds := h.grounds
    cases hreason : r.reason with
    | notSilent =>
        rw [hreason] at hgrounds
        obtain ⟨hwait, f, hf, hmatched⟩ := hgrounds
        exact ⟨hwait, f, hseen f hf, hmatched⟩
    | received =>
        rw [hreason] at hgrounds
        obtain ⟨hwait, f, hf, hmatched⟩ := hgrounds
        exact ⟨hwait, f, hseen f hf, hmatched⟩
    | pastMatched =>
        rw [hreason] at hgrounds
        obtain ⟨want, hwait, f, hf, hmatched⟩ := hgrounds
        exact ⟨want, hwait, f, hseen f hf, hmatched⟩
    | matched =>
        rw [hreason] at hgrounds
        obtain ⟨want, hwait, f, hf, hmatched⟩ := hgrounds
        exact ⟨want, hwait, f, hseen f hf, hmatched⟩
    | denied code =>
        rw [hreason] at hgrounds
        obtain ⟨want, hwait, f, hf, hmatched⟩ := hgrounds
        exact ⟨want, hwait, f, hseen f hf, hmatched⟩
    | buildFailed => rwa [hreason] at hgrounds
    | sendFailed => rwa [hreason] at hgrounds
    | sentOnly => rwa [hreason] at hgrounds
    | silent => rwa [hreason] at hgrounds
    | waitTimeout => rwa [hreason] at hgrounds
    | pastTimeout => rwa [hreason] at hgrounds
    | timeout => rwa [hreason] at hgrounds

theorem Waiting.mono (h : Waiting store seen step wait r) (hseen : ∀ f ∈ seen, f ∈ seen') :
    Waiting store seen' step wait r :=
  ⟨h.own, h.waits, h.name, h.passed, h.reason, h.sent, h.leftAside.mono hseen⟩

theorem ledger_start : Ledger store auto task early past (startSession task early past) where
  conserved := conserved_start
  paced := by
    refine ⟨fun _ _ r hr => absurd hr List.not_mem_nil, fun _ r hr => absurd hr List.not_mem_nil, ?_, ?_⟩
    · intro hphase hnil
      rw [startSession] at hphase hnil
      rw [if_pos hnil] at hphase
      cases hphase
    · intro hphase
      rw [startSession] at hphase
      by_cases hnil : task.steps = []
      · exact Or.inl hnil
      · rw [if_neg hnil] at hphase
        cases hphase
  books := by
    intro _
    have hall : (startSession task early past).all = [] := by
      rw [Session.all, Session.current, startSession]
      by_cases hnil : task.steps = []
      · rw [if_pos hnil]
        rfl
      · rw [if_neg hnil]
        rfl
    rw [hall]
    exact ⟨Nat.zero_le _, rfl, rfl, rfl, rfl, rfl⟩
  settled := by
    intro i r hr
    cases hr
  waiting := by
    intro step wait r hphase
    rw [startSession] at hphase
    by_cases hnil : task.steps = []
    · rw [if_pos hnil] at hphase
      cases hphase
    · rw [if_neg hnil] at hphase
      cases hphase

theorem Paced.finish (h : Paced task s) (hgoing : s.phase ≠ .done) (hresults : t.results = s.results) :
    Paced task (t.finish task r) where
  going := by
    intro hphase hfail
    rw [Session.finish] at hphase
    by_cases hstop : (¬ r.passed ∧ task.failFast) ∨ t.todo = []
    · rw [if_pos hstop] at hphase
      exact absurd rfl hphase
    · intro r' hr'
      rcases List.mem_append.mp hr' with hold | hnew
      · rw [hresults] at hold
        exact h.going hgoing hfail r' hold
      · obtain rfl := List.mem_singleton.mp hnew
        by_contra hpassed
        exact hstop (Or.inl ⟨hpassed, hfail⟩)
  before := by
    intro hfail r' hr'
    rw [Session.finish, List.dropLast_concat, hresults] at hr'
    exact h.going hgoing hfail r' hr'
  ready := by
    intro hphase hnil
    have hstop : (¬ r.passed ∧ task.failFast) ∨ t.todo = [] := Or.inr hnil
    rw [Session.finish, if_pos hstop] at hphase
    cases hphase
  ended := by
    intro hphase
    rw [Session.finish] at hphase
    by_cases hstop : (¬ r.passed ∧ task.failFast) ∨ t.todo = []
    · rcases hstop with ⟨hpassed, hfail⟩ | hnil
      · refine Or.inr ⟨hfail, r, List.mem_append_right _ (List.mem_singleton_self r), ?_⟩
        exact Bool.eq_false_iff.mpr hpassed
      · exact Or.inl hnil
    · rw [if_neg hstop] at hphase
      cases hphase

/-- A step gets its result. -/
theorem Ledger.close (h : Ledger store auto task early past s) (hgoing : s.phase ≠ .done)
    (hsame : SameLine store s t) (hresults : t.results = s.results)
    (hbooks : Books task (s.results ++ [r]) t) (hstep : task.steps[s.results.length]? = some step)
    (hsettled : Settled store (past ++ s.received) step r) :
    Ledger store auto task early past (t.finish task r) where
  conserved := (h.conserved.of_same hsame).of_same (same_finish t r)
  paced := h.paced.finish hgoing hresults
  books := by
    intro _
    rw [← hresults] at hbooks
    exact hbooks.finish
  settled := by
    intro i r' hr'
    have hreceived : (t.finish task r).received = s.received := hsame.received
    rw [hreceived]
    change (t.results ++ [r])[i]? = some r' at hr'
    rw [hresults, List.getElem?_append] at hr'
    split_ifs at hr' with hi
    · exact h.settled i r' hr'
    · rw [List.getElem?_singleton] at hr'
      obtain ⟨hzero, hsome⟩ := Option.ite_none_right_eq_some.mp hr'
      obtain rfl := Option.some.inj hsome
      have hindex : i = s.results.length := by omega
      exact ⟨step, hindex ▸ hstep, hbooks.last_index.trans hindex.symm, hsettled⟩
  waiting := by
    intro step' wait r' hphase
    rw [Session.finish] at hphase
    by_cases hstop : (¬ r.passed ∧ task.failFast) ∨ t.todo = []
    · rw [if_pos hstop] at hphase
      cases hphase
    · rw [if_neg hstop] at hphase
      cases hphase

/-- A step waits on. -/
theorem Ledger.stay (h : Ledger store auto task early past s) (hgoing : s.phase ≠ .done)
    (hsame : SameLine store s t) (hresults : t.results = s.results)
    (hbooks : Books task (s.results ++ [r]) t) (hstep : task.steps[s.results.length]? = some step)
    (hwaiting : Waiting store (past ++ s.received) step wait r) :
    Ledger store auto task early past { t with phase := .waiting step wait r } where
  conserved := (h.conserved.of_same hsame).of_same (same_phase t _)
  paced := by
    refine ⟨fun _ hfail => ?_, fun hfail r' hr' => ?_, fun hphase => ?_, fun hphase => ?_⟩
    · change ∀ r' ∈ t.results, r'.passed = true
      rw [hresults]
      exact h.paced.going hgoing hfail
    · change r' ∈ t.results.dropLast at hr'
      rw [hresults] at hr'
      exact h.paced.before hfail r' hr'
    · cases hphase
    · cases hphase
  books := by
    intro _
    rw [← hresults] at hbooks
    exact hbooks.wait step wait
  settled := by
    change ∀ (i : ℕ) (r : StepResult), t.results[i]? = some r →
      ∃ step, task.steps[i]? = some step ∧ r.index = i ∧ Settled store (past ++ t.received) step r
    rw [hresults, hsame.received]
    exact h.settled
  waiting := by
    intro step' wait' r' hphase
    obtain ⟨rfl, rfl, rfl⟩ := Phase.waiting.inj hphase
    change task.steps[t.results.length]? = some step ∧
      Waiting store (past ++ t.received) step wait r
    rw [hresults, hsame.received]
    exact ⟨hstep, hwaiting⟩

/-- The task raises. -/
theorem Ledger.raise (h : Ledger store auto task early past s) (hgoing : s.phase ≠ .done)
    (hsame : SameLine store s t) (hresults : t.results = s.results) :
    Ledger store auto task early past { t with phase := .raised } where
  conserved := (h.conserved.of_same hsame).of_same (same_phase t _)
  paced := by
    refine ⟨fun _ hfail => ?_, fun hfail r' hr' => ?_, fun hphase => ?_, fun hphase => ?_⟩
    · change ∀ r' ∈ t.results, r'.passed = true
      rw [hresults]
      exact h.paced.going hgoing hfail
    · change r' ∈ t.results.dropLast at hr'
      rw [hresults] at hr'
      exact h.paced.before hfail r' hr'
    · cases hphase
    · cases hphase
  books := fun hphase => absurd rfl hphase
  settled := by
    change ∀ (i : ℕ) (r : StepResult), t.results[i]? = some r →
      ∃ step, task.steps[i]? = some step ∧ r.index = i ∧ Settled store (past ++ t.received) step r
    rw [hresults, hsame.received]
    exact h.settled
  waiting := by
    intro step' wait' r' hphase
    cases hphase

/-! ## The steps of a session -/

theorem Ledger.arrive {frame : Bytes} (h : Ledger store auto task early past s)
    (hpending : s.pending = none) :
    Ledger store auto task early past { s with
      pending := some frame
      history := SerialIO.trimHistory (s.history ++ [frame])
      received := s.received ++ [frame] } where
  conserved := h.conserved.arrive hpending
  paced := ⟨h.paced.going, h.paced.before, h.paced.ready, h.paced.ended⟩
  books := by
    intro hphase
    have hbooks := h.books hphase
    exact ⟨hbooks.within, hbooks.todo, hbooks.index, hbooks.consumed, hbooks.stepSent, hbooks.taken⟩
  settled := by
    intro i r hr
    obtain ⟨step, hstep, hindex, hsettled⟩ := h.settled i r hr
    refine ⟨step, hstep, hindex, hsettled.mono fun f hf => ?_⟩
    rw [← List.append_assoc]
    exact List.mem_append_left _ hf
  waiting := by
    intro step wait r hphase
    obtain ⟨hstep, hwaiting⟩ := h.waiting step wait r hphase
    refine ⟨hstep, hwaiting.mono fun f hf => ?_⟩
    rw [← List.append_assoc]
    exact List.mem_append_left _ hf

theorem Ledger.forward {frame : Bytes} {now : Clock} (h : Ledger store auto task early past s)
    (hpending : s.pending = some frame) :
    Ledger store auto task early past { s with
      pending := none
      queue := s.queue ++ [frame]
      forwarded := s.forwarded ++ [(now, frame)]
      sent := s.sent ++
        ((auto.bind fun r => r.answer store now frame).map fun f => (Origin.line, f)).toList } where
  conserved := h.conserved.forward hpending
  paced := ⟨h.paced.going, h.paced.before, h.paced.ready, h.paced.ended⟩
  books := by
    intro hphase
    have hbooks := h.books hphase
    refine ⟨hbooks.within, hbooks.todo, hbooks.index, hbooks.consumed, ?_, hbooks.taken⟩
    rw [framesOf_append, framesOf_reply]
    exact (List.append_nil _).trans hbooks.stepSent
  settled := h.settled
  waiting := h.waiting

/-- A step that sent its frame, or had none to send, waits or has its result. -/
theorem Ledger.enter (h : Ledger store auto task early past s) (hphase : s.phase = .ready)
    (hsame : SameLine store s t) (hresults : t.results = s.results) {rest : List Step}
    (htodo : s.todo = step :: rest) (hrest : t.todo = rest) (hconsumed : t.consumed = s.consumed)
    (htaken : t.taken = s.taken) {x : Option Bytes} (hx : x.isSome = step.sends)
    (hsent : framesOf .step t.sent = framesOf .step s.sent ++ x.toList) :
    Ledger store auto task early past
      (t.enter task step { newResult s.results.length step with sent := x }) := by
  have hgoing : s.phase ≠ .done := by
    rw [hphase]
    exact Phase.noConfusion
  have hall : s.all = s.results := by
    rw [Session.all, Session.current, hphase]
    exact List.append_nil _
  have hbooks := h.books (by rw [hphase]; exact Phase.noConfusion)
  have hstep : task.steps[s.results.length]? = some step := by
    rw [← List.head?_drop, ← hall, ← hbooks.todo, htodo]
    rfl
  rw [hall] at hbooks
  have hstay : ∀ w : Wait, step.wait = w → w ≠ .nothing → Ledger store auto task early past
      { t with phase := .waiting step w { newResult s.results.length step with sent := x } } := by
    intro w hwait hwaits
    exact h.stay hgoing hsame hresults
      (hbooks.start htodo rfl rfl rfl hrest hconsumed htaken hsent) hstep
      ⟨hwait, hwaits, rfl, rfl, rfl, hx, fun b hb => absurd hb List.not_mem_nil⟩
  rw [Session.enter]
  cases hwait : step.wait with
  | nothing =>
      refine h.close hgoing hsame hresults
        (hbooks.start htodo rfl rfl rfl hrest hconsumed htaken hsent) hstep ?_
      refine ⟨rfl, rfl, ?_, fun b hb => absurd hb List.not_mem_nil, hwait⟩
      rw [hx]
      exact (Bool.and_true _).symm
  | silence => exact hstay .silence hwait Wait.noConfusion
  | anyFrame => exact hstay .anyFrame hwait Wait.noConfusion
  | past want => exact hstay (.past want) hwait Wait.noConfusion
  | answer want => exact hstay (.answer want) hwait Wait.noConfusion

theorem Ledger.begin (h : Ledger store auto task early past s) (hphase : s.phase = .ready)
    {rest : List Step} (htodo : s.todo = step :: rest) (next : ℕ) (sendOk : Bool) :
    Ledger store auto task early past
      ({ s with todo := rest, localSeq := next }.beginStep task step sendOk) := by
  have hgoing : s.phase ≠ .done := by
    rw [hphase]
    exact Phase.noConfusion
  have hall : s.all = s.results := by
    rw [Session.all, Session.current, hphase]
    exact List.append_nil _
  have hbooks := h.books (by rw [hphase]; exact Phase.noConfusion)
  have hstep : task.steps[s.results.length]? = some step := by
    rw [← List.head?_drop, ← hall, ← hbooks.todo, htodo]
    rfl
  rw [hall] at hbooks
  have hsame : SameLine store s { s with todo := rest, localSeq := next } := same_next s rest next
  rw [Session.beginStep]
  cases hsends : step.sends with
  | false =>
      exact h.enter hphase hsame rfl htodo rfl rfl rfl (x := none) hsends.symm (List.append_nil _).symm
  | true =>
      cases Session.build task { s with todo := rest, localSeq := next } step with
      | error e =>
          refine h.close hgoing hsame rfl
            (hbooks.start htodo rfl rfl rfl rfl rfl rfl (List.append_nil _).symm) hstep ?_
          exact ⟨rfl, rfl, (Bool.and_false _).symm, fun b hb => absurd hb List.not_mem_nil, hsends⟩
      | ok raw =>
          have hsent := framesOf_append .step s.sent [(Origin.step, raw)]
          have hsame' := hsame.trans (same_send _ raw)
          cases sendOk with
          | true => exact h.enter hphase hsame' rfl htodo rfl rfl rfl (x := some raw) hsends.symm hsent
          | false =>
              refine h.close hgoing hsame' rfl
                (hbooks.start htodo rfl rfl rfl rfl rfl rfl hsent) hstep ?_
              refine ⟨rfl, rfl, ?_, fun b hb => absurd hb List.not_mem_nil, hsends⟩
              rw [hsends]
              rfl

/-- What the phase of a step that waits says of its result. -/
theorem Ledger.open_result (h : Ledger store auto task early past s)
    (hphase : s.phase = .waiting step wait r) :
    s.phase ≠ .done ∧ Books task (s.results ++ [r]) s ∧
      task.responderAt r.index = task.responderFor step := by
  have hall : s.all = s.results ++ [r] := by
    rw [Session.all, Session.current, hphase]
  have hbooks := h.books (by rw [hphase]; exact Phase.noConfusion)
  rw [hall] at hbooks
  refine ⟨by rw [hphase]; exact Phase.noConfusion, hbooks, ?_⟩
  rw [Task.responderAt, hbooks.last_index, (h.waiting step wait r hphase).1]
  rfl

theorem Ledger.take (h : Ledger store auto task early past s)
    (hphase : s.phase = .waiting step wait r) (hwait : ∀ want, wait ≠ .past want) {frame : Bytes}
    {rest : List Bytes} (hqueue : s.queue = frame :: rest) (now : Clock) :
    Ledger store auto task early past
      ({ s with queue := rest, consumed := s.consumed ++ [frame] }.take store task step wait r now
        frame) := by
  obtain ⟨hgoing, hbooks, hresponder⟩ := h.open_result hphase
  obtain ⟨hstep, hopen⟩ := h.waiting step wait r hphase
  have hseen : frame ∈ past ++ s.received := by
    rw [h.conserved.received, hqueue]
    simp
  have hsame : SameLine store s { s with queue := rest, consumed := s.consumed ++ [frame] } :=
    same_pop hqueue
  have hreplySame : SameLine store s
      (Session.autoReply store task { s with queue := rest, consumed := s.consumed ++ [frame] } step now
        frame) := hsame.trans (same_autoReply _ step now frame)
  have hexamined : r.examined = r.bystanders.map Bystander.frame := by
    rw [StepResult.examined, hopen.reason]
    exact List.append_nil _
  have hreplied : r.replied = r.bystanders.map Bystander.frame := by
    rw [StepResult.replied, hopen.reason]
    exact List.append_nil _
  -- the books after the reply, whatever the frame decides
  have htaken : ∀ r' : StepResult, r'.index = r.index → r'.sent = r.sent →
      r'.examined = r.bystanders.map Bystander.frame ++ [frame] →
      r'.replied = r.bystanders.map Bystander.frame ++ [frame] → Books task (s.results ++ [r'])
        (Session.autoReply store task { s with queue := rest, consumed := s.consumed ++ [frame] } step
          now frame) := by
    intro r' hi hs he hr
    refine hbooks.amend [frame] [frame] hi hs (by rw [he, hexamined]) (by rw [hr, hreplied]) rfl rfl
      ?_ ?_
    · rw [Session.autoReply, framesOf_append, framesOf_reply]
      exact List.append_nil _
    · rw [Session.autoReply, List.map_append, List.map_singleton, List.map_singleton, hresponder]
  cases wait with
  | nothing => exact absurd rfl hopen.waits
  | past want => exact absurd rfl (hwait want)
  | silence =>
      refine h.close hgoing hsame rfl
        (hbooks.amend [frame] [] rfl rfl ?_ ?_ rfl rfl rfl (List.append_nil _).symm) hstep ?_
      · rw [hexamined]
        rfl
      · rw [hreplied]
        rfl
      · exact ⟨hopen.name, hopen.passed, hopen.sent.trans (Bool.and_true _).symm, hopen.leftAside,
          hopen.own, frame, hseen, rfl⟩
  | anyFrame =>
      refine h.close hgoing hreplySame rfl (htaken _ rfl rfl rfl rfl) hstep ?_
      exact ⟨hopen.name, rfl, hopen.sent.trans (Bool.and_true _).symm, hopen.leftAside, hopen.own,
        frame, hseen, rfl⟩
  | answer want =>
      rw [Session.take]
      cases hjudge : judge store want frame with
      | error e => exact h.raise hgoing hreplySame rfl
      | ok out =>
          obtain ⟨verdict, decoded⟩ := out
          cases verdict with
          | matched =>
              refine h.close hgoing hreplySame rfl (htaken _ rfl rfl rfl rfl) hstep ?_
              refine ⟨hopen.name, rfl, hopen.sent.trans (Bool.and_true _).symm, hopen.leftAside,
                want, hopen.own, frame, hseen, rfl, ?_⟩
              rcases judge_spec hjudge with ⟨-, hanswers⟩ | ⟨code, hcode, -⟩ | ⟨hcode, -⟩
              · exact hanswers
              · cases hcode
              · cases hcode
          | denied code =>
              refine h.close hgoing hreplySame rfl (htaken _ rfl rfl rfl rfl) hstep ?_
              refine ⟨hopen.name, hopen.passed, hopen.sent.trans (Bool.and_true _).symm,
                hopen.leftAside, want, hopen.own, frame, hseen, rfl, ?_⟩
              rcases judge_spec hjudge with ⟨hcode, -⟩ | ⟨code', hcode, hrefuses⟩ | ⟨hcode, -⟩
              · cases hcode
              · obtain rfl := Verdict.denied.inj hcode
                exact hrefuses
              · cases hcode
          | bystander =>
              refine h.stay hgoing hreplySame rfl (htaken _ rfl rfl ?_ ?_) hstep ?_
              · rw [StepResult.examined, hopen.reason, List.map_append]
                exact List.append_nil _
              · rw [StepResult.replied, hopen.reason, List.map_append]
                exact List.append_nil _
              · refine ⟨hopen.own, hopen.waits, hopen.name, hopen.passed, hopen.reason, hopen.sent, ?_⟩
                intro b hb
                rcases List.mem_append.mp hb with hold | hnew
                · exact hopen.leftAside b hold
                · obtain rfl := List.mem_singleton.mp hnew
                  refine ⟨hseen, want, hopen.own, ?_⟩
                  rcases judge_spec hjudge with ⟨hcode, -⟩ | ⟨code, hcode, -⟩ | ⟨-, hleaves⟩
                  · cases hcode
                  · cases hcode
                  · exact hleaves

theorem Ledger.scan {want : Option Params} (h : Ledger store auto task early past s)
    (hphase : s.phase = .waiting step (.past want) r) (now : Clock) :
    Ledger store auto task early past (s.scan store task step want r now) := by
  obtain ⟨hgoing, hbooks, hresponder⟩ := h.open_result hphase
  obtain ⟨hstep, hopen⟩ := h.waiting _ _ _ hphase
  rw [Session.scan]
  cases hfound : firstPast store want s.history with
  | error e => exact h.raise hgoing (.refl s) rfl
  | ok found =>
      cases found with
      | none => exact h
      | some found =>
          obtain ⟨frame, decoded⟩ := found
          obtain ⟨hmem, hfits⟩ := firstPast_some hfound
          refine h.close hgoing (same_autoReply s step now frame) rfl
            (hbooks.amend [] [frame] rfl rfl ?_ ?_ rfl (List.append_nil _).symm ?_ ?_) hstep ?_
          · rw [StepResult.examined, StepResult.examined, hopen.reason]
            exact (List.append_nil _).symm
          · rw [StepResult.replied, StepResult.replied, hopen.reason]
            exact congrArg (· ++ [frame]) (List.append_nil _).symm
          · rw [Session.autoReply, framesOf_append, framesOf_reply]
            exact List.append_nil _
          · rw [Session.autoReply, List.map_append, List.map_singleton, List.map_singleton, hresponder]
          · exact ⟨hopen.name, rfl, hopen.sent.trans (Bool.and_true _).symm, hopen.leftAside, want,
              hopen.own, frame, h.conserved.history frame hmem, rfl, hfits⟩

/-- The time of a step is over. -/
theorem Ledger.expire (h : Ledger store auto task early past s)
    (hphase : s.phase = .waiting step wait r) (hexpire : s.expireStep task wait r = some s') :
    Ledger store auto task early past s' := by
  obtain ⟨hgoing, hbooks, -⟩ := h.open_result hphase
  obtain ⟨hstep, hopen⟩ := h.waiting step wait r hphase
  have hend : ∀ (passed : Bool) (reason : Reason), passed = reason.passes → reason.consumes = false →
      reason.replies = false → reason ≠ .buildFailed →
      (∀ r' : StepResult, Grounds store (past ++ s.received) step r' reason) →
      Ledger store auto task early past
        (s.finish task { r with passed := passed, reason := reason }) := by
    intro passed reason hpassed hconsumes hreplies hbuilt hgrounds
    refine h.close hgoing (.refl s) rfl
      (hbooks.amend [] [] rfl rfl ?_ ?_ rfl (List.append_nil _).symm rfl (List.append_nil _).symm) hstep
      ⟨hopen.name, hpassed, ?_, hopen.leftAside, hgrounds _⟩
    · rw [StepResult.examined, StepResult.examined, hopen.reason, hconsumes]
      exact (List.append_nil _).symm
    · rw [StepResult.replied, StepResult.replied, hopen.reason, hreplies]
      exact (List.append_nil _).symm
    · rw [decide_eq_true hbuilt, Bool.and_true]
      exact hopen.sent
  cases wait with
  | nothing => cases hexpire
  | silence =>
      obtain ⟨-, hs'⟩ := Option.ite_none_right_eq_some.mp hexpire
      obtain rfl := Option.some.inj hs'
      exact hend true .silent rfl rfl rfl Reason.noConfusion fun _ => hopen.own
  | anyFrame =>
      obtain ⟨-, hs'⟩ := Option.ite_none_right_eq_some.mp hexpire
      obtain rfl := Option.some.inj hs'
      exact hend r.passed .waitTimeout hopen.passed rfl rfl Reason.noConfusion fun _ => hopen.own
  | past want =>
      obtain rfl := Option.some.inj hexpire
      exact hend r.passed .pastTimeout hopen.passed rfl rfl Reason.noConfusion
        fun _ => ⟨want, hopen.own⟩
  | answer want =>
      obtain rfl := Option.some.inj hexpire
      exact hend r.passed .timeout hopen.passed rfl rfl Reason.noConfusion fun _ => ⟨want, hopen.own⟩

theorem Ledger.move {event : Event} (h : Ledger store auto task early past s)
    (hmove : Move store auto task s event s') : Ledger store auto task early past s' := by
  cases hmove with
  | arrive hpending => exact h.arrive hpending
  | forward hpending => exact h.forward hpending
  | begin hphase htodo => exact h.begin hphase htodo _ _
  | take hphase hwait hqueue => exact h.take hphase hwait hqueue _
  | scan hphase => exact h.scan hphase _
  | expire hphase hexpire => exact h.expire hphase hexpire

theorem ledger_run {events : List Event}
    (h : (session store auto task).run (startSession task early past) events = some s) :
    Ledger store auto task early past s := by
  refine (Machine.reachable_of_run h).invariant (P := Ledger store auto task early past) ledger_start ?_
  intro t event t' _ ht _ hstep
  exact ht.move (move_of_step hstep)

end Ledger

end HplcWorkbench.VerifyTask
