import HplcWorkbench.JobOperations

/-!
# Jobs and operations agree

A thread holds the operation that it drives and knows what it may still create. As long as a job has
one thread, nothing cancels the parent over its head, and nothing is left before it has ended, the
parent ends when everything below it has ended, and after that nothing is created.
-/

namespace HplcWorkbench.Jobs
open Transitions OperationStore

/-! ## What agrees -/

/-- The parent of an ended job has only ended operations below it and gets no more; a job whose
threads and operations have ended is ended. -/
structure Agreed (job : Job) : Prop where
  settled : job.parent.Ended → ∀ child ∈ job.children, child.Ended
  closed : job.parent.Ended → ∀ e job', jobMachine.step job e = some job' →
    job'.children.length = job.children.length
  finished : (∀ child ∈ job.children, child.Ended) → (∀ thread ∈ job.threads, thread = .ended) →
    job.parent.Ended

/-- The operations below that a thread has in hand. -/
def Thread.held : Thread → List ℕ
  | observing observers => observers.filterMap Observer.child
  | acting _ c | acted _ c _ | monitoring c => [c]
  | queued _ | called _ | ended => []

/-- The thread may still create an operation. -/
def Thread.mayCreate : Thread → Bool
  | queued sources => .log ∈ sources
  | observing observers => .pending .log ∈ observers
  | called action => action.child.isSome
  | acting _ _ | acted _ _ _ | monitoring _ | ended => false

/-- Nothing below the parent goes on. -/
def Job.Quiet (job : Job) : Prop :=
  (∀ child ∈ job.children, child.Ended) ∧ ∀ thread ∈ job.threads, thread.mayCreate = false

def EndedAt (children : List Op) (k : ℕ) : Prop := ∃ child ∈ children[k]?, child.Ended

/-- The step does not take one of the branches that go wrong: a request is not repeated while its first
thread has yet to begin, the parent is not cancelled while something below it goes on, no thread gives
up or raises with an operation in hand that has not ended, an investigation is submitted, and a session
that was stopped does not run. -/
def Safe (job : Job) : JobEvent → Prop
  | .again => job.parent.state ≠ "created" ∨ job.request.thread.mayCreate = false
  | .thread _ .drop => job.parent.Ended
  | .thread t (.leave k) => ∀ observers c, job.threads[t]? = some (.observing observers) →
    observers[k]? = some (.driving c) → EndedAt job.children c
  | .thread t .raise => ∀ thread ∈ job.threads[t]?, ∀ k ∈ thread.held, EndedAt job.children k
  | .thread t (.reply state) => job.threads[t]? = some (.called .stop) → state ≠ .running
  | .cancelOperation none => job.Quiet
  | .cancelJob => job.parent.kind = .flashJob ∨ job.parent.kind = .verificationRun ∨
    job.parent.underlying ≠ none ∨ job.Quiet
  | .thread _ _ | .advance _ _ | .cancelOperation (some _) => True

/-! ## Operations -/

section Ops
variable {o : Op} {state : String} {result : Option (Option ℕ)}

theorem Op.setState_of_ended (h : o.Ended) : o.setState state result = o := if_pos h

theorem Op.setState_ended_iff : (o.setState state result).Ended ↔ o.Ended ∨ state ∈ terminalStates := by
  unfold Op.setState
  by_cases h : o.state ∈ terminalStates
  · rw [if_pos h]
    exact iff_of_true h (Or.inl h)
  · rw [if_neg h]
    exact (or_iff_right h).symm

theorem Op.setState_kind : (o.setState state result).kind = o.kind := by
  unfold Op.setState
  split <;> rfl

/-- Only an observation is stopped with its source. -/
def Op.Fits (o : Op) : Prop :=
  o.kind = .observation ∨ o.state ∈ ["created", "waiting", "succeeded", "error", "cancelled"]

theorem Op.Fits.setState (h : o.Fits)
    (hstate : o.kind = .observation ∨ state ∈ ["created", "waiting", "succeeded", "error", "cancelled"]) :
    (o.setState state result).Fits := by
  rcases hstate with hkind | hstate
  · exact Or.inl (Op.setState_kind.trans hkind)
  · unfold Op.setState
    by_cases hended : o.state ∈ terminalStates
    · rw [if_pos hended]
      exact h
    · rw [if_neg hended]
      exact Or.inr hstate

/-- The parent of a write job ends with an operation that ended. -/
theorem Op.Fits.parentState_ended (h : o.Fits) (hkind : o.kind ≠ .observation) (hended : o.Ended) :
    parentState o.state ∈ terminalStates := by
  have hstate := h.resolve_left hkind
  unfold Op.Ended at hended
  generalize o.state = state at hstate hended
  simp only [List.mem_cons, List.not_mem_nil, or_false] at hstate
  rcases hstate with rfl | rfl | rfl | rfl | rfl
  · exact absurd hended (by decide)
  · exact absurd hended (by decide)
  · decide
  · decide
  · decide

end Ops

/-! ## The invariant -/

/-- The operation that a thread of a write job holds is there, and is none that a source stops. -/
def Thread.Fits (children : List Op) : Thread → Prop
  | acting _ c | monitoring c => ∃ child ∈ children[c]?, child.kind ≠ .observation
  | acted action c state => (∃ child ∈ children[c]?, child.kind ≠ .observation ∧
      (state ∈ terminalStates → child.state = state)) ∧ (action = .send → state ∈ terminalStates)
  | queued _ | observing _ | called _ | ended => True

structure Inv (job : Job) : Prop where
  begun : job.threads ≠ []
  held : ∀ k, ∀ child ∈ job.children[k]?, child.Ended ∨ ∃ thread ∈ job.threads, k ∈ thread.held
  quiet : job.parent.Ended → job.Quiet
  ended : Thread.ended ∈ job.threads → job.parent.Ended
  alone : job.threads.length = 1 ∨ job.request.thread.mayCreate = false
  barren : job.request.thread.mayCreate = false → job.children = [] ∧
    ∀ thread ∈ job.threads, thread.mayCreate = false ∧ thread.held = []
  fits : ∀ thread ∈ job.threads, thread.Fits job.children
  states : ∀ child ∈ job.children, child.Fits

theorem Inv.start {r : JobRequest} {job : Job} (h : r.start = some job) : Inv job := by
  have hjob : job = ⟨r, .new r.kind, [r.thread], []⟩ := by
    cases r with
    | investigate sources =>
      unfold JobRequest.start at h
      dsimp only at h
      split_ifs at h
      exact (Option.some.inj h).symm
    | act action => exact (Option.some.inj h).symm
  subst hjob
  have hnew : ¬ (Op.new r.kind).Ended := show "created" ∉ terminalStates by decide
  have hheld : r.thread.held = [] := by cases r <;> rfl
  have hthread : r.thread ≠ .ended := by cases r <;> exact fun h => by cases h
  refine ⟨List.cons_ne_nil _ _, fun k child hk => ?_, fun h => absurd h hnew, fun h => ?_, Or.inl rfl, fun h => ?_,
    fun thread hmem => ?_, fun child hmem => absurd hmem List.not_mem_nil⟩
  · cases hk
  · exact absurd (List.mem_singleton.mp h).symm hthread
  · refine ⟨rfl, fun thread hmem => ?_⟩
    rw [List.mem_singleton.mp hmem]
    exact ⟨h, hheld⟩
  · rw [List.mem_singleton.mp hmem]
    cases r <;> trivial

section Keep
variable {job : Job} {t : ℕ} {thread thread' : Thread} {parent' : Op}

/-- A thread that has nothing in hand that goes on may end the job. -/
theorem Inv.close (h : Inv job) (hthread : job.threads[t]? = some thread)
    (hheld : ∀ k ∈ thread.held, EndedAt job.children k) (hparent : parent'.Ended) :
    Inv { job with threads := job.threads.set t .ended, parent := parent' } := by
  have hmem := List.mem_of_getElem? hthread
  obtain ⟨hin, -⟩ := List.getElem?_eq_some_iff.mp hthread
  have hquiet : (∀ child ∈ job.children, child.Ended) ∧
      ∀ thread' ∈ job.threads.set t .ended, thread'.mayCreate = false := by
    rcases h.alone with hone | hbarren
    · obtain ⟨only, honly⟩ := List.length_eq_one_iff.mp hone
      obtain rfl : t = 0 := by omega
      rw [honly] at hthread hmem ⊢
      obtain rfl := List.mem_singleton.mp hmem
      refine ⟨fun child hchild => ?_, fun thread' hthread' => ?_⟩
      · obtain ⟨k, hk⟩ := List.mem_iff_getElem?.mp hchild
        rcases h.held k child hk with hended | ⟨other, hother, hkother⟩
        · exact hended
        · rw [honly] at hother
          obtain rfl := List.mem_singleton.mp hother
          obtain ⟨child', hchild', hended⟩ := hheld k hkother
          rw [Option.mem_def, hk] at hchild'
          exact Option.some.inj hchild' ▸ hended
      · rw [List.set_cons_zero] at hthread'
        rw [List.mem_singleton.mp hthread']
        rfl
    · obtain ⟨hnone, hall⟩ := h.barren hbarren
      refine ⟨fun child hchild => ?_, fun thread' hthread' => ?_⟩
      · rw [hnone] at hchild
        cases hchild
      · rcases List.mem_or_eq_of_mem_set hthread' with hold | rfl
        · exact (hall thread' hold).1
        · rfl
  refine ⟨?_, fun k child hk => Or.inl (hquiet.1 child (List.mem_of_getElem? hk)), fun _ => hquiet,
    fun _ => hparent, ?_, fun hbarren => ?_, fun thread' hthread' => ?_, h.states⟩
  · exact mt (List.set_eq_nil_iff t _).mp h.begun
  · rw [List.length_set]
    exact h.alone
  · obtain ⟨hnone, hall⟩ := h.barren hbarren
    refine ⟨hnone, fun thread' hthread' => ?_⟩
    rcases List.mem_or_eq_of_mem_set hthread' with hold | rfl
    · exact hall thread' hold
    · exact ⟨rfl, rfl⟩
  · rcases List.mem_or_eq_of_mem_set hthread' with hold | rfl
    · exact h.fits thread' hold
    · trivial

/-- A thread that goes on creates nothing and loses nothing that goes on. -/
theorem Inv.keep (h : Inv job) (hthread : job.threads[t]? = some thread)
    (hheld : ∀ k ∈ thread.held, k ∈ thread'.held ∨ EndedAt job.children k)
    (hless : thread'.held ⊆ thread.held) (hcreate : thread'.mayCreate = true → thread.mayCreate = true)
    (hnot : thread' ≠ .ended) (hfits : thread'.Fits job.children)
    (hparent : parent'.Ended ↔ job.parent.Ended) :
    Inv { job with threads := job.threads.set t thread', parent := parent' } := by
  have hmem := List.mem_of_getElem? hthread
  obtain ⟨hin, hget⟩ := List.getElem?_eq_some_iff.mp hthread
  have hpossible : thread.mayCreate = false → thread'.mayCreate = false := by
    intro hfalse
    by_contra htrue
    rw [hcreate (Bool.not_eq_false _ ▸ htrue)] at hfalse
    cases hfalse
  refine ⟨mt (List.set_eq_nil_iff t _).mp h.begun, fun k child hk => ?_, fun hended => ?_, fun hended => ?_, ?_,
    fun hbarren => ?_, fun other hother => ?_, h.states⟩
  · rcases h.held k child hk with hended | ⟨other, hother, hkother⟩
    · exact Or.inl hended
    · obtain ⟨i, hi⟩ := List.mem_iff_getElem?.mp hother
      by_cases hit : i = t
      · subst hit
        obtain rfl := Option.some.inj (hi.symm.trans hthread)
        rcases hheld k hkother with hkeep | ⟨child', hchild', hended⟩
        · exact Or.inr ⟨thread', List.mem_set hin thread', hkeep⟩
        · rw [Option.mem_def, Option.mem_def.mp hk] at hchild'
          exact Or.inl (Option.some.inj hchild' ▸ hended)
      · refine Or.inr ⟨other, List.mem_of_getElem? (i := i) ?_, hkother⟩
        rw [List.getElem?_set_ne (Ne.symm hit)]
        exact hi
  · obtain ⟨hchildren, hthreads⟩ := h.quiet (hparent.mp hended)
    refine ⟨hchildren, fun other hother => ?_⟩
    rcases List.mem_or_eq_of_mem_set hother with hold | rfl
    · exact hthreads other hold
    · exact hpossible (hthreads thread hmem)
  · rcases List.mem_or_eq_of_mem_set hended with hold | heq
    · exact hparent.mpr (h.ended hold)
    · exact absurd heq.symm hnot
  · rw [List.length_set]
    exact h.alone
  · obtain ⟨hnone, hall⟩ := h.barren hbarren
    refine ⟨hnone, fun other hother => ?_⟩
    rcases List.mem_or_eq_of_mem_set hother with hold | rfl
    · exact hall other hold
    · obtain ⟨hfalse, hnil⟩ := hall thread hmem
      rw [hnil] at hless
      exact ⟨hpossible hfalse, List.subset_nil.mp hless⟩
  · rcases List.mem_or_eq_of_mem_set hother with hold | rfl
    · exact h.fits other hold
    · exact hfits

/-- A thread creates an operation and takes it in hand. -/
theorem Inv.create (h : Inv job) {kind : OpKind} (hthread : job.threads[t]? = some thread)
    (hmay : thread.mayCreate = true)
    (hheld : ∀ k, k ∈ thread.held ∨ k = job.children.length → k ∈ thread'.held)
    (hnot : thread' ≠ .ended) (hfits : thread'.Fits (job.children ++ [.new kind])) :
    Inv { job with threads := job.threads.set t thread', children := job.children ++ [.new kind] } := by
  have hmem := List.mem_of_getElem? hthread
  obtain ⟨hin, hget⟩ := List.getElem?_eq_some_iff.mp hthread
  have hfertile : job.request.thread.mayCreate ≠ false := by
    intro hbarren
    rw [((h.barren hbarren).2 thread hmem).1] at hmay
    cases hmay
  have hopen : ¬ job.parent.Ended := by
    intro hended
    rw [(h.quiet hended).2 thread hmem] at hmay
    cases hmay
  have hone := h.alone.resolve_right hfertile
  obtain ⟨only, honly⟩ := List.length_eq_one_iff.mp hone
  obtain rfl : t = 0 := by omega
  rw [honly] at hmem
  obtain rfl := List.mem_singleton.mp hmem
  have hset : job.threads.set 0 thread' = [thread'] := by rw [honly, List.set_cons_zero]
  rw [hset]
  refine ⟨List.cons_ne_nil _ _, fun k child hk => ?_, fun hended => absurd hended hopen,
    fun hended => absurd (List.mem_singleton.mp hended).symm hnot, Or.inl rfl,
    fun hbarren => absurd hbarren hfertile, fun other hother => ?_, fun child hchild => ?_⟩
  · have hlast : k ≤ job.children.length := by
      obtain ⟨hk, -⟩ := List.getElem?_eq_some_iff.mp hk
      rw [List.length_append] at hk
      exact Nat.le_of_lt_succ hk
    rcases Nat.lt_or_eq_of_le hlast with hlt | rfl
    · rw [Option.mem_def, List.getElem?_append_left hlt] at hk
      rcases h.held k child hk with hended | ⟨other, hother, hkother⟩
      · exact Or.inl hended
      · rw [honly] at hother
        obtain rfl := List.mem_singleton.mp hother
        exact Or.inr ⟨thread', List.mem_singleton_self _, hheld k (Or.inl hkother)⟩
    · exact Or.inr ⟨thread', List.mem_singleton_self _, hheld _ (Or.inr rfl)⟩
  · rw [List.mem_singleton.mp hother]
    exact hfits
  · rcases List.mem_append.mp hchild with hold | hnew
    · exact h.states child hold
    · rw [List.mem_singleton.mp hnew]
      exact Or.inr List.mem_cons_self

/-- What a thread holds stays there when an operation below changes its state. -/
theorem Thread.Fits.set {children : List Op} {k : ℕ} {child child' : Op} (h : thread.Fits children)
    (hchild : children[k]? = some child) (hkind : child'.kind = child.kind)
    (hended : child.Ended → child' = child) : thread.Fits (children.set k child') := by
  obtain ⟨hin, -⟩ := List.getElem?_eq_some_iff.mp hchild
  have hstays : ∀ (c : ℕ) (other : Op), children[c]? = some other →
      ∃ other' : Op, (children.set k child')[c]? = some other' ∧ other'.kind = other.kind ∧
        (other.Ended → other' = other) := by
    intro c other hother
    by_cases hc : k = c
    · subst hc
      obtain rfl := Option.some.inj (hchild.symm.trans hother)
      exact ⟨child', List.getElem?_set_self hin, hkind, hended⟩
    · exact ⟨other, (List.getElem?_set_ne hc).trans hother, rfl, fun _ => rfl⟩
  cases thread with
  | queued sources => trivial
  | observing observers => trivial
  | called action => trivial
  | ended => trivial
  | acting action c =>
    obtain ⟨other, hother, hkind⟩ := h
    obtain ⟨other', hother', hsame, -⟩ := hstays c other hother
    exact ⟨other', hother', hsame ▸ hkind⟩
  | monitoring c =>
    obtain ⟨other, hother, hkind⟩ := h
    obtain ⟨other', hother', hsame, -⟩ := hstays c other hother
    exact ⟨other', hother', hsame ▸ hkind⟩
  | acted action c state =>
    obtain ⟨⟨other, hother, hkind, hstate⟩, hsend⟩ := h
    obtain ⟨other', hother', hsame, hold⟩ := hstays c other hother
    refine ⟨⟨other', hother', hsame ▸ hkind, fun hterminal => ?_⟩, hsend⟩
    have hother : other.Ended := by
      rw [Op.Ended, hstate hterminal]
      exact hterminal
    rw [hold hother]
    exact hstate hterminal

/-- An operation below changes its state. -/
theorem Inv.child (h : Inv job) {k : ℕ} {child : Op} (hchild : job.children[k]? = some child)
    {state : String} {result : Option (Option ℕ)}
    (hstate : child.kind = .observation ∨ state ∈ ["created", "waiting", "succeeded", "error", "cancelled"]) :
    Inv { job with children := job.children.set k (child.setState state result) } := by
  obtain ⟨hin, -⟩ := List.getElem?_eq_some_iff.mp hchild
  have hmem := List.mem_of_getElem? hchild
  have hended : child.Ended → child.setState state result = child := Op.setState_of_ended
  refine ⟨h.begun, fun c other hother => ?_, fun hparent => ⟨fun other hother => ?_, (h.quiet hparent).2⟩,
    h.ended, h.alone, fun hbarren => ?_, fun thread hthread => ?_, fun other hother => ?_⟩
  · by_cases hc : k = c
    · subst hc
      rw [Option.mem_def, List.getElem?_set_self hin] at hother
      obtain rfl := Option.some.inj hother
      exact (h.held k child hchild).imp (fun hdone => (hended hdone).symm ▸ hdone) id
    · rw [Option.mem_def, List.getElem?_set_ne hc] at hother
      exact h.held c other hother
  · rcases List.mem_or_eq_of_mem_set hother with hold | rfl
    · exact (h.quiet hparent).1 other hold
    · exact Op.setState_ended_iff.mpr (Or.inl ((h.quiet hparent).1 child hmem))
  · rw [(h.barren hbarren).1] at hmem
    cases hmem
  · exact (h.fits thread hthread).set hchild Op.setState_kind hended
  · rcases List.mem_or_eq_of_mem_set hother with hold | rfl
    · exact h.states other hold
    · exact (h.states child hmem).setState hstate

theorem Inv.cancelParent (h : Inv job) (hquiet : job.Quiet) : Inv job.cancelParent := by
  have hended : job.cancelParent.parent.Ended := Op.setState_ended_iff.mpr (Or.inr (by decide))
  exact ⟨h.begun, h.held, fun _ => hquiet, fun _ => hended, h.alone, h.barren, h.fits, h.states⟩

theorem Inv.cancelChild (h : Inv job) (k : ℕ) : Inv (job.cancelChild k) := by
  unfold Job.cancelChild
  cases hchild : job.children[k]? with
  | none => exact h
  | some child =>
    dsimp only
    split_ifs
    · exact h
    · exact h.child hchild (Or.inr (by decide))

end Keep

/-! ## Steps -/

section Observers
variable {observers : List Observer} {k c : ℕ}

theorem mem_held_observing : c ∈ (Thread.observing observers).held ↔ .driving c ∈ observers := by
  unfold Thread.held
  rw [List.mem_filterMap]
  constructor
  · rintro ⟨o, ho, hchild⟩
    cases o with
    | pending source => cases hchild
    | done => cases hchild
    | driving c' => exact Option.some.inj hchild ▸ ho
  · exact fun h => ⟨.driving c, h, rfl⟩

theorem mem_set_of_ne {o o' o'' : Observer} (ho : observers[k]? = some o') (hmem : o ∈ observers)
    (hne : o ≠ o') : o ∈ observers.set k o'' := by
  obtain ⟨i, hi⟩ := List.mem_iff_getElem?.mp hmem
  have hik : k ≠ i := by
    rintro rfl
    exact hne (Option.some.inj (hi.symm.trans ho))
  refine List.mem_of_getElem? (i := i) ?_
  rw [List.getElem?_set_ne hik]
  exact hi

end Observers

/-- The parts of what a step of a thread returns. -/
theorem turn_inj {r r' : Thread × Op × List Op} (h : some r = some r') :
    r.1 = r'.1 ∧ r.2.1 = r'.2.1 ∧ r.2.2 = r'.2.2 := by
  obtain rfl := Option.some.inj h
  exact ⟨rfl, rfl, rfl⟩

section Steps
variable {job : Job} {t : ℕ}

/-- A worker that is done has created nothing, or what it created has ended. -/
theorem Inv.worker (h : Inv job) {observers : List Observer} {k : ℕ} {o : Observer}
    (hthread : job.threads[t]? = some (.observing observers)) (ho : observers[k]? = some o)
    (hleft : ∀ c, o = .driving c → EndedAt job.children c) :
    Inv { job with threads := job.threads.set t (.observing (observers.set k .done)) } := by
  refine @Inv.keep job t _ (.observing (observers.set k .done)) job.parent h hthread ?_ ?_ ?_ nofun
    trivial Iff.rfl
  · intro c hc
    rw [mem_held_observing] at hc ⊢
    by_cases heq : o = .driving c
    · exact Or.inr (hleft c heq)
    · exact Or.inl (mem_set_of_ne ho hc (Ne.symm heq))
  · intro c hc
    rw [mem_held_observing] at hc ⊢
    rcases List.mem_or_eq_of_mem_set hc with hold | hdone
    · exact hold
    · cases hdone
  · intro hmay
    rcases List.mem_or_eq_of_mem_set (of_decide_eq_true hmay) with hold | hdone
    · exact decide_eq_true hold
    · cases hdone

theorem Inv.observe (h : Inv job) {observers : List Observer} {k : ℕ}
    (hthread : job.threads[t]? = some (.observing observers))
    (ho : observers[k]? = some (.pending .log)) :
    Inv { job with
      threads := job.threads.set t (.observing (observers.set k (.driving job.children.length)))
      children := job.children ++ [.new .observation] } := by
  obtain ⟨hin, -⟩ := List.getElem?_eq_some_iff.mp ho
  refine h.create hthread (decide_eq_true (List.mem_of_getElem? ho)) ?_ nofun trivial
  rintro c (hc | rfl)
  · rw [mem_held_observing] at hc ⊢
    exact mem_set_of_ne ho hc nofun
  · rw [mem_held_observing]
    exact List.mem_set hin _

/-- The control service acts and records how it went. -/
theorem Inv.act (h : Inv job) {action : Action} {c : ℕ} {state : String} {child : Op}
    (hthread : job.threads[t]? = some (.acting action c)) (hchild : job.children[c]? = some child)
    (hrecords : state ∈ action.records) :
    Inv { job with
      threads := job.threads.set t (.acted action c (child.setState state none).state)
      children := job.children.set c (child.setState state none) } := by
  have hstate : state ∈ ["created", "waiting", "succeeded", "error", "cancelled"] := by
    cases action <;> simp only [Action.records, List.mem_cons, List.not_mem_nil, or_false] at hrecords <;>
      rcases hrecords with rfl | rfl | rfl <;> decide
  have hfits := h.fits _ (List.mem_of_getElem? hthread)
  obtain ⟨child', hchild', hkind⟩ := hfits
  obtain rfl := Option.some.inj (hchild.symm.trans hchild')
  obtain ⟨hin, -⟩ := List.getElem?_eq_some_iff.mp hchild
  have hnext := @Inv.child job h c child hchild state none (Or.inr hstate)
  refine @Inv.keep _ t _ _ job.parent hnext hthread (fun k hk => Or.inl hk) (fun k hk => hk) ?_ ?_
    ⟨⟨_, List.getElem?_set_self hin, ?_, fun _ => rfl⟩, ?_⟩ Iff.rfl
  · intro hcreate
    cases hcreate
  · intro hended
    cases hended
  · rwa [Op.setState_kind]
  · rintro rfl
    refine Op.setState_ended_iff.mpr (Or.inr ?_)
    simp only [Action.records, List.mem_cons, List.not_mem_nil, or_false] at hrecords
    rcases hrecords with rfl | rfl <;> decide

/-- A write job is finished with an operation that has ended. -/
theorem Inv.finish (h : Inv job) {thread : Thread} {c : ℕ} {child : Op}
    (hthread : job.threads[t]? = some thread) (hheld : thread.held = [c])
    (hchild : job.children[c]? = some child) (hkind : child.kind ≠ .observation) (hended : child.Ended) :
    Inv { job with
      threads := job.threads.set t .ended
      parent := finishWriteJob job.parent child.state (some c) } := by
  refine h.close hthread (fun k hk => ?_) (Op.setState_ended_iff.mpr (Or.inr ?_))
  · rw [hheld] at hk
    exact List.mem_singleton.mp hk ▸ ⟨child, hchild, hended⟩
  · exact (h.states child (List.mem_of_getElem? hchild)).parentState_ended hkind hended

theorem Inv.record (h : Inv job) {action : Action} {c : ℕ} {state : String}
    (hthread : job.threads[t]? = some (.acted action c state)) {thread' : Thread} {parent' : Op}
    {children' : List Op} (hstep : Thread.step job.parent job.children (.acted action c state) .record =
      some (thread', parent', children')) :
    Inv { job with
      threads := job.threads.set t thread', parent := parent', children := children' } := by
  obtain ⟨⟨child, hchild, hkind, hstate⟩, hsend⟩ := h.fits _ (List.mem_of_getElem? hthread)
  rw [Thread.step] at hstep
  by_cases hfinish : action = .send ∨ action = .flash ∧ state ∈ terminalStates
  · rw [if_pos hfinish] at hstep
    obtain ⟨rfl, rfl, rfl⟩ := turn_inj hstep
    have hterminal : state ∈ terminalStates := hfinish.elim hsend And.right
    obtain rfl := hstate hterminal
    exact h.finish hthread rfl hchild hkind hterminal
  · rw [if_neg hfinish] at hstep
    obtain ⟨rfl, rfl, rfl⟩ := turn_inj hstep
    exact h.keep hthread (fun k hk => Or.inl hk) (fun k hk => hk) nofun nofun ⟨child, hchild, hkind⟩
      (Op.setState_ended_iff.trans (or_iff_left (by decide)))

theorem Inv.look (h : Inv job) {c : ℕ} (hthread : job.threads[t]? = some (.monitoring c))
    {thread' : Thread} {parent' : Op} {children' : List Op}
    (hstep : Thread.step job.parent job.children (.monitoring c) .look = some (thread', parent', children')) :
    Inv { job with
      threads := job.threads.set t thread', parent := parent', children := children' } := by
  obtain ⟨child, hchild, hkind⟩ := h.fits _ (List.mem_of_getElem? hthread)
  rw [Thread.step, Option.mem_def.mp hchild] at hstep
  dsimp only at hstep
  by_cases hended : child.state ∈ terminalStates
  · rw [if_pos hended] at hstep
    obtain ⟨rfl, rfl, rfl⟩ := turn_inj hstep
    exact h.finish hthread rfl hchild hkind hended
  · rw [if_neg hended] at hstep
    obtain ⟨rfl, rfl, rfl⟩ := turn_inj hstep
    exact h.keep hthread (fun k hk => Or.inl hk) (fun k hk => hk) id nofun ⟨child, hchild, hkind⟩ Iff.rfl

/-- A request that answers without an operation. -/
theorem Inv.reply (h : Inv job) {action : Action} {state : String}
    (hthread : job.threads[t]? = some (.called action)) (hstate : parentState state ∈ terminalStates) :
    Inv { job with
      threads := job.threads.set t .ended, parent := finishWriteJob job.parent state none } :=
  h.close hthread (fun _ hk => absurd hk List.not_mem_nil) (Op.setState_ended_iff.mpr (Or.inr hstate))

theorem Inv.begin (h : Inv job) {sources : List Source}
    (hthread : job.threads[t]? = some (.queued sources)) :
    Inv { job with
      threads := job.threads.set t (.observing (sources.map .pending))
      parent := job.parent.setState "running" none } := by
  refine h.keep hthread (fun k hk => absurd hk List.not_mem_nil) (fun k hk => ?_) (fun hmay => ?_) nofun
    trivial (Op.setState_ended_iff.trans (or_iff_left (by decide)))
  · obtain ⟨source, -, hsource⟩ := List.mem_map.mp (mem_held_observing.mp hk)
    cases hsource
  · obtain ⟨source, hmem, hsource⟩ := List.mem_map.mp (of_decide_eq_true hmay)
    exact decide_eq_true (Observer.pending.inj hsource ▸ hmem)

/-- A thread that raises has nothing in hand that goes on. -/
theorem Inv.raise (h : Inv job) {thread : Thread} (hthread : job.threads[t]? = some thread)
    (hheld : ∀ k ∈ thread.held, EndedAt job.children k) (result : Option (Option ℕ)) :
    Inv { job with
      threads := job.threads.set t .ended, parent := job.parent.setState "error" result } :=
  h.close hthread hheld (Op.setState_ended_iff.mpr (Or.inr (by decide)))

theorem Inv.thread (h : Inv job) {thread thread' : Thread} {e : ThreadEvent} {parent' : Op}
    {children' : List Op} (hsafe : Safe job (.thread t e)) (hthread : job.threads[t]? = some thread)
    (hstep : thread.step job.parent job.children e = some (thread', parent', children')) :
    Inv { job with
      threads := job.threads.set t thread', parent := parent', children := children' } := by
  have hnone : ∀ k ∈ ([] : List ℕ), EndedAt job.children k := fun k hk => absurd hk List.not_mem_nil
  unfold Thread.step at hstep
  split at hstep
  case h_1 sources =>
    obtain ⟨rfl, rfl, rfl⟩ := turn_inj hstep
    exact h.begin hthread
  case h_2 sources =>
    obtain ⟨rfl, rfl, rfl⟩ := turn_inj hstep
    exact h.close hthread hnone hsafe
  case h_3 sources =>
    obtain ⟨rfl, rfl, rfl⟩ := turn_inj hstep
    exact h.raise hthread hnone _
  case h_4 =>
    split at hstep
    · rename_i ho
      obtain ⟨rfl, rfl, rfl⟩ := turn_inj hstep
      exact h.observe hthread ho
    · cases hstep
  case h_5 =>
    split at hstep
    · rename_i source ho
      obtain ⟨rfl, rfl, rfl⟩ := turn_inj hstep
      exact h.worker hthread ho nofun
    · cases hstep
  case h_6 observers k =>
    split at hstep
    · rename_i c ho
      obtain ⟨rfl, rfl, rfl⟩ := turn_inj hstep
      refine h.worker hthread ho fun c' hc' => ?_
      obtain rfl := Observer.driving.inj hc'
      exact hsafe observers c hthread ho
    · cases hstep
  case h_7 observers =>
    split_ifs at hstep with hdone
    obtain ⟨rfl, rfl, rfl⟩ := turn_inj hstep
    refine h.close hthread (fun k hk => ?_) (Op.setState_ended_iff.mpr (Or.inr (by decide)))
    cases hdone _ (mem_held_observing.mp hk)
  case h_8 observers =>
    split_ifs at hstep with hleft
    obtain ⟨rfl, rfl, rfl⟩ := turn_inj hstep
    exact h.raise hthread (hsafe _ hthread) _
  case h_9 action =>
    obtain ⟨kind, hkind, hres⟩ := Option.map_eq_some_iff.mp hstep
    obtain ⟨rfl, rfl, rfl⟩ := turn_inj (congrArg some hres)
    refine h.create hthread (Option.isSome_iff_exists.mpr ⟨kind, hkind⟩) ?_ nofun ?_
    · rintro k (hk | rfl)
      · cases hk
      · exact List.mem_singleton_self _
    · refine ⟨.new kind, List.getElem?_concat_length, ?_⟩
      rintro rfl
      cases action <;> cases hkind
  case h_10 state =>
    obtain ⟨rfl, rfl, rfl⟩ := turn_inj hstep
    exact h.reply hthread (by decide)
  case h_11 state =>
    obtain ⟨rfl, rfl, rfl⟩ := turn_inj hstep
    refine h.reply hthread ?_
    cases state with
    | idle => decide
    | error => decide
    | running => exact absurd rfl (hsafe hthread)
  case h_12 action c state =>
    split at hstep
    · cases hstep
    · rename_i child hchild
      split_ifs at hstep with hrecords
      obtain ⟨rfl, rfl, rfl⟩ := turn_inj hstep
      exact h.act hthread hchild hrecords
  case h_13 action c state => exact h.record hthread hstep
  case h_14 c => exact h.look hthread hstep
  case h_19 => cases hstep
  all_goals
    obtain ⟨rfl, rfl, rfl⟩ := turn_inj hstep
    exact h.raise hthread (hsafe _ hthread) _

/-- A request that comes again finds a job that creates nothing, or has begun. -/
theorem Inv.again (h : Inv job) (hbarren : job.request.thread.mayCreate = false)
    (hcreated : job.parent.state = "created") :
    Inv { job with threads := job.threads ++ [job.request.thread] } := by
  obtain ⟨hnone, hall⟩ := h.barren hbarren
  have hopen : ¬ job.parent.Ended := by
    rw [Op.Ended, hcreated]
    decide
  have hthread : job.request.thread ≠ .ended := by cases job.request <;> exact nofun
  have hfresh : job.request.thread.held = [] := by cases job.request <;> rfl
  have hfits : job.request.thread.Fits job.children := by cases job.request <;> trivial
  refine ⟨List.append_ne_nil_of_left_ne_nil h.begun _, fun k child hk => ?_,
    fun hended => absurd hended hopen, fun hended => ?_, Or.inr hbarren, fun _ => ⟨hnone, ?_⟩, ?_, h.states⟩
  · rw [hnone] at hk
    cases hk
  · rcases List.mem_append.mp hended with hold | hnew
    · exact h.ended hold
    · exact absurd (List.mem_singleton.mp hnew).symm hthread
  · refine List.forall_mem_append.mpr ⟨hall, fun thread hmem => ?_⟩
    rw [List.mem_singleton.mp hmem]
    exact ⟨hbarren, hfresh⟩
  · refine List.forall_mem_append.mpr ⟨h.fits, fun thread hmem => ?_⟩
    rw [List.mem_singleton.mp hmem]
    exact hfits

theorem ownStates_fit {o : Op} {state : String} (h : state ∈ ownStates o) :
    o.kind = .observation ∨ state ∈ ["created", "waiting", "succeeded", "error", "cancelled"] := by
  have hends : ∀ {c : Prop} [Decidable c], state ∈ (if c then ["succeeded", "error"] else []) →
      state ∈ ["created", "waiting", "succeeded", "error", "cancelled"] := by
    intro c _ hmem
    split_ifs at hmem
    · rcases List.mem_pair.mp hmem with rfl | rfl <;> decide
    · cases hmem
  unfold ownStates at h
  cases hkind : o.kind <;> rw [hkind] at h
  case observation => exact Or.inl rfl
  case moduleFlash => exact Or.inr (hends h)
  case simconVerify => exact Or.inr (hends h)
  all_goals cases h

theorem Inv.step {job' : Job} {e : JobEvent} (h : Inv job) (hsafe : Safe job e)
    (hstep : jobMachine.step job e = some job') : Inv job' := by
  unfold jobMachine at hstep
  cases e with
  | again =>
    dsimp only at hstep
    split_ifs at hstep with hcreated
    · obtain rfl := Option.some.inj hstep
      exact h.again (hsafe.resolve_left (not_not.mpr hcreated)) hcreated
    · exact Option.some.inj hstep ▸ h
  | thread t e =>
    dsimp only at hstep
    cases hthread : job.threads[t]? with
    | none =>
      rw [hthread] at hstep
      cases hstep
    | some thread =>
      rw [hthread] at hstep
      obtain ⟨⟨thread', parent', children'⟩, hmoved, rfl⟩ := Option.map_eq_some_iff.mp hstep
      exact h.thread hsafe hthread hmoved
  | advance k state =>
    dsimp only at hstep
    cases hchild : job.children[k]? with
    | none =>
      rw [hchild] at hstep
      cases hstep
    | some child =>
      rw [hchild] at hstep
      dsimp only at hstep
      split_ifs at hstep with hown
      exact Option.some.inj hstep ▸ h.child hchild (ownStates_fit hown)
  | cancelOperation target =>
    cases target with
    | none => exact Option.some.inj hstep ▸ h.cancelParent hsafe
    | some k => exact Option.some.inj hstep ▸ h.cancelChild k
  | cancelJob =>
    dsimp only at hstep
    split_ifs at hstep with hkind
    · exact Option.some.inj hstep ▸ h
    · cases hunder : job.parent.underlying with
      | none =>
        rw [hunder] at hstep
        obtain ⟨hflash, hverify⟩ := not_or.mp hkind
        have hquiet := ((hsafe.resolve_left hflash).resolve_left hverify).resolve_left
          (not_not.mpr hunder)
        exact Option.some.inj hstep ▸ h.cancelParent hquiet
      | some k =>
        rw [hunder] at hstep
        exact Option.some.inj hstep ▸ h.cancelChild k

/-! ## After the end -/

theorem length_cancelChild (k : ℕ) : (job.cancelChild k).children.length = job.children.length := by
  unfold Job.cancelChild
  split
  · rfl
  · split_ifs
    · rfl
    · exact List.length_set

/-- A thread that may not create an operation creates none. -/
theorem Thread.length_of_step {parent parent' : Op} {children children' : List Op}
    {thread thread' : Thread} {e : ThreadEvent} (hmay : thread.mayCreate = false)
    (hstep : thread.step parent children e = some (thread', parent', children')) :
    children'.length = children.length := by
  unfold Thread.step at hstep
  split at hstep
  case h_4 observers k =>
    split at hstep
    · rename_i ho
      exact absurd (decide_eq_true (List.mem_of_getElem? ho)) (Bool.eq_false_iff.mp hmay)
    · cases hstep
  case h_9 action =>
    obtain ⟨kind, hkind, -⟩ := Option.map_eq_some_iff.mp hstep
    exact absurd (Option.isSome_iff_exists.mpr ⟨kind, hkind⟩) (Bool.eq_false_iff.mp hmay)
  case h_12 action c state =>
    split at hstep
    · cases hstep
    · split_ifs at hstep
      obtain rfl := (Prod.mk.inj (Prod.mk.inj (Option.some.inj hstep)).2).2
      exact List.length_set
  case h_19 => cases hstep
  all_goals
    repeat' split at hstep
    all_goals cases hstep <;> rfl

/-- Where nothing goes on below the parent, nothing begins. -/
theorem length_of_step {job' : Job} {e : JobEvent} (hquiet : job.Quiet)
    (hstep : jobMachine.step job e = some job') : job'.children.length = job.children.length := by
  unfold jobMachine at hstep
  cases e with
  | again =>
    dsimp only at hstep
    split_ifs at hstep
    · exact Option.some.inj hstep ▸ rfl
    · exact Option.some.inj hstep ▸ rfl
  | thread t e =>
    dsimp only at hstep
    cases hthread : job.threads[t]? with
    | none =>
      rw [hthread] at hstep
      cases hstep
    | some thread =>
      rw [hthread] at hstep
      obtain ⟨⟨thread', parent', children'⟩, hmoved, rfl⟩ := Option.map_eq_some_iff.mp hstep
      exact Thread.length_of_step (hquiet.2 thread (List.mem_of_getElem? hthread)) hmoved
  | advance k state =>
    dsimp only at hstep
    cases hchild : job.children[k]? with
    | none =>
      rw [hchild] at hstep
      cases hstep
    | some child =>
      rw [hchild] at hstep
      dsimp only at hstep
      split_ifs at hstep
      exact Option.some.inj hstep ▸ List.length_set
  | cancelOperation target =>
    cases target with
    | none => exact Option.some.inj hstep ▸ rfl
    | some k => exact Option.some.inj hstep ▸ length_cancelChild k
  | cancelJob =>
    dsimp only at hstep
    split_ifs at hstep
    · exact Option.some.inj hstep ▸ rfl
    · cases hunder : job.parent.underlying with
      | none =>
        rw [hunder] at hstep
        exact Option.some.inj hstep ▸ rfl
      | some k =>
        rw [hunder] at hstep
        exact Option.some.inj hstep ▸ length_cancelChild k

end Steps

theorem Inv.agreed {job : Job} (h : Inv job) : Agreed job := by
  refine ⟨fun hparent => (h.quiet hparent).1,
    fun hparent e job' hstep => length_of_step (h.quiet hparent) hstep, fun _ hall => ?_⟩
  obtain ⟨thread, hmem⟩ := List.exists_mem_of_ne_nil _ h.begun
  exact h.ended (hall thread hmem ▸ hmem)

/-- In a run whose steps are safe every job agrees with its operations. -/
theorem jobs_agree {s : List Job} (h : jobs.Reach (Machine.PoolGuard Safe) [] s) :
    ∀ job ∈ s, Agreed job := by
  intro job hmem
  obtain ⟨request, job₀, hstart, hreach⟩ := Machine.pool_component h job hmem
  refine Inv.agreed (hreach.invariant (Inv.start hstart) ?_)
  exact fun job e job' _ hinv hsafe hstep => hinv.step hsafe hstep

/-- An investigation of a log, from its request to its end. -/
def wholeInvestigation : List (Machine.PoolEvent JobRequest JobEvent) :=
  [.begin (.investigate [.log]), .step 0 (.thread 0 .begin), .step 0 (.thread 0 (.observe 0)),
    .step 0 (.advance 0 "matched"), .step 0 (.thread 0 (.leave 0)), .step 0 (.thread 0 .complete)]

def endedInvestigation : Job :=
  ⟨.investigate [.log], ⟨.investigation, "succeeded", none⟩, [.ended], [⟨.observation, "matched", none⟩]⟩

theorem investigation_agrees : Agreed endedInvestigation := by
  have hsafe : jobs.Follows (Machine.PoolGuard Safe) [] wholeInvestigation := by
    refine ⟨trivial, ?_⟩
    rintro s₁ ⟨⟩
    refine ⟨fun job _ => trivial, ?_⟩
    rintro s₂ ⟨⟩
    refine ⟨fun job _ => trivial, ?_⟩
    rintro s₃ ⟨⟩
    refine ⟨fun job _ => trivial, ?_⟩
    rintro s₄ ⟨⟩
    refine ⟨?_, ?_⟩
    · rintro job ⟨⟩ observers c ⟨⟩ ⟨⟩
      exact ⟨_, rfl, by decide⟩
    · rintro s₅ ⟨⟩
      exact ⟨fun job _ => trivial, fun _ _ => trivial⟩
  have hrun : jobs.run [] wholeInvestigation = some [endedInvestigation] := by
    decide
  exact jobs_agree (hsafe.reach hrun) _ (List.mem_singleton_self _)

/-- The investigation is cancelled while its worker goes on. -/
theorem cancelled_investigation_disagrees :
    ¬ ∀ s, jobs.Reachable [] s → ∀ job ∈ s, Agreed job := by
  intro h
  have hrun : jobs.run [] ((wholeInvestigation.take 3) ++ [.step 0 .cancelJob]) =
      some [⟨.investigate [.log], ⟨.investigation, "cancelled", none⟩, [.observing [.driving 0]],
        [.new .observation]⟩] := by
    decide
  have hsettled := (h _ (Machine.reachable_of_run hrun) _ (List.mem_singleton_self _)).settled
  exact absurd (hsettled (by decide) _ (List.mem_singleton_self _)) (by decide)

end HplcWorkbench.Jobs
