import HplcWorkbench.OperationAtomicity

/-!
# The life of an operation

Where no write fails, an operation keeps its identifier and its request through calls and restarts,
is fixed once it is terminal, and every change of it raises its version. A restart interrupts what is
not terminal and touches nothing else.
-/

namespace HplcWorkbench.OperationStore
open Transitions

variable {Value : Type}

namespace Dict
variable {α β : Type} {d : Dict α} {key other : String} {value : α}

theorem lookup_set_self (value : α) : (d.set key value).lookup key = some value := by
  unfold set
  split
  case isTrue hin =>
    induction d with
    | nil => cases hin
    | cons e d ih =>
        rw [List.map_cons, List.lookup_cons]
        by_cases he : e.1 = key
        · simp [he]
        · have hne : (key == e.1) = false := beq_eq_false_iff_ne.mpr fun h => he h.symm
          have hrest : key ∈ d.map Prod.fst := by
            obtain h | h := List.mem_cons.mp hin
            · exact absurd h.symm he
            · exact h
          simp only [if_neg he, hne]
          exact ih hrest
  case isFalse hout =>
    rw [List.lookup_append, lookup_eq_none.mpr hout, List.lookup_cons_self]
    rfl

theorem lookup_set_ne (value : α) (h : other ≠ key) : (d.set key value).lookup other = d.lookup other := by
  unfold set
  split
  · clear * - h
    induction d with
    | nil => rfl
    | cons e d ih =>
        rw [List.map_cons, List.lookup_cons, List.lookup_cons, ih]
        by_cases he : e.1 = key
        · have hkey : (other == key) = false := beq_eq_false_iff_ne.mpr h
          simp [he, hkey]
        · rw [if_neg he]
  · have hkey : (other == key) = false := beq_eq_false_iff_ne.mpr h
    rw [List.lookup_append, List.lookup_cons, hkey, List.lookup_nil, Option.or_none]

theorem lookup_map (f : α → β) (d : Dict α) (key : String) :
    List.lookup key (d.map fun e => (e.1, f e.2)) = (d.lookup key).map f := by
  induction d with
  | nil => rfl
  | cons e d ih =>
      rw [List.map_cons, List.lookup_cons, List.lookup_cons, ih]
      cases key == e.1 <;> rfl

end Dict

/-! ## One operation -/

/-- What `set_state` makes of an operation. -/
def Operation.settle (o : Operation Value) (state : String) (result : Option Value)
    (error : Option String) (now : String) : Operation Value :=
  if o.state ∈ terminalStates then o
  else { o with
    state := state, result := result.or o.result, error := error.or o.error, updatedAt := now
    version := o.version + 1 }

/-- An operation at some time and the same operation later. -/
def Operation.Becomes (o o' : Operation Value) : Prop :=
  o' = o ∨ o.state ∉ terminalStates ∧ o.version < o'.version ∧ o'.operationId = o.operationId ∧
    o'.idempotencyFingerprint = o.idempotencyFingerprint

section Becomes
variable {o o' o'' : Operation Value}

theorem Operation.Becomes.trans (h : o.Becomes o') (h' : o'.Becomes o'') : o.Becomes o'' := by
  obtain rfl | ⟨hopen, hversion, hid, hfingerprint⟩ := h
  · exact h'
  · obtain rfl | ⟨-, hversion', hid', hfingerprint'⟩ := h'
    · exact .inr ⟨hopen, hversion, hid, hfingerprint⟩
    · exact .inr ⟨hopen, Nat.lt_trans hversion hversion', hid'.trans hid, hfingerprint'.trans hfingerprint⟩

theorem Operation.Becomes.operationId (h : o.Becomes o') : o'.operationId = o.operationId := by
  obtain rfl | ⟨-, -, hid, -⟩ := h
  · rfl
  · exact hid

theorem Operation.Becomes.fingerprint (h : o.Becomes o') :
    o'.idempotencyFingerprint = o.idempotencyFingerprint := by
  obtain rfl | ⟨-, -, -, hfingerprint⟩ := h
  · rfl
  · exact hfingerprint

/-- A terminal operation stays as it is. -/
theorem Operation.Becomes.of_terminal (h : o.Becomes o') (hterminal : o.state ∈ terminalStates) : o' = o := by
  obtain heq | ⟨hopen, -⟩ := h
  · exact heq
  · exact absurd hterminal hopen

theorem Operation.settle_becomes (o : Operation Value) (state : String) (result : Option Value)
    (error : Option String) (now : String) : o.Becomes (o.settle state result error now) := by
  unfold settle
  split
  · exact .inl rfl
  · next hopen => exact .inr ⟨hopen, Nat.lt_succ_self _, rfl, rfl⟩

theorem interrupt_becomes (now : String) (o : Operation Value) : o.Becomes (interrupt now o) := by
  unfold interrupt
  split
  · exact .inl rfl
  · next hopen => exact .inr ⟨hopen, Nat.lt_succ_self _, rfl, rfl⟩

end Becomes

/-! ## One step -/

/-- Nothing of the index is lost, and each operation is still the same one. -/
structure Memory.Extends (m m' : Memory Value) : Prop where
  operations : ∀ id o, m.operations.lookup id = some o →
    ∃ o', m'.operations.lookup id = some o' ∧ o.Becomes o'
  requests : ∀ key id, m.requestIds.lookup key = some id → m'.requestIds.lookup key = some id

theorem Memory.Extends.refl (m : Memory Value) : m.Extends m :=
  ⟨fun _ o ho => ⟨o, ho, .inl rfl⟩, fun _ _ h => h⟩

theorem Memory.Extends.trans {m m' m'' : Memory Value} (h : m.Extends m') (h' : m'.Extends m'') :
    m.Extends m'' := by
  refine ⟨fun id o ho => ?_, fun key id hkey => h'.requests key id (h.requests key id hkey)⟩
  obtain ⟨o', ho', hbecomes⟩ := h.operations id o ho
  obtain ⟨o'', ho'', hbecomes'⟩ := h'.operations id o' ho'
  exact ⟨o'', ho'', hbecomes.trans hbecomes'⟩

section Steps
variable {fingerprintOf : String → Value → String} {s s' : Store Value}

theorem commit_ok (s : Store Value) (m : Memory Value) (reply : Reply Value) :
    (commit s m reply .ok).1 = .ok reply := by
  unfold commit persistLocked
  cases s.hasPath <;> rfl

/-- `setState` settles the operation it names, also where it raises. -/
theorem setState_settles {operationId : String} {o : Operation Value}
    (ho : s.memory.operations.lookup operationId = some o) (state : String) (result : Option Value)
    (error : Option String) (now : String) (outcome : WriteOutcome) :
    (setState s operationId state result error now outcome).2.memory.operations.lookup operationId =
      some (o.settle state result error now) := by
  unfold setState Operation.settle
  rw [ho]
  dsimp only
  split
  · exact ho
  · rw [commit_memory]
    exact Dict.lookup_set_self _

/-- A write that succeeds returns the operation as it was settled. -/
theorem setState_reply {operationId : String} {o : Operation Value}
    (ho : s.memory.operations.lookup operationId = some o) (state : String) (result : Option Value)
    (error : Option String) (now : String) :
    (setState s operationId state result error now .ok).1 =
      .ok (.operation (o.settle state result error now)) := by
  unfold setState Operation.settle
  rw [ho]
  dsimp only
  split
  · rfl
  · exact commit_ok _ _ _

/-- What a call does to an operation that is there: nothing, or it settles it. -/
theorem run_lookup (c : Call Value) (outcome : WriteOutcome) (hfresh : c.Fresh s.memory) {id : String}
    {o : Operation Value} (ho : s.memory.operations.lookup id = some o) :
    ∃ o', (c.run fingerprintOf s outcome).2.memory.operations.lookup id = some o' ∧
      (o' = o ∨ ∃ state result error now, c = .setState id state result error now ∧
        o' = o.settle state result error now) := by
  cases c with
  | create kind actor payload clientRequestId fingerprint replayFingerprint newId now =>
      change ∃ o', (create fingerprintOf s kind actor payload clientRequestId fingerprint
        replayFingerprint newId now outcome).2.memory.operations.lookup id = some o' ∧ _
      refine ⟨o, ?_, .inl rfl⟩
      unfold create
      cases s.memory.requested clientRequestId with
      | some id =>
          dsimp only
          split
          · exact ho
          · split <;> exact ho
      | none =>
          dsimp only
          rw [commit_memory]
          have hne : id ≠ newId := by
            rintro rfl
            exact hfresh.2 (List.mem_map_of_mem (Dict.mem_of_lookup ho))
          exact (Dict.lookup_set_ne _ hne).trans ho
  | setState operationId state result error now =>
      change ∃ o', (setState s operationId state result error now outcome).2.memory.operations.lookup id =
        some o' ∧ _
      unfold setState
      cases hp : s.memory.operations.lookup operationId with
      | none => exact ⟨o, ho, .inl rfl⟩
      | some p =>
          dsimp only
          by_cases hid : id = operationId
          · subst hid
            obtain rfl := Option.some.inj (ho.symm.trans hp)
            refine ⟨o.settle state result error now, ?_, .inr ⟨_, _, _, _, rfl, rfl⟩⟩
            unfold Operation.settle
            split
            · exact ho
            · rw [commit_memory]
              exact Dict.lookup_set_self _
          · refine ⟨o, ?_, .inl rfl⟩
            split
            · exact ho
            · rw [commit_memory]
              exact (Dict.lookup_set_ne _ hid).trans ho
  | registerArtifact operationId resource kind content newId now =>
      change ∃ o', (registerArtifact s operationId resource kind content newId now
        outcome).2.memory.operations.lookup id = some o' ∧ _
      refine ⟨o, ?_, .inl rfl⟩
      unfold registerArtifact
      dsimp only
      rw [commit_memory]
      exact ho
  | audit actor action resource result operationId now =>
      change ∃ o', (audit s actor action resource result operationId now
        outcome).2.memory.operations.lookup id = some o' ∧ _
      refine ⟨o, ?_, .inl rfl⟩
      unfold audit
      rw [commit_memory]
      exact ho

/-- No call changes what a key stands for. -/
theorem run_requests (c : Call Value) (outcome : WriteOutcome) {key id : String}
    (hkey : s.memory.requestIds.lookup key = some id) :
    (c.run fingerprintOf s outcome).2.memory.requestIds.lookup key = some id := by
  cases c with
  | create kind actor payload clientRequestId fingerprint replayFingerprint newId now =>
      change (create fingerprintOf s kind actor payload clientRequestId fingerprint
        replayFingerprint newId now outcome).2.memory.requestIds.lookup key = some id
      unfold create
      cases hrequest : s.memory.requested clientRequestId with
      | some id =>
          dsimp only
          split
          · exact hkey
          · split <;> exact hkey
      | none =>
          dsimp only
          rw [commit_memory]
          dsimp only
          split
          · exact hkey
          · next hblank =>
              rw [Memory.requested, if_neg hblank] at hrequest
              have hne : key ≠ clientRequestId := by
                rintro rfl
                cases hrequest.symm.trans hkey
              exact (Dict.lookup_set_ne newId hne).trans hkey
  | setState operationId state result error now =>
      change (setState s operationId state result error now outcome).2.memory.requestIds.lookup key = _
      unfold setState
      split
      · exact hkey
      · dsimp only
        split
        · exact hkey
        · rw [commit_memory]
          exact hkey
  | registerArtifact operationId resource kind content newId now =>
      change (registerArtifact s operationId resource kind content newId now
        outcome).2.memory.requestIds.lookup key = _
      unfold registerArtifact
      dsimp only
      rw [commit_memory]
      exact hkey
  | audit actor action resource result operationId now =>
      change (audit s actor action resource result operationId now
        outcome).2.memory.requestIds.lookup key = _
      unfold audit
      rw [commit_memory]
      exact hkey

/-- Every call extends memory, whatever comes of its write. -/
theorem run_extends (c : Call Value) (outcome : WriteOutcome) (hfresh : c.Fresh s.memory) :
    s.memory.Extends (c.run fingerprintOf s outcome).2.memory := by
  refine ⟨fun id o ho => ?_, fun key id hkey => run_requests c outcome hkey⟩
  obtain ⟨o', ho', rfl | ⟨state, result, error, now, -, rfl⟩⟩ := run_lookup c outcome hfresh ho
  · exact ⟨o', ho', .inl rfl⟩
  · exact ⟨_, ho', o.settle_becomes state result error now⟩

/-- Every call leaves well-formed memory. -/
theorem run_wellFormed (h : WellFormed s.memory) (c : Call Value) (outcome : WriteOutcome)
    (hfresh : c.Fresh s.memory) : WellFormed (c.run fingerprintOf s outcome).2.memory := by
  obtain ⟨-, r, hr⟩ | ⟨-, m, reply, hm, -, hr⟩ := run_cases fingerprintOf outcome h c hfresh
  · rw [hr]
    exact h
  · rw [hr, commit_memory]
    exact hm

/-- What `create` returns is what the store holds. -/
theorem create_returns (h : WellFormed s.memory) {kind actor clientRequestId newId now : String}
    {payload : Value} {fingerprint replayFingerprint : Option String} {outcome : WriteOutcome}
    {o : Operation Value} (hreply : create fingerprintOf s kind actor payload clientRequestId fingerprint
      replayFingerprint newId now outcome = (.ok (.operation o), s')) :
    s'.memory.operations.lookup o.operationId = some o := by
  unfold create at hreply
  cases hrequested : s.memory.requested clientRequestId with
  | some id =>
      simp only [hrequested] at hreply
      split at hreply
      · cases hreply
      · next existing hexisting =>
          split at hreply
          · cases hreply
          · cases hreply
            have hid : o.operationId = id := (h.keyed _ (Dict.mem_of_lookup hexisting)).1
            rwa [hid]
  | none =>
      simp only [hrequested] at hreply
      have hmemory := (congrArg (fun r => r.2.memory) hreply).symm.trans (commit_memory _ _ _ _)
      unfold commit at hreply
      split at hreply
      · cases hreply
        rw [hmemory]
        exact Dict.lookup_set_self _
      · cases hreply

theorem commit_hasPath (s : Store Value) (m : Memory Value) (reply : Reply Value) (outcome : WriteOutcome) :
    (commit s m reply outcome).2.hasPath = s.hasPath := by
  unfold commit persistLocked
  cases hpath : s.hasPath <;> cases outcome <;> simp

theorem create_hasPath (s : Store Value) (kind actor : String) (payload : Value)
    (clientRequestId : String) (fingerprint replayFingerprint : Option String) (newId now : String)
    (outcome : WriteOutcome) :
    (create fingerprintOf s kind actor payload clientRequestId fingerprint replayFingerprint newId now
      outcome).2.hasPath = s.hasPath := by
  unfold create
  cases s.memory.requested clientRequestId with
  | some id =>
      dsimp only
      split
      · rfl
      · split <;> rfl
  | none => exact commit_hasPath _ _ _ _

theorem commit_isOk (s : Store Value) (m : Memory Value) (reply : Reply Value) (outcome : WriteOutcome) :
    (commit s m reply outcome).1.isOk = true ↔ (s.hasPath = true → outcome = .ok) := by
  unfold commit persistLocked
  cases hpath : s.hasPath <;> cases outcome <;> simp [Except.isOk, Except.toBool]

/-- `setState` of an operation that has not ended returns exactly when its write does not fail. -/
theorem setState_isOk {operationId : String} {o : Operation Value}
    (ho : s.memory.operations.lookup operationId = some o) (hopen : o.state ∉ terminalStates)
    (state : String) (result : Option Value) (error : Option String) (now : String) (outcome : WriteOutcome) :
    (setState s operationId state result error now outcome).1.isOk = true ↔
      (s.hasPath = true → outcome = .ok) := by
  unfold setState
  rw [ho]
  dsimp only
  rw [if_neg hopen]
  exact commit_isOk _ _ _ _

/-- What is set of an operation leaves the others as they are. -/
theorem setState_lookup_ne {operationId id : String} (h : id ≠ operationId) (state : String)
    (result : Option Value) (error : Option String) (now : String) (outcome : WriteOutcome) :
    (setState s operationId state result error now outcome).2.memory.operations.lookup id =
      s.memory.operations.lookup id := by
  unfold setState
  split
  · rfl
  · dsimp only
    split
    · rfl
    · rw [commit_memory]
      exact Dict.lookup_set_ne _ h

/-- A restart that can write comes up with memory as it was, the unfinished operations interrupted. -/
theorem Sound.restart_ok (h : Sound s) (hpath : s.hasPath = true) (now : String) :
    ∃ s', OperationStore.restart s now .ok = (.ok (), s') ∧ s'.memory =
      { s.memory with operations := s.memory.operations.map fun e => (e.1, interrupt now e.2) } := by
  have hread : readFile (interrupt now) s.file =
      { s.memory with operations := s.memory.operations.map fun e => (e.1, interrupt now e.2) } := by
    rw [readFile_map (requestKey_interrupt now), h.holds hpath]
  unfold OperationStore.restart persistLocked
  simp only [hpath, if_true, Bool.not_true, Bool.false_eq_true, if_false]
  split
  · exact ⟨_, rfl, hread⟩
  · exact ⟨_, rfl, hread⟩

theorem map_interrupt_extends (m : Memory Value) (now : String) :
    m.Extends { m with operations := m.operations.map fun e => (e.1, interrupt now e.2) } := by
  refine ⟨fun id o ho => ⟨interrupt now o, ?_, interrupt_becomes now o⟩, fun _ _ hkey => hkey⟩
  dsimp only
  rw [Dict.lookup_map, ho]
  rfl

end Steps

/-! ## Calls that advance operations -/

/-- The call brings no operation back to its first state. -/
def Call.Advances : Call Value → Prop
  | .setState _ state _ _ _ => state ≠ "created"
  | _ => True

instance (c : Call Value) : Decidable c.Advances :=
  match c with
  | .setState _ state _ _ _ => inferInstanceAs (Decidable (state ≠ "created"))
  | .create .. | .registerArtifact .. | .audit .. => inferInstanceAs (Decidable True)

/-- What any number of calls that advance operations keep. -/
structure Memory.Evolves (m m' : Memory Value) : Prop where
  extends_ : m.Extends m'
  wellFormed : WellFormed m → WellFormed m'
  left : ∀ id o, m.operations.lookup id = some o → o.state ≠ "created" →
    ∃ o', m'.operations.lookup id = some o' ∧ o'.state ≠ "created"

theorem Memory.Evolves.refl (m : Memory Value) : m.Evolves m :=
  ⟨.refl m, id, fun _ o ho hstate => ⟨o, ho, hstate⟩⟩

theorem Memory.Evolves.trans {m m' m'' : Memory Value} (h : m.Evolves m') (h' : m'.Evolves m'') :
    m.Evolves m'' := by
  refine ⟨h.extends_.trans h'.extends_, h'.wellFormed ∘ h.wellFormed, fun id o ho hstate => ?_⟩
  obtain ⟨o', ho', hstate'⟩ := h.left id o ho hstate
  exact h'.left id o' ho' hstate'

section Advances
variable {fingerprintOf : String → Value → String}

theorem Operation.settle_state_ne {o : Operation Value} {state : String} (hstate : state ≠ "created")
    (result : Option Value) (error : Option String) (now : String) :
    (o.settle state result error now).state ≠ "created" := by
  unfold settle
  split
  · next hterminal =>
      rintro hcreated
      rw [hcreated] at hterminal
      revert hterminal
      decide
  · exact hstate

theorem run_evolves (s : Store Value) (c : Call Value) (outcome : WriteOutcome)
    (hfresh : c.Fresh s.memory) (hadvances : c.Advances) :
    s.memory.Evolves (c.run fingerprintOf s outcome).2.memory := by
  refine ⟨run_extends c outcome hfresh, fun h => run_wellFormed h c outcome hfresh, fun id o ho hstate => ?_⟩
  obtain ⟨o', ho', hcases⟩ := @run_lookup _ fingerprintOf s c outcome hfresh _ _ ho
  refine ⟨o', ho', ?_⟩
  obtain rfl | ⟨state, result, error, now, rfl, rfl⟩ := hcases
  · exact hstate
  · exact Operation.settle_state_ne hadvances result error now

theorem setState_evolves (s : Store Value) (operationId : String) {state : String}
    (hstate : state ≠ "created") (result : Option Value) (error : Option String) (now : String)
    (outcome : WriteOutcome) :
    s.memory.Evolves (setState s operationId state result error now outcome).2.memory :=
  @run_evolves _ (fun _ _ => "") s (.setState operationId state result error now) outcome trivial hstate

end Advances

/-! ## Runs without failing writes -/

/-- No write fails, and a restart reloads the file of a store that has one. -/
def Reloads (s : Store Value) : Event Value → Prop
  | .call _ outcome => outcome = .ok
  | .restart _ outcome => outcome = .ok ∧ s.hasPath = true

section Runs
variable {fingerprintOf : String → Value → String} {s s' : Store Value} {e : Event Value}

theorem Reloads.written (h : Reloads s e) : Written s e := by
  cases e with
  | call c outcome => exact fun _ _ _ => h
  | restart now outcome => trivial

theorem Sound.step_extends (h : Sound s) (hreloads : Reloads s e)
    (he : (operationStore fingerprintOf).step s e = some s') : s.memory.Extends s'.memory := by
  cases e with
  | call c outcome =>
      simp only [operationStore] at he
      split at he
      · next hfresh =>
          obtain rfl := Option.some.inj he
          exact run_extends c outcome hfresh
      · cases he
  | restart now outcome =>
      obtain ⟨rfl, hpath⟩ := hreloads
      obtain ⟨s₁, hrestart, hmemory⟩ := h.restart_ok hpath now
      simp only [operationStore, hrestart] at he
      obtain rfl := Option.some.inj he
      rw [hmemory]
      exact map_interrupt_extends _ now

/-- What a run without failing writes keeps. -/
theorem Sound.reach (h : Sound s) (hreach : (operationStore fingerprintOf).Reach Reloads s s') :
    Sound s' ∧ s.memory.Extends s'.memory := by
  induction hreach with
  | start => exact ⟨h, .refl _⟩
  | step _ hreloads he ih =>
      exact ⟨ih.1.step hreloads.written he, ih.2.trans (ih.1.step_extends hreloads he)⟩

end Runs

/-! ## Requests -/

/-- The key of a request that has one, with its fingerprint. -/
def Call.request (fingerprintOf : String → Value → String) : Call Value → Option (String × String)
  | .create kind _ payload clientRequestId fingerprint _ _ _ =>
    if clientRequestId = "" then none
    else some (clientRequestId, requestFingerprint fingerprintOf kind payload fingerprint)
  | _ => none

section Requests
variable {fingerprintOf : String → Value → String} {s s' : Store Value} {c : Call Value}
  {key fingerprint : String}

/-- The key stands for an operation with the fingerprint. -/
def Memory.Bound (m : Memory Value) (key fingerprint operationId : String) : Prop :=
  m.requestIds.lookup key = some operationId ∧ ∃ o, m.operations.lookup operationId = some o ∧
    o.operationId = operationId ∧ o.idempotencyFingerprint = some fingerprint

theorem Memory.Bound.extend {m m' : Memory Value} {operationId : String}
    (h : m.Bound key fingerprint operationId) (hextends : m.Extends m') :
    m'.Bound key fingerprint operationId := by
  obtain ⟨hkey, o, ho, hid, hfingerprint⟩ := h
  obtain ⟨o', ho', hbecomes⟩ := hextends.operations operationId o ho
  exact ⟨hextends.requests key operationId hkey, o', ho', hbecomes.operationId.trans hid,
    hbecomes.fingerprint.trans hfingerprint⟩

/-- A request that was answered has bound its key. -/
theorem WellFormed.bound_of_reply (h : WellFormed s.memory) {outcome : WriteOutcome} {o : Operation Value}
    (hrequest : c.request fingerprintOf = some (key, fingerprint))
    (hreply : c.run fingerprintOf s outcome = (.ok (.operation o), s')) :
    s'.memory.Bound key fingerprint o.operationId := by
  cases c with
  | create kind actor payload clientRequestId given replayFingerprint newId now =>
      simp only [Call.request] at hrequest
      split at hrequest
      case isTrue => cases hrequest
      case isFalse hblank =>
        obtain ⟨rfl, rfl⟩ := Prod.mk.inj (Option.some.inj hrequest)
        change create fingerprintOf s kind actor payload clientRequestId given replayFingerprint newId
          now outcome = _ at hreply
        unfold create at hreply
        cases hrequested : s.memory.requested clientRequestId with
        | none =>
            simp only [hrequested] at hreply
            have hmemory := (congrArg (fun r => r.2.memory) hreply).symm.trans (commit_memory _ _ _ _)
            have hid : o.operationId = newId := by
              unfold commit at hreply
              split at hreply
              · cases hreply
                rfl
              · cases hreply
            rw [hmemory, hid]
            refine ⟨?_, _, Dict.lookup_set_self _, rfl, ?_⟩
            · dsimp only
              rw [if_neg hblank, Dict.lookup_set_self]
            · exact if_neg hblank
        | some id =>
            simp only [hrequested] at hreply
            split at hreply
            · cases hreply
            · next existing hexisting =>
                split at hreply
                · cases hreply
                · next hsame =>
                    obtain ⟨hfirst, rfl⟩ := Prod.mk.inj hreply
                    cases hfirst
                    rw [Memory.requested, if_neg hblank] at hrequested
                    have hid := (h.keyed _ (Dict.mem_of_lookup hexisting)).1
                    dsimp only at hid
                    rw [hid]
                    exact ⟨hrequested, o, hexisting, hid, not_not.mp hsame⟩
  | setState | registerArtifact | audit => cases hrequest

/-- A request with a bound key gets the operation of the key, or is refused. -/
theorem Memory.Bound.reply {operationId given : String} {outcome : WriteOutcome}
    (h : s.memory.Bound key fingerprint operationId) (hrequest : c.request fingerprintOf = some (key, given)) :
    if given = fingerprint then
      ∃ o, (c.run fingerprintOf s outcome).1 = .ok (.operation o) ∧ o.operationId = operationId
    else (c.run fingerprintOf s outcome).1 = .error .idempotencyConflict := by
  obtain ⟨hkey, o, ho, hid, hfingerprint⟩ := h
  cases c with
  | create kind actor payload clientRequestId own replayFingerprint newId now =>
      simp only [Call.request] at hrequest
      split at hrequest
      case isTrue => cases hrequest
      case isFalse hblank =>
        obtain ⟨rfl, rfl⟩ := Prod.mk.inj (Option.some.inj hrequest)
        have hrequested : s.memory.requested clientRequestId = some operationId := by
          rw [Memory.requested, if_neg hblank, hkey]
        change if _ then ∃ o, (create fingerprintOf s kind actor payload clientRequestId own
          replayFingerprint newId now outcome).1 = _ ∧ _ else (create fingerprintOf s kind actor payload
          clientRequestId own replayFingerprint newId now outcome).1 = _
        unfold create
        simp only [hrequested, ho, hfingerprint, ne_eq, Option.some.injEq]
        split
        · next hsame => exact ⟨o, by rw [if_neg (not_not.mpr hsame.symm)], hid⟩
        · next hother => rw [if_pos fun h => hother h.symm]
  | setState | registerArtifact | audit => cases hrequest

end Requests

/-! ## The lifecycle -/

section Lifecycle
variable (fingerprintOf : String → Value → String)

/-- What holds in the runs from a store in which no write fails. -/
structure Lifecycle (s₀ : Store Value) : Prop where
  /-- Once a request is answered, every later one with its key gets the same operation if it has the
  same fingerprint, and is refused if it has another. -/
  idempotent : ∀ (s s₁ s₂ : Store Value) (c c' : Call Value) (o : Operation Value)
    (key fingerprint fingerprint' : String),
    (operationStore fingerprintOf).Reach Reloads s₀ s →
    c.Fresh s.memory → c.request fingerprintOf = some (key, fingerprint) →
    c.run fingerprintOf s .ok = (.ok (.operation o), s₁) →
    (operationStore fingerprintOf).Reach Reloads s₁ s₂ →
    c'.request fingerprintOf = some (key, fingerprint') →
    if fingerprint' = fingerprint then
      ∃ o', (c'.run fingerprintOf s₂ .ok).1 = .ok (.operation o') ∧ o'.operationId = o.operationId
    else (c'.run fingerprintOf s₂ .ok).1 = .error .idempotencyConflict
  /-- An operation never goes away; a terminal one stays as it is. -/
  terminal : ∀ (s s' : Store Value) (id : String) (o : Operation Value),
    (operationStore fingerprintOf).Reach Reloads s₀ s →
    (operationStore fingerprintOf).Reach Reloads s s' → s.memory.operations.lookup id = some o →
    ∃ o', s'.memory.operations.lookup id = some o' ∧ (o.state ∈ terminalStates →
      o'.state = o.state ∧ o'.result = o.result ∧ o'.error = o.error)
  /-- A change raises the version. -/
  version : ∀ (s s' : Store Value) (id : String) (o o' : Operation Value),
    (operationStore fingerprintOf).Reach Reloads s₀ s →
    (operationStore fingerprintOf).Reach Reloads s s' → s.memory.operations.lookup id = some o →
    s'.memory.operations.lookup id = some o' → o' = o ∨ o.version < o'.version
  /-- A restart interrupts the operations that are not terminal, and keeps the others. -/
  restart : ∀ (s : Store Value) (now : String), (operationStore fingerprintOf).Reach Reloads s₀ s → s.hasPath = true →
    ∃ s', (operationStore fingerprintOf).step s (.restart now .ok) = some s' ∧
      s'.memory.operations.map Prod.fst = s.memory.operations.map Prod.fst ∧
      ∀ id o, s.memory.operations.lookup id = some o →
        ∃ o', s'.memory.operations.lookup id = some o' ∧
          (o.state ∈ terminalStates → o' = o) ∧ (o.state ∉ terminalStates → o'.state = "interrupted")

/-- The idempotency keys of a new store hold through all calls and restarts, and so do the operations
that are terminal. -/
theorem opened_lifecycle (hasPath damaged : Bool) :
    Lifecycle fingerprintOf (opened hasPath damaged : Store Value) := by
  have hstart : Sound (opened hasPath damaged : Store Value) := Sound.opened hasPath damaged
  refine ⟨?_, ?_, ?_, ?_⟩
  · intro s s₁ s₂ c c' o key fingerprint fingerprint' hs hfresh hrequest hreply hreach hrequest'
    have hsound := (hstart.reach hs).1
    have hcall : (operationStore fingerprintOf).step s (.call c .ok) = some s₁ := by
      simp only [operationStore, if_pos hfresh, hreply]
    have hwritten : Written s (.call c .ok) := fun _ _ _ => rfl
    have hsound₁ : Sound s₁ := hsound.step hwritten hcall
    have hbound := hsound.wellFormed.bound_of_reply hrequest hreply
    exact (hbound.extend (hsound₁.reach hreach).2).reply hrequest'
  · intro s s' id o hs hreach ho
    obtain ⟨o', ho', hbecomes⟩ := ((hstart.reach hs).1.reach hreach).2.operations id o ho
    refine ⟨o', ho', fun hterminal => ?_⟩
    rw [hbecomes.of_terminal hterminal]
    exact ⟨rfl, rfl, rfl⟩
  · intro s s' id o o' hs hreach ho ho'
    obtain ⟨p, hp, hbecomes⟩ := ((hstart.reach hs).1.reach hreach).2.operations id o ho
    obtain rfl : p = o' := Option.some.inj (hp.symm.trans ho')
    exact hbecomes.imp_right fun h => h.2.1
  · intro s now hs hpath
    obtain ⟨s', hrestart, hmemory⟩ := (hstart.reach hs).1.restart_ok hpath now
    refine ⟨s', by simp only [operationStore, hrestart], ?_, fun id o ho => ⟨interrupt now o, ?_, ?_, ?_⟩⟩
    · rw [hmemory, List.map_map]
      rfl
    · rw [hmemory]
      dsimp only
      rw [Dict.lookup_map, ho]
      rfl
    · exact fun hterminal => if_pos hterminal
    · intro hopen
      rw [interrupt, if_neg hopen]

end Lifecycle

end HplcWorkbench.OperationStore
