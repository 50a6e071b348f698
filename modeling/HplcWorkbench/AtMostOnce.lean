import HplcWorkbench.RequestRaces

/-!
# Acting at most once

All requests under one key refer to one operation, whatever the interleaving. They act at most once
together as long as none of them finds the operation as created while another one that found it so
has not recorded a state.
-/

namespace HplcWorkbench.Control

open Transitions OperationStore

/-! ## The store -/

section Store
variable {Value : Type} {fingerprintOf : String → Value → String} {key : String}

/-- The key stands for an operation that has left its first state. -/
def Moved (m : Memory Value) (key : String) : Prop :=
  ∃ id o, m.requestIds.lookup key = some id ∧ m.operations.lookup id = some o ∧ o.state ≠ "created"

/-- The key stands for an operation with this fingerprint that is still as it was created. -/
def Waits (m : Memory Value) (key fingerprint : String) : Prop :=
  ∃ id o, m.requestIds.lookup key = some id ∧ m.operations.lookup id = some o ∧ o.state = "created" ∧
    o.idempotencyFingerprint = some fingerprint

theorem Moved.not_waits {m : Memory Value} {fingerprint : String} (h : Moved m key) :
    ¬ Waits m key fingerprint := by
  obtain ⟨id, o, hkey, ho, hstate⟩ := h
  rintro ⟨id', o', hkey', ho', hcreated, -⟩
  obtain rfl := Option.some.inj (hkey.symm.trans hkey')
  obtain rfl := Option.some.inj (ho.symm.trans ho')
  exact hstate hcreated

theorem Moved.evolve {m m' : Memory Value} (h : Moved m key) (hevolves : m.Evolves m') : Moved m' key := by
  obtain ⟨id, o, hkey, ho, hstate⟩ := h
  obtain ⟨o', ho', hstate'⟩ := hevolves.left id o ho hstate
  exact ⟨id, o', hevolves.extends_.requests key id hkey, ho', hstate'⟩

/-- After a state is recorded the operation of the key has left its first state. -/
theorem setState_moved {s : Store Value} {operationId fingerprint state : String}
    (h : s.memory.Bound key fingerprint operationId) (hstate : state ≠ "created") (result : Option Value)
    (error : Option String) (now : String) (outcome : WriteOutcome) :
    Moved (setState s operationId state result error now outcome).2.memory key := by
  obtain ⟨hkey, o, ho, -, -⟩ := h
  refine ⟨operationId, _, ?_, setState_settles ho state result error now outcome,
    Operation.settle_state_ne hstate result error now⟩
  exact @run_requests _ (fun _ _ => "") s (.setState operationId state result error now) outcome _ _ hkey

end Store

/-! ## One step -/

/-- The operation that a request knows. -/
def Phase.operation : Phase → Option String
  | .idle => none
  | .found id | .prepared id _ | .started id | .performed id => some id
  | .returned id => id

/-- The request found its operation as created and has not recorded a state. -/
def Phase.Deciding : Phase → Prop
  | .found _ | .prepared _ _ | .performed _ => True
  | .idle | .started _ | .returned _ => False

/-- The request may still act. -/
def Phase.Pending : Phase → Prop
  | .found _ | .prepared _ _ | .started _ => True
  | .idle | .performed _ | .returned _ => False

section Races
variable {ι Value : Type} [DecidableEq ι] {fingerprintOf : String → Value → String}
  {requests : ι → Request Value} {key : String} {s s' : Race ι Value} {e : RaceEvent ι Value}

/-- The fingerprint of a request. -/
def Request.fingerprint (fingerprintOf : String → Value → String) (r : Request Value) : String :=
  fingerprintOf r.endpoint.kind r.payload

variable (fingerprintOf requests key) in
/-- The request finds its operation as created, made by another request. -/
def Finds (s : Race ι Value) (i : ι) : Prop :=
  Waits s.store.memory key ((requests i).fingerprint fingerprintOf)

variable (fingerprintOf requests key) in
/-- What a step does to the requests. -/
inductive Turn (s s' : Race ι Value) (e : RaceEvent ι Value) : Prop
  | aside (hphase : s'.phase = s.phase) (hperformed : s'.performed = s.performed)
  | refuse (i : ι) (hidle : s.phase i = .idle)
      (hphase : s'.phase = Function.update s.phase i (.returned none))
      (hperformed : s'.performed = s.performed)
  | reply (i : ι) (id : String) (hidle : s.phase i = .idle)
      (hbound : s'.store.memory.Bound key ((requests i).fingerprint fingerprintOf) id)
      (hphase : s'.phase = Function.update s.phase i (.returned (some id)))
      (hperformed : s'.performed = s.performed)
  | take (i : ι) (id : String) (phase : Phase) (newId now : String) (outcome recorded : WriteOutcome)
      (hevent : e = .look i newId now outcome recorded) (hidle : s.phase i = .idle)
      (hbound : s'.store.memory.Bound key ((requests i).fingerprint fingerprintOf) id)
      (hfound : s.store.memory.requestIds.lookup key = none ∨ Finds fingerprintOf requests key s i)
      (hnext : phase = .found id ∨ phase = .started id ∧ Moved s'.store.memory key)
      (hphase : s'.phase = Function.update s.phase i phase) (hperformed : s'.performed = s.performed)
  | pass (i : ι) (id : String) (phase : Phase) (hfrom : s.phase i = .found id)
      (hnext : phase = .found id ∨ (∃ nestedId, phase = .prepared id nestedId) ∨ phase = .returned (some id))
      (hphase : s'.phase = Function.update s.phase i phase) (hperformed : s'.performed = s.performed)
  | act (i : ι) (id : String) (phase : Phase) (hpending : (s.phase i).Pending)
      (hid : (s.phase i).operation = some id)
      (hnext : phase = .performed id ∨ s.phase i = .started id ∧ phase = .returned (some id))
      (hphase : s'.phase = Function.update s.phase i phase) (hperformed : s'.performed = i :: s.performed)
  | record (i : ι) (id : String) (hdeciding : (s.phase i).Deciding) (hid : (s.phase i).operation = some id)
      (hmoved : s.store.memory.Bound key ((requests i).fingerprint fingerprintOf) id →
        Moved s'.store.memory key)
      (hphase : s'.phase = Function.update s.phase i (.returned (some id)))
      (hperformed : s'.performed = s.performed)

/-- What asking the store comes to, when an operation comes back. -/
theorem create_cases (fingerprintOf : String → Value → String) {m : Store Value} (r : Request Value)
    (hkey : key ≠ "") (hm : WellFormed m.memory) {newId : String}
    (hfresh : newId ≠ "" ∧ newId ∉ m.memory.operations.map Prod.fst) (now : String)
    (outcome : WriteOutcome) :
    m.memory.Evolves (r.create fingerprintOf key m newId now outcome).2.memory ∧
    ∀ o m', r.create fingerprintOf key m newId now outcome = (.ok (.operation o), m') →
      m'.memory.Bound key (r.fingerprint fingerprintOf) o.operationId ∧
      (o.state = "created" → m.memory.requestIds.lookup key = none ∨
        Waits m.memory key (r.fingerprint fingerprintOf)) := by
  let c : Call Value := .create r.endpoint.kind r.actor r.payload key none none newId now
  have hc : c.Fresh m.memory := hfresh
  have hrequest : c.request fingerprintOf = some (key, r.fingerprint fingerprintOf) := if_neg hkey
  refine ⟨run_evolves m c outcome hc trivial, fun o m' hreply => ?_⟩
  have hbound : m'.memory.Bound key (r.fingerprint fingerprintOf) o.operationId :=
    hm.bound_of_reply hrequest hreply
  refine ⟨hbound, fun hcreated => ?_⟩
  cases hlookup : m.memory.requestIds.lookup key with
  | none => exact .inl rfl
  | some id =>
      have hrequested : m.memory.requested key = some id := by
        rw [Memory.requested, if_neg hkey, hlookup]
      unfold Request.create OperationStore.create at hreply
      simp only [hrequested] at hreply
      split at hreply
      · cases hreply
      · next existing hexisting =>
          split at hreply
          · cases hreply
          · next hsame =>
              cases hreply
              exact .inr ⟨id, o, hlookup, hexisting, hcreated, not_not.mp hsame⟩

/-- Behind the gate a state is recorded at once, in memory at least. -/
theorem enter_cases (s : Race ι Value) (i : ι) (operationId now : String) (phase failed : Phase)
    (recorded : WriteOutcome) :
    (s.enter i operationId now phase failed recorded).store =
        (setState s.store operationId "waiting" none none now recorded).2 ∧
      (s.enter i operationId now phase failed recorded).performed = s.performed ∧
      ((s.enter i operationId now phase failed recorded).phase = Function.update s.phase i phase ∨
        (s.enter i operationId now phase failed recorded).phase = Function.update s.phase i failed) := by
  unfold Race.enter
  cases h : setState s.store operationId "waiting" none none now recorded with
  | mk answer store =>
      cases answer with
      | ok reply => exact ⟨rfl, rfl, .inl rfl⟩
      | error error => exact ⟨rfl, rfl, .inr rfl⟩

theorem look_turn (hkey : key ≠ "") (hwf : WellFormed s.store.memory) {i : ι} (hidle : s.phase i = .idle)
    {newId now : String}
    (hfresh : newId ≠ "" ∧ newId ∉ s.store.memory.operations.map Prod.fst)
    (outcome recorded : WriteOutcome) (hs : s' = s.look fingerprintOf requests key i newId now outcome recorded)
    (he : e = .look i newId now outcome recorded) :
    s.store.memory.Evolves s'.store.memory ∧ Turn fingerprintOf requests key s s' e := by
  obtain ⟨hevolves, hreply⟩ := create_cases fingerprintOf (requests i) hkey hwf hfresh now outcome
  unfold Race.look at hs
  dsimp only at hs
  split at hs
  · subst hs
    exact ⟨.refl _, .refuse i hidle rfl rfl⟩
  · next hgate =>
      cases hcreate : (requests i).create fingerprintOf key s.store newId now outcome with
      | mk answer store =>
          rw [hcreate] at hs hevolves
          have hrefuse : s' = (s.withStore store).goto i (.returned none) →
              s.store.memory.Evolves s'.store.memory ∧ Turn fingerprintOf requests key s s' e := by
            rintro rfl
            exact ⟨hevolves, .refuse i hidle rfl rfl⟩
          match answer, hs with
          | .error _, hs => exact hrefuse hs
          | .ok (.artifact _), hs => exact hrefuse hs
          | .ok .none, hs => exact hrefuse hs
          | .ok (.operation o), hs =>
              obtain ⟨hbound, hfound⟩ := hreply o store hcreate
              dsimp only at hs
              split at hs
              · subst hs
                exact ⟨hevolves, .reply i o.operationId hidle hbound rfl rfl⟩
              · next hstate =>
                  have hfound := hfound (not_not.mp hstate)
                  split at hs
                  · obtain ⟨hstore, hperformed, hphase⟩ := enter_cases (s.withStore store) i o.operationId
                      now (.started o.operationId) (.returned (some o.operationId)) recorded
                    rw [← hs] at hstore hperformed hphase
                    have hwaiting : store.memory.Evolves
                        (setState store o.operationId "waiting" none none now recorded).2.memory :=
                      setState_evolves store o.operationId (by decide) none none now recorded
                    have hevolves' : s.store.memory.Evolves s'.store.memory := by
                      rw [hstore]
                      exact hevolves.trans hwaiting
                    have hbound' : s'.store.memory.Bound key ((requests i).fingerprint fingerprintOf)
                        o.operationId := by
                      rw [hstore]
                      exact hbound.extend hwaiting.extends_
                    refine ⟨hevolves', ?_⟩
                    obtain hphase | hphase := hphase
                    · refine .take i o.operationId _ newId now outcome recorded he hidle hbound' hfound
                        (.inr ⟨rfl, ?_⟩) hphase hperformed
                      rw [hstore]
                      exact setState_moved hbound (by decide) none none now recorded
                    · exact .reply i o.operationId hidle hbound' hphase hperformed
                  · subst hs
                    exact ⟨hevolves, .take i o.operationId _ newId now outcome recorded he hidle hbound hfound
                      (.inl rfl) rfl rfl⟩

theorem recorded_ne_created {state : String} (h : state ∈ recordedStates) : state ≠ "created" := by
  rintro rfl
  revert h
  decide

/-- Making the operation of the action advances the store, and nobody else is concerned. -/
theorem prepare_turn (i : ι) {id kind newId now : String}
    (hfrom : s.phase i = .found id) (hfresh : newId ≠ "" ∧ newId ∉ s.store.memory.operations.map Prod.fst)
    (outcome recorded : WriteOutcome)
    (hs : s' = s.prepare fingerprintOf requests i id kind newId now outcome recorded) :
    s.store.memory.Evolves s'.store.memory ∧ Turn fingerprintOf requests key s s' e := by
  have hcreated : s.store.memory.Evolves (OperationStore.create fingerprintOf s.store kind
      (requests i).actor (requests i).nestedPayload "" none none newId now outcome).2.memory :=
    run_evolves s.store (.create kind (requests i).actor (requests i).nestedPayload "" none none newId now)
      outcome hfresh trivial
  unfold Race.prepare at hs
  dsimp only at hs
  split at hs
  · subst hs
    exact ⟨.refl _, .aside rfl rfl⟩
  · cases hcreate : OperationStore.create fingerprintOf s.store kind (requests i).actor
        (requests i).nestedPayload "" none none newId now outcome with
    | mk answer store =>
        rw [hcreate] at hs hcreated
        have hraise : s' = s.withStore store →
            s.store.memory.Evolves s'.store.memory ∧ Turn fingerprintOf requests key s s' e := by
          rintro rfl
          exact ⟨hcreated, .aside rfl rfl⟩
        match answer, hs with
        | .error _, hs => exact hraise hs
        | .ok (.artifact _), hs => exact hraise hs
        | .ok .none, hs => exact hraise hs
        | .ok (.operation o), hs =>
            dsimp only at hs
            split at hs
            · obtain ⟨hstore, hperformed, hphase⟩ := enter_cases (s.withStore store) i o.operationId
                now (.prepared id o.operationId) (.found id) recorded
              rw [← hs] at hstore hperformed hphase
              have hwaiting : store.memory.Evolves
                  (setState store o.operationId "waiting" none none now recorded).2.memory :=
                setState_evolves store o.operationId (by decide) none none now recorded
              refine ⟨?_, ?_⟩
              · rw [hstore]
                exact hcreated.trans hwaiting
              · obtain hphase | hphase := hphase
                · exact .pass i id _ hfrom (.inr (.inl ⟨_, rfl⟩)) hphase hperformed
                · exact .pass i id _ hfrom (.inl rfl) hphase hperformed
            · subst hs
              exact ⟨hcreated, .pass i id _ hfrom (.inr (.inl ⟨_, rfl⟩)) rfl rfl⟩

theorem record_turn (i : ι) {id state now : String} {result : Option Value} {error : Option String}
    {outcome : WriteOutcome} (hdeciding : (s.phase i).Deciding) (hid : (s.phase i).operation = some id)
    (hs : (if state ∈ recordedStates then
        some ((s.withStore (setState s.store id state result error now outcome).2).goto i
          (.returned (some id))) else none) = some s') :
    s.store.memory.Evolves s'.store.memory ∧ Turn fingerprintOf requests key s s' e := by
  split at hs
  case isFalse => cases hs
  case isTrue hstate =>
    obtain rfl := Option.some.inj hs
    have hne := recorded_ne_created hstate
    exact ⟨setState_evolves s.store id hne result error now outcome,
      .record i id hdeciding hid (fun hbound => setState_moved hbound hne result error now outcome) rfl rfl⟩

/-- Every step advances the store and takes a turn of one request at most. -/
theorem races_step (hkey : key ≠ "") (hwf : WellFormed s.store.memory)
    (hs : (races fingerprintOf requests key).step s e = some s') :
    s.store.memory.Evolves s'.store.memory ∧ Turn fingerprintOf requests key s s' e := by
  cases e with
  | look i newId now outcome recorded =>
      simp only [races] at hs
      split at hs
      · next hfresh => exact look_turn hkey hwf hfresh.1 hfresh.2 outcome recorded (Option.some.inj hs).symm rfl
      · cases hs
  | prepare i newId now outcome recorded =>
      simp only [races] at hs
      split at hs
      · next id kind hfrom hnested =>
          split at hs
          · next hfresh => exact prepare_turn i hfrom hfresh outcome recorded (Option.some.inj hs).symm
          · cases hs
      · cases hs
  | perform i =>
      simp only [races] at hs
      split at hs
      · next id hfrom =>
          split at hs
          · obtain rfl := Option.some.inj hs
            exact ⟨.refl _, .act i id _ (by rw [hfrom]; trivial) (by rw [hfrom]; rfl) (.inl rfl) rfl rfl⟩
          · cases hs
      · next id nestedId hfrom =>
          obtain rfl := Option.some.inj hs
          exact ⟨.refl _, .act i id _ (by rw [hfrom]; trivial) (by rw [hfrom]; rfl) (.inl rfl) rfl rfl⟩
      · next id hfrom =>
          obtain rfl := Option.some.inj hs
          exact ⟨.refl _, .act i id _ (by rw [hfrom]; trivial) (by rw [hfrom]; rfl)
            (.inr ⟨hfrom, rfl⟩) rfl rfl⟩
      · cases hs
  | record i state result error now outcome =>
      simp only [races] at hs
      split at hs
      · next id hfrom => exact record_turn i (by rw [hfrom]; trivial) (by rw [hfrom]; rfl) hs
      · next id nestedId hfrom => exact record_turn i (by rw [hfrom]; trivial) (by rw [hfrom]; rfl) hs
      · next id hfrom => exact record_turn i (by rw [hfrom]; trivial) (by rw [hfrom]; rfl) hs
      · cases hs
  | leave i =>
      simp only [races] at hs
      split at hs
      · next id hfrom =>
          split at hs
          · obtain rfl := Option.some.inj hs
            exact ⟨.refl _, .pass i id _ hfrom (.inr (.inr rfl)) rfl rfl⟩
          · cases hs
      · cases hs
  | verified =>
      obtain rfl := Option.some.inj hs
      exact ⟨.refl _, .aside rfl rfl⟩
  | other c outcome =>
      simp only [races] at hs
      split at hs
      · next hc =>
          obtain rfl := Option.some.inj hs
          exact ⟨run_evolves s.store c outcome hc.1 hc.2, .aside rfl rfl⟩
      · cases hs

/-! ## All requests refer to one operation -/

variable (fingerprintOf requests key) in
/-- Every request that knows an operation knows the one of the key, and so does every one that acted. -/
structure Referring (s : Race ι Value) : Prop where
  wellFormed : WellFormed s.store.memory
  refers : ∀ i id, (s.phase i).operation = some id →
    s.store.memory.Bound key ((requests i).fingerprint fingerprintOf) id
  performed : ∀ i ∈ s.performed, ∃ id,
    s.store.memory.Bound key ((requests i).fingerprint fingerprintOf) id

omit [DecidableEq ι] in
theorem Referring.gathered (hasPath damaged : Bool) :
    Referring fingerprintOf requests key (gathered hasPath damaged : Race ι Value) :=
  ⟨(Sound.opened hasPath damaged).wellFormed, fun _ _ h => (by cases h), fun _ h => (by cases h)⟩

/-- A turn of one request keeps what the others know. -/
theorem Referring.update (h : Referring fingerprintOf requests key s)
    (hevolves : s.store.memory.Evolves s'.store.memory) {i : ι} {phase : Phase}
    (hphase : s'.phase = Function.update s.phase i phase)
    (hknown : ∀ id, phase.operation = some id →
      s'.store.memory.Bound key ((requests i).fingerprint fingerprintOf) id)
    (hperformed : ∀ j ∈ s'.performed, j ∈ s.performed ∨ j = i ∧ (s.phase i).operation.isSome) :
    Referring fingerprintOf requests key s' := by
  refine ⟨hevolves.wellFormed h.wellFormed, fun j id hid => ?_, fun j hj => ?_⟩
  · rw [hphase] at hid
    by_cases hji : j = i
    · subst hji
      rw [Function.update_self] at hid
      exact hknown id hid
    · rw [Function.update_of_ne hji] at hid
      exact (h.refers j id hid).extend hevolves.extends_
  · obtain hold | ⟨rfl, hknows⟩ := hperformed j hj
    · obtain ⟨id, hbound⟩ := h.performed j hold
      exact ⟨id, hbound.extend hevolves.extends_⟩
    · obtain ⟨id, hid⟩ := Option.isSome_iff_exists.mp hknows
      exact ⟨id, (h.refers j id hid).extend hevolves.extends_⟩

theorem Referring.step (h : Referring fingerprintOf requests key s) (hkey : key ≠ "")
    (hs : (races fingerprintOf requests key).step s e = some s') :
    Referring fingerprintOf requests key s' := by
  obtain ⟨hevolves, hturn⟩ := races_step hkey h.wellFormed hs
  have hkept : ∀ {i id}, (s.phase i).operation = some id →
      s'.store.memory.Bound key ((requests i).fingerprint fingerprintOf) id :=
    fun hid => (h.refers _ _ hid).extend hevolves.extends_
  cases hturn with
  | aside hphase hperformed =>
      refine ⟨hevolves.wellFormed h.wellFormed, fun i id hid => ?_, fun i hi => ?_⟩
      · exact hkept (hphase ▸ hid)
      · obtain ⟨id, hbound⟩ := h.performed i (hperformed ▸ hi)
        exact ⟨id, hbound.extend hevolves.extends_⟩
  | refuse i hidle hphase hperformed =>
      exact h.update hevolves hphase (fun _ hid => by cases hid) fun j hj => .inl (hperformed ▸ hj)
  | reply i id hidle hbound hphase hperformed =>
      refine h.update hevolves hphase (fun id' hid => ?_) fun j hj => .inl (hperformed ▸ hj)
      obtain rfl := Option.some.inj hid
      exact hbound
  | take i id phase newId now outcome recorded hevent hidle hbound hfound hnext hphase hperformed =>
      refine h.update hevolves hphase (fun id' hid => ?_) fun j hj => .inl (hperformed ▸ hj)
      obtain rfl | ⟨rfl, -⟩ := hnext
      · obtain rfl := Option.some.inj hid
        exact hbound
      · obtain rfl := Option.some.inj hid
        exact hbound
  | pass i id phase hfrom hnext hphase hperformed =>
      refine h.update hevolves hphase (fun id' hid => ?_) fun j hj => .inl (hperformed ▸ hj)
      have hknown : s'.store.memory.Bound key ((requests i).fingerprint fingerprintOf) id :=
        hkept (by rw [hfrom]; rfl)
      obtain rfl | ⟨nestedId, rfl⟩ | rfl := hnext
      all_goals
        obtain rfl := Option.some.inj hid
        exact hknown
  | act i id phase hpending hid hnext hphase hperformed =>
      refine h.update hevolves hphase (fun id' hid' => ?_) fun j hj => ?_
      · obtain rfl | ⟨-, rfl⟩ := hnext
        all_goals
          obtain rfl := Option.some.inj hid'
          exact hkept hid
      · rw [hperformed] at hj
        obtain rfl | hj := List.mem_cons.mp hj
        · exact .inr ⟨rfl, by rw [hid]; rfl⟩
        · exact .inl hj
  | record i id hdeciding hid hmoved hphase hperformed =>
      refine h.update hevolves hphase (fun id' hid' => ?_) fun j hj => .inl (hperformed ▸ hj)
      obtain rfl := Option.some.inj hid'
      exact hkept hid

/-! ## Undisturbed requests act once -/

variable (fingerprintOf requests key) in
/-- A request does not find the operation as created while another that found it so is still to record
a state. -/
def Undisturbed (s : Race ι Value) : RaceEvent ι Value → Prop
  | .look i _ _ _ _ => (∃ j, (s.phase j).Deciding) → ¬ Finds fingerprintOf requests key s i
  | _ => True

variable (key) in
/-- One request at most is about to act or to record, and after an action no other is. -/
structure Once (s : Race ι Value) : Prop where
  one : ∀ i j, (s.phase i).Deciding ∨ (s.phase i).Pending → (s.phase j).Deciding ∨ (s.phase j).Pending →
    i = j
  started : ∀ i id, s.phase i = .started id → Moved s.store.memory key
  count : s.performed = [] ∨ ∃ i, s.performed = [i] ∧ (∀ j, ¬ (s.phase j).Pending) ∧
    (∀ j, (s.phase j).Deciding → j = i) ∧ ((s.phase i).Deciding ∨ Moved s.store.memory key)

omit [DecidableEq ι] in
theorem Once.gathered (hasPath damaged : Bool) : Once key (gathered hasPath damaged : Race ι Value) :=
  ⟨fun _ _ h => h.elim False.elim False.elim, fun _ _ h => (by cases h), .inl rfl⟩

/-- A turn after which nobody is nearer to an action. -/
theorem Once.quiet (h : Once key s) (hevolves : s.store.memory.Evolves s'.store.memory)
    {i : ι} {phase : Phase} (hphase : s'.phase = Function.update s.phase i phase)
    (hperformed : s'.performed = s.performed) (hpending : phase.Pending → (s.phase i).Pending)
    (hdeciding : phase.Deciding → (s.phase i).Deciding) (hstarted : ∀ id, phase ≠ .started id)
    (hacted : s.performed = [i] → (s.phase i).Deciding → Moved s'.store.memory key) : Once key s' := by
  have hpend : ∀ j, (s'.phase j).Pending → (s.phase j).Pending := by
    intro j hj
    rw [hphase] at hj
    by_cases hji : j = i
    · subst hji
      rw [Function.update_self] at hj
      exact hpending hj
    · rwa [Function.update_of_ne hji] at hj
  have hdecide : ∀ j, (s'.phase j).Deciding → (s.phase j).Deciding := by
    intro j hj
    rw [hphase] at hj
    by_cases hji : j = i
    · subst hji
      rw [Function.update_self] at hj
      exact hdeciding hj
    · rwa [Function.update_of_ne hji] at hj
  refine ⟨fun j k hj hk => ?_, fun j id hj => ?_, ?_⟩
  · exact h.one j k (hj.imp (hdecide j) (hpend j)) (hk.imp (hdecide k) (hpend k))
  · rw [hphase] at hj
    by_cases hji : j = i
    · subst hji
      rw [Function.update_self] at hj
      exact absurd hj (hstarted id)
    · rw [Function.update_of_ne hji] at hj
      exact (h.started j id hj).evolve hevolves
  · rw [hperformed]
    refine h.count.imp_right fun ⟨k, hk, hnone, honly, hlast⟩ => ?_
    refine ⟨k, hk, fun j hj => hnone j (hpend j hj), fun j hj => honly j (hdecide j hj), ?_⟩
    obtain hk' | hk' := hlast
    · by_cases hki : k = i
      · subst hki
        exact .inr (hacted hk hk')
      · rw [hphase, Function.update_of_ne hki]
        exact .inl hk'
    · exact .inr (hk'.evolve hevolves)

omit [DecidableEq ι] in
/-- A request that knows an operation knows it through the key. -/
theorem Referring.lookup_ne_none (h : Referring fingerprintOf requests key s) {i : ι}
    (hi : (s.phase i).Deciding ∨ (s.phase i).Pending) : s.store.memory.requestIds.lookup key ≠ none := by
  have hknown : ∃ id, (s.phase i).operation = some id := by
    cases hphase : s.phase i with
    | idle | returned => simp [hphase, Phase.Deciding, Phase.Pending] at hi
    | found id | started id | performed id => exact ⟨id, rfl⟩
    | prepared id nestedId => exact ⟨id, rfl⟩
  obtain ⟨id, hid⟩ := hknown
  rw [(h.refers i id hid).1]
  exact Option.some_ne_none id

omit [DecidableEq ι] in
/-- Where the operation of the key is not there or waits undisturbed, nobody is under way and nobody
has acted. -/
theorem Once.nobody (h : Once key s) (hrefer : Referring fingerprintOf requests key s) {i : ι}
    (hfound : s.store.memory.requestIds.lookup key = none ∨ Finds fingerprintOf requests key s i)
    (hguard : (∃ j, (s.phase j).Deciding) → ¬ Finds fingerprintOf requests key s i) :
    (∀ j, ¬ ((s.phase j).Deciding ∨ (s.phase j).Pending)) ∧ s.performed = [] := by
  obtain hnone | hwaits := hfound
  · have hactive : ∀ j, ¬ ((s.phase j).Deciding ∨ (s.phase j).Pending) :=
      fun j hj => hrefer.lookup_ne_none hj hnone
    refine ⟨hactive, h.count.resolve_right ?_⟩
    rintro ⟨k, hk, -, -, -⟩
    obtain ⟨id, hbound⟩ := hrefer.performed k (hk ▸ List.mem_singleton_self k)
    cases hnone.symm.trans hbound.1
  · have hdeciding : ∀ j, ¬ (s.phase j).Deciding := fun j hj => hguard ⟨j, hj⟩ hwaits
    have hmoved : ¬ Moved s.store.memory key := fun h => h.not_waits hwaits
    refine ⟨fun j hj => ?_, h.count.resolve_right ?_⟩
    · cases hphase : s.phase j with
      | idle | returned => simp [hphase, Phase.Deciding, Phase.Pending] at hj
      | found | prepared | performed => exact hdeciding j (by rw [hphase]; trivial)
      | started id => exact hmoved (h.started j id hphase)
    · rintro ⟨k, -, -, -, hlast⟩
      exact hlast.elim (hdeciding k) hmoved

theorem Once.step (h : Once key s) (hrefer : Referring fingerprintOf requests key s) (hkey : key ≠ "")
    (hguard : Undisturbed fingerprintOf requests key s e)
    (hs : (races fingerprintOf requests key).step s e = some s') : Once key s' := by
  obtain ⟨hevolves, hturn⟩ := races_step hkey hrefer.wellFormed hs
  cases hturn with
  | aside hphase hperformed =>
      refine ⟨by rw [hphase]; exact h.one, fun i id hi => ?_, ?_⟩
      · exact (h.started i id (hphase ▸ hi)).evolve hevolves
      · rw [hperformed, hphase]
        refine h.count.imp_right fun ⟨i, hi, hnone, honly, hlast⟩ => ⟨i, hi, hnone, honly, ?_⟩
        exact hlast.imp_right fun hmoved => hmoved.evolve hevolves
  | refuse i hidle hphase hperformed =>
      exact h.quiet hevolves hphase hperformed False.elim False.elim (fun _ => by simp)
        fun _ hi => by rw [hidle] at hi; exact hi.elim
  | reply i id hidle hbound hphase hperformed =>
      exact h.quiet hevolves hphase hperformed False.elim False.elim (fun _ => by simp)
        fun _ hi => by rw [hidle] at hi; exact hi.elim
  | pass i id phase hfrom hnext hphase hperformed =>
      refine h.quiet hevolves hphase hperformed ?_ ?_ ?_ ?_
      · rw [hfrom]
        exact fun _ => trivial
      · rw [hfrom]
        exact fun _ => trivial
      · obtain rfl | ⟨nestedId, rfl⟩ | rfl := hnext
        all_goals simp
      · intro hi
        -- who has acted is no longer where it found its operation
        obtain hnil | ⟨k, hk, hnone, -, -⟩ := h.count
        · cases hnil.symm.trans hi
        · exact absurd (by rw [hfrom]; trivial) (hnone i)
  | record i id hdeciding hid hmoved hphase hperformed =>
      exact h.quiet hevolves hphase hperformed False.elim False.elim (fun _ => by simp)
        fun _ _ => hmoved (hrefer.refers i id hid)
  | take i id phase newId now outcome recorded hevent hidle hbound hfound hnext hphase hperformed =>
      subst hevent
      obtain ⟨hnobody, hnil⟩ := h.nobody hrefer hfound hguard
      have honly : ∀ j, (s'.phase j).Deciding ∨ (s'.phase j).Pending → j = i := by
        intro j hj
        by_contra hji
        rw [hphase, Function.update_of_ne hji] at hj
        exact hnobody j hj
      refine ⟨fun j k hj hk => (honly j hj).trans (honly k hk).symm, fun j id' hj => ?_, ?_⟩
      · obtain rfl : j = i := honly j (.inr (by rw [hj]; trivial))
        rw [hphase, Function.update_self] at hj
        obtain rfl | ⟨-, hmoved⟩ := hnext
        · cases hj
        · exact hmoved
      · exact .inl (hperformed.trans hnil)
  | act i id phase hpending hid hnext hphase hperformed =>
      have hnil : s.performed = [] := h.count.resolve_right fun ⟨_, _, hnone, _⟩ => hnone i hpending
      have hother : ∀ j, j ≠ i → ¬ ((s.phase j).Deciding ∨ (s.phase j).Pending) :=
        fun j hji hj => hji (h.one j i hj (.inr hpending))
      have honly : ∀ j, (s'.phase j).Deciding ∨ (s'.phase j).Pending → j = i := by
        intro j hj
        by_contra hji
        rw [hphase, Function.update_of_ne hji] at hj
        exact hother j hji hj
      have hnone : ∀ j, ¬ (s'.phase j).Pending := by
        intro j hj
        obtain rfl := honly j (.inr hj)
        rw [hphase, Function.update_self] at hj
        obtain rfl | ⟨-, rfl⟩ := hnext
        · exact hj
        · exact hj
      refine ⟨fun j k hj hk => (honly j hj).trans (honly k hk).symm, fun j id' hj => ?_, .inr ⟨i, ?_, hnone,
        fun j hj => honly j (.inl hj), ?_⟩⟩
      · exact absurd (by rw [hj]; trivial) (hnone j)
      · rw [hperformed, hnil]
      · rw [hphase, Function.update_self]
        obtain rfl | ⟨hstarted, rfl⟩ := hnext
        · exact .inl trivial
        · exact .inr ((h.started i id hstarted).evolve hevolves)

variable (fingerprintOf requests) in
/-- In every interleaving all requests under a key refer to one operation, and those that act have
one fingerprint. Where no request finds the operation as created while another is still to record a
state, one request acts at most. -/
theorem performed_at_most_once (hkey : key ≠ "") {hasPath damaged : Bool} {events : List (RaceEvent ι Value)}
    (h : (races fingerprintOf requests key).run (gathered hasPath damaged) events = some s) :
    (∀ i j id id', (s.phase i).operation = some id → (s.phase j).operation = some id' → id = id') ∧
    (∀ i ∈ s.performed, ∀ j ∈ s.performed,
      (requests i).fingerprint fingerprintOf = (requests j).fingerprint fingerprintOf) ∧
    ((races fingerprintOf requests key).Follows (Undisturbed fingerprintOf requests key)
      (gathered hasPath damaged) events → s.performed.length ≤ 1) := by
  have hreach := Machine.reachable_of_run h
  have hrefer : Referring fingerprintOf requests key s :=
    hreach.invariant (Referring.gathered hasPath damaged) fun _ _ _ _ hs _ he => hs.step hkey he
  have hunique : ∀ {f f' id id'}, s.store.memory.Bound key f id → s.store.memory.Bound key f' id' →
      id = id' ∧ f = f' := by
    intro f f' id id' hbound hbound'
    obtain rfl := Option.some.inj (hbound.1.symm.trans hbound'.1)
    obtain ⟨-, o, ho, -, hf⟩ := hbound
    obtain ⟨-, o', ho', -, hf'⟩ := hbound'
    obtain rfl := Option.some.inj (ho.symm.trans ho')
    exact ⟨rfl, Option.some.inj (hf.symm.trans hf')⟩
  refine ⟨fun i j id id' hi hj => ?_, fun i hi j hj => ?_, fun hfollows => ?_⟩
  · exact (hunique (hrefer.refers i id hi) (hrefer.refers j id' hj)).1
  · obtain ⟨id, hbound⟩ := hrefer.performed i hi
    obtain ⟨id', hbound'⟩ := hrefer.performed j hj
    exact (hunique hbound hbound').2
  · have honce := Machine.run_invariant (fun s => Once key s ∧ Referring fingerprintOf requests key s)
      (fun _ _ _ hs hguard he => ⟨hs.1.step hs.2 hkey hguard he, hs.2.step hkey he⟩)
      ⟨Once.gathered hasPath damaged, Referring.gathered hasPath damaged⟩ hfollows h
    obtain hnil | ⟨i, hi, -⟩ := honce.1.count
    · rw [hnil]
      exact Nat.zero_le 1
    · rw [hi]
      exact Nat.le_refl 1

end Races

/-! ## Two requests -/

/-- A client sends a command and repeats its request. -/
def repeatedSend (_ : Bool) : Request String :=
  { endpoint := sendModule, actor := "ai:grant", payload := "reboot", nestedPayload := "" }

def repeatedRaces : Machine (Race Bool String) (RaceEvent Bool String) :=
  races (fun kind payload => kind ++ payload) repeatedSend "req-1"

/-- The second request comes after the first has recorded how it ended. -/
def afterward : List (RaceEvent Bool String) :=
  [.look false "op-1" "t0" .ok .ok, .perform false, .record false "succeeded" none none "t1" .ok,
    .look true "op-2" "t2" .ok .ok]

theorem afterward_sends_once : ∃ s, repeatedRaces.run (gathered true false) afterward = some s ∧
    s.performed.length ≤ 1 := by
  have hrun : ∃ s, repeatedRaces.run (gathered true false) afterward = some s := ⟨_, rfl⟩
  obtain ⟨s, hs⟩ := hrun
  refine ⟨s, hs, (performed_at_most_once (fun kind payload => kind ++ payload) repeatedSend
    (by decide : "req-1" ≠ "") hs).2.2 ?_⟩
  refine And.intro ?_ fun s hs => ?_
  · exact fun h => h.elim fun _ hj => hj.elim
  · obtain rfl := Option.some.inj hs
    refine ⟨trivial, fun s hs => ?_⟩
    obtain rfl := Option.some.inj hs
    refine ⟨trivial, fun s hs => ?_⟩
    obtain rfl := Option.some.inj hs
    refine ⟨?_, fun _ _ => trivial⟩
    rintro ⟨j, hj⟩
    cases j with
    | false => exact False.elim hj
    | true => exact False.elim hj

/-- The second request asks for the operation before the first has recorded anything. -/
def meanwhile : List (RaceEvent Bool String) :=
  [.look false "op-1" "t0" .ok .ok, .look true "op-2" "t0" .ok .ok, .perform false, .perform true]

/-- Both requests send the command. -/
theorem meanwhile_sends_twice :
    ¬ ∀ (events : List (RaceEvent Bool String)) (s : Race Bool String),
      repeatedRaces.run (gathered true false) events = some s → s.performed.length ≤ 1 := by
  intro hclaim
  have hrun : ∃ s, repeatedRaces.run (gathered true false) meanwhile = some s ∧
      s.performed = [true, false] := ⟨_, rfl, rfl⟩
  obtain ⟨s, hs, hperformed⟩ := hrun
  have hlength := hclaim meanwhile s hs
  rw [hperformed] at hlength
  revert hlength
  decide

end HplcWorkbench.Control
