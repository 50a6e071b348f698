import HplcWorkbench.VerificationLane

/-!
# The guard of the verifications

A guard that is set belongs to the verification that was admitted last, whose worker is about to start
or has not finished and whose watchdog is still to come or pending. It is left behind by a request
exactly when the write of its first state fails, and then it stays set.
-/

namespace HplcWorkbench.Control

open Transitions OperationStore

section Lanes
variable {Value : Type} {fingerprintOf : String → Value → String} {s s' : Lane Value}
  {e : LaneEvent Value} {i : ℕ}

/-! ## What a thread does -/

/-- Somebody will leave the gate for the verification: its worker, and its watchdog should the worker
hang. Before they are started its request is on the way to start them. -/
structure Verification.Attended (v : Verification) : Prop where
  worker : v.launch = .startThread ∧ v.worker = .unborn ∨ v.worker = .verifying ∨ v.worker = .failing ∨
    v.worker = .finishing
  watchdog : v.launch = .startThread ∨ v.launch = .startWatchdog ∨ v.watchdog = .pending

/-- What a step of a thread does: it leaves the gate only for the verification that was admitted last,
and sets a state of its own operation only. -/
structure Turned (s s' : Lane Value) (i : ℕ) (v v' : Verification) : Prop where
  old : s.verifications[i]? = some v
  new : s'.verifications = s.verifications.set i v'
  generation : v'.generation = v.generation
  operationId : v'.operationId = v.operationId
  current : s'.generation = s.generation
  store : s'.store = s.store ∨ ∃ state result error now outcome, state ≠ "created" ∧
    s'.store = (OperationStore.setState s.store v.operationId state result error now outcome).2
  older : v.generation ≠ s.generation → s'.running = s.running
  running : s'.running = true → s.running = true
  attended : v.generation = s.generation → s'.running = true → v.Attended → v'.Attended

theorem turn_eq {enabled : Verification → Prop} [DecidablePred enabled]
    {f : Verification → Lane Value × Verification} (h : s.turn i enabled f = some s') :
    ∃ v, s.verifications[i]? = some v ∧ enabled v ∧
      s' = { (f v).1 with verifications := s.verifications.set i (f v).2 } := by
  unfold Lane.turn at h
  split at h
  · cases h
  · next v hv =>
      split at h
      · next henabled => exact ⟨v, hv, henabled, (Option.some.inj h).symm⟩
      · cases h

/-- A step that starts something or ends a thread whose verification has left the gate. -/
theorem Turned.of_aside {v v' : Verification} {watchdogs : List ℕ} (hold : s.verifications[i]? = some v)
    (hgeneration : v'.generation = v.generation) (hid : v'.operationId = v.operationId)
    (hattended : v.Attended → v'.Attended) :
    Turned s { s with watchdogs := watchdogs, verifications := s.verifications.set i v' } i v v' :=
  ⟨hold, rfl, hgeneration, hid, rfl, .inl rfl, fun _ => rfl, id, fun _ _ => hattended⟩

/-- A step that sets a state. -/
theorem Turned.of_setState {v v' : Verification} {state : String} {result : Option Value}
    {error : Option String} {now : String} {outcome : WriteOutcome}
    (hold : s.verifications[i]? = some v) (hstate : state ≠ "created")
    (hgeneration : v'.generation = v.generation) (hid : v'.operationId = v.operationId)
    (hattended : v.Attended → v'.Attended) :
    Turned s { (s.setState v.operationId state result error now outcome).1 with
      verifications := s.verifications.set i v' } i v v' :=
  ⟨hold, rfl, hgeneration, hid, rfl, .inr ⟨state, result, error, now, outcome, hstate, rfl⟩, fun _ => rfl,
    id, fun _ _ => hattended⟩

theorem finish_turned {v : Verification} (hold : s.verifications[i]? = some v)
    (hs : s' = (fun r : Lane Value × Verification =>
      { r.1 with verifications := s.verifications.set i r.2 })
      (if v.generation = s.generation then
        ({ s.pop v.generation with running := false },
          { v with worker := if v.generation ∈ s.watchdogs then .cancelling else .ended })
      else (s, { v with worker := .ended }))) : ∃ v', Turned s s' i v v' := by
  split at hs
  · next hcurrent =>
      subst hs
      exact ⟨_, hold, rfl, rfl, rfl, rfl, .inl rfl, fun hne => absurd hcurrent hne, fun h => (by cases h),
        fun _ h => (by cases h)⟩
  · next hold' =>
      subst hs
      exact ⟨_, hold, rfl, rfl, rfl, rfl, .inl rfl, fun _ => rfl, id, fun h => absurd h hold'⟩

theorem expire_turned {v : Verification} (hold : s.verifications[i]? = some v)
    (hs : s' = (fun r : Lane Value × Verification =>
      { r.1 with verifications := s.verifications.set i r.2 })
      (if v.generation ≠ s.generation ∨ s.running = false then
        (s.pop v.generation, { v with watchdog := .ended })
      else ({ s.pop v.generation with running := false }, { v with watchdog := .expired }))) :
    ∃ v', Turned s s' i v v' := by
  split at hs
  · next hlate =>
      subst hs
      refine ⟨_, hold, rfl, rfl, rfl, rfl, .inl rfl, fun _ => rfl, id, fun hcurrent hrunning => ?_⟩
      obtain hne | hfree := hlate
      · exact absurd hcurrent hne
      · cases hrunning.symm.trans hfree
  · next hdue =>
      subst hs
      have hcurrent : v.generation = s.generation := not_not.mp fun hne => hdue (.inl hne)
      exact ⟨_, hold, rfl, rfl, rfl, rfl, .inl rfl, fun hne => absurd hcurrent hne, fun h => (by cases h),
        fun _ h => (by cases h)⟩

variable (fingerprintOf) in
/-- The gate is free, and the operation of the request comes back as created. -/
def Lane.Admits (s : Lane Value) (actor : String) (task : Value) (clientRequestId newId now : String)
    (outcome : WriteOutcome) : Prop :=
  s.running = false ∧ ∃ o store, create fingerprintOf s.store "simcon_verify" actor task clientRequestId none
    none newId now outcome = (.ok (.operation o), store) ∧ o.state = "created"

variable (fingerprintOf) in
/-- The write of the first state of a verification that is admitted does not fail. -/
def Recorded (s : Lane Value) : LaneEvent Value → Prop
  | .request actor task clientRequestId newId now outcome recorded =>
    s.Admits fingerprintOf actor task clientRequestId newId now outcome →
      s.store.hasPath = true → recorded = .ok
  | _ => True

variable (fingerprintOf) in
/-- A step is a request, a step of a thread, or a call on the store from elsewhere. -/
theorem lane_step_cases (hs : (lane fingerprintOf).step s e = some s') :
    (∃ actor task clientRequestId newId now outcome recorded,
      e = .request actor task clientRequestId newId now outcome recorded ∧
      newId ≠ "" ∧ newId ∉ s.store.memory.operations.map Prod.fst ∧
      s' = s.request fingerprintOf actor task clientRequestId newId now outcome recorded) ∨
    (∃ i v v', Recorded fingerprintOf s e ∧ (∀ j, e.thread = some j → j = i) ∧ Turned s s' i v v') ∨
    (∃ c outcome, e = .other c outcome ∧ c.Fresh s.store.memory ∧ c.Advances ∧
      (∀ v ∈ s.verifications, sets c ≠ some v.operationId) ∧
      s' = { s with store := (c.run fingerprintOf s.store outcome).2 }) := by
  have hself : ∀ {i j : ℕ}, some i = some j → j = i := fun h => (Option.some.inj h).symm
  cases e with
  | request actor task clientRequestId newId now outcome recorded =>
      simp only [lane] at hs
      split at hs
      · next hfresh =>
          exact .inl ⟨actor, task, clientRequestId, newId, now, outcome, recorded, rfl, hfresh.1, hfresh.2,
            (Option.some.inj hs).symm⟩
      · cases hs
  | startThread i =>
      dsimp only [lane] at hs
      obtain ⟨v, hold, hlaunch, rfl⟩ := turn_eq hs
      refine .inr (.inl ⟨i, v, _, trivial, fun _ h => (by cases h), Turned.of_aside hold rfl rfl fun h => ?_⟩)
      exact ⟨.inr (.inl rfl), .inr (.inl rfl)⟩
  | startWatchdog i =>
      dsimp only [lane] at hs
      obtain ⟨v, hold, hlaunch, rfl⟩ := turn_eq hs
      refine .inr (.inl ⟨i, v, _, trivial, fun _ h => (by cases h), Turned.of_aside hold rfl rfl fun h => ?_⟩)
      refine ⟨.inr (h.worker.resolve_left fun hstart => ?_), .inr (.inr rfl)⟩
      cases hlaunch.symm.trans hstart.1
  | register i =>
      dsimp only [lane] at hs
      obtain ⟨v, hold, hlaunch, rfl⟩ := turn_eq hs
      refine .inr (.inl ⟨i, v, _, trivial, fun _ h => (by cases h), Turned.of_aside hold rfl rfl fun h => ?_⟩)
      refine ⟨.inr (h.worker.resolve_left fun hstart => ?_), .inr (.inr ?_)⟩
      · cases hlaunch.symm.trans hstart.1
      · obtain hstart | hstart | hpending := h.watchdog
        · cases hlaunch.symm.trans hstart
        · cases hlaunch.symm.trans hstart
        · exact hpending
  | succeed i result now outcome audited =>
      dsimp only [lane] at hs
      obtain ⟨v, hold, hworker, rfl⟩ := turn_eq hs
      refine .inr (.inl ⟨i, v, _, trivial, fun _ => hself, Turned.of_setState hold (by decide) rfl rfl fun h => ?_⟩)
      refine ⟨.inr (.inr ?_), h.watchdog⟩
      dsimp only
      split
      · exact .inr rfl
      · exact .inl rfl
  | fail i text now outcome =>
      dsimp only [lane] at hs
      obtain ⟨v, hold, hworker, rfl⟩ := turn_eq hs
      refine .inr (.inl ⟨i, v, _, trivial, fun _ => hself, Turned.of_setState hold (by decide) rfl rfl fun h => ?_⟩)
      exact ⟨.inr (.inr (.inr rfl)), h.watchdog⟩
  | finish i =>
      dsimp only [lane] at hs
      obtain ⟨v, hold, hworker, hs'⟩ := turn_eq hs
      obtain ⟨v', hturned⟩ := finish_turned hold hs'
      exact .inr (.inl ⟨i, v, v', trivial, fun _ => hself, hturned⟩)
  | cancelWatchdog i =>
      dsimp only [lane] at hs
      obtain ⟨v, hold, hworker, rfl⟩ := turn_eq hs
      refine .inr (.inl ⟨i, v, _, trivial, fun _ => hself, Turned.of_aside hold rfl rfl fun h => ?_⟩)
      obtain h | h | h | h := h.worker
      · cases hworker.symm.trans h.2
      · cases hworker.symm.trans h
      · cases hworker.symm.trans h
      · cases hworker.symm.trans h
  | expire i =>
      dsimp only [lane] at hs
      obtain ⟨v, hold, hpending, hs'⟩ := turn_eq hs
      obtain ⟨v', hturned⟩ := expire_turned hold hs'
      exact .inr (.inl ⟨i, v, v', trivial, fun _ => hself, hturned⟩)
  | storeExpiry i text now outcome =>
      dsimp only [lane] at hs
      obtain ⟨v, hold, hexpired, rfl⟩ := turn_eq hs
      refine .inr (.inl ⟨i, v, _, trivial, fun _ => hself, Turned.of_setState hold (by decide) rfl rfl fun h => ?_⟩)
      obtain hstart | hstart | hpending := h.watchdog
      · exact ⟨h.worker, .inl hstart⟩
      · exact ⟨h.worker, .inr (.inl hstart)⟩
      · cases hexpired.symm.trans hpending
  | other c outcome =>
      simp only [lane] at hs
      split at hs
      · next hc =>
          exact .inr (.inr ⟨c, outcome, rfl, hc.1, hc.2.1, hc.2.2, (Option.some.inj hs).symm⟩)
      · cases hs

/-! ## What holds of every run -/

/-- Every verification has a generation and an operation of its own, which has left its first state; the
one that was admitted last is attended while the guard is set. -/
structure Admitted (s : Lane Value) : Prop where
  wellFormed : WellFormed s.store.memory
  generations : (s.verifications.map (·.generation)).Nodup
  bounded : ∀ v ∈ s.verifications, v.generation ≤ s.generation
  operations : (s.verifications.map (·.operationId)).Nodup
  left : ∀ v ∈ s.verifications, ∃ o, s.store.memory.operations.lookup v.operationId = some o ∧
    o.state ≠ "created"
  attended : s.running = true → ∀ v ∈ s.verifications, v.generation = s.generation → v.Attended

theorem Admitted.emptyLane (hasPath damaged : Bool) : Admitted (emptyLane hasPath damaged : Lane Value) :=
  ⟨(Sound.opened hasPath damaged).wellFormed, List.nodup_nil, fun _ h => absurd h List.not_mem_nil,
    List.nodup_nil, fun _ h => absurd h List.not_mem_nil, fun h => (by cases h)⟩

/-- Calls on the store that leave the lane as it is. -/
theorem Admitted.withStore (h : Admitted s) {store : Store Value}
    (hevolves : s.store.memory.Evolves store.memory) : Admitted { s with store := store } := by
  refine ⟨hevolves.wellFormed h.wellFormed, h.generations, h.bounded, h.operations, fun v hv => ?_, h.attended⟩
  obtain ⟨o, ho, hstate⟩ := h.left v hv
  exact hevolves.left _ o ho hstate

theorem map_set_of_eq {α β : Type} {l : List α} {i : ℕ} {a b : α} (f : α → β) (ha : l[i]? = some a)
    (hb : f b = f a) : (l.set i b).map f = l.map f := by
  rw [List.map_set, hb]
  refine List.ext_getElem? fun j => ?_
  rw [List.getElem?_set]
  split
  · next hij =>
      subst hij
      have hlt : i < (l.map f).length := by
        rw [List.length_map]
        exact (List.getElem?_eq_some_iff.mp ha).1
      rw [if_pos hlt, List.getElem?_map, ha, Option.map_some]
  · rfl

theorem Turned.evolves {v v' : Verification} (h : Turned s s' i v v') :
    s.store.memory.Evolves s'.store.memory := by
  obtain heq | ⟨state, result, error, now, outcome, hstate, heq⟩ := h.store
  · rw [heq]
    exact .refl _
  · rw [heq]
    exact setState_evolves s.store v.operationId hstate result error now outcome

theorem Turned.mem_old {v v' w : Verification} (h : Turned s s' i v v') (hw : w ∈ s'.verifications) :
    w = v' ∨ w ∈ s.verifications := by
  rw [h.new] at hw
  exact (List.mem_or_eq_of_mem_set hw).symm

theorem Turned.mem {v v' : Verification} (h : Turned s s' i v v') : v ∈ s.verifications :=
  List.mem_of_getElem? h.old

theorem Admitted.turn {v v' : Verification} (h : Admitted s) (hturned : Turned s s' i v v') :
    Admitted s' := by
  refine ⟨hturned.evolves.wellFormed h.wellFormed, ?_, fun w hw => ?_, ?_, fun w hw => ?_, ?_⟩
  · rw [hturned.new, map_set_of_eq _ hturned.old hturned.generation]
    exact h.generations
  · rw [hturned.current]
    obtain rfl | hw := hturned.mem_old hw
    · rw [hturned.generation]
      exact h.bounded v hturned.mem
    · exact h.bounded w hw
  · rw [hturned.new, map_set_of_eq _ hturned.old hturned.operationId]
    exact h.operations
  · have hleft : ∃ o, s.store.memory.operations.lookup w.operationId = some o ∧ o.state ≠ "created" := by
      obtain rfl | hw := hturned.mem_old hw
      · rw [hturned.operationId]
        exact h.left v hturned.mem
      · exact h.left w hw
    obtain ⟨o, ho, hstate⟩ := hleft
    exact hturned.evolves.left _ o ho hstate
  · intro hrunning w hw hcurrent
    rw [hturned.current] at hcurrent
    have hattended := h.attended (hturned.running hrunning)
    obtain rfl | hw := hturned.mem_old hw
    · rw [hturned.generation] at hcurrent
      exact hturned.attended hcurrent hrunning (hattended v hturned.mem hcurrent)
    · exact hattended w hw hcurrent

/-! ## Requests -/

/-- A request that was admitted, and what became of recording its first state. -/
structure Passed (s s' : Lane Value) (recorded : WriteOutcome) : Prop where
  free : s.running = false
  running : s'.running = true
  generation : s'.generation = s.generation + 1
  evolves : s.store.memory.Evolves s'.store.memory
  verifications : (s.store.hasPath = true → recorded = .ok) ∧
      (∃ operationId o, s'.verifications = s.verifications ++
        [⟨s.generation + 1, operationId, .startThread, .unborn, .unborn⟩] ∧
        s'.store.memory.operations.lookup operationId = some o ∧ o.state ≠ "created" ∧
        ∀ v ∈ s.verifications, v.operationId ≠ operationId) ∨
    ¬ (s.store.hasPath = true → recorded = .ok) ∧ s'.verifications = s.verifications

theorem request_cases (h : Admitted s) (actor : String) (task : Value) (clientRequestId : String)
    {newId : String} (hfresh : newId ≠ "" ∧ newId ∉ s.store.memory.operations.map Prod.fst) (now : String)
    (outcome recorded : WriteOutcome)
    (hs : s' = s.request fingerprintOf actor task clientRequestId newId now outcome recorded) :
    (¬ s.Admits fingerprintOf actor task clientRequestId newId now outcome ∧
      ∃ store, s.store.memory.Evolves store.memory ∧ s' = { s with store := store }) ∨
    (s.Admits fingerprintOf actor task clientRequestId newId now outcome ∧ Passed s s' recorded) := by
  have hevolves : s.store.memory.Evolves (create fingerprintOf s.store "simcon_verify" actor task
      clientRequestId none none newId now outcome).2.memory :=
    run_evolves s.store (.create "simcon_verify" actor task clientRequestId none none newId now) outcome
      hfresh trivial
  unfold Lane.request at hs
  split at hs
  · next hrunning =>
      refine .inl ⟨fun hadmits => ?_, s.store, .refl _, hs⟩
      cases hrunning.symm.trans hadmits.1
  · next hfree =>
      cases hcreate : create fingerprintOf s.store "simcon_verify" actor task clientRequestId none none newId
          now outcome with
      | mk answer store =>
          rw [hcreate] at hs hevolves
          have hrefused : (∀ o, answer = .ok (.operation o) → o.state ≠ "created") →
              s' = { s with store := store } →
              (¬ s.Admits fingerprintOf actor task clientRequestId newId now outcome ∧
                ∃ store, s.store.memory.Evolves store.memory ∧ s' = { s with store := store }) ∨
              (s.Admits fingerprintOf actor task clientRequestId newId now outcome ∧ Passed s s' recorded) := by
            rintro hnot rfl
            refine .inl ⟨?_, store, hevolves, rfl⟩
            rintro ⟨-, o, store', hreply, hcreated⟩
            rw [hcreate] at hreply
            exact hnot o (congrArg Prod.fst hreply) hcreated
          match answer, hcreate, hs, hrefused with
          | .error _, _, hs, hrefused => exact hrefused (fun _ h => by cases h) hs
          | .ok (.artifact _), _, hs, hrefused => exact hrefused (fun _ h => by cases h) hs
          | .ok .none, _, hs, hrefused => exact hrefused (fun _ h => by cases h) hs
          | .ok (.operation o), hcreate, hs, hrefused =>
              dsimp only at hs
              split at hs
              · next hstate =>
                  refine hrefused (fun o' ho' => ?_) hs
                  cases ho'
                  exact hstate
              · next hstate =>
                  have hcreated : o.state = "created" := not_not.mp hstate
                  have hfree : s.running = false := Bool.eq_false_iff.mpr hfree
                  refine .inr ⟨⟨hfree, o, store, hcreate, hcreated⟩, ?_⟩
                  have hheld : store.memory.operations.lookup o.operationId = some o :=
                    create_returns h.wellFormed hcreate
                  have hopen : o.state ∉ terminalStates := by
                    rw [hcreated]
                    decide
                  have hpath : store.hasPath = s.store.hasPath := by
                    have hcreated := @create_hasPath _ fingerprintOf s.store "simcon_verify" actor task
                      clientRequestId none none newId now outcome
                    rwa [hcreate] at hcreated
                  have hwaiting : store.memory.Evolves
                      (OperationStore.setState store o.operationId "waiting" none none now recorded).2.memory :=
                    setState_evolves store o.operationId (by decide) none none now recorded
                  have hok := setState_isOk hheld hopen "waiting" none none now recorded
                  have hsettled := setState_settles hheld "waiting" none none now recorded
                  have hother : ∀ v ∈ s.verifications, v.operationId ≠ o.operationId := by
                    intro v hv hid
                    obtain ⟨p, hp, hne⟩ := h.left v hv
                    obtain ⟨p', hp', hne'⟩ := hevolves.left _ p hp hne
                    dsimp only at hp'
                    rw [hid, hheld] at hp'
                    obtain rfl := Option.some.inj hp'
                    exact hne' hcreated
                  cases hset : OperationStore.setState store o.operationId "waiting" none none now recorded with
                  | mk answer' store' =>
                      rw [hset] at hs hok hwaiting hsettled
                      cases answer' with
                      | ok reply =>
                          subst hs
                          refine ⟨hfree, rfl, rfl, hevolves.trans hwaiting,
                            .inl ⟨?_, o.operationId, _, rfl, hsettled, ?_, hother⟩⟩
                          · rw [← hpath]
                            exact hok.mp rfl
                          · exact Operation.settle_state_ne (by decide) none none now
                      | error error =>
                          subst hs
                          refine ⟨hfree, rfl, rfl, hevolves.trans hwaiting, .inr ⟨?_, rfl⟩⟩
                          rw [← hpath]
                          intro hwritten
                          cases hok.mpr hwritten

theorem Admitted.pass {recorded : WriteOutcome} (h : Admitted s) (hpassed : Passed s s' recorded) :
    Admitted s' := by
  have hleft : ∀ v ∈ s.verifications, ∃ o, s'.store.memory.operations.lookup v.operationId = some o ∧
      o.state ≠ "created" := by
    intro v hv
    obtain ⟨o, ho, hstate⟩ := h.left v hv
    exact hpassed.evolves.left _ o ho hstate
  have holder : ∀ v ∈ s.verifications, v.generation ≠ s.generation + 1 :=
    fun v hv => Nat.ne_of_lt (Nat.lt_succ_of_le (h.bounded v hv))
  obtain ⟨-, operationId, o, hnew, ho, hstate, hother⟩ | ⟨-, hsame⟩ := hpassed.verifications
  · refine ⟨hpassed.evolves.wellFormed h.wellFormed, ?_, fun v hv => ?_, ?_, fun v hv => ?_,
      fun _ v hv hcurrent => ?_⟩
    · rw [hnew, List.map_append, List.nodup_append]
      refine ⟨h.generations, List.nodup_singleton _, fun a ha b hb => ?_⟩
      obtain ⟨v, hv, rfl⟩ := List.mem_map.mp ha
      rw [List.mem_singleton.mp hb]
      exact holder v hv
    · rw [hpassed.generation]
      rw [hnew] at hv
      obtain hv | hv := List.mem_append.mp hv
      · exact Nat.le_succ_of_le (h.bounded v hv)
      · obtain rfl := List.mem_singleton.mp hv
        exact Nat.le_refl _
    · rw [hnew, List.map_append, List.nodup_append]
      refine ⟨h.operations, List.nodup_singleton _, fun a ha b hb => ?_⟩
      obtain ⟨v, hv, rfl⟩ := List.mem_map.mp ha
      rw [List.mem_singleton.mp hb]
      exact hother v hv
    · rw [hnew] at hv
      obtain hv | hv := List.mem_append.mp hv
      · exact hleft v hv
      · rw [List.mem_singleton.mp hv]
        exact ⟨o, ho, hstate⟩
    · rw [hpassed.generation] at hcurrent
      rw [hnew] at hv
      obtain hv | hv := List.mem_append.mp hv
      · exact absurd hcurrent (holder v hv)
      · rw [List.mem_singleton.mp hv]
        exact ⟨.inl ⟨rfl, rfl⟩, .inl rfl⟩
  · refine ⟨hpassed.evolves.wellFormed h.wellFormed, ?_, fun v hv => ?_, ?_, fun v hv => ?_,
      fun _ v hv hcurrent => ?_⟩
    · rw [hsame]
      exact h.generations
    · rw [hpassed.generation]
      exact Nat.le_succ_of_le (h.bounded v (hsame ▸ hv))
    · rw [hsame]
      exact h.operations
    · exact hleft v (hsame ▸ hv)
    · rw [hpassed.generation] at hcurrent
      exact absurd hcurrent (holder v (hsame ▸ hv))

theorem Admitted.step (h : Admitted s) (hs : (lane fingerprintOf).step s e = some s') : Admitted s' := by
  obtain ⟨actor, task, clientRequestId, newId, now, outcome, recorded, -, hid, hnew, hs'⟩ |
    ⟨i, v, v', -, -, hturned⟩ | ⟨c, outcome, -, hfresh, hadvances, -, rfl⟩ := lane_step_cases fingerprintOf hs
  · obtain ⟨-, store, hevolves, rfl⟩ | ⟨-, hpassed⟩ :=
      request_cases h actor task clientRequestId ⟨hid, hnew⟩ now outcome recorded hs'
    · exact h.withStore hevolves
    · exact h.pass hpassed
  · exact h.turn hturned
  · exact h.withStore (run_evolves s.store c outcome hfresh hadvances)

/-! ## The guard -/

/-- A guard that is set has its verification, the one that was admitted last, and somebody who attends
to it. -/
def Guarded (s : Lane Value) : Prop :=
  s.running = true → ∃ v ∈ s.verifications, v.generation = s.generation ∧ v.Attended

/-- A step of a thread keeps the guard guarded, and does not guard a guard that was not. -/
theorem Turned.guarded_iff {v v' : Verification} (h : Admitted s) (hturned : Turned s s' i v v') :
    (Guarded s → Guarded s') ∧ (Guarded s' → Guarded s) := by
  constructor
  · intro hguarded hrunning
    obtain ⟨w, hw, hcurrent, hattended⟩ := hguarded (hturned.running hrunning)
    obtain ⟨j, hj⟩ := List.mem_iff_getElem?.mp hw
    rw [← hturned.current] at hcurrent
    by_cases hij : i = j
    · subst hij
      obtain rfl := Option.some.inj (hturned.old.symm.trans hj)
      refine ⟨v', ?_, hturned.generation.trans hcurrent, ?_⟩
      · rw [hturned.new]
        exact List.mem_set (List.getElem?_eq_some_iff.mp hj).1 v'
      · rw [hturned.current] at hcurrent
        exact hturned.attended hcurrent hrunning hattended
    · refine ⟨w, ?_, hcurrent, hattended⟩
      rw [hturned.new]
      refine List.mem_iff_getElem?.mpr ⟨j, ?_⟩
      rwa [List.getElem?_set_ne hij]
  · intro hguarded hrunning
    by_cases hcurrent : v.generation = s.generation
    · exact ⟨v, hturned.mem, hcurrent, h.attended hrunning v hturned.mem hcurrent⟩
    · rw [← hturned.older hcurrent] at hrunning
      obtain ⟨w, hw, hw', hattended⟩ := hguarded hrunning
      rw [hturned.current] at hw'
      obtain rfl | hw := hturned.mem_old hw
      · exact absurd (hturned.generation.symm.trans hw') hcurrent
      · exact ⟨w, hw, hw', hattended⟩

theorem Passed.guarded_iff {recorded : WriteOutcome} (h : Admitted s) (hpassed : Passed s s' recorded) :
    Guarded s' ↔ (s.store.hasPath = true → recorded = .ok) := by
  obtain ⟨hok, operationId, o, hnew, -⟩ | ⟨hfailed, hsame⟩ := hpassed.verifications
  · refine iff_of_true (fun _ => ?_) hok
    refine ⟨⟨s.generation + 1, operationId, .startThread, .unborn, .unborn⟩, ?_,
      hpassed.generation.symm, ⟨.inl ⟨rfl, rfl⟩, .inl rfl⟩⟩
    rw [hnew]
    exact List.mem_append_right _ (List.mem_singleton_self _)
  · refine iff_of_false (fun hguarded => ?_) hfailed
    obtain ⟨v, hv, hcurrent, -⟩ := hguarded hpassed.running
    rw [hpassed.generation] at hcurrent
    rw [hsame] at hv
    exact absurd hcurrent (Nat.ne_of_lt (Nat.lt_succ_of_le (h.bounded v hv)))

theorem guarded_step (h : Admitted s) (hguarded : Guarded s)
    (hs : (lane fingerprintOf).step s e = some s') : Guarded s' ↔ Recorded fingerprintOf s e := by
  obtain ⟨actor, task, clientRequestId, newId, now, outcome, recorded, rfl, hid, hnew, hs'⟩ |
    ⟨i, v, v', hrecorded, -, hturned⟩ | ⟨c, outcome, rfl, -, -, -, rfl⟩ := lane_step_cases fingerprintOf hs
  · obtain ⟨hrefused, store, -, rfl⟩ | ⟨hadmits, hpassed⟩ :=
      request_cases h actor task clientRequestId ⟨hid, hnew⟩ now outcome recorded hs'
    · exact iff_of_true hguarded fun hadmits => absurd hadmits hrefused
    · rw [hpassed.guarded_iff h]
      exact ⟨fun hok _ => hok, fun hok => hok hadmits⟩
  · exact iff_of_true ((hturned.guarded_iff h).1 hguarded) hrecorded
  · exact iff_of_true hguarded trivial

/-- A guard that nobody attends to is not attended to later. -/
theorem guarded_back (h : Admitted s) (hs : (lane fingerprintOf).step s e = some s')
    (hguarded : Guarded s') : Guarded s := by
  obtain ⟨actor, task, clientRequestId, newId, now, outcome, recorded, -, hid, hnew, hs'⟩ |
    ⟨i, v, v', -, -, hturned⟩ | ⟨c, outcome, -, -, -, -, rfl⟩ := lane_step_cases fingerprintOf hs
  · intro hrunning
    obtain ⟨-, store, -, rfl⟩ | ⟨-, hpassed⟩ :=
      request_cases h actor task clientRequestId ⟨hid, hnew⟩ now outcome recorded hs'
    · exact hguarded hrunning
    · cases hrunning.symm.trans hpassed.free
  · exact (hturned.guarded_iff h).2 hguarded
  · exact hguarded

/-! ## Leaving the gate -/

/-- The step of a thread that is enabled. -/
theorem turn_of {enabled : Verification → Prop} [DecidablePred enabled]
    {f : Verification → Lane Value × Verification} {v : Verification}
    (hv : s.verifications[i]? = some v) (henabled : enabled v) :
    s.turn i enabled f = some { (f v).1 with verifications := s.verifications.set i (f v).2 } := by
  unfold Lane.turn
  simp only [hv, if_pos henabled]

theorem getElem?_set_self' {v v' : Verification} (hv : s.verifications[i]? = some v) :
    (s.verifications.set i v')[i]? = some v' := by
  rw [List.getElem?_set_self (List.getElem?_eq_some_iff.mp hv).1]

/-- The steps that the request and the timer of a verification take without its worker. -/
def ownSteps (i : ℕ) : List (LaneEvent Value) := [.startThread i, .startWatchdog i, .expire i]

section Own
variable {v : Verification}

variable (fingerprintOf) in
theorem startThread_step (hv : s.verifications[i]? = some v) (hlaunch : v.launch = .startThread) :
    (lane fingerprintOf).step s (.startThread i) = some { s with
      verifications := s.verifications.set i { v with launch := .startWatchdog, worker := .verifying } } := by
  dsimp only [lane]
  exact turn_of hv hlaunch

variable (fingerprintOf) in
theorem startWatchdog_step (hv : s.verifications[i]? = some v) (hlaunch : v.launch = .startWatchdog) :
    (lane fingerprintOf).step s (.startWatchdog i) = some { s with
      verifications := s.verifications.set i { v with launch := .register, watchdog := .pending } } := by
  dsimp only [lane]
  exact turn_of hv hlaunch

variable (fingerprintOf) in
theorem expire_step (hv : s.verifications[i]? = some v) (hpending : v.watchdog = .pending)
    (hcurrent : v.generation = s.generation) (hrunning : s.running = true) :
    (lane fingerprintOf).step s (.expire i) = some { s.pop v.generation with
      running := false, verifications := s.verifications.set i { v with watchdog := .expired } } := by
  have hdue : ¬ (v.generation ≠ s.generation ∨ s.running = false) := by
    rintro (hne | hfree)
    · exact hne hcurrent
    · cases hrunning.symm.trans hfree
  dsimp only [lane]
  rw [turn_of hv hpending, if_neg hdue]

end Own

variable (fingerprintOf) in
/-- A pending watchdog of the verification that was admitted last clears the guard. -/
theorem expire_clears {v : Verification} (hv : s.verifications[i]? = some v)
    (hcurrent : v.generation = s.generation) (hrunning : s.running = true)
    (hpending : v.watchdog = .pending) :
    ∃ events s', (∀ e ∈ events, e ∈ ownSteps i) ∧
      (lane fingerprintOf).run s events = some s' ∧ s'.running = false := by
  have hstep := expire_step fingerprintOf hv hpending hcurrent hrunning
  refine ⟨[.expire i], { s.pop v.generation with
    running := false, verifications := s.verifications.set i { v with watchdog := .expired } }, ?_, ?_, rfl⟩
  · simp [ownSteps]
  · rw [Machine.run, hstep]
    rfl

variable (fingerprintOf) in
/-- Whatever its worker does, an attended verification can always leave the gate by its watchdog. -/
theorem attended_clears {v : Verification} (hv : s.verifications[i]? = some v)
    (hcurrent : v.generation = s.generation) (hrunning : s.running = true) (hattended : v.Attended) :
    ∃ events s', (∀ e ∈ events, e ∈ ownSteps i) ∧
      (lane fingerprintOf).run s events = some s' ∧ s'.running = false := by
  -- one step before a state in which this is known
  have hbefore : ∀ {s : Lane Value} (e : LaneEvent Value) (s' : Lane Value), e ∈ ownSteps i →
      (lane fingerprintOf).step s e = some s' →
      (∃ events s'', (∀ e ∈ events, e ∈ ownSteps i) ∧
        (lane fingerprintOf).run s' events = some s'' ∧ s''.running = false) →
      ∃ events s'', (∀ e ∈ events, e ∈ ownSteps i) ∧
        (lane fingerprintOf).run s events = some s'' ∧ s''.running = false := by
    rintro s e s' he hs ⟨events, s'', hevents, hrun, hfree⟩
    refine ⟨e :: events, s'', List.forall_mem_cons.mpr ⟨he, hevents⟩, ?_, hfree⟩
    rw [Machine.run, hs, Option.bind_some, hrun]
  have hwatch : ∀ {s : Lane Value} {v : Verification}, s.verifications[i]? = some v →
      v.generation = s.generation → s.running = true → v.launch = .startWatchdog →
      ∃ events s', (∀ e ∈ events, e ∈ ownSteps i) ∧
        (lane fingerprintOf).run s events = some s' ∧ s'.running = false := by
    intro s v hv hcurrent hrunning hlaunch
    refine hbefore (.startWatchdog i) _ (by simp [ownSteps]) (startWatchdog_step fingerprintOf hv hlaunch) ?_
    exact expire_clears fingerprintOf (getElem?_set_self' hv) hcurrent hrunning rfl
  obtain hlaunch | hlaunch | hpending := hattended.watchdog
  · refine hbefore (.startThread i) _ (by simp [ownSteps]) (startThread_step fingerprintOf hv hlaunch) ?_
    exact hwatch (getElem?_set_self' hv) hcurrent hrunning rfl
  · exact hwatch hv hcurrent hrunning hlaunch
  · exact expire_clears fingerprintOf hv hcurrent hrunning hpending

/-! ## Whole runs -/

theorem index_unique {α β : Type} {l : List α} {f : α → β} (h : (l.map f).Nodup) {i j : ℕ} {a b : α}
    (ha : l[i]? = some a) (hb : l[j]? = some b) (hf : f a = f b) : i = j := by
  obtain ⟨hi, rfl⟩ := List.getElem?_eq_some_iff.mp ha
  obtain ⟨hj, rfl⟩ := List.getElem?_eq_some_iff.mp hb
  rw [← List.length_map f] at hi hj
  refine (@List.Nodup.getElem_inj_iff _ _ h i hi j hj).mp ?_
  rwa [List.getElem_map, List.getElem_map]

/-- A thread of an older verification does not touch the guard, and no thread touches the operation of
another verification. -/
theorem older_harmless (h : Admitted s) (hs : (lane fingerprintOf).step s e = some s')
    (hthread : e.thread = some i) {v : Verification} (hv : s.verifications[i]? = some v) :
    (v.generation ≠ s.generation → s'.running = s.running ∧ s'.generation = s.generation) ∧
    ∀ j w, s.verifications[j]? = some w → j ≠ i →
      s'.store.memory.operations.lookup w.operationId = s.store.memory.operations.lookup w.operationId := by
  obtain ⟨actor, task, clientRequestId, newId, now, outcome, recorded, rfl, -⟩ |
    ⟨k, u, u', -, hk, hturned⟩ | ⟨c, outcome, rfl, -⟩ := lane_step_cases fingerprintOf hs
  · cases hthread
  · obtain rfl := hk i hthread
    obtain rfl := Option.some.inj (hv.symm.trans hturned.old)
    refine ⟨fun hne => ⟨hturned.older hne, hturned.current⟩, fun j w hw hji => ?_⟩
    have hother : w.operationId ≠ v.operationId :=
      fun hid => hji (index_unique h.operations hw hv hid)
    obtain heq | ⟨state, result, error, now, outcome, -, heq⟩ := hturned.store
    · rw [heq]
    · rw [heq]
      exact setState_lookup_ne hother state result error now outcome
  · cases hthread

variable (fingerprintOf) in
/-- In every run one verification at most is the current one, and the threads of older ones touch
neither the guard nor the operation of another. A guard that is set belongs to the current one, which
can leave the gate without its worker, exactly in the runs in which the write of a first state does not
fail. -/
theorem guarded_iff_recorded {hasPath damaged : Bool} {events : List (LaneEvent Value)}
    (h : (lane fingerprintOf).run (emptyLane hasPath damaged) events = some s) :
    (∀ (i j : ℕ) (v w : Verification), s.verifications[i]? = some v → s.verifications[j]? = some w →
      v.generation = s.generation → w.generation = s.generation → i = j) ∧
    (∀ (e : LaneEvent Value) (i : ℕ) (v : Verification) (s' : Lane Value), (lane fingerprintOf).step s e = some s' → e.thread = some i →
      s.verifications[i]? = some v →
      (v.generation ≠ s.generation → s'.running = s.running ∧ s'.generation = s.generation) ∧
      ∀ (j : ℕ) (w : Verification), s.verifications[j]? = some w → j ≠ i →
        s'.store.memory.operations.lookup w.operationId = s.store.memory.operations.lookup w.operationId) ∧
    (((s.running = true → ∃ v ∈ s.verifications, v.generation = s.generation ∧ v.Attended) ∧
      (s.running = true → ∃ (i : ℕ) (events : List (LaneEvent Value)) (s' : Lane Value),
        (∀ e ∈ events, e ∈ ownSteps i) ∧ (lane fingerprintOf).run s events = some s' ∧ s'.running = false)) ↔
      (lane fingerprintOf).Follows (Recorded fingerprintOf) (emptyLane hasPath damaged) events) := by
  have hadmitted : Admitted s := (Machine.reachable_of_run h).invariant (Admitted.emptyLane hasPath damaged)
    fun _ _ _ _ hs _ he => hs.step he
  have hstart : Guarded (emptyLane hasPath damaged : Lane Value) := fun hrunning => by cases hrunning
  have hguarded : Guarded s ↔ (lane fingerprintOf).Follows (Recorded fingerprintOf)
      (emptyLane hasPath damaged) events :=
    Machine.run_iff_follows Admitted (fun s => Admitted s ∧ Guarded s)
      (fun _ _ _ he hs => hs.step he) (fun _ _ _ hs he hguarded => guarded_back hs he hguarded)
      (fun _ hs => hs.2) (fun _ _ _ hs he => guarded_step hs.1 hs.2 he)
      (fun _ _ _ hs hrecorded he => ⟨hs.1.step he, (guarded_step hs.1 hs.2 he).mpr hrecorded⟩)
      ⟨Admitted.emptyLane hasPath damaged, hstart⟩ (Admitted.emptyLane hasPath damaged) h
  refine ⟨fun i j v w hv hw hcurrent hcurrent' => ?_, fun e i v s' hs hthread hv => ?_, ?_⟩
  · exact index_unique hadmitted.generations hv hw (hcurrent.trans hcurrent'.symm)
  · exact older_harmless hadmitted hs hthread hv
  · rw [← hguarded]
    refine ⟨fun hboth => hboth.1, fun hguard => ⟨hguard, fun hrunning => ?_⟩⟩
    obtain ⟨v, hv, hcurrent, hattended⟩ := hguard hrunning
    obtain ⟨i, hi⟩ := List.mem_iff_getElem?.mp hv
    exact ⟨i, attended_clears fingerprintOf hi hcurrent hrunning hattended⟩

end Lanes

/-! ## Two requests -/

def textLane : Machine (Lane String) (LaneEvent String) := lane fun kind payload => kind ++ payload

/-- A verification is admitted, and its worker is started. -/
def admittedVerification : List (LaneEvent String) :=
  [.request "ai:grant" "task" "" "op-1" "t0" .ok .ok, .startThread 0]

theorem admittedVerification_guarded :
    ∃ s, textLane.run (emptyLane true false) admittedVerification = some s ∧ s.running = true ∧
      ∃ v ∈ s.verifications, v.generation = s.generation ∧ v.Attended := by
  have hrun : ∃ s, textLane.run (emptyLane true false) admittedVerification = some s ∧
      s.running = true := ⟨_, rfl, rfl⟩
  obtain ⟨s, hs, hrunning⟩ := hrun
  have hguard := (guarded_iff_recorded (fun kind payload => kind ++ payload) hs).2.2
  refine ⟨s, hs, hrunning, (hguard.mpr ?_).1 hrunning⟩
  exact And.intro (fun _ _ => rfl) fun _ _ => And.intro trivial fun _ _ => trivial

/-- The disk is full when the first state of a verification is to be stored. -/
def unrecordedVerification : List (LaneEvent String) :=
  [.request "ai:grant" "task" "" "op-1" "t0" .ok .whileWriting]

/-- The guard is set, and there is no verification at all. -/
theorem unrecordedVerification_unguarded :
    ¬ ∀ (events : List (LaneEvent String)) (s : Lane String),
      textLane.run (emptyLane true false) events = some s → s.running = true →
      ∃ v ∈ s.verifications, v.generation = s.generation ∧ v.Attended := by
  intro hclaim
  have hrun : ∃ s, textLane.run (emptyLane true false) unrecordedVerification = some s ∧
      s.running = true ∧ s.verifications = [] := ⟨_, rfl, rfl, rfl⟩
  obtain ⟨s, hs, hrunning, hnone⟩ := hrun
  obtain ⟨v, hv, -⟩ := hclaim _ s hs hrunning
  rw [hnone] at hv
  cases hv

end HplcWorkbench.Control
