import Mathlib.Data.List.Basic

/-!
# Runs of an event-driven machine

A machine answers an event with its next state, or with `none` where the event cannot happen.
`Reach guard s₀ s` says that some run from `s₀` ends in `s` and each of its steps met `guard`
in the state before it; an invariant is proved once for all steps of a run.
-/

namespace Transitions

/-- The next state for an event, `none` if the event is not enabled. -/
structure Machine (State Event : Type*) where
  step : State → Event → Option State

namespace Machine
variable {State Event : Type*} (M : Machine State Event)

inductive Reach (guard : State → Event → Prop) (s₀ : State) : State → Prop
  | start : Reach guard s₀ s₀
  | step {s s' : State} {e : Event} :
      Reach guard s₀ s → guard s e → M.step s e = some s' → Reach guard s₀ s'

/-- Every step is admitted. -/
def Any (_ : State) (_ : Event) : Prop := True

/-- The states of all runs from `s₀`. -/
abbrev Reachable (s₀ : State) : State → Prop := M.Reach Any s₀

/-- The run over a list of events. -/
def run (s : State) : List Event → Option State
  | [] => some s
  | e :: events => (M.step s e).bind fun s' => run s' events

variable {M} {guard : State → Event → Prop} {s₀ s : State}

/-- What holds at the start and survives every admitted step holds along the run. A step may use
that its source is reached. -/
theorem Reach.invariant {P : State → Prop} (h : M.Reach guard s₀ s) (hstart : P s₀)
    (hstep : ∀ s e s', M.Reach guard s₀ s → P s → guard s e → M.step s e = some s' → P s') : P s := by
  induction h with
  | start => exact hstart
  | step hs hg he ih => exact hstep _ _ _ hs ih hg he

/-- A run that meets a guard meets every weaker one. -/
theorem Reach.mono {guard' : State → Event → Prop} (h : M.Reach guard s₀ s)
    (hweak : ∀ s e, guard s e → guard' s e) : M.Reach guard' s₀ s := by
  induction h with
  | start => exact .start
  | step _ hg he ih => exact .step ih (hweak _ _ hg) he

theorem Reach.any (h : M.Reach guard s₀ s) : M.Reachable s₀ s := h.mono fun _ _ _ => trivial

theorem Reach.trans {s' : State} (h : M.Reach guard s₀ s) (h' : M.Reach guard s s') :
    M.Reach guard s₀ s' := by
  induction h' with
  | start => exact h
  | step _ hg he ih => exact .step ih hg he

/-- The state after a list of events that the guard always admits. -/
theorem reach_of_run {events : List Event} {s' : State} (hguard : ∀ e ∈ events, ∀ s, guard s e)
    (h : M.run s events = some s') : M.Reach guard s s' := by
  induction events generalizing s with
  | nil =>
      obtain rfl := Option.some.inj h
      exact .start
  | cons e events ih =>
      rw [run, Option.bind_eq_some_iff] at h
      obtain ⟨s₁, he, hrest⟩ := h
      refine Reach.trans (.step .start (hguard e List.mem_cons_self s) he) (ih ?_ hrest)
      exact fun e he => hguard e (List.mem_cons_of_mem _ he)

variable (M) in
/-- Every step of the run over a list of events meets the guard. -/
def Follows (guard : State → Event → Prop) (s : State) : List Event → Prop
  | [] => True
  | e :: events => guard s e ∧ ∀ s', M.step s e = some s' → Follows guard s' events

theorem follows_of_forall {events : List Event} (h : ∀ e ∈ events, ∀ s, guard s e) :
    M.Follows guard s events := by
  induction events generalizing s with
  | nil => trivial
  | cons e events ih =>
      refine ⟨h e List.mem_cons_self s, fun s' _ => ?_⟩
      exact ih fun e he => h e (List.mem_cons_of_mem _ he)

/-- A property of states that is never regained and that, where an invariant holds, a step keeps
exactly when it meets the guard, holds after exactly the runs whose steps all meet the guard. What
every step keeps may be used for the first. -/
theorem run_iff_follows (Kept Inv : State → Prop) {P : State → Prop} {events : List Event} {s s' : State}
    (hkept : ∀ s e s', M.step s e = some s' → Kept s → Kept s')
    (hback : ∀ s e s', Kept s → M.step s e = some s' → P s' → P s) (hInv : ∀ s, Inv s → P s)
    (hguard : ∀ s e s', Inv s → M.step s e = some s' → (P s' ↔ guard s e))
    (hstep : ∀ s e s', Inv s → guard s e → M.step s e = some s' → Inv s')
    (hs : Inv s) (hs' : Kept s) (h : M.run s events = some s') : P s' ↔ M.Follows guard s events := by
  have hlost : ∀ {events s s'}, Kept s → M.run s events = some s' → P s' → P s := by
    intro events
    induction events with
    | nil => exact fun _ h hP => Option.some.inj h ▸ hP
    | cons e events ih =>
        intro s s' hs h hP
        obtain ⟨t, he, hrest⟩ := Option.bind_eq_some_iff.mp h
        exact hback s e t hs he (ih (hkept s e t he hs) hrest hP)
  induction events generalizing s with
  | nil => exact iff_of_true (Option.some.inj h ▸ hInv s hs) trivial
  | cons e events ih =>
      obtain ⟨t, he, hrest⟩ := Option.bind_eq_some_iff.mp h
      have ht := hkept s e t he hs'
      constructor
      · intro hP
        have hg := (hguard s e t hs he).mp (hlost ht hrest hP)
        refine ⟨hg, fun t' ht' => ?_⟩
        obtain rfl := Option.some.inj (he.symm.trans ht')
        exact (ih (hstep s e t hs hg he) ht hrest).mp hP
      · rintro ⟨hg, hfollows⟩
        exact (ih (hstep s e t hs hg he) ht hrest).mpr (hfollows t he)

/-- Where an invariant holds, a step has a property exactly when it meets the guard, and guarded
steps keep the invariant: all steps of a run have the property exactly when all meet the guard. -/
theorem follows_iff (Inv : State → Prop) {Q : State → Event → Prop} {events : List Event} {s : State}
    (hguard : ∀ s e s', Inv s → M.step s e = some s' → (Q s e ↔ guard s e))
    (hnone : ∀ s e, Inv s → M.step s e = none → (Q s e ↔ guard s e))
    (hstep : ∀ s e s', Inv s → guard s e → M.step s e = some s' → Inv s') (hs : Inv s) :
    M.Follows Q s events ↔ M.Follows guard s events := by
  induction events generalizing s with
  | nil => exact Iff.rfl
  | cons e events ih =>
      cases he : M.step s e with
      | none =>
          refine and_congr (hnone s e hs he) (forall_congr' fun t => forall_congr' fun ht => ?_)
          cases he.symm.trans ht
      | some t =>
          refine (and_congr_left fun _ => hguard s e t hs he).trans ?_
          refine and_congr_right fun hg => forall_congr' fun t' => forall_congr' fun ht' => ?_
          exact ih (hstep s e t' hs hg ht')

/-- Where an invariant holds, a step that meets the guard has a property, and guarded steps keep the
invariant: in a run that follows the guard every step has the property. -/
theorem Follows.imp (Inv : State → Prop) {Q : State → Event → Prop} {events : List Event} {s : State}
    (hguard : ∀ s e, Inv s → guard s e → Q s e)
    (hstep : ∀ s e s', Inv s → guard s e → M.step s e = some s' → Inv s') (hs : Inv s)
    (hfollows : M.Follows guard s events) : M.Follows Q s events := by
  induction events generalizing s with
  | nil => trivial
  | cons e events ih =>
      obtain ⟨hg, hrest⟩ := hfollows
      exact ⟨hguard s e hs hg, fun s' he => ih (hstep s e s' hs hg he) (hrest s' he)⟩

/-- What a guarded step keeps holds after a run that follows the guard. -/
theorem run_invariant (Inv : State → Prop) {events : List Event} {s s' : State}
    (hstep : ∀ s e s', Inv s → guard s e → M.step s e = some s' → Inv s') (hs : Inv s)
    (hfollows : M.Follows guard s events) (h : M.run s events = some s') : Inv s' := by
  induction events generalizing s with
  | nil => exact Option.some.inj h ▸ hs
  | cons e events ih =>
      obtain ⟨t, he, hrest⟩ := Option.bind_eq_some_iff.mp h
      exact ih (hstep s e t hs hfollows.1 he) (hfollows.2 t he) hrest

/-- A run that follows the guard reaches its end under it. -/
theorem Follows.reach {events : List Event} {s s' : State} (hfollows : M.Follows guard s events)
    (h : M.run s events = some s') : M.Reach guard s s' := by
  induction events generalizing s with
  | nil =>
      obtain rfl := Option.some.inj h
      exact .start
  | cons e events ih =>
      obtain ⟨t, he, hrest⟩ := Option.bind_eq_some_iff.mp h
      exact Reach.trans (.step .start hfollows.1 he) (ih (hfollows.2 t he) hrest)

theorem reachable_of_run {events : List Event} {s' : State} (h : M.run s events = some s') :
    M.Reachable s s' := reach_of_run (fun _ _ _ => trivial) h

/-! ## Pools -/

/-- A component begins, or one that has begun takes a step. -/
inductive PoolEvent (Request Event : Type*)
  | begin (request : Request)
  | step (i : ℕ) (e : Event)

variable {Request : Type*}

variable (M) in
/-- Any number of copies of a machine, which begin one after the other and step in any order. -/
def pool (start : Request → Option State) : Machine (List State) (PoolEvent Request Event) where
  step s
    | .begin request => (start request).map fun c => s ++ [c]
    | .step i e => s[i]?.bind fun c => (M.step c e).map fun c' => s.set i c'

/-- A step of a component meets the guard of the component. -/
def PoolGuard (guard : State → Event → Prop) (s : List State) : PoolEvent Request Event → Prop
  | .begin _ => True
  | .step i e => ∀ c ∈ s[i]?, guard c e

/-- Every component of a pool has a run of its own behind it. -/
theorem pool_component {start : Request → Option State} {s : List State}
    (h : (M.pool start).Reach (PoolGuard guard) [] s) :
    ∀ c ∈ s, ∃ request c₀, start request = some c₀ ∧ M.Reach guard c₀ c := by
  induction h with
  | start => exact fun c hc => absurd hc List.not_mem_nil
  | @step s s' e _ hg he ih =>
      intro c hc
      cases e with
      | begin request =>
          obtain ⟨c₀, hstart, rfl⟩ := Option.map_eq_some_iff.mp he
          rcases List.mem_append.mp hc with hold | hnew
          · exact ih c hold
          · obtain rfl := List.mem_singleton.mp hnew
            exact ⟨request, c, hstart, .start⟩
      | step i e =>
          obtain ⟨c₁, hc₁, hmap⟩ := Option.bind_eq_some_iff.mp he
          obtain ⟨c₂, hstep, rfl⟩ := Option.map_eq_some_iff.mp hmap
          rcases List.mem_or_eq_of_mem_set hc with hold | rfl
          · exact ih c hold
          · obtain ⟨request, c₀, hstart, hreach⟩ := ih c₁ (List.mem_of_getElem? hc₁)
            exact ⟨request, c₀, hstart, hreach.step (hg c₁ hc₁) hstep⟩

end Machine

end Transitions
