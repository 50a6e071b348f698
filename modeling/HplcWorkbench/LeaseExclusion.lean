import HplcWorkbench.RunExecutor

/-!
# Which runs exclude each other

Every run asks a lease table of its own, so no run is ever refused a serial resource that another
one holds. Runs exclude each other exactly when their requests name different resources.
-/

namespace HplcWorkbench.Orchestration
open Transitions

/-- The serial resource that a request leads to, if it uses the stimulus. -/
def RunRequest.serial? (r : RunRequest) : Option String :=
  if r.skipStimulus then none else some r.resource

/-- The run holds an exclusive lease of the resource. -/
def RunState.Holds (s : RunState) (resourceId : String) : Prop :=
  ∃ holder, s.leases.HeldBy ("serial_port", resourceId) holder

/-- No two runs hold the same exclusive serial resource. -/
def SerialExclusive (runs : List RunState) : Prop :=
  ∀ (i j : ℕ) (s s' : RunState), runs[i]? = some s → runs[j]? = some s' → i ≠ j →
    ∀ resourceId, ¬ (s.Holds resourceId ∧ s'.Holds resourceId)

/-! ## What a run can hold -/

section OneRun
variable {request : RunRequest} {runId resourceId : String} {s s' : RunState}

/-- The thread is somewhere in the steps of its request, and an exclusive lease is the one of the
request. -/
structure Leased (request : RunRequest) (s : RunState) : Prop where
  along : ∀ rest, s.thread = .steps rest → rest <:+ runSteps request
  lease : ∀ key l, l ∈ s.leases.existing key → l.shared = false →
    request.serial? = some key.2

theorem acquire_mem_runSteps : Instr.acquire ∈ runSteps request ↔ request.skipStimulus = false := by
  cases hm : request.skipMonitor <;> cases hs : request.skipStimulus <;>
    cases hc : request.skipCompare <;> simp [runSteps, updateRun, hm, hs, hc]

theorem Leased.leave {status : RunStatus} {thread : Thread} (hout : ∀ rest, thread ≠ .steps rest) :
    Leased request (s.leave status thread) := by
  refine ⟨fun rest hrest => absurd hrest (hout rest), fun key l hl => ?_⟩
  exact absurd hl (by simp [RunState.leave, ResourceLeaseManager.existing])

theorem Leased.perform (h : Leased request s) {i : Instr} {rest : List Instr}
    (hthread : s.thread = .steps (i :: rest)) : Leased request (s.perform request runId rest i) := by
  have hsuffix := h.along _ hthread
  have hrest : rest <:+ runSteps request := (List.suffix_cons i rest).trans hsuffix
  have hgo (t : RunState) (ht : t.thread = .steps rest) (hl : t.leases = s.leases) :
      Leased request t := by
    refine ⟨fun rest' hrest' => ?_, hl ▸ h.lease⟩
    rw [ht, Thread.steps.injEq] at hrest'
    exact hrest' ▸ hrest
  cases i with
  | check =>
      change Leased request (if s.cancelEvent then _ else _)
      split
      · exact Leased.leave (by simp)
      · exact hgo _ rfl rfl
  | readRow => exact hgo _ rfl rfl
  | writeRow => exact hgo _ rfl rfl
  | scan => exact hgo _ rfl rfl
  | compute => exact hgo _ rfl rfl
  | unregister => exact hgo _ rfl rfl
  | execute =>
      refine ⟨fun rest' hrest' => ?_, fun key l hl => ?_⟩
      · rw [← Thread.steps.inj hrest']
        exact hrest
      · rw [RunState.perform, ResourceLeaseManager.existing_release] at hl
        split at hl
        · exact h.lease key l (List.mem_of_mem_filter hl)
        · exact h.lease key l hl
  | acquire =>
      have hstimulus := acquire_mem_runSteps.mp (hsuffix.mem List.mem_cons_self)
      rw [RunState.perform]
      cases hacquire : acquireSerialLease s.leases runId request.resource with
      | error e => exact Leased.leave (by simp)
      | ok leased =>
        obtain ⟨lease, leases⟩ := leased
        obtain ⟨hlease, hex, -⟩ := ResourceLeaseManager.acquire_cases hacquire
        refine ⟨fun rest' hrest' => ?_, fun key l hl hshared => ?_⟩
        · rw [← Thread.steps.inj hrest']
          exact hrest
        · rw [hex] at hl
          split at hl
          case isFalse => exact h.lease key l hl hshared
          case isTrue hkey => rw [hkey, RunRequest.serial?, if_neg (by simp [hstimulus])]

theorem Leased.step (h : Leased request s) {e : Event}
    (he : (runMachine request runId).step s e = some s') : Leased request s' := by
  -- what changes neither the thread nor its leases
  have hsame {t : RunState} (ht : t.thread = s.thread) (hl : t.leases = s.leases) :
      Leased request t := ⟨ht ▸ h.along, hl ▸ h.lease⟩
  have hfinish {t : RunState} {rest : List Instr} (ht : t.thread = .finishing rest)
      (hl : t.leases = s.leases) : Leased request t :=
    ⟨fun _ hrest => absurd (ht.symm.trans hrest) (by simp), hl ▸ h.lease⟩
  cases e with
  | start =>
      simp only [runMachine] at he
      split at he
      case isFalse => cases he
      case isTrue =>
        rw [← Option.some.inj he]
        refine ⟨fun rest hrest => ?_, fun _ _ hl => absurd hl List.not_mem_nil⟩
        exact Thread.steps.inj hrest ▸ List.suffix_rfl
  | thread o =>
      obtain ⟨i, rest, ht, -, rfl⟩ | ⟨i, rest, -, -, rfl⟩ | ⟨i, rest, -, -, rfl⟩ | ⟨v, -, -, rfl⟩ |
        ⟨-, -, rfl⟩ | ⟨i, rest, -, -, rfl⟩ | ⟨i, rest, -, -, rfl⟩ := threadStep_cases he
      · exact h.perform ht
      · exact Leased.leave (by simp)
      · exact Leased.leave (by simp)
      · exact Leased.leave (by split <;> simp)
      · refine hfinish rfl ?_
        cases s.cancelEvent <;> rfl
      · cases i <;> exact hfinish rfl rfl
      · exact hfinish rfl rfl
  | cancel =>
      simp only [runMachine, Option.some.injEq] at he
      subst he
      split
      · exact hsame rfl rfl
      · exact h
  | cancelStep k =>
      simp only [runMachine, RunState.cancelStep] at he
      split at he
      case h_5 => cases he
      all_goals
        rw [← Option.some.inj he]
        exact hsame rfl rfl
  | cancelRaises k =>
      simp only [runMachine, RunState.cancelRaises] at he
      split at he
      case h_3 => cases he
      all_goals
        rw [← Option.some.inj he]
        exact hsame rfl rfl

theorem Leased.unsubmitted : Leased request {} :=
  ⟨fun _ hrest => (by cases hrest), fun _ _ hl => (by cases hl)⟩

/-- A run that holds a resource holds the one of its request. -/
theorem Leased.holds (h : Leased request s) {resourceId : String} (hs : s.Holds resourceId) :
    request.serial? = some resourceId := by
  obtain ⟨holder, l, hl, hshared, -⟩ := hs
  exact h.lease _ l hl hshared

/-! ## What a run can come to hold -/

/-- A run goes through all its steps until it has its lease. -/
def untilLeased (request : RunRequest) : List Event :=
  .start :: List.replicate (if request.skipMonitor then 9 else 10) (.thread .ok)

theorem holds_untilLeased (runId : String) (h : request.serial? = some resourceId) :
    ∃ s, (runMachine request runId).run {} (untilLeased request) = some s ∧ s.Holds resourceId := by
  obtain ⟨entry, skipMonitor, skipStimulus, skipCompare, extra⟩ := request
  cases skipStimulus with
  | true => cases h
  | false =>
      obtain rfl := Option.some.inj h
      have hheld (s : RunState) (resourceId : String)
          (hs : s.leases = ⟨(∅ : AList _).insert ("serial_port", resourceId)
            [⟨"serial_port", resourceId, runId, false⟩]⟩) : s.Holds resourceId := by
        refine ⟨runId, ⟨"serial_port", resourceId, runId, false⟩, ?_, rfl, rfl⟩
        rw [hs, ResourceLeaseManager.existing_insert (m := {}), if_pos rfl]
        exact List.mem_singleton_self _
      cases skipMonitor with
      | true => exact ⟨_, rfl, hheld _ _ rfl⟩
      | false => exact ⟨_, rfl, hheld _ _ rfl⟩

end OneRun

/-! ## All runs -/

section Runs
variable {requests : List (String × RunRequest)} {runs runs' : List RunState}

/-- A run that takes its own steps takes them among the others. -/
theorem executor_run {i : ℕ} {runId : String} {request : RunRequest} {s s' : RunState}
    {events : List Event} (hrequest : requests[i]? = some (runId, request)) (hs : runs[i]? = some s)
    (h : (runMachine request runId).run s events = some s') :
    (executor requests).run runs (events.map (i, ·)) = some (runs.set i s') := by
  induction events generalizing runs s with
  | nil =>
      obtain rfl := Option.some.inj h
      obtain ⟨hi, rfl⟩ := List.getElem?_eq_some_iff.mp hs
      rw [List.set_getElem_self]
      rfl
  | cons e events ih =>
      rw [Machine.run, Option.bind_eq_some_iff] at h
      obtain ⟨t, he, hrest⟩ := h
      have hi := (List.getElem?_eq_some_iff.mp hs).1
      rw [List.map_cons, Machine.run]
      have hstep : (executor requests).step runs (i, e) = some (runs.set i t) := by
        simp only [executor, hrequest, hs, he, Option.map_some]
      rw [hstep, Option.bind_some, ih (by simp [hi]) hrest, List.set_set]

/-- Each run holds at most what its request asks for. -/
def AllLeased (requests : List (String × RunRequest)) (runs : List RunState) : Prop :=
  ∀ (i : ℕ) (s : RunState), runs[i]? = some s → ∃ r, requests[i]? = some r ∧ Leased r.2 s

theorem allLeased_of_reachable (h : (executor requests).Reachable (unsubmitted requests) runs) :
    AllLeased requests runs := by
  refine h.invariant ?_ ?_
  · intro i s hs
    obtain ⟨r, hr, rfl⟩ := Option.map_eq_some_iff.mp ((List.getElem?_map ..).symm.trans hs)
    exact ⟨r, hr, Leased.unsubmitted⟩
  · rintro runs ⟨k, e⟩ runs' - ih - he i s hs
    simp only [executor] at he
    split at he
    case h_2 => cases he
    case h_1 runId request t hrequest ht =>
      obtain ⟨t', hstep, rfl⟩ := Option.map_eq_some_iff.mp he
      by_cases hik : i = k
      · subst hik
        rw [List.getElem?_set_self (List.getElem?_eq_some_iff.mp ht).1] at hs
        obtain ⟨r, hr, hleased⟩ := ih i t ht
        obtain rfl := Option.some.inj (hrequest.symm.trans hr)
        exact ⟨_, hrequest, Option.some.inj hs ▸ hleased.step hstep⟩
      · rw [List.getElem?_set_ne (Ne.symm hik)] at hs
        exact ih i s hs

/-- Two requests for one resource come to hold it together: neither run sees the other's table. -/
theorem held_together (requests : List (String × RunRequest)) {i j : ℕ} {a b : String × RunRequest} {resourceId : String}
    (ha : requests[i]? = some a) (hb : requests[j]? = some b) (hij : i ≠ j)
    (hsame : a.2.serial? = some resourceId) (hsame' : b.2.serial? = some resourceId) :
    ∃ runs, (executor requests).Reachable (unsubmitted requests) runs ∧ ¬ SerialExclusive runs := by
  obtain ⟨s, hrun, hs⟩ := holds_untilLeased a.1 hsame
  obtain ⟨t, hrun', ht⟩ := holds_untilLeased b.1 hsame'
  have hi : (unsubmitted requests)[i]? = some {} := by
    rw [unsubmitted, List.getElem?_map, ha, Option.map_some]
  have hj : ((unsubmitted requests).set i s)[j]? = some {} := by
    rw [List.getElem?_set_ne hij, unsubmitted, List.getElem?_map, hb, Option.map_some]
  refine ⟨_, Machine.Reach.trans (Machine.reachable_of_run (executor_run ha hi hrun))
    (Machine.reachable_of_run (executor_run hb hj hrun')), fun hexclusive => ?_⟩
  refine hexclusive i j s t ?_ ?_ hij resourceId ⟨hs, ht⟩
  · rw [List.getElem?_set_ne hij.symm]
    exact List.getElem?_set_self (List.getElem?_eq_some_iff.mp hi).1
  · exact List.getElem?_set_self (List.getElem?_eq_some_iff.mp hj).1

/-- No two runs ever hold the same exclusive serial resource, in whichever order they are submitted
and interleave, exactly when no two requests that use the stimulus name the same resource. -/
theorem serialExclusive_iff (requests : List (String × RunRequest)) :
    (∀ runs, (executor requests).Reachable (unsubmitted requests) runs → SerialExclusive runs) ↔
      ∀ (i j : ℕ) (a b : String × RunRequest), requests[i]? = some a → requests[j]? = some b → i ≠ j →
        ∀ resourceId, ¬ (a.2.serial? = some resourceId ∧ b.2.serial? = some resourceId) := by
  constructor
  · intro hexclusive i j a b ha hb hij resourceId hsame
    obtain ⟨runs, hruns, hnot⟩ := held_together requests ha hb hij hsame.1 hsame.2
    exact hnot (hexclusive runs hruns)
  · intro hdistinct runs hruns i j s t hs ht hij resourceId hboth
    obtain ⟨a, ha, hleased⟩ := allLeased_of_reachable hruns i s hs
    obtain ⟨b, hb, hleased'⟩ := allLeased_of_reachable hruns j t ht
    exact hdistinct i j a b ha hb hij resourceId
      ⟨hleased.holds hboth.1, hleased'.holds hboth.2⟩

/-- Two runs with the default resource hold it at the same time. -/
theorem default_resource_held_twice :
    ¬ ∀ requests : List (String × RunRequest), ∀ runs,
      (executor requests).Reachable (unsubmitted requests) runs → SerialExclusive runs := by
  intro hclaim
  obtain ⟨runs, hruns, hnot⟩ := held_together [("run-A", {}), ("run-B", {})]
    (i := 0) (j := 1) rfl rfl (by decide) (show RunRequest.serial? {} = some "serial/COM19" from rfl) rfl
  exact hnot (hclaim _ runs hruns)

end Runs

end HplcWorkbench.Orchestration
