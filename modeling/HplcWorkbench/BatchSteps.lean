import HplcWorkbench.BatchJob

/-!
# What a step of the batch job can do

One inversion lemma for each thread says what its steps do to the state, guards included, so
that the invariants of the job need no look at the step functions.
-/

namespace HplcWorkbench.Batch
open SerialIO

section RecordRow
variable (s : JobState) (row : Row)

@[simp] theorem recordRow_workers : (recordRow s row).workers = s.workers := by
  rw [recordRow]
  split_ifs <;> rfl

@[simp] theorem recordRow_rows : (recordRow s row).rows = s.rows ++ [row] := by
  rw [recordRow]
  split_ifs <;> rfl

@[simp] theorem recordRow_done : (recordRow s row).done = s.done + 1 := by
  rw [recordRow]
  split_ifs <;> rfl

@[simp] theorem recordRow_inFlight : (recordRow s row).inFlight = s.inFlight - 1 := by
  rw [recordRow]
  split_ifs <;> rfl

theorem recordRow_counts : (recordRow s row).success + (recordRow s row).failed =
    s.success + s.failed + 1 := by
  rw [recordRow]
  split_ifs
  · exact Nat.add_right_comm _ _ _
  · rfl

@[simp] theorem recordRow_queue : (recordRow s row).queue = s.queue := by
  rw [recordRow]
  split_ifs <;> rfl

@[simp] theorem recordRow_queued : (recordRow s row).queued = s.queued := by
  rw [recordRow]
  split_ifs <;> rfl

@[simp] theorem recordRow_pc : (recordRow s row).pc = s.pc := by
  rw [recordRow]
  split_ifs <;> rfl

@[simp] theorem recordRow_finished : (recordRow s row).finished = s.finished := by
  rw [recordRow]
  split_ifs <;> rfl

@[simp] theorem recordRow_stop : (recordRow s row).stop = s.stop := by
  rw [recordRow]
  split_ifs <;> rfl

@[simp] theorem recordRow_claimed : (recordRow s row).claimed = s.claimed := by
  rw [recordRow]
  split_ifs <;> rfl

@[simp] theorem recordRow_history : (recordRow s row).history = s.history := by
  rw [recordRow]
  split_ifs <;> rfl

@[simp] theorem recordRow_arrivals : (recordRow s row).arrivals = s.arrivals := by
  rw [recordRow]
  split_ifs <;> rfl

end RecordRow

section Steps
variable {cfg : Config} {s s' : JobState} {i : ℕ} {slot : Slot} {e : JobEvent}

/-- What a row is credited with: nothing, a reply, or a denial that names this meter or none. -/
inductive Credit (cfg : Config) (meter : String) (row : Row) : Prop
  | nothing (hframe : row.frame = none) (hstatus : row.status ≠ .success)
  | reply (f : Received) (hframe : row.frame = some f)
      (h : frameVerdict cfg meter f.2 = .success)
  | denial (f : Received) (code : ℕ) (hframe : row.frame = some f) (hstatus : row.status = .deny)
      (h : frameVerdict cfg meter f.2 = .deny code ∨ frameVerdict cfg meter f.2 = .claim code)

/-- A row of entry `i` for its meter. -/
structure OwnRow (cfg : Config) (i : ℕ) (meter : String) (row : Row) : Prop where
  entry_eq : row.entry = i
  meter_eq : row.meter = meter
  credit : Credit cfg meter row

theorem plainRow_own {status : Status} (hstatus : status ≠ .success) (note : String) :
    OwnRow cfg i slot.meter (plainRow cfg i slot.meter status note) :=
  ⟨rfl, rfl, .nothing rfl hstatus⟩

/-- What examining a frame leads to. -/
inductive Examined (cfg : Config) (s : JobState) (i : ℕ) (slot : Slot) (seen : ℕ) (f : Received)
    (rest : List Received) : SlotPc → List String → Prop
  | skipped : Examined cfg s i slot seen f rest (.polling seen rest) s.claimed
  | denied (code : ℕ) (h : frameVerdict cfg slot.meter f.2 = .deny code) :
      Examined cfg s i slot seen f rest (.recording (denyRow cfg i slot.meter code f)) s.claimed
  | claimed (code : ℕ) (h : frameVerdict cfg slot.meter f.2 = .claim code)
      (hfree : frameToHex f.2 ∉ s.claimed) :
      Examined cfg s i slot seen f rest (.recording (denyRow cfg i slot.meter code f))
        (frameToHex f.2 :: s.claimed)
  | replied (h : frameVerdict cfg slot.meter f.2 = .success) :
      Examined cfg s i slot seen f rest (.recording (successRow cfg i slot.meter f)) s.claimed

theorem examineFrame_cases (cfg : Config) (s : JobState) (i : ℕ) (slot : Slot) (seen : ℕ)
    (f : Received) (rest : List Received) :
    ∃ pc claimed, examineFrame cfg s i slot seen f rest =
      setPc { s with claimed := claimed } i slot pc ∧
        Examined cfg s i slot seen f rest pc claimed := by
  rw [examineFrame]
  cases hv : frameVerdict cfg slot.meter f.2 with
  | skip => exact ⟨_, _, rfl, .skipped⟩
  | deny code => exact ⟨_, _, rfl, .denied code hv⟩
  | claim code =>
      by_cases hfree : frameToHex f.2 ∈ s.claimed
      · refine ⟨_, _, ?_, .skipped⟩
        simp only [if_pos hfree]
      · refine ⟨_, _, ?_, .claimed code hv hfree⟩
        simp only [if_neg hfree]
  | success => exact ⟨_, _, rfl, .replied hv⟩

theorem examined_own {seen : ℕ} {f : Received} {rest : List Received} {pc : SlotPc}
    {claimed : List String} (h : Examined cfg s i slot seen f rest pc claimed) {row : Row}
    (hrow : pc = .recording row) : OwnRow cfg i slot.meter row := by
  cases h with
  | skipped => cases hrow
  | denied code hv =>
      obtain rfl := SlotPc.recording.inj hrow
      exact ⟨rfl, rfl, .denial f code rfl rfl (Or.inl hv)⟩
  | claimed code hv hfree =>
      obtain rfl := SlotPc.recording.inj hrow
      exact ⟨rfl, rfl, .denial f code rfl rfl (Or.inr hv)⟩
  | replied hv =>
      obtain rfl := SlotPc.recording.inj hrow
      exact ⟨rfl, rfl, .reply f rfl hv⟩

/-- The steps of a slot thread that is still running: it takes its baseline, waits, takes a
snapshot, examines a frame of it, gives up, ends without a row because of a stop, or records the
row it holds. -/
inductive SlotMove (cfg : Config) (s : JobState) (i : ℕ) (slot : Slot) : JobState → Prop
  | sent (hpc : slot.pc = .starting) :
      SlotMove cfg s i slot (setPc s i slot (.polling s.history.length []))
  | armed (seen : ℕ) (hpc : slot.pc = .polling seen []) (hstop : s.stop = false) :
      SlotMove cfg s i slot (setPc s i slot (.armed seen))
  | polled (seen : ℕ) (hpc : slot.pc = .armed seen) :
      SlotMove cfg s i slot
        (setPc s i slot (.polling s.history.length (unread s.history seen)))
  | gaveUp (status : Status) (note : String) (hstatus : status ≠ .success) :
      SlotMove cfg s i slot (setPc s i slot (.recording (plainRow cfg i slot.meter status note)))
  | examined (seen : ℕ) (f : Received) (rest : List Received) (pc : SlotPc) (claimed : List String)
      (hpc : slot.pc = .polling seen (f :: rest))
      (h : Examined cfg s i slot seen f rest pc claimed) :
      SlotMove cfg s i slot (setPc { s with claimed := claimed } i slot pc)
  | stopped (h : s.stop = true) : SlotMove cfg s i slot (setPc s i slot (.ended none))
  | recorded (row : Row) (h : slot.pc = .recording row) :
      SlotMove cfg s i slot (setPc (recordRow s row) i slot (.ended (some row)))

theorem slotStep_cases (h : slotStep cfg s i slot e = some s') :
    slot.ended = false ∧ SlotMove cfg s i slot s' := by
  have hended : ∀ {pc : SlotPc}, slot.pc = pc → (∀ row, pc ≠ .ended row) → slot.ended = false := by
    intro pc hpc hne
    rw [Slot.ended, hpc]
    cases pc with
    | ended row => exact absurd rfl (hne row)
    | _ => rfl
  cases e with
  | send j =>
      simp only [slotStep] at h
      split at h
      · rename_i hpc
        obtain rfl := Option.some.inj h
        exact ⟨hended hpc (by simp), .sent hpc⟩
      · cases h
  | fail j note =>
      simp only [slotStep] at h
      split at h
      · rename_i hpc
        obtain rfl := Option.some.inj h
        exact ⟨hended hpc (by simp), .gaveUp _ _ Status.noConfusion⟩
      · rename_i hpc
        obtain rfl := Option.some.inj h
        exact ⟨hended hpc (by simp), .gaveUp _ _ Status.noConfusion⟩
      · rename_i hpc
        obtain rfl := Option.some.inj h
        exact ⟨hended hpc (by simp), .gaveUp _ _ Status.noConfusion⟩
      · cases h
  | arm j =>
      simp only [slotStep] at h
      split at h
      · rename_i hpc
        split_ifs at h with hstop
        obtain rfl := Option.some.inj h
        exact ⟨hended hpc (by simp), .armed _ hpc (Bool.eq_false_of_not_eq_true hstop)⟩
      · cases h
  | poll j =>
      simp only [slotStep] at h
      split at h
      · rename_i hpc
        obtain rfl := Option.some.inj h
        exact ⟨hended hpc (by simp), .polled _ hpc⟩
      · cases h
  | examine j =>
      simp only [slotStep] at h
      split at h
      · rename_i seen f rest hpc
        obtain rfl := Option.some.inj h
        obtain ⟨pc, claimed, heq, hex⟩ := examineFrame_cases cfg s i slot seen f rest
        rw [heq]
        exact ⟨hended hpc (by simp), .examined seen f rest pc claimed hpc hex⟩
      · cases h
  | expire j =>
      simp only [slotStep] at h
      split at h
      · rename_i hpc
        split_ifs at h with hstop
        · obtain rfl := Option.some.inj h
          exact ⟨hended hpc (by simp), .stopped hstop⟩
        · obtain rfl := Option.some.inj h
          exact ⟨hended hpc (by simp), .gaveUp _ _ Status.noConfusion⟩
      · cases h
  | record j =>
      simp only [slotStep] at h
      split at h
      · rename_i row hpc
        obtain rfl := Option.some.inj h
        exact ⟨hended hpc (by simp), .recorded row hpc⟩
      · cases h
  | _ => cases h

/-- The entry that the dispatcher has popped and not yet started. -/
def JobState.held (s : JobState) : List String :=
  match s.pc with
  | .holding meter _ => [meter]
  | _ => []

/-- How many slots the dispatcher may still start before it reads `in_flight` again. -/
def JobState.room (s : JobState) : ℕ :=
  match s.pc with
  | .fill left => left
  | .holding _ left => left + 1
  | _ => 0

/-- The steps of the dispatcher: it moves on without starting a slot, takes an entry off the queue,
starts a slot for it, or closes the job. -/
inductive DispatcherMove (cfg : Config) (s : JobState) : JobState → Prop
  | moved (pc : DispatcherPc) (hold : s.held = []) (hnew : { s with pc := pc }.held = [])
      (hend : s.pc ≠ .ended ∧ pc ≠ .ended)
      (hroom : { s with pc := pc }.room ≤ s.room ∨
        { s with pc := pc }.room = cfg.maxConcurrent - s.inFlight)
      (hjoin : pc = .join → s.queue = [] ∨ s.stop = true) :
      DispatcherMove cfg s { s with pc := pc }
  | taken (left : ℕ) (meter : String) (queue : List String) (hpc : s.pc = .fill (left + 1))
      (hqueue : s.queue = meter :: queue) :
      DispatcherMove cfg s { s with pc := .holding meter left, queue := queue }
  | launched (meter : String) (left : ℕ) (hpc : s.pc = .holding meter left) :
      DispatcherMove cfg s { s with
        pc := .fill left
        queued := s.queue.length
        inFlight := s.inFlight + 1
        workers := s.workers ++ [{ meter := meter }] }
  | closed (hpc : s.pc = .join) (hended : s.workers.all Slot.ended) :
      DispatcherMove cfg s { s with pc := .ended, finished := true, queued := 0 }

theorem dispatcherStep_cases (h : dispatcherStep cfg s e = some s') : DispatcherMove cfg s s' := by
  cases e with
  | check =>
      simp only [dispatcherStep] at h
      split_ifs at h with hpc hmore
      · obtain rfl := Option.some.inj h
        exact .moved .size (by simp [JobState.held, hpc]) rfl ⟨by simp [hpc], by simp⟩
          (Or.inl (Nat.zero_le _)) (by simp)
      · obtain rfl := Option.some.inj h
        refine .moved .join (by simp [JobState.held, hpc]) rfl ⟨by simp [hpc], by simp⟩
          (Or.inl (Nat.zero_le _)) fun _ => ?_
        by_cases hq : s.queue = []
        · exact Or.inl hq
        · right
          by_contra hstop
          exact hmore ⟨hq, hstop⟩
  | size =>
      simp only [dispatcherStep] at h
      split_ifs at h with hpc
      obtain rfl := Option.some.inj h
      exact .moved _ (by simp [JobState.held, hpc]) rfl ⟨by simp [hpc], by simp⟩ (Or.inr rfl)
        (by simp)
  | take =>
      simp only [dispatcherStep] at h
      split at h
      · rename_i left meter queue hpc hqueue
        split_ifs at h
        · obtain rfl := Option.some.inj h
          exact .moved .nap (by simp [JobState.held, hpc]) rfl ⟨by simp [hpc], by simp⟩
            (Or.inl (Nat.zero_le _)) (by simp)
        · obtain rfl := Option.some.inj h
          exact .taken left meter queue hpc hqueue
      · rename_i left hpc _
        obtain rfl := Option.some.inj h
        exact .moved .nap (by simp [JobState.held, hpc]) rfl ⟨by simp [hpc], by simp⟩
          (Or.inl (Nat.zero_le _)) (by simp)
      · cases h
  | launch =>
      simp only [dispatcherStep] at h
      split at h
      · rename_i meter left hpc
        obtain rfl := Option.some.inj h
        exact .launched meter left hpc
      · cases h
  | wake =>
      simp only [dispatcherStep] at h
      split_ifs at h with hpc
      obtain rfl := Option.some.inj h
      exact .moved .test (by simp [JobState.held, hpc]) rfl ⟨by simp [hpc], by simp⟩
        (Or.inl (Nat.zero_le _)) (by simp)
  | finish =>
      simp only [dispatcherStep] at h
      split_ifs at h with hpc
      obtain rfl := Option.some.inj h
      exact .closed hpc.1 hpc.2
  | _ => cases h

/-- Every step is one of a running slot, of the dispatcher, a stop request, or a change of the
history. -/
inductive JobMove (cfg : Config) (s : JobState) : JobEvent → JobState → Prop
  | slot {e : JobEvent} {s' : JobState} (i : ℕ) (slot : Slot) (hslot : s.workers[i]? = some slot)
      (hrunning : slot.ended = false) (h : SlotMove cfg s i slot s') : JobMove cfg s e s'
  | dispatcher {e : JobEvent} {s' : JobState} (h : DispatcherMove cfg s s') : JobMove cfg s e s'
  | stop : JobMove cfg s .stop { s with stop := true }
  | append (f : Bytes) : JobMove cfg s (.append f)
      { s with history := s.history ++ [(s.arrivals, f)], arrivals := s.arrivals + 1 }
  | trim : JobMove cfg s .trim { s with history := trimHistory s.history }

theorem jobStep_cases (h : jobStep cfg s e = some s') : JobMove cfg s e s' := by
  have hslot : ∀ j, ((s.workers[j]?).bind fun slot => slotStep cfg s j slot e) = some s' →
      JobMove cfg s e s' := by
    intro j hj
    obtain ⟨slot, hget, hstep⟩ := Option.bind_eq_some_iff.mp hj
    obtain ⟨hrunning, hmove⟩ := slotStep_cases hstep
    exact .slot j slot hget hrunning hmove
  cases e with
  | stop =>
      obtain rfl := Option.some.inj h
      exact .stop
  | append f =>
      obtain rfl := Option.some.inj h
      exact .append f
  | trim =>
      obtain rfl := Option.some.inj h
      exact .trim
  | send j => exact hslot j h
  | fail j note => exact hslot j h
  | arm j => exact hslot j h
  | poll j => exact hslot j h
  | examine j => exact hslot j h
  | expire j => exact hslot j h
  | record j => exact hslot j h
  | check => exact .dispatcher (dispatcherStep_cases (e := .check) h)
  | size => exact .dispatcher (dispatcherStep_cases (e := .size) h)
  | take => exact .dispatcher (dispatcherStep_cases (e := .take) h)
  | launch => exact .dispatcher (dispatcherStep_cases (e := .launch) h)
  | wake => exact .dispatcher (dispatcherStep_cases (e := .wake) h)
  | finish => exact .dispatcher (dispatcherStep_cases (e := .finish) h)

end Steps

end HplcWorkbench.Batch
