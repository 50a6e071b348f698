import HplcWorkbench.BatchSteps

/-!
# Conservation and window of the batch job

Every entry of the meter list is in exactly one place: waiting in the queue, held by the
dispatcher, or worked on by the one slot that was started for it. The counters follow the slots,
and the dispatcher's room keeps the number of slots without a row within the window.
-/

namespace HplcWorkbench.Batch
open Transitions SerialIO

structure Lawful (cfg : Config) (s : JobState) : Prop where
  entries : s.workers.map Slot.meter ++ (s.held ++ s.queue) = cfg.meters
  ownRow : ∀ (i : ℕ) (slot : Slot) (row : Row), s.workers[i]? = some slot →
    slot.pc = .recording row ∨ slot.pc = .ended (some row) → OwnRow cfg i slot.meter row
  kept : ∀ (i : ℕ) (slot : Slot) (row : Row), s.workers[i]? = some slot →
    slot.pc = .ended (some row) → row ∈ s.rows
  rowOf : ∀ row ∈ s.rows, ∃ slot, s.workers[row.entry]? = some slot ∧ slot.pc = .ended (some row)
  nodup : (s.rows.map Row.entry).Nodup
  recorded : s.workers.countP Slot.recorded = s.rows.length
  done_eq : s.done = s.rows.length
  split : s.done = s.success + s.failed
  inFlight : s.inFlight + s.done = s.workers.length
  queued : s.finished = false → s.queued = s.held.length + s.queue.length
  window : s.inFlight + s.room ≤ cfg.maxConcurrent
  quits : ∀ slot ∈ s.workers, slot.pc = .ended none → s.stop = true
  closed : s.finished = true → s.pc = .ended ∧ ∀ slot ∈ s.workers, slot.ended = true
  notEnded : s.finished = false → s.pc ≠ .ended
  emptied : s.finished = true → s.queued = 0

section Slots
variable {cfg : Config} {s : JobState} {i : ℕ} {slot : Slot} {pc : SlotPc}

theorem lookup_set (h : s.workers[i]? = some slot) (j : ℕ) :
    (s.workers.set i { slot with pc := pc })[j]? =
      if i = j then some { slot with pc := pc } else s.workers[j]? := by
  have hlt : i < s.workers.length := (List.getElem?_eq_some_iff.mp h).1
  rw [List.getElem?_set, if_pos hlt]

theorem meters_set (pc : SlotPc) (h : s.workers[i]? = some slot) :
    (s.workers.set i { slot with pc := pc }).map Slot.meter = s.workers.map Slot.meter := by
  apply List.ext_getElem?
  intro j
  rw [List.getElem?_map, List.getElem?_map, lookup_set h]
  split_ifs with hj
  · rw [← hj, h]
    rfl
  · rfl

theorem mem_set {slot' : Slot} (h : slot' ∈ s.workers.set i { slot with pc := pc }) :
    slot' ∈ s.workers ∨ slot' = { slot with pc := pc } := by
  rcases List.mem_or_eq_of_mem_set h with hold | hnew
  · exact Or.inl hold
  · exact Or.inr hnew

theorem recorded_of_ended {slot : Slot} (h : slot.ended = false) : slot.recorded = false := by
  rw [Slot.ended] at h
  rw [Slot.recorded]
  split at h
  · cases h
  · rename_i hpc
    split
    · rename_i row hrow
      exact absurd hrow (hpc _)
    · rfl

/-- A slot moves on without leaving a row. -/
theorem Lawful.setPc (h : Lawful cfg s) (hslot : s.workers[i]? = some slot)
    (hrunning : slot.ended = false) (claimed : List String) (hpc : ∀ row, pc ≠ .ended (some row))
    (hrow : ∀ row, pc = .recording row → OwnRow cfg i slot.meter row)
    (hstop : pc = .ended none → s.stop = true) :
    Lawful cfg (Batch.setPc { s with claimed := claimed } i slot pc) := by
  have hlt : i < s.workers.length := (List.getElem?_eq_some_iff.mp hslot).1
  have hget : s.workers[i] = slot := (List.getElem?_eq_some_iff.mp hslot).2
  have hnew : ({ slot with pc := pc } : Slot).recorded = false := by
    rw [Slot.recorded]
    split
    · rename_i row hrow'
      exact absurd hrow' (hpc row)
    · rfl
  constructor
  · exact (congrArg (· ++ _) (meters_set pc hslot)).trans h.entries
  · intro j slot' row hj hpc'
    simp only [Batch.setPc, lookup_set hslot] at hj
    split_ifs at hj with hij
    · subst hij
      obtain rfl := Option.some.inj hj
      rcases hpc' with hrec | hend
      · exact hrow row hrec
      · exact absurd hend (hpc row)
    · exact h.ownRow j slot' row hj hpc'
  · intro j slot' row hj hpc'
    simp only [Batch.setPc, lookup_set hslot] at hj
    split_ifs at hj with hij
    · obtain rfl := Option.some.inj hj
      exact absurd hpc' (hpc row)
    · exact h.kept j slot' row hj hpc'
  · intro row hmem
    obtain ⟨slot', hj, hend⟩ := h.rowOf row hmem
    have hne : i ≠ row.entry := by
      rintro rfl
      obtain rfl := Option.some.inj (hslot.symm.trans hj)
      rw [Slot.ended, hend] at hrunning
      cases hrunning
    refine ⟨slot', ?_, hend⟩
    simp only [Batch.setPc, lookup_set hslot, if_neg hne, hj]
  · exact h.nodup
  · have hold : (s.workers[i]).recorded = false := by
      rw [hget]
      exact recorded_of_ended hrunning
    simp only [Batch.setPc]
    rw [List.countP_set hlt, hold, hnew]
    simpa using h.recorded
  · exact h.done_eq
  · exact h.split
  · simpa only [Batch.setPc, List.length_set] using h.inFlight
  · exact h.queued
  · exact h.window
  · intro slot' hmem hend
    rcases mem_set hmem with hold | rfl
    · exact h.quits slot' hold hend
    · exact hstop hend
  · intro hfin
    obtain ⟨hpcEnded, hall⟩ := h.closed hfin
    have hthis := hall slot (List.mem_of_getElem? hslot)
    rw [hrunning] at hthis
    cases hthis
  · exact h.notEnded
  · exact h.emptied

/-- A slot leaves its row. -/
theorem Lawful.record (h : Lawful cfg s) (hslot : s.workers[i]? = some slot)
    (hrunning : slot.ended = false) {row : Row} (hpc : slot.pc = .recording row) :
    Lawful cfg (Batch.setPc (recordRow s row) i slot (.ended (some row))) := by
  have hlt : i < s.workers.length := (List.getElem?_eq_some_iff.mp hslot).1
  have hget : s.workers[i] = slot := (List.getElem?_eq_some_iff.mp hslot).2
  have hown := h.ownRow i slot row hslot (Or.inl hpc)
  have hunrecorded := recorded_of_ended hrunning
  have hother : ∀ row' ∈ s.rows, row'.entry ≠ i := by
    intro row' hrow' hentry
    obtain ⟨slot', hj, hend⟩ := h.rowOf row' hrow'
    rw [hentry, hslot] at hj
    obtain rfl := Option.some.inj hj
    rw [hpc] at hend
    cases hend
  have hfresh : row.entry ∉ s.rows.map Row.entry := by
    intro hmem
    obtain ⟨row', hrow', hentry⟩ := List.mem_map.mp hmem
    exact hother row' hrow' (hentry.trans hown.entry_eq)
  have hflight : 1 ≤ s.inFlight := by
    have hcount := h.inFlight
    have hrecorded := h.recorded
    have hdone := h.done_eq
    have hless : s.workers.countP Slot.recorded < s.workers.length := by
      refine lt_of_le_of_ne List.countP_le_length fun hall => ?_
      have hthis := List.countP_eq_length.mp hall slot (List.mem_of_getElem? hslot)
      rw [hunrecorded] at hthis
      cases hthis
    omega
  constructor
  · have hmeters := meters_set (.ended (some row)) hslot
    simpa only [Batch.setPc, JobState.held, recordRow_workers, recordRow_pc, recordRow_queue, hmeters]
      using h.entries
  · intro j slot' row' hj hpc'
    simp only [Batch.setPc, recordRow_workers, lookup_set hslot] at hj
    split_ifs at hj with hij
    · subst hij
      obtain rfl := Option.some.inj hj
      rcases hpc' with hrec | hend
      · cases hrec
      · obtain rfl := Option.some.inj (SlotPc.ended.inj hend)
        exact hown
    · exact h.ownRow j slot' row' hj hpc'
  · intro j slot' row' hj hend
    simp only [Batch.setPc, recordRow_workers, lookup_set hslot] at hj
    simp only [Batch.setPc, recordRow_rows, List.mem_append, List.mem_singleton]
    split_ifs at hj with hij
    · obtain rfl := Option.some.inj hj
      exact Or.inr (Option.some.inj (SlotPc.ended.inj hend)).symm
    · exact Or.inl (h.kept j slot' row' hj hend)
  · intro row' hmem
    simp only [Batch.setPc, recordRow_rows, List.mem_append, List.mem_singleton] at hmem
    simp only [Batch.setPc, recordRow_workers, lookup_set hslot]
    rcases hmem with hold | rfl
    · obtain ⟨slot', hj, hend⟩ := h.rowOf row' hold
      have hne : i ≠ row'.entry := (hother row' hold).symm
      exact ⟨slot', by rw [if_neg hne, hj], hend⟩
    · exact ⟨_, by rw [if_pos hown.entry_eq.symm], rfl⟩
  · simp only [Batch.setPc, recordRow_rows, List.map_append, List.map_singleton]
    exact List.nodup_append.mpr ⟨h.nodup, List.pairwise_singleton _ _, by
      intro a ha b hb
      rw [List.mem_singleton] at hb
      rintro rfl
      exact hfresh (hb ▸ ha)⟩
  · have hold : (s.workers[i]).recorded = false := by rw [hget, hunrecorded]
    have hnew : ({ slot with pc := .ended (some row) } : Slot).recorded = true := rfl
    simp only [Batch.setPc, recordRow_workers, recordRow_rows, List.length_append, List.length_singleton]
    rw [List.countP_set hlt, hold, hnew, h.recorded]
    simp
  · simp only [Batch.setPc, recordRow_done, recordRow_rows, List.length_append, List.length_singleton,
      h.done_eq]
  · have hcounts := recordRow_counts s row
    simp only [Batch.setPc, recordRow_done]
    rw [hcounts, h.split]
  · have hcount := h.inFlight
    simp only [Batch.setPc, recordRow_workers, recordRow_done, recordRow_inFlight, List.length_set]
    omega
  · simpa only [Batch.setPc, JobState.held, recordRow_finished, recordRow_queued, recordRow_pc,
      recordRow_queue] using h.queued
  · have hwindow := h.window
    simp only [Batch.setPc, JobState.room, recordRow_inFlight, recordRow_pc] at hwindow ⊢
    omega
  · intro slot' hmem hend
    simp only [Batch.setPc, recordRow_workers, recordRow_stop] at hmem ⊢
    rcases mem_set hmem with hold | rfl
    · exact h.quits slot' hold hend
    · cases hend
  · intro hfin
    simp only [Batch.setPc, recordRow_finished] at hfin
    have hthis := (h.closed hfin).2 slot (List.mem_of_getElem? hslot)
    rw [hrunning] at hthis
    cases hthis
  · simpa only [Batch.setPc, recordRow_finished, recordRow_pc] using h.notEnded
  · simpa only [Batch.setPc, recordRow_finished, recordRow_queued] using h.emptied

theorem Lawful.move (h : Lawful cfg s) {s' : JobState} (hslot : s.workers[i]? = some slot)
    (hrunning : slot.ended = false) (hmove : SlotMove cfg s i slot s') : Lawful cfg s' := by
  cases hmove with
  | sent hpc => exact h.setPc hslot hrunning s.claimed (by simp) (by simp) (by simp)
  | armed seen hpc hstop => exact h.setPc hslot hrunning s.claimed (by simp) (by simp) (by simp)
  | polled seen hpc => exact h.setPc hslot hrunning s.claimed (by simp) (by simp) (by simp)
  | gaveUp status note hstatus =>
      refine h.setPc hslot hrunning s.claimed (by simp) (fun row hrow => ?_) (by simp)
      obtain rfl := SlotPc.recording.inj hrow
      exact plainRow_own hstatus note
  | examined seen f rest pc claimed hpc hex =>
      refine h.setPc hslot hrunning claimed ?_ ?_ ?_
      · cases hex <;> simp
      · intro row hrow
        exact examined_own hex hrow
      · cases hex <;> simp
  | stopped hstop => exact h.setPc hslot hrunning s.claimed (by simp) (by simp) fun _ => hstop
  | recorded row hpc => exact h.record hslot hrunning hpc

end Slots

section Dispatcher
variable {cfg : Config} {s s' : JobState}

theorem Lawful.withStop (h : Lawful cfg s) : Lawful cfg { s with stop := true } where
  __ := h
  quits := fun _ _ _ => rfl

theorem Lawful.withHistory (h : Lawful cfg s) (history : List Received) (arrivals : ℕ) :
    Lawful cfg { s with history := history, arrivals := arrivals } where
  __ := h

theorem Lawful.dispatch (h : Lawful cfg s) (hmove : DispatcherMove cfg s s') : Lawful cfg s' := by
  have hrun : s.pc ≠ .ended → s.finished = false := by
    intro hpc
    by_contra hfin
    exact hpc (h.closed (Bool.eq_true_of_not_eq_false hfin)).1
  cases hmove with
  | moved pc hold hnew hend hroom hjoin =>
      have hentries := h.entries
      have hqueued := h.queued
      have hwindow := h.window
      rw [hold] at hentries hqueued
      constructor
      · rw [hnew]
        exact hentries
      · exact h.ownRow
      · exact h.kept
      · exact h.rowOf
      · exact h.nodup
      · exact h.recorded
      · exact h.done_eq
      · exact h.split
      · exact h.inFlight
      · intro hfin
        rw [hnew]
        exact hqueued hfin
      · change s.inFlight + _ ≤ _
        omega
      · exact h.quits
      · intro hfin
        exact absurd (h.closed hfin).1 hend.1
      · exact fun _ => hend.2
      · exact h.emptied
  | taken left meter queue hpc hqueue =>
      have hentries := h.entries
      have hqueued := h.queued
      have hwindow := h.window
      rw [hqueue] at hentries hqueued
      simp only [JobState.held, JobState.room, hpc] at hentries hqueued hwindow
      constructor
      · exact hentries
      · exact h.ownRow
      · exact h.kept
      · exact h.rowOf
      · exact h.nodup
      · exact h.recorded
      · exact h.done_eq
      · exact h.split
      · exact h.inFlight
      · intro hfin
        have hcount := hqueued hfin
        simp only [JobState.held, List.length_cons, List.length_nil] at hcount ⊢
        omega
      · exact hwindow
      · exact h.quits
      · intro hfin
        rw [hrun (by rw [hpc]; exact DispatcherPc.noConfusion)] at hfin
        cases hfin
      · exact fun _ => DispatcherPc.noConfusion
      · exact h.emptied
  | launched meter left hpc =>
      have hentries := h.entries
      have hwindow := h.window
      have hcount := h.inFlight
      simp only [JobState.held, JobState.room, hpc] at hentries hwindow
      have hnth : ∀ {j : ℕ} {slot' : Slot}, (s.workers ++ [{ meter := meter }])[j]? = some slot' →
          s.workers[j]? = some slot' ∨ slot'.pc = .starting := by
        intro j slot' hj
        rcases Nat.lt_or_ge j s.workers.length with hlt | hge
        · rw [List.getElem?_append_left hlt] at hj
          exact Or.inl hj
        · rw [List.getElem?_append_right hge, List.getElem?_singleton] at hj
          split_ifs at hj
          obtain rfl := Option.some.inj hj
          exact Or.inr rfl
      constructor
      · simpa [JobState.held] using hentries
      · intro j slot' row hj hpc'
        rcases hnth hj with hold | hnew
        · exact h.ownRow j slot' row hold hpc'
        · rw [hnew] at hpc'
          rcases hpc' with hrec | hend <;> contradiction
      · intro j slot' row hj hend
        rcases hnth hj with hold | hnew
        · exact h.kept j slot' row hold hend
        · rw [hnew] at hend
          cases hend
      · intro row hrow
        obtain ⟨slot', hj, hend⟩ := h.rowOf row hrow
        exact ⟨slot', List.getElem?_append_left (List.getElem?_eq_some_iff.mp hj).1 ▸ hj, hend⟩
      · exact h.nodup
      · simpa [Slot.recorded] using h.recorded
      · exact h.done_eq
      · exact h.split
      · simp only [List.length_append, List.length_singleton]
        omega
      · exact fun _ => (Nat.zero_add _).symm
      · simp only [JobState.room]
        omega
      · intro slot' hmem hend
        rcases List.mem_append.mp hmem with hold | hnew
        · exact h.quits slot' hold hend
        · obtain rfl := List.mem_singleton.mp hnew
          cases hend
      · intro hfin
        rw [hrun (by rw [hpc]; exact DispatcherPc.noConfusion)] at hfin
        cases hfin
      · exact fun _ => DispatcherPc.noConfusion
      · intro hfin
        rw [hrun (by rw [hpc]; exact DispatcherPc.noConfusion)] at hfin
        cases hfin
  | closed hpc hended =>
      have hentries := h.entries
      have hwindow := h.window
      simp only [JobState.held, JobState.room, hpc] at hentries hwindow
      constructor
      · exact hentries
      · exact h.ownRow
      · exact h.kept
      · exact h.rowOf
      · exact h.nodup
      · exact h.recorded
      · exact h.done_eq
      · exact h.split
      · exact h.inFlight
      · exact fun hfin => Bool.noConfusion hfin
      · exact hwindow
      · exact h.quits
      · exact fun _ => ⟨rfl, List.all_eq_true.mp hended⟩
      · exact fun hfin => Bool.noConfusion hfin
      · exact fun _ => rfl

theorem lawful_start (cfg : Config) (history : List Bytes) : Lawful cfg (startJob cfg history) := by
  constructor <;> simp [startJob, JobState.held, JobState.room]

theorem lawful_step {e : JobEvent} (h : Lawful cfg s) (hstep : jobStep cfg s e = some s') :
    Lawful cfg s' := by
  cases jobStep_cases hstep with
  | slot i slot hslot hrunning hmove => exact h.move hslot hrunning hmove
  | dispatcher hmove => exact h.dispatch hmove
  | stop => exact h.withStop
  | append f => exact h.withHistory _ _
  | trim => exact h.withHistory _ _

theorem lawful_of_reachable {history : List Bytes}
    (h : (job cfg).Reachable (startJob cfg history) s) : Lawful cfg s :=
  h.invariant (lawful_start cfg history) fun _ _ _ _ hs _ hstep => lawful_step hs hstep

/-- No stop request comes before the job is finished. -/
def NoEarlyStop (s : JobState) (e : JobEvent) : Prop := e = .stop → s.finished = true

structure Unstopped (s : JobState) : Prop where
  stop : s.stop = true → s.finished = true
  noQuit : ∀ slot ∈ s.workers, slot.pc ≠ .ended none
  drained : s.pc = .join ∨ s.pc = .ended → s.queue = []

theorem Unstopped.setPc (h : Unstopped s) {i : ℕ} {slot : Slot} {pc : SlotPc}
    (hpc : pc ≠ .ended none) : Unstopped (Batch.setPc s i slot pc) where
  stop := h.stop
  noQuit := fun slot' hmem => by
    rcases mem_set hmem with hold | rfl
    · exact h.noQuit slot' hold
    · exact hpc
  drained := h.drained

theorem Unstopped.move (h : Unstopped s) (hlaw : Lawful cfg s) {i : ℕ} {slot : Slot}
    (hslot : s.workers[i]? = some slot) (hrunning : slot.ended = false)
    (hmove : SlotMove cfg s i slot s') : Unstopped s' := by
  cases hmove with
  | sent hpc => exact h.setPc (by simp)
  | armed seen hpc hstop => exact h.setPc (by simp)
  | polled seen hpc => exact h.setPc (by simp)
  | gaveUp status note hstatus => exact h.setPc (by simp)
  | examined seen f rest pc claimed hpc hex =>
      have hclaimed : Unstopped { s with claimed := claimed } := ⟨h.stop, h.noQuit, h.drained⟩
      refine hclaimed.setPc ?_
      cases hex <;> simp
  | stopped hstop =>
      -- the stop came after the end, when no slot was running
      have hthis := (hlaw.closed (h.stop hstop)).2 slot (List.mem_of_getElem? hslot)
      rw [hrunning] at hthis
      cases hthis
  | recorded row hpc =>
      have hrow : Unstopped (recordRow s row) :=
        ⟨by simpa using h.stop, by simpa using h.noQuit, by simpa using h.drained⟩
      exact hrow.setPc (by simp)

theorem Unstopped.dispatch (h : Unstopped s) (hlaw : Lawful cfg s)
    (hmove : DispatcherMove cfg s s') : Unstopped s' := by
  cases hmove with
  | moved pc hold hnew hend hroom hjoin =>
      refine ⟨h.stop, h.noQuit, fun hpc => ?_⟩
      rcases hpc with hpc | hpc
      · rcases hjoin hpc with hqueue | hstop
        · exact hqueue
        · exact absurd (hlaw.closed (h.stop hstop)).1 hend.1
      · exact absurd hpc hend.2
  | taken left meter queue hpc hqueue => exact ⟨h.stop, h.noQuit, by simp⟩
  | launched meter left hpc =>
      refine ⟨h.stop, fun slot hmem => ?_, by simp⟩
      rcases List.mem_append.mp hmem with hold | hnew
      · exact h.noQuit slot hold
      · obtain rfl := List.mem_singleton.mp hnew
        exact SlotPc.noConfusion
  | closed hpc hended => exact ⟨fun _ => rfl, h.noQuit, fun _ => h.drained (Or.inl hpc)⟩

theorem unstopped_of_reach {history : List Bytes}
    (h : (job cfg).Reach NoEarlyStop (startJob cfg history) s) : Unstopped s := by
  refine h.invariant ⟨by simp [startJob], by simp [startJob], by simp [startJob]⟩ ?_
  intro s e s' hreach hs hguard hstep
  have hlaw := lawful_of_reachable hreach.any
  cases jobStep_cases hstep with
  | slot i slot hslot hrunning hmove => exact hs.move hlaw hslot hrunning hmove
  | dispatcher hmove => exact hs.dispatch hlaw hmove
  | stop => exact ⟨fun _ => hguard rfl, hs.noQuit, hs.drained⟩
  | append f => exact ⟨hs.stop, hs.noQuit, hs.drained⟩
  | trim => exact ⟨hs.stop, hs.noQuit, hs.drained⟩

/-- The running slots are among those that have left no row. -/
theorem Lawful.active_le (h : Lawful cfg s) :
    s.workers.countP (fun slot => !slot.ended) ≤ s.inFlight := by
  have hsplit := List.length_eq_countP_add_countP Slot.recorded (l := s.workers)
  have hle : s.workers.countP (fun slot => !slot.ended) ≤
      s.workers.countP (fun slot => ¬ slot.recorded = true) := by
    refine List.countP_mono_left fun slot _ hslot => ?_
    rw [Bool.not_eq_true'] at hslot
    simp [recorded_of_ended hslot]
  have hcount := h.inFlight
  have hdone := h.done_eq
  have hrecorded := h.recorded
  omega

theorem Lawful.total (h : Lawful cfg s) (hfinished : s.finished = false) :
    cfg.meters.length = s.queued + s.inFlight + s.done := by
  have hcount := h.inFlight
  have hqueued := h.queued hfinished
  have hlength := congrArg List.length h.entries
  simp only [List.length_append, List.length_map] at hlength
  omega

theorem Lawful.row_meter (h : Lawful cfg s) {row : Row} (hrow : row ∈ s.rows) :
    cfg.meters[row.entry]? = some row.meter := by
  obtain ⟨slot, hslot, hend⟩ := h.rowOf row hrow
  have hown := h.ownRow row.entry slot row hslot (Or.inr hend)
  have hmeter : (s.workers.map Slot.meter)[row.entry]? = some row.meter := by
    rw [List.getElem?_map, hslot, Option.map_some, hown.meter_eq]
  rw [← h.entries, List.getElem?_append_left (List.getElem?_eq_some_iff.mp hmeter).1, hmeter]

/-- At the end of a job that was not stopped before, every slot has left its row. -/
theorem Lawful.all_recorded (h : Lawful cfg s) (hrun : Unstopped s) (hfinished : s.finished = true) :
    ∀ slot ∈ s.workers, ∃ row, slot.pc = .ended (some row) := by
  intro slot hslot
  have hended := (h.closed hfinished).2 slot hslot
  rw [Slot.ended] at hended
  split at hended
  · rename_i row hpc
    cases row with
    | none => exact absurd hpc (hrun.noQuit slot hslot)
    | some row => exact ⟨row, hpc⟩
  · cases hended

theorem Lawful.all_started (h : Lawful cfg s) (hrun : Unstopped s) (hfinished : s.finished = true) :
    s.workers.map Slot.meter = cfg.meters := by
  have hpc := (h.closed hfinished).1
  have hentries := h.entries
  rw [hrun.drained (Or.inr hpc)] at hentries
  simpa [JobState.held, hpc] using hentries

theorem Lawful.inFlight_zero (h : Lawful cfg s) (hrun : Unstopped s)
    (hfinished : s.finished = true) : s.inFlight = 0 := by
  have hall : s.workers.countP Slot.recorded = s.workers.length := by
    refine List.countP_eq_length.mpr fun slot hslot => ?_
    obtain ⟨row, hpc⟩ := h.all_recorded hrun hfinished slot hslot
    rw [Slot.recorded, hpc]
  have hcount := h.inFlight
  have hdone := h.done_eq
  have hrecorded := h.recorded
  omega

theorem Lawful.row_unique (h : Lawful cfg s) (hrun : Unstopped s) (hfinished : s.finished = true)
    {i : ℕ} (hi : i < cfg.meters.length) : ∃! row, row ∈ s.rows ∧ row.entry = i := by
  have hlt : i < s.workers.length := by
    rw [← h.all_started hrun hfinished, List.length_map] at hi
    exact hi
  have hslot : s.workers[i]? = some s.workers[i] := List.getElem?_eq_getElem hlt
  obtain ⟨row, hpc⟩ := h.all_recorded hrun hfinished _ (List.getElem_mem hlt)
  refine ⟨row, ⟨h.kept i _ row hslot hpc, (h.ownRow i _ row hslot (Or.inr hpc)).entry_eq⟩, ?_⟩
  rintro row' ⟨hrow', rfl⟩
  obtain ⟨slot, hget, hend⟩ := h.rowOf row' hrow'
  obtain rfl := Option.some.inj (hslot.symm.trans hget)
  rw [hpc] at hend
  exact (Option.some.inj (SlotPc.ended.inj hend)).symm

end Dispatcher

/-- In every reachable state each entry is in one place and at most `max_concurrent` are in flight,
and until the end the counters add up. Unless the job is stopped before its end, it then has one
row for each entry. -/
theorem conservation_and_window (cfg : Config) (history : List Bytes) (s : JobState) :
    ((job cfg).Reachable (startJob cfg history) s →
      s.workers.map Slot.meter ++ (s.held ++ s.queue) = cfg.meters ∧
      s.workers.countP (fun slot => !slot.ended) ≤ s.inFlight ∧
      s.inFlight ≤ cfg.maxConcurrent ∧
      s.done = s.success + s.failed ∧
      s.done = s.rows.length ∧
      (s.rows.map Row.entry).Nodup ∧
      (∀ row ∈ s.rows, cfg.meters[row.entry]? = some row.meter) ∧
      (s.finished = false → cfg.meters.length = s.queued + s.inFlight + s.done)) ∧
    ((job cfg).Reach NoEarlyStop (startJob cfg history) s → s.finished = true →
      s.workers.all Slot.ended ∧
      s.inFlight = 0 ∧
      cfg.meters.length = s.queued + s.inFlight + s.done ∧
      ∀ i < cfg.meters.length, ∃! row, row ∈ s.rows ∧ row.entry = i) := by
  constructor
  · intro hreach
    have h := lawful_of_reachable hreach
    have hwindow : s.inFlight ≤ cfg.maxConcurrent :=
      (Nat.le_add_right _ _).trans h.window
    exact ⟨h.entries, h.active_le, hwindow, h.split, h.done_eq, h.nodup, fun row => h.row_meter,
      h.total⟩
  · intro hreach hfinished
    have h := lawful_of_reachable hreach.any
    have hrun := unstopped_of_reach hreach
    have hzero := h.inFlight_zero hrun hfinished
    have hcount := h.inFlight
    refine ⟨List.all_eq_true.mpr (h.closed hfinished).2, hzero, ?_, fun i hi =>
      h.row_unique hrun hfinished hi⟩
    have hqueued := h.emptied hfinished
    have hstarted := congrArg List.length (h.all_started hrun hfinished)
    rw [List.length_map] at hstarted
    omega

def twoMeters : Config where
  meters := ["000000000001", "000000000002"]
  maxConcurrent := 1

/-- The first slot waits until its time is over, the second cannot send. -/
def timedOut : List JobEvent :=
  [.check, .size, .take, .launch, .take, .send 0, .wake, .arm 0, .poll 0, .expire 0, .record 0,
    .check, .size, .take, .launch, .fail 1 "发送失败", .take, .record 1, .wake, .check, .finish]

theorem two_meters_recorded : ∃ s : JobState, s.finished = true ∧
    s.rows.map Row.status = [.timeout, .error] ∧ s.inFlight = 0 ∧
    ∀ i < 2, ∃! row, row ∈ s.rows ∧ row.entry = i := by
  obtain ⟨s, hrun⟩ : ∃ s, (job twoMeters).run (startJob twoMeters []) timedOut = some s := ⟨_, rfl⟩
  have hend : s.finished = true ∧ s.rows.map Row.status = [.timeout, .error] := by
    obtain rfl := Option.some.inj hrun
    exact ⟨rfl, rfl⟩
  have hreach : (job twoMeters).Reach NoEarlyStop (startJob twoMeters []) s :=
    Machine.reach_of_run (by simp [timedOut, NoEarlyStop]) hrun
  obtain ⟨-, hzero, -, hrows⟩ := (conservation_and_window twoMeters [] s).2 hreach hend.1
  exact ⟨s, hend.1, hend.2, hzero, hrows⟩

/-- A stop reaches the first slot before its reply: neither entry has a row at the end, and the
first one is still counted as in flight. -/
theorem stopped_job_lacks_rows : ¬ ∀ s,
    (job twoMeters).Reachable (startJob twoMeters []) s → s.finished = true →
      s.workers.all Slot.ended →
      s.inFlight = 0 ∧ ∀ i < twoMeters.meters.length, ∃! row, row ∈ s.rows ∧ row.entry = i := by
  intro h
  obtain ⟨s, hrun⟩ : ∃ s, (job twoMeters).run (startJob twoMeters [])
      [.check, .size, .take, .launch, .send 0, .stop, .expire 0, .take, .wake, .check, .finish] =
        some s := ⟨_, rfl⟩
  have hend : s.finished = true ∧ s.workers.all Slot.ended = true ∧ s.rows = [] := by
    obtain rfl := Option.some.inj hrun
    exact ⟨rfl, rfl, rfl⟩
  obtain ⟨-, hrows⟩ := h s (Machine.reachable_of_run hrun) hend.1 hend.2.1
  obtain ⟨row, ⟨hmem, -⟩, -⟩ := hrows 0 (by decide)
  rw [hend.2.2] at hmem
  exact List.not_mem_nil hmem

end HplcWorkbench.Batch
