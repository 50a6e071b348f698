import HplcWorkbench.MinuteSafety
import HplcWorkbench.MinuteWindows

/-!
# No event is lost

What the lines give is gathered in one scan. Reports and read frames of a task end up in its events,
whatever stands between them, and the statistics depend on these events up to their order. So no
event is lost, and lines that bring events may come in any order.
-/

namespace HplcWorkbench.MinuteStats

open OrderedDict (Dict)
open ExactOutcomes
open scoped List

/-! ## What a scan has gathered -/

/-- What a line may give: a configuration, the meters of a task, or an event of a task. -/
inductive Finding
  | config (config : TaskConfig)
  | meters (taskId : Byte) (addresses : List String)
  | event (taskId : Byte) (e : TaskEvent)

/-- The event that a finding is for a task. -/
def Finding.eventAt (taskId : Byte) : Finding → Option TaskEvent
  | .event t e => if t = taskId then some e else none
  | _ => none

/-- The finding, if it settles how a task is set up. -/
def Finding.setting : Finding → Option Finding
  | .event _ _ => none
  | f => some f

namespace Scan

def put (s : Scan) : Finding → Scan
  | .config config => s.recordConfig config
  | .meters taskId addresses => s.recordConfigured taskId addresses
  | .event taskId (.inl report) => s.recordReport taskId report
  | .event taskId (.inr read) => s.recordRead taskId read

/-- The reports and read frames of a task. -/
def eventsOf (s : Scan) (taskId : Byte) : List TaskEvent :=
  taskEvents ((s.activeReports.get? taskId).getD []) ((s.readEvents.get? taskId).getD [])

/-- The dicts that say how the tasks are set up. -/
def settings (s : Scan) :=
  (s.periodMap, s.configured, s.configuredList, s.deleteCount, s.broadcastDeleteCount)

end Scan

section Findings
variable {s s' : Scan} {taskId : Byte}

theorem settings_recordConfig (config : TaskConfig) (h : s.settings = s'.settings) :
    (s.recordConfig config).settings = (s'.recordConfig config).settings := by
  simp only [Scan.settings, Prod.mk.injEq] at h ⊢
  obtain ⟨hperiod, hconfigured, hlist, hdelete, hbroadcast⟩ := h
  unfold Scan.recordConfig
  split
  · exact ⟨hperiod, hconfigured, hlist, hdelete, congrArg (· + 1) hbroadcast⟩
  · split
    · exact ⟨hperiod, hconfigured, hlist, by rw [hdelete], hbroadcast⟩
    · exact ⟨by rw [hperiod], hconfigured, hlist, hdelete, hbroadcast⟩

theorem settings_recordConfigured (taskId : Byte) (addresses : List String)
    (h : s.settings = s'.settings) :
    (s.recordConfigured taskId addresses).settings = (s'.recordConfigured taskId addresses).settings := by
  simp only [Scan.settings, Prod.mk.injEq] at h ⊢
  obtain ⟨hperiod, hconfigured, hlist, hdelete, hbroadcast⟩ := h
  unfold Scan.recordConfigured
  exact ⟨hperiod, by rw [hconfigured], by rw [hlist], hdelete, hbroadcast⟩

theorem settings_event (s : Scan) (taskId : Byte) (e : TaskEvent) :
    (s.put (.event taskId e)).settings = s.settings := by
  cases e <;> rfl

theorem settings_put (f : Finding) (h : s.settings = s'.settings) :
    (s.put f).settings = (s'.put f).settings := by
  cases f with
  | config config => exact settings_recordConfig config h
  | meters taskId addresses => exact settings_recordConfigured taskId addresses h
  | event taskId e => rw [settings_event, settings_event, h]

/-- How the tasks are set up depends on the settings alone. -/
theorem settings_foldl_put (findings : List Finding) (h : s.settings = s'.settings) :
    (findings.foldl Scan.put s).settings = ((findings.filterMap Finding.setting).foldl Scan.put s').settings := by
  induction findings generalizing s s' with
  | nil => exact h
  | cons f findings ih =>
      rw [List.foldl_cons]
      cases f with
      | config config => exact ih (settings_put (.config config) h)
      | meters t addresses => exact ih (settings_put (.meters t addresses) h)
      | event t e => exact ih ((settings_event s t e).trans h)

theorem eventsOf_recordReport (s : Scan) (t : Byte) (report : Report) :
    (s.recordReport t report).eventsOf taskId ~
      s.eventsOf taskId ++ if t = taskId then [.inl report] else [] := by
  unfold Scan.recordReport Scan.recordEvent Scan.eventsOf taskEvents
  dsimp only
  by_cases h : t = taskId
  · subst h
    rw [Dict.get?_set_self, if_pos rfl, Option.getD_some, List.map_append, List.append_assoc,
      List.append_assoc]
    exact List.Perm.append_left _ List.perm_append_comm
  · rw [Dict.get?_set_of_ne _ _ _ _ (Ne.symm h), if_neg h, List.append_nil]

theorem eventsOf_recordRead (s : Scan) (t : Byte) (read : ReadEvent) :
    (s.recordRead t read).eventsOf taskId ~
      s.eventsOf taskId ++ if t = taskId then [.inr read] else [] := by
  unfold Scan.recordRead Scan.recordEvent Scan.eventsOf taskEvents
  dsimp only
  by_cases h : t = taskId
  · subst h
    rw [Dict.get?_set_self, if_pos rfl, Option.getD_some, List.map_append, List.append_assoc]
    rfl
  · rw [Dict.get?_set_of_ne _ _ _ _ (Ne.symm h), if_neg h, List.append_nil]

/-- A finding adds its event to those of its task. -/
theorem eventsOf_put (s : Scan) (f : Finding) :
    (s.put f).eventsOf taskId ~ s.eventsOf taskId ++ (f.eventAt taskId).toList := by
  cases f with
  | config config =>
      have hsame : (s.recordConfig config).eventsOf taskId = s.eventsOf taskId := by
        unfold Scan.recordConfig
        split
        · rfl
        · split <;> rfl
      exact List.Perm.of_eq (hsame.trans (List.append_nil (s.eventsOf taskId)).symm)
  | meters t addresses => exact List.Perm.of_eq (List.append_nil (s.eventsOf taskId)).symm
  | event t e =>
      have htoList (h : Decidable (t = taskId)) : (if t = taskId then some e else none).toList =
          if t = taskId then [e] else [] := by
        split <;> rfl
      rw [Finding.eventAt, htoList]
      cases e with
      | inl report => exact eventsOf_recordReport s t report
      | inr read => exact eventsOf_recordRead s t read

theorem eventsOf_foldl_put (findings : List Finding) (s : Scan) :
    (findings.foldl Scan.put s).eventsOf taskId ~
      s.eventsOf taskId ++ findings.filterMap (Finding.eventAt taskId) := by
  induction findings generalizing s with
  | nil => exact List.Perm.of_eq (List.append_nil (s.eventsOf taskId)).symm
  | cons f findings ih =>
      rw [List.foldl_cons]
      have hrest : (f :: findings).filterMap (Finding.eventAt taskId) =
          (f.eventAt taskId).toList ++ findings.filterMap (Finding.eventAt taskId) := by
        rw [List.filterMap_cons]
        cases f.eventAt taskId <;> rfl
      calc (findings.foldl Scan.put (s.put f)).eventsOf taskId
        _ ~ (s.put f).eventsOf taskId ++ findings.filterMap (Finding.eventAt taskId) := ih _
        _ ~ (s.eventsOf taskId ++ (f.eventAt taskId).toList) ++
            findings.filterMap (Finding.eventAt taskId) := (eventsOf_put s f).append_right _
        _ ~ s.eventsOf taskId ++ (f :: findings).filterMap (Finding.eventAt taskId) := by
          rw [hrest, List.append_assoc]

end Findings

/-! ## The first and the last event -/

/-- The bound of the times, where there are any. -/
def Bound (isBound : Set ℤ → ℤ → Prop) (m : Option ℤ) (minutes : List ℤ) : Prop :=
  m.elim (minutes = []) (isBound {x | x ∈ minutes})

section Bounds
variable {minutes minutes' : List ℤ} {m : Option ℤ} {time : ℤ}

theorem Bound.perm {isBound : Set ℤ → ℤ → Prop} (h : Bound isBound m minutes)
    (hperm : minutes ~ minutes') : Bound isBound m minutes' := by
  cases m with
  | none =>
      rw [show minutes = [] from h] at hperm
      exact hperm.nil_eq.symm
  | some x =>
      have hset : {y | y ∈ minutes'} = {y | y ∈ minutes} := Set.ext fun y => hperm.mem_iff.symm
      rw [Bound, hset]
      exact h

/-- The least time, once another one is there. -/
theorem Bound.least_concat (h : Bound IsLeast m minutes) :
    Bound IsLeast (if m.all fun first => decide (time < first) then some time else m)
      (minutes ++ [time]) := by
  have hset : {x | x ∈ minutes ++ [time]} = insert time {x | x ∈ minutes} := by
    ext x
    simp [or_comm]
  unfold Bound
  rw [hset]
  cases m with
  | none =>
      rw [show minutes = [] from h]
      simp
  | some first =>
      have hinsert := IsLeast.insert time (show IsLeast {x | x ∈ minutes} first from h)
      by_cases hlt : time < first
      · rw [min_eq_left hlt.le] at hinsert
        simpa [hlt] using hinsert
      · rw [min_eq_right (not_lt.mp hlt)] at hinsert
        simpa [hlt] using hinsert

theorem Bound.greatest_concat (h : Bound IsGreatest m minutes) :
    Bound IsGreatest (if m.all fun last => decide (last < time) then some time else m)
      (minutes ++ [time]) := by
  have hset : {x | x ∈ minutes ++ [time]} = insert time {x | x ∈ minutes} := by
    ext x
    simp [or_comm]
  unfold Bound
  rw [hset]
  cases m with
  | none =>
      rw [show minutes = [] from h]
      simp
  | some last =>
      have hinsert := IsGreatest.insert time (show IsGreatest {x | x ∈ minutes} last from h)
      by_cases hlt : last < time
      · rw [max_eq_left hlt.le] at hinsert
        simpa [hlt] using hinsert
      · rw [max_eq_right (not_lt.mp hlt)] at hinsert
        simpa [hlt] using hinsert

end Bounds

/-- The bounds of a task's events are those of their times, and a task is known by its events. -/
structure Scan.Sound (s : Scan) : Prop where
  first : ∀ t, Bound IsLeast (s.firstEventMinutes.get? t) (times (s.eventsOf t))
  last : ∀ t, Bound IsGreatest (s.lastEventMinutes.get? t) (times (s.eventsOf t))
  reports : ∀ t, s.activeReports.get? t ≠ some []
  reads : ∀ t, s.readEvents.get? t ≠ some []

section Sound
variable {s : Scan}

theorem sound_empty : ({} : Scan).Sound := by
  constructor
  · exact fun _ => rfl
  · exact fun _ => rfl
  · rintro t ⟨⟩
  · rintro t ⟨⟩

theorem times_perm {events events' : List TaskEvent} (h : events ~ events') :
    times events ~ times events' := h.map _

theorem times_concat (events : List TaskEvent) (e : TaskEvent) :
    times (events ++ [e]) = times events ++ [fzMinutes e.fz] := List.map_append

theorem recordEvent_first (s : Scan) (t taskId : Byte) (fz : FreezeTime) :
    (s.recordEvent taskId fz).firstEventMinutes.get? t =
      if taskId = t then
        if (s.firstEventMinutes.get? t).all fun first => decide (fzMinutes fz < first) then
          some (fzMinutes fz) else s.firstEventMinutes.get? t
      else s.firstEventMinutes.get? t := by
  unfold Scan.recordEvent
  dsimp only
  by_cases h : taskId = t
  · subst h
    rw [if_pos rfl]
    split
    · rw [Dict.get?_set_self]
    · rfl
  · rw [if_neg h]
    split
    · rw [Dict.get?_set_of_ne _ _ _ _ (Ne.symm h)]
    · rfl

theorem recordEvent_last (s : Scan) (t taskId : Byte) (fz : FreezeTime) :
    (s.recordEvent taskId fz).lastEventMinutes.get? t =
      if taskId = t then
        if (s.lastEventMinutes.get? t).all fun last => decide (last < fzMinutes fz) then
          some (fzMinutes fz) else s.lastEventMinutes.get? t
      else s.lastEventMinutes.get? t := by
  unfold Scan.recordEvent
  dsimp only
  by_cases h : taskId = t
  · subst h
    rw [if_pos rfl]
    split
    · rw [Dict.get?_set_self]
    · rfl
  · rw [if_neg h]
    split
    · rw [Dict.get?_set_of_ne _ _ _ _ (Ne.symm h)]
    · rfl

theorem get?_set_concat_ne {α : Type} (d : Dict Byte (List α)) (taskId t : Byte) (x : α)
    (h : d.get? t ≠ some []) :
    (d.set taskId ((d.get? taskId).getD [] ++ [x])).get? t ≠ some [] := by
  by_cases hkey : t = taskId
  · subst hkey
    rw [Dict.get?_set_self]
    simp
  · rw [Dict.get?_set_of_ne _ _ _ _ hkey]
    exact h

/-- An event of a task is recorded together with its time. -/
theorem Scan.Sound.recordEvent {s' : Scan} {taskId : Byte} {e : TaskEvent} (h : s.Sound)
    (hfirst : s'.firstEventMinutes = s.firstEventMinutes)
    (hlast : s'.lastEventMinutes = s.lastEventMinutes)
    (hevents : ∀ t, s'.eventsOf t ~ s.eventsOf t ++ if taskId = t then [e] else [])
    (hreports : ∀ t, s'.activeReports.get? t ≠ some [])
    (hreads : ∀ t, s'.readEvents.get? t ≠ some []) : (s'.recordEvent taskId e.fz).Sound := by
  have htimes (t : Byte) : times (s.eventsOf t ++ if taskId = t then [e] else []) ~
      times ((s'.recordEvent taskId e.fz).eventsOf t) := times_perm (hevents t).symm
  constructor
  · intro t
    apply Bound.perm _ (htimes t)
    rw [recordEvent_first, hfirst]
    split
    · rw [times_concat]
      exact (h.first t).least_concat
    · rw [List.append_nil]
      exact h.first t
  · intro t
    apply Bound.perm _ (htimes t)
    rw [recordEvent_last, hlast]
    split
    · rw [times_concat]
      exact (h.last t).greatest_concat
    · rw [List.append_nil]
      exact h.last t
  · exact hreports
  · exact hreads

theorem Scan.Sound.put (h : s.Sound) (f : Finding) : (s.put f).Sound := by
  cases f with
  | config config =>
      unfold Scan.put Scan.recordConfig
      dsimp only
      split
      · exact ⟨h.first, h.last, h.reports, h.reads⟩
      · split <;> exact ⟨h.first, h.last, h.reports, h.reads⟩
  | meters taskId addresses => exact ⟨h.first, h.last, h.reports, h.reads⟩
  | event taskId e =>
      cases e with
      | inl report =>
          exact Scan.Sound.recordEvent (e := .inl report) h rfl rfl
            (fun _ => eventsOf_recordReport s taskId report)
            (fun t => get?_set_concat_ne s.activeReports taskId t report (h.reports t)) h.reads
      | inr read =>
          exact Scan.Sound.recordEvent (e := .inr read) h rfl rfl
            (fun _ => eventsOf_recordRead s taskId read) h.reports
            fun t => get?_set_concat_ne s.readEvents taskId t read (h.reads t)

theorem Scan.Sound.foldl_put (findings : List Finding) (h : s.Sound) :
    (findings.foldl Scan.put s).Sound := by
  induction findings generalizing s with
  | nil => exact h
  | cons f findings ih => exact ih (h.put f)

end Sound

/-! ## The statistics of a scan -/

/-- The meters configured for a task, if there are any. -/
def Scan.configuredOf (s : Scan) (taskId : Byte) : Option (Finset String) :=
  (s.configured.get? taskId).filter (· ≠ ∅)

/-- The statistics of a task say what its events are. -/
structure TaskKept (s : Scan) (stats : TaskStats) : Prop where
  period : stats.period =
    taskPeriod (s.periodMap.get? stats.taskId) (times (s.eventsOf stats.taskId))
  positive : 1 ≤ stats.period
  cycles : CyclesKept (s.configuredOf stats.taskId) stats.period (s.eventsOf stats.taskId) stats.cycles

section Statistics
variable {s s' : Scan} {taskId : Byte}

variable (taskId) in
theorem mem_tasks (h : s.Sound) : taskId ∈ s.tasks ↔ s.eventsOf taskId ≠ [] := by
  have hkey {α : Type} {d : Dict Byte (List α)} (hd : d.get? taskId ≠ some []) :
      taskId ∈ d.entries.map Prod.fst ↔ (d.get? taskId).getD [] ≠ [] := by
    rw [← not_iff_not, ← Dict.get?_eq_none_iff, not_not]
    cases hget : d.get? taskId with
    | none => simp
    | some xs =>
        rw [hget] at hd
        simpa using hd
  rw [Scan.tasks, Finset.mem_sort, List.mem_toFinset, List.mem_append, hkey (h.reports taskId),
    hkey (h.reads taskId), Scan.eventsOf, taskEvents]
  simp only [ne_eq, List.append_eq_nil_iff, List.map_eq_nil_iff, not_and_or]

/-- What is said about a task, from the bounds of its events. -/
def Scan.statsBetween (s : Scan) (taskId : Byte) (first last : ℤ) : TaskStats :=
  let reports := (s.activeReports.get? taskId).getD []
  let reads := (s.readEvents.get? taskId).getD []
  let period := taskPeriod (s.periodMap.get? taskId) (eventMinutes reports reads)
  { taskId := taskId
    period := period
    configuredAddresses := (s.configuredList.get? taskId).getD []
    cycles := taskCycles (s.configuredOf taskId) period first last reports reads
    deleteCount := (s.deleteCount.get? taskId).getD 0 }

theorem taskStats_eq (h : s.Sound) (hevents : s.eventsOf taskId ≠ []) :
    ∃ first last, IsLeast {m | m ∈ times (s.eventsOf taskId)} first ∧
      IsGreatest {m | m ∈ times (s.eventsOf taskId)} last ∧
      s.taskStats taskId = some (s.statsBetween taskId first last) := by
  have hfirst := h.first taskId
  have hlast := h.last taskId
  have htimes : times (s.eventsOf taskId) ≠ [] := fun hnil => hevents (List.map_eq_nil_iff.mp hnil)
  unfold Scan.taskStats
  cases hleast : s.firstEventMinutes.get? taskId with
  | none =>
      rw [hleast] at hfirst
      exact absurd hfirst htimes
  | some first =>
      cases hgreatest : s.lastEventMinutes.get? taskId with
      | none =>
          rw [hgreatest] at hlast
          exact absurd hlast htimes
      | some last =>
          rw [hleast] at hfirst
          rw [hgreatest] at hlast
          exact ⟨first, last, hfirst, hlast, rfl⟩

theorem statsBetween_kept {first last : ℤ}
    (hfirst : IsLeast {m | m ∈ times (s.eventsOf taskId)} first)
    (hlast : IsGreatest {m | m ∈ times (s.eventsOf taskId)} last) :
    TaskKept s (s.statsBetween taskId first last) := by
  have htimes := times_taskEvents ((s.activeReports.get? taskId).getD [])
    ((s.readEvents.get? taskId).getD [])
  unfold Scan.eventsOf at hfirst hlast
  rw [htimes] at hfirst hlast
  constructor
  · unfold Scan.statsBetween Scan.eventsOf
    rw [htimes]
  · exact one_le_taskPeriod _ _
  · exact taskCycles_kept _ _ _ (one_le_taskPeriod _ _) hfirst hlast

/-- The tasks of the statistics are the tasks with events, and each is told as it is. -/
theorem stats_kept (h : s.Sound) :
    (s.tasks.filterMap s.taskStats).map TaskStats.taskId = s.tasks ∧
      ∀ stats ∈ s.tasks.filterMap s.taskStats, TaskKept s stats := by
  have hstats {t : Byte} (ht : t ∈ s.tasks) :
      ∃ stats, s.taskStats t = some stats ∧ stats.taskId = t ∧ TaskKept s stats := by
    obtain ⟨first, last, hfirst, hlast, heq⟩ := taskStats_eq h ((mem_tasks _ h).mp ht)
    exact ⟨_, heq, rfl, statsBetween_kept hfirst hlast⟩
  constructor
  · rw [List.map_filterMap]
    calc s.tasks.filterMap (fun t => (s.taskStats t).map TaskStats.taskId)
      _ = s.tasks.filterMap some := by
        apply List.filterMap_congr
        intro t ht
        obtain ⟨stats, heq, hid, -⟩ := hstats ht
        rw [heq, Option.map_some, hid]
      _ = s.tasks := List.filterMap_some
  · intro stats hmem
    obtain ⟨t, ht, heq⟩ := List.mem_filterMap.mp hmem
    obtain ⟨stats', heq', -, hkept⟩ := hstats ht
    rw [heq] at heq'
    exact Option.some.inj heq' ▸ hkept

end Statistics

/-! ## The order of the events -/

/-- What a cycle counts, without the time texts of its failures. -/
def TaskCycleStats.counts (c : TaskCycleStats) : ℕ × String × ℕ × ℕ × List (String × String) :=
  (c.index, c.windowLabel, c.activeOk, c.passiveOk, c.passiveCollectFailed.map fun f => (f.1, f.2.2))

def TaskStats.counts (stats : TaskStats) :=
  (stats.taskId, stats.period, stats.configuredAddresses, stats.cycles.map TaskCycleStats.counts,
    stats.deleteCount)

section Order
variable {s s' : Scan} {taskId : Byte} {events events' : List TaskEvent}

theorem metersOf_perm (h : events ~ events') (p : TaskEvent → Bool) :
    metersOf p events = metersOf p events' := by
  ext a
  rw [mem_metersOf, mem_metersOf]
  exact exists_congr fun e => and_congr_left fun _ => h.mem_iff

theorem taskPeriod_perm (configured : Option Byte) {minutes minutes' : List ℤ}
    (h : minutes ~ minutes') : taskPeriod configured minutes = taskPeriod configured minutes' := by
  have hsorted : minutes.insertionSort (· ≤ ·) = minutes'.insertionSort (· ≤ ·) := by
    apply List.Perm.eq_of_sortedLE (List.sortedLE_insertionSort) (List.sortedLE_insertionSort)
    exact (List.perm_insertionSort _ _).trans (h.trans (List.perm_insertionSort _ _).symm)
  unfold taskPeriod
  rw [hsorted]

/-- What a cycle counts is settled by the sets of its events. -/
theorem cycleCounts_perm (h : events ~ events') (configured : Option (Finset String))
    (period index : ℕ) (start : ℤ) :
    ((events.foldl CycleBucket.add {}).cycleStats configured period index start).counts =
      ((events'.foldl CycleBucket.add {}).cycleStats configured period index start).counts := by
  have houtcome : (events.foldl CycleBucket.add {}).outcome configured =
      (events'.foldl CycleBucket.add {}).outcome configured := by
    have hscope : scopeOf configured events = scopeOf configured events' := by
      unfold scopeOf
      rw [metersOf_perm h, metersOf_perm h, metersOf_perm h]
    rw [outcome_foldl, outcome_foldl, hscope]
    simp only [metersOf_perm h]
  unfold CycleBucket.cycleStats TaskCycleStats.counts
  simp only [houtcome, List.map_append, List.map_map]
  rfl

theorem taskCycles_perm (h : s.eventsOf taskId ~ s'.eventsOf taskId)
    (configured : Option (Finset String)) (period : ℕ) (first last : ℤ) :
    (taskCycles configured period first last ((s.activeReports.get? taskId).getD [])
        ((s.readEvents.get? taskId).getD [])).map TaskCycleStats.counts =
      (taskCycles configured period first last ((s'.activeReports.get? taskId).getD [])
        ((s'.readEvents.get? taskId).getD [])).map TaskCycleStats.counts := by
  unfold taskCycles
  rw [List.map_map, List.map_map]
  apply List.map_congr_left
  intro e _
  simp only [Function.comp_apply, get_fillBuckets]
  exact cycleCounts_perm (h.filter _) configured period (e.2 + 1) e.1

/-- Scans that have gathered the same, up to the order of the events. -/
structure Scan.Same (s s' : Scan) : Prop where
  settings : s.settings = s'.settings
  events : ∀ t, s.eventsOf t ~ s'.eventsOf t

theorem Scan.Same.tasks (hsame : s.Same s') (h : s.Sound) (h' : s'.Sound) : s.tasks = s'.tasks := by
  have hsets : (s.activeReports.entries.map Prod.fst ++ s.readEvents.entries.map Prod.fst).toFinset =
      (s'.activeReports.entries.map Prod.fst ++ s'.readEvents.entries.map Prod.fst).toFinset := by
    ext t
    have hmem := mem_tasks t h
    have hmem' := mem_tasks t h'
    rw [Scan.tasks, Finset.mem_sort] at hmem hmem'
    rw [hmem, hmem', not_iff_not]
    have hperm := hsame.events t
    constructor
    · intro hnil
      exact List.Perm.eq_nil (hnil ▸ hperm.symm)
    · intro hnil
      exact List.Perm.eq_nil (hnil ▸ hperm)
  rw [Scan.tasks, Scan.tasks, hsets]

theorem Scan.Same.taskStats (hsame : s.Same s') (h : s.Sound) (h' : s'.Sound)
    (hevents : s.eventsOf taskId ≠ []) :
    (s.taskStats taskId).map TaskStats.counts = (s'.taskStats taskId).map TaskStats.counts := by
  have hperm := hsame.events taskId
  have hevents' : s'.eventsOf taskId ≠ [] := fun hnil => hevents (List.Perm.eq_nil (hnil ▸ hperm))
  have htimes := times_perm hperm
  have hset : {m | m ∈ times (s'.eventsOf taskId)} = {m | m ∈ times (s.eventsOf taskId)} :=
    Set.ext fun m => htimes.mem_iff.symm
  obtain ⟨first, last, hfirst, hlast, heq⟩ := taskStats_eq h hevents
  obtain ⟨first', last', hfirst', hlast', heq'⟩ := taskStats_eq h' hevents'
  rw [hset] at hfirst' hlast'
  obtain rfl := hfirst.unique hfirst'
  obtain rfl := hlast.unique hlast'
  have hsettings := hsame.settings
  simp only [Scan.settings, Prod.mk.injEq] at hsettings
  obtain ⟨hperiods, hconfigured, hlists, hdeletes, -⟩ := hsettings
  have hperiod := taskPeriod_perm (s.periodMap.get? taskId) htimes
  unfold Scan.eventsOf at hperiod
  rw [times_taskEvents, times_taskEvents] at hperiod
  rw [heq, heq', Option.map_some, Option.map_some]
  unfold Scan.statsBetween Scan.configuredOf TaskStats.counts
  dsimp only
  rw [← hperiods, ← hconfigured, ← hlists, ← hdeletes, ← hperiod, taskCycles_perm hperm]

/-- What is told of two such scans differs in the time texts only. -/
theorem Scan.Same.stats (hsame : s.Same s') (h : s.Sound) (h' : s'.Sound) :
    (s.tasks.filterMap s.taskStats).map TaskStats.counts =
      (s'.tasks.filterMap s'.taskStats).map TaskStats.counts := by
  rw [List.map_filterMap, List.map_filterMap, ← hsame.tasks h h']
  apply List.filterMap_congr
  intro t ht
  exact hsame.taskStats h h' ((mem_tasks _ h).mp ht)

end Order

end HplcWorkbench.MinuteStats
