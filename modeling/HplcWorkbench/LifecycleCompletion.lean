import HplcWorkbench.LifecycleRuns

/-!
# When a life cycle is completed

The summary compares the number of meters that answered with the number of meters that were enabled.
Neither is the number of meters that have answered since they were enabled for the last time.
-/

namespace HplcWorkbench.TaskLifecycle
open OrderedDict PastEvents

section Counts
variable {κ α : Type} [DecidableEq κ]

/-- The values with a property are as many as their keys. -/
theorem countP_entries (d : Dict κ α) (p : α → Bool) :
    d.entries.countP (fun e => p e.2) = {k | (d.get? k).any p = true}.ncard := by
  have hset : {k | (d.get? k).any p = true} =
      (((d.entries.filter fun e => p e.2).map Prod.fst).toFinset : Set κ) := by
    ext k
    change (d.get? k).any p = true ↔ _
    rw [Finset.mem_coe, List.mem_toFinset, List.mem_map, Option.any_eq_true]
    constructor
    · rintro ⟨v, hv, hp⟩
      exact ⟨(k, v), List.mem_filter.mpr ⟨(Dict.get?_eq_some_iff _ _ _).mp hv, hp⟩, rfl⟩
    · rintro ⟨e, he, rfl⟩
      obtain ⟨hmem, hp⟩ := List.mem_filter.mp he
      exact ⟨e.2, (Dict.get?_eq_some_iff _ _ _).mpr hmem, hp⟩
  have hnodup : ((d.entries.filter fun e => p e.2).map Prod.fst).Nodup :=
    d.nodup.sublist (List.filter_sublist.map Prod.fst)
  rw [hset, Set.ncard_coe_finset, List.toFinset_card_of_nodup hnodup, List.length_map,
    List.countP_eq_length_filter]

theorem length_entries (d : Dict κ α) : d.entries.length = {k | (d.get? k).isSome = true}.ncard := by
  have hcount := countP_entries d fun _ => true
  rw [List.countP_true] at hcount
  rw [hcount]
  congr 1

end Counts

section Summaries
variable {task : String} {events : List Event} {cycle : Cycle}

theorem known_run (task : String) (events : List Event) :
    Known task events ((run task events).get? task) := by
  induction events using List.reverseRecOn with
  | nil => exact fun m hm => not_once_nil hm
  | append_singleton events e ih =>
    rw [run_concat, (step_spec (onlyTask_run task events) e).2]
    set cycle := (run task events).get? task
    have hmono : (∃ m, Configured task m events) → ∃ m, Configured task m (events ++ [e]) := fun ⟨m, hm⟩ =>
      ⟨m, (configured_concat e).mpr (Or.inr hm)⟩
    by_cases hconcerns : e.Concerns task
    · rw [if_pos hconcerns]
      rcases e with ⟨r, - | -⟩ | ⟨r, result⟩ | r
      · have hfirst : Describes task events (cycle.getD (start r)) := by
          cases hcycle : cycle with
          | none =>
            rw [hcycle] at ih
            exact describes_start ih r
          | some cycle => exact (hcycle ▸ ih : Known task events (some cycle)).2
        exact ⟨⟨r.mac, (configured_concat _).mpr (Or.inl ⟨hconcerns, rfl⟩)⟩, hfirst.enable hconcerns⟩
      all_goals
        cases hcycle : cycle with
        | none =>
          rw [hcycle] at ih
          exact fun m hm => ih m (((configured_concat _).mp hm).resolve_left id)
        | some cycle =>
          obtain ⟨hactive, h⟩ : Known task events (some cycle) := hcycle ▸ ih
          refine ⟨hmono hactive, ?_⟩
          first
          | exact h.delete hactive hconcerns
          | exact h.answer hconcerns result
          | exact h.report
    · -- an event for another task
      have hnot := fun m => not_concerns events m e hconcerns
      rw [if_neg hconcerns]
      cases hcycle : cycle with
      | none =>
        rw [hcycle] at ih
        exact fun m hm => ih m (((configured_concat _).mp hm).resolve_left (hnot m).1)
      | some cycle =>
        obtain ⟨hactive, h⟩ : Known task events (some cycle) := hcycle ▸ ih
        refine ⟨hmono hactive, ⟨fun m => ?_, fun m => ?_, fun m => ?_⟩⟩
        · rw [configured_concat]
          exact (h.configured m).trans ⟨Or.inr, fun hor => hor.resolve_left (hnot m).1⟩
        · rw [asked_concat]
          exact (h.asked m).trans ⟨Or.inr, fun hor => hor.resolve_left (hnot m).2.2⟩
        · rw [answered_concat]
          exact (h.answered m).trans ⟨Or.inr, fun hor => hor.resolve_left fun ha => (hnot m).2.1 ha.1⟩

/-- A cycle is completed when as many meters have answered as have been enabled. -/
theorem Describes.status_eq_completed_iff (h : Describes task events cycle)
    (hactive : ∃ m, Configured task m events) : cycle.status = .completed ↔
      {m | Answered task m events}.ncard = {m | Configured task m events}.ncard := by
  have hsuccess : cycle.successCount = {m | Answered task m events}.ncard := by
    rw [Cycle.successCount, countP_entries cycle.deletes Delete.succeeded]
    congr 1
    ext m
    exact h.answered m
  have hstas : cycle.stas.entries.length = {m | Configured task m events}.ncard := by
    rw [length_entries]
    congr 1
    ext m
    exact h.configured m
  have hnonempty : cycle.stas.entries ≠ [] := by
    obtain ⟨m, hm⟩ := hactive
    obtain ⟨r, hr⟩ := Option.isSome_iff_exists.mp ((h.configured m).mpr hm)
    exact List.ne_nil_of_mem ((Dict.get?_eq_some_iff _ _ _).mp hr)
  unfold Cycle.status
  rw [hsuccess, hstas]
  constructor
  · intro hstatus
    by_contra hne
    rw [if_neg fun hboth => hne hboth.2] at hstatus
    split at hstatus
    · cases hstatus
    · split at hstatus <;> cases hstatus
  · intro heq
    exact if_pos ⟨hnonempty, heq⟩

theorem finite_configured (h : Describes task events cycle) : {m | Configured task m events}.Finite := by
  apply (cycle.stas.entries.map Prod.fst).toFinset.finite_toSet.subset
  intro m hm
  obtain ⟨r, hr⟩ := Option.isSome_iff_exists.mp ((h.configured m).mpr hm)
  exact List.mem_toFinset.mpr (List.mem_map_of_mem ((Dict.get?_eq_some_iff _ _ _).mp hr))

theorem finite_answered (h : Describes task events cycle) : {m | Answered task m events}.Finite := by
  apply (cycle.deletes.entries.map Prod.fst).toFinset.finite_toSet.subset
  intro m hm
  obtain ⟨d, hd⟩ := Option.isSome_iff_exists.mp ((h.asked m).mpr (asked_of_answered hm))
  exact List.mem_toFinset.mpr (List.mem_map_of_mem ((Dict.get?_eq_some_iff _ _ _).mp hd))

/-! ## Completion -/

/-- The report raises an anomaly. -/
def Raises (task : String) (before : List Event) (r : Record) : Prop :=
  ∃ cycle cycle', (run task before).get? task = some cycle ∧
    (run task (before ++ [.report r])).get? task = some cycle' ∧ cycle'.anomalies ≠ cycle.anomalies

/-- A cycle is completed exactly when every meter enabled in it has answered since, and a report is an
anomaly only after such an answer. -/
structure Tracked (task : String) (events : List Event) : Prop where
  completed : ∀ cycle ∈ cycles task events, cycle.status = .completed ↔
    ∀ m, Configured task m (inOrder events) → Settled task m (inOrder events)
  late : ∀ before r after, inOrder events = before ++ .report r :: after → Raises task before r →
    Settled task r.mac before

/-- Meters that were never enabled have answered, and others have not. -/
def Balanced (task : String) (events : List Event) : Prop :=
  {m | Answered task m events ∧ ¬ Configured task m events}.ncard =
    {m | Configured task m events ∧ ¬ Answered task m events}.ncard

theorem raises_iff (task : String) (before : List Event) (r : Record) :
    Raises task before r ↔ r.taskNo = task ∧ Answered task r.mac before := by
  have hknown := known_run task before
  have hstep := (step_spec (onlyTask_run task before) (.report r)).2
  rw [← run_concat] at hstep
  unfold Raises
  rw [hstep]
  cases hcycle : (run task before).get? task with
  | none =>
    rw [hcycle] at hknown
    constructor
    · rintro ⟨_, _, h, -⟩
      cases h
    · rintro ⟨-, hanswered⟩
      obtain ⟨m, hm⟩ := exists_configured_of_asked (asked_of_answered hanswered)
      exact absurd hm (hknown m)
  | some cycle =>
    obtain ⟨-, h⟩ : Known task before (some cycle) := hcycle ▸ hknown
    by_cases htask : r.taskNo = task
    · have hconcerns : Event.Concerns task (.report r) := htask
      rw [if_pos hconcerns, ← h.answered, ← report_anomalies_ne_iff]
      constructor
      · rintro ⟨_, _, ⟨⟩, ⟨⟩, hne⟩
        exact ⟨htask, hne⟩
      · exact fun hne => ⟨cycle, cycle.report r, rfl, rfl, hne.2⟩
    · have hconcerns : ¬ Event.Concerns task (.report r) := htask
      rw [if_neg hconcerns]
      constructor
      · rintro ⟨_, _, ⟨⟩, ⟨⟩, hne⟩
        exact absurd rfl hne
      · exact fun hboth => absurd hboth.1 htask

theorem report_anomalies (cycle : Cycle) (r : Record) :
    ∀ a ∈ (cycle.report r).anomalies, a ∈ cycle.anomalies ∨
      (cycle.report r).anomalies ≠ cycle.anomalies ∧ a.mac = r.mac ∧ a.reportTime = r.logTime := by
  intro a ha
  by_cases heq : (cycle.report r).anomalies = cycle.anomalies
  · exact Or.inl (heq ▸ ha)
  · unfold Cycle.report at ha
    split at ha
    · rcases List.mem_append.mp ha with hold | hnew
      · exact Or.inl hold
      · obtain rfl := List.mem_singleton.mp hnew
        exact Or.inr ⟨heq, rfl, rfl⟩
    · exact Or.inl ha

/-- Every anomaly of a cycle was raised by a report. -/
theorem raised_of_mem_anomalies (hcycle : (run task events).get? task = some cycle) {a : Anomaly}
    (ha : a ∈ cycle.anomalies) : Once (fun before e => ∃ r, e = .report r ∧ Raises task before r ∧
      a.mac = r.mac ∧ a.reportTime = r.logTime) events := by
  induction events using List.reverseRecOn generalizing cycle with
  | nil => cases hcycle
  | append_singleton events e ih =>
    have hstep := (step_spec (onlyTask_run task events) e).2
    rw [← run_concat, hcycle] at hstep
    rw [once_concat]
    cases hbefore : (run task events).get? task with
    | none =>
      rw [hbefore] at hstep
      by_cases hconcerns : e.Concerns task
      · rw [if_pos hconcerns] at hstep
        rcases e with ⟨r, - | -⟩ | ⟨r, result⟩ | r <;> cases hstep
        cases ha
      · rw [if_neg hconcerns] at hstep
        cases hstep
    | some before =>
      rw [hbefore] at hstep
      by_cases hconcerns : e.Concerns task
      · rw [if_pos hconcerns] at hstep
        rcases e with ⟨r, - | -⟩ | ⟨r, result⟩ | r
        · rw [Option.some.inj hstep] at ha
          exact Or.inr (ih hbefore ha)
        · rw [Option.some.inj hstep] at ha
          exact Or.inr (ih hbefore ha)
        · rw [Option.some.inj hstep, answer_anomalies] at ha
          exact Or.inr (ih hbefore ha)
        · have hreport : cycle = before.report r := Option.some.inj hstep
          rw [hreport] at ha
          rcases report_anomalies before r a ha with hold | ⟨hraised, hmac, htime⟩
          · exact Or.inr (ih hbefore hold)
          · exact Or.inl ⟨r, rfl, ⟨before, cycle, hbefore, hcycle, hreport ▸ hraised⟩, hmac, htime⟩
      · rw [if_neg hconcerns] at hstep
        exact Or.inr (ih hbefore (Option.some.inj hstep ▸ ha))

theorem mem_cycles {s : CycleSummary} : s ∈ cycles task events ↔
    ∃ cycle, (run task (inOrder events)).get? task = some cycle ∧ s = cycle.finish := by
  rw [cycles, List.mem_map]
  constructor
  · rintro ⟨⟨k, cycle⟩, he, rfl⟩
    have hget := (Dict.get?_eq_some_iff _ _ _).mpr he
    by_cases hk : k = task
    · exact ⟨cycle, hk ▸ hget, rfl⟩
    · rw [onlyTask_run task (inOrder events) k hk] at hget
      cases hget
  · rintro ⟨cycle, hget, rfl⟩
    exact ⟨(task, cycle), (Dict.get?_eq_some_iff _ _ _).mp hget, rfl⟩

/-- What the function returns has these cycles, for every index that it accepts. -/
theorem summary_cycles {index : Option ℤ} {summary : Summary}
    (h : taskConfigLifecycleSummary task events index = .ok summary) :
    summary.cycles = cycles task events := by
  unfold taskConfigLifecycleSummary at h
  dsimp only at h
  split at h
  · obtain rfl := Except.ok.inj h
    rfl
  · obtain ⟨cycle, -, hsummary⟩ := bind_eq_ok h
    obtain rfl := Except.ok.inj hsummary
    rfl

/-- The life cycle is tracked exactly when no meter reports between a new enable and its next answer,
and the meters that answered without having been enabled are as many as those that were enabled and
have not, only if every meter has answered since its last enable. -/
theorem tracked_iff (task : String) (events : List Event) : Tracked task events ↔
    (∀ before r after, inOrder events = before ++ .report r :: after → r.taskNo = task →
      Answered task r.mac before → Settled task r.mac before) ∧
    ((∃ m, Configured task m (inOrder events)) →
      (Balanced task (inOrder events) ↔
        ∀ m, Configured task m (inOrder events) → Settled task m (inOrder events))) := by
  have hlate : (∀ before r after, inOrder events = before ++ .report r :: after → Raises task before r →
      Settled task r.mac before) ↔ ∀ before r after, inOrder events = before ++ .report r :: after →
        r.taskNo = task → Answered task r.mac before → Settled task r.mac before := by
    constructor
    · intro h before r after hsplit htask hanswered
      exact h before r after hsplit ((raises_iff _ _ _).mpr ⟨htask, hanswered⟩)
    · intro h before r after hsplit hraises
      obtain ⟨htask, hanswered⟩ := (raises_iff _ _ _).mp hraises
      exact h before r after hsplit htask hanswered
  have hstatus : ∀ cycle, (run task (inOrder events)).get? task = some cycle →
      (∃ m, Configured task m (inOrder events)) ∧
        (cycle.finish.status = .completed ↔ Balanced task (inOrder events)) := by
    intro cycle hcycle
    obtain ⟨hactive, h⟩ : Known task (inOrder events) (some cycle) := hcycle ▸ known_run task (inOrder events)
    refine ⟨hactive, (h.status_eq_completed_iff hactive).trans ?_⟩
    exact Set.ncard_eq_ncard_iff_ncard_sdiff_eq_ncard_sdiff (finite_answered h) (finite_configured h)
  constructor
  · intro h
    refine ⟨hlate.mp h.late, fun hactive => ?_⟩
    cases hcycle : (run task (inOrder events)).get? task with
    | none =>
      obtain ⟨m, hm⟩ := hactive
      exact absurd hm ((hcycle ▸ known_run task (inOrder events) : Known task (inOrder events) none) m)
    | some cycle =>
      rw [← (hstatus cycle hcycle).2]
      exact h.completed _ (mem_cycles.mpr ⟨cycle, hcycle, rfl⟩)
  · rintro ⟨hreports, hcompleted⟩
    refine ⟨fun s hs => ?_, hlate.mpr hreports⟩
    obtain ⟨cycle, hcycle, rfl⟩ := mem_cycles.mp hs
    obtain ⟨hactive, hiff⟩ := hstatus cycle hcycle
    exact hiff.trans (hcompleted hactive)

/-! ## A meter that is enabled again -/

def meterRecord (frameId : ℤ) (logTime : String) : Record := ⟨frameId, logTime, none, "111150000001", "2"⟩

def enabled : Event := .downConfig (meterRecord 1 "00:00:00.000") .enable
def deleted : Event := .downConfig (meterRecord 2 "00:00:10.000") .delete
def answered : Event := .up (meterRecord 3 "00:00:12.000") .success
def enabledAgain : Event := .downConfig (meterRecord 4 "00:01:00.000") .enable

/-- A meter is enabled, deleted, answers, is enabled again and reports. -/
def lateReport : List Event :=
  [enabled, deleted, answered, enabledAgain, .report (meterRecord 5 "00:02:00.000")]

/-- The report is an anomaly although the meter is enabled. -/
theorem lateReport_not_tracked : ¬ Tracked "2" lateReport := by
  intro h
  have horder : inOrder lateReport = lateReport := by decide
  have hunicast : (meterRecord 2 "00:00:10.000").mac ≠ broadcastMac := by decide +kernel
  have hdeletes : deleted.Deletes "2" "111150000001" [enabled] := by
    refine ⟨Or.inl rfl, ⟨"111150000001", [], enabled, [], rfl, rfl, rfl⟩, ?_⟩
    rw [if_neg hunicast]
    rfl
  have hanswered : Answered "2" "111150000001" [enabled, deleted, answered, enabledAgain] :=
    ⟨[enabled, deleted], answered, [enabledAgain], rfl, ⟨rfl, rfl⟩, [enabled], deleted, [], rfl, hdeletes⟩
  have hsettled := h.late [enabled, deleted, answered, enabledAgain] _ [] horder
    ((raises_iff _ _ _).mpr ⟨rfl, hanswered⟩)
  have hlast : [enabled, deleted, answered, enabledAgain] = [enabled, deleted, answered] ++ [enabledAgain] := rfl
  rw [hlast] at hsettled
  rcases since_concat.mp hsettled with hanswers | ⟨-, hnot⟩
  · exact hanswers
  · exact hnot ⟨rfl, rfl⟩

end Summaries

end HplcWorkbench.TaskLifecycle
