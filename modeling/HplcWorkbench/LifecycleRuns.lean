import HplcWorkbench.Bytes
import HplcWorkbench.OrderedDict
import HplcWorkbench.PastEvents
import Mathlib.Data.List.Sort
import Mathlib.Data.Set.Card

/-!
# What a life cycle has recorded

Meters are enabled for a task, deleted one by one or by a broadcast, answer the delete and report.
`task_config_lifecycle_summary` goes over these events in the order of their frames. Task numbers and
addresses are as `_task_key` and `_sta_key` give them.

A cycle knows which meters were enabled, which were deleted after the first enable and which of these
answered. It does not know that a meter was enabled again after its answer.
-/

namespace HplcWorkbench.TaskLifecycle
open OrderedDict

/-! ## Events -/

structure Record where
  frameId : ℤ
  logTime : String
  absoluteMs : Option ℤ
  mac : String
  taskNo : String
  deriving DecidableEq, Repr

inductive Operation
  | enable
  | delete
  deriving DecidableEq, Repr

/-- 成功 and 失败. -/
inductive Result
  | success
  | failure
  deriving DecidableEq, Repr

/-- The kinds are `down_config`, `up` and `report`; an answer is one to a delete. -/
inductive Event
  | downConfig (record : Record) (operation : Operation)
  | up (record : Record) (result : Result)
  | report (record : Record)
  deriving DecidableEq, Repr

def Event.record : Event → Record
  | .downConfig record _ => record
  | .up record _ => record
  | .report record => record

def inOrder (events : List Event) : List Event :=
  events.insertionSort fun e f => e.record.frameId ≤ f.record.frameId

/-! ## Cycles -/

structure Reply where
  record : Record
  result : Result
  deriving DecidableEq, Repr

structure Delete where
  down : Record
  reply : Option Reply := none
  deriving DecidableEq, Repr

/-- An anomaly is 删除成功后仍上报. -/
structure Anomaly where
  mac : String
  deleteTime : String
  reportTime : String
  deriving DecidableEq, Repr

structure Cycle where
  startTime : String
  startMs : Option ℤ
  stas : Dict String Record := .empty
  deletes : Dict String Delete := .empty
  deleteMode : String := ""
  lastDeleteTime : Option String := none
  anomalies : List Anomaly := []

/-- The cycle that is active under a task. Every cycle that is started stays active, so the values in
their order are `cycles`. -/
abbrev Active := Dict String Cycle

def broadcastMac : String := "999999999999"

def start (record : Record) : Cycle := { startTime := record.logTime, startMs := record.absoluteMs }

/-- `setdefault`. -/
def setDefault (deletes : Dict String Delete) (record : Record) (mac : String) : Dict String Delete :=
  if (deletes.get? mac).isSome then deletes else deletes.set mac { down := record }

def Cycle.enable (cycle : Cycle) (record : Record) : Cycle :=
  { cycle with stas := cycle.stas.set record.mac record }

def Cycle.delete (cycle : Cycle) (record : Record) : Cycle :=
  let targets := if record.mac = broadcastMac then cycle.stas.entries.map Prod.fst else [record.mac]
  let deleteMode :=
    if record.mac = broadcastMac then "广播全清"
    else if cycle.deleteMode = "" then "单播删除" else cycle.deleteMode
  { cycle with
    deleteMode := deleteMode
    lastDeleteTime := some record.logTime
    deletes := targets.foldl (setDefault · record) cycle.deletes }

/-- A successful answer replaces the one before it. -/
def Cycle.answer (cycle : Cycle) (record : Record) (result : Result) : Cycle :=
  match cycle.deletes.get? record.mac with
  | none => cycle
  | some entry =>
    if entry.reply = none ∨ result = .success then
      { cycle with deletes := cycle.deletes.set record.mac { entry with reply := some ⟨record, result⟩ } }
    else cycle

def Cycle.report (cycle : Cycle) (record : Record) : Cycle :=
  match (cycle.deletes.get? record.mac).bind Delete.reply with
  | some ⟨reply, .success⟩ =>
    { cycle with anomalies := cycle.anomalies ++ [⟨record.mac, reply.logTime, record.logTime⟩] }
  | _ => cycle

/-- The tasks that an event is for. -/
def affected (active : Active) : Event → List String
  | .downConfig record .delete =>
    if record.mac = broadcastMac ∧ record.taskNo = "255" then active.entries.map Prod.fst
    else [record.taskNo]
  | event => [event.record.taskNo]

def applyKey (task : String) (event : Event) (active : Active) (key : String) : Active :=
  match event with
  | .downConfig record .enable =>
    if key = task then active.set key (((active.get? key).getD (start record)).enable record) else active
  | .downConfig record .delete =>
    match active.get? key with
    | some cycle => active.set key (cycle.delete record)
    | none => active
  | .up record result =>
    match active.get? key with
    | some cycle => if key = task then active.set key (cycle.answer record result) else active
    | none => active
  | .report record =>
    match active.get? key with
    | some cycle => if key = task then active.set key (cycle.report record) else active
    | none => active

def step (task : String) (active : Active) (event : Event) : Active :=
  (affected active event).foldl (applyKey task event) active

def run (task : String) (events : List Event) : Active := events.foldl (step task) .empty

/-! ## The summary -/

/-- 进行中, 已完成, 删除异常 and 删除未完成. -/
inductive Status
  | ongoing
  | completed
  | deleteFailed
  | deletePending
  deriving DecidableEq, Repr

structure StaRow where
  mac : String
  configTime : String
  deleteTime : String
  deleteResult : String
  deriving DecidableEq, Repr

structure CycleSummary where
  startTime : String
  startMs : Option ℤ
  deleteMode : String
  deleteSuccessCount : ℕ
  deleteFailCount : ℕ
  deleteNotSentCount : ℕ
  deletePendingCount : ℕ
  anomalies : List Anomaly
  status : Status
  endTime : Option String
  lastDeleteTime : Option String
  configuredStaCount : ℕ
  stas : List StaRow
  deriving DecidableEq, Repr

def Delete.succeeded (d : Delete) : Bool := d.reply.any fun r => decide (r.result = .success)

def Delete.failed (d : Delete) : Bool := d.reply.any fun r => decide (r.result ≠ .success)

/-- `max` by the frame number, the first of equal ones. -/
def latest (records : List Record) : Option Record :=
  records.foldl (fun best r =>
    match best with
    | none => some r
    | some b => if b.frameId < r.frameId then some r else best) none

def resultText : Result → String
  | .success => "成功"
  | .failure => "失败"

def staRow (cycle : Cycle) (entry : String × Record) : StaRow :=
  let delete := cycle.deletes.get? entry.1
  { mac := entry.1
    configTime := entry.2.logTime
    deleteTime := (delete.map fun d => d.down.logTime).getD ""
    deleteResult := ((delete.bind Delete.reply).map fun r => resultText r.result).getD "未下发删除" }

def Cycle.successCount (cycle : Cycle) : ℕ := cycle.deletes.entries.countP fun e => e.2.succeeded

def Cycle.status (cycle : Cycle) : Status :=
  if cycle.stas.entries ≠ [] ∧ cycle.successCount = cycle.stas.entries.length then .completed
  else if 0 < cycle.deletes.entries.countP (fun e => e.2.failed) then .deleteFailed
  else if cycle.deletes.entries ≠ [] then .deletePending
  else .ongoing

def Cycle.finish (cycle : Cycle) : CycleSummary :=
  let entries := cycle.deletes.entries
  { startTime := cycle.startTime
    startMs := cycle.startMs
    deleteMode := cycle.deleteMode
    deleteSuccessCount := cycle.successCount
    deleteFailCount := entries.countP fun e => e.2.failed
    deleteNotSentCount := cycle.stas.entries.countP fun e => (cycle.deletes.get? e.1).isNone
    deletePendingCount := entries.countP fun e => e.2.reply.isNone
    anomalies := cycle.anomalies
    status := cycle.status
    endTime :=
      if cycle.status = .completed then
        (latest (entries.filterMap fun e => e.2.reply.bind fun r =>
          if r.result = .success then some r.record else none)).map Record.logTime
      else none
    lastDeleteTime := cycle.lastDeleteTime
    configuredStaCount := cycle.stas.entries.length
    stas := (cycle.stas.entries.insertionSort fun e f => e.1 ≤ f.1).map (staRow cycle) }

structure Summary where
  taskNo : String
  cycles : List CycleSummary
  cycle : Option CycleSummary
  deriving DecidableEq, Repr

/-- An index into a list; a negative one counts from the end. -/
def pyGet {α : Type} (xs : List α) (i : ℤ) : PyM α :=
  match xs[(if i < 0 then i + xs.length else i).toNat]? with
  | some x => if i < -xs.length then throw .indexError else pure x
  | none => throw .indexError

def cycles (task : String) (events : List Event) : List CycleSummary :=
  (run task (inOrder events)).entries.map fun e => e.2.finish

def taskConfigLifecycleSummary (task : String) (events : List Event) (cycleIndex : Option ℤ := none) :
    PyM Summary := do
  let cycles := cycles task events
  if cycles = [] then pure ⟨task, cycles, none⟩
  else
    let cycle ← pyGet cycles (cycleIndex.getD (cycles.length - 1))
    pure ⟨task, cycles, some cycle⟩

end HplcWorkbench.TaskLifecycle

namespace HplcWorkbench.TaskLifecycle
open OrderedDict PastEvents

/-! ## What events mean for a meter -/

section Meters
variable (task mac : String) (events before : List Event)

def Event.Enables : Event → Prop
  | .downConfig r .enable => r.taskNo = task ∧ r.mac = mac
  | _ => False

/-- A successful answer to a delete. -/
def Event.Answers : Event → Prop
  | .up r .success => r.taskNo = task ∧ r.mac = mac
  | _ => False

def Configured : Prop := Once (fun _ e => e.Enables task mac) events

/-- The delete is for the task, or for all tasks and all meters. -/
def ForTask (r : Record) : Prop := r.taskNo = task ∨ r.mac = broadcastMac ∧ r.taskNo = "255"

instance (r : Record) : Decidable (ForTask task r) := inferInstanceAs (Decidable (_ ∨ _))

/-- A delete of the meter, after the task has been enabled. -/
def Event.Deletes : Event → Prop
  | .downConfig r .delete => ForTask task r ∧ (∃ m, Configured task m before) ∧
      if r.mac = broadcastMac then Configured task mac before else r.mac = mac
  | _ => False

def Asked : Prop := Once (fun before e => e.Deletes task mac before) events

def Answered : Prop := Once (fun before e => e.Answers task mac ∧ Asked task mac before) events

/-- The meter has answered a delete successfully since it was enabled for the last time. -/
def Settled : Prop := Since (fun _ e => e.Answers task mac) (fun e => e.Enables task mac) events

end Meters

/-! ## Steps of a cycle -/

section Cycles
variable {task : String} {cycle : Cycle} {r : Record} {deletes : Dict String Delete} {m : String}

theorem get?_setDefault (deletes : Dict String Delete) (r : Record) (mac m : String) :
    (setDefault deletes r mac).get? m =
      (deletes.get? m).or (if m = mac then some { down := r } else none) := by
  unfold setDefault
  by_cases h : m = mac
  · subst h
    rw [if_pos rfl]
    cases hget : deletes.get? m with
    | none => rw [if_neg (by simp), Dict.get?_set_self, Option.none_or]
    | some d => rw [if_pos Option.isSome_some, hget, Option.some_or]
  · rw [if_neg h, Option.or_none]
    split
    · rfl
    · exact Dict.get?_set_of_ne _ _ _ _ h

/-- A delete adds the meters that it is for and leaves those that are there. -/
theorem get?_foldl_setDefault (targets : List String) (deletes : Dict String Delete) (r : Record) (m : String) :
    (targets.foldl (setDefault · r) deletes).get? m =
      (deletes.get? m).or (if m ∈ targets then some { down := r } else none) := by
  induction targets generalizing deletes with
  | nil => exact (Option.or_none).symm
  | cons mac targets ih =>
    rw [List.foldl_cons, ih, get?_setDefault, Option.or_assoc]
    congr 1
    by_cases h : m = mac
    · rw [if_pos h, Option.some_or, if_pos (h ▸ List.mem_cons_self)]
    · rw [if_neg h, Option.none_or]
      simp only [List.mem_cons, h, false_or]

/-- The meters that a delete is for. -/
def Cycle.Targets (cycle : Cycle) (r : Record) (m : String) : Prop :=
  if r.mac = broadcastMac then (cycle.stas.get? m).isSome = true else r.mac = m

instance (cycle : Cycle) (r : Record) (m : String) : Decidable (cycle.Targets r m) :=
  inferInstanceAs (Decidable (if r.mac = broadcastMac then (cycle.stas.get? m).isSome = true else r.mac = m))

theorem get?_delete (cycle : Cycle) (r : Record) (m : String) : (cycle.delete r).deletes.get? m =
    (cycle.deletes.get? m).or (if cycle.Targets r m then some { down := r } else none) := by
  have hkeys : m ∈ cycle.stas.entries.map Prod.fst ↔ (cycle.stas.get? m).isSome := by
    rw [← Option.ne_none_iff_isSome, Ne, Dict.get?_eq_none_iff, not_not]
  have htargets : m ∈ (if r.mac = broadcastMac then cycle.stas.entries.map Prod.fst else [r.mac]) ↔
      cycle.Targets r m := by
    unfold Cycle.Targets
    by_cases h : r.mac = broadcastMac
    · rw [if_pos h, if_pos h, hkeys]
    · rw [if_neg h, if_neg h, List.mem_singleton, eq_comm]
  unfold Cycle.delete
  dsimp only
  rw [get?_foldl_setDefault]
  simp only [htargets]

theorem answer_stas (cycle : Cycle) (r : Record) (result : Result) :
    (cycle.answer r result).stas = cycle.stas := by
  unfold Cycle.answer
  split
  · rfl
  · split <;> rfl

theorem answer_anomalies (cycle : Cycle) (r : Record) (result : Result) :
    (cycle.answer r result).anomalies = cycle.anomalies := by
  unfold Cycle.answer
  split
  · rfl
  · split <;> rfl

/-- An answer changes the entry of its meter only. -/
theorem get?_answer (cycle : Cycle) (r : Record) (result : Result) (m : String) :
    (cycle.answer r result).deletes.get? m = if m = r.mac then (cycle.deletes.get? m).map fun d =>
      if d.reply = none ∨ result = .success then { d with reply := some ⟨r, result⟩ } else d
    else cycle.deletes.get? m := by
  unfold Cycle.answer
  by_cases h : m = r.mac
  · subst h
    rw [if_pos rfl]
    cases hget : cycle.deletes.get? r.mac with
    | none => exact hget
    | some d =>
      dsimp only [Option.map_some]
      by_cases hreply : d.reply = none ∨ result = .success
      · rw [if_pos hreply, if_pos hreply]
        exact Dict.get?_set_self _ _ _
      · rw [if_neg hreply, if_neg hreply]
        exact hget
  · rw [if_neg h]
    split
    · rfl
    · split
      · exact Dict.get?_set_of_ne _ _ _ _ h
      · rfl

theorem report_stas (cycle : Cycle) (r : Record) : (cycle.report r).stas = cycle.stas := by
  unfold Cycle.report
  split <;> rfl

theorem report_deletes (cycle : Cycle) (r : Record) : (cycle.report r).deletes = cycle.deletes := by
  unfold Cycle.report
  split <;> rfl

/-- A report is an anomaly when the answer that is noted is a success. -/
theorem report_anomalies_ne_iff (cycle : Cycle) (r : Record) :
    (cycle.report r).anomalies ≠ cycle.anomalies ↔ (cycle.deletes.get? r.mac).any Delete.succeeded = true := by
  unfold Cycle.report Delete.succeeded
  rcases hget : cycle.deletes.get? r.mac with - | ⟨down, - | ⟨reply, - | -⟩⟩
  · exact ⟨fun h => absurd rfl h, fun h => by cases h⟩
  · exact ⟨fun h => absurd rfl h, fun h => by cases h⟩
  · exact ⟨fun _ => rfl, fun _ h => List.cons_ne_nil _ _ (List.append_right_eq_self.mp h)⟩
  · exact ⟨fun h => absurd rfl h, fun h => by cases h⟩

end Cycles

/-! ## The cycle of the task -/

section Runs
variable {task : String} {events : List Event} {active : Active} {e : Event}

/-- The event is for the task. -/
def Event.Concerns (task : String) : Event → Prop
  | .downConfig r .delete => ForTask task r
  | e => e.record.taskNo = task

/-- What an event for the task makes of its cycle. -/
def actOn (cycle : Option Cycle) : Event → Option Cycle
  | .downConfig r .enable => some ((cycle.getD (start r)).enable r)
  | .downConfig r .delete => cycle.map (·.delete r)
  | .up r result => cycle.map (·.answer r result)
  | .report r => cycle.map (·.report r)

/-- No other task has a cycle. -/
def OnlyTask (task : String) (active : Active) : Prop := ∀ k, k ≠ task → active.get? k = none

theorem OnlyTask.keys (h : OnlyTask task active) : active.entries.map Prod.fst =
    if (active.get? task).isSome then [task] else [] := by
  have hall : ∀ k ∈ active.entries.map Prod.fst, k = task := by
    intro k hk
    by_contra hne
    exact (Dict.get?_eq_none_iff _ _).mp (h k hne) hk
  cases hget : active.get? task with
  | none =>
    rw [if_neg (by simp)]
    apply List.eq_nil_iff_forall_not_mem.mpr
    intro k hk
    exact (Dict.get?_eq_none_iff _ _).mp hget (hall k hk ▸ hk)
  | some cycle =>
    rw [if_pos Option.isSome_some]
    have hmem : task ∈ active.entries.map Prod.fst := by
      by_contra hno
      rw [(Dict.get?_eq_none_iff _ _).mpr hno] at hget
      cases hget
    exact List.Perm.eq_singleton <| (List.perm_ext_iff_of_nodup active.nodup (List.nodup_singleton task)).mpr
      fun k => ⟨fun hk => List.mem_singleton.mpr (hall k hk), fun hk => List.mem_singleton.mp hk ▸ hmem⟩

theorem OnlyTask.set (h : OnlyTask task active) (cycle : Cycle) : OnlyTask task (active.set task cycle) := by
  intro k hk
  rw [Dict.get?_set_of_ne _ _ _ _ hk]
  exact h k hk

theorem applyKey_other (h : OnlyTask task active) {key : String} (hkey : key ≠ task) (e : Event) :
    applyKey task e active key = active := by
  have hget := h key hkey
  rcases e with ⟨r, - | -⟩ | ⟨r, result⟩ | r <;> unfold applyKey <;> dsimp only
  · rw [if_neg hkey]
  · rw [hget]
  · rw [hget]
  · rw [hget]

theorem applyKey_task (h : OnlyTask task active) (e : Event) :
    OnlyTask task (applyKey task e active task) ∧
      (applyKey task e active task).get? task = actOn (active.get? task) e := by
  cases hget : active.get? task with
  | none =>
    rcases e with ⟨r, - | -⟩ | ⟨r, result⟩ | r <;> unfold applyKey actOn <;> dsimp only
    · rw [if_pos rfl, hget]
      exact ⟨h.set _, Dict.get?_set_self _ _ _⟩
    all_goals
      rw [hget]
      exact ⟨h, hget⟩
  | some cycle =>
    rcases e with ⟨r, - | -⟩ | ⟨r, result⟩ | r <;> unfold applyKey actOn <;> dsimp only
    · rw [if_pos rfl, hget]
      exact ⟨h.set _, Dict.get?_set_self _ _ _⟩
    · rw [hget]
      exact ⟨h.set _, Dict.get?_set_self _ _ _⟩
    all_goals
      rw [hget]
      dsimp only
      rw [if_pos rfl]
      exact ⟨h.set _, Dict.get?_set_self _ _ _⟩

open scoped Classical in
/-- An event that is not for the task changes nothing. -/
theorem step_spec (h : OnlyTask task active) (e : Event) : OnlyTask task (step task active e) ∧
    (step task active e).get? task =
      if e.Concerns task then actOn (active.get? task) e else active.get? task := by
  have hsingle : affected active e = [e.record.taskNo] → (e.Concerns task ↔ e.record.taskNo = task) →
      OnlyTask task (step task active e) ∧ (step task active e).get? task =
        if e.Concerns task then actOn (active.get? task) e else active.get? task := by
    intro haffected hconcerns
    rw [step, haffected, List.foldl_cons, List.foldl_nil]
    by_cases htask : e.record.taskNo = task
    · rw [if_pos (hconcerns.mpr htask), htask]
      exact applyKey_task h e
    · rw [if_neg (mt hconcerns.mp htask), applyKey_other h htask]
      exact ⟨h, rfl⟩
  rcases e with ⟨r, - | -⟩ | ⟨r, result⟩ | r
  · exact hsingle rfl Iff.rfl
  · by_cases hall : r.mac = broadcastMac ∧ r.taskNo = "255"
    · -- the broadcast is for every task that is active
      have haffected : affected active (.downConfig r .delete) = active.entries.map Prod.fst := if_pos hall
      have hconcerns : Event.Concerns task (.downConfig r .delete) := Or.inr hall
      rw [step, haffected, h.keys, if_pos hconcerns]
      cases hget : active.get? task with
      | none => exact ⟨h, hget⟩
      | some cycle =>
        rw [if_pos Option.isSome_some, List.foldl_cons, List.foldl_nil, ← hget]
        exact applyKey_task h _
    · apply hsingle (if_neg hall)
      exact ⟨fun hfor => hfor.resolve_right hall, Or.inl⟩
  · exact hsingle rfl Iff.rfl
  · exact hsingle rfl Iff.rfl

theorem run_concat (task : String) (events : List Event) (e : Event) :
    run task (events ++ [e]) = step task (run task events) e := by
  rw [run, List.foldl_append, List.foldl_cons, List.foldl_nil, run]

theorem onlyTask_run (task : String) (events : List Event) : OnlyTask task (run task events) := by
  induction events using List.reverseRecOn with
  | nil => exact fun _ _ => rfl
  | append_singleton events e ih =>
    rw [run_concat]
    exact (step_spec ih e).1

end Runs

/-! ## What the cycle has of each meter -/

section Records
variable {task : String} {events : List Event} {cycle : Cycle} {m : String}

/-- The cycle is that of the events. -/
structure Describes (task : String) (events : List Event) (cycle : Cycle) : Prop where
  configured : ∀ m, (cycle.stas.get? m).isSome = true ↔ Configured task m events
  asked : ∀ m, (cycle.deletes.get? m).isSome = true ↔ Asked task m events
  answered : ∀ m, (cycle.deletes.get? m).any Delete.succeeded = true ↔ Answered task m events

/-- There is a cycle as soon as a meter has been enabled. -/
def Known (task : String) (events : List Event) : Option Cycle → Prop
  | none => ∀ m, ¬ Configured task m events
  | some cycle => (∃ m, Configured task m events) ∧ Describes task events cycle

theorem configured_concat (e : Event) : Configured task m (events ++ [e]) ↔
    e.Enables task m ∨ Configured task m events := once_concat

theorem asked_concat (e : Event) : Asked task m (events ++ [e]) ↔
    e.Deletes task m events ∨ Asked task m events := once_concat

theorem answered_concat (e : Event) : Answered task m (events ++ [e]) ↔
    (e.Answers task m ∧ Asked task m events) ∨ Answered task m events := once_concat

variable (events m) in
/-- An event that is not for the task is nothing to its meters. -/
theorem not_concerns (e : Event) (h : ¬ e.Concerns task) :
    ¬ e.Enables task m ∧ ¬ e.Answers task m ∧ ¬ e.Deletes task m events := by
  rcases e with ⟨r, - | -⟩ | ⟨r, - | -⟩ | r
  · exact ⟨fun he => h he.1, id, id⟩
  · exact ⟨id, id, fun hd => h hd.1⟩
  · exact ⟨id, fun ha => h ha.1, id⟩
  · exact ⟨id, id, id⟩
  · exact ⟨id, id, id⟩

theorem exists_configured_of_asked (h : Asked task m events) : ∃ m, Configured task m events := by
  induction events using List.reverseRecOn with
  | nil => exact absurd h not_once_nil
  | append_singleton events e ih =>
    have hbefore : ∃ m, Configured task m events := by
      rcases (asked_concat e).mp h with hdelete | hasked
      · rcases e with ⟨r, - | -⟩ | ⟨r, result⟩ | r
        · exact absurd hdelete id
        · exact hdelete.2.1
        · exact absurd hdelete id
        · exact absurd hdelete id
      · exact ih hasked
    obtain ⟨m, hm⟩ := hbefore
    exact ⟨m, (configured_concat e).mpr (Or.inr hm)⟩

theorem asked_of_answered (h : Answered task m events) : Asked task m events := by
  induction events using List.reverseRecOn with
  | nil => exact absurd h not_once_nil
  | append_singleton events e ih =>
    apply (asked_concat e).mpr
    rcases (answered_concat e).mp h with ⟨-, hasked⟩ | hanswered
    · exact Or.inr hasked
    · exact Or.inr (ih hanswered)

theorem describes_start (h : ∀ m, ¬ Configured task m events) (r : Record) :
    Describes task events (start r) := by
  have hasked : ∀ m, ¬ Asked task m events := fun m hm =>
    let ⟨k, hk⟩ := exists_configured_of_asked hm
    h k hk
  exact {
    configured := fun m => ⟨fun hm => absurd hm Bool.false_ne_true, fun hm => absurd hm (h m)⟩
    asked := fun m => ⟨fun hm => absurd hm Bool.false_ne_true, fun hm => absurd hm (hasked m)⟩
    answered := fun m =>
      ⟨fun hm => absurd hm Bool.false_ne_true, fun hm => absurd (asked_of_answered hm) (hasked m)⟩ }

namespace Describes
variable {r : Record} (h : Describes task events cycle)
include h

theorem enable (htask : r.taskNo = task) :
    Describes task (events ++ [.downConfig r .enable]) (cycle.enable r) where
  configured m := by
    rw [configured_concat, ← h.configured]
    by_cases hm : m = r.mac
    · have hset : (cycle.enable r).stas.get? m = some r := hm ▸ Dict.get?_set_self _ _ _
      rw [hset]
      exact ⟨fun _ => Or.inl ⟨htask, hm.symm⟩, fun _ => rfl⟩
    · have hset : (cycle.enable r).stas.get? m = cycle.stas.get? m := Dict.get?_set_of_ne _ _ _ _ hm
      rw [hset]
      exact ⟨Or.inr, fun hor => hor.resolve_left fun he => hm he.2.symm⟩
  asked m := by
    rw [asked_concat]
    exact (h.asked m).trans ⟨Or.inr, fun hor => hor.resolve_left id⟩
  answered m := by
    rw [answered_concat]
    exact (h.answered m).trans ⟨Or.inr, fun hor => hor.resolve_left fun ha => ha.1⟩

/-- The meters that a delete is for in the cycle are those that it is for in the events. -/
theorem targets_iff (hactive : ∃ m, Configured task m events) (hfor : ForTask task r) (m : String) :
    cycle.Targets r m ↔ Event.Deletes task m events (.downConfig r .delete) := by
  have hconfigured := h.configured m
  unfold Cycle.Targets Event.Deletes
  dsimp only
  by_cases hall : r.mac = broadcastMac
  · rw [if_pos hall, if_pos hall, hconfigured]
    exact ⟨fun hm => ⟨hfor, hactive, hm⟩, fun hd => hd.2.2⟩
  · rw [if_neg hall, if_neg hall]
    exact ⟨fun hm => ⟨hfor, hactive, hm⟩, fun hd => hd.2.2⟩

theorem delete (hactive : ∃ m, Configured task m events) (hfor : ForTask task r) :
    Describes task (events ++ [.downConfig r .delete]) (cycle.delete r) where
  configured m := by
    rw [configured_concat]
    exact (h.configured m).trans ⟨Or.inr, fun hor => hor.resolve_left id⟩
  asked m := by
    rw [asked_concat, ← h.targets_iff hactive hfor m, ← h.asked, get?_delete]
    by_cases htarget : cycle.Targets r m
    · rw [if_pos htarget]
      exact ⟨fun _ => Or.inl htarget, fun _ => by cases cycle.deletes.get? m <;> rfl⟩
    · rw [if_neg htarget, Option.or_none]
      exact ⟨Or.inr, fun hor => hor.resolve_left htarget⟩
  answered m := by
    have hanswer : ((cycle.deletes.get? m).or (if cycle.Targets r m then some { down := r } else none)).any
        Delete.succeeded = (cycle.deletes.get? m).any Delete.succeeded := by
      cases cycle.deletes.get? m with
      | some d => rfl
      | none => by_cases htarget : cycle.Targets r m <;> simp [htarget, Delete.succeeded]
    rw [answered_concat, get?_delete, hanswer]
    exact (h.answered m).trans ⟨Or.inr, fun hor => hor.resolve_left fun ha => ha.1⟩

theorem answer (htask : r.taskNo = task) (result : Result) :
    Describes task (events ++ [.up r result]) (cycle.answer r result) where
  configured m := by
    rw [configured_concat, answer_stas]
    exact (h.configured m).trans ⟨Or.inr, fun hor => hor.resolve_left id⟩
  asked m := by
    have hsome : ((cycle.answer r result).deletes.get? m).isSome = (cycle.deletes.get? m).isSome := by
      rw [get?_answer]
      split
      · exact Option.isSome_map
      · rfl
    rw [asked_concat, hsome]
    exact (h.asked m).trans ⟨Or.inr, fun hor => hor.resolve_left id⟩
  answered m := by
    rw [answered_concat, get?_answer, ← h.asked, ← h.answered]
    by_cases hm : m = r.mac
    · rw [if_pos hm]
      cases hget : cycle.deletes.get? m with
      | none =>
        refine ⟨fun hn => absurd hn Bool.false_ne_true, fun hor => ?_⟩
        rcases hor with ⟨-, hn⟩ | hn <;> exact absurd hn Bool.false_ne_true
      | some d =>
        cases result with
        | success =>
          exact ⟨fun _ => Or.inl ⟨⟨htask, hm.symm⟩, rfl⟩, fun _ => by simp [Delete.succeeded]⟩
        | failure =>
          -- a failure does not replace a success
          have hkeep : (if d.reply = none ∨ Result.failure = .success then
              { d with reply := some ⟨r, .failure⟩ } else d).succeeded = d.succeeded := by
            rcases d with ⟨down, - | reply⟩ <;> simp [Delete.succeeded]
          rw [Option.map_some, Option.any_some, Option.any_some, hkeep]
          exact ⟨Or.inr, fun hor => hor.resolve_left fun ha => ha.1⟩
    · rw [if_neg hm]
      refine ⟨Or.inr, fun hor => hor.resolve_left fun ha => ?_⟩
      cases result with
      | success => exact hm ha.1.2.symm
      | failure => exact ha.1

theorem report : Describes task (events ++ [.report r]) (cycle.report r) where
  configured m := by
    rw [configured_concat, report_stas]
    exact (h.configured m).trans ⟨Or.inr, fun hor => hor.resolve_left id⟩
  asked m := by
    rw [asked_concat, report_deletes]
    exact (h.asked m).trans ⟨Or.inr, fun hor => hor.resolve_left id⟩
  answered m := by
    rw [answered_concat, report_deletes]
    exact (h.answered m).trans ⟨Or.inr, fun hor => hor.resolve_left fun ha => ha.1⟩

end Describes

end Records

end HplcWorkbench.TaskLifecycle
