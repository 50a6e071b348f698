import HplcWorkbench.KeyedFolds
import HplcWorkbench.MinuteStatistics
import Mathlib.Data.List.Chain
import Mathlib.Data.List.Range

/-!
# Acquisition windows

The windows of a task are listed by one computation and its events put into buckets by another; the
two meet because both divide by the period. So every event lies in one window, and what a window
counts is what its events say.
-/

namespace HplcWorkbench.MinuteStats

open OrderedDict (Dict)

/-! ## Periods and windows -/

theorem one_le_foldl_min {gap : ℕ} {more : List ℕ} (h : ∀ g ∈ gap :: more, 1 ≤ g) :
    1 ≤ more.foldl min gap := by
  induction more generalizing gap with
  | nil => exact h gap List.mem_cons_self
  | cons g more ih =>
      apply ih
      simp only [List.forall_mem_cons] at h ⊢
      exact ⟨le_min h.1 h.2.1, h.2.2⟩

theorem one_le_of_mem_gaps {minutes : List ℤ} {g : ℕ} (h : g ∈ gaps minutes) : 1 ≤ g := by
  obtain ⟨e, -, he⟩ := List.mem_filterMap.mp h
  split at he
  case isTrue hgap =>
    rw [← Option.some.inj he]
    omega
  case isFalse => cases he

theorem one_le_taskPeriod (configured : Option Byte) (minutes : List ℤ) :
    1 ≤ taskPeriod configured minutes := by
  unfold taskPeriod
  cases hperiod : configured.filter fun period => decide (1 ≤ (period : ℕ)) with
  | some period => exact of_decide_eq_true (Option.filter_eq_some_iff.mp hperiod).2
  | none =>
      cases hgaps : gaps (minutes.insertionSort (· ≤ ·)) with
      | nil => exact le_rfl
      | cons gap more =>
          apply one_le_foldl_min
          intro g hg
          exact one_le_of_mem_gaps (hgaps ▸ hg)

/-- The starts of the windows: multiples of the period from the first one on. -/
theorem periodRange_eq {first last : ℤ} {period : ℕ} (hperiod : 1 ≤ period) (hle : first ≤ last) :
    periodRange first last period =
      (List.range ((last / period - first / period).toNat + 1)).map fun k : ℕ =>
        (first / period + k) * period := by
  have hpos : (0 : ℤ) < period := by exact_mod_cast hperiod
  have hquot : first / (period : ℤ) ≤ last / period := Int.ediv_le_ediv hpos hle
  have hcount : (last / period * period + period - first / period * period + period - 1) / (period : ℤ) =
      last / period - first / period + 1 := by
    have hsplit : last / period * period + period - first / period * period + period - 1 =
        (period - 1) + (last / period - first / period + 1) * (period : ℤ) := by ring
    rw [hsplit, Int.add_mul_ediv_right _ _ hpos.ne', Int.ediv_eq_zero_of_lt (by omega) (by omega),
      zero_add]
  unfold periodRange pyRange
  rw [hcount, Int.toNat_add (by omega) (by omega)]
  apply List.map_congr_left
  intro k _
  ring

/-- The time lies in the window that begins there. -/
def InWindow (start : ℤ) (period : ℕ) (fz : FreezeTime) : Prop :=
  start ≤ fzMinutes fz ∧ fzMinutes fz < start + period

instance (start : ℤ) (period : ℕ) (fz : FreezeTime) : Decidable (InWindow start period fz) := by
  unfold InWindow
  infer_instance

theorem inWindow_iff {q : ℤ} {period : ℕ} (hperiod : 1 ≤ period) (fz : FreezeTime) :
    InWindow (q * period) period fz ↔ cycleWindowKey fz period = q * period := by
  have hpos : (0 : ℤ) < period := by exact_mod_cast hperiod
  have hquot : InWindow (q * period) period fz ↔ fzMinutes fz / period = q := by
    rw [Int.ediv_eq_iff_of_pos hpos]
    exact Iff.rfl
  rw [hquot, cycleWindowKey, mul_left_inj' hpos.ne']

/-! ## Buckets -/

/-- A report or a read frame of a task. -/
abbrev TaskEvent := Report ⊕ ReadEvent

def TaskEvent.fz : TaskEvent → FreezeTime
  | .inl r => r.fz
  | .inr r => r.fz

def CycleBucket.add (b : CycleBucket) : TaskEvent → CycleBucket
  | .inl r => b.addReport r
  | .inr r => b.addRead r

def taskEvents (reports : List Report) (reads : List ReadEvent) : List TaskEvent :=
  reports.map .inl ++ reads.map .inr

section Buckets
variable (period : ℕ) (reports : List Report) (reads : List ReadEvent)

theorem fillBuckets_eq : fillBuckets period reports reads =
    KeyedFolds.collect (fun e : TaskEvent => cycleWindowKey e.fz period)
      (fun b e => (b.getD {}).add e) (taskEvents reports reads) := by
  unfold fillBuckets KeyedFolds.collect taskEvents
  rw [List.foldl_append, List.foldl_map, List.foldl_map]
  rfl

/-- The bucket of a window holds the events with its key. -/
theorem get_fillBuckets (key : ℤ) :
    ((fillBuckets period reports reads).get? key).getD {} =
      ((taskEvents reports reads).filter fun e => cycleWindowKey e.fz period = key).foldl
        CycleBucket.add {} := by
  rw [fillBuckets_eq, KeyedFolds.get?_collect, KeyedFolds.fiber]
  induction (taskEvents reports reads).filter fun e => cycleWindowKey e.fz period = key
    using List.reverseRecOn with
  | nil => rfl
  | append_singleton events e ih =>
      rw [KeyedFolds.settled_concat, Option.getD_some, ih, List.foldl_append, List.foldl_cons,
        List.foldl_nil]

end Buckets

/-! ## The sets of a bucket -/

namespace TaskEvent

def address : TaskEvent → String
  | .inl r => r.address
  | .inr r => r.address

def isReport : TaskEvent → Bool
  | .inl _ => true
  | .inr _ => false

/-- A report that bears data. -/
def reportsData : TaskEvent → Bool
  | .inl r => r.hasData
  | .inr _ => false

def isRequest : TaskEvent → Bool
  | .inl _ => false
  | .inr r => decide (r.scene = .passiveCollect)

def isReply : TaskEvent → Bool
  | .inl _ => false
  | .inr r => !decide (r.scene = .passiveCollect)

/-- A reply that bears data. -/
def repliesData : TaskEvent → Bool
  | .inl _ => false
  | .inr r => !decide (r.scene = .passiveCollect) && r.hasData

/-- A reply without data. -/
def repliesEmpty : TaskEvent → Bool
  | .inl _ => false
  | .inr r => !decide (r.scene = .passiveCollect) && !r.hasData

end TaskEvent

/-- The meters of the events with a property. -/
def metersOf (p : TaskEvent → Bool) (events : List TaskEvent) : Finset String :=
  ((events.filter p).map TaskEvent.address).toFinset

theorem mem_metersOf {p : TaskEvent → Bool} {events : List TaskEvent} {a : String} :
    a ∈ metersOf p events ↔ ∃ e ∈ events, p e = true ∧ e.address = a := by
  simp [metersOf, and_assoc]

theorem metersOf_concat (p : TaskEvent → Bool) (events : List TaskEvent) (e : TaskEvent) :
    metersOf p (events ++ [e]) =
      if p e then insert e.address (metersOf p events) else metersOf p events := by
  unfold metersOf
  rw [List.filter_append]
  by_cases h : p e
  · rw [if_pos h, List.filter_cons_of_pos h, List.filter_nil, List.map_append, List.toFinset_append,
      Finset.union_comm]
    rfl
  · rw [if_neg h, List.filter_cons_of_neg h, List.filter_nil, List.append_nil]

/-- A set that every event with a property is put into. -/
theorem foldl_metersOf {get : CycleBucket → Finset String} {p : TaskEvent → Bool}
    (hadd : ∀ b e, get (b.add e) = if p e then insert e.address (get b) else get b)
    (hempty : get {} = ∅) (events : List TaskEvent) :
    get (events.foldl CycleBucket.add {}) = metersOf p events := by
  induction events using List.reverseRecOn with
  | nil => exact hempty
  | append_singleton events e ih =>
      rw [List.foldl_append, metersOf_concat, ← ih]
      exact hadd _ e

section Sets
variable (b : CycleBucket) (e : TaskEvent)

theorem activeAny_add :
    (b.add e).activeAny = if e.isReport then insert e.address b.activeAny else b.activeAny := by
  cases e with
  | inl r => rfl
  | inr r => by_cases h : r.scene = .passiveCollect <;>
      simp [CycleBucket.add, CycleBucket.addRead, TaskEvent.isReport, h]

theorem activeOk_add :
    (b.add e).activeOk = if e.reportsData then insert e.address b.activeOk else b.activeOk := by
  cases e with
  | inl r => rfl
  | inr r => by_cases h : r.scene = .passiveCollect <;>
      simp [CycleBucket.add, CycleBucket.addRead, TaskEvent.reportsData, h]

theorem requested_add :
    (b.add e).requested = if e.isRequest then insert e.address b.requested else b.requested := by
  cases e with
  | inl r => rfl
  | inr r => by_cases h : r.scene = .passiveCollect <;>
      simp [CycleBucket.add, CycleBucket.addRead, TaskEvent.isRequest, TaskEvent.address, h]

theorem replyAny_add :
    (b.add e).replyAny = if e.isReply then insert e.address b.replyAny else b.replyAny := by
  cases e with
  | inl r => rfl
  | inr r => by_cases h : r.scene = .passiveCollect <;>
      simp [CycleBucket.add, CycleBucket.addRead, TaskEvent.isReply, TaskEvent.address, h]

theorem replyOk_add :
    (b.add e).replyOk = if e.repliesData then insert e.address b.replyOk else b.replyOk := by
  cases e with
  | inl r => rfl
  | inr r => by_cases h : r.scene = .passiveCollect <;>
      simp [CycleBucket.add, CycleBucket.addRead, TaskEvent.repliesData, TaskEvent.address, h]

theorem replyEmpty_add :
    (b.add e).replyEmpty = if e.repliesEmpty then insert e.address b.replyEmpty else b.replyEmpty := by
  cases e with
  | inl r => rfl
  | inr r => by_cases h : r.scene = .passiveCollect <;> cases hdata : r.hasData <;>
      simp [CycleBucket.add, CycleBucket.addRead, TaskEvent.repliesEmpty, TaskEvent.address, h, hdata]

end Sets

/-! ## What a cycle should say -/

/-- The meters that count in a window: the configured ones, or those seen in it. -/
def scopeOf (configured : Option (Finset String)) (events : List TaskEvent) : Finset String :=
  configured.getD (metersOf TaskEvent.isReport events ∪ metersOf TaskEvent.isReply events ∪
    metersOf TaskEvent.isRequest events)

/-- The statistics of a window with its events. -/
structure CycleKept (configured : Option (Finset String)) (period : ℕ) (start : ℤ)
    (events : List TaskEvent) (c : TaskCycleStats) : Prop where
  label : c.windowLabel = cycleWindowLabel start period
  active : c.activeOk = (scopeOf configured events ∩ metersOf TaskEvent.reportsData events).card
  passive : c.passiveOk = (scopeOf configured events ∩ metersOf TaskEvent.repliesData events).card
  unanswered : ∀ a, (∃ t, (a, t, "下发采集无响应") ∈ c.passiveCollectFailed) ↔
    a ∈ scopeOf configured events ∧ a ∈ metersOf TaskEvent.isRequest events ∧
      a ∉ metersOf TaskEvent.isReply events
  empty : ∀ a, (∃ t, (a, t, "被动上报无数据") ∈ c.passiveCollectFailed) ↔
    a ∈ scopeOf configured events ∧ a ∈ metersOf TaskEvent.repliesEmpty events ∧
      a ∉ metersOf TaskEvent.repliesData events
  reason : ∀ f ∈ c.passiveCollectFailed, f.2.2 = "下发采集无响应" ∨ f.2.2 = "被动上报无数据"
  once : (c.passiveCollectFailed.map Prod.fst).Nodup

section Cycle
variable {configured : Option (Finset String)} {period : ℕ} {events : List TaskEvent}

theorem outcome_foldl (configured : Option (Finset String)) (events : List TaskEvent) :
    (events.foldl CycleBucket.add {}).outcome configured =
      { activeOk := scopeOf configured events ∩ metersOf TaskEvent.reportsData events
        passiveOk := scopeOf configured events ∩ metersOf TaskEvent.repliesData events
        noReply := scopeOf configured events ∩ (metersOf TaskEvent.isRequest events \
          (scopeOf configured events ∩ metersOf TaskEvent.isReply events))
        replyNoData := (scopeOf configured events ∩ metersOf TaskEvent.repliesEmpty events) \
          (scopeOf configured events ∩ metersOf TaskEvent.repliesData events) } := by
  unfold CycleBucket.outcome scopeOf
  rw [foldl_metersOf activeAny_add rfl, foldl_metersOf activeOk_add rfl,
    foldl_metersOf requested_add rfl, foldl_metersOf replyAny_add rfl,
    foldl_metersOf replyOk_add rfl, foldl_metersOf replyEmpty_add rfl]

theorem reply_of_repliesEmpty {a : String} (h : a ∈ metersOf TaskEvent.repliesEmpty events) :
    a ∈ metersOf TaskEvent.isReply events := by
  obtain ⟨e, he, hempty, rfl⟩ := mem_metersOf.mp h
  apply mem_metersOf.mpr
  cases e with
  | inl r => cases hempty
  | inr r => exact ⟨_, he, (Bool.and_eq_true _ _ ▸ hempty).1, rfl⟩

theorem cycleStats_kept (configured : Option (Finset String)) (period : ℕ) (events : List TaskEvent)
    (index : ℕ) (start : ℤ) :
    CycleKept configured period start events
      ((events.foldl CycleBucket.add {}).cycleStats configured period index start) := by
  have houtcome := outcome_foldl configured events
  have hreasons : ("下发采集无响应" : String) ≠ "被动上报无数据" := by decide
  unfold CycleBucket.cycleStats
  rw [houtcome]
  constructor
  · rfl
  · rfl
  · rfl
  · intro a
    simp only [List.mem_append, List.mem_map, Finset.mem_sort, Prod.mk.injEq]
    constructor
    · rintro ⟨t, ⟨a', ha, rfl, -, -⟩ | ⟨a', -, -, -, hreason⟩⟩
      · rw [Finset.mem_inter, Finset.mem_sdiff, Finset.mem_inter] at ha
        exact ⟨ha.1, ha.2.1, fun h => ha.2.2 ⟨ha.1, h⟩⟩
      · exact absurd hreason.symm hreasons
    · rintro ⟨hscope, hrequested, hsilent⟩
      refine ⟨_, .inl ⟨a, ?_, rfl, rfl, trivial⟩⟩
      rw [Finset.mem_inter, Finset.mem_sdiff, Finset.mem_inter]
      exact ⟨hscope, hrequested, fun h => hsilent h.2⟩
  · intro a
    simp only [List.mem_append, List.mem_map, Finset.mem_sort, Prod.mk.injEq]
    constructor
    · rintro ⟨t, ⟨a', -, -, -, hreason⟩ | ⟨a', ha, rfl, -, -⟩⟩
      · exact absurd hreason hreasons
      · rw [Finset.mem_sdiff, Finset.mem_inter, Finset.mem_inter] at ha
        exact ⟨ha.1.1, ha.1.2, fun h => ha.2 ⟨ha.1.1, h⟩⟩
    · rintro ⟨hscope, hempty, hdata⟩
      refine ⟨_, .inr ⟨a, ?_, rfl, rfl, trivial⟩⟩
      rw [Finset.mem_sdiff, Finset.mem_inter, Finset.mem_inter]
      exact ⟨⟨hscope, hempty⟩, fun h => hdata h.2⟩
  · intro f hf
    obtain hf | hf := List.mem_append.mp hf
    · obtain ⟨a, -, rfl⟩ := List.mem_map.mp hf
      exact .inl rfl
    · obtain ⟨a, -, rfl⟩ := List.mem_map.mp hf
      exact .inr rfl
  · rw [List.map_append, List.map_map, List.map_map]
    have hfst (g h : String → String) (addresses : List String) :
        addresses.map (Prod.fst ∘ fun a => (a, g a, h a)) = addresses := by
      exact List.map_id addresses
    rw [hfst, hfst]
    apply (Finset.sort_nodup _ _).append (Finset.sort_nodup _ _)
    intro a hsilent hempty
    rw [Finset.mem_sort, Finset.mem_inter, Finset.mem_sdiff, Finset.mem_inter] at hsilent
    rw [Finset.mem_sort, Finset.mem_sdiff, Finset.mem_inter] at hempty
    exact hsilent.2.2 ⟨hsilent.1, reply_of_repliesEmpty hempty.1.2⟩

end Cycle

/-! ## The cycles of a task -/

/-- Windows that each begin where the one before ends. The first holds the earliest event and the last
the latest, and each event lies in one of them. -/
structure Windows (period : ℕ) (events : List TaskEvent) (starts : List ℤ) : Prop where
  contiguous : starts.IsChain fun a b : ℤ => b = a + period
  earliest : ∃ start ∈ starts.head?, ∃ e ∈ events, InWindow start period e.fz ∧
    ∀ e' ∈ events, fzMinutes e.fz ≤ fzMinutes e'.fz
  latest : ∃ start ∈ starts.getLast?, ∃ e ∈ events, InWindow start period e.fz ∧
    ∀ e' ∈ events, fzMinutes e'.fz ≤ fzMinutes e.fz
  covered : ∀ e ∈ events, ∃! start, start ∈ starts ∧ InWindow start period e.fz

/-- The cycles are those of the windows, each with the events that lie in it. -/
def CyclesKept (configured : Option (Finset String)) (period : ℕ) (events : List TaskEvent)
    (cycles : List TaskCycleStats) : Prop :=
  ∃ starts, Windows period events starts ∧
    List.Forall₂ (fun start => CycleKept configured period start
      (events.filter fun e => InWindow start period e.fz)) starts cycles ∧
    cycles.map TaskCycleStats.index = List.range' 1 starts.length

/-- The times of events. -/
def times (events : List TaskEvent) : List ℤ := events.map fun e => fzMinutes e.fz

theorem times_taskEvents (reports : List Report) (reads : List ReadEvent) :
    times (taskEvents reports reads) = eventMinutes reports reads := by
  unfold times taskEvents eventMinutes
  rw [List.map_append, List.map_map, List.map_map]
  rfl

section Cycles
variable {period : ℕ} {events : List TaskEvent} {first last : ℤ}

theorem window_of_mem (hperiod : 1 ≤ period) (hle : first ≤ last) {start : ℤ}
    (h : start ∈ periodRange first last period) : ∃ q : ℤ, start = q * period := by
  rw [periodRange_eq hperiod hle] at h
  obtain ⟨k, -, rfl⟩ := List.mem_map.mp h
  exact ⟨_, rfl⟩

theorem mem_periodRange (hperiod : 1 ≤ period) {m : ℤ} (hfirst : first ≤ m) (hlast : m ≤ last) :
    m / period * period ∈ periodRange first last period := by
  have hpos : (0 : ℤ) < period := by exact_mod_cast hperiod
  have hleft : first / (period : ℤ) ≤ m / period := Int.ediv_le_ediv hpos hfirst
  have hright : m / (period : ℤ) ≤ last / period := Int.ediv_le_ediv hpos hlast
  rw [periodRange_eq hperiod (hfirst.trans hlast)]
  apply List.mem_map.mpr
  refine ⟨(m / (period : ℤ) - first / period).toNat, List.mem_range.mpr (by omega), ?_⟩
  congr 1
  omega

theorem windows_periodRange (hperiod : 1 ≤ period) (hfirst : IsLeast {m | m ∈ times events} first)
    (hlast : IsGreatest {m | m ∈ times events} last) :
    Windows period events (periodRange first last period) := by
  have hle : first ≤ last := hfirst.2 hlast.1
  have hstarts := periodRange_eq hperiod hle
  have hpos : (0 : ℤ) < period := by exact_mod_cast hperiod
  have hquot : first / (period : ℤ) ≤ last / period := Int.ediv_le_ediv hpos hle
  have htime {e : TaskEvent} (he : e ∈ events) : fzMinutes e.fz ∈ times events :=
    List.mem_map_of_mem he
  constructor
  · rw [hstarts, List.isChain_map, List.isChain_range]
    intro k _
    push_cast
    ring
  · obtain ⟨e, he, htimes⟩ := List.mem_map.mp hfirst.1
    refine ⟨first / period * period, ?_, e, he, ?_, ?_⟩
    · rw [hstarts, List.range_succ_eq_map, List.map_cons, List.head?_cons, Nat.cast_zero, add_zero]
      rfl
    · rw [inWindow_iff hperiod, cycleWindowKey, htimes]
    · intro e' he'
      rw [htimes]
      exact hfirst.2 (htime he')
  · obtain ⟨e, he, htimes⟩ := List.mem_map.mp hlast.1
    refine ⟨last / period * period, ?_, e, he, ?_, ?_⟩
    · rw [hstarts, List.range_succ, List.map_append, List.map_singleton, List.getLast?_concat,
        Int.toNat_of_nonneg (by omega), add_sub_cancel]
      rfl
    · rw [inWindow_iff hperiod, cycleWindowKey, htimes]
    · intro e' he'
      rw [htimes]
      exact hlast.2 (htime he')
  · intro e he
    refine ⟨cycleWindowKey e.fz period, ⟨?_, (inWindow_iff hperiod e.fz).mpr rfl⟩, ?_⟩
    · exact mem_periodRange hperiod (hfirst.2 (htime he)) (hlast.2 (htime he))
    · rintro start ⟨hmem, hin⟩
      obtain ⟨q, rfl⟩ := window_of_mem hperiod hle hmem
      exact ((inWindow_iff hperiod e.fz).mp hin).symm

theorem taskCycles_kept (configured : Option (Finset String)) (reports : List Report)
    (reads : List ReadEvent) (hperiod : 1 ≤ period)
    (hfirst : IsLeast {m | m ∈ eventMinutes reports reads} first)
    (hlast : IsGreatest {m | m ∈ eventMinutes reports reads} last) :
    CyclesKept configured period (taskEvents reports reads)
      (taskCycles configured period first last reports reads) := by
  rw [← times_taskEvents] at hfirst hlast
  refine ⟨_, windows_periodRange hperiod hfirst hlast, ?_, ?_⟩
  · have hle : first ≤ last := hfirst.2 hlast.1
    have hpairs := List.zipIdx_map_fst 0 (periodRange first last period)
    nth_rewrite 1 [← hpairs]
    unfold taskCycles
    rw [List.forall₂_map_left_iff, List.forall₂_map_right_iff, List.forall₂_same]
    rintro ⟨start, i⟩ hmem
    obtain ⟨q, rfl⟩ := window_of_mem hperiod hle (List.fst_mem_of_mem_zipIdx hmem)
    rw [get_fillBuckets]
    simp only [← inWindow_iff hperiod]
    exact cycleStats_kept configured period _ (i + 1) _
  · have hindices := List.zipIdx_map_snd 0 (periodRange first last period)
    unfold taskCycles
    rw [List.map_map, List.range'_eq_map_range, List.range_eq_range', ← hindices, List.map_map]
    apply List.map_congr_left
    intro e _
    exact add_comm e.2 1

end Cycles

end HplcWorkbench.MinuteStats
