import HplcWorkbench.MinuteInstants
import HplcWorkbench.StreamItems

/-!
# The times stamped on the items of a network

The days in front of the first frame of a network are counted along the frames of all networks. From
its first readable frame on the count runs in step with the calendar, whoever the frames in between
belong to, so that two streams with the same frames of a network stamp these a whole number of days
apart.

`_absolute_ms` and the tracker that is fed row by row count a midnight whenever the clock falls back
by more than twelve hours. Between instants that are closer than that the count is the one of the
calendar, and what they return are the instants themselves, from the midnight of the first day on.
-/

namespace HplcWorkbench.ListenerLog

/-! ## Streams in time -/

/-- The clock of an item can be read. -/
def StreamItem.timed (item : StreamItem) : Bool := (parseTimeMs item.logTime).isSome

/-- Items with the instants at which they were captured, in the order of capture. -/
structure Capture where
  items : List (StreamItem × ℕ)
  clocks : ∀ e ∈ items, ∀ clock ∈ parseTimeMs e.1.logTime, clock = e.2 % dayMs
  chronological : items.Pairwise fun d e => d.2 ≤ e.2

namespace Capture
variable (c : Capture) (x : ℕ)

def rows : List StreamItem := c.items.map Prod.fst

/-- The items of a network with their instants. -/
def ofNetwork : List (StreamItem × ℕ) := c.items.filter fun e => e.1.nid = some x

/-- Successive readable items of a network are less than twelve hours apart. -/
def Close : Prop :=
  ((c.ofNetwork x).filter fun e => e.1.timed).IsChain fun d e => e.2 < d.2 + 43200000

end Capture

/-- How often a clock is more than twelve hours behind the one in front of it. -/
def midnights (prev : Option ℕ) : List ℕ → ℕ
  | [] => 0
  | clock :: rest =>
    (if prev.any fun p => clock + 12 * 3600000 < p then 1 else 0) + midnights (some clock) rest

/-- The clocks up to the first one of a network. -/
def clocksUntil (x : ℕ) : List StreamItem → List ℕ
  | [] => []
  | item :: rest =>
    match parseTimeMs item.logTime with
    | none => clocksUntil x rest
    | some clock => clock :: if item.nid = some x then [] else clocksUntil x rest

/-- The midnights that are noticed up to the first readable item of a network, along the items that
move the clock. -/
def Capture.daysNoticed (c : Capture) (nidFilter : Option ℕ) (x : ℕ) : ℕ :=
  midnights none (clocksUntil x (c.rows.filter (StreamItem.passes nidFilter)))

/-! ## The tracker in step with the calendar -/

theorem absMs_of_none {logTime : String} (h : parseTimeMs logTime = none) (t : TimeTracker) :
    t.absMs logTime = (none, t) := by
  rw [TimeTracker.absMs, h]

theorem absMs_clock {logTime : String} {clock : ℕ} (h : parseTimeMs logTime = some clock)
    (t : TimeTracker) :
    t.absMs logTime =
      (some ((t.dayOffset + midnights t.prevClockMs [clock]) * dayMs + clock),
        ⟨t.dayOffset + midnights t.prevClockMs [clock], some clock⟩) := by
  rw [TimeTracker.absMs, h]
  dsimp only [midnights, dayMs]
  split <;> rfl

/-- Within twelve hours the count follows the calendar. -/
theorem midnights_close {t u : ℕ} (hle : t ≤ u) (hclose : u < t + 43200000) :
    t / dayMs + midnights (some (t % dayMs)) [u % dayMs] = u / dayMs := by
  rw [midnights, midnights, Option.any_some, dayMs]
  split <;> rename_i h
  · rw [decide_eq_true_eq] at h
    omega
  · rw [decide_eq_true_eq] at h
    omega

/-- Day `d` is counted on the day of instant `t₀`, and the clock last read is that of instant `t`. -/
structure Synced (d t₀ t : ℕ) (tracker : TimeTracker) : Prop where
  le : t₀ ≤ t
  day : tracker.dayOffset + t₀ / dayMs = d + t / dayMs
  clock : tracker.prevClockMs = some (t % dayMs)

theorem Synced.step {d t₀ t u : ℕ} {tracker : TimeTracker} {logTime : String}
    (h : Synced d t₀ t tracker) (hclock : parseTimeMs logTime = some (u % dayMs)) (hle : t ≤ u)
    (hclose : u < t + 43200000) :
    (tracker.absMs logTime).1 = some (u - t₀ / dayMs * dayMs + d * dayMs) ∧
      Synced d t₀ u (tracker.absMs logTime).2 := by
  have hday := h.day
  have hmid := midnights_close hle hclose
  rw [absMs_clock hclock, h.clock]
  refine ⟨congrArg some ?_, Nat.le_trans h.le hle, ?_, rfl⟩
  · have hcount : tracker.dayOffset + midnights (some (t % dayMs)) [u % dayMs] + t₀ / dayMs =
        d + u / dayMs := by omega
    have hscaled := congrArg (· * dayMs) hcount
    have hu := Nat.div_add_mod u dayMs
    have hfirst : t₀ / dayMs * dayMs ≤ u := Nat.le_trans (Nat.div_mul_le_self _ _) (Nat.le_trans h.le hle)
    simp only [Nat.add_mul] at hscaled
    rw [Nat.mul_comm] at hu
    rw [Nat.add_mul]
    omega
  · dsimp only
    omega

/-- The time of an item relative to the day of an instant, moved by whole days. -/
def stampOf (t₀ d : ℕ) (e : StreamItem × ℕ) : StreamItem × Option ℕ :=
  (e.1, (parseTimeMs e.1.logTime).map fun _ => e.2 - t₀ / dayMs * dayMs + d * dayMs)

section Stamps
variable {x : ℕ} {items : List (StreamItem × ℕ)} {tracker : TimeTracker}

/-- Items of the network among some stamped ones. -/
def ownStamps (x : ℕ) (tracker : TimeTracker) (items : List (StreamItem × ℕ)) :
    List (StreamItem × Option ℕ) :=
  (stampedFrom tracker (items.map Prod.fst)).filter fun e => e.1.nid = some x

/-- Items of the network. -/
def own (x : ℕ) (items : List (StreamItem × ℕ)) : List (StreamItem × ℕ) :=
  items.filter fun e => e.1.nid = some x

/-- Of these the readable ones. -/
def ownTimed (x : ℕ) (items : List (StreamItem × ℕ)) : List (StreamItem × ℕ) :=
  (own x items).filter fun e => e.1.timed

theorem ownStamps_cons (e : StreamItem × ℕ) :
    ownStamps x tracker (e :: items) =
      (if e.1.nid = some x then [(e.1, (tracker.absMs e.1.logTime).1)] else []) ++
        ownStamps x (tracker.absMs e.1.logTime).2 items := by
  rw [ownStamps, List.map_cons, stampedFrom, List.filter_cons]
  split <;> simp_all [ownStamps]

theorem own_cons (e : StreamItem × ℕ) :
    own x (e :: items) = (if e.1.nid = some x then [e] else []) ++ own x items := by
  rw [own, List.filter_cons]
  split <;> simp_all [own]

/-- Where no item of the network can be read none is stamped. -/
theorem ownStamps_untimed (h : ownTimed x items = []) (t₀ d : ℕ) :
    ownStamps x tracker items = (own x items).map (stampOf t₀ d) := by
  induction items generalizing tracker with
  | nil => rfl
  | cons e rest ih =>
      rw [ownTimed, own_cons, List.filter_append, List.append_eq_nil_iff] at h
      rw [ownStamps_cons, own_cons, List.map_append, ih h.2]
      by_cases hx : e.1.nid = some x
      · rw [if_pos hx, List.filter_cons, List.filter_nil] at h
        have hnone : parseTimeMs e.1.logTime = none := by
          by_contra hsome
          exact absurd h.1 (by simp [StreamItem.timed, Option.isSome_iff_ne_none, hsome])
        rw [if_pos hx, if_pos hx, absMs_of_none hnone, List.map_singleton, stampOf, hnone]
        rfl
      · rw [if_neg hx, if_neg hx]
        rfl

/-- From an item of the network on, its items are stamped in step with the calendar. -/
theorem ownStamps_synced {d t₀ t last : ℕ} (hsync : Synced d t₀ t tracker) (hlast : last ≤ t)
    (hclocks : ∀ e ∈ items, ∀ clock ∈ parseTimeMs e.1.logTime, clock = e.2 % dayMs)
    (hlater : ∀ e ∈ items, t ≤ e.2) (hsorted : items.Pairwise fun d e => d.2 ≤ e.2)
    (hclose : (last :: (ownTimed x items).map Prod.snd).IsChain fun t u => u < t + 43200000) :
    ownStamps x tracker items = (own x items).map (stampOf t₀ d) := by
  induction items generalizing tracker t last with
  | nil => rfl
  | cons e rest ih =>
      rw [List.forall_mem_cons] at hclocks hlater
      obtain ⟨hfirst, hsorted⟩ := List.pairwise_cons.mp hsorted
      by_cases hown : ownTimed x (e :: rest) = []
      · exact ownStamps_untimed hown t₀ d
      rw [ownStamps_cons, own_cons, List.map_append]
      cases hparse : parseTimeMs e.1.logTime with
      | none =>
          have hskip : ownTimed x (e :: rest) = ownTimed x rest := by
            rw [ownTimed, own_cons, List.filter_append]
            split <;> simp [StreamItem.timed, hparse, ownTimed]
          rw [hskip] at hclose
          rw [absMs_of_none hparse, ih hsync hlast hclocks.2 hlater.2 hsorted hclose]
          split
          · rw [List.map_singleton, stampOf, hparse]
            rfl
          · rfl
      | some clock =>
          have hclock : parseTimeMs e.1.logTime = some (e.2 % dayMs) := by
            rw [hparse, hclocks.1 clock hparse]
          -- the next readable item of the network is this one or a later one, and it is close
          obtain ⟨next, hnext, hclosest⟩ : ∃ u, e.2 ≤ u ∧ u < last + 43200000 := by
            cases hlist : ownTimed x (e :: rest) with
            | nil => exact absurd hlist hown
            | cons g more =>
                have hg : g ∈ e :: rest :=
                  List.mem_of_mem_filter (List.mem_of_mem_filter (hlist ▸ List.mem_cons_self))
                rw [hlist, List.map_cons, List.isChain_cons_cons] at hclose
                refine ⟨g.2, ?_, hclose.1⟩
                cases hg with
                | head => exact Nat.le_refl _
                | tail _ hmem => exact hfirst g hmem
          obtain ⟨hstamp, hsync'⟩ := hsync.step hclock hlater.1 (by omega)
          rw [hstamp]
          by_cases hx : e.1.nid = some x
          · have hcons : ownTimed x (e :: rest) = e :: ownTimed x rest := by
              rw [ownTimed, own_cons, if_pos hx, List.filter_append]
              simp [StreamItem.timed, hparse, ownTimed]
            rw [hcons, List.map_cons, List.isChain_cons_cons] at hclose
            rw [ih hsync' (Nat.le_refl _) hclocks.2 hfirst hsorted hclose.2, if_pos hx, if_pos hx,
              List.map_singleton, stampOf, hparse]
            rfl
          · have hcons : ownTimed x (e :: rest) = ownTimed x rest := by
              rw [ownTimed, own_cons, if_neg hx]
              rfl
            rw [hcons] at hclose
            rw [ih hsync' (Nat.le_trans hlast hlater.1) hclocks.2 hfirst hsorted hclose, if_neg hx,
              if_neg hx]
            rfl

/-- The first readable item of the network. -/
def firstInstant (x : ℕ) (items : List (StreamItem × ℕ)) : ℕ :=
  ((ownTimed x items).head?.map Prod.snd).getD 0

theorem ownStamps_eq
    (hclocks : ∀ e ∈ items, ∀ clock ∈ parseTimeMs e.1.logTime, clock = e.2 % dayMs)
    (hsorted : items.Pairwise fun d e => d.2 ≤ e.2)
    (hclose : ((ownTimed x items).map Prod.snd).IsChain fun t u => u < t + 43200000) :
    ownStamps x tracker items = (own x items).map (stampOf (firstInstant x items)
      (tracker.dayOffset + midnights tracker.prevClockMs (clocksUntil x (items.map Prod.fst)))) := by
  induction items generalizing tracker with
  | nil => rfl
  | cons e rest ih =>
      rw [List.forall_mem_cons] at hclocks
      obtain ⟨hfirst, hsorted⟩ := List.pairwise_cons.mp hsorted
      rw [ownStamps_cons, own_cons, List.map_append, List.map_cons, clocksUntil]
      cases hparse : parseTimeMs e.1.logTime with
      | none =>
          have hskip : ownTimed x (e :: rest) = ownTimed x rest := by
            rw [ownTimed, own_cons, List.filter_append]
            split <;> simp [StreamItem.timed, hparse, ownTimed]
          have hinstant : firstInstant x (e :: rest) = firstInstant x rest := by
            rw [firstInstant, hskip, firstInstant]
          rw [hskip] at hclose
          rw [absMs_of_none hparse, ih hclocks.2 hsorted hclose, hinstant]
          split
          · rw [List.map_singleton, stampOf, hparse]
            rfl
          · rfl
      | some clock =>
          have hcount : ∀ more, tracker.dayOffset + midnights tracker.prevClockMs (clock :: more) =
              tracker.dayOffset + midnights tracker.prevClockMs [clock] + midnights (some clock) more := by
            intro more
            rw [midnights, midnights, midnights]
            omega
          rw [absMs_clock hparse]
          dsimp only
          by_cases hx : e.1.nid = some x
          · have hcons : ownTimed x (e :: rest) = e :: ownTimed x rest := by
              rw [ownTimed, own_cons, if_pos hx, List.filter_append]
              simp [StreamItem.timed, hparse, ownTimed]
            have hclock := hclocks.1 clock hparse
            rw [firstInstant, hcons]
            rw [hcons, List.map_cons] at hclose
            simp only [if_pos hx, List.map_singleton, List.head?_cons, Option.map_some,
              Option.getD_some]
            rw [@ownStamps_synced _ _ _ _ e.2 e.2 _ ⟨Nat.le_refl _, rfl, hclock ▸ rfl⟩
              (Nat.le_refl _) hclocks.2 hfirst hsorted hclose, stampOf, hparse]
            refine congrArg (· :: _) ?_
            have hdiv := Nat.div_add_mod e.2 dayMs
            rw [Nat.mul_comm] at hdiv
            simp only [Option.map_some]
            refine congrArg (fun n => (e.1, some n)) ?_
            omega
          · have hcons : ownTimed x (e :: rest) = ownTimed x rest := by
              rw [ownTimed, own_cons, if_neg hx]
              rfl
            have hinstant : firstInstant x (e :: rest) = firstInstant x rest := by
              rw [firstInstant, hcons, firstInstant]
            rw [hcons] at hclose
            rw [ih hclocks.2 hsorted hclose, hinstant, if_neg hx, if_neg hx, if_neg hx,
              List.map_nil, List.nil_append, List.nil_append]
            rw [← hcount]

end Stamps

/-- The items of a network as a run stamps them: apart from the days noticed in front of them the
times are those of the calendar. -/
theorem Capture.seen_eq {c : Capture} {x : ℕ} (hclose : c.Close x) {nidFilter : Option ℕ}
    (hfilter : nidFilter.any (x ≠ ·) = false) :
    seen nidFilter x {} c.rows = ((c.ofNetwork x).filter fun e => e.1.logTime ≠ "").map
      (stampOf (firstInstant x c.items) (c.daysNoticed nidFilter x)) := by
  let passing := c.items.filter fun e => e.1.passes nidFilter
  have hrows : c.rows.filter (StreamItem.passes nidFilter) = passing.map Prod.fst := by
    rw [Capture.rows, List.filter_map]
    rfl
  have hown : own x passing = (c.ofNetwork x).filter fun e => e.1.logTime ≠ "" := by
    rw [own, Capture.ofNetwork, List.filter_filter, List.filter_filter]
    refine List.filter_congr fun e _ => ?_
    by_cases hx : e.1.nid = some x
    · rw [StreamItem.passes, hx, Option.any_some, hfilter]
      simp
    · simp [hx]
  have htimed : ownTimed x passing = ownTimed x c.items := by
    rw [ownTimed, hown, ownTimed, own, Capture.ofNetwork, List.filter_filter]
    refine List.filter_congr fun e _ => ?_
    cases hparse : parseTimeMs e.1.logTime with
    | none => simp [StreamItem.timed, hparse]
    | some clock =>
        have hne : e.1.logTime ≠ "" := by
          intro hempty
          have hnone : parseTimeMs "" = none := by decide
          rw [hempty, hnone] at hparse
          exact Option.some_ne_none _ hparse.symm
        simp [StreamItem.timed, hparse, hne]
  have hsub : passing.Sublist c.items := List.filter_sublist
  have hstamps := @ownStamps_eq x passing {}
    (fun e he => c.clocks e (hsub.mem he)) (c.chronological.sublist hsub)
    (by rw [htimed, List.isChain_map]; exact hclose)
  rw [seen, hrows]
  refine hstamps.trans ?_
  rw [hown, firstInstant, htimed, Capture.daysNoticed, hrows, firstInstant]
  simp

/-! ## Midnight stitching -/

/-- The loop of `_absolute_ms`. -/
def absoluteMsFrom (dayOffset : ℕ) (prevMs : Option ℕ) : List String → List (Option ℕ)
  | [] => []
  | text :: rest =>
    match parseTimeMs text with
    | none => none :: absoluteMsFrom dayOffset prevMs rest
    | some ms =>
      let dayOffset := if prevMs.any fun prev => ms + 12 * 3600000 < prev then dayOffset + 1 else dayOffset
      some (dayOffset * 86400000 + ms) :: absoluteMsFrom dayOffset (some ms) rest

/-- Time texts with the true instants of those that can be read, less than twelve hours apart. -/
structure ClockLog where
  entries : List (String × Option ℕ)
  reads : ∀ e ∈ entries, parseTimeMs e.1 = e.2.map (· % dayMs)
  close : (entries.filterMap Prod.snd).IsChain fun t u => t ≤ u ∧ u < t + 43200000

namespace ClockLog
variable (log : ClockLog)

def texts : List String := log.entries.map Prod.fst

/-- The instants, from the midnight of the first day on. -/
def fromFirstMidnight : List (Option ℕ) :=
  let first := (log.entries.filterMap Prod.snd).headD 0
  log.entries.map fun e => e.2.map fun t => t - first / dayMs * dayMs

end ClockLog

/-- The loop and the tracker count alike. -/
theorem absoluteMs_eq_from (texts : List String) (tracker : TimeTracker) :
    absoluteMs tracker texts = absoluteMsFrom tracker.dayOffset tracker.prevClockMs texts := by
  induction texts generalizing tracker with
  | nil => rfl
  | cons text rest ih =>
    rw [absoluteMs, absoluteMsFrom, ih]
    unfold TimeTracker.absMs
    cases parseTimeMs text <;> rfl

/-- In step with the calendar the instants are returned. -/
theorem absoluteMs_synced {t₀ t : ℕ} {tracker : TimeTracker} (entries : List (String × Option ℕ))
    (hsync : Synced 0 t₀ t tracker) (hreads : ∀ e ∈ entries, parseTimeMs e.1 = e.2.map (· % dayMs))
    (hclose : (t :: entries.filterMap Prod.snd).IsChain fun t u => t ≤ u ∧ u < t + 43200000) :
    absoluteMs tracker (entries.map Prod.fst) =
      entries.map fun e => e.2.map fun u => u - t₀ / dayMs * dayMs := by
  induction entries generalizing t tracker with
  | nil => rfl
  | cons e rest ih =>
    obtain ⟨text, instant⟩ := e
    rw [List.forall_mem_cons] at hreads
    obtain ⟨hread, hreads⟩ := hreads
    rw [List.map_cons, List.map_cons, absoluteMs]
    cases instant with
    | none =>
      rw [absMs_of_none hread, ih hsync hreads hclose]
      rfl
    | some u =>
      obtain ⟨⟨hle, hnear⟩, hclose⟩ := List.isChain_cons_cons.mp hclose
      obtain ⟨hstamp, hsync⟩ := hsync.step hread hle hnear
      rw [hstamp, ih hsync hreads hclose, Nat.zero_mul, Nat.add_zero]
      rfl

theorem absoluteMs_instants (log : ClockLog) : absoluteMs {} log.texts = log.fromFirstMidnight := by
  obtain ⟨entries, hreads, hclose⟩ := log
  rw [ClockLog.texts, ClockLog.fromFirstMidnight]
  dsimp only
  induction entries with
  | nil => rfl
  | cons e rest ih =>
    obtain ⟨text, instant⟩ := e
    rw [List.forall_mem_cons] at hreads
    obtain ⟨hread, hreads⟩ := hreads
    rw [List.map_cons, List.map_cons, absoluteMs]
    cases instant with
    | none =>
      rw [absMs_of_none hread, ih hreads hclose]
      rfl
    | some t =>
      -- the first instant, of which the clock is all that is read
      rw [absMs_clock hread]
      have hsync : Synced 0 t t ⟨0, some (t % dayMs)⟩ := ⟨le_rfl, rfl, rfl⟩
      have hrest := absoluteMs_synced rest hsync hreads hclose
      have hnone : midnights none [t % dayMs] = 0 := rfl
      dsimp only
      rw [hnone, Nat.zero_add, hrest, Nat.zero_mul, Nat.zero_add, Nat.mod_eq_sub_div_mul]
      rfl

/-- Both count the true instants in milliseconds from the midnight of the first day on. -/
theorem absolute_ms_stitched (log : ClockLog) :
    absoluteMsFrom 0 none log.texts = log.fromFirstMidnight ∧
      absoluteMs {} log.texts = log.fromFirstMidnight := by
  constructor
  · rw [← absoluteMs_instants, absoluteMs_eq_from]
  · exact absoluteMs_instants log

example : absoluteMsFrom 0 none ["23:59:59.900", "--", "00:00:00.100"] =
    [some 86399900, none, some 86400100] := by decide +kernel

end HplcWorkbench.ListenerLog
