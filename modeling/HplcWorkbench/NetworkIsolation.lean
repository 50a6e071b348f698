import HplcWorkbench.CaptureStamps
import Mathlib.Data.Finset.Max

/-!
# The isolation of networks

A network is assessed from its own frames, but two streams with the same frames of a network can
stamp these whole days apart. Of an entry only the starts of the buckets show such a shift: gaps,
counts and details do not change with it.
-/

namespace HplcWorkbench.ListenerLog

open OrderedDict

/-! ## Shifted accumulators -/

/-- The accumulator with all its times later. -/
def NetworkAccumulator.shift (acc : NetworkAccumulator) (δ : ℕ) : NetworkAccumulator :=
  { acc with
    timeline := acc.timeline.map fun e => (e.1 + δ, e.2)
    beaconSamples := acc.beaconSamples.map fun e => (e.1 + δ, e.2)
    sofTimes := acc.sofTimes.map (· + δ) }

section Shift
variable {Verdict : Type} (rating : Rating Verdict) (acc : NetworkAccumulator) (δ : ℕ)

theorem countFrame_shift (absMs : Option ℕ) (frm : String) :
    (acc.shift δ).countFrame (absMs.map (· + δ)) frm = (acc.countFrame absMs frm).shift δ := by
  cases absMs with
  | none => rfl
  | some ms =>
      simp only [NetworkAccumulator.countFrame, NetworkAccumulator.shift, Option.map_some,
        List.map_append, List.map_singleton]
      split <;> simp

theorem addDetail_shift (detail : String) :
    (acc.shift δ).addDetail rating detail = (acc.addDetail rating detail).shift δ := by
  unfold NetworkAccumulator.addDetail
  split <;> rfl

theorem addBeacon_shift (absMs : Option ℕ) (frame : Option DecodedFrame) (detail : String) :
    (acc.shift δ).addBeacon rating (absMs.map (· + δ)) frame detail =
      (acc.addBeacon rating absMs frame detail).shift δ := by
  cases frame with
  | none => rfl
  | some frame =>
      cases absMs with
      | none => rfl
      | some ms =>
          simp only [NetworkAccumulator.addBeacon, Option.map_some]
          cases extractBeaconFields frame with
          | none => rfl
          | some fields => simp [NetworkAccumulator.shift]

theorem collect_shift (item : StreamItem) (absMs : Option ℕ) :
    item.collect rating (absMs.map (· + δ)) (acc.shift δ) = (item.collect rating absMs acc).shift δ := by
  have hcounted : (if item.detailOnly then acc.shift δ
      else (acc.shift δ).countFrame (absMs.map (· + δ)) item.frm) =
        (if item.detailOnly then acc else acc.countFrame absMs item.frm).shift δ := by
    split
    · rfl
    · exact countFrame_shift _ _ _ _
  unfold StreamItem.collect
  dsimp only
  rw [hcounted, addDetail_shift]
  split
  · exact addBeacon_shift _ _ _ _ _ _
  · rfl

theorem gather_shift (acc : Option NetworkAccumulator) (entries : List (StreamItem × Option ℕ)) :
    gather rating (acc.map fun a => a.shift δ) (entries.map fun e => (e.1, e.2.map (· + δ))) =
      (gather rating acc entries).map fun a => a.shift δ := by
  induction entries generalizing acc with
  | nil => rfl
  | cons e rest ih =>
      rw [List.map_cons, gather, List.foldl_cons, gather, List.foldl_cons, ← gather, ← gather, ← ih]
      refine congrArg (gather rating · _) ?_
      have hnone : (acc.map fun a => a.shift δ).getD {} = (acc.getD {}).shift δ := by cases acc <;> rfl
      rw [Option.map_some, hnone, collect_shift]

/-! ## What does not show a shift -/

theorem interArrivalGaps_shift (prev : Option (ℕ × Option ℕ)) (samples : List (ℕ × Option ℕ)) :
    interArrivalGaps (prev.map fun e => (e.1 + δ, e.2)) (samples.map fun e => (e.1 + δ, e.2)) =
      interArrivalGaps prev samples := by
  induction samples generalizing prev with
  | nil => rfl
  | cons e rest ih =>
      obtain ⟨ms, key⟩ := e
      have hnext := ih (some (ms, key))
      rw [Option.map_some] at hnext
      cases prev with
      | none => exact hnext
      | some p =>
          obtain ⟨prevMs, prevKey⟩ := p
          have hstay := ih (some (prevMs, prevKey))
          rw [Option.map_some] at hstay
          have hwindow : ms + δ < prevMs + δ + 800 ↔ ms < prevMs + 800 := by omega
          have hgap : ms + δ - (prevMs + δ) = ms - prevMs := by omega
          simp only [List.map_cons, Option.map_some, interArrivalGaps, hwindow, hgap, hstay, hnext,
            Nat.add_lt_add_iff_right]

theorem firstSamples_shift (known : List ℕ) (samples : List (ℕ × ℕ)) :
    firstSamples known (samples.map fun e => (e.1 + δ, e.2)) =
      (firstSamples known samples).map fun e => (e.1 + δ, e.2) := by
  induction samples generalizing known with
  | nil => rfl
  | cons e rest ih =>
      rw [List.map_cons, firstSamples, firstSamples]
      split
      · exact ih known
      · rw [List.map_cons, ih]

/-- The period that is found does not depend on the day. -/
theorem scan_shift : (acc.shift δ).scan rating = acc.scan rating := by
  have hsamples : (acc.shift δ).beaconSamples.insertionSort (fun a b => a.1 ≤ b.1) =
      (acc.beaconSamples.insertionSort fun a b => a.1 ≤ b.1).map fun e => (e.1 + δ, e.2) :=
    (List.map_insertionSort (fun a b : ℕ × ℕ => a.1 ≤ b.1) (fun a b : ℕ × ℕ => a.1 ≤ b.1) _ _
      fun a _ b _ => (Nat.add_le_add_iff_right).symm).symm
  have htimes : (acc.shift δ).sofTimes.insertionSort (· ≤ ·) =
      (acc.sofTimes.insertionSort (· ≤ ·)).map (· + δ) :=
    (List.map_insertionSort (· ≤ ·) (· ≤ ·) _ _ fun a _ b _ =>
      (Nat.add_le_add_iff_right).symm).symm
  have hparams : (acc.shift δ).beaconParams = acc.beaconParams := rfl
  have hbeacons : ∀ samples : List (ℕ × ℕ),
      interArrivalGaps none ((samples.map fun e => (e.1 + δ, e.2)).map fun s => (s.1, some s.2)) =
        interArrivalGaps none (samples.map fun s => (s.1, some s.2)) := by
    intro samples
    have h := interArrivalGaps_shift δ none (samples.map fun s => (s.1, some s.2))
    rw [List.map_map] at h ⊢
    exact h
  have hsof : ∀ times : List ℕ,
      interArrivalGaps none ((times.map (· + δ)).map fun t => (t, none)) =
        interArrivalGaps none (times.map fun t => (t, none)) := by
    intro times
    have h := interArrivalGaps_shift δ none (times.map fun t => (t, none))
    rw [List.map_map] at h ⊢
    exact h
  unfold NetworkAccumulator.scan
  simp only [hparams, hsamples, htimes, firstSamples_shift, hbeacons, hsof, List.length_map]

end Shift

/-! ## What shows a shift -/

/-- The buckets that a rating is given. -/
def RatingInput.starts (input : RatingInput) : List ℤ := input.buckets.entries.map Prod.fst

/-- What is documented of the rating: a period that is estimated is between one and ten seconds, and
a verdict on a network with a period lists a cycle for each bucket. -/
structure Rating.Documented {Verdict : Type} (rating : Rating Verdict) : Prop where
  period : ∀ gaps p confidence, rating.estimatePeriod gaps = some (p, confidence) →
    1000 ≤ p ∧ p ≤ 10000
  cycles : ∀ a b : RatingInput, a.beaconPeriodMs ≠ none → b.beaconPeriodMs ≠ none →
    rating.verdict a = rating.verdict b → ∀ start, start ∈ a.starts ↔ start ∈ b.starts

section Period
variable {Verdict : Type} {rating : Rating Verdict}

/-- A period that is found is at most two minutes. -/
theorem scan_period (h : ∀ gaps p confidence, rating.estimatePeriod gaps = some (p, confidence) →
    1000 ≤ p ∧ p ≤ 10000) {acc : NetworkAccumulator} {p : ℕ}
    (hp : (acc.scan rating).beaconPeriodMs = some p) : 0 < p ∧ p ≤ 120000 := by
  unfold NetworkAccumulator.scan at hp
  dsimp only at hp
  split at hp
  · rename_i hparam
    cases hp
    obtain ⟨-, hrange⟩ := Option.filter_eq_some_iff.mp hparam
    rw [decide_eq_true_eq] at hrange
    omega
  · split at hp
    · rename_i heq
      cases hp
      have hrange := h _ _ _ heq
      omega
    · split at hp
      · rename_i heq
        cases hp
        have hrange := h _ _ _ heq
        omega
      · cases hp

end Period

/-- The start of the bucket of a time. -/
def bucketStart (period ms : ℕ) : ℤ := ↑(ms - ms % period)

theorem mem_bucketCounters {period : ℕ} (acc : NetworkAccumulator) (start : ℤ) :
    start ∈ (acc.bucketCounters period).entries.map Prod.fst ↔
      ∃ e ∈ acc.timeline, start = bucketStart period e.1 := by
  have hfold : ∀ (timeline : List (ℕ × String)) (buckets : Buckets),
      start ∈ (timeline.foldl (fun buckets entry =>
        let start : ℤ := ↑(entry.1 - entry.1 % period)
        buckets.set start (addCount ((buckets.get? start).getD .empty) entry.2 1)) buckets).entries.map
          Prod.fst ↔
        start ∈ buckets.entries.map Prod.fst ∨ ∃ e ∈ timeline, start = bucketStart period e.1 := by
    intro timeline
    induction timeline with
    | nil => simp
    | cons e rest ih =>
        intro buckets
        rw [List.foldl_cons, ih, List.exists_mem_cons_iff, ← or_assoc]
        refine or_congr_left ?_
        rw [← not_iff_not, ← Dict.get?_eq_none_iff, not_or, ← Dict.get?_eq_none_iff]
        by_cases h : start = bucketStart period e.1
        · simp [h, bucketStart, Dict.get?_set_self]
        · rw [bucketStart] at h
          rw [bucketStart]
          dsimp only
          rw [Dict.get?_set_of_ne _ _ _ _ h]
          simp [h]
  rw [NetworkAccumulator.bucketCounters, hfold]
  simp [Dict.empty]

/-- Buckets some days apart do not start together. -/
theorem bucketStart_shift {period δ δ' : ℕ} (hpos : 0 < period) (hlate : δ + period ≤ δ')
    {timeline : List (ℕ × String)} (hne : timeline ≠ []) :
    ∃ e ∈ timeline, ∀ e' ∈ timeline, bucketStart period (e.1 + δ) ≠ bucketStart period (e'.1 + δ') := by
  obtain ⟨e, he, hmin⟩ : ∃ e ∈ timeline, ∀ e' ∈ timeline, e.1 ≤ e'.1 := by
    obtain ⟨e, he, hmin⟩ :=
      Finset.exists_min_image timeline.toFinset Prod.fst (List.toFinset_nonempty_iff _ |>.mpr hne)
    exact ⟨e, List.mem_toFinset.mp he, fun e' he' => hmin e' (List.mem_toFinset.mpr he')⟩
  refine ⟨e, he, fun e' he' heq => ?_⟩
  have hle := hmin e' he'
  have hmod := Nat.mod_lt (e'.1 + δ') hpos
  rw [bucketStart, bucketStart, Nat.cast_inj] at heq
  omega

/-! ## Entries of two runs -/

/-- The entry of a network in a run over a capture. -/
def Capture.entry {Verdict : Type} (rating : Rating Verdict) (records : List AssessmentRecord)
    (durationMs x : ℕ) (nidFilter : Option ℕ) (c : Capture) : Option (Network Verdict) :=
  (assessByNetworkItems rating c.rows records (some durationMs) nidFilter none none).entry x

/-- With the filter and without it, and in another stream with the same items of the network, its
entry is the same. -/
def Isolated {Verdict : Type} (rating : Rating Verdict) (records : List AssessmentRecord)
    (durationMs x : ℕ) (c c' : Capture) : Prop :=
  c.entry rating records durationMs x (some x) = c.entry rating records durationMs x none ∧
    c'.entry rating records durationMs x none = c.entry rating records durationMs x none

/-- The stream without all other networks. -/
def Capture.only (c : Capture) (x : ℕ) : Capture where
  items := c.ofNetwork x
  clocks e he := c.clocks e (List.mem_of_mem_filter he)
  chronological := c.chronological.sublist List.filter_sublist

/-- The beacon period that is found in the items of a network alone. -/
def Capture.foundPeriod {Verdict : Type} (rating : Rating Verdict) (c : Capture) (x : ℕ) : Option ℕ :=
  (((c.only x).rows.foldl (streamItem rating none) {}).accs.get? x).bind fun acc =>
    (acc.scan rating).beaconPeriodMs

/-- No frame of the network has a clock that can be read. -/
def Capture.Untimed (c : Capture) (x : ℕ) : Prop :=
  ∀ e ∈ c.ofNetwork x, e.1.timed → e.1.detailOnly

/-- As many midnights are noticed in front of the network with the filter as without it, and in the
other stream. -/
def EqualDays (x : ℕ) (c c' : Capture) : Prop :=
  c.daysNoticed (some x) x = c.daysNoticed none x ∧ c'.daysNoticed none x = c.daysNoticed none x

section Entries
variable {Verdict : Type} {rating : Rating Verdict} {x : ℕ} {c c' : Capture}

/-- The accumulator of a network with its times as on the first day of a calendar. -/
def Capture.onFirstDay (rating : Rating Verdict) (c : Capture) (x : ℕ) : Option NetworkAccumulator :=
  gather rating none (((c.ofNetwork x).filter fun e => e.1.logTime ≠ "").map
    (stampOf (firstInstant x c.items) 0))

theorem gather_seen (hclose : c.Close x) {nidFilter : Option ℕ}
    (hfilter : nidFilter.any (x ≠ ·) = false) :
    gather rating none (seen nidFilter x {} c.rows) =
      (c.onFirstDay rating x).map fun acc => acc.shift (c.daysNoticed nidFilter x * dayMs) := by
  rw [Capture.seen_eq hclose hfilter, Capture.onFirstDay, ← gather_shift, Option.map_none,
    List.map_map]
  refine congrArg (gather rating none) (List.map_congr_left fun e _ => ?_)
  simp [stampOf, Function.comp_def]

/-- The entry of an accumulator. -/
def networkOf (rating : Rating Verdict) (records : List AssessmentRecord) (durationMs x : ℕ)
    (acc : NetworkAccumulator) : Network Verdict :=
  finalizeNetwork rating records (some durationMs) (fun _ acc period => acc.bucketCounters period) x acc

theorem entry_eq (hclose : c.Close x) {nidFilter : Option ℕ}
    (hfilter : nidFilter.any (x ≠ ·) = false) (records : List AssessmentRecord) (durationMs : ℕ) :
    c.entry rating records durationMs x nidFilter =
      (c.onFirstDay rating x).map fun acc =>
        networkOf rating records durationMs x (acc.shift (c.daysNoticed nidFilter x * dayMs)) := by
  rw [Capture.entry, entry_assessByNetworkItems, gather_seen hclose hfilter, Option.map_map]
  rfl

theorem networkOf_shift_of_empty {records : List AssessmentRecord} {durationMs : ℕ}
    {acc : NetworkAccumulator} (hempty : acc.timeline = []) (δ δ' : ℕ) :
    networkOf rating records durationMs x (acc.shift δ) =
      networkOf rating records durationMs x (acc.shift δ') := by
  have hbuckets : ∀ δ period, (acc.shift δ).bucketCounters period = .empty := by
    intro δ period
    simp [NetworkAccumulator.bucketCounters, NetworkAccumulator.shift, hempty]
  simp only [networkOf, finalizeNetwork, scan_shift, hbuckets]
  rfl

theorem networkOf_shift_of_none {records : List AssessmentRecord} {durationMs : ℕ}
    {acc : NetworkAccumulator} (hnone : (acc.scan rating).beaconPeriodMs = none) (δ δ' : ℕ) :
    networkOf rating records durationMs x (acc.shift δ) =
      networkOf rating records durationMs x (acc.shift δ') := by
  simp only [networkOf, finalizeNetwork, scan_shift, hnone]
  rfl

/-- Entries a number of days apart are the same exactly when nothing shows the days. -/
theorem networkOf_shift_iff (h : rating.Documented) (records : List AssessmentRecord)
    (durationMs x : ℕ) (acc : NetworkAccumulator) (d d' : ℕ) :
    networkOf rating records durationMs x (acc.shift (d * dayMs)) =
        networkOf rating records durationMs x (acc.shift (d' * dayMs)) ↔
      (acc.timeline = [] ∨ (acc.scan rating).beaconPeriodMs = none) ∨ d = d' := by
  have hscan : ∀ δ, (acc.shift δ).scan rating = acc.scan rating := scan_shift rating acc
  constructor
  · intro heq
    by_contra hcon
    obtain ⟨⟨hne, hfound⟩, hd⟩ : (acc.timeline ≠ [] ∧ (acc.scan rating).beaconPeriodMs ≠ none) ∧
        d ≠ d' := by
      simpa only [not_or] using hcon
    obtain ⟨p, hp⟩ := Option.ne_none_iff_exists'.mp hfound
    obtain ⟨hpos, hle⟩ := scan_period h.period hp
    have hverdict := congrArg Network.verdict heq
    have hstarts := h.cycles _ _ (by simpa [hscan] using hfound) (by simpa [hscan] using hfound) hverdict
    simp only [RatingInput.starts, hscan, hp, mem_bucketCounters] at hstarts
    -- the earlier of the two runs has a bucket in front of all buckets of the other one
    have hapart : ∀ {d d' : ℕ}, d < d' →
        ¬ ∀ start, (∃ e ∈ (acc.shift (d * dayMs)).timeline, start = bucketStart p e.1) →
          ∃ e ∈ (acc.shift (d' * dayMs)).timeline, start = bucketStart p e.1 := by
      intro d d' hlt hall
      have hlate : d * dayMs + p ≤ d' * dayMs := by
        have hscaled := Nat.mul_le_mul_right dayMs (Nat.succ_le_of_lt hlt)
        rw [Nat.succ_mul] at hscaled
        rw [dayMs] at hscaled ⊢
        omega
      obtain ⟨e, he, happart⟩ := bucketStart_shift hpos hlate hne
      obtain ⟨e', he', hstart⟩ := hall _ ⟨(e.1 + d * dayMs, e.2), List.mem_map_of_mem he, rfl⟩
      obtain ⟨e'', he'', rfl⟩ := List.mem_map.mp he'
      exact happart e'' he'' hstart
    obtain hlt | hlt := Nat.lt_or_gt_of_ne hd
    · exact hapart hlt fun start => (hstarts start).mp
    · exact hapart hlt fun start => (hstarts start).mpr
  · rintro ((hempty | hnone) | rfl)
    · exact networkOf_shift_of_empty hempty _ _
    · exact networkOf_shift_of_none hnone _ _
    · rfl

theorem countFrame_timeline (acc : NetworkAccumulator) (absMs : Option ℕ) (frm : String) :
    (acc.countFrame absMs frm).timeline = acc.timeline ++ absMs.toList.map fun ms => (ms, frm) := by
  cases absMs with
  | none => simp [NetworkAccumulator.countFrame]
  | some ms => rfl

@[simp] theorem addDetail_timeline (acc : NetworkAccumulator) (detail : String) :
    (acc.addDetail rating detail).timeline = acc.timeline := by
  rw [NetworkAccumulator.addDetail]
  split <;> rfl

@[simp] theorem addBeacon_timeline (acc : NetworkAccumulator) (absMs : Option ℕ)
    (frame : Option DecodedFrame) (detail : String) :
    (acc.addBeacon rating absMs frame detail).timeline = acc.timeline := by
  unfold NetworkAccumulator.addBeacon
  dsimp only
  split
  · split <;> rfl
  · rfl

theorem collect_timeline (item : StreamItem) (absMs : Option ℕ) (acc : NetworkAccumulator) :
    (item.collect rating absMs acc).timeline =
      acc.timeline ++ if item.detailOnly then [] else absMs.toList.map fun ms => (ms, item.frm) := by
  unfold StreamItem.collect
  dsimp only
  cases hd : item.detailOnly
  · split <;> simp [countFrame_timeline]
  · split <;> simp

theorem gather_some (acc : NetworkAccumulator) (entries : List (StreamItem × Option ℕ)) :
    ∃ acc', gather rating (some acc) entries = some acc' ∧
      (acc'.timeline = [] ↔ acc.timeline = [] ∧ ∀ e ∈ entries, e.2 ≠ none → e.1.detailOnly) := by
  induction entries generalizing acc with
  | nil => exact ⟨acc, rfl, by simp⟩
  | cons e rest ih =>
      obtain ⟨acc', hacc, htimeline⟩ := ih (e.1.collect rating e.2 acc)
      refine ⟨acc', hacc, htimeline.trans ?_⟩
      rw [collect_timeline, List.append_eq_nil_iff, List.forall_mem_cons, and_assoc]
      refine and_congr_right fun _ => and_congr_left fun _ => ?_
      cases hd : e.1.detailOnly <;> cases e.2 <;> simp

/-- The timeline on the first day is empty where no frame has a clock. -/
theorem timeline_onFirstDay {acc : NetworkAccumulator} (h : c.onFirstDay rating x = some acc) :
    acc.timeline = [] ↔ c.Untimed x := by
  rw [Capture.onFirstDay] at h
  have hstamp : ∀ e : StreamItem × ℕ, (stampOf (firstInstant x c.items) 0 e).2 ≠ none ↔ e.1.timed := by
    intro e
    rw [stampOf, StreamItem.timed]
    cases parseTimeMs e.1.logTime <;> simp
  have hread : ∀ e : StreamItem × ℕ, e.1.timed → e.1.logTime ≠ "" := by
    intro e htimed hempty
    have hnone : parseTimeMs "" = none := by decide
    rw [StreamItem.timed, hempty, hnone] at htimed
    exact absurd htimed Bool.false_ne_true
  obtain ⟨acc', hacc, htimeline⟩ := @gather_some Verdict rating {}
    (((c.ofNetwork x).filter fun e => e.1.logTime ≠ "").map (stampOf (firstInstant x c.items) 0))
  have hsame : acc' = acc := by
    cases hlist : ((c.ofNetwork x).filter fun e => e.1.logTime ≠ "").map
        (stampOf (firstInstant x c.items) 0) with
    | nil =>
        rw [hlist] at h
        cases h
    | cons e rest =>
        rw [hlist] at h hacc
        exact Option.some.inj (hacc.symm.trans h)
  rw [← hsame, htimeline, Capture.Untimed]
  simp only [List.forall_mem_map, hstamp, List.mem_filter, decide_eq_true_eq]
  constructor
  · rintro ⟨-, hall⟩ e he htimed
    exact hall e ⟨he, hread e htimed⟩ htimed
  · intro hall
    exact ⟨trivial, fun e he => hall e he.1⟩

theorem untimed_of_onFirstDay_none (h : c.onFirstDay rating x = none) : c.Untimed x := by
  rw [Capture.onFirstDay] at h
  intro e he htimed
  by_cases hempty : e.1.logTime = ""
  · have hnone : parseTimeMs "" = none := by decide
    rw [StreamItem.timed, hempty, hnone] at htimed
    exact absurd htimed Bool.false_ne_true
  · cases hlist : ((c.ofNetwork x).filter fun e => e.1.logTime ≠ "").map
        (stampOf (firstInstant x c.items) 0) with
    | nil =>
        have hmem : e ∈ (c.ofNetwork x).filter fun e => e.1.logTime ≠ "" := by
          simp [he, hempty]
        rw [List.map_eq_nil_iff.mp hlist] at hmem
        exact absurd hmem List.not_mem_nil
    | cons f rest =>
        rw [hlist] at h
        obtain ⟨acc', hacc, -⟩ := @gather_some Verdict rating (f.1.collect rating f.2 {}) rest
        exact absurd (hacc.symm.trans h) (by simp)

theorem ofNetwork_only : (c.only x).ofNetwork x = c.ofNetwork x := by
  simp only [Capture.ofNetwork, Capture.only, List.filter_filter, Bool.and_self]

/-- What is gathered on the first day depends on the items of the network only. -/
theorem onFirstDay_congr (hsame : c'.ofNetwork x = c.ofNetwork x) :
    c'.onFirstDay rating x = c.onFirstDay rating x := by
  have hfirst : firstInstant x c'.items = firstInstant x c.items := by
    rw [firstInstant, ownTimed, firstInstant, ownTimed]
    exact congrArg (fun l => ((List.filter (fun e => e.1.timed) l).head?.map Prod.snd).getD 0) hsame
  rw [Capture.onFirstDay, hfirst, hsame, Capture.onFirstDay]

theorem foundPeriod_eq (hclose : c.Close x) :
    c.foundPeriod rating x =
      (c.onFirstDay rating x).bind fun acc => (acc.scan rating).beaconPeriodMs := by
  have hclose' : (c.only x).Close x := by
    rw [Capture.Close, ofNetwork_only]
    exact hclose
  rw [Capture.foundPeriod, foldl_streamItem_get?]
  refine (congrArg (Option.bind · _) (@gather_seen Verdict rating x _ hclose' none rfl)).trans ?_
  rw [onFirstDay_congr ofNetwork_only, Option.bind_map]
  refine congrArg _ (funext fun acc => ?_)
  rw [Function.comp_apply, scan_shift]

end Entries

/-! ## A network behind midnight -/

/-- A rating that reads one detail text and lists the cycles. -/
def slotRating : Rating (List ℤ) where
  extractSlotFields detail :=
    if detail = "时隙分配[信标周期2000ms 信标时隙长度16ms RF信标时隙长度16ms CSMA时隙大小500ms]" then
      some ⟨2000, 16, 16, 500⟩
    else none
  extractRouteFields _ := none
  extractChannelFields _ := none
  estimatePeriod _ := none
  verdict input := if input.beaconPeriodMs = none then [] else input.starts
  overallHealth _ := .healthy

theorem documented_slotRating : slotRating.Documented where
  period _ _ _ h := nomatch h
  cycles a b ha hb h start := by
    change (if a.beaconPeriodMs = none then [] else a.starts) =
      (if b.beaconPeriodMs = none then [] else b.starts) at h
    rw [if_neg ha, if_neg hb] at h
    rw [h]

/-- A frame of network 1 and then a central beacon of network 2. -/
def twoNetworks (t u : ℕ) (h : t ≤ u) : Capture where
  items :=
    [({ logTime := clockText t, rawHex := "", summary := none, column := some 1 }, t),
      ({ logTime := clockText u
         rawHex := ""
         summary := some [("FrmType", .str "中央信标"), ("Detail", .str
           "时隙分配[信标周期2000ms 信标时隙长度16ms RF信标时隙长度16ms CSMA时隙大小500ms]")]
         column := some 2 }, u)]
  clocks e he clock hclock := by
    have hread : parseTimeMs e.1.logTime = some (e.2 % dayMs) := by
      simp only [List.mem_cons, List.not_mem_nil, or_false] at he
      obtain rfl | rfl := he <;> exact parseTimeMs_clockText _
    rw [hread] at hclock
    exact (Option.some.inj hclock).symm
  chronological := by simp [h]

theorem ofNetwork_twoNetworks (t t' u : ℕ) (h : t ≤ u) (h' : t' ≤ u) :
    (twoNetworks t u h).ofNetwork 2 = (twoNetworks t' u h').ofNetwork 2 := by
  simp [Capture.ofNetwork, twoNetworks, StreamItem.nid]

theorem close_twoNetworks (t u : ℕ) (h : t ≤ u) : (twoNetworks t u h).Close 2 := by
  have hone : (((twoNetworks t u h).ofNetwork 2).filter fun e => e.1.timed).length ≤ 1 :=
    List.length_filter_le _ _
  rw [Capture.Close]
  revert hone
  cases ((twoNetworks t u h).ofNetwork 2).filter fun e => e.1.timed with
  | nil => exact fun _ => .nil
  | cons e rest =>
      cases rest with
      | nil => exact fun _ => .singleton _
      | cons f more => exact fun hone => absurd hone (by simp)

end HplcWorkbench.ListenerLog
