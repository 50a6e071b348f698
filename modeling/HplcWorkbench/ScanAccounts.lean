import HplcWorkbench.ScanRuns
import HplcWorkbench.SequenceOrder

/-!
# What a scan finds

A scan accounts for its lines: an event is about one line or about a sequence that was under way at the
end, and the lines without an event are counted. It finds for a rule what a scan with that rule alone
finds. Where no rule follows a sequence, lines that are scanned one at a time give the same events.
-/

namespace HplcWorkbench.ScanEngine

open LogHooks OrderedDict SlicedFolds

/-! ## The account of a scan -/

/-- What a drift is told apart by. -/
def Event.driftKey (e : Event) : Option (String × ℤ × ℤ) := e.drift.map fun d => (e.ruleId, d.2, d.1)

def DriftInfo.key (d : DriftInfo) : String × ℤ × ℤ := (d.ruleId, d.expectedLine, d.actualLine)

/-- The hits and the drifts are those of the events, each once. -/
structure Engine.Tidy (engine : Engine) : Prop where
  hits : ∀ id, id ∈ engine.hitRuleIds ↔ ∃ e ∈ engine.events, e.ruleId = id
  hitsOnce : engine.hitRuleIds.Nodup
  keys : ∀ k, k ∈ engine.driftKeys ↔ ∃ e ∈ engine.events, e.driftKey = some k
  keysOnce : engine.driftKeys.Nodup
  drifts : engine.drifts.map DriftInfo.key = engine.driftKeys

/-- Events that rules give for a line are added to the engine, and the flag tells whether there are any. -/
structure Adds (rules : List ScanRule) (line : ScanLine) (s s' : Engine × Bool) (evs : List Event) :
    Prop where
  events : s'.1.events = s.1.events ++ evs
  flag : s'.2 = (s.2 || !evs.isEmpty)
  origin : ∀ e ∈ evs, e.ruleId ∈ rules.map ScanRule.id ∧ e.source = line.source ∧
    e.sourceLine = line.raw ∧ e.sourceLineIdx = line.idx
  counts : s'.1.unmatchedLines = s.1.unmatchedLines ∧ s'.1.totalLines = s.1.totalLines
  tidy : s.1.Tidy → s'.1.Tidy

section Account
variable {py : ScanPython} {source : String} {line : ScanLine} {lines : List ScanLine}
  {rules : List ScanRule} {rule : ScanRule} {engine engine' : Engine} {s s' t : Engine × Bool}
  {evs evs' : List Event}

theorem nodup_addTo {set : List String} {x : String} (h : set.Nodup) : (addTo set x).Nodup := by
  rw [addTo]
  split_ifs with hin
  · exact h
  · refine List.nodup_append.mpr ⟨h, List.nodup_singleton x, ?_⟩
    intro a ha b hb
    rw [List.mem_singleton.mp hb]
    exact fun heq => hin (heq ▸ ha)

theorem Engine.Tidy.keep (h : engine.Tidy) {y : MatchDef × Event} (hy : y.2.ruleId = rule.id) :
    (engine.keep rule y).Tidy := by
  have hplain : ∀ k, (∃ e ∈ engine.events ++ [y.2], e.driftKey = some k) ↔
      k ∈ engine.driftKeys ∨ y.2.driftKey = some k := by
    intro k
    rw [h.keys]
    simp [or_and_right, exists_or]
  have hhits : ∀ id, id ∈ addTo engine.hitRuleIds rule.id ↔
      ∃ e ∈ engine.events ++ [y.2], e.ruleId = id := by
    intro id
    rw [mem_addTo, h.hits]
    simp [or_and_right, exists_or, hy, eq_comm]
  rw [Engine.keep]
  cases hdrift : y.2.drift with
  | none =>
      refine ⟨hhits, nodup_addTo h.hitsOnce, ?_, h.keysOnce, h.drifts⟩
      have hkey : y.2.driftKey = none := by
        rw [Event.driftKey, hdrift]
        rfl
      intro k
      refine Iff.trans ?_ (hplain k).symm
      rw [hkey]
      simp
  | some drift =>
      have hkey : y.2.driftKey = some (rule.id, drift.2, drift.1) := by
        rw [Event.driftKey, hdrift, hy]
        rfl
      rw [Option.map_some, Option.getD_some, Engine.addDrift]
      split_ifs with hin
      · refine ⟨hhits, nodup_addTo h.hitsOnce, ?_, h.keysOnce, h.drifts⟩
        intro k
        rw [hplain, hkey]
        refine ⟨Or.inl, ?_⟩
        rintro (hold | hnew)
        · exact hold
        · exact Option.some.inj hnew ▸ hin
      · refine ⟨hhits, nodup_addTo h.hitsOnce, ?_, ?_, ?_⟩
        · intro k
          rw [hplain, hkey, List.mem_append, List.mem_singleton, Option.some.injEq]
          exact or_congr_right eq_comm
        · refine List.nodup_append.mpr ⟨h.keysOnce, List.nodup_singleton _, ?_⟩
          intro a ha b hb
          rw [List.mem_singleton.mp hb]
          exact fun heq => hin (heq ▸ ha)
        · rw [List.map_append, h.drifts]
          rfl

theorem Engine.Tidy.track (h : engine.Tidy) (y : LogHooks.Rule × Fed) :
    (engine.track line rule y).Tidy := by
  rw [Engine.track]
  split_ifs with hnil
  · exact ⟨h.hits, h.hitsOnce, h.keys, h.keysOnce, h.drifts⟩
  · obtain ⟨first, hfirst⟩ := List.exists_mem_of_ne_nil _ hnil
    have hnone : ∀ e ∈ trackedEvents line rule y.2, e.driftKey = none := by
      intro e he
      obtain ⟨se, -, rfl⟩ := List.mem_map.mp he
      rfl
    refine ⟨?_, nodup_addTo h.hitsOnce, ?_, h.keysOnce, h.drifts⟩
    · intro id
      rw [mem_addTo, h.hits]
      constructor
      · rintro (⟨e, he, hid⟩ | rfl)
        · exact ⟨e, List.mem_append_left _ he, hid⟩
        · exact ⟨_, List.mem_append_right _ (List.mem_map_of_mem hfirst), rfl⟩
      · rintro ⟨e, he, hid⟩
        rcases List.mem_append.mp he with hold | hnew
        · exact Or.inl ⟨e, hold, hid⟩
        · exact Or.inr (hid.symm.trans (ruleId_tracked hnew).1)
    · intro k
      rw [h.keys]
      constructor
      · rintro ⟨e, he, hkey⟩
        exact ⟨e, List.mem_append_left _ he, hkey⟩
      · rintro ⟨e, he, hkey⟩
        rcases List.mem_append.mp he with hold | hnew
        · exact ⟨e, hold, hkey⟩
        · cases (hnone e hnew).symm.trans hkey

theorem Adds.refl (s : Engine × Bool) : Adds rules line s s [] where
  events := (List.append_nil _).symm
  flag := (Bool.or_false _).symm
  origin := fun _ he => absurd he List.not_mem_nil
  counts := ⟨rfl, rfl⟩
  tidy := id

theorem Adds.trans (h : Adds rules line s t evs) (h' : Adds rules line t s' evs') :
    Adds rules line s s' (evs ++ evs') where
  events := by rw [h'.events, h.events, List.append_assoc]
  flag := by
    rw [h'.flag, h.flag, Bool.or_assoc]
    cases evs <;> simp
  origin := by
    intro e he
    rcases List.mem_append.mp he with hfirst | hsecond
    · exact h.origin e hfirst
    · exact h'.origin e hsecond
  counts := ⟨h'.counts.1.trans h.counts.1, h'.counts.2.trans h.counts.2⟩
  tidy := fun htidy => h'.tidy (h.tidy htidy)

theorem events_keep {y : MatchDef × Event} :
    (engine.keep rule y).events = engine.events ++ [y.2] := by
  rw [Engine.keep]
  cases y.2.drift with
  | none => rfl
  | some drift =>
      rw [Option.map_some, Option.getD_some, Engine.addDrift]
      split_ifs <;> rfl

theorem counts_keep {y : MatchDef × Event} :
    (engine.keep rule y).unmatchedLines = engine.unmatchedLines ∧
      (engine.keep rule y).totalLines = engine.totalLines := by
  rw [Engine.keep]
  cases y.2.drift with
  | none => exact ⟨rfl, rfl⟩
  | some drift =>
      rw [Option.map_some, Option.getD_some, Engine.addDrift]
      split_ifs <;> exact ⟨rfl, rfl⟩

theorem events_track {y : LogHooks.Rule × Fed} :
    (engine.track line rule y).events = engine.events ++ trackedEvents line rule y.2 := by
  rw [Engine.track]
  split_ifs with hnil
  · rw [trackedEvents, hnil]
    exact (List.append_nil _).symm
  · rfl

theorem counts_track {y : LogHooks.Rule × Fed} :
    (engine.track line rule y).unmatchedLines = engine.unmatchedLines ∧
      (engine.track line rule y).totalLines = engine.totalLines := by
  rw [Engine.track]
  split_ifs <;> exact ⟨rfl, rfl⟩

theorem adds_feedMatch (hrule : rule ∈ rules) (h : feedMatch py source line s rule = .ok s') :
    ∃ evs, Adds rules line s s' evs := by
  rw [feedMatch_eq] at h
  cases hyield : matchYield py source line rule with
  | error e =>
      rw [hyield] at h
      cases h
  | ok y =>
      rw [hyield] at h
      cases y with
      | none =>
          cases h
          exact ⟨[], .refl s⟩
      | some y =>
          cases h
          obtain ⟨hid, horigin⟩ := yield_event hyield
          refine ⟨[y.2], ?_, (Bool.or_true _).symm, ?_, ?_, fun htidy => htidy.keep hid⟩
          · exact events_keep
          · intro e he
            rw [List.mem_singleton.mp he]
            exact ⟨hid ▸ List.mem_map_of_mem hrule, horigin⟩
          · exact counts_keep

theorem adds_feedTracker (hrule : rule ∈ rules) (h : feedTracker py line s rule = .ok s') :
    ∃ evs, Adds rules line s s' evs := by
  rw [feedTracker_eq] at h
  cases hyield : trackerYield py line (s.1.seqTrackers.get? rule.id) with
  | error e =>
      rw [hyield] at h
      cases h
  | ok y =>
      rw [hyield] at h
      cases h
      refine ⟨trackedEvents line rule y.2, events_track, ?_, ?_, counts_track,
        fun htidy => htidy.track y⟩
      · rw [trackedEvents, List.isEmpty_map, Bool.or_comm]
      · intro e he
        exact ⟨(ruleId_tracked he).1 ▸ List.mem_map_of_mem hrule, (ruleId_tracked he).2⟩

theorem adds_rules {f : Engine × Bool → ScanRule → PyM (Engine × Bool)} {l : List ScanRule}
    (hf : ∀ rule ∈ l, ∀ s s', f s rule = .ok s' → ∃ evs, Adds rules line s s' evs)
    (h : l.foldlM f s = .ok s') : ∃ evs, Adds rules line s s' evs := by
  induction l generalizing s with
  | nil =>
      obtain rfl := Except.ok.inj h
      exact ⟨[], .refl s⟩
  | cons rule l ih =>
      obtain ⟨t, ht, hrest⟩ := foldlM_cons_ok.mp h
      obtain ⟨evs, hevs⟩ := hf rule List.mem_cons_self s t ht
      obtain ⟨evs', hevs'⟩ := ih (fun r hr => hf r (List.mem_cons_of_mem _ hr)) hrest
      exact ⟨evs ++ evs', hevs.trans hevs'⟩

/-- The events of a line: none where it is of another source. -/
structure OfLine (rules : List ScanRule) (source : String) (line : ScanLine) (evs : List Event) :
    Prop where
  foreign : line.source ≠ source → evs = []
  origin : ∀ e ∈ evs, e.ruleId ∈ rules.map ScanRule.id ∧ e.source = line.source ∧
    e.sourceLine = line.raw ∧ e.sourceLineIdx = line.idx

/-- A line of the source without an event. -/
def vain (source : String) (p : ScanLine × List Event) : Bool :=
  decide (p.1.source = source) && p.2.isEmpty

theorem feedLine_adds (h : feedLine py rules source engine line = .ok engine') :
    ∃ evs, OfLine rules source line evs ∧ engine'.events = engine.events ++ evs ∧
      engine'.unmatchedLines = engine.unmatchedLines + (vain source (line, evs)).toNat ∧
      engine'.totalLines = engine.totalLines + 1 ∧ (engine.Tidy → engine'.Tidy) := by
  rw [feedLine] at h
  dsimp only at h
  split_ifs at h with hother
  · obtain rfl := Except.ok.inj h
    refine ⟨[], ⟨fun _ => rfl, fun _ he => absurd he List.not_mem_nil⟩, (List.append_nil _).symm, ?_,
      rfl, fun htidy => ⟨htidy.hits, htidy.hitsOnce, htidy.keys, htidy.keysOnce, htidy.drifts⟩⟩
    rw [vain, decide_eq_false hother]
    rfl
  · obtain ⟨matched, hmatched, h⟩ := bind_eq_ok h
    obtain ⟨tracked, htracked, h⟩ := bind_eq_ok h
    have hfirst : ∃ evs, Adds rules line ({ engine with totalLines := engine.totalLines + 1 }, false)
        matched evs :=
      adds_rules (fun _ hrule _ _ hfeed => adds_feedMatch (List.mem_of_mem_filter hrule) hfeed) hmatched
    have hsecond : ∃ evs, Adds rules line matched tracked evs :=
      adds_rules (fun _ hrule _ _ hfeed => adds_feedTracker (List.mem_of_mem_filter hrule) hfeed)
        htracked
    obtain ⟨evs, hevs⟩ := hfirst
    obtain ⟨evs', hevs'⟩ := hsecond
    have hall := hevs.trans hevs'
    have hown : line.source = source := not_not.mp hother
    obtain rfl := Except.ok.inj h
    refine ⟨evs ++ evs', ⟨fun hne => absurd hown hne, hall.origin⟩, ?_, ?_, ?_, ?_⟩
    · split_ifs <;> exact hall.events
    · rw [vain, decide_eq_true hown, Bool.true_and]
      have hflag := hall.flag
      rw [Bool.false_or] at hflag
      cases hempty : (evs ++ evs').isEmpty with
      | true =>
          rw [hempty] at hflag
          rw [if_neg (by rw [hflag]; exact Bool.false_ne_true)]
          exact congrArg (· + 1) hall.counts.1
      | false =>
          have htrue : tracked.2 = true := hflag.trans (congrArg _ hempty)
          rw [if_pos htrue]
          exact hall.counts.1
    · split_ifs <;> exact hall.counts.2
    · intro htidy
      have hend := hall.tidy
        ⟨htidy.hits, htidy.hitsOnce, htidy.keys, htidy.keysOnce, htidy.drifts⟩
      split_ifs
      · exact hend
      · exact ⟨hend.hits, hend.hitsOnce, hend.keys, hend.keysOnce, hend.drifts⟩

theorem feeds_add (h : lines.foldlM (feedLine py rules source) engine = .ok engine') :
    ∃ fed, List.Forall₂ (OfLine rules source) lines fed ∧
      engine'.events = engine.events ++ fed.flatten ∧
      engine'.unmatchedLines = engine.unmatchedLines + (lines.zip fed).countP (vain source) ∧
      engine'.totalLines = engine.totalLines + lines.length ∧ (engine.Tidy → engine'.Tidy) := by
  induction lines generalizing engine with
  | nil =>
      obtain rfl := Except.ok.inj h
      exact ⟨[], .nil, (List.append_nil _).symm, rfl, rfl, id⟩
  | cons line lines ih =>
      obtain ⟨next, hnext, hrest⟩ := foldlM_cons_ok.mp h
      obtain ⟨evs, hline, hevents, hunmatched, htotal, htidy⟩ := feedLine_adds hnext
      obtain ⟨fed, hlines, hevents', hunmatched', htotal', htidy'⟩ := ih hrest
      refine ⟨evs :: fed, .cons hline hlines, ?_, ?_, ?_, fun h => htidy' (htidy h)⟩
      · rw [hevents', hevents, List.flatten_cons, List.append_assoc]
      · rw [hunmatched', hunmatched, List.zip_cons_cons, List.countP_cons]
        cases vain source (line, evs) <;> simp [Nat.add_assoc, Nat.add_comm]
      · rw [htotal', htotal, List.length_cons]
        omega

theorem ruleId_of_lines {fed : List (List Event)} (h : List.Forall₂ (OfLine rules source) lines fed)
    {e : Event} (he : e ∈ fed.flatten) : e.ruleId ∈ rules.map ScanRule.id := by
  induction h with
  | nil => cases he
  | cons hline _ ih =>
      rcases List.mem_append.mp he with hfirst | hrest
      · exact (hline.origin e hfirst).1
      · exact ih hrest

theorem mem_flushEvents {trackers : Dict String (LogHooks.Rule × Machines)} {e : Event}
    (he : e ∈ flushEvents rules source trackers) :
    e.sourceLine = "" ∧ e.sourceLineIdx = none ∧
      ∃ rule ∈ rules, rule.sequence.isSome = true ∧ e.ruleId = rule.id := by
  obtain ⟨entry, -, hin⟩ := List.mem_flatMap.mp he
  cases hfind : (seqRules rules).find? fun r => r.id = entry.1 with
  | none =>
      rw [hfind] at hin
      cases hin
  | some rule =>
      rw [hfind] at hin
      obtain ⟨se, -, rfl⟩ := List.mem_map.mp hin
      obtain ⟨hmem, hsome⟩ := List.mem_filter.mp (List.mem_of_find?_eq_some hfind)
      exact ⟨rfl, rfl, rule, hmem, hsome, rfl⟩

theorem tidy_start (rules : List ScanRule) : (start rules).Tidy where
  hits := fun _ => iff_of_false List.not_mem_nil (fun h => by
    obtain ⟨e, he, -⟩ := h
    cases he)
  hitsOnce := List.nodup_nil
  keys := fun _ => iff_of_false List.not_mem_nil (fun h => by
    obtain ⟨e, he, -⟩ := h
    cases he)
  keysOnce := List.nodup_nil
  drifts := rfl

/-- A scan accounts for its lines: its events are those of the lines in their order and then those of
the sequences under way at the end; it counts the lines of its source without an event, and names each
rule that an event of a line is from and each drift of one once. -/
theorem scan_accounts {result : ScanResult} (h : runScan py lines rules source = .ok result) :
    ∃ (fed : List (List Event)) (late : List Event),
      List.Forall₂ (OfLine rules source) lines fed ∧
      (∀ e ∈ late, e.sourceLine = "" ∧ e.sourceLineIdx = none ∧
        ∃ rule ∈ rules, rule.sequence.isSome = true ∧ e.ruleId = rule.id) ∧
      result.events = fed.flatten ++ late ∧
      result.totalLines = lines.length ∧
      result.unmatched = (lines.zip fed).countP (vain source) ∧
      result.hitRuleIds.Nodup ∧ result.hitRuleIds.Pairwise (· ≤ ·) ∧
      (∀ id, id ∈ result.hitRuleIds ↔ ∃ e ∈ fed.flatten, e.ruleId = id) ∧
      (result.drifts.map DriftInfo.key).Nodup ∧
      ∀ k, k ∈ result.drifts.map DriftInfo.key ↔ ∃ e ∈ fed.flatten, e.driftKey = some k := by
  rw [runScan] at h
  cases hrun : lines.foldlM (feedLine py rules source) (start rules) with
  | error e =>
      rw [hrun] at h
      cases h
  | ok engine =>
      rw [hrun] at h
      obtain rfl := Except.ok.inj h
      obtain ⟨fed, hlines, hevents, hunmatched, htotal, htidy⟩ := feeds_add hrun
      have hend := htidy (tidy_start rules)
      have hfed : engine.events = fed.flatten := hevents
      have hperm : (finalize rules source engine).hitRuleIds.Perm engine.hitRuleIds :=
        List.perm_insertionSort _ _
      refine ⟨fed, flushEvents rules source engine.seqTrackers, hlines,
        fun e he => mem_flushEvents he, ?_, ?_, ?_, hperm.nodup_iff.mpr hend.hitsOnce,
        List.pairwise_insertionSort _ _, ?_, ?_, ?_⟩
      · rw [finalize, hfed]
      · rw [finalize, htotal]
        exact Nat.zero_add _
      · rw [finalize, hunmatched]
        exact Nat.zero_add _
      · intro id
        rw [hperm.mem_iff, hend.hits, hfed]
      · rw [finalize, hend.drifts]
        exact hend.keysOnce
      · intro k
        rw [finalize, hend.drifts, hend.keys, hfed]

end Account

/-! ## A rule in a scan and on its own -/

section Isolation
variable {py : ScanPython} {source : String} {lines : List ScanLine} {rules : List ScanRule}
  {r : ScanRule}

theorem find_alone (hr : Unshared rules r) :
    (seqRules rules).find? (fun x => x.id = r.id) = (seqRules [r]).find? fun x => x.id = r.id := by
  have hhead : ∀ l : List ScanRule, l.find? (fun x => x.id = r.id) =
      (l.filter fun x => x.id = r.id).head? := by
    intro l
    rw [List.head?_filter]
  have hself : Unshared [r] r := by
    rw [Unshared, List.filter_cons_of_pos (by simp)]
    rfl
  rw [hhead, hhead, seqRules_alone hr, seqRules_alone hself]

/-- The events of a tracker that is given up. -/
def flushOf (rules : List ScanRule) (source : String) (e : String × LogHooks.Rule × Machines) :
    List Event :=
  ((seqRules rules).find? fun x => x.id = e.1).elim [] fun rule =>
    (flushed e.2).map (sequenceEvent rule.category source "" none rule.id)

theorem flushEvents_eq (trackers : Dict String (LogHooks.Rule × Machines)) :
    flushEvents rules source trackers = trackers.entries.flatMap (flushOf rules source) := by
  refine List.flatMap_congr fun e _ => ?_
  rw [flushOf]
  cases (seqRules rules).find? fun x => x.id = e.1 <;> rfl

theorem filter_flushOf (id : String) (e : String × LogHooks.Rule × Machines) :
    (flushOf rules source e).filter (fun x => x.ruleId = id) =
      if e.1 = id then flushOf rules source e else [] := by
  have hids : ∀ x ∈ flushOf rules source e, x.ruleId = e.1 := by
    intro x hx
    rw [flushOf] at hx
    cases hfind : (seqRules rules).find? fun x => x.id = e.1 with
    | none =>
        rw [hfind] at hx
        cases hx
    | some rule =>
        rw [hfind] at hx
        obtain ⟨se, -, rfl⟩ := List.mem_map.mp hx
        have hid := List.find?_some hfind
        exact of_decide_eq_true hid
  split_ifs with hid
  · refine List.filter_eq_self.mpr fun x hx => ?_
    rw [hids x hx, hid, decide_eq_true rfl]
  · refine List.filter_eq_nil_iff.mpr fun x hx => ?_
    rw [hids x hx, decide_eq_true_iff]
    exact hid

/-- The events of an identifier among those of the trackers that are given up. -/
theorem filter_flushEvents (id : String) (trackers : Dict String (LogHooks.Rule × Machines)) :
    (flushEvents rules source trackers).filter (fun e => e.ruleId = id) =
      ((trackers.get? id).toList.map fun tracker => (id, tracker)).flatMap (flushOf rules source) := by
  rw [flushEvents_eq, List.filter_flatMap, ← trackers.filter_key id]
  induction trackers.entries with
  | nil => rfl
  | cons e entries ih =>
      rw [List.flatMap_cons, ih, filter_flushOf]
      by_cases hid : e.1 = id
      · rw [if_pos hid, List.filter_cons_of_pos (by simpa using hid), List.flatMap_cons]
      · rw [if_neg hid, List.filter_cons_of_neg (by simpa using hid)]
        rfl

theorem flushOf_alone (hr : Unshared rules r) (tracker : LogHooks.Rule × Machines) :
    flushOf rules source (r.id, tracker) = flushOf [r] source (r.id, tracker) := by
  rw [flushOf, flushOf, find_alone hr]

/-- A scan with one rule has its events and drifts only. -/
theorem filter_self {engine : Engine}
    (h : lines.foldlM (feedLine py [r] source) (start [r]) = .ok engine) :
    (finalize [r] source engine).events.filter (fun e => e.ruleId = r.id) =
        (finalize [r] source engine).events ∧
      engine.drifts.filter (fun d => d.ruleId = r.id) = engine.drifts := by
  obtain ⟨fed, hlines, hevents, -, -, htidy⟩ := feeds_add h
  have hend := htidy (tidy_start [r])
  have hfed : ∀ e ∈ engine.events, e.ruleId = r.id := by
    intro e he
    rw [hevents] at he
    exact List.mem_singleton.mp (ruleId_of_lines hlines he)
  constructor
  · refine List.filter_eq_self.mpr fun e he => ?_
    rw [decide_eq_true_iff]
    rcases List.mem_append.mp he with hline | hlate
    · exact hfed e hline
    · obtain ⟨-, -, rule, hrule, -, hid⟩ := mem_flushEvents hlate
      rw [hid, List.mem_singleton.mp hrule]
  · refine List.filter_eq_self.mpr fun d hd => ?_
    have hkey : d.key ∈ engine.driftKeys := hend.drifts ▸ List.mem_map_of_mem hd
    obtain ⟨e, he, hdrift⟩ := (hend.keys _).mp hkey
    obtain ⟨drift, -, hsame⟩ := Option.map_eq_some_iff.mp hdrift
    rw [decide_eq_true_iff]
    exact (congrArg Prod.fst hsame).symm.trans (hfed e he)

/-- What a scan finds for a rule is what a scan with that rule alone finds. -/
theorem rule_isolated {result : ScanResult} (hr : Unshared rules r)
    (h : runScan py lines rules source = .ok result) :
    ∃ alone, runScan py lines [r] source = .ok alone ∧
      result.events.filter (fun e => e.ruleId = r.id) = alone.events ∧
      (r.id ∈ result.hitRuleIds ↔ r.id ∈ alone.hitRuleIds) ∧
      result.drifts.filter (fun d => d.ruleId = r.id) = alone.drifts := by
  rw [runScan] at h
  cases hrun : lines.foldlM (feedLine py rules source) (start rules) with
  | error e =>
      rw [hrun] at h
      cases h
  | ok engine =>
      rw [hrun] at h
      obtain rfl := Except.ok.inj h
      obtain ⟨other, hother, hview⟩ := feeds_alone hr (start_alone hr) hrun
      obtain ⟨hself, hdrifts⟩ := filter_self hother
      simp only [Engine.about, View.mk.injEq, decide_eq_decide] at hview
      obtain ⟨hevents, hhit, hdriftsView, -, htracker⟩ := hview
      have hperm : ∀ (rules : List ScanRule) (e : Engine),
          (finalize rules source e).hitRuleIds.Perm e.hitRuleIds :=
        fun _ _ => List.perm_insertionSort _ _
      refine ⟨finalize [r] source other, ?_, ?_, ?_, ?_⟩
      · rw [runScan, hother]
        rfl
      · rw [← hself, finalize, finalize, List.filter_append, List.filter_append, hevents,
          filter_flushEvents, filter_flushEvents, htracker]
        cases engine.seqTrackers.get? r.id with
        | none => rfl
        | some tracker => simp [flushOf_alone hr]
      · rw [(hperm _ _).mem_iff, (hperm _ _).mem_iff]
        exact hhit.symm
      · rw [finalize, finalize, ← hdriftsView]
        exact hdrifts

/-- A scan returns exactly if the scan with each of its rules does. -/
theorem scan_returns (hids : (rules.map ScanRule.id).Nodup) :
    (∃ result, runScan py lines rules source = .ok result) ↔
      ∀ r ∈ rules, ∃ alone, runScan py lines [r] source = .ok alone := by
  have hreturns : ∀ rules : List ScanRule, (∃ result, runScan py lines rules source = .ok result) ↔
      ∃ engine, lines.foldlM (feedLine py rules source) (start rules) = .ok engine := by
    intro rules
    rw [runScan]
    cases lines.foldlM (feedLine py rules source) (start rules) with
    | error e =>
        refine iff_of_false ?_ ?_
        · rintro ⟨result, h⟩
          cases h
        · rintro ⟨engine, h⟩
          cases h
    | ok engine => exact iff_of_true ⟨_, rfl⟩ ⟨_, rfl⟩
  simp only [hreturns]
  constructor
  · rintro ⟨engine, hengine⟩ r hr
    have hunshared := unshared_of_nodup hids hr
    obtain ⟨other, hother, -⟩ := feeds_alone hunshared (start_alone hunshared) hengine
    exact ⟨other, hother⟩
  · intro halone
    refine feeds_assemble hids fun r hr => ?_
    obtain ⟨other, hother⟩ := halone r hr
    exact ⟨start [r], other, (start_alone (unshared_of_nodup hids hr)).symm, hother⟩

end Isolation

/-! ## One line at a time -/

section ByLine
variable {py : ScanPython} {source : String} {line : ScanLine} {lines : List ScanLine}
  {rules : List ScanRule} {engine engine' : Engine}

/-- Two engines have been given the same events since they held `first` and `second`. -/
def Alike (first second : List Event) (s t : Engine × Bool) : Prop :=
  ∃ evs, s.1.events = first ++ evs ∧ t.1.events = second ++ evs ∧ s.2 = t.2

theorem alike_feedMatch {first second : List Event} {rule : ScanRule} {s s' t : Engine × Bool}
    (h : Alike first second s t) (hfeed : feedMatch py source line s rule = .ok s') :
    ∃ t', feedMatch py source line t rule = .ok t' ∧ Alike first second s' t' := by
  obtain ⟨evs, hs, ht, hflag⟩ := h
  rw [feedMatch_eq] at hfeed ⊢
  cases hyield : matchYield py source line rule with
  | error e =>
      rw [hyield] at hfeed
      cases hfeed
  | ok y =>
      rw [hyield] at hfeed
      cases y with
      | none =>
          cases hfeed
          exact ⟨t, rfl, evs, hs, ht, hflag⟩
      | some y =>
          cases hfeed
          refine ⟨(t.1.keep rule y, true), rfl, evs ++ [y.2], ?_, ?_, rfl⟩
          · exact (events_keep.trans (congrArg (· ++ [y.2]) hs)).trans (List.append_assoc _ _ _)
          · exact (events_keep.trans (congrArg (· ++ [y.2]) ht)).trans (List.append_assoc _ _ _)

/-- Where no rule has a sequence a line gives the same whatever came before it. -/
theorem feedLine_any (hseq : seqRules rules = [])
    (h : feedLine py rules source engine line = .ok engine') (other : Engine) :
    ∃ other' evs, feedLine py rules source other line = .ok other' ∧
      engine'.events = engine.events ++ evs ∧ other'.events = other.events ++ evs := by
  rw [feedLine, hseq] at h ⊢
  dsimp only at h ⊢
  split_ifs at h ⊢ with hother
  · obtain rfl := Except.ok.inj h
    exact ⟨_, [], rfl, (List.append_nil _).symm, (List.append_nil _).symm⟩
  · obtain ⟨matched, hmatched, h⟩ := bind_eq_ok h
    obtain ⟨tracked, htracked, h⟩ := bind_eq_ok h
    obtain rfl := Except.ok.inj htracked
    have hstart : Alike engine.events other.events
        ({ engine with totalLines := engine.totalLines + 1 }, false)
        ({ other with totalLines := other.totalLines + 1 }, false) :=
      ⟨[], (List.append_nil _).symm, (List.append_nil _).symm, rfl⟩
    have hstep : ∀ rule ∈ matchRules rules, ∀ s s' t, Alike engine.events other.events s t →
        feedMatch py source line s rule = .ok s' →
          ∃ t', feedMatch py source line t rule = .ok t' ∧ Alike engine.events other.events s' t' :=
      fun _ _ _ _ _ halike hfeed => alike_feedMatch halike hfeed
    obtain ⟨m, hm, evs, hevents, hevents', -⟩ := foldlM_simulate hstep hstart hmatched
    obtain rfl := Except.ok.inj h
    refine ⟨closeLine m, evs, ?_, ?_, ?_⟩
    · rw [hm]
      rfl
    · split_ifs <;> exact hevents
    · rw [closeLine]
      split_ifs <;> exact hevents'

theorem runScan_one {one : ScanResult} :
    runScan py [line] rules source = .ok one ↔
      ∃ engine', feedLine py rules source (start rules) line = .ok engine' ∧
        one = finalize rules source engine' := by
  rw [runScan]
  constructor
  · intro h
    cases hrun : [line].foldlM (feedLine py rules source) (start rules) with
    | error e =>
        rw [hrun] at h
        cases h
    | ok engine' =>
        rw [hrun] at h
        obtain ⟨next, hnext, hend⟩ := foldlM_cons_ok.mp hrun
        obtain rfl := Except.ok.inj hend
        exact ⟨next, hnext, (Except.ok.inj h).symm⟩
  · rintro ⟨engine', hfeed, rfl⟩
    rw [foldlM_cons_ok.mpr ⟨engine', hfeed, rfl⟩]
    rfl

theorem events_finalize (hseq : seqRules rules = []) (engine : Engine) :
    (finalize rules source engine).events = engine.events := by
  have hnone : flushEvents rules source engine.seqTrackers = [] := by
    rw [flushEvents, hseq]
    exact List.flatMap_eq_nil_iff.mpr fun _ _ => rfl
  rw [finalize, hnone, List.append_nil]

theorem feeds_by_line (hseq : seqRules rules = []) {ones : List ScanResult}
    (hones : List.Forall₂ (fun line one => runScan py [line] rules source = .ok one) lines ones)
    (engine : Engine) :
    ∃ engine', lines.foldlM (feedLine py rules source) engine = .ok engine' ∧
      engine'.events = engine.events ++ ones.flatMap ScanResult.events := by
  induction hones generalizing engine with
  | nil => exact ⟨engine, rfl, (List.append_nil _).symm⟩
  | cons hone _ ih =>
      obtain ⟨single, hsingle, rfl⟩ := runScan_one.mp hone
      obtain ⟨next, evs, hnext, hown, hevents⟩ := feedLine_any hseq hsingle engine
      obtain ⟨last, hlast, hrest⟩ := ih next
      refine ⟨last, foldlM_cons_ok.mpr ⟨next, hnext, hlast⟩, ?_⟩
      have hsame : (finalize rules source single).events = evs := by
        rw [events_finalize hseq, hown]
        rfl
      rw [hrest, hevents, List.flatMap_cons, hsame, List.append_assoc]

theorem exists_ones (hall : ∀ line ∈ lines, ∃ one, runScan py [line] rules source = .ok one) :
    ∃ ones, List.Forall₂ (fun line one => runScan py [line] rules source = .ok one) lines ones := by
  induction lines with
  | nil => exact ⟨[], .nil⟩
  | cons line lines ih =>
      obtain ⟨one, hone⟩ := hall line List.mem_cons_self
      obtain ⟨ones, hones⟩ := ih fun l hl => hall l (List.mem_cons_of_mem _ hl)
      exact ⟨one :: ones, .cons hone hones⟩

/-- Where no rule has a sequence, a scan finds what scans of its lines one at a time find. -/
theorem scan_by_line (hmatch : ∀ r ∈ rules, r.sequence = none) (lines : List ScanLine) :
    ((∃ result, runScan py lines rules source = .ok result) ↔
        ∀ line ∈ lines, ∃ one, runScan py [line] rules source = .ok one) ∧
      ∀ result ones, runScan py lines rules source = .ok result →
        List.Forall₂ (fun line one => runScan py [line] rules source = .ok one) lines ones →
          result.events = ones.flatMap ScanResult.events := by
  have hseq : seqRules rules = [] := by
    refine List.filter_eq_nil_iff.mpr fun r hr => ?_
    rw [hmatch r hr]
    exact Bool.false_ne_true
  refine ⟨⟨?_, ?_⟩, ?_⟩
  · rintro ⟨result, h⟩ line hline
    rw [runScan] at h
    cases hrun : lines.foldlM (feedLine py rules source) (start rules) with
    | error e =>
        rw [hrun] at h
        cases h
    | ok engine =>
        obtain ⟨t, t', ht⟩ := step_of_foldlM hrun hline
        obtain ⟨single, -, hsingle, -⟩ := feedLine_any hseq ht (start rules)
        exact ⟨_, runScan_one.mpr ⟨single, hsingle, rfl⟩⟩
  · intro hall
    obtain ⟨ones, hones⟩ := exists_ones hall
    obtain ⟨engine', hrun, -⟩ := feeds_by_line hseq hones (start rules)
    exact ⟨finalize rules source engine', by rw [runScan, hrun]; rfl⟩
  · intro result ones h hones
    obtain ⟨engine', hrun, hevents⟩ := feeds_by_line hseq hones (start rules)
    rw [runScan, hrun] at h
    obtain rfl := Except.ok.inj h
    rw [events_finalize hseq, hevents]
    rfl

/-- What is written line by line as the lines come is what a scan of the lines finds, where the rules
that look at lines follow no sequence. -/
theorem processed_lines {module : String} {result : ScanResult}
    (hmatch : ∀ r ∈ rules, r.matchDef.isSome = true → r.sequence = none)
    (h : runScan py lines (momentRules module rules) "module_log" = .ok result) :
    lines.flatMap (processOne py module rules) = result.events := by
  have hplain : ∀ r ∈ momentRules module rules, r.sequence = none := by
    intro r hr
    obtain ⟨hmem, hkept⟩ := List.mem_filter.mp hr
    simp only [Bool.and_eq_true] at hkept
    exact hmatch r hmem hkept.1.1
  obtain ⟨ones, hones⟩ := exists_ones ((scan_by_line hplain lines).1.mp ⟨result, h⟩)
  rw [(scan_by_line hplain lines).2 result ones h hones]
  clear h
  induction hones with
  | nil => rfl
  | cons hone _ ih =>
      rw [List.flatMap_cons, List.flatMap_cons, ih, processOne, hone]

end ByLine

/-! ## A scan of two rules -/

section Instance

/-- Patterns that are plain text. -/
def plainScan : ScanPython where
  toPython := plainText
  searchFlags pattern _ text :=
    pure (if Batch.inText pattern text then some ⟨pattern, []⟩ else none)
  searchField expected actual := Batch.inText expected actual
  formatValues template _ := .ok template

def beaconRule : ScanRule where
  id := "beacon"
  category := "link"
  matchDef := some { mode := .text, pattern := some "beacon" }

def flowRule : ScanRule where
  id := "join"
  category := "join"
  sequence := some joinSteps

def beaconLine : ScanLine where
  source := "module_log"
  raw := "beacon"
  text := some "beacon"

def flowLine : ScanLine where
  source := "module_log"
  raw := "disc done"
  time := some "20260811-19:14:59:000"
  text := some "disc done"

def joinedLine : ScanLine where
  source := "module_log"
  raw := "assoc"
  time := some "20260811-19:15:00:000"
  text := some "assoc"

/-- A beacon while a station joins. -/
def fewLines : List ScanLine := [flowLine, beaconLine, joinedLine]

theorem exists_of_isOk {α : Type} {x : PyM α} (h : x.isOk = true) : ∃ a, x = .ok a := by
  cases x with
  | error e => cases h
  | ok a => exact ⟨a, rfl⟩

theorem fewLines_scan : ∃ result,
    runScan plainScan fewLines [beaconRule, flowRule] "module_log" = .ok result :=
  exists_of_isOk (by decide +kernel)

theorem unshared_flowRule : Unshared [beaconRule, flowRule] flowRule := rfl

theorem rule_isolated_join : ∃ result alone,
    runScan plainScan fewLines [beaconRule, flowRule] "module_log" = .ok result ∧
      runScan plainScan fewLines [flowRule] "module_log" = .ok alone ∧
      result.events.filter (fun e => e.ruleId = flowRule.id) = alone.events ∧
      (flowRule.id ∈ result.hitRuleIds ↔ flowRule.id ∈ alone.hitRuleIds) ∧
      result.drifts.filter (fun d => d.ruleId = flowRule.id) = alone.drifts := by
  obtain ⟨result, h⟩ := fewLines_scan
  obtain ⟨alone, halone, hfound⟩ := rule_isolated unshared_flowRule h
  exact ⟨result, alone, h, halone, hfound⟩

theorem scan_returns_join :
    (∃ result, runScan plainScan fewLines [beaconRule, flowRule] "module_log" = .ok result) ↔
      ∀ r ∈ [beaconRule, flowRule], ∃ alone,
        runScan plainScan fewLines [r] "module_log" = .ok alone :=
  scan_returns (by decide)

theorem scan_accounts_join : ∃ (result : ScanResult) (fed : List (List Event)) (late : List Event),
    List.Forall₂ (OfLine [beaconRule, flowRule] "module_log") fewLines fed ∧
      (∀ e ∈ late, e.sourceLine = "" ∧ e.sourceLineIdx = none ∧
        ∃ rule ∈ [beaconRule, flowRule], rule.sequence.isSome = true ∧ e.ruleId = rule.id) ∧
      result.events = fed.flatten ++ late ∧
      result.totalLines = fewLines.length ∧
      result.unmatched = (fewLines.zip fed).countP (vain "module_log") ∧
      result.hitRuleIds.Nodup ∧ result.hitRuleIds.Pairwise (· ≤ ·) ∧
      (∀ id, id ∈ result.hitRuleIds ↔ ∃ e ∈ fed.flatten, e.ruleId = id) ∧
      (result.drifts.map DriftInfo.key).Nodup ∧
      ∀ k, k ∈ result.drifts.map DriftInfo.key ↔ ∃ e ∈ fed.flatten, e.driftKey = some k := by
  obtain ⟨result, h⟩ := fewLines_scan
  exact ⟨result, scan_accounts h⟩

theorem processed_lines_beacon : ∃ result,
    runScan plainScan fewLines (momentRules "cco" [beaconRule, flowRule]) "module_log" = .ok result ∧
      fewLines.flatMap (processOne plainScan "cco" [beaconRule, flowRule]) = result.events := by
  obtain ⟨result, h⟩ : ∃ result, runScan plainScan fewLines
      (momentRules "cco" [beaconRule, flowRule]) "module_log" = .ok result :=
    exists_of_isOk (by decide +kernel)
  refine ⟨result, h, processed_lines ?_ h⟩
  intro r hr hmatch
  rcases List.mem_cons.mp hr with rfl | hr
  · rfl
  · rw [List.mem_singleton.mp hr] at hmatch
    cases hmatch

end Instance

end HplcWorkbench.ScanEngine
