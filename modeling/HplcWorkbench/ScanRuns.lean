import HplcWorkbench.KeyedFolds
import HplcWorkbench.ScanEngine
import HplcWorkbench.SlicedFolds

/-!
# A rule among the rules of a scan

What the engine holds about a rule is changed by that rule only, and from the line and what it holds
about the rule. So the lines do to it what they do with the rule alone, and they go through exactly where
they do for each rule.
-/

namespace HplcWorkbench.ScanEngine

open LogHooks OrderedDict SlicedFolds

/-! ## What is held about a rule -/

/-- What an engine holds about the rules of one identifier. -/
structure View where
  events : List Event
  hit : Bool
  drifts : List DriftInfo
  driftKeys : List (String × ℤ × ℤ)
  tracker : Option (LogHooks.Rule × Machines)

def Engine.about (id : String) (engine : Engine) : View where
  events := engine.events.filter fun e => e.ruleId = id
  hit := id ∈ engine.hitRuleIds
  drifts := engine.drifts.filter fun d => d.ruleId = id
  driftKeys := engine.driftKeys.filter fun k => k.1 = id
  tracker := engine.seqTrackers.get? id

section Steps
variable {py : ScanPython} {source id : String} {line : ScanLine} {rule : ScanRule}
  {s s' t : Engine × Bool} {engine other : Engine}

/-- What a rule yields for a line: the event, and the condition that it met. -/
def matchYield (py : ScanPython) (source : String) (line : ScanLine) (rule : ScanRule) :
    PyM (Option (MatchDef × Event)) :=
  match rule.matchDef with
  | none => pure none
  | some matchDef =>
    match rule.source with
    | [] => throw .indexError
    | first :: _ =>
      if first ≠ source then pure none
      else do
        match ← matchLine py line matchDef with
        | none => pure none
        | some result =>
          let captures ← applyCapture line matchDef.mode result rule.capture
          let message ← formatTemplate py (rule.event.message.getD "") captures
          pure (some (matchDef, matchEvent rule line result message captures))

/-- What the engine keeps of it. -/
def Engine.keep (engine : Engine) (rule : ScanRule) (y : MatchDef × Event) : Engine :=
  let engine := { engine with
    hitRuleIds := addTo engine.hitRuleIds rule.id
    events := engine.events ++ [y.2] }
  (y.2.drift.map (engine.addDrift rule y.1)).getD engine

theorem feedMatch_eq : feedMatch py source line s rule =
    (fun y => y.elim s fun y => (s.1.keep rule y, true)) <$> matchYield py source line rule := by
  rw [feedMatch, matchYield]
  cases rule.matchDef with
  | none => rfl
  | some matchDef =>
      cases rule.source with
      | nil => rfl
      | cons first rest =>
          dsimp only
          split_ifs
          · rfl
          · cases matchLine py line matchDef with
            | error e => rfl
            | ok found =>
                cases found with
                | none => rfl
                | some result =>
                    simp only [bind, Except.bind]
                    cases applyCapture line matchDef.mode result rule.capture with
                    | error e => rfl
                    | ok captures =>
                        dsimp only
                        cases formatTemplate py (rule.event.message.getD "") captures with
                        | error e => rfl
                        | ok message => rfl

/-- An event carries the identifier of its rule and the text and place of its line. -/
theorem yield_event {y : MatchDef × Event} (h : matchYield py source line rule = .ok (some y)) :
    y.2.ruleId = rule.id ∧ y.2.source = line.source ∧ y.2.sourceLine = line.raw ∧
      y.2.sourceLineIdx = line.idx := by
  rw [matchYield] at h
  cases hmatch : rule.matchDef with
  | none =>
      rw [hmatch] at h
      cases h
  | some matchDef =>
      rw [hmatch] at h
      cases hsource : rule.source with
      | nil =>
          rw [hsource] at h
          cases h
      | cons first rest =>
          rw [hsource] at h
          dsimp only at h
          split_ifs at h with hother
          · cases h
          · obtain ⟨found, -, hfound⟩ := bind_eq_ok h
            cases found with
            | none => cases hfound
            | some result =>
                obtain ⟨captures, -, hcaptures⟩ := bind_eq_ok hfound
                obtain ⟨message, -, hmessage⟩ := bind_eq_ok hcaptures
                cases hmessage
                exact ⟨rfl, rfl, rfl, rfl⟩

theorem mem_addTo {set : List String} {x y : String} : y ∈ addTo set x ↔ y ∈ set ∨ y = x := by
  rw [addTo]
  split_ifs with hin
  · refine ⟨Or.inl, ?_⟩
    rintro (hold | rfl)
    · exact hold
    · exact hin
  · rw [List.mem_append, List.mem_singleton]

/-! ### What is kept -/

theorem about_addDrift_of_ne {matchDef : MatchDef} {drift : ℤ × ℤ} (hne : id ≠ rule.id) :
    (engine.addDrift rule matchDef drift).about id = engine.about id := by
  rw [Engine.addDrift]
  split_ifs
  · rfl
  · simp [Engine.about, List.filter_append, Ne.symm hne]

theorem about_addDrift {matchDef : MatchDef} {drift : ℤ × ℤ}
    (h : engine.about rule.id = other.about rule.id) :
    (engine.addDrift rule matchDef drift).about rule.id =
      (other.addDrift rule matchDef drift).about rule.id := by
  have hkeys : (rule.id, drift.2, drift.1) ∈ engine.driftKeys ↔
      (rule.id, drift.2, drift.1) ∈ other.driftKeys := by
    have hfilter := congrArg View.driftKeys h
    have hmem : ∀ e : Engine, (rule.id, drift.2, drift.1) ∈ e.driftKeys ↔
        (rule.id, drift.2, drift.1) ∈ (e.about rule.id).driftKeys := by
      intro e
      simp [Engine.about]
    rw [hmem engine, hmem other, h]
  rw [Engine.addDrift, Engine.addDrift]
  by_cases hin : (rule.id, drift.2, drift.1) ∈ engine.driftKeys
  · rw [if_pos hin, if_pos (hkeys.mp hin)]
    exact h
  · rw [if_neg hin, if_neg (fun hother => hin (hkeys.mpr hother))]
    simp only [Engine.about, View.mk.injEq, List.filter_append] at h ⊢
    obtain ⟨hevents, hhit, hdrifts, hdriftKeys, htracker⟩ := h
    exact ⟨hevents, hhit, by rw [hdrifts], by rw [hdriftKeys], htracker⟩

theorem about_keep_of_ne {y : MatchDef × Event} (hy : y.2.ruleId = rule.id) (hne : id ≠ rule.id) :
    (engine.keep rule y).about id = engine.about id := by
  have hplain : Engine.about id { engine with
      hitRuleIds := addTo engine.hitRuleIds rule.id
      events := engine.events ++ [y.2] } = engine.about id := by
    simp [Engine.about, List.filter_append, hy, Ne.symm hne, mem_addTo, hne]
  rw [Engine.keep]
  cases y.2.drift with
  | none => exact hplain
  | some drift => exact (about_addDrift_of_ne hne).trans hplain

theorem about_keep {y : MatchDef × Event} (h : engine.about rule.id = other.about rule.id) :
    (engine.keep rule y).about rule.id = (other.keep rule y).about rule.id := by
  have hplain : Engine.about rule.id { engine with
      hitRuleIds := addTo engine.hitRuleIds rule.id
      events := engine.events ++ [y.2] } = Engine.about rule.id { other with
      hitRuleIds := addTo other.hitRuleIds rule.id
      events := other.events ++ [y.2] } := by
    simp only [Engine.about, View.mk.injEq, List.filter_append, mem_addTo, or_true] at h ⊢
    obtain ⟨hevents, -, hdrifts, hdriftKeys, htracker⟩ := h
    exact ⟨by rw [hevents], trivial, hdrifts, hdriftKeys, htracker⟩
  rw [Engine.keep, Engine.keep]
  cases y.2.drift with
  | none => exact hplain
  | some drift => exact about_addDrift hplain

theorem viewed_feedMatch (py : ScanPython) (source : String) (line : ScanLine) :
    Viewed (feedMatch py source line) ScanRule.id fun id s => s.1.about id where
  apart := by
    intro s s' rule id hne h
    rw [feedMatch_eq] at h
    cases hyield : matchYield py source line rule with
    | error e =>
        rw [hyield] at h
        cases h
    | ok y =>
        rw [hyield] at h
        cases y with
        | none =>
            cases h
            rfl
        | some y =>
            cases h
            exact about_keep_of_ne (yield_event hyield).1 hne
  own := by
    intro s s' t rule hview h
    rw [feedMatch_eq] at h ⊢
    cases hyield : matchYield py source line rule with
    | error e =>
        rw [hyield] at h
        cases h
    | ok y =>
        rw [hyield] at h
        cases y with
        | none =>
            cases h
            exact ⟨t, rfl, hview⟩
        | some y =>
            cases h
            exact ⟨(t.1.keep rule y, true), rfl, about_keep hview⟩

/-- What a tracker yields for a line. -/
def trackerYield (py : ScanPython) (line : ScanLine) (tracker : Option (LogHooks.Rule × Machines)) :
    PyM (LogHooks.Rule × Fed) :=
  match tracker with
  | none => throw .indexError
  | some tracker => do
    pure (tracker.1, ← LogHooks.feed py.toPython tracker.1 tracker.2 line.toParsedLine)

/-- The events of a tracker for a line. -/
def trackedEvents (line : ScanLine) (rule : ScanRule) (fed : Fed) : List Event :=
  fed.events.map (sequenceEvent rule.category line.source line.raw line.idx rule.id)

/-- What the engine keeps of them. -/
def Engine.track (engine : Engine) (line : ScanLine) (rule : ScanRule) (y : LogHooks.Rule × Fed) :
    Engine :=
  let engine := { engine with
    seqTrackers := engine.seqTrackers.set rule.id (y.1, y.2.machines) }
  if y.2.events = [] then engine
  else { engine with
    hitRuleIds := addTo engine.hitRuleIds rule.id
    events := engine.events ++ trackedEvents line rule y.2 }

theorem feedTracker_eq : feedTracker py line s rule =
    (fun y => (s.1.track line rule y, !y.2.events.isEmpty || s.2)) <$>
      trackerYield py line (s.1.seqTrackers.get? rule.id) := by
  rw [feedTracker]
  cases s.1.seqTrackers.get? rule.id with
  | none => rfl
  | some tracker =>
      rw [trackerYield]
      dsimp only
      cases LogHooks.feed py.toPython tracker.1 tracker.2 line.toParsedLine with
      | error e => rfl
      | ok fed =>
          change (if fed.events = [] then _ else _) =
            Except.ok (s.1.track line rule (tracker.1, fed), !fed.events.isEmpty || s.2)
          by_cases hnil : fed.events = []
          · rw [if_pos hnil, Engine.track, if_pos hnil, hnil]
            rfl
          · have hsome : (fed.events.isEmpty : Bool) = false := by simpa using hnil
            rw [if_neg hnil, Engine.track, if_neg hnil, hsome]
            rfl

theorem ruleId_tracked {fed : Fed} {e : Event} (he : e ∈ trackedEvents line rule fed) :
    e.ruleId = rule.id ∧ e.source = line.source ∧ e.sourceLine = line.raw ∧
      e.sourceLineIdx = line.idx := by
  obtain ⟨se, -, rfl⟩ := List.mem_map.mp he
  exact ⟨rfl, rfl, rfl, rfl⟩

theorem about_track_of_ne {y : LogHooks.Rule × Fed} (hne : id ≠ rule.id) :
    (engine.track line rule y).about id = engine.about id := by
  have hnone : (trackedEvents line rule y.2).filter (fun e => e.ruleId = id) = [] := by
    refine List.filter_eq_nil_iff.mpr fun e he => ?_
    rw [(ruleId_tracked he).1]
    simpa using Ne.symm hne
  rw [Engine.track]
  split_ifs
  · simp [Engine.about, Dict.get?_set_of_ne _ _ _ _ hne]
  · simp [Engine.about, Dict.get?_set_of_ne _ _ _ _ hne, List.filter_append, hnone, mem_addTo, hne]

theorem about_track {y : LogHooks.Rule × Fed} (h : engine.about rule.id = other.about rule.id) :
    (engine.track line rule y).about rule.id = (other.track line rule y).about rule.id := by
  rw [Engine.track, Engine.track]
  simp only [Engine.about, View.mk.injEq] at h
  obtain ⟨hevents, hhit, hdrifts, hdriftKeys, -⟩ := h
  split_ifs
  · simp only [Engine.about, View.mk.injEq, Dict.get?_set_self, and_true]
    exact ⟨hevents, hhit, hdrifts, hdriftKeys⟩
  · simp only [Engine.about, View.mk.injEq, Dict.get?_set_self, and_true, List.filter_append,
      mem_addTo, or_true, true_and]
    exact ⟨by rw [hevents], hdrifts, hdriftKeys⟩

theorem viewed_feedTracker (py : ScanPython) (line : ScanLine) :
    Viewed (feedTracker py line) ScanRule.id fun id s => s.1.about id where
  apart := by
    intro s s' rule id hne h
    rw [feedTracker_eq] at h
    cases hyield : trackerYield py line (s.1.seqTrackers.get? rule.id) with
    | error e =>
        rw [hyield] at h
        cases h
    | ok y =>
        rw [hyield] at h
        cases h
        exact about_track_of_ne hne
  own := by
    intro s s' t rule hview h
    have htracker : t.1.seqTrackers.get? rule.id = s.1.seqTrackers.get? rule.id :=
      congrArg View.tracker hview
    rw [feedTracker_eq] at h ⊢
    rw [htracker]
    cases hyield : trackerYield py line (s.1.seqTrackers.get? rule.id) with
    | error e =>
        rw [hyield] at h
        cases h
    | ok y =>
        rw [hyield] at h
        cases h
        exact ⟨_, rfl, about_track hview⟩

end Steps

section Alone
variable {py : ScanPython} {source : String} {line : ScanLine} {lines : List ScanLine}
  {rules : List ScanRule} {r : ScanRule} {engine engine' other : Engine}

/-- No other rule has the identifier of the rule. -/
def Unshared (rules : List ScanRule) (r : ScanRule) : Prop :=
  rules.filter (fun x => x.id = r.id) = [r]

theorem filter_alone (h : Unshared rules r) (p : ScanRule → Bool) :
    (rules.filter p).filter (fun x => x.id = r.id) = [r].filter p := by
  rw [← h, List.filter_filter, List.filter_filter]
  exact List.filter_congr fun x _ => Bool.and_comm _ _

theorem matchRules_alone (h : Unshared rules r) :
    (matchRules rules).filter (fun x => x.id = r.id) = matchRules [r] := filter_alone h _

theorem seqRules_alone (h : Unshared rules r) :
    (seqRules rules).filter (fun x => x.id = r.id) = seqRules [r] := filter_alone h _

theorem rules_of_match (h : r.sequence.isNone = true) : matchRules [r] = [r] ∧ seqRules [r] = [] := by
  have hnot : ¬ r.sequence.isSome = true := by
    rw [Option.isNone_iff_eq_none.mp h]
    exact Bool.false_ne_true
  exact ⟨List.filter_cons_of_pos (p := fun r : ScanRule => r.sequence.isNone) h,
    List.filter_cons_of_neg (p := fun r : ScanRule => r.sequence.isSome) hnot⟩

theorem rules_of_sequence (h : r.sequence.isSome = true) :
    matchRules [r] = [] ∧ seqRules [r] = [r] := by
  have hnot : ¬ r.sequence.isNone = true := by
    intro hnone
    rw [Option.isNone_iff_eq_none.mp hnone] at h
    cases h
  exact ⟨List.filter_cons_of_neg (p := fun r : ScanRule => r.sequence.isNone) hnot,
    List.filter_cons_of_pos (p := fun r : ScanRule => r.sequence.isSome) h⟩

theorem nodup_matchRules (hids : (rules.map ScanRule.id).Nodup) :
    ((matchRules rules).map ScanRule.id).Nodup := hids.sublist (List.filter_sublist.map _)

theorem nodup_seqRules (hids : (rules.map ScanRule.id).Nodup) :
    ((seqRules rules).map ScanRule.id).Nodup := hids.sublist (List.filter_sublist.map _)

/-- The end of `feed`. -/
def closeLine (s : Engine × Bool) : Engine :=
  if s.2 then s.1 else { s.1 with unmatchedLines := s.1.unmatchedLines + 1 }

theorem about_closeLine (s : Engine × Bool) {id : String} : (closeLine s).about id = s.1.about id := by
  rw [closeLine]
  split_ifs <;> rfl

/-- A line does to what a rule left what it does with that rule alone. -/
theorem feedLine_alone (hr : Unshared rules r) (hview : other.about r.id = engine.about r.id)
    (h : feedLine py rules source engine line = .ok engine') :
    ∃ other', feedLine py [r] source other line = .ok other' ∧
      other'.about r.id = engine'.about r.id := by
  rw [feedLine] at h ⊢
  dsimp only at h ⊢
  split_ifs at h ⊢ with hother
  · obtain rfl := Except.ok.inj h
    exact ⟨_, rfl, hview⟩
  · obtain ⟨matched, hmatched, h⟩ := bind_eq_ok h
    obtain ⟨tracked, htracked, h⟩ := bind_eq_ok h
    obtain ⟨m, hm, hmview⟩ := (viewed_feedMatch py source line).slice (i := r.id)
      (t := ({ other with totalLines := other.totalLines + 1 }, false)) hview hmatched
    obtain ⟨k, hk, hkview⟩ := (viewed_feedTracker py line).slice hmview htracked
    rw [matchRules_alone hr] at hm
    rw [seqRules_alone hr] at hk
    refine ⟨closeLine k, ?_, ?_⟩
    · rw [hm]
      change ((seqRules [r]).foldlM (feedTracker py line) m >>= fun s => pure (closeLine s)) = _
      rw [hk]
      rfl
    · obtain rfl := Except.ok.inj h
      rw [about_closeLine, hkview]
      exact (about_closeLine tracked).symm

/-- Lines do to what a rule left what they do with that rule alone. -/
theorem feeds_alone (hr : Unshared rules r) (hview : other.about r.id = engine.about r.id)
    (h : lines.foldlM (feedLine py rules source) engine = .ok engine') :
    ∃ other', lines.foldlM (feedLine py [r] source) other = .ok other' ∧
      other'.about r.id = engine'.about r.id :=
  foldlM_simulate (R := fun (engine other : Engine) => other.about r.id = engine.about r.id)
    (fun _ _ _ _ _ hview h => feedLine_alone hr hview h) hview h

theorem unshared_of_nodup (hids : (rules.map ScanRule.id).Nodup) (hr : r ∈ rules) :
    Unshared rules r := by
  rw [Unshared]
  induction rules with
  | nil => cases hr
  | cons x rules ih =>
      obtain ⟨hfresh, hrest⟩ := List.nodup_cons.mp hids
      rcases List.mem_cons.mp hr with rfl | hr
      · have hnone : rules.filter (fun x => x.id = r.id) = [] := by
          refine List.filter_eq_nil_iff.mpr fun y hy => ?_
          rw [decide_eq_true_iff]
          exact fun heq => hfresh (heq ▸ List.mem_map_of_mem hy)
        rw [List.filter_cons_of_pos (by simp), hnone]
      · have hother : x.id ≠ r.id := fun heq => hfresh (heq ▸ List.mem_map_of_mem hr)
        rw [List.filter_cons_of_neg (by simpa using hother)]
        exact ih hrest hr

/-- A line goes through where it does for each rule alone. -/
theorem feedLine_assemble (hids : (rules.map ScanRule.id).Nodup)
    (halone : ∀ r ∈ rules, ∃ other other', engine.about r.id = other.about r.id ∧
      feedLine py [r] source other line = .ok other') :
    ∃ engine', feedLine py rules source engine line = .ok engine' := by
  rw [feedLine]
  dsimp only
  split_ifs with hother
  · exact ⟨_, rfl⟩
  · have hmatches : ∀ r ∈ matchRules rules, ∃ t t', engine.about r.id = t.1.about r.id ∧
        feedMatch py source line t r = .ok t' := by
      intro r hr
      obtain ⟨hmem, hnone⟩ := List.mem_filter.mp hr
      obtain ⟨other, other', hview, hfeed⟩ := halone r hmem
      rw [feedLine] at hfeed
      dsimp only at hfeed
      rw [if_neg hother] at hfeed
      obtain ⟨m, hm, -⟩ := bind_eq_ok hfeed
      rw [(rules_of_match hnone).1] at hm
      obtain ⟨t', ht', -⟩ := foldlM_cons_ok.mp hm
      exact ⟨_, t', hview, ht'⟩
    obtain ⟨matched, hmatched⟩ := (viewed_feedMatch py source line).assemble
      (s := ({ engine with totalLines := engine.totalLines + 1 }, false))
      (nodup_matchRules hids) hmatches
    have htracks : ∀ r ∈ seqRules rules, ∃ t t', matched.1.about r.id = t.1.about r.id ∧
        feedTracker py line t r = .ok t' := by
      intro r hr
      obtain ⟨hmem, hsome⟩ := List.mem_filter.mp hr
      obtain ⟨other, other', hview, hfeed⟩ := halone r hmem
      have hunshared := unshared_of_nodup hids hmem
      obtain ⟨hnomatch, hself⟩ := rules_of_sequence hsome
      obtain ⟨m, hm, hmview⟩ := (viewed_feedMatch py source line).slice (i := r.id)
        (t := ({ engine with totalLines := engine.totalLines + 1 }, false)) rfl hmatched
      rw [matchRules_alone hunshared, hnomatch] at hm
      obtain rfl := Except.ok.inj hm
      rw [feedLine] at hfeed
      dsimp only at hfeed
      rw [if_neg hother, hnomatch] at hfeed
      obtain ⟨start, hstart, hfeed⟩ := bind_eq_ok hfeed
      obtain rfl := Except.ok.inj hstart
      obtain ⟨k, hk, -⟩ := bind_eq_ok hfeed
      rw [hself] at hk
      obtain ⟨t', ht', -⟩ := foldlM_cons_ok.mp hk
      exact ⟨({ other with totalLines := other.totalLines + 1 }, false), t',
        hmview.symm.trans hview, ht'⟩
    obtain ⟨tracked, htracked⟩ := (viewed_feedTracker py line).assemble (s := matched)
      (nodup_seqRules hids) htracks
    refine ⟨closeLine tracked, ?_⟩
    rw [hmatched]
    change ((seqRules rules).foldlM (feedTracker py line) matched >>=
      fun s => pure (closeLine s)) = _
    rw [htracked]
    rfl

theorem feeds_assemble (hids : (rules.map ScanRule.id).Nodup)
    (halone : ∀ r ∈ rules, ∃ other other', engine.about r.id = other.about r.id ∧
      lines.foldlM (feedLine py [r] source) other = .ok other') :
    ∃ engine', lines.foldlM (feedLine py rules source) engine = .ok engine' := by
  induction lines generalizing engine with
  | nil => exact ⟨engine, rfl⟩
  | cons line lines ih =>
      have hfirst : ∀ r ∈ rules, ∃ other other', engine.about r.id = other.about r.id ∧
          feedLine py [r] source other line = .ok other' := by
        intro r hr
        obtain ⟨other, other', hview, hrun⟩ := halone r hr
        obtain ⟨next, hnext, -⟩ := foldlM_cons_ok.mp hrun
        exact ⟨other, next, hview, hnext⟩
      obtain ⟨engine', hengine⟩ := feedLine_assemble hids hfirst
      have hrest : ∀ r ∈ rules, ∃ other other', engine'.about r.id = other.about r.id ∧
          lines.foldlM (feedLine py [r] source) other = .ok other' := by
        intro r hr
        obtain ⟨other, other', hview, hrun⟩ := halone r hr
        obtain ⟨next, hnext, hlater⟩ := foldlM_cons_ok.mp hrun
        obtain ⟨next', hnext', hsame⟩ := feedLine_alone (unshared_of_nodup hids hr) hview.symm hengine
        obtain rfl := Except.ok.inj (hnext.symm.trans hnext')
        exact ⟨next, other', hsame.symm, hlater⟩
      obtain ⟨last, hlast⟩ := ih hrest
      exact ⟨last, foldlM_cons_ok.mpr ⟨engine', hengine, hlast⟩⟩

theorem start_alone (hr : Unshared rules r) : (start [r]).about r.id = (start rules).about r.id := by
  have hcollect : ∀ rules : List ScanRule, (start rules).seqTrackers =
      KeyedFolds.collect ScanRule.id (fun _ r => (r.tracked, .empty)) (seqRules rules) :=
    fun _ => rfl
  have hfiber : KeyedFolds.fiber ScanRule.id (seqRules rules) r.id =
      KeyedFolds.fiber ScanRule.id (seqRules [r]) r.id := by
    have hself : Unshared [r] r := by
      rw [Unshared, List.filter_cons_of_pos (by simp)]
      rfl
    exact (seqRules_alone hr).trans (seqRules_alone hself).symm
  rw [Engine.about, Engine.about, hcollect, hcollect, KeyedFolds.get?_collect, KeyedFolds.get?_collect,
    hfiber]
  rfl

end Alone

end HplcWorkbench.ScanEngine
