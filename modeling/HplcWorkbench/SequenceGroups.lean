import HplcWorkbench.ExactOutcomes
import HplcWorkbench.ModuleLogMatching
import Mathlib.Data.List.Forall2
import Mathlib.Data.List.Nodup
import Mathlib.Tactic.Linarith

/-!
# Groups of a sequence

For lines in the order of their counts and of their times, the groups that are found are groups of the
sequence that do not overlap, and there cannot be more of them.
-/

namespace HplcWorkbench.ModuleLog
open OrderedDict (Dict)
open EarliestStop (pick Earliest)

/-! ## Groups -/

section Groups
variable (env : Engines) (lines : List LogLine)

/-- Lines in the order of their counts and of their times. -/
structure Steady : Prop where
  increasing : lines.Pairwise fun l l' => l.seq < l'.seq
  timed : ∀ l ∈ lines, ∃ t, lineTimestampMs env l = some t
  monotone : lines.Pairwise fun l l' => ∀ t ∈ lineTimestampMs env l, ∀ t' ∈ lineTimestampMs env l', t ≤ t'

/-- The line is among those that the leaf matches. -/
def Matches (leaf : Leaf) (line : LogLine) : Prop :=
  ∃ hits, matchingLeafLines env lines leaf = .ok hits ∧ line ∈ hits

/-- Lines in their order, one for each step, with at most the interval from the first to the last. -/
structure IsGroup (m : SequenceMatch) (group : List LogLine) : Prop where
  matching : List.Forall₂ (fun step line => Matches env lines step line) m.steps group
  ordered : group.Pairwise fun l l' => l.seq < l'.seq
  within : ∀ first ∈ group.head?, ∀ last ∈ group.getLast?, ∀ t ∈ lineTimestampMs env first,
    ∀ t' ∈ lineTimestampMs env last, t' - t ≤ m.maxIntervalMs

/-- All lines of one group stand before all lines of the other. -/
def NonOverlapping (g g' : List LogLine) : Prop :=
  (∀ l ∈ g, ∀ l' ∈ g', l.seq < l'.seq) ∨ ∀ l ∈ g, ∀ l' ∈ g', l'.seq < l.seq

/-- The groups are groups of the sequence that do not overlap, as many as there can be. -/
structure Exact (m : SequenceMatch) (groups : List (List LogLine)) : Prop where
  isGroup : ∀ g ∈ groups, IsGroup env lines m g
  apart : groups.Pairwise NonOverlapping
  most : ∀ others : List (List LogLine), (∀ g ∈ others, IsGroup env lines m g) →
    others.Pairwise NonOverlapping → others.length ≤ groups.length
  reported : (∃ g, IsGroup env lines m g) → groups ≠ []

end Groups

/-! ## Lines under their counts -/

section Positions
variable {hits lines : List LogLine} {k : ℕ} {line : LogLine}

theorem get?_foldl_set (d : Dict ℕ LogLine)
    (h : (hits.foldl (fun d line => d.set line.seq line) d).get? k = some line) :
    (line ∈ hits ∧ line.seq = k) ∨ d.get? k = some line := by
  induction hits generalizing d with
  | nil => exact Or.inr h
  | cons l hits ih =>
    rcases ih (d.set l.seq l) h with ⟨hmem, hseq⟩ | hset
    · exact Or.inl ⟨List.mem_cons_of_mem _ hmem, hseq⟩
    · by_cases hk : k = l.seq
      · subst hk
        rw [Dict.get?_set_self] at hset
        obtain rfl := Option.some.inj hset
        exact Or.inl ⟨List.mem_cons_self, rfl⟩
      · rw [Dict.get?_set_of_ne _ _ _ _ hk] at hset
        exact Or.inr hset

theorem of_get?_positionsOf (h : (positionsOf hits).get? k = some line) : line ∈ hits ∧ line.seq = k := by
  rcases get?_foldl_set Dict.empty h with h | h
  · exact h
  · cases h

theorem isSome_foldl_set (d : Dict ℕ LogLine) (h : line ∈ hits ∨ (d.get? line.seq).isSome = true) :
    ((hits.foldl (fun d line => d.set line.seq line) d).get? line.seq).isSome = true := by
  induction hits generalizing d with
  | nil =>
    rcases h with h | h
    · cases h
    · exact h
  | cons l hits ih =>
    apply ih (d.set l.seq l)
    by_cases hseq : line.seq = l.seq
    · rw [hseq, Dict.get?_set_self]
      exact Or.inr rfl
    · rw [Dict.get?_set_of_ne _ _ _ _ hseq]
      rcases h with h | h
      · rcases List.mem_cons.mp h with rfl | h
        · exact absurd rfl hseq
        · exact Or.inl h
      · exact Or.inr h

theorem isSome_positionsOf (h : line ∈ hits) : ((positionsOf hits).get? line.seq).isSome = true :=
  isSome_foldl_set Dict.empty (Or.inl h)

theorem eq_of_seq_eq (hlines : lines.Pairwise fun l l' => l.seq < l'.seq) {l l' : LogLine} (hl : l ∈ lines)
    (hl' : l' ∈ lines) (h : l.seq = l'.seq) : l = l' := by
  have hnodup : (lines.map LogLine.seq).Nodup := List.pairwise_map.mpr (hlines.imp fun hlt => hlt.ne)
  exact List.inj_on_of_nodup_map hnodup hl hl' h

/-- Among the lines, those under whose count there is an entry are the hits. -/
theorem isSome_positionsOf_iff (hlines : lines.Pairwise fun l l' => l.seq < l'.seq) (hhits : hits ⊆ lines)
    (hline : line ∈ lines) : ((positionsOf hits).get? line.seq).isSome = true ↔ line ∈ hits := by
  constructor
  · intro h
    obtain ⟨l, hl⟩ := Option.isSome_iff_exists.mp h
    obtain ⟨hmem, hseq⟩ := of_get?_positionsOf hl
    rwa [← eq_of_seq_eq hlines (hhits hmem) hline hseq]
  · exact isSome_positionsOf

end Positions

/-! ## The next lines -/

section Select
variable {lines : List LogLine}

theorem selectNext_cons {prev : ℕ} {candidates : Dict ℕ LogLine} {positions : List (Dict ℕ LogLine)}
    {selected : List LogLine} : selectNext lines prev (candidates :: positions) = some selected ↔
      ∃ line rest, (lines.find? fun line => prev < line.seq && (candidates.get? line.seq).isSome) = some line ∧
        selectNext lines line.seq positions = some rest ∧ selected = line :: rest := by
  rw [selectNext]
  constructor
  · intro h
    obtain ⟨line, hline, h⟩ := Option.bind_eq_some_iff.mp h
    obtain ⟨rest, hrest, h⟩ := Option.bind_eq_some_iff.mp h
    exact ⟨line, rest, hline, hrest, (Option.some.inj h).symm⟩
  · rintro ⟨line, rest, hline, hrest, rfl⟩
    rw [hline, Option.bind_eq_bind, Option.bind_some, hrest, Option.bind_eq_bind, Option.bind_some]

/-- What is selected are hits of the steps in their order, behind the line before. -/
theorem selectNext_spec (hlines : lines.Pairwise fun l l' => l.seq < l'.seq) {stepHits : List (List LogLine)}
    (hhits : ∀ hits ∈ stepHits, hits ⊆ lines) {prev : LogLine} {selected : List LogLine}
    (h : selectNext lines prev.seq (stepHits.map positionsOf) = some selected) :
    List.Forall₂ (fun hits line => line ∈ hits) stepHits selected ∧
      (prev :: selected).Pairwise fun l l' => l.seq < l'.seq := by
  induction stepHits generalizing prev selected with
  | nil =>
    obtain rfl := Option.some.inj h
    exact ⟨List.Forall₂.nil, List.pairwise_singleton _ _⟩
  | cons hits stepHits ih =>
    obtain ⟨line, rest, hfind, hrest, rfl⟩ := selectNext_cons.mp h
    have hfound := List.find?_some hfind
    rw [Bool.and_eq_true, decide_eq_true_eq] at hfound
    obtain ⟨hmatching, hordered⟩ := ih (fun hits hmem => hhits hits (List.mem_cons_of_mem _ hmem)) hrest
    have hmem : line ∈ hits := (isSome_positionsOf_iff hlines (hhits hits List.mem_cons_self)
      (List.mem_of_find?_eq_some hfind)).mp hfound.2
    refine ⟨List.Forall₂.cons hmem hmatching, List.pairwise_cons.mpr ⟨?_, hordered⟩⟩
    intro l hl
    rcases List.mem_cons.mp hl with rfl | hl
    · exact hfound.1
    · exact hfound.1.trans (List.rel_of_pairwise_cons hordered hl)

/-- Behind an earlier line, the selection is complete where there are hits of the steps in their order
behind a later one, and it ends no later than these. -/
theorem selectNext_le (hlines : lines.Pairwise fun l l' => l.seq < l'.seq) {stepHits : List (List LogLine)}
    (hhits : ∀ hits ∈ stepHits, hits ⊆ lines) {prev prev' : LogLine} (hle : prev.seq ≤ prev'.seq)
    {path : List LogLine} (hpath : List.Forall₂ (fun hits line => line ∈ hits) stepHits path)
    (hordered : (prev' :: path).Pairwise fun l l' => l.seq < l'.seq) :
    ∃ selected, selectNext lines prev.seq (stepHits.map positionsOf) = some selected ∧
      (selected.getLastD prev).seq ≤ (path.getLastD prev').seq := by
  induction hpath generalizing prev prev' with
  | nil => exact ⟨[], rfl, hle⟩
  | @cons hits line stepHits path hline hpath ih =>
    obtain ⟨hbehind, hordered⟩ := List.pairwise_cons.mp hordered
    have hhits' := hhits hits List.mem_cons_self
    have hcandidate : (decide (prev.seq < line.seq) && ((positionsOf hits).get? line.seq).isSome) = true := by
      rw [Bool.and_eq_true, decide_eq_true_eq]
      exact ⟨hle.trans_lt (hbehind line List.mem_cons_self), isSome_positionsOf hline⟩
    -- the line that is found is the first of the candidates
    obtain ⟨next, hfind⟩ : ∃ next, (lines.find? fun line =>
        prev.seq < line.seq && ((positionsOf hits).get? line.seq).isSome) = some next := by
      apply Option.isSome_iff_exists.mp
      exact List.find?_isSome.mpr ⟨line, hhits' hline, hcandidate⟩
    have hnext : next.seq ≤ line.seq := by
      obtain ⟨-, before, after, rfl, hbefore⟩ := List.find?_eq_some_iff_append.mp hfind
      rcases List.mem_append.mp (hhits' hline) with hmem | hmem
      · have hnot := hbefore line hmem
        rw [hcandidate] at hnot
        cases hnot
      · rcases List.mem_cons.mp hmem with rfl | hmem
        · exact le_rfl
        · have hafter := (List.pairwise_append.mp hlines).2.1
          exact (List.rel_of_pairwise_cons hafter hmem).le
    obtain ⟨selected, hselected, hend⟩ :=
      ih (fun hits hmem => hhits hits (List.mem_cons_of_mem _ hmem)) hnext hordered
    refine ⟨next :: selected, ?_, ?_⟩
    · rw [List.map_cons]
      exact selectNext_cons.mpr ⟨next, selected, hfind, hselected, rfl⟩
    · rw [List.getLastD_cons, List.getLastD_cons]
      exact hend

end Select

/-! ## The groups that are found -/

section Found
variable {env : Engines} {lines : List LogLine} {maxIntervalMs : ℤ} {hits : List LogLine}
  {stepHits : List (List LogLine)} {first : LogLine} {group : List LogLine}

/-- `_line_seq(selected[0])`. -/
def groupStart (group : List LogLine) : ℤ := (group.head?.map fun line => (line.seq : ℤ)).getD (-1)

theorem groupEnd_cons (line : LogLine) (rest : List LogLine) :
    groupEnd (line :: rest) = (rest.getLastD line).seq := by
  rw [groupEnd, List.getLast?_cons, ← List.getLastD_eq_getLast?]
  rfl

/-- The lines of a group lie between its start and its end. -/
theorem between_of_mem {line : LogLine} (hordered : group.Pairwise fun l l' => l.seq < l'.seq)
    (h : line ∈ group) : groupStart group ≤ line.seq ∧ line.seq ≤ groupEnd group := by
  induction group with
  | nil => cases h
  | cons first rest ih =>
    obtain ⟨hfirst, hrest⟩ := List.pairwise_cons.mp hordered
    have hend : (first.seq : ℤ) ≤ (rest.getLastD first).seq := by
      rcases List.mem_cons.mp (List.getLastD_mem_cons (l := rest) (a := first)) with hlast | hlast
      · rw [hlast]
      · exact_mod_cast (hfirst _ hlast).le
    rw [groupEnd_cons]
    rcases List.mem_cons.mp h with rfl | h
    · exact ⟨le_rfl, hend⟩
    · obtain ⟨next, more, rfl⟩ := List.exists_cons_of_ne_nil (List.ne_nil_of_mem h)
      have hbetween := (ih hrest h).2
      rw [groupEnd_cons] at hbetween
      rw [List.getLastD_cons]
      have hlt : (first.seq : ℤ) < line.seq := by exact_mod_cast hfirst line h
      exact ⟨hlt.le, hbetween⟩

/-- Groups lie apart exactly when all lines of one stand before all lines of the other. -/
theorem apart_iff {g g' : List LogLine} (hordered : g.Pairwise fun l l' => l.seq < l'.seq)
    (hordered' : g'.Pairwise fun l l' => l.seq < l'.seq) (hg : g ≠ []) (hg' : g' ≠ []) :
    EarliestStop.Apart groupEnd groupStart g g' ↔ NonOverlapping g g' := by
  have hbefore : ∀ {g g' : List LogLine}, g.Pairwise (fun l l' => l.seq < l'.seq) →
      g'.Pairwise (fun l l' => l.seq < l'.seq) → g ≠ [] → g' ≠ [] →
        (groupEnd g < groupStart g' ↔ ∀ l ∈ g, ∀ l' ∈ g', l.seq < l'.seq) := by
    intro g g' hordered hordered' hg hg'
    constructor
    · intro h l hl l' hl'
      have hlast := (between_of_mem hordered hl).2
      have hfirst := (between_of_mem hordered' hl').1
      exact_mod_cast hlast.trans_lt (h.trans_le hfirst)
    · intro h
      obtain ⟨first, rest, rfl⟩ := List.exists_cons_of_ne_nil hg
      obtain ⟨first', rest', rfl⟩ := List.exists_cons_of_ne_nil hg'
      rw [groupEnd_cons]
      exact Int.ofNat_lt.mpr (h _ List.getLastD_mem_cons first' List.mem_cons_self)
  rw [EarliestStop.Apart, NonOverlapping, hbefore hordered hordered' hg hg',
    hbefore hordered' hordered hg' hg]
  apply or_congr_right
  exact ⟨fun h l hl l' hl' => h l' hl' l hl, fun h l hl l' hl' => h l' hl' l hl⟩

/-- The line is a hit of the first step, and what is selected behind it is in time. -/
theorem groupFrom_eq_some_iff (hlines : lines.Pairwise fun l l' => l.seq < l'.seq) (hhits : hits ⊆ lines)
    (hfirst : first ∈ lines) :
    groupFrom env lines ((hits :: stepHits).map positionsOf) maxIntervalMs first = some group ↔
      first ∈ hits ∧ ∃ rest, selectNext lines first.seq (stepHits.map positionsOf) = some rest ∧
        group = first :: rest ∧ ∃ t t', lineTimestampMs env first = some t ∧
          lineTimestampMs env (rest.getLastD first) = some t' ∧ t ≤ t' ∧ t' - t ≤ maxIntervalMs := by
  have hget : ∀ {line}, (positionsOf hits).get? first.seq = some line → line = first := by
    intro line hline
    obtain ⟨hmem, hseq⟩ := of_get?_positionsOf hline
    exact eq_of_seq_eq hlines (hhits hmem) hfirst hseq
  rw [groupFrom, List.map_cons, List.head?_cons, List.tail_cons]
  dsimp only [Option.bind_eq_bind, Option.bind_some]
  constructor
  · intro h
    obtain ⟨line, hline, hselect⟩ := Option.bind_eq_some_iff.mp h
    obtain ⟨rest, hrest, hfirst⟩ := Option.bind_eq_some_iff.mp hselect
    obtain ⟨t, ht, hlast⟩ := Option.bind_eq_some_iff.mp hfirst
    obtain ⟨t', ht', htime⟩ := Option.bind_eq_some_iff.mp hlast
    obtain rfl := hget hline
    split at htime
    · cases htime
    · rename_i hle
      split at htime
      · rename_i hwithin
        exact ⟨(of_get?_positionsOf hline).1, rest, hrest, (Option.some.inj htime).symm, t, t', ht, ht',
          not_lt.mp hle, hwithin⟩
      · cases htime
  · rintro ⟨hmem, rest, hrest, rfl, t, t', ht, ht', hle, hwithin⟩
    obtain ⟨line, hline⟩ := Option.isSome_iff_exists.mp (isSome_positionsOf hmem)
    obtain rfl := hget hline
    rw [hline, Option.bind_some, hrest, Option.bind_some, ht, Option.bind_some, ht', Option.bind_some,
      if_neg (not_lt.mpr hle), if_pos hwithin]

end Found

/-! ## The number of groups -/

section Number
variable {env : Engines} {lines : List LogLine} {m : SequenceMatch} {stepHits : List (List LogLine)}

theorem subset_of_matchingLeafLines {leaf : Leaf} {hits : List LogLine}
    (h : matchingLeafLines env lines leaf = .ok hits) : hits ⊆ lines := by
  cases leaf with
  | literal value caseSensitive =>
    obtain rfl := Except.ok.inj h
    exact List.filter_sublist.subset
  | regex value caseSensitive =>
    obtain rfl := Except.ok.inj h
    exact List.filter_sublist.subset
  | loghookRule ruleId =>
    rw [matchingLeafLines, matchingLoghookLines] at h
    split at h
    · cases h
    · obtain rfl := Except.ok.inj h
      intro l hl
      obtain ⟨i, -, hi⟩ := List.mem_filterMap.mp hl
      exact List.mem_of_getElem? hi

/-- The lines of a group are hits of the steps. -/
theorem forall₂_matches_iff {steps : List Leaf} {group : List LogLine}
    (h : List.Forall₂ (fun step hits => matchingLeafLines env lines step = .ok hits) steps stepHits) :
    List.Forall₂ (fun step line => Matches env lines step line) steps group ↔
      List.Forall₂ (fun hits line => line ∈ hits) stepHits group := by
  induction h generalizing group with
  | nil => rw [List.forall₂_nil_left_iff, List.forall₂_nil_left_iff]
  | cons hstep _ ih =>
    cases group with
    | nil => simp
    | cons line group =>
      rw [List.forall₂_cons, List.forall₂_cons, ih]
      apply and_congr_left'
      constructor
      · rintro ⟨hits, hhits, hline⟩
        rw [hstep] at hhits
        rwa [Except.ok.inj hhits]
      · exact fun hline => ⟨_, hstep, hline⟩

theorem subset_of_mem_stepHits {steps : List Leaf}
    (h : List.Forall₂ (fun step hits => matchingLeafLines env lines step = .ok hits) steps stepHits) :
    ∀ hits ∈ stepHits, hits ⊆ lines := by
  induction h with
  | nil => exact fun hits hmem => absurd hmem List.not_mem_nil
  | cons hstep _ ih =>
    intro hits hmem
    rcases List.mem_cons.mp hmem with rfl | hmem
    · exact subset_of_matchingLeafLines hstep
    · exact ih hits hmem

theorem ts_le (h : Steady env lines) {l l' : LogLine} (hl : l ∈ lines) (hl' : l' ∈ lines) (hle : l.seq ≤ l'.seq)
    {t t' : ℚ} (ht : lineTimestampMs env l = some t) (ht' : lineTimestampMs env l' = some t') : t ≤ t' := by
  rcases hle.eq_or_lt with heq | hlt
  · obtain rfl := eq_of_seq_eq h.increasing hl hl' heq
    rw [ht] at ht'
    exact (Option.some.inj ht').le
  · obtain ⟨i, hi, rfl⟩ := List.getElem_of_mem hl
    obtain ⟨j, hj, rfl⟩ := List.getElem_of_mem hl'
    rcases lt_trichotomy i j with hij | rfl | hji
    · exact (List.pairwise_iff_getElem.mp h.monotone i j hi hj hij) t ht t' ht'
    · exact absurd hlt (lt_irrefl _)
    · exact absurd hlt (List.pairwise_iff_getElem.mp h.increasing j i hj hi hji).not_gt

theorem subset_of_forall₂ {group : List LogLine}
    (h : List.Forall₂ (fun hits line => line ∈ hits) stepHits group) (hhits : ∀ hits ∈ stepHits, hits ⊆ lines) :
    group ⊆ lines := by
  induction h with
  | nil => exact List.nil_subset _
  | @cons hits line stepHits group hline _ ih =>
    have hrest := ih fun hits' hmem => hhits hits' (List.mem_cons_of_mem _ hmem)
    exact List.cons_subset.mpr ⟨hhits hits List.mem_cons_self hline, hrest⟩

theorem earliest_groupFrom (h : Steady env lines)
    (hsteps : List.Forall₂ (fun step hits => matchingLeafLines env lines step = .ok hits) m.steps stepHits) :
    Earliest (fun line : LogLine => (line.seq : ℤ)) groupEnd
      (groupFrom env lines (stepHits.map positionsOf) m.maxIntervalMs) groupStart lines
      {g | IsGroup env lines m g} := by
  have hsubset := subset_of_mem_stepHits hsteps
  obtain ⟨hits, stepHits, rfl⟩ : ∃ hits rest, stepHits = hits :: rest := by
    apply List.exists_cons_of_ne_nil
    rintro rfl
    have hlength := m.steps_length.1
    rw [hsteps.length_eq] at hlength
    exact absurd hlength (by decide)
  have hhits := hsubset hits List.mem_cons_self
  have hrest := fun hits' hmem => hsubset hits' (List.mem_cons_of_mem hits hmem)
  -- a group of the sequence is a hit of the first step with hits of the others behind it
  have hgroup : ∀ g, IsGroup env lines m g → ∃ first rest, g = first :: rest ∧ first ∈ hits ∧
      List.Forall₂ (fun hits line => line ∈ hits) stepHits rest := by
    intro g hg
    have hmatching := (forall₂_matches_iff hsteps).mp hg.matching
    obtain ⟨first, rest, hfirst, hrest, rfl⟩ := List.forall₂_cons_left_iff.mp hmatching
    exact ⟨first, rest, rfl, hfirst, hrest⟩
  constructor
  case ordered => exact h.increasing.imp fun hlt => by exact_mod_cast hlt
  case first_eq =>
    intro a ha g hg
    obtain ⟨-, rest, -, rfl, -⟩ := (groupFrom_eq_some_iff h.increasing hhits ha).mp hg
    rfl
  case candidate =>
    intro a ha g hg
    obtain ⟨hmem, rest, hselect, rfl, t, t', ht, ht', -, hwithin⟩ :=
      (groupFrom_eq_some_iff h.increasing hhits ha).mp hg
    obtain ⟨hmatching, hordered⟩ := selectNext_spec h.increasing hrest hselect
    refine ⟨(forall₂_matches_iff hsteps).mpr (List.Forall₂.cons hmem hmatching), hordered, ?_⟩
    intro first hfirst last hlast u hu u' hu'
    obtain rfl := Option.some.inj hfirst
    rw [List.getLast?_cons, ← List.getLastD_eq_getLast?] at hlast
    obtain rfl := Option.some.inj hlast
    rw [ht] at hu
    rw [ht'] at hu'
    obtain rfl := Option.some.inj hu
    obtain rfl := Option.some.inj hu'
    exact hwithin
  case proper =>
    intro g hg
    obtain ⟨first, rest, rfl, -⟩ := hgroup g hg
    obtain ⟨hstart, hend⟩ := between_of_mem hg.ordered List.mem_cons_self
    exact hstart.trans hend
  case begins =>
    intro g hg
    obtain ⟨first, rest, rfl, hfirst, -⟩ := hgroup g hg
    exact ⟨first, hhits hfirst, rfl⟩
  case completed =>
    intro g hg a ha hstart
    obtain ⟨first, rest, rfl, hfirst, hpath⟩ := hgroup g hg
    have hseq : (a.seq : ℤ) = first.seq := hstart
    norm_cast at hseq
    obtain rfl := eq_of_seq_eq h.increasing ha (hhits hfirst) hseq
    obtain ⟨selected, hselect, hend⟩ := selectNext_le h.increasing hrest le_rfl hpath hg.ordered
    obtain ⟨hmatching, hordered⟩ := selectNext_spec h.increasing hrest hselect
    have hlast : selected.getLastD a ∈ lines :=
      List.cons_subset.mpr ⟨ha, subset_of_forall₂ hmatching hrest⟩ List.getLastD_mem_cons
    have hlast' : rest.getLastD a ∈ lines :=
      List.cons_subset.mpr ⟨ha, subset_of_forall₂ hpath hrest⟩ List.getLastD_mem_cons
    obtain ⟨t, ht⟩ := h.timed a ha
    obtain ⟨t', ht'⟩ := h.timed _ hlast
    obtain ⟨u, hu⟩ := h.timed _ hlast'
    have hin : rest.getLastD a ∈ (a :: rest).getLast? := by
      rw [List.getLast?_cons, ← List.getLastD_eq_getLast?]
      rfl
    have hwithin := hg.within a rfl (rest.getLastD a) hin t ht u hu
    have hearly := ts_le h hlast hlast' hend ht' hu
    have hafter : a.seq ≤ (selected.getLastD a).seq := by
      rcases List.mem_cons.mp (List.getLastD_mem_cons (l := selected) (a := a)) with heq | hmem
      · rw [heq]
      · exact (List.rel_of_pairwise_cons hordered hmem).le
    have hforward := ts_le h ha hlast hafter ht ht'
    refine ⟨a :: selected, (groupFrom_eq_some_iff h.increasing hhits ha).mpr
      ⟨hfirst, selected, hselect, rfl, t, t', ht, ht', hforward, by linarith⟩, ?_⟩
    rw [groupEnd_cons, groupEnd_cons]
    exact_mod_cast hend
  case mono =>
    intro a ha a' ha' hle g g' hg hg'
    obtain ⟨-, rest, hselect, rfl, -⟩ := (groupFrom_eq_some_iff h.increasing hhits ha).mp hg
    obtain ⟨-, rest', hselect', rfl, -⟩ := (groupFrom_eq_some_iff h.increasing hhits ha').mp hg'
    obtain ⟨hpath, hordered⟩ := selectNext_spec h.increasing hrest hselect'
    obtain ⟨selected, hselected, hend⟩ :=
      selectNext_le h.increasing hrest (by exact_mod_cast hle) hpath hordered
    rw [hselect] at hselected
    obtain rfl := Option.some.inj hselected
    rw [groupEnd_cons, groupEnd_cons]
    exact_mod_cast hend

/-- A link goes up twice, each time within a second. -/
def linkLines : List LogLine :=
  [⟨7, .number 10, "RX", "assoc start"⟩, ⟨8, .number 10, "RX", "noise"⟩, ⟨9, .number 11, "RX", "assoc done"⟩,
    ⟨10, .number 20, "RX", "assoc start"⟩, ⟨11, .number 21, "RX", "assoc done"⟩]

def linkMatch : SequenceMatch :=
  ⟨[.literal "start" true, .literal "done" true], 1000, by decide, by decide⟩

def plainEngines : Engines := ⟨id, fun _ _ _ => some false, fun _ => none, 28800⟩

end Number

end HplcWorkbench.ModuleLog
