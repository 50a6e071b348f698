import HplcWorkbench.ModuleLogMatching
import HplcWorkbench.RetainedTail
import Mathlib.Data.List.Induction

/-!
# Observing that something is not seen

A channel keeps its last 5000 lines. An observation of a closed range is accepted for the lines that the
channel has, and it looks at the lines of the range that the channel still has afterwards. That a matcher
was not seen is right exactly when no line of the range matches, or one is found among the lines that are
left.
-/

namespace HplcWorkbench.ModuleLog
open RetainedTail (keepLast push)

/-! ## Channels -/

/-- `MAX_MEMORY_LINES`. -/
def maxMemoryLines : ℕ := 5000

/-- The lines of a `_SerialChannel`. -/
structure Channel where
  lines : List LogLine := []
  nextSeq : ℕ := 0

/-- What `_append_line` is called with, at its time. -/
structure NewLine where
  ts : Stamp
  direction : String
  text : String
  deriving DecidableEq, Repr

/-- `_append_line`. -/
def Channel.appendLine (c : Channel) (new : NewLine) : Channel where
  lines := push maxMemoryLines c.lines ⟨c.nextSeq, new.ts, new.direction, new.text⟩
  nextSeq := c.nextSeq + 1

/-- `logs`. -/
def Channel.logs (c : Channel) (after : ℤ) : List LogLine :=
  if after < 0 then
    if maxMemoryLines < c.lines.length then c.lines.drop (c.lines.length - maxMemoryLines) else c.lines
  else c.lines.filter fun line => after < line.seq

/-- `_module_lines`. -/
def moduleLines (c : Channel) : List LogLine := (c.logs (-1)).insertionSort fun l l' => l.seq ≤ l'.seq

/-! ## Observations of a closed range -/

structure CursorRange where
  startSeq : ℤ
  endSeq : ℤ
  deriving DecidableEq, Repr

/-- `_MAX_CURSOR_RANGE`. -/
def maxCursorRange : ℤ := 10000

/-- `int(window.get(key))`. -/
def windowInt (window : Params) (key : String) : Except InvalidObservation ℤ :=
  match (Params.get window key).toInt with
  | .ok n => .ok n
  | .error _ => .error ⟨"cursor_range 必须提供 start_seq/end_seq"⟩

def isBoolean : PyVal → Bool
  | .bool _ => true
  | _ => false

/-- `_normalise_module_log_observation` of the window of a `cursor_range`; `baseline` are the lines that
the module has. -/
def normaliseCursorRange (baseline : List LogLine) (window : Params) : Except InvalidObservation CursorRange := do
  if isBoolean (Params.get window "start_seq") || isBoolean (Params.get window "end_seq") then
    throw ⟨"cursor_range start_seq/end_seq 必须是整数"⟩
  let startSeq ← windowInt window "start_seq"
  let endSeq ← windowInt window "end_seq"
  if endSeq < startSeq then throw ⟨"cursor_range start_seq 不能大于 end_seq"⟩
  if maxCursorRange < endSeq - startSeq + 1 then throw ⟨"cursor_range 范围过大"⟩
  match baseline.head?, baseline.getLast? with
  | some first, some last =>
    if startSeq < first.seq then throw ⟨"cursor_range 起点已被内存环形缓冲裁剪"⟩
    if (last.seq : ℤ) < endSeq then throw ⟨"cursor_range 尚未闭合或超出当前内存缓冲"⟩
    pure ⟨startSeq, endSeq⟩
  | _, _ => throw ⟨"cursor_range 当前没有可用内存日志"⟩

def CursorRange.has (range : CursorRange) (line : LogLine) : Bool :=
  range.startSeq ≤ line.seq && (line.seq : ℤ) ≤ range.endSeq

inductive ObservationState
  | succeeded
  | matched
  | error (message : String)
  deriving DecidableEq, Repr

/-- What `_refresh_module_observation` leaves behind. -/
structure ObservationResult where
  state : ObservationState
  conditionMet : Bool := false
  hits : List LogLine := []
  deriving DecidableEq, Repr

section Refresh
variable (env : Engines)

/-- `_refresh_module_observation` of a closed range for `not_seen`, with `complete`. -/
def refreshNotSeen (allLines : List LogLine) (range : CursorRange) (matcher : Leaf) : ObservationResult :=
  let candidates := allLines.filter range.has
  match moduleMatchLines env candidates (.leaf matcher) with
  | .error e => { state := .error e.message }
  | .ok (counterexample :: _, _) => { state := .succeeded, hits := [counterexample] }
  | .ok ([], _) => { state := .matched, conditionMet := true }

end Refresh

/-! ## The lines that a channel has had -/

section History
variable (news : List NewLine)

/-- All lines, each with its count. -/
def history : List LogLine := news.zipIdx.map fun e => ⟨e.2, e.1.ts, e.1.direction, e.1.text⟩

/-- A channel after the lines. -/
def channelAfter : Channel := news.foldl Channel.appendLine {}

theorem length_history : (history news).length = news.length := by
  rw [history, List.length_map, List.length_zipIdx]

theorem seq_history (i : ℕ) (hi : i < (history news).length) : (history news)[i].seq = i := by
  simp [history]

theorem history_append (new : NewLine) :
    history (news ++ [new]) = history news ++ [⟨news.length, new.ts, new.direction, new.text⟩] := by
  simp [history, List.zipIdx_append]

/-- A channel has the last of its lines. -/
theorem channelAfter_spec : (channelAfter news).nextSeq = news.length ∧
    (channelAfter news).lines = keepLast maxMemoryLines (history news) := by
  induction news using List.reverseRecOn with
  | nil => exact ⟨rfl, rfl⟩
  | append_singleton news new ih =>
    obtain ⟨hseq, hlines⟩ := ih
    have hstep : channelAfter (news ++ [new]) = (channelAfter news).appendLine new := by
      rw [channelAfter, List.foldl_append, List.foldl_cons, List.foldl_nil, channelAfter]
    rw [hstep, Channel.appendLine, hseq, hlines, history_append, ← RetainedTail.push_keepLast,
      List.length_append, List.length_singleton]
    dsimp only
    exact ⟨rfl, rfl⟩

theorem pairwise_history : (history news).Pairwise fun l l' => l.seq < l'.seq := by
  rw [List.pairwise_iff_getElem]
  intro i j hi hj hij
  rwa [seq_history, seq_history]

/-- The lines that a module has are those that are not too far back. -/
theorem moduleLines_eq : moduleLines (channelAfter news) =
    (history news).filter fun line => (history news).length ≤ line.seq + maxMemoryLines := by
  have hlength : ¬ maxMemoryLines < (keepLast maxMemoryLines (history news)).length := by
    rw [keepLast, List.length_drop]
    omega
  have hsorted : (keepLast maxMemoryLines (history news)).Pairwise fun l l' => l.seq ≤ l'.seq :=
    ((pairwise_history news).sublist (List.drop_sublist _ _)).imp fun h => h.le
  rw [moduleLines, Channel.logs, if_pos (by decide), (channelAfter_spec news).2, if_neg hlength,
    hsorted.insertionSort_eq, RetainedTail.keepLast_eq_filter _ (seq_history news)]

end History

/-! ## When an absence is right -/

section Absence
variable (env : Engines) (found : String → Bool → String → Prop) (before between : List NewLine)

/-- The line matches; `found` says where a pattern is found. -/
def LineMatches (lines : List LogLine) : Leaf → LogLine → Prop
  | .literal value caseSensitive, line => literalHit env value caseSensitive line = true
  | .regex value caseSensitive, line => found value (!caseSensitive) line.text
  | .loghookRule ruleId, line => ∃ hits, matchingLoghookLines env lines ruleId = .ok hits ∧ line ∈ hits

/-- An observation that is accepted after some lines and looked at after some more. -/
def observeNotSeen (window : Params) (matcher : Leaf) : Except InvalidObservation (CursorRange × ObservationResult) := do
  let range ← normaliseCursorRange (moduleLines (channelAfter before)) window
  pure (range, refreshNotSeen env (moduleLines (channelAfter (before ++ between))) range matcher)

/-- The lines of a range. -/
def rangeLines (news : List NewLine) (range : CursorRange) : List LogLine := (history news).filter range.has

/-- The lines of a range that are among the last ones. -/
def leftLines (news : List NewLine) (range : CursorRange) : List LogLine :=
  (rangeLines news range).filter fun line => news.length ≤ line.seq + maxMemoryLines

/-- Where the condition is met, no line of the range matches. -/
def AbsenceSound (window : Params) (matcher : Leaf) : Prop :=
  ∀ range result, observeNotSeen env before between window matcher = .ok (range, result) →
    result.conditionMet = true → ∀ line ∈ rangeLines (before ++ between) range,
      ¬ LineMatches env found (rangeLines (before ++ between) range) matcher line

/-- No line of the range matches, or one is found among those that are left. -/
def Noticed (range : CursorRange) (matcher : Leaf) : Prop :=
  (∀ line ∈ rangeLines (before ++ between) range,
      ¬ LineMatches env found (rangeLines (before ++ between) range) matcher line) ∨
    ∃ hits, matchingLeafLines env (leftLines (before ++ between) range) matcher = .ok hits ∧ hits ≠ []

theorem filter_moduleLines (news : List NewLine) (range : CursorRange) :
    (moduleLines (channelAfter news)).filter range.has = leftLines news range := by
  rw [moduleLines_eq, leftLines, rangeLines, List.filter_filter, List.filter_filter, length_history]
  exact List.filter_congr fun line _ => Bool.and_comm _ _

/-- The condition is met exactly when nothing is found among the lines that are left. -/
theorem conditionMet_refreshNotSeen (news : List NewLine) (range : CursorRange) (matcher : Leaf) :
    (refreshNotSeen env (moduleLines (channelAfter news)) range matcher).conditionMet = true ↔
      matchingLeafLines env (leftLines news range) matcher = .ok [] := by
  rw [refreshNotSeen, filter_moduleLines, moduleMatchLines]
  cases hhits : matchingLeafLines env (leftLines news range) matcher with
  | error e => exact iff_of_false Bool.false_ne_true (fun h => by cases h)
  | ok hits =>
    cases hits with
    | nil => exact iff_of_true rfl rfl
    | cons line hits => exact iff_of_false Bool.false_ne_true (fun h => by cases h)

/-- Without the rule, no line matches. -/
theorem not_lineMatches_of_error {lines lines' : List LogLine} {matcher : Leaf} {e : InvalidObservation}
    (h : matchingLeafLines env lines matcher = .error e) (line : LogLine) :
    ¬ LineMatches env found lines' matcher line := by
  cases matcher with
  | literal value caseSensitive => cases h
  | regex value caseSensitive => cases h
  | loghookRule ruleId =>
    rintro ⟨hits, hhits, -⟩
    rw [matchingLeafLines, matchingLoghookLines] at h
    rw [matchingLoghookLines] at hhits
    cases hrule : env.rule ruleId with
    | none =>
      rw [hrule] at hhits
      cases hhits
    | some matchedIndexes =>
      rw [hrule] at h
      cases h

/-- An absence is right exactly when, in the range that is accepted, what matches is noticed. -/
theorem absenceSound_iff (window : Params) (matcher : Leaf) :
    AbsenceSound env found before between window matcher ↔
      ∀ range, normaliseCursorRange (moduleLines (channelAfter before)) window = .ok range →
        Noticed env found before between range matcher := by
  have hobserve : ∀ range result, observeNotSeen env before between window matcher = .ok (range, result) ↔
      normaliseCursorRange (moduleLines (channelAfter before)) window = .ok range ∧
        refreshNotSeen env (moduleLines (channelAfter (before ++ between))) range matcher = result := by
    intro range result
    rw [observeNotSeen]
    cases hrange : normaliseCursorRange (moduleLines (channelAfter before)) window with
    | error e => exact iff_of_false (fun h => by cases h) (fun h => by cases h.1)
    | ok range' =>
      constructor
      · intro h
        cases Except.ok.inj h
        exact ⟨rfl, rfl⟩
      · rintro ⟨hrange', rfl⟩
        cases Except.ok.inj hrange'
        rfl
  constructor
  · intro h range hrange
    cases hhits : matchingLeafLines env (leftLines (before ++ between) range) matcher with
    | error e => exact Or.inl fun line _ => not_lineMatches_of_error env found hhits line
    | ok hits =>
      by_cases hempty : hits = []
      · subst hempty
        have hmet := (conditionMet_refreshNotSeen env (before ++ between) range matcher).mpr hhits
        exact Or.inl (h range _ ((hobserve range _).mpr ⟨hrange, rfl⟩) hmet)
      · exact Or.inr ⟨hits, hhits, hempty⟩
  · intro h range result hresult hmet
    obtain ⟨hrange, rfl⟩ := (hobserve range result).mp hresult
    rcases h range hrange with hnone | ⟨hits, hhits, hne⟩
    · exact hnone
    · rw [conditionMet_refreshNotSeen, hhits] at hmet
      exact absurd (Except.ok.inj hmet) hne

/-- A range that begins among the last lines is left as a whole. -/
theorem leftLines_eq {news : List NewLine} {range : CursorRange}
    (h : (news.length : ℤ) ≤ range.startSeq + maxMemoryLines) : leftLines news range = rangeLines news range := by
  apply List.filter_eq_self.mpr
  intro line hline
  have hhas := (List.mem_filter.mp hline).2
  rw [CursorRange.has, Bool.and_eq_true, decide_eq_true_eq, decide_eq_true_eq] at hhas
  rw [decide_eq_true_eq]
  omega

/-- As long as the range is left as a whole, an absence is right, if what a pattern is found in is found in
time. -/
theorem noticed_of_left {range : CursorRange} {matcher : Leaf}
    (hleft : ((before ++ between).length : ℤ) ≤ range.startSeq + maxMemoryLines)
    (hsearch : ∀ value caseSensitive, matcher = .regex value caseSensitive →
      ∀ line ∈ rangeLines (before ++ between) range, found value (!caseSensitive) line.text →
        regexHit env value caseSensitive line = true) :
    Noticed env found before between range matcher := by
  rw [Noticed, leftLines_eq hleft]
  cases hhits : matchingLeafLines env (rangeLines (before ++ between) range) matcher with
  | error e => exact Or.inl fun line _ => not_lineMatches_of_error env found hhits line
  | ok hits =>
    by_cases hempty : hits = []
    · subst hempty
      refine Or.inl fun line hline hmatch => ?_
      cases matcher with
      | literal value caseSensitive =>
        exact List.filter_eq_nil_iff.mp (Except.ok.inj hhits) line hline hmatch
      | regex value caseSensitive =>
        exact List.filter_eq_nil_iff.mp (Except.ok.inj hhits) line hline
          (hsearch value caseSensitive rfl line hline hmatch)
      | loghookRule ruleId =>
        obtain ⟨hits, hhits', hmem⟩ := hmatch
        rw [matchingLeafLines, hhits'] at hhits
        rw [Except.ok.inj hhits] at hmem
        cases hmem
    · exact Or.inr ⟨hits, rfl, hempty⟩

/-- An error, and lines until the channel is nearly full. -/
def quietLine : NewLine := ⟨.text "", "RX", "ok"⟩

def flood : List NewLine := ⟨.text "", "RX", "ERROR"⟩ :: List.replicate 4998 quietLine

def wholeRange : Params := [("start_seq", .int 0), ("end_seq", .int 4999)]

theorem length_flood : flood.length = 4999 := by
  rw [flood, List.length_cons, List.length_replicate]

/-- All lines but the first are quiet. -/
theorem text_of_mem_history {news : List NewLine} (hnews : ∀ new ∈ news, new = quietLine) {line : LogLine}
    (h : line ∈ history (flood ++ news)) : line.seq = 0 ∨ line.text = "ok" := by
  obtain ⟨⟨new, i⟩, hnew, rfl⟩ := List.mem_map.mp h
  rw [List.mem_zipIdx_iff_getElem?] at hnew
  cases i with
  | zero => exact Or.inl rfl
  | succ i =>
    right
    have hrest : new ∈ List.replicate 4998 quietLine ++ news := List.mem_of_getElem? hnew
    have hquiet : new = quietLine := by
      rcases List.mem_append.mp hrest with hmem | hmem
      · exact List.eq_of_mem_replicate hmem
      · exact hnews new hmem
    rw [hquiet]
    rfl

/-- The channel has all the lines, so that the whole range is accepted. -/
theorem normalise_flood : normaliseCursorRange (moduleLines (channelAfter (flood ++ [quietLine]))) wholeRange =
    .ok ⟨0, 4999⟩ := by
  have hlines : moduleLines (channelAfter (flood ++ [quietLine])) = history (flood ++ [quietLine]) := by
    rw [moduleLines_eq, List.filter_eq_self]
    intro line _
    rw [length_history, List.length_append, length_flood, decide_eq_true_eq]
    exact Nat.le_add_left _ _
  have hlast : (history (flood ++ [quietLine])).getLast? = some ⟨4999, .text "", "RX", "ok"⟩ := by
    rw [history_append, List.getLast?_concat, length_flood]
    rfl
  have hfirst : (history (flood ++ [quietLine])).head? = some ⟨0, .text "", "RX", "ERROR"⟩ := by
    rw [flood, history, List.cons_append, List.zipIdx_cons, List.map_cons, List.head?_cons]
  have hstart : windowInt wholeRange "start_seq" = .ok 0 := rfl
  have hend : windowInt wholeRange "end_seq" = .ok 4999 := rfl
  rw [hlines, normaliseCursorRange, hstart, hend, hlast, hfirst]
  rfl

/-- One more line than the channel keeps, and the error is gone. -/
theorem flood_not_absenceSound : ¬ ∀ (env : Engines) (found : String → Bool → String → Prop)
    (before between : List NewLine) (window : Params) (matcher : Leaf),
      AbsenceSound env found before between window matcher := by
  intro h
  have hsound := h ⟨id, fun _ _ _ => none, fun _ => none, 0⟩ (fun _ _ _ => False) (flood ++ [quietLine])
    [quietLine] wholeRange (.literal "ERROR" true)
  have hquiet : ∀ new ∈ [quietLine] ++ [quietLine], new = quietLine := by decide
  rcases (absenceSound_iff ..).mp hsound _ normalise_flood with hnone | ⟨hits, hhits, hne⟩
  · apply hnone ⟨0, .text "", "RX", "ERROR"⟩
    · apply List.mem_filter.mpr
      refine ⟨?_, rfl⟩
      rw [flood, history, List.cons_append, List.cons_append, List.zipIdx_cons, List.map_cons]
      exact List.mem_cons_self
    · change literalHit _ _ _ _ = true
      decide
  · obtain rfl := Except.ok.inj hhits
    apply hne
    apply List.filter_eq_nil_iff.mpr
    intro line hline
    obtain ⟨hline, hleft⟩ := List.mem_filter.mp hline
    rw [List.append_assoc, List.length_append, length_flood, decide_eq_true_eq] at hleft
    have hmem := (List.mem_filter.mp hline).1
    rw [List.append_assoc] at hmem
    rcases text_of_mem_history hquiet hmem with hzero | htext
    · rw [hzero] at hleft
      exact absurd hleft (by decide)
    · rw [literalHit, htext]
      decide

end Absence

end HplcWorkbench.ModuleLog
