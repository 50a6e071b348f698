import HplcWorkbench.MaximalRuns
import Mathlib.Data.List.Induction

/-!
# Watching a growing log

At each poll the watch reads what the file holds by then and takes each piece up to a line end, or up
to the end of the file, for a line. A line that was written in part is read in parts. With a callback
of the caller the hits of the pattern are not noted.
-/

namespace HplcWorkbench.LogHooks

open MaximalRuns

/-- An event of the engine, as `watch` returns it. -/
structure WatchEvent where
  type : String
  label : String
  message : String
  level : String
  time : String
  ruleId : String
  category : String
  sourceLine : String
  deriving DecidableEq, Repr

/-- `parse_module_log`, and `Engine.feed` with the events that it emits. Their rules are left open. -/
structure LineEngine (σ L : Type) where
  parse : List Char → Option L
  feed : σ → L → σ × List WatchEvent

/-! ## Reading -/

/-- The newlines of a text file, as Python reads them. -/
def universalNewlines : List Char → List Char
  | [] => []
  | '\r' :: '\n' :: rest => '\n' :: universalNewlines rest
  | c :: rest => (if c = '\r' then '\n' else c) :: universalNewlines rest

/-- `for raw in f`, up to the end of the file. -/
def rawLines : List Char → List (List Char)
  | [] => []
  | c :: rest =>
    if c = '\n' then [c] :: rawLines rest
    else (c :: (rawLines rest).headD []) :: (rawLines rest).tail

/-- `\r` or `\n`. -/
def lineEnd (c : Char) : Bool := c = '\r' || c = '\n'

/-- `raw.rstrip("\r\n")`. -/
def stripEnd (raw : List Char) : List Char := (raw.reverse.dropWhile lineEnd).reverse

/-- The lines of what a poll reads. -/
def linesOf (text : List Char) : List (List Char) :=
  ((rawLines (universalNewlines text)).map stripEnd).filter (· ≠ [])

/-! ## The watch -/

structure WatchState (σ : Type) where
  engine : σ
  lines : List (List Char) := []
  events : List WatchEvent := []
  patternHits : List String := []

section Watch
variable {σ L : Type} (engine : LineEngine σ L) (pattern callback : Bool)

/-- `_default_on_event` over the events of a line: the hits of the rule that was made of the pattern. -/
def hitTimes (events : List WatchEvent) : List String :=
  if pattern && !callback then (events.filter fun e => e.ruleId = "watch.pattern").map WatchEvent.time
  else []

/-- A line is handed to the parser and, parsed, to the engine. -/
def handLine (s : WatchState σ) (line : List Char) : WatchState σ :=
  let s := { s with lines := s.lines ++ [line] }
  match engine.parse line with
  | none => s
  | some parsed =>
    let (next, events) := engine.feed s.engine parsed
    { s with
      engine := next
      events := s.events ++ events
      patternHits := s.patternHits ++ hitTimes pattern callback events }

/-- The loop of `watch`, over what the file has got by each poll. -/
def watchLoop (s : WatchState σ) : List (List Char) → WatchState σ
  | [] => s
  | text :: rest =>
    let s := (linesOf text).foldl (handLine engine pattern callback) s
    if pattern && s.patternHits ≠ [] then s else watchLoop s rest

/-- `watch` of one file, with or without a pattern and a callback of the caller. -/
def watch (start : σ) (polls : List (List Char)) : WatchState σ :=
  watchLoop engine pattern callback { engine := start } polls

/-- Lines that are handed on one after the other. -/
def handed (start : σ) (lines : List (List Char)) : WatchState σ :=
  lines.foldl (handLine engine pattern callback) { engine := start }

/-- A pattern hits in the last line of a text only. -/
def OnlyLastHits (start : σ) (text : List Char) : Prop :=
  (handed engine pattern false start (linesOf text).dropLast).patternHits = []

/-- The lines, the events, `pattern_hit` and `hit_count` of two watches are the same. -/
structure SameWatch (s s' : WatchState σ) : Prop where
  lines : s.lines = s'.lines
  events : s.events = s'.events
  patternHit : s.patternHits ≠ [] ↔ s'.patternHits ≠ []
  hitCount : s.patternHits.length = s'.patternHits.length

end Watch

/-! ## Lines are runs -/

theorem runs_universalNewlines (text : List Char) :
    runs lineEnd (universalNewlines text) = runs lineEnd text ∧
      ((universalNewlines text).head?.any fun d => !lineEnd d) = text.head?.any fun d => !lineEnd d := by
  induction text using universalNewlines.induct with
  | case1 => exact ⟨rfl, rfl⟩
  | case2 rest ih =>
    rw [universalNewlines, runs_cons_sep rfl, runs_cons_sep rfl, runs_cons_sep rfl]
    exact ⟨ih.1, rfl⟩
  | case3 c rest hne ih =>
    have hstep : universalNewlines (c :: rest) =
        (if c = '\r' then '\n' else c) :: universalNewlines rest := by
      rw [universalNewlines]
      exact hne
    rw [hstep]
    by_cases hc : c = '\r'
    · subst hc
      rw [if_pos rfl, runs_cons_sep rfl, runs_cons_sep rfl]
      exact ⟨ih.1, rfl⟩
    · rw [if_neg hc, runs, runs, ih.1, ih.2]
      exact ⟨rfl, rfl⟩

theorem no_return_universalNewlines (text : List Char) : '\r' ∉ universalNewlines text := by
  induction text using universalNewlines.induct with
  | case1 => exact List.not_mem_nil
  | case2 rest ih =>
    rw [universalNewlines, List.mem_cons, not_or]
    exact ⟨by decide, ih⟩
  | case3 c rest hne ih =>
    have hstep : universalNewlines (c :: rest) =
        (if c = '\r' then '\n' else c) :: universalNewlines rest := by
      rw [universalNewlines]
      exact hne
    rw [hstep, List.mem_cons, not_or]
    refine ⟨?_, ih⟩
    split
    · decide
    · rename_i hc
      exact fun h => hc h.symm

theorem stripEnd_cons {c : Char} (hc : lineEnd c = false) (rest : List Char) :
    stripEnd (c :: rest) = c :: stripEnd rest := by
  rw [stripEnd, stripEnd, List.reverse_cons, List.dropWhile_append]
  split
  · rename_i hempty
    rw [List.isEmpty_iff] at hempty
    rw [hempty, List.dropWhile_cons_of_neg (by rw [hc]; exact Bool.false_ne_true)]
    rfl
  · rw [List.reverse_append]
    rfl

theorem strip_rawLines {text : List Char} (h : '\r' ∉ text) :
    ((rawLines text).map stripEnd).filter (· ≠ []) = runs lineEnd text := by
  induction text with
  | nil => rfl
  | cons c rest ih =>
    rw [List.mem_cons, not_or] at h
    have hrest := ih h.2
    have hend : ∀ d, d ≠ '\r' → lineEnd d = decide (d = '\n') := by
      intro d hd
      rw [lineEnd, decide_eq_false hd, Bool.false_or]
    by_cases hc : c = '\n'
    · subst hc
      rw [rawLines, if_pos rfl, runs_cons_sep rfl, ← hrest]
      rfl
    · have hsep : lineEnd c = false := by rw [hend c (Ne.symm h.1), decide_eq_false hc]
      rw [rawLines, if_neg hc]
      cases rest with
      | nil =>
        rw [runs_cons_alone hsep (by simp)]
        change ([[c]].map stripEnd).filter (· ≠ []) = _
        rw [List.map_singleton, stripEnd_cons hsep]
        rfl
      | cons d rest =>
        have hd : d ≠ '\r' := fun heq => h.2 (heq ▸ List.mem_cons_self)
        by_cases hnl : d = '\n'
        · subst hnl
          rw [rawLines, if_pos rfl] at hrest ⊢
          rw [runs_cons_alone hsep (by simp [lineEnd]), ← hrest]
          change ([c, '\n'] :: rawLines rest |>.map stripEnd).filter (· ≠ []) = _
          rw [List.map_cons, stripEnd_cons hsep]
          rfl
        · have hdsep : lineEnd d = false := by rw [hend d hd, decide_eq_false hnl]
          rw [rawLines, if_neg hnl] at hrest ⊢
          rw [runs_cons_joined hsep hdsep, ← hrest]
          dsimp only [List.headD_cons, List.tail_cons]
          rw [List.map_cons, List.map_cons, stripEnd_cons hsep, stripEnd_cons hdsep]
          rfl

/-- The lines of a poll are the runs between line ends. -/
theorem linesOf_eq (text : List Char) : linesOf text = runs lineEnd text := by
  rw [linesOf, strip_rawLines (no_return_universalNewlines text), (runs_universalNewlines text).1]

/-! ## Handing on -/

section Handed
variable {σ L : Type} {engine : LineEngine σ L} {pattern callback : Bool} {start : σ}

theorem handLine_lines (s : WatchState σ) (line : List Char) :
    (handLine engine pattern callback s line).lines = s.lines ++ [line] := by
  rw [handLine]
  cases engine.parse line <;> rfl

theorem handed_concat (lines : List (List Char)) (line : List Char) :
    handed engine pattern callback start (lines ++ [line]) =
      handLine engine pattern callback (handed engine pattern callback start lines) line := by
  rw [handed, List.foldl_append]
  rfl

theorem handed_lines (lines : List (List Char)) :
    (handed engine pattern callback start lines).lines = lines := by
  induction lines using List.reverseRecOn with
  | nil => rfl
  | append_singleton lines line ih => rw [handed_concat, handLine_lines, ih]

/-- A callback changes neither the engine nor the events. -/
theorem handed_callback (lines : List (List Char)) :
    (handed engine pattern callback start lines).engine = (handed engine pattern false start lines).engine ∧
      (handed engine pattern callback start lines).events =
        (handed engine pattern false start lines).events := by
  induction lines using List.reverseRecOn with
  | nil => exact ⟨rfl, rfl⟩
  | append_singleton lines line ih =>
    obtain ⟨hengine, hevents⟩ := ih
    rw [handed_concat, handed_concat, handLine, handLine]
    cases engine.parse line with
    | none => exact ⟨hengine, hevents⟩
    | some parsed =>
      dsimp only
      rw [hengine, hevents]
      exact ⟨rfl, rfl⟩

/-- With a callback no hit is noted. -/
theorem handed_hits_callback (lines : List (List Char)) :
    (handed engine pattern true start lines).patternHits = [] := by
  induction lines using List.reverseRecOn with
  | nil => rfl
  | append_singleton lines line ih =>
    rw [handed_concat, handLine]
    cases engine.parse line with
    | none => exact ih
    | some parsed =>
      dsimp only
      rw [ih, hitTimes, Bool.not_true, Bool.and_false]
      rfl

/-- Hits are not taken back. -/
theorem handed_hits_append {lines more : List (List Char)}
    (h : (handed engine pattern callback start (lines ++ more)).patternHits = []) :
    (handed engine pattern callback start lines).patternHits = [] := by
  induction more using List.reverseRecOn with
  | nil => rwa [List.append_nil] at h
  | append_singleton more line ih =>
    rw [← List.append_assoc, handed_concat, handLine] at h
    apply ih
    cases hparse : engine.parse line with
    | none =>
      rw [hparse] at h
      exact h
    | some parsed =>
      rw [hparse] at h
      exact (List.append_eq_nil_iff.mp h).1

/-! ## Polls -/

theorem foldl_handed (lines more : List (List Char)) :
    more.foldl (handLine engine pattern callback) (handed engine pattern callback start lines) =
      handed engine pattern callback start (lines ++ more) := by
  rw [handed, handed, List.foldl_append]

/-- The watch hands on what some of the polls read. -/
theorem watchLoop_take (lines : List (List Char)) (polls : List (List Char)) :
    ∃ k, watchLoop engine pattern callback (handed engine pattern callback start lines) polls =
      handed engine pattern callback start (lines ++ (polls.take k).flatMap linesOf) := by
  induction polls generalizing lines with
  | nil => exact ⟨0, by rw [watchLoop, List.take_nil, List.flatMap_nil, List.append_nil]⟩
  | cons text rest ih =>
    rw [watchLoop, foldl_handed]
    split
    · exact ⟨1, by rw [List.take_succ_cons, List.take_zero, List.flatMap_singleton]⟩
    · obtain ⟨k, hk⟩ := ih (lines ++ linesOf text)
      exact ⟨k + 1, by rw [hk, List.take_succ_cons, List.flatMap_cons, List.append_assoc]⟩

/-- A hit in the last line ends the watch when all lines are handed on. -/
theorem watchLoop_eq (lines : List (List Char)) {polls : List (List Char)}
    (hlast : (handed engine pattern callback start
      (lines ++ polls.flatMap linesOf).dropLast).patternHits = []) :
    watchLoop engine pattern callback (handed engine pattern callback start lines) polls =
      handed engine pattern callback start (lines ++ polls.flatMap linesOf) := by
  induction polls generalizing lines with
  | nil => rw [watchLoop, List.flatMap_nil, List.append_nil]
  | cons text rest ih =>
    rw [List.flatMap_cons, ← List.append_assoc] at hlast
    rw [watchLoop, foldl_handed, List.flatMap_cons, ← List.append_assoc]
    split
    · rename_i hstop
      rw [Bool.and_eq_true, decide_eq_true_eq] at hstop
      cases hmore : rest.flatMap linesOf with
      | nil => rw [List.append_nil]
      | cons line more =>
        rw [hmore, List.dropLast_append_of_ne_nil (List.cons_ne_nil line more)] at hlast
        exact absurd (handed_hits_append hlast) hstop.2
    · exact ih _ hlast

theorem watch_eq {polls : List (List Char)}
    (hlast : (handed engine pattern callback start (polls.flatMap linesOf).dropLast).patternHits = []) :
    watch engine pattern callback start polls =
      handed engine pattern callback start (polls.flatMap linesOf) :=
  watchLoop_eq [] hlast

end Handed

/-- A watch is independent of how the file grows exactly when no poll ends inside a line and, with a
callback, no line hits. -/
theorem sameWatch_iff {σ L : Type} (engine : LineEngine σ L) (pattern callback : Bool) (start : σ)
    (polls : List (List Char)) (hlast : OnlyLastHits engine pattern start polls.flatten) :
    SameWatch (watch engine pattern callback start polls)
        (watch engine pattern false start [polls.flatten]) ↔
      Whole lineEnd polls ∧ (callback = true →
        (handed engine pattern false start (linesOf polls.flatten)).patternHits = []) := by
  have hlines : linesOf = runs lineEnd := funext linesOf_eq
  have hone : watch engine pattern false start [polls.flatten] =
      handed engine pattern false start (linesOf polls.flatten) := by
    rw [watch_eq, List.flatMap_singleton]
    rw [List.flatMap_singleton]
    exact hlast
  rw [hone]
  constructor
  · intro h
    obtain ⟨k, hk⟩ := watchLoop_take [] polls
    rw [watch, show ({ engine := start } : WatchState σ) = handed engine pattern callback start [] from rfl,
      hk, List.nil_append] at h
    have hread := h.lines
    rw [handed_lines, handed_lines, hlines] at hread
    constructor
    · have hrest := flatMap_runs_drop hread
      rw [← flatMap_runs_iff, ← hread]
      conv_lhs => rw [← List.take_append_drop k polls, List.flatMap_append, hrest, List.append_nil]
    · rintro rfl
      have hcount := h.hitCount
      rw [handed_hits_callback, List.length_nil] at hcount
      exact List.length_eq_zero_iff.mp hcount.symm
  · rintro ⟨hwhole, hsilent⟩
    rw [← flatMap_runs_iff, ← hlines] at hwhole
    have hhits : (handed engine pattern callback start (linesOf polls.flatten)).patternHits =
        (handed engine pattern false start (linesOf polls.flatten)).patternHits := by
      cases callback with
      | false => rfl
      | true => rw [handed_hits_callback, hsilent rfl]
    have hwatch : watch engine pattern callback start polls =
        handed engine pattern callback start (linesOf polls.flatten) := by
      rw [watch_eq, hwhole]
      rw [hwhole]
      cases callback with
      | false => exact hlast
      | true => exact handed_hits_callback _
    rw [hwatch]
    exact ⟨by rw [handed_lines, handed_lines], (handed_callback _).2, by rw [hhits], by rw [hhits]⟩

/-- A module log line whose message is `foo` hits. -/
def fooEngine : LineEngine Unit (List Char) where
  parse line :=
    let head := "[20260818-10:00:01:000] [TX] ".toList
    if head.isPrefixOf line then some (line.drop head.length) else none
  feed _ message :=
    ((), if message = "foo".toList then
      [{ type := "watch.hit"
         label := "自定义断言命中: foo"
         message := "匹配到: foo"
         level := "info"
         time := "20260818-10:00:01:000"
         ruleId := "watch.pattern"
         category := "watch"
         sourceLine := "[20260818-10:00:01:000] [TX] foo" }]
      else [])

/-- A line that is written in two parts. -/
def cutLine : List (List Char) := ["[20260818-10:00:01:000] [TX] f".toList, "oo\n".toList]

theorem onlyLastHits_cutLine : OnlyLastHits fooEngine true () cutLine.flatten := by
  have hsingle : (linesOf cutLine.flatten).dropLast = [] := by decide +kernel
  rw [OnlyLastHits, hsingle]
  rfl

theorem cutLine_sameWatch_iff :
    SameWatch (watch fooEngine true false () cutLine) (watch fooEngine true false () [cutLine.flatten]) ↔
      Whole lineEnd cutLine ∧ (false = true →
        (handed fooEngine true false () (linesOf cutLine.flatten)).patternHits = []) :=
  sameWatch_iff fooEngine true false () cutLine onlyLastHits_cutLine

/-- The parts are read as lines, and with a callback the whole line is no hit. -/
theorem cutLine_not_sameWatch :
    OnlyLastHits fooEngine true () cutLine.flatten ∧
      ¬ SameWatch (watch fooEngine true false () cutLine) (watch fooEngine true false () [cutLine.flatten]) ∧
      ¬ SameWatch (watch fooEngine true true () [cutLine.flatten])
        (watch fooEngine true false () [cutLine.flatten]) := by
  refine ⟨onlyLastHits_cutLine, fun h => ?_, fun h => ?_⟩
  · exact absurd h.lines (by decide +kernel)
  · exact absurd h.hitCount (by decide +kernel)

end HplcWorkbench.LogHooks
