import HplcWorkbench.KeyedFolds
import HplcWorkbench.ListenerLog
import Mathlib.Algebra.Order.Field.Rat
import Mathlib.Data.List.MinMax
import Mathlib.Data.List.ProdSigma

/-!
# Correlation of two logs

Events of a module log and of the listener are put together by their anchors and by their clocks. An
identifier is an anchor as it is spelled, but for the zeros in front of a captured one, and clocks are
subtracted as they stand. So an identifier is reported as it should be where the nearest events spell
it alike, on one side of midnight.
-/

namespace HplcWorkbench.LogHooks

open Adapter10376 (pySpace)
open ListenerLog (digitsInt)
open OrderedDict (Dict)

/-! ## Events and anchors -/

/-- What `correlate` reads of an event. -/
structure ScanEvent where
  type : String
  message : String
  time : String
  sourceLine : String
  captures : Dict String PyVal := .empty

/-- The texts of `extract_anchors`: `nid:…`, or `freeze:…` and `mac:…`. -/
inductive Anchor
  | nid (digits : List Char)
  | other (text : String)
  deriving DecidableEq

/-- A character as a pattern without regard to case compares it. -/
def foldCase (c : Char) : Char := if c = 'İ' ∨ c = 'ı' then 'i' else c.toLower

/-- `nid\s*[:=]\s*(0x)?([0-9a-f]{4,6})` of a text, in either case: the digits. -/
def readNid (cs : List Char) : Option (List Char) :=
  if (cs.take 3).map foldCase ≠ "nid".toList then none
  else
    match (cs.drop 3).dropWhile pySpace with
    | [] => none
    | sign :: rest =>
      if sign ≠ ':' ∧ sign ≠ '=' then none
      else
        let rest := rest.dropWhile pySpace
        let rest := if (rest.take 2).map foldCase = "0x".toList then rest.drop 2 else rest
        let digits := (rest.takeWhile fun c => (hexDigitValue c).isSome).take 6
        if digits.length < 4 then none else some digits

def nidDigits (text : String) : Option (List Char) := text.toList.tails.findSome? readNid

/-- `_parse_time`, in seconds. -/
def parseTime (ts : String) : Option ℚ :=
  let clock (h m s u : List Char) : Option ℚ := do
    let hours ← digitsInt h
    let minutes ← digitsInt m
    let seconds ← digitsInt s
    let milli ← digitsInt u
    pure (hours * 3600 + minutes * 60 + seconds + milli / 1000)
  match ts.toList with
  | y₁ :: y₂ :: y₃ :: y₄ :: o₁ :: o₂ :: d₁ :: d₂ :: '-' :: h₁ :: h₂ :: ':' :: m₁ :: m₂ :: ':' :: s₁ ::
      s₂ :: ':' :: u₁ :: u₂ :: u₃ :: _ => do
    let _ ← digitsInt [y₁, y₂, y₃, y₄, o₁, o₂, d₁, d₂]
    clock [h₁, h₂] [m₁, m₂] [s₁, s₂] [u₁, u₂, u₃]
  | h₁ :: h₂ :: ':' :: m₁ :: m₂ :: ':' :: s₁ :: s₂ :: '.' :: u₁ :: u₂ :: u₃ :: _ =>
    clock [h₁, h₂] [m₁, m₂] [s₁, s₂] [u₁, u₂, u₃]
  | _ => none

/-- `gap`: clocks that cannot be compared count as equal. -/
def timeGap (mev lev : ScanEvent) : ℚ :=
  match parseTime mev.time, parseTime lev.time with
  | some mt, some lt => |mt - lt|
  | _, _ => 0

/-- What a correlation shows of an event. -/
structure Shown where
  type : String
  time : String
  message : String
  deriving DecidableEq

def ScanEvent.shown (ev : ScanEvent) : Shown := ⟨ev.type, ev.time, ev.message⟩

/-- `Correlation`, as `correlate` makes it. -/
structure Correlation where
  anchor : Anchor
  matched : Bool
  moduleLog : Shown
  listener : Shown
  snid : PyVal
  timeGapS : ℚ

section Correlate
variable (others : String → List String)

/-- `extract_anchors`. The times of freezing and the station addresses are left open. -/
def extractAnchors (text : String) : List Anchor :=
  (nidDigits text).toList.map (fun digits => .nid (digits.map Char.toLower)) ++ (others text).map .other

def moduleAnchors (ev : ScanEvent) : List Anchor :=
  extractAnchors others ev.message ++ extractAnchors others ev.sourceLine

/-- The anchor of a captured identifier. -/
def snidAnchor (ev : ScanEvent) : List Anchor :=
  (ev.captures.get? "snid").toList.map fun snid =>
    .nid ((snid.toStr.toList.map Char.toLower).dropWhile (· = '0'))

def listenerAnchors (ev : ScanEvent) : List Anchor :=
  extractAnchors others ev.message ++ snidAnchor ev ++ extractAnchors others ev.sourceLine

/-- `module_by_anchor` and `listener_by_anchor`. -/
def byAnchor (anchors : ScanEvent → List Anchor) (events : List ScanEvent) :
    Dict Anchor (List ScanEvent) :=
  KeyedFolds.collect Prod.fst (fun evs entry => evs.getD [] ++ [entry.2])
    (events.flatMap fun ev => (anchors ev).map fun anchor => (anchor, ev))

/-- The body of the loop over the anchors: the first of the nearest pairs. -/
def correlateAnchor (listenerByAnchor : Dict Anchor (List ScanEvent)) (windowS : ℚ)
    (entry : Anchor × List ScanEvent) : Option Correlation :=
  let listenerEvents := (listenerByAnchor.get? entry.1).getD []
  match (entry.2 ×ˢ listenerEvents).argmin fun p => timeGap p.1 p.2 with
  | none => none
  | some (mev, lev) =>
    if timeGap mev lev ≤ windowS then
      some
        { anchor := entry.1
          matched := true
          moduleLog := mev.shown
          listener := lev.shown
          snid := (lev.captures.get? "snid").getD (.str "")
          timeGapS := timeGap mev lev }
    else none

/-- `correlate` of two results. -/
def correlate (moduleEvents listenerEvents : List ScanEvent) (windowS : ℚ) : List Correlation :=
  (byAnchor (moduleAnchors others) moduleEvents).entries.filterMap
    (correlateAnchor (byAnchor (listenerAnchors others) listenerEvents) windowS)

end Correlate

/-! ## Identifiers -/

/-- The number that hexadecimal digits stand for. -/
def idValue (digits : List Char) : Option ℕ :=
  if digits = [] then none
  else digits.foldlM (fun v c => (hexDigitValue c).map fun d => 16 * v + d) 0

theorem hexDigitValue_toLower (c : Char) : hexDigitValue c.toLower = hexDigitValue c := by
  by_cases hc : c.isUpper
  · obtain ⟨h65, h90⟩ : 65 ≤ c.toNat ∧ c.toNat ≤ 90 := by
      change decide (c.val ≥ 'A'.val ∧ c.val ≤ 'Z'.val) = true at hc
      simpa [UInt32.le_iff_toNat_le] using hc
    rw [← Char.ofNat_toNat c]
    interval_cases c.toNat <;> rfl
  · have hsame : c.toLower = c := dif_neg fun hupper => hc (decide_eq_true hupper)
    rw [hsame]

theorem idValue_map_toLower (cs : List Char) : idValue (cs.map Char.toLower) = idValue cs := by
  rw [idValue, idValue, List.foldlM_map]
  simp only [List.map_eq_nil_iff, hexDigitValue_toLower]

theorem idValue_dropWhile {cs : List Char} {n : ℕ} (h : idValue (cs.dropWhile (· = '0')) = some n) :
    idValue cs = some n := by
  induction cs with
  | nil => cases h
  | cons c cs ih =>
    by_cases hc : c = '0'
    · subst hc
      have hn := ih (by rwa [List.dropWhile_cons_of_pos (by rfl)] at h)
      rw [idValue] at hn
      split at hn
      · cases hn
      · rwa [idValue, if_neg (List.cons_ne_nil _ _)]
    · rwa [List.dropWhile_cons_of_neg (by rwa [decide_eq_true_eq])] at h

/-- The identifiers in the message and in the line of an event. -/
def ScanEvent.writtenIds (ev : ScanEvent) : List ℕ :=
  ((nidDigits ev.message).toList ++ (nidDigits ev.sourceLine).toList).filterMap idValue

/-- The identifiers of an event of the listener. -/
def ScanEvent.listenerIds (ev : ScanEvent) : List ℕ :=
  ev.writtenIds ++ (ev.captures.get? "snid").toList.filterMap fun snid => idValue snid.toStr.toList

def Anchor.id? : Anchor → Option ℕ
  | .nid digits => idValue digits
  | .other _ => none

section Ids
variable {others : String → List String} {digits : List Char} {n : ℕ} {ev : ScanEvent}

theorem id?_eq_some_iff {anchor : Anchor} :
    anchor.id? = some n ↔ ∃ digits, anchor = .nid digits ∧ idValue digits = some n := by
  cases anchor with
  | nid digits => exact ⟨fun h => ⟨digits, rfl, h⟩, by rintro ⟨_, ⟨⟩, h⟩; exact h⟩
  | other text =>
    constructor
    · rintro ⟨⟩
    · rintro ⟨_, ⟨⟩, _⟩

theorem mem_nidDigits {text : String} (h : .nid digits ∈ extractAnchors others text)
    (hn : idValue digits = some n) : n ∈ (nidDigits text).toList.filterMap idValue := by
  rcases List.mem_append.mp h with h | h
  · obtain ⟨raw, hraw, heq⟩ := List.mem_map.mp h
    cases heq
    rw [idValue_map_toLower] at hn
    exact List.mem_filterMap.mpr ⟨raw, hraw, hn⟩
  · obtain ⟨_, _, heq⟩ := List.mem_map.mp h
    cases heq

theorem mem_writtenIds (h : .nid digits ∈ moduleAnchors others ev) (hn : idValue digits = some n) :
    n ∈ ev.writtenIds := by
  rw [ScanEvent.writtenIds, List.filterMap_append, List.mem_append]
  exact (List.mem_append.mp h).imp (mem_nidDigits · hn) (mem_nidDigits · hn)

theorem mem_listenerIds (h : .nid digits ∈ listenerAnchors others ev)
    (hn : idValue digits = some n) : n ∈ ev.listenerIds := by
  rw [ScanEvent.listenerIds, List.mem_append]
  rw [listenerAnchors, List.append_assoc, List.mem_append, List.mem_append] at h
  rcases h with h | h | h
  · exact .inl (mem_writtenIds (List.mem_append_left _ h) hn)
  · right
    obtain ⟨snid, hsnid, heq⟩ := List.mem_map.mp h
    cases heq
    have hraw := idValue_dropWhile hn
    rw [idValue_map_toLower] at hraw
    exact List.mem_filterMap.mpr ⟨snid, hsnid, hraw⟩
  · exact .inl (mem_writtenIds (List.mem_append_right _ h) hn)

end Ids

/-! ## Reports -/

section ByAnchor
variable {anchors : ScanEvent → List Anchor} {events : List ScanEvent} {anchor : Anchor}
  {ev : ScanEvent}

theorem mem_byAnchor :
    ev ∈ ((byAnchor anchors events).get? anchor).getD [] ↔ ev ∈ events ∧ anchor ∈ anchors ev := by
  have hentry : ∀ e : Anchor × ScanEvent,
      e ∈ (events.flatMap fun ev => (anchors ev).map fun anchor => (anchor, ev)) ↔
        e.2 ∈ events ∧ e.1 ∈ anchors e.2 := by
    intro e
    rw [List.mem_flatMap]
    constructor
    · rintro ⟨ev, hev, hmem⟩
      obtain ⟨anchor, hanchor, rfl⟩ := List.mem_map.mp hmem
      exact ⟨hev, hanchor⟩
    · rintro ⟨hev, hanchor⟩
      exact ⟨e.2, hev, List.mem_map.mpr ⟨e.1, hanchor, rfl⟩⟩
  cases hget : (byAnchor anchors events).get? anchor with
  | none =>
    rw [byAnchor, KeyedFolds.get?_collect_eq_none_iff] at hget
    constructor
    · rintro ⟨⟩
    · intro h
      exact absurd rfl (hget (anchor, ev) ((hentry _).mpr h))
  | some evs =>
    rw [Option.getD_some, KeyedFolds.get?_groups hget, List.mem_map]
    constructor
    · rintro ⟨e, he, rfl⟩
      obtain ⟨hmem, rfl⟩ := KeyedFolds.mem_fiber.mp he
      exact (hentry e).mp hmem
    · intro h
      exact ⟨(anchor, ev), KeyedFolds.mem_fiber.mpr ⟨(hentry _).mpr h, rfl⟩, rfl⟩

end ByAnchor

section Pairs
variable (others : String → List String) (moduleEvents listenerEvents : List ScanEvent)
  (windowS : ℚ) (n : ℕ)

/-- The pairs of events that have an anchor, spelled the same. -/
def spelling (anchor : Anchor) : List (ScanEvent × ScanEvent) :=
  (moduleEvents ×ˢ listenerEvents).filter fun p =>
    anchor ∈ moduleAnchors others p.1 ∧ anchor ∈ listenerAnchors others p.2

/-- The pairs of events that carry an identifier. -/
def carrying : List (ScanEvent × ScanEvent) :=
  (moduleEvents ×ˢ listenerEvents).filter fun p =>
    n ∈ p.1.writtenIds ∧ n ∈ p.2.listenerIds

/-- The distance of two clocks around midnight. -/
def aroundMidnight (p : ScanEvent × ScanEvent) : ℚ :=
  min (timeGap p.1 p.2) (86400 - timeGap p.1 p.2)

def Nearest (p : ScanEvent × ScanEvent) : Prop :=
  ∀ q ∈ carrying moduleEvents listenerEvents n, aroundMidnight p ≤ aroundMidnight q

/-- The report of a pair. -/
structure Reports (c : Correlation) (p : ScanEvent × ScanEvent) : Prop where
  moduleLog : c.moduleLog = p.1.shown
  listener : c.listener = p.2.shown

/-- The correlations of an identifier. -/
def correlationsOf : List Correlation :=
  (correlate others moduleEvents listenerEvents windowS).filter fun c => c.anchor.id? = some n

def Within : Prop := ∃ p ∈ carrying moduleEvents listenerEvents n, aroundMidnight p ≤ windowS

/-- One correlation of a nearest pair in the window, and none without such a pair. -/
structure Correlated : Prop where
  reported : Within moduleEvents listenerEvents windowS n →
    ∃ c, correlationsOf others moduleEvents listenerEvents windowS n = [c] ∧
      ∃ p ∈ carrying moduleEvents listenerEvents n,
        Reports c p ∧ Nearest moduleEvents listenerEvents n p
  silent : ¬ Within moduleEvents listenerEvents windowS n →
    correlationsOf others moduleEvents listenerEvents windowS n = []

/-- The nearest of the pairs with one spelling are in the window by their clocks and nearest around
midnight, and no pair with another spelling is in the window. -/
structure SpelledAlike (digits : List Char) : Prop where
  value : idValue digits = some n
  nearest : ∃ p ∈ spelling others moduleEvents listenerEvents (.nid digits),
    (∀ q ∈ spelling others moduleEvents listenerEvents (.nid digits),
      timeGap p.1 p.2 ≤ timeGap q.1 q.2) ∧
    timeGap p.1 p.2 ≤ windowS ∧ Nearest moduleEvents listenerEvents n p
  only : ∀ digits', idValue digits' = some n →
    ∀ q ∈ spelling others moduleEvents listenerEvents (.nid digits'),
      timeGap q.1 q.2 ≤ windowS → digits' = digits

end Pairs

section Correct
variable {others : String → List String} {moduleEvents listenerEvents : List ScanEvent}
  {windowS : ℚ} {n : ℕ} {anchor : Anchor} {p : ScanEvent × ScanEvent} {c : Correlation}

theorem mem_spelling :
    p ∈ spelling others moduleEvents listenerEvents anchor ↔
      p ∈ ((byAnchor (moduleAnchors others) moduleEvents).get? anchor).getD [] ×ˢ
        ((byAnchor (listenerAnchors others) listenerEvents).get? anchor).getD [] := by
  obtain ⟨mev, lev⟩ := p
  rw [spelling, List.mem_filter, decide_eq_true_eq, List.mem_product, List.mem_product, mem_byAnchor,
    mem_byAnchor]
  tauto

theorem mem_carrying_of_mem_spelling {digits : List Char} (hn : idValue digits = some n)
    (hp : p ∈ spelling others moduleEvents listenerEvents (.nid digits)) :
    p ∈ carrying moduleEvents listenerEvents n := by
  rw [spelling, List.mem_filter, decide_eq_true_eq] at hp
  rw [carrying, List.mem_filter, decide_eq_true_eq]
  exact ⟨hp.1, mem_writtenIds hp.2.1 hn, mem_listenerIds hp.2.2 hn⟩

theorem aroundMidnight_of_reports {q : ScanEvent × ScanEvent} (hp : Reports c p) (hq : Reports c q) :
    aroundMidnight p = aroundMidnight q := by
  have hmodule := congrArg Shown.time (hp.moduleLog.symm.trans hq.moduleLog)
  have hlistener := congrArg Shown.time (hp.listener.symm.trans hq.listener)
  simp only [ScanEvent.shown] at hmodule hlistener
  rw [aroundMidnight, aroundMidnight, timeGap, timeGap, hmodule, hlistener]

theorem reports_of_correlateAnchor {listenerByAnchor : Dict Anchor (List ScanEvent)}
    {entry : Anchor × List ScanEvent}
    (h : correlateAnchor listenerByAnchor windowS entry = some c) :
    c.anchor = entry.1 ∧ ∃ p ∈ (entry.2 ×ˢ (listenerByAnchor.get? entry.1).getD []).argmin
      fun p => timeGap p.1 p.2, Reports c p ∧ timeGap p.1 p.2 ≤ windowS := by
  rw [correlateAnchor] at h
  split at h
  · cases h
  · rename_i mev lev hargmin
    split at h
    · rename_i hwindow
      cases h
      exact ⟨rfl, (mev, lev), hargmin, ⟨rfl, rfl⟩, hwindow⟩
    · cases h

/-- What a correlation is a report of. -/
theorem exists_of_mem_correlate (hc : c ∈ correlate others moduleEvents listenerEvents windowS) :
    ∃ p ∈ spelling others moduleEvents listenerEvents c.anchor, Reports c p ∧
      (∀ q ∈ spelling others moduleEvents listenerEvents c.anchor,
        timeGap p.1 p.2 ≤ timeGap q.1 q.2) ∧ timeGap p.1 p.2 ≤ windowS := by
  obtain ⟨⟨anchor, mes⟩, hentry, hsome⟩ := List.mem_filterMap.mp hc
  have hmes := (Dict.get?_eq_some_iff _ _ _).mpr hentry
  obtain ⟨hanchor, p, hargmin, hreports, hwindow⟩ := reports_of_correlateAnchor hsome
  have hpairs : ∀ q : ScanEvent × ScanEvent,
      q ∈ mes ×ˢ ((byAnchor (listenerAnchors others) listenerEvents).get? anchor).getD [] ↔
        q ∈ spelling others moduleEvents listenerEvents c.anchor := by
    intro q
    rw [mem_spelling, hanchor, hmes, Option.getD_some]
  refine ⟨p, (hpairs p).mp (List.argmin_mem hargmin), hreports, ?_, hwindow⟩
  intro q hq
  exact List.le_of_mem_argmin ((hpairs q).mpr hq) hargmin

theorem exists_mem_correlate (hp : p ∈ spelling others moduleEvents listenerEvents anchor)
    (hwindow : timeGap p.1 p.2 ≤ windowS) :
    ∃ c ∈ correlate others moduleEvents listenerEvents windowS, c.anchor = anchor := by
  rw [mem_spelling] at hp
  cases hmes : (byAnchor (moduleAnchors others) moduleEvents).get? anchor with
  | none =>
    rw [hmes] at hp
    cases hp
  | some mes =>
    rw [hmes, Option.getD_some] at hp
    cases hargmin : (mes ×ˢ ((byAnchor (listenerAnchors others) listenerEvents).get? anchor).getD
        []).argmin fun q => timeGap q.1 q.2 with
    | none =>
      rw [List.argmin_eq_none] at hargmin
      rw [hargmin] at hp
      cases hp
    | some q =>
      have hle := (List.le_of_mem_argmin hp hargmin).trans hwindow
      obtain ⟨c, hc⟩ : ∃ c, correlateAnchor (byAnchor (listenerAnchors others) listenerEvents)
          windowS (anchor, mes) = some c := by
        rw [correlateAnchor, hargmin]
        exact ⟨_, if_pos hle⟩
      have hentry := (Dict.get?_eq_some_iff _ _ _).mp hmes
      exact ⟨c, List.mem_filterMap.mpr ⟨_, hentry, hc⟩, (reports_of_correlateAnchor hc).1⟩

theorem pairwise_correlate :
    (correlate others moduleEvents listenerEvents windowS).Pairwise fun c c' =>
      c.anchor ≠ c'.anchor := by
  apply List.Pairwise.filterMap _ _ (List.pairwise_map.mp (byAnchor _ _).nodup)
  intro entry entry' hne c hc c' hc'
  rw [(reports_of_correlateAnchor hc).1, (reports_of_correlateAnchor hc').1]
  exact hne

/-- An identifier with one anchor in the correlations is reported once. -/
theorem correlationsOf_eq_singleton (hc : c ∈ correlationsOf others moduleEvents listenerEvents windowS n)
    (hall : ∀ c' ∈ correlationsOf others moduleEvents listenerEvents windowS n,
      c'.anchor = c.anchor) :
    correlationsOf others moduleEvents listenerEvents windowS n = [c] := by
  have hpairwise : (correlationsOf others moduleEvents listenerEvents windowS n).Pairwise
      fun c c' => c.anchor ≠ c'.anchor := pairwise_correlate.filter _
  rcases hlist : correlationsOf others moduleEvents listenerEvents windowS n with _ | ⟨x, _ | ⟨y, rest⟩⟩
  · rw [hlist] at hc
    cases hc
  · rw [hlist, List.mem_singleton] at hc
    rw [hc]
  · rw [hlist] at hall hpairwise
    apply absurd ((hall x _).trans (hall y _).symm) (List.rel_of_pairwise_cons hpairwise _) <;> simp

theorem mem_correlationsOf :
    c ∈ correlationsOf others moduleEvents listenerEvents windowS n ↔
      c ∈ correlate others moduleEvents listenerEvents windowS ∧ c.anchor.id? = some n := by
  rw [correlationsOf, List.mem_filter, decide_eq_true_eq]

theorem within_of_mem_correlationsOf
    (hc : c ∈ correlationsOf others moduleEvents listenerEvents windowS n) :
    Within moduleEvents listenerEvents windowS n := by
  obtain ⟨hmem, hid⟩ := mem_correlationsOf.mp hc
  obtain ⟨digits, hanchor, hn⟩ := id?_eq_some_iff.mp hid
  obtain ⟨p, hp, -, -, hwindow⟩ := exists_of_mem_correlate hmem
  rw [hanchor] at hp
  exact ⟨p, mem_carrying_of_mem_spelling hn hp, (min_le_left _ _).trans hwindow⟩

theorem spelledAlike_of_correlationsOf {c : Correlation}
    (hc : correlationsOf others moduleEvents listenerEvents windowS n = [c])
    (hp : Reports c p) (hnearest : Nearest moduleEvents listenerEvents n p) :
    ∃ digits, SpelledAlike others moduleEvents listenerEvents windowS n digits := by
  obtain ⟨hmem, hid⟩ := mem_correlationsOf.mp (hc ▸ List.mem_singleton_self c)
  obtain ⟨digits, hanchor, hn⟩ := id?_eq_some_iff.mp hid
  obtain ⟨q, hq, hreports, hleast, hwindow⟩ := exists_of_mem_correlate hmem
  rw [hanchor] at hq hleast
  refine ⟨digits, hn, ⟨q, hq, hleast, hwindow, ?_⟩, ?_⟩
  · intro r hr
    rw [aroundMidnight_of_reports hreports hp]
    exact hnearest r hr
  · intro digits' hn' r hr hr'
    obtain ⟨c', hc', hanchor'⟩ := exists_mem_correlate hr hr'
    have hone := mem_correlationsOf.mpr ⟨hc', id?_eq_some_iff.mpr ⟨digits', hanchor', hn'⟩⟩
    rw [hc, List.mem_singleton] at hone
    rw [hone, hanchor] at hanchor'
    exact (Anchor.nid.inj hanchor').symm

theorem exists_correlationsOf {digits : List Char}
    (h : SpelledAlike others moduleEvents listenerEvents windowS n digits) :
    ∃ c, correlationsOf others moduleEvents listenerEvents windowS n = [c] ∧
      ∃ p ∈ carrying moduleEvents listenerEvents n,
        Reports c p ∧ Nearest moduleEvents listenerEvents n p := by
  obtain ⟨hn, ⟨p, hp, hleast, hwindow, hnearest⟩, honly⟩ := h
  obtain ⟨c, hc, hanchor⟩ := exists_mem_correlate hp hwindow
  obtain ⟨q, hq, hreports, hleast', -⟩ := exists_of_mem_correlate hc
  rw [hanchor] at hq hleast'
  refine ⟨c, correlationsOf_eq_singleton ?_ ?_, q, mem_carrying_of_mem_spelling hn hq, hreports, ?_⟩
  · exact mem_correlationsOf.mpr ⟨hc, id?_eq_some_iff.mpr ⟨digits, hanchor, hn⟩⟩
  · intro c' hc'
    obtain ⟨hmem', hid'⟩ := mem_correlationsOf.mp hc'
    obtain ⟨digits', hanchor', hn'⟩ := id?_eq_some_iff.mp hid'
    obtain ⟨r, hr, -, -, hwindow'⟩ := exists_of_mem_correlate hmem'
    rw [hanchor'] at hr
    rw [hanchor', hanchor, honly digits' hn' r hr hwindow']
  · have hgap : timeGap q.1 q.2 = timeGap p.1 p.2 := le_antisymm (hleast' p hp) (hleast q hq)
    intro r hr
    rw [aroundMidnight, hgap]
    exact hnearest r hr

end Correct

/-- An identifier is correlated as it should be when the nearest pair spells it alike, on one side of
midnight, and no other spelling is in the window. -/
theorem correlated_iff (others : String → List String) (moduleEvents listenerEvents : List ScanEvent)
    (windowS : ℚ) (n : ℕ) :
    Correlated others moduleEvents listenerEvents windowS n ↔
      (Within moduleEvents listenerEvents windowS n →
        ∃ digits, SpelledAlike others moduleEvents listenerEvents windowS n digits) := by
  constructor
  · intro h hwithin
    obtain ⟨c, hc, p, -, hreports, hnearest⟩ := h.reported hwithin
    exact spelledAlike_of_correlationsOf hc hreports hnearest
  · intro h
    refine ⟨?_, ?_⟩
    · intro hwithin
      obtain ⟨digits, hdigits⟩ := h hwithin
      exact exists_correlationsOf hdigits
    · intro hfar
      apply List.eq_nil_iff_forall_not_mem.mpr
      intro c hc
      exact hfar (within_of_mem_correlationsOf hc)

/-! ## An identifier with zeros in front -/

def joiningEvent : ScanEvent where
  type := "join"
  message := "NID=00475d"
  time := "20260811-19:15:08:510"
  sourceLine := ""

def beaconHeardEvent : ScanEvent where
  type := "beacon"
  message := ""
  time := "19:15:09.012"
  sourceLine := ""
  captures := Dict.empty.set "snid" (.str "00475d")

/-- The zeros stay on one side only, and the two events are not correlated. -/
theorem zeros_not_correlated :
    ¬ Correlated (fun _ => []) [joiningEvent] [beaconHeardEvent] 5 0x475d := by
  intro h
  have hboth : 0x475d ∈ joiningEvent.writtenIds ∧ 0x475d ∈ beaconHeardEvent.listenerIds := by
    decide +kernel
  have hcarry : (joiningEvent, beaconHeardEvent) ∈ carrying [joiningEvent] [beaconHeardEvent] 0x475d :=
    List.mem_filter.mpr ⟨List.mem_singleton_self _, decide_eq_true hboth⟩
  have hnear : aroundMidnight (joiningEvent, beaconHeardEvent) ≤ 5 := by decide +kernel
  have hnone : correlationsOf (fun _ => []) [joiningEvent] [beaconHeardEvent] 5 0x475d = [] := by
    decide +kernel
  obtain ⟨c, hc, -⟩ := h.reported ⟨_, hcarry, hnear⟩
  rw [hnone] at hc
  cases hc

end HplcWorkbench.LogHooks
