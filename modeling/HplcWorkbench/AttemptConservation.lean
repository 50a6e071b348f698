import HplcWorkbench.FrameReaders
import HplcWorkbench.OrderedDict
import HplcWorkbench.PyParams
import Mathlib.Data.List.Sort
import Mathlib.Tactic.SplitIfs

/-!
# Every dispatch has one attempt

The read-only statistics overhear the frames of both directions. A dispatch opens an attempt for
each meter it names, the next frame about that meter closes it, and what is still open at the end
lapses when it is older than five minutes. Instants are counted in microseconds; `epoch` reads
them off the text of a row and depends on the time zone of the machine.

A row touches the meters it names. The attempts that a sequence of touches owes are a function of
the sequence alone: the next touch of a meter closes its dispatch, and a dispatch that nothing
closes lapses once the input has gone on for five minutes. The loop makes these attempts, except
that it measures the five minutes at the last closing event and not at the last row.
-/

namespace HplcWorkbench.ConcurrentReadonly
open Adapter10376 (Direction)
open FrameCodec (fieldOf)
open OrderedDict

/-! ## Addresses -/

/-- `_addr_from_hex`. -/
def addrFromHex (hexStr : String) : String :=
  let h := dropSpaces hexStr
  match h.toList with
  | [a₁, a₂, b₁, b₂, c₁, c₂, d₁, d₂, e₁, e₂, f₁, f₂] =>
    String.ofList [f₁, f₂, e₁, e₂, d₁, d₂, c₁, c₂, b₁, b₂, a₁, a₂]
  | _ => h

/-- `f"{b:02X}"` of a list element. -/
def byteText : PyVal → PyM String
  | .int n => pure (if 0 ≤ n then hexPad 2 n.toNat else "-" ++ hexPad 1 n.natAbs)
  | .bool b => pure (if b then "01" else "00")
  | .none => throw (.typeError "unsupported format string")
  | _ => throw (.valueError "Unknown format code 'X'")

/-- `f.get("raw") or f.get("hex") or ""`, a list byte by byte. -/
def addressText : Option DataField → PyM String
  | none => pure ""
  | some f =>
    if f.raw.truthy then
      match f.raw with
      | .list items => do
        let parts ← items.mapM byteText
        pure (String.join parts)
      | raw => pure raw.toStr
    else pure f.hex

/-- `_nested_addrs`. -/
def nestedAddrs (parsed : ProtocolFrame) : PyM (List String) := do
  let texts ← parsed.nested.mapM fun n => addressText (fieldOf n.fields "地址域A")
  pure ((texts.filter (· ≠ "")).map addrFromHex)

/-- `_nested_addrs(parsed) or ["?"]`, which is never empty. -/
def namedMeters (parsed : ProtocolFrame) : PyM (List String) := do
  let addrs ← nestedAddrs parsed
  pure (if addrs = [] then ["?"] else addrs)

/-- `_link_addr`. -/
def linkAddr (parsed : ProtocolFrame) : PyM (Option String) := do
  let raw := dropSpaces (← addressText (fieldOf parsed.fields "地址域A"))
  pure (if raw.toList.length < 12 then none
    else some (addrFromHex (String.ofList (raw.toList.take 12))))

/-! ## Data units -/

/-- What `parse_data_unit` returns; `protoType` and `length` are missing when the unit is cut. -/
structure DataUnit where
  protoType : Option Byte
  length : Option ℕ
  failed : Option Bool
  deriving DecidableEq, Repr

/-- `parse_data_unit`. -/
def parseDataUnit (dir : Direction) (appdataHex : String) : PyM DataUnit :=
  match fromHex (dropSpaces appdataHex) with
  | none => throw (.valueError "non-hexadecimal number found in fromhex()")
  | some b =>
    let reserved := if dir = .down then 1 else 0
    if b.length < 1 + reserved + 2 then pure ⟨none, none, none⟩
    else
      let length := le16 (byteAt b (1 + reserved)) (byteAt b (2 + reserved))
      pure ⟨some (byteAt b 0), some length, some (dir = .up && length = 0)⟩

/-! ## Pairing -/

/-- A row of the frame log, `parsed` empty when its text is not JSON. -/
structure LogRow where
  ts : String
  id : ℤ
  dir : String
  parsed : ProtocolFrame
  frameHex : String

/-- The sort key `(ts, id)`. -/
def LogRow.le (r r' : LogRow) : Prop := r.ts < r'.ts ∨ r.ts = r'.ts ∧ r.id ≤ r'.id

instance : DecidableRel LogRow.le := fun r r' => by unfold LogRow.le; infer_instance

def inOrder (rows : List LogRow) : List LogRow := rows.insertionSort LogRow.le

inductive AttemptStatus
  | success
  | timeout
  deriving DecidableEq, Repr

structure Attempt where
  meter : String
  startEpoch : ℤ
  endEpoch : ℤ
  status : AttemptStatus
  duplicate : Bool
  deriving DecidableEq, Repr

/-- `LIFETIME_SECONDS`. -/
def lifetime : ℤ := 300000000

/-- The state of the loop of `collect_attempts`. -/
structure Pairing where
  attempts : List Attempt := []
  openMap : Dict String ℤ := .empty
  dupFlag : Dict String Bool := .empty

/-- What the loop does for one meter of a dispatch. -/
def Pairing.dispatch (s : Pairing) (ep : ℤ) (addr : String) : Pairing :=
  match s.openMap.get? addr with
  | some start =>
    { attempts := s.attempts ++
        [⟨addr, start, ep, .timeout, (s.dupFlag.get? addr).getD false⟩]
      dupFlag := s.dupFlag.set addr true
      openMap := (s.openMap.erase addr).set addr ep }
  | none =>
    { s with
      dupFlag := s.dupFlag.set addr false
      openMap := s.openMap.set addr ep }

def answerStatus (failed : Bool) : AttemptStatus := if failed then .timeout else .success

/-- What the loop does for an answer. -/
def Pairing.answer (s : Pairing) (ep : ℤ) (addr : String) (failed : Bool) : Pairing :=
  match s.openMap.get? addr with
  | some start =>
    { attempts := s.attempts ++
        [⟨addr, start, ep, answerStatus failed, (s.dupFlag.get? addr).getD false⟩]
      dupFlag := s.dupFlag.erase addr
      openMap := s.openMap.erase addr }
  | none =>
    { s with attempts := s.attempts ++ [⟨addr, ep, ep, answerStatus failed, false⟩] }

/-- The meter that an answer is about. -/
def answeringMeter (parsed : ProtocolFrame) : PyM String := do
  match ← linkAddr parsed with
  | some addr => pure addr
  | none => pure ((← namedMeters parsed).headD "?")

/-- The class of `(row["dir"] or "").lower()`. -/
def LogRow.direction (row : LogRow) : Option Direction :=
  let d := String.ofList (row.dir.toList.map Char.toLower)
  if d = "tx" ∨ d = "down" then some .down
  else if d = "rx" ∨ d = "up" then some .up
  else none

/-- One round of the loop of `collect_attempts`. -/
def pairRow (epoch : String → Option ℤ) (s : Pairing) (row : LogRow) : PyM Pairing :=
  match epoch row.ts with
  | none => pure s
  | some ep =>
    match row.direction with
    | some .down => do
      let addrs ← namedMeters row.parsed
      pure (addrs.foldl (fun s addr => s.dispatch ep addr) s)
    | some .up => do
      let addr ← answeringMeter row.parsed
      let unit ← parseDataUnit .up (payload row.parsed row.frameHex)
      pure (s.answer ep addr (unit.failed.getD false))
    | none => pure s

/-- `max((a["end_epoch"] for a in attempts), default=0.0)`. -/
def latestEnd (attempts : List Attempt) : ℤ := (attempts.map Attempt.endEpoch).max?.getD 0

/-- The attempts of the dispatches that are older than their lifetime at `latest`. -/
def Pairing.lapsed (s : Pairing) (latest : ℤ) : List Attempt :=
  (s.openMap.entries.filter fun e => lifetime ≤ latest - e.2).map fun e =>
    ⟨e.1, e.2, e.2 + lifetime, .timeout, (s.dupFlag.get? e.1).getD false⟩

/-- `collect_attempts`. -/
def collectAttempts (epoch : String → Option ℤ) (rows : List LogRow) : PyM (List Attempt) := do
  let s ← (inOrder rows).foldlM (pairRow epoch) {}
  pure (s.attempts ++ s.lapsed (latestEnd s.attempts))

end HplcWorkbench.ConcurrentReadonly

namespace HplcWorkbench.ConcurrentReadonly
open OrderedDict

inductive Touch
  | sent (addr : String) (time : ℤ)
  | answered (addr : String) (time : ℤ) (failed : Bool)
  deriving DecidableEq, Repr

def Touch.addr : Touch → String
  | .sent addr _ => addr
  | .answered addr _ _ => addr

/-- The meters that a row dispatches to or hears from. A row without a time, or of no direction,
touches none. -/
def rowTouches (epoch : String → Option ℤ) (row : LogRow) : PyM (List Touch) :=
  match epoch row.ts with
  | none => pure []
  | some ep =>
    match row.direction with
    | some .down => do
      let addrs ← namedMeters row.parsed
      pure (addrs.map fun addr => .sent addr ep)
    | some .up => do
      let addr ← answeringMeter row.parsed
      let unit ← parseDataUnit .up (payload row.parsed row.frameHex)
      pure [.answered addr ep (unit.failed.getD false)]
    | none => pure []

def touchesOf (epoch : String → Option ℤ) (rows : List LogRow) : PyM (List Touch) := do
  let touches ← (inOrder rows).mapM (rowTouches epoch)
  pure touches.flatten

/-- When the last row was heard. -/
def lastTime (epoch : String → Option ℤ) (rows : List LogRow) : ℤ :=
  ((inOrder rows).filterMap fun row => epoch row.ts).getLast?.getD 0

/-! ## What a sequence of touches owes -/

/-- The attempt that the next touch of its meter makes of a dispatch. -/
def closedBy (dup : Bool) (addr : String) (start : ℤ) : Touch → Attempt
  | .sent _ time => ⟨addr, start, time, .timeout, dup⟩
  | .answered _ time failed => ⟨addr, start, time, answerStatus failed, dup⟩

/-- What becomes of a dispatch, given the touches behind it and the end of the input. -/
def fate (latest : ℤ) (dup : Bool) (addr : String) (start : ℤ) (later : List Touch) : List Attempt :=
  match later.find? (·.addr = addr) with
  | some next => [closedBy dup addr start next]
  | none =>
    if lifetime ≤ latest - start then [⟨addr, start, start + lifetime, .timeout, dup⟩] else []

/-- The last touch of the meter is a dispatch; `before` has the last touch first. -/
def waiting (before : List Touch) (addr : String) : Bool :=
  match before.find? (·.addr = addr) with
  | some (.sent _ _) => true
  | _ => false

/-- One attempt for each dispatch, and one for each answer that no dispatch waits for. -/
def due (latest : ℤ) (before : List Touch) : List Touch → List Attempt
  | [] => []
  | .sent addr time :: later =>
    fate latest (waiting before addr) addr time later ++
      due latest (.sent addr time :: before) later
  | .answered addr time failed :: later =>
    (if waiting before addr then [] else [⟨addr, time, time, answerStatus failed, false⟩]) ++
      due latest (.answered addr time failed :: before) later

/-- The instants at which an attempt is closed: every answer, and every dispatch to a meter that
still waits. -/
def closings (before : List Touch) : List Touch → List ℤ
  | [] => []
  | .sent addr time :: later =>
    (if waiting before addr then [time] else []) ++ closings (.sent addr time :: before) later
  | .answered addr time failed :: later => time :: closings (.answered addr time failed :: before) later

def lastClosing (touches : List Touch) : ℤ := (closings [] touches).max?.getD 0

/-- Nothing names the meter again. -/
def LeftOpen (touches : List Touch) (addr : String) (time : ℤ) : Prop :=
  ∃ before later, touches = before ++ .sent addr time :: later ∧ ∀ x ∈ later, x.addr ≠ addr

/-! ## The loop -/

def Pairing.touch (s : Pairing) : Touch → Pairing
  | .sent addr time => s.dispatch time addr
  | .answered addr time failed => s.answer time addr failed

theorem foldlM_pairRow (epoch : String → Option ℤ) (rows : List LogRow) (s : Pairing) :
    rows.foldlM (pairRow epoch) s = (do
      let touches ← rows.mapM (rowTouches epoch)
      pure (touches.flatten.foldl Pairing.touch s)) := by
  induction rows generalizing s with
  | nil => rfl
  | cons row rows ih =>
      have hrow : pairRow epoch s row = (do
          let touches ← rowTouches epoch row
          pure (touches.foldl Pairing.touch s)) := by
        unfold pairRow rowTouches
        cases epoch row.ts with
        | none => rfl
        | some ep =>
            cases row.direction with
            | none => rfl
            | some d =>
                cases d with
                | down =>
                    cases namedMeters row.parsed with
                    | error e => rfl
                    | ok addrs =>
                        simp only [bind, Except.bind, pure, Except.pure, List.foldl_map]
                        rfl
                | up =>
                    cases answeringMeter row.parsed with
                    | error e => rfl
                    | ok addr =>
                        cases parseDataUnit .up (payload row.parsed row.frameHex) <;> rfl
      rw [List.foldlM_cons, List.mapM_cons, hrow]
      cases rowTouches epoch row with
      | error e => rfl
      | ok touches =>
          simp only [bind, Except.bind, pure, Except.pure]
          rw [ih]
          cases rows.mapM (rowTouches epoch) with
          | error e => rfl
          | ok more =>
              simp only [bind, Except.bind, pure, Except.pure, List.flatten_cons, List.foldl_append]

/-- The map of open dispatches holds the meters that wait. -/
def Tracks (before : List Touch) (s : Pairing) : Prop :=
  ∀ addr, (s.openMap.get? addr).isSome = waiting before addr

theorem tracks_init : Tracks [] {} := fun _ => rfl

theorem waiting_cons_self (x : Touch) (before : List Touch) {addr : String} (h : x.addr = addr) :
    waiting (x :: before) addr = match x with
      | .sent _ _ => true
      | .answered _ _ _ => false := by
  have hfind : (x :: before).find? (·.addr = addr) = some x := by simp [h]
  unfold waiting
  rw [hfind]
  cases x <;> rfl

theorem waiting_cons_of_ne (x : Touch) (before : List Touch) {addr : String} (h : x.addr ≠ addr) :
    waiting (x :: before) addr = waiting before addr := by
  have hfind : (x :: before).find? (·.addr = addr) = before.find? (·.addr = addr) := by simp [h]
  unfold waiting
  rw [hfind]

section Step
variable {before : List Touch} {s : Pairing}

/-- Where the touch leaves the other meters. -/
theorem touch_other (x : Touch) {addr : String} (h : addr ≠ x.addr) :
    (s.touch x).openMap.get? addr = s.openMap.get? addr ∧
      (s.touch x).dupFlag.get? addr = s.dupFlag.get? addr := by
  cases x with
  | sent a t =>
      have ha : addr ≠ a := h
      simp only [Pairing.touch, Pairing.dispatch]
      cases s.openMap.get? a with
      | none => exact ⟨Dict.get?_set_of_ne _ _ _ _ ha, Dict.get?_set_of_ne _ _ _ _ ha⟩
      | some start =>
          exact ⟨(Dict.get?_set_of_ne _ _ _ _ ha).trans (Dict.get?_erase_of_ne _ _ _ ha),
            Dict.get?_set_of_ne _ _ _ _ ha⟩
  | answered a t failed =>
      have ha : addr ≠ a := h
      simp only [Pairing.touch, Pairing.answer]
      cases s.openMap.get? a with
      | none => exact ⟨rfl, rfl⟩
      | some start => exact ⟨Dict.get?_erase_of_ne _ _ _ ha, Dict.get?_erase_of_ne _ _ _ ha⟩

theorem tracks_touch (h : Tracks before s) (x : Touch) : Tracks (x :: before) (s.touch x) := by
  intro addr
  by_cases hx : addr = x.addr
  · rw [waiting_cons_self x before hx.symm]
    cases x with
    | sent a t =>
        obtain rfl : addr = a := hx
        simp only [Pairing.touch, Pairing.dispatch]
        cases s.openMap.get? addr with
        | none => exact congrArg Option.isSome (Dict.get?_set_self _ _ _)
        | some start => exact congrArg Option.isSome (Dict.get?_set_self _ _ _)
    | answered a t failed =>
        obtain rfl : addr = a := hx
        simp only [Pairing.touch, Pairing.answer]
        cases hopen : s.openMap.get? addr with
        | none => exact congrArg Option.isSome hopen
        | some start => exact congrArg Option.isSome (Dict.get?_erase_self _ _)
  · rw [waiting_cons_of_ne x before (Ne.symm hx), (touch_other x hx).1]
    exact h addr

/-- What becomes of an open dispatch. -/
def Pairing.fateOf (s : Pairing) (latest : ℤ) (later : List Touch) (e : String × ℤ) : List Attempt :=
  fate latest ((s.dupFlag.get? e.1).getD false) e.1 e.2 later

theorem fateOf_other (latest : ℤ) (later : List Touch) (x : Touch) {e : String × ℤ}
    (h : e.1 ≠ x.addr) :
    (s.touch x).fateOf latest later e = s.fateOf latest (x :: later) e := by
  have hfind : (x :: later).find? (·.addr = e.1) = later.find? (·.addr = e.1) := by
    simp [Ne.symm h]
  unfold Pairing.fateOf fate
  rw [(touch_other x h).2, hfind]

theorem fates_other (latest : ℤ) (later : List Touch) (x : Touch) :
    (s.openMap.erase x.addr).entries.flatMap ((s.touch x).fateOf latest later) =
      (s.openMap.erase x.addr).entries.flatMap (s.fateOf latest (x :: later)) := by
  apply List.flatMap_congr
  intro e he
  exact fateOf_other latest later x ((Dict.mem_erase _ _).mp he).2

/-- The attempt that the touch makes of the open dispatch of its meter. -/
def Pairing.closedOf (s : Pairing) (x : Touch) : List Attempt :=
  match s.openMap.get? x.addr with
  | some start => [closedBy ((s.dupFlag.get? x.addr).getD false) x.addr start x]
  | none => []

/-- The fates of all open dispatches, the one that the touch closes first. -/
theorem fates_touch (latest : ℤ) (later : List Touch) (x : Touch) :
    (s.openMap.entries.flatMap (s.fateOf latest (x :: later))).Perm (s.closedOf x ++
      (s.openMap.erase x.addr).entries.flatMap ((s.touch x).fateOf latest later)) := by
  rw [fates_other, Pairing.closedOf]
  cases hopen : s.openMap.get? x.addr with
  | none =>
      rw [Dict.entries_erase_of_none _ hopen]
      exact List.Perm.refl _
  | some start =>
      have hown : s.fateOf latest (x :: later) (x.addr, start) =
          [closedBy ((s.dupFlag.get? x.addr).getD false) x.addr start x] := by
        have hfind : (x :: later).find? (·.addr = x.addr) = some x := by simp
        unfold Pairing.fateOf fate
        rw [hfind]
      have hperm := (Dict.perm_cons_erase _ hopen).flatMap_right (s.fateOf latest (x :: later))
      rwa [List.flatMap_cons, hown] at hperm

/-- What the touch does to the attempts: it closes the open dispatch of its meter, and an answer
that nobody waits for makes an attempt of its own. -/
theorem touch_attempts (x : Touch) : (s.touch x).attempts = s.attempts ++ (s.closedOf x ++
    match x with
    | .sent _ _ => []
    | .answered addr time failed =>
      if (s.openMap.get? addr).isSome then []
      else [⟨addr, time, time, answerStatus failed, false⟩]) := by
  cases x with
  | sent a t =>
      simp only [Pairing.touch, Pairing.dispatch, Pairing.closedOf, Touch.addr]
      cases s.openMap.get? a with
      | none => exact (List.append_nil _).symm
      | some start => rfl
  | answered a t failed =>
      simp only [Pairing.touch, Pairing.answer, Pairing.closedOf, Touch.addr]
      cases s.openMap.get? a with
      | none => rfl
      | some start => rfl

/-- What the touch does to the open dispatches. -/
theorem touch_entries (x : Touch) : (s.touch x).openMap.entries =
    (s.openMap.erase x.addr).entries ++ match x with
      | .sent addr time => [(addr, time)]
      | .answered _ _ _ => [] := by
  cases x with
  | sent a t =>
      simp only [Pairing.touch, Pairing.dispatch, Touch.addr]
      cases hopen : s.openMap.get? a with
      | none =>
          simp only [Dict.entries_set_of_none _ _ hopen, Dict.entries_erase_of_none _ hopen]
      | some start => exact Dict.entries_set_of_none _ _ (Dict.get?_erase_self _ _)
  | answered a t failed =>
      simp only [Pairing.touch, Pairing.answer, Touch.addr, List.append_nil]
      cases hopen : s.openMap.get? a with
      | none => exact (Dict.entries_erase_of_none _ hopen).symm
      | some start => rfl

theorem dupFlag_sent (h : Tracks before s) (addr : String) (time : ℤ) :
    ((s.touch (.sent addr time)).dupFlag.get? addr).getD false = waiting before addr := by
  rw [← h addr]
  simp only [Pairing.touch, Pairing.dispatch]
  cases s.openMap.get? addr with
  | none => rw [Dict.get?_set_self]; rfl
  | some start => rw [Dict.get?_set_self]; rfl

end Step

/-- The run: the attempts there are, the fates of the open dispatches, and what the touches to
come owe. -/
theorem run_perm (latest : ℤ) (later : List Touch) {before : List Touch} {s : Pairing}
    (h : Tracks before s) :
    ((later.foldl Pairing.touch s).attempts ++ (later.foldl Pairing.touch s).lapsed latest).Perm
      (s.attempts ++ (s.openMap.entries.flatMap (s.fateOf latest later) ++
        due latest before later)) := by
  induction later generalizing before s with
  | nil =>
      have hlapsed : s.lapsed latest = s.openMap.entries.flatMap (s.fateOf latest []) := by
        unfold Pairing.lapsed
        induction s.openMap.entries with
        | nil => rfl
        | cons e rest ih =>
            rw [List.flatMap_cons, ← ih, Pairing.fateOf, fate, List.find?_nil, List.filter_cons]
            by_cases hold : lifetime ≤ latest - e.2
            · simp only [hold, decide_true, if_true]
              rfl
            · simp only [hold, decide_false, if_false]
              rfl
      rw [List.foldl_nil, hlapsed, due, List.append_nil]
  | cons x later ih =>
      refine (ih (tracks_touch h x)).trans ?_
      have hfates := fates_touch (s := s) latest later x
      rw [List.perm_iff_count] at hfates ⊢
      intro b
      have hb := hfates b
      rw [touch_attempts, touch_entries, List.flatMap_append]
      cases x with
      | sent addr time =>
          have hown : (s.touch (.sent addr time)).fateOf latest later (addr, time) =
              fate latest (waiting before addr) addr time later := by
            rw [Pairing.fateOf, dupFlag_sent h]
          simp only [List.count_append, List.flatMap_cons, List.flatMap_nil, List.append_nil, due,
            hown] at hb ⊢
          omega
      | answered addr time failed =>
          simp only [List.count_append, List.flatMap_nil, List.append_nil, due, ← h addr] at hb ⊢
          omega

theorem run_closings (later : List Touch) {before : List Touch} {s : Pairing} (h : Tracks before s) :
    (later.foldl Pairing.touch s).attempts.map Attempt.endEpoch =
      s.attempts.map Attempt.endEpoch ++ closings before later := by
  induction later generalizing before s with
  | nil => rw [closings, List.append_nil, List.foldl_nil]
  | cons x later ih =>
      rw [List.foldl_cons, ih (tracks_touch h x), touch_attempts, List.map_append,
        List.append_assoc]
      congr 1
      cases x with
      | sent addr time =>
          rw [closings, ← h addr, Pairing.closedOf, Touch.addr]
          cases s.openMap.get? addr <;> rfl
      | answered addr time failed =>
          rw [closings, Pairing.closedOf, Touch.addr]
          dsimp only
          cases s.openMap.get? addr <;> rfl

/-! ## The end of the input -/

section Cutoff
variable {p q : ℤ}

theorem fate_length_le (hpq : p ≤ q) (dup : Bool) (addr : String) (start : ℤ)
    (later : List Touch) :
    (fate p dup addr start later).length ≤ (fate q dup addr start later).length := by
  unfold fate
  cases later.find? (·.addr = addr) with
  | some next => exact le_rfl
  | none =>
      by_cases hp : lifetime ≤ p - start
      · have hq : lifetime ≤ q - start := by omega
        simp only [if_pos hp, if_pos hq]
        exact le_rfl
      · simp only [if_neg hp]
        exact Nat.zero_le _

theorem due_length_le (hpq : p ≤ q) (before later : List Touch) :
    (due p before later).length ≤ (due q before later).length := by
  induction later generalizing before with
  | nil => exact le_rfl
  | cons x later ih =>
      cases x with
      | sent addr time =>
          rw [due, due, List.length_append, List.length_append]
          exact Nat.add_le_add (fate_length_le hpq _ _ _ _) (ih _)
      | answered addr time failed =>
          rw [due, due, List.length_append, List.length_append]
          exact Nat.add_le_add_left (ih _) _

/-- With the later end nothing is owed less. -/
theorem due_perm_iff_of_le (hpq : p ≤ q) (before later : List Touch) :
    (due p before later).Perm (due q before later) ↔
      ∀ addr time, LeftOpen later addr time →
        (lifetime ≤ p - time ↔ lifetime ≤ q - time) := by
  induction later generalizing before with
  | nil =>
      refine iff_of_true (List.Perm.refl _) fun addr time ⟨pre, post, h, _⟩ => ?_
      exact absurd h.symm (by simp)
  | cons x later ih =>
      have hrest : (∀ addr time, LeftOpen later addr time →
          (lifetime ≤ p - time ↔ lifetime ≤ q - time)) ∧
          (∀ addr time, x = .sent addr time → (∀ y ∈ later, y.addr ≠ addr) →
            (lifetime ≤ p - time ↔ lifetime ≤ q - time)) ↔
          ∀ addr time, LeftOpen (x :: later) addr time →
            (lifetime ≤ p - time ↔ lifetime ≤ q - time) := by
        constructor
        · rintro ⟨hlater, hhead⟩ addr time ⟨pre, post, heq, hfree⟩
          cases pre with
          | nil =>
              obtain ⟨rfl, rfl⟩ := List.cons.inj heq
              exact hhead addr time rfl hfree
          | cons y pre =>
              obtain ⟨rfl, rfl⟩ := List.cons.inj heq
              exact hlater addr time ⟨pre, post, rfl, hfree⟩
        · intro hall
          refine ⟨fun addr time ⟨pre, post, heq, hfree⟩ => ?_, fun addr time hx hfree => ?_⟩
          · exact hall addr time ⟨x :: pre, post, congrArg (x :: ·) heq, hfree⟩
          · exact hall addr time ⟨[], later, congrArg (· :: later) hx, hfree⟩
      rw [← hrest, ← ih (x :: before)]
      cases x with
      | answered addr time failed =>
          rw [due, due, List.perm_append_left_iff]
          refine (and_iff_left fun a t h _ => ?_).symm
          cases h
      | sent addr time =>
          rw [due, due]
          cases hnext : later.find? (·.addr = addr) with
          | some next =>
              have hfate : ∀ latest, fate latest (waiting before addr) addr time later =
                  [closedBy (waiting before addr) addr time next] := by
                intro latest
                rw [fate, hnext]
              rw [hfate p, hfate q, List.perm_append_left_iff]
              refine (and_iff_left fun a t h hfree => ?_).symm
              obtain ⟨rfl, rfl⟩ := Touch.sent.inj h
              exact absurd (by simpa using List.find?_some hnext)
                (hfree next (List.mem_of_find?_eq_some hnext))
          | none =>
              have hfree : ∀ y ∈ later, y.addr ≠ addr := by simpa using hnext
              have hfate : ∀ latest, fate latest (waiting before addr) addr time later =
                  if lifetime ≤ latest - time then
                    [⟨addr, time, time + lifetime, .timeout, waiting before addr⟩] else [] := by
                intro latest
                rw [fate, hnext]
              have hhead : (∀ a t, Touch.sent addr time = .sent a t → (∀ y ∈ later, y.addr ≠ a) →
                  (lifetime ≤ p - t ↔ lifetime ≤ q - t)) ↔
                  (lifetime ≤ p - time ↔ lifetime ≤ q - time) := by
                constructor
                · intro h
                  exact h addr time rfl hfree
                · rintro h a t heq -
                  obtain ⟨rfl, rfl⟩ := Touch.sent.inj heq
                  exact h
              rw [hhead, hfate p, hfate q]
              by_cases hp : lifetime ≤ p - time
              · have hq : lifetime ≤ q - time := by omega
                rw [if_pos hp, if_pos hq, List.perm_append_left_iff]
                exact (and_iff_left (iff_of_true hp hq)).symm
              · by_cases hq : lifetime ≤ q - time
                · refine iff_of_false (fun hperm => ?_) fun h => hp (h.2.mpr hq)
                  have hlength := hperm.length_eq
                  have hle := due_length_le hpq (.sent addr time :: before) later
                  rw [if_neg hp, if_pos hq, List.length_append, List.length_append] at hlength
                  simp only [List.length_nil, List.length_singleton] at hlength
                  omega
                · rw [if_neg hp, if_neg hq, List.perm_append_left_iff]
                  exact (and_iff_left (iff_of_false hp hq)).symm

theorem due_perm_iff (p q : ℤ) (before later : List Touch) :
    (due p before later).Perm (due q before later) ↔
      ∀ addr time, LeftOpen later addr time →
        (lifetime ≤ p - time ↔ lifetime ≤ q - time) := by
  rcases le_total p q with hpq | hqp
  · exact due_perm_iff_of_le hpq before later
  · rw [List.perm_comm, due_perm_iff_of_le hqp before later]
    exact forall₃_congr fun _ _ _ => Iff.comm

end Cutoff

/-! ## The whole input -/

section Rows
variable {epoch : String → Option ℤ} {rows : List LogRow} {touches : List Touch}

/-- The loop makes what is owed at the last closing event. -/
theorem collectAttempts_perm (h : touchesOf epoch rows = .ok touches) :
    ∃ attempts, collectAttempts epoch rows = .ok attempts ∧
      attempts.Perm (due (lastClosing touches) [] touches) := by
  rw [touchesOf] at h
  cases hmap : (inOrder rows).mapM (rowTouches epoch) with
  | error e =>
      rw [hmap] at h
      cases h
  | ok parts =>
      rw [hmap] at h
      obtain rfl : parts.flatten = touches := Except.ok.inj h
      rw [collectAttempts, foldlM_pairRow, hmap]
      refine ⟨_, rfl, ?_⟩
      have hlatest : latestEnd (parts.flatten.foldl Pairing.touch {}).attempts =
          lastClosing parts.flatten := by
        rw [latestEnd, run_closings _ tracks_init]
        rfl
      rw [hlatest]
      exact run_perm _ _ tracks_init

/-- No answer makes more than one attempt. -/
def OneForEachAnswer (epoch : String → Option ℤ) : Prop :=
  ∀ s s' row, row.direction = some .up → pairRow epoch s row = .ok s' →
    s'.attempts.length ≤ s.attempts.length + 1

/-- The attempts are those that the rows owe, with the five minutes measured at the last row. -/
structure Conserved (epoch : String → Option ℤ) (rows : List LogRow) (touches : List Touch)
    (attempts : List Attempt) : Prop where
  balance : attempts.Perm (due (lastTime epoch rows) [] touches)
  single : OneForEachAnswer epoch

theorem oneForEachAnswer (epoch : String → Option ℤ) : OneForEachAnswer epoch := by
  intro s s' row hup h
  rw [pairRow, hup] at h
  cases hep : epoch row.ts with
  | none =>
      rw [hep] at h
      obtain rfl := Except.ok.inj h
      exact Nat.le_succ _
  | some ep =>
      rw [hep] at h
      cases haddr : answeringMeter row.parsed with
      | error e =>
          simp only [haddr, bind, Except.bind] at h
          cases h
      | ok addr =>
          cases hunit : parseDataUnit .up (payload row.parsed row.frameHex) with
          | error e =>
              simp only [haddr, hunit, bind, Except.bind] at h
              cases h
          | ok unit =>
              simp only [haddr, hunit, bind, Except.bind] at h
              obtain rfl := Except.ok.inj h
              unfold Pairing.answer
              cases s.openMap.get? addr <;> exact le_of_eq List.length_append

/-- Every dispatch has its attempt exactly when no dispatch that stays open is five minutes older
than the last row without being five minutes older than the last closing event. -/
theorem conserved_iff (h : touchesOf epoch rows = .ok touches) :
    ∃ attempts, collectAttempts epoch rows = .ok attempts ∧
      (Conserved epoch rows touches attempts ↔ ∀ addr time, LeftOpen touches addr time →
        (lifetime ≤ lastTime epoch rows - time ↔ lifetime ≤ lastClosing touches - time)) := by
  obtain ⟨attempts, hok, hperm⟩ := collectAttempts_perm h
  refine ⟨attempts, hok, ?_⟩
  have hbalance : Conserved epoch rows touches attempts ↔
      (due (lastClosing touches) [] touches).Perm (due (lastTime epoch rows) [] touches) :=
    ⟨fun hc => hperm.symm.trans hc.balance,
      fun hdue => ⟨hperm.trans hdue, oneForEachAnswer epoch⟩⟩
  rw [hbalance, due_perm_iff]
  exact forall₃_congr fun _ _ _ => Iff.comm

end Rows

/-! ## Two dispatches and no answer -/

def TimeOrdered (epoch : String → Option ℤ) (rows : List LogRow) : Prop :=
  rows.Pairwise fun r r' => ∀ t t', epoch r.ts = some t → epoch r'.ts = some t' → t ≤ t'

/-- The two instants of the rows below, in universal time. -/
def sampleEpoch (ts : String) : Option ℤ :=
  if ts = "2026-09-13T10:00:00" then some 1789293600000000
  else if ts = "2026-09-13T10:20:00" then some 1789294800000000
  else none

def dispatchRow (ts : String) (id : ℤ) (addr : String) : LogRow where
  ts := ts
  id := id
  dir := "tx"
  parsed := { newFrame "1376.2" "" with
    nested := [{ newFrame "645" "" with fields := [⟨"地址域A", .str addr, none, addr, .str addr, ""⟩] }] }
  frameHex := ""

def quietRows : List LogRow :=
  [dispatchRow "2026-09-13T10:00:00" 1 "010203040506",
    dispatchRow "2026-09-13T10:20:00" 2 "FEDCBA987654"]

def quietTouches : List Touch :=
  [.sent "060504030201" 1789293600000000, .sent "547698BADCFE" 1789294800000000]

theorem quietRows_touches : touchesOf sampleEpoch quietRows = .ok quietTouches := by
  decide +kernel

theorem quietRows_conserved_iff : ∃ attempts, collectAttempts sampleEpoch quietRows = .ok attempts ∧
    (Conserved sampleEpoch quietRows quietTouches attempts ↔
      ∀ addr time, LeftOpen quietTouches addr time →
        (lifetime ≤ lastTime sampleEpoch quietRows - time ↔
          lifetime ≤ lastClosing quietTouches - time)) :=
  conserved_iff quietRows_touches

/-- The dispatch of ten o'clock has no attempt, twenty minutes before the last row. -/
theorem quietRows_lost : ¬ ∀ epoch rows touches attempts, TimeOrdered epoch rows →
    touchesOf epoch rows = .ok touches → collectAttempts epoch rows = .ok attempts →
      Conserved epoch rows touches attempts := by
  intro hall
  have hordered : TimeOrdered sampleEpoch quietRows := by
    refine List.pairwise_pair.mpr fun t t' h h' => ?_
    obtain rfl := Option.some.inj h
    obtain rfl := Option.some.inj h'
    omega
  have hnone : collectAttempts sampleEpoch quietRows = .ok [] := by decide +kernel
  have hbalance := (hall _ _ _ _ hordered quietRows_touches hnone).balance
  have howed : due (lastTime sampleEpoch quietRows) [] quietTouches =
      [⟨"060504030201", 1789293600000000, 1789293900000000, .timeout, false⟩] := by decide +kernel
  rw [howed] at hbalance
  exact absurd hbalance.length_eq (Nat.succ_ne_zero 0).symm

end HplcWorkbench.ConcurrentReadonly
