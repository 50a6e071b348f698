import HplcWorkbench.ExactOutcomes
import HplcWorkbench.MinuteTaskFrames

/-!
# Lines of a minute log

A line is read by the run of hexadecimal digits at its end. The parsers of `minute_assert` index the
bytes of that run by hand, each behind a length check of its own.
-/

namespace HplcWorkbench.MinuteStats

open Adapter10376 (pyStrip)
open ExactOutcomes
open MinuteAssert (isHexDigit)

/-! ## The content of a line -/

/-- `[YYYYMMDD-HH:MM:SS:mmm]`, one predicate a character. -/
def stamp (digit : Char → Bool) : List (Char → Bool) :=
  [(· == '[')] ++ List.replicate 8 digit ++ [(· == '-')] ++ List.replicate 2 digit ++ [(· == ':')] ++
    List.replicate 2 digit ++ [(· == ':')] ++ List.replicate 2 digit ++ [(· == ':')] ++
    List.replicate 3 digit ++ [(· == ']')]

/-- The text begins with a character for each predicate. -/
def fits : List (Char → Bool) → List Char → Bool
  | [], _ => true
  | _ :: _, [] => false
  | p :: ps, c :: cs => p c && fits ps cs

section Content
variable (digit : Char → Bool) (line : List Char)

/-- The line without its time stamp and the blanks around it; `digit` is what `\d` matches. -/
def stripped : List Char :=
  pyStrip (if fits (stamp digit) line then line.drop (stamp digit).length else line)

/-- `dedup_key`. -/
def dedupKey : List Char :=
  if ((stripped digit line).reverse.takeWhile isHexDigit).reverse = [] then stripped digit line
  else ((stripped digit line).reverse.takeWhile isHexDigit).reverse

end Content

/-- `re.fullmatch` of a head and hexadecimal digits. -/
def hexAfter (head : String) (content : List Char) : Bool :=
  head.toList.isPrefixOf content && decide (head.toList.length < content.length) &&
    (content.drop head.toList.length).all isHexDigit

/-- `bytes.fromhex` where its `ValueError` is not caught. -/
def bytesFromHex (digits : List Char) : PyM Bytes :=
  match fromHexChars digits with
  | some data => pure data
  | none => throw (.valueError "non-hexadecimal number found in fromhex() arg")

/-! ## Times -/

def bcd (value : Byte) : ℤ := ((value : ℕ) >>> 4 &&& 0xF : ℕ) * 10 + ((value : ℕ) &&& 0xF : ℕ)

/-- `_days_from_civil`. -/
def daysFromCivil (year month day : ℤ) : ℤ :=
  let y := year - if month ≤ 2 then 1 else 0
  let era := (if 0 ≤ y then y else y - 399) / 400
  let yoe := y - era * 400
  let doy := (153 * (month + if 2 < month then -3 else 9) + 2) / 5 + day - 1
  let doe := yoe * 365 + yoe / 4 - yoe / 100 + doy
  era * 146097 + doe - 719468

/-- `_civil_from_days`. -/
def civilFromDays (days : ℤ) : ℤ × ℤ × ℤ :=
  let z := days + 719468
  let era := (if 0 ≤ z then z else z - 146096) / 146097
  let doe := z - era * 146097
  let yoe := (doe - doe / 1460 + doe / 36524 - doe / 146096) / 365
  let y := yoe + era * 400
  let doy := doe - (365 * yoe + yoe / 4 - yoe / 100)
  let mp := (5 * doy + 2) / 153
  let d := doy - (153 * mp + 2) / 5 + 1
  let m := mp + if mp < 10 then 3 else -9
  (y + if m ≤ 2 then 1 else 0, m, d)

/-- `fz_bytes`: second, minute, hour, day, month and year. -/
abbrev FreezeTime := {data : Bytes // data.length = 6}

def FreezeTime.byte (fz : FreezeTime) (i : Fin 6) : Byte := fz.1.get (i.cast fz.2.symm)

theorem freezeTime_slice {data : Bytes} {i : ℕ} (h : ¬ data.length < i + 6) :
    (slice data i (i + 6)).length = 6 := by
  rw [slice_length]
  omega

def fzMinutes (fz : FreezeTime) : ℤ :=
  daysFromCivil (2000 + bcd (fz.byte 5)) (bcd (fz.byte 4)) (bcd (fz.byte 3)) * 1440 +
    bcd (fz.byte 2) * 60 + bcd (fz.byte 1)

/-- `f"{n:02d}"` of a number that is not negative. -/
def twoDigits (n : ℤ) : String := padDec 2 n.toNat

def fzText (fz : FreezeTime) : String :=
  twoDigits (bcd (fz.byte 2)) ++ ":" ++ twoDigits (bcd (fz.byte 1))

/-! ## Frames -/

inductive Scene
  | activeReport
  | passiveReport
  | passiveCollect
  deriving DecidableEq, Repr

inductive Direction
  | reply
  | request
  deriving DecidableEq, Repr

structure ActiveReport where
  address : String
  taskId : Byte
  fz : FreezeTime
  result : ℕ
  deriving DecidableEq, Repr

structure ReadFrame where
  direction : Direction
  taskId : Byte
  address : String
  fz : FreezeTime
  result : Option ℕ
  deriving DecidableEq, Repr

/-- A task with its period and whether it is switched on. -/
structure TaskConfig where
  taskId : Byte
  period : Byte
  switchFlag : ℕ
  deriving DecidableEq, Repr

/-- Bytes in reverse, as an address is written. -/
def addressText (data : Bytes) : String := upper (hex data.reverse)

section Parsers
variable (digit : Char → Bool) (line : List Char)

def parseActiveReport : PyM (Option ActiveReport) :=
  if hexAfter "11e400000" (dedupKey digit line) then
    match fromHexChars (dedupKey digit line) with
    | none => pure none
    | some data =>
      if hshort : data.length < 27 then pure none
      else do
        let taskId ← index data 19
        let flags ← index data 20
        pure (some ⟨addressText (slice data 13 19), taskId,
          ⟨slice data 21 27, freezeTime_slice hshort⟩, (flags : ℕ) >>> 5 &&& 7⟩)
  else pure none

def parseReadFrame : PyM (Option ReadFrame) :=
  if hexAfter "11e3" (dedupKey digit line) then
    match fromHexChars (dedupKey digit line) with
    | none => pure none
    | some data =>
      if hshort : data.length < 24 then pure none
      else do
        let taskId ← index data 17
        if taskId = 0xFF then pure none
        else
          let lo ← index data 4
          let hi ← index data 5
          let flags ← index data 10
          let direction := if le16 lo hi &&& 0x1000 = 0 then Direction.request else .reply
          let result := match direction with
            | .reply => some ((flags : ℕ) >>> 5 &&& 7)
            | .request => none
          pure (some ⟨direction, taskId, addressText (slice data 11 17),
            ⟨slice data 18 24, freezeTime_slice hshort⟩, result⟩)
  else pure none

def parseTaskConfig : PyM (Option TaskConfig) :=
  if hexAfter "11e2" (dedupKey digit line) then
    match fromHexChars (dedupKey digit line) with
    | none => pure none
    | some data =>
      if data.length < 17 then pure none
      else do
        -- a frame of 17 bytes has passed the check, and byte 17 is not there
        let flags ← index data 17
        let taskId ← index data 16
        let switchFlag := (flags : ℕ) &&& 1
        if taskId = 0xFF then
          if switchFlag = 0 then pure (some ⟨0xFF, 0, 0⟩) else pure none
        else if data.length < 19 then pure none
        else do
          let period ← index data 18
          pure (some ⟨taskId, period, switchFlag⟩)
  else pure none

/-- `parse_full_f231_frame`. -/
def parseFullF231Frame : PyM (Option TaskConfig) :=
  if hexAfter "" (dedupKey digit line) then
    match fromHexChars (dedupKey digit line) with
    | none => pure none
    | some data =>
      if data.length < 17 then pure none
      else do
        let start ← index data 0
        let control ← index data 3
        let afn ← index data 10
        let dt₁ ← index data 11
        let dt₂ ← index data 12
        if start ≠ 0x68 ∨ (control : ℕ) &&& 0x80 ≠ 0 ∨ afn ≠ 0x11 ∨ dt₁ ≠ 0x40 ∨ dt₂ ≠ 0x1C then
          pure none
        else do
          let taskId ← index data 13
          let switchFlag ← index data 14
          let period ← index data 16
          if taskId = 0xFF then
            if switchFlag = 0 then pure (some ⟨0xFF, 0, 0⟩) else pure none
          else pure (some ⟨taskId, period, (switchFlag : ℕ) &&& 1⟩)
  else pure none

def parseTaskConfigAny : PyM (Option TaskConfig) := do
  match ← parseTaskConfig digit line with
  | some config => pure (some config)
  | none => parseFullF231Frame digit line

end Parsers

/-- `parse_f232_frame`. -/
def parseF232Frame (frame : Bytes) : PyM (Option (Byte × List String)) :=
  if frame.length < 16 then pure none
  else do
    let control ← index frame 3
    let afn ← index frame 10
    let dt₁ ← index frame 11
    let dt₂ ← index frame 12
    if control ≠ 0x43 ∨ afn ≠ 0x11 ∨ dt₁ ≠ 0x80 ∨ dt₂ ≠ 0x1C then pure none
    else do
      let taskId ← index frame 13
      if taskId = 0xFF then pure none
      else do
        let lo ← index frame 14
        let hi ← index frame 15
        let count := le16 lo hi
        if count = 0 ∨ frame.length < 16 + count * 6 then pure none
        else
          pure (some (taskId,
            (List.range count).map fun i => addressText (slice frame (16 + i * 6) (22 + i * 6))))

/-- `has_data_region`. -/
def hasDataRegion (data : Bytes) : Scene → Bool
  | .activeReport => decide (30 ≤ data.length) && (slice data 27 30).any (· ≠ 0)
  | .passiveReport => decide (27 ≤ data.length) && (slice data 24 27).any (· ≠ 0)
  | .passiveCollect => false

/-- `classify_11e3_scene`. -/
def classify11e3Scene (frame : ReadFrame) : Scene :=
  match frame.direction with
  | .reply => .passiveReport
  | .request => .passiveCollect

/-! ## The readings that cannot raise -/

/-- The predicate of a place in a shape. -/
def placePredicate : Option Char → Char → Bool
  | none => Char.isDigit
  | some c => (· == c)

theorem dropShape_eq (shape : List (Option Char)) (cs : List Char) :
    MinuteAssert.dropShape shape cs =
      if fits (shape.map placePredicate) cs then some (cs.drop shape.length) else none := by
  induction shape generalizing cs with
  | nil => rfl
  | cons place shape ih =>
      cases cs with
      | nil => cases place <;> rfl
      | cons d cs =>
          rw [List.map_cons, fits, List.length_cons, List.drop_succ_cons]
          cases place with
          | none => by_cases h : d.isDigit <;> simp [MinuteAssert.dropShape, placePredicate, h, ih]
          | some c =>
              by_cases h : c = d
              · simp [MinuteAssert.dropShape, placePredicate, h, ih]
              · simp [MinuteAssert.dropShape, placePredicate, h, Ne.symm h]

/-- Where `\d` is an ASCII digit, the key is the one of the task frames. -/
theorem dedupKey_isDigit (line : List Char) :
    dedupKey Char.isDigit line = MinuteAssert.dedupKey line := by
  have hshape : MinuteAssert.stampShape.map placePredicate = stamp Char.isDigit := rfl
  have hstripped : stripped Char.isDigit line =
      pyStrip ((MinuteAssert.dropShape MinuteAssert.stampShape line).getD line) := by
    rw [dropShape_eq, hshape, stripped]
    by_cases h : fits (stamp Char.isDigit) line = true
    · rw [if_pos h, if_pos h]
      rfl
    · rw [if_neg h, if_neg h]
      rfl
  unfold dedupKey MinuteAssert.dedupKey
  rw [hstripped]

theorem index_byteAt {data : Bytes} {i : ℕ} (h : i < data.length) :
    index data i = .ok (byteAt data i) := by
  rw [index_eq_ok h, byteAt, List.getD_eq_getElem _ _ h]

theorem parseF232Frame_eq (frame : Bytes) :
    parseF232Frame frame =
      .ok ((MinuteAssert.parseF232Frame frame).map fun e => (byte e.1, e.2)) := by
  unfold parseF232Frame MinuteAssert.parseF232Frame
  by_cases hshort : frame.length < 16
  · rw [if_pos hshort, if_pos (.inl hshort)]
    rfl
  · have hindex (i : ℕ) (hi : i < 16) : index frame i = .ok (byteAt frame i) :=
      index_byteAt (by omega)
    rw [if_neg hshort, hindex 3 (by omega), hindex 10 (by omega), hindex 11 (by omega),
      hindex 12 (by omega), hindex 13 (by omega), hindex 14 (by omega), hindex 15 (by omega)]
    by_cases hhead : byteAt frame 3 ≠ 0x43 ∨ byteAt frame 10 ≠ 0x11 ∨ byteAt frame 11 ≠ 0x80 ∨
        byteAt frame 12 ≠ 0x1C
    · rw [if_pos (.inr hhead)]
      simp only [bind, Except.bind, if_pos hhead]
      rfl
    · rw [if_neg (not_or.mpr ⟨hshort, hhead⟩)]
      simp only [bind, Except.bind, if_neg hhead]
      split
      · rfl
      · rw [le16]
        split
        · rfl
        · rw [Option.map_some, byte_of_val]
          rfl

/-! ## What the parsers can raise -/

section Raising
variable (digit : Char → Bool) (line : List Char)

/-- A frame of a task configuration that ends before the byte with its switch. -/
def CutConfig : Prop :=
  hexAfter "11e2" (dedupKey digit line) = true ∧
    ∃ data, fromHexChars (dedupKey digit line) = some data ∧ data.length = 17

theorem index_total {data : Bytes} {i : ℕ} (h : i < data.length) : Total (index data i) := by
  rw [index_eq_ok h]
  exact returns_ok trivial

theorem pure_total {α : Type} (v : α) : Total (pure v : PyM α) := returns_pure trivial

theorem parseActiveReport_total : Total (parseActiveReport digit line) := by
  unfold parseActiveReport
  apply Total.ite _ (pure_total none)
  split
  · exact pure_total none
  · rename_i data hdata
    split
    · exact pure_total none
    · apply (index_total (by omega)).andThen
      intro taskId
      apply (index_total (by omega)).andThen
      exact fun flags => pure_total _

theorem parseReadFrame_total : Total (parseReadFrame digit line) := by
  unfold parseReadFrame
  apply Total.ite _ (pure_total none)
  split
  · exact pure_total none
  · rename_i data hdata
    split
    · exact pure_total none
    · apply (index_total (by omega)).andThen
      intro taskId
      apply Total.ite (pure_total none)
      apply (index_total (by omega)).andThen
      intro lo
      apply (index_total (by omega)).andThen
      intro hi
      apply (index_total (by omega)).andThen
      exact fun flags => pure_total _

theorem parseFullF231Frame_total : Total (parseFullF231Frame digit line) := by
  unfold parseFullF231Frame
  apply Total.ite _ (pure_total none)
  split
  · exact pure_total none
  · rename_i data hdata
    by_cases hshort : data.length < 17
    · rw [if_pos hshort]
      exact pure_total none
    · rw [if_neg hshort]
      apply (index_total (by omega)).andThen
      intro start
      apply (index_total (by omega)).andThen
      intro control
      apply (index_total (by omega)).andThen
      intro afn
      apply (index_total (by omega)).andThen
      intro dt₁
      apply (index_total (by omega)).andThen
      intro dt₂
      apply Total.ite (pure_total none)
      apply (index_total (by omega)).andThen
      intro taskId
      apply (index_total (by omega)).andThen
      intro switchFlag
      apply (index_total (by omega)).andThen
      intro period
      apply Total.ite _ (pure_total _)
      exact Total.ite (pure_total _) (pure_total none)

theorem parseF232Frame_total (frame : Bytes) : Total (parseF232Frame frame) := by
  unfold parseF232Frame
  by_cases hshort : frame.length < 16
  · rw [if_pos hshort]
    exact pure_total none
  · rw [if_neg hshort]
    apply (index_total (by omega)).andThen
    intro control
    apply (index_total (by omega)).andThen
    intro afn
    apply (index_total (by omega)).andThen
    intro dt₁
    apply (index_total (by omega)).andThen
    intro dt₂
    apply Total.ite (pure_total none)
    apply (index_total (by omega)).andThen
    intro taskId
    apply Total.ite (pure_total none)
    apply (index_total (by omega)).andThen
    intro lo
    apply (index_total (by omega)).andThen
    intro hi
    exact Total.ite (pure_total none) (pure_total _)

/-- A task configuration is read unless it ends in front of its switch. -/
theorem parseTaskConfig_returns :
    Returns (parseTaskConfig digit line) (¬ CutConfig digit line) fun _ => True := by
  have hclear (h : Total (parseTaskConfig digit line)) (hcut : ¬ CutConfig digit line) :
      Returns (parseTaskConfig digit line) (¬ CutConfig digit line) fun _ => True :=
    h.congr (iff_of_true trivial hcut)
  unfold parseTaskConfig at hclear ⊢
  by_cases hhead : hexAfter "11e2" (dedupKey digit line) = true
  · rw [if_pos hhead] at hclear ⊢
    cases hdata : fromHexChars (dedupKey digit line) with
    | none =>
        rw [hdata] at hclear
        apply hclear (pure_total none)
        rintro ⟨-, data, hsome, -⟩
        rw [hdata] at hsome
        cases hsome
    | some data =>
        have hcut : CutConfig digit line ↔ data.length = 17 := by
          constructor
          · rintro ⟨-, data', hsome, hlength⟩
            obtain rfl := Option.some.inj (hdata.symm.trans hsome)
            exact hlength
          · exact fun hlength => ⟨hhead, data, hdata, hlength⟩
        rw [hcut]
        by_cases hshort : data.length < 17
        · simp only [if_pos hshort]
          exact (pure_total none).congr (iff_of_true trivial (by omega))
        · simp only [if_neg hshort]
          by_cases hlong : 17 < data.length
          · apply Returns.congr _ (iff_of_true trivial (by omega))
            apply (index_total hlong).andThen
            intro flags
            apply (index_total (by omega)).andThen
            intro taskId
            apply Total.ite
            · exact Total.ite (pure_total _) (pure_total none)
            · by_cases hperiod : data.length < 19
              · rw [if_pos hperiod]
                exact pure_total none
              · rw [if_neg hperiod]
                apply (index_total (by omega)).andThen
                exact fun period => pure_total _
          · have hlength : data.length = 17 := by omega
            have hraises : index data 17 = .error .indexError := by
              rw [index, List.getElem?_eq_none (by omega)]
              rfl
            rw [hraises]
            exact (returns_error _).congr (iff_of_false id (not_not_intro hlength))
  · rw [if_neg hhead] at hclear ⊢
    exact hclear (pure_total none) fun hcut => hhead hcut.1

theorem parseTaskConfigAny_returns :
    Returns (parseTaskConfigAny digit line) (¬ CutConfig digit line) fun _ => True := by
  apply (parseTaskConfig_returns digit line).bind_total
  intro config _
  cases config with
  | none => exact parseFullF231Frame_total digit line
  | some config => exact pure_total _

end Raising

end HplcWorkbench.MinuteStats
