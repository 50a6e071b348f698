import HplcWorkbench.HexReading
import HplcWorkbench.MinuteInstants
import Mathlib.Algebra.Order.Ring.Unbundled.Rat
import Mathlib.Data.List.TakeWhile
import Mathlib.Tactic.Ring

/-!
# Times of a flow

`_ev_time` makes seconds of the time of an event. What it cannot read is 0. Times are rational
numbers where the code has floats; infinite numbers and `nan` are not read.

A clock without a date is read down to the seconds. A date without separators is not a number, so that
such a time is read as 0. A date in the ISO format is read as it stands.
-/

namespace HplcWorkbench.FlowComparison
open Adapter10376 (pyStrip pySpace)
open ListenerLog (digitsInt digitsInt_padDec clockText)

/-! ## Numbers -/

/-- Digits after a sign. -/
def signedValue : List Char → Option ℤ
  | '-' :: rest => (PyVal.unsignedValue rest).map fun n => -(n : ℤ)
  | '+' :: rest => (PyVal.unsignedValue rest).map Int.ofNat
  | cs => (PyVal.unsignedValue cs).map Int.ofNat

/-- `float(s)` of a text without a point. -/
def floatValue (cs : List Char) : Option ℚ :=
  match (pyStrip cs).span fun c => c ≠ 'e' ∧ c ≠ 'E' with
  | (mantissa, []) => (signedValue mantissa).map fun n => (n : ℚ)
  | (mantissa, _ :: exponent) => do
    let m ← signedValue mantissa
    let e ← signedValue exponent
    some (m * (10 : ℚ) ^ e)

/-! ## Dates -/

/-- A date with a time, and the seconds east of UTC where the text says so. -/
structure DateTime where
  year : ℕ
  month : ℕ
  day : ℕ
  hour : ℕ
  minute : ℕ
  second : ℕ
  microsecond : ℕ
  utcOffset : Option ℤ
  deriving DecidableEq, Repr

def isLeap (year : ℕ) : Bool := year % 4 = 0 && (year % 100 ≠ 0 || year % 400 = 0)

def daysInMonth (year month : ℕ) : ℕ :=
  if month = 2 then if isLeap year then 29 else 28
  else if month ∈ [4, 6, 9, 11] then 30 else 31

def DateTime.Valid (d : DateTime) : Prop :=
  1 ≤ d.year ∧ 1 ≤ d.month ∧ d.month ≤ 12 ∧ 1 ≤ d.day ∧ d.day ≤ daysInMonth d.year d.month ∧
    d.hour < 24 ∧ d.minute < 60 ∧ d.second < 60

instance (d : DateTime) : Decidable d.Valid := inferInstanceAs (Decidable (_ ∧ _))

/-- Days since the first day of year 1. -/
def ordinal (year month day : ℕ) : ℕ :=
  let y := year - 1
  y * 365 + y / 4 - y / 100 + y / 400 +
    ((List.range (month - 1)).map fun m => daysInMonth year (m + 1)).sum + day

/-- Seconds since 1970, as if the clock showed UTC. -/
def DateTime.clock (d : DateTime) : ℤ :=
  ((ordinal d.year d.month d.day : ℤ) - ordinal 1970 1 1) * 86400 +
    (d.hour * 3600 + d.minute * 60 + d.second : ℕ)

/-- `timestamp()`; `zone` has the seconds by which the local clock is ahead of UTC. -/
def DateTime.timestamp (zone : ℤ → ℤ) (d : DateTime) : ℚ :=
  ((d.clock - d.utcOffset.getD (zone d.clock) : ℤ) : ℚ) + d.microsecond / 1000000

/-- `+HH:MM` or `-HH:MM`, or nothing. -/
def readOffset : List Char → Option (Option ℤ)
  | [] => some none
  | [sign, h₁, h₂, ':', m₁, m₂] => do
    let hour ← digitsInt [h₁, h₂]
    let minute ← digitsInt [m₁, m₂]
    if hour < 24 ∧ minute < 60 then
      if sign = '+' then some (some (hour * 3600 + minute * 60 : ℕ))
      else if sign = '-' then some (some (-(hour * 3600 + minute * 60 : ℕ)))
      else none
    else none
  | _ => none

/-- The fraction of a second in three or six digits, or none, and what follows it. -/
def readFraction : List Char → Option (ℕ × List Char)
  | '.' :: rest => do
    let digits := rest.takeWhile Char.isDigit
    let n ← digitsInt digits
    if digits.length = 3 then some (n * 1000, rest.drop 3)
    else if digits.length = 6 then some (n, rest.drop 6)
    else none
  | rest => some (0, rest)

/-- Hours, minutes, seconds and microseconds, and what follows them. -/
def readTime : List Char → Option ((ℕ × ℕ × ℕ × ℕ) × List Char)
  | h₁ :: h₂ :: ':' :: m₁ :: m₂ :: ':' :: s₁ :: s₂ :: rest => do
    let hour ← digitsInt [h₁, h₂]
    let minute ← digitsInt [m₁, m₂]
    let second ← digitsInt [s₁, s₂]
    let (microsecond, rest) ← readFraction rest
    some ((hour, minute, second, microsecond), rest)
  | h₁ :: h₂ :: ':' :: m₁ :: m₂ :: rest => do
    let hour ← digitsInt [h₁, h₂]
    let minute ← digitsInt [m₁, m₂]
    some ((hour, minute, 0, 0), rest)
  | h₁ :: h₂ :: rest => do
    let hour ← digitsInt [h₁, h₂]
    some ((hour, 0, 0, 0), rest)
  | _ => none

/-- `datetime.fromisoformat` of the extended format. -/
def fromIsoFormat : List Char → Option DateTime
  | y₁ :: y₂ :: y₃ :: y₄ :: '-' :: m₁ :: m₂ :: '-' :: d₁ :: d₂ :: _ :: time => do
    let year ← digitsInt [y₁, y₂, y₃, y₄]
    let month ← digitsInt [m₁, m₂]
    let day ← digitsInt [d₁, d₂]
    let ((hour, minute, second, microsecond), rest) ← readTime time
    let utcOffset ← readOffset rest
    let d : DateTime := ⟨year, month, day, hour, minute, second, microsecond, utcOffset⟩
    if d.Valid then some d else none
  | _ => none

/-- `_parse_iso`, `none` for the `ValueError`. -/
def parseIso (zone : ℤ → ℤ) (t : List Char) : Option ℚ :=
  let utc := t.flatMap fun c => if c = 'Z' then "+00:00".toList else [c]
  ((fromIsoFormat utc).or (fromIsoFormat (t.take 19))).map (DateTime.timestamp zone)

/-! ## The time of an event -/

/-- Hours, minutes, seconds up to a point, and the milliseconds behind a third colon. -/
def clockSeconds (t : List Char) : Option ℚ := do
  let parts := t.splitOn ':'
  let hour ← PyVal.textValue (String.ofList (← parts[0]?))
  let minute ← PyVal.textValue (String.ofList (← parts[1]?))
  let second ← floatValue ((← parts[2]?).takeWhile (· ≠ '.'))
  let milli ← match parts[3]? with
    | some part => PyVal.textValue (String.ofList part)
    | none => some 0
  some ((hour * 3600 + minute * 60 : ℤ) + second + milli / 1000)

/-- `_ev_time`. -/
def evTime (zone : ℤ → ℤ) (time : String) : ℚ :=
  let t := pyStrip time.toList
  if t = [] then 0
  else ((if 'T' ∈ t then parseIso zone t else clockSeconds t).getD 0)

/-! ## Digits -/

section Digits
variable {w n : ℕ} {c : Char} {cs : List Char}

theorem isDigit_of_digitsInt (h : digitsInt cs = some n) (hc : c ∈ cs) : c.isDigit = true := by
  unfold digitsInt at h
  split at h
  case isTrue hall => exact List.all_eq_true.mp hall c hc
  case isFalse => cases h

theorem isDigit_of_mem_padDec (h : c ∈ (padDec w n).toList) : c.isDigit = true :=
  isDigit_of_digitsInt (digitsInt_padDec w n) h

theorem padDec_ne_nil (w n : ℕ) : (padDec w n).toList ≠ [] := by
  rw [ListenerLog.toList_padDec]
  exact List.append_ne_nil_of_right_ne_nil _ (List.ne_nil_of_length_pos Nat.length_toDigits_pos)

theorem toNat_of_isDigit (h : c.isDigit = true) : 48 ≤ c.toNat ∧ c.toNat ≤ 57 := by
  rw [Char.isDigit, Bool.and_eq_true, decide_eq_true_eq, decide_eq_true_eq] at h
  exact h

theorem pySpace_of_isDigit (h : c.isDigit = true) : pySpace c = false := by
  obtain ⟨hlo, hhi⟩ := toNat_of_isDigit h
  unfold pySpace
  rw [decide_eq_false_iff_not]
  simp only [List.mem_cons, List.not_mem_nil, or_false]
  omega

theorem ne_of_isDigit (h : c.isDigit = true) {d : Char} (hd : d.isDigit = false) : c ≠ d := by
  rintro rfl
  rw [h] at hd
  cases hd

theorem unsignedValue_padDec (w n : ℕ) : PyVal.unsignedValue (padDec w n).toList = some n := by
  have hvalue : PyVal.digitsValue 0 (padDec w n).toList = some n := by
    rw [digitsValue_digits fun c hc => isDigit_of_mem_padDec hc, ListenerLog.toList_padDec,
      Nat.ofDigitChars_append, Nat.ofDigitChars_replicate_zero, Nat.mul_zero, Nat.ofDigitChars_ten_toDigits]
  obtain ⟨c, rest, hcons⟩ := List.exists_cons_of_ne_nil (padDec_ne_nil w n)
  have hc : c.isDigit = true := isDigit_of_mem_padDec (hcons ▸ List.mem_cons_self)
  rw [hcons] at hvalue ⊢
  rw [PyVal.unsignedValue, if_pos hc, hvalue]

theorem signedValue_padDec (w n : ℕ) : signedValue (padDec w n).toList = some (n : ℤ) := by
  have hvalue := unsignedValue_padDec w n
  obtain ⟨c, rest, hcons⟩ := List.exists_cons_of_ne_nil (padDec_ne_nil w n)
  have hc : c.isDigit = true := isDigit_of_mem_padDec (hcons ▸ List.mem_cons_self)
  rw [hcons] at hvalue ⊢
  unfold signedValue
  split
  · rename_i h
    exact absurd (List.cons.inj h).1 (ne_of_isDigit hc (by decide))
  · rename_i h
    exact absurd (List.cons.inj h).1 (ne_of_isDigit hc (by decide))
  · rw [hvalue]
    rfl

theorem pyStrip_padDec (w n : ℕ) : pyStrip (padDec w n).toList = (padDec w n).toList :=
  pyStrip_eq_self fun _ hc => pySpace_of_isDigit (isDigit_of_mem_padDec hc)

theorem textValue_padDec (w n : ℕ) : PyVal.textValue (String.ofList (padDec w n).toList) = some (n : ℤ) := by
  have hvalue := unsignedValue_padDec w n
  obtain ⟨c, rest, hcons⟩ := List.exists_cons_of_ne_nil (padDec_ne_nil w n)
  have hc : c.isDigit = true := isDigit_of_mem_padDec (hcons ▸ List.mem_cons_self)
  rw [PyVal.textValue, String.toList_ofList, pyStrip_padDec, hcons]
  rw [hcons] at hvalue
  split
  · rename_i h
    exact absurd (List.cons.inj h).1 (ne_of_isDigit hc (by decide))
  · rename_i h
    exact absurd (List.cons.inj h).1 (ne_of_isDigit hc (by decide))
  · rw [hvalue]
    rfl

theorem floatValue_padDec (w n : ℕ) : floatValue (padDec w n).toList = some (n : ℚ) := by
  have hplain : ∀ c ∈ (padDec w n).toList, decide (c ≠ 'e' ∧ c ≠ 'E') = true := by
    intro c hc
    have hdigit := isDigit_of_mem_padDec hc
    exact decide_eq_true ⟨ne_of_isDigit hdigit (by decide), ne_of_isDigit hdigit (by decide)⟩
  have hspan : (padDec w n).toList.span (fun c => c ≠ 'e' ∧ c ≠ 'E') = ((padDec w n).toList, []) := by
    rw [List.span_eq_takeWhile_dropWhile, List.takeWhile_eq_self_iff.mpr hplain,
      List.dropWhile_eq_nil_iff.mpr hplain]
  rw [floatValue, pyStrip_padDec, hspan]
  dsimp only
  rw [signedValue_padDec]
  rfl

end Digits

/-! ## Clocks -/

section Clocks
variable {h m s : ℕ}

theorem splitOn_padDec (w n : ℕ) (rest : List Char) :
    ((padDec w n).toList ++ ':' :: rest).splitOn ':' = (padDec w n).toList :: rest.splitOn ':' := by
  rw [List.splitOn_eq_splitOnP, List.splitOnP_append_cons_of_forall_mem _ ':' rfl, List.splitOn_eq_splitOnP]
  intro c hc
  exact beq_false_of_ne (ne_of_isDigit (isDigit_of_mem_padDec hc) (by decide))

/-- Seconds with what stands behind a point. -/
theorem takeWhile_seconds (w n : ℕ) {tail : List Char} (htail : tail = [] ∨ ∃ more, tail = '.' :: more) :
    ((padDec w n).toList ++ tail).takeWhile (· ≠ '.') = (padDec w n).toList := by
  have hkeep : ∀ c ∈ (padDec w n).toList, decide (c ≠ '.') = true := fun c hc =>
    decide_eq_true (ne_of_isDigit (isDigit_of_mem_padDec hc) (by decide))
  rw [List.takeWhile_append_of_pos hkeep]
  rcases htail with rfl | ⟨more, rfl⟩
  · exact List.append_nil _
  · exact List.append_nil _

/-- A clock is read down to the seconds; what stands behind a point is dropped. -/
theorem clockSeconds_clock {tail : List Char} (htail : tail = [] ∨ ∃ more, tail = '.' :: more)
    (hcolon : ':' ∉ tail) :
    clockSeconds ((padDec 2 h).toList ++ ':' :: ((padDec 2 m).toList ++ ':' :: ((padDec 2 s).toList ++ tail))) =
      some ((h * 3600 + m * 60 + s : ℕ) : ℚ) := by
  have hlast : ((padDec 2 s).toList ++ tail).splitOn ':' = [(padDec 2 s).toList ++ tail] := by
    rw [List.splitOn_eq_splitOnP]
    apply List.splitOnP_eq_singleton
    intro c hc
    apply beq_false_of_ne
    rintro rfl
    rcases List.mem_append.mp hc with hc | hc
    · exact absurd rfl (ne_of_isDigit (isDigit_of_mem_padDec hc) (by decide))
    · exact hcolon hc
  have hsum : (((h : ℤ) * 3600 + (m : ℤ) * 60 : ℤ) : ℚ) + (s : ℚ) + ((0 : ℤ) : ℚ) / 1000 =
      ((h * 3600 + m * 60 + s : ℕ) : ℚ) := by
    push_cast
    ring
  unfold clockSeconds
  rw [splitOn_padDec, splitOn_padDec, hlast]
  simp only [List.getElem?_cons_zero, List.getElem?_cons_succ, List.getElem?_nil, Option.bind_eq_bind,
    Option.bind_some, textValue_padDec, takeWhile_seconds _ _ htail, floatValue_padDec, hsum]

end Clocks

end HplcWorkbench.FlowComparison
