import HplcWorkbench.FlowTimes

/-!
# Instants of events

The instants of events are shown in one of four formats. A clock is read down to the seconds; the
milliseconds behind a point are lost. A date without separators is not read.

A date in the ISO format is read as it stands: with or without a fraction of a second, and with or
without a zone.
-/

namespace HplcWorkbench.FlowComparison
open Adapter10376 (pyStrip pySpace)
open ListenerLog (digitsInt digitsInt_padDec length_padDec clockText exists_pair)

/-! ## Texts of instants -/

/-- `HH:MM:SS` of a second of the day. -/
def clockLabel (s : ℕ) : String :=
  padDec 2 (s / 3600) ++ ":" ++ padDec 2 (s % 3600 / 60) ++ ":" ++ padDec 2 (s % 60)

/-- `YYYYMMDD-HH:MM:SS:mmm`, `t` in milliseconds. -/
def datedLabel (year month day t : ℕ) : String :=
  padDec 4 year ++ padDec 2 month ++ padDec 2 day ++ "-" ++ clockLabel (t / 1000) ++ ":" ++ padDec 3 (t % 1000)

inductive Fraction
  | none
  | milli (n : Fin 1000)
  | micro (n : Fin 1000000)
  deriving DecidableEq, Repr

def Fraction.text : Fraction → String
  | .none => ""
  | .milli n => "." ++ padDec 3 n
  | .micro n => "." ++ padDec 6 n

def Fraction.microseconds : Fraction → ℕ
  | .none => 0
  | .milli n => n * 1000
  | .micro n => n

inductive ZoneLabel
  | none
  | utc
  | east (hour : Fin 24) (minute : Fin 60)
  | west (hour : Fin 24) (minute : Fin 60)
  deriving DecidableEq, Repr

def ZoneLabel.text : ZoneLabel → String
  | .none => ""
  | .utc => "Z"
  | .east hour minute => "+" ++ padDec 2 hour ++ ":" ++ padDec 2 minute
  | .west hour minute => "-" ++ padDec 2 hour ++ ":" ++ padDec 2 minute

def ZoneLabel.offset : ZoneLabel → Option ℤ
  | .none => Option.none
  | .utc => some 0
  | .east hour minute => some (hour * 3600 + minute * 60 : ℕ)
  | .west hour minute => some (-(hour * 3600 + minute * 60 : ℕ))

/-- A date with a time as the ISO format shows it. -/
structure IsoStamp where
  year : ℕ
  month : ℕ
  day : ℕ
  hour : ℕ
  minute : ℕ
  second : ℕ
  fraction : Fraction
  zone : ZoneLabel
  year_lt : year < 10000
  valid : (⟨year, month, day, hour, minute, second, fraction.microseconds, zone.offset⟩ : DateTime).Valid

def IsoStamp.dateTime (d : IsoStamp) : DateTime :=
  ⟨d.year, d.month, d.day, d.hour, d.minute, d.second, d.fraction.microseconds, d.zone.offset⟩

def IsoStamp.text (d : IsoStamp) : String :=
  padDec 4 d.year ++ "-" ++ padDec 2 d.month ++ "-" ++ padDec 2 d.day ++ "T" ++ padDec 2 d.hour ++ ":" ++
    padDec 2 d.minute ++ ":" ++ padDec 2 d.second ++ d.fraction.text ++ d.zone.text

inductive TimeFormat
  | clock
  | clockMs
  | dated
  | iso
  deriving DecidableEq, Repr

/-- The text shows the instant, in seconds; a clock may be that of any day. -/
inductive Shows (zone : ℤ → ℤ) : TimeFormat → String → ℚ → Prop
  | clock (day : ℤ) (s : ℕ) (h : s < 86400) : Shows zone .clock (clockLabel s) (day * 86400 + s)
  | clockMs (day : ℤ) (t : ℕ) (h : t < 86400000) :
    Shows zone .clockMs (clockText t) (day * 86400 + t / 1000)
  | dated (d : DateTime) (t : ℕ) (hvalid : d.Valid) (hyear : d.year < 10000) (h : t < 86400000) :
    Shows zone .dated (datedLabel d.year d.month d.day t) (ordinal d.year d.month d.day * 86400 + t / 1000)
  | iso (d : IsoStamp) : Shows zone .iso d.text (d.dateTime.timestamp zone)

/-! ## Reading them back -/

section Reading
variable {zone : ℤ → ℤ}

/-- What stands in a clock. -/
theorem evTime_of_clock {time : String} (hempty : time.toList ≠ [])
    (hplain : ∀ c ∈ time.toList, c.isDigit = true ∨ c ∈ [':', '.', '-']) :
    evTime zone time = (clockSeconds time.toList).getD 0 := by
  have hspace : ∀ c ∈ time.toList, pySpace c = false := by
    intro c hc
    rcases hplain c hc with hdigit | hmark
    · exact pySpace_of_isDigit hdigit
    · simp only [List.mem_cons, List.not_mem_nil, or_false] at hmark
      rcases hmark with rfl | rfl | rfl <;> decide
  have hnot : 'T' ∉ time.toList := by
    intro hmem
    rcases hplain 'T' hmem with hdigit | hmark
    · revert hdigit
      decide
    · revert hmark
      decide
  rw [evTime, pyStrip_eq_self hspace, if_neg hempty, if_neg hnot]

theorem clockLabel_toList (s : ℕ) : (clockLabel s).toList = (padDec 2 (s / 3600)).toList ++
    ':' :: ((padDec 2 (s % 3600 / 60)).toList ++ ':' :: ((padDec 2 (s % 60)).toList ++ [])) := by
  simp [clockLabel, String.toList_append]

theorem plain_clockLabel (s : ℕ) : ∀ c ∈ (clockLabel s).toList, c.isDigit = true ∨ c ∈ [':', '.', '-'] := by
  intro c hc
  rw [clockLabel_toList] at hc
  simp only [List.mem_append, List.mem_cons, List.not_mem_nil, or_false] at hc ⊢
  rcases hc with hc | rfl | hc | rfl | hc
  · exact Or.inl (isDigit_of_mem_padDec hc)
  · exact Or.inr (Or.inl rfl)
  · exact Or.inl (isDigit_of_mem_padDec hc)
  · exact Or.inr (Or.inl rfl)
  · exact Or.inl (isDigit_of_mem_padDec hc)

theorem evTime_clockLabel (s : ℕ) : evTime zone (clockLabel s) = s := by
  have hempty : (clockLabel s).toList ≠ [] := by
    rw [clockLabel_toList]
    exact List.append_ne_nil_of_left_ne_nil (padDec_ne_nil _ _) _
  have hjoin : s / 3600 * 3600 + s % 3600 / 60 * 60 + s % 60 = s := by omega
  rw [evTime_of_clock hempty (plain_clockLabel s), clockLabel_toList,
    clockSeconds_clock (Or.inl rfl) List.not_mem_nil, hjoin, Option.getD_some]

theorem clockText_eq {t : ℕ} (h : t < 86400000) :
    clockText t = clockLabel (t / 1000) ++ "." ++ padDec 3 (t % 1000) := by
  have hday : t % 86400000 = t := Nat.mod_eq_of_lt h
  have hhour : t / 3600000 = t / 1000 / 3600 := by omega
  have hminute : t % 3600000 / 60000 = t / 1000 % 3600 / 60 := by omega
  have hsecond : t % 3600000 % 60000 / 1000 = t / 1000 % 60 := by omega
  have hmilli : t % 3600000 % 60000 % 1000 = t % 1000 := by omega
  simp only [clockText, hday, hhour, hminute, hsecond, hmilli, clockLabel]

/-- The milliseconds behind the point are lost. -/
theorem evTime_clockText {t : ℕ} (h : t < 86400000) : evTime zone (clockText t) = (t / 1000 : ℕ) := by
  have hchars : (clockText t).toList = (padDec 2 (t / 1000 / 3600)).toList ++
      ':' :: ((padDec 2 (t / 1000 % 3600 / 60)).toList ++
        ':' :: ((padDec 2 (t / 1000 % 60)).toList ++ '.' :: (padDec 3 (t % 1000)).toList)) := by
    rw [clockText_eq h, String.toList_append, String.toList_append, clockLabel_toList, List.append_nil]
    simp
  have hplain : ∀ c ∈ (clockText t).toList, c.isDigit = true ∨ c ∈ [':', '.', '-'] := by
    intro c hc
    rw [clockText_eq h, String.toList_append, String.toList_append, List.mem_append, List.mem_append] at hc
    rcases hc with (hc | hc) | hc
    · exact plain_clockLabel _ c hc
    · obtain rfl := List.mem_singleton.mp hc
      exact Or.inr (List.mem_cons_of_mem _ List.mem_cons_self)
    · exact Or.inl (isDigit_of_mem_padDec hc)
  have hempty : (clockText t).toList ≠ [] := by
    rw [hchars]
    exact List.append_ne_nil_of_left_ne_nil (padDec_ne_nil _ _) _
  have hcolon : ':' ∉ '.' :: (padDec 3 (t % 1000)).toList := by
    intro hmem
    rcases List.mem_cons.mp hmem with hdot | hdigit
    · revert hdot
      decide
    · exact absurd rfl (ne_of_isDigit (isDigit_of_mem_padDec hdigit) (by decide))
  have hjoin : t / 1000 / 3600 * 3600 + t / 1000 % 3600 / 60 * 60 + t / 1000 % 60 = t / 1000 := by omega
  rw [evTime_of_clock hempty hplain, hchars, clockSeconds_clock (Or.inr ⟨_, rfl⟩) hcolon, hjoin,
    Option.getD_some]

theorem digitsValue_dash {ds : List Char} (h : ∀ c ∈ ds, c.isDigit = true) (acc : ℕ) (rest : List Char) :
    PyVal.digitsValue acc (ds ++ '-' :: rest) = none := by
  induction ds generalizing acc with
  | nil => rfl
  | cons c ds ih =>
    have hc := h c List.mem_cons_self
    have hrest := ih fun d hd => h d (List.mem_cons_of_mem _ hd)
    have hmark : c ≠ '_' := ne_of_isDigit hc (by decide)
    rw [List.cons_append, PyVal.digitsValue, if_pos hc, hrest]
    rintro d more rfl
    exact absurd rfl hmark

/-- A dash behind digits is not part of a number. -/
theorem textValue_dash {ds rest : List Char} (h : ∀ c ∈ ds, c.isDigit = true) (hds : ds ≠ [])
    (hrest : ∀ c ∈ rest, c.isDigit = true) : PyVal.textValue (String.ofList (ds ++ '-' :: rest)) = none := by
  obtain ⟨c, more, rfl⟩ := List.exists_cons_of_ne_nil hds
  have hc := h c List.mem_cons_self
  have hspace : ∀ d ∈ c :: more ++ '-' :: rest, pySpace d = false := by
    intro d hd
    rcases List.mem_append.mp hd with hd | hd
    · exact pySpace_of_isDigit (h d hd)
    · rcases List.mem_cons.mp hd with rfl | hd
      · decide
      · exact pySpace_of_isDigit (hrest d hd)
  have hvalue := digitsValue_dash h 0 rest
  rw [PyVal.textValue, String.toList_ofList, pyStrip_eq_self hspace, List.cons_append]
  rw [List.cons_append] at hvalue
  split
  · rename_i heq
    exact absurd (List.cons.inj heq).1 (ne_of_isDigit hc (by decide))
  · rename_i heq
    exact absurd (List.cons.inj heq).1 (ne_of_isDigit hc (by decide))
  · rw [PyVal.unsignedValue, if_pos hc, hvalue]
    rfl

/-- A date without separators is not read. -/
theorem evTime_datedLabel (year month day t : ℕ) : evTime zone (datedLabel year month day t) = 0 := by
  have hdate : ∀ c ∈ (padDec 4 year ++ padDec 2 month ++ padDec 2 day).toList, c.isDigit = true := by
    intro c hc
    rw [String.toList_append, String.toList_append, List.mem_append, List.mem_append] at hc
    rcases hc with (hc | hc) | hc <;> exact isDigit_of_mem_padDec hc
  have hdate_ne : (padDec 4 year ++ padDec 2 month ++ padDec 2 day).toList ≠ [] := by
    rw [String.toList_append, String.toList_append]
    exact List.append_ne_nil_of_left_ne_nil (List.append_ne_nil_of_left_ne_nil (padDec_ne_nil _ _) _) _
  obtain ⟨rest, hchars⟩ : ∃ rest, (datedLabel year month day t).toList =
      ((padDec 4 year ++ padDec 2 month ++ padDec 2 day).toList ++
        '-' :: (padDec 2 (t / 1000 / 3600)).toList) ++ ':' :: rest := by
    rw [datedLabel]
    generalize padDec 4 year ++ padDec 2 month ++ padDec 2 day = date
    have hdash : "-".toList = ['-'] := rfl
    rw [String.toList_append, String.toList_append, String.toList_append, String.toList_append,
      clockLabel_toList, hdash]
    simp only [List.append_assoc, List.cons_append, List.nil_append]
    exact ⟨_, rfl⟩
  have hplain : ∀ c ∈ (datedLabel year month day t).toList, c.isDigit = true ∨ c ∈ [':', '.', '-'] := by
    intro c hc
    rw [datedLabel, String.toList_append, String.toList_append, String.toList_append, String.toList_append] at hc
    simp only [List.mem_append] at hc
    rcases hc with (((hc | hc) | hc) | hc) | hc
    · exact Or.inl (hdate c hc)
    · obtain rfl := List.mem_singleton.mp hc
      exact Or.inr (List.mem_cons_of_mem _ (List.mem_cons_of_mem _ List.mem_cons_self))
    · exact plain_clockLabel _ c hc
    · obtain rfl := List.mem_singleton.mp hc
      exact Or.inr List.mem_cons_self
    · exact Or.inl (isDigit_of_mem_padDec hc)
  have hfirst : (datedLabel year month day t).toList.splitOn ':' =
      ((padDec 4 year ++ padDec 2 month ++ padDec 2 day).toList ++
        '-' :: (padDec 2 (t / 1000 / 3600)).toList) :: rest.splitOn ':' := by
    rw [hchars, List.splitOn_eq_splitOnP, List.splitOnP_append_cons_of_forall_mem _ ':' rfl,
      List.splitOn_eq_splitOnP]
    intro c hc
    apply beq_false_of_ne
    rcases List.mem_append.mp hc with hc | hc
    · exact ne_of_isDigit (hdate c hc) (by decide)
    · rcases List.mem_cons.mp hc with rfl | hc
      · decide
      · exact ne_of_isDigit (isDigit_of_mem_padDec hc) (by decide)
  have hvalue := textValue_dash hdate hdate_ne
    fun c (hc : c ∈ (padDec 2 (t / 1000 / 3600)).toList) => isDigit_of_mem_padDec hc
  have hempty : (datedLabel year month day t).toList ≠ [] := by
    rw [hchars]
    exact List.append_ne_nil_of_right_ne_nil _ (List.cons_ne_nil _ _)
  rw [evTime_of_clock hempty hplain, clockSeconds, hfirst]
  simp only [List.getElem?_cons_zero, Option.bind_eq_bind, Option.bind_some, hvalue, Option.bind_none,
    Option.getD_none]

end Reading

/-! ## The parts of a date -/

section Parts
variable {rest : List Char}

theorem exists_quad {n : ℕ} (h : n < 10000) :
    ∃ a b c d, (padDec 4 n).toList = [a, b, c, d] ∧ digitsInt [a, b, c, d] = some n := by
  have hvalue := digitsInt_padDec 4 n
  have hlength := length_padDec (w := 4) (by decide) h
  generalize (padDec 4 n).toList = cs at hvalue hlength
  match cs, hlength with
  | [a, b, c, d], _ => exact ⟨a, b, c, d, rfl, hvalue⟩

theorem takeWhile_digits {ds : List Char} (hds : ∀ c ∈ ds, c.isDigit = true)
    (hrest : ∀ c ∈ rest.head?, c.isDigit = false) : (ds ++ rest).takeWhile Char.isDigit = ds := by
  rw [List.takeWhile_append_of_pos hds]
  cases rest with
  | nil => exact List.append_nil _
  | cons c rest =>
    rw [List.takeWhile_cons_of_neg (by rw [hrest c rfl]; exact Bool.false_ne_true)]
    exact List.append_nil _

theorem readFraction_text (f : Fraction) (hdigit : ∀ c ∈ rest.head?, c.isDigit = false)
    (hpoint : ∀ c ∈ rest.head?, c ≠ '.') :
    readFraction (f.text.toList ++ rest) = some (f.microseconds, rest) := by
  have hread : ∀ w n : ℕ, readFraction (("." ++ padDec w n).toList ++ rest) =
      if (padDec w n).toList.length = 3 then some (n * 1000, ((padDec w n).toList ++ rest).drop 3)
      else if (padDec w n).toList.length = 6 then some (n, ((padDec w n).toList ++ rest).drop 6)
      else none := by
    intro w n
    have hdigits := takeWhile_digits (fun c hc => isDigit_of_mem_padDec (w := w) (n := n) hc) hdigit
    have hchars : ("." ++ padDec w n).toList ++ rest = '.' :: ((padDec w n).toList ++ rest) := by
      rw [String.toList_append]
      rfl
    rw [hchars, readFraction, hdigits, digitsInt_padDec]
    dsimp only [Option.bind_eq_bind, Option.bind_some]
  cases f with
  | none =>
    cases rest with
    | nil => rfl
    | cons c rest =>
      change readFraction (c :: rest) = _
      unfold readFraction
      split
      · rename_i heq
        exact absurd (List.cons.inj heq).1 (hpoint c rfl)
      · rfl
  | milli n =>
    have hlength : (padDec 3 n).toList.length = 3 := length_padDec (by decide) n.isLt
    rw [Fraction.text, hread, if_pos hlength, List.drop_left' hlength]
    rfl
  | micro n =>
    have hlength : (padDec 6 n).toList.length = 6 := length_padDec (by decide) n.isLt
    rw [Fraction.text, hread, if_neg (by rw [hlength]; decide), if_pos hlength, List.drop_left' hlength]
    rfl

/-- `replace("Z", "+00:00")`. -/
theorem replace_of_not_mem {cs : List Char} (h : 'Z' ∉ cs) :
    (cs.flatMap fun c => if c = 'Z' then "+00:00".toList else [c]) = cs := by
  induction cs with
  | nil => rfl
  | cons c cs ih =>
    rw [List.mem_cons, not_or] at h
    rw [List.flatMap_cons, if_neg (Ne.symm h.1), ih h.2]
    rfl

/-- A zone as it is read. -/
def ZoneLabel.chars (z : ZoneLabel) : List Char :=
  z.text.toList.flatMap fun c => if c = 'Z' then "+00:00".toList else [c]

theorem readOffset_chars (z : ZoneLabel) : readOffset z.chars = some z.offset := by
  have hsigned : ∀ (sign : Char) (hour : Fin 24) (minute : Fin 60), sign ≠ 'Z' →
      ∃ h₁ h₂ m₁ m₂, (String.singleton sign ++ padDec 2 hour ++ ":" ++ padDec 2 minute).toList.flatMap
        (fun c => if c = 'Z' then "+00:00".toList else [c]) = [sign, h₁, h₂, ':', m₁, m₂] ∧
        digitsInt [h₁, h₂] = some (hour : ℕ) ∧ digitsInt [m₁, m₂] = some (minute : ℕ) := by
    intro sign hour minute hsign
    obtain ⟨h₁, h₂, hhour, hhour'⟩ := exists_pair (n := hour) (by omega)
    obtain ⟨m₁, m₂, hminute, hminute'⟩ := exists_pair (n := minute) (by omega)
    refine ⟨h₁, h₂, m₁, m₂, ?_, hhour', hminute'⟩
    have hchars : (String.singleton sign ++ padDec 2 hour ++ ":" ++ padDec 2 minute).toList =
        [sign, h₁, h₂, ':', m₁, m₂] := by
      rw [String.toList_append, String.toList_append, String.toList_append, hhour, hminute]
      simp
    have hletter : ∀ c : Char, c.isDigit = true → 'Z' ≠ c := fun c hc =>
      (ne_of_isDigit hc (by decide)).symm
    have hdigits₁ : ∀ c ∈ [h₁, h₂], c.isDigit = true := fun c hc => isDigit_of_mem_padDec (hhour ▸ hc)
    have hdigits₂ : ∀ c ∈ [m₁, m₂], c.isDigit = true := fun c hc => isDigit_of_mem_padDec (hminute ▸ hc)
    rw [hchars]
    apply replace_of_not_mem
    simp only [List.mem_cons, List.not_mem_nil, or_false, not_or]
    exact ⟨hsign.symm, hletter h₁ (hdigits₁ h₁ (by simp)), hletter h₂ (hdigits₁ h₂ (by simp)), by decide,
      hletter m₁ (hdigits₂ m₁ (by simp)), hletter m₂ (hdigits₂ m₂ (by simp))⟩
  cases z with
  | none => rfl
  | utc => decide +kernel
  | east hour minute =>
    obtain ⟨h₁, h₂, m₁, m₂, hchars, hhour, hminute⟩ := hsigned '+' hour minute (by decide)
    rw [ZoneLabel.chars, ZoneLabel.text]
    change readOffset (List.flatMap _ (String.singleton '+' ++ _ ++ _ ++ _).toList) = _
    rw [hchars, readOffset, hhour, hminute]
    dsimp only [Option.bind_eq_bind, Option.bind_some]
    rw [if_pos ⟨hour.isLt, minute.isLt⟩, if_pos rfl]
    rfl
  | west hour minute =>
    obtain ⟨h₁, h₂, m₁, m₂, hchars, hhour, hminute⟩ := hsigned '-' hour minute (by decide)
    rw [ZoneLabel.chars, ZoneLabel.text]
    change readOffset (List.flatMap _ (String.singleton '-' ++ _ ++ _ ++ _).toList) = _
    rw [hchars, readOffset, hhour, hminute]
    dsimp only [Option.bind_eq_bind, Option.bind_some]
    rw [if_pos ⟨hour.isLt, minute.isLt⟩, if_neg (by decide), if_pos rfl]
    rfl

theorem mem_zone_text {z : ZoneLabel} {c : Char} (h : c ∈ z.text.toList) :
    c.isDigit = true ∨ c ∈ ['Z', '+', '-', ':'] := by
  have hsigned : ∀ (sign : Char) (hour minute : ℕ), sign ∈ ['+', '-'] →
      c ∈ (String.singleton sign ++ padDec 2 hour ++ ":" ++ padDec 2 minute).toList →
        c.isDigit = true ∨ c ∈ ['Z', '+', '-', ':'] := by
    intro sign hour minute hsign hc
    rw [String.toList_append, String.toList_append, String.toList_append] at hc
    simp only [List.mem_append] at hc
    rcases hc with ((hc | hc) | hc) | hc
    · rw [String.toList_singleton, List.mem_singleton] at hc
      subst hc
      exact Or.inr (List.mem_cons_of_mem _ (List.mem_append_left [':'] hsign))
    · exact Or.inl (isDigit_of_mem_padDec hc)
    · obtain rfl := List.mem_singleton.mp hc
      exact Or.inr (by decide)
    · exact Or.inl (isDigit_of_mem_padDec hc)
  cases z with
  | none => cases h
  | utc =>
    obtain rfl := List.mem_singleton.mp h
    exact Or.inr List.mem_cons_self
  | east hour minute => exact hsigned '+' hour minute (by decide) h
  | west hour minute => exact hsigned '-' hour minute (by decide) h

theorem mem_fraction_text {f : Fraction} {c : Char} (h : c ∈ f.text.toList) : c.isDigit = true ∨ c = '.' := by
  have hpoint : ∀ w n : ℕ, c ∈ ("." ++ padDec w n).toList → c.isDigit = true ∨ c = '.' := by
    intro w n hc
    rw [String.toList_append, List.mem_append] at hc
    rcases hc with hc | hc
    · exact Or.inr (List.mem_singleton.mp hc)
    · exact Or.inl (isDigit_of_mem_padDec hc)
  cases f with
  | none => cases h
  | milli n => exact hpoint 3 n h
  | micro n => exact hpoint 6 n h

/-- A zone begins with its sign. -/
theorem head_zone_chars (z : ZoneLabel) :
    (∀ c ∈ z.chars.head?, c.isDigit = false) ∧ ∀ c ∈ z.chars.head?, c ≠ '.' := by
  have hhead : z.chars.head? = none ∨ z.chars.head? = some '+' ∨ z.chars.head? = some '-' := by
    cases z with
    | none => exact Or.inl rfl
    | utc => exact Or.inr (Or.inl (by decide +kernel))
    | east hour minute =>
      refine Or.inr (Or.inl ?_)
      rw [ZoneLabel.chars, ZoneLabel.text, String.toList_append, String.toList_append, String.toList_append]
      rfl
    | west hour minute =>
      refine Or.inr (Or.inr ?_)
      rw [ZoneLabel.chars, ZoneLabel.text, String.toList_append, String.toList_append, String.toList_append]
      rfl
  rcases hhead with hhead | hhead | hhead
  · rw [hhead]
    exact ⟨fun c hc => (by cases hc), fun c hc => (by cases hc)⟩
  · rw [hhead]
    exact ⟨fun c hc => (by cases hc; rfl), fun c hc => (by cases hc; decide)⟩
  · rw [hhead]
    exact ⟨fun c hc => (by cases hc; rfl), fun c hc => (by cases hc; decide)⟩

end Parts

/-! ## A date as a whole -/

section Whole
variable (d : IsoStamp)

/-- Down to the seconds, the parts of a date stand at fixed places. -/
theorem exists_head : ∃ y₁ y₂ y₃ y₄ m₁ m₂ d₁ d₂ h₁ h₂ n₁ n₂ s₁ s₂,
    d.text.toList = [y₁, y₂, y₃, y₄, '-', m₁, m₂, '-', d₁, d₂, 'T', h₁, h₂, ':', n₁, n₂, ':', s₁, s₂] ++
        (d.fraction.text.toList ++ d.zone.text.toList) ∧
      digitsInt [y₁, y₂, y₃, y₄] = some d.year ∧ digitsInt [m₁, m₂] = some d.month ∧
      digitsInt [d₁, d₂] = some d.day ∧ digitsInt [h₁, h₂] = some d.hour ∧
      digitsInt [n₁, n₂] = some d.minute ∧ digitsInt [s₁, s₂] = some d.second := by
  obtain ⟨-, -, hmonth, -, hday, hhour, hminute, hsecond⟩ := d.valid
  have hday' : daysInMonth d.year d.month ≤ 31 := by
    unfold daysInMonth
    split_ifs <;> omega
  dsimp only at hmonth hday hhour hminute hsecond
  obtain ⟨y₁, y₂, y₃, y₄, hy, hy'⟩ := exists_quad d.year_lt
  obtain ⟨m₁, m₂, hm, hm'⟩ := exists_pair (n := d.month) (by omega)
  obtain ⟨d₁, d₂, hd, hd'⟩ := exists_pair (n := d.day) (by omega)
  obtain ⟨h₁, h₂, hh, hh'⟩ := exists_pair (n := d.hour) (by omega)
  obtain ⟨n₁, n₂, hn, hn'⟩ := exists_pair (n := d.minute) (by omega)
  obtain ⟨s₁, s₂, hs, hs'⟩ := exists_pair (n := d.second) (by omega)
  refine ⟨y₁, y₂, y₃, y₄, m₁, m₂, d₁, d₂, h₁, h₂, n₁, n₂, s₁, s₂, ?_, hy', hm', hd', hh', hn', hs'⟩
  simp only [IsoStamp.text, String.toList_append, hy, hm, hd, hh, hn, hs]
  rfl

theorem evTime_iso (zone : ℤ → ℤ) : evTime zone d.text = d.dateTime.timestamp zone := by
  obtain ⟨y₁, y₂, y₃, y₄, m₁, m₂, d₁, d₂, h₁, h₂, n₁, n₂, s₁, s₂, hchars, hy, hm, hd, hh, hn, hs⟩ := exists_head d
  set head := [y₁, y₂, y₃, y₄, '-', m₁, m₂, '-', d₁, d₂, 'T', h₁, h₂, ':', n₁, n₂, ':', s₁, s₂] with hhead
  have hplain : ∀ c ∈ head, c.isDigit = true ∨ c ∈ ['-', 'T', ':'] := by
    have hy := fun c => isDigit_of_digitsInt (c := c) hy
    have hm := fun c => isDigit_of_digitsInt (c := c) hm
    have hd := fun c => isDigit_of_digitsInt (c := c) hd
    have hh := fun c => isDigit_of_digitsInt (c := c) hh
    have hn := fun c => isDigit_of_digitsInt (c := c) hn
    have hs := fun c => isDigit_of_digitsInt (c := c) hs
    simp only [List.mem_cons, List.not_mem_nil, or_false] at hy hm hd hh hn hs
    rw [hhead]
    simp only [List.mem_cons, List.not_mem_nil, or_false]
    simp [hy, hm, hd, hh, hn, hs]
  have hspace : ∀ c ∈ d.text.toList, pySpace c = false := by
    intro c hc
    rw [hchars, List.mem_append, List.mem_append] at hc
    have hmark : ∀ c ∈ ['-', 'T', ':', '.', 'Z', '+'], pySpace c = false := by
      have hall : ['-', 'T', ':', '.', 'Z', '+'].all (fun c => !pySpace c) = true := by decide
      intro c hc
      simpa using List.all_eq_true.mp hall c hc
    rcases hc with hc | hc | hc
    · rcases hplain c hc with hdigit | hc
      · exact pySpace_of_isDigit hdigit
      · exact hmark c (List.mem_append_left ['.', 'Z', '+'] hc)
    · rcases mem_fraction_text hc with hdigit | rfl
      · exact pySpace_of_isDigit hdigit
      · decide
    · rcases mem_zone_text hc with hdigit | hc
      · exact pySpace_of_isDigit hdigit
      · simp only [List.mem_cons, List.not_mem_nil, or_false] at hc
        rcases hc with rfl | rfl | rfl | rfl <;> decide
  have hletter : 'T' ∈ d.text.toList := by
    rw [hchars, hhead]
    simp
  have hutc : (d.text.toList.flatMap fun c => if c = 'Z' then "+00:00".toList else [c]) =
      head ++ (d.fraction.text.toList ++ d.zone.chars) := by
    rw [hchars, List.flatMap_append, List.flatMap_append, replace_of_not_mem, replace_of_not_mem]
    · rfl
    · intro hmem
      rcases mem_fraction_text hmem with hdigit | hpoint
      · revert hdigit
        decide
      · revert hpoint
        decide
    · intro hmem
      rcases hplain 'Z' hmem with hdigit | hmark
      · revert hdigit
        decide
      · revert hmark
        decide
  have hread : fromIsoFormat (head ++ (d.fraction.text.toList ++ d.zone.chars)) = some d.dateTime := by
    obtain ⟨hdigit, hpoint⟩ := head_zone_chars d.zone
    rw [hhead]
    simp only [List.cons_append, List.nil_append, fromIsoFormat, readTime, hy, hm, hd, hh, hn, hs,
      readFraction_text d.fraction hdigit hpoint, readOffset_chars, Option.bind_eq_bind, Option.bind_some]
    exact if_pos d.valid
  have hempty : d.text.toList ≠ [] := List.ne_nil_of_mem hletter
  rw [evTime, pyStrip_eq_self hspace, if_neg hempty, if_pos hletter, parseIso, hutc, hread]
  rfl

end Whole

end HplcWorkbench.FlowComparison
