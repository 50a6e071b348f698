import HplcWorkbench.PyParams

/-!
# Reading hexadecimal text

Every reader of hexadecimal text, `bytes.fromhex`, `int(s, 16)` and the facade's own, finds the
bytes that were printed. Decimal digits are read as the bytes they spell, and a number that was printed
with zeros before it is read back.
-/

namespace HplcWorkbench

open Adapter10376 (pySpace pyStrip IsDigit)

section Texts

theorem pyStrip_eq_self {cs : List Char} (h : ∀ c ∈ cs, pySpace c = false) : pyStrip cs = cs := by
  have hkeep : ∀ ds : List Char, (∀ c ∈ ds, pySpace c = false) → ds.dropWhile pySpace = ds := by
    intro ds hds
    cases ds with
    | nil => rfl
    | cons c rest => rw [List.dropWhile_cons_of_neg (by simp [hds c List.mem_cons_self])]
  rw [pyStrip, hkeep cs h, hkeep _ (fun c hc => h c (List.mem_reverse.mp hc)), List.reverse_reverse]

theorem digitsValue_digits {cs : List Char} (h : ∀ c ∈ cs, c.isDigit = true) (acc : ℕ) :
    PyVal.digitsValue acc cs = some (Nat.ofDigitChars 10 cs acc) := by
  induction cs generalizing acc with
  | nil => rfl
  | cons c cs ih =>
    have hc := h c List.mem_cons_self
    have hrest := ih fun d hd => h d (List.mem_cons_of_mem _ hd)
    have hmark : c ≠ '_' := by
      rintro rfl
      cases hc
    rw [PyVal.digitsValue, if_pos hc, hrest, Nat.ofDigitChars_cons, Nat.mul_comm]
    · rfl
    · rintro d more rfl
      exact absurd rfl hmark

/-- What the readers of hexadecimal text ask of a digit. -/
structure PlainDigit (c : Char) : Prop where
  noSpace : pySpace c = false
  noSign : c ≠ '-' ∧ c ≠ '+'
  noMark : c ≠ '_' ∧ c ≠ 'x' ∧ c ≠ 'X'
  value : (hexDigitValue c).isSome

theorem plainDigit_upper {n : ℕ} (h : n < 16) : PlainDigit (hexDigitLower n).toUpper := by
  interval_cases n <;> exact ⟨by decide, by decide, by decide, by decide⟩

theorem plainDigit_lower {n : ℕ} (h : n < 16) : PlainDigit (hexDigitLower n) := by
  interval_cases n <;> exact ⟨by decide, by decide, by decide, by decide⟩

theorem plainDigit_upperChars {data : Bytes} {c : Char}
    (hc : c ∈ (hexChars data).map Char.toUpper) : PlainDigit c := by
  obtain ⟨n, hn, rfl⟩ := mem_upperChars data hc
  exact plainDigit_upper hn

theorem hexDigitsValue_cons {c : Char} (hc : PlainDigit c) (acc : ℕ) (rest : List Char) :
    hexDigitsValue acc (c :: rest) =
      (hexDigitValue c).bind fun d => hexDigitsValue (acc * 16 + d) rest := by
  rw [hexDigitsValue]
  · rfl
  · intro d more hmark _
    exact hc.noMark.1 hmark

theorem hexDigitsValue_upper (data : Bytes) (acc : ℕ) :
    hexDigitsValue acc ((hexChars data).map Char.toUpper) =
      some (data.foldl (fun (n : ℕ) (b : Byte) => n * 256 + (b : ℕ)) acc) := by
  induction data generalizing acc with
  | nil => rfl
  | cons b data ih =>
    have hhi : (b : ℕ) / 16 < 16 := by omega
    have hlo : (b : ℕ) % 16 < 16 := by omega
    have hjoin : (acc * 16 + (b : ℕ) / 16) * 16 + (b : ℕ) % 16 = acc * 256 + b := by omega
    rw [hexChars_cons, List.map_cons, List.map_cons, hexDigitsValue_cons (plainDigit_upper hhi),
      hexDigitValue_upper hhi, Option.bind_some, hexDigitsValue_cons (plainDigit_upper hlo),
      hexDigitValue_upper hlo, Option.bind_some, hjoin, ih, List.foldl_cons]

theorem unsignedHexValue_plain {c : Char} {rest : List Char} (hc : PlainDigit c)
    (hrest : ∀ d ∈ rest, PlainDigit d) :
    unsignedHexValue (c :: rest) = hexDigitsValue 0 (c :: rest) := by
  have hvalue : hexDigitsValue 0 (c :: rest) =
      (hexDigitValue c).bind fun d => hexDigitsValue d rest := by
    simp only [hexDigitsValue_cons hc, Nat.zero_mul, Nat.zero_add]
  rw [hvalue]
  unfold unsignedHexValue
  dsimp only
  split
  · rename_i x more hcs
    cases hcs
    have hx := (hrest x List.mem_cons_self).noMark.2
    rw [if_neg (not_or.mpr hx)]
    rfl
  · rfl

/-- `int(s, 16)` reads the number that the bytes spell, high byte first. -/
theorem hexInt_upper (b : Byte) (data : Bytes) :
    hexInt (upper (hex (b :: data))) =
      .ok (Int.ofNat ((b :: data).foldl (fun (n : ℕ) (b : Byte) => n * 256 + (b : ℕ)) 0)) := by
  have hplain : ∀ c ∈ (hexChars (b :: data)).map Char.toUpper, PlainDigit c :=
    fun c hc => plainDigit_upperChars hc
  have hdigits := hexDigitsValue_upper (b :: data) 0
  have hvalue : hexTextValue (upper (hex (b :: data))) =
      some (Int.ofNat ((b :: data).foldl (fun (n : ℕ) (b : Byte) => n * 256 + (b : ℕ)) 0)) := by
    rw [hexTextValue, toList_upper_hex, pyStrip_eq_self fun c hc => (hplain c hc).noSpace]
    rw [hexChars_cons, List.map_cons] at hplain hdigits ⊢
    have hfirst := hplain _ List.mem_cons_self
    rw [← unsignedHexValue_plain hfirst fun d hd => hplain d (List.mem_cons_of_mem _ hd)] at hdigits
    split
    · rename_i hcs
      exact absurd (List.cons.inj hcs).1 hfirst.noSign.1
    · rename_i hcs
      exact absurd (List.cons.inj hcs).1 hfirst.noSign.2
    · rw [hdigits, Option.map_some]
  rw [hexInt, hvalue]
  rfl

end Texts

section Padded

theorem plainDigit_digit {n : ℕ} (h : n < 16) : PlainDigit n.digitChar.toUpper := by
  interval_cases n <;> exact ⟨by decide, by decide, by decide, by decide⟩

theorem hexDigitValue_digit {n : ℕ} (h : n < 16) : hexDigitValue n.digitChar.toUpper = some n := by
  interval_cases n <;> decide

/-- One more digit at the end. -/
theorem hexDigitsValue_concat {cs : List Char} (hcs : ∀ c ∈ cs, PlainDigit c) {n : ℕ} (h : n < 16)
    (acc : ℕ) :
    hexDigitsValue acc (cs ++ [n.digitChar.toUpper]) =
      (hexDigitsValue acc cs).map fun value => value * 16 + n := by
  induction cs generalizing acc with
  | nil =>
    rw [List.nil_append, hexDigitsValue_cons (plainDigit_digit h), hexDigitValue_digit h]
    rfl
  | cons c cs ih =>
    rw [List.cons_append, hexDigitsValue_cons (hcs c List.mem_cons_self),
      hexDigitsValue_cons (hcs c List.mem_cons_self)]
    cases hexDigitValue c with
    | none => rfl
    | some d => exact ih (fun c hc => hcs c (List.mem_cons_of_mem _ hc)) _

/-- The digits of a number behind zeros. -/
def paddedDigits (k n : ℕ) : List Char :=
  List.replicate k '0' ++ (Nat.toDigits 16 n).map Char.toUpper

theorem paddedDigits_of_lt {n : ℕ} (h : n < 16) (k : ℕ) :
    paddedDigits k n = List.replicate k '0' ++ [n.digitChar.toUpper] := by
  rw [paddedDigits, Nat.toDigits_of_lt_base h]
  rfl

theorem paddedDigits_of_le {n : ℕ} (h : 16 ≤ n) (k : ℕ) :
    paddedDigits k n = paddedDigits k (n / 16) ++ [(n % 16).digitChar.toUpper] := by
  rw [paddedDigits, Nat.toDigits_of_base_le (by decide) h, List.map_append, ← List.append_assoc]
  rfl

theorem plainDigit_zeros (k : ℕ) : ∀ c ∈ List.replicate k '0', PlainDigit c := by
  intro c hc
  rw [List.eq_of_mem_replicate hc]
  exact plainDigit_digit (by decide : 0 < 16)

theorem plainDigit_padded (k n : ℕ) : ∀ c ∈ paddedDigits k n, PlainDigit c := by
  induction n using Nat.strong_induction_on with
  | _ n ih =>
    intro c hc
    by_cases h : n < 16
    · rw [paddedDigits_of_lt h, List.mem_append, List.mem_singleton] at hc
      rcases hc with hc | rfl
      · exact plainDigit_zeros k c hc
      · exact plainDigit_digit h
    · rw [paddedDigits_of_le (Nat.not_lt.mp h), List.mem_append, List.mem_singleton] at hc
      rcases hc with hc | rfl
      · exact ih (n / 16) (by omega) c hc
      · exact plainDigit_digit (Nat.mod_lt _ (by decide))

theorem hexDigitsValue_zeros (k : ℕ) : hexDigitsValue 0 (List.replicate k '0') = some 0 := by
  induction k with
  | zero => rfl
  | succ k ih =>
    have hzero : PlainDigit '0' := plainDigit_digit (by decide : 0 < 16)
    rw [List.replicate_succ, hexDigitsValue_cons hzero]
    exact ih

theorem hexDigitsValue_padded (k n : ℕ) : hexDigitsValue 0 (paddedDigits k n) = some n := by
  induction n using Nat.strong_induction_on with
  | _ n ih =>
    by_cases h : n < 16
    · rw [paddedDigits_of_lt h, hexDigitsValue_concat (plainDigit_zeros k) h, hexDigitsValue_zeros]
      simp
    · rw [paddedDigits_of_le (Nat.not_lt.mp h),
        hexDigitsValue_concat (plainDigit_padded k _) (Nat.mod_lt _ (by decide)),
        ih (n / 16) (by omega), Option.map_some, Nat.div_add_mod']

theorem hexPad_eq (w n : ℕ) :
    hexPad w n = String.ofList (paddedDigits (w - (Nat.toDigits 16 n).length) n) := by
  rw [hexPad, paddedDigits, List.length_map]

/-- Of plain digits `int(s, 16)` reads the number that they spell. -/
theorem hexTextValue_plain {c : Char} {rest : List Char} (hplain : ∀ d ∈ c :: rest, PlainDigit d) :
    hexTextValue (String.ofList (c :: rest)) =
      (hexDigitsValue 0 (c :: rest)).map Int.ofNat := by
  have hfirst := hplain c List.mem_cons_self
  rw [hexTextValue, String.toList_ofList, pyStrip_eq_self fun d hd => (hplain d hd).noSpace]
  rw [← unsignedHexValue_plain hfirst fun d hd => hplain d (List.mem_cons_of_mem _ hd)]
  split
  · rename_i hcs
    exact absurd (List.cons.inj hcs).1 hfirst.noSign.1
  · rename_i hcs
    exact absurd (List.cons.inj hcs).1 hfirst.noSign.2
  · rfl

theorem paddedDigits_ne_nil (k n : ℕ) : paddedDigits k n ≠ [] := by
  refine List.append_ne_nil_of_right_ne_nil _ fun h => ?_
  exact List.ne_nil_of_length_pos Nat.length_toDigits_pos (List.map_eq_nil_iff.mp h)

/-- A number that is printed with zeros before it is read back. -/
theorem hexTextValue_hexPad (w n : ℕ) : hexTextValue (hexPad w n) = some (n : ℤ) := by
  have hvalue := hexDigitsValue_padded (w - (Nat.toDigits 16 n).length) n
  obtain ⟨c, rest, hcons⟩ := List.exists_cons_of_ne_nil
    (paddedDigits_ne_nil (w - (Nat.toDigits 16 n).length) n)
  have hplain := plainDigit_padded (w - (Nat.toDigits 16 n).length) n
  rw [hcons] at hvalue hplain
  rw [hexPad_eq, hcons, hexTextValue_plain hplain, hvalue]
  rfl

end Padded

section Digits

theorem digit_lower {c : Char} (hc : IsDigit c) : ∃ k < 10, c = hexDigitLower k := by
  obtain ⟨k, hk, rfl⟩ := hc.exists_val
  exact ⟨k, hk, by interval_cases k <;> rfl⟩

/-- Digits read as bytes, by either reader, print as the same digits. -/
theorem fromHexChars_digits (n : ℕ) (digits : List Char) (hlength : digits.length = 2 * n)
    (hdigits : ∀ c ∈ digits, IsDigit c) :
    ∃ bs, fromHexChars digits = some bs ∧ Adapter10376.pairsToBytes digits = .ok bs ∧
      bs.length = n ∧ hexChars bs = digits := by
  induction n generalizing digits with
  | zero =>
    obtain rfl := List.length_eq_zero_iff.mp hlength
    exact ⟨[], rfl, rfl, rfl, rfl⟩
  | succ n ih =>
    match digits, hlength, hdigits with
    | hi :: lo :: rest, hlength, hdigits =>
      obtain ⟨bs, hbs, hpairs, hcount, hchars⟩ := ih rest (by simp at hlength; omega)
        (fun c hc => hdigits c (by simp [hc]))
      obtain ⟨x, hx, rfl⟩ := digit_lower (hdigits hi (by simp))
      obtain ⟨y, hy, rfl⟩ := digit_lower (hdigits lo (by simp))
      have hxlt : x < 16 := by omega
      have hylt : y < 16 := by omega
      refine ⟨byte (x * 16 + y) :: bs, ?_, ?_, by simp [hcount], ?_⟩
      · rw [fromHexChars]
        simp only [hexDigitLower_not_space hxlt, hexDigitValue_lower hxlt,
          hexDigitValue_lower hylt, hbs, Option.map_some, Bool.false_eq_true, if_false]
      · have hjoin : x <<< 4 ||| y = x * 16 + y := BitFields.shiftLeft_or x (by omega)
        simp only [Adapter10376.pairsToBytes, hexDigitValue_lower hxlt, hexDigitValue_lower hylt,
          hpairs, hjoin]
        rfl
      · have hval : ((byte (x * 16 + y) : Byte) : ℕ) = x * 16 + y := by
          rw [byte_val]
          omega
        have hhigh : (x * 16 + y) / 16 = x := by omega
        have hlow : (x * 16 + y) % 16 = y := by omega
        rw [hexChars_cons, hval, hhigh, hlow, hchars]

end Digits

end HplcWorkbench
