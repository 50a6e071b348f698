import HplcWorkbench.Bytes
import Mathlib.Tactic.IntervalCases

/-!
# Hexadecimal text

`bytes.fromhex` reads back what `bytes.hex()` wrote. The text has two digits a byte and no
blanks, so the readers that remove blanks first see the same text.
-/

namespace HplcWorkbench

/-- `int(c, 16)` of one character. -/
def hexDigitValue (c : Char) : Option ℕ :=
  if '0' ≤ c ∧ c ≤ '9' then some (c.toNat - 48)
  else if 'a' ≤ c ∧ c ≤ 'f' then some (c.toNat - 87)
  else if 'A' ≤ c ∧ c ≤ 'F' then some (c.toNat - 55)
  else none

/-- The blanks that `bytes.fromhex` skips between bytes. -/
def asciiSpace (c : Char) : Bool := c.toNat ∈ [9, 10, 11, 12, 13, 32]

def fromHexChars : List Char → Option Bytes
  | [] => some []
  | hi :: rest =>
    if asciiSpace hi then fromHexChars rest
    else
      match rest with
      | [] => none
      | lo :: more =>
        match hexDigitValue hi, hexDigitValue lo with
        | some h, some l => (fromHexChars more).map (byte (h * 16 + l) :: ·)
        | _, _ => none

/-- `bytes.fromhex(s)`, `none` for the `ValueError`. -/
def fromHex (s : String) : Option Bytes := fromHexChars s.toList

/-- `s.replace(" ", "")`. -/
def dropSpaces (s : String) : String := String.ofList (s.toList.filter (· ≠ ' '))

section HexText
variable (data more : Bytes)

theorem hexDigitValue_lower {n : ℕ} (h : n < 16) : hexDigitValue (hexDigitLower n) = some n := by
  interval_cases n <;> rfl

theorem hexDigitLower_not_space {n : ℕ} (h : n < 16) : asciiSpace (hexDigitLower n) = false := by
  interval_cases n <;> rfl

theorem hexChars_cons (b : Byte) :
    hexChars (b :: data) =
      hexDigitLower ((b : ℕ) / 16) :: hexDigitLower ((b : ℕ) % 16) :: hexChars data := rfl

theorem hexChars_append : hexChars (data ++ more) = hexChars data ++ hexChars more :=
  List.flatMap_append

theorem hexChars_length : (hexChars data).length = 2 * data.length := by
  induction data with
  | nil => rfl
  | cons b rest ih =>
      rw [hexChars_cons, List.length_cons, List.length_cons, ih, List.length_cons]
      omega

theorem fromHexChars_hexChars : fromHexChars (hexChars data) = some data := by
  induction data with
  | nil => rfl
  | cons b rest ih =>
      have hhi : (b : ℕ) / 16 < 16 := by omega
      have hlo : (b : ℕ) % 16 < 16 := by omega
      have hjoin : (b : ℕ) / 16 * 16 + (b : ℕ) % 16 = b := by omega
      rw [hexChars_cons, fromHexChars]
      simp only [hexDigitLower_not_space hhi, hexDigitValue_lower hhi, hexDigitValue_lower hlo, ih,
        hjoin, byte_of_val, Option.map_some, Bool.false_eq_true, if_false]

theorem toList_hex : (hex data).toList = hexChars data := String.toList_ofList

theorem fromHex_hex : fromHex (hex data) = some data := by
  rw [fromHex, toList_hex, fromHexChars_hexChars]

theorem hex_injective : Function.Injective hex := by
  intro a b h
  have ha := fromHex_hex a
  rw [h, fromHex_hex] at ha
  exact (Option.some.inj ha).symm

theorem hexChars_no_space : ∀ c ∈ hexChars data, c ≠ ' ' := by
  intro c hc
  obtain ⟨b, _, hmem⟩ := List.mem_flatMap.mp hc
  have hspace : ∀ n < 16, hexDigitLower n ≠ ' ' := by
    intro n hn
    interval_cases n <;> decide
  rcases List.mem_cons.mp hmem with rfl | hmem
  · exact hspace _ (by omega)
  · rw [List.mem_singleton.mp hmem]
    exact hspace _ (by omega)

theorem dropSpaces_hex : dropSpaces (hex data) = hex data := by
  have hkeep : (hexChars data).filter (· ≠ ' ') = hexChars data :=
    List.filter_eq_self.mpr (fun c hc => by simpa using hexChars_no_space data c hc)
  rw [dropSpaces, toList_hex, hkeep]
  rfl

/-! ### Upper case -/

theorem toList_upper_hex : (upper (hex data)).toList = (hexChars data).map Char.toUpper := by
  rw [upper, String.toList_ofList, toList_hex]

theorem hexDigitValue_upper {n : ℕ} (h : n < 16) :
    hexDigitValue (hexDigitLower n).toUpper = some n := by
  interval_cases n <;> rfl

theorem hexDigitUpper_not_space {n : ℕ} (h : n < 16) :
    asciiSpace (hexDigitLower n).toUpper = false := by
  interval_cases n <;> rfl

theorem fromHexChars_upper : fromHexChars ((hexChars data).map Char.toUpper) = some data := by
  induction data with
  | nil => rfl
  | cons b rest ih =>
      have hhi : (b : ℕ) / 16 < 16 := by omega
      have hlo : (b : ℕ) % 16 < 16 := by omega
      have hjoin : (b : ℕ) / 16 * 16 + (b : ℕ) % 16 = b := by omega
      rw [hexChars_cons, List.map_cons, List.map_cons, fromHexChars]
      simp only [hexDigitUpper_not_space hhi, hexDigitValue_upper hhi, hexDigitValue_upper hlo, ih,
        hjoin, byte_of_val, Option.map_some, Bool.false_eq_true, if_false]

theorem fromHex_upper : fromHex (upper (hex data)) = some data := by
  rw [fromHex, toList_upper_hex, fromHexChars_upper]

/-- Each character of upper-case hexadecimal text is the digit of a half byte. -/
theorem mem_upperChars {c : Char} (hc : c ∈ (hexChars data).map Char.toUpper) :
    ∃ n < 16, c = (hexDigitLower n).toUpper := by
  obtain ⟨d, hd, rfl⟩ := List.mem_map.mp hc
  obtain ⟨b, _, hmem⟩ := List.mem_flatMap.mp hd
  rcases List.mem_cons.mp hmem with rfl | hmem
  · exact ⟨(b : ℕ) / 16, by omega, rfl⟩
  · exact ⟨(b : ℕ) % 16, by omega, by rw [List.mem_singleton.mp hmem]⟩

end HexText

/-! ## Bytes in two digits -/

theorem digitChar_upper {n : ℕ} (h : n < 16) :
    n.digitChar.toUpper = (hexDigitLower n).toUpper := by
  interval_cases n <;> rfl

/-- Two upper-case digits, as `bytes.hex()` writes them. -/
theorem toList_hex02 (b : Byte) : (hex02 b).toList = (hexChars [b]).map Char.toUpper := by
  have hlow : (b : ℕ) % 16 < 16 := Nat.mod_lt _ (by decide)
  have hhigh : (b : ℕ) / 16 < 16 := by omega
  have hchars : (hexChars [b]).map Char.toUpper =
      [(hexDigitLower ((b : ℕ) / 16)).toUpper, (hexDigitLower ((b : ℕ) % 16)).toUpper] := rfl
  rw [hchars, hex02, hexPad, String.toList_ofList]
  by_cases hb : (b : ℕ) < 16
  · rw [Nat.toDigits_of_lt_base hb, Nat.div_eq_of_lt hb, Nat.mod_eq_of_lt hb, List.map_singleton,
      digitChar_upper hb]
    rfl
  · rw [Nat.toDigits_of_base_le (by decide) (by omega), Nat.toDigits_of_lt_base hhigh,
      List.map_append, List.map_singleton, List.map_singleton, digitChar_upper hhigh,
      digitChar_upper hlow]
    rfl

theorem toList_spaced (data : Bytes) : (" ".intercalate (data.map hex02)).toList =
    [' '].intercalate (data.map fun b => (hexChars [b]).map Char.toUpper) := by
  have hmap : (data.map hex02).map String.toList =
      data.map fun b => (hexChars [b]).map Char.toUpper := by
    rw [List.map_map]
    exact List.map_congr_left fun b _ => toList_hex02 b
  rw [String.toList_intercalate, hmap]
  rfl

/-- Whoever skips the blanks between the bytes reads the digits. -/
theorem filter_spaced (keep : Char → Bool) (hspace : keep ' ' = false)
    (hdigit : ∀ n < 16, keep (hexDigitLower n).toUpper = true) (data : Bytes) :
    (" ".intercalate (data.map hex02)).toList.filter keep = (hexChars data).map Char.toUpper := by
  have hkept : ∀ b : Byte, ((hexChars [b]).map Char.toUpper).filter keep =
      (hexChars [b]).map Char.toUpper := by
    intro b
    refine List.filter_eq_self.mpr fun c hc => ?_
    obtain ⟨n, hn, rfl⟩ := mem_upperChars _ hc
    exact hdigit n hn
  rw [toList_spaced]
  induction data with
  | nil => rfl
  | cons b rest ih =>
      have hhead : (hexChars (b :: rest)).map Char.toUpper =
          (hexChars [b]).map Char.toUpper ++ (hexChars rest).map Char.toUpper := rfl
      cases rest with
      | nil => simpa using hkept b
      | cons c rest =>
          rw [List.map_cons, List.map_cons, List.intercalate_cons_cons, List.filter_append,
            List.filter_append, hkept, List.filter_singleton, hspace, hhead, ← ih]
          rfl

end HplcWorkbench
