import HplcWorkbench.BitFields
import Mathlib.Data.List.Basic
import Mathlib.Algebra.BigOperators.Group.List.Basic
import Mathlib.Data.String.Basic

/-!
# Byte strings, slices and numeric text

A byte string is a list of numbers below 256. Slices clip at both ends, an index outside the
string raises, and the renderings `f"{b:02X}"`, `bytes.hex()` and the BCD digits are the ones
the decoders put into their fields.
-/

namespace HplcWorkbench

abbrev Byte := Fin 256

/-! The literals and the comparisons of bytes and the order of texts name these instances. -/

instance byteNeZero : NeZero 256 := ⟨Nat.succ_ne_zero 255⟩

instance byteLawfulBEq : LawfulBEq Byte := inferInstance

instance textLeTrans : IsTrans String (· ≤ ·) := inferInstance

instance textLeAntisymm : Std.Antisymm (α := String) (· ≤ ·) := inferInstance

instance textLeTotal : Std.Total (α := String) (· ≤ ·) := inferInstance

abbrev Bytes := List Byte

/-- The exceptions the modelled code can raise. -/
inductive PyErr
  | indexError
  | valueError (message : String)
  | typeError (message : String)
  | attributeError (message : String)
  | overflowError (message : String)
  | unsupportedFn (message : String)
  | zeroDivisionError (message : String)
  deriving DecidableEq, Repr

abbrev PyM := Except PyErr

/-- A computation that returns has gone through its first step. -/
theorem bind_eq_ok {α β : Type} {x : PyM α} {f : α → PyM β} {b : β} (h : x >>= f = .ok b) :
    ∃ a, x = .ok a ∧ f a = .ok b := by
  cases x with
  | error e => cases h
  | ok a => exact ⟨a, rfl, h⟩

/-- One byte of `bytes([n])`, for an `n` already masked to eight bits. -/
def byte (n : ℕ) : Byte := Fin.ofNat 256 n

@[simp] theorem byte_val (n : ℕ) : (byte n : ℕ) = n % 256 := rfl

@[simp] theorem byte_of_val (b : Byte) : byte (b : ℕ) = b := Fin.ofNat_val_eq_self b

/-- One byte of `bytes([n])` where nothing masks `n`. -/
def byteOf (n : ℕ) : PyM Byte :=
  if n < 256 then pure (byte n) else throw (.valueError "bytes must be in range(0, 256)")

def index (data : Bytes) (i : ℕ) : PyM Byte :=
  match data[i]? with
  | some b => pure b
  | none => throw .indexError

/-- `data[i]` where the code has already checked the length. -/
def byteAt (data : Bytes) (i : ℕ) : Byte := data.getD i 0

/-- `data[i:j]` for bounds that are not negative. -/
def slice (data : Bytes) (i j : ℕ) : Bytes := (data.take j).drop i

/-- `sum(data)`. -/
def byteSum (data : Bytes) : ℕ := (data.map Fin.val).sum

def le16 (lo hi : Byte) : ℕ := (lo : ℕ) ||| (hi : ℕ) <<< 8

theorem le16_eq (lo hi : Byte) : le16 lo hi = lo + hi * 256 :=
  BitFields.or_shiftLeft (w := 8) (hi : ℕ) lo.isLt

/-- The two bytes of a 16 bit number, low byte first. -/
theorem le16_bytes {n : ℕ} (h : n < 65536) :
    le16 (byte (n &&& 0xFF)) (byte ((n >>> 8) &&& 0xFF)) = n := by
  rw [le16_eq, byte_val, byte_val, BitFields.and_mask8, BitFields.and_mask8,
    BitFields.shiftRight_eq]
  omega

section Slices
variable {data more : Bytes} {i j : ℕ}

theorem slice_length : (slice data i j).length = min j data.length - i := by
  simp [slice]

theorem slice_mid (pre mid post : Bytes) :
    slice (pre ++ mid ++ post) pre.length (pre.length + mid.length) = mid := by
  rw [slice, List.take_append_of_le_length (by simp),
    List.take_of_length_le (by simp), List.drop_left]

/-- A slice whose bounds are the lengths of the parts around it. -/
theorem slice_of_parts {pre mid post : Bytes} (h : data = pre ++ mid ++ post) (hi : i = pre.length)
    (hj : j = pre.length + mid.length) : slice data i j = mid := by
  rw [h, hi, hj, slice_mid]

theorem byteAt_append (h : i < data.length) : byteAt (data ++ more) i = byteAt data i := by
  simp [byteAt, List.getElem?_append_left h]

theorem byteAt_take (h : i < j) : byteAt (data.take j) i = byteAt data i := by
  simp [byteAt, List.getElem?_take_of_lt h]

theorem byteAt_slice {k : ℕ} (h : i + k < j) : byteAt (slice data i j) k = byteAt data (i + k) := by
  simp [byteAt, slice, List.getElem?_take_of_lt h]

theorem index_eq_ok (h : i < data.length) : index data i = .ok data[i] := by
  simp [index, List.getElem?_eq_getElem h, pure, Except.pure]

end Slices

/-! ## Text -/

/-- One hexadecimal digit, lower case. -/
def hexDigitLower (n : ℕ) : Char := "0123456789abcdef".toList.getD n '0'

/-- The digits of `bytes.hex()`. -/
def hexChars (data : Bytes) : List Char :=
  data.flatMap (fun b : Byte => [hexDigitLower ((b : ℕ) / 16), hexDigitLower ((b : ℕ) % 16)])

/-- `bytes.hex()`. -/
def hex (data : Bytes) : String := String.ofList (hexChars data)

/-- `s.upper()` of hexadecimal text. -/
def upper (s : String) : String := String.ofList (s.toList.map Char.toUpper)

/-- `f"{n:0wX}"`. -/
def hexPad (w n : ℕ) : String :=
  let digits := (Nat.toDigits 16 n).map Char.toUpper
  String.ofList (List.replicate (w - digits.length) '0' ++ digits)

/-- `f"{b:02X}"`. -/
def hex02 (b : Byte) : String := hexPad 2 b

/-- `f"0x{b:02X}"`. -/
def hex0x (b : Byte) : String := "0x" ++ hex02 b

/-- `f"{n:0wd}"`. -/
def padDec (w n : ℕ) : String :=
  let s := toString n
  String.ofList (List.replicate (w - s.length) '0') ++ s

/-- The characters of `_bcd_to_str`: each half byte is printed in decimal, so that the values
10 to 15 take two digits. -/
def bcdChars (data : Bytes) : List Char :=
  data.flatMap (fun b : Byte => Nat.toDigits 10 (((b : ℕ) >>> 4) &&& 0xF) ++
    Nat.toDigits 10 ((b : ℕ) &&& 0xF))

def bcdToStr (data : Bytes) : String := String.ofList (bcdChars data)

end HplcWorkbench
