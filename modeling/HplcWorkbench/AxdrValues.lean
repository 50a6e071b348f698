import HplcWorkbench.Apdu698
import Mathlib.Data.Nat.Log

/-!
# A-XDR data and its encoding

The standard's data values beside the bytes that carry them: integers in two's complement, a bit
string counted in bits, and every count from 128 on in the long form. The reader of the adapter
takes each count as one byte, a bit string's count as bytes, and shows a placeholder for a float.
-/

namespace HplcWorkbench.Adapter698

/-! ## Big-endian numbers -/

def beBytes : ℕ → ℕ → Bytes
  | 0, _ => []
  | size + 1, n => beBytes size (n / 256) ++ [byte n]

@[simp] theorem beBytes_length (size n : ℕ) : (beBytes size n).length = size := by
  induction size generalizing n with
  | zero => rfl
  | succ size ih => rw [beBytes, List.length_append, ih, List.length_singleton]

theorem beUnsigned_snoc (bs : Bytes) (b : Byte) :
    beUnsigned (bs ++ [b]) = beUnsigned bs * 256 + (b : ℕ) := by
  simp only [beUnsigned, List.bind_eq_flatMap, List.flatMap_append, List.foldl_append]
  rfl

theorem beUnsigned_beBytes (size n : ℕ) : beUnsigned (beBytes size n) = n % 256 ^ size := by
  induction size generalizing n with
  | zero => rw [beBytes, pow_zero, Nat.mod_one]; rfl
  | succ size ih =>
      rw [beBytes, beUnsigned_snoc, ih, byte_val, pow_succ', Nat.mod_mul]
      omega

/-- The two's complement of `n` in `size` bytes. -/
def complementBytes (size : ℕ) (n : ℤ) : Bytes := beBytes size (n % (256 ^ size : ℕ)).toNat

@[simp] theorem complementBytes_length (size : ℕ) (n : ℤ) :
    (complementBytes size n).length = size := beBytes_length size _

theorem beUnsigned_complementBytes (size : ℕ) (n : ℤ) :
    (beUnsigned (complementBytes size n) : ℤ) = n % (256 ^ size : ℕ) := by
  have hpos : (0 : ℤ) < (256 ^ size : ℕ) := Int.natCast_pos.mpr (Nat.pow_pos (by decide))
  have hnonneg := Int.emod_nonneg n hpos.ne'
  have hlt := Int.emod_lt_of_pos n hpos
  unfold complementBytes
  rw [beUnsigned_beBytes, Nat.mod_eq_of_lt (by omega), Int.toNat_of_nonneg hnonneg]

theorem beUnsigned_of_nonneg {size : ℕ} {n : ℤ} (h : 0 ≤ n) (hlt : n < (256 ^ size : ℕ)) :
    (beUnsigned (complementBytes size n) : ℤ) = n := by
  rw [beUnsigned_complementBytes, Int.emod_eq_of_lt h hlt]

theorem beSigned_complementBytes {size : ℕ} {n : ℤ} (hlow : -(256 ^ size : ℕ) ≤ 2 * n)
    (hhigh : 2 * n < (256 ^ size : ℕ)) : beSigned (complementBytes size n) = n := by
  have hvalue := beUnsigned_complementBytes size n
  unfold beSigned
  dsimp only
  rw [complementBytes_length]
  generalize 256 ^ size = bound at *
  generalize beUnsigned (complementBytes size n) = m at *
  rcases lt_or_ge n 0 with hneg | hpos
  · have hm : (m : ℤ) = n + bound := by
      rw [hvalue, ← Int.add_emod_right, Int.emod_eq_of_lt (by omega) (by omega)]
    rw [if_pos (by omega), hm]
    omega
  · have hm : (m : ℤ) = n := by rw [hvalue, Int.emod_eq_of_lt hpos (by omega)]
    rw [if_neg (by omega), hm]

/-! ## Values -/

inductive IntKind
  | doubleLong | doubleLongUnsigned | integer | long | unsigned | longUnsigned | long64
  | long64Unsigned | enum
  deriving DecidableEq

namespace IntKind

def tag : IntKind → Byte
  | doubleLong => 5
  | doubleLongUnsigned => 6
  | integer => 15
  | long => 16
  | unsigned => 17
  | longUnsigned => 18
  | long64 => 20
  | long64Unsigned => 21
  | enum => 22

def size : IntKind → ℕ
  | doubleLong | doubleLongUnsigned => 4
  | integer | unsigned | enum => 1
  | long | longUnsigned => 2
  | long64 | long64Unsigned => 8

def signed : IntKind → Bool
  | doubleLong | integer | long | long64 => true
  | _ => false

def Holds (k : IntKind) (n : ℤ) : Prop :=
  if k.signed then -(256 ^ k.size : ℕ) ≤ 2 * n ∧ 2 * n < (256 ^ k.size : ℕ)
  else 0 ≤ n ∧ n < (256 ^ k.size : ℕ)

end IntKind

inductive FixedKind
  | float32 | float64 | dateTime | date | time | dateTimeS | oi | oad
  deriving DecidableEq

/-- The exact decimal of an IEEE 754 number. -/
def ieeeValue (exponentBits fractionBits : ℕ) (bs : Bytes) : PyVal :=
  let n := beUnsigned bs
  let fraction := n % 2 ^ fractionBits
  let exponent := n / 2 ^ fractionBits % 2 ^ exponentBits
  let negative := n / 2 ^ (fractionBits + exponentBits) % 2 = 1
  let sign : ℤ := if negative then -1 else 1
  if exponent = 2 ^ exponentBits - 1 then
    .str (if fraction ≠ 0 then "nan" else if negative then "-inf" else "inf")
  else
    -- a subnormal number has the least exponent and no leading one
    let mantissa := if exponent = 0 then fraction else fraction + 2 ^ fractionBits
    let shift : ℤ := (max exponent 1 : ℕ) - (2 ^ (exponentBits - 1) - 1 : ℕ) - fractionBits
    if 0 ≤ shift then .scaled (sign * mantissa * 2 ^ shift.toNat) 0
    else .scaled (sign * mantissa * 5 ^ (-shift).toNat) (-shift).toNat

namespace FixedKind

def tag : FixedKind → Byte
  | float32 => 23
  | float64 => 24
  | dateTime => 25
  | date => 26
  | time => 27
  | dateTimeS => 28
  | oi => 80
  | oad => 81

def size : FixedKind → ℕ
  | float32 | oad => 4
  | float64 => 8
  | dateTime => 10
  | date => 5
  | time => 3
  | dateTimeS => 7
  | oi => 2

def shown : FixedKind → Bytes → PyVal
  | float32, bs => ieeeValue 8 23 bs
  | float64, bs => ieeeValue 11 52 bs
  | dateTimeS, bs => .str (Adapter698.dateTimeS bs)
  | _, bs => .str (hex bs)

def IsFloat (k : FixedKind) : Prop := k = float32 ∨ k = float64

end FixedKind

inductive TextKind
  | bytes | visible | utf8
  deriving DecidableEq

namespace TextKind

def tag : TextKind → Byte
  | bytes => 9
  | visible => 10
  | utf8 => 12

def shown : TextKind → Bytes → String
  | bytes => hex
  | visible => asciiText
  | utf8 => utf8Text

end TextKind

/-- The tags that `_parse_data` tells apart. -/
def parsedTags : List Byte :=
  [0, 1, 2, 3, 4, 5, 6, 9, 10, 12, 15, 16, 17, 18, 20, 21, 22, 23, 24, 25, 26, 27, 28, 80, 81, 82]

abbrev OadBytes := {bs : Bytes // bs.length = 4}

/-- A value without elements of its own. The content of a type that the reader does not know is
whatever bytes its encoding has. -/
inductive Leaf
  | null
  | bool (b : Bool)
  | int (k : IntKind) (n : {n : ℤ // k.Holds n})
  | fixed (k : FixedKind) (content : {bs : Bytes // bs.length = k.size})
  | text (k : TextKind) (content : Bytes)
  | bits (count : ℕ) (content : {bs : Bytes // bs.length = (count + 7) / 8})
  | road (oad : OadBytes) (rows : List OadBytes)
  | other (tag : {t : Byte // t ∉ parsedTags}) (content : Bytes)

inductive SeqKind
  | array | record
  deriving DecidableEq

def SeqKind.tag : SeqKind → Byte
  | array => 1
  | record => 2

inductive Axdr
  | leaf (l : Leaf)
  | seq (k : SeqKind) (items : List Axdr)

/-! ## Encoding -/

/-- A count below 128 is one byte; from there on its bytes follow their number with bit 7 set. -/
def lengthBytes (n : ℕ) : Bytes :=
  if n < 128 then [byte n] else byte (0x80 + (Nat.log 256 n + 1)) :: beBytes (Nat.log 256 n + 1) n

theorem lengthBytes_short {n : ℕ} (h : n < 128) : lengthBytes n = [byte n] := if_pos h

def Leaf.encode : Leaf → Bytes
  | null => [0]
  | bool b => [3, if b then 1 else 0]
  | int k n => k.tag :: complementBytes k.size n
  | fixed k content => k.tag :: content
  | text k content => k.tag :: (lengthBytes content.length ++ content)
  | bits count content => 4 :: (lengthBytes count ++ content)
  | road oad rows => 82 :: (oad.val ++ lengthBytes rows.length ++ (rows.map Subtype.val).flatten)
  | other tag content => tag.val :: content

mutual

def Axdr.encode : Axdr → Bytes
  | .leaf l => l.encode
  | .seq k items => k.tag :: (lengthBytes items.length ++ encodeAll items)

def encodeAll : List Axdr → Bytes
  | [] => []
  | d :: ds => d.encode ++ encodeAll ds

end

/-! ## What a reader is to show -/

def Leaf.shown : Leaf → PyVal
  | null => .none
  | bool b => .bool b
  | int _ n => .int n
  | fixed k content => k.shown content
  | text k content => .str (k.shown content)
  | bits _ content => .str (hex content)
  | road oad rows =>
    .dict [("OAD", .str (hex oad)), ("rows", .list (rows.map fun row => .str (hex row.val)))]
  | other _ content => .str (hex content)

mutual

def Axdr.shown : Axdr → PyVal
  | .leaf l => l.shown
  | .seq _ items => .list (shownAll items)

def shownAll : List Axdr → List PyVal
  | [] => []
  | d :: ds => d.shown :: shownAll ds

end

/-- The values that are read as they were encoded. -/
def Leaf.Plain : Leaf → Prop
  | null | bool _ | int _ _ => True
  | fixed k _ => ¬ k.IsFloat
  | text _ content => content.length < 128
  | bits count _ => count ≤ 1
  | road _ rows => rows.length < 128
  | other _ _ => False

/-- Every count is below 128. -/
def Leaf.Short : Leaf → Prop
  | text _ content => content.length < 128
  | bits count _ => count < 128
  | road _ rows => rows.length < 128
  | _ => True

mutual

def Axdr.Plain : Axdr → Prop
  | .leaf l => l.Plain
  | .seq _ items => items.length < 128 ∧ AllPlain items

def AllPlain : List Axdr → Prop
  | [] => True
  | d :: ds => d.Plain ∧ AllPlain ds

end

mutual

def Axdr.Short : Axdr → Prop
  | .leaf l => l.Short
  | .seq _ items => items.length < 128 ∧ AllShort items

def AllShort : List Axdr → Prop
  | [] => True
  | d :: ds => d.Short ∧ AllShort ds

end

end HplcWorkbench.Adapter698
