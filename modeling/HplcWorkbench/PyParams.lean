import HplcWorkbench.LinkRoundTrips

/-!
# Parameter values of the encoder

`encode_app_data` reads a dict of JSON values through `int`, `str`, `params.get` and loops. A
string stands for the number that `int` finds in it and a number for its decimal text, so each
reading has its own definition here. Digits are the ASCII ones.
-/

namespace HplcWorkbench

/-- A `params` dict. -/
abbrev Params := List (String × PyVal)

/-! ## `str` and `repr` -/

/-- One character inside a quoted text. -/
def reprChar (quote c : Char) : List Char :=
  if c = '\\' ∨ c = quote then ['\\', c]
  else if c = '\n' then ['\\', 'n']
  else if c = '\r' then ['\\', 'r']
  else if c = '\t' then ['\\', 't']
  else if c.toNat < 32 ∨ c.toNat = 127 then
    ['\\', 'x', hexDigitLower (c.toNat / 16), hexDigitLower (c.toNat % 16)]
  else [c]

/-- `repr(s)` of a text. -/
def reprText (s : String) : String :=
  let quote := if '\'' ∈ s.toList ∧ '"' ∉ s.toList then '"' else '\''
  String.ofList (quote :: s.toList.flatMap (reprChar quote) ++ [quote])

/-- The decimal text of a scaled value. -/
def scaledText (mantissa : ℤ) (scale : ℕ) : String :=
  let size := mantissa.natAbs
  (if mantissa < 0 then "-" else "") ++ toString (size / 10 ^ scale) ++ "." ++
    padDec scale (size % 10 ^ scale)

namespace PyVal

mutual

/-- `repr(v)`. -/
def repr : PyVal → String
  | .none => "None"
  | .bool b => if b then "True" else "False"
  | .int n => toString n
  | .scaled mantissa scale => scaledText mantissa scale
  | .str s => reprText s
  | .list items => "[" ++ reprItems items ++ "]"
  | .dict entries => "\x7b" ++ reprEntries entries ++ "\x7d"

def reprItems : List PyVal → String
  | [] => ""
  | [v] => repr v
  | v :: rest => repr v ++ ", " ++ reprItems rest

def reprEntries : List (String × PyVal) → String
  | [] => ""
  | [(key, v)] => reprText key ++ ": " ++ repr v
  | (key, v) :: rest => reprText key ++ ": " ++ repr v ++ ", " ++ reprEntries rest

end

/-- `str(v)`. -/
def toStr : PyVal → String
  | .str s => s
  | v => repr v

/-! ## Numbers and truth -/

/-- The digits of `int(s)`: single underscores may stand between them. -/
def digitsValue (acc : ℕ) : List Char → Option ℕ
  | [] => some acc
  | '_' :: c :: rest => if c.isDigit then digitsValue (acc * 10 + (c.toNat - 48)) rest else Option.none
  | c :: rest => if c.isDigit then digitsValue (acc * 10 + (c.toNat - 48)) rest else Option.none

/-- A digit has to come first. -/
def unsignedValue (cs : List Char) : Option ℕ :=
  match cs with
  | c :: _ => if c.isDigit then digitsValue 0 cs else Option.none
  | [] => Option.none

/-- `int(s)` of a text, `none` for the `ValueError`. -/
def textValue (s : String) : Option ℤ :=
  match Adapter10376.pyStrip s.toList with
  | '-' :: rest => (unsignedValue rest).map (fun n => -(n : ℤ))
  | '+' :: rest => (unsignedValue rest).map Int.ofNat
  | cs => (unsignedValue cs).map Int.ofNat

/-- `int(v)`: a fraction is cut off. -/
def toInt : PyVal → PyM ℤ
  | .int n => pure n
  | .bool b => pure (if b then 1 else 0)
  | .scaled mantissa scale => pure (mantissa.tdiv (10 ^ scale))
  | .str s =>
    match textValue s with
    | some n => pure n
    | Option.none => throw (.valueError ("invalid literal for int() with base 10: " ++ reprText s))
  | _ => throw (.typeError "int() argument must be a string, a bytes-like object or a real number")

/-- `v == n`. -/
def eqInt : PyVal → ℤ → Bool
  | .int m, n => m = n
  | .bool b, n => (if b then 1 else 0) = n
  | .scaled mantissa scale, n => mantissa = n * 10 ^ scale
  | _, _ => false

/-- `v == s`. -/
def eqStr : PyVal → String → Bool
  | .str t, s => t = s
  | _, _ => false

/-- `v is None`. -/
def isNone : PyVal → Bool
  | .none => true
  | _ => false

/-- `bool(v)`. -/
def truthy : PyVal → Bool
  | .none => false
  | .bool b => b
  | .int n => n ≠ 0
  | .scaled mantissa _ => mantissa ≠ 0
  | .str s => s ≠ ""
  | .list items => ¬ items.isEmpty
  | .dict entries => ¬ entries.isEmpty

/-! ## Containers -/

/-- What `for x in v` visits. -/
def elems : PyVal → PyM (List PyVal)
  | .list items => pure items
  | .str s => pure (s.toList.map (fun c => .str (String.singleton c)))
  | .dict entries => pure (entries.map (fun e => .str e.1))
  | _ => throw (.typeError "object is not iterable")

/-- `v or []`. -/
def orEmpty (v : PyVal) : PyVal := if v.truthy then v else .list []

/-- The dict behind `v.get`. -/
def asDict : PyVal → PyM Params
  | .dict entries => pure entries
  | _ => throw (.attributeError "object has no attribute 'get'")

end PyVal

namespace Params
variable (p : Params) (key : String)

/-- `key in params`. -/
def has : Bool := (p.lookup key).isSome

/-- `params.get(key)`. -/
def get : PyVal := (p.lookup key).getD .none

/-- `params.get(key, default)`. -/
def getD (default : PyVal) : PyVal := (p.lookup key).getD default

end Params

/-! ## Hexadecimal numbers -/

section HexNumbers
open Adapter10376 (pyStrip)

def hexDigitsValue (acc : ℕ) : List Char → Option ℕ
  | [] => some acc
  | '_' :: c :: rest => do hexDigitsValue (acc * 16 + (← hexDigitValue c)) rest
  | c :: rest => do hexDigitsValue (acc * 16 + (← hexDigitValue c)) rest

/-- The digits of `int(s, 16)`: a `0x` may stand before them. -/
def unsignedHexValue (cs : List Char) : Option ℕ :=
  let digits (cs : List Char) : Option ℕ :=
    match cs with
    | c :: rest => do hexDigitsValue (← hexDigitValue c) rest
    | [] => none
  match cs with
  | '0' :: x :: rest =>
    if x = 'x' ∨ x = 'X' then
      match rest with
      | '_' :: more => digits more
      | _ => digits rest
    else digits cs
  | _ => digits cs

def hexTextValue (s : String) : Option ℤ :=
  match pyStrip s.toList with
  | '-' :: rest => (unsignedHexValue rest).map fun n => -Int.ofNat n
  | '+' :: rest => (unsignedHexValue rest).map Int.ofNat
  | cs => (unsignedHexValue cs).map Int.ofNat

/-- `int(s, 16)` of a text. -/
def hexInt (s : String) : PyM ℤ :=
  match hexTextValue s with
  | some n => pure n
  | none => throw (.valueError ("invalid literal for int() with base 16: " ++ reprText s))

end HexNumbers

namespace Adapter10376

/-- `_req`. -/
def req (p : Params) (key : String) (hint : String := "") : PyM PyVal :=
  let v := p.get key
  if v.isNone then
    throw (.valueError ("缺少参数 " ++ key ++ if hint ≠ "" then "（" ++ hint ++ "）" else ""))
  else pure v

/-- The bytes from `lo` to `hi`. -/
abbrev InRange (lo hi : Byte) := {b : Byte // lo ≤ b ∧ b ≤ hi}

/-- `_u8`, for bounds that fit one byte. -/
def u8 (v : PyVal) (name : String) (lo : Byte := 0) (hi : Byte := 255) : PyM (InRange lo hi) := do
  let iv ← v.toInt
  if h : (lo : ℕ) ≤ iv ∧ iv ≤ (hi : ℕ) then
    pure ⟨byte iv.toNat, by
      have hhi := hi.isLt
      constructor <;> rw [Fin.le_def, byte_val] <;> omega⟩
  else throw (.valueError (name ++ "=" ++ toString iv ++ " 越界 [" ++ toString lo ++ "," ++
    toString hi ++ "]"))

/-- A number of two bytes. -/
abbrev Word := Fin 65536

instance wordNeZero : NeZero 65536 := ⟨Nat.succ_ne_zero 65535⟩

/-- `_u16`. -/
def u16 (v : PyVal) (name : String) : PyM Word := do
  let iv ← v.toInt
  if 0 ≤ iv ∧ iv ≤ 0xFFFF then pure (Fin.ofNat 65536 iv.toNat)
  else throw (.valueError (name ++ "=" ++ toString iv ++ " 越界 [0,65535]"))

/-- `w.to_bytes(2, "little")`. -/
def Word.toBytes (w : Word) : Bytes := [byte w, byte ((w : ℕ) / 256)]

/-- An address text that `_bcd_bytes` accepts, with the bytes it is packed into. -/
structure BcdAddr where
  text : String
  digits : TwelveDigits text
  bytes : Bytes
  packed : strToBcd text 6 = .ok bytes

/-- `_bcd_bytes`, with the text kept beside the bytes. -/
def bcdBytes (v : PyVal) (name : String := "地址") : PyM BcdAddr :=
  let s := String.ofList (pyStrip v.toStr.toList)
  if hdigits : TwelveDigits s then
    match hpacked : strToBcd s 6 with
    | .ok bs => pure ⟨s, hdigits, bs, hpacked⟩
    | .error e => throw e
  else if s = "" ∨ ¬ s.toList.all Char.isDigit then
    throw (.valueError (name ++ " 必须为 BCD 数字串: " ++ v.repr))
  else throw (.valueError (name ++ " 必须为 12 位 BCD: " ++ s))

/-- `_hex_bytes`. -/
def hexBytes (v : PyVal) (name : String) : PyM Bytes :=
  match fromHex (dropSpaces v.toStr) with
  | some bs => pure bs
  | none => throw (.valueError (name ++ " 必须为 hex 字符串: " ++ v.repr))

/-- `_int_to_bcd`, with the number kept. -/
def intToBcd (v : PyVal) (name : String) (hi : ℕ := 99) : PyM (Fin 100) := do
  let iv ← v.toInt
  if 0 ≤ iv ∧ iv ≤ hi then pure (Fin.ofNat 100 iv.toNat)
  else throw (.valueError (name ++ "=" ++ toString iv ++ " 越界 [0," ++ toString hi ++ "]"))

/-- The byte that `_int_to_bcd` returns. -/
def bcdOf (n : Fin 100) : Byte := byte (((n : ℕ) / 10) <<< 4 ||| ((n : ℕ) % 10))

/-- `_nodes_list`. -/
def nodesList (p : Params) (key : String := "nodes") : PyM (List PyVal) :=
  match p.get key with
  | .list nodes => pure nodes
  | _ => throw (.valueError ("缺少参数 " ++ key ++ "（应为列表）"))

/-! ## Lists and byte strings of bounded length -/

/-- Lists of at most `n` elements. -/
abbrev UpTo (α : Type) (n : ℕ) := {xs : List α // xs.length ≤ n}

/-- Byte strings of exactly `n` bytes. -/
abbrev Exactly (n : ℕ) := {bs : Bytes // bs.length = n}

def upTo {α : Type} (xs : List α) (n : ℕ) (e : PyErr) : PyM (UpTo α n) :=
  if h : xs.length ≤ n then pure ⟨xs, h⟩ else throw e

/-- `_u8(len(xs), name, 0, hi)`. -/
def counted {α : Type} (xs : List α) (name : String) (hi : ℕ := 0xFF) : PyM (UpTo α hi) :=
  upTo xs hi (.valueError (name ++ "=" ++ toString xs.length ++ " 越界 [0," ++ toString hi ++ "]"))

def exactly (bs : Bytes) (n : ℕ) (message : String) : PyM (Exactly n) :=
  if h : bs.length = n then pure ⟨bs, h⟩ else throw (.valueError message)

/-- What `bytes` and `bytearray` raise for a number above 255. -/
def byteRange : PyErr := .valueError "bytes must be in range(0, 256)"

end Adapter10376

end HplcWorkbench
