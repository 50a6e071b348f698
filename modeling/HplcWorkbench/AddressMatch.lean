import HplcWorkbench.FrameReaders

/-!
# Whose reply is it

The batch reader decides by text: an address is looked for, in both byte orders, in the hex text
of the embedded frames' fields, of the link address and of the whole frame without its
information field.
-/

namespace HplcWorkbench.Batch
open Adapter10376 FrameCodec

/-- `needle in text`. -/
def inText (needle text : String) : Bool :=
  text.toList.tails.any fun rest => needle.toList.isPrefixOf rest

def removeFirstChars (needle : List Char) : List Char → List Char
  | [] => []
  | c :: rest =>
    if needle.isPrefixOf (c :: rest) then (c :: rest).drop needle.length
    else c :: removeFirstChars needle rest

/-- `text.replace(needle, "", 1)`. -/
def removeFirst (needle text : String) : String :=
  String.ofList (removeFirstChars needle.toList text.toList)

/-- `a.isdigit()` for ASCII text. -/
def isDigits (s : List Char) : Bool := s ≠ [] && s.all fun c => '0' ≤ c && c ≤ '9'

/-- `_addr_hexes`: the address as the 645 frame writes it and as the 1376.2 frame writes it. -/
def addrHexes (addr : String) : String × String :=
  let a := pyStrip addr.toList
  if a.length ≠ 12 ∨ ¬ isDigits a then ("", "")
  else
    match fromHexChars a with
    | some bs => (upper (hex bs.reverse), upper (hex bs))
    | none => ("", "")

/-- `str(value)`, for the text values that an address field has. -/
def strValue : PyVal → String
  | .str s => s
  | _ => ""

/-- `f.get("hex") or f.get("value") or ""`. -/
def fieldText (f : Option DataField) : String :=
  match f with
  | none => ""
  | some f => if f.hex ≠ "" then f.hex else strValue f.value

/-- The texts in which `_decoded_match_addr` looks for an address, in its order. -/
def searchedTexts (decoded : ProtocolFrame) : List String :=
  let nested := decoded.nested.flatMap fun n =>
    fieldText (fieldOf n.fields "地址域A") :: n.items.map DataField.hex
  let link := fieldText (fieldOf decoded.fields "地址域A")
  let whole := upper decoded.rawHex
  let info := upper (((fieldOf decoded.fields "信息域R").map DataField.hex).getD "")
  let body := if info ≠ "" ∧ inText info whole then removeFirst info whole else whole
  nested ++ [link, body]

/-- `_decoded_match_addr`. -/
def decodedMatchAddr (decoded : ProtocolFrame) (addr : String) : Bool :=
  let (le, be) := addrHexes addr
  le ≠ "" && (searchedTexts decoded).any fun text =>
    text ≠ "" && (inText le (upper text) || inText be (upper text))

/-- `int(s, 16)` of hexadecimal digits. -/
def hexNumber (s : String) : Option ℕ :=
  if s = "" then none
  else s.toList.foldlM (fun n c => (hexDigitValue c).map (n * 16 + ·)) 0

/-- The value of an integer field. -/
def intField (decoded : ProtocolFrame) (name : String) : Option ℤ :=
  match (fieldOf decoded.fields name).map DataField.raw with
  | some (.int n) => some n
  | _ => none

/-- `deny_info`, the code of the refusal. -/
def denyInfo (decoded : ProtocolFrame) : Option ℕ :=
  if intField decoded "AFN" ≠ some 0 ∨ intField decoded "FN" ≠ some 2 then none
  else ((decoded.items.find? fun it => it.name = "错误状态字").map DataField.hex).bind hexNumber

/-- Bit 7 of the control byte, 0 if there is none. -/
def upBit (decoded : ProtocolFrame) : ℕ :=
  (((intField decoded "控制域C").getD 0).toNat >>> 7) &&& 1

end HplcWorkbench.Batch
