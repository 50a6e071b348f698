import HplcWorkbench.Bytes

/-!
# What an adapter returns

A decoded frame carries its link fields, its data items, the frames found inside its payload
and the warnings collected on the way. `MetadataStore` is the external data dictionary, keyed
by protocol name and by the key the decoder prints.
-/

namespace HplcWorkbench

/-- The Python values that fields, parameters and dictionaries hold. A scaled value is the
quotient `mantissa / 10 ^ scale` that the decoders compute as a float. -/
inductive PyVal
  | none
  | bool (b : Bool)
  | int (n : ℤ)
  | scaled (mantissa : ℤ) (scale : ℕ)
  | str (s : String)
  | list (items : List PyVal)
  | dict (entries : List (String × PyVal))
  deriving Repr

instance : Inhabited PyVal := ⟨.none⟩

/-- `DataField`. -/
structure DataField where
  name : String
  value : PyVal
  unit : Option String
  hex : String
  raw : PyVal
  desc : String
  deriving Repr

/-- A field whose `value` and `raw` are the same text, as the `add` helpers build it. -/
def textField (name value hexStr desc : String) : DataField :=
  ⟨name, .str value, none, hexStr, .str value, desc⟩

/-- `ProtocolFrame`. -/
structure ProtocolFrame where
  structure_ : String
  address : String
  fields : List DataField
  items : List DataField
  nested : List ProtocolFrame
  rawHex : String
  warnings : List String
  deriving Repr

instance : Inhabited ProtocolFrame := ⟨⟨"", "", [], [], [], "", []⟩⟩

/-- `ProtocolFrame(structure=..., raw_hex=...)`. -/
def newFrame (structure_ rawHex : String) : ProtocolFrame :=
  ⟨structure_, "", [], [], [], rawHex, []⟩

/-- `ExtractResult`. -/
structure ExtractResult where
  raw : Bytes
  consumed : ℕ
  deriving DecidableEq, Repr

/-- One dictionary entry, with the defaults of the `meta.get` calls left to the readers. -/
structure MetaEntry where
  name : Option String
  dataType : Option String
  unit : Option String
  scale : Option ℕ
  desc : Option String
  deriving DecidableEq, Repr

/-- `MetadataStore.lookup`. -/
abbrev MetadataStore := String → String → Option MetaEntry

end HplcWorkbench
