import HplcWorkbench.PyParams

/-!
# Records cut by a contract

`extract_response` walks the application data of an answer as a contract says: scalars of the
head first, then the announced number of records. A length or a number of rows may stand in an
earlier field. Rows hold their newest entry first. Lengths and counts come from `BIN` fields and
are not negative.
-/

namespace HplcWorkbench.RecordExtractor

abbrev Row := List (String × PyVal)

/-- `b` of a contract field: a number of bytes, or `len_ref:` and an earlier field. -/
inductive FieldSize
  | fixed (n : ℕ)
  | lenRef (field : String)
  deriving DecidableEq, Repr

structure ValueSpec where
  name : String
  fmt : String
  size : FieldSize
  deriving DecidableEq, Repr

/-- A field of a record: a value, or `list_ref:` and the field that counts the rows. -/
inductive FieldSpec
  | value (spec : ValueSpec)
  | listRef (name count : String) (sub : List FieldSpec)

structure ListSpec where
  count : String
  record : List FieldSpec

/-- `fn["resp"]`. -/
structure Contract where
  fields : List ValueSpec
  list : Option ListSpec

/-- `int.from_bytes(raw, "little")`. -/
def leValue (raw : Bytes) : ℕ := raw.foldr (fun (b : Byte) (n : ℕ) => (b : ℕ) + 256 * n) 0

/-- `raw.decode("ascii", errors="replace").strip()`. -/
def asciiStripped (raw : Bytes) : String :=
  String.ofList (Adapter10376.pyStrip
    (raw.map fun b : Byte => if (b : ℕ) < 128 then Char.ofNat b else Char.ofNat 0xFFFD))

/-- `_decode_value`. -/
def decodeValue (fmt : String) (raw : Bytes) : PyVal :=
  if fmt = "BIN" then .int (leValue raw)
  else if fmt = "BCD" then .str (hex raw.reverse)
  else if fmt = "ASCII" then .str (asciiStripped raw)
  else .dict [("hex", .str (upper (hex raw))),
    ("bits", .str (String.ofList (Nat.toDigits 2 (leValue raw))))]

/-- `_read_int`. -/
def readInt : PyVal → PyM ℤ
  | .int n => pure n
  | .bool b => pure (if b then 1 else 0)
  | .dict entries =>
    match entries.lookup "hex" with
    | some v => hexInt v.toStr
    | none => pure 0
  | .str s =>
    match PyVal.textValue s, hexTextValue s with
    | some n, _ => pure n
    | none, some n => pure n
    | none, none => pure 0
  | _ => pure 0

/-- The number in an earlier field, zero where there is none. -/
def readField (row : Row) (name : String) : PyM ℕ := do
  let n ← readInt ((row.lookup name).getD (.int 0))
  pure n.toNat

def fieldSize (row : Row) : FieldSize → PyM ℕ
  | .fixed n => pure n
  | .lenRef field => readField row field

def shortage (name : String) (n rest : ℕ) : String :=
  name ++ ": 字节不足（需 " ++ toString n ++ "B，剩 " ++ toString rest ++ "B）"

/-- A value and its `__hex` copy. -/
def setValue (row : Row) (spec : ValueSpec) (value : PyVal) (raw : Bytes) : Row :=
  (spec.name ++ "__hex", .str (upper (hex raw))) :: (spec.name, value) :: row

/-- What is left after some fields, `none` for too few bytes, and the warnings. -/
abbrev Parsed (α : Type) := Option (α × ℕ) × List String

def parseValue (buf : Bytes) (row : Row) (pos : ℕ) (spec : ValueSpec) :
    PyM (Parsed Row) := do
  let n ← fieldSize row spec.size
  if pos + n > buf.length then pure (none, [shortage spec.name n (buf.length - pos)])
  else
    let raw := slice buf pos (pos + n)
    let value := if n ≠ 0 then decodeValue spec.fmt raw else .str ""
    pure (some (setValue row spec value raw, pos + n), [])

/-- The loop over the rows of a nested list. -/
def nestedRows (name : String) (parse : Bytes → PyM (Parsed Row)) (buf : Bytes) :
    ℕ → ℕ → PyM (Parsed (List Row))
  | 0, pos => pure (some ([], pos), [])
  | m + 1, pos => do
    match ← parse (buf.drop pos) with
    | (none, ws) => pure (none, ws ++ [name ++ ": 嵌套记录字节不足（pos=" ++ toString pos ++ "）"])
    | (some (row, consumed), ws) =>
      match ← nestedRows name parse buf m (pos + consumed) with
      | (none, more) => pure (none, ws ++ more)
      | (some (rows, rest), more) => pure (some (row :: rows, rest), ws ++ more)

mutual

def parseField (buf : Bytes) (row : Row) (pos : ℕ) : FieldSpec → PyM (Parsed Row)
  | .value spec => parseValue buf row pos spec
  | .listRef name count sub => do
    let m ← readField row count
    match ← nestedRows name (fun rest => parseFields rest [] 0 sub) buf m pos with
    | (none, ws) => pure (none, ws)
    | (some (rows, rest), ws) => pure (some ((name, .list (rows.map .dict)) :: row, rest), ws)

/-- `_parse_record`, from the field that comes next. -/
def parseFields (buf : Bytes) (row : Row) (pos : ℕ) : List FieldSpec → PyM (Parsed Row)
  | [] => pure (some (row, pos), [])
  | f :: rest => do
    match ← parseField buf row pos f with
    | (none, ws) => pure (none, ws)
    | (some (row, pos), ws) =>
      let (result, more) ← parseFields buf row pos rest
      pure (result, ws ++ more)

end

def parseRecord (buf : Bytes) (record : List FieldSpec) : PyM (Parsed Row) :=
  parseFields buf [] 0 record

/-- The head: the first field without its bytes ends it. -/
def parseHead (buf : Bytes) : Row → ℕ → List ValueSpec → PyM (Row × ℕ × List String)
  | head, pos, [] => pure (head, pos, [])
  | head, pos, spec :: rest => do
    let n ← fieldSize head spec.size
    if pos + n > buf.length then
      pure (head, pos, [shortage ("head." ++ spec.name) n (buf.length - pos)])
    else
      let raw := slice buf pos (pos + n)
      parseHead buf (setValue head spec (decodeValue spec.fmt raw) raw) (pos + n) rest

/-- The records, until one has too few bytes. -/
def parseRecords (record : List FieldSpec) (buf : Bytes) :
    ℕ → ℕ → ℕ → PyM (List Row × ℕ × List String)
  | 0, _, pos => pure ([], pos, [])
  | count + 1, i, pos => do
    match ← parseRecord (buf.drop pos) record with
    | (none, ws) => pure ([], pos, ws)
    | (some (row, consumed), ws) =>
      let (rows, rest, more) ← parseRecords record buf count (i + 1) (pos + consumed)
      pure ((("_seq_index", .int i) :: row) :: rows, rest, ws ++ more)

structure Extracted where
  head : Row
  records : List Row
  consumed : ℕ
  remaining : ℕ
  warnings : List String

/-- `extract_response`. A count that cannot be read is zero. -/
def extractResponse (appdata : Bytes) (resp : Contract) : PyM Extracted := do
  let (head, pos, warnings) ← parseHead appdata [] 0 resp.fields
  match resp.list with
  | none => pure ⟨head, [], pos, appdata.length - pos, warnings⟩
  | some lst =>
    let count :=
      match readField head lst.count with
      | .ok n => n
      | .error _ => 0
    let (records, rest, more) ← parseRecords lst.record appdata count 0 pos
    pure ⟨head, records, rest, appdata.length - rest, warnings ++ more⟩

/-! ## What a row holds -/

section Lookup
variable {row : Row} {spec : ValueSpec} {value : PyVal} {raw : Bytes} {name : String}

theorem lookup_setValue (spec : ValueSpec) :
    (setValue row spec value raw).lookup spec.name = some value := by
  have hcopy : spec.name ≠ spec.name ++ "__hex" := by
    intro h
    have hlength := congrArg String.length h
    rw [String.length_append] at hlength
    exact absurd hlength (Nat.ne_of_lt (Nat.lt_add_of_pos_right (by decide)))
  rw [setValue, List.lookup_cons, beq_false_of_ne hcopy, List.lookup_cons, beq_self_eq_true]

theorem lookup_setValue_of_ne (hname : name ≠ spec.name) (hcopy : name ≠ spec.name ++ "__hex") :
    (setValue row spec value raw).lookup name = row.lookup name := by
  rw [setValue, List.lookup_cons, beq_false_of_ne hcopy, List.lookup_cons, beq_false_of_ne hname]

end Lookup

/-! ## Fields of fixed size -/

section Fixed
variable (pre : Bytes) {raw : Bytes} (post : Bytes) (row : Row) (name fmt : String)

theorem parseValue_fixed (hraw : raw ≠ []) :
    parseValue (pre ++ raw ++ post) row pre.length ⟨name, fmt, .fixed raw.length⟩ =
      .ok (some (setValue row ⟨name, fmt, .fixed raw.length⟩ (decodeValue fmt raw) raw,
        pre.length + raw.length), []) := by
  have hcut : slice (pre ++ raw ++ post) pre.length (pre.length + raw.length) = raw :=
    slice_of_parts rfl rfl rfl
  have hroom : ¬ pre.length + raw.length > (pre ++ raw ++ post).length := by
    simp only [List.length_append]
    omega
  have hsize : raw.length ≠ 0 := fun h => hraw (List.length_eq_zero_iff.mp h)
  simp only [parseValue, fieldSize, pure_bind]
  rw [if_neg hroom, hcut, if_pos hsize]
  rfl

theorem parseHead_fixed (rest : List ValueSpec) :
    parseHead (pre ++ raw ++ post) row pre.length (⟨name, fmt, .fixed raw.length⟩ :: rest) =
      parseHead (pre ++ raw ++ post)
        (setValue row ⟨name, fmt, .fixed raw.length⟩ (decodeValue fmt raw) raw)
        (pre.length + raw.length) rest := by
  have hcut : slice (pre ++ raw ++ post) pre.length (pre.length + raw.length) = raw :=
    slice_of_parts rfl rfl rfl
  have hroom : ¬ pre.length + raw.length > (pre ++ raw ++ post).length := by
    simp only [List.length_append]
    omega
  simp only [parseHead, fieldSize, pure_bind]
  rw [if_neg hroom, hcut]

end Fixed

end HplcWorkbench.RecordExtractor
