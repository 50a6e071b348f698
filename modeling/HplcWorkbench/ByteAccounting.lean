import HplcWorkbench.HexReading
import HplcWorkbench.RecordExtractor
import Mathlib.Data.List.Induction

/-!
# Every byte of an answer

What `extract_response` keeps of a field is its value and a hexadecimal copy of its bytes. Put
together in the order of the contract, the copies are the bytes up to where it stopped. A head that
ends too early does not keep it from looking for rows.
-/

namespace HplcWorkbench.RecordExtractor

/-! ## Copies -/

def hexText (bs : Bytes) : List Char := (upper (hex bs)).toList

/-- The copy of the bytes of a field. -/
def hexOf (row : Row) (name : String) : List Char :=
  match row.lookup (name ++ "__hex") with
  | some (.str text) => text.toList
  | _ => []

mutual

/-- The copies of a field of a row, those of nested rows row by row. -/
def fieldHex : FieldSpec → Row → List Char
  | .value spec, row => hexOf row spec.name
  | .listRef name _ sub, row =>
    match row.lookup name with
    | some (.list rows) => rows.flatMap fun v =>
      match v with
      | .dict entries => recordHex sub entries
      | _ => []
    | _ => []

def recordHex : List FieldSpec → Row → List Char
  | [], _ => []
  | f :: rest, row => fieldHex f row ++ recordHex rest row

end

/-! ## Contracts -/

def ValueSpec.keys (spec : ValueSpec) : List String := [spec.name, spec.name ++ "__hex"]

def FieldSpec.keys : FieldSpec → List String
  | .value spec => spec.keys
  | .listRef name _ _ => [name]

/-- A length stands in a `BIN` field before. -/
def SizeKnown (before : List ValueSpec) : FieldSize → Prop
  | .fixed _ => True
  | .lenRef field => ∃ spec ∈ before, spec.name = field ∧ spec.fmt = "BIN"

/-- The names of a record are distinct, their copies included, and none is one of the two that
the extractor uses itself. -/
def Named (record : List FieldSpec) : Prop :=
  (record.flatMap FieldSpec.keys).Nodup ∧
    ∀ key ∈ record.flatMap FieldSpec.keys, key ≠ "_consumed" ∧ key ≠ "_seq_index"

mutual

def fieldLawful (before : List ValueSpec) : FieldSpec → Prop
  | .value spec => SizeKnown before spec.size
  | .listRef _ _ sub => Named sub ∧ recordLawful [] sub

def recordLawful (before : List ValueSpec) : List FieldSpec → Prop
  | [] => True
  | f :: rest => fieldLawful before f ∧
    recordLawful (match f with
      | .value spec => spec :: before
      | .listRef _ _ _ => before) rest

end

def headLawful (before : List ValueSpec) : List ValueSpec → Prop
  | [] => True
  | spec :: rest => SizeKnown before spec.size ∧ headLawful (spec :: before) rest

/-- A contract with distinct names whose lengths stand in earlier fields. -/
structure Contract.Lawful (c : Contract) : Prop where
  head : headLawful [] c.fields
  names : (c.fields.flatMap ValueSpec.keys).Nodup
  record : ∀ lst ∈ c.list, Named lst.record ∧ recordLawful [] lst.record

section Copies

theorem hexText_nil : hexText [] = [] := by rw [hexText, toList_upper_hex]; rfl

theorem hexText_append (xs ys : Bytes) : hexText (xs ++ ys) = hexText xs ++ hexText ys := by
  rw [hexText, toList_upper_hex, hexChars_append, List.map_append, hexText, hexText,
    toList_upper_hex, toList_upper_hex]

theorem hexText_slice_self (buf : Bytes) (pos : ℕ) : hexText (slice buf pos pos) = [] := by
  rw [slice, List.drop_take_self, hexText_nil]

theorem slice_append_slice (buf : Bytes) {i j k : ℕ} (hij : i ≤ j) (hjk : j ≤ k) :
    slice buf i j ++ slice buf j k = slice buf i k := by
  have hnext : i + (j - i) = j := by omega
  have hlength : k - i = (j - i) + (k - j) := by omega
  rw [slice, slice, slice, List.drop_take, List.drop_take, List.drop_take, hlength, List.take_add,
    List.drop_drop, hnext]

theorem slice_drop (buf : Bytes) (pos i j : ℕ) :
    slice (buf.drop pos) i j = slice buf (pos + i) (pos + j) := by
  rw [slice, slice, List.take_drop, List.drop_drop]

variable {row row' : Row}

theorem hexOf_congr {name : String}
    (h : row.lookup (name ++ "__hex") = row'.lookup (name ++ "__hex")) :
    hexOf row name = hexOf row' name := by
  rw [hexOf, hexOf, h]

theorem fieldHex_congr {f : FieldSpec} (h : ∀ key ∈ f.keys, row.lookup key = row'.lookup key) :
    fieldHex f row = fieldHex f row' := by
  cases f with
  | value spec =>
    rw [fieldHex, fieldHex]
    exact hexOf_congr (h _ (List.mem_cons_of_mem _ List.mem_cons_self))
  | listRef name count sub => rw [fieldHex, fieldHex, h name List.mem_cons_self]

theorem recordHex_congr {record : List FieldSpec}
    (h : ∀ key ∈ record.flatMap FieldSpec.keys, row.lookup key = row'.lookup key) :
    recordHex record row = recordHex record row' := by
  induction record with
  | nil => rfl
  | cons f rest ih =>
    rw [List.flatMap_cons] at h
    rw [recordHex, recordHex, fieldHex_congr fun key hkey => h key (List.mem_append_left _ hkey),
      ih fun key hkey => h key (List.mem_append_right _ hkey)]

theorem hexOf_setValue (spec : ValueSpec) (value : PyVal) (raw : Bytes) :
    hexOf (setValue row spec value raw) spec.name = hexText raw := by
  rw [hexOf, setValue, List.lookup_cons, beq_self_eq_true]
  rfl

end Copies

/-! ## Records -/

/-- Every value of a row can be read as a number. -/
def Readable (row : Row) : Prop := ∀ e ∈ row, ∃ n, readInt e.2 = .ok n

/-- What the fields of a record leave: warnings where bytes are missing, else a row whose copies
are the bytes they took and which differs from the row before under their keys only. -/
def FieldsRead (buf : Bytes) (row : Row) (pos : ℕ) (record : List FieldSpec) : Parsed Row → Prop
  | (none, ws) => ws ≠ []
  | (some (row', pos'), _) => Readable row' ∧ pos ≤ pos' ∧ pos' ≤ buf.length ∧
      (∀ key ∉ record.flatMap FieldSpec.keys, row'.lookup key = row.lookup key) ∧
      recordHex record row' = hexText (slice buf pos pos')

/-- The same for the rows of a nested list. -/
def RowsRead (buf : Bytes) (pos : ℕ) (record : List FieldSpec) : Parsed (List Row) → Prop
  | (none, ws) => ws ≠ []
  | (some (rows, pos'), _) => pos ≤ pos' ∧ pos' ≤ buf.length ∧
      rows.flatMap (recordHex record) = hexText (slice buf pos pos')

section Record
variable {buf : Bytes} {row : Row} {pos : ℕ}

theorem readInt_str (s : String) : ∃ n, readInt (.str s) = .ok n := by
  rw [readInt]
  split
  · exact ⟨_, rfl⟩
  · exact ⟨_, rfl⟩
  · exact ⟨_, rfl⟩

theorem readInt_decodeValue (fmt : String) {raw : Bytes} (hraw : raw ≠ []) :
    ∃ n, readInt (decodeValue fmt raw) = .ok n := by
  obtain ⟨b, rest, rfl⟩ := List.exists_cons_of_ne_nil hraw
  rw [decodeValue]
  split_ifs
  · exact ⟨_, rfl⟩
  · exact readInt_str _
  · exact readInt_str _
  · exact ⟨_, hexInt_upper b rest⟩

theorem readInt_lookup (h : Readable row) (name : String) :
    ∃ n, readInt ((row.lookup name).getD (.int 0)) = .ok n := by
  cases hlookup : row.lookup name with
  | none => exact ⟨0, rfl⟩
  | some v =>
    obtain ⟨l₁, l₂, hsplit, -⟩ := List.lookup_eq_some_iff.mp hlookup
    exact h (name, v) (by rw [hsplit]; exact List.mem_append_right _ List.mem_cons_self)

theorem readField_readable (h : Readable row) (name : String) :
    ∃ n, readField row name = .ok n := by
  obtain ⟨n, hn⟩ := readInt_lookup h name
  exact ⟨n.toNat, by rw [readField, hn]; rfl⟩

theorem fieldSize_readable (h : Readable row) (size : FieldSize) :
    ∃ n, fieldSize row size = .ok n := by
  cases size with
  | fixed n => exact ⟨n, rfl⟩
  | lenRef field => exact readField_readable h field

theorem setValue_readable (h : Readable row) (spec : ValueSpec) {value : PyVal} (raw : Bytes)
    (hvalue : ∃ n, readInt value = .ok n) : Readable (setValue row spec value raw) := by
  intro e he
  rcases List.mem_cons.mp he with rfl | he
  · exact readInt_str _
  rcases List.mem_cons.mp he with rfl | he
  · exact hvalue
  · exact h e he

theorem lookup_setValue_other {spec : ValueSpec} {value : PyVal} {raw : Bytes} {key : String}
    (hkey : key ∉ spec.keys) : (setValue row spec value raw).lookup key = row.lookup key := by
  simp only [ValueSpec.keys, List.mem_cons, List.not_mem_nil, or_false, not_or] at hkey
  exact lookup_setValue_of_ne hkey.1 hkey.2

theorem parseValue_read (h : Readable row) (spec : ValueSpec) :
    ∃ r, parseValue buf row pos spec = .ok r ∧ FieldsRead buf row pos [.value spec] r := by
  obtain ⟨n, hn⟩ := fieldSize_readable h spec.size
  rw [parseValue, hn]
  by_cases hroom : pos + n > buf.length
  · exact ⟨_, if_pos hroom, List.cons_ne_nil _ _⟩
  · refine ⟨_, if_neg hroom, ?_, Nat.le_add_right _ _, not_lt.mp hroom, ?_, ?_⟩
    · apply setValue_readable h
      by_cases hn0 : n ≠ 0
      · rw [if_pos hn0]
        apply readInt_decodeValue
        rw [← List.length_pos_iff, slice_length]
        omega
      · rw [if_neg hn0]
        exact readInt_str _
    · intro key hkey
      apply lookup_setValue_other
      simpa [FieldSpec.keys] using hkey
    · rw [recordHex, fieldHex, recordHex, List.append_nil, hexOf_setValue]

/-- Rows that are read one after another. -/
theorem nestedRows_read (name : String) {parse : Bytes → PyM (Parsed Row)} {sub : List FieldSpec}
    (hparse : ∀ rest, ∃ r, parse rest = .ok r ∧ FieldsRead rest [] 0 sub r) (m : ℕ)
    (hpos : pos ≤ buf.length) :
    ∃ r, nestedRows name parse buf m pos = .ok r ∧ RowsRead buf pos sub r := by
  induction m generalizing pos with
  | zero =>
    exact ⟨_, rfl, le_rfl, hpos, (hexText_slice_self buf pos).symm⟩
  | succ m ih =>
    obtain ⟨r, hr, hread⟩ := hparse (buf.drop pos)
    rw [nestedRows, hr]
    obtain ⟨found, ws⟩ := r
    cases found with
    | none => exact ⟨_, rfl, List.append_ne_nil_of_left_ne_nil hread _⟩
    | some taken =>
      obtain ⟨row, consumed⟩ := taken
      obtain ⟨-, -, hroom, -, hhex⟩ := hread
      rw [List.length_drop] at hroom
      rw [slice_drop, Nat.add_zero] at hhex
      obtain ⟨r', hr', hrest⟩ := @ih (pos + consumed) (by omega)
      dsimp only [bind, Except.bind]
      rw [hr']
      obtain ⟨found', more⟩ := r'
      cases found' with
      | none => exact ⟨_, rfl, List.append_ne_nil_of_right_ne_nil _ hrest⟩
      | some taken' =>
        obtain ⟨rows, pos'⟩ := taken'
        obtain ⟨hle, hend, hrows⟩ := hrest
        refine ⟨_, rfl, by omega, hend, ?_⟩
        rw [List.flatMap_cons, hhex, hrows, ← hexText_append,
          slice_append_slice buf (Nat.le_add_right _ _) hle]

theorem fieldsRead_nil (h : Readable row) (hpos : pos ≤ buf.length) :
    FieldsRead buf row pos [] (some (row, pos), []) := by
  exact ⟨h, le_rfl, hpos, fun _ _ => rfl, (hexText_slice_self buf pos).symm⟩

theorem fieldsRead_list {name count : String} {sub : List FieldSpec} {rows : List Row} {pos' : ℕ}
    {ws : List String} (h : Readable row) (hrows : RowsRead buf pos sub (some (rows, pos'), ws)) :
    FieldsRead buf row pos [.listRef name count sub]
      (some ((name, .list (rows.map .dict)) :: row, pos'), ws) := by
  obtain ⟨hle, hend, hhex⟩ := hrows
  refine ⟨?_, hle, hend, ?_, ?_⟩
  · intro e he
    rcases List.mem_cons.mp he with rfl | he
    · exact ⟨0, rfl⟩
    · exact h e he
  · intro key hkey
    have hne : key ≠ name := by simpa [FieldSpec.keys] using hkey
    rw [List.lookup_cons, beq_false_of_ne hne]
  · rw [recordHex, fieldHex, List.lookup_cons, beq_self_eq_true, recordHex, List.append_nil]
    dsimp only
    rw [List.flatMap_map]
    exact hhex

theorem Named.tail {f : FieldSpec} {rest : List FieldSpec} (h : Named (f :: rest)) : Named rest := by
  rw [Named, List.flatMap_cons] at h
  exact ⟨(List.nodup_append.mp h.1).2.1, fun key hkey => h.2 key (List.mem_append_right _ hkey)⟩

/-- A field and the rest of its record. -/
theorem fieldsRead_cons {f : FieldSpec} {rest : List FieldSpec} {row' : Row} {pos' : ℕ}
    {ws : List String} {r : Parsed Row} (hnamed : Named (f :: rest))
    (hfirst : FieldsRead buf row pos [f] (some (row', pos'), ws))
    (hrest : FieldsRead buf row' pos' rest r) :
    FieldsRead buf row pos (f :: rest) (r.1, ws ++ r.2) := by
  obtain ⟨found, more⟩ := r
  cases found with
  | none => exact List.append_ne_nil_of_right_ne_nil _ hrest
  | some taken =>
    obtain ⟨row'', pos''⟩ := taken
    obtain ⟨-, hle, -, hframe, hhex⟩ := hfirst
    obtain ⟨hreadable, hle', hend, hframe', hhex'⟩ := hrest
    rw [List.flatMap_cons, List.flatMap_nil, List.append_nil] at hframe
    have hdisjoint := hnamed.1
    rw [List.flatMap_cons, List.nodup_append] at hdisjoint
    refine ⟨hreadable, hle.trans hle', hend, ?_, ?_⟩
    · intro key hkey
      rw [List.flatMap_cons, List.mem_append, not_or] at hkey
      rw [hframe' key hkey.2, hframe key hkey.1]
    · have hkept : fieldHex f row'' = fieldHex f row' :=
        fieldHex_congr fun key hkey =>
          hframe' key fun hkey' => hdisjoint.2.2 key hkey key hkey' rfl
      rw [recordHex, recordHex, List.append_nil] at hhex
      rw [recordHex, hkept, hhex, hhex', ← hexText_append, slice_append_slice buf hle hle']

mutual

theorem parseField_read (f : FieldSpec) (buf : Bytes) (row : Row) (pos : ℕ)
    (before : List ValueSpec) (hf : fieldLawful before f) (h : Readable row)
    (hpos : pos ≤ buf.length) :
    ∃ r, parseField buf row pos f = .ok r ∧ FieldsRead buf row pos [f] r := by
  cases f with
  | value spec => exact parseValue_read h spec
  | listRef name count sub =>
    obtain ⟨m, hm⟩ := readField_readable h count
    obtain ⟨hnamed, hsub⟩ := hf
    obtain ⟨r, hr, hread⟩ := nestedRows_read name
      (fun rest => parseFields_read sub rest [] 0 [] hnamed hsub (by intro e he; cases he)
        (Nat.zero_le _)) m hpos
    rw [parseField, hm]
    dsimp only [bind, Except.bind]
    rw [hr]
    obtain ⟨found, ws⟩ := r
    cases found with
    | none => exact ⟨_, rfl, hread⟩
    | some taken =>
      obtain ⟨rows, pos'⟩ := taken
      exact ⟨_, rfl, fieldsRead_list h hread⟩

theorem parseFields_read (record : List FieldSpec) (buf : Bytes) (row : Row) (pos : ℕ)
    (before : List ValueSpec) (hnamed : Named record) (hrecord : recordLawful before record)
    (h : Readable row) (hpos : pos ≤ buf.length) :
    ∃ r, parseFields buf row pos record = .ok r ∧ FieldsRead buf row pos record r := by
  cases record with
  | nil => exact ⟨_, rfl, fieldsRead_nil h hpos⟩
  | cons f rest =>
    obtain ⟨r, hr, hread⟩ := parseField_read f buf row pos before hrecord.1 h hpos
    rw [parseFields, hr]
    dsimp only [bind, Except.bind]
    obtain ⟨found, ws⟩ := r
    cases found with
    | none => exact ⟨_, rfl, hread⟩
    | some taken =>
      obtain ⟨row', pos'⟩ := taken
      obtain ⟨r', hr', hrest⟩ :=
        parseFields_read rest buf row' pos' _ hnamed.tail hrecord.2 hread.1 hread.2.2.1
      dsimp only
      rw [hr']
      exact ⟨_, rfl, fieldsRead_cons hnamed hread hrest⟩

end

theorem recordHex_seqIndex {record : List FieldSpec} (hnamed : Named record) (row : Row) (v : PyVal) :
    recordHex record (("_seq_index", v) :: row) = recordHex record row := by
  apply recordHex_congr
  intro key hkey
  rw [List.lookup_cons, beq_false_of_ne (hnamed.2 key hkey).2]

/-- The rows take the bytes they stand for; there are too few of them only with a warning, and
none exactly where none is asked for or the first one has too few bytes. -/
theorem parseRecords_read {record : List FieldSpec} (hnamed : Named record)
    (hrecord : recordLawful [] record) (count i : ℕ) (hpos : pos ≤ buf.length) :
    ∃ rows pos' ws, parseRecords record buf count i pos = .ok (rows, pos', ws) ∧
      pos ≤ pos' ∧ pos' ≤ buf.length ∧
      rows.flatMap (recordHex record) = hexText (slice buf pos pos') ∧
      (rows.length = count ∨ ws ≠ []) ∧
      (rows = [] ↔ count = 0 ∨ ∃ ws', parseRecord (buf.drop pos) record = .ok (none, ws')) := by
  have hempty := hexText_slice_self buf pos
  induction count generalizing i pos with
  | zero =>
    refine ⟨[], pos, [], rfl, le_rfl, hpos, hempty.symm, .inl rfl, ?_⟩
    simp
  | succ count ih =>
    obtain ⟨r, hr, hread⟩ := parseFields_read record (buf.drop pos) [] 0 [] hnamed hrecord
      (by intro e he; cases he) (Nat.zero_le _)
    have hrow : parseRecord (buf.drop pos) record = .ok r := hr
    rw [parseRecords, hrow]
    dsimp only [bind, Except.bind]
    obtain ⟨found, ws⟩ := r
    cases found with
    | none => exact ⟨[], pos, ws, rfl, le_rfl, hpos, hempty.symm, .inr hread, by simp⟩
    | some taken =>
      obtain ⟨row, consumed⟩ := taken
      obtain ⟨-, -, hroom, -, hhex⟩ := hread
      rw [List.length_drop] at hroom
      rw [slice_drop, Nat.add_zero] at hhex
      obtain ⟨rows, pos', more, hrest, hle, hend, hrows, hcount, -⟩ :=
        @ih (pos + consumed) (i + 1) (by omega) (hexText_slice_self buf _)
      dsimp only
      rw [hrest]
      refine ⟨_, pos', ws ++ more, rfl, by omega, hend, ?_, ?_, ?_⟩
      · rw [List.flatMap_cons, recordHex_seqIndex hnamed, hhex, hrows, ← hexText_append,
          slice_append_slice buf (Nat.le_add_right _ _) hle]
      · rcases hcount with hcount | hcount
        · exact .inl (by rw [List.length_cons, hcount])
        · exact .inr (List.append_ne_nil_of_right_ne_nil _ hcount)
      · simp

end Record

/-! ## The head -/

/-- A field of the head and its bytes. -/
abbrev Part := ValueSpec × Bytes

def rowOf (seen : List Part) : Row :=
  seen.foldl (fun row e => setValue row e.1 (decodeValue e.1.fmt e.2) e.2) []

def bytesOf (seen : List Part) : Bytes := seen.flatMap Prod.snd

/-- The size of a field behind the fields that are there. -/
def sizeIn (seen : List Part) : FieldSize → ℕ
  | .fixed n => n
  | .lenRef field =>
    match (rowOf seen).lookup field with
    | some (.int n) => n.toNat
    | _ => 0

/-- The fields of the head that the bytes last for. -/
def headParts (buf : Bytes) : List Part → List ValueSpec → List Part
  | seen, [] => seen
  | seen, spec :: rest =>
    let pos := (bytesOf seen).length
    let n := sizeIn seen spec.size
    if pos + n ≤ buf.length then headParts buf (seen ++ [(spec, slice buf pos (pos + n))]) rest
    else seen

def HeadWhole (buf : Bytes) (fields : List ValueSpec) : Prop :=
  (headParts buf [] fields).map Prod.fst = fields

instance (buf : Bytes) (fields : List ValueSpec) : Decidable (HeadWhole buf fields) :=
  inferInstanceAs (Decidable (_ = _))

section Head
variable {seen : List Part} {buf : Bytes}

theorem rowOf_append (seen : List Part) (e : Part) :
    rowOf (seen ++ [e]) = setValue (rowOf seen) e.1 (decodeValue e.1.fmt e.2) e.2 := by
  rw [rowOf, List.foldl_append]
  rfl

theorem bytesOf_append (xs ys : List Part) : bytesOf (xs ++ ys) = bytesOf xs ++ bytesOf ys :=
  List.flatMap_append

theorem lookup_rowOf_none {key : String} (hkey : key ∉ (seen.map Prod.fst).flatMap ValueSpec.keys) :
    (rowOf seen).lookup key = none := by
  induction seen using List.reverseRecOn with
  | nil => rfl
  | append_singleton seen e ih =>
    rw [List.map_append, List.flatMap_append, List.mem_append, not_or] at hkey
    rw [rowOf_append, lookup_setValue_other (by simpa using hkey.2), ih hkey.1]

/-- The value and the copy of each field are there. -/
theorem lookup_rowOf (hnames : ((seen.map Prod.fst).flatMap ValueSpec.keys).Nodup) {e : Part}
    (he : e ∈ seen) : (rowOf seen).lookup e.1.name = some (decodeValue e.1.fmt e.2) ∧
      hexOf (rowOf seen) e.1.name = hexText e.2 := by
  induction seen using List.reverseRecOn with
  | nil => cases he
  | append_singleton seen e' ih =>
    rw [List.map_append, List.flatMap_append, List.nodup_append] at hnames
    rw [rowOf_append]
    rcases List.mem_append.mp he with he | he
    · have hother : ∀ key ∈ e.1.keys, key ∉ e'.1.keys := by
        intro key hkey hkey'
        have hmem : key ∈ (seen.map Prod.fst).flatMap ValueSpec.keys :=
          List.mem_flatMap.mpr ⟨e.1, List.mem_map_of_mem he, hkey⟩
        exact hnames.2.2 key hmem key (by simpa using hkey') rfl
      obtain ⟨hvalue, hhex⟩ := ih hnames.1 he
      constructor
      · rw [lookup_setValue_other (hother _ List.mem_cons_self), hvalue]
      · rw [← hhex]
        exact hexOf_congr
          (lookup_setValue_other (hother _ (List.mem_cons_of_mem _ List.mem_cons_self)))
    · rw [List.mem_singleton.mp he]
      exact ⟨lookup_setValue _, hexOf_setValue _ _ _⟩

theorem fieldSize_rowOf (hnames : ((seen.map Prod.fst).flatMap ValueSpec.keys).Nodup)
    {before : List ValueSpec} (hbefore : ∀ spec ∈ before, spec ∈ seen.map Prod.fst)
    {size : FieldSize} (hsize : SizeKnown before size) :
    fieldSize (rowOf seen) size = .ok (sizeIn seen size) := by
  cases size with
  | fixed n => rfl
  | lenRef field =>
    obtain ⟨spec, hspec, rfl, hfmt⟩ := hsize
    obtain ⟨e, he, rfl⟩ := List.mem_map.mp (hbefore spec hspec)
    obtain ⟨hvalue, -⟩ := lookup_rowOf hnames he
    rw [fieldSize, readField, sizeIn, hvalue, hfmt]
    rfl

/-- What `extract_response` has after the head. -/
theorem parseHead_parts (seen : List Part) (buf : Bytes) {before fields : List ValueSpec}
    (hnames : ((seen.map Prod.fst ++ fields).flatMap ValueSpec.keys).Nodup)
    (hbefore : ∀ spec ∈ before, spec ∈ seen.map Prod.fst) (hlawful : headLawful before fields)
    (hbytes : bytesOf seen = buf.take (bytesOf seen).length) :
    ∃ ws, parseHead buf (rowOf seen) (bytesOf seen).length fields =
        .ok (rowOf (headParts buf seen fields), (bytesOf (headParts buf seen fields)).length, ws) ∧
      (ws = [] ↔ (headParts buf seen fields).map Prod.fst = seen.map Prod.fst ++ fields) ∧
      (headParts buf seen fields).map Prod.fst <+: seen.map Prod.fst ++ fields ∧
      bytesOf (headParts buf seen fields) =
        buf.take (bytesOf (headParts buf seen fields)).length := by
  induction fields generalizing seen before with
  | nil =>
    refine ⟨[], rfl, ?_, ?_, hbytes⟩
    · simp [headParts]
    · simp [headParts]
  | cons spec rest ih =>
    have hseen : ((seen.map Prod.fst).flatMap ValueSpec.keys).Nodup := by
      rw [List.flatMap_append] at hnames
      exact (List.nodup_append.mp hnames).1
    rw [parseHead, fieldSize_rowOf hseen hbefore hlawful.1, headParts]
    dsimp only [bind, Except.bind]
    set pos := (bytesOf seen).length with hpos
    set n := sizeIn seen spec.size with hn
    by_cases hroom : pos + n ≤ buf.length
    · rw [if_neg (not_lt.mpr hroom), if_pos hroom]
      have hcut : (slice buf pos (pos + n)).length = n := by
        rw [slice_length]
        omega
      have hnext : (bytesOf (seen ++ [(spec, slice buf pos (pos + n))])).length = pos + n := by
        rw [bytesOf_append, List.length_append, ← hpos, bytesOf, List.flatMap_singleton, hcut]
      have htake : bytesOf (seen ++ [(spec, slice buf pos (pos + n))]) =
          buf.take (bytesOf (seen ++ [(spec, slice buf pos (pos + n))])).length := by
        rw [hnext, bytesOf_append, hbytes, List.take_add]
        congr 1
        rw [bytesOf, List.flatMap_singleton, slice, List.drop_take, Nat.add_sub_cancel_left]
      have hmap : (seen ++ [(spec, slice buf pos (pos + n))]).map Prod.fst ++ rest =
          seen.map Prod.fst ++ spec :: rest := by
        rw [List.map_append, List.append_assoc]
        rfl
      obtain ⟨ws, hparse, hws, hinitial, hall⟩ := ih
        (seen ++ [(spec, slice buf pos (pos + n))]) (by rw [hmap]; exact hnames)
        (by
          intro s hs
          rw [List.map_append, List.mem_append]
          rcases List.mem_cons.mp hs with rfl | hs
          · exact .inr List.mem_cons_self
          · exact .inl (hbefore s hs)) hlawful.2 htake
      rw [hmap] at hws hinitial
      rw [hnext, rowOf_append] at hparse
      exact ⟨ws, hparse, hws, hinitial, hall⟩
    · rw [if_pos (not_le.mp hroom), if_neg hroom]
      refine ⟨_, rfl, ?_, List.prefix_append _ _, hbytes⟩
      simp

/-- The copies of the head are the bytes of its parts. -/
theorem head_hex {parts : List Part} {fields : List ValueSpec}
    (hnames : (fields.flatMap ValueSpec.keys).Nodup) (hinitial : parts.map Prod.fst <+: fields) :
    fields.flatMap (fun spec => hexOf (rowOf parts) spec.name) = hexText (bytesOf parts) := by
  obtain ⟨missing, rfl⟩ := hinitial
  rw [List.flatMap_append, List.nodup_append] at hnames
  have hmissing : missing.flatMap (fun spec => hexOf (rowOf parts) spec.name) = [] := by
    rw [List.flatMap_eq_nil_iff]
    intro spec hspec
    have hnone : (rowOf parts).lookup (spec.name ++ "__hex") = none := by
      apply lookup_rowOf_none
      intro hkey
      exact hnames.2.2 _ hkey _ (List.mem_flatMap.mpr
        ⟨spec, hspec, List.mem_cons_of_mem _ List.mem_cons_self⟩) rfl
    rw [hexOf, hnone]
  have hparts (es : List Part) (hes : ∀ e ∈ es, e ∈ parts) :
      (es.map Prod.fst).flatMap (fun spec => hexOf (rowOf parts) spec.name) = hexText (bytesOf es) := by
    induction es with
    | nil => exact hexText_nil.symm
    | cons e es ih =>
      obtain ⟨-, hhex⟩ := lookup_rowOf hnames.1 (hes e List.mem_cons_self)
      rw [List.map_cons, List.flatMap_cons, hhex,
        ih fun e' he' => hes e' (List.mem_cons_of_mem _ he'), ← hexText_append]
      rfl
  rw [List.flatMap_append, hmissing, List.append_nil]
  exact hparts parts fun e he => he

end Head

/-! ## The answer -/

/-- The number that the head gives for a list. -/
def countOf (head : Row) (lst : ListSpec) : ℤ :=
  match readInt ((head.lookup lst.count).getD (.int 0)) with
  | .ok n => n
  | .error _ => 0

/-- The copies of the rows. -/
def rowsHex (c : Contract) (rows : List Row) : List Char :=
  match c.list with
  | some lst => rows.flatMap (recordHex lst.record)
  | none => []

/-- Every byte of an answer is accounted for. -/
structure Accounted (c : Contract) (buf : Bytes) (out : Extracted) : Prop where
  bytes : c.fields.flatMap (fun spec => hexOf out.head spec.name) ++ rowsHex c out.records =
    hexText (buf.take out.consumed)
  total : out.consumed + out.remaining = buf.length
  rows : ∀ lst ∈ c.list, (out.records.length : ℤ) = countOf out.head lst ∨ out.warnings ≠ []
  truncated : ¬ HeadWhole buf c.fields → out.records = []

/-- The count of a whole head is not negative, and behind a head that is cut no row is asked for
or the first one has too few bytes. -/
def CountUsable (c : Contract) (buf : Bytes) (lst : ListSpec) : Prop :=
  let parts := headParts buf [] c.fields
  if HeadWhole buf c.fields then 0 ≤ countOf (rowOf parts) lst
  else countOf (rowOf parts) lst ≤ 0 ∨
    ∃ ws, parseRecord (buf.drop (bytesOf parts).length) lst.record = .ok (none, ws)

section Answer
variable {c : Contract} {buf : Bytes} {head : Row} {pos : ℕ} {ws : List String}

theorem extractResponse_head (hhead : parseHead buf [] 0 c.fields = .ok (head, pos, ws))
    (hlist : c.list = none) :
    extractResponse buf c = .ok ⟨head, [], pos, buf.length - pos, ws⟩ := by
  rw [extractResponse, hhead]
  dsimp only [bind, Except.bind]
  rw [hlist]
  rfl

theorem extractResponse_list {lst : ListSpec} {rows : List Row} {rest : ℕ} {more : List String}
    (hhead : parseHead buf [] 0 c.fields = .ok (head, pos, ws)) (hlist : c.list = some lst)
    (hrows : parseRecords lst.record buf (countOf head lst).toNat 0 pos = .ok (rows, rest, more)) :
    extractResponse buf c = .ok ⟨head, rows, rest, buf.length - rest, ws ++ more⟩ := by
  rw [countOf] at hrows
  rw [extractResponse, hhead]
  dsimp only [bind, Except.bind]
  rw [hlist]
  cases hread : readInt ((head.lookup lst.count).getD (.int 0)) with
  | ok n =>
    have hfield : readField head lst.count = .ok n.toNat := by
      rw [readField, hread]
      rfl
    rw [hread] at hrows
    dsimp only at hrows ⊢
    rw [hfield]
    dsimp only
    rw [hrows]
    rfl
  | error e =>
    have hfield : readField head lst.count = .error e := by
      rw [readField, hread]
      rfl
    rw [hread] at hrows
    dsimp only at hrows ⊢
    rw [hfield]
    dsimp only
    rw [Int.toNat_zero] at hrows
    rw [hrows]
    rfl

end Answer

/-- Every byte is accounted for exactly when the count of the list can be used. -/
theorem accounted_iff {c : Contract} (hc : c.Lawful) (buf : Bytes) :
    ∃ out, extractResponse buf c = .ok out ∧
      (Accounted c buf out ↔ ∀ lst ∈ c.list, CountUsable c buf lst) := by
  obtain ⟨ws, hhead, hwhole, hinitial, hbytes⟩ := parseHead_parts [] buf
    (by simpa using hc.names) (fun _ h => by cases h) hc.head rfl
  rw [List.map_nil, List.nil_append] at hwhole hinitial
  have hhex := head_hex hc.names hinitial
  unfold CountUsable
  generalize hparts : headParts buf [] c.fields = parts at hhead hwhole hinitial hbytes hhex ⊢
  have hend : (bytesOf parts).length ≤ buf.length := by
    have hlength := congrArg List.length hbytes
    rw [List.length_take] at hlength
    omega
  have hwhole' : ws = [] ↔ HeadWhole buf c.fields := by rw [HeadWhole, hparts, hwhole]
  cases hlist : c.list with
  | none =>
    refine ⟨_, extractResponse_head hhead hlist, ?_⟩
    constructor
    · rintro - lst ⟨⟩
    · intro _
      constructor
      · dsimp only
        rw [hhex, rowsHex, hlist, List.append_nil, ← hbytes]
      · exact Nat.add_sub_cancel' hend
      · intro lst hlst
        rw [hlist] at hlst
        cases hlst
      · exact fun _ => rfl
  | some lst =>
    obtain ⟨hnamed, hrecord⟩ := hc.record lst hlist
    obtain ⟨rows, pos', more, hrows, hle, hpos', hrowhex, hcount, hnone⟩ :=
      parseRecords_read hnamed hrecord (countOf (rowOf parts) lst).toNat 0 hend
    refine ⟨_, extractResponse_list hhead hlist hrows, ?_⟩
    constructor
    · rintro ⟨-, -, hlength, htruncated⟩ lst' ⟨⟩
      dsimp only at hlength htruncated ⊢
      split_ifs with hw
      · rcases hlength lst hlist with hsame | hwarn
        · rw [← hsame]
          exact Int.natCast_nonneg _
        · -- a negative count asks for no row and so gives no warning
          by_contra hneg
          have hzero : (countOf (rowOf parts) lst).toNat = 0 := by omega
          rw [hzero] at hrows
          cases hrows
          rw [List.append_nil] at hwarn
          exact hwarn (hwhole'.mpr hw)
      · rcases hnone.mp (htruncated hw) with hzero | hshort
        · exact .inl (by omega)
        · exact .inr hshort
    · intro husable
      have huse := husable lst rfl
      dsimp only at huse
      constructor
      · dsimp only
        have hfirst : bytesOf parts = slice buf 0 (bytesOf parts).length := hbytes
        have hjoin := slice_append_slice buf (Nat.zero_le _) hle
        rw [← hfirst] at hjoin
        rw [hhex, rowsHex, hlist]
        dsimp only
        rw [hrowhex, ← hexText_append, hjoin]
        exact congrArg hexText List.drop_zero
      · exact Nat.add_sub_cancel' hpos'
      · intro lst' hlst'
        obtain rfl : lst = lst' := Option.some.inj (hlist.symm.trans hlst')
        dsimp only
        by_cases hw : HeadWhole buf c.fields
        · rw [if_pos hw] at huse
          rcases hcount with hcount | hcount
          · left
            rw [hcount]
            omega
          · exact .inr (List.append_ne_nil_of_right_ne_nil _ hcount)
        · exact .inr (List.append_ne_nil_of_left_ne_nil (mt hwhole'.mp hw) _)
      · intro hw
        rw [if_neg hw] at huse
        rcases huse with hle' | hshort
        · exact hnone.mpr (.inl (by omega))
        · exact hnone.mpr (.inr hshort)

/-- A count of one byte and rows of one byte behind a second field of the head. -/
def countedBytes : Contract where
  fields := [⟨"n", "BIN", .fixed 1⟩, ⟨"x", "BIN", .fixed 4⟩]
  list := some { count := "n", record := [.value ⟨"y", "BIN", .fixed 1⟩] }

theorem countedBytes_lawful : countedBytes.Lawful where
  head := ⟨trivial, trivial, trivial⟩
  names := by decide
  record := by
    rintro lst ⟨⟩
    exact ⟨⟨by decide, by decide⟩, trivial, trivial⟩

/-- The head ends behind its count, and the byte that is left is taken for a row. -/
theorem cut_head_rows :
    ¬ ∀ (c : Contract) (buf : Bytes), c.Lawful →
      ∃ out, extractResponse buf c = .ok out ∧ Accounted c buf out := by
  intro h
  obtain ⟨out, hout, haccounted⟩ := h countedBytes [0x01, 0xAA] countedBytes_lawful
  have hrows := haccounted.truncated (by decide)
  cases hout
  cases hrows

theorem countedBytes_accounted :
    ∃ out, extractResponse [0x01, 0xAA, 0xBB, 0xCC, 0xDD, 0xEE] countedBytes = .ok out ∧
      (Accounted countedBytes [0x01, 0xAA, 0xBB, 0xCC, 0xDD, 0xEE] out ↔
        ∀ lst ∈ countedBytes.list, CountUsable countedBytes [0x01, 0xAA, 0xBB, 0xCC, 0xDD, 0xEE] lst) :=
  accounted_iff countedBytes_lawful _

end HplcWorkbench.RecordExtractor
