import HplcWorkbench.AxdrValues
import HplcWorkbench.HexText
/-!
# Reading encoded data

A reader that stands before an encoded value takes the value and stops behind it, for every value
whose counts fit the one length byte and whose type it knows. The other values are shown wrong at
their own place. Both facts go from the elements of an array to the array.
-/

namespace HplcWorkbench.Adapter698

/-! ## Values without elements -/

section Reads
variable {data pre post : Bytes} {fuel : ℕ}

theorem byteAt_here {tag : Byte} {content : Bytes} (h : data = pre ++ (tag :: content ++ post)) :
    byteAt data pre.length = tag := by
  subst h
  simp [byteAt]

theorem byteAt_second {tag second : Byte} {content : Bytes}
    (h : data = pre ++ (tag :: second :: content ++ post)) :
    byteAt data (pre.length + 1) = second := by
  subst h
  simp [byteAt]

theorem fixedData_read {tag : Byte} {content : Bytes} {size : ℕ} (show_ : Bytes → PyVal)
    (hsize : content.length = size) (h : data = pre ++ (tag :: content ++ post)) :
    fixedData data pre.length size show_ = (show_ content, (tag :: content).length) := by
  have hparts : data = (pre ++ [tag]) ++ content ++ post := by simp [h]
  have hlength : data.length = pre.length + (1 + size) + post.length := by
    simp [h, hsize]; omega
  have hslice : slice data (pre.length + 1) (pre.length + 1 + size) = content :=
    slice_of_parts hparts (by simp) (by simp [hsize])
  rw [fixedData, if_pos (by omega), hslice, List.length_cons, hsize, Nat.add_comm]

theorem countedData_read {tag : Byte} {content : Bytes} (show_ : Bytes → PyVal)
    (hshort : content.length < 128)
    (h : data = pre ++ (tag :: (lengthBytes content.length ++ content) ++ post)) :
    countedData data pre.length show_ =
      (show_ content, (tag :: (lengthBytes content.length ++ content)).length) := by
  rw [lengthBytes_short hshort] at h ⊢
  have hcount : (byteAt data (pre.length + 1) : ℕ) = content.length := by
    rw [byteAt_second h, byte_val, Nat.mod_eq_of_lt (by omega)]
  have hparts : data = (pre ++ [tag, byte content.length]) ++ content ++ post := by simp [h]
  have hlength : data.length = pre.length + (2 + content.length) + post.length := by
    simp [h]; omega
  have hslice : slice data (pre.length + 2) (pre.length + 2 + content.length) = content :=
    slice_of_parts hparts (by simp) (by simp)
  rw [countedData, if_neg (by omega)]
  dsimp only
  rw [hcount, if_pos (by omega), hslice]
  rw [List.length_cons, List.length_append, List.length_singleton, Nat.add_right_comm]

theorem read_int (k : IntKind) (n : {n : ℤ // k.Holds n})
    (h : data = pre ++ (k.tag :: complementBytes k.size n ++ post)) :
    parseDataFuel (fuel + 1) data pre.length =
      .ok (.int n, (k.tag :: complementBytes k.size n).length) := by
  have hin : ¬ pre.length ≥ data.length := by simp [h]
  obtain ⟨n, hn⟩ := n
  have hread (show_ : Bytes → PyVal) (hshow : show_ (complementBytes k.size n) = .int n) :
      fixedData data pre.length k.size show_ =
        (.int n, (k.tag :: complementBytes k.size n).length) := by
    rw [fixedData_read show_ (complementBytes_length _ _) h, hshow]
  rw [parseDataFuel, if_neg hin, byteAt_here h]
  cases k
  case doubleLong | integer | long | long64 =>
    exact congrArg Except.ok (hread _ (congrArg PyVal.int (beSigned_complementBytes hn.1 hn.2)))
  all_goals exact congrArg Except.ok (hread _ (congrArg PyVal.int (beUnsigned_of_nonneg hn.1 hn.2)))

theorem read_fixed (k : FixedKind) (content : {bs : Bytes // bs.length = k.size})
    (h : data = pre ++ (k.tag :: content ++ post)) (hk : ¬ k.IsFloat) :
    parseDataFuel (fuel + 1) data pre.length =
      .ok (k.shown content, (k.tag :: content.val).length) := by
  have hin : ¬ pre.length ≥ data.length := by simp [h]
  have hread (show_ : Bytes → PyVal) := fixedData_read show_ content.property h
  rw [parseDataFuel, if_neg hin, byteAt_here h]
  cases k
  case float32 => exact absurd (.inl rfl) hk
  case float64 => exact absurd (.inr rfl) hk
  all_goals exact congrArg Except.ok (hread _)

theorem read_text (k : TextKind) (content : Bytes) (hshort : content.length < 128)
    (h : data = pre ++ (k.tag :: (lengthBytes content.length ++ content) ++ post)) :
    parseDataFuel (fuel + 1) data pre.length =
      .ok (.str (k.shown content), (k.tag :: (lengthBytes content.length ++ content)).length) := by
  have hin : ¬ pre.length ≥ data.length := by simp [h]
  have hread (show_ : Bytes → PyVal) := countedData_read show_ hshort h
  rw [parseDataFuel, if_neg hin, byteAt_here h]
  cases k <;> exact congrArg Except.ok (hread _)

theorem read_bits (count : ℕ) (content : {bs : Bytes // bs.length = (count + 7) / 8})
    (hcount : count ≤ 1) (h : data = pre ++ (4 :: (lengthBytes count ++ content.val) ++ post)) :
    parseDataFuel (fuel + 1) data pre.length =
      .ok (.str (hex content), ((4 : Byte) :: (lengthBytes count ++ content.val)).length) := by
  have hin : ¬ pre.length ≥ data.length := by simp [h]
  obtain ⟨content, hcontent⟩ := content
  -- one bit takes one byte
  obtain rfl : count = content.length := by omega
  rw [parseDataFuel, if_neg hin, byteAt_here h]
  have hshort : content.length < 128 := by omega
  exact congrArg Except.ok (countedData_read _ hshort h)

theorem rows_length (rows : List OadBytes) :
    (rows.map Subtype.val).flatten.length = 4 * rows.length := by
  induction rows with
  | nil => rfl
  | cons row rows ih =>
      rw [List.map_cons, List.flatten_cons, List.length_append, ih, row.property, List.length_cons]
      omega

theorem blocks_read {head : Bytes} (rows : List OadBytes) {start : ℕ} (hstart : start = head.length)
    (h : data = head ++ (rows.map Subtype.val).flatten ++ post) :
    (List.range rows.length).map (fun i => slice data (start + 4 * i) (start + 4 + 4 * i)) =
      rows.map Subtype.val := by
  induction rows generalizing head start with
  | nil => rfl
  | cons row rows ih =>
      have hparts : data = head ++ row.val ++ ((rows.map Subtype.val).flatten ++ post) := by simp [h]
      have hfirst : slice data start (start + 4) = row.val :=
        slice_of_parts hparts hstart (by rw [hstart, row.property])
      have hrest := @ih (head ++ row.val) (start + 4)
        (by rw [List.length_append, row.property, hstart]) (by simp [h])
      rw [List.length_cons, List.range_succ_eq_map, List.map_cons, List.map_map, List.map_cons,
        Nat.mul_zero, Nat.add_zero, Nat.add_zero, hfirst, ← hrest]
      refine congrArg (row.val :: ·) (List.map_congr_left fun i _ => ?_)
      simp only [Function.comp_apply, Nat.mul_succ]
      congr 1 <;> omega

theorem read_road (oad : OadBytes) (rows : List OadBytes) (hrows : rows.length < 128)
    (h : data = pre ++ ((Leaf.road oad rows).encode ++ post)) :
    parseDataFuel (fuel + 1) data pre.length =
      .ok ((Leaf.road oad rows).shown, (Leaf.road oad rows).encode.length) := by
  obtain ⟨oad, hoad⟩ := oad
  rw [Leaf.encode, lengthBytes_short hrows] at h ⊢
  have hin : ¬ pre.length ≥ data.length := by simp [h]
  have hlength : data.length = pre.length + 6 + 4 * rows.length + post.length := by
    rw [h]
    simp only [List.length_append, List.length_cons, List.length_nil, rows_length, hoad]
    omega
  have hoadRead : slice data (pre.length + 1) (pre.length + 5) = oad := by
    have hparts : data = (pre ++ [82]) ++ oad ++
      (byte rows.length :: (rows.map Subtype.val).flatten ++ post) := by simp [h]
    exact slice_of_parts hparts (by simp) (by simp [hoad])
  have hcount : index data (pre.length + 5) = .ok (byte rows.length) := by
    have hparts : data = (pre ++ [82] ++ oad) ++
      (byte rows.length :: (rows.map Subtype.val).flatten ++ post) := by simp [h]
    rw [index, hparts, List.getElem?_append_right (by simp [hoad])]
    simp [hoad]
    rfl
  have hrowsRead := @blocks_read data post (pre ++ [82] ++ oad ++ [byte rows.length]) rows
    (pre.length + 6) (by simp [hoad]) (by simp [h])
  have hval : (byte rows.length : ℕ) = rows.length := by
    rw [byte_val, Nat.mod_eq_of_lt (by omega)]
  have hshow : roadRows data pre.length rows.length = rows.map fun row => .str (hex row.val) := by
    have hmap := congrArg (List.map fun bs => PyVal.str (hex bs)) hrowsRead
    rw [List.map_map, List.map_map] at hmap
    rw [roadRows, if_pos (by omega)]
    exact hmap
  rw [parseDataFuel, if_neg hin, byteAt_here h]
  show (if pre.length + 1 ≥ data.length then _ else _) = _
  rw [if_neg (by omega)]
  dsimp only
  rw [hcount, hoadRead]
  show Except.ok _ = _
  refine congrArg Except.ok (Prod.ext ?_ ?_)
  · dsimp only [Leaf.shown]
    rw [hval, hshow]
  · simp only [List.length_append, List.length_cons, List.length_nil, rows_length, hoad, hval]
    omega

theorem read_leaf (l : Leaf) (hplain : l.Plain) (h : data = pre ++ (l.encode ++ post)) :
    parseDataFuel (fuel + 1) data pre.length = .ok (l.shown, l.encode.length) := by
  cases l with
  | null =>
      rw [parseDataFuel, if_neg (by simp [h, Leaf.encode]), byteAt_here h]
      rfl
  | bool b =>
      have hread (show_ : Bytes → PyVal) := fixedData_read show_ rfl h
      rw [parseDataFuel, if_neg (by simp [h, Leaf.encode]), byteAt_here h]
      refine congrArg Except.ok ((hread _).trans (Prod.ext (congrArg PyVal.bool ?_) rfl))
      cases b <;> rfl
  | int k n => exact read_int k n h
  | fixed k content => exact read_fixed k content h hplain
  | text k content => exact read_text k content hplain h
  | bits count content => exact read_bits count content hplain h
  | road oad rows => exact read_road oad rows hplain h
  | other tag content => exact hplain.elim

/-! ## Values that are shown wrong -/

theorem ieeeValue_ne_placeholder (exponentBits fractionBits : ℕ) (bs : Bytes) (s : String)
    (h : "nan" ≠ s ∧ "-inf" ≠ s ∧ "inf" ≠ s) : ieeeValue exponentBits fractionBits bs ≠ .str s := by
  unfold ieeeValue
  dsimp only
  split_ifs <;> simp [h]

theorem misread_float (k : FixedKind) (content : {bs : Bytes // bs.length = k.size})
    (h : data = pre ++ (k.tag :: content ++ post)) (hk : k.IsFloat) :
    ∃ s c, parseDataFuel (fuel + 1) data pre.length = .ok (.str s, c) ∧ .str s ≠ k.shown content := by
  have hin : ¬ pre.length ≥ data.length := by simp [h]
  have hread (show_ : Bytes → PyVal) := fixedData_read show_ content.property h
  rw [parseDataFuel, if_neg hin, byteAt_here h]
  rcases hk with rfl | rfl
  · exact ⟨_, _, congrArg Except.ok (hread _), (ieeeValue_ne_placeholder _ _ _ _ (by simp)).symm⟩
  · exact ⟨_, _, congrArg Except.ok (hread _), (ieeeValue_ne_placeholder _ _ _ _ (by simp)).symm⟩

theorem hex_ne_of_length {bs bs' : Bytes} (h : bs.length ≠ bs'.length) : hex bs ≠ hex bs' := by
  intro heq
  have hchars := congrArg (fun s : String => s.toList.length) heq
  rw [toList_hex, toList_hex, hexChars_length, hexChars_length] at hchars
  omega

theorem hex_ne_raw (bs : Bytes) : hex bs ≠ "<raw>" := by
  intro heq
  have hchars := congrArg (fun s : String => s.toList.length) heq
  rw [toList_hex, hexChars_length] at hchars
  have hfive : "<raw>".toList.length = 5 := rfl
  omega

theorem misread_bits (count : ℕ) (content : {bs : Bytes // bs.length = (count + 7) / 8})
    (hshort : count < 128) (hcount : ¬ count ≤ 1)
    (h : data = pre ++ (4 :: (lengthBytes count ++ content.val) ++ post)) :
    ∃ s c, parseDataFuel (fuel + 1) data pre.length = .ok (.str s, c) ∧ s ≠ hex content := by
  have hin : ¬ pre.length ≥ data.length := by simp [h]
  rw [lengthBytes_short hshort] at h
  have hbyte : (byteAt data (pre.length + 1) : ℕ) = count := by
    rw [byteAt_second h, byte_val, Nat.mod_eq_of_lt (by omega)]
  -- the announced bits are taken as bytes
  have hvalue : ∃ s c, countedData data pre.length (fun bs => .str (hex bs)) = (.str s, c) ∧
      s ≠ hex content := by
    rw [countedData, if_neg (by simp [h])]
    dsimp only
    rw [hbyte]
    split_ifs with hroom
    · refine ⟨_, _, rfl, hex_ne_of_length ?_⟩
      rw [slice_length, content.property]
      omega
    · exact ⟨_, _, rfl, (hex_ne_raw _).symm⟩
  obtain ⟨s, c, hread, hne⟩ := hvalue
  rw [parseDataFuel, if_neg hin, byteAt_here h]
  exact ⟨s, c, congrArg Except.ok hread, hne⟩

theorem misread_other (tag : {t : Byte // t ∉ parsedTags}) (content : Bytes) (hpost : post ≠ [])
    (h : data = pre ++ (tag.val :: content ++ post)) :
    ∃ s c, parseDataFuel (fuel + 1) data pre.length = .ok (.str s, c) ∧ s ≠ hex content := by
  obtain ⟨tag, htag⟩ := tag
  have hrest : data.drop (pre.length + 1) = content ++ post := by
    rw [h, List.drop_append]
    simp
  have hdefault : parseDataFuel (fuel + 1) data pre.length =
      .ok (.str (hex (content ++ post)), data.length - pre.length) := by
    rw [parseDataFuel, if_neg (by simp [h]), byteAt_here h, ← hrest]
    have hunknown (n : ℕ) (hn : (tag : ℕ) = n) : byte n ∉ parsedTags := by
      rwa [← hn, byte_of_val]
    split
    all_goals first
      | rfl
      | exact (hunknown _ ‹_› (by decide)).elim
  refine ⟨_, _, hdefault, hex_ne_of_length ?_⟩
  rw [List.length_append]
  have := List.length_pos_iff.mpr hpost
  omega

theorem misread_leaf (l : Leaf) (hshort : l.Short) (hplain : ¬ l.Plain) (hpost : post ≠ [])
    (h : data = pre ++ (l.encode ++ post)) :
    ∃ s c, parseDataFuel (fuel + 1) data pre.length = .ok (.str s, c) ∧ .str s ≠ l.shown := by
  cases l with
  | null | bool _ | int _ _ => exact absurd trivial hplain
  | fixed k content => exact misread_float k content h (not_not.mp hplain)
  | text k content => exact absurd hshort hplain
  | bits count content =>
      obtain ⟨s, c, hread, hne⟩ := misread_bits count content hshort hplain h
      exact ⟨s, c, hread, fun heq => hne (PyVal.str.inj heq)⟩
  | road oad rows => exact absurd hshort hplain
  | other tag content =>
      obtain ⟨s, c, hread, hne⟩ := misread_other tag content hpost h
      exact ⟨s, c, hread, fun heq => hne (PyVal.str.inj heq)⟩

theorem Leaf.encode_pos (l : Leaf) : 0 < l.encode.length := by
  cases l <;> simp [Leaf.encode]

/-! ## Nested values -/

theorem read_seq (k : SeqKind) {items : Bytes} {count : ℕ} (hcount : count < 128)
    (h : data = pre ++ (k.tag :: (lengthBytes count ++ items) ++ post)) :
    parseDataFuel (fuel + 1) data pre.length =
      (elements (parseDataFuel fuel data) count (pre.length + 2) >>= fun r =>
        pure (.list r.1, r.2 - pre.length)) := by
  rw [lengthBytes_short hcount] at h
  have hbyte : (byteAt data (pre.length + 1) : ℕ) = count := by
    rw [byteAt_second h, byte_val, Nat.mod_eq_of_lt (by omega)]
  have hin : ¬ pre.length + 1 ≥ data.length := by simp [h]
  rw [parseDataFuel, if_neg (by omega), byteAt_here h]
  cases k
  all_goals
    show (if pre.length + 1 ≥ data.length then _ else _) = _
    rw [if_neg hin]
    dsimp only
    rw [hbyte]

end Reads

mutual

theorem Axdr.induct {motive : Axdr → Prop} (leaf : ∀ l, motive (.leaf l))
    (seq : ∀ k items, (∀ d ∈ items, motive d) → motive (.seq k items)) : ∀ d, motive d
  | .leaf l => leaf l
  | .seq k items => seq k items (inductAll leaf seq items)

theorem inductAll {motive : Axdr → Prop} (leaf : ∀ l, motive (.leaf l))
    (seq : ∀ k items, (∀ d ∈ items, motive d) → motive (.seq k items)) :
    ∀ ds : List Axdr, ∀ d ∈ ds, motive d
  | [] => fun _ hd => absurd hd List.not_mem_nil
  | d :: ds => List.forall_mem_cons.mpr ⟨Axdr.induct leaf seq d, inductAll leaf seq ds⟩

end

theorem allPlain_iff (ds : List Axdr) : AllPlain ds ↔ ∀ d ∈ ds, d.Plain := by
  induction ds with
  | nil => exact iff_of_true trivial (fun _ hd => absurd hd List.not_mem_nil)
  | cons d ds ih => rw [AllPlain, ih, List.forall_mem_cons]

theorem allShort_iff (ds : List Axdr) : AllShort ds ↔ ∀ d ∈ ds, d.Short := by
  induction ds with
  | nil => exact iff_of_true trivial (fun _ hd => absurd hd List.not_mem_nil)
  | cons d ds ih => rw [AllShort, ih, List.forall_mem_cons]

theorem encode_le_encodeAll {d : Axdr} {ds : List Axdr} (h : d ∈ ds) :
    d.encode.length ≤ (encodeAll ds).length := by
  induction ds with
  | nil => exact absurd h List.not_mem_nil
  | cons e es ih =>
      rw [encodeAll, List.length_append]
      rcases List.mem_cons.mp h with rfl | hmem
      · omega
      · have := ih hmem
        omega

/-- `read` takes `d` for what it is wherever `data` holds its encoding. -/
def Reads (read : ℕ → PyM (PyVal × ℕ)) (data : Bytes) (d : Axdr) : Prop :=
  ∀ pre post, data = pre ++ (d.encode ++ post) → read pre.length = .ok (d.shown, d.encode.length)

/-- A value that no scale changes. -/
def Unscaled : PyVal → Prop
  | .str _ | .list _ | .dict _ => True
  | _ => False

/-- `read` takes `d` for another value wherever more bytes follow it. -/
def Misreads (read : ℕ → PyM (PyVal × ℕ)) (data : Bytes) (d : Axdr) : Prop :=
  ∀ pre post, post ≠ [] → data = pre ++ (d.encode ++ post) →
    ∀ v c, read pre.length = .ok (v, c) → v ≠ d.shown ∧ Unscaled v

section Elements
variable {read : ℕ → PyM (PyVal × ℕ)} {data : Bytes}

theorem elements_read (ds : List Axdr) (hread : ∀ d ∈ ds, Reads read data d) {pre post : Bytes}
    (h : data = pre ++ (encodeAll ds ++ post)) :
    elements read ds.length pre.length =
      .ok (shownAll ds, pre.length + (encodeAll ds).length) := by
  induction ds generalizing pre with
  | nil => rfl
  | cons d ds ih =>
      rw [encodeAll] at h
      have hhead := hread d List.mem_cons_self pre (encodeAll ds ++ post) (by simp [h])
      have hrest := @ih (fun d' hd' => hread d' (List.mem_cons_of_mem _ hd')) (pre ++ d.encode)
        (by simp [h])
      rw [List.length_append] at hrest
      rw [List.length_cons, elements, hhead]
      show (elements read ds.length (pre.length + d.encode.length) >>= _) = _
      rw [hrest, encodeAll, List.length_append, ← Nat.add_assoc]
      rfl

/-- The first value that is not plain is shown wrong at its own place. -/
theorem elements_misread (ds : List Axdr) (hread : ∀ d ∈ ds, d.Plain → Reads read data d)
    (hmis : ∀ d ∈ ds, ¬ d.Plain → Misreads read data d) (hplain : ¬ AllPlain ds)
    {pre post : Bytes} (hpost : post ≠ []) (h : data = pre ++ (encodeAll ds ++ post))
    {vs : List PyVal} {p : ℕ} (hok : elements read ds.length pre.length = .ok (vs, p)) :
    vs ≠ shownAll ds := by
  induction ds generalizing pre vs p with
  | nil => exact absurd trivial hplain
  | cons d ds ih =>
      rw [encodeAll] at h
      have hparts : data = pre ++ (d.encode ++ (encodeAll ds ++ post)) := by simp [h]
      rw [List.length_cons, elements] at hok
      obtain ⟨⟨v, c⟩, hhead, hok⟩ := bind_eq_ok hok
      obtain ⟨⟨vs', p'⟩, htail, hok⟩ := bind_eq_ok hok
      obtain ⟨rfl, -⟩ := Prod.mk.inj (Except.ok.inj hok)
      rw [shownAll]
      intro heq
      obtain ⟨hv, hvs⟩ := List.cons.inj heq
      by_cases hd : d.Plain
      · have hhere := hread d List.mem_cons_self hd pre _ hparts
        rw [hhead] at hhere
        obtain ⟨-, rfl⟩ := Prod.mk.inj (Except.ok.inj hhere)
        rw [← List.length_append] at htail
        exact ih (fun d' hd' => hread d' (List.mem_cons_of_mem _ hd'))
          (fun d' hd' => hmis d' (List.mem_cons_of_mem _ hd')) (fun hall => hplain ⟨hd, hall⟩)
          (by simp [h]) htail hvs
      · exact hmis d List.mem_cons_self hd pre _ (by simp [hpost]) hparts v c hhead |>.1 hv

end Elements

section Values
variable {data : Bytes}

/-- Plain data are read where they stand, and the reader stops behind them. -/
theorem read_plain (d : Axdr) {fuel : ℕ} (hfuel : d.encode.length ≤ fuel) (hplain : d.Plain) :
    Reads (parseDataFuel fuel data) data d := by
  induction d using Axdr.induct generalizing fuel with
  | leaf l =>
      intro pre post h
      rw [Axdr.encode] at h hfuel ⊢
      have hpos := l.encode_pos
      obtain ⟨fuel, rfl⟩ := Nat.exists_eq_add_one_of_ne_zero (show fuel ≠ 0 by omega)
      exact read_leaf l hplain h
  | seq k items ih =>
      intro pre post h
      obtain ⟨hcount, hall⟩ := hplain
      rw [Axdr.encode] at h hfuel ⊢
      rw [List.length_cons, List.length_append] at hfuel
      obtain ⟨fuel, rfl⟩ := Nat.exists_eq_add_one_of_ne_zero (show fuel ≠ 0 by omega)
      have hitems : ∀ d ∈ items, Reads (parseDataFuel fuel data) data d := by
        intro d hd
        have hsize := encode_le_encodeAll hd
        exact ih d hd (by omega) ((allPlain_iff items).mp hall d hd)
      have hparts : data = (pre ++ (k.tag :: lengthBytes items.length)) ++
          (encodeAll items ++ post) := by simp [h]
      have hread := elements_read items hitems hparts
      rw [lengthBytes_short hcount, List.length_append, List.length_cons, List.length_singleton]
        at hread
      rw [read_seq k hcount h, hread, lengthBytes_short hcount]
      refine congrArg Except.ok (Prod.ext rfl ?_)
      simp only [List.length_cons, List.length_append, List.length_nil]
      omega

theorem misread_short (d : Axdr) {fuel : ℕ} (hfuel : d.encode.length ≤ fuel) (hshort : d.Short)
    (hplain : ¬ d.Plain) : Misreads (parseDataFuel fuel data) data d := by
  induction d using Axdr.induct generalizing fuel with
  | leaf l =>
      intro pre post hpost h v c hok
      rw [Axdr.encode] at h hfuel
      have hpos := l.encode_pos
      obtain ⟨fuel, rfl⟩ := Nat.exists_eq_add_one_of_ne_zero (show fuel ≠ 0 by omega)
      obtain ⟨s, c', hread, hne⟩ := misread_leaf l hshort hplain hpost h
      obtain ⟨rfl, -⟩ := Prod.mk.inj (Except.ok.inj (hok.symm.trans hread))
      exact ⟨hne, trivial⟩
  | seq k items ih =>
      intro pre post hpost h v c hok
      obtain ⟨hcount, hall⟩ := hshort
      have hnot : ¬ AllPlain items := fun hp => hplain ⟨hcount, hp⟩
      rw [Axdr.encode] at h hfuel
      rw [List.length_cons, List.length_append] at hfuel
      obtain ⟨fuel, rfl⟩ := Nat.exists_eq_add_one_of_ne_zero (show fuel ≠ 0 by omega)
      have hsize (d : Axdr) (hd : d ∈ items) : d.encode.length ≤ fuel := by
        have := encode_le_encodeAll hd
        omega
      have hparts : data = (pre ++ [k.tag, byte items.length]) ++ (encodeAll items ++ post) := by
        rw [h, lengthBytes_short hcount]
        simp
      rw [read_seq k hcount h] at hok
      obtain ⟨⟨vs, p⟩, helements, hok⟩ := bind_eq_ok hok
      obtain ⟨rfl, -⟩ := Prod.mk.inj (Except.ok.inj hok)
      rw [show pre.length + 2 = (pre ++ [k.tag, byte items.length]).length by simp] at helements
      have hne := elements_misread items (fun d hd hp => read_plain d (hsize d hd) hp)
        (fun d hd hp => ih d hd (hsize d hd) ((allShort_iff items).mp hall d hd) hp) hnot hpost
        hparts helements
      exact ⟨fun heq => hne (PyVal.list.inj heq), trivial⟩

end Values
end HplcWorkbench.Adapter698
