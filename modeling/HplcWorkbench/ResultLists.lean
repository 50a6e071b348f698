import HplcWorkbench.AxdrReads

/-!
# Result lists of a GET response

`GetResponseNormalList` carries one result for each requested attribute, data or an error code.
The loop consumes the data of a result but neither shows nor consumes an error code.
-/

namespace HplcWorkbench.Adapter698

inductive ResultEntry
  | data (oad : OadBytes) (value : Axdr)
  | error (oad : OadBytes) (dar : Byte)

/-- `v` divided by ten to the `scale`. -/
def scaledShown (scale : ℕ) : PyVal → PyVal
  | .scaled mantissa digits => .scaled mantissa (digits + scale)
  | v => scaleValue scale v

namespace ResultEntry

def oad : ResultEntry → Bytes
  | data oad _ | error oad _ => oad.val

def encode : ResultEntry → Bytes
  | data oad value => oad.val ++ 1 :: value.encode
  | error oad dar => oad.val ++ [0, dar]

/-- The error text is the one of `GetResponseNormal`. -/
def shown (scale : ℕ) : ResultEntry → PyVal
  | data _ value => scaledShown scale value.shown
  | error _ dar => .str (if dar ≠ 0 then "错误(" ++ hex0x dar ++ ")" else "错误")

/-- The results that are reported as they were sent. A single null is shown as its attribute. -/
def Plain : ResultEntry → Prop
  | data _ value => value.Plain ∧ value ≠ .leaf .null
  | error _ _ => False

def Short : ResultEntry → Prop
  | data _ value => value.Short
  | error _ _ => True

end ResultEntry

def encodeEntries (es : List ResultEntry) : Bytes := es.flatMap ResultEntry.encode

/-- The APDU of a list. The follow report and the time tag end it. -/
def resultListApdu (piid : Byte) (es : List ResultEntry) (follow : Byte) (more : Bytes) : Bytes :=
  [0x85, 0x02, piid] ++ lengthBytes es.length ++ encodeEntries es ++ follow :: more

/-- The scale that the metadata give an attribute. -/
def scaleOf (store : MetadataStore) (oad : Bytes) : ℕ :=
  match store "698.45" (oadKey oad) with
  | some entry => entry.scale.getD 0
  | none => 0

/-- An item reports the attribute and the value or error code of an entry. -/
def Reports (store : MetadataStore) (e : ResultEntry) (item : DataField) : Prop :=
  item.raw = .str (oadKey e.oad) ∧ item.value = e.shown (scaleOf store e.oad)

/-- Every entry is reported, in order, and nothing else is. -/
def Faithful (store : MetadataStore) (piid : Byte) (es : List ResultEntry) (follow : Byte)
    (more : Bytes) : Prop :=
  ∃ out, parseApdu store (resultListApdu piid es follow more) = .ok out ∧
    List.Forall₂ (Reports store) es out.items

def PlainList (es : List ResultEntry) : Prop := es.length < 128 ∧ ∀ e ∈ es, e.Plain

def ShortList (es : List ResultEntry) : Prop := es.length < 128 ∧ ∀ e ∈ es, e.Short

/-! ## One item -/

/-- The value of the item for a value that was read. -/
def itemValue (store : MetadataStore) (oad : Bytes) (value : PyVal) : PyVal :=
  match scaleValue (scaleOf store oad) value with
  | .none => .str (oadKey oad)
  | v => v

theorem addOadItem_item (store : MetadataStore) {oad : Bytes} (hoad : oad.length = 4)
    (value : PyVal) : ∃ item, addOadItem store oad value none = .ok (outItem item) ∧
      item.raw = .str (oadKey oad) ∧ item.value = itemValue store oad value := by
  have hattr : index oad 2 = .ok oad[2] := index_eq_ok (by omega)
  have hidx : index oad 3 = .ok oad[3] := index_eq_ok (by omega)
  have hvalue : ∀ scale, scaleOf store oad = scale → itemValue store oad value =
      match scaleValue scale value with
      | .none => .str (oadKey oad)
      | v => v := by
    rintro _ rfl
    exact rfl
  unfold addOadItem
  rw [hattr, hidx]
  cases hentry : store "698.45" (oadKey oad) with
  | some entry =>
      have hscale : scaleOf store oad = entry.scale.getD 0 := by
        simp only [scaleOf, hentry]
      refine ⟨_, rfl, rfl, ?_⟩
      simp only [hentry]
      exact (hvalue _ hscale).symm
  | none =>
      have hscale : scaleOf store oad = 0 := by
        simp only [scaleOf, hentry]
      refine ⟨_, rfl, rfl, ?_⟩
      simp only [hentry]
      exact (hvalue _ hscale).symm

theorem Axdr.shown_of_plain {value : Axdr} (h : value.Plain) (hnull : value ≠ .leaf .null) :
    value.shown ≠ .none ∧ ∀ m digits, value.shown ≠ .scaled m digits := by
  cases value with
  | seq k items => exact ⟨nofun, nofun⟩
  | leaf l =>
      cases l with
      | null => exact absurd rfl hnull
      | fixed k content =>
          cases k with
          | float32 => exact absurd (.inl rfl) h
          | float64 => exact absurd (.inr rfl) h
          | _ => exact ⟨nofun, nofun⟩
      | _ => exact ⟨nofun, nofun⟩

theorem itemValue_of_shown (store : MetadataStore) (oad : Bytes) {v : PyVal} (hnone : v ≠ .none)
    (hscaled : ∀ m digits, v ≠ .scaled m digits) :
    itemValue store oad v = scaledShown (scaleOf store oad) v := by
  unfold itemValue
  cases v with
  | none => exact absurd rfl hnone
  | scaled m digits => exact absurd rfl (hscaled m digits)
  | _ => simp only [scaledShown, scaleValue]; split_ifs <;> rfl

theorem itemValue_of_unscaled (store : MetadataStore) (oad : Bytes) {v : PyVal} (h : Unscaled v) :
    itemValue store oad v = v := by
  unfold itemValue
  cases v with
  | str s | list vs | dict entries => simp only [scaleValue, ite_self]
  | _ => exact h.elim

/-- No scale turns a value into a text or a list. -/
theorem eq_of_scaledShown {scale : ℕ} {v w : PyVal} (h : Unscaled v)
    (heq : scaledShown scale w = v) : w = v := by
  subst heq
  cases w with
  | scaled m digits => exact h.elim
  | none | bool b | int n =>
      simp only [scaledShown, scaleValue] at h
      split_ifs at h <;> exact h.elim
  | str s | list vs | dict entries => simp only [scaledShown, scaleValue, ite_self]

/-! ## The loop -/

section Loop
variable {store : MetadataStore} {apdu : Bytes}

theorem getResultLoop_step {pre post : Bytes} {oad : Bytes} (hoad : oad.length = 4) (tag : Byte)
    (count : ℕ) (h : apdu = pre ++ (oad ++ tag :: post)) :
    getResultLoop store apdu (count + 1) pre.length =
      (if tag = 1 then do
        let (val, consumed) ← parseData apdu (pre ++ oad ++ [1]).length
        let here ← addOadItem store oad val none
        let rest ← getResultLoop store apdu count ((pre ++ oad ++ [1]).length + consumed)
        pure (here ++ rest)
      else do
        let here ← addOadItem store oad .none none
        let rest ← getResultLoop store apdu count (pre ++ oad).length
        pure (here ++ rest)) := by
  have hlength : apdu.length = pre.length + 4 + (post.length + 1) := by
    simp [h, hoad]
    omega
  have hread : slice apdu pre.length (pre.length + 4) = oad :=
    @slice_of_parts _ _ _ _ _ (tag :: post) (by simp [h]) rfl (by rw [hoad])
  have hsize : (pre ++ oad).length = pre.length + 4 := by rw [List.length_append, hoad]
  have htag : byteAt apdu (pre.length + 4) = tag := by
    rw [← hsize]
    exact @byteAt_here _ _ post _ [] (by simp [h])
  have hnext : (pre ++ oad ++ [1]).length = pre.length + 4 + 1 := by
    rw [List.length_append, hsize, List.length_singleton]
  rw [getResultLoop, if_neg (by omega)]
  dsimp only
  rw [hread, htag, hsize, hnext]
  by_cases hone : tag = 1
  · rw [if_pos ⟨by omega, hone⟩, if_pos hone]
  · rw [if_neg (fun hc => hone hc.2), if_neg hone]

/-- A plain result gives its item, and the loop goes on behind it. -/
theorem loop_plain {pre post : Bytes} {e : ResultEntry} (hplain : e.Plain) (count : ℕ)
    (h : apdu = pre ++ (e.encode ++ post)) : ∃ item, Reports store e item ∧
      getResultLoop store apdu (count + 1) pre.length =
        (getResultLoop store apdu count (pre ++ e.encode).length >>= fun rest =>
          pure (outItem item ++ rest)) := by
  cases e with
  | error oad dar => exact hplain.elim
  | data oad value =>
      obtain ⟨hvalue, hnull⟩ := hplain
      obtain ⟨hnone, hscaled⟩ := Axdr.shown_of_plain hvalue hnull
      have hparts : apdu = (pre ++ oad.val ++ [1]) ++ (value.encode ++ post) := by
        simp [h, ResultEntry.encode]
      have hread : parseData apdu (pre ++ oad.val ++ [1]).length =
          .ok (value.shown, value.encode.length) := by
        have hfuel : value.encode.length ≤ apdu.length + 1 := by
          have hlength := congrArg List.length hparts
          simp only [List.length_append] at hlength
          omega
        exact read_plain value hfuel hvalue _ _ hparts
      obtain ⟨item, hitem, hraw, hval⟩ := addOadItem_item store oad.property value.shown
      refine ⟨item, ⟨hraw, ?_⟩, ?_⟩
      · rw [hval, itemValue_of_shown store oad.val hnone hscaled]
        rfl
      · rw [@getResultLoop_step _ _ _ (value.encode ++ post) _ oad.property 1 count
          (by simp [h, ResultEntry.encode]), if_pos rfl, hread]
        have hnext : (pre ++ (ResultEntry.data oad value).encode).length =
            (pre ++ oad.val ++ [1]).length + value.encode.length := by
          simp [ResultEntry.encode]
          omega
        rw [hnext]
        show (addOadItem store oad.val value.shown none >>= _) = _
        rw [hitem]
        rfl

/-- An attribute is printed in digits, an error in words. -/
theorem oadKey_ne_error (oad : Bytes) (scale : ℕ) (oad' : OadBytes) (dar : Byte) :
    PyVal.str (oadKey oad) ≠ (ResultEntry.error oad' dar).shown scale := by
  intro heq
  have hchars := congrArg String.toList (PyVal.str.inj heq)
  have hmem : '错' ∈ (if dar ≠ 0 then "错误(" ++ hex0x dar ++ ")" else "错误").toList := by
    split_ifs <;> simp
  rw [← hchars, oadKey, toList_upper_hex] at hmem
  obtain ⟨n, hn, hdigit⟩ := mem_upperChars _ hmem
  have hvalue := hexDigitValue_upper hn
  rw [← hdigit] at hvalue
  exact nomatch hvalue

/-- Any other result with short counts gives an item that does not report it. -/
theorem loop_other {pre post : Bytes} {e : ResultEntry} (hshort : e.Short) (hplain : ¬ e.Plain)
    (hpost : post ≠ []) (count : ℕ) (h : apdu = pre ++ (e.encode ++ post)) {out : ApduOut}
    (hok : getResultLoop store apdu (count + 1) pre.length = .ok out) :
    ∃ item items, out.items = item :: items ∧ ¬ Reports store e item := by
  cases e with
  | error oad dar =>
      rw [@getResultLoop_step _ _ _ (dar :: post) _ oad.property 0 count
        (by simp [h, ResultEntry.encode]), if_neg (by decide)] at hok
      obtain ⟨here, hhere, hok⟩ := bind_eq_ok hok
      obtain ⟨rest, -, hok⟩ := bind_eq_ok hok
      obtain ⟨item, hitem, -, hval⟩ := addOadItem_item store oad.property .none
      rw [hitem] at hhere
      obtain rfl := Except.ok.inj hhere
      obtain rfl := Except.ok.inj hok
      refine ⟨item, rest.items, rfl, fun hrep => ?_⟩
      have hkey : itemValue store oad.val .none = .str (oadKey oad.val) := by
        unfold itemValue
        simp only [scaleValue, ite_self]
      exact oadKey_ne_error oad.val _ oad dar (hkey.symm.trans (hval.symm.trans hrep.2))
  | data oad value =>
      have hparts : apdu = (pre ++ oad.val ++ [1]) ++ (value.encode ++ post) := by
        simp [h, ResultEntry.encode]
      rw [@getResultLoop_step _ _ _ (value.encode ++ post) _ oad.property 1 count
        (by simp [h, ResultEntry.encode]), if_pos rfl] at hok
      obtain ⟨⟨v, c⟩, hread, hok⟩ := bind_eq_ok hok
      obtain ⟨here, hhere, hok⟩ := bind_eq_ok hok
      obtain ⟨rest, -, hok⟩ := bind_eq_ok hok
      obtain ⟨item, hitem, -, hval⟩ := addOadItem_item store oad.property v
      rw [hitem] at hhere
      obtain rfl := Except.ok.inj hhere
      obtain rfl := Except.ok.inj hok
      refine ⟨item, rest.items, rfl, fun hrep => ?_⟩
      have hshown : itemValue store oad.val v =
          scaledShown (scaleOf store oad.val) value.shown := hval.symm.trans hrep.2
      have hfuel : value.encode.length ≤ apdu.length + 1 := by
        have hlength := congrArg List.length hparts
        simp only [List.length_append] at hlength
        omega
      by_cases hvalue : value.Plain
      · -- a null is shown as the attribute it belongs to
        obtain rfl : value = .leaf .null := not_not.mp fun hne => hplain ⟨hvalue, hne⟩
        have hnull := read_plain _ hfuel hvalue _ _ hparts
        obtain ⟨rfl, -⟩ := Prod.mk.inj (Except.ok.inj (hread.symm.trans hnull))
        simp only [itemValue, scaledShown, scaleValue, Axdr.shown, Leaf.shown, ite_self] at hshown
        exact PyVal.noConfusion hshown
      · obtain ⟨hne, hunscaled⟩ := misread_short value hfuel hshort hvalue _ _ hpost hparts v c hread
        rw [itemValue_of_unscaled store oad.val hunscaled] at hshown
        exact hne (eq_of_scaledShown hunscaled hshown.symm).symm

theorem loop_faithful (es : List ResultEntry) (hplain : ∀ e ∈ es, e.Plain) {pre post : Bytes}
    (h : apdu = pre ++ (encodeEntries es ++ post)) : ∃ out,
      getResultLoop store apdu es.length pre.length = .ok out ∧
        List.Forall₂ (Reports store) es out.items := by
  induction es generalizing pre with
  | nil => exact ⟨_, rfl, .nil⟩
  | cons e es ih =>
      obtain ⟨hhead, htail⟩ := List.forall_mem_cons.mp hplain
      obtain ⟨item, hitem, hstep⟩ := @loop_plain store _ _ (encodeEntries es ++ post) _ hhead es.length
        (by simpa [encodeEntries] using h)
      obtain ⟨rest, hrest, hall⟩ := @ih htail (pre ++ e.encode)
        (by simpa [encodeEntries] using h)
      refine ⟨outItem item ++ rest, ?_, .cons hitem hall⟩
      rw [List.length_cons, hstep, hrest]
      rfl

theorem loop_unfaithful (es : List ResultEntry) (hshort : ∀ e ∈ es, e.Short)
    (hplain : ¬ ∀ e ∈ es, e.Plain) {pre post : Bytes} (hpost : post ≠ [])
    (h : apdu = pre ++ (encodeEntries es ++ post)) {out : ApduOut}
    (hok : getResultLoop store apdu es.length pre.length = .ok out) :
    ¬ List.Forall₂ (Reports store) es out.items := by
  induction es generalizing pre out with
  | nil => exact absurd (fun _ he => absurd he List.not_mem_nil) hplain
  | cons e es ih =>
      obtain ⟨hhead, htail⟩ := List.forall_mem_cons.mp hshort
      have hparts : apdu = pre ++ (e.encode ++ (encodeEntries es ++ post)) := by
        simpa [encodeEntries] using h
      by_cases he : e.Plain
      · obtain ⟨item, -, hstep⟩ := @loop_plain store _ _ _ _ he es.length hparts
        rw [List.length_cons, hstep] at hok
        obtain ⟨rest, hrest, hok⟩ := bind_eq_ok hok
        obtain rfl := Except.ok.inj hok
        intro hall
        have hwrong := ih htail (fun hp => hplain (List.forall_mem_cons.mpr ⟨he, hp⟩))
          (by simpa [encodeEntries] using h) hrest
        exact hwrong (List.forall₂_cons.mp hall).2
      · obtain ⟨item, items, hitems, hwrong⟩ := loop_other hhead he (by simp [hpost]) es.length
          hparts hok
        rw [hitems]
        exact fun hall => hwrong (List.forall₂_cons.mp hall).1

theorem itemFirst_le (item : DataField) {rest : ApduOut} {count : ℕ}
    (h : rest.items.length ≤ count) : (outItem item ++ rest).items.length ≤ count + 1 :=
  Nat.succ_le_succ h

/-- The loop makes at most one item for each result that the count announces. -/
theorem getResultLoop_length (count pos : ℕ) {out : ApduOut}
    (hok : getResultLoop store apdu count pos = .ok out) : out.items.length ≤ count := by
  induction count generalizing pos out with
  | zero =>
      obtain rfl := Except.ok.inj hok
      exact le_rfl
  | succ count ih =>
      rw [getResultLoop] at hok
      by_cases hend : pos + 4 > apdu.length
      · rw [if_pos hend] at hok
        obtain rfl := Except.ok.inj hok
        exact Nat.zero_le _
      have hoad : (slice apdu pos (pos + 4)).length = 4 := by
        rw [slice_length]
        omega
      rw [if_neg hend] at hok
      dsimp only at hok
      by_cases htag : pos + 4 < apdu.length ∧ byteAt apdu (pos + 4) = 1
      · rw [if_pos htag] at hok
        obtain ⟨⟨v, c⟩, -, hok⟩ := bind_eq_ok hok
        obtain ⟨here, hhere, hok⟩ := bind_eq_ok hok
        obtain ⟨rest, hrest, hok⟩ := bind_eq_ok hok
        obtain ⟨item, hitem, -⟩ := addOadItem_item store hoad v
        obtain rfl := Except.ok.inj (hhere.symm.trans hitem)
        obtain rfl := Except.ok.inj hok
        exact itemFirst_le item (ih _ hrest)
      · rw [if_neg htag] at hok
        obtain ⟨here, hhere, hok⟩ := bind_eq_ok hok
        obtain ⟨rest, hrest, hok⟩ := bind_eq_ok hok
        obtain ⟨item, hitem, -⟩ := addOadItem_item store hoad .none
        obtain rfl := Except.ok.inj (hhere.symm.trans hitem)
        obtain rfl := Except.ok.inj hok
        exact itemFirst_le item (ih _ hrest)

end Loop

/-! ## The APDU -/

theorem parseApdu_resultList (store : MetadataStore) {apdu rest : Bytes} {piid count : Byte}
    (h : apdu = 0x85 :: 0x02 :: piid :: count :: rest) :
    ∃ fields, parseApdu store apdu =
      (getResultLoop store apdu count 4 >>= fun items => pure (outFields fields ++ items)) := by
  have hlength : 4 ≤ apdu.length := by simp [h]
  have htag : index apdu 0 = .ok 0x85 := by rw [h]; rfl
  have htype : byteAt apdu 1 = 2 := by rw [h]; rfl
  have hcount : byteAt apdu 3 = count := by rw [h]; rfl
  have hresponse : parseApdu store apdu = parseGetResponse store apdu := by
    rw [parseApdu, parseApduFuel, htag]
    rfl
  rw [hresponse, parseGetResponse, if_neg (by omega)]
  dsimp only
  rw [htype, hcount, if_neg (by simp), if_pos ⟨rfl, hlength⟩]
  exact ⟨_, rfl⟩

/-- The long form of a count stands for a smaller count where the first byte is taken for it. -/
theorem lengthBytes_long {n : ℕ} (h : 130 ≤ n) :
    ∃ first rest, lengthBytes n = first :: rest ∧ (first : ℕ) < n := by
  refine ⟨_, _, if_neg (by omega), ?_⟩
  have hpow : 256 ^ Nat.log 256 n ≤ n := Nat.pow_log_le_self 256 (by omega)
  have hgrow : Nat.log 256 n < 2 ^ Nat.log 256 n := Nat.lt_two_pow_self
  rw [byte_val]
  rcases Nat.eq_zero_or_pos (Nat.log 256 n) with hzero | hpos
  · rw [hzero]
    omega
  · have hlarge : 256 ^ 1 ≤ n := (Nat.pow_le_pow_right (by decide) hpos).trans hpow
    exact lt_of_lt_of_le (Nat.mod_lt _ (by decide)) hlarge

theorem longList_unfaithful (store : MetadataStore) (piid : Byte) {es : List ResultEntry}
    (follow : Byte) (more : Bytes) (hlong : 130 ≤ es.length) :
    ¬ Faithful store piid es follow more := by
  rintro ⟨out, hok, hall⟩
  obtain ⟨first, rest, hcount, hlt⟩ := lengthBytes_long hlong
  obtain ⟨fields, hparse⟩ := @parseApdu_resultList store (resultListApdu piid es follow more)
    (rest ++ encodeEntries es ++ follow :: more) piid first (by simp [resultListApdu, hcount])
  rw [hparse] at hok
  obtain ⟨items, hloop, hok⟩ := bind_eq_ok hok
  obtain rfl := Except.ok.inj hok
  have hitems := getResultLoop_length _ _ hloop
  have hlength := hall.length_eq
  have : (outFields fields ++ items).items.length = items.items.length := rfl
  omega

section Short
variable (store : MetadataStore) (piid : Byte) {es : List ResultEntry} (follow : Byte)
  (more : Bytes)

theorem parseApdu_shortCount (hcount : es.length < 128) : ∃ fields,
    parseApdu store (resultListApdu piid es follow more) =
      (getResultLoop store (resultListApdu piid es follow more) es.length 4 >>= fun items =>
        pure (outFields fields ++ items)) ∧
    resultListApdu piid es follow more =
      [0x85, 0x02, piid, byte es.length] ++ (encodeEntries es ++ follow :: more) := by
  have hparts : resultListApdu piid es follow more =
      [0x85, 0x02, piid, byte es.length] ++ (encodeEntries es ++ follow :: more) := by
    simp [resultListApdu, lengthBytes_short hcount]
  obtain ⟨fields, hparse⟩ := parseApdu_resultList store hparts
  rw [byte_val, Nat.mod_eq_of_lt (by omega)] at hparse
  exact ⟨fields, hparse, hparts⟩

theorem faithful_of_plain (h : PlainList es) : Faithful store piid es follow more := by
  obtain ⟨hcount, hplain⟩ := h
  obtain ⟨fields, hparse, hparts⟩ := parseApdu_shortCount store piid follow more hcount
  obtain ⟨out, hloop, hall⟩ := @loop_faithful store _ es hplain _ _ hparts
  refine ⟨outFields fields ++ out, ?_, hall⟩
  rw [hparse]
  exact congrArg (· >>= _) hloop

theorem plain_of_faithful (h : ShortList es) (hfaithful : Faithful store piid es follow more) :
    PlainList es := by
  obtain ⟨hcount, hshort⟩ := h
  obtain ⟨out, hok, hall⟩ := hfaithful
  obtain ⟨fields, hparse, hparts⟩ := parseApdu_shortCount store piid follow more hcount
  refine ⟨hcount, by_contra fun hplain => ?_⟩
  rw [hparse] at hok
  obtain ⟨items, hloop, hok⟩ := bind_eq_ok hok
  obtain rfl := Except.ok.inj hok
  exact loop_unfaithful es hshort hplain (List.cons_ne_nil _ _) hparts hloop hall

end Short

/-- A list is reported as it was sent when all its results are plain, and among the lists whose
counts all fit one byte only then: the first other result gets an item that is not its own. No list
of 130 or more results is reported. -/
theorem resultList_faithful_iff (store : MetadataStore) (piid : Byte) (es : List ResultEntry)
    (follow : Byte) (more : Bytes) :
    (PlainList es → Faithful store piid es follow more) ∧
      (ShortList es → Faithful store piid es follow more → PlainList es) ∧
      (130 ≤ es.length → ¬ Faithful store piid es follow more) :=
  ⟨faithful_of_plain store piid follow more, plain_of_faithful store piid follow more,
    longList_unfaithful store piid follow more⟩

/-- An error code before a number. -/
def mixedResults : List ResultEntry :=
  [.error ⟨[0x20, 0x00, 0x02, 0x00], rfl⟩ 4,
    .data ⟨[0x00, 0x10, 0x02, 0x00], rfl⟩ (.leaf (.int .unsigned ⟨5, ⟨by decide, by decide⟩⟩))]

theorem mixedResults_unfaithful : ¬ ∀ (store : MetadataStore) (piid : Byte)
    (es : List ResultEntry) (follow : Byte) (more : Bytes), Faithful store piid es follow more := by
  intro hall
  have hshort : ShortList mixedResults :=
    ⟨by decide, List.forall_mem_cons.mpr ⟨trivial, List.forall_mem_singleton.mpr trivial⟩⟩
  have hplain := plain_of_faithful (fun _ _ => none) 0 0 [0] hshort (hall _ _ mixedResults _ _)
  exact hplain.2 _ List.mem_cons_self

end HplcWorkbench.Adapter698
