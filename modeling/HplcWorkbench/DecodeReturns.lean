import HplcWorkbench.ApduReads
import HplcWorkbench.RoundTrip645

/-!
# Which 1376.2 frames are decoded

The header walk and most data units never fail. What fails is a data unit whose length test is too
weak for what it indexes, and an embedded frame that its own decoder cannot read.
-/

namespace HplcWorkbench
open ExactOutcomes

/-! ## Embedded 645 frames -/

namespace Adapter645
open Facade (FitsFloat funcOf dataItems_spec)

section Cut
variable {buf rest : Bytes} {b : Byte} {r : ExtractResult}

/-- What `rb` takes off is undone by `unescape`. -/
theorem rb_unescape (h : rb buf = some (b, rest)) :
    ∃ piece, buf = piece ++ rest ∧ ∀ t, unescape (piece ++ t) = b :: unescape t := by
  cases buf with
  | nil => cases h
  | cons c tail =>
    simp only [rb] at h
    by_cases hmark : c = 0x1B
    · rw [if_pos hmark] at h
      cases tail with
      | nil => cases h
      | cons v more =>
        obtain ⟨rfl, rfl⟩ := Prod.mk.inj (Option.some.inj h)
        refine ⟨[c, v], rfl, fun t => ?_⟩
        rw [hmark]
        rfl
    · rw [if_neg hmark] at h
      obtain ⟨rfl, rfl⟩ := Prod.mk.inj (Option.some.inj h)
      refine ⟨[c], rfl, fun t => ?_⟩
      have hplain : (0x1B : Byte) ∉ [c] := fun hmem => hmark (List.mem_singleton.mp hmem).symm
      exact unescape_append [c] t hplain

theorem rbMany_unescape (n : ℕ) {data : Bytes} (h : rbMany n buf = some (data, rest)) :
    data.length = n ∧
      ∃ piece, buf = piece ++ rest ∧ ∀ t, unescape (piece ++ t) = data ++ unescape t := by
  induction n generalizing buf data with
  | zero =>
    obtain ⟨rfl, rfl⟩ := Prod.mk.inj (Option.some.inj h)
    exact ⟨rfl, [], rfl, fun t => rfl⟩
  | succ n ih =>
    simp only [rbMany, Option.bind_eq_bind, Option.bind_eq_some_iff] at h
    obtain ⟨⟨c, mid⟩, hc, ⟨more, last⟩, hmore, hres⟩ := h
    obtain ⟨rfl, rfl⟩ := Prod.mk.inj (Option.some.inj hres)
    obtain ⟨piece, rfl, hpiece⟩ := rb_unescape hc
    obtain ⟨hcount, pieces, rfl, hpieces⟩ := ih hmore
    refine ⟨congrArg Nat.succ hcount, piece ++ pieces, (List.append_assoc _ _ _).symm, fun t => ?_⟩
    rw [List.append_assoc, hpiece, hpieces]
    rfl

/-- The bytes of a frame, with its length byte. -/
structure Whole (lb : Bytes) : Prop where
  head : byteAt lb 0 = 0x68
  second : byteAt lb 7 = 0x68
  last : byteAt lb (lb.length - 1) = 0x16
  short : (byteAt lb 9 : ℕ) ≤ 200
  length : lb.length = 12 + (byteAt lb 9 : ℕ)

theorem byteAt_concat (data : Bytes) (b : Byte) :
    byteAt (data ++ [b]) ((data ++ [b]).length - 1) = b := by
  rw [List.length_append, List.length_singleton, Nat.add_sub_cancel, byteAt,
    List.getD_eq_getElem?_getD, List.getElem?_append_right le_rfl, Nat.sub_self]
  rfl

theorem EscapedFrame.whole (h : EscapedFrame buf rest) :
    Whole (unescape (buf.take (buf.length - rest.length))) := by
  obtain ⟨-, r₁, addr, r₂, r₃, c, r₄, L, r₅, data, r₆, cs, r₇, h₁, h₂, h₃, h₄, h₅, hL, h₆, h₇, h₈⟩ := h
  obtain ⟨p₁, rfl, hp₁⟩ := rb_unescape h₁
  obtain ⟨haddr, p₂, rfl, hp₂⟩ := rbMany_unescape 6 h₂
  obtain ⟨p₃, rfl, hp₃⟩ := rb_unescape h₃
  obtain ⟨p₄, rfl, hp₄⟩ := rb_unescape h₄
  obtain ⟨p₅, rfl, hp₅⟩ := rb_unescape h₅
  obtain ⟨hdata, p₆, rfl, hp₆⟩ := rbMany_unescape L h₆
  obtain ⟨p₇, rfl, hp₇⟩ := rb_unescape h₇
  obtain ⟨p₈, rfl, hp₈⟩ := rb_unescape h₈
  set frame := p₁ ++ (p₂ ++ (p₃ ++ (p₄ ++ (p₅ ++ (p₆ ++ (p₇ ++ (p₈ ++ []))))))) with hframe
  have hbuf : p₁ ++ (p₂ ++ (p₃ ++ (p₄ ++ (p₅ ++ (p₆ ++ (p₇ ++ (p₈ ++ rest))))))) = frame ++ rest := by
    simp only [hframe, List.append_assoc, List.nil_append]
  have hcount : (frame ++ rest).length - rest.length = frame.length := by
    rw [List.length_append, Nat.add_sub_cancel]
  have htext : unescape frame = 0x68 :: (addr ++ 0x68 :: c :: L :: (data ++ [cs, 0x16])) := by
    rw [hframe, hp₁, hp₂, hp₃, hp₄, hp₅, hp₆, hp₇, hp₈]
    rfl
  rw [hbuf, hcount, List.take_left, htext]
  match addr, haddr with
  | [a₀, a₁, a₂, a₃, a₄, a₅], _ =>
    refine ⟨rfl, rfl, ?_, hL, ?_⟩
    · have hlast : 0x68 :: ([a₀, a₁, a₂, a₃, a₄, a₅] ++ 0x68 :: c :: L :: (data ++ [cs, 0x16])) =
          (0x68 :: ([a₀, a₁, a₂, a₃, a₄, a₅] ++ 0x68 :: c :: L :: (data ++ [cs]))) ++ [0x16] := by
        simp
      rw [hlast]
      exact byteAt_concat _ _
    · simp only [List.length_cons, List.length_append, List.length_nil, hdata]
      change _ = 12 + (L : ℕ)
      omega

theorem Whole.logicalBytes_eq {raw : Bytes} (h : Whole (unescape raw)) :
    logicalBytes raw = unescape raw := by
  have hlong : (unescape raw).length ≥ 12 := by
    rw [h.length]
    omega
  unfold logicalBytes
  dsimp only
  rw [if_pos ⟨hlong, h.head, h.second, h.last⟩, if_pos ⟨h.short, h.length⟩]

/-- A cut frame is as long as its length byte says, however it was read. -/
theorem logicalBytes_length (h : tryExtract buf = some r) :
    (logicalBytes r.raw).length = 12 + (byteAt (logicalBytes r.raw) 9 : ℕ) := by
  rw [tryExtract] at h
  split at h
  · rename_i res hescaped
    obtain rfl := Option.some.inj h
    obtain ⟨rest, hframe, rfl⟩ := tryExtractEscaped_eq_some_iff.mp hescaped
    rw [hframe.whole.logicalBytes_eq]
    exact hframe.whole.length
  · obtain ⟨L, -, -, h₉, -, hend, rfl⟩ := tryExtractPlain_eq_some_iff.mp h
    have hlong := (List.getElem?_eq_some_iff.mp hend).1
    have hplain : (buf.take (12 + (L : ℕ))).length =
        12 + (byteAt (buf.take (12 + (L : ℕ))) 9 : ℕ) := by
      rw [byteAt_take (by omega), byteAt_of_getElem? h₉, List.length_take]
      omega
    unfold logicalBytes
    dsimp only
    split_ifs with hshape hlength
    · exact hlength.2
    · exact hplain
    · exact hplain

end Cut

/-- The number of a scaled item fits a float, if the frame has one. -/
def Decodable (store : MetadataStore) (raw : Bytes) : Prop :=
  let lb := logicalBytes raw
  let control := byteAt lb 8
  FitsFloat store control (readData control (slice lb 10 (lb.length - 2)))

theorem dataItems_returns (store : MetadataStore) (control : Byte) (payload : Bytes) :
    Returns (dataItems store (funcOf control) payload.length payload)
      (FitsFloat store control payload) fun _ => True := by
  obtain ⟨hok, herror⟩ := dataItems_spec store control payload
  refine ⟨fun h => ?_, fun v hv => ⟨?_, trivial⟩⟩
  · obtain ⟨item, warnings, hitem, -⟩ := hok h
    exact ⟨_, hitem⟩
  · by_contra hfits
    obtain ⟨e, he⟩ := herror hfits
    cases he.symm.trans hv

theorem decode_returns_of_length (store : MetadataStore) {raw : Bytes}
    (hlength : (logicalBytes raw).length = 12 + (byteAt (logicalBytes raw) 9 : ℕ)) :
    Returns (decode store raw) (Decodable store raw) fun _ => True := by
  unfold decode Decodable
  dsimp only
  generalize logicalBytes raw = lb at hlength
  refine (Adapter698.index_total (by omega)).then ?_
  rintro control rfl
  refine (Adapter698.index_total (by omega)).then ?_
  rintro L rfl
  have hdata : slice lb 10 (10 + (byteAt lb 9 : ℕ)) = slice lb 10 (lb.length - 2) := by
    rw [hlength]
    congr 1
    omega
  have hcount : (slice lb 10 (lb.length - 2)).length = (byteAt lb 9 : ℕ) := by
    rw [slice_length]
    omega
  set control := byteAt lb 8 with hcontrol
  set dom := slice lb 10 (lb.length - 2) with hdom
  have hread : readData control dom = if (byteAt lb 9 : ℕ) > 0 ∧ (control : ℕ) &&& 0x0F ∉ noEncryptFuncs
      then unmask dom else dom := by
    rw [readData, hcount]
  have hsame : (readData control dom).length = (byteAt lb 9 : ℕ) := by
    rw [← hcount, readData]
    split_ifs
    · rw [unmask, List.length_map]
    · rfl
  have hitems := dataItems_returns store control (readData control dom)
  rw [hsame, funcOf] at hitems
  rw [hdata, ← hread]
  exact hitems.bind_total fun body _ => returns_pure trivial

theorem decode_returns (store : MetadataStore) {buf : Bytes} {r : ExtractResult}
    (hcut : tryExtract buf = some r) :
    Returns (decode store r.raw) (Decodable store r.raw) fun _ => True :=
  decode_returns_of_length store (logicalBytes_length hcut)

end Adapter645

/-! ## Data units -/

namespace Adapter10376

/-- 06H-F230 without the last byte of its time. -/
def CutTime (afn : Byte) (fn : ℕ) (appdata : Bytes) : Prop :=
  afn = 0x06 ∧ fn = 230 ∧ appdata.length = 13

/-- A page of 10H-F21, F31 or F112 that ends before its number of nodes. -/
def CutPage (afn : Byte) (fn : ℕ) (appdata : Bytes) (direction : Direction) : Prop :=
  afn = 0x10 ∧ (fn = 21 ∨ fn = 31 ∨ fn = 112) ∧ direction = .up ∧
    (appdata.length = 3 ∨ appdata.length = 4)

section Items
variable (fn : ℕ) (data : Bytes)

theorem items06F230_returns : Returns (items06F230 data) (data.length ≠ 13) fun _ => True := by
  unfold items06F230
  dsimp only
  by_cases htime : data.length ≥ 13
  · rw [if_pos htime]
    have hcount : (slice data 8 14).length = min 14 data.length - 8 := slice_length
    split
    · rename_i sec minute hour day month year hbytes
      have hsix : data.length ≠ 13 := by
        intro h
        rw [hbytes, h] at hcount
        cases hcount
      exact (returns_pure trivial).congr (iff_of_true trivial hsix)
    · rename_i hother
      have hfive : data.length = 13 := by
        by_contra h
        have hsix : (slice data 8 14).length = 6 := by omega
        match hbytes : slice data 8 14, hsix with
        | [sec, minute, hour, day, month, year], _ =>
          exact hother sec minute hour day month year hbytes
      exact (returns_error _).congr (iff_of_false id (not_not.mpr hfive))
  · rw [if_neg htime]
    exact (returns_pure trivial).congr (iff_of_true trivial (by omega))

theorem items06_returns :
    Returns (items06 fn data) (¬ (fn = 230 ∧ data.length = 13)) fun _ => True := by
  by_cases h230 : fn = 230
  · subst h230
    have hitems : items06 230 data = if data.length ≥ 10 then items06F230 data else pure [] := by
      simp [items06]
    rw [hitems]
    by_cases hlong : data.length ≥ 10
    · rw [if_pos hlong]
      exact (items06F230_returns data).congr (by simp)
    · rw [if_neg hlong]
      exact (returns_pure trivial).congr (iff_of_true trivial (by omega))
  · have hfree : ¬ (fn = 230 ∧ data.length = 13) := fun h => h230 h.1
    have hbranch : ¬ (fn = 230 ∧ data.length ≥ 10) := fun h => h230 h.1
    unfold items06
    rw [if_neg hbranch]
    split_ifs <;> exact (returns_pure trivial).congr (iff_of_true trivial hfree)

theorem pagedItems_returns (hlong : 3 ≤ data.length) (size : ℕ) (row : ℕ → Bytes → List DataField) :
    Returns (pagedItems data size row) (¬ (data.length = 3 ∨ data.length = 4)) fun _ => True := by
  have hstart : Returns (le16Checked data 2) (2 < data.length ∧ 3 < data.length) fun _ => True :=
    (Adapter698.index_returns data 2).bind fun lo _ =>
      (Adapter698.index_returns data 3).bind_total fun hi _ => returns_pure trivial
  have hlengths : (2 < data.length ∧ 3 < data.length) ∧ 4 < data.length ↔
      ¬ (data.length = 3 ∨ data.length = 4) := by omega
  refine (hstart.bind fun start _ => ?_).congr hlengths
  exact (Adapter698.index_returns data 4).bind_total fun n _ => returns_pure trivial

/-- The form that F21, F31 and F112 share. -/
def pagedForm (up : Bool) (size : ℕ) (row : ℕ → Bytes → List DataField) : PyM (List DataField) :=
  if data.length ≥ 3 then
    if ¬ up then pure (pageRequest "节点起始序号" "节点数量" data) else pagedItems data size row
  else pure []

theorem pagedForm_returns (up : Bool) (size : ℕ) (row : ℕ → Bytes → List DataField) :
    Returns (pagedForm data up size row) (¬ (up = true ∧ (data.length = 3 ∨ data.length = 4)))
      fun _ => True := by
  unfold pagedForm
  by_cases hlong : data.length ≥ 3
  · rw [if_pos hlong]
    cases up with
    | false => exact (returns_pure trivial).congr (by simp)
    | true => exact (pagedItems_returns data hlong size row).congr (by simp)
  · rw [if_neg hlong]
    exact (returns_pure trivial).congr (iff_of_true trivial (by omega))

theorem items10_paged (up : Bool) :
    items10 21 data up = pagedForm data up 11 topologyRow ∧
      items10 31 data up = pagedForm data up 8 phaseRow ∧
      items10 112 data up = pagedForm data up 33 chipRow := by
  unfold items10 pagedForm
  refine ⟨?_, ?_, ?_⟩ <;>
    simp only [Nat.reduceEqDiff, false_and, or_self, if_false, true_and]

theorem items10_total (up : Bool) (hfn : ¬ (fn = 21 ∨ fn = 31 ∨ fn = 112)) :
    Total (items10 fn data up) := by
  have hnot21 : ¬ (fn = 21 ∧ data.length ≥ 3) := fun h => hfn (Or.inl h.1)
  have hnot31 : ¬ (fn = 31 ∧ data.length ≥ 3) := fun h => hfn (Or.inr (Or.inl h.1))
  have hnot112 : ¬ (fn = 112 ∧ data.length ≥ 3) := fun h => hfn (Or.inr (Or.inr h.1))
  unfold items10
  rw [if_neg hnot21, if_neg hnot31, if_neg hnot112]
  repeat' first
    | exact returns_pure trivial
    | apply Total.ite

theorem items10_returns (up : Bool) :
    Returns (items10 fn data up)
      (¬ ((fn = 21 ∨ fn = 31 ∨ fn = 112) ∧ up = true ∧ (data.length = 3 ∨ data.length = 4)))
      fun _ => True := by
  obtain ⟨h21, h31, h112⟩ := items10_paged data up
  by_cases hfn : fn = 21 ∨ fn = 31 ∨ fn = 112
  · simp only [hfn, true_and]
    rcases hfn with rfl | rfl | rfl
    · rw [h21]
      exact pagedForm_returns data up 11 topologyRow
    · rw [h31]
      exact pagedForm_returns data up 8 phaseRow
    · rw [h112]
      exact pagedForm_returns data up 33 chipRow
  · exact (items10_total fn data up hfn).congr (iff_of_true trivial fun h => hfn h.1)

theorem appItems_returns (afn : Byte) (direction : Direction) :
    Returns (appItems afn fn data direction)
      (¬ CutTime afn fn data ∧ ¬ CutPage afn fn data direction) fun _ => True := by
  unfold appItems
  dsimp only
  by_cases h06 : afn = 0x06
  · have hpage : ¬ CutPage afn fn data direction := by
      rintro ⟨h10, -⟩
      rw [h06] at h10
      cases h10
    subst h06
    exact (items06_returns fn data).congr (by simp [CutTime, hpage])
  by_cases h10 : afn = 0x10
  · have htime : ¬ CutTime afn fn data := fun h => h06 h.1
    subst h10
    exact (items10_returns fn data _).congr (by simp [CutPage, htime])
  have hfree : ¬ CutTime afn fn data ∧ ¬ CutPage afn fn data direction :=
    ⟨fun h => h06 h.1, fun h => h10 h.1⟩
  split
  case h_7 h => exact absurd (Fin.ext h) h06
  case h_8 h => exact absurd (Fin.ext h) h10
  all_goals exact (returns_pure trivial).congr (iff_of_true trivial hfree)

end Items

/-! ## Embedded frames -/

/-- The embedded frames that `_scan_nested` finds, each with its adapter. -/
def embeddedFuel : ℕ → Bytes → List (NestedAdapter × Bytes)
  | 0, _ => []
  | _ + 1, [] => []
  | fuel + 1, b :: rest =>
    match bestNested (b :: rest) with
    | none => embeddedFuel fuel rest
    | some (adapter, res) => (adapter, res.raw) :: embeddedFuel fuel ((b :: rest).drop res.consumed)

def embedded (payload : Bytes) : List (NestedAdapter × Bytes) := embeddedFuel payload.length payload

/-- An embedded frame that its own decoder reads. -/
def NestedAdapter.Decodable (store : MetadataStore) : NestedAdapter → Bytes → Prop
  | .a645, raw => Adapter645.Decodable store raw
  | .a698, raw => Adapter698.Readable (Adapter698.opened (Adapter698.frameApdu raw))

def AllDecodable (store : MetadataStore) (frames : List (NestedAdapter × Bytes)) : Prop :=
  ∀ e ∈ frames, e.1.Decodable store e.2

section Nested
variable (store : MetadataStore) {payload : Bytes} {adapter : NestedAdapter} {res : ExtractResult}

theorem bestNested_cut (h : bestNested payload = some (adapter, res)) :
    (adapter = .a645 ∧ Adapter645.tryExtract payload = some res) ∨
      (adapter = .a698 ∧ Adapter698.tryExtract payload = some res) := by
  unfold bestNested at h
  split at h
  · cases h
  · rename_i r hr _
    obtain ⟨rfl, rfl⟩ := Prod.mk.inj (Option.some.inj h)
    exact Or.inl ⟨rfl, hr⟩
  · rename_i r _ hr
    obtain ⟨rfl, rfl⟩ := Prod.mk.inj (Option.some.inj h)
    exact Or.inr ⟨rfl, hr⟩
  · rename_i r r' hr hr'
    split_ifs at h
    · obtain ⟨rfl, rfl⟩ := Prod.mk.inj (Option.some.inj h)
      exact Or.inr ⟨rfl, hr'⟩
    · obtain ⟨rfl, rfl⟩ := Prod.mk.inj (Option.some.inj h)
      exact Or.inl ⟨rfl, hr⟩

theorem bestNested_consumed (h : bestNested payload = some (adapter, res)) : 0 < res.consumed := by
  rcases bestNested_cut h with ⟨-, hcut⟩ | ⟨-, hcut⟩
  · exact (Adapter645.tryExtract_cutOf hcut).pos
  · exact (Adapter698.tryExtract_cutOf hcut).pos

theorem nested_decode_returns (h : bestNested payload = some (adapter, res)) :
    Returns (adapter.decode store res.raw) (adapter.Decodable store res.raw) fun _ => True := by
  rcases bestNested_cut h with ⟨rfl, hcut⟩ | ⟨rfl, hcut⟩
  · exact Adapter645.decode_returns store hcut
  · exact Adapter698.decode_returns hcut

/-- The scan never uses the fuel up. -/
theorem scanNestedFuel_enough {fuel fuel' : ℕ} {payload : Bytes} (h : payload.length ≤ fuel)
    (h' : payload.length ≤ fuel') :
    scanNestedFuel store fuel payload = scanNestedFuel store fuel' payload := by
  induction fuel generalizing fuel' payload with
  | zero =>
    obtain rfl := List.length_eq_zero_iff.mp (Nat.le_zero.mp h)
    cases fuel' with
    | zero => rfl
    | succ fuel' => rfl
  | succ fuel ih =>
    cases payload with
    | nil =>
      cases fuel' with
      | zero => rfl
      | succ fuel' => rfl
    | cons b rest =>
      cases fuel' with
      | zero => cases h'
      | succ fuel' =>
        rw [List.length_cons] at h h'
        rw [scanNestedFuel, scanNestedFuel]
        cases hbest : bestNested (b :: rest) with
        | none => exact ih (by omega) (by omega)
        | some best =>
          obtain ⟨adapter, res⟩ := best
          have hpos := bestNested_consumed hbest
          have hrest : scanNestedFuel store fuel ((b :: rest).drop res.consumed) =
              scanNestedFuel store fuel' ((b :: rest).drop res.consumed) := by
            refine ih ?_ ?_ <;> rw [List.length_drop, List.length_cons] <;> omega
          dsimp only
          rw [hrest]

theorem scanNestedFuel_returns (fuel : ℕ) (payload : Bytes) :
    Returns (scanNestedFuel store fuel payload) (AllDecodable store (embeddedFuel fuel payload))
      fun _ => True := by
  have hnone : AllDecodable store [] := fun e he => absurd he List.not_mem_nil
  induction fuel generalizing payload with
  | zero => exact (returns_pure trivial).congr (iff_of_true trivial hnone)
  | succ fuel ih =>
    cases payload with
    | nil => exact (returns_pure trivial).congr (iff_of_true trivial hnone)
    | cons b rest =>
      rw [scanNestedFuel, embeddedFuel]
      cases hbest : bestNested (b :: rest) with
      | none => exact ih rest
      | some best =>
        obtain ⟨adapter, res⟩ := best
        have hcons : adapter.Decodable store res.raw ∧
            AllDecodable store (embeddedFuel fuel ((b :: rest).drop res.consumed)) ↔
              AllDecodable store
                ((adapter, res.raw) :: embeddedFuel fuel ((b :: rest).drop res.consumed)) := by
          rw [AllDecodable, AllDecodable, List.forall_mem_cons]
        refine ((nested_decode_returns store hbest).bind fun pf _ => ?_).congr hcons
        exact (ih _).bind_total fun more _ => returns_pure trivial

end Nested

/-! ## Whole frames -/

/-- Nothing in the frame is cut where its decoder does not look, and no number in it is too large
for a float. -/
structure Clean (store : MetadataStore) (h : Header) : Prop where
  time : ¬ CutTime h.afn h.fn h.appdata
  page : ¬ CutPage h.afn h.fn h.appdata h.ctl.direction
  embedded : carriesFrames h.afn = true → AllDecodable store (embedded h.appdata)

section Decode
variable (store : MetadataStore)

theorem decodeBody_returns (h : Header) :
    Returns (decodeBody store h.afn h.fn h.appdata h.ctl.direction) (Clean store h)
      fun _ => True := by
  have hclean : (¬ CutTime h.afn h.fn h.appdata ∧ ¬ CutPage h.afn h.fn h.appdata h.ctl.direction) ∧
      (carriesFrames h.afn = true → AllDecodable store (embedded h.appdata)) ↔ Clean store h :=
    ⟨fun h => ⟨h.1.1, h.1.2, h.2⟩, fun h => ⟨⟨h.time, h.page⟩, h.embedded⟩⟩
  unfold decodeBody
  by_cases hempty : h.appdata = []
  · have hparts : Clean store h := by
      refine ⟨?_, ?_, fun _ e he => ?_⟩
      · rintro ⟨-, -, hlength⟩
        rw [hempty] at hlength
        cases hlength
      · rintro ⟨-, -, -, hlength⟩
        rw [hempty] at hlength
        rcases hlength with hlength | hlength <;> cases hlength
      · rw [hempty] at he
        exact absurd he List.not_mem_nil
    rw [if_pos hempty]
    exact (returns_pure trivial).congr (iff_of_true trivial hparts)
  rw [if_neg hempty]
  refine ((appItems_returns h.fn h.appdata h.afn h.ctl.direction).bind fun items _ => ?_).congr hclean
  by_cases hcarries : carriesFrames h.afn = true
  · simp only [hcarries, if_true, true_imp_iff]
    exact (scanNestedFuel_returns store _ h.appdata).bind_total fun nested _ => returns_pure trivial
  · rw [if_neg hcarries]
    exact (returns_pure trivial).congr (iff_of_true trivial fun h => absurd h hcarries)

theorem decode_returns {raw : Bytes} {header : Option Header} (hheader : decodeHeader raw = .ok header) :
    Returns (decode store raw) (∀ h, header = some h → Clean store h) fun _ => True := by
  rw [decode, hheader]
  cases header with
  | none => exact (returns_pure trivial).congr (iff_of_true trivial fun h hh => by cases hh)
  | some h =>
    have hsome : Clean store h ↔ ∀ h', some h = some h' → Clean store h' :=
      ⟨fun hc h' hh => Option.some.inj hh ▸ hc, fun hall => hall h rfl⟩
    exact ((decodeBody_returns store h).bind_total fun body _ => returns_pure trivial).congr hsome

end Decode

end Adapter10376

end HplcWorkbench
