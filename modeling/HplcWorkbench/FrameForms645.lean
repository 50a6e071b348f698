import HplcWorkbench.DecodeReturns

/-!
# Plain and escaped 645 frames in a stream

Nothing on the wire says whether a frame is escaped. The escaped reading comes first, so a plain
frame with `1B` in it is cut where that reading ends, if it ends anywhere in what follows.
-/

namespace HplcWorkbench.Adapter645

/-- The bytes of the wire and the bytes they stand for. -/
inductive Undoes : Bytes → Bytes → Prop
  | nil : Undoes [] []
  | byte {b : Byte} {raw lb : Bytes} : b ≠ 0x1B → Undoes raw lb → Undoes (b :: raw) (b :: lb)
  | pair (v : Byte) {raw lb : Bytes} : Undoes raw lb → Undoes (0x1B :: v :: raw) (v :: lb)

section Undoing
variable {raw lb : Bytes}

theorem Undoes.unescape_eq (h : Undoes raw lb) : unescape raw = lb := by
  induction h with
  | nil => rfl
  | @byte b raw lb hb _ ih =>
      have hne := unescape_append [b] raw (fun hmem => hb (List.mem_singleton.mp hmem).symm)
      exact hne.trans (congrArg _ ih)
  | pair v _ ih => exact congrArg _ ih

/-- Every escape mark costs a byte. -/
theorem Undoes.length_le (h : Undoes raw lb) :
    lb.length ≤ raw.length ∧ (0x1B ∈ raw → lb.length < raw.length) := by
  induction h with
  | nil => exact ⟨le_rfl, fun hmem => absurd hmem List.not_mem_nil⟩
  | byte hb _ ih =>
      refine ⟨Nat.succ_le_succ ih.1, fun hmem => ?_⟩
      rcases List.mem_cons.mp hmem with heq | hmem
      · exact absurd heq.symm hb
      · exact Nat.succ_lt_succ (ih.2 hmem)
  | pair v _ ih =>
      simp only [List.length_cons]
      exact ⟨by omega, fun _ => by omega⟩

theorem undoes_self (h : 0x1B ∉ raw) : Undoes raw raw := by
  induction raw with
  | nil => exact .nil
  | cons b rest ih =>
      rw [List.mem_cons, not_or] at h
      exact .byte (Ne.symm h.1) (ih h.2)

theorem undoes_escaped (xs : Bytes) : Undoes (xs.flatMap escapeByte) xs := by
  induction xs with
  | nil => exact .nil
  | cons b xs ih =>
      rw [List.flatMap_cons, escapeByte]
      by_cases hb : b ∈ escapeSet
      · rw [if_pos hb]
        exact .pair b ih
      · rw [if_neg hb]
        exact .byte (fun heq => hb (heq ▸ by decide)) ih

/-- An escape mark in front of a byte that is none costs a byte, whatever it escapes. -/
theorem unescape_middle (p : Bytes) {v : Byte} (hv : v ≠ 0x1B) (q : Bytes) :
    ∃ u, unescape (p ++ v :: q) = u ++ v :: unescape q ∧ u.length ≤ p.length ∧
      (0x1B ∈ p → u.length < p.length) := by
  have hplain : ∀ {b : Byte}, b ≠ 0x1B → ∀ rest, unescape (b :: rest) = b :: unescape rest :=
    fun hb rest => unescape_append [_] rest fun hmem => hb (List.mem_singleton.mp hmem).symm
  induction p using unescape.induct with
  | case1 w rest ih =>
      obtain ⟨u, hu, hle, -⟩ := ih
      refine ⟨w :: u, congrArg _ hu, ?_, fun _ => ?_⟩ <;> simp only [List.length_cons] <;> omega
  | case2 b rest hmark ih =>
      by_cases hb : b = 0x1B
      · cases rest with
        | nil => exact ⟨[], by rw [hb]; rfl, Nat.zero_le _, fun _ => Nat.zero_lt_one⟩
        | cons w more => exact absurd rfl (hmark w more hb)
      · obtain ⟨u, hu, hle, hlt⟩ := ih
        refine ⟨b :: u, (hplain hb _).trans (congrArg _ hu), Nat.succ_le_succ hle, fun hmem => ?_⟩
        rcases List.mem_cons.mp hmem with heq | hmem
        · exact absurd heq.symm hb
        · exact Nat.succ_lt_succ (hlt hmem)
  | case3 => exact ⟨[], hplain hv q, le_rfl, fun hmem => absurd hmem List.not_mem_nil⟩

theorem Undoes.append {raw' lb' : Bytes} (h : Undoes raw lb) (h' : Undoes raw' lb') :
    Undoes (raw ++ raw') (lb ++ lb') := by
  induction h with
  | nil => exact h'
  | byte hb _ ih => exact .byte hb ih
  | pair v _ ih => exact .pair v ih

theorem Undoes.split {xs ys : Bytes} (h : Undoes raw (xs ++ ys)) :
    ∃ r₁ r₂, raw = r₁ ++ r₂ ∧ Undoes r₁ xs ∧ Undoes r₂ ys := by
  generalize hlb : xs ++ ys = lb at h
  induction h generalizing xs with
  | nil =>
      obtain ⟨rfl, rfl⟩ := List.append_eq_nil_iff.mp hlb
      exact ⟨[], [], rfl, .nil, .nil⟩
  | @byte b raw lb hb h ih =>
      cases xs with
      | nil =>
          rw [List.nil_append] at hlb
          exact ⟨[], b :: raw, rfl, .nil, hlb ▸ .byte hb h⟩
      | cons x xs =>
          obtain ⟨rfl, hrest⟩ := List.cons_eq_cons.mp hlb
          obtain ⟨r₁, r₂, rfl, h₁, h₂⟩ := ih hrest
          exact ⟨x :: r₁, r₂, rfl, .byte hb h₁, h₂⟩
  | @pair v raw lb h ih =>
      cases xs with
      | nil =>
          rw [List.nil_append] at hlb
          exact ⟨[], 0x1B :: v :: raw, rfl, .nil, hlb ▸ .pair v h⟩
      | cons x xs =>
          obtain ⟨rfl, hrest⟩ := List.cons_eq_cons.mp hlb
          obtain ⟨r₁, r₂, rfl, h₁, h₂⟩ := ih hrest
          exact ⟨0x1B :: x :: r₁, r₂, rfl, .pair x h₁, h₂⟩

/-- Undoing fails only at an escape mark that ends the bytes. -/
theorem undoes_unescape (raw : Bytes) :
    Undoes raw (unescape raw) ∨ (unescape raw).getLast? = some 0x1B := by
  induction raw using unescape.induct with
  | case1 v rest ih =>
      rw [unescape]
      rcases ih with h | hlast
      · exact .inl (.pair v h)
      · rw [List.getLast?_cons, hlast]
        exact .inr rfl
  | case2 b rest hmark ih =>
      rw [unescape]
      · by_cases hb : b = 0x1B
        · cases rest with
          | nil => exact .inr (by rw [hb]; rfl)
          | cons v more => exact absurd rfl (hmark v more hb)
        · rcases ih with h | hlast
          · exact .inl (.byte hb h)
          · rw [List.getLast?_cons, hlast]
            exact .inr rfl
      · exact hmark
  | case3 => exact .inl .nil

theorem rb_plain {b : Byte} (hb : b ≠ 0x1B) (t : Bytes) : rb (b :: t) = some (b, t) := by
  simp only [rb, if_neg hb]

theorem rb_undoes {b : Byte} (h : Undoes raw [b]) (t : Bytes) : rb (raw ++ t) = some (b, t) := by
  cases h with
  | byte hb h =>
      cases h
      exact rb_plain hb t
  | pair v h =>
      cases h
      rfl

theorem rbMany_undoes (h : Undoes raw lb) (t : Bytes) : rbMany lb.length (raw ++ t) = some (lb, t) := by
  induction h with
  | nil => rfl
  | @byte b raw lb hb h ih =>
      rw [List.cons_append, List.length_cons, rbMany, rb_plain hb]
      simp only [Option.bind_eq_bind, Option.bind_some, ih]
      rfl
  | @pair v raw lb h ih =>
      have hhead : rb (0x1B :: v :: (raw ++ t)) = some (v, raw ++ t) := rfl
      rw [List.cons_append, List.cons_append, List.length_cons, rbMany, hhead]
      simp only [Option.bind_eq_bind, Option.bind_some, ih]
      rfl

theorem undoes_of_rb {buf rest : Bytes} {b : Byte} (h : rb buf = some (b, rest)) :
    ∃ raw, buf = raw ++ rest ∧ Undoes raw [b] := by
  cases buf with
  | nil => cases h
  | cons c tail =>
      by_cases hmark : c = 0x1B
      · simp only [rb, if_pos hmark] at h
        cases tail with
        | nil => cases h
        | cons v more =>
            obtain ⟨rfl, rfl⟩ := Prod.mk.inj (Option.some.inj h)
            exact ⟨[c, v], rfl, hmark ▸ .pair v .nil⟩
      · rw [rb_plain hmark] at h
        obtain ⟨rfl, rfl⟩ := Prod.mk.inj (Option.some.inj h)
        exact ⟨[c], rfl, .byte hmark .nil⟩

theorem undoes_of_rbMany (n : ℕ) {buf data rest : Bytes} (h : rbMany n buf = some (data, rest)) :
    ∃ raw, buf = raw ++ rest ∧ Undoes raw data := by
  induction n generalizing buf data with
  | zero =>
      obtain ⟨rfl, rfl⟩ := Prod.mk.inj (Option.some.inj h)
      exact ⟨[], rfl, .nil⟩
  | succ n ih =>
      simp only [rbMany, Option.bind_eq_bind, Option.bind_eq_some_iff] at h
      obtain ⟨⟨c, mid⟩, hc, ⟨more, last⟩, hmore, hres⟩ := h
      obtain ⟨rfl, rfl⟩ := Prod.mk.inj (Option.some.inj hres)
      obtain ⟨r₁, rfl, h₁⟩ := undoes_of_rb hc
      obtain ⟨r₂, rfl, h₂⟩ := ih hmore
      exact ⟨r₁ ++ r₂, (List.append_assoc _ _ _).symm, h₁.append h₂⟩

end Undoing

/-! ## The escaped reading -/

/-- What a whole frame is made of. -/
theorem Whole.parts {lb : Bytes} (h : Whole lb) : ∃ (addr data : Bytes) (c L cs : Byte),
    addr.length = 6 ∧ data.length = L ∧ (L : ℕ) ≤ 200 ∧
      lb = [0x68] ++ (addr ++ ([0x68] ++ ([c] ++ ([L] ++ (data ++ ([cs] ++ [0x16])))))) := by
  obtain ⟨hhead, hsecond, hlast, hshort, hlength⟩ := h
  match lb with
  | [] | [_] | [_, _] | [_, _, _] | [_, _, _, _] | [_, _, _, _, _] | [_, _, _, _, _, _]
  | [_, _, _, _, _, _, _] | [_, _, _, _, _, _, _, _] | [_, _, _, _, _, _, _, _, _] =>
      exact absurd hlength (by simp only [List.length_cons, List.length_nil]; omega)
  | b₀ :: b₁ :: b₂ :: b₃ :: b₄ :: b₅ :: b₆ :: b₇ :: b₈ :: b₉ :: rest =>
      have hb₀ : b₀ = 0x68 := hhead
      have hb₇ : b₇ = 0x68 := hsecond
      have hL : (b₉ : ℕ) ≤ 200 := hshort
      have hrest : rest.length = (b₉ : ℕ) + 2 := by
        have hcount : (b₀ :: b₁ :: b₂ :: b₃ :: b₄ :: b₅ :: b₆ :: b₇ :: b₈ :: b₉ :: rest).length =
            12 + (b₉ : ℕ) := hlength
        simp only [List.length_cons] at hcount
        omega
      obtain ⟨body, last, rfl⟩ := (List.eq_nil_or_concat' rest).resolve_left (by
        rintro rfl
        cases hrest)
      obtain ⟨data, cs, rfl⟩ := (List.eq_nil_or_concat' body).resolve_left (by
        rintro rfl
        simp at hrest)
      have hlast' : last = 0x16 := by
        have hconcat := byteAt_concat
          (b₀ :: b₁ :: b₂ :: b₃ :: b₄ :: b₅ :: b₆ :: b₇ :: b₈ :: b₉ :: (data ++ [cs])) last
        exact hconcat.symm.trans hlast
      refine ⟨[b₁, b₂, b₃, b₄, b₅, b₆], data, b₈, b₉, cs, rfl, ?_, hL, ?_⟩
      · simp only [List.length_append, List.length_singleton] at hrest
        omega
      · rw [hb₀, hb₇, hlast']
        simp

theorem tryExtractEscaped_iff {buf : Bytes} {r : ExtractResult} :
    tryExtractEscaped buf = some r ↔ buf.head? = some 0x68 ∧
      ∃ raw t lb, buf = raw ++ t ∧ Undoes raw lb ∧ Whole lb ∧ r = ⟨raw, raw.length⟩ := by
  rw [tryExtractEscaped_eq_some_iff]
  constructor
  · rintro ⟨rest, hframe, rfl⟩
    have hwhole := hframe.whole
    obtain ⟨hhead, r₁, addr, r₂, r₃, c, r₄, L, r₅, data, r₆, cs, r₇, h₁, h₂, h₃, h₄, h₅, hL, h₆, h₇, h₈⟩ :=
      hframe
    obtain ⟨p₁, rfl, hp₁⟩ := undoes_of_rb h₁
    obtain ⟨p₂, rfl, hp₂⟩ := undoes_of_rbMany 6 h₂
    obtain ⟨p₃, rfl, hp₃⟩ := undoes_of_rb h₃
    obtain ⟨p₄, rfl, hp₄⟩ := undoes_of_rb h₄
    obtain ⟨p₅, rfl, hp₅⟩ := undoes_of_rb h₅
    obtain ⟨p₆, rfl, hp₆⟩ := undoes_of_rbMany L h₆
    obtain ⟨p₇, rfl, hp₇⟩ := undoes_of_rb h₇
    obtain ⟨p₈, rfl, hp₈⟩ := undoes_of_rb h₈
    have hundoes := hp₁.append (hp₂.append (hp₃.append (hp₄.append (hp₅.append (hp₆.append
      (hp₇.append hp₈))))))
    set raw := p₁ ++ (p₂ ++ (p₃ ++ (p₄ ++ (p₅ ++ (p₆ ++ (p₇ ++ p₈)))))) with hraw
    have hbuf : p₁ ++ (p₂ ++ (p₃ ++ (p₄ ++ (p₅ ++ (p₆ ++ (p₇ ++ (p₈ ++ rest))))))) = raw ++ rest := by
      simp only [hraw, List.append_assoc]
    rw [hbuf] at hhead hwhole ⊢
    have hcount : (raw ++ rest).length - rest.length = raw.length := by
      rw [List.length_append, Nat.add_sub_cancel]
    rw [hcount, List.take_left] at hwhole ⊢
    rw [hundoes.unescape_eq] at hwhole
    exact ⟨hhead, raw, rest, _, rfl, hundoes, hwhole, rfl⟩
  · rintro ⟨hhead, raw, t, lb, rfl, hundoes, hwhole, rfl⟩
    obtain ⟨addr, data, c, L, cs, haddr, hdata, hL, rfl⟩ := hwhole.parts
    have hcount : (raw ++ t).length - t.length = raw.length := by
      rw [List.length_append, Nat.add_sub_cancel]
    refine ⟨t, ⟨hhead, ?_⟩, by rw [hcount, List.take_left]⟩
    obtain ⟨p₁, q₁, rfl, hp₁, hq₁⟩ := hundoes.split
    obtain ⟨p₂, q₂, rfl, hp₂, hq₂⟩ := hq₁.split
    obtain ⟨p₃, q₃, rfl, hp₃, hq₃⟩ := hq₂.split
    obtain ⟨p₄, q₄, rfl, hp₄, hq₄⟩ := hq₃.split
    obtain ⟨p₅, q₅, rfl, hp₅, hq₅⟩ := hq₄.split
    obtain ⟨p₆, q₆, rfl, hp₆, hq₆⟩ := hq₅.split
    obtain ⟨p₇, p₈, rfl, hp₇, hp₈⟩ := hq₆.split
    have hmany := rbMany_undoes hp₂ (p₃ ++ (p₄ ++ (p₅ ++ (p₆ ++ (p₇ ++ (p₈ ++ t))))))
    have hbytes := rbMany_undoes hp₆ (p₇ ++ (p₈ ++ t))
    rw [haddr] at hmany
    rw [hdata] at hbytes
    simp only [List.append_assoc]
    exact ⟨_, addr, _, _, c, _, L, _, data, _, cs, _, rb_undoes hp₁ _, hmany, rb_undoes hp₃ _,
      rb_undoes hp₄ _, rb_undoes hp₅ _, hL, hbytes, rb_undoes hp₇ _, rb_undoes hp₈ _⟩

/-! ## The two forms of a frame -/

/-- The stream begins with a complete frame once its escapes are undone. -/
def BeginsEscaped (stream : Bytes) : Prop := ∃ raw t lb, stream = raw ++ t ∧ Undoes raw lb ∧ Whole lb

/-- The frame is cut off in front of `s`, and its logical bytes are these. -/
def Recovered (frame logical s : Bytes) : Prop :=
  tryExtract (frame ++ s) = some ⟨frame, frame.length⟩ ∧ logicalBytes frame = logical

theorem logicalBytes_cases (raw : Bytes) :
    logicalBytes raw = raw ∨ Whole (unescape raw) ∧ logicalBytes raw = unescape raw := by
  unfold logicalBytes
  dsimp only
  by_cases hshape : (unescape raw).length ≥ 12 ∧ byteAt (unescape raw) 0 = 0x68 ∧
      byteAt (unescape raw) 7 = 0x68 ∧ byteAt (unescape raw) ((unescape raw).length - 1) = 0x16
  · rw [if_pos hshape]
    obtain ⟨-, hhead, hsecond, hlast⟩ := hshape
    by_cases hlength : (byteAt (unescape raw) 9 : ℕ) ≤ 200 ∧
        (unescape raw).length = 12 + (byteAt (unescape raw) 9 : ℕ)
    · rw [if_pos hlength]
      exact .inr ⟨⟨hhead, hsecond, hlast, hlength.1, hlength.2⟩, rfl⟩
    · exact .inl (if_neg hlength)
  · exact .inl (if_neg hshape)

theorem unescape_length_le (raw : Bytes) : (unescape raw).length ≤ raw.length := by
  fun_induction unescape raw with
  | case1 v rest ih => simp only [List.length_cons]; omega
  | case2 b rest hne ih => simp only [List.length_cons]; omega
  | case3 => exact le_rfl

theorem logicalBytes_length_le (raw : Bytes) : (logicalBytes raw).length ≤ raw.length := by
  unfold logicalBytes
  dsimp only
  split_ifs
  · exact unescape_length_le raw
  · exact le_rfl
  · exact le_rfl

theorem unescape_eq_self {raw : Bytes} (h : (unescape raw).length = raw.length) : unescape raw = raw := by
  fun_induction unescape raw with
  | case1 v rest ih =>
      have hle := unescape_length_le rest
      simp only [List.length_cons] at h
      omega
  | case2 b rest hne ih => rw [ih (Nat.succ.inj h)]
  | case3 => rfl

/-- Logical bytes that are as many as those on the wire are those on the wire. -/
theorem logicalBytes_eq_self {raw : Bytes} (h : (logicalBytes raw).length = raw.length) :
    logicalBytes raw = raw := by
  rcases logicalBytes_cases raw with hplain | ⟨-, hundone⟩
  · exact hplain
  · rw [hundone] at h ⊢
    exact unescape_eq_self h

/-- No frame is cut whose data field is longer than 200 bytes. -/
theorem declared_le {buf : Bytes} {r : ExtractResult} (h : tryExtract buf = some r) :
    (byteAt (logicalBytes r.raw) 9 : ℕ) ≤ 200 := by
  unfold tryExtract at h
  split at h
  · rename_i res hescaped
    obtain rfl := Option.some.inj h
    obtain ⟨rest, hframe, rfl⟩ := tryExtractEscaped_eq_some_iff.mp hescaped
    rw [hframe.whole.logicalBytes_eq]
    exact hframe.whole.short
  · obtain ⟨L, -, -, h₉, hshort, -, rfl⟩ := tryExtractPlain_eq_some_iff.mp h
    rcases logicalBytes_cases (buf.take (12 + (L : ℕ))) with hplain | ⟨hwhole, hundone⟩
    · rw [hplain, byteAt_take (by omega), byteAt_of_getElem? h₉]
      exact hshort
    · rw [hundone]
      exact hwhole.short

section Extraction
variable {frame lb s : Bytes}

theorem tryExtract_undoes (hhead : frame.head? = some 0x68) (h : Undoes frame lb) (hwhole : Whole lb)
    (s : Bytes) : tryExtract (frame ++ s) = some ⟨frame, frame.length⟩ := by
  have hstart : (frame ++ s).head? = some 0x68 := by
    rw [List.head?_append, hhead]
    rfl
  rw [tryExtract, tryExtractEscaped_iff.mpr ⟨hstart, frame, s, lb, rfl, h, hwhole, rfl⟩]

theorem tryExtract_plain (h : ¬ BeginsEscaped s) : tryExtract s = tryExtractPlain s := by
  have hnone : tryExtractEscaped s = none := by
    cases hread : tryExtractEscaped s with
    | none => rfl
    | some r =>
        obtain ⟨-, raw, t, lb, hs, hundoes, hwhole, -⟩ := tryExtractEscaped_iff.mp hread
        exact absurd ⟨raw, t, lb, hs, hundoes, hwhole⟩ h
  rw [tryExtract, hnone]

/-- A frame that is cut off by the escaped reading is taken for what that reading gives. -/
theorem undoes_of_extracted (hhead : frame.head? = some 0x68)
    (hcut : tryExtract (frame ++ s) = some ⟨frame, frame.length⟩) (hbegins : BeginsEscaped (frame ++ s)) :
    Undoes frame (logicalBytes frame) := by
  obtain ⟨raw, t, lb, hstream, hundoes, hwhole⟩ := hbegins
  have hstart : (frame ++ s).head? = some 0x68 := by
    rw [List.head?_append, hhead]
    rfl
  rw [tryExtract, tryExtractEscaped_iff.mpr ⟨hstart, raw, t, lb, hstream, hundoes, hwhole, rfl⟩] at hcut
  obtain rfl : raw = frame := congrArg ExtractResult.raw (Option.some.inj hcut)
  have hsame := hundoes.unescape_eq
  rw [← hsame] at hwhole
  rw [hwhole.logicalBytes_eq, hsame]
  exact hundoes

/-- Where the escaped reading finds nothing, the bytes stand for themselves. -/
theorem logicalBytes_plain (h : ¬ BeginsEscaped (frame ++ s)) : logicalBytes frame = frame := by
  rcases logicalBytes_cases frame with hplain | ⟨hwhole, -⟩
  · exact hplain
  rcases undoes_unescape frame with hundoes | hdangling
  · exact absurd ⟨frame, s, _, rfl, hundoes, hwhole⟩ h
  · have hlast := hwhole.last
    rw [byteAt, List.getD_eq_getElem?_getD, ← List.getLast?_eq_getElem?, hdangling] at hlast
    exact absurd hlast (by decide)

end Extraction

section Forms
variable {addr dom : Bytes} {control : Byte} (haddr : addr.length = 6) (hdom : dom.length ≤ 200)
include haddr hdom

theorem whole_logicalFrame : Whole (logicalFrame addr control dom) := by
  obtain ⟨hhead, -, hsecond, -, hL⟩ := logicalFrame_bytes haddr control dom
  have hLval : ((byteAt (logicalFrame addr control dom) 9 : Byte) : ℕ) = dom.length := by
    rw [byteAt_of_getElem? hL, byte_val]
    omega
  refine ⟨hhead, hsecond, byteAt_last haddr, ?_, ?_⟩
  · rw [hLval]
    exact hdom
  · rw [hLval]
    exact logicalFrame_length haddr control dom

theorem tryExtractPlain_logicalFrame (s : Bytes) :
    tryExtractPlain (logicalFrame addr control dom ++ s) =
      some ⟨logicalFrame addr control dom, (logicalFrame addr control dom).length⟩ := by
  have hlength := logicalFrame_length haddr control dom
  have hat : ∀ i < 12 + dom.length, (logicalFrame addr control dom ++ s)[i]? =
      some (byteAt (logicalFrame addr control dom) i) := by
    intro i hi
    rw [List.getElem?_append_left (by omega), byteAt, List.getD_eq_getElem?_getD,
      List.getElem?_eq_getElem (by omega), Option.getD_some]
  obtain ⟨hhead, -, hsecond, -, hL⟩ := logicalFrame_bytes haddr control dom
  have hLval : ((byte dom.length : Byte) : ℕ) = dom.length := by
    rw [byte_val]
    omega
  have hlast := @byteAt_last addr dom control haddr
  rw [hlength] at hlast
  refine tryExtractPlain_eq_some_iff.mpr ⟨byte dom.length, ?_, ?_, ?_, ?_, ?_, ?_⟩
  · rw [List.head?_eq_getElem?, hat 0 (by omega), hhead]
  · rw [hat 7 (by omega), hsecond]
  · rw [hat 9 (by omega), byteAt_of_getElem? hL]
  · rw [hLval]
    exact hdom
  · rw [hLval, hat (11 + dom.length) (by omega), ← hlast]
    congr 2
    omega
  · rw [hLval, hlength, ← hlength, List.take_left]

omit hdom in
/-- With an escape mark in its address an escaped frame stands for fewer bytes than it was made of. -/
theorem unescape_wireFrame_length (hmark : 0x1B ∈ addr) :
    (unescape (wireFrame addr control dom)).length < (logicalFrame addr control dom).length := by
  obtain ⟨u, hu, -, hlt⟩ := unescape_middle ([0x68] ++ addr) (v := 0x68) (by decide)
    (([control, byte dom.length] ++ dom ++
      [byte (byteSum (frameHead addr control dom) % 256)]).flatMap escapeByte ++ [0x16])
  have hparts : wireFrame addr control dom = ([0x68] ++ addr) ++ 0x68 :: (([control, byte dom.length] ++
      dom ++ [byte (byteSum (frameHead addr control dom) % 256)]).flatMap escapeByte ++ [0x16]) := by
    rw [wireFrame, List.append_assoc, List.append_assoc]
    rfl
  have hshort := hlt (List.mem_append_right _ hmark)
  rw [List.length_append, List.length_singleton, haddr] at hshort
  rw [hparts, hu, unescape_escaped, logicalFrame_length haddr control dom]
  simp only [List.length_append, List.length_cons, List.length_nil, unescape]
  omega

theorem plain_recovered_iff (s : Bytes) :
    Recovered (logicalFrame addr control dom) (logicalFrame addr control dom) s ↔
      0x1B ∉ logicalFrame addr control dom ∨ ¬ BeginsEscaped (logicalFrame addr control dom ++ s) := by
  have hhead : (logicalFrame addr control dom).head? = some 0x68 := rfl
  constructor
  · rintro ⟨hcut, hlogical⟩
    by_contra hnot
    obtain ⟨hmark, hbegins⟩ := not_or.mp hnot
    have hundoes := undoes_of_extracted hhead hcut (not_not.mp hbegins)
    rw [hlogical] at hundoes
    exact absurd (hundoes.length_le.2 (not_not.mp hmark)) (lt_irrefl _)
  · rintro (hmark | hbegins)
    · have hundoes := undoes_self hmark
      have hwhole := @whole_logicalFrame addr dom control haddr hdom
      refine ⟨tryExtract_undoes hhead hundoes hwhole s, ?_⟩
      have hsame := hundoes.unescape_eq
      rw [← hsame] at hwhole
      rw [hwhole.logicalBytes_eq, hsame]
    · refine ⟨?_, logicalBytes_plain hbegins⟩
      rw [tryExtract_plain hbegins]
      exact tryExtractPlain_logicalFrame haddr hdom s

theorem escaped_recovered_iff (s : Bytes) :
    Recovered (wireFrame addr control dom) (logicalFrame addr control dom) s ↔
      0x1B ∉ addr ∨ wireFrame addr control dom = logicalFrame addr control dom ∧
        ¬ BeginsEscaped (wireFrame addr control dom ++ s) := by
  have hhead : (wireFrame addr control dom).head? = some 0x68 := rfl
  constructor
  · rintro ⟨hcut, hlogical⟩
    by_cases hmark : 0x1B ∈ addr
    · have hshort := @unescape_wireFrame_length addr dom control haddr hmark
      have hbegins : ¬ BeginsEscaped (wireFrame addr control dom ++ s) := by
        intro hbegins
        have hundoes := undoes_of_extracted hhead hcut hbegins
        rw [hlogical] at hundoes
        rw [hundoes.unescape_eq] at hshort
        exact lt_irrefl _ hshort
      exact .inr ⟨(logicalBytes_plain hbegins).symm.trans hlogical, hbegins⟩
    · exact .inl hmark
  · rintro (hmark | ⟨hsame, hbegins⟩)
    · have hfront : (0x1B : Byte) ∉ [0x68] ++ addr ++ [0x68] := by simp [hmark]
      have hundoes : Undoes (wireFrame addr control dom) (logicalFrame addr control dom) := by
        have hparts := ((undoes_self hfront).append (undoes_escaped ([control, byte dom.length] ++ dom ++
          [byte (byteSum (frameHead addr control dom) % 256)]))).append (@undoes_self [0x16] (by decide))
        have hlogical : logicalFrame addr control dom = [0x68] ++ addr ++ [0x68] ++
            ([control, byte dom.length] ++ dom ++ [byte (byteSum (frameHead addr control dom) % 256)]) ++
              [0x16] := by
          simp [logicalFrame, frameHead]
        rw [hlogical, wireFrame]
        exact hparts
      exact ⟨tryExtract_undoes hhead hundoes (whole_logicalFrame haddr hdom) s,
        logicalBytes_wireFrame haddr hmark hdom⟩
    · rw [hsame] at hbegins ⊢
      exact (plain_recovered_iff haddr hdom s).mpr (.inr hbegins)

end Forms

/-- A plain frame is recovered exactly when it holds no escape mark or the stream does not begin with a
complete escaped frame; an escaped one when its address holds no escape mark, or when nothing in it was
escaped and the same is true. -/
theorem forms_recovered_iff (addr dom s : Bytes) (control : Byte) (haddr : addr.length = 6)
    (hdom : dom.length ≤ 200) :
    ∃ plain escaped, buildFrame addr control dom = .ok plain ∧
      buildFrameEscaped addr control dom = .ok escaped ∧
      (Recovered plain plain s ↔ 0x1B ∉ plain ∨ ¬ BeginsEscaped (plain ++ s)) ∧
      (Recovered escaped plain s ↔ 0x1B ∉ addr ∨ escaped = plain ∧ ¬ BeginsEscaped (escaped ++ s)) :=
  ⟨_, _, buildFrame_eq (by omega), buildFrameEscaped_eq haddr (by omega),
    plain_recovered_iff haddr hdom s, escaped_recovered_iff haddr hdom s⟩

/-- A reading request in front of a byte that is taken for its end. -/
theorem read_request_recovered : ∃ plain escaped, buildFrame [1, 2, 3, 4, 5, 6] 0x11 [0x33, 0x1B] = .ok plain ∧
      buildFrameEscaped [1, 2, 3, 4, 5, 6] 0x11 [0x33, 0x1B] = .ok escaped ∧
      (Recovered plain plain [0x00] ↔ 0x1B ∉ plain ∨ ¬ BeginsEscaped (plain ++ [0x00])) ∧
      (Recovered escaped plain [0x00] ↔ (0x1B : Byte) ∉ [1, 2, 3, 4, 5, 6] ∨
        escaped = plain ∧ ¬ BeginsEscaped (escaped ++ [0x00])) :=
  forms_recovered_iff [1, 2, 3, 4, 5, 6] [0x33, 0x1B] [0x00] 0x11 rfl (by decide)

/-- A plain frame with `1B` in its data, in front of a byte `16`, is cut one byte too late. -/
theorem plain_overrun : ¬ ∀ (addr dom s : Bytes) (control : Byte), addr.length = 6 → dom.length ≤ 200 →
    ∀ plain, buildFrame addr control dom = .ok plain → Recovered plain plain s := by
  intro h
  obtain ⟨hcut, -⟩ := h [1, 2, 3, 4, 5, 6] [0x33, 0x1B] [0x16] 0x11 rfl (by decide) _ rfl
  exact absurd (congrArg (Option.map ExtractResult.consumed) hcut) (by decide)

end HplcWorkbench.Adapter645
