import HplcWorkbench.FrameSplitter
import HplcWorkbench.StreamSplitting

/-!
# What the adapters cut

Every adapter cuts a prefix of its buffer. What 645 and 698.45 cut does not depend on the bytes
behind the frame, while 1376.2 cuts only a buffer that is one frame. So the frame splitter is a
splitter of streams.
-/

namespace HplcWorkbench

/-! ## 645 -/

namespace Adapter645
section Reading
variable {buf rest : Bytes} {b : Byte} {r : ExtractResult}

theorem rb_append (h : rb buf = some (b, rest)) (t : Bytes) :
    rb (buf ++ t) = some (b, rest ++ t) := by
  cases buf with
  | nil => cases h
  | cons c tail =>
      simp only [rb, List.cons_append] at h ⊢
      split_ifs at h ⊢ with hmark
      · cases tail with
        | nil => cases h
        | cons v more =>
            obtain ⟨rfl, rfl⟩ := Prod.mk.inj (Option.some.inj h)
            rfl
      · obtain ⟨rfl, rfl⟩ := Prod.mk.inj (Option.some.inj h)
        rfl

theorem rb_length (h : rb buf = some (b, rest)) : rest.length < buf.length := by
  cases buf with
  | nil => cases h
  | cons c tail =>
      simp only [rb] at h
      split_ifs at h with hmark
      · cases tail with
        | nil => cases h
        | cons v more =>
            obtain ⟨rfl, rfl⟩ := Prod.mk.inj (Option.some.inj h)
            simp only [List.length_cons]
            omega
      · obtain ⟨rfl, rfl⟩ := Prod.mk.inj (Option.some.inj h)
        simp

theorem rbMany_append (n : ℕ) {data : Bytes} (h : rbMany n buf = some (data, rest)) (t : Bytes) :
    rbMany n (buf ++ t) = some (data, rest ++ t) := by
  induction n generalizing buf data with
  | zero =>
      obtain ⟨rfl, rfl⟩ := Prod.mk.inj (Option.some.inj h)
      rfl
  | succ n ih =>
      simp only [rbMany, Option.bind_eq_bind, Option.bind_eq_some_iff] at h
      obtain ⟨⟨c, mid⟩, hc, ⟨more, last⟩, hmore, hres⟩ := h
      obtain ⟨rfl, rfl⟩ := Prod.mk.inj (Option.some.inj hres)
      have hmore' := ih hmore
      simp only [rbMany, Option.bind_eq_bind, Option.bind_eq_some_iff]
      exact ⟨_, rb_append hc t, _, hmore', rfl⟩

theorem rbMany_length (n : ℕ) {data : Bytes} (h : rbMany n buf = some (data, rest)) :
    rest.length ≤ buf.length := by
  induction n generalizing buf data with
  | zero =>
      obtain ⟨rfl, rfl⟩ := Prod.mk.inj (Option.some.inj h)
      exact le_rfl
  | succ n ih =>
      simp only [rbMany, Option.bind_eq_bind, Option.bind_eq_some_iff] at h
      obtain ⟨⟨c, mid⟩, hc, ⟨more, last⟩, hmore, hres⟩ := h
      obtain ⟨rfl, rfl⟩ := Prod.mk.inj (Option.some.inj hres)
      exact (ih hmore).trans (rb_length hc).le

/-- The escaped reading goes through a frame and leaves `rest`. -/
def EscapedFrame (buf rest : Bytes) : Prop :=
  buf.head? = some 0x68 ∧ ∃ r₁ addr r₂ r₃ c r₄ L r₅ data r₆ cs r₇,
    rb buf = some (0x68, r₁) ∧ rbMany 6 r₁ = some (addr, r₂) ∧ rb r₂ = some (0x68, r₃) ∧
    rb r₃ = some (c, r₄) ∧ rb r₄ = some (L, r₅) ∧ (L : ℕ) ≤ 200 ∧ rbMany L r₅ = some (data, r₆) ∧
    rb r₆ = some (cs, r₇) ∧ rb r₇ = some (0x16, rest)

theorem tryExtractEscaped_eq_some_iff : tryExtractEscaped buf = some r ↔
    ∃ rest, EscapedFrame buf rest ∧
      r = ⟨buf.take (buf.length - rest.length), buf.length - rest.length⟩ := by
  simp only [tryExtractEscaped, Option.bind_eq_bind, Option.bind_eq_some_iff,
    Option.guard_eq_some']
  constructor
  · rintro ⟨_, hhead, ⟨start, r₁⟩, h₁, _, hstart, ⟨addr, r₂⟩, h₂, ⟨second, r₃⟩, h₃, _, hsecond,
      ⟨c, r₄⟩, h₄, ⟨L, r₅⟩, h₅, _, hL, ⟨data, r₆⟩, h₆, ⟨cs, r₇⟩, h₇, ⟨last, r₈⟩, h₈, _, hlast, hres⟩
    obtain rfl := hstart
    obtain rfl := hsecond
    obtain rfl := hlast
    exact ⟨r₈, ⟨hhead, r₁, addr, r₂, r₃, c, r₄, L, r₅, data, r₆, cs, r₇, h₁, h₂, h₃, h₄, h₅, hL, h₆,
      h₇, h₈⟩, (Option.some.inj hres).symm⟩
  · rintro ⟨r₈, ⟨hhead, r₁, addr, r₂, r₃, c, r₄, L, r₅, data, r₆, cs, r₇, h₁, h₂, h₃, h₄, h₅, hL, h₆,
      h₇, h₈⟩, rfl⟩
    exact ⟨(), hhead, _, h₁, (), rfl, _, h₂, _, h₃, (), rfl, _, h₄, _, h₅, (), hL, _, h₆, _, h₇, _, h₈,
      (), rfl, rfl⟩

theorem EscapedFrame.append (h : EscapedFrame buf rest) (t : Bytes) :
    EscapedFrame (buf ++ t) (rest ++ t) := by
  obtain ⟨hhead, r₁, addr, r₂, r₃, c, r₄, L, r₅, data, r₆, cs, r₇, h₁, h₂, h₃, h₄, h₅, hL, h₆, h₇,
    h₈⟩ := h
  refine ⟨?_, r₁ ++ t, addr, r₂ ++ t, r₃ ++ t, c, r₄ ++ t, L, r₅ ++ t, data, r₆ ++ t, cs, r₇ ++ t,
    rb_append h₁ t, rbMany_append 6 h₂ t, rb_append h₃ t, rb_append h₄ t, rb_append h₅ t, hL,
    rbMany_append L h₆ t, rb_append h₇ t, rb_append h₈ t⟩
  rw [List.head?_append, hhead]
  rfl

theorem EscapedFrame.length_lt (h : EscapedFrame buf rest) : rest.length < buf.length := by
  obtain ⟨-, r₁, addr, r₂, r₃, c, r₄, L, r₅, data, r₆, cs, r₇, h₁, h₂, h₃, h₄, h₅, -, h₆, h₇,
    h₈⟩ := h
  have hlast := rb_length h₈
  have hcs := rb_length h₇
  have hdata := rbMany_length L h₆
  have hlen := rb_length h₅
  have hcontrol := rb_length h₄
  have hsecond := rb_length h₃
  have haddr := rbMany_length 6 h₂
  have hstart := rb_length h₁
  omega

theorem tryExtractEscaped_append (h : tryExtractEscaped buf = some r) (t : Bytes) :
    tryExtractEscaped (buf ++ t) = some r := by
  obtain ⟨rest, hframe, rfl⟩ := tryExtractEscaped_eq_some_iff.mp h
  refine tryExtractEscaped_eq_some_iff.mpr ⟨rest ++ t, hframe.append t, ?_⟩
  have hcount : (buf ++ t).length - (rest ++ t).length = buf.length - rest.length := by
    simp only [List.length_append]
    omega
  rw [hcount, List.take_append_of_le_length (Nat.sub_le _ _)]

theorem tryExtractPlain_eq_some_iff : tryExtractPlain buf = some r ↔
    ∃ L : Byte, buf.head? = some 0x68 ∧ buf[7]? = some 0x68 ∧ buf[9]? = some L ∧ (L : ℕ) ≤ 200 ∧
      buf[11 + (L : ℕ)]? = some 0x16 ∧ r = ⟨buf.take (12 + L), 12 + L⟩ := by
  simp only [tryExtractPlain, Option.bind_eq_bind, Option.bind_eq_some_iff, Option.guard_eq_some']
  constructor
  · rintro ⟨_, hhead, second, h₇, _, hsecond, L, h₉, _, hL, last, hend, _, hlast, hres⟩
    obtain rfl := hsecond
    obtain rfl := hlast
    exact ⟨L, hhead, h₇, h₉, hL, hend, (Option.some.inj hres).symm⟩
  · rintro ⟨L, hhead, h₇, h₉, hL, hend, rfl⟩
    exact ⟨(), hhead, _, h₇, (), rfl, _, h₉, (), hL, _, hend, (), rfl, rfl⟩

theorem tryExtractPlain_append (h : tryExtractPlain buf = some r) (t : Bytes) :
    tryExtractPlain (buf ++ t) = some r := by
  obtain ⟨L, hhead, h₇, h₉, hL, hend, rfl⟩ := tryExtractPlain_eq_some_iff.mp h
  have hbound : ∀ {i : ℕ} {b : Byte}, buf[i]? = some b → (buf ++ t)[i]? = some b := by
    intro i b hi
    rw [List.getElem?_append_left (List.getElem?_eq_some_iff.mp hi).1, hi]
  have hlen : 12 + (L : ℕ) ≤ buf.length := by
    have hlt := (List.getElem?_eq_some_iff.mp hend).1
    omega
  refine tryExtractPlain_eq_some_iff.mpr ⟨L, ?_, hbound h₇, hbound h₉, hL, hbound hend, ?_⟩
  · rw [List.head?_append, hhead]
    rfl
  · rw [List.take_append_of_le_length hlen]

theorem tryExtract_cutOf (h : tryExtract buf = some r) : r.CutOf buf := by
  rw [tryExtract] at h
  split at h
  · rename_i res hescaped
    obtain rfl := Option.some.inj h
    obtain ⟨rest, hframe, rfl⟩ := tryExtractEscaped_eq_some_iff.mp hescaped
    have hlt := hframe.length_lt
    exact ⟨rfl, Nat.sub_pos_of_lt hlt, Nat.sub_le _ _⟩
  · obtain ⟨L, -, -, -, -, hend, rfl⟩ := tryExtractPlain_eq_some_iff.mp h
    have hlt := (List.getElem?_eq_some_iff.mp hend).1
    exact ⟨rfl, by dsimp only; omega, by dsimp only; omega⟩

/-- A 645 frame at the front of the buffer starts with `68`. -/
theorem tryExtract_head (h : tryExtract buf = some r) : buf.head? = some 0x68 := by
  rw [tryExtract] at h
  split at h
  · rename_i res hescaped
    obtain ⟨rest, hframe, -⟩ := tryExtractEscaped_eq_some_iff.mp hescaped
    exact hframe.1
  · obtain ⟨L, hhead, -⟩ := tryExtractPlain_eq_some_iff.mp h
    exact hhead

theorem tryExtract_eq_none_iff :
    tryExtract buf = none ↔ tryExtractEscaped buf = none ∧ tryExtractPlain buf = none := by
  rw [tryExtract]
  cases tryExtractEscaped buf <;> simp

/-- A buffer with a 645 frame at its front still has one when it grows. -/
theorem tryExtract_none_of_append {t : Bytes} (h : tryExtract (buf ++ t) = none) :
    tryExtract buf = none := by
  obtain ⟨hescaped, hplain⟩ := tryExtract_eq_none_iff.mp h
  refine tryExtract_eq_none_iff.mpr ⟨?_, ?_⟩
  · cases hbuf : tryExtractEscaped buf with
    | none => rfl
    | some r => rw [tryExtractEscaped_append hbuf t] at hescaped; cases hescaped
  · cases hbuf : tryExtractPlain buf with
    | none => rfl
    | some r => rw [tryExtractPlain_append hbuf t] at hplain; cases hplain

end Reading

end Adapter645

/-! ## 698.45 -/

namespace Adapter698
variable {buf : Bytes} {r : ExtractResult}

/-- What `try_extract` asks of the buffer, with `L` its length field. -/
def CutsAt (buf : Bytes) (L : ℕ) : Prop :=
  L = le16 (byteAt buf 1) (byteAt buf 2) ∧ byteAt buf 0 = 0x68 ∧ byteAt buf 3 ≠ 0x68 ∧ 12 ≤ L ∧
    L ≤ 2000 ∧ L + 2 ≤ buf.length ∧ byteAt buf (L + 1) = 0x16 ∧ 4 + saLen (byteAt buf 4) + 8 ≤ L + 2

theorem tryExtract_eq_some_iff :
    tryExtract buf = some r ↔ ∃ L, CutsAt buf L ∧ r = ⟨buf.take (L + 2), L + 2⟩ := by
  constructor
  · intro h
    simp only [tryExtract] at h
    split_ifs at h with hstart hdouble hlen hend hroom
    obtain rfl := Option.some.inj h
    push Not at hstart hend hlen hroom
    have hlong : le16 (byteAt buf 1) (byteAt buf 2) + 2 ≤ buf.length := by omega
    rw [List.length_take, Nat.min_eq_left hlong, byteAt_take (by omega)] at hroom
    exact ⟨_, ⟨rfl, hstart.2, hdouble, hlen.1, hlen.2, hlong, hend.2, hroom⟩, rfl⟩
  · rintro ⟨L, ⟨rfl, hstart, hdouble, hlow, hhigh, hlong, hend, hroom⟩, rfl⟩
    have hshort : ¬ (buf.length < 4 ∨ byteAt buf 0 ≠ 0x68) := by
      rintro (hlt | hne)
      · omega
      · exact hne hstart
    have hrange : ¬ (le16 (byteAt buf 1) (byteAt buf 2) < 12 ∨
        le16 (byteAt buf 1) (byteAt buf 2) > 2000) := by omega
    have hlast : ¬ (le16 (byteAt buf 1) (byteAt buf 2) + 1 ≥ buf.length ∨
        byteAt buf (le16 (byteAt buf 1) (byteAt buf 2) + 1) ≠ 0x16) := by
      rintro (hge | hne)
      · omega
      · exact hne hend
    simp only [tryExtract]
    rw [if_neg hshort, if_neg hdouble, if_neg hrange, if_neg hlast, if_neg]
    rw [List.length_take, Nat.min_eq_left hlong, byteAt_take (by omega)]
    omega

theorem CutsAt.append {L : ℕ} (h : CutsAt buf L) (t : Bytes) : CutsAt (buf ++ t) L := by
  obtain ⟨hL, hstart, hdouble, hlow, hhigh, hlong, hend, hroom⟩ := h
  refine ⟨?_, ?_, ?_, hlow, hhigh, ?_, ?_, ?_⟩
  · rw [byteAt_append (by omega), byteAt_append (by omega), hL]
  · rw [byteAt_append (by omega), hstart]
  · rwa [byteAt_append (by omega)]
  · rw [List.length_append]
    omega
  · rw [byteAt_append (by omega), hend]
  · rwa [byteAt_append (by omega)]

theorem tryExtract_append (h : tryExtract buf = some r) (t : Bytes) :
    tryExtract (buf ++ t) = some r := by
  obtain ⟨L, hcut, rfl⟩ := tryExtract_eq_some_iff.mp h
  refine tryExtract_eq_some_iff.mpr ⟨L, hcut.append t, ?_⟩
  obtain ⟨-, -, -, -, -, hlong, -⟩ := hcut
  rw [List.take_append_of_le_length hlong]

theorem tryExtract_cutOf (h : tryExtract buf = some r) : r.CutOf buf := by
  obtain ⟨L, ⟨-, -, -, -, -, hlong, -⟩, rfl⟩ := tryExtract_eq_some_iff.mp h
  exact ⟨rfl, Nat.succ_pos _, hlong⟩

end Adapter698

/-! ## 1376.2 -/

namespace Adapter10376
variable {buf : Bytes} {r : ExtractResult}

/-- The whole buffer is cut, or nothing. -/
theorem tryExtract_eq_some_iff : tryExtract buf = some r ↔
    (12 ≤ buf.length ∧ byteAt buf 0 = 0x68 ∧ byteAt buf (buf.length - 1) = 0x16 ∧
      byteAt buf 3 ≠ 0x68 ∧ le16 (byteAt buf 1) (byteAt buf 2) = buf.length) ∧
        r = ⟨buf, buf.length⟩ := by
  constructor
  · intro h
    simp only [tryExtract] at h
    split_ifs at h with hshape hdouble hlen hlow
    push Not at hshape hlen
    exact ⟨⟨hshape.1, hshape.2.1, hshape.2.2, hdouble, hlen⟩, (Option.some.inj h).symm⟩
  · rintro ⟨⟨hlong, hstart, hend, hdouble, hlen⟩, rfl⟩
    have hshape : ¬ (buf.length < 12 ∨ byteAt buf 0 ≠ 0x68 ∨ byteAt buf (buf.length - 1) ≠ 0x16) := by
      rintro (hlt | hne | hne)
      · omega
      · exact hne hstart
      · exact hne hend
    simp only [tryExtract]
    rw [if_neg hshape, if_neg hdouble, if_neg (not_not.mpr hlen), if_neg (by omega)]

theorem tryExtract_cutOf (h : tryExtract buf = some r) : r.CutOf buf := by
  obtain ⟨⟨hlong, -⟩, rfl⟩ := tryExtract_eq_some_iff.mp h
  exact ⟨(List.take_length).symm, by dsimp only; omega, le_rfl⟩

end Adapter10376

/-! ## Dual-mode 4-3 -/

namespace DualMode43
variable {buf payload : Bytes} {r : ExtractResult}

theorem nestedHere_cutOf (h : nestedHere payload = some r) : r.CutOf payload := by
  have hcut698 : ∀ {r}, ((Adapter698.tryExtract payload).filter fun r =>
      Adapter698.confidence r.raw > 0) = some r → r.CutOf payload := fun hr =>
    Adapter698.tryExtract_cutOf (Option.filter_eq_some_iff.mp hr).1
  have hcut645 : ∀ {r}, ((Adapter645.tryExtract payload).filter fun r =>
      Adapter645.confidence r.raw > 0) = some r → r.CutOf payload := fun hr =>
    Adapter645.tryExtract_cutOf (Option.filter_eq_some_iff.mp hr).1
  simp only [nestedHere] at h
  split_ifs at h with hstart
  split at h
  · rename_i r₁ r₂ h₁ h₂
    split_ifs at h with hbetter
    · obtain rfl := Option.some.inj h
      exact hcut645 h₂
    · obtain rfl := Option.some.inj h
      exact hcut698 h₁
  · rename_i r₁ h₁ h₂
    obtain rfl := Option.some.inj h
    exact hcut698 h₁
  · exact hcut645 h

theorem findFirstNested_bounds {i stop : ℕ} (h : findFirstNested i payload = some stop) :
    i < stop ∧ stop ≤ i + payload.length := by
  induction payload generalizing i with
  | nil => cases h
  | cons b rest ih =>
      simp only [findFirstNested] at h
      split at h
      · rename_i r hr
        obtain rfl := Option.some.inj h
        have hcut := nestedHere_cutOf hr
        have hpos := hcut.pos
        have hle := hcut.le
        omega
      · have hrest := ih h
        rw [List.length_cons]
        omega

theorem reportEnd_bounds {stop : ℕ} (h : reportEnd buf = some stop) :
    0 < stop ∧ stop ≤ buf.length := by
  simp only [reportEnd] at h
  split_ifs at h with hlen hflag hstop
  obtain rfl := Option.some.inj h
  omega

theorem validHeader_port (h : validHeader buf = true) : 4 ≤ buf.length ∧ byteAt buf 0 ∈ ports := by
  by_contra hshape
  rw [not_and_or, not_le] at hshape
  rw [validHeader, if_pos hshape] at h
  cases h

theorem tryExtract_cutOf (h : tryExtract buf = some r) :
    r.CutOf buf ∧ byteAt buf 0 ∈ ports := by
  rw [tryExtract] at h
  split_ifs at h with hheader
  obtain ⟨hlen, hport⟩ := validHeader_port hheader
  obtain ⟨stop, hstop, rfl⟩ := Option.map_eq_some_iff.mp h
  have hbounds : 0 < stop ∧ stop ≤ buf.length := by
    rcases Option.or_eq_some_iff.mp hstop with hreport | ⟨-, hnested⟩
    · split_ifs at hreport
      exact reportEnd_bounds hreport
    · have hfound := findFirstNested_bounds hnested
      rw [List.length_drop] at hfound
      omega
  exact ⟨⟨rfl, hbounds.1, hbounds.2⟩, hport⟩

end DualMode43

theorem Protocol.tryExtract_cutOf {a : Protocol} {buf : Bytes} {r : ExtractResult}
    (h : a.tryExtract buf = some r) : r.CutOf buf := by
  cases a with
  | dualMode43 => exact (DualMode43.tryExtract_cutOf h).1
  | dlt645 => exact Adapter645.tryExtract_cutOf h
  | dlt69845 => exact Adapter698.tryExtract_cutOf h
  | qgdw103762 => exact Adapter10376.tryExtract_cutOf h

/-! ## The splitter of streams -/

namespace FrameSplitter
open StreamSplitting
variable {adapters : List Protocol} {buf : Bytes}

theorem firstHit_eq_some {a : Protocol} {r : ExtractResult}
    (h : firstHit adapters buf = some (a, r)) : a ∈ adapters ∧ a.tryExtract buf = some r := by
  obtain ⟨a', hmem, hcut⟩ := List.exists_of_findSome?_eq_some h
  obtain ⟨r', hr, heq⟩ := Option.map_eq_some_iff.mp hcut
  obtain ⟨rfl, rfl⟩ := Prod.mk.inj heq
  exact ⟨hmem, hr⟩

theorem nextStart_bounds {k p : ℕ} (h : nextStart buf k = some p) :
    k ≤ p ∧ p < buf.length ∧ byteAt buf p ∈ frameStartBytes := by
  obtain ⟨i, hi, rfl⟩ := Option.map_eq_some_iff.mp h
  obtain ⟨hlt, hstart, -⟩ := List.findIdx?_eq_some_iff_getElem.mp hi
  rw [List.getElem_drop, decide_eq_true_eq] at hstart
  rw [List.length_drop] at hlt
  have hget : byteAt buf (i + k) = buf[k + i] := by
    rw [byteAt, Nat.add_comm i k, List.getD_eq_getElem]
  exact ⟨by omega, by omega, hget ▸ hstart⟩

theorem nextStart_one {p : ℕ} (h : nextStart buf 1 = some p) : 0 < p ∧ p ≤ buf.length := by
  obtain ⟨hlow, hhigh, -⟩ := nextStart_bounds h
  exact ⟨hlow, hhigh.le⟩

/-- Behind a byte at which no frame starts. -/
theorem nextStart_zero {p : ℕ} (hnoise : byteAt buf 0 ∉ frameStartBytes)
    (h : nextStart buf 0 = some p) : 0 < p ∧ p ≤ buf.length := by
  obtain ⟨-, hhigh, hstart⟩ := nextStart_bounds h
  refine ⟨Nat.pos_of_ne_zero fun hzero => ?_, hhigh.le⟩
  rw [hzero] at hstart
  exact hnoise hstart

/-- A resync deletes at least one byte. -/
theorem resync_bounds {k : ℕ} (h : resync buf = some k) : 0 < k ∧ k ≤ buf.length := by
  rw [resync] at h
  by_cases hnil : buf = []
  · rw [if_pos hnil] at h
    cases h
  have hpos : 0 < buf.length := List.length_pos_of_ne_nil hnil
  rw [if_neg hnil] at h
  by_cases hnoise : byteAt buf 0 ∉ frameStartBytes
  · rw [if_pos hnoise] at h
    obtain rfl := Option.some.inj h
    cases hnext : nextStart buf 0 with
    | none => exact ⟨hpos, le_rfl⟩
    | some p => exact nextStart_zero hnoise hnext
  · rw [if_neg hnoise] at h
    rcases Option.or_eq_some_iff.mp h with hport | ⟨-, hrest⟩
    · rw [skipPort] at hport
      split_ifs at hport
      exact nextStart_one hport
    · rcases Option.or_eq_some_iff.mp hrest with henvelope | ⟨-, hlong⟩
      · simp only [skipEnvelope] at henvelope
        split_ifs at henvelope with hshape hcomplete hbroken
        · obtain rfl := Option.some.inj henvelope
          omega
        · exact nextStart_one henvelope
      · rw [skipTooLong] at hlong
        split_ifs at hlong
        obtain rfl := Option.some.inj hlong
        cases hnext : nextStart buf 1 with
        | none => exact ⟨hpos, le_rfl⟩
        | some p => exact nextStart_one hnext

/-- What one round of `feed` does. -/
def look (adapters : List Protocol) (buf : Bytes) : Look Protocol :=
  match firstHit adapters buf with
  | some (a, res) => .hit a res.consumed
  | none =>
    match resync buf with
    | some k => .skip k
    | none => .wait

theorem look_eq_hit_iff {a : Protocol} {k : ℕ} :
    look adapters buf = .hit a k ↔ ∃ r, firstHit adapters buf = some (a, r) ∧ r.consumed = k := by
  rw [look]
  cases hhit : firstHit adapters buf with
  | some p =>
      obtain ⟨a', r⟩ := p
      constructor
      · intro h
        obtain ⟨rfl, rfl⟩ := Look.hit.inj h
        exact ⟨r, rfl, rfl⟩
      · rintro ⟨r', hr, rfl⟩
        obtain ⟨rfl, rfl⟩ := Prod.mk.inj (Option.some.inj hr)
        rfl
  | none => cases resync buf <;> simp

theorem look_eq_wait_iff :
    look adapters buf = .wait ↔ firstHit adapters buf = none ∧ resync buf = none := by
  rw [look]
  cases hhit : firstHit adapters buf with
  | some p => simp
  | none => cases resync buf <;> simp

def splitter (adapters : List Protocol) : Splitter Byte Protocol where
  look := look adapters
  hit_bounds := by
    intro b a k h
    obtain ⟨r, hr, rfl⟩ := look_eq_hit_iff.mp h
    have hcut := Protocol.tryExtract_cutOf (firstHit_eq_some hr).2
    exact ⟨hcut.pos, hcut.le⟩
  skip_bounds := by
    intro b k h
    rw [look] at h
    split at h
    · cases h
    · split at h
      · rename_i k' hk'
        obtain rfl := Look.skip.inj h
        exact resync_bounds hk'
      · cases h

theorem feedLoop_eq (fuel : ℕ) (buf : Bytes) :
    feedLoop adapters fuel buf = (splitter adapters).drainFuel fuel buf := by
  induction fuel generalizing buf with
  | zero => rfl
  | succ fuel ih =>
      simp only [feedLoop, Splitter.drainFuel, splitter, look]
      cases hhit : firstHit adapters buf with
      | some p =>
          obtain ⟨a, r⟩ := p
          have hcut := Protocol.tryExtract_cutOf (firstHit_eq_some hhit).2
          simp only [ih, hcut.raw_eq]
          rfl
      | none =>
          cases resync buf with
          | some k => exact ih _
          | none => rfl

/-- `FrameSplitter` receives as the splitter of streams does. -/
theorem feedAll_eq (buf : Bytes) (chunks : List Bytes) :
    feedAll adapters buf chunks = (splitter adapters).receive buf chunks := by
  induction chunks generalizing buf with
  | nil => rfl
  | cons chunk chunks ih =>
      have hfeed : feed adapters buf chunk = (splitter adapters).drain (buf ++ chunk) :=
        feedLoop_eq _ _
      rw [feedAll, Splitter.receive, hfeed, ih]

end FrameSplitter

end HplcWorkbench
