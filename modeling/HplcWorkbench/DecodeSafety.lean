import HplcWorkbench.ApduReads

/-!
# What the 698.45 decoder survives

A value ends inside the data unless a `ROAD` announces rows that are not there: its length test
looks at one byte, its reader at five, and the bytes it reports as consumed are not tested at all.
The decoder of an extracted frame raises on such a cut `ROAD` and on a short record response.
-/

namespace HplcWorkbench.Adapter698
open ExactOutcomes

/-! ## Values inside the data -/

/-- A `ROAD` at `p` with a byte after its tag that ends behind the data. -/
def RunsOver (data : Bytes) (p : ℕ) : Prop :=
  byteAt data p = 82 ∧ p + 1 < data.length ∧ data.length < p + 6 + 4 * (byteAt data (p + 5) : ℕ)

def Fits (data : Bytes) (starts : List ℕ) : Prop := ∀ p ∈ starts, ¬ RunsOver data p

section Bounds
variable {data : Bytes}

theorem Fits.roadsWhole {starts : List ℕ} (h : Fits data starts) : RoadsWhole data starts := by
  intro p hp ⟨htag, hsome, hcut⟩
  exact h p hp ⟨htag, hsome, by omega⟩

theorem fits_append {starts more : List ℕ} :
    Fits data (starts ++ more) ↔ Fits data starts ∧ Fits data more := List.forall_mem_append

theorem fits_nil : Fits data [] := fun _ hp => absurd hp List.not_mem_nil

theorem fits_singleton {p : ℕ} : Fits data [p] ↔ ¬ RunsOver data p := List.forall_mem_singleton

theorem fixedSize_le {offset : ℕ} (size : ℕ) (h : offset < data.length) :
    offset + fixedSize data offset size ≤ data.length := by
  unfold fixedSize
  split_ifs <;> omega

theorem countedSize_le {offset : ℕ} (h : offset < data.length) :
    offset + countedSize data offset ≤ data.length := by
  unfold countedSize
  dsimp only
  split_ifs <;> omega

/-- Every tag but `ROAD` tests the length it takes. -/
theorem leafSize_le {offset tag : ℕ} (h : offset < data.length) (htag : tag ≠ 82) :
    offset + leafSize data offset tag ≤ data.length := by
  unfold leafSize
  split
  all_goals first
    | exact fixedSize_le _ h
    | exact countedSize_le h
    | omega

theorem road_fits_iff {offset : ℕ} (h : offset < data.length) (htag : byteAt data offset = 82) :
    offset + leafSize data offset 82 ≤ data.length ↔ Fits data [offset] := by
  rw [fits_singleton, RunsOver, leafSize]
  split_ifs <;> simp only [htag, true_and] <;> omega

/-- The walk over elements never goes back, and stays inside exactly when its values do. -/
theorem elementWalk_fits_iff {walk : ℕ → Walk}
    (hwalk : ∀ pos ≤ data.length, pos + (walk pos).2 ≤ data.length ↔ Fits data (walk pos).1)
    (count pos : ℕ) : pos ≤ (elementWalk walk count pos).2 ∧
      (pos ≤ data.length →
        ((elementWalk walk count pos).2 ≤ data.length ↔ Fits data (elementWalk walk count pos).1)) := by
  induction count generalizing pos with
  | zero => exact ⟨le_rfl, fun hpos => iff_of_true hpos fits_nil⟩
  | succ count ih =>
      obtain ⟨hforward, hrest⟩ := ih (pos + (walk pos).2)
      rw [elementWalk]
      refine ⟨by dsimp only; omega, fun hpos => ?_⟩
      dsimp only
      rw [fits_append, ← hwalk pos hpos]
      by_cases hhere : pos + (walk pos).2 ≤ data.length
      · rw [and_iff_right hhere]
        exact hrest hhere
      · exact iff_of_false (by omega) (fun h => hhere h.1)

theorem valueWalkFuel_fits_iff (fuel : ℕ) {offset : ℕ} (h : offset ≤ data.length) :
    offset + (valueWalkFuel fuel data offset).2 ≤ data.length ↔
      Fits data (valueWalkFuel fuel data offset).1 := by
  induction fuel generalizing offset with
  | zero => exact iff_of_true h fits_nil
  | succ fuel ih =>
      rw [valueWalkFuel]
      by_cases hend : offset ≥ data.length
      · rw [if_pos hend]
        exact iff_of_true h fits_nil
      rw [if_neg hend]
      have hlt : offset < data.length := not_le.mp hend
      generalize htag : (byteAt data offset : ℕ) = tag
      dsimp only
      have hplain : tag ≠ 82 → Fits data [offset] := by
        intro hne
        rw [fits_singleton]
        rintro ⟨hbyte, -⟩
        exact hne (htag.symm.trans (congrArg Fin.val hbyte))
      by_cases hcomposite : tag = 1 ∨ tag = 2
      · have hhead := hplain (by omega)
        rw [if_pos hcomposite]
        by_cases hcount : offset + 1 ≥ data.length
        · rw [if_pos hcount]
          exact iff_of_true hlt hhead
        rw [if_neg hcount]
        dsimp only
        obtain ⟨hforward, hinside⟩ := elementWalk_fits_iff (fun pos hpos => ih hpos)
          (byteAt data (offset + 1)) (offset + 2)
        have hback : offset + ((elementWalk (valueWalkFuel fuel data) (byteAt data (offset + 1))
            (offset + 2)).2 - offset) = (elementWalk (valueWalkFuel fuel data)
              (byteAt data (offset + 1)) (offset + 2)).2 := by omega
        rw [hback, ← List.singleton_append, fits_append, and_iff_right hhead]
        exact hinside (by omega)
      rw [if_neg hcomposite]
      by_cases hroad : tag = 82
      · subst hroad
        exact road_fits_iff hlt (Fin.ext htag)
      · exact iff_of_true (leafSize_le hlt hroad) (hplain hroad)

theorem valueWalk_fits_iff {offset : ℕ} (h : offset ≤ data.length) :
    offset + (valueWalk data offset).2 ≤ data.length ↔ Fits data (valueWalk data offset).1 :=
  valueWalkFuel_fits_iff _ h

end Bounds

/-- A value is read to an end inside the data exactly when it starts there and no `ROAD` in it runs
over. The recursion has the fuel it needs: more of it changes nothing. -/
theorem parseData_safe_iff (data : Bytes) (offset extra : ℕ) :
    (∃ value consumed, parseDataFuel (data.length + 1 + extra) data offset = .ok (value, consumed) ∧
        offset + consumed ≤ data.length) ↔
      offset ≤ data.length ∧ Fits data (valueWalk data offset).1 := by
  have hfuel : parseDataFuel (data.length + 1 + extra) data offset = parseData data offset :=
    parseDataFuel_enough (by omega) (by omega)
  rw [hfuel]
  constructor
  · rintro ⟨value, consumed, hparse, hinside⟩
    obtain ⟨-, hsize⟩ := (parseData_returns data offset).exact _ hparse
    obtain rfl : consumed = (valueWalk data offset).2 := hsize
    have hstart : offset ≤ data.length := by omega
    exact ⟨hstart, (valueWalk_fits_iff hstart).mp hinside⟩
  · rintro ⟨hstart, hfits⟩
    obtain ⟨⟨value, consumed⟩, hparse⟩ := (parseData_returns data offset).ok hfits.roadsWhole
    obtain ⟨-, hsize⟩ := (parseData_returns data offset).exact _ hparse
    obtain rfl : consumed = (valueWalk data offset).2 := hsize
    exact ⟨value, _, hparse, (valueWalk_fits_iff hstart).mpr hfits⟩

/-- Two bytes of a `ROAD` raise, and a `ROAD` that announces rows which are not there takes more bytes
than there are. -/
theorem shortRoad_unsafe : ¬ ∀ (data : Bytes) (offset : ℕ), offset ≤ data.length →
    ∃ value consumed, parseData data offset = .ok (value, consumed) ∧ offset + consumed ≤ data.length := by
  intro h
  obtain ⟨value, consumed, hparse, -⟩ := h [0x52, 0x00] 0 (Nat.zero_le _)
  have hraise : parseData [0x52, 0x00] 0 = .error .indexError := rfl
  rw [hraise] at hparse
  cases hparse

/-! ## Extracted frames -/

/-- An extracted frame is decoded exactly when the APDU inside its SECURITY envelopes is no record
response that ends before its number of columns, and no value read from it is a cut `ROAD`. -/
theorem extracted_decode_iff (store : MetadataStore) {buf : Bytes} {r : ExtractResult}
    (h : tryExtract buf = some r) :
    (∃ frame, decode store r.raw = .ok frame) ↔
      ¬ ShortRecordAnswer (opened (frameApdu r.raw)) ∧
        RoadsWhole (apduReads (opened (frameApdu r.raw))).1 (apduReads (opened (frameApdu r.raw))).2 :=
  (decode_returns h).iff.trans ⟨fun hr => ⟨hr.longEnough, hr.whole⟩, fun hr => ⟨hr.1, hr.2⟩⟩

/-- A record response with nothing behind its PIID. -/
def shortRecordFrame : Bytes := buildFrame [0x85, 0x03, 0x00] [0x05, 1, 2, 3, 4, 5, 6] 0x10 0xC3

theorem shortRecordFrame_extracted :
    tryExtract shortRecordFrame = some ⟨shortRecordFrame, shortRecordFrame.length⟩ := by
  decide +kernel

theorem shortRecord_raises : ¬ ∀ (store : MetadataStore) (buf : Bytes) (r : ExtractResult),
    tryExtract buf = some r → ∃ frame, decode store r.raw = .ok frame := by
  intro h
  have hraise : decode (fun _ _ => none) shortRecordFrame = .error .indexError := by rfl
  obtain ⟨frame, hframe⟩ := h (fun _ _ => none) _ _ shortRecordFrame_extracted
  rw [hraise] at hframe
  cases hframe

/-- The frame of a link request, with no values to read. -/
def linkFrame : Bytes := buildFrame [0x01, 0x00] [0x05, 1, 2, 3, 4, 5, 6] 0x10 0x81

theorem linkFrame_extracted : tryExtract linkFrame = some ⟨linkFrame, linkFrame.length⟩ := by
  decide +kernel

theorem linkFrame_decoded : ∃ frame, decode (fun _ _ => none) linkFrame = .ok frame := by
  have hopened : opened (frameApdu linkFrame) = [0x01, 0x00] := by decide +kernel
  refine (extracted_decode_iff _ linkFrame_extracted).mpr ?_
  dsimp only
  rw [hopened]
  refine ⟨fun h => ?_, roadsWhole_nil⟩
  exact absurd h.1 (by decide)

end HplcWorkbench.Adapter698
