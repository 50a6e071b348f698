import HplcWorkbench.AdapterCuts
import HplcWorkbench.ValueReads

/-!
# Which APDUs the parser gets through

The values an APDU has read from it are determined by its bytes. The parser fails on a record
response that ends before its number of columns, on a cut `ROAD`, and on nothing else.
-/

namespace HplcWorkbench.Adapter698
open ExactOutcomes

/-! ## The values of each service -/

/-- The values of a result with its choice byte. -/
def resultStarts (data : Bytes) : List ℕ := if byteAt data 0 = 1 then (valueWalk data 1).1 else []

/-- The selected value of a record request. -/
def requestStarts (apdu : Bytes) : List ℕ :=
  if byteAt apdu 7 = 1 ∧ 12 < apdu.length then (valueWalk apdu 12).1 else []

/-- Where the column descriptors end. -/
def csdEnd (apdu : Bytes) : ℕ → ℕ → ℕ
  | 0, pos => pos
  | count + 1, pos => if pos + 5 > apdu.length then pos else csdEnd apdu count (pos + 5)

/-- The columns of the records, each with its number of rows first. -/
def recordWalk (apdu : Bytes) (columns : ℕ) : ℕ → ℕ → Walk
  | 0, pos => ([], pos)
  | records + 1, pos =>
    if pos ≥ apdu.length then ([], pos)
    else
      let here := elementWalk (valueWalk apdu) (byteAt apdu pos * columns) (pos + 1)
      let rest := recordWalk apdu columns records here.2
      (here.1 ++ rest.1, rest.2)

/-- The values of a record response. -/
def recordStarts (apdu : Bytes) : List ℕ :=
  let columns := (byteAt apdu 7 : ℕ)
  let pos := csdEnd apdu columns 8
  if pos ≥ apdu.length then [] else (recordWalk apdu columns (byteAt apdu pos) (pos + 1)).1

/-- The values of a result list. -/
def listStarts (apdu : Bytes) : ℕ → ℕ → List ℕ
  | 0, _ => []
  | count + 1, pos =>
    if pos + 4 > apdu.length then []
    else if pos + 4 < apdu.length ∧ byteAt apdu (pos + 4) = 1 then
      let here := valueWalk apdu (pos + 5)
      here.1 ++ listStarts apdu count (pos + 5 + here.2)
    else listStarts apdu count (pos + 4)

/-- The bytes and the starts of the values that a GET response has read from it. -/
def getResponseReads (apdu : Bytes) : Bytes × List ℕ :=
  match (byteAt apdu 1 : ℕ) with
  | 1 =>
    let data := apdu.drop 7
    (data, if byteAt data 0 = 0 then [] else (valueWalk data (if byteAt data 0 = 1 then 1 else 0)).1)
  | 2 => (apdu, listStarts apdu (byteAt apdu 3) 4)
  | 3 => (apdu, recordStarts apdu)
  | _ => (apdu, [])

/-- The result part of a SET or ACTION message of type 1. -/
def resultPart (apdu : Bytes) : Bytes :=
  if byteAt apdu 1 = 1 ∧ apdu.length ≥ 7 then apdu.drop 7 else apdu.drop 3

/-- The bytes and the starts of the values that an APDU has read from it. -/
def apduReads (apdu : Bytes) : Bytes × List ℕ :=
  match (byteAt apdu 0 : ℕ) with
  | 0x05 => (apdu, if byteAt apdu 1 = 3 then requestStarts apdu else [])
  | 0x85 => getResponseReads apdu
  | 0x06 => (apdu.drop 7, if byteAt apdu 1 = 1 then (valueWalk (apdu.drop 7) 0).1 else [])
  | 0x07 => (apdu.drop 7, if byteAt apdu 1 = 1 then resultStarts (apdu.drop 7) else [])
  | 0x86 | 0x87 => (resultPart apdu, resultStarts (resultPart apdu))
  | _ => (apdu, [])

/-- A record response that ends before its number of columns. -/
def ShortRecordAnswer (apdu : Bytes) : Prop :=
  byteAt apdu 0 = 0x85 ∧ byteAt apdu 1 = 3 ∧ 3 ≤ apdu.length ∧ apdu.length ≤ 7

/-- The innermost APDU of nested SECURITY envelopes, empty if it cannot be reached. -/
def openedFuel : ℕ → Bytes → Bytes
  | 0, _ => []
  | fuel + 1, apdu =>
    if byteAt apdu 0 = 0x10 ∨ byteAt apdu 0 = 0x90 then
      if apdu.length < 3 ∨ byteAt apdu 1 = 2 then []
      else
        match securityLength apdu with
        | none => []
        | some (innerLen, pos) => openedFuel fuel (slice apdu pos (pos + innerLen))
    else apdu

def opened (apdu : Bytes) : Bytes := openedFuel (apdu.length + 1) apdu

structure Readable (apdu : Bytes) : Prop where
  longEnough : ¬ ShortRecordAnswer apdu
  whole : RoadsWhole (apduReads apdu).1 (apduReads apdu).2

/-- A computation that reads no values. -/
theorem returns_unread {data : Bytes} {α : Type} {v : α} :
    Returns (pure v : PyM α) (RoadsWhole data []) fun _ => True :=
  (returns_pure trivial).congr (iff_of_true trivial roadsWhole_nil)

/-! ## Object descriptors -/

section Descriptors
variable (store : MetadataStore) (apdu : Bytes)

theorem addOadItem_returns (oad : Bytes) (value : PyVal) (timeTag : Option Byte)
    (dataHex typeTag : String) :
    Returns (addOadItem store oad value timeTag dataHex typeTag) (4 ≤ oad.length) fun _ => True := by
  unfold addOadItem
  have hboth : 2 < oad.length ∧ 3 < oad.length ↔ 4 ≤ oad.length := by omega
  refine ((index_returns oad 2).bind fun attr _ => ?_).congr hboth
  exact (index_returns oad 3).bind_total fun idx _ => returns_pure trivial

theorem addOadItem_slice {pos : ℕ} (hpos : pos + 4 ≤ apdu.length) (value : PyVal)
    (timeTag : Option Byte) (dataHex typeTag : String) :
    Total (addOadItem store (slice apdu pos (pos + 4)) value timeTag dataHex typeTag) := by
  refine (addOadItem_returns store _ value timeTag dataHex typeTag).congr (iff_of_true ?_ trivial)
  rw [slice_length]
  omega

theorem oadLoop_total (naming : ℕ → PyVal) (count i pos : ℕ) :
    Total (oadLoop store apdu naming count i pos) := by
  induction count generalizing i pos with
  | zero => exact returns_pure trivial
  | succ count ih =>
    rw [oadLoop]
    by_cases hend : pos + 4 > apdu.length
    · rw [if_pos hend]
      exact returns_pure trivial
    rw [if_neg hend]
    refine (addOadItem_slice store apdu (not_lt.mp hend) _ _ _ _).then fun first _ => ?_
    exact (ih (i + 1) (pos + 4)).then fun rest _ => returns_pure trivial

theorem csdLoop_end (prefix_ : String) (withType : Bool) (count i pos : ℕ) :
    (csdLoop store apdu prefix_ withType count i pos).2.2 = csdEnd apdu count pos ∧
      ∀ oad ∈ (csdLoop store apdu prefix_ withType count i pos).2.1, oad.length = 4 := by
  induction count generalizing i pos with
  | zero => exact ⟨rfl, fun oad h => absurd h List.not_mem_nil⟩
  | succ count ih =>
    rw [csdLoop, csdEnd]
    by_cases hend : pos + 5 > apdu.length
    · rw [if_pos hend, if_pos hend]
      exact ⟨rfl, fun oad h => absurd h List.not_mem_nil⟩
    rw [if_neg hend, if_neg hend]
    obtain ⟨hpos, hoads⟩ := ih (i + 1) (pos + 5)
    refine ⟨hpos, ?_⟩
    rintro oad hoad
    rcases List.mem_cons.mp hoad with rfl | hrest
    · rw [slice_length]
      omega
    · exact hoads oad hrest

end Descriptors

/-! ## Results and records -/

section Records
variable (store : MetadataStore) (apdu : Bytes)

theorem parseResultData_returns (data : Bytes) (label : String) :
    Returns (parseResultData data label) (RoadsWhole data (resultStarts data)) fun _ => True := by
  unfold parseResultData resultStarts
  cases data with
  | nil => exact returns_unread
  | cons tag more =>
    have htag : byteAt (tag :: more) 0 = tag := rfl
    rw [htag]
    dsimp only
    by_cases hdar : tag = 0
    · rw [if_pos hdar, if_neg (by rw [hdar]; decide)]
      exact returns_unread
    rw [if_neg hdar]
    by_cases hvalue : tag = 1
    · rw [if_pos hvalue, if_pos hvalue]
      exact (parseData_returns _ 1).bind_total fun r _ => returns_pure trivial
    · rw [if_neg hvalue, if_neg hvalue]
      exact returns_unread

theorem valueWalk_end {pos : ℕ} (h : apdu.length ≤ pos) : valueWalk apdu pos = ([], 0) := by
  rw [valueWalk, valueWalkFuel, if_pos h]

theorem elementWalk_end {pos : ℕ} (h : apdu.length ≤ pos) (count : ℕ) :
    elementWalk (valueWalk apdu) count pos = ([], pos) := by
  induction count with
  | zero => rfl
  | succ count ih =>
    rw [elementWalk, valueWalk_end apdu h]
    exact ih

theorem elementWalk_add (walk : ℕ → Walk) (m n pos : ℕ) :
    elementWalk walk (m + n) pos =
      ((elementWalk walk m pos).1 ++ (elementWalk walk n (elementWalk walk m pos).2).1,
        (elementWalk walk n (elementWalk walk m pos).2).2) := by
  induction m generalizing pos with
  | zero => rw [Nat.zero_add]; rfl
  | succ m ih =>
    rw [Nat.succ_add, elementWalk, elementWalk, ih, List.append_assoc]

variable {oads : List Bytes} (hoads : ∀ oad ∈ oads, oad.length = 4)
include hoads

theorem columnLoop_returns (count i pos : ℕ) :
    Returns (columnLoop store apdu oads count i pos)
      (RoadsWhole apdu (elementWalk (valueWalk apdu) count pos).1)
      (·.2 = (elementWalk (valueWalk apdu) count pos).2) := by
  induction count generalizing i pos with
  | zero => exact returns_whole roadsWhole_nil rfl
  | succ count ih =>
    by_cases hend : pos ≥ apdu.length
    · rw [columnLoop, if_pos hend, elementWalk_end apdu hend]
      exact returns_whole roadsWhole_nil rfl
    have hoad : (oads.getD i [0, 0, 0, 0]).length = 4 := by
      by_cases hi : i < oads.length
      · rw [List.getD_eq_getElem _ _ hi]
        exact hoads _ (List.getElem_mem hi)
      · rw [List.getD_eq_default _ _ (not_lt.mp hi)]
        rfl
    rw [columnLoop, if_neg hend, elementWalk]
    refine ((parseData_returns apdu pos).bind ?_).congr roadsWhole_append.symm
    rintro ⟨val, consumed⟩ rfl
    have hitem : ∀ dataHex typeTag, Total (addOadItem store (oads.getD i [0, 0, 0, 0]) val none
        dataHex typeTag) := fun dataHex typeTag =>
      (addOadItem_returns store _ val none dataHex typeTag).congr (iff_of_true hoad.ge trivial)
    refine (hitem _ _).then fun here _ => ?_
    refine (ih (i + 1) (pos + (valueWalk apdu pos).2)).bind_total ?_
    rintro ⟨rest, last⟩ hlast
    exact returns_pure hlast

theorem rowLoop_returns (columns rows pos : ℕ) :
    Returns (rowLoop store apdu oads columns rows pos)
      (RoadsWhole apdu (elementWalk (valueWalk apdu) (rows * columns) pos).1)
      (·.2 = (elementWalk (valueWalk apdu) (rows * columns) pos).2) := by
  induction rows generalizing pos with
  | zero =>
    rw [Nat.zero_mul]
    exact returns_whole roadsWhole_nil rfl
  | succ rows ih =>
    rw [rowLoop, Nat.succ_mul, Nat.add_comm, elementWalk_add]
    refine ((columnLoop_returns store apdu hoads columns 0 pos).bind ?_).congr roadsWhole_append.symm
    rintro ⟨here, next⟩ rfl
    refine (ih _).bind_total ?_
    rintro ⟨rest, last⟩ hlast
    exact returns_pure hlast

theorem recordLoop_returns (columns records pos : ℕ) :
    Returns (recordLoop store apdu oads columns records pos)
      (RoadsWhole apdu (recordWalk apdu columns records pos).1)
      (·.2 = (recordWalk apdu columns records pos).2) := by
  induction records generalizing pos with
  | zero => exact returns_whole roadsWhole_nil rfl
  | succ records ih =>
    rw [recordLoop, recordWalk]
    by_cases hend : pos ≥ apdu.length
    · rw [if_pos hend, if_pos hend]
      exact returns_whole roadsWhole_nil rfl
    rw [if_neg hend, if_neg hend]
    refine ((rowLoop_returns store apdu hoads columns _ (pos + 1)).bind ?_).congr
      roadsWhole_append.symm
    rintro ⟨here, next⟩ rfl
    refine (ih _).bind_total ?_
    rintro ⟨rest, last⟩ hlast
    exact returns_pure hlast

end Records

/-! ## Services -/

section Services
variable (store : MetadataStore) (apdu : Bytes)

theorem rsdBody_returns :
    Returns (rsdBody store apdu (byteAt apdu 7) 8) (RoadsWhole apdu (requestStarts apdu))
      fun _ => True := by
  unfold rsdBody requestStarts
  by_cases hnone : (byteAt apdu 7 : ℕ) = 0
  · have hone : ¬ (byteAt apdu 7 = 1 ∧ 12 < apdu.length) := by
      rintro ⟨h, -⟩
      rw [h] at hnone
      cases hnone
    rw [if_pos hnone, if_neg hone]
    exact returns_unread
  rw [if_neg hnone]
  by_cases hone : (byteAt apdu 7 : ℕ) = 1
  · have hbyte : byteAt apdu 7 = 1 := Fin.ext hone
    rw [if_pos hone]
    by_cases hoad : 8 + 4 > apdu.length
    · rw [if_pos hoad, if_neg (by omega)]
      exact returns_unread
    rw [if_neg hoad]
    dsimp only
    by_cases hvalue : 8 + 4 < apdu.length
    · rw [if_pos hvalue, if_pos ⟨hbyte, hvalue⟩]
      exact (parseData_returns apdu 12).bind_total fun r _ => returns_pure trivial
    · rw [if_neg hvalue, if_neg (fun h => hvalue h.2)]
      exact returns_unread
  have hother : ¬ (byteAt apdu 7 = 1 ∧ 12 < apdu.length) := by
    rintro ⟨h, -⟩
    rw [h] at hone
    exact hone rfl
  rw [if_neg hone, if_neg hother]
  by_cases hfive : (byteAt apdu 7 : ℕ) = 5
  · rw [if_pos hfive]
    -- the start time is optional, then the set of meters
    split_ifs <;> dsimp only <;> split_ifs <;> exact returns_unread
  · rw [if_neg hfive]
    split_ifs <;> exact returns_unread

theorem parseGetRequestRecord_returns :
    Returns (parseGetRequestRecord store apdu) (RoadsWhole apdu (requestStarts apdu))
      fun _ => True := by
  have hshort : apdu.length ≤ 7 → requestStarts apdu = [] := by
    intro h
    rw [requestStarts, if_neg (by omega)]
  unfold parseGetRequestRecord
  by_cases hpiid : 2 ≥ apdu.length
  · rw [if_pos hpiid, hshort (by omega)]
    exact returns_unread
  rw [if_neg hpiid]
  by_cases hoad : 7 > apdu.length
  · dsimp only
    rw [if_pos hoad, hshort (by omega)]
    exact returns_unread
  dsimp only
  rw [if_neg hoad]
  refine (addOadItem_slice store apdu (by omega) _ _ _ _).then fun oad _ => ?_
  by_cases hrsd : 7 ≥ apdu.length
  · rw [if_pos hrsd, hshort hrsd]
    exact returns_unread
  rw [if_neg hrsd]
  refine (rsdBody_returns store apdu).bind_total ?_
  rintro ⟨body, next⟩ -
  cases next with
  | none => exact returns_pure trivial
  | some pos =>
    dsimp only
    split_ifs <;> exact returns_pure trivial

theorem parseGetRequest_returns :
    Returns (parseGetRequest store apdu)
      (RoadsWhole apdu (if byteAt apdu 1 = 3 then requestStarts apdu else [])) fun _ => True := by
  unfold parseGetRequest
  by_cases hshort : apdu.length < 2
  · have hstarts : requestStarts apdu = [] := by rw [requestStarts, if_neg (by omega)]
    rw [if_pos hshort, hstarts, ite_self]
    exact returns_unread
  rw [if_neg hshort]
  dsimp only
  by_cases hnormal : byteAt apdu 1 = 1 ∧ apdu.length ≥ 7
  · rw [if_pos hnormal, if_neg (by rw [hnormal.1]; decide)]
    refine (addOadItem_slice store apdu hnormal.2 _ _ _ _).then fun item _ => ?_
    exact returns_unread
  rw [if_neg hnormal]
  by_cases hlist : byteAt apdu 1 = 2 ∧ apdu.length ≥ 4
  · rw [if_pos hlist, if_neg (by rw [hlist.1]; decide)]
    exact (oadLoop_total store apdu _ _ 0 4).then fun items _ => returns_unread
  rw [if_neg hlist]
  by_cases hrecord : byteAt apdu 1 = 3
  · rw [if_pos hrecord, if_pos hrecord]
    exact (parseGetRequestRecord_returns store apdu).bind_total fun record _ => returns_pure trivial
  · rw [if_neg hrecord, if_neg hrecord]
    exact returns_unread

theorem getResultLoop_returns (count pos : ℕ) :
    Returns (getResultLoop store apdu count pos) (RoadsWhole apdu (listStarts apdu count pos))
      fun _ => True := by
  induction count generalizing pos with
  | zero => exact returns_unread
  | succ count ih =>
    rw [getResultLoop, listStarts]
    by_cases hend : pos + 4 > apdu.length
    · rw [if_pos hend, if_pos hend]
      exact returns_unread
    rw [if_neg hend, if_neg hend]
    have hitem := fun value => addOadItem_slice store apdu (not_lt.mp hend) value none "" ""
    dsimp only
    by_cases hvalue : pos + 4 < apdu.length ∧ byteAt apdu (pos + 4) = 1
    · rw [if_pos hvalue, if_pos hvalue]
      refine ((parseData_returns apdu (pos + 5)).bind ?_).congr roadsWhole_append.symm
      rintro ⟨val, consumed⟩ rfl
      exact (hitem val).then fun here _ => (ih _).bind_total fun rest _ => returns_pure trivial
    · rw [if_neg hvalue, if_neg hvalue]
      exact (hitem .none).then fun here _ => (ih _).bind_total fun rest _ => returns_pure trivial

theorem parseGetResponseRecord_returns :
    Returns (parseGetResponseRecord store apdu)
      ((3 ≤ apdu.length → 7 < apdu.length) ∧ RoadsWhole apdu (recordStarts apdu)) fun _ => True := by
  unfold parseGetResponseRecord
  by_cases hpiid : 2 ≥ apdu.length
  · have hcolumns : byteAt apdu 7 = 0 := List.getD_eq_default _ _ (by omega)
    have hstarts : recordStarts apdu = [] := by
      rw [recordStarts, hcolumns]
      exact if_pos (show apdu.length ≤ 8 by omega)
    rw [if_pos hpiid, hstarts]
    exact returns_unread.congr ⟨fun h => ⟨fun hlong => by omega, h⟩, fun h => h.2⟩
  rw [if_neg hpiid]
  have hparts : (4 ≤ (slice apdu 3 7).length ∧ 7 < apdu.length ∧ RoadsWhole apdu (recordStarts apdu)) ↔
      (3 ≤ apdu.length → 7 < apdu.length) ∧ RoadsWhole apdu (recordStarts apdu) := by
    rw [slice_length]
    constructor
    · rintro ⟨-, hlong, hwhole⟩
      exact ⟨fun _ => hlong, hwhole⟩
    · rintro ⟨hlong, hwhole⟩
      have hlong := hlong (by omega)
      exact ⟨by omega, hlong, hwhole⟩
  refine ((addOadItem_returns store _ _ _ _ _).bind fun oad _ => ?_).congr hparts
  refine (index_returns apdu 7).bind ?_
  rintro count rfl
  obtain ⟨hend, hoads⟩ := csdLoop_end store apdu "CSD" true (byteAt apdu 7) 0 8
  unfold recordStarts
  dsimp only
  rw [hend]
  by_cases hrecords : csdEnd apdu (byteAt apdu 7) 8 ≥ apdu.length
  · rw [if_pos hrecords, if_pos hrecords]
    exact returns_unread
  · rw [if_neg hrecords, if_neg hrecords]
    exact (recordLoop_returns store apdu hoads _ _ _).bind_total fun r _ => returns_pure trivial

theorem returns_unshort {α : Type} {x : PyM α} {starts : List ℕ} {data : Bytes}
    (hkind : byteAt apdu 1 ≠ 3)
    (h : Returns x (RoadsWhole data starts) fun _ => True) :
    Returns x (¬ ShortRecordAnswer apdu ∧ RoadsWhole data starts) fun _ => True :=
  h.congr (iff_and_self.mpr fun _ hshort => hkind hshort.2.1)

theorem parseGetResponse_returns (hservice : byteAt apdu 0 = 0x85) :
    Returns (parseGetResponse store apdu)
      (¬ ShortRecordAnswer apdu ∧ RoadsWhole (getResponseReads apdu).1 (getResponseReads apdu).2)
      fun _ => True := by
  unfold parseGetResponse getResponseReads
  by_cases hlong : apdu.length < 2
  · have hkind : byteAt apdu 1 = 0 := List.getD_eq_default _ _ (by omega)
    rw [if_pos hlong, hkind]
    exact returns_unshort apdu (by rw [hkind]; decide) returns_unread
  rw [if_neg hlong]
  dsimp only
  by_cases hone : byteAt apdu 1 = 1
  · have hkind : byteAt apdu 1 ≠ 3 := by rw [hone]; decide
    refine returns_unshort apdu hkind ?_
    simp only [hone, true_and]
    by_cases hitem : apdu.length ≥ 7
    · rw [if_pos hitem]
      cases hdata : apdu.drop 7 with
      | nil => exact returns_unread
      | cons tag more =>
        have htag : byteAt (tag :: more) 0 = tag := rfl
        rw [htag]
        dsimp only
        by_cases hdar : tag = 0
        · rw [if_pos hdar, if_pos hdar]
          exact returns_unread
        rw [if_neg hdar, if_neg hdar]
        refine (parseData_returns _ _).bind_total ?_
        rintro ⟨val, consumed⟩ -
        refine (addOadItem_slice store apdu hitem _ _ _ _).then fun item _ => ?_
        exact returns_pure trivial
    · have hnone : apdu.drop 7 = [] := List.drop_eq_nil_of_le (by omega)
      rw [if_neg hitem, hnone]
      exact returns_unread
  have hone' : ¬ (byteAt apdu 1 = 1 ∧ apdu.length ≥ 7) := fun h => hone h.1
  rw [if_neg hone']
  by_cases htwo : byteAt apdu 1 = 2
  · have hkind : byteAt apdu 1 ≠ 3 := by rw [htwo]; decide
    refine returns_unshort apdu hkind ?_
    simp only [htwo, true_and]
    by_cases hcount : apdu.length ≥ 4
    · rw [if_pos hcount]
      exact (getResultLoop_returns store apdu _ 4).bind_total fun items _ => returns_pure trivial
    · have hzero : byteAt apdu 3 = 0 := List.getD_eq_default _ _ (by omega)
      rw [if_neg hcount, hzero]
      exact returns_unread
  have htwo' : ¬ (byteAt apdu 1 = 2 ∧ apdu.length ≥ 4) := fun h => htwo h.1
  rw [if_neg htwo']
  by_cases hthree : byteAt apdu 1 = 3
  · have hshort : (3 ≤ apdu.length → 7 < apdu.length) ↔ ¬ ShortRecordAnswer apdu := by
      rw [ShortRecordAnswer, and_iff_right hservice, and_iff_right hthree]
      omega
    have hrecord := (parseGetResponseRecord_returns store apdu).congr (and_congr_left' hshort)
    simp only [hthree, if_true]
    exact hrecord.bind_total fun record _ => returns_pure trivial
  · rw [if_neg hthree]
    refine returns_unshort apdu hthree ?_
    split
    · rename_i h
      exact absurd (Fin.ext h) hone
    · rename_i h
      exact absurd (Fin.ext h) htwo
    · rename_i h
      exact absurd (Fin.ext h) hthree
    · exact returns_unread

theorem parseSetRequest_returns :
    Returns (parseSetRequest store apdu)
      (RoadsWhole (apdu.drop 7)
        (if byteAt apdu 1 = 1 then (valueWalk (apdu.drop 7) 0).1 else [])) fun _ => True := by
  have hempty : valueWalk [] 0 = ([], 0) := rfl
  unfold parseSetRequest
  by_cases hnormal : byteAt apdu 1 = 1 ∧ apdu.length ≥ 7
  · have hlong : ¬ apdu.length < 2 := by omega
    rw [if_neg hlong, if_pos hnormal.1]
    dsimp only
    rw [if_pos hnormal]
    by_cases hdata : apdu.drop 7 ≠ []
    · rw [if_pos hdata]
      have hvalue : Returns (Prod.fst <$> parseData (apdu.drop 7) 0)
          (RoadsWhole (apdu.drop 7) (valueWalk (apdu.drop 7) 0).1) fun _ => True :=
        (parseData_returns _ 0).map fun r _ => trivial
      refine hvalue.bind_total fun val _ => ?_
      exact (addOadItem_slice store apdu hnormal.2 _ _ _ _).then fun item _ => returns_pure trivial
    · rw [if_neg hdata, not_not.mp hdata, hempty]
      refine (addOadItem_slice store apdu hnormal.2 _ _ _ _).then fun item _ => ?_
      exact returns_unread
  · have hunread : (if byteAt apdu 1 = 1 then (valueWalk (apdu.drop 7) 0).1 else []) = [] := by
      by_cases hone : byteAt apdu 1 = 1
      · have hnone : apdu.drop 7 = [] := List.drop_eq_nil_of_le (by
          have hshort : ¬ apdu.length ≥ 7 := fun h => hnormal ⟨hone, h⟩
          omega)
        rw [if_pos hone, hnone, hempty]
      · rw [if_neg hone]
    rw [hunread]
    dsimp only
    rw [if_neg hnormal]
    split_ifs <;> exact returns_unread

theorem parseSetResponse_returns :
    Returns (parseSetResponse store apdu)
      (RoadsWhole (resultPart apdu) (resultStarts (resultPart apdu))) fun _ => True := by
  unfold parseSetResponse resultPart
  by_cases hshort : apdu.length < 3
  · have hnone : apdu.drop 3 = [] := List.drop_eq_nil_of_le (by omega)
    rw [if_pos hshort, if_neg (by omega), hnone]
    exact returns_unread
  rw [if_neg hshort]
  dsimp only
  by_cases hnormal : byteAt apdu 1 = 1 ∧ apdu.length ≥ 7
  · rw [if_pos hnormal, if_pos hnormal]
    refine (addOadItem_slice store apdu hnormal.2 _ _ _ _).then fun item _ => ?_
    exact (parseResultData_returns _ _).bind_total fun result _ => returns_pure trivial
  · rw [if_neg hnormal, if_neg hnormal]
    exact (parseResultData_returns _ _).bind_total fun result _ => returns_pure trivial

theorem parseActionRequest_returns :
    Returns (parseActionRequest apdu)
      (RoadsWhole (apdu.drop 7)
        (if byteAt apdu 1 = 1 then resultStarts (apdu.drop 7) else [])) fun _ => True := by
  unfold parseActionRequest
  by_cases hnormal : byteAt apdu 1 = 1 ∧ apdu.length ≥ 7
  · have hlong : ¬ apdu.length < 2 := by omega
    rw [if_neg hlong, if_pos hnormal.1]
    dsimp only
    rw [if_pos hnormal]
    exact (parseResultData_returns _ _).bind_total fun result _ => returns_pure trivial
  · have hunread : (if byteAt apdu 1 = 1 then resultStarts (apdu.drop 7) else []) = [] := by
      by_cases hone : byteAt apdu 1 = 1
      · have hnone : apdu.drop 7 = [] := List.drop_eq_nil_of_le (by
          have hshort : ¬ apdu.length ≥ 7 := fun h => hnormal ⟨hone, h⟩
          omega)
        rw [if_pos hone, hnone]
        rfl
      · rw [if_neg hone]
    rw [hunread]
    dsimp only
    rw [if_neg hnormal]
    split_ifs <;> exact returns_unread

theorem parseActionResponse_returns :
    Returns (parseActionResponse apdu)
      (RoadsWhole (resultPart apdu) (resultStarts (resultPart apdu))) fun _ => True := by
  unfold parseActionResponse resultPart
  by_cases hshort : apdu.length < 3
  · have hnone : apdu.drop 3 = [] := List.drop_eq_nil_of_le (by omega)
    rw [if_pos hshort, if_neg (by omega), hnone]
    exact returns_unread
  rw [if_neg hshort]
  dsimp only
  by_cases hnormal : byteAt apdu 1 = 1 ∧ apdu.length ≥ 7
  · rw [if_pos hnormal, if_pos hnormal]
    exact (parseResultData_returns _ _).bind_total fun result _ => returns_pure trivial
  · rw [if_neg hnormal, if_neg hnormal]
    exact (parseResultData_returns _ _).bind_total fun result _ => returns_pure trivial

theorem proxyLoop_total (count i pos : ℕ) : Total (proxyLoop store apdu count i pos) := by
  induction count generalizing i pos with
  | zero => exact returns_pure trivial
  | succ count ih =>
    unfold proxyLoop
    dsimp only
    split_ifs
    · exact returns_pure trivial
    · exact returns_pure trivial
    · exact returns_pure trivial
    · refine (oadLoop_total store apdu _ _ 0 _).then ?_
      rintro ⟨oads, pos⟩ -
      exact (ih _ _).then fun rest _ => returns_pure trivial

theorem parseProxyRequest_total : Total (parseProxyRequest store apdu) := by
  unfold parseProxyRequest
  by_cases hshort : apdu.length < 3
  · rw [if_pos hshort]
    exact returns_pure trivial
  rw [if_neg hshort]
  dsimp only
  -- the servers are optional after either form of the timeout
  split_ifs <;> dsimp only
  · exact (proxyLoop_total store apdu _ 0 _).andThen fun r => returns_pure trivial
  · exact returns_pure trivial
  · exact (proxyLoop_total store apdu _ 0 _).andThen fun r => returns_pure trivial
  · exact returns_pure trivial

/-! ## Whole APDUs -/

theorem readable_nil : Readable [] := by
  refine ⟨?_, roadsWhole_nil⟩
  rintro ⟨-, -, hlong, -⟩
  cases hlong

theorem openedFuel_nil (fuel : ℕ) : openedFuel fuel [] = [] := by
  cases fuel with
  | zero => rfl
  | succ fuel => rfl

section Whole
variable {apdu} {service : ℕ} (hservice : (byteAt apdu 0 : ℕ) = service)
include hservice

theorem readable_iff_whole (hanswer : service ≠ 0x85) :
    Readable apdu ↔ RoadsWhole (apduReads apdu).1 (apduReads apdu).2 := by
  refine ⟨Readable.whole, fun h => ⟨?_, h⟩⟩
  rintro ⟨hbyte, -⟩
  rw [hbyte] at hservice
  exact hanswer hservice.symm

theorem apduReads_none (hnone : service ∉ [0x05, 0x85, 0x06, 0x07, 0x86, 0x87]) :
    apduReads apdu = (apdu, []) := by
  rw [apduReads, hservice]
  split <;> first | rfl | exact absurd (by decide) hnone

/-- A service that is no record response and no envelope. -/
theorem returns_service {α : Type} {x : PyM α} {reads : Bytes × List ℕ} (fuel : ℕ)
    (hanswer : service ≠ 0x85) (hplain : service ≠ 0x10 ∧ service ≠ 0x90)
    (hreads : apduReads apdu = reads)
    (h : Returns x (RoadsWhole reads.1 reads.2) fun _ => True) :
    Returns x (Readable (openedFuel (fuel + 1) apdu)) fun _ => True := by
  have hopened : openedFuel (fuel + 1) apdu = apdu := by
    rw [openedFuel, if_neg]
    rintro (hbyte | hbyte)
    · rw [hbyte] at hservice
      exact hplain.1 hservice.symm
    · rw [hbyte] at hservice
      exact hplain.2 hservice.symm
  rw [hopened, readable_iff_whole hservice hanswer, hreads]
  exact h

end Whole

theorem parseApduFuel_returns (fuel : ℕ) (apdu : Bytes) (hsome : apdu ≠ []) :
    Returns (parseApduFuel store fuel apdu) (Readable (openedFuel fuel apdu)) fun _ => True := by
  induction fuel generalizing apdu with
  | zero => exact (returns_pure trivial).congr (iff_of_true trivial readable_nil)
  | succ fuel ih =>
    have hindex : 0 < apdu.length := List.length_pos_of_ne_nil hsome
    unfold parseApduFuel
    refine ((index_returns apdu 0).congr (iff_of_true hindex trivial)).then ?_
    rintro tag rfl
    generalize htag : (byteAt apdu 0 : ℕ) = tag
    dsimp only
    split
    · exact returns_service htag fuel (by decide) (by decide) (by rw [apduReads, htag])
        (parseGetRequest_returns store apdu)
    · have hbyte : byteAt apdu 0 = 0x85 := Fin.ext htag
      have hreads : apduReads apdu = getResponseReads apdu := by
        rw [apduReads, htag]
        rfl
      have hopened : openedFuel (fuel + 1) apdu = apdu := by
        rw [openedFuel, if_neg]
        rw [hbyte]
        decide
      rw [hopened]
      refine (parseGetResponse_returns store apdu hbyte).congr ?_
      rw [← hreads]
      exact ⟨fun h => ⟨h.1, h.2⟩, fun h => ⟨h.longEnough, h.whole⟩⟩
    · exact returns_service htag fuel (by decide) (by decide) (by rw [apduReads, htag])
        (parseSetRequest_returns store apdu)
    · exact returns_service htag fuel (by decide) (by decide) (by rw [apduReads, htag])
        (parseSetResponse_returns store apdu)
    · exact returns_service htag fuel (by decide) (by decide) (by rw [apduReads, htag])
        (parseActionRequest_returns apdu)
    · exact returns_service htag fuel (by decide) (by decide) (by rw [apduReads, htag])
        (parseActionResponse_returns apdu)
    · exact returns_service htag fuel (by decide) (by decide) (by rw [apduReads, htag])
        ((parseProxyRequest_total store apdu).congr (iff_of_true trivial roadsWhole_nil))
    · unfold parseProxyResponse
      split_ifs <;> exact returns_service htag fuel (by decide) (by decide)
        (apduReads_none htag (by decide)) returns_unread
    case h_9 | h_10 =>
      have henvelope : byteAt apdu 0 = 0x10 ∨ byteAt apdu 0 = 0x90 := by
        first
          | exact Or.inl (Fin.ext htag)
          | exact Or.inr (Fin.ext htag)
      have hempty : ∀ out : ApduOut, Returns (pure out : PyM ApduOut) (Readable []) fun _ => True :=
        fun _ => (returns_pure trivial).congr (iff_of_true trivial readable_nil)
      rw [openedFuel, if_pos henvelope]
      by_cases hshort : apdu.length < 3
      · rw [if_pos hshort, if_pos (Or.inl hshort)]
        exact hempty _
      rw [if_neg hshort]
      by_cases hchoice : byteAt apdu 1 = 2
      · rw [if_pos hchoice, if_pos (Or.inr hchoice)]
        exact hempty _
      rw [if_neg hchoice, if_neg (not_or.mpr ⟨hshort, hchoice⟩)]
      cases hlength : securityLength apdu with
      | none => exact hempty _
      | some bounds =>
        obtain ⟨innerLen, pos⟩ := bounds
        dsimp only
        cases hinner : slice apdu pos (pos + innerLen) with
        | nil =>
          rw [openedFuel_nil]
          exact hempty _
        | cons innerTag rest =>
          exact (ih _ (List.cons_ne_nil _ _)).bind_total fun body _ => returns_pure trivial
    case h_11 | h_12 | h_13 | h_14 | h_15 | h_16 | h_17 | h_18 | h_19 =>
      exact returns_service htag fuel (by decide) (by decide) (apduReads_none htag (by decide))
        returns_unread
    case h_20 =>
      have hnone : tag ∉ [0x05, 0x85, 0x06, 0x07, 0x86, 0x87] := by
        simp only [List.mem_cons, List.not_mem_nil, or_false]
        tauto
      exact returns_service htag fuel (by assumption) ⟨by assumption, by assumption⟩
        (apduReads_none htag hnone) returns_unread

theorem securityLength_pos {apdu : Bytes} {innerLen pos : ℕ}
    (h : securityLength apdu = some (innerLen, pos)) : 3 ≤ pos := by
  unfold securityLength at h
  dsimp only at h
  split_ifs at h <;> obtain ⟨rfl, rfl⟩ := Prod.mk.inj (Option.some.inj h) <;> omega

/-- The envelopes never use the fuel up. -/
theorem parseApduFuel_enough {fuel fuel' : ℕ} {apdu : Bytes} (h : apdu.length < fuel)
    (h' : apdu.length < fuel') : parseApduFuel store fuel apdu = parseApduFuel store fuel' apdu := by
  induction fuel generalizing fuel' apdu with
  | zero => omega
  | succ fuel ih =>
    cases fuel' with
    | zero => omega
    | succ fuel' =>
      have hinner : ∀ pos n, 3 ≤ pos → ¬ apdu.length < 3 →
          parseApduFuel store fuel (slice apdu pos (pos + n)) =
            parseApduFuel store fuel' (slice apdu pos (pos + n)) := by
        intro pos n hpos hlong
        have hshorter : (slice apdu pos (pos + n)).length ≤ apdu.length - 3 := by
          rw [slice_length]
          omega
        exact ih (by omega) (by omega)
      unfold parseApduFuel
      refine bind_congr fun tag => ?_
      generalize (tag : ℕ) = service
      -- only the envelopes parse another APDU
      split
      case h_9 | h_10 =>
        by_cases hshort : apdu.length < 3
        · rw [if_pos hshort, if_pos hshort]
        rw [if_neg hshort, if_neg hshort]
        cases hlength : securityLength apdu with
        | none => rfl
        | some bounds =>
          obtain ⟨innerLen, pos⟩ := bounds
          dsimp only
          rw [hinner pos innerLen (securityLength_pos hlength) hshort]
      all_goals rfl

theorem parseApdu_returns (hsome : apdu ≠ []) :
    Returns (parseApdu store apdu) (Readable (opened apdu)) fun _ => True :=
  parseApduFuel_returns store _ apdu hsome

end Services

/-! ## Frames -/

section Frames
variable {store : MetadataStore} {buf raw : Bytes}

/-- The APDU of a frame that `tryExtract` has cut. -/
def frameApdu (raw : Bytes) : Bytes := slice raw (4 + saLen (byteAt raw 4) + 3) (raw.length - 3)

theorem index_total {i : ℕ} (h : i < raw.length) :
    Returns (index raw i) True (· = byteAt raw i) :=
  (index_returns raw i).congr (iff_of_true h trivial)

theorem decodeLink_returns (hlong : 4 + saLen (byteAt raw 4) < raw.length) :
    Returns (decodeLink raw) True (·.apdu = frameApdu raw) := by
  unfold decodeLink
  refine (index_total (by omega)).then fun lo _ => ?_
  refine (index_total (by omega)).then fun hi _ => ?_
  refine (index_total (by omega)).then fun c _ => ?_
  refine (index_total (by omega)).then ?_
  rintro saHead rfl
  exact (index_total (by omega)).then fun ca _ => returns_pure rfl

/-- A frame with its address is decoded exactly when its innermost APDU is readable. -/
theorem decode_returns_of_address (hlong : 4 + saLen (byteAt raw 4) < raw.length) :
    Returns (decode store raw) (Readable (opened (frameApdu raw))) fun _ => True := by
  unfold decode
  refine (decodeLink_returns hlong).then ?_
  rintro l hl
  rw [← hl]
  dsimp only
  cases hapdu : l.apdu with
  | nil => exact (returns_pure trivial).congr (iff_of_true trivial readable_nil)
  | cons tag rest =>
    exact (parseApdu_returns store _ (List.cons_ne_nil _ _)).bind_total fun out _ =>
      returns_pure trivial

/-- A cut frame is decoded exactly when its innermost APDU is readable. -/
theorem decode_returns {r : ExtractResult} (hcut : tryExtract buf = some r) :
    Returns (decode store r.raw) (Readable (opened (frameApdu r.raw))) fun _ => True := by
  obtain ⟨L, ⟨-, -, -, -, -, hlong, -, hroom⟩, rfl⟩ := tryExtract_eq_some_iff.mp hcut
  have hlength : (buf.take (L + 2)).length = L + 2 := by
    rw [List.length_take]
    omega
  have hhead : byteAt (buf.take (L + 2)) 4 = byteAt buf 4 := byteAt_take (by omega)
  refine decode_returns_of_address ?_
  rw [hhead, hlength]
  omega

end Frames

end HplcWorkbench.Adapter698
