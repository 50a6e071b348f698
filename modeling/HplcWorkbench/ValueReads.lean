import HplcWorkbench.Apdu698
import HplcWorkbench.ExactOutcomes

/-!
# Where A-XDR values are read

Reading a value visits the values inside it one after another. A walk says where each of them
starts and where the reader stops, from the sizes alone; the parser fails exactly at a `ROAD` whose
count byte is missing although bytes follow its tag.
-/

namespace HplcWorkbench.Adapter698
open ExactOutcomes

/-- The starts of the values read, and the bytes they take or the position after them. -/
abbrev Walk := List ℕ × ℕ

/-- The bytes that a value of `size` bytes takes with its tag. -/
def fixedSize (data : Bytes) (offset size : ℕ) : ℕ :=
  if offset + size < data.length then 1 + size else 1

/-- The bytes that a value with a length byte takes with its tag. -/
def countedSize (data : Bytes) (offset : ℕ) : ℕ :=
  if offset + 1 ≥ data.length then 1
  else
    let ln := (byteAt data (offset + 1) : ℕ)
    if offset + 1 + ln < data.length then 2 + ln else 1

/-- The bytes that a value takes which holds no other values. -/
def leafSize (data : Bytes) (offset : ℕ) : ℕ → ℕ
  | 0 => 1
  | 3 | 15 | 17 | 22 => fixedSize data offset 1
  | 16 | 18 | 80 => fixedSize data offset 2
  | 27 => fixedSize data offset 3
  | 5 | 6 | 23 | 81 => fixedSize data offset 4
  | 26 => fixedSize data offset 5
  | 28 => fixedSize data offset 7
  | 20 | 21 | 24 => fixedSize data offset 8
  | 25 => fixedSize data offset 10
  | 4 | 9 | 10 | 12 => countedSize data offset
  | 82 => if offset + 1 ≥ data.length then 1 else 6 + 4 * (byteAt data (offset + 5) : ℕ)
  | _ => data.length - offset

/-- The walk over `count` values from `pos` on, with the position after them. -/
def elementWalk (walk : ℕ → Walk) : ℕ → ℕ → Walk
  | 0, pos => ([], pos)
  | count + 1, pos =>
    let here := walk pos
    let rest := elementWalk walk count (pos + here.2)
    (here.1 ++ rest.1, rest.2)

/-- The walk of `parseDataFuel`, with the bytes of the value. -/
def valueWalkFuel : ℕ → Bytes → ℕ → Walk
  | 0, _, _ => ([], 0)
  | fuel + 1, data, offset =>
    if offset ≥ data.length then ([], 0)
    else
      let tag := (byteAt data offset : ℕ)
      if tag = 1 ∨ tag = 2 then
        if offset + 1 ≥ data.length then ([offset], 1)
        else
          let inside := elementWalk (valueWalkFuel fuel data) (byteAt data (offset + 1)) (offset + 2)
          (offset :: inside.1, inside.2 - offset)
      else ([offset], leafSize data offset tag)

def valueWalk (data : Bytes) (offset : ℕ) : Walk := valueWalkFuel (data.length + 1) data offset

/-- A `ROAD` at `p` whose count byte is missing although bytes follow its tag. -/
def CutRoad (data : Bytes) (p : ℕ) : Prop :=
  byteAt data p = 82 ∧ p + 1 < data.length ∧ data.length ≤ p + 5

instance (data : Bytes) (p : ℕ) : Decidable (CutRoad data p) := by
  unfold CutRoad
  infer_instance

/-- None of the values read is a cut `ROAD`. -/
def RoadsWhole (data : Bytes) (starts : List ℕ) : Prop := ∀ p ∈ starts, ¬ CutRoad data p

theorem index_returns (data : Bytes) (i : ℕ) :
    Returns (index data i) (i < data.length) (· = byteAt data i) := by
  unfold index
  cases hb : data[i]? with
  | none =>
    have hshort := List.getElem?_eq_none_iff.mp hb
    exact (returns_error _).congr (iff_of_false id (by omega))
  | some b =>
    have hlt := (List.getElem?_eq_some_iff.mp hb).1
    have hbyte : b = byteAt data i := by rw [byteAt, List.getD_eq_getElem?_getD, hb, Option.getD_some]
    have hok : Returns (pure b : PyM Byte) True (· = byteAt data i) := returns_pure hbyte
    exact hok.congr (iff_of_true trivial hlt)

section Values
variable {data : Bytes} {offset : ℕ}

theorem fixedData_size (size : ℕ) (show_ : Bytes → PyVal) :
    (fixedData data offset size show_).2 = fixedSize data offset size := by
  unfold fixedData fixedSize
  split_ifs <;> rfl

theorem countedData_size (show_ : Bytes → PyVal) :
    (countedData data offset show_).2 = countedSize data offset := by
  unfold countedData countedSize
  dsimp only
  split_ifs <;> rfl

theorem roadsWhole_append {starts more : List ℕ} :
    RoadsWhole data (starts ++ more) ↔ RoadsWhole data starts ∧ RoadsWhole data more :=
  List.forall_mem_append

theorem roadsWhole_nil : RoadsWhole data [] := fun _ hp => absurd hp List.not_mem_nil

/-- A reader that ends where its walk ends, whose values are whole. -/
theorem returns_whole {α : Type} {v : α × ℕ} {starts : List ℕ} {n : ℕ} (h : RoadsWhole data starts)
    (hend : v.2 = n) : Returns (pure v : PyM (α × ℕ)) (RoadsWhole data starts) (·.2 = n) := by
  have hok : Returns (pure v : PyM (α × ℕ)) True (·.2 = n) := returns_pure hend
  exact hok.congr (iff_of_true trivial h)

theorem elements_returns {parse : ℕ → PyM (PyVal × ℕ)} {walk : ℕ → Walk}
    (hparse : ∀ pos, Returns (parse pos) (RoadsWhole data (walk pos).1) (·.2 = (walk pos).2))
    (count pos : ℕ) :
    Returns (elements parse count pos) (RoadsWhole data (elementWalk walk count pos).1)
      (·.2 = (elementWalk walk count pos).2) := by
  induction count generalizing pos with
  | zero => exact returns_whole roadsWhole_nil rfl
  | succ count ih =>
    rw [elements, elementWalk]
    refine ((hparse pos).bind ?_).congr roadsWhole_append.symm
    rintro ⟨v, consumed⟩ rfl
    refine (ih (pos + (walk pos).2)).bind_total ?_
    rintro ⟨vs, next⟩ hnext
    exact returns_pure hnext

theorem roadsWhole_of_tag {tag : ℕ} (htag : (byteAt data offset : ℕ) = tag) (h : tag ≠ 82) :
    RoadsWhole data [offset] := by
  intro p hp hcut
  obtain rfl := List.mem_singleton.mp hp
  exact h (htag.symm.trans (congrArg Fin.val hcut.1))

/-- An array or a structure. -/
theorem composite_returns {parse : ℕ → PyM (PyVal × ℕ)} {walk : ℕ → Walk}
    (hparse : ∀ pos, Returns (parse pos) (RoadsWhole data (walk pos).1) (·.2 = (walk pos).2))
    (hwhole : RoadsWhole data [offset]) (count : ℕ) :
    let w : Walk := if offset + 1 ≥ data.length then ([offset], 1)
      else (offset :: (elementWalk walk count (offset + 2)).1,
        (elementWalk walk count (offset + 2)).2 - offset)
    Returns (if offset + 1 ≥ data.length then pure (.str "<raw>", 1)
      else do
        let x ← elements parse count (offset + 2)
        pure (.list x.1, x.2 - offset) : PyM (PyVal × ℕ)) (RoadsWhole data w.1) (·.2 = w.2) := by
  by_cases hend : offset + 1 ≥ data.length
  · rw [if_pos hend, if_pos hend]
    exact returns_whole hwhole rfl
  rw [if_neg hend, if_neg hend]
  have hinside := elements_returns hparse count (offset + 2)
  have hstart : RoadsWhole data (offset :: (elementWalk walk count (offset + 2)).1) ↔
      RoadsWhole data (elementWalk walk count (offset + 2)).1 := by
    rw [← List.singleton_append, roadsWhole_append, and_iff_right hwhole]
  refine (hinside.bind_total ?_).congr hstart.symm
  rintro ⟨vals, pos⟩ rfl
  exact returns_pure rfl

/-- A `ROAD`. -/
theorem road_returns (htag : (byteAt data offset : ℕ) = 82) :
    Returns (if offset + 1 ≥ data.length then pure (.str "<raw>", 1)
      else do
        let ln ← index data (offset + 5)
        pure (.dict [("OAD", .str (hex (slice data (offset + 1) (offset + 5)))),
          ("rows", .list (roadRows data offset ln))], 6 + 4 * (ln : ℕ)) : PyM (PyVal × ℕ))
      (RoadsWhole data [offset]) (·.2 = leafSize data offset 82) := by
  have htag' : byteAt data offset = 82 := Fin.ext htag
  have hcut : RoadsWhole data [offset] ↔ ¬ (offset + 1 < data.length ∧ data.length ≤ offset + 5) := by
    rw [RoadsWhole, List.forall_mem_singleton, CutRoad, and_iff_right htag']
  rw [leafSize]
  by_cases hend : offset + 1 ≥ data.length
  · have hwhole : RoadsWhole data [offset] := hcut.mpr (by omega)
    rw [if_pos hend, if_pos hend]
    exact returns_whole hwhole rfl
  rw [if_neg hend, if_neg hend]
  refine ((index_returns data (offset + 5)).bind_total ?_).congr ?_
  · rintro ln rfl
    exact returns_pure rfl
  · rw [hcut]
    omega

theorem parseDataFuel_returns (fuel : ℕ) (data : Bytes) (offset : ℕ) :
    Returns (parseDataFuel fuel data offset)
      (RoadsWhole data (valueWalkFuel fuel data offset).1)
      (·.2 = (valueWalkFuel fuel data offset).2) := by
  induction fuel generalizing offset with
  | zero => exact returns_whole roadsWhole_nil rfl
  | succ fuel ih =>
    rw [parseDataFuel, valueWalkFuel]
    by_cases hend : offset ≥ data.length
    · rw [if_pos hend, if_pos hend]
      exact returns_whole roadsWhole_nil rfl
    rw [if_neg hend, if_neg hend]
    generalize htag : (byteAt data offset : ℕ) = tag
    dsimp only
    by_cases hcomposite : tag = 1 ∨ tag = 2
    · have hwhole := roadsWhole_of_tag htag (by omega)
      rw [if_pos hcomposite]
      rcases hcomposite with rfl | rfl
      · exact composite_returns ih hwhole _
      · exact composite_returns ih hwhole _
    rw [if_neg hcomposite]
    by_cases hroad : tag = 82
    · subst hroad
      exact road_returns htag
    have hwhole := roadsWhole_of_tag htag hroad
    split
    all_goals first
      | exact returns_whole hwhole rfl
      | exact returns_whole hwhole (fixedData_size _ _)
      | exact returns_whole hwhole (countedData_size _)
      | omega
      | exact returns_whole hwhole (by rw [leafSize] <;> assumption)

theorem elements_congr {parse parse' : ℕ → PyM (PyVal × ℕ)} {pos : ℕ}
    (h : ∀ p ≥ pos, parse p = parse' p) (count : ℕ) :
    elements parse count pos = elements parse' count pos := by
  induction count generalizing pos with
  | zero => rfl
  | succ count ih =>
    rw [elements, elements, h pos le_rfl]
    refine bind_congr fun r => ?_
    obtain ⟨v, consumed⟩ := r
    have hrest : elements parse count (pos + consumed) = elements parse' count (pos + consumed) :=
      ih fun p hp => h p (by omega)
    dsimp only
    rw [hrest]

/-- The nesting never uses the fuel up. -/
theorem parseDataFuel_enough {fuel fuel' : ℕ} (h : data.length < offset + fuel)
    (h' : data.length < offset + fuel') :
    parseDataFuel fuel data offset = parseDataFuel fuel' data offset := by
  induction fuel generalizing fuel' offset with
  | zero =>
    cases fuel' with
    | zero => rfl
    | succ fuel' => rw [parseDataFuel_past (by omega), parseDataFuel_past (by omega)]
  | succ fuel ih =>
    cases fuel' with
    | zero => rw [parseDataFuel_past (by omega), parseDataFuel_past (by omega)]
    | succ fuel' =>
      have hinside : elements (parseDataFuel fuel data) (byteAt data (offset + 1)) (offset + 2) =
          elements (parseDataFuel fuel' data) (byteAt data (offset + 1)) (offset + 2) :=
        elements_congr (fun p hp => ih (by omega) (by omega)) _
      rw [parseDataFuel, parseDataFuel]
      dsimp only
      rw [hinside]

theorem parseData_returns (data : Bytes) (offset : ℕ) :
    Returns (parseData data offset) (RoadsWhole data (valueWalk data offset).1)
      (·.2 = (valueWalk data offset).2) :=
  parseDataFuel_returns _ data offset

end Values

end HplcWorkbench.Adapter698
