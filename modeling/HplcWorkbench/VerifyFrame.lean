import HplcWorkbench.Facade
import HplcWorkbench.OrderedDict

/-!
# Verifying a frame

`verify` decodes a frame and compares named fields of it with what the caller expects. The names
are those of a flat table in which an embedded frame gives its place as a prefix, and in which a
later field of one name takes the place of an earlier one. How Python prints a value and how it
folds case are parameters.
-/

namespace HplcWorkbench.Facade
open Adapter10376 (pyStrip)
open OrderedDict

/-! ## The flat table -/

/-- One entry of `fields` or `items`. -/
def addNamed (out : Dict String PyVal) (entry : DataField) : Dict String PyVal :=
  if entry.name ≠ "" then out.set entry.name entry.value else out

/-- `f"nested[{idx}].{name}"`. -/
def nestedName (idx : ℕ) (name : String) : String := "nested[" ++ toString idx ++ "]." ++ name

def addNested (idx : ℕ) (inner : List (String × PyVal)) (out : Dict String PyVal) :
    Dict String PyVal :=
  inner.foldl (fun out e => out.set (nestedName idx e.1) e.2) out

mutual

/-- `_flatten_named`. -/
def flattenNamed : ProtocolFrame → Dict String PyVal → Dict String PyVal
  | ⟨_, _, fields, items, nested, _, _⟩, out =>
    flattenNested nested 0 (items.foldl addNamed (fields.foldl addNamed out))

/-- The loop of `_flatten_named` over the embedded frames. -/
def flattenNested : List ProtocolFrame → ℕ → Dict String PyVal → Dict String PyVal
  | [], _, out => out
  | sub :: rest, idx, out =>
    flattenNested rest (idx + 1) (addNested idx (flattenNamed sub .empty).entries out)

end

/-- The frame has a field of this name and value, itself or in an embedded frame. -/
inductive Shown : ProtocolFrame → String → PyVal → Prop
  | field {frame : ProtocolFrame} {entry : DataField} (hmem : entry ∈ frame.fields)
      (hname : entry.name ≠ "") : Shown frame entry.name entry.value
  | item {frame : ProtocolFrame} {entry : DataField} (hmem : entry ∈ frame.items)
      (hname : entry.name ≠ "") : Shown frame entry.name entry.value
  | nested {frame sub : ProtocolFrame} {idx : ℕ} {name : String} {value : PyVal}
      (hsub : frame.nested[idx]? = some sub) (hshown : Shown sub name value) :
      Shown frame (nestedName idx name) value

section Table
variable {out : Dict String PyVal} {name : String} {value : PyVal}

theorem set_get? {d : Dict String PyVal} {key : String} {new : PyVal}
    (h : (d.set key new).get? name = some value) :
    name = key ∧ value = new ∨ d.get? name = some value := by
  have hmem := (Dict.get?_eq_some_iff (d.set key new) name value).mp h
  rcases Dict.mem_set d key new hmem with hnew | hold
  · exact Or.inl (Prod.mk.inj hnew)
  · exact Or.inr ((Dict.get?_eq_some_iff d name value).mpr hold)

theorem addNamed_fold {entries : List DataField}
    (h : (entries.foldl addNamed out).get? name = some value) :
    out.get? name = some value ∨
      ∃ entry ∈ entries, entry.name ≠ "" ∧ entry.name = name ∧ entry.value = value := by
  induction entries generalizing out with
  | nil => exact Or.inl h
  | cons entry rest ih =>
    rw [List.foldl_cons] at h
    rcases ih h with hout | ⟨e, he, hshown⟩
    · by_cases hname : entry.name ≠ ""
      · rw [addNamed, if_pos hname] at hout
        rcases set_get? hout with ⟨rfl, rfl⟩ | hold
        · exact Or.inr ⟨entry, List.mem_cons_self, hname, rfl, rfl⟩
        · exact Or.inl hold
      · rw [addNamed, if_neg hname] at hout
        exact Or.inl hout
    · exact Or.inr ⟨e, List.mem_cons_of_mem _ he, hshown⟩

theorem addNested_get? {idx : ℕ} {inner : List (String × PyVal)}
    (h : (addNested idx inner out).get? name = some value) :
    out.get? name = some value ∨ ∃ e ∈ inner, nestedName idx e.1 = name ∧ e.2 = value := by
  unfold addNested at h
  induction inner generalizing out with
  | nil => exact Or.inl h
  | cons e rest ih =>
    rw [List.foldl_cons] at h
    rcases ih h with hout | ⟨e', he', hshown⟩
    · rcases set_get? hout with ⟨rfl, rfl⟩ | hold
      · exact Or.inr ⟨e, List.mem_cons_self, rfl, rfl⟩
      · exact Or.inl hold
    · exact Or.inr ⟨e', List.mem_cons_of_mem _ he', hshown⟩

end Table

mutual

/-- What the table says, the frame shows. -/
theorem flattenNamed_get? : ∀ (frame : ProtocolFrame) {out : Dict String PyVal} {name : String}
    {value : PyVal}, (flattenNamed frame out).get? name = some value →
    out.get? name = some value ∨ Shown frame name value
  | ⟨text, addr, fields, items, nested, raw, warnings⟩, out, name, value, h => by
    rw [flattenNamed] at h
    rcases flattenNested_get? nested h with hout | ⟨i, sub, inner, hsub, rfl, hshown⟩
    · rcases addNamed_fold hout with hfields | ⟨entry, hmem, hname, rfl, rfl⟩
      · rcases addNamed_fold hfields with hold | ⟨entry, hmem, hname, rfl, rfl⟩
        · exact Or.inl hold
        · exact Or.inr (.field hmem hname)
      · exact Or.inr (.item hmem hname)
    · rw [Nat.zero_add]
      exact Or.inr (.nested hsub hshown)

theorem flattenNested_get? : ∀ (nested : List ProtocolFrame) {idx : ℕ} {out : Dict String PyVal}
    {name : String} {value : PyVal}, (flattenNested nested idx out).get? name = some value →
    out.get? name = some value ∨ ∃ i sub inner, nested[i]? = some sub ∧
      name = nestedName (idx + i) inner ∧ Shown sub inner value
  | [], idx, out, name, value, h => by
    rw [flattenNested] at h
    exact Or.inl h
  | sub :: rest, idx, out, name, value, h => by
    rw [flattenNested] at h
    rcases flattenNested_get? rest h with hout | ⟨i, sub', inner, hsub, hname, hshown⟩
    · rcases addNested_get? hout with hold | ⟨e, he, hname, hvalue⟩
      · exact Or.inl hold
      · have hinner := (Dict.get?_eq_some_iff (flattenNamed sub .empty) e.1 e.2).mpr he
        rcases flattenNamed_get? sub hinner with hempty | hshown
        · rw [Dict.get?_empty] at hempty
          cases hempty
        · exact Or.inr ⟨0, sub, e.1, rfl, hname.symm, hvalue ▸ hshown⟩
    · refine Or.inr ⟨i + 1, sub', inner, hsub, ?_, hshown⟩
      rw [hname, Nat.add_right_comm]
      rfl

end

/-! ## Matching -/

/-- `diff`. A mismatch has the expected and the actual value. -/
structure Diff where
  matched : List (String × PyVal) := []
  missing : List (String × PyVal) := []
  mismatched : List (String × PyVal × PyVal) := []

/-- The dictionary `verify` returns for a frame it could decode. -/
structure Verified where
  protocol : String
  mode : String
  verified : Bool
  diff : Diff
  frame : ProtocolFrame
  warnings : List String
  confidence : Option ℕ

inductive VerifyResult
  | refused (r : DecodeResult)
  | checked (v : Verified)

/-- `r.get("verified")`. -/
def VerifyResult.verified : VerifyResult → Bool
  | refused _ => false
  | checked v => v.verified

section Matching
variable (str : PyVal → String) (upperCase : String → String)

/-- `_norm_value`. -/
def normValue (value : PyVal) : String :=
  dropSpaces (upperCase (String.ofList (pyStrip (str value).toList)))

/-- One round of the loop of `_match_expect`. -/
def matchOne (flat : Dict String PyVal) (diff : Diff) (expected : String × PyVal) : Diff :=
  match flat.get? expected.1 with
  | none => { diff with missing := diff.missing ++ [expected] }
  | some actual =>
    if normValue str upperCase actual = normValue str upperCase expected.2 then
      { diff with matched := diff.matched ++ [(expected.1, actual)] }
    else { diff with mismatched := diff.mismatched ++ [(expected.1, expected.2, actual)] }

/-- `_match_expect`. -/
def matchExpect (frame : ProtocolFrame) : Option (Dict String PyVal) → Diff
  | none => {}
  | some expect =>
    if expect.entries = [] then {}
    else expect.entries.foldl (matchOne str upperCase (flattenNamed frame .empty)) {}

/-- `expect is None or not (diff["missing"] or diff["mismatched"])`. -/
def isVerified (expect : Option (Dict String PyVal)) (diff : Diff) : Bool :=
  expect.isNone || (diff.missing.isEmpty && diff.mismatched.isEmpty)

def verify (store : MetadataStore) (frame : FrameInput) (protocol : Option String)
    (expect : Option (Dict String PyVal)) (autoMin : ℕ) : PyM VerifyResult := do
  match ← decode store frame protocol autoMin with
  | .specified p pf =>
    let diff := matchExpect str upperCase pf expect
    pure (.checked ⟨p, "specified", isVerified expect diff, diff, pf, pf.warnings, none⟩)
  | .auto p confidence pf =>
    let diff := matchExpect str upperCase pf expect
    pure (.checked ⟨p, "auto", isVerified expect diff, diff, pf, pf.warnings, some confidence⟩)
  | r => pure (.refused r)

/-- The frame has the field with the value, as the two are printed. -/
def HasExpected (frame : ProtocolFrame) (expected : String × PyVal) : Prop :=
  ∃ value, Shown frame expected.1 value ∧
    normValue str upperCase value = normValue str upperCase expected.2

variable {str upperCase}

/-- Nothing is missing or different at the end only if nothing was at the start. -/
theorem matchOne_fold {flat : Dict String PyVal} {entries : List (String × PyVal)} {diff : Diff}
    (hmissing : (entries.foldl (matchOne str upperCase flat) diff).missing = [])
    (hmismatched : (entries.foldl (matchOne str upperCase flat) diff).mismatched = []) :
    diff.missing = [] ∧ diff.mismatched = [] ∧ ∀ e ∈ entries, ∃ value,
      flat.get? e.1 = some value ∧ normValue str upperCase value = normValue str upperCase e.2 := by
  induction entries generalizing diff with
  | nil => exact ⟨hmissing, hmismatched, fun e he => absurd he List.not_mem_nil⟩
  | cons e rest ih =>
    obtain ⟨hmiss, hdiffer, hrest⟩ := ih hmissing hmismatched
    cases hget : flat.get? e.1 with
    | none =>
      simp [matchOne, hget] at hmiss
    | some value =>
      by_cases hsame : normValue str upperCase value = normValue str upperCase e.2
      · simp only [matchOne, hget, if_pos hsame] at hmiss hdiffer
        exact ⟨hmiss, hdiffer, List.forall_mem_cons.mpr ⟨⟨value, hget, hsame⟩, hrest⟩⟩
      · simp [matchOne, hget, if_neg hsame] at hdiffer

/-- A verified frame shows whatever was expected of it. -/
theorem isVerified_sound {frame : ProtocolFrame} {expect : Option (Dict String PyVal)}
    (h : isVerified expect (matchExpect str upperCase frame expect) = true) :
    ∀ d ∈ expect, ∀ e ∈ d.entries, HasExpected str upperCase frame e := by
  rintro d hd e he
  obtain rfl := Option.mem_def.mp hd
  have hsome : d.entries ≠ [] := List.ne_nil_of_mem he
  rw [isVerified, matchExpect, if_neg hsome, Option.isNone_some, Bool.false_or, Bool.and_eq_true,
    List.isEmpty_iff, List.isEmpty_iff] at h
  obtain ⟨-, -, hall⟩ := matchOne_fold h.1 h.2
  obtain ⟨value, hget, hsame⟩ := hall e he
  rcases flattenNamed_get? frame hget with hempty | hshown
  · rw [Dict.get?_empty] at hempty
    cases hempty
  · exact ⟨value, hshown, hsame⟩

end Matching

end HplcWorkbench.Facade
