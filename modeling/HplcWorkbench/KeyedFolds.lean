import HplcWorkbench.OrderedDict
import Mathlib.Algebra.BigOperators.Group.List.Basic
import Mathlib.Data.List.Induction

/-!
# Folds into a dictionary

A list is read entry by entry, and the value under the key of an entry is set from what is there
and from the entry. What a key has at the end depends on its own entries only.
-/

namespace KeyedFolds
open OrderedDict List
variable {κ α β γ : Type} [DecidableEq κ] (key : α → κ) (update : Option β → α → β)

def step (d : Dict κ β) (x : α) : Dict κ β := d.set (key x) (update (d.get? (key x)) x)

def collect (xs : List α) : Dict κ β := xs.foldl (step key update) Dict.empty

/-- The entries of a key. -/
def fiber (xs : List α) (k : κ) : List α := xs.filter (key · = k)

omit [DecidableEq κ] in
/-- What becomes of a value under the entries of its key. -/
def settled (xs : List α) : Option β := xs.foldl (fun b x => some (update b x)) none

section Values
variable {key update} {xs : List α} {k : κ}

theorem collect_concat (xs : List α) (x : α) :
    collect key update (xs ++ [x]) = step key update (collect key update xs) x := by
  rw [collect, List.foldl_append, List.foldl_cons, List.foldl_nil, collect]

omit [DecidableEq κ] in
theorem settled_concat (xs : List α) (x : α) :
    settled update (xs ++ [x]) = some (update (settled update xs) x) := by
  rw [settled, List.foldl_append, List.foldl_cons, List.foldl_nil, settled]

theorem mem_fiber {x : α} : x ∈ fiber key xs k ↔ x ∈ xs ∧ key x = k := by
  rw [fiber, List.mem_filter, decide_eq_true_eq]

theorem fiber_concat_self (xs : List α) (x : α) :
    fiber key (xs ++ [x]) (key x) = fiber key xs (key x) ++ [x] := by
  simp [fiber]

theorem fiber_concat_of_ne {x : α} (h : key x ≠ k) (xs : List α) :
    fiber key (xs ++ [x]) k = fiber key xs k := by
  simp [fiber, h]

variable (key update) in
theorem get?_collect (xs : List α) (k : κ) :
    (collect key update xs).get? k = settled update (fiber key xs k) := by
  induction xs using List.reverseRecOn with
  | nil => rfl
  | append_singleton xs x ih =>
    rw [collect_concat, step]
    by_cases h : key x = k
    · subst h
      rw [Dict.get?_set_self, fiber_concat_self, settled_concat, ih]
    · rw [Dict.get?_set_of_ne _ _ _ _ (Ne.symm h), fiber_concat_of_ne h, ih]

theorem settled_eq_none_iff {ys : List α} : settled update ys = none ↔ ys = [] := by
  rcases List.eq_nil_or_concat' ys with rfl | ⟨ys, y, rfl⟩
  · exact ⟨fun _ => rfl, fun _ => rfl⟩
  · rw [settled_concat]
    constructor
    · rintro ⟨⟩
    · intro h
      exact absurd h (List.append_ne_nil_of_right_ne_nil _ (List.cons_ne_nil _ _))

theorem get?_collect_eq_none_iff :
    (collect key update xs).get? k = none ↔ ∀ x ∈ xs, key x ≠ k := by
  rw [get?_collect, settled_eq_none_iff, fiber, List.filter_eq_nil_iff]
  exact forall₂_congr fun _ _ => not_congr decide_eq_true_iff

theorem mem_keys_collect :
    k ∈ (collect key update xs).entries.map Prod.fst ↔ ∃ x ∈ xs, key x = k := by
  rw [← not_iff_not, ← Dict.get?_eq_none_iff, get?_collect_eq_none_iff]
  push Not
  rfl

omit [DecidableEq κ] in
/-- What holds of every update of a key holds of what it has at the end. -/
theorem settled_induction {p : List α → β → Prop} (hnew : ∀ x, p [x] (update none x))
    (hnext : ∀ ys b x, p ys b → p (ys ++ [x]) (update (some b) x)) {ys : List α} {b : β}
    (h : settled update ys = some b) : p ys b := by
  induction ys using List.reverseRecOn generalizing b with
  | nil => cases h
  | append_singleton ys x ih =>
    rw [settled_concat] at h
    cases h
    cases hys : settled update ys with
    | none =>
      rw [settled_eq_none_iff.mp hys]
      exact hnew x
    | some b => exact hnext ys b x (ih hys)

end Values

section Groups
variable {key} {value : α → γ} {xs : List α} {k : κ} {vs : List γ}

/-- What is gathered under a key is from its entries, in their order. -/
theorem get?_groups (h : (collect key (fun vs x => vs.getD [] ++ [value x]) xs).get? k = some vs) :
    vs = (fiber key xs k).map value := by
  rw [get?_collect] at h
  apply settled_induction (p := fun ys vs => vs = ys.map value) (fun _ => rfl) _ h
  intro ys vs x ih
  rw [Option.getD_some, ih, List.map_append, List.map_singleton]

end Groups

section Contents
variable {key update} {content : β → List γ} {part : α → List γ}

/-- Nothing is lost or counted twice when each update adds the part of its entry. -/
theorem perm_collect
    (hcontent : ∀ b x, (content (update b x)).Perm (b.elim [] content ++ part x)) (xs : List α) :
    ((collect key update xs).entries.flatMap fun e => content e.2).Perm (xs.flatMap part) := by
  induction xs using List.reverseRecOn with
  | nil => exact List.Perm.refl []
  | append_singleton xs x ih =>
    rw [collect_concat, step, List.flatMap_append, List.flatMap_singleton]
    set d := collect key update xs with hd
    cases hget : d.get? (key x) with
    | none =>
      have hset := Dict.entries_set_of_none d (update none x) hget
      rw [hset, List.flatMap_append, List.flatMap_singleton]
      exact ih.append (hcontent none x)
    | some b =>
      have hset := (Dict.perm_set_of_some d (update (some b) x) hget).flatMap_right
        fun e => content e.2
      have hold := (Dict.perm_cons_erase d hget).flatMap_right fun e => content e.2
      rw [List.flatMap_cons] at hset hold
      set rest := (d.erase (key x)).entries.flatMap fun e => content e.2
      calc (d.set (key x) (update (some b) x)).entries.flatMap (fun e => content e.2)
        _ ~ content (update (some b) x) ++ rest := hset
        _ ~ (content b ++ part x) ++ rest := (hcontent (some b) x).append_right rest
        _ ~ (content b ++ rest) ++ part x := by
          rw [List.append_assoc, List.append_assoc]
          exact List.perm_append_comm.append_left _
        _ ~ xs.flatMap part ++ part x := (hold.symm.trans ih).append_right _

end Contents

section Sums
variable {key update} {M : Type} [AddCommMonoid M] {weight : β → M} {part : α → M}

variable (key update weight part) in
/-- The weights add up when each update adds the part of its entry. -/
theorem sum_collect (hweight : ∀ b x, weight (update b x) = b.elim 0 weight + part x) (xs : List α) :
    ((collect key update xs).entries.map fun e => weight e.2).sum = (xs.map part).sum := by
  induction xs using List.reverseRecOn with
  | nil => rfl
  | append_singleton xs x ih =>
    rw [collect_concat, step, List.map_append, List.sum_append, List.map_singleton, List.sum_singleton, ← ih]
    set d := collect key update xs
    cases hget : d.get? (key x) with
    | none =>
      rw [Dict.entries_set_of_none d _ hget, List.map_append, List.sum_append, List.map_singleton,
        List.sum_singleton, hweight]
      exact congrArg _ (zero_add _)
    | some b =>
      have hset := ((Dict.perm_set_of_some d (update (some b) x) hget).map fun e => weight e.2).sum_eq
      have hold := ((Dict.perm_cons_erase d hget).map fun e => weight e.2).sum_eq
      rw [hset, hold, List.map_cons, List.map_cons, List.sum_cons, List.sum_cons, hweight]
      exact add_right_comm _ _ _

end Sums
end KeyedFolds
