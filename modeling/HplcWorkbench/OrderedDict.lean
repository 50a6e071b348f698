import Mathlib.Algebra.BigOperators.Group.List.Basic
import Mathlib.Algebra.GroupWithZero.Nat
import Mathlib.Data.List.Nodup
import Mathlib.Data.List.Perm.Basic
import Mathlib.Data.List.Sort

/-!
# Dictionaries in insertion order

A dictionary is a list of entries whose keys differ. A new key goes to the end, a known key keeps
its place, and a key that was removed and set again goes to the end.
-/

namespace OrderedDict

structure Dict (κ α : Type) where
  entries : List (κ × α)
  nodup : (entries.map Prod.fst).Nodup

namespace Dict
variable {κ α : Type} [DecidableEq κ]

def empty : Dict κ α := ⟨[], List.nodup_nil⟩

def get? (d : Dict κ α) (k : κ) : Option α := (d.entries.find? (·.1 = k)).map Prod.snd

def erase (d : Dict κ α) (k : κ) : Dict κ α :=
  ⟨d.entries.filter (·.1 ≠ k), d.nodup.sublist (List.filter_sublist.map Prod.fst)⟩

/-- The entry of a key that is already there. -/
def put (k : κ) (v : α) (e : κ × α) : κ × α := if e.1 = k then (k, v) else e

theorem put_fst (k : κ) (v : α) (e : κ × α) : (put k v e).1 = e.1 := by
  unfold put
  by_cases h : e.1 = k
  · rw [if_pos h, h]
  · rw [if_neg h]

theorem map_put_fst (k : κ) (v : α) (entries : List (κ × α)) :
    (entries.map (put k v)).map Prod.fst = entries.map Prod.fst := by
  rw [List.map_map]
  exact List.map_congr_left fun e _ => put_fst k v e

def set (d : Dict κ α) (k : κ) (v : α) : Dict κ α :=
  if h : k ∈ d.entries.map Prod.fst then
    ⟨d.entries.map (put k v), by rw [map_put_fst]; exact d.nodup⟩
  else
    ⟨d.entries ++ [(k, v)], by
      rw [List.map_append]
      exact d.nodup.append (List.nodup_singleton k)
        (List.disjoint_singleton.mpr h)⟩

section Lookup
variable (d : Dict κ α) (k k' : κ) (v : α)

@[simp] theorem get?_empty : (empty : Dict κ α).get? k = none := rfl

theorem get?_eq_none_iff : d.get? k = none ↔ k ∉ d.entries.map Prod.fst := by
  rw [get?, Option.map_eq_none_iff, List.find?_eq_none, List.mem_map]
  constructor
  · rintro h ⟨e, he, hk⟩
    exact h e he (decide_eq_true hk)
  · intro h e he hk
    exact h ⟨e, he, of_decide_eq_true hk⟩

theorem get?_eq_some_iff : d.get? k = some v ↔ (k, v) ∈ d.entries := by
  rw [get?, Option.map_eq_some_iff]
  constructor
  · rintro ⟨e, he, rfl⟩
    have hk : e.1 = k := by simpa using List.find?_some he
    rw [← hk]
    exact List.mem_of_find?_eq_some he
  · intro hmem
    cases he : d.entries.find? (·.1 = k) with
    | none => exact absurd (decide_eq_true rfl) (List.find?_eq_none.mp he _ hmem)
    | some e =>
        have hk : e.1 = k := by simpa using List.find?_some he
        have heq := List.inj_on_of_nodup_map d.nodup (List.mem_of_find?_eq_some he) hmem hk
        exact ⟨e, rfl, congrArg Prod.snd heq⟩

theorem mem_erase {e : κ × α} : e ∈ (d.erase k).entries ↔ e ∈ d.entries ∧ e.1 ≠ k := by
  rw [erase, List.mem_filter, decide_eq_true_iff]

theorem mem_set {e : κ × α} (he : e ∈ (d.set k v).entries) : e = (k, v) ∨ e ∈ d.entries := by
  rw [set] at he
  by_cases h : k ∈ d.entries.map Prod.fst
  · rw [dif_pos h] at he
    obtain ⟨e', he', rfl⟩ := List.mem_map.mp he
    by_cases hk : e'.1 = k
    · exact Or.inl (if_pos hk)
    · exact Or.inr (by rwa [put, if_neg hk])
  · rw [dif_neg h, List.mem_append, List.mem_singleton] at he
    exact he.symm

theorem get?_erase_self : (d.erase k).get? k = none := by
  rw [get?_eq_none_iff, List.mem_map]
  rintro ⟨e, he, hk⟩
  exact ((d.mem_erase k).mp he).2 hk

theorem get?_erase_of_ne (h : k' ≠ k) : (d.erase k).get? k' = d.get? k' := by
  apply Option.ext
  intro v
  rw [get?_eq_some_iff, mem_erase, get?_eq_some_iff]
  exact ⟨And.left, fun hmem => ⟨hmem, h⟩⟩

theorem get?_set_self : (d.set k v).get? k = some v := by
  rw [get?_eq_some_iff, set]
  by_cases h : k ∈ d.entries.map Prod.fst
  · rw [dif_pos h]
    obtain ⟨e, he, hk⟩ := List.mem_map.mp h
    exact List.mem_map.mpr ⟨e, he, if_pos hk⟩
  · rw [dif_neg h]
    exact List.mem_append_right _ (List.mem_singleton.mpr rfl)

theorem get?_set_of_ne (h : k' ≠ k) : (d.set k v).get? k' = d.get? k' := by
  apply Option.ext
  intro w
  rw [get?_eq_some_iff, get?_eq_some_iff, set]
  by_cases hk : k ∈ d.entries.map Prod.fst
  · rw [dif_pos hk, List.mem_map]
    constructor
    · rintro ⟨e, he, heq⟩
      have hfst : e.1 = k' := (put_fst k v e).symm.trans (congrArg Prod.fst heq)
      rw [put, if_neg (hfst ▸ h)] at heq
      exact heq ▸ he
    · intro hmem
      exact ⟨(k', w), hmem, if_neg h⟩
  · rw [dif_neg hk, List.mem_append, List.mem_singleton]
    constructor
    · rintro (hmem | heq)
      · exact hmem
      · exact absurd (congrArg Prod.fst heq) h
    · exact Or.inl

end Lookup

section Entries
variable (d : Dict κ α) {k : κ} {v : α}

/-- A new key goes to the end. -/
theorem entries_set_of_none (v : α) (h : d.get? k = none) : (d.set k v).entries = d.entries ++ [(k, v)] := by
  rw [set, dif_neg ((d.get?_eq_none_iff k).mp h)]

/-- A known key keeps its place. -/
theorem entries_set_of_some (v : α) {w : α} (h : d.get? k = some w) :
    (d.set k v).entries = d.entries.map (put k v) := by
  have hmem : k ∈ d.entries.map Prod.fst := by
    by_contra hk
    rw [(d.get?_eq_none_iff k).mpr hk] at h
    cases h
  rw [set, dif_pos hmem]

theorem length_set_of_some (v : α) {w : α} (h : d.get? k = some w) :
    (d.set k v).entries.length = d.entries.length := by
  rw [d.entries_set_of_some v h, List.length_map]

theorem entries_erase_of_none (h : d.get? k = none) : (d.erase k).entries = d.entries := by
  rw [erase]
  refine List.filter_eq_self.mpr fun e he => decide_eq_true fun hk => ?_
  exact (d.get?_eq_none_iff k).mp h (List.mem_map.mpr ⟨e, he, hk⟩)

/-- Removing a key takes out exactly its entry. -/
theorem perm_cons_erase (h : d.get? k = some v) : d.entries.Perm ((k, v) :: (d.erase k).entries) := by
  have hmem := (d.get?_eq_some_iff k v).mp h
  have hnodup : d.entries.Nodup := List.Nodup.of_map Prod.fst d.nodup
  refine (List.perm_ext_iff_of_nodup hnodup ?_).mpr fun e => ?_
  · refine List.nodup_cons.mpr ⟨fun he => ?_, List.Nodup.of_map Prod.fst (d.erase k).nodup⟩
    exact ((d.mem_erase k).mp he).2 rfl
  · rw [List.mem_cons, mem_erase]
    constructor
    · intro he
      by_cases hk : e.1 = k
      · exact Or.inl (List.inj_on_of_nodup_map d.nodup he hmem hk)
      · exact Or.inr ⟨he, hk⟩
    · rintro (rfl | he)
      · exact hmem
      · exact he.1

/-- Setting a known key replaces exactly its entry. -/
theorem perm_set_of_some (v : α) {w : α} (h : d.get? k = some w) :
    (d.set k v).entries.Perm ((k, v) :: (d.erase k).entries) := by
  have hmem : k ∈ d.entries.map Prod.fst :=
    List.mem_map.mpr ⟨(k, w), (d.get?_eq_some_iff k w).mp h, rfl⟩
  have hperm := (d.perm_cons_erase h).map (put k v)
  have hrest : (d.erase k).entries.map (put k v) = (d.erase k).entries := by
    conv_rhs => rw [← List.map_id (d.erase k).entries]
    exact List.map_congr_left fun e he => if_neg ((d.mem_erase k).mp he).2
  rw [List.map_cons, hrest] at hperm
  rw [set, dif_pos hmem]
  have hput : put k v (k, w) = (k, v) := if_pos rfl
  rwa [hput] at hperm

/-- What is there after a key was set: its entry, and the entries of the other keys. -/
theorem perm_set (k : κ) (v : α) : (d.set k v).entries.Perm ((k, v) :: (d.erase k).entries) := by
  cases h : d.get? k with
  | none =>
    rw [d.entries_set_of_none v h, d.entries_erase_of_none h]
    exact List.perm_append_singleton _ _
  | some w => exact d.perm_set_of_some v h

theorem erase_erase (k : κ) : (d.erase k).erase k = d.erase k := by
  simp only [erase, List.filter_filter, Bool.and_self]

/-- A key that was set and removed leaves the entries of the other keys. -/
theorem perm_erase_set (k : κ) (v : α) : ((d.set k v).erase k).entries.Perm (d.erase k).entries := by
  have hperm := (d.perm_set k v).filter fun e => e.1 ≠ k
  rw [List.filter_cons_of_neg (by simp)] at hperm
  exact hperm.trans (List.Perm.of_eq (congrArg entries (d.erase_erase k)))

/-- Setting what is there changes nothing. -/
theorem set_self (h : d.get? k = some v) : d.set k v = d := by
  obtain ⟨entries, hnodup⟩ := d
  have hmem := (get?_eq_some_iff _ k v).mp h
  have hkey : k ∈ entries.map Prod.fst := List.mem_map.mpr ⟨(k, v), hmem, rfl⟩
  have hput : entries.map (put k v) = entries := by
    conv_rhs => rw [← List.map_id entries]
    apply List.map_congr_left
    intro e he
    by_cases hk : e.1 = k
    · rw [put, if_pos hk]
      exact (List.inj_on_of_nodup_map hnodup he hmem hk).symm
    · rw [put, if_neg hk, id]
  rw [set, dif_pos hkey]
  congr 1

/-- A key has one entry at most. -/
theorem filter_key (k : κ) :
    d.entries.filter (fun e => e.1 = k) = (d.get? k).toList.map fun v => (k, v) := by
  cases h : d.get? k with
  | none =>
      refine List.filter_eq_nil_iff.mpr fun e he => ?_
      rw [decide_eq_true_iff]
      exact fun hk => (d.get?_eq_none_iff k).mp h (List.mem_map.mpr ⟨e, he, hk⟩)
  | some v =>
      have hperm := (d.perm_cons_erase h).filter fun e => e.1 = k
      have hrest : (d.erase k).entries.filter (fun e => e.1 = k) = [] := by
        refine List.filter_eq_nil_iff.mpr fun e he => ?_
        rw [decide_eq_true_iff]
        exact ((d.mem_erase k).mp he).2
      rw [List.filter_cons, hrest, if_pos (decide_eq_true rfl)] at hperm
      exact List.perm_singleton.mp hperm

end Entries

/-- Sorted by their keys, the entries are in strict order. -/
theorem pairwise_sorted {κ α : Type} [LinearOrder κ] (d : Dict κ α) :
    (d.entries.insertionSort fun x y => x.1 ≤ y.1).Pairwise fun x y => x.1 < y.1 := by
  have htotal : Std.Total fun x y : κ × α => x.1 ≤ y.1 := ⟨fun x y => le_total x.1 y.1⟩
  have htrans : IsTrans (κ × α) fun x y => x.1 ≤ y.1 := ⟨fun _ _ _ => le_trans⟩
  have hsorted := List.pairwise_insertionSort (fun x y : κ × α => x.1 ≤ y.1) d.entries
  have hdistinct := ((List.perm_insertionSort (fun x y : κ × α => x.1 ≤ y.1) d.entries).map
    Prod.fst).nodup_iff.mpr d.nodup
  rw [List.Nodup, List.pairwise_map] at hdistinct
  exact hsorted.imp₂ (fun _ _ hle hne => lt_of_le_of_ne hle hne) hdistinct

section Weigh
variable (φ : κ → Bool) (d : Dict κ ℕ) (k : κ) (n : ℕ)

/-- The sum of the numbers under the keys with a property. -/
def weigh : ℕ := ((d.entries.filter fun e => φ e.1).map Prod.snd).sum

omit [DecidableEq κ] in
@[simp] theorem weigh_empty : weigh φ (empty : Dict κ ℕ) = 0 := rfl

/-- A number that is added under a key. -/
theorem weigh_add : (d.set k ((d.get? k).getD 0 + n)).weigh φ = d.weigh φ + if φ k then n else 0 := by
  cases h : d.get? k with
  | none =>
      rw [weigh, entries_set_of_none d _ h, List.filter_append, List.map_append, List.sum_append, weigh]
      cases hk : φ k <;> simp [hk]
  | some w =>
      have hset := ((d.perm_set_of_some (w + n) h).filter fun e => φ e.1).map Prod.snd
      have hold := ((d.perm_cons_erase h).filter fun e => φ e.1).map Prod.snd
      rw [Option.getD_some, weigh, hset.sum_eq, weigh, hold.sum_eq]
      cases hk : φ k <;> simp [hk]
      omega

end Weigh
end Dict
end OrderedDict
