import Mathlib.Data.Set.BooleanAlgebra
import Mathlib.Order.CompletePartialOrder

/-!
# Exclusive ownership of keys

An ownership says which owner holds which keys, and no key is held by two owners. Claiming a set
of keys that no other owner holds, and freeing all keys of an owner, give ownerships again.
-/

namespace KeyOwnership

variable {Owner Key : Type*}

/-- Which owner holds which keys. -/
@[ext]
structure Ownership (Owner Key : Type*) where
  holds : Owner → Set Key
  exclusive : ∀ {a b : Owner} {k : Key}, k ∈ holds a → k ∈ holds b → a = b

namespace Ownership
variable (w : Ownership Owner Key) (o : Owner) (ks : Set Key)

/-- Nobody holds anything. -/
def vacant : Ownership Owner Key where
  holds _ := ∅
  exclusive := fun h => absurd h (Set.notMem_empty _)

/-- No key of `ks` is held by an owner other than `o`. -/
def Claimable : Prop := ∀ k ∈ ks, ∀ b, k ∈ w.holds b → b = o

/-- `o` takes the keys `ks` beside those it has. -/
def claim (h : w.Claimable o ks) : Ownership Owner Key where
  holds a := {k | k ∈ w.holds a ∨ a = o ∧ k ∈ ks}
  exclusive := by
    rintro a b k (ha | ⟨rfl, ha⟩) (hb | ⟨rfl, hb⟩)
    · exact w.exclusive ha hb
    · exact h k hb a ha
    · exact (h k ha b hb).symm
    · rfl

/-- `o` gives all its keys back. -/
def free : Ownership Owner Key where
  holds a := {k | k ∈ w.holds a ∧ a ≠ o}
  exclusive := fun ha hb => w.exclusive ha.1 hb.1

theorem mem_claim {h : w.Claimable o ks} {a : Owner} {k : Key} :
    k ∈ (w.claim o ks h).holds a ↔ k ∈ w.holds a ∨ a = o ∧ k ∈ ks := Iff.rfl

theorem mem_free {a : Owner} {k : Key} : k ∈ (w.free o).holds a ↔ k ∈ w.holds a ∧ a ≠ o := Iff.rfl

/-- The sets of two owners are disjoint. -/
theorem disjoint {a b : Owner} (hab : a ≠ b) : Disjoint (w.holds a) (w.holds b) :=
  Set.disjoint_left.mpr fun _ ha hb => hab (w.exclusive ha hb)

end Ownership

/-! ## Two records of who is where

Each party is at one place at most. A table names the party at the key of a place, and a register lists the
marks of the place for its party. The two are kept apart and have to be changed together. -/

section Ledger
variable {Party Place Key Mark : Type*} (key : Place → Key) (marks : Place → Set Mark)

/-- The table and the register record the places of the parties and nothing else. -/
structure Ledger (place : Party → Option Place) (table : Key → Option Party) (register : Party → Set Mark) :
    Prop where
  table_iff : ∀ k a, table k = some a ↔ ∃ p, place a = some p ∧ key p = k
  register_eq : ∀ a, register a = (place a).elim ∅ marks

namespace Ledger
variable {key marks} {place place' : Party → Option Place} {table table' : Key → Option Party}
  {register register' : Party → Set Mark} {a b : Party} {p q : Place}

/-- Parties at places with one key are one party. -/
theorem alone (h : Ledger key marks place table register) (ha : place a = some p) (hb : place b = some q)
    (hkey : key p = key q) : a = b := by
  have ha' := (h.table_iff (key p) a).mpr ⟨p, ha, rfl⟩
  have hb' := (h.table_iff (key p) b).mpr ⟨q, hb, hkey.symm⟩
  exact Option.some.inj (ha'.symm.trans hb')

theorem congr (h : Ledger key marks place table register) (hplace : ∀ b, place' b = place b)
    (htable : ∀ k, table' k = table k) (hregister : ∀ b, register' b = register b) :
    Ledger key marks place' table' register' := by
  obtain rfl := funext hplace
  obtain rfl := funext htable
  obtain rfl := funext hregister
  exact h

variable [DecidableEq Party]

/-- A party leaves its place, and both records forget it. -/
theorem leave (h : Ledger key marks place table register)
    (hplace : ∀ b, place' b = if b = a then none else place b)
    (htable : ∀ k b, table' k = some b ↔ table k = some b ∧ b ≠ a)
    (hregister : ∀ b, register' b = if b = a then ∅ else register b) :
    Ledger key marks place' table' register' := by
  constructor
  · intro k b
    rw [htable, h.table_iff, hplace]
    by_cases hb : b = a
    · simp [hb]
    · simp [hb]
  · intro b
    rw [hregister, hplace]
    split
    · rfl
    · exact h.register_eq b

variable [DecidableEq Key]

/-- A party that was at no place, or at one with the same key, is recorded at a place whose key no other
party has. -/
theorem enter (h : Ledger key marks place table register) (hfrom : ∀ q, place a = some q → key q = key p)
    (hfree : ∀ b, table (key p) = some b → b = a)
    (hplace : ∀ b, place' b = if b = a then some p else place b)
    (htable : ∀ k, table' k = if k = key p then some a else table k)
    (hregister : ∀ b, register' b = if b = a then marks p else register b) :
    Ledger key marks place' table' register' := by
  constructor
  · intro k b
    rw [htable, hplace]
    by_cases hk : k = key p
    · rw [if_pos hk]
      by_cases hb : b = a
      · simp [hb, hk]
      · rw [if_neg hb]
        refine iff_of_false (fun heq => hb (Option.some.inj heq).symm) ?_
        rintro ⟨q, hq, hkey⟩
        exact hb (hfree b ((h.table_iff _ b).mpr ⟨q, hq, hkey.trans hk⟩))
    · rw [if_neg hk, h.table_iff]
      by_cases hb : b = a
      · rw [if_pos hb, hb]
        refine iff_of_false ?_ ?_
        · rintro ⟨q, hq, hkey⟩
          exact hk (hkey.symm.trans (hfrom q hq))
        · rintro ⟨q, hq, hkey⟩
          exact hk (hkey.symm.trans (congrArg key (Option.some.inj hq).symm))
      · rw [if_neg hb]
  · intro b
    rw [hregister, hplace]
    split
    · rfl
    · exact h.register_eq b

end Ledger

end Ledger

end KeyOwnership
