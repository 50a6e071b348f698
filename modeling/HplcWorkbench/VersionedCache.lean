import HplcWorkbench.OrderedDict

/-!
# Caches whose keys carry a version

A value that is computed from a state is kept under a key, and the key carries the version that the
state had for it. Where versions only grow and a change of the value raises the version, an entry
whose version is the one of the state is the value of the state.
-/

namespace VersionedCache

open OrderedDict

/-- What is cached: the version that a key carries, and version and value in a state. -/
structure Versioned (State Key Value : Type) where
  stamp : Key → ℕ
  version : State → Key → ℕ
  value : State → Key → Value

variable {State Key Value : Type} [DecidableEq Key] {source : Versioned State Key Value}
  {s s' : State} {cache : Dict Key Value} {k : Key} {v : Value}

/-- The version of a key is the one of the state. -/
def Versioned.Live (source : Versioned State Key Value) (s : State) (k : Key) : Prop :=
  source.stamp k = source.version s k

/-- No entry is ahead of the state, and a live one is the value of the state. -/
def Sound (source : Versioned State Key Value) (s : State) (cache : Dict Key Value) : Prop :=
  ∀ e ∈ cache.entries, source.stamp e.1 ≤ source.version s e.1 ∧
    (source.Live s e.1 → e.2 = source.value s e.1)

omit [DecidableEq Key] in
theorem Sound.empty : Sound source s .empty := fun _ he => nomatch he

theorem Sound.hit (h : Sound source s cache) (hk : cache.get? k = some v)
    (hlive : source.Live s k) : v = source.value s k :=
  (h (k, v) ((cache.get?_eq_some_iff k v).mp hk)).2 hlive

theorem Sound.erase (h : Sound source s cache) (k : Key) : Sound source s (cache.erase k) :=
  fun e he => h e ((cache.mem_erase k).mp he).1

theorem Sound.set (h : Sound source s cache) (hlive : source.Live s k) :
    Sound source s (cache.set k (source.value s k)) := by
  intro e he
  rcases cache.mem_set _ _ he with rfl | he
  · exact ⟨Nat.le_of_eq hlive, fun _ => rfl⟩
  · exact h e he

omit [DecidableEq Key] in
/-- A step that lowers no version, and that changes the value of a live key only with its version. -/
theorem Sound.step (h : Sound source s cache)
    (hgrow : ∀ e ∈ cache.entries, source.version s e.1 ≤ source.version s' e.1)
    (hkeep : ∀ e ∈ cache.entries, source.Live s e.1 → source.Live s' e.1 →
      source.value s e.1 = source.value s' e.1) :
    Sound source s' cache := by
  intro e he
  obtain ⟨hle, hvalue⟩ := h e he
  refine ⟨Nat.le_trans hle (hgrow e he), fun hlive' => ?_⟩
  have hlive : source.Live s e.1 := Nat.le_antisymm hle (Nat.le_trans (hgrow e he) (Nat.le_of_eq hlive'.symm))
  rw [hvalue hlive, hkeep e he hlive hlive']

end VersionedCache
