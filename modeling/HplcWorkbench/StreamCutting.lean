import Mathlib.Data.List.Basic
import Mathlib.Data.List.Infix
import Mathlib.Tactic.Linarith

/-!
# Cutting frames out of a growing stream

A cutter looks at a buffer and either takes a prefix of it, which ends with a frame, or waits.
It is *stable*: what it takes from a buffer it takes from every longer buffer. Draining repeats
the cut until it waits, and a receiver drains after every chunk that arrives. Stability makes
the result a function of the stream alone, whatever the chunks.
-/

namespace StreamCutting

variable {α : Type*}

/-- A cut of a buffer is its frame and the number of consumed elements, noise included. -/
structure Cutter (α : Type*) where
  cut : List α → Option (List α × ℕ)
  frame_pos : ∀ {b f k}, cut b = some (f, k) → 0 < f.length
  frame_at : ∀ {b f k}, cut b = some (f, k) → ∃ noise, b.take k = noise ++ f ∧ k ≤ b.length
  stable : ∀ {b f k}, cut b = some (f, k) → ∀ t, cut (b ++ t) = some (f, k)

namespace Cutter
variable (c : Cutter α)

theorem consumed_eq {b f : List α} {k : ℕ} (h : c.cut b = some (f, k)) :
    ∃ noise rest, b = noise ++ f ++ rest ∧ k = noise.length + f.length ∧ rest = b.drop k := by
  obtain ⟨noise, hn, hk⟩ := c.frame_at h
  refine ⟨noise, b.drop k, ?_, ?_, rfl⟩
  · rw [← hn, List.take_append_drop]
  · have hlen := congrArg List.length hn
    rw [List.length_take, List.length_append] at hlen
    omega

theorem consumed_pos {b f : List α} {k : ℕ} (h : c.cut b = some (f, k)) : 0 < k := by
  obtain ⟨noise, rest, _, hk, _⟩ := c.consumed_eq h
  have hf := c.frame_pos h
  omega

theorem consumed_le {b f : List α} {k : ℕ} (h : c.cut b = some (f, k)) : k ≤ b.length :=
  (c.frame_at h).choose_spec.2

theorem drop_length_lt {b f : List α} {k : ℕ} (h : c.cut b = some (f, k)) :
    (b.drop k).length < b.length := by
  have hk := c.consumed_pos h
  have hle := c.consumed_le h
  rw [List.length_drop]
  omega

/-- The frames of a buffer with the absolute positions at which they start, and what is left.
`o` is the position of the first element of the buffer in the stream. -/
def drainFuel : ℕ → ℕ → List α → List (ℕ × List α) × List α
  | 0, _, b => ([], b)
  | fuel + 1, o, b =>
    match c.cut b with
    | none => ([], b)
    | some (f, k) =>
      let r := drainFuel fuel (o + k) (b.drop k)
      ((o + k - f.length, f) :: r.1, r.2)

/-- Repeating the cut until it waits. Every cut consumes something, so that the length of the
buffer bounds the number of rounds. -/
def drainAt (o : ℕ) (b : List α) : List (ℕ × List α) × List α := c.drainFuel (b.length + 1) o b

def drain (b : List α) : List (List α) × List α :=
  let r := c.drainAt 0 b
  (r.1.map Prod.snd, r.2)

theorem drainFuel_eq (fuel fuel' o : ℕ) (b : List α) (h : b.length < fuel)
    (h' : b.length < fuel') : c.drainFuel fuel o b = c.drainFuel fuel' o b := by
  induction fuel generalizing fuel' o b with
  | zero => omega
  | succ fuel ih =>
      cases fuel' with
      | zero => omega
      | succ fuel' =>
          cases hc : c.cut b with
          | none => simp only [drainFuel, hc]
          | some p =>
              obtain ⟨f, k⟩ := p
              have hlt := c.drop_length_lt hc
              simp only [drainFuel, hc, ih fuel' (o + k) (b.drop k) (by omega) (by omega)]

theorem drainAt_none {o : ℕ} {b : List α} (h : c.cut b = none) : c.drainAt o b = ([], b) := by
  simp only [drainAt, drainFuel, h]

theorem drainAt_some {o k : ℕ} {b f : List α} (h : c.cut b = some (f, k)) :
    c.drainAt o b = ((o + k - f.length, f) :: (c.drainAt (o + k) (b.drop k)).1,
      (c.drainAt (o + k) (b.drop k)).2) := by
  have hlt := c.drop_length_lt h
  have hf := c.drainFuel_eq b.length ((b.drop k).length + 1) (o + k) (b.drop k) (by omega)
    (by omega)
  simp only [drainAt, drainFuel, h, hf]

/-- Induction along the cuts of a buffer. -/
theorem drain_induction {P : ℕ → List α → Prop} (hnone : ∀ o b, c.cut b = none → P o b)
    (hsome : ∀ o b f k, c.cut b = some (f, k) → P (o + k) (b.drop k) → P o b) (o : ℕ)
    (b : List α) : P o b := by
  induction hn : b.length using Nat.strong_induction_on generalizing o b with
  | _ n ih =>
      cases hc : c.cut b with
      | none => exact hnone o b hc
      | some p =>
          have hlt := c.drop_length_lt hc
          exact hsome o b p.1 p.2 hc (ih _ (hn ▸ hlt) (o + p.2) _ rfl)

/-- What is left after draining is a suffix of the buffer on which the cutter waits. -/
theorem drainAt_rest (o : ℕ) (b : List α) :
    c.cut (c.drainAt o b).2 = none ∧ ∃ used, b = used ++ (c.drainAt o b).2 := by
  refine c.drain_induction (P := fun o b => c.cut (c.drainAt o b).2 = none ∧
    ∃ used, b = used ++ (c.drainAt o b).2) ?_ ?_ o b
  · intro o b hc
    rw [c.drainAt_none hc]
    exact ⟨hc, [], rfl⟩
  · intro o b f k hc ih
    rw [c.drainAt_some hc]
    obtain ⟨used, hu⟩ := ih.2
    refine ⟨ih.1, b.take k ++ used, ?_⟩
    rw [List.append_assoc, ← hu, List.take_append_drop]

/-- Draining a longer buffer is draining its first part and then what was left of it together
with the new part. -/
theorem drainAt_append (o : ℕ) (b t : List α) :
    c.drainAt o (b ++ t) =
      let r := c.drainAt o b
      let r' := c.drainAt (o + (b.length - r.2.length)) (r.2 ++ t)
      (r.1 ++ r'.1, r'.2) := by
  refine c.drain_induction (P := fun o b => c.drainAt o (b ++ t) =
    ((c.drainAt o b).1 ++ (c.drainAt (o + (b.length - (c.drainAt o b).2.length))
      ((c.drainAt o b).2 ++ t)).1, (c.drainAt (o + (b.length - (c.drainAt o b).2.length))
      ((c.drainAt o b).2 ++ t)).2)) ?_ ?_ o b
  · intro o b hc
    rw [c.drainAt_none hc]
    simp
  · intro o b f k hc ih
    have hk := c.consumed_le hc
    have hdrop : (b ++ t).drop k = b.drop k ++ t := List.drop_append_of_le_length hk
    obtain ⟨used, hu⟩ := (c.drainAt_rest (o + k) (b.drop k)).2
    have hlen := congrArg List.length hu
    rw [List.length_append, List.length_drop] at hlen
    have hoff : o + k + ((b.drop k).length - (c.drainAt (o + k) (b.drop k)).2.length) =
        o + (b.length - (c.drainAt (o + k) (b.drop k)).2.length) := by
      rw [List.length_drop]
      omega
    rw [c.drainAt_some hc, c.drainAt_some (c.stable hc t), hdrop, ih]
    simp only [hoff, List.cons_append]

/-- A receiver: it appends each chunk to what is left and drains. -/
def receive : ℕ → List α → List (List α) → List (ℕ × List α) × List α
  | _, b, [] => ([], b)
  | o, b, chunk :: chunks =>
    let r := c.drainAt o (b ++ chunk)
    let r' := receive (o + ((b ++ chunk).length - r.2.length)) r.2 chunks
    (r.1 ++ r'.1, r'.2)

/-- However the stream is chopped, the receiver finds the frames of the whole stream, at the
same positions, and keeps the same rest. -/
theorem receive_eq_drainAt (o : ℕ) (b : List α) (chunks : List (List α))
    (hb : c.cut b = none) : c.receive o b chunks = c.drainAt o (b ++ chunks.flatten) := by
  induction chunks generalizing o b with
  | nil =>
      rw [List.flatten_nil, List.append_nil, c.drainAt_none hb]
      rfl
  | cons chunk chunks ih =>
      rw [List.flatten_cons, ← List.append_assoc, c.drainAt_append o (b ++ chunk)]
      simp only [receive, ih _ _ (c.drainAt_rest o (b ++ chunk)).1]

/-- The frames lie in the stream one after the other, with noise between them. -/
inductive Tiled : ℕ → List α → List (ℕ × List α) → Prop
  | rest (o : ℕ) (b : List α) : Tiled o b []
  | frame (o : ℕ) (noise f b : List α) (fs : List (ℕ × List α)) :
      Tiled (o + noise.length + f.length) b fs →
      Tiled o (noise ++ f ++ b) ((o + noise.length, f) :: fs)

theorem drainAt_tiled (o : ℕ) (b : List α) : Tiled o b (c.drainAt o b).1 := by
  refine c.drain_induction (P := fun o b => Tiled o b (c.drainAt o b).1) ?_ ?_ o b
  · intro o b hc
    rw [c.drainAt_none hc]
    exact .rest o b
  · intro o b f k hc ih
    obtain ⟨noise, rest, hb, hk, rfl⟩ := c.consumed_eq hc
    rw [c.drainAt_some hc, show o + k - f.length = o + noise.length by omega]
    have ih' : Tiled (o + noise.length + f.length) (b.drop k)
        (c.drainAt (o + k) (b.drop k)).1 := by
      rw [Nat.add_assoc, ← hk]
      exact ih
    have htile := Tiled.frame o noise f _ _ ih'
    rwa [← hb] at htile

/-- Whatever holds of a frame the cutter takes holds of every frame of a stream. -/
theorem drainAt_forall {Q : List α → Prop} (hQ : ∀ b f k, c.cut b = some (f, k) → Q f) (o : ℕ)
    (b : List α) : ∀ p ∈ (c.drainAt o b).1, Q p.2 := by
  refine c.drain_induction (P := fun o b => ∀ p ∈ (c.drainAt o b).1, Q p.2) ?_ ?_ o b
  · intro o b hc p hp
    rw [c.drainAt_none hc] at hp
    cases hp
  · intro o b f k hc ih p hp
    rw [c.drainAt_some hc] at hp
    rcases List.mem_cons.mp hp with rfl | hp
    · exact hQ b f k hc
    · exact ih p hp

/-- Frames start at or after the position where draining begins. -/
theorem drainAt_start_le (o : ℕ) (b : List α) : ∀ p ∈ (c.drainAt o b).1, o ≤ p.1 := by
  refine c.drain_induction (P := fun o b => ∀ p ∈ (c.drainAt o b).1, o ≤ p.1) ?_ ?_ o b
  · intro o b hc p hp
    rw [c.drainAt_none hc] at hp
    cases hp
  · intro o b f k hc ih p hp
    obtain ⟨noise, rest, _, hk, _⟩ := c.consumed_eq hc
    rw [c.drainAt_some hc] at hp
    rcases List.mem_cons.mp hp with rfl | hp
    · show o ≤ o + k - f.length
      omega
    · exact (Nat.le_add_right o k).trans (ih p hp)

end Cutter

end StreamCutting
