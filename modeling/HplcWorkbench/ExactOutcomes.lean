import Mathlib.Data.List.Forall2

/-!
# Computations that may raise, with exact preconditions

`Returns x pre post` says that `x` returns exactly when `pre` holds, and that what it returns
satisfies `post`. The rules follow the monad, so that the condition for a whole computation is read
off its parts.
-/

universe u

namespace ExactOutcomes
variable {ε : Type*} {α β : Type u}

structure Returns (x : Except ε α) (pre : Prop) (post : α → Prop) : Prop where
  ok : pre → ∃ v, x = .ok v
  exact : ∀ v, x = .ok v → pre ∧ post v

/-- A computation that always returns. -/
abbrev Total (x : Except ε α) : Prop := Returns x True fun _ => True

section Rules
variable {x : Except ε α} {f : α → Except ε β} {pre pre' : Prop} {post post' : α → Prop}
  {next : Prop} {post₂ : β → Prop}

theorem Returns.iff (h : Returns x pre post) : (∃ v, x = .ok v) ↔ pre :=
  ⟨fun ⟨v, hv⟩ => (h.exact v hv).1, h.ok⟩

theorem returns_ok {v : α} (h : post v) : Returns (.ok v : Except ε α) True post := by
  refine ⟨fun _ => ⟨v, rfl⟩, ?_⟩
  rintro w hw
  obtain rfl := Except.ok.inj hw
  exact ⟨trivial, h⟩

theorem returns_pure {v : α} (h : post v) : Returns (pure v : Except ε α) True post := returns_ok h

theorem returns_error (e : ε) : Returns (.error e : Except ε α) False post := by
  refine ⟨fun h => h.elim, ?_⟩
  rintro v hv
  cases hv

theorem Returns.congr (h : Returns x pre post) (hpre : pre ↔ pre') : Returns x pre' post := by
  rw [← hpre]
  exact h

theorem Returns.weaken (h : Returns x pre post) (hpost : ∀ v, post v → post' v) :
    Returns x pre post' :=
  ⟨h.ok, fun v hv => ⟨(h.exact v hv).1, hpost v (h.exact v hv).2⟩⟩

/-- What is returned is the value of the computation. -/
theorem Returns.known (h : Returns x pre post) : Returns x pre fun v => x = .ok v :=
  ⟨h.ok, fun v hv => ⟨(h.exact v hv).1, hv⟩⟩

theorem Returns.bind (h : Returns x pre post) (hf : ∀ v, post v → Returns (f v) next post₂) :
    Returns (x >>= f) (pre ∧ next) post₂ := by
  cases x with
  | error e =>
    refine ⟨fun hp => ?_, fun w hw => nomatch hw⟩
    obtain ⟨v, hv⟩ := h.ok hp.1
    cases hv
  | ok v =>
    obtain ⟨hpre, hpost⟩ := h.exact v rfl
    exact (hf v hpost).congr ⟨fun hn => ⟨hpre, hn⟩, fun hn => hn.2⟩

/-- Only the first part can raise. -/
theorem Returns.bind_total (h : Returns x pre post) (hf : ∀ v, post v → Returns (f v) True post₂) :
    Returns (x >>= f) pre post₂ :=
  (h.bind hf).congr ⟨And.left, fun hp => ⟨hp, trivial⟩⟩

/-- Only the second part can raise. -/
theorem Returns.then (h : Returns x True post) (hf : ∀ v, post v → Returns (f v) next post₂) :
    Returns (x >>= f) next post₂ :=
  (h.bind hf).congr ⟨And.right, fun hn => ⟨trivial, hn⟩⟩

theorem Total.andThen (h : Total x) (hf : ∀ v, Total (f v)) : Total (x >>= f) :=
  Returns.then h fun v _ => hf v

theorem Total.ite {c : Prop} [Decidable c] {y : Except ε α} (hx : Total x) (hy : Total y) :
    Total (if c then x else y) := by
  by_cases h : c
  · rw [if_pos h]
    exact hx
  · rw [if_neg h]
    exact hy

theorem Returns.map {g : α → β} (h : Returns x pre post) (hg : ∀ v, post v → post₂ (g v)) :
    Returns (g <$> x) pre post₂ := by
  cases x with
  | error e =>
    refine ⟨fun hp => ?_, fun w hw => nomatch hw⟩
    obtain ⟨v, hv⟩ := h.ok hp
    cases hv
  | ok v =>
    obtain ⟨hpre, hpost⟩ := h.exact v rfl
    exact (returns_ok (hg v hpost)).congr (iff_of_true trivial hpre)

end Rules

section Lists
variable {f : α → Except ε β} {pre : α → Prop} {post : α → β → Prop}

/-- A list of computations returns exactly when each of them does. -/
theorem returns_mapM (h : ∀ x, Returns (f x) (pre x) (post x)) (xs : List α) :
    Returns (xs.mapM f) (∀ x ∈ xs, pre x) (List.Forall₂ post xs) := by
  induction xs with
  | nil => exact (returns_pure List.Forall₂.nil).congr (iff_of_true trivial (List.forall_mem_nil pre))
  | cons x xs ih =>
    rw [List.mapM_cons]
    apply ((h x).bind fun y hy => ih.bind_total fun ys hys =>
      returns_pure (List.Forall₂.cons hy hys)).congr
    rw [List.forall_mem_cons]

theorem forall₂_of_mapM {xs : List α} {ys : List β} (h : xs.mapM f = .ok ys) :
    List.Forall₂ (fun x y => f x = .ok y) xs ys :=
  ((returns_mapM (f := f)
    (fun _ => ⟨id, fun y hy => ⟨⟨y, hy⟩, hy⟩⟩) xs).exact ys h).2

/-- What a list of computations raises one of them raises. -/
theorem exists_of_mapM_error {xs : List α} {e : ε} (h : xs.mapM f = .error e) :
    ∃ x ∈ xs, f x = .error e := by
  induction xs with
  | nil => cases h
  | cons x xs ih =>
    rw [List.mapM_cons] at h
    cases hx : f x with
    | error e' =>
      rw [hx] at h
      cases h
      exact ⟨x, List.mem_cons_self, hx⟩
    | ok y =>
      cases hrest : xs.mapM f with
      | error e' =>
        rw [hx, hrest] at h
        cases h
        obtain ⟨z, hz, hraise⟩ := ih hrest
        exact ⟨z, List.mem_cons_of_mem x hz, hraise⟩
      | ok ys =>
        rw [hx, hrest] at h
        cases h

/-- Each element of the second list stands beside one of the first. -/
theorem exists_of_mem_forall₂ {γ : Type*} {δ : Type*} {R : γ → δ → Prop} {xs : List γ} {ys : List δ}
    (h : List.Forall₂ R xs ys) {y : δ} (hy : y ∈ ys) : ∃ x ∈ xs, R x y := by
  induction h with
  | nil => cases hy
  | cons hxy _ ih =>
    obtain rfl | hmem := List.mem_cons.mp hy
    · exact ⟨_, List.mem_cons_self, hxy⟩
    · obtain ⟨x, hx, hR⟩ := ih hmem
      exact ⟨x, List.mem_cons_of_mem _ hx, hR⟩

end Lists

end ExactOutcomes
