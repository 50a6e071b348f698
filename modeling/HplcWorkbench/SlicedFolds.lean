import Mathlib.Data.List.Nodup

/-!
# Folds seen through views

The steps of a fold may fail. Each has a key, changes what the view of its key shows of the state and
leaves the other views as they are. Then the steps of one key can be cut out of the fold: what the view
shows, and whether a step fails, is the same in the fold over them alone.
-/

namespace SlicedFolds

variable {α ε ι ν σ τ : Type}

/-- What a step needs and what it changes is shown by the view of its key. -/
structure Viewed (f : σ → α → Except ε σ) (key : α → ι) (view : ι → σ → ν) : Prop where
  apart {s s' : σ} {x : α} {i : ι} : i ≠ key x → f s x = .ok s' → view i s' = view i s
  own {s s' t : σ} {x : α} : view (key x) t = view (key x) s → f s x = .ok s' →
    ∃ t', f t x = .ok t' ∧ view (key x) t' = view (key x) s'

theorem foldlM_cons_ok {f : σ → α → Except ε σ} {x : α} {l : List α} {s s' : σ} :
    (x :: l).foldlM f s = .ok s' ↔ ∃ t, f s x = .ok t ∧ l.foldlM f t = .ok s' := by
  rw [List.foldlM_cons]
  cases f s x with
  | error e =>
      refine iff_of_false (fun h => by cases h) ?_
      rintro ⟨t, ht, -⟩
      cases ht
  | ok t =>
      constructor
      · intro h
        exact ⟨t, rfl, h⟩
      · rintro ⟨u, hu, h⟩
        obtain rfl := Except.ok.inj hu
        exact h

/-- Each step of a fold that goes through does. -/
theorem step_of_foldlM {f : σ → α → Except ε σ} {l : List α} {s s' : σ} (h : l.foldlM f s = .ok s')
    {x : α} (hx : x ∈ l) : ∃ t t', f t x = .ok t' := by
  induction l generalizing s with
  | nil => cases hx
  | cons y l ih =>
      obtain ⟨t, ht, hrest⟩ := foldlM_cons_ok.mp h
      rcases List.mem_cons.mp hx with rfl | hx
      · exact ⟨s, t, ht⟩
      · exact ih hrest hx

/-- A relation that the steps keep is kept by the fold. -/
theorem foldlM_simulate {f : σ → α → Except ε σ} {g : τ → α → Except ε τ} {R : σ → τ → Prop}
    {l : List α} {s s' : σ} {t : τ}
    (hstep : ∀ x ∈ l, ∀ s s' t, R s t → f s x = .ok s' → ∃ t', g t x = .ok t' ∧ R s' t')
    (h : R s t) (hrun : l.foldlM f s = .ok s') : ∃ t', l.foldlM g t = .ok t' ∧ R s' t' := by
  induction l generalizing s t with
  | nil =>
      obtain rfl := Except.ok.inj hrun
      exact ⟨t, rfl, h⟩
  | cons x l ih =>
      obtain ⟨u, hu, hrest⟩ := foldlM_cons_ok.mp hrun
      obtain ⟨v, hv, huv⟩ := hstep x List.mem_cons_self s u t h hu
      obtain ⟨t', ht', hend⟩ := ih (fun y hy => hstep y (List.mem_cons_of_mem _ hy)) huv hrest
      exact ⟨t', foldlM_cons_ok.mpr ⟨v, hv, ht'⟩, hend⟩

section Views
variable [DecidableEq ι] {f : σ → α → Except ε σ} {key : α → ι} {view : ι → σ → ν} {l : List α}
  {s s' t : σ} {i : ι}

/-- The steps of a key alone show the same. -/
theorem Viewed.slice (h : Viewed f key view) (hview : view i t = view i s)
    (hrun : l.foldlM f s = .ok s') :
    ∃ t', (l.filter fun x => key x = i).foldlM f t = .ok t' ∧ view i t' = view i s' := by
  induction l generalizing s t with
  | nil =>
      obtain rfl := Except.ok.inj hrun
      exact ⟨t, rfl, hview⟩
  | cons x l ih =>
      obtain ⟨u, hu, hrest⟩ := foldlM_cons_ok.mp hrun
      by_cases hkey : key x = i
      · subst hkey
        obtain ⟨v, hv, hsame⟩ := h.own hview hu
        obtain ⟨t', ht', hend⟩ := ih hsame hrest
        rw [List.filter_cons_of_pos (by simp)]
        exact ⟨t', foldlM_cons_ok.mpr ⟨v, hv, ht'⟩, hend⟩
      · rw [List.filter_cons_of_neg (by simpa using hkey)]
        exact ih (hview.trans (h.apart (Ne.symm hkey) hu).symm) hrest

omit [DecidableEq ι] in
/-- With one step for a key, the fold goes through if each step does on what its view shows. -/
theorem Viewed.assemble (h : Viewed f key view) (hnodup : (l.map key).Nodup)
    (hown : ∀ x ∈ l, ∃ t t', view (key x) s = view (key x) t ∧ f t x = .ok t') :
    ∃ s', l.foldlM f s = .ok s' := by
  induction l generalizing s with
  | nil => exact ⟨s, rfl⟩
  | cons x l ih =>
      obtain ⟨hfresh, hrest⟩ := List.nodup_cons.mp hnodup
      obtain ⟨t, t', hview, ht'⟩ := hown x List.mem_cons_self
      obtain ⟨u, hu, -⟩ := h.own hview ht'
      have hlater : ∀ y ∈ l, ∃ t t', view (key y) u = view (key y) t ∧ f t y = .ok t' := by
        intro y hy
        obtain ⟨v, v', hv, hv'⟩ := hown y (List.mem_cons_of_mem _ hy)
        have hother : key y ≠ key x := fun heq => hfresh (heq ▸ List.mem_map_of_mem hy)
        exact ⟨v, v', (h.apart hother hu).trans hv, hv'⟩
      obtain ⟨s', hs'⟩ := ih hrest hlater
      exact ⟨s', foldlM_cons_ok.mpr ⟨u, hu, hs'⟩⟩

end Views

end SlicedFolds
