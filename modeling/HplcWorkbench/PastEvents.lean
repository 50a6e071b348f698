import Mathlib.Data.List.Basic

/-!
# What has happened

A list of events is read up to its end. Something happened once, or something happened and nothing
undid it since; whether it did may depend on the events before it.
-/

namespace PastEvents
variable {ε : Type} {p p' : List ε → ε → Prop} {q : ε → Prop} {es : List ε} {e : ε}

/-- An event with the property has happened. -/
def Once (p : List ε → ε → Prop) (es : List ε) : Prop :=
  ∃ before e after, es = before ++ e :: after ∧ p before e

/-- An event with the property has happened, and no event since has undone it. -/
def Since (p : List ε → ε → Prop) (q : ε → Prop) (es : List ε) : Prop :=
  ∃ before e after, es = before ++ e :: after ∧ p before e ∧ ∀ f ∈ after, ¬ q f

/-- A list with a last event is split before it or at it. -/
theorem concat_eq_append_cons {before after : List ε} {f : ε} :
    es ++ [e] = before ++ f :: after ↔
      (es = before ∧ e = f ∧ after = []) ∨ ∃ rest, after = rest ++ [e] ∧ es = before ++ f :: rest := by
  rcases List.eq_nil_or_concat' after with rfl | ⟨rest, g, rfl⟩
  · constructor
    · intro h
      obtain ⟨hes, he⟩ := List.append_inj' h rfl
      exact Or.inl ⟨hes, List.head_eq_of_cons_eq he, rfl⟩
    · rintro (⟨rfl, rfl, -⟩ | ⟨rest, hrest, -⟩)
      · rfl
      · exact absurd hrest.symm (List.append_ne_nil_of_right_ne_nil _ (List.cons_ne_nil _ _))
  · constructor
    · intro h
      rw [← List.cons_append, ← List.append_assoc] at h
      obtain ⟨hes, he⟩ := List.append_inj' h rfl
      exact Or.inr ⟨rest, by rw [List.head_eq_of_cons_eq he], hes⟩
    · rintro (⟨-, -, hrest⟩ | ⟨rest', hrest, rfl⟩)
      · exact absurd hrest (List.append_ne_nil_of_right_ne_nil _ (List.cons_ne_nil _ _))
      · rw [hrest, List.append_assoc, List.cons_append]

theorem not_once_nil : ¬ Once p [] := by
  rintro ⟨before, e, after, h, -⟩
  exact List.append_ne_nil_of_right_ne_nil before (List.cons_ne_nil e after) h.symm

theorem once_concat : Once p (es ++ [e]) ↔ p es e ∨ Once p es := by
  constructor
  · rintro ⟨before, f, after, h, hp⟩
    rcases concat_eq_append_cons.mp h with ⟨rfl, rfl, -⟩ | ⟨rest, -, hes⟩
    · exact Or.inl hp
    · exact Or.inr ⟨before, f, rest, hes, hp⟩
  · rintro (hp | ⟨before, f, after, rfl, hp⟩)
    · exact ⟨es, e, [], rfl, hp⟩
    · exact ⟨before, f, after ++ [e], by rw [List.append_assoc, List.cons_append], hp⟩

theorem since_concat : Since p q (es ++ [e]) ↔ p es e ∨ (Since p q es ∧ ¬ q e) := by
  constructor
  · rintro ⟨before, f, after, h, hp, hq⟩
    rcases concat_eq_append_cons.mp h with ⟨rfl, rfl, -⟩ | ⟨rest, rfl, hes⟩
    · exact Or.inl hp
    · exact Or.inr ⟨⟨before, f, rest, hes, hp, fun g hg => hq g (List.mem_append_left _ hg)⟩,
        hq e (List.mem_append_right _ List.mem_cons_self)⟩
  · rintro (hp | ⟨⟨before, f, after, rfl, hp, hq⟩, he⟩)
    · exact ⟨es, e, [], rfl, hp, fun _ hf => absurd hf List.not_mem_nil⟩
    · refine ⟨before, f, after ++ [e], by rw [List.append_assoc, List.cons_append], hp, fun g hg => ?_⟩
      rcases List.mem_append.mp hg with hg | hg
      · exact hq g hg
      · exact List.mem_singleton.mp hg ▸ he

end PastEvents
