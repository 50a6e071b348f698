import Mathlib.Algebra.BigOperators.Group.List.Basic
import Mathlib.Data.List.Basic

/-!
# Runs between separators

A text is read as the maximal runs of what is no separator. Cut into chunks that are read one by one,
it gives the same runs exactly when no cut goes through a run.
-/

namespace MaximalRuns
variable {α : Type} (sep : α → Bool)

/-- The maximal runs without separators. -/
def runs : List α → List (List α)
  | [] => []
  | c :: rest =>
    if sep c then runs rest
    else if rest.head?.any fun d => !sep d then (c :: (runs rest).headD []) :: (runs rest).tail
    else [c] :: runs rest

/-- A run goes on from the first list into the second. -/
def Torn (a b : List α) : Prop := (∃ c ∈ a.getLast?, sep c = false) ∧ ∃ d ∈ b.head?, sep d = false

/-- No chunk ends inside a run. -/
def Whole : List (List α) → Prop
  | [] => True
  | a :: rest => ¬ Torn sep a rest.flatten ∧ Whole rest

variable {sep} {a b : List α} {c : α}

theorem runs_cons_sep (h : sep c = true) : runs sep (c :: a) = runs sep a := by
  rw [runs, if_pos h]

/-- In front of a run its first element is lengthened. -/
theorem runs_cons_joined {d : α} (hc : sep c = false) (hd : sep d = false) :
    runs sep (c :: d :: a) = (c :: (runs sep (d :: a)).headD []) :: (runs sep (d :: a)).tail := by
  rw [runs, if_neg (by rw [hc]; exact Bool.false_ne_true), if_pos (by simp [hd])]

theorem runs_cons_alone (hc : sep c = false) (h : ∀ d ∈ a.head?, sep d = true) :
    runs sep (c :: a) = [c] :: runs sep a := by
  rw [runs, if_neg (by rw [hc]; exact Bool.false_ne_true), if_neg]
  cases ha : a.head? with
  | none => exact Bool.false_ne_true
  | some d => simp [h d ha]

theorem runs_ne_nil {d : α} (hd : sep d = false) (a : List α) : runs sep (d :: a) ≠ [] := by
  rw [runs, if_neg (by rw [hd]; exact Bool.false_ne_true)]
  split <;> exact List.cons_ne_nil _ _

/-- The runs together are what is no separator. -/
theorem flatten_runs (xs : List α) : (runs sep xs).flatten = xs.filter fun c => !sep c := by
  induction xs with
  | nil => rfl
  | cons c rest ih =>
    cases hc : sep c with
    | true => rw [runs_cons_sep hc, ih, List.filter_cons_of_neg (by simp [hc])]
    | false =>
      rw [List.filter_cons_of_pos (by simp [hc]), ← ih]
      cases rest with
      | nil => rw [runs_cons_alone hc (by simp)]; rfl
      | cons d rest =>
        cases hd : sep d with
        | true => rw [runs_cons_alone hc (by simpa using hd)]; rfl
        | false =>
          obtain ⟨first, more, hruns⟩ := List.exists_cons_of_ne_nil (runs_ne_nil hd rest)
          rw [runs_cons_joined hc hd, hruns]
          rfl

theorem runs_eq_nil_of_filter {xs : List α} (h : (xs.filter fun c => !sep c) = []) : runs sep xs = [] := by
  induction xs with
  | nil => rfl
  | cons c rest ih =>
    rw [List.filter_eq_nil_iff, List.forall_mem_cons, ← List.filter_eq_nil_iff] at h
    rw [runs_cons_sep (by simpa using h.1), ih h.2]

/-! ## Two parts -/

theorem not_torn_nil (b : List α) : ¬ Torn sep [] b := by
  rintro ⟨⟨c, hc, -⟩, -⟩
  cases hc

/-- Behind its first element, a list of two or more is torn where it was torn before. -/
theorem torn_cons_cons {d : α} : Torn sep (c :: d :: a) b ↔ Torn sep (d :: a) b := by
  rw [Torn, Torn, List.getLast?_cons_cons]

theorem torn_singleton : Torn sep [c] b ↔ sep c = false ∧ ∃ d ∈ b.head?, sep d = false := by
  simp [Torn]

/-- Where no run is torn, the runs of the parts are the runs of the whole. -/
theorem runs_append (h : ¬ Torn sep a b) : runs sep (a ++ b) = runs sep a ++ runs sep b := by
  induction a with
  | nil => rfl
  | cons c rest ih =>
    cases rest with
    | nil =>
      rw [List.singleton_append]
      cases hc : sep c with
      | true => rw [runs_cons_sep hc, runs_cons_sep hc]; rfl
      | false =>
        have hb : ∀ d ∈ b.head?, sep d = true := by
          intro d hd
          by_contra hne
          exact h (torn_singleton.mpr ⟨hc, d, hd, (Bool.not_eq_true _).mp hne⟩)
        rw [runs_cons_alone hc hb, runs_cons_alone hc (by simp)]
        rfl
    | cons d rest =>
      rw [torn_cons_cons] at h
      have hrest := ih h
      rw [List.cons_append] at hrest
      rw [List.cons_append, List.cons_append]
      cases hc : sep c with
      | true => rw [runs_cons_sep hc, runs_cons_sep hc, hrest]
      | false =>
        cases hd : sep d with
        | true =>
          rw [runs_cons_alone hc (by simpa using hd), runs_cons_alone hc (by simpa using hd), hrest]
          rfl
        | false =>
          obtain ⟨first, more, hruns⟩ := List.exists_cons_of_ne_nil (runs_ne_nil hd rest)
          rw [runs_cons_joined hc hd, runs_cons_joined hc hd, hrest, hruns]
          rfl

/-- A run that is torn is counted in both parts. -/
theorem length_runs_of_torn (h : Torn sep a b) :
    (runs sep a).length + (runs sep b).length = (runs sep (a ++ b)).length + 1 := by
  induction a with
  | nil => exact absurd h (not_torn_nil b)
  | cons c rest ih =>
    cases rest with
    | nil =>
      obtain ⟨hc, d, hd, hnosep⟩ := torn_singleton.mp h
      cases b with
      | nil => cases hd
      | cons e b =>
        obtain rfl : e = d := Option.some.inj hd
        obtain ⟨first, more, hruns⟩ := List.exists_cons_of_ne_nil (runs_ne_nil hnosep b)
        rw [List.singleton_append, runs_cons_joined hc hnosep, runs_cons_alone hc (by simp), hruns]
        simp [runs]
        omega
    | cons d rest =>
      have hrest := ih (torn_cons_cons.mp h)
      rw [List.cons_append] at hrest
      rw [List.cons_append, List.cons_append]
      cases hc : sep c with
      | true =>
        rw [runs_cons_sep hc, runs_cons_sep hc]
        exact hrest
      | false =>
        cases hd : sep d with
        | true =>
          rw [runs_cons_alone hc (by simpa using hd), runs_cons_alone hc (by simpa using hd),
            List.length_cons, List.length_cons]
          omega
        | false =>
          obtain ⟨first, more, hruns⟩ := List.exists_cons_of_ne_nil (runs_ne_nil hd rest)
          obtain ⟨first', more', hruns'⟩ := List.exists_cons_of_ne_nil (runs_ne_nil hd (rest ++ b))
          rw [hruns, hruns', List.length_cons, List.length_cons] at hrest
          rw [runs_cons_joined hc hd, runs_cons_joined hc hd, hruns, hruns', List.length_cons,
            List.length_cons, List.tail_cons, List.tail_cons]
          exact hrest

/-! ## Many parts -/

variable (sep) in
theorem length_runs_flatten_le (chunks : List (List α)) :
    (runs sep chunks.flatten).length ≤ (chunks.flatMap (runs sep)).length := by
  induction chunks with
  | nil => exact Nat.le_refl 0
  | cons a rest ih =>
    rw [List.flatten_cons, List.flatMap_cons, List.length_append]
    by_cases h : Torn sep a rest.flatten
    · have := length_runs_of_torn h
      omega
    · rw [runs_append h, List.length_append]
      omega

/-- Read chunk by chunk, a text gives its own runs exactly when no run is torn. -/
theorem flatMap_runs_iff (chunks : List (List α)) :
    chunks.flatMap (runs sep) = runs sep chunks.flatten ↔ Whole sep chunks := by
  induction chunks with
  | nil => exact iff_of_true rfl trivial
  | cons a rest ih =>
    rw [List.flatMap_cons, List.flatten_cons, Whole]
    constructor
    · intro h
      have hlen := congrArg List.length h
      rw [List.length_append] at hlen
      have hle := length_runs_flatten_le sep rest
      have hwhole : ¬ Torn sep a rest.flatten := by
        intro htorn
        have := length_runs_of_torn htorn
        omega
      rw [runs_append hwhole, List.append_cancel_left_eq] at h
      exact ⟨hwhole, ih.mp h⟩
    · rintro ⟨hwhole, hrest⟩
      rw [runs_append hwhole, ih.mpr hrest]

theorem flatten_flatMap_runs (chunks : List (List α)) :
    (chunks.flatMap (runs sep)).flatten = chunks.flatten.filter fun c => !sep c := by
  induction chunks with
  | nil => rfl
  | cons a rest ih =>
    rw [List.flatMap_cons, List.flatten_append, flatten_runs, ih, List.flatten_cons, List.filter_append]

/-- Behind the chunks that give all runs there is none left. -/
theorem flatMap_runs_drop {chunks : List (List α)} {k : ℕ}
    (h : (chunks.take k).flatMap (runs sep) = runs sep chunks.flatten) :
    (chunks.drop k).flatMap (runs sep) = [] := by
  have hchars := congrArg List.flatten h
  rw [flatten_flatMap_runs, flatten_runs] at hchars
  conv_rhs at hchars => rw [← List.take_append_drop k chunks, List.flatten_append, List.filter_append]
  have hrest := List.self_eq_append_right.mp hchars
  rw [List.filter_eq_nil_iff] at hrest
  rw [List.flatMap_eq_nil_iff]
  intro a ha
  apply runs_eq_nil_of_filter
  rw [List.filter_eq_nil_iff]
  exact fun c hc => hrest c (List.mem_flatten_of_mem ha hc)

end MaximalRuns
