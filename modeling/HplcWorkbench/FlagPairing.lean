import Mathlib.Data.List.Basic

/-!
# Frames between equal flags

A frame begins and ends with the same flag, so a stream of frames is read by pairing its flags. A
pair with too little between it counts as an end and a beginning. A stream that is entered inside a
frame is paired the wrong way until two flags stand close together.
-/

namespace FlagPairing

variable {α : Type*} [DecidableEq α] (flag : α) (least : ℕ)

/-- The open frame meets a symbol: the frame that is closed by it, and the one open after it. -/
def step : Option (List α) → α → Option (List α) × Option (List α)
  | none, a => (none, if a = flag then some [a] else none)
  | some content, a =>
    if a = flag then
      if least + 1 ≤ content.length then (some (content ++ [a]), none) else (none, some [a])
    else (none, some (content ++ [a]))

def run : Option (List α) → List α → List (List α) × Option (List α)
  | opened, [] => ([], opened)
  | opened, a :: rest =>
    ((step flag least opened a).1.toList ++ (run (step flag least opened a).2 rest).1,
      (run (step flag least opened a).2 rest).2)

/-- What is open is a flag and what came after it. -/
def Opened (opened : Option (List α)) : Prop :=
  ∀ content ∈ opened, ∃ u, flag ∉ u ∧ content = flag :: u

variable {flag least} {opened : Option (List α)}

theorem run_append (opened : Option (List α)) (xs ys : List α) :
    run flag least opened (xs ++ ys) =
      ((run flag least opened xs).1 ++ (run flag least (run flag least opened xs).2 ys).1,
        (run flag least (run flag least opened xs).2 ys).2) := by
  induction xs generalizing opened with
  | nil => rfl
  | cons a rest ih =>
      rw [List.cons_append, run, run, ih, List.append_assoc]

/-- Without a flag nothing is opened or closed. -/
theorem run_free {u : List α} (hu : flag ∉ u) (opened : Option (List α)) :
    run flag least opened u = ([], opened.map (· ++ u)) := by
  induction u generalizing opened with
  | nil => cases opened <;> simp [run]
  | cons a rest ih =>
      obtain ⟨ha, hrest⟩ := not_or.mp (List.mem_cons.not.mp hu)
      have hne : a ≠ flag := Ne.symm ha
      cases opened with
      | none =>
          rw [run, step, if_neg hne, ih hrest]
          rfl
      | some content =>
          rw [run, step, if_neg hne, ih hrest]
          simp

theorem run_flag_none : run flag least none [flag] = ([], some [flag]) := by
  simp [run, step]

theorem run_close {u : List α} (hu : least ≤ u.length) :
    run flag least (some (flag :: u)) [flag] = ([flag :: u ++ [flag]], none) := by
  simp [run, step, hu]

theorem run_reopen {u : List α} (hu : u.length < least) :
    run flag least (some (flag :: u)) [flag] = ([], some [flag]) := by
  simp [run, step, Nat.not_le.mpr hu]

theorem Opened.step (h : Opened flag opened) (a : α) :
    Opened flag (FlagPairing.step flag least opened a).2 := by
  intro content hcontent
  by_cases ha : a = flag
  · cases opened with
    | none =>
        rw [FlagPairing.step, if_pos ha] at hcontent
        exact ⟨[], List.not_mem_nil, by rw [← Option.some.inj hcontent, ha]⟩
    | some before =>
        rw [FlagPairing.step, if_pos ha] at hcontent
        split at hcontent
        · cases hcontent
        · exact ⟨[], List.not_mem_nil, by rw [← Option.some.inj hcontent, ha]⟩
  · cases opened with
    | none =>
        rw [FlagPairing.step, if_neg ha] at hcontent
        cases hcontent
    | some before =>
        obtain ⟨u, hu, rfl⟩ := h before rfl
        rw [FlagPairing.step, if_neg ha] at hcontent
        apply Exists.intro (u ++ [a])
        constructor
        · simp [hu, Ne.symm ha]
        · rw [← Option.some.inj hcontent, List.cons_append]

theorem Opened.run (h : Opened flag opened) (xs : List α) :
    Opened flag (FlagPairing.run flag least opened xs).2 := by
  induction xs generalizing opened with
  | nil => exact h
  | cons a rest ih => exact ih (h.step a)

/-- To read again what is open leads to the same place. -/
theorem Opened.reread (h : Opened flag opened) :
    FlagPairing.run flag least none (opened.getD []) = ([], opened) := by
  cases opened with
  | none => rfl
  | some content =>
      obtain ⟨u, hu, rfl⟩ := h content rfl
      rw [Option.getD_some, ← List.singleton_append, run_append, run_flag_none, run_free hu]
      rfl

/-- What is open is the end of what has been read. -/
theorem run_suffix {before : List α} (h : opened.getD [] <:+ before) (xs : List α) :
    (run flag least opened xs).2.getD [] <:+ before ++ xs := by
  induction xs generalizing opened before with
  | nil => rwa [List.append_nil]
  | cons a rest ih =>
      have hstep : (step flag least opened a).2.getD [] <:+ before ++ [a] := by
        cases opened with
        | none =>
            rw [step]
            split
            · exact List.suffix_append before [a]
            · exact List.nil_suffix
        | some content =>
            have hlonger : content ++ [a] <:+ before ++ [a] := by
              obtain ⟨u, rfl⟩ := h
              exact ⟨u, by rw [Option.getD_some, List.append_assoc]⟩
            rw [step]
            split
            · split
              · exact List.nil_suffix
              · exact List.suffix_append before [a]
            · exact hlonger
      have hrest := ih hstep
      rwa [List.append_assoc, List.singleton_append] at hrest

/-- After a flag a frame has been closed or one is open. -/
theorem closed_or_open_of_getLast {xs : List α} (hlast : xs.getLast? = some flag) :
    (run flag least opened xs).1 ≠ [] ∨ (run flag least opened xs).2 ≠ none := by
  obtain ⟨init, rfl⟩ := List.getLast?_eq_some_iff.mp hlast
  rw [run_append]
  cases (run flag least opened init).2 with
  | none => exact .inr (by simp [run, step])
  | some content =>
      by_cases hlong : least + 1 ≤ content.length
      · exact .inl (by simp [run, step, hlong])
      · exact .inr (by simp [run, step, hlong])

/-! ## Streams of frames -/

/-- A body between two flags. -/
def frame (flag : α) (body : List α) : List α := flag :: body ++ [flag]

/-- Frames with noise in front of each. -/
def stream (flag : α) (parts : List (List α × List α)) : List α :=
  parts.flatMap fun p => p.1 ++ frame flag p.2

/-- Noise has no flag, and neither have bodies, which are not too short. -/
def Framed (flag : α) (least : ℕ) (parts : List (List α × List α)) : Prop :=
  ∀ p ∈ parts, flag ∉ p.1 ∧ flag ∉ p.2 ∧ least ≤ p.2.length

/-- The flags of the frames come to be paired the right way after a flag too many, or the noise in
between looks just like the frames. -/
def Recovers (least : ℕ) : List (List α × List α) → Prop
  | [] => True
  | p :: rest => p.1.length < least ∨ p.1 = p.2 ∧ Recovers least rest

theorem run_stream {parts : List (List α × List α)} (h : Framed flag least parts) :
    run flag least none (stream flag parts) = (parts.map fun p => frame flag p.2, none) := by
  induction parts with
  | nil => rfl
  | cons p rest ih =>
      obtain ⟨⟨hnoise, hbody, hlong⟩, hrest⟩ := List.forall_mem_cons.mp h
      have hframe : run flag least none (frame flag p.2) = ([frame flag p.2], none) := by
        rw [frame, List.cons_append, ← List.singleton_append, run_append, run_flag_none, run_append,
          run_free hbody, Option.map_some, List.singleton_append, run_close hlong]
        rfl
      rw [stream, List.flatMap_cons, run_append, run_append, run_free hnoise, Option.map_none, hframe]
      change ([] ++ [frame flag p.2] ++ (run flag least none (stream flag rest)).1,
        (run flag least none (stream flag rest)).2) = _
      rw [ih hrest]
      rfl

/-- After a flag too many: the first noise closes a frame, unless it is short. -/
theorem run_stream_shifted {p : List α × List α} {rest : List (List α × List α)}
    (h : Framed flag least (p :: rest)) :
    (run flag least (some [flag]) (stream flag (p :: rest))).1 =
      if p.1.length < least then (p :: rest).map fun q => frame flag q.2
      else frame flag p.1 :: (run flag least (some [flag]) (stream flag rest)).1 := by
  obtain ⟨⟨hnoise, hbody, hlong⟩, hrest⟩ := List.forall_mem_cons.mp h
  have hnoisy : run flag least (some [flag]) p.1 = ([], some (flag :: p.1)) := by
    rw [run_free hnoise, Option.map_some, List.singleton_append]
  have hsplit : stream flag (p :: rest) = p.1 ++ ([flag] ++ (p.2 ++ ([flag] ++ stream flag rest))) := by
    simp [stream, frame]
  rw [hsplit, run_append, hnoisy, run_append]
  by_cases hshort : p.1.length < least
  · rw [if_pos hshort, run_reopen hshort, run_append, run_free hbody, Option.map_some,
      List.singleton_append, run_append, run_close hlong, run_stream hrest]
    rfl
  · rw [if_neg hshort, run_close (Nat.not_lt.mp hshort), run_append, run_free hbody,
      Option.map_none, run_append, run_flag_none]
    rfl

theorem shifted_eq_iff {parts : List (List α × List α)} (h : Framed flag least parts) :
    (run flag least (some [flag]) (stream flag parts)).1 = parts.map (fun p => frame flag p.2) ↔
      Recovers least parts := by
  induction parts with
  | nil => exact ⟨fun _ => trivial, fun _ => rfl⟩
  | cons p rest ih =>
      have hrest := (List.forall_mem_cons.mp h).2
      rw [run_stream_shifted h, Recovers]
      by_cases hshort : p.1.length < least
      · rw [if_pos hshort]
        exact ⟨fun _ => .inl hshort, fun _ => rfl⟩
      · rw [if_neg hshort, List.map_cons, List.cons_eq_cons, ih hrest, frame, frame,
          List.append_cancel_right_eq, List.cons_eq_cons]
        constructor
        · exact fun hsame => .inr ⟨hsame.1.2, hsame.2⟩
        · intro hrecovers
          obtain ⟨hsame, hlater⟩ := hrecovers.resolve_left hshort
          exact ⟨⟨rfl, hsame⟩, hlater⟩

end FlagPairing
