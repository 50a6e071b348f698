import HplcWorkbench.CaptureStamps

/-!
# The duration of a session

The duration is read off the clocks of the first and the last row, so at most one midnight between
them can be noticed, and only if the clock has fallen back by more than twelve hours. It is the true
one exactly for sessions within a day or of less than twelve hours.
-/

namespace HplcWorkbench.ListenerLog

/-- The rows show the clocks of instants that never decrease and lie less than twelve hours apart. -/
structure CapturedAt (rows : List FrameRow) (instants : List ℕ) : Prop where
  clocks : rows.map (fun row => parseTimeMs row.logTime) = instants.map fun t => some (t % dayMs)
  close : instants.IsChain fun t u => t ≤ u ∧ u < t + 43200000

theorem CapturedAt.first_le_last {rows : List FrameRow} {instants : List ℕ} {first last : ℕ}
    (h : CapturedAt rows instants) (hfirst : instants.head? = some first)
    (hlast : instants.getLast? = some last) : first ≤ last := by
  have hle : instants.IsChain (· ≤ ·) := h.close.imp fun _ _ hclose => hclose.1
  cases instants with
  | nil => cases hfirst
  | cons t rest =>
      obtain rfl := Option.some.inj hfirst
      have hmem := List.mem_of_getLast? hlast
      rw [List.isChain_iff_pairwise, List.pairwise_cons] at hle
      obtain rfl | hrest := List.mem_cons.mp hmem
      · exact le_rfl
      · exact hle.1 last hrest

theorem sessionDuration_captured {rows : List FrameRow} {instants : List ℕ} (first last : ℕ)
    (h : CapturedAt rows instants) (hfirst : instants.head? = some first)
    (hlast : instants.getLast? = some last) :
    sessionDuration rows =
      some (midnights (some (first % dayMs)) [last % dayMs] * dayMs + last % dayMs -
        first % dayMs) := by
  have hhead := congrArg List.head? h.clocks
  have hend := congrArg List.getLast? h.clocks
  rw [List.head?_map, List.head?_map, hfirst, Option.map_some, Option.map_eq_some_iff] at hhead
  rw [List.getLast?_map, List.getLast?_map, hlast, Option.map_some, Option.map_eq_some_iff] at hend
  obtain ⟨firstRow, hfirstRow, hclock⟩ := hhead
  obtain ⟨lastRow, hlastRow, hclock'⟩ := hend
  have hnone : midnights none [first % dayMs] = 0 := rfl
  unfold sessionDuration
  simp only [hfirstRow, hlastRow]
  rw [absoluteMs, absoluteMs, absoluteMs, absMs_clock hclock, absMs_clock hclock', hnone]
  simp only [Nat.zero_add, Nat.zero_mul]

/-- The duration is the true one exactly if the session stays within a day or is shorter than twelve
hours. -/
theorem sessionDuration_iff (rows : List FrameRow) (instants : List ℕ) (first last : ℕ)
    (h : CapturedAt rows instants) (hfirst : instants.head? = some first)
    (hlast : instants.getLast? = some last) :
    sessionDuration rows = some (last - first) ↔
      first / dayMs = last / dayMs ∨ last < first + 43200000 := by
  have hle := h.first_le_last hfirst hlast
  rw [sessionDuration_captured first last h hfirst hlast, Option.some.injEq]
  have hday : first / dayMs ≤ last / dayMs := Nat.div_le_div_right hle
  rw [midnights, midnights, Option.any_some]
  unfold dayMs at hday ⊢
  split <;> rename_i hrolled
  · rw [decide_eq_true_eq] at hrolled
    omega
  · rw [decide_eq_true_eq] at hrolled
    omega

/-- Rows in the evening and rows of a night of thirteen and a half hours. -/
def eveningInstants : List ℕ := [82800000, 104400000]

def nightInstants : List ℕ := [82800000, 104400000, 126000000, 131400000]

def nightRow (t : ℕ) : FrameRow :=
  ⟨1, "000001", clockText t, 2, "7E 7E", none, none, none, none, none⟩

theorem capturedAt_nightRow (instants : List ℕ)
    (hclose : instants.IsChain fun t u => t ≤ u ∧ u < t + 43200000) :
    CapturedAt (instants.map nightRow) instants := by
  constructor
  · rw [List.map_map]
    apply List.map_congr_left
    intro t _
    rw [Function.comp_apply, nightRow, parseTimeMs_clockText]
  · exact hclose

theorem sessionDuration_evening :
    sessionDuration (eveningInstants.map nightRow) = some (104400000 - 82800000) :=
  (sessionDuration_iff _ eveningInstants 82800000 104400000
    (capturedAt_nightRow _ (by simp [eveningInstants])) rfl rfl).mpr (.inr (by omega))

/-- The clock of the night falls back by less than twelve hours, so no time seems to pass. -/
theorem night_duration_lost :
    ¬ ∀ (rows : List FrameRow) (instants : List ℕ) (first last : ℕ), CapturedAt rows instants →
      instants.head? = some first → instants.getLast? = some last →
      sessionDuration rows = some (last - first) := by
  intro hclaim
  have h := capturedAt_nightRow nightInstants (by simp [nightInstants])
  have htrue := hclaim _ _ 82800000 131400000 h rfl rfl
  have hlost := sessionDuration_captured 82800000 131400000 h rfl rfl
  have hspan := Option.some.inj (hlost.symm.trans htrue)
  have hsame : midnights (some (82800000 % dayMs)) [131400000 % dayMs] = 0 := by decide
  rw [hsame, dayMs] at hspan
  omega

end HplcWorkbench.ListenerLog
