import Mathlib.Data.List.Sort
import Mathlib.Order.Bounds.Basic

/-!
# Picking spans that stop early

Spans are completed from their starts. Going through the starts in their order, `pick` takes each span
that can be completed and starts behind the one taken last. If a start is completed as early as any
span that begins there, and later starts are completed no earlier, no more spans that lie apart can be
picked.
-/

namespace EarliestStop

variable {α β ι : Type*} [LinearOrder ι]

section Pick
variable (start : α → ι) (finish : β → ι) (complete : α → Option β)

/-- The spans that are completed from the starts behind `last`. -/
def pick (last : ι) : List α → List β
  | [] => []
  | a :: rest =>
    if start a ≤ last then pick last rest
    else
      match complete a with
      | none => pick last rest
      | some b => b :: pick (finish b) rest

/-- Two spans have no place in common. -/
def Apart (first : β → ι) (b c : β) : Prop := finish b < first c ∨ finish c < first b

/-- What is completed are candidates, and of those that begin at a start the earliest; a start is not
completed before an earlier one. -/
structure Earliest (first : β → ι) (starts : List α) (candidates : Set β) : Prop where
  ordered : starts.Pairwise fun a a' => start a < start a'
  first_eq : ∀ a ∈ starts, ∀ b, complete a = some b → first b = start a
  candidate : ∀ a ∈ starts, ∀ b, complete a = some b → b ∈ candidates
  proper : ∀ b ∈ candidates, first b ≤ finish b
  begins : ∀ b ∈ candidates, ∃ a ∈ starts, start a = first b
  completed : ∀ b ∈ candidates, ∀ a ∈ starts, start a = first b → ∃ c, complete a = some c ∧ finish c ≤ finish b
  mono : ∀ a ∈ starts, ∀ a' ∈ starts, start a ≤ start a' → ∀ b b', complete a = some b → complete a' = some b' →
    finish b ≤ finish b'

end Pick

section Greatest
variable {start : α → ι} {finish : β → ι} {complete : α → Option β} {first : β → ι} {last : ι}

theorem mem_pick {starts : List α} {b : β} (h : b ∈ pick start finish complete last starts) :
    ∃ a ∈ starts, complete a = some b := by
  induction starts generalizing last with
  | nil => cases h
  | cons a rest ih =>
    unfold pick at h
    split at h
    · obtain ⟨a', ha', hb⟩ := ih h
      exact ⟨a', List.mem_cons_of_mem _ ha', hb⟩
    · split at h
      · obtain ⟨a', ha', hb⟩ := ih h
        exact ⟨a', List.mem_cons_of_mem _ ha', hb⟩
      · rename_i c hc
        rcases List.mem_cons.mp h with rfl | h
        · exact ⟨a, List.mem_cons_self, hc⟩
        · obtain ⟨a', ha', hb⟩ := ih h
          exact ⟨a', List.mem_cons_of_mem _ ha', hb⟩

/-- A span that is picked begins behind the last one. -/
theorem lt_first_of_mem_pick {starts : List α}
    (hfirst : ∀ a ∈ starts, ∀ b, complete a = some b → first b = start a)
    (hproper : ∀ a ∈ starts, ∀ b, complete a = some b → first b ≤ finish b) {b : β}
    (h : b ∈ pick start finish complete last starts) : last < first b := by
  induction starts generalizing last with
  | nil => cases h
  | cons a rest ih =>
    have ih := fun last => @ih last (fun a' ha' => hfirst a' (List.mem_cons_of_mem a ha'))
      fun a' ha' => hproper a' (List.mem_cons_of_mem a ha')
    unfold pick at h
    split at h
    · exact ih _ h
    · rename_i hlast
      split at h
      · exact ih _ h
      · rename_i c hc
        have hbehind : last < first c := by
          rw [hfirst a List.mem_cons_self c hc]
          exact not_le.mp hlast
        rcases List.mem_cons.mp h with rfl | h
        · exact hbehind
        · exact hbehind.trans_le ((hproper a List.mem_cons_self c hc).trans (ih _ h).le)

theorem pairwise_pick {starts : List α} (hfirst : ∀ a ∈ starts, ∀ b, complete a = some b → first b = start a)
    (hproper : ∀ a ∈ starts, ∀ b, complete a = some b → first b ≤ finish b) :
    (pick start finish complete last starts).Pairwise fun b c => finish b < first c := by
  induction starts generalizing last with
  | nil => exact List.Pairwise.nil
  | cons a rest ih =>
    have hfirst' := fun a' ha' => hfirst a' (List.mem_cons_of_mem a ha')
    have hproper' := fun a' ha' => hproper a' (List.mem_cons_of_mem a ha')
    unfold pick
    split
    · exact ih hfirst' hproper'
    · split
      · exact ih hfirst' hproper'
      · exact List.pairwise_cons.mpr
          ⟨fun c hc => lt_first_of_mem_pick hfirst' hproper' hc, ih hfirst' hproper'⟩

/-- Spans in their order that begin behind the last one are at most as many as are picked. -/
theorem length_le_length_pick {starts : List α}
    (hordered : starts.Pairwise fun a a' => start a < start a')
    (hmono : ∀ a ∈ starts, ∀ a' ∈ starts, start a ≤ start a' → ∀ b b', complete a = some b →
      complete a' = some b' → finish b ≤ finish b')
    {spans : List β} (hproper : ∀ b ∈ spans, first b ≤ finish b)
    (hspans : spans.Pairwise fun b c => finish b < first c)
    (hbegins : ∀ b ∈ spans, last < first b ∧ ∃ a ∈ starts, start a = first b ∧
      ∃ c, complete a = some c ∧ finish c ≤ finish b) :
    spans.length ≤ (pick start finish complete last starts).length := by
  induction starts generalizing last spans with
  | nil =>
    cases spans with
    | nil => exact le_rfl
    | cons b spans =>
      obtain ⟨-, a, ha, -⟩ := hbegins b List.mem_cons_self
      cases ha
  | cons a rest ih =>
    obtain ⟨hbefore, hrest⟩ := List.pairwise_cons.mp hordered
    have hmono' := fun a ha a' ha' =>
      hmono a (List.mem_cons_of_mem _ ha) a' (List.mem_cons_of_mem _ ha')
    -- where no span begins at `a`, they all begin at later starts
    have hskip : (∀ b ∈ spans, start a ≠ first b) →
        spans.length ≤ (pick start finish complete last rest).length := by
      intro hnone
      apply ih hrest hmono' hproper hspans
      intro b hb
      obtain ⟨hlast, a', ha', hstart, hcomplete⟩ := hbegins b hb
      rcases List.mem_cons.mp ha' with rfl | ha'
      · exact absurd hstart (hnone b hb)
      · exact ⟨hlast, a', ha', hstart, hcomplete⟩
    unfold pick
    split
    · rename_i hle
      apply hskip
      intro b hb hstart
      exact absurd (hbegins b hb).1 (not_lt.mpr (hstart ▸ hle))
    · split
      · rename_i hnone
        apply hskip
        intro b hb hstart
        obtain ⟨-, a', ha', hstart', c, hc, -⟩ := hbegins b hb
        rcases List.mem_cons.mp ha' with rfl | ha'
        · rw [hnone] at hc
          cases hc
        · exact absurd (hstart.trans hstart'.symm) (hbefore a' ha').ne
      · rename_i d hd
        cases spans with
        | nil => exact Nat.zero_le _
        | cons b spans =>
          obtain ⟨hfirst, hrest_spans⟩ := List.pairwise_cons.mp hspans
          obtain ⟨-, a', ha', hstart', c, hc, hle⟩ := hbegins b List.mem_cons_self
          have hle' : start a ≤ start a' := by
            rcases List.mem_cons.mp ha' with rfl | ha'
            · exact le_rfl
            · exact (hbefore a' ha').le
          have hearly : finish d ≤ finish b :=
            (hmono a List.mem_cons_self a' ha' hle' d c hd hc).trans hle
          apply Nat.succ_le_succ
          apply ih hrest hmono' (fun e he => hproper e (List.mem_cons_of_mem _ he)) hrest_spans
          intro e he
          have hbehind := hfirst e he
          obtain ⟨-, a'', ha'', hstart'', hcomplete⟩ := hbegins e (List.mem_cons_of_mem _ he)
          refine ⟨hearly.trans_lt hbehind, a'', ?_, hstart'', hcomplete⟩
          rcases List.mem_cons.mp ha'' with rfl | ha''
          · -- `e` begins behind `b`, which does not begin before `a`
            have hb := hproper b List.mem_cons_self
            rw [hstart''] at hle'
            rw [hstart'] at hle'
            exact absurd (hle'.trans hb) (not_le.mpr hbehind)
          · exact ha''

/-- As many spans are picked as can lie apart. -/
theorem isGreatest_length_pick {starts : List α} {candidates : Set β}
    (h : Earliest start finish complete first starts candidates) (hlast : ∀ a ∈ starts, last < start a) :
    IsGreatest {n | ∃ spans : List β, (∀ b ∈ spans, b ∈ candidates) ∧ spans.Pairwise (Apart finish first) ∧
      spans.length = n} (pick start finish complete last starts).length := by
  have hcandidate : ∀ b ∈ pick start finish complete last starts, b ∈ candidates := by
    intro b hb
    obtain ⟨a, ha, hcomplete⟩ := mem_pick hb
    exact h.candidate a ha b hcomplete
  have hproper : ∀ a ∈ starts, ∀ b, complete a = some b → first b ≤ finish b :=
    fun a ha b hb => h.proper b (h.candidate a ha b hb)
  constructor
  · exact ⟨_, hcandidate, (pairwise_pick h.first_eq hproper).imp fun hlt => Or.inl hlt, rfl⟩
  · rintro n ⟨spans, hspans, hapart, rfl⟩
    have hperm := List.perm_insertionSort (fun b c => first b ≤ first c) spans
    have hsorted : (spans.insertionSort fun b c => first b ≤ first c).Pairwise fun b c => finish b < first c := by
      have hle := List.pairwise_insertionSort (fun b c => first b ≤ first c) spans
      have hapart' : (spans.insertionSort fun b c => first b ≤ first c).Pairwise (Apart finish first) :=
        hperm.symm.pairwise hapart fun hbc => hbc.symm
      apply (hle.and hapart').imp_of_mem
      rintro b c - hc ⟨hle, hbc | hcb⟩
      · exact hbc
      · have hc' := h.proper c (hspans c (hperm.mem_iff.mp hc))
        exact absurd (hc'.trans_lt hcb) (not_lt.mpr hle)
    rw [← hperm.length_eq]
    apply length_le_length_pick h.ordered h.mono
      (fun b hb => h.proper b (hspans b (hperm.mem_iff.mp hb))) hsorted
    intro b hb
    have hb' := hspans b (hperm.mem_iff.mp hb)
    obtain ⟨a, ha, hstart⟩ := h.begins b hb'
    exact ⟨hstart ▸ hlast a ha, a, ha, hstart, h.completed b hb' a ha hstart⟩

end Greatest

end EarliestStop
