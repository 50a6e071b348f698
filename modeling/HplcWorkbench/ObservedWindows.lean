import HplcWorkbench.ListenerObservation
import Mathlib.Order.Interval.Finset.Nat

/-!
# What an observation sees of its window

A page holds the first frames of a window. The selection from a page is the selection from the whole
window where the selector is satisfied within the page, or where nothing behind the page can add to
what it selects.
-/

namespace HplcWorkbench.Control

open ListenerLog

/-! ## Candidates -/

section Candidates
variable (detailOf : FrameRow → PyVal) (query : Params)

theorem candidates_append (frames more : List FrameRow) :
    candidates detailOf query (frames ++ more) = (do
      let early ← candidates detailOf query frames
      let late ← candidates detailOf query more
      pure (early ++ late)) := by
  induction frames with
  | nil =>
      rw [List.nil_append, candidates]
      cases candidates detailOf query more <;> rfl
  | cons frame rest ih =>
      rw [List.cons_append, candidates, candidates, ih]
      cases listenerFrameMatches detailOf frame query with
      | error e => rfl
      | ok r =>
          obtain ⟨matched, detail⟩ := r
          cases candidates detailOf query rest with
          | error e => rfl
          | ok early =>
              cases candidates detailOf query more with
              | error e => rfl
              | ok late => cases matched <;> rfl

variable {detailOf query}

/-- The candidates are frames, in their order. -/
theorem candidates_sublist {frames : List FrameRow} {found : List Candidate}
    (h : candidates detailOf query frames = .ok found) : (found.map Prod.fst).Sublist frames := by
  induction frames generalizing found with
  | nil =>
      cases h
      exact .slnil
  | cons frame rest ih =>
      obtain ⟨⟨matched, detail⟩, -, h⟩ := bind_eq_ok h
      obtain ⟨later, hlater, h⟩ := bind_eq_ok h
      cases h
      cases matched with
      | false => exact .cons _ (ih hlater)
      | true => exact .cons_cons _ (ih hlater)

end Candidates

/-! ## Selections from candidates in order -/

section Selecting
variable {early late : List Candidate}

/-- The candidates stand in the order of their identifiers. -/
def Ascending (found : List Candidate) : Prop := found.Pairwise fun a b => a.1.id < b.1.id

theorem Ascending.sorted {found : List Candidate} (h : Ascending found) :
    found.insertionSort (fun a b => a.1.id ≤ b.1.id) = found :=
  List.Pairwise.insertionSort_eq (h.imp Nat.le_of_lt)

theorem minute_mem_of_firstOfMinutes {seen : List String} {found : List Candidate} {c : Candidate}
    (h : c ∈ firstOfMinutes seen found) : c ∈ found ∧ minuteOf c ∉ seen := by
  induction found generalizing seen with
  | nil => exact absurd h List.not_mem_nil
  | cons d rest ih =>
      rw [firstOfMinutes] at h
      split at h
      · obtain ⟨hmem, hnew⟩ := ih h
        exact ⟨List.mem_cons_of_mem _ hmem, hnew⟩
      · next hd =>
          obtain rfl | hrest := List.mem_cons.mp h
          · exact ⟨List.mem_cons_self, hd⟩
          · obtain ⟨hmem, hnew⟩ := ih hrest
            exact ⟨List.mem_cons_of_mem _ hmem, fun hseen => hnew (List.mem_cons_of_mem _ hseen)⟩

theorem firstOfMinutes_congr {seen seen' : List String} (h : ∀ m, m ∈ seen ↔ m ∈ seen')
    (found : List Candidate) : firstOfMinutes seen found = firstOfMinutes seen' found := by
  induction found generalizing seen seen' with
  | nil => rfl
  | cons c rest ih =>
      have hcons : ∀ m, m ∈ minuteOf c :: seen ↔ m ∈ minuteOf c :: seen' := by
        intro m
        rw [List.mem_cons, List.mem_cons, h]
      rw [firstOfMinutes, firstOfMinutes, ih h, ih hcons]
      simp only [h]

theorem firstOfMinutes_append (seen : List String) (early late : List Candidate) :
    firstOfMinutes seen (early ++ late) =
      firstOfMinutes seen early ++ firstOfMinutes (early.map minuteOf ++ seen) late := by
  induction early generalizing seen with
  | nil => rfl
  | cons c rest ih =>
      rw [List.cons_append, firstOfMinutes, firstOfMinutes, ih, ih]
      split
      · next hc =>
          refine congrArg (_ ++ ·) (firstOfMinutes_congr (fun m => ?_) late)
          simp only [List.map_cons, List.cons_append, List.mem_cons, List.mem_append]
          constructor
          · exact fun h => .inr h
          · rintro (rfl | h)
            · exact .inr hc
            · exact h
      · rw [List.cons_append]
        refine congrArg (c :: _ ++ ·) (firstOfMinutes_congr (fun m => ?_) late)
        simp only [List.map_cons, List.cons_append, List.mem_cons, List.mem_append]
        tauto

theorem firstOfMinutes_eq_nil {seen : List String} {found : List Candidate} :
    firstOfMinutes seen found = [] ↔ ∀ c ∈ found, minuteOf c ∈ seen := by
  induction found generalizing seen with
  | nil => simp [firstOfMinutes]
  | cons c rest ih =>
      rw [firstOfMinutes, List.forall_mem_cons]
      split
      · next hc => rw [ih, and_iff_right hc]
      · next hc => simp [hc]

/-- Within the page the selector has all it asks for, or nothing behind the page adds to it. -/
def Selector.Settled (early late : List Candidate) : Selector → Prop
  | .first => early ≠ [] ∨ late = []
  | .last => late = []
  | .nth position _ => position ≤ early.length ∨ late = []
  | .all => 100 ≤ early.length ∨ late = []
  | .firstPerMinute => 100 ≤ (firstOfMinutes [] early).length ∨
      ∀ c ∈ late, minuteOf c ∈ early.map minuteOf

theorem select_of_ascending {found : List Candidate} (h : Ascending found) (selector : Selector) :
    selectListenerMatches found selector =
      match selector with
      | .all => found.take 100
      | .last => found.drop (found.length - 1)
      | .nth position _ => (found.drop (position - 1)).take 1
      | .firstPerMinute => (firstOfMinutes [] found).take 100
      | .first => found.take 1 := by
  unfold selectListenerMatches
  dsimp only
  cases selector <;> simp only [h.sorted]

/-- What is settled on the page is what the whole window gives. -/
theorem select_of_settled {selector : Selector} (h : Ascending (early ++ late))
    (hsettled : selector.Settled early late) :
    selectListenerMatches (early ++ late) selector = selectListenerMatches early selector := by
  have hearly : Ascending early := h.sublist (List.sublist_append_left _ _)
  rw [select_of_ascending h, select_of_ascending hearly]
  cases selector with
  | first =>
      obtain hne | rfl := hsettled
      · exact List.take_append_of_le_length (List.length_pos_iff.mpr hne)
      · rw [List.append_nil]
  | last =>
      obtain rfl : late = [] := hsettled
      rw [List.append_nil]
  | nth position hpos =>
      obtain hle | rfl := hsettled
      · dsimp only
        rw [List.drop_append_of_le_length (by omega), List.take_append_of_le_length]
        rw [List.length_drop]
        omega
      · rw [List.append_nil]
  | all =>
      obtain hle | rfl := hsettled
      · exact List.take_append_of_le_length hle
      · rw [List.append_nil]
  | firstPerMinute =>
      dsimp only
      rw [firstOfMinutes_append, List.append_nil]
      obtain hle | hseen := hsettled
      · exact List.take_append_of_le_length hle
      · rw [firstOfMinutes_eq_nil.mpr hseen, List.append_nil]

/-- What is not settled on the page shows other frames than the whole window. -/
theorem select_of_not_settled {selector : Selector} (h : Ascending (early ++ late))
    (hsettled : ¬ selector.Settled early late)
    (hne : selectListenerMatches (early ++ late) selector ≠ []) :
    (selectListenerMatches early selector).map (fun c => c.1.id) ≠
      (selectListenerMatches (early ++ late) selector).map fun c => c.1.id := by
  have hearly : Ascending early := h.sublist (List.sublist_append_left _ _)
  rw [select_of_ascending h] at hne
  rw [select_of_ascending h, select_of_ascending hearly]
  intro heq
  have hlength := congrArg List.length heq
  rw [List.length_map, List.length_map] at hlength
  cases selector with
  | first =>
      obtain ⟨rfl, hlate⟩ : early = [] ∧ late ≠ [] := by simpa [Selector.Settled] using hsettled
      have hpos := List.length_pos_iff.mpr hlate
      simp at hlength
      omega
  | last =>
      have hlate : late ≠ [] := hsettled
      obtain ⟨front, last, rfl⟩ := List.eq_nil_or_concat late |>.resolve_left hlate
      rw [List.concat_eq_append] at heq hlength h
      have hall : (early ++ (front ++ [last])).drop ((early ++ (front ++ [last])).length - 1) = [last] := by
        rw [← List.append_assoc, List.length_append, List.length_singleton, Nat.add_sub_cancel,
          List.drop_left]
      dsimp only at heq
      rw [hall] at heq
      obtain ⟨c, hc, hid⟩ : ∃ c ∈ early, c.1.id = last.1.id := by
        have hmem : last.1.id ∈ (early.drop (early.length - 1)).map fun c => c.1.id := by
          rw [heq]
          exact List.mem_singleton.mpr rfl
        obtain ⟨c, hc, hid⟩ := List.mem_map.mp hmem
        exact ⟨c, List.mem_of_mem_drop hc, hid⟩
      have hlt := (List.pairwise_append.mp h).2.2 c hc last (by simp)
      omega
  | nth position hpos =>
      obtain ⟨hshort, -⟩ : early.length < position ∧ late ≠ [] := by
        simpa [Selector.Settled] using hsettled
      have hnone : early.drop (position - 1) = [] := List.drop_eq_nil_iff.mpr (by omega)
      dsimp only at hlength hne
      rw [hnone] at hlength
      exact hne (List.length_eq_zero_iff.mp hlength.symm)
  | all =>
      obtain ⟨hshort, hlate⟩ : early.length < 100 ∧ late ≠ [] := by
        simpa [Selector.Settled] using hsettled
      have hpos := List.length_pos_iff.mpr hlate
      simp only [List.length_take, List.length_append] at hlength
      omega
  | firstPerMinute =>
      obtain ⟨hshort, hnew⟩ : (firstOfMinutes [] early).length < 100 ∧
          ¬ ∀ c ∈ late, minuteOf c ∈ early.map minuteOf := by
        simpa only [Selector.Settled, not_or, Nat.not_le] using hsettled
      have hmore : firstOfMinutes (early.map minuteOf ++ []) late ≠ [] := by
        rw [List.append_nil]
        exact fun hnil => hnew (firstOfMinutes_eq_nil.mp hnil)
      have hpos := List.length_pos_iff.mpr hmore
      dsimp only at hlength
      rw [firstOfMinutes_append, List.length_take, List.length_take, List.length_append] at hlength
      omega

theorem select_length_le (selector : Selector) (h : Ascending (early ++ late)) :
    (selectListenerMatches early selector).length ≤
      (selectListenerMatches (early ++ late) selector).length := by
  have hearly : Ascending early := h.sublist (List.sublist_append_left _ _)
  rw [select_of_ascending h, select_of_ascending hearly]
  cases selector with
  | firstPerMinute =>
      dsimp only
      rw [firstOfMinutes_append, List.length_take, List.length_take, List.length_append]
      omega
  | _ =>
      simp only [List.length_take, List.length_drop, List.length_append]
      omega

end Selecting

/-! ## A page and its window -/

section Windows
variable {detailOf : FrameRow → PyVal} {tables : Tables} {payload : ObservationPayload}

/-- The frames of a window have increasing identifiers. -/
theorem frames_ascending (hnum : tables.Numbered) {window : ObservationWindow} {frames : List FrameRow}
    (h : window.frames tables = .ok frames) : frames.Pairwise fun a b => a.id < b.id := by
  have hids : tables.frames.Pairwise fun a b => a.id < b.id := List.pairwise_map.mp hnum.ids
  cases window with
  | live startFrameId deadline =>
      cases h
      exact hids.sublist List.filter_sublist
  | timeRange start stop =>
      obtain ⟨w, -, h⟩ := bind_eq_ok h
      cases h
      exact hids.sublist List.filter_sublist
  | cursorRange startFrameId endFrameId ordered narrow =>
      cases h
      exact hids.sublist List.filter_sublist

theorem candidates_ascending {frames : List FrameRow} {query : Params} {found : List Candidate}
    (hframes : frames.Pairwise fun a b => a.id < b.id)
    (h : candidates detailOf query frames = .ok found) : Ascending found := by
  have hfound : (found.map Prod.fst).Pairwise fun a b => a.id < b.id :=
    hframes.sublist (candidates_sublist h)
  rw [List.pairwise_map] at hfound
  exact hfound

/-- The identifiers of a result. -/
theorem ids_listenerResult (payload : ObservationPayload) (selected : List Candidate) :
    (listenerResult payload selected).matched.map ListenerEntry.frameId =
      selected.map fun c => c.1.id := by
  simp [listenerResult]

/-- The state after a selection. -/
def concludeSelected (payload : ObservationPayload) (complete : Bool) (selected : List Candidate) :
    ObservationState :=
  if enough payload selected then .matched (listenerResult payload selected)
  else if complete then .succeeded (listenerResult payload [])
  else .waiting

theorem concludeFrames_eq {complete : Bool} {frames : List FrameRow} {found : List Candidate}
    (h : candidates detailOf payload.query frames = .ok found) :
    concludeFrames detailOf payload complete (.ok frames) =
      concludeSelected payload complete (selectListenerMatches found payload.selector) := by
  have hfound : (do candidates detailOf payload.query (← (.ok frames : PyM (List FrameRow)))) =
      .ok found := h
  rw [concludeFrames, hfound]
  rfl

theorem concludeFrames_error {complete : Bool} {frames : List FrameRow} {e : PyErr}
    (h : candidates detailOf payload.query frames = .error e) :
    concludeFrames detailOf payload complete (.ok frames) = .error e := by
  have hfound : (do candidates detailOf payload.query (← (.ok frames : PyM (List FrameRow)))) =
      .error e := h
  rw [concludeFrames, hfound]

theorem enough_mono {selected selected' : List Candidate} (hle : selected.length ≤ selected'.length)
    (h : enough payload selected) : enough payload selected' := by
  simp only [enough, Bool.and_eq_true, decide_eq_true_eq] at h ⊢
  refine ⟨?_, h.2.trans (by exact_mod_cast hle)⟩
  rw [← List.length_pos_iff] at h ⊢
  omega

/-- Two selections with one conclusion show the same frames, or neither is enough. -/
theorem conclude_ids {selected selected' : List Candidate}
    (h : concludeSelected payload true selected = concludeSelected payload true selected')
    (henough : enough payload selected') :
    selected.map (fun c => c.1.id) = selected'.map fun c => c.1.id := by
  rw [concludeSelected, concludeSelected, if_pos henough] at h
  split at h
  · rw [← ids_listenerResult payload, ← ids_listenerResult payload, ObservationState.matched.inj h]
  · cases h

/-- With all frames that match in place of those of the page the observation would be the same. -/
def SeesWindow (detailOf : FrameRow → PyVal) (tables : Tables) (payload : ObservationPayload) (now : ℕ) :
    Prop :=
  let frames := payload.window.frames tables
  match payload.window with
  | .live _ deadline => now < deadline → ∀ all, frames = .ok all → ∀ found,
      candidates detailOf payload.query all = .ok found →
        enough payload (selectListenerMatches found payload.selector) →
          ∃ result, refreshListenerObservation detailOf tables payload false now = .matched result
  | _ => refreshListenerObservation detailOf tables payload true now =
      concludeFrames detailOf payload true frames

/-- The first page of a window decides: unless the match raises on it, the rest of a closed window
raises nothing and either adds nothing to the selection or leaves it short of the required number; of
a live window the first page has enough or all frames have not. -/
def PageDecides (detailOf : FrameRow → PyVal) (tables : Tables) (payload : ObservationPayload)
    (now : ℕ) : Prop :=
  let select (found : List Candidate) := selectListenerMatches found payload.selector
  ∀ all, payload.window.frames tables = .ok all → ∀ early,
    candidates detailOf payload.query (all.take pageLimit) = .ok early →
      let late := candidates detailOf payload.query (all.drop pageLimit)
      match payload.window with
      | .live _ deadline => deadline ≤ now ∨ enough payload (select early) ∨
          ∀ rest, late = .ok rest → ¬ enough payload (select (early ++ rest))
      | _ => ∃ rest, late = .ok rest ∧
          (payload.selector.Settled early rest ∨ ¬ enough payload (select (early ++ rest)))

/-- The candidates of a window from those of the page and the rest. -/
theorem candidates_split {query : Params} {all : List FrameRow} {early : List Candidate}
    (h : candidates detailOf query (all.take pageLimit) = .ok early) :
    candidates detailOf query all =
      (candidates detailOf query (all.drop pageLimit)).map (early ++ ·) := by
  conv_lhs => rw [← List.take_append_drop pageLimit all]
  rw [candidates_append, h]
  cases candidates detailOf query (all.drop pageLimit) <;> rfl

theorem candidates_error {query : Params} {all : List FrameRow} {e : PyErr}
    (h : candidates detailOf query (all.take pageLimit) = .error e) :
    candidates detailOf query all = .error e := by
  conv_lhs => rw [← List.take_append_drop pageLimit all]
  rw [candidates_append, h]
  rfl

/-- A closed window is concluded from its page as from all its frames exactly where the page
decides. -/
theorem conclude_page_iff {all : List FrameRow} {early : List Candidate}
    (hall : all.Pairwise fun a b => a.id < b.id)
    (h : candidates detailOf payload.query (all.take pageLimit) = .ok early) :
    concludeFrames detailOf payload true (.ok (all.take pageLimit)) =
        concludeFrames detailOf payload true (.ok all) ↔
      ∃ rest, candidates detailOf payload.query (all.drop pageLimit) = .ok rest ∧
        (payload.selector.Settled early rest ∨
          ¬ enough payload (selectListenerMatches (early ++ rest) payload.selector)) := by
  have hsplit := candidates_split h
  rw [concludeFrames_eq h]
  cases hlate : candidates detailOf payload.query (all.drop pageLimit) with
  | error e =>
      rw [hlate] at hsplit
      rw [concludeFrames_error hsplit]
      refine iff_of_false (fun heq => ?_) (fun ⟨rest, hrest, _⟩ => nomatch hrest)
      rw [concludeSelected] at heq
      split at heq <;> cases heq
  | ok rest =>
      rw [hlate] at hsplit
      have hascending : Ascending (early ++ rest) := candidates_ascending hall hsplit
      have hlength := select_length_le payload.selector hascending
      rw [concludeFrames_eq hsplit]
      simp only [Except.ok.injEq, exists_eq_left']
      by_cases hsettled : payload.selector.Settled early rest
      · rw [select_of_settled hascending hsettled]
        exact iff_of_true rfl (.inl hsettled)
      · by_cases henough : enough payload (selectListenerMatches (early ++ rest) payload.selector)
        · refine iff_of_false (fun heq => ?_) (not_or.mpr ⟨hsettled, not_not.mpr henough⟩)
          have hne : selectListenerMatches (early ++ rest) payload.selector ≠ [] := by
            simp only [enough, Bool.and_eq_true, decide_eq_true_eq] at henough
            exact henough.1
          exact select_of_not_settled hascending hsettled hne (conclude_ids heq henough)
        · have hearly : ¬ enough payload (selectListenerMatches early payload.selector) :=
            fun h => henough (enough_mono hlength h)
          refine iff_of_true ?_ (.inr henough)
          rw [concludeSelected, concludeSelected, if_neg henough, if_neg hearly]

/-- A live observation that has enough is reported exactly where the page has enough. -/
theorem live_page_iff {all : List FrameRow} {early : List Candidate}
    (h : candidates detailOf payload.query (all.take pageLimit) = .ok early) :
    (∀ found, candidates detailOf payload.query all = .ok found →
        enough payload (selectListenerMatches found payload.selector) →
          ∃ result, concludeFrames detailOf payload false (.ok (all.take pageLimit)) = .matched result) ↔
      enough payload (selectListenerMatches early payload.selector) ∨
        ∀ rest, candidates detailOf payload.query (all.drop pageLimit) = .ok rest →
          ¬ enough payload (selectListenerMatches (early ++ rest) payload.selector) := by
  have hmatched : (∃ result, concludeFrames detailOf payload false (.ok (all.take pageLimit)) =
      .matched result) ↔ enough payload (selectListenerMatches early payload.selector) := by
    rw [concludeFrames_eq h, concludeSelected]
    split
    · next henough => exact iff_of_true ⟨_, rfl⟩ henough
    · next henough => exact iff_of_false (fun ⟨_, h⟩ => nomatch h) henough
  rw [hmatched, candidates_split h]
  cases candidates detailOf payload.query (all.drop pageLimit) with
  | error e => exact iff_of_true (fun _ hfound => nomatch hfound) (.inr fun _ hrest => nomatch hrest)
  | ok rest =>
      simp only [Except.map, Except.ok.injEq, forall_eq']
      tauto

/-- An observation sees its whole window exactly where the first page of the window decides. -/
theorem seesWindow_iff (hnum : tables.Numbered) (now : ℕ) :
    SeesWindow detailOf tables payload now ↔ PageDecides detailOf tables payload now := by
  obtain ⟨indexId, window, query, selector, matchCount⟩ := payload
  let payload : ObservationPayload := ⟨indexId, window, query, selector, matchCount⟩
  -- a closed window is concluded from its page whatever the time
  have hclosed : (concludeFrames detailOf payload true
      (do pure ((← window.frames tables).take pageLimit)) =
        concludeFrames detailOf payload true (window.frames tables)) ↔
      ∀ all, window.frames tables = .ok all → ∀ early,
        candidates detailOf query (all.take pageLimit) = .ok early →
          ∃ rest, candidates detailOf query (all.drop pageLimit) = .ok rest ∧
            (selector.Settled early rest ∨
              ¬ enough payload (selectListenerMatches (early ++ rest) selector)) := by
    cases hframes : window.frames tables with
    | error e => exact iff_of_true rfl fun _ h => nomatch h
    | ok all =>
        simp only [Except.ok.injEq, forall_eq']
        cases hearly : candidates detailOf query (all.take pageLimit) with
        | error e =>
            refine iff_of_true ?_ fun _ h => nomatch h
            exact (concludeFrames_error hearly).trans (concludeFrames_error (candidates_error hearly)).symm
        | ok early =>
            simp only [Except.ok.injEq, forall_eq']
            exact conclude_page_iff (frames_ascending hnum hframes) hearly
  cases window with
  | timeRange start stop => exact hclosed
  | cursorRange startFrameId endFrameId ordered narrow => exact hclosed
  | live startFrameId deadline =>
      let all := tables.frames.filter fun row => startFrameId < row.id
      have hframes : ∀ all', (ObservationWindow.live startFrameId deadline).frames tables = .ok all' ↔
          all = all' := fun all' => ⟨Except.ok.inj, congrArg Except.ok⟩
      simp only [SeesWindow, PageDecides, hframes, forall_eq']
      by_cases hlate : deadline ≤ now
      · exact iff_of_true (fun hlt => absurd hlt (Nat.not_lt.mpr hlate)) fun _ _ => .inl hlate
      · have hlt : now < deadline := Nat.not_le.mp hlate
        let live : ObservationPayload :=
          ⟨indexId, .live startFrameId deadline, query, selector, matchCount⟩
        have hrefresh : refreshListenerObservation detailOf tables live false now =
            concludeFrames detailOf live false (.ok (all.take pageLimit)) := by
          rw [refreshListenerObservation]
          exact if_neg fun h => hlate h.2
        dsimp only [live] at hrefresh
        simp only [hlt, forall_const, hrefresh, hlate, false_or]
        cases hearly : candidates detailOf query (all.take pageLimit) with
        | error e =>
            have hall := candidates_error hearly
            exact iff_of_true (fun found hfound => nomatch hall.symm.trans hfound) fun _ h => nomatch h
        | ok early =>
            simp only [Except.ok.injEq, forall_eq']
            exact @live_page_iff detailOf live all early hearly

/-! ## Windows within a page -/

theorem settled_nil (selector : Selector) (early : List Candidate) : selector.Settled early [] := by
  cases selector <;> simp [Selector.Settled]

/-- A window that is no longer than a page is seen whole. -/
theorem pageDecides_of_short (hshort : ∀ all, payload.window.frames tables = .ok all →
    all.length ≤ pageLimit) (now : ℕ) : PageDecides detailOf tables payload now := by
  intro all hall early hearly
  have hrest : all.drop pageLimit = [] := List.drop_eq_nil_iff.mpr (hshort all hall)
  rw [hrest]
  dsimp only
  have hnone : candidates detailOf payload.query [] = .ok [] := rfl
  rw [hnone]
  split
  · refine .inr ((em _).imp_right fun henough rest h => ?_)
    cases h
    rwa [List.append_nil]
  · exact ⟨[], rfl, .inl (settled_nil _ _)⟩

theorem length_le_of_ids {frames : List FrameRow} (start stop : ℕ)
    (hframes : frames.Pairwise fun a b => a.id < b.id) (hin : ∀ row ∈ frames, start ≤ row.id ∧ row.id ≤ stop) :
    frames.length ≤ stop + 1 - start := by
  have hnodup : (frames.map FrameRow.id).Nodup :=
    List.pairwise_map.mpr (hframes.imp Nat.ne_of_lt)
  have hsubset : (frames.map FrameRow.id).toFinset ⊆ Finset.Icc start stop := by
    intro id hid
    obtain ⟨row, hrow, rfl⟩ := List.mem_map.mp (List.mem_toFinset.mp hid)
    exact Finset.mem_Icc.mpr (hin row hrow)
  have hcard := Finset.card_le_card hsubset
  rwa [List.toFinset_card_of_nodup hnodup, List.length_map, Nat.card_Icc] at hcard

/-- The bound on a cursor range keeps it within a page. -/
theorem cursorRange_decides (hnum : tables.Numbered) {startFrameId endFrameId : ℕ}
    {ordered : startFrameId ≤ endFrameId} {narrow : endFrameId - startFrameId + 1 ≤ 500}
    (hwindow : payload.window = .cursorRange startFrameId endFrameId ordered narrow) (now : ℕ) :
    PageDecides detailOf tables payload now := by
  apply pageDecides_of_short
  intro all hall
  have hascending := frames_ascending hnum hall
  rw [hwindow] at hall
  cases hall
  have hlength := length_le_of_ids startFrameId endFrameId hascending fun row hrow =>
    of_decide_eq_true (List.mem_filter.mp hrow).2
  rw [pageLimit]
  omega

end Windows

/-! ## A beacon behind the page -/

/-- A frame without a summary. -/
def plainFrame (id : ℕ) : FrameRow := { appendedRow id ⟨"1", "08:00:00.000", ""⟩ {} with summary := none }

/-- A frame that the parser names a central beacon. -/
def beaconFrame (id : ℕ) : FrameRow :=
  { plainFrame id with summary := some [("FrmType", .str "中央信标")] }

/-- Plain frames and one beacon at the end. -/
def beaconLast (n : ℕ) : Tables where
  frames := (List.range n).map (fun i => plainFrame (i + 1)) ++ [beaconFrame (n + 1)]
  nextFrame := n + 2

/-- The first beacon between eight and nine. -/
def beaconQuery : ObservationPayload where
  indexId := "index-1"
  window := .timeRange "08:00:00" "09:00:00"
  query := [("kind", .str "frame_query"), ("frame_kind", .str "central_beacon")]
  selector := .first
  matchCount := 1

theorem numbered_beaconLast (n : ℕ) : (beaconLast n).Numbered where
  pos := Nat.succ_pos _
  ids := by
    have hid : (fun i => (plainFrame (i + 1)).id) = (· + 1) := rfl
    rw [beaconLast, List.map_append, List.map_map, List.pairwise_append]
    refine ⟨?_, List.pairwise_singleton _ _, ?_⟩
    · exact List.pairwise_map.mpr (List.pairwise_lt_range.imp fun h => Nat.succ_lt_succ h)
    · intro a ha b hb
      obtain ⟨i, hi, rfl⟩ := List.mem_map.mp ha
      obtain rfl := List.mem_singleton.mp hb
      exact Nat.succ_lt_succ (List.mem_range.mp hi)
  below := by
    rw [beaconLast, List.forall_mem_append, List.forall_mem_singleton]
    refine ⟨?_, Nat.lt_succ_self _⟩
    intro row hrow
    obtain ⟨i, hi, rfl⟩ := List.mem_map.mp hrow
    exact Nat.lt_succ_of_lt (Nat.succ_lt_succ (List.mem_range.mp hi))
  reports := fun _ h => nomatch h

section Beacon
variable (detailOf : FrameRow → PyVal)

theorem frames_beaconQuery (n : ℕ) :
    beaconQuery.window.frames (beaconLast n) = .ok (beaconLast n).frames := by
  have hrange : timeRange "08:00:00" "09:00:00" = .ok ⟨"08:00:00.000", "09:00:00.999"⟩ := by
    decide +kernel
  have hholds : Window.holds ⟨"08:00:00.000", "09:00:00.999"⟩ "08:00:00.000" := by decide +kernel
  have hall : (beaconLast n).window ⟨"08:00:00.000", "09:00:00.999"⟩ = (beaconLast n).frames := by
    refine List.filter_eq_self.mpr fun row hrow => ?_
    have htime : row.logTime = "08:00:00.000" := by
      rw [beaconLast, List.mem_append, List.mem_map, List.mem_singleton] at hrow
      obtain ⟨i, -, rfl⟩ | rfl := hrow <;> rfl
    rw [htime]
    exact hholds
  have hframes : beaconQuery.window.frames (beaconLast n) =
      (do pure ((beaconLast n).window (← timeRange "08:00:00" "09:00:00"))) := rfl
  rw [hframes, hrange]
  exact congrArg Except.ok hall

theorem candidates_plain (ids : List ℕ) :
    candidates detailOf beaconQuery.query (ids.map plainFrame) = .ok [] := by
  have hmatch : ∀ id, listenerFrameMatches detailOf (plainFrame id) beaconQuery.query =
      .ok (false, none) := by
    intro id
    have hkind : frameMatchesKind [] "central_beacon" = .ok false := by decide +kernel
    have hsummary : listenerFrameMatches detailOf (plainFrame id) beaconQuery.query = (do
      if !(← frameMatchesKind [] "central_beacon") then pure (false, none)
      else pure (true, none)) := rfl
    rw [hsummary, hkind]
    rfl
  induction ids with
  | nil => rfl
  | cons id rest ih =>
      rw [List.map_cons, candidates, hmatch, ih]
      rfl

theorem candidates_beacon (id : ℕ) :
    candidates detailOf beaconQuery.query [beaconFrame id] = .ok [(beaconFrame id, none)] := by
  have hkind : frameMatchesKind [("FrmType", .str "中央信标")] "central_beacon" = .ok true := by
    decide +kernel
  have hsummary : listenerFrameMatches detailOf (beaconFrame id) beaconQuery.query = (do
    if !(← frameMatchesKind [("FrmType", .str "中央信标")] "central_beacon") then pure (false, none)
    else pure (true, none)) := rfl
  have hmatch : listenerFrameMatches detailOf (beaconFrame id) beaconQuery.query = .ok (true, none) := by
    rw [hsummary, hkind]
    rfl
  rw [candidates, hmatch]
  rfl

/-- The candidates among all frames. -/
theorem candidates_beaconLast (n : ℕ) :
    candidates detailOf beaconQuery.query (beaconLast n).frames = .ok [(beaconFrame (n + 1), none)] := by
  have hplain := candidates_plain detailOf ((List.range n).map (· + 1))
  rw [List.map_map] at hplain
  rw [beaconLast, candidates_append, candidates_beacon]
  refine (congrArg (fun found => found >>= _) hplain).trans ?_
  rfl

end Beacon

/-- A beacon behind five hundred other frames is not found. -/
theorem beaconBehindPage_not_seen :
    (beaconLast 500).Numbered ∧ ¬ SeesWindow (fun _ => .none) (beaconLast 500) beaconQuery 0 := by
  let detailOf : FrameRow → PyVal := fun _ => .none
  refine ⟨numbered_beaconLast 500, fun h => ?_⟩
  have hpage : (beaconLast 500).frames.take pageLimit =
      ((List.range 500).map (· + 1)).map plainFrame := by
    rw [beaconLast, List.map_map, pageLimit]
    exact List.take_left' (by rw [List.length_map, List.length_range])
  have hwhole : concludeFrames detailOf beaconQuery true (beaconQuery.window.frames (beaconLast 500)) =
      .matched (listenerResult beaconQuery [(beaconFrame 501, none)]) := by
    rw [frames_beaconQuery, concludeFrames_eq (candidates_beaconLast detailOf 500)]
    rfl
  have hrefresh : refreshListenerObservation detailOf (beaconLast 500) beaconQuery true 0 =
      .succeeded (listenerResult beaconQuery []) := by
    have hpaged : refreshListenerObservation detailOf (beaconLast 500) beaconQuery true 0 =
        concludeFrames detailOf beaconQuery true
          (do pure ((← beaconQuery.window.frames (beaconLast 500)).take pageLimit)) := rfl
    rw [hpaged, frames_beaconQuery]
    refine (concludeFrames_eq (hpage ▸ candidates_plain detailOf _)).trans ?_
    rfl
  cases hrefresh.symm.trans (h.trans hwhole)

/-- A beacon within the page is found. -/
theorem beaconWithinPage_seen : SeesWindow (fun _ => .none) (beaconLast 3) beaconQuery 0 := by
  apply (seesWindow_iff (numbered_beaconLast 3) 0).mpr
  apply pageDecides_of_short
  intro all hall
  rw [frames_beaconQuery] at hall
  cases hall
  decide

end HplcWorkbench.Control
