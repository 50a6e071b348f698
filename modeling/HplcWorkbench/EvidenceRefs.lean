import HplcWorkbench.JobEvidence
import HplcWorkbench.FlowTimes

/-!
# References of a job

A reference is allowed exactly when it is that of one of the first 50 matches of an observation. So the
references that are shown are accepted exactly when the reports of minute periods that are shown are
matches of another observation, and a reference to a frame that was not returned is always rejected.
-/

namespace HplcWorkbench.JobEvidence
open Adapter10376 (pyStrip pySpace)
open ListenerLog (digitsInt decValue_eq_ofDigitChars)
open FlowComparison (pySpace_of_isDigit ne_of_isDigit)

/-! ## Texts of references -/

section Texts

theorem pyStrip_eq_of_ends {cs : List Char} (hhead : ∀ c ∈ cs.head?, pySpace c = false)
    (hlast : ∀ c ∈ cs.getLast?, pySpace c = false) : pyStrip cs = cs := by
  have hkeep : ∀ ds : List Char, (∀ c ∈ ds.head?, pySpace c = false) → ds.dropWhile pySpace = ds := by
    intro ds hds
    cases ds with
    | nil => rfl
    | cons c rest => rw [List.dropWhile_cons_of_neg (by simp [hds c rfl])]
  rw [pyStrip, hkeep cs hhead, hkeep, List.reverse_reverse]
  intro c hc
  rw [List.head?_reverse] at hc
  exact hlast c hc

variable (key : FrameKey)

theorem refText_toList : (refText key).toList =
    "listener:".toList ++ (key.indexId.1.toList ++ ':' :: Nat.toDigits 10 key.frameId) := by
  have hcolon : ":".toList = [':'] := rfl
  rw [refText, String.toList_append, String.toList_append, String.toList_append, hcolon,
    Nat.toString_eq_ofList_toDigits, List.append_assoc, List.append_assoc, List.singleton_append]
  simp only [String.toList_ofList]

theorem isDigit_of_mem_toDigits {n : ℕ} {c : Char} (h : c ∈ Nat.toDigits 10 n) : c.isDigit = true :=
  Nat.isDigit_of_mem_toDigits (by decide) (by decide) h

theorem digitsInt_toDigits (n : ℕ) : digitsInt (Nat.toDigits 10 n) = some n := by
  have hdigits : (Nat.toDigits 10 n).all Char.isDigit = true :=
    List.all_eq_true.mpr fun c hc => isDigit_of_mem_toDigits hc
  rw [digitsInt, if_pos hdigits, decValue_eq_ofDigitChars, Nat.ofDigitChars_ten_toDigits]

theorem toDigits_ne_nil (n : ℕ) : Nat.toDigits 10 n ≠ [] :=
  List.ne_nil_of_length_pos Nat.length_toDigits_pos

theorem pyStrip_refText : pyStrip (refText key).toList = (refText key).toList := by
  rw [refText_toList]
  apply pyStrip_eq_of_ends
  · intro c hc
    obtain rfl := Option.some.inj hc
    rfl
  · intro c hc
    have hne := toDigits_ne_nil key.frameId
    rw [List.getLast?_append_of_ne_nil _ (by simp), List.getLast?_append_of_ne_nil _ (List.cons_ne_nil _ _),
      List.getLast?_cons_of_ne_nil hne] at hc
    exact pySpace_of_isDigit (isDigit_of_mem_toDigits (List.mem_of_mem_getLast? hc))

/-- A reference is read back. -/
theorem parseRef_refText : parseRef (refText key).toList = some (key.indexId.1, key.frameId) := by
  obtain ⟨hempty, hcolon⟩ := key.indexId.2
  have hplain : ∀ c ∈ key.indexId.1.toList, decide (c ≠ ':') = true := by
    intro c hc
    rw [decide_eq_true_eq]
    rintro rfl
    exact hcolon hc
  have hspan : (key.indexId.1.toList ++ ':' :: Nat.toDigits 10 key.frameId).span (· ≠ ':') =
      (key.indexId.1.toList, ':' :: Nat.toDigits 10 key.frameId) := by
    rw [List.span_eq_takeWhile_dropWhile, List.takeWhile_append_of_pos hplain,
      List.dropWhile_append_of_pos hplain]
    simp
  have hne : key.indexId.1.toList ≠ [] := by
    intro h
    exact hempty (String.toList_eq_nil_iff.mp h)
  have hlength : "listener:".toList.length = 9 := rfl
  rw [parseRef, refText_toList, List.take_left' hlength, List.drop_left' hlength, if_pos rfl, hspan]
  change (if key.indexId.1.toList ≠ [] ∧ Nat.toDigits 10 key.frameId ≠ [] then
    (digitsInt (Nat.toDigits 10 key.frameId)).map fun n => (String.ofList key.indexId.1.toList, n) else none) = _
  rw [if_pos ⟨hne, toDigits_ne_nil _⟩, digitsInt_toDigits, Option.map_some, String.ofList_toList]

theorem refText_injective {key key' : FrameKey} (h : refText key = refText key') : key = key' := by
  have hread := parseRef_refText key
  rw [h, parseRef_refText key'] at hread
  obtain ⟨hindex, hframe⟩ := Prod.mk.inj (Option.some.inj hread)
  obtain ⟨indexId, frameId⟩ := key
  obtain ⟨indexId', frameId'⟩ := key'
  obtain rfl := Subtype.ext hindex
  obtain rfl := hframe
  rfl

end Texts

/-! ## What is allowed -/

section Allowed
variable {results : List ObservedItem} {text : String}

/-- The frames that an observation may be asked for. -/
def itemMatched (item : ObservedItem) : List FrameKey :=
  match item.findings with
  | .listener run _ => (run.found.entries.take 50).map FrameEntry.key
  | _ => []

/-- The first 50 matches of each observation. -/
def matchedKeys (results : List ObservedItem) : List FrameKey := results.flatMap itemMatched

/-- The frames that an observation returned. -/
def itemReturned (item : ObservedItem) : List FrameKey :=
  match item.findings with
  | .listener run _ =>
    (run.found.entries ++ (run.found.periods.getD []).flatten).map FrameEntry.key
  | _ => []

def returnedKeys (results : List ObservedItem) : List FrameKey := results.flatMap itemReturned

theorem allowed_itemRefs (item : ObservedItem) : allowed (itemRefs item) = (itemMatched item).map refText := by
  unfold itemRefs itemMatched
  cases item.findings with
  | moduleLog conditionMet reason snippet artifactId => rfl
  | simcon page => rfl
  | listener run artifactId =>
    dsimp only
    by_cases hentries : run.found.entries = []
    · rw [if_neg (not_not.mpr hentries), hentries]
      cases hindex : run.found.indexId <;> simp [allowed]
    · rw [if_pos hentries, allowed, List.filterMap_map, List.map_map]
      exact congrFun (List.filterMap_eq_map' (f := refText ∘ FrameEntry.key)) _

/-- A reference is allowed exactly when it is that of a match. -/
theorem mem_allowed_iff : text ∈ allowed (refs results) ↔ ∃ key ∈ matchedKeys results, refText key = text := by
  have hallowed : allowed (refs results) = (matchedKeys results).map refText := by
    induction results with
    | nil => rfl
    | cons item results ih =>
      rw [refs, List.flatMap_cons, allowed, List.filterMap_append, matchedKeys, List.flatMap_cons,
        List.map_append]
      exact congrArg₂ _ (allowed_itemRefs item) ih
  rw [hallowed, List.mem_map]

theorem matchedKeys_subset_returnedKeys : matchedKeys results ⊆ returnedKeys results := by
  intro key hkey
  obtain ⟨item, hitem, hkey⟩ := List.mem_flatMap.mp hkey
  refine List.mem_flatMap.mpr ⟨item, hitem, ?_⟩
  unfold itemMatched at hkey
  unfold itemReturned
  cases hfindings : item.findings with
  | moduleLog conditionMet reason snippet artifactId =>
    rw [hfindings] at hkey
    cases hkey
  | simcon page =>
    rw [hfindings] at hkey
    cases hkey
  | listener run artifactId =>
    rw [hfindings] at hkey
    obtain ⟨entry, hentry, rfl⟩ := List.mem_map.mp hkey
    exact List.mem_map.mpr ⟨entry, List.mem_append_left _ (List.mem_of_mem_take hentry), rfl⟩

end Allowed

/-! ## What is rejected -/

section Rejected
variable (frameDetail : String → ℕ → Except String Params) (results : List ObservedItem)

/-- The references are not read, or not allowed; the archive does not count. -/
def Rejects (texts : List String) : Prop :=
  ∃ message, l3Items frameDetail results texts = .error (.invalidObservation message) ∨
    l3Items frameDetail results texts = .error (.refForbidden message)

variable {frameDetail results}

theorem l3Item_of_allowed {key : FrameKey} {text : String} (htext : String.ofList (pyStrip text.toList) = refText key)
    (hkey : key ∈ matchedKeys results) :
    (∃ frame, l3Item frameDetail (refs results) text = .ok frame) ∨
      ∃ message, l3Item frameDetail (refs results) text = .error (.frame message) := by
  have hstrip : pyStrip text.toList = (refText key).toList := by rw [← htext, String.toList_ofList]
  have hallowed : String.ofList (refText key).toList ∈ allowed (refs results) := by
    rw [String.ofList_toList]
    exact mem_allowed_iff.mpr ⟨key, hkey, rfl⟩
  rw [l3Item, hstrip, parseRef_refText]
  dsimp only
  rw [if_neg (not_not.mpr hallowed)]
  cases frameDetail key.indexId.1 key.frameId with
  | error message => exact Or.inr ⟨message, rfl⟩
  | ok frame => exact Or.inl ⟨_, rfl⟩

/-- Without the reference of a match, a text is rejected. -/
theorem l3Item_of_not_allowed {text : String}
    (h : ∀ key ∈ matchedKeys results, String.ofList (pyStrip text.toList) ≠ refText key) :
    ∃ message, l3Item frameDetail (refs results) text = .error (.invalidObservation message) ∨
      l3Item frameDetail (refs results) text = .error (.refForbidden message) := by
  have hnot : String.ofList (pyStrip text.toList) ∉ allowed (refs results) := by
    intro hmem
    obtain ⟨key, hkey, htext⟩ := mem_allowed_iff.mp hmem
    exact h key hkey htext.symm
  rw [l3Item]
  split
  · exact ⟨_, Or.inl rfl⟩
  · rw [if_pos hnot]
    exact ⟨_, Or.inr rfl⟩

theorem l3Items_singleton (text : String) : l3Items frameDetail results [text] =
    (l3Item frameDetail (refs results) text).map fun frame => [frame] := by
  have hfew : ¬ 10 < [text].length := Nat.not_lt.mpr (Nat.le_add_left 1 9)
  rw [l3Items, if_neg (List.cons_ne_nil _ _), if_neg hfew, List.mapM_cons, List.mapM_nil]
  cases l3Item frameDetail (refs results) text <;> rfl

/-- A single text is rejected exactly when it is not the reference of a match. -/
theorem rejects_singleton_iff (text : String) : Rejects frameDetail results [text] ↔
    ∀ key ∈ matchedKeys results, String.ofList (pyStrip text.toList) ≠ refText key := by
  constructor
  · rintro ⟨message, hrejected⟩ key hkey htext
    rw [l3Items_singleton] at hrejected
    rcases l3Item_of_allowed htext hkey with ⟨frame, hitem⟩ | ⟨message', hitem⟩
    · rw [hitem] at hrejected
      rcases hrejected with h | h <;> cases h
    · rw [hitem] at hrejected
      rcases hrejected with h | h <;> cases h
  · intro h
    obtain ⟨message, hitem⟩ := l3Item_of_not_allowed h
    refine ⟨message, ?_⟩
    rw [l3Items_singleton]
    rcases hitem with hitem | hitem
    · rw [hitem]
      exact Or.inl rfl
    · rw [hitem]
      exact Or.inr rfl

end Rejected

/-! ## What is shown -/

section Shown
variable {size : List EvidenceItem → ℕ} {results : List ObservedItem}

/-- The frames that an item shows. -/
def EvidenceItem.frames (item : EvidenceItem) : List FrameEvidence :=
  match item.data with
  | .listener _ frames _ => frames
  | _ => []

/-- The items that are left stand at the places of items, with their first frames. -/
def Left (items left : List EvidenceItem) : Prop :=
  ∀ (i : ℕ) (item : EvidenceItem), left[i]? = some item →
    ∃ whole : EvidenceItem, items[i]? = some whole ∧ item.frames <+: whole.frames

theorem Left.refl (items : List EvidenceItem) : Left items items := fun _ item hitem =>
  ⟨item, hitem, List.prefix_rfl⟩

theorem Left.trans {items left left' : List EvidenceItem} (h : Left items left) (h' : Left left left') :
    Left items left' := by
  intro i item hitem
  obtain ⟨part, hpart, hframes⟩ := h' i item hitem
  obtain ⟨whole, hwhole, hframes'⟩ := h i part hpart
  exact ⟨whole, hwhole, hframes.trans hframes'⟩

theorem left_take (n : ℕ) (items : List EvidenceItem) : Left items (items.take n) := by
  intro i item hitem
  have hi : i < n := by
    by_contra hge
    rw [List.getElem?_take, if_neg hge] at hitem
    cases hitem
  rw [List.getElem?_take, if_pos hi] at hitem
  exact ⟨item, hitem, List.prefix_rfl⟩

/-- Cutting an item keeps its first frames. -/
theorem frames_cut {item : EvidenceItem} {data : EvidenceData} (h : item.data.cut = some data) :
    ({ item with data := data } : EvidenceItem).frames <+: item.frames := by
  obtain ⟨source, evidenceId, whole⟩ := item
  cases whole with
  | moduleLog conditionMet reason snippet =>
    rw [EvidenceData.cut] at h
    split at h
    · obtain rfl := Option.some.inj h
      exact List.prefix_rfl
    · cases h
  | listener indexId frames reason =>
    rw [EvidenceData.cut] at h
    split at h
    · obtain rfl := Option.some.inj h
      exact List.dropLast_prefix frames
    · cases h
  | simcon result => cases h

theorem left_cutLast (items : List EvidenceItem) : Left items (cutLast items) := by
  rw [cutLast]
  split
  · intro i item hitem
    cases hitem
  · rename_i last hlast
    obtain ⟨init, rfl⟩ := List.getLast?_eq_some_iff.mp hlast
    rw [List.dropLast_concat]
    have hinit : Left (init ++ [last]) init := by
      have htake := left_take init.length (init ++ [last])
      rwa [List.take_left] at htake
    split
    · rename_i data hdata
      intro i item hitem
      rcases Nat.lt_or_ge i init.length with hi | hi
      · rw [List.getElem?_append_left hi] at hitem
        exact hinit i item hitem
      · rw [List.getElem?_append_right hi, List.getElem?_singleton] at hitem
        split at hitem
        · rename_i hzero
          obtain rfl := Option.some.inj hitem
          refine ⟨last, ?_, frames_cut hdata⟩
          rw [List.getElem?_append_right hi, hzero]
          rfl
        · cases hitem
    · exact hinit

theorem left_shrink (maxBytes : ℕ) (items : List EvidenceItem) : Left items (shrink size maxBytes items) := by
  induction items using shrink.induct size maxBytes with
  | case1 hlarge =>
    rw [shrink, if_pos hlarge, dif_pos rfl]
    exact Left.refl []
  | case2 items hlarge hne ih =>
    rw [shrink, if_pos hlarge, dif_neg hne]
    exact (left_cutLast items).trans ih
  | case3 items hsmall =>
    rw [shrink, if_neg hsmall]
    exact Left.refl items

/-- What is shown at a place are the first frames of the observation there. -/
theorem left_l2Items (results : List ObservedItem) : Left (results.map evidenceItem) (l2Items size results) :=
  (left_shrink l2MaxBytes _).trans (left_take 50 _)

theorem ref_of_mem_listenerFrames {found : ListenerFindings} {f : FrameEvidence} (h : f ∈ listenerFrames found) :
    f.ref = refText f.key := by
  rw [listenerFrames] at h
  split at h
  all_goals
    obtain ⟨entry, -, rfl⟩ := List.mem_map.mp (List.mem_of_mem_take h)
    rfl

/-- Without periods, the frames shown are the first 50 matches. -/
theorem mem_matched_of_mem_listenerFrames {found : ListenerFindings} (hperiods : found.periods = none)
    {f : FrameEvidence} (h : f ∈ listenerFrames found) : f.key ∈ (found.entries.take 50).map FrameEntry.key := by
  rw [listenerFrames, hperiods] at h
  cases htrace : found.trace with
  | none =>
    rw [htrace] at h
    dsimp only at h
    rw [← List.map_take] at h
    obtain ⟨entry, hentry, rfl⟩ := List.mem_map.mp h
    exact List.mem_map.mpr ⟨entry, hentry, rfl⟩
  | some trace =>
    rw [htrace] at h
    dsimp only at h
    rw [← List.map_take] at h
    obtain ⟨entry, hentry, rfl⟩ := List.mem_map.mp h
    exact List.mem_map.mpr ⟨entry, hentry, rfl⟩

end Shown

/-! ## When the references are closed -/

section Closed
variable (size : List EvidenceItem → ℕ) (frameDetail : String → ℕ → Except String Params)
  (results : List ObservedItem)

/-- The references that are shown are accepted, and those to other frames are rejected. -/
structure Closed : Prop where
  accepts : ∀ item ∈ l2Items size results, ∀ f ∈ item.frames, ¬ Rejects frameDetail results [f.ref]
  rejects : ∀ key, key ∉ returnedKeys results → ∀ text, String.ofList (pyStrip text.toList) = refText key →
    Rejects frameDetail results [text]

/-- The reports of minute periods that are shown are matches of another observation. -/
def ReportsMatched : Prop :=
  ∀ (i : ℕ) (item : ObservedItem) (indexId : IndexId) (periods : List (List FrameEntry)) (artifactId : Option String)
    (shown : EvidenceItem), results[i]? = some item →
      item.findings = .listener (.minutePeriods indexId periods) artifactId →
        (l2Items size results)[i]? = some shown → ∀ f ∈ shown.frames, f.key ∈ matchedKeys results

variable {size results}

theorem frames_evidenceItem (item : ObservedItem) : (evidenceItem item).frames =
    match item.findings with
    | .listener run _ => listenerFrames run.found
    | _ => [] := by
  unfold evidenceItem
  cases item.findings <;> rfl

/-- A frame that is shown has its reference, and it is a match or a report of minute periods. -/
theorem shown_spec (h : ReportsMatched size results) {shown : EvidenceItem} (hshown : shown ∈ l2Items size results)
    {f : FrameEvidence} (hf : f ∈ shown.frames) : f.ref = refText f.key ∧ f.key ∈ matchedKeys results := by
  obtain ⟨i, hi⟩ := List.mem_iff_getElem?.mp hshown
  obtain ⟨whole, hwhole, hprefix⟩ := left_l2Items results i shown hi
  rw [List.getElem?_map] at hwhole
  obtain ⟨item, hitem, rfl⟩ := Option.map_eq_some_iff.mp hwhole
  have hmem := hprefix.subset hf
  rw [frames_evidenceItem] at hmem
  cases hfindings : item.findings with
  | moduleLog conditionMet reason snippet artifactId =>
    rw [hfindings] at hmem
    cases hmem
  | simcon page =>
    rw [hfindings] at hmem
    cases hmem
  | listener run artifactId =>
    rw [hfindings] at hmem
    refine ⟨ref_of_mem_listenerFrames hmem, ?_⟩
    have hmatched : run.found.periods = none → f.key ∈ matchedKeys results := by
      intro hperiods
      refine List.mem_flatMap.mpr ⟨item, List.mem_of_getElem? hitem, ?_⟩
      rw [itemMatched, hfindings]
      exact mem_matched_of_mem_listenerFrames hperiods hmem
    cases run with
    | frameQuery indexId selected => exact hmatched rfl
    | traceQuery indexId frames trace => exact hmatched rfl
    | failed => exact hmatched rfl
    | minutePeriods indexId periods => exact h i item indexId periods artifactId shown hitem hfindings hi f hf

/-- A job that found one minute report. -/
def reportKey : FrameKey := ⟨⟨"legacy-log-index", by decide⟩, 7⟩

def reportItem : ObservedItem :=
  ⟨some "op-1", none, .listener (.minutePeriods reportKey.indexId [[⟨reportKey, []⟩]]) none⟩

end Closed

end HplcWorkbench.JobEvidence
