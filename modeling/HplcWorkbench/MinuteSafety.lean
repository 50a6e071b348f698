import HplcWorkbench.MinuteStatistics

/-!
# When the minute statistics are lost

Two kinds of lines make `collect_task_statistics` raise: a task configuration that ends in front of
its switch, and the line that completes a held-back frame whose announced part cannot be read. Only
`OSError` is caught, so such a line loses the statistics of all files.
-/

namespace HplcWorkbench.MinuteStats

open ExactOutcomes
open MinuteAssert (isHexDigit)

/-! ## What the lines must be like -/

/-- The announced part of the frame can be read once it is there. -/
def Legible (buffer : F232Buffer) : Prop :=
  buffer.need ≤ buffer.text.length / 2 → (fromHexChars (buffer.text.take (buffer.need * 2))).isSome

/-- The length that the first 13 bytes of a key announce, if they are the head of `11H_F232`. -/
def announced (content : List Char) : Option ℕ :=
  match fromHexChars (content.take 26) with
  | none => none
  | some head =>
    if byteAt head 3 = 0x43 ∧ byteAt head 10 = 0x11 ∧ byteAt head 11 = 0x80 ∧ byteAt head 12 = 0x1C then
      some (le16 (byteAt head 1) (byteAt head 2))
    else none

/-- The key may be the beginning of a frame. -/
def Heading (content : List Char) : Prop := "68".toList.isPrefixOf content ∧ 26 ≤ content.length

instance (content : List Char) : Decidable (Heading content) := by
  unfold Heading
  infer_instance

section Lines
variable (digit : Char → Bool)

/-- What is held back after a line, before it is looked at whether it is complete. -/
def gathered (buffer : F232Buffer) (line : List Char) : Option F232Buffer :=
  if buffer.text ≠ [] then
    if hexAfter "" (dedupKey digit line) then
      some { buffer with text := buffer.text ++ dedupKey digit line }
    else none
  else if Heading (dedupKey digit line) ∧ ((dedupKey digit line).take 26).all isHexDigit then
    (announced (dedupKey digit line)).map fun need => ⟨dedupKey digit line, need⟩
  else none

/-- What is held back after a line. -/
def heldBack (buffer : F232Buffer) (line : List Char) : F232Buffer :=
  match gathered digit buffer line with
  | some b => if b.need ≤ b.text.length / 2 then {} else b
  | none => if buffer.text ≠ [] then {} else buffer

/-- The line neither completes a frame that cannot be read nor is a configuration cut short. -/
def Readable (buffer : F232Buffer) (line : List Char) : Prop :=
  (∀ b ∈ gathered digit buffer line, Legible b) ∧ (buffer.text = [] → ¬ CutConfig digit line)

/-- Every line of a file is readable where it stands. -/
def AllReadable (buffer : F232Buffer) : List (List Char) → Prop
  | [] => True
  | line :: rest => Readable digit buffer line ∧ AllReadable (heldBack digit buffer line) rest

end Lines

/-! ## Hexadecimal digits -/

theorem not_asciiSpace_of_isHexDigit {c : Char} (h : isHexDigit c = true) : asciiSpace c = false := by
  by_contra hspace
  rw [Bool.not_eq_false, asciiSpace, decide_eq_true_eq] at hspace
  have hchar : c = Char.ofNat c.toNat := (Char.ofNat_toNat c).symm
  rw [hchar] at h
  simp only [List.mem_cons, List.not_mem_nil, or_false] at hspace
  obtain hn | hn | hn | hn | hn | hn := hspace
  all_goals
    rw [hn] at h
    revert h
    decide

theorem fromHexChars_of_digits (n : ℕ) {digits : List Char} (hlength : digits.length = 2 * n)
    (h : digits.all isHexDigit = true) :
    ∃ data, fromHexChars digits = some data ∧ data.length = n := by
  induction n generalizing digits with
  | zero =>
      rw [List.eq_nil_of_length_eq_zero hlength]
      exact ⟨[], rfl, rfl⟩
  | succ n ih =>
      match digits, hlength, h with
      | hi :: lo :: more, hlength, h =>
        rw [List.all_cons, List.all_cons, Bool.and_eq_true, Bool.and_eq_true] at h
        obtain ⟨data, hdata, hn⟩ := ih (by simp only [List.length_cons] at hlength; omega) h.2.2
        obtain ⟨x, hx⟩ := Option.isSome_iff_exists.mp h.1
        obtain ⟨y, hy⟩ := Option.isSome_iff_exists.mp h.2.1
        refine ⟨byte (x * 16 + y) :: data, ?_, by rw [List.length_cons, hn]⟩
        rw [fromHexChars, if_neg (by rw [not_asciiSpace_of_isHexDigit h.1]; decide), hx, hy, hdata]
        rfl

theorem bytesFromHex_returns (digits : List Char) :
    Returns (bytesFromHex digits) (fromHexChars digits).isSome fun _ => True := by
  unfold bytesFromHex
  cases fromHexChars digits with
  | none => exact (returns_error _).congr (by simp)
  | some data => exact (pure_total data).congr (by simp)

/-! ## One line -/

section OneLine
variable {digit : Char → Bool} {s : Scan} {buffer : F232Buffer} {line : List Char}

theorem holdBack_returns (s : Scan) (b : F232Buffer) :
    Returns (s.holdBack b) (Legible b) fun r =>
      r.2 = if b.need ≤ b.text.length / 2 then {} else b := by
  unfold Scan.holdBack Legible
  by_cases hcomplete : b.need ≤ b.text.length / 2
  · have hread : Returns (s.completeF232 b) (fromHexChars (b.text.take (b.need * 2))).isSome
        fun _ => True := by
      apply (bytesFromHex_returns _).bind_total
      intro frame _
      apply (parseF232Frame_total frame).andThen
      intro parsed
      cases parsed <;> exact pure_total _
    have hdone : Returns (s.completeF232 b >>= fun s => pure (s, ({} : F232Buffer)))
        (fromHexChars (b.text.take (b.need * 2))).isSome fun r => r.2 = {} :=
      hread.bind_total fun s _ => returns_pure rfl
    rw [if_pos hcomplete, if_pos hcomplete]
    exact hdone.congr ⟨fun h _ => h, fun h => h hcomplete⟩
  · rw [if_neg hcomplete, if_neg hcomplete]
    have hkept : Returns (pure (s, b) : PyM (Scan × F232Buffer)) True fun r => r.2 = b :=
      returns_pure rfl
    exact hkept.congr (iff_of_true trivial fun h => absurd h hcomplete)

theorem parseActiveReport_key {report : ActiveReport}
    (h : parseActiveReport digit line = .ok (some report)) :
    (fromHexChars (dedupKey digit line)).isSome := by
  unfold parseActiveReport at h
  split at h
  · split at h
    · cases h
    · rename_i hdata
      rw [hdata]
      rfl
  · cases h

theorem parseReadFrame_key {frame : ReadFrame} (h : parseReadFrame digit line = .ok (some frame)) :
    (fromHexChars (dedupKey digit line)).isSome := by
  unfold parseReadFrame at h
  split at h
  · split at h
    · cases h
    · rename_i hdata
      rw [hdata]
      rfl
  · cases h

theorem scanFrame_returns (s : Scan) (line : List Char) :
    Returns (scanFrame digit s line) (¬ CutConfig digit line) fun _ => True := by
  apply (parseTaskConfigAny_returns digit line).bind_total
  intro config _
  cases config with
  | some config => exact pure_total _
  | none =>
      apply (parseActiveReport_total digit line).known.then
      intro report hreport
      cases report with
      | some report =>
          have hkey : Total (bytesFromHex (dedupKey digit line)) :=
            (bytesFromHex_returns _).congr (iff_of_true (parseActiveReport_key hreport) trivial)
          exact hkey.andThen fun data => pure_total _
      | none =>
          apply (parseReadFrame_total digit line).known.then
          intro frame hframe
          cases frame with
          | some frame =>
              have hkey : Total (bytesFromHex (dedupKey digit line)) :=
                (bytesFromHex_returns _).congr (iff_of_true (parseReadFrame_key hframe) trivial)
              exact hkey.andThen fun data => pure_total _
          | none => exact pure_total _

/-- A key that begins with 68 is no task configuration. -/
theorem Heading.not_cut (h : Heading (dedupKey digit line)) : ¬ CutConfig digit line := by
  rintro ⟨hhead, -⟩
  unfold hexAfter at hhead
  rw [Bool.and_eq_true, Bool.and_eq_true] at hhead
  obtain ⟨rest, hrest⟩ := List.isPrefixOf_iff_prefix.mp h.1
  obtain ⟨rest', hrest'⟩ := List.isPrefixOf_iff_prefix.mp hhead.1.1
  have hsame := hrest.trans hrest'.symm
  cases hsame

theorem ok_bind {α β : Type} (a : α) (f : α → PyM β) : (Except.ok a >>= f) = f a := rfl

theorem f232Need_head {head : Bytes} (h : head.length = 13) :
    f232Need head = .ok (if byteAt head 3 = 0x43 ∧ byteAt head 10 = 0x11 ∧ byteAt head 11 = 0x80 ∧
      byteAt head 12 = 0x1C then some (le16 (byteAt head 1) (byteAt head 2)) else none) := by
  have hindex (i : ℕ) (hi : i < 13) : index head i = .ok (byteAt head i) :=
    index_byteAt (by omega)
  unfold f232Need
  rw [hindex 3 (by omega), hindex 10 (by omega), hindex 11 (by omega), hindex 12 (by omega),
    hindex 1 (by omega), hindex 2 (by omega)]
  simp only [bind, Except.bind]
  split <;> rfl

theorem scanFrame_kept (s : Scan) (buffer : F232Buffer) (line : List Char) :
    Returns (scanFrame digit s line >>= fun s => pure (s, buffer)) (¬ CutConfig digit line)
      fun r => r.2 = buffer :=
  (scanFrame_returns s line).bind_total fun _ _ => returns_pure rfl

theorem scanLine_returns (s : Scan) (buffer : F232Buffer) (line : List Char) :
    Returns (scanLine digit (s, buffer) line) (Readable digit buffer line) fun r =>
      r.2 = heldBack digit buffer line := by
  unfold scanLine Readable heldBack gathered
  dsimp only
  by_cases htext : buffer.text ≠ []
  · rw [if_pos htext, if_pos htext, if_pos htext]
    by_cases hhex : hexAfter "" (dedupKey digit line) = true
    · rw [if_pos hhex, if_pos hhex]
      apply (holdBack_returns s _).congr
      simp [htext]
    · rw [if_neg hhex, if_neg hhex]
      have hdropped : Returns (pure (s, {}) : PyM (Scan × F232Buffer)) True fun r => r.2 = {} :=
        returns_pure rfl
      exact hdropped.congr (by simp [htext])
  · rw [if_neg htext, if_neg htext, if_neg htext]
    have hempty : buffer.text = [] := not_not.mp htext
    by_cases hhead : Heading (dedupKey digit line)
    · have hcut := hhead.not_cut
      have hguard := hhead
      unfold Heading at hguard
      rw [if_pos hguard]
      by_cases hhex : ((dedupKey digit line).take 26).all isHexDigit = true
      · have hlength : ((dedupKey digit line).take 26).length = 2 * 13 := by
          rw [List.length_take]
          omega
        obtain ⟨head, hread, hthirteen⟩ := fromHexChars_of_digits 13 hlength hhex
        have hbytes : bytesFromHex ((dedupKey digit line).take 26) = .ok head := by
          rw [bytesFromHex, hread]
          rfl
        rw [if_pos hhex, if_pos ⟨hhead, hhex⟩, hbytes, ok_bind, f232Need_head hthirteen, ok_bind,
          announced, hread]
        by_cases hf232 : byteAt head 3 = 0x43 ∧ byteAt head 10 = 0x11 ∧ byteAt head 11 = 0x80 ∧
            byteAt head 12 = 0x1C
        · simp only [if_pos hf232, Option.map_some]
          have hheld := holdBack_returns s ⟨dedupKey digit line, le16 (byteAt head 1) (byteAt head 2)⟩
          dsimp only at hheld
          apply hheld.congr
          simp [hcut]
        · simp only [if_neg hf232, Option.map_none]
          apply Returns.congr (scanFrame_kept s buffer line)
          simp [hempty]
      · rw [if_neg hhex, if_neg fun h => hhex h.2]
        dsimp only
        have hskipped : Returns (pure (s, buffer) : PyM (Scan × F232Buffer)) True
            fun r => r.2 = buffer := returns_pure rfl
        exact hskipped.congr (by simp [hcut])
    · have hguard := hhead
      unfold Heading at hguard
      rw [if_neg hguard, if_neg fun h => hhead h.1]
      dsimp only
      apply Returns.congr (scanFrame_kept s buffer line)
      simp [hempty]

/-! ## Whole files -/

theorem scanFile_returns (s : Scan) (lines : List (List Char)) :
    Returns (scanFile digit s lines) (AllReadable digit {} lines) fun _ => True := by
  have hrun (state : Scan × F232Buffer) : Returns (lines.foldlM (scanLine digit) state)
      (AllReadable digit state.2 lines) fun _ => True := by
    induction lines generalizing state with
    | nil => exact pure_total state
    | cons line rest ih =>
        rw [List.foldlM_cons]
        apply (scanLine_returns state.1 state.2 line).bind
        intro next hnext
        exact hnext ▸ ih next
  exact (hrun (s, {})).map fun _ _ => trivial

theorem scanFiles_returns (s : Scan) (logFiles : List (List (List Char))) :
    Returns (logFiles.foldlM (scanFile digit) s) (∀ lines ∈ logFiles, AllReadable digit {} lines)
      fun _ => True := by
  induction logFiles generalizing s with
  | nil => exact (pure_total s).congr (by simp)
  | cons lines rest ih =>
      rw [List.foldlM_cons]
      apply ((scanFile_returns s lines).bind fun next _ => ih next).congr
      rw [List.forall_mem_cons]

end OneLine

/-- The statistics are finished exactly if every line is readable where it stands, and of the parsers
only the one of task configurations can raise. -/
theorem collect_returns_iff (digit : Char → Bool) (logFiles : List (List (List Char))) :
    ((∃ r, collectTaskStatistics digit logFiles = .ok r) ↔
      ∀ lines ∈ logFiles, AllReadable digit {} lines) ∧
    (∀ line, (∃ r, parseTaskConfigAny digit line = .ok r) ↔ ¬ CutConfig digit line) ∧
    (∀ line, ∃ r, parseActiveReport digit line = .ok r) ∧
    (∀ line, ∃ r, parseReadFrame digit line = .ok r) ∧ ∀ frame, ∃ r, parseF232Frame frame = .ok r := by
  have hcollect : Returns (collectTaskStatistics digit logFiles)
      (∀ lines ∈ logFiles, AllReadable digit {} lines) fun _ => True :=
    (scanFiles_returns {} logFiles).bind_total fun _ _ => returns_pure trivial
  exact ⟨hcollect.iff, fun line => (parseTaskConfigAny_returns digit line).iff,
    fun line => (parseActiveReport_total digit line).ok trivial,
    fun line => (parseReadFrame_total digit line).ok trivial,
    fun frame => (parseF232Frame_total frame).ok trivial⟩

/-- A task configuration of 17 bytes, one short of its switch. -/
def cutLine : List Char := "[20260811-19:15:00:000] 11e2000000000000000000000000000001".toList

def cutKey : List Char := "11e2000000000000000000000000000001".toList

theorem dedupKey_cutLine : dedupKey Char.isDigit cutLine = cutKey := by decide +kernel

theorem cutConfig_cutLine : CutConfig Char.isDigit cutLine := by
  have hlength : (fromHexChars cutKey).map List.length = some 17 := by decide +kernel
  obtain ⟨data, hdata, hseventeen⟩ := Option.map_eq_some_iff.mp hlength
  rw [CutConfig, dedupKey_cutLine]
  constructor
  · decide +kernel
  · exact ⟨data, hdata, hseventeen⟩

theorem cutLine_raises : ¬ ∀ (digit : Char → Bool) (logFiles : List (List (List Char))),
    ∃ r, collectTaskStatistics digit logFiles = .ok r := by
  intro hclaim
  have hreadable := (collect_returns_iff Char.isDigit [[cutLine]]).1.mp (hclaim _ _)
  have hline := (hreadable [cutLine] (List.mem_singleton_self _)).1
  exact hline.2 rfl cutConfig_cutLine

end HplcWorkbench.MinuteStats
