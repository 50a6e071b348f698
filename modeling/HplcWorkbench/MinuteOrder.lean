import HplcWorkbench.MinuteConservation

/-!
# The order of the lines

What a line gives depends on the line and on the frame that is held back, and not on what has been
gathered before. Lines that neither belong to such a frame nor begin one can therefore be reordered,
as long as the configurations keep their order.
-/

namespace HplcWorkbench.MinuteStats

open scoped List

/-! ## What the lines give -/

section Lines
variable {digit : Char → Bool}

/-- What a line gives that is no part of a held-back frame. -/
def found (digit : Char → Bool) (line : List Char) : PyM (Option Finding) := do
  match ← parseTaskConfigAny digit line with
  | some config => pure (some (.config config))
  | none =>
    match ← parseActiveReport digit line with
    | some report => do
      let data ← bytesFromHex (dedupKey digit line)
      pure (some (.event report.taskId
        (.inl ⟨report.address, report.fz, hasDataRegion data .activeReport⟩)))
    | none =>
      match ← parseReadFrame digit line with
      | some frame => do
        let data ← bytesFromHex (dedupKey digit line)
        pure (some (.event frame.taskId (.inr ⟨classify11e3Scene frame, frame.address, frame.fz,
          hasDataRegion data (classify11e3Scene frame)⟩)))
      | none => pure none

theorem scanFrame_eq (s : Scan) (line : List Char) :
    scanFrame digit s line = (fun f => f.elim s s.put) <$> found digit line := by
  unfold scanFrame found
  cases parseTaskConfigAny digit line with
  | error e => rfl
  | ok config =>
      rw [ok_bind, ok_bind]
      cases config with
      | some config => rfl
      | none =>
          dsimp only
          cases parseActiveReport digit line with
          | error e => rfl
          | ok report =>
              rw [ok_bind, ok_bind]
              cases report with
              | some report =>
                  dsimp only
                  cases bytesFromHex (dedupKey digit line) <;> rfl
              | none =>
                  dsimp only
                  cases parseReadFrame digit line with
                  | error e => rfl
                  | ok frame =>
                      rw [ok_bind, ok_bind]
                      cases frame with
                      | some frame =>
                          dsimp only
                          cases bytesFromHex (dedupKey digit line) <;> rfl
                      | none => rfl

/-! ## Steps that only add -/

/-- A step of a scan that adds findings which do not depend on what has been gathered. -/
def Uniform {β : Type} (step : Scan → PyM (Scan × β)) : Prop :=
  ∃ result : PyM (List Finding × β), ∀ s,
    step s = (fun r => (r.1.foldl Scan.put s, r.2)) <$> result

section Uniform
variable {α β γ : Type}

theorem uniform_pure (b : β) : Uniform fun s => pure (s, b) := ⟨pure ([], b), fun _ => rfl⟩

theorem uniform_error (e : PyErr) : Uniform fun _ => (.error e : PyM (Scan × β)) :=
  ⟨.error e, fun _ => rfl⟩

theorem uniform_known {x : PyM α} {step : α → Scan → PyM (Scan × β)} (h : ∀ a, Uniform (step a)) :
    Uniform fun s => x >>= fun a => step a s := by
  cases x with
  | error e => exact uniform_error e
  | ok a => exact h a

theorem uniform_bind {step : Scan → PyM (Scan × β)} (next : Scan × β → PyM (Scan × γ))
    (h : Uniform step) (hnext : ∀ b, Uniform fun s => next (s, b)) :
    Uniform fun s => step s >>= next := by
  obtain ⟨result, hstep⟩ := h
  cases result with
  | error e =>
      refine ⟨.error e, fun s => ?_⟩
      dsimp only
      rw [hstep]
      rfl
  | ok found =>
      obtain ⟨result, hresult⟩ := hnext found.2
      refine ⟨(fun r => (found.1 ++ r.1, r.2)) <$> result, fun s => ?_⟩
      dsimp only
      rw [hstep]
      change next (found.1.foldl Scan.put s, found.2) = _
      rw [show next (found.1.foldl Scan.put s, found.2) = _ from hresult _]
      cases result with
      | error e => rfl
      | ok r =>
          change _ = Except.ok ((found.1 ++ r.1).foldl Scan.put s, r.2)
          rw [List.foldl_append]
          rfl

end Uniform

theorem uniform_scanFrame {buffer : F232Buffer} (line : List Char) :
    Uniform fun s => scanFrame digit s line >>= fun s => pure (s, buffer) := by
  refine ⟨(fun f => (f.toList, buffer)) <$> found digit line, fun s => ?_⟩
  dsimp only
  rw [scanFrame_eq]
  cases found digit line with
  | error e => rfl
  | ok f => cases f <;> rfl

theorem uniform_holdBack (buffer : F232Buffer) : Uniform fun s => s.holdBack buffer := by
  unfold Scan.holdBack Scan.completeF232
  by_cases hcomplete : buffer.need ≤ buffer.text.length / 2
  · simp only [if_pos hcomplete, bind_assoc]
    apply uniform_known
    intro frame
    apply uniform_known
    intro parsed
    cases parsed with
    | none => exact uniform_pure ({} : F232Buffer)
    | some parsed => exact ⟨pure ([.meters parsed.1 parsed.2], {}), fun _ => rfl⟩
  · simp only [if_neg hcomplete]
    exact uniform_pure buffer

theorem uniform_scanLine (buffer : F232Buffer) (line : List Char) :
    Uniform fun s => scanLine digit (s, buffer) line := by
  unfold scanLine
  dsimp only
  split
  · split
    · exact uniform_holdBack _
    · exact uniform_pure ({} : F232Buffer)
  · split
    · split
      · apply uniform_known
        intro head
        apply uniform_known
        intro need
        cases need with
        | some need => exact uniform_holdBack _
        | none => exact uniform_scanFrame line
      · exact uniform_pure buffer
    · exact uniform_scanFrame line

theorem uniform_scanLines (buffer : F232Buffer) (lines : List (List Char)) :
    Uniform fun s => lines.foldlM (scanLine digit) (s, buffer) := by
  induction lines generalizing buffer with
  | nil => exact uniform_pure buffer
  | cons line lines ih =>
      simp only [List.foldlM_cons]
      exact uniform_bind _ (uniform_scanLine buffer line) ih

/-- What the files give does not depend on what has been gathered before. -/
theorem scanFiles_uniform (logFiles : List (List (List Char))) :
    Uniform fun s => (fun s => (s, ())) <$> logFiles.foldlM (scanFile digit) s := by
  induction logFiles with
  | nil => exact uniform_pure ()
  | cons lines rest ih =>
      obtain ⟨result, hfile⟩ := uniform_scanLines {} lines
      have hstep : Uniform fun s => (fun s => (s, ())) <$> scanFile digit s lines := by
        refine ⟨(fun r => (r.1, ())) <$> result, fun s => ?_⟩
        have hlines := hfile s
        dsimp only at hlines ⊢
        rw [scanFile, hlines]
        cases result <;> rfl
      have hbind := uniform_bind (fun r => (fun s => (s, ())) <$> rest.foldlM (scanFile digit) r.1)
        hstep fun _ => ih
      obtain ⟨result', hresult⟩ := hbind
      refine ⟨result', fun s => ?_⟩
      rw [← hresult s]
      dsimp only
      rw [List.foldlM_cons]
      cases scanFile digit s lines <;> rfl

theorem Scan.Same.foldl_put {s s' : Scan} (h : s.Same s') (findings : List Finding) :
    (findings.foldl Scan.put s).Same (findings.foldl Scan.put s') := by
  constructor
  · rw [settings_foldl_put findings h.settings, settings_foldl_put findings (rfl : s'.settings = s'.settings)]
  · intro t
    calc (findings.foldl Scan.put s).eventsOf t
      _ ~ s.eventsOf t ++ findings.filterMap (Finding.eventAt t) := eventsOf_foldl_put findings s
      _ ~ s'.eventsOf t ++ findings.filterMap (Finding.eventAt t) := (h.events t).append_right _
      _ ~ (findings.foldl Scan.put s').eventsOf t := (eventsOf_foldl_put findings s').symm

theorem Uniform.same {β : Type} {step : Scan → PyM (Scan × β)} {s s' : Scan} {r : Scan × β}
    (h : Uniform step) (hsame : s.Same s') (hrun : step s = .ok r) :
    ∃ t, step s' = .ok (t, r.2) ∧ r.1.Same t := by
  obtain ⟨result, hstep⟩ := h
  rw [hstep] at hrun
  cases result with
  | error e => cases hrun
  | ok found =>
      cases hrun
      exact ⟨_, hstep s', hsame.foldl_put found.1⟩

theorem Uniform.sound {β : Type} {step : Scan → PyM (Scan × β)} {s : Scan} {r : Scan × β}
    (h : Uniform step) (hs : s.Sound) (hrun : step s = .ok r) : r.1.Sound := by
  obtain ⟨result, hstep⟩ := h
  rw [hstep] at hrun
  cases result with
  | error e => cases hrun
  | ok found =>
      cases hrun
      exact hs.foldl_put found.1

section Files
variable {s s' t : Scan} {logFiles : List (List (List Char))}

theorem scanFiles_same (hsame : s.Same s') (hrun : logFiles.foldlM (scanFile digit) s = .ok t) :
    ∃ t', logFiles.foldlM (scanFile digit) s' = .ok t' ∧ t.Same t' := by
  have hunit : (fun s => (s, ())) <$> logFiles.foldlM (scanFile digit) s = .ok (t, ()) := by
    rw [hrun]
    rfl
  obtain ⟨t', hrun', hsame'⟩ := Uniform.same (scanFiles_uniform logFiles) hsame hunit
  refine ⟨t', ?_, hsame'⟩
  dsimp only at hrun'
  cases hfiles : logFiles.foldlM (scanFile digit) s' with
  | error e =>
      rw [hfiles] at hrun'
      cases hrun'
  | ok t' =>
      rw [hfiles] at hrun'
      cases hrun'
      rfl

theorem scanFiles_sound (hs : s.Sound) (hrun : logFiles.foldlM (scanFile digit) s = .ok t) :
    t.Sound := by
  have hunit : (fun s => (s, ())) <$> logFiles.foldlM (scanFile digit) s = .ok (t, ()) := by
    rw [hrun]
    rfl
  exact Uniform.sound (scanFiles_uniform logFiles) hs hunit

end Files

/-! ## Blocks of lines -/

/-- The finding of a line, if it has one. -/
def finding (digit : Char → Bool) (line : List Char) : Option Finding :=
  match found digit line with
  | .ok f => f
  | .error _ => none

/-- The line is a task configuration. -/
def configures (digit : Char → Bool) (line : List Char) : Bool :=
  match parseTaskConfigAny digit line with
  | .ok none => false
  | _ => true

section Block
variable {s : Scan} {buffer : F232Buffer} {block block' : List (List Char)}

theorem scanLine_plain (hbuffer : buffer.text = []) {line : List Char}
    (hline : ¬ Heading (dedupKey digit line)) :
    scanLine digit (s, buffer) line = (fun f => (f.elim s s.put, buffer)) <$> found digit line := by
  unfold Heading at hline
  unfold scanLine
  dsimp only
  rw [if_neg (not_not.mpr hbuffer), if_neg hline, scanFrame_eq]
  cases found digit line <;> rfl

theorem found_of_scanLine {r : Scan × F232Buffer} (hbuffer : buffer.text = []) {line : List Char}
    (hline : ¬ Heading (dedupKey digit line)) (h : scanLine digit (s, buffer) line = .ok r) :
    found digit line = .ok (finding digit line) ∧ r = ((finding digit line).elim s s.put, buffer) := by
  rw [scanLine_plain hbuffer hline] at h
  unfold finding
  cases hfound : found digit line with
  | error e =>
      rw [hfound] at h
      cases h
  | ok f =>
      rw [hfound] at h
      cases h
      exact ⟨rfl, rfl⟩

/-- Lines of a block that is read have each given what they give. -/
theorem found_of_scanBlock {r : Scan × F232Buffer} (hbuffer : buffer.text = [])
    (hblock : ∀ line ∈ block, ¬ Heading (dedupKey digit line))
    (h : block.foldlM (scanLine digit) (s, buffer) = .ok r) :
    ∀ line ∈ block, found digit line = .ok (finding digit line) := by
  induction block generalizing s with
  | nil => exact fun line hline => absurd hline List.not_mem_nil
  | cons line block ih =>
      rw [List.forall_mem_cons] at hblock ⊢
      rw [List.foldlM_cons] at h
      obtain ⟨next, hstep, h⟩ := bind_eq_ok h
      obtain ⟨hfound, rfl⟩ := found_of_scanLine hbuffer hblock.1 hstep
      exact ⟨hfound, ih hblock.2 h⟩

theorem scanBlock_eq (hbuffer : buffer.text = [])
    (hblock : ∀ line ∈ block, ¬ Heading (dedupKey digit line))
    (hfound : ∀ line ∈ block, found digit line = .ok (finding digit line)) :
    block.foldlM (scanLine digit) (s, buffer) =
      .ok ((block.filterMap (finding digit)).foldl Scan.put s, buffer) := by
  induction block generalizing s with
  | nil => rfl
  | cons line block ih =>
      rw [List.forall_mem_cons] at hblock hfound
      have hstep : scanLine digit (s, buffer) line = .ok ((finding digit line).elim s s.put, buffer) := by
        rw [scanLine_plain hbuffer hblock.1, hfound.1]
        rfl
      rw [List.foldlM_cons, hstep, ok_bind, ih hblock.2 hfound.2, List.filterMap_cons]
      cases finding digit line <;> rfl

/-- Only configurations settle how a task is set up. -/
theorem configures_of_setting {line : List Char} {f : Finding}
    (h : (finding digit line).bind Finding.setting = some f) : configures digit line = true := by
  unfold configures
  cases hconfig : parseTaskConfigAny digit line with
  | error e => rfl
  | ok config =>
      cases config with
      | some config => rfl
      | none =>
          have hevent : (finding digit line).bind Finding.setting = none := by
            unfold finding found
            rw [hconfig, ok_bind]
            dsimp only
            cases parseActiveReport digit line with
            | error e => rfl
            | ok report =>
                rw [ok_bind]
                cases report with
                | some report => cases bytesFromHex (dedupKey digit line) <;> rfl
                | none =>
                    dsimp only
                    cases parseReadFrame digit line with
                    | error e => rfl
                    | ok frame =>
                        rw [ok_bind]
                        cases frame with
                        | some frame => cases bytesFromHex (dedupKey digit line) <;> rfl
                        | none => rfl
          rw [hevent] at h
          cases h

theorem settings_block (block : List (List Char)) :
    (block.filterMap (finding digit)).filterMap Finding.setting =
      ((block.filter (configures digit)).filterMap (finding digit)).filterMap Finding.setting := by
  rw [List.filterMap_filterMap, List.filterMap_filterMap, List.filterMap_filter]
  apply List.filterMap_congr
  intro line _
  cases hsetting : (finding digit line).bind Finding.setting with
  | none => split <;> rfl
  | some f => rw [if_pos (configures_of_setting hsetting)]

theorem scanLines_heldBack {lines : List (List Char)} {r : Scan × F232Buffer}
    (h : lines.foldlM (scanLine digit) (s, buffer) = .ok r) :
    r.2 = lines.foldl (heldBack digit) buffer := by
  induction lines generalizing s buffer with
  | nil =>
      cases h
      rfl
  | cons line lines ih =>
      rw [List.foldlM_cons] at h
      obtain ⟨next, hstep, h⟩ := bind_eq_ok h
      rw [List.foldl_cons, ← ((scanLine_returns s buffer line).exact next hstep).2]
      exact ih h

/-- A block in another order leaves a scan that is the same. -/
theorem scanBlock_same (hperm : block ~ block')
    (hconfigs : block.filter (configures digit) = block'.filter (configures digit)) :
    ((block.filterMap (finding digit)).foldl Scan.put s).Same
      ((block'.filterMap (finding digit)).foldl Scan.put s) := by
  constructor
  · rw [settings_foldl_put _ (rfl : s.settings = s.settings), settings_block, hconfigs, ← settings_block,
      ← settings_foldl_put _ (rfl : s.settings = s.settings)]
  · intro t
    have hevents := (hperm.filterMap (finding digit)).filterMap (Finding.eventAt t)
    calc ((block.filterMap (finding digit)).foldl Scan.put s).eventsOf t
      _ ~ s.eventsOf t ++ (block.filterMap (finding digit)).filterMap (Finding.eventAt t) :=
        eventsOf_foldl_put _ s
      _ ~ s.eventsOf t ++ (block'.filterMap (finding digit)).filterMap (Finding.eventAt t) :=
        hevents.append_left _
      _ ~ ((block'.filterMap (finding digit)).foldl Scan.put s).eventsOf t :=
        (eventsOf_foldl_put _ s).symm

theorem scanFile_eq_ok {t : Scan} {lines : List (List Char)} :
    scanFile digit s lines = .ok t ↔
      ∃ buffer, lines.foldlM (scanLine digit) (s, {}) = .ok (t, buffer) := by
  unfold scanFile
  cases lines.foldlM (scanLine digit) (s, {}) with
  | error e =>
      constructor
      · rintro ⟨⟩
      · rintro ⟨buffer, ⟨⟩⟩
  | ok r =>
      constructor
      · rintro ⟨⟩
        exact ⟨r.2, rfl⟩
      · rintro ⟨buffer, ⟨⟩⟩
        rfl

/-- A file whose block comes in another order is read to a scan that is the same. -/
theorem scanFile_same {t : Scan} {before after : List (List Char)} (hperm : block ~ block')
    (hconfigs : block.filter (configures digit) = block'.filter (configures digit))
    (hbefore : (before.foldl (heldBack digit) {}).text = [])
    (hblock : ∀ line ∈ block, ¬ Heading (dedupKey digit line))
    (hrun : scanFile digit s (before ++ block ++ after) = .ok t) :
    ∃ t', scanFile digit s (before ++ block' ++ after) = .ok t' ∧ t.Same t' := by
  obtain ⟨last, hlines⟩ := scanFile_eq_ok.mp hrun
  rw [List.foldlM_append, List.foldlM_append] at hlines
  obtain ⟨two, hlines, hthird⟩ := bind_eq_ok hlines
  obtain ⟨one, hfirst, hsecond⟩ := bind_eq_ok hlines
  have hbuffer : one.2.text = [] := scanLines_heldBack hfirst ▸ hbefore
  have hfound := found_of_scanBlock hbuffer hblock hsecond
  have hstate := scanBlock_eq (s := one.1) hbuffer hblock hfound
  have hstate' := scanBlock_eq (s := one.1) hbuffer
    (fun line hline => hblock line (hperm.mem_iff.mpr hline))
    fun line hline => hfound line (hperm.mem_iff.mpr hline)
  obtain rfl := Except.ok.inj (hsecond.symm.trans hstate)
  obtain ⟨t', hthird', hsame⟩ := Uniform.same (uniform_scanLines one.2 after)
    (scanBlock_same hperm hconfigs) hthird
  refine ⟨t', scanFile_eq_ok.mpr ⟨last, ?_⟩, hsame⟩
  rw [List.foldlM_append, List.foldlM_append, hfirst, ok_bind, hstate', ok_bind]
  exact hthird'

end Block

end Lines

theorem collect_eq_ok {digit : Char → Bool} {logFiles : List (List (List Char))}
    {r : OrderedDict.Dict Byte Byte × List TaskStats × ℕ} :
    collectTaskStatistics digit logFiles = .ok r ↔ ∃ s, logFiles.foldlM (scanFile digit) {} = .ok s ∧
      (s.periodMap, s.tasks.filterMap s.taskStats, s.broadcastDeleteCount) = r := by
  unfold collectTaskStatistics
  constructor
  · intro h
    obtain ⟨s, hscan, h⟩ := bind_eq_ok h
    exact ⟨s, hscan, Except.ok.inj h⟩
  · rintro ⟨s, hscan, rfl⟩
    rw [hscan]
    rfl

theorem collect_kept {digit : Char → Bool} {logFiles : List (List (List Char))}
    {r : OrderedDict.Dict Byte Byte × List TaskStats × ℕ}
    (h : collectTaskStatistics digit logFiles = .ok r) :
    ∃ s, logFiles.foldlM (scanFile digit) {} = .ok s ∧ r.2.1.map TaskStats.taskId = s.tasks ∧
      s.tasks.Nodup ∧ (∀ t, t ∈ s.tasks ↔ s.eventsOf t ≠ []) ∧ ∀ stats ∈ r.2.1, TaskKept s stats := by
  obtain ⟨s, hscan, rfl⟩ := collect_eq_ok.mp h
  have hsound := scanFiles_sound sound_empty hscan
  obtain ⟨htasks, hkept⟩ := stats_kept hsound
  exact ⟨s, hscan, htasks, Finset.sort_nodup _ _, fun t => mem_tasks t hsound, hkept⟩

theorem collect_same {digit : Char → Bool} {files files' : List (List (List Char))}
    {before block block' after : List (List Char)}
    {r : OrderedDict.Dict Byte Byte × List TaskStats × ℕ} (hperm : block ~ block')
    (hconfigs : block.filter (configures digit) = block'.filter (configures digit))
    (hbefore : (before.foldl (heldBack digit) {}).text = [])
    (hblock : ∀ line ∈ block, ¬ Heading (dedupKey digit line))
    (h : collectTaskStatistics digit (files ++ (before ++ block ++ after) :: files') = .ok r) :
    ∃ r', collectTaskStatistics digit (files ++ (before ++ block' ++ after) :: files') = .ok r' ∧
      r'.1 = r.1 ∧ r'.2.1.map TaskStats.counts = r.2.1.map TaskStats.counts ∧ r'.2.2 = r.2.2 := by
  obtain ⟨three, hscan, rfl⟩ := collect_eq_ok.mp h
  have hscans := hscan
  rw [List.foldlM_append] at hscan
  obtain ⟨one, hfirst, hscan⟩ := bind_eq_ok hscan
  rw [List.foldlM_cons] at hscan
  obtain ⟨two, hsecond, hthird⟩ := bind_eq_ok hscan
  obtain ⟨two', hsecond', hsame⟩ := scanFile_same hperm hconfigs hbefore hblock hsecond
  obtain ⟨three', hthird', hsame'⟩ := scanFiles_same hsame hthird
  have hscan' : (files ++ (before ++ block' ++ after) :: files').foldlM (scanFile digit) {} =
      .ok three' := by
    rw [List.foldlM_append, hfirst, ok_bind, List.foldlM_cons, hsecond', ok_bind, hthird']
  have hsound := scanFiles_sound sound_empty hscans
  have hsound' := scanFiles_sound sound_empty hscan'
  have hsettings := hsame'.settings
  simp only [Scan.settings, Prod.mk.injEq] at hsettings
  obtain ⟨hperiods, -, -, -, hbroadcast⟩ := hsettings
  refine ⟨_, collect_eq_ok.mpr ⟨three', hscan', rfl⟩, hperiods.symm, ?_, hbroadcast.symm⟩
  exact (hsame'.stats hsound hsound').symm

/-- The cycles of a task are contiguous windows that hold each of its events once and count what they
hold, and lines may come in any order that the configurations keep. -/
theorem windows_lose_no_event (digit : Char → Bool) :
    (∀ logFiles r, collectTaskStatistics digit logFiles = .ok r →
      ∃ s, logFiles.foldlM (scanFile digit) {} = .ok s ∧
        r.2.1.map TaskStats.taskId = s.tasks ∧ s.tasks.Nodup ∧
        (∀ t, t ∈ s.tasks ↔ s.eventsOf t ≠ []) ∧ ∀ stats ∈ r.2.1, TaskKept s stats) ∧
    ∀ files files' before block block' after r, block ~ block' →
      block.filter (configures digit) = block'.filter (configures digit) →
      (before.foldl (heldBack digit) {}).text = [] →
      (∀ line ∈ block, ¬ Heading (dedupKey digit line)) →
      collectTaskStatistics digit (files ++ (before ++ block ++ after) :: files') = .ok r →
      ∃ r', collectTaskStatistics digit (files ++ (before ++ block' ++ after) :: files') = .ok r' ∧
        r'.1 = r.1 ∧ r'.2.1.map TaskStats.counts = r.2.1.map TaskStats.counts ∧ r'.2.2 = r.2.2 :=
  ⟨fun _ _ => collect_kept, fun _ _ _ _ _ _ _ => collect_same⟩

/-- Two reports of a task, two minutes apart. -/
def tenLine : List Char := "11e40000000000000000000000010203040506070000100811082601000000".toList

def twelveLine : List Char := "11e40000000000000000000000110203040506070000120811082601000000".toList

theorem cycles_tenTwelve : (collectTaskStatistics Char.isDigit [[tenLine, twelveLine]]).toOption.map
    (fun r => r.2.1.map fun stats => stats.cycles.length) = some [2] := by decide +kernel

theorem windows_lose_no_event_swapped :
    ∃ r r', collectTaskStatistics Char.isDigit [[tenLine, twelveLine]] = .ok r ∧
      collectTaskStatistics Char.isDigit [[twelveLine, tenLine]] = .ok r' ∧
      (r.2.1.map fun stats => stats.cycles.length) = [2] ∧
      r'.2.1.map TaskStats.counts = r.2.1.map TaskStats.counts ∧
      ∃ s, ∀ stats ∈ r.2.1, TaskKept s stats := by
  cases hrun : collectTaskStatistics Char.isDigit [[tenLine, twelveLine]] with
  | error e =>
      have hcycles := cycles_tenTwelve
      rw [hrun] at hcycles
      cases hcycles
  | ok r =>
      have hcycles := cycles_tenTwelve
      rw [hrun] at hcycles
      obtain ⟨s, -, -, -, -, hkept⟩ := (windows_lose_no_event Char.isDigit).1 _ r hrun
      have hplain : ∀ line ∈ [tenLine, twelveLine], ¬ Heading (dedupKey Char.isDigit line) := by
        decide +kernel
      obtain ⟨r', hrun', -, hcounts, -⟩ := (windows_lose_no_event Char.isDigit).2 [] [] []
        [tenLine, twelveLine] [twelveLine, tenLine] [] r (List.Perm.swap _ _ _) (by decide +kernel) rfl
        hplain hrun
      exact ⟨r, r', rfl, hrun', Option.some.inj hcycles, hcounts, s, hkept⟩

end HplcWorkbench.MinuteStats
