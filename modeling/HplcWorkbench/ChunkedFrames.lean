import HplcWorkbench.AdapterCuts

/-!
# Frames that arrive in chunks

Frames go through `FrameSplitter` unharmed when the chunks leave them `Undisturbed`: no prefix of
a frame that a call ends with is taken for something finished or broken, and no frame is read
together with what follows it in the same call.
-/

namespace HplcWorkbench.FrameSplitter
open StreamSplitting

/-- What the builders of the meter adapters make. -/
inductive Built : Protocol → Bytes → Prop
  | dlt645 {addrBytes : Bytes} {control : ℕ} {dataDomain f : Bytes}
      (h : Adapter645.buildFrame addrBytes control dataDomain = .ok f) : Built .dlt645 f
  | dlt69845 (apdu addrBytes : Bytes) (ca control : Byte) :
      Built .dlt69845 (Adapter698.buildFrame apdu addrBytes ca control)
  | qgdw103762 {a : Adapter10376.FrameArgs} {f : Bytes} (h : Adapter10376.buildFrame a = .ok f) :
      Built .qgdw103762 f

/-- A frame that its own adapter cuts whole and that no other meter adapter cuts. -/
structure Recognised (own : Protocol) (f : Bytes) : Prop where
  meter : own ∈ meterAdapters
  whole : own.tryExtract f = some ⟨f, f.length⟩
  only : ∀ other ∈ meterAdapters, other ≠ own → other.tryExtract f = none

/-- The number in the two bytes behind the start byte. -/
def announced (f : Bytes) : ℕ := le16 (byteAt f 1) (byteAt f 2)

/-- The first `n` bytes of the frame are not deleted: they hold no envelope of the announced length
that ends with `16`, no frame of the announced length plus two that ends otherwise with a start
byte behind it, and not too much. -/
structure Undropped (f : Bytes) (n : ℕ) : Prop where
  envelope : ¬ (12 ≤ announced f ∧ announced f ≤ maxFrame ∧ announced f ≤ n ∧
    byteAt f (announced f - 1) = 0x16)
  broken : ¬ (12 ≤ announced f ∧ announced f ≤ 2000 ∧ announced f + 2 ≤ n ∧
    byteAt f (announced f + 1) ≠ 0x16 ∧ ∃ b ∈ (f.take n).drop 1, b ∈ frameStartBytes)
  short : n ≤ maxFrame

/-- A call may end `n` bytes into the frame. -/
def KeepsPrefix : Protocol → Bytes → ℕ → Prop
  | .dlt645, f, n => Undropped f n ∧ Adapter645.tryExtractPlain (f.take n) = none
  | .dlt69845, f, n => ¬ (f.length ≤ n + 2 ∧ byteAt f (f.length - 3) = 0x16)
  | .qgdw103762, _, n => n ≤ maxFrame
  | .dualMode43, _, _ => False

/-- The call that completes the frame may bring the bytes `t` behind it. -/
def CutsWhole : Protocol → Bytes → Bytes → Prop
  | .dlt645, f, t => ∀ r, Adapter645.tryExtractEscaped (f ++ t) = some r → r.consumed = f.length
  | .dlt69845, f, t => Adapter645.tryExtract (f ++ t) = none
  | .qgdw103762, _, t => t = []
  | .dualMode43, _, _ => False

/-- Each call that begins before a frame has arrived ends where the frame may be cut in two, or
completes it together with bytes that leave it whole. -/
def Undisturbed (frames : List (Protocol × Bytes)) (chunks : List Bytes) : Prop :=
  ∀ before a f after, frames = before ++ (a, f) :: after →
    ∀ past c future, chunks = past ++ c :: future →
      past.flatten.length < (content before).length + f.length →
      let seen := (past.flatten ++ c).drop (content before).length
      (seen ≠ [] → seen.length < f.length → KeepsPrefix a f seen.length) ∧
        (f.length ≤ seen.length → CutsWhole a f (seen.drop f.length))

section Hits
variable {adapters : List Protocol} {buf : Bytes}

theorem start_not_port (hstart : byteAt buf 0 = 0x68) : byteAt buf 0 ∉ DualMode43.ports := by
  rw [hstart]
  decide

/-- The dual-mode adapter takes no part in a buffer that starts like a meter frame. -/
theorem firstHit_meter (hadapters : adapters = buildAdapters ∨ adapters = meterAdapters)
    (hstart : byteAt buf 0 = 0x68) : firstHit adapters buf = firstHit meterAdapters buf := by
  rcases hadapters with rfl | rfl
  · have hnone : Protocol.dualMode43.tryExtract buf = none := by
      cases hcut : Protocol.dualMode43.tryExtract buf with
      | none => rfl
      | some r => exact absurd (DualMode43.tryExtract_cutOf hcut).2 (start_not_port hstart)
    rw [firstHit, buildAdapters, List.findSome?_cons, hnone]
    rfl
  · rfl

theorem firstHit_none_iff : firstHit meterAdapters buf = none ↔
    Adapter645.tryExtract buf = none ∧ Adapter698.tryExtract buf = none ∧
      Adapter10376.tryExtract buf = none := by
  simp [firstHit, meterAdapters, Protocol.tryExtract]

theorem firstHit_645 {r : ExtractResult} (h : Adapter645.tryExtract buf = some r) :
    firstHit meterAdapters buf = some (.dlt645, r) := by
  simp [firstHit, meterAdapters, Protocol.tryExtract, h]

theorem firstHit_698 {r : ExtractResult} (h645 : Adapter645.tryExtract buf = none)
    (h : Adapter698.tryExtract buf = some r) :
    firstHit meterAdapters buf = some (.dlt69845, r) := by
  simp [firstHit, meterAdapters, Protocol.tryExtract, h645, h]

theorem firstHit_10376 {r : ExtractResult} (h645 : Adapter645.tryExtract buf = none)
    (h698 : Adapter698.tryExtract buf = none) (h : Adapter10376.tryExtract buf = some r) :
    firstHit meterAdapters buf = some (.qgdw103762, r) := by
  simp [firstHit, meterAdapters, Protocol.tryExtract, h645, h698, h]

end Hits

section Resync
variable {f : Bytes} {n : ℕ}

theorem nextStart_eq_none_iff {buf : Bytes} {k : ℕ} :
    nextStart buf k = none ↔ ¬ ∃ b ∈ buf.drop k, b ∈ frameStartBytes := by
  rw [nextStart, Option.map_eq_none_iff, List.findIdx?_eq_none_iff]
  simp

/-- A prefix of a frame is kept by the resync exactly if it is not taken for something else. -/
theorem resync_take_eq_none_iff (hstart : byteAt f 0 = 0x68) (hn : 0 < n) (hle : n ≤ f.length) :
    resync (f.take n) = none ↔ Undropped f n := by
  have hlen : (f.take n).length = n := by rw [List.length_take, Nat.min_eq_left hle]
  have hne : f.take n ≠ [] := by
    intro hnil
    rw [hnil, List.length_nil] at hlen
    omega
  have hhead : byteAt (f.take n) 0 = 0x68 := by rw [byteAt_take hn, hstart]
  have hnoise : ¬ byteAt (f.take n) 0 ∉ frameStartBytes := by
    rw [hhead]
    decide
  have hport : skipPort (f.take n) = none := by
    rw [skipPort, if_neg]
    exact fun h => start_not_port hhead h.1
  have htooLong : skipTooLong (f.take n) = none ↔ n ≤ maxFrame := by
    rw [skipTooLong, hlen]
    split_ifs with hlong <;> simp <;> omega
  have henvelope : skipEnvelope (f.take n) = none ↔
      ¬ (12 ≤ announced f ∧ announced f ≤ maxFrame ∧ announced f ≤ n ∧
        byteAt f (announced f - 1) = 0x16) ∧
      ¬ (12 ≤ announced f ∧ announced f ≤ 2000 ∧ announced f + 2 ≤ n ∧
        byteAt f (announced f + 1) ≠ 0x16 ∧ ∃ b ∈ (f.take n).drop 1, b ∈ frameStartBytes) := by
    by_cases hthree : 3 ≤ n
    · have htotal : le16 (byteAt (f.take n) 1) (byteAt (f.take n) 2) = announced f := by
        rw [byteAt_take (by omega), byteAt_take (by omega), announced]
      have hend : (12 ≤ announced f ∧ announced f ≤ maxFrame ∧ announced f ≤ n ∧
          byteAt (f.take n) (announced f - 1) = 0x16) ↔ (12 ≤ announced f ∧ announced f ≤ maxFrame ∧
          announced f ≤ n ∧ byteAt f (announced f - 1) = 0x16) := by
        refine and_congr_right fun hlow => and_congr_right fun _ => and_congr_right fun hin => ?_
        rw [byteAt_take (by omega)]
      have hover : (12 ≤ announced f ∧ announced f ≤ 2000 ∧ announced f + 2 ≤ n ∧
          byteAt (f.take n) (announced f + 1) ≠ 0x16) ↔ (12 ≤ announced f ∧ announced f ≤ 2000 ∧
          announced f + 2 ≤ n ∧ byteAt f (announced f + 1) ≠ 0x16) := by
        refine and_congr_right fun _ => and_congr_right fun _ => and_congr_right fun hin => ?_
        rw [byteAt_take (by omega)]
      simp only [skipEnvelope, hlen, htotal]
      rw [if_pos ⟨hhead, hthree⟩, if_congr hend rfl rfl, if_congr hover rfl rfl]
      split_ifs with hdone hbroken
      · simp [hdone]
      · rw [nextStart_eq_none_iff]
        constructor
        · exact fun hnext => ⟨hdone, fun h => hnext h.2.2.2.2⟩
        · exact fun h hnext =>
            h.2 ⟨hbroken.1, hbroken.2.1, hbroken.2.2.1, hbroken.2.2.2, hnext⟩
      · simp only [true_iff]
        exact ⟨hdone, fun h => hbroken ⟨h.1, h.2.1, h.2.2.1, h.2.2.2.1⟩⟩
    · rw [skipEnvelope, hlen, if_neg fun h => hthree h.2]
      simp only [true_iff]
      exact ⟨fun h => by omega, fun h => by omega⟩
  rw [resync, if_neg hne, if_neg hnoise, hport, Option.none_or, Option.or_eq_none_iff, henvelope,
    htooLong]
  exact ⟨fun h => ⟨h.1.1, h.1.2, h.2⟩, fun h => ⟨⟨h.envelope, h.broken⟩, h.short⟩⟩

end Resync

section Own
variable {adapters : List Protocol} {own : Protocol} {f : Bytes}

theorem Recognised.pos (h : Recognised own f) : 0 < f.length :=
  (Protocol.tryExtract_cutOf h.whole).pos

theorem Recognised.start (h : Recognised own f) : byteAt f 0 = 0x68 := by
  have hwhole := h.whole
  cases own with
  | dualMode43 => exact absurd h.meter (by decide)
  | dlt645 =>
      have hhead := Adapter645.tryExtract_head hwhole
      rw [byteAt, List.getD_eq_getElem?_getD, ← List.head?_eq_getElem?, hhead]
      rfl
  | dlt69845 =>
      obtain ⟨L, ⟨-, hstart, -⟩, -⟩ := Adapter698.tryExtract_eq_some_iff.mp hwhole
      exact hstart
  | qgdw103762 =>
      obtain ⟨⟨-, hstart, -⟩, -⟩ := Adapter10376.tryExtract_eq_some_iff.mp hwhole
      exact hstart

/-- The length field of a 698.45 frame. -/
theorem Recognised.announced_698 (h : Recognised .dlt69845 f) :
    12 ≤ announced f ∧ announced f ≤ 2000 ∧ f.length = announced f + 2 := by
  obtain ⟨L, ⟨hL, -, -, hlow, hhigh, -⟩, heq⟩ := Adapter698.tryExtract_eq_some_iff.mp h.whole
  have hlen : f.length = L + 2 := congrArg ExtractResult.consumed heq
  rw [announced, ← hL]
  exact ⟨hlow, hhigh, hlen⟩

/-- The length field of a 1376.2 frame. -/
theorem Recognised.announced_10376 (h : Recognised .qgdw103762 f) :
    12 ≤ f.length ∧ announced f = f.length := by
  obtain ⟨⟨hlong, -, -, -, hlen⟩, -⟩ := Adapter10376.tryExtract_eq_some_iff.mp h.whole
  exact ⟨hlong, hlen⟩

/-- No 645 frame begins where a frame of another adapter does. -/
theorem Recognised.not_645 (h : Recognised own f) (hown : own ≠ .dlt645) :
    Adapter645.tryExtract f = none := h.only .dlt645 (by decide) (Ne.symm hown)

theorem Recognised.not_698 (h : Recognised own f) (hown : own ≠ .dlt69845) :
    Adapter698.tryExtract f = none := h.only .dlt69845 (by decide) (Ne.symm hown)

/-- The frame is cut from every longer buffer, unless another adapter comes first: 645 always cuts
something. -/
theorem Recognised.cut_645 (h : Recognised .dlt645 f) (t : Bytes) :
    ∃ r, Adapter645.tryExtract (f ++ t) = some r ∧
      (r.consumed = f.length ↔ CutsWhole .dlt645 f t) := by
  have hwhole := h.whole
  change Adapter645.tryExtract f = _ at hwhole
  cases hescaped : Adapter645.tryExtractEscaped (f ++ t) with
  | some r =>
      refine ⟨r, by rw [Adapter645.tryExtract, hescaped], fun hr r' hr' => ?_, fun hcut => ?_⟩
      · obtain rfl := Option.some.inj (hescaped.symm.trans hr')
        exact hr
      · exact hcut r hescaped
  | none =>
      -- then nothing was read escaped in the frame either, and it was cut as it is
      have hnone : Adapter645.tryExtractEscaped f = none := by
        cases hf : Adapter645.tryExtractEscaped f with
        | none => rfl
        | some r =>
            rw [Adapter645.tryExtractEscaped_append hf t] at hescaped
            cases hescaped
      rw [Adapter645.tryExtract, hnone] at hwhole
      refine ⟨_, by rw [Adapter645.tryExtract, hescaped,
        Adapter645.tryExtractPlain_append hwhole t], fun _ r' hr' => ?_, fun _ => rfl⟩
      rw [hescaped] at hr'
      cases hr'

theorem Recognised.cut_698 (h : Recognised .dlt69845 f) (t : Bytes) :
    Adapter698.tryExtract (f ++ t) = some ⟨f, f.length⟩ := Adapter698.tryExtract_append h.whole t

theorem byteAt_append_start (h : Recognised own f) (t : Bytes) : byteAt (f ++ t) 0 = 0x68 := by
  rw [byteAt_append h.pos, h.start]

/-- With the bytes `t` behind it the frame is returned. -/
theorem hit_whole_iff (hadapters : adapters = buildAdapters ∨ adapters = meterAdapters)
    (h : Recognised own f) (t : Bytes) :
    look adapters (f ++ t) = .hit own f.length ↔ CutsWhole own f t := by
  rw [look_eq_hit_iff, firstHit_meter hadapters (byteAt_append_start h t)]
  cases own with
  | dualMode43 => exact absurd h.meter (by decide)
  | dlt645 =>
      obtain ⟨r, hr, hiff⟩ := h.cut_645 t
      rw [firstHit_645 hr, ← hiff]
      simp
  | dlt69845 =>
      cases h645 : Adapter645.tryExtract (f ++ t) with
      | some r =>
          rw [firstHit_645 h645, CutsWhole, h645]
          simp
      | none =>
          rw [firstHit_698 h645 (h.cut_698 t), CutsWhole, h645]
          simp
  | qgdw103762 =>
      rw [CutsWhole]
      constructor
      · rintro ⟨r, hr, hlen⟩
        obtain ⟨-, hcut⟩ := firstHit_eq_some hr
        obtain ⟨-, rfl⟩ := Adapter10376.tryExtract_eq_some_iff.mp hcut
        change (f ++ t).length = f.length at hlen
        rw [List.length_append] at hlen
        exact List.length_eq_zero_iff.mp (by omega)
      · rintro rfl
        rw [List.append_nil]
        exact ⟨_, firstHit_10376 (h.not_645 (by decide)) (h.not_698 (by decide)) h.whole, rfl⟩

/-- A frame that is waited for although it has arrived is never returned. -/
theorem never_late (hadapters : adapters = buildAdapters ∨ adapters = meterAdapters)
    (h : Recognised own f) (t t' : Bytes) (hwait : look adapters (f ++ t) = .wait) :
    look adapters (f ++ t ++ t') ≠ .hit own f.length := by
  have hnone := (look_eq_wait_iff.mp hwait).1
  rw [firstHit_meter hadapters (byteAt_append_start h t)] at hnone
  obtain ⟨h645, h698, h10376⟩ := firstHit_none_iff.mp hnone
  cases own with
  | dualMode43 => exact absurd h.meter (by decide)
  | dlt645 =>
      obtain ⟨r, hr, -⟩ := h.cut_645 t
      rw [hr] at h645
      cases h645
  | dlt69845 =>
      rw [h.cut_698 t] at h698
      cases h698
  | qgdw103762 =>
      rw [List.append_assoc, Ne, hit_whole_iff hadapters h, CutsWhole]
      intro hnil
      obtain ⟨rfl, -⟩ := List.append_eq_nil_iff.mp hnil
      rw [List.append_nil, show Adapter10376.tryExtract f = _ from h.whole] at h10376
      cases h10376

/-! ## Prefixes -/

section Prefix
variable {n : ℕ}

/-- No 698.45 frame ends inside a frame. -/
theorem Recognised.take_698 (h : Recognised own f) (hlt : n < f.length) :
    Adapter698.tryExtract (f.take n) = none := by
  cases hcut : Adapter698.tryExtract (f.take n) with
  | none => rfl
  | some r =>
      exfalso
      have hle := (Adapter698.tryExtract_cutOf hcut).le
      have hwhole := Adapter698.tryExtract_append hcut (f.drop n)
      rw [List.take_append_drop] at hwhole
      rw [List.length_take] at hle
      by_cases hown : own = .dlt69845
      · subst hown
        obtain rfl := Option.some.inj (hwhole.symm.trans h.whole)
        change f.length ≤ min n f.length at hle
        omega
      · rw [h.not_698 hown] at hwhole
        cases hwhole

/-- No 645 frame ends inside a frame of another adapter. -/
theorem Recognised.take_645 (h : Recognised own f) (hown : own ≠ .dlt645) :
    Adapter645.tryExtract (f.take n) = none := by
  have hnone := h.not_645 hown
  rw [← List.take_append_drop n f] at hnone
  exact Adapter645.tryExtract_none_of_append hnone

/-- Inside a 645 frame the escaped reading finds no end. -/
theorem Recognised.take_escaped (h : Recognised .dlt645 f) (hlt : n < f.length) :
    Adapter645.tryExtractEscaped (f.take n) = none := by
  cases hcut : Adapter645.tryExtractEscaped (f.take n) with
  | none => rfl
  | some r =>
      exfalso
      have htake : Adapter645.tryExtract (f.take n) = some r := by rw [Adapter645.tryExtract, hcut]
      have hle := (Adapter645.tryExtract_cutOf htake).le
      have hescaped := Adapter645.tryExtractEscaped_append hcut (f.drop n)
      rw [List.take_append_drop] at hescaped
      have hwhole : Adapter645.tryExtract f = some r := by rw [Adapter645.tryExtract, hescaped]
      obtain rfl := Option.some.inj (hwhole.symm.trans h.whole)
      rw [List.length_take] at hle
      change f.length ≤ min n f.length at hle
      omega

/-- A prefix that passes for a 1376.2 frame is an envelope of the announced length. -/
theorem announced_of_take_10376 (hle : n ≤ f.length) {r : ExtractResult}
    (hcut : Adapter10376.tryExtract (f.take n) = some r) :
    12 ≤ n ∧ announced f = n ∧ byteAt f (n - 1) = 0x16 := by
  obtain ⟨⟨hlong, -, hend, -, hlen⟩, -⟩ := Adapter10376.tryExtract_eq_some_iff.mp hcut
  rw [List.length_take, Nat.min_eq_left hle] at hlong hend hlen
  rw [byteAt_take (by omega), byteAt_take (by omega)] at hlen
  rw [byteAt_take (by omega)] at hend
  exact ⟨hlong, hlen, hend⟩

/-- A call that ends `n` bytes into the frame keeps these bytes. -/
theorem wait_take_iff (hadapters : adapters = buildAdapters ∨ adapters = meterAdapters)
    (h : Recognised own f) (hn : 0 < n) (hlt : n < f.length) :
    look adapters (f.take n) = .wait ↔ KeepsPrefix own f n := by
  have hstart : byteAt (f.take n) 0 = 0x68 := by rw [byteAt_take hn, h.start]
  rw [look_eq_wait_iff, firstHit_meter hadapters hstart, firstHit_none_iff,
    resync_take_eq_none_iff h.start hn hlt.le]
  have h698 := h.take_698 hlt
  have h10376 : Undropped f n → Adapter10376.tryExtract (f.take n) = none := by
    intro hkept
    cases hcut : Adapter10376.tryExtract (f.take n) with
    | none => rfl
    | some r =>
        obtain ⟨hlong, hlen, hend⟩ := announced_of_take_10376 hlt.le hcut
        refine absurd ⟨?_, ?_, ?_, ?_⟩ hkept.envelope
        · omega
        · exact hlen ▸ hkept.short
        · exact hlen.le
        · rw [hlen, hend]
  cases own with
  | dualMode43 => exact absurd h.meter (by decide)
  | dlt645 =>
      rw [Adapter645.tryExtract_eq_none_iff]
      constructor
      · rintro ⟨⟨⟨-, hplain⟩, -, -⟩, hkept⟩
        exact ⟨hkept, hplain⟩
      · rintro ⟨hkept, hplain⟩
        exact ⟨⟨⟨h.take_escaped hlt, hplain⟩, h698, h10376 hkept⟩, hkept⟩
  | dlt69845 =>
      obtain ⟨hlow, hhigh, hlen⟩ := h.announced_698
      constructor
      · rintro ⟨-, hkept⟩ ⟨hclose, hend⟩
        refine hkept.envelope ⟨hlow, hhigh.trans (by decide), by omega, ?_⟩
        rwa [hlen, show announced f + 2 - 3 = announced f - 1 by omega] at hend
      · intro hkeep
        have hkept : Undropped f n := by
          refine ⟨fun henvelope => hkeep ⟨by omega, ?_⟩, fun hbroken => by omega, ?_⟩
          · rw [hlen, show announced f + 2 - 3 = announced f - 1 by omega]
            exact henvelope.2.2.2
          · rw [maxFrame]
            omega
        exact ⟨⟨h.take_645 (by decide), h698, h10376 hkept⟩, hkept⟩
  | qgdw103762 =>
      obtain ⟨hlow, hlen⟩ := h.announced_10376
      constructor
      · rintro ⟨-, hkept⟩
        exact hkept.short
      · intro hshort
        have hkept : Undropped f n := by
          refine ⟨fun henvelope => by omega, fun hbroken => by omega, hshort⟩
        exact ⟨⟨h.take_645 (by decide), h698, h10376 hkept⟩, hkept⟩

end Prefix

/-- The condition on the bytes says what the splitter answers. -/
theorem answers_iff (hadapters : adapters = buildAdapters ∨ adapters = meterAdapters)
    (h : Recognised own f) {seen : Bytes} (hseen : seen <+: f ∨ f <+: seen) :
    (splitter adapters).Answers own f seen ↔
      (seen ≠ [] → seen.length < f.length → KeepsPrefix own f seen.length) ∧
        (f.length ≤ seen.length → CutsWhole own f (seen.drop f.length)) := by
  refine and_congr ?_ ?_
  · refine imp_congr_right fun hne => imp_congr_right fun hlt => ?_
    have hprefix : seen <+: f := by
      rcases hseen with hshort | hlong
      · exact hshort
      · exact absurd hlong.length_le (not_le.mpr hlt)
    have htake : seen = f.take seen.length := List.prefix_iff_eq_take.mp hprefix
    have hiff := wait_take_iff hadapters h (List.length_pos_of_ne_nil hne) hlt
    rwa [← htake] at hiff
  · refine imp_congr_right fun hle => ?_
    have hprefix : f <+: seen := by
      rcases hseen with hshort | hlong
      · rw [hshort.eq_of_length (le_antisymm hshort.length_le hle)]
      · exact hlong
    have hiff := hit_whole_iff hadapters h (seen.drop f.length)
    rwa [List.prefix_append_drop hprefix |>.symm] at hiff

end Own

/-- What has arrived from the start of a frame on is a part of the frame or begins with it. -/
theorem arrived_part {frames before after : List (Protocol × Bytes)} {a : Protocol} {f c : Bytes}
    {chunks past future : List Bytes} (hstream : chunks.flatten = content frames)
    (hframes : frames = before ++ (a, f) :: after) (hchunks : chunks = past ++ c :: future) :
    (past.flatten ++ c).drop (content before).length <+: f ∨
      f <+: (past.flatten ++ c).drop (content before).length := by
  have harrived : past.flatten ++ c <+: content before ++ (f ++ content after) := by
    rw [← content_cons a, ← content_append, ← hframes, ← hstream, hchunks, List.flatten_append,
      List.flatten_cons, ← List.append_assoc]
    exact List.prefix_append _ _
  have hdrop := harrived.drop (content before).length
  rw [List.drop_left] at hdrop
  exact List.prefix_or_prefix_of_prefix hdrop (List.prefix_append f _)

/-- Frames that are each recognised by their own adapter come out of the splitter, in order and each
once, if and only if the chunks leave them undisturbed. -/
theorem feedAll_eq_iff {adapters : List Protocol}
    (hadapters : adapters = buildAdapters ∨ adapters = meterAdapters)
    (frames : List (Protocol × Bytes)) (hframes : ∀ p ∈ frames, Recognised p.1 p.2)
    (chunks : List Bytes) (hchunks : chunks.flatten = content frames) :
    feedAll adapters [] chunks = frames ↔ Undisturbed frames chunks := by
  have hiff : (splitter adapters).receive [] chunks = frames ↔
      (splitter adapters).Timely [] frames chunks :=
    Splitter.receive_eq_iff (splitter adapters)
      (fun p hp => List.ne_nil_of_length_pos (hframes p hp).pos)
      (fun p hp t t' => never_late hadapters (hframes p hp) t t')
      (fun p hp => (hframes p (List.mem_of_mem_head? hp)).pos) hchunks
  rw [feedAll_eq, hiff]
  constructor
  · intro h before a f after heq past c future hsplit hguard
    have hown : Recognised a f := hframes (a, f) (by simp [heq])
    exact (answers_iff hadapters hown (arrived_part hchunks heq hsplit)).mp
      (h before a f after heq past c future hsplit hguard)
  · intro h before a f after heq past c future hsplit hguard
    have hown : Recognised a f := hframes (a, f) (by simp [heq])
    exact (answers_iff hadapters hown (arrived_part hchunks heq hsplit)).mpr
      (h before a f after heq past c future hsplit hguard)

/-- A 645 reading request, a 698.45 link request and two 1376.2 queries. -/
def readRequest : Bytes :=
  [0x68, 0x06, 0x05, 0x04, 0x03, 0x02, 0x01, 0x68, 0x11, 0x04, 0x33, 0x33, 0x34, 0x33, 0xC7, 0x16]

def linkRequest : Bytes :=
  [0x68, 0x1E, 0x00, 0x81, 0x05, 0x06, 0x05, 0x04, 0x03, 0x02, 0x01, 0x00, 0xF0, 0xC1, 0x01, 0x00,
    0x00, 0x00, 0xB4, 0x07, 0xE6, 0x01, 0x01, 0x00, 0x00, 0x00, 0x00, 0x00, 0x00, 0xBA, 0x74, 0x16]

def query : Bytes := [0x68, 0x0F, 0x00, 0x43, 0, 0, 0, 0, 0, 0, 0x10, 0x01, 0x00, 0x54, 0x16]

def secondQuery : Bytes := [0x68, 0x0F, 0x00, 0x43, 0, 0, 0, 0, 0, 0, 0x10, 0x08, 0x00, 0x5B, 0x16]

/-- One frame with the first part of the next, its other part, and the last frame alone. -/
theorem mixed_chunks_undisturbed :
    Undisturbed [(.dlt645, readRequest), (.dlt69845, linkRequest), (.qgdw103762, query)]
      [readRequest ++ linkRequest.take 20, linkRequest.drop 20, query] := by
  refine (feedAll_eq_iff (Or.inl rfl) _ (fun p hp => ?_) _ (by decide)).mp (by decide)
  have hsplit : p = (.dlt645, readRequest) ∨ p = (.dlt69845, linkRequest) ∨
      p = (.qgdw103762, query) := by simpa using hp
  rcases hsplit with rfl | rfl | rfl
  · exact ⟨by decide, by decide, by decide⟩
  · exact ⟨by decide, by decide, by decide⟩
  · exact ⟨by decide, by decide, by decide⟩

/-- Two queries in one chunk: the first is deleted as a foreign envelope. -/
theorem glued_queries_lost : ¬ ∀ (frames : List (Protocol × Bytes)) (chunks : List Bytes),
    (∀ p ∈ frames, Built p.1 p.2 ∧ Recognised p.1 p.2) → chunks.flatten = content frames →
      feedAll buildAdapters [] chunks = frames := by
  intro hall
  have hquery : ∀ f ∈ [query, secondQuery], Recognised .qgdw103762 f := by
    intro f hf
    refine ⟨by decide, ?_, ?_⟩ <;> revert f <;> decide
  have hlost : feedAll buildAdapters [] [query ++ secondQuery] = [(.qgdw103762, secondQuery)] := by
    decide
  have hboth := hall [(.qgdw103762, query), (.qgdw103762, secondQuery)] [query ++ secondQuery] ?_
    (by decide)
  · rw [hlost] at hboth
    exact absurd hboth (by decide)
  · intro p hp
    rcases List.mem_pair.mp hp with rfl | rfl
    · exact ⟨.qgdw103762 (show Adapter10376.buildFrame { afn := 0x10 } = .ok query by decide),
        hquery _ (by simp)⟩
    · exact ⟨.qgdw103762 (show Adapter10376.buildFrame { afn := 0x10, fn := 4 } = .ok secondQuery by
        decide), hquery _ (by simp)⟩

end HplcWorkbench.FrameSplitter
