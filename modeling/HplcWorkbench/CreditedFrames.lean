import HplcWorkbench.BatchConservation
import Mathlib.Data.List.Nodup

/-!
# Which frames a row can be credited with

A verdict says what the examined frame is and which meters it names. A denial that names none is
claimed by its hex text, and each text is claimed once. The frames that a slot looks at came in
after the job was created.
-/

namespace HplcWorkbench.Batch
open Adapter10376 FrameCodec SerialIO Transitions

section Frames
variable (cfg : Config) (decoded : ProtocolFrame)

/-- An upward frame with the AFN and Fn of the job's replies. -/
def IsReply : Prop :=
  upBit decoded = 1 ∧ intField decoded "AFN" = some (cfg.mode.afn : ℤ) ∧
    intField decoded "FN" = some 1

/-- An upward denial with a code. -/
def IsDenial : Prop := upBit decoded = 1 ∧ (denyInfo decoded).isSome

instance : Decidable (IsReply cfg decoded) := inferInstanceAs (Decidable (_ ∧ _))

instance : Decidable (IsDenial decoded) := inferInstanceAs (Decidable (_ ∧ _))

end Frames

/-- What a verdict says about the frame. -/
inductive Judged (cfg : Config) (meter : String) (raw : Bytes) : Verdict → Prop
  | skip : Judged cfg meter raw .skip
  | deny (decoded : ProtocolFrame) (code : ℕ) (hdecode : decode cfg.store raw = .ok decoded)
      (h : IsDenial decoded) (hmatch : decodedMatchAddr decoded meter = true) :
      Judged cfg meter raw (.deny code)
  | claim (decoded : ProtocolFrame) (code : ℕ) (hdecode : decode cfg.store raw = .ok decoded)
      (h : IsDenial decoded) (hnone : ∀ m ∈ cfg.meters, decodedMatchAddr decoded m = false) :
      Judged cfg meter raw (.claim code)
  | success (decoded : ProtocolFrame) (hdecode : decode cfg.store raw = .ok decoded)
      (h : IsReply cfg decoded) (hmatch : decodedMatchAddr decoded meter = true) :
      Judged cfg meter raw .success

section Verdicts
variable {cfg : Config} {meter : String} {raw : Bytes}

theorem judged (cfg : Config) (meter : String) (raw : Bytes) :
    Judged cfg meter raw (frameVerdict cfg meter raw) := by
  rw [frameVerdict]
  cases hdecode : decode cfg.store raw with
  | error e => exact .skip
  | ok decoded =>
      dsimp only
      by_cases hup : upBit decoded = 1
      · rw [if_neg (not_not.mpr hup)]
        by_cases hdeny : intField decoded "AFN" = some 0 ∧ intField decoded "FN" = some 2
        · rw [if_pos hdeny]
          cases hcode : denyInfo decoded with
          | none => exact .skip
          | some code =>
              have hdenial : IsDenial decoded := ⟨hup, by rw [hcode]; rfl⟩
              dsimp only
              split_ifs with hmatch hother
              · exact .deny decoded code hdecode hdenial hmatch
              · exact .skip
              · refine .claim decoded code hdecode hdenial fun m hm => ?_
                by_contra hhit
                rw [Bool.not_eq_false] at hhit
                by_cases hself : m = meter
                · exact hmatch (hself ▸ hhit)
                · exact hother (List.any_eq_true.mpr ⟨m, hm, by simp [hself, hhit]⟩)
        · rw [if_neg hdeny]
          split_ifs with hreply
          · exact .success decoded hdecode ⟨hup, hreply.1, hreply.2.1⟩ hreply.2.2
          · exact .skip
      · rw [if_pos hup]
        exact .skip

end Verdicts

/-! ## Claimed denials -/

/-- The row that a slot holds or has left. -/
def Slot.row (slot : Slot) : Option Row :=
  match slot.pc with
  | .recording row => some row
  | .ended row => row
  | _ => none

/-- The slot's row is a denial that it has claimed by this hex text. -/
def Slot.Claims (cfg : Config) (slot : Slot) (text : String) : Prop :=
  ∃ row f code, slot.row = some row ∧ row.frame = some f ∧
    frameVerdict cfg slot.meter f.2 = .claim code ∧ frameToHex f.2 = text

structure ClaimedOnce (cfg : Config) (workers : List Slot) (claimed : List String) : Prop where
  listed : ∀ (i : ℕ) (slot : Slot) (text : String), workers[i]? = some slot →
    slot.Claims cfg text → text ∈ claimed
  once : ∀ (i j : ℕ) (slot slot' : Slot) (text : String), workers[i]? = some slot →
    workers[j]? = some slot' → slot.Claims cfg text → slot'.Claims cfg text → i = j

section Claims
variable {cfg : Config} {s s' : JobState} {i : ℕ} {slot : Slot} {pc : SlotPc}

/-- A slot moves on: a claim that it did not have is a new text. -/
theorem ClaimedOnce.set {claimed : List String} (h : ClaimedOnce cfg s.workers s.claimed)
    (hslot : s.workers[i]? = some slot) (hmore : ∀ text ∈ s.claimed, text ∈ claimed)
    (hnew : ∀ text, ({ slot with pc := pc } : Slot).Claims cfg text →
      slot.Claims cfg text ∨ text ∉ s.claimed ∧ text ∈ claimed) :
    ClaimedOnce cfg (s.workers.set i { slot with pc := pc }) claimed := by
  -- a claim of another slot is not the moved slot's
  have hother : ∀ (j : ℕ) (slot' : Slot) (text : String), s.workers[j]? = some slot' →
      slot'.Claims cfg text → ({ slot with pc := pc } : Slot).Claims cfg text → i = j := by
    intro j slot' text hj hclaim hmoved
    rcases hnew text hmoved with hold | ⟨hfree, -⟩
    · exact h.once i j slot slot' text hslot hj hold hclaim
    · exact absurd (h.listed j slot' text hj hclaim) hfree
  constructor
  · intro j slot' text hj hclaim
    rw [lookup_set hslot] at hj
    split_ifs at hj
    · obtain rfl := Option.some.inj hj
      rcases hnew text hclaim with hold | ⟨-, hin⟩
      · exact hmore text (h.listed i slot text hslot hold)
      · exact hin
    · exact hmore text (h.listed j slot' text hj hclaim)
  · intro j k slot₁ slot₂ text hj hk hclaim₁ hclaim₂
    rw [lookup_set hslot] at hj hk
    split_ifs at hj hk with hij hik
    · exact hij.symm.trans hik
    · obtain rfl := Option.some.inj hj
      exact hij.symm.trans (hother k slot₂ text hk hclaim₂ hclaim₁)
    · obtain rfl := Option.some.inj hk
      exact (hother j slot₁ text hj hclaim₁ hclaim₂).symm.trans ‹i = k›
    · exact h.once j k slot₁ slot₂ text hj hk hclaim₁ hclaim₂

/-- Only a claim enters a new text. -/
theorem claims_of_examined {seen : ℕ} {f : Received} {rest : List Received}
    {claimed : List String} (h : Examined cfg s i slot seen f rest pc claimed) :
    (∀ text ∈ s.claimed, text ∈ claimed) ∧
      ∀ text, ({ slot with pc := pc } : Slot).Claims cfg text →
        text ∉ s.claimed ∧ text ∈ claimed := by
  cases h with
  | skipped =>
      refine ⟨fun _ h => h, ?_⟩
      rintro text ⟨row, g, code, hrow, -⟩
      cases hrow
  | denied code hv =>
      refine ⟨fun _ h => h, ?_⟩
      rintro text ⟨row, g, code', hrow, hg, hclaim, -⟩
      obtain rfl := Option.some.inj hrow
      obtain rfl := Option.some.inj hg
      exact Verdict.noConfusion (hv.symm.trans hclaim)
  | claimed code hv hfree =>
      refine ⟨fun _ h => List.mem_cons_of_mem _ h, ?_⟩
      rintro text ⟨row, g, code', hrow, hg, hclaim, rfl⟩
      obtain rfl := Option.some.inj hrow
      obtain rfl := Option.some.inj hg
      exact ⟨hfree, List.mem_cons_self⟩
  | replied hv =>
      refine ⟨fun _ h => h, ?_⟩
      rintro text ⟨row, g, code', hrow, hg, hclaim, -⟩
      obtain rfl := Option.some.inj hrow
      obtain rfl := Option.some.inj hg
      exact Verdict.noConfusion (hv.symm.trans hclaim)

theorem ClaimedOnce.move (h : ClaimedOnce cfg s.workers s.claimed)
    (hslot : s.workers[i]? = some slot) (hmove : SlotMove cfg s i slot s') :
    ClaimedOnce cfg s'.workers s'.claimed := by
  -- the moves that leave the slot without a claim
  have hkeep : ∀ {pc : SlotPc}, (∀ text, ¬ ({ slot with pc := pc } : Slot).Claims cfg text) →
      ClaimedOnce cfg (s.workers.set i { slot with pc := pc }) s.claimed := fun hnone =>
    h.set hslot (fun _ ht => ht) fun text hclaim => absurd hclaim (hnone text)
  cases hmove with
  | sent hpc =>
      refine hkeep ?_
      rintro text ⟨row, f, code, hrow, -⟩
      cases hrow
  | armed seen hpc hstop =>
      refine hkeep ?_
      rintro text ⟨row, f, code, hrow, -⟩
      cases hrow
  | polled seen hpc =>
      refine hkeep ?_
      rintro text ⟨row, f, code, hrow, -⟩
      cases hrow
  | gaveUp status note hstatus =>
      refine hkeep ?_
      rintro text ⟨row, f, code, hrow, hf, -⟩
      obtain rfl := Option.some.inj hrow
      cases hf
  | examined seen f rest pc claimed hpc hex =>
      obtain ⟨hmore, hnew⟩ := claims_of_examined hex
      exact h.set hslot hmore fun text hclaim => Or.inr (hnew text hclaim)
  | stopped hstop =>
      refine hkeep ?_
      rintro text ⟨row, f, code, hrow, -⟩
      cases hrow
  | recorded row hpc =>
      change ClaimedOnce cfg ((recordRow s row).workers.set i _) (recordRow s row).claimed
      rw [recordRow_workers, recordRow_claimed]
      refine h.set hslot (fun _ ht => ht) ?_
      rintro text ⟨row', f, code, hrow, hrest⟩
      refine Or.inl ⟨row', f, code, ?_, hrest⟩
      rw [Slot.row, hpc]
      exact hrow

theorem ClaimedOnce.dispatch (h : ClaimedOnce cfg s.workers s.claimed)
    (hmove : DispatcherMove cfg s s') : ClaimedOnce cfg s'.workers s'.claimed := by
  cases hmove with
  | moved pc hold hnew hend hroom hjoin => exact h
  | taken left meter queue hpc hqueue => exact h
  | launched meter left hpc =>
      have hnone : ∀ text, ¬ ({ meter := meter } : Slot).Claims cfg text := by
        rintro text ⟨row, f, code, hrow, -⟩
        cases hrow
      have hold : ∀ {j : ℕ} {slot' : Slot} {text : String},
          (s.workers ++ [{ meter := meter }])[j]? = some slot' → slot'.Claims cfg text →
          s.workers[j]? = some slot' := by
        intro j slot' text hj hclaim
        rw [List.getElem?_append] at hj
        split_ifs at hj with hlt
        · exact hj
        · rw [List.getElem?_singleton] at hj
          split_ifs at hj
          obtain rfl := Option.some.inj hj
          exact absurd hclaim (hnone text)
      exact ⟨fun j slot' text hj hclaim => h.listed j slot' text (hold hj hclaim) hclaim,
        fun j k slot₁ slot₂ text hj hk h₁ h₂ =>
          h.once j k slot₁ slot₂ text (hold hj h₁) (hold hk h₂) h₁ h₂⟩
  | closed hpc hended => exact h

theorem claimedOnce_of_reachable {history : List Bytes}
    (h : (job cfg).Reachable (startJob cfg history) s) :
    ClaimedOnce cfg s.workers s.claimed := by
  have hstart : ClaimedOnce cfg (startJob cfg history).workers (startJob cfg history).claimed :=
    ⟨by simp [startJob], by simp [startJob]⟩
  refine Machine.Reach.invariant (P := fun s => ClaimedOnce cfg s.workers s.claimed) h hstart ?_
  intro s e s' _ hs _ hstep
  cases jobStep_cases hstep with
  | slot i slot hslot hrunning hmove => exact hs.move hslot hmove
  | dispatcher hmove => exact hs.dispatch hmove
  | stop => exact hs
  | append f => exact hs
  | trim => exact hs

end Claims

/-! ## Frames that came in after the start -/

/-- A slot that stands at `pc` has its index at `low` or behind it, and the frames that it is to
look at or holds satisfy `P`. -/
def SeesOnly (P : Bytes → Prop) (low : ℕ) : SlotPc → Prop
  | .starting => True
  | .polling seen todo => low ≤ seen ∧ ∀ f ∈ todo, P f.2
  | .armed seen => low ≤ seen
  | .recording row => ∀ f, row.frame = some f → P f.2
  | .ended none => True
  | .ended (some row) => ∀ f, row.frame = some f → P f.2

theorem SeesOnly.mono {P : Bytes → Prop} {low low' : ℕ} (hle : low' ≤ low) {pc : SlotPc}
    (h : SeesOnly P low pc) : SeesOnly P low' pc := by
  cases pc with
  | polling seen todo => exact ⟨hle.trans h.1, h.2⟩
  | armed seen => exact hle.trans h
  | ended row => cases row <;> exact h
  | _ => exact h

theorem SeesOnly.row {P : Bytes → Prop} {low : ℕ} {slot : Slot} (h : SeesOnly P low slot.pc)
    {row : Row} (hrow : slot.row = some row) {f : Received} (hf : row.frame = some f) : P f.2 := by
  rw [Slot.row] at hrow
  split at hrow
  · rename_i row' hpc
    obtain rfl := Option.some.inj hrow
    rw [hpc] at h
    exact h f hf
  · rename_i row' hpc
    subst hrow
    rw [hpc] at h
    exact h f hf
  · cases hrow

/-- Where the frames with number `first` and later begin in the history. -/
def JobState.firstIndex (s : JobState) (first : ℕ) : ℕ := first + s.history.length - s.arrivals

/-- The history is numbered without a gap, its frames from `first` on satisfy `P`, and no slot
looks at others. -/
structure Fresh (P : Bytes → Prop) (first : ℕ) (s : JobState) : Prop where
  started : first ≤ s.arrivals
  numbered : ∀ (j : ℕ) (f : Received), s.history[j]? = some f →
    f.1 + s.history.length = s.arrivals + j
  later : ∀ f ∈ s.history, first ≤ f.1 → P f.2
  slots : ∀ slot ∈ s.workers, SeesOnly P (s.firstIndex first) slot.pc

section Fresh
variable {P : Bytes → Prop} {first : ℕ} {cfg : Config} {s s' : JobState} {i : ℕ} {slot : Slot}

theorem Fresh.setPc {pc : SlotPc} (h : Fresh P first s)
    (hpc : SeesOnly P (s.firstIndex first) pc) : Fresh P first (Batch.setPc s i slot pc) where
  started := h.started
  numbered := h.numbered
  later := h.later
  slots := fun slot' hmem => by
    rcases mem_set hmem with hold | rfl
    · exact h.slots slot' hold
    · exact hpc

/-- The snapshot of a slot whose index is not before `first`. -/
theorem Fresh.unread_later (h : Fresh P first s) {seen : ℕ} (hseen : s.firstIndex first ≤ seen)
    {f : Received} (hf : f ∈ unread s.history seen) : P f.2 := by
  refine h.later f (List.mem_of_mem_drop hf) ?_
  obtain ⟨j, hj⟩ := List.mem_iff_getElem?.mp hf
  rw [unread, List.getElem?_drop] at hj
  have hnumber := h.numbered (seen + j) f hj
  rw [JobState.firstIndex] at hseen
  omega

theorem Fresh.move (h : Fresh P first s) (hslot : s.workers[i]? = some slot)
    (hmove : SlotMove cfg s i slot s') : Fresh P first s' := by
  have hsees := h.slots slot (List.mem_of_getElem? hslot)
  have hlow : s.firstIndex first ≤ s.history.length := by
    have hstarted := h.started
    rw [JobState.firstIndex]
    omega
  cases hmove with
  | sent hpc => exact h.setPc ⟨hlow, by simp⟩
  | armed seen hpc hstop =>
      rw [hpc] at hsees
      exact h.setPc hsees.1
  | polled seen hpc =>
      rw [hpc] at hsees
      exact h.setPc ⟨hlow, fun f hf => h.unread_later hsees hf⟩
  | gaveUp status note hstatus =>
      refine h.setPc fun f hf => ?_
      cases hf
  | examined seen f rest pc claimed hpc hex =>
      rw [hpc] at hsees
      have hclaimed : Fresh P first { s with claimed := claimed } :=
        ⟨h.started, h.numbered, h.later, h.slots⟩
      have hf : P f.2 := hsees.2 f List.mem_cons_self
      refine hclaimed.setPc ?_
      cases hex with
      | skipped => exact ⟨hsees.1, fun g hg => hsees.2 g (List.mem_cons_of_mem _ hg)⟩
      | denied code hv =>
          intro g hg
          exact Option.some.inj hg ▸ hf
      | claimed code hv hfree =>
          intro g hg
          exact Option.some.inj hg ▸ hf
      | replied hv =>
          intro g hg
          exact Option.some.inj hg ▸ hf
  | stopped hstop => exact h.setPc trivial
  | recorded row hpc =>
      rw [hpc] at hsees
      have hrow : Fresh P first (recordRow s row) := by
        refine ⟨?_, ?_, ?_, ?_⟩
        · simpa using h.started
        · simpa using h.numbered
        · simpa using h.later
        · simpa [JobState.firstIndex] using h.slots
      exact hrow.setPc hsees

theorem Fresh.dispatch (h : Fresh P first s) (hmove : DispatcherMove cfg s s') :
    Fresh P first s' := by
  cases hmove with
  | moved pc hold hnew hend hroom hjoin => exact ⟨h.started, h.numbered, h.later, h.slots⟩
  | taken left meter queue hpc hqueue => exact ⟨h.started, h.numbered, h.later, h.slots⟩
  | launched meter left hpc =>
      refine ⟨h.started, h.numbered, h.later, fun slot' hmem => ?_⟩
      rcases List.mem_append.mp hmem with hold | hnew
      · exact h.slots slot' hold
      · obtain rfl := List.mem_singleton.mp hnew
        exact trivial
  | closed hpc hended => exact ⟨h.started, h.numbered, h.later, h.slots⟩

theorem Fresh.append (h : Fresh P first s) {raw : Bytes} (hraw : P raw) :
    Fresh P first { s with history := s.history ++ [(s.arrivals, raw)]
                           arrivals := s.arrivals + 1 } := by
  have hindex : ({ s with history := s.history ++ [(s.arrivals, raw)]
                          arrivals := s.arrivals + 1 } : JobState).firstIndex first =
      s.firstIndex first := by
    simp only [JobState.firstIndex, List.length_append, List.length_singleton]
    omega
  constructor
  · exact h.started.trans (Nat.le_succ _)
  · intro j f hj
    simp only [List.length_append, List.length_singleton]
    rw [List.getElem?_append] at hj
    split_ifs at hj with hlt
    · have hnumber := h.numbered j f hj
      omega
    · rw [List.getElem?_singleton] at hj
      split_ifs at hj with hzero
      obtain rfl := Option.some.inj hj
      change s.arrivals + _ = _
      omega
  · intro f hf hfirst
    rcases List.mem_append.mp hf with hold | hnew
    · exact h.later f hold hfirst
    · obtain rfl := List.mem_singleton.mp hnew
      exact hraw
  · rw [hindex]
    exact h.slots

theorem Fresh.drop (h : Fresh P first s) {k : ℕ} (hk : k ≤ s.history.length) :
    Fresh P first { s with history := s.history.drop k } := by
  constructor
  · exact h.started
  · intro j f hj
    rw [List.getElem?_drop] at hj
    have hnumber := h.numbered _ f hj
    change f.1 + (s.history.drop k).length = s.arrivals + j
    rw [List.length_drop]
    omega
  · exact fun f hf => h.later f (List.mem_of_mem_drop hf)
  · intro slot hmem
    refine (h.slots slot hmem).mono ?_
    simp only [JobState.firstIndex, List.length_drop]
    omega

theorem fresh_start (history : List Bytes) :
    Fresh P history.length (startJob cfg history) := by
  constructor
  · exact le_rfl
  · intro j f hj
    obtain ⟨x, hx, rfl⟩ : ∃ x, history[j]? = some x ∧ (j, x) = f := by
      simpa [startJob, List.getElem?_zipIdx] using hj
    simp [startJob, Nat.add_comm]
  · intro f hf hfirst
    obtain ⟨j, hj⟩ := List.mem_iff_getElem?.mp hf
    obtain ⟨x, hx, rfl⟩ : ∃ x, history[j]? = some x ∧ (j, x) = f := by
      simpa [startJob, List.getElem?_zipIdx] using hj
    exact absurd (List.getElem?_eq_some_iff.mp hx).1 (not_lt.mpr hfirst)
  · intro slot hmem
    cases hmem

end Fresh

end HplcWorkbench.Batch
