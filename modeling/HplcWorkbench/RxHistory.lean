import HplcWorkbench.SerialReceive
import HplcWorkbench.TransitionSystems

/-!
# Waiting for a reply in the receive history

The read thread appends a frame to the history and trims the history in a later step; a waiting
reader takes a snapshot whenever it polls and looks at the entries from an index on. One kind of
reader moves its index to the end of every snapshot, the other keeps the index it started with.

The index is a place in the list, and trimming moves the frames: after `lost` frames have been
cut off the front, the index points `lost` frames further on.
-/

namespace HplcWorkbench.SerialIO
open Transitions

/-- How a reader treats its index: `_read_one` moves it with each poll, `_wait_reply` keeps it. -/
inductive ReaderKind
  | cursor
  | fixed
  deriving DecidableEq, Repr

/-- `hist[seen:]`. -/
def unread {α : Type*} (history : List α) (index : ℕ) : List α := history.drop index

/-- The loop over the new frames, up to the first that is accepted. -/
def examineUntil {α : Type*} (accept : α → Bool) : List α → List α × Option α
  | [] => ([], none)
  | f :: fs =>
    if accept f then ([f], some f)
    else
      let r := examineUntil accept fs
      (f :: r.1, r.2)

/-- The history and one reader. `arrived`, `covered`, `base` and `lost` only record the run:
what came in since the request, how many of these frames a poll without result has covered, how
many had come in when the index was taken, and how many entries were trimmed since. -/
structure WaitState (α : Type*) where
  history : List α
  index : ℕ
  examined : List α := []
  found : Option α := none
  arrived : List α := []
  covered : ℕ := 0
  base : ℕ := 0
  lost : ℕ := 0

inductive WaitEvent (α : Type*)
  | append (frame : α)
  | trim
  | poll

section Reader
variable {α : Type*}

/-- A reader that has just taken its index. -/
def startWait (history : List α) : WaitState α where
  history := history
  index := history.length

def pollHistory (kind : ReaderKind) (accept : α → Bool) (s : WaitState α) : WaitState α :=
  let r := examineUntil accept (unread s.history s.index)
  let s := { s with
    examined := s.examined ++ r.1
    found := r.2
    covered := if r.2 = none then s.arrived.length else s.covered }
  match kind with
  | .cursor => { s with index := s.history.length, base := s.arrived.length, lost := 0 }
  | .fixed => s

/-- A reader that has found its reply polls no more. -/
def waitStep (kind : ReaderKind) (accept : α → Bool) (s : WaitState α) :
    WaitEvent α → Option (WaitState α)
  | .append f => some { s with history := s.history ++ [f], arrived := s.arrived ++ [f] }
  | .trim => some { s with
      history := trimHistory s.history
      lost := s.lost + (s.history.length - historyLimit) }
  | .poll => if s.found = none then some (pollHistory kind accept s) else none

def waiting (kind : ReaderKind) (accept : α → Bool) : Machine (WaitState α) (WaitEvent α) :=
  ⟨waitStep kind accept⟩

/-- The index has not been carried past a frame that is still to be looked at. -/
def IndexReaches (s : WaitState α) : Prop :=
  s.base + s.lost ≤ s.covered ∨ s.covered = s.arrived.length

/-- The condition on the steps of a run: a poll happens only while the index reaches. -/
def PollsReach (s : WaitState α) : WaitEvent α → Prop
  | .poll => IndexReaches s
  | _ => True

/-! ## What a poll sees -/

theorem examineUntil_none {accept : α → Bool} {frames : List α}
    (h : (examineUntil accept frames).2 = none) :
    (examineUntil accept frames).1 = frames ∧ ∀ f ∈ frames, accept f = false := by
  induction frames with
  | nil => exact ⟨rfl, by simp⟩
  | cons f fs ih =>
      rw [examineUntil] at h ⊢
      split_ifs at h ⊢ with hf
      obtain ⟨hall, hnone⟩ := ih h
      refine ⟨congrArg (f :: ·) hall, ?_⟩
      intro g hg
      rcases List.mem_cons.mp hg with rfl | hg
      · exact Bool.eq_false_iff.mpr hf
      · exact hnone g hg

theorem examineUntil_some {accept : α → Bool} {frames : List α} {f : α}
    (h : (examineUntil accept frames).2 = some f) :
    accept f = true ∧ ∃ i, frames[i]? = some f ∧ (examineUntil accept frames).1 =
      frames.take (i + 1) := by
  induction frames with
  | nil => cases h
  | cons g gs ih =>
      rw [examineUntil] at h ⊢
      split_ifs at h ⊢ with hg
      · obtain rfl := Option.some.inj h
        exact ⟨hg, 0, rfl, rfl⟩
      · obtain ⟨hf, i, hi, hall⟩ := ih h
        exact ⟨hf, i + 1, hi, congrArg (g :: ·) hall⟩

/-- The history is what stood there when the index was taken and what came in since, less what
was trimmed. -/
structure Tracks (s : WaitState α) : Prop where
  history : ∃ old : List α, old.length = s.index ∧
    s.history = (old ++ s.arrived.drop s.base).drop s.lost
  base_le : s.base ≤ s.arrived.length
  covered_le : s.covered ≤ s.arrived.length
  lost_le : s.lost ≤ s.index + (s.arrived.length - s.base)

theorem Tracks.unread_eq {s : WaitState α} (h : Tracks s) :
    unread s.history s.index = s.arrived.drop (s.base + s.lost) := by
  obtain ⟨old, hlen, heq⟩ := h.history
  rw [unread, heq, List.drop_drop, ← hlen, Nat.add_comm, List.drop_append, List.drop_of_length_le
    (Nat.le_add_right _ _), List.nil_append, Nat.add_sub_cancel_left, List.drop_drop]

theorem tracks_start (history : List α) : Tracks (startWait history) :=
  ⟨⟨history, rfl, by simp [startWait]⟩, Nat.le_refl _, Nat.le_refl _, Nat.zero_le _⟩

theorem Tracks.append {s : WaitState α} (h : Tracks s) (f : α) :
    Tracks { s with history := s.history ++ [f], arrived := s.arrived ++ [f] } := by
  obtain ⟨old, hlen, heq⟩ := h.history
  have hbase := h.base_le
  have hcovered := h.covered_le
  have hlost := h.lost_le
  refine ⟨⟨old, hlen, ?_⟩, ?_, ?_, ?_⟩
  · have hle : s.lost ≤ (old ++ s.arrived.drop s.base).length := by
      rw [List.length_append, List.length_drop, hlen]
      exact hlost
    simp only [heq]
    rw [List.drop_append_of_le_length hbase, ← List.append_assoc,
      ← List.drop_append_of_le_length hle]
  · simp only [List.length_append]
    omega
  · simp only [List.length_append]
    omega
  · simp only [List.length_append]
    omega

theorem Tracks.trim {s : WaitState α} (h : Tracks s) :
    Tracks { s with
      history := trimHistory s.history
      lost := s.lost + (s.history.length - historyLimit) } := by
  obtain ⟨old, hlen, heq⟩ := h.history
  have hlost := h.lost_le
  have hcount : s.history.length = s.index + (s.arrived.length - s.base) - s.lost := by
    rw [heq, List.length_drop, List.length_append, List.length_drop, hlen]
  refine ⟨⟨old, hlen, ?_⟩, h.base_le, h.covered_le, ?_⟩
  · simp only [trimHistory_eq]
    conv_lhs => rw [heq]
    rw [List.drop_drop, ← heq]
  · simp only
    omega

theorem Tracks.poll {kind : ReaderKind} {accept : α → Bool} {s : WaitState α} (h : Tracks s) :
    Tracks (pollHistory kind accept s) := by
  have hcovered : (if (examineUntil accept (unread s.history s.index)).2 = none then
      s.arrived.length else s.covered) ≤ s.arrived.length := by
    split_ifs
    · exact Nat.le_refl _
    · exact h.covered_le
  cases kind with
  | cursor => exact ⟨⟨s.history, rfl, by simp [pollHistory]⟩, Nat.le_refl _, hcovered, Nat.zero_le _⟩
  | fixed => exact ⟨h.history, h.base_le, hcovered, h.lost_le⟩

theorem tracks_step {kind : ReaderKind} {accept : α → Bool} {s s' : WaitState α} {e : WaitEvent α}
    (h : Tracks s) (hstep : waitStep kind accept s e = some s') : Tracks s' := by
  cases e with
  | append f =>
      obtain rfl := Option.some.inj hstep
      exact h.append f
  | trim =>
      obtain rfl := Option.some.inj hstep
      exact h.trim
  | poll =>
      rw [waitStep] at hstep
      split_ifs at hstep
      obtain rfl := Option.some.inj hstep
      exact h.poll

/-- In every run the index tells apart what came in since it was taken. -/
theorem tracks_of_reach {kind : ReaderKind} {accept : α → Bool} {guard} {history : List α}
    {s : WaitState α} (h : (waiting kind accept).Reach guard (startWait history) s) : Tracks s :=
  h.invariant (tracks_start history) fun _ _ _ _ ht _ hstep => tracks_step ht hstep

/-! ## Complete readings -/

/-- Every frame that came in before a poll without result has been examined and does not match, a
reply found is a matching frame all of whose predecessors were examined, and no frame from before
the request was examined. -/
structure Complete (accept : α → Bool) (s : WaitState α) : Prop where
  covers : ∀ f ∈ s.arrived.take s.covered, f ∈ s.examined
  only : ∀ f ∈ s.examined, f ∈ s.arrived
  unmatched : s.found = none → ∀ f ∈ s.arrived.take s.covered, accept f = false
  reply : ∀ f, s.found = some f → accept f = true ∧
    ∃ i, s.arrived[i]? = some f ∧ ∀ g ∈ s.arrived.take i, g ∈ s.examined

theorem Complete.append {accept : α → Bool} {s : WaitState α} (ht : Tracks s)
    (h : Complete accept s) (f : α) :
    Complete accept { s with history := s.history ++ [f], arrived := s.arrived ++ [f] } := by
  have htake : (s.arrived ++ [f]).take s.covered = s.arrived.take s.covered :=
    List.take_append_of_le_length ht.covered_le
  refine ⟨?_, ?_, ?_, ?_⟩
  · simpa only [htake] using h.covers
  · exact fun g hg => List.mem_append_left _ (h.only g hg)
  · simpa only [htake] using h.unmatched
  · intro g hg
    obtain ⟨hacc, i, hi, hall⟩ := h.reply g hg
    have hlt : i < s.arrived.length := (List.getElem?_eq_some_iff.mp hi).1
    refine ⟨hacc, i, ?_, ?_⟩
    · rw [List.getElem?_append_left hlt, hi]
    · simpa only [List.take_append_of_le_length hlt.le] using hall

/-- The frames that have come in since the last poll stand behind the index. -/
theorem new_of_reaches {s : WaitState α} (h : IndexReaches s) {f : α}
    (hf : f ∈ s.arrived.drop s.covered) : f ∈ s.arrived.drop (s.base + s.lost) := by
  rcases h with hle | hall
  · rw [← Nat.add_sub_cancel' hle, ← List.drop_drop] at hf
    exact List.mem_of_mem_drop hf
  · rw [hall, List.drop_length] at hf
    cases hf

theorem Complete.poll {kind : ReaderKind} {accept : α → Bool} {s : WaitState α} (ht : Tracks s)
    (h : Complete accept s) (hfound : s.found = none) (hreach : IndexReaches s) :
    Complete accept (pollHistory kind accept s) := by
  have hfields : (pollHistory kind accept s).arrived = s.arrived ∧
      (pollHistory kind accept s).examined =
        s.examined ++ (examineUntil accept (s.arrived.drop (s.base + s.lost))).1 ∧
      (pollHistory kind accept s).found =
        (examineUntil accept (s.arrived.drop (s.base + s.lost))).2 ∧
      (pollHistory kind accept s).covered =
        if (examineUntil accept (s.arrived.drop (s.base + s.lost))).2 = none then
          s.arrived.length else s.covered := by
    rw [← ht.unread_eq]
    cases kind <;> exact ⟨rfl, rfl, rfl, rfl⟩
  obtain ⟨harrived, hexamined, hfound', hcovered⟩ := hfields
  cases hresult : (examineUntil accept (s.arrived.drop (s.base + s.lost))).2 with
  | none =>
      obtain ⟨hall, hnone⟩ := examineUntil_none hresult
      rw [hresult] at hfound'
      rw [hresult, if_pos rfl] at hcovered
      rw [hall] at hexamined
      have hsplit : ∀ f ∈ s.arrived, f ∈ s.arrived.take s.covered ∨
          f ∈ s.arrived.drop (s.base + s.lost) := by
        intro f hf
        rw [← List.take_append_drop s.covered s.arrived] at hf
        exact (List.mem_append.mp hf).imp_right (new_of_reaches hreach)
      constructor
      · intro f hf
        rw [harrived, hcovered, List.take_length] at hf
        rw [hexamined, List.mem_append]
        exact (hsplit f hf).imp_left (h.covers f)
      · intro f hf
        rw [hexamined, List.mem_append] at hf
        rw [harrived]
        exact hf.elim (h.only f) List.mem_of_mem_drop
      · intro _ f hf
        rw [harrived, hcovered, List.take_length] at hf
        exact (hsplit f hf).elim (h.unmatched hfound f) (hnone f)
      · intro f hf
        rw [hfound'] at hf
        cases hf
  | some r =>
      obtain ⟨hacc, i, hi, htake⟩ := examineUntil_some hresult
      rw [hresult] at hfound'
      rw [hresult, if_neg (by simp)] at hcovered
      rw [htake] at hexamined
      constructor
      · intro f hf
        rw [harrived, hcovered] at hf
        rw [hexamined]
        exact List.mem_append_left _ (h.covers f hf)
      · intro f hf
        rw [hexamined, List.mem_append] at hf
        rw [harrived]
        exact hf.elim (h.only f) fun hf => List.mem_of_mem_drop (List.mem_of_mem_take hf)
      · intro hnone
        rw [hfound'] at hnone
        cases hnone
      · intro f hf
        obtain rfl := Option.some.inj (hfound'.symm.trans hf)
        rw [List.getElem?_drop] at hi
        refine ⟨hacc, s.base + s.lost + i, by rw [harrived, hi], ?_⟩
        intro g hg
        rw [harrived] at hg
        rw [hexamined, List.mem_append]
        obtain ⟨j, hj, hget⟩ := List.mem_take_iff_getElem.mp hg
        by_cases hold : j < s.covered
        · left
          apply h.covers
          exact List.mem_take_iff_getElem.mpr ⟨j, by omega, hget⟩
        · right
          have hnew : s.base + s.lost ≤ j := by
            rcases hreach with hle | hall
            · omega
            · omega
          refine List.mem_take_iff_getElem.mpr ⟨j - (s.base + s.lost), ?_, ?_⟩
          · rw [List.length_drop]
            omega
          · rw [List.getElem_drop]
            simpa only [Nat.add_sub_cancel' hnew] using hget

theorem complete_step {kind : ReaderKind} {accept : α → Bool} {s s' : WaitState α} {e : WaitEvent α}
    (ht : Tracks s) (h : Complete accept s) (hguard : PollsReach s e)
    (hstep : waitStep kind accept s e = some s') : Complete accept s' := by
  cases e with
  | append f =>
      obtain rfl := Option.some.inj hstep
      exact h.append ht f
  | trim =>
      obtain rfl := Option.some.inj hstep
      exact ⟨h.covers, h.only, h.unmatched, h.reply⟩
  | poll =>
      rw [waitStep] at hstep
      split_ifs at hstep with hfound
      obtain rfl := Option.some.inj hstep
      exact h.poll ht hfound hguard

/-- A poll in any state sees all frames since the last one exactly when the index reaches. -/
theorem sees_new_iff {s : WaitState α} (h : Tracks s) :
    s.arrived.drop s.covered <:+ unread s.history s.index ↔ IndexReaches s := by
  have hcovered := h.covered_le
  rw [h.unread_eq, IndexReaches]
  constructor
  · intro hsuffix
    have hlen := hsuffix.length_le
    rw [List.length_drop, List.length_drop] at hlen
    omega
  · rintro (hle | hall)
    · rw [← Nat.add_sub_cancel' hle, ← List.drop_drop]
      exact List.drop_suffix _ _
    · rw [hall, List.drop_length]
      exact List.nil_suffix

/-- What holds of a run while history and new frames fit into the limit. -/
structure Roomy (history : List α) (s : WaitState α) : Prop where
  lost : s.lost = 0
  count : s.history.length = history.length + s.arrived.length
  base : s.found = none → s.base ≤ s.covered

theorem roomy_step {kind : ReaderKind} {accept : α → Bool} {history : List α} {s s' : WaitState α}
    {e : WaitEvent α} (ht : Tracks s)
    (h : history.length + s.arrived.length ≤ historyLimit → Roomy history s)
    (hstep : waitStep kind accept s e = some s')
    (hroom : history.length + s'.arrived.length ≤ historyLimit) : Roomy history s' := by
  cases e with
  | append f =>
      obtain rfl := Option.some.inj hstep
      rw [List.length_append] at hroom
      have hold := h (by omega)
      refine ⟨hold.lost, ?_, hold.base⟩
      simp only [List.length_append, hold.count]
      omega
  | trim =>
      obtain rfl := Option.some.inj hstep
      have hold := h hroom
      have hnone : s.history.length - historyLimit = 0 := by
        rw [hold.count]
        exact Nat.sub_eq_zero_of_le hroom
      refine ⟨?_, ?_, hold.base⟩
      · simp only [hold.lost, hnone]
      · change (trimHistory s.history).length = _
        rw [trimHistory_eq, hnone, List.drop_zero]
        exact hold.count
  | poll =>
      rw [waitStep] at hstep
      split_ifs at hstep with hfound
      obtain rfl := Option.some.inj hstep
      cases kind with
      | cursor =>
          have hold := h hroom
          exact ⟨rfl, hold.count, fun hnone => (if_pos hnone).ge⟩
      | fixed =>
          have hold := h hroom
          exact ⟨hold.lost, hold.count, fun hnone => ht.base_le.trans (if_pos hnone).ge⟩

/-- As long as history and new frames fit into the limit, the index reaches. -/
theorem reaches_of_room {kind : ReaderKind} {accept : α → Bool} {guard} {history : List α}
    {s : WaitState α} (h : (waiting kind accept).Reach guard (startWait history) s)
    (hroom : history.length + s.arrived.length ≤ historyLimit) (hfound : s.found = none) :
    IndexReaches s := by
  have hroomy : history.length + s.arrived.length ≤ historyLimit → Roomy history s :=
    h.invariant (fun _ => ⟨rfl, rfl, fun _ => Nat.le_refl _⟩)
      fun _ _ _ hs hold _ hstep => roomy_step (tracks_of_reach hs) hold hstep
  obtain ⟨hlost, _, hbase⟩ := hroomy hroom
  left
  rw [hlost]
  exact hbase hfound

/-- A waiting reader whose index reaches at every poll misses no frame and no reply, whatever the
history held before; the index fails to reach exactly where a poll leaves out a new frame. -/
theorem reader_misses_nothing (kind : ReaderKind) (accept : α → Bool) (history : List α) :
    (∀ s, (waiting kind accept).Reach PollsReach (startWait history) s → Complete accept s) ∧
      ∀ s, (waiting kind accept).Reachable (startWait history) s →
        (s.arrived.drop s.covered <:+ unread s.history s.index ↔ IndexReaches s) := by
  constructor
  · intro s h
    refine h.invariant ⟨by simp [startWait], by simp [startWait], by simp [startWait], ?_⟩ ?_
    · intro f hf
      cases hf
    · intro s e s' hs hc hguard hstep
      exact complete_step (tracks_of_reach hs) hc hguard hstep
  · intro s h
    exact sees_new_iff (tracks_of_reach h)

end Reader

/-- A full history, the reply that comes in after the request, and the poll after the trimming. -/
def fullHistory : List Bytes := List.replicate historyLimit resetFrame

def replyAppended : WaitState Bytes :=
  { startWait fullHistory with history := fullHistory ++ [resetFrame], arrived := [resetFrame] }

def replyTrimmed : WaitState Bytes :=
  { replyAppended with
    history := trimHistory (fullHistory ++ [resetFrame])
    lost := (fullHistory ++ [resetFrame]).length - historyLimit }

attribute [local irreducible] historyLimit in
theorem replyTrimmed_reached (kind : ReaderKind) (accept : Bytes → Bool) :
    (waiting kind accept).Reachable (startWait fullHistory) replyTrimmed := by
  refine .step (.step .start trivial (e := .append resetFrame) rfl) trivial (e := .trim) ?_
  change some _ = some _
  rw [replyTrimmed, replyAppended, startWait, Nat.zero_add]
  rfl

theorem reply_in_full_history_missed :
    ¬ ∀ (kind : ReaderKind) (accept : Bytes → Bool) (history : List Bytes) (s : WaitState Bytes),
      (waiting kind accept).Reachable (startWait history) s → s.arrived.length < 1000 →
        Complete accept s := by
  intro hall
  have ht := tracks_of_reach (replyTrimmed_reached .cursor fun _ => true)
  have hlost : replyTrimmed.lost = 1 := by
    have hcount : fullHistory.length = historyLimit := List.length_replicate
    change (fullHistory ++ [resetFrame]).length - historyLimit = 1
    rw [List.length_append, hcount, Nat.add_sub_cancel_left]
    rfl
  have hnothing : unread replyTrimmed.history replyTrimmed.index = [] := by
    rw [ht.unread_eq, hlost]
    rfl
  have hcomplete := hall .cursor (fun _ => true) fullHistory
    (pollHistory .cursor (fun _ => true) replyTrimmed)
    (.step (replyTrimmed_reached .cursor _) trivial (e := .poll) rfl) (by decide)
  have hcovers := hcomplete.covers resetFrame
  rw [pollHistory, hnothing] at hcovers
  exact absurd (hcovers (by decide)) (by decide)

/-- A reply that comes in after one old frame is found. -/
theorem reply_after_one_frame_found :
    Complete (fun f => f = resetFrame) (pollHistory .fixed (fun f => f = resetFrame)
      { startWait [[]] with history := [[], resetFrame], arrived := [resetFrame] }) := by
  refine (reader_misses_nothing .fixed (fun f : Bytes => f = resetFrame) [[]]).1 _ ?_
  refine .step (.step .start trivial (e := .append resetFrame) rfl) ?_ (e := .poll) rfl
  exact Or.inl (by decide)

end HplcWorkbench.SerialIO
