import HplcWorkbench.ScanFrame

/-!
# The receive loop of the serial channel

The read thread appends what one `read` returns, takes frames while the scanner finds one,
records each in the bounded history and in the queue, and drops the consumed prefix. The reply
that the automatic responder may send does not touch this state.

The queue holds the frames that the scanner cuts from the whole stream, whatever the reads
were, and the history holds the last thousand of them.
-/

namespace HplcWorkbench.SerialIO
open StreamCutting FrameCodec

structure RxState where
  buf : Bytes := []
  rxHistory : List Bytes := []
  rxQueue : List Bytes := []
  deriving DecidableEq, Repr

/-- The bound of `_rx_history`. -/
def historyLimit : ℕ := 1000

/-- `del history[: len(history) - 1000]` when the history is too long. -/
def trimHistory {α : Type*} (history : List α) : List α :=
  if history.length > historyLimit then history.drop (history.length - historyLimit) else history

/-- One extracted frame: history, trimming, queue, consumed prefix. -/
def takeFrame (s : RxState) (frame : Bytes) (consumed : ℕ) : RxState where
  buf := s.buf.drop consumed
  rxHistory := trimHistory (s.rxHistory ++ [frame])
  rxQueue := s.rxQueue ++ [frame]

/-- The inner `while True`; the length of the buffer bounds its rounds. -/
def takeFrames : ℕ → RxState → RxState
  | 0, s => s
  | fuel + 1, s =>
    match scanFrame s.buf with
    | none => s
    | some (frame, consumed) => takeFrames fuel (takeFrame s frame consumed)

/-- What one `read` adds. -/
def readChunk (s : RxState) (data : Bytes) : RxState :=
  if data = [] then s
  else
    let s := { s with buf := s.buf ++ data }
    takeFrames (s.buf.length + 1) s

/-- `_run` over the successive results of `read`. -/
def run (chunks : List Bytes) : RxState := chunks.foldl readChunk {}

/-- Recording a list of frames one by one. -/
def recordAll (history : List Bytes) (frames : List Bytes) : List Bytes :=
  frames.foldl (fun h f => trimHistory (h ++ [f])) history

theorem recordAll_append (history fs gs : List Bytes) :
    recordAll history (fs ++ gs) = recordAll (recordAll history fs) gs := List.foldl_append

theorem takeFrames_eq (fuel o : ℕ) (s : RxState) :
    takeFrames fuel s =
      let r := scanner.drainFuel fuel o s.buf
      { buf := r.2
        rxHistory := recordAll s.rxHistory (r.1.map Prod.snd)
        rxQueue := s.rxQueue ++ r.1.map Prod.snd } := by
  induction fuel generalizing o s with
  | zero => simp [takeFrames, Cutter.drainFuel, recordAll]
  | succ fuel ih =>
      cases hc : scanFrame s.buf with
      | none =>
          have hcut : scanner.cut s.buf = none := hc
          simp [takeFrames, Cutter.drainFuel, hc, hcut, recordAll]
      | some p =>
          obtain ⟨f, k⟩ := p
          have hcut : scanner.cut s.buf = some (f, k) := hc
          simp only [takeFrames, hc, ih (o + k)]
          simp [Cutter.drainFuel, hcut, takeFrame, recordAll]

theorem readChunk_eq (o : ℕ) (s : RxState) (data : Bytes) (hs : scanFrame s.buf = none) :
    readChunk s data =
      let r := scanner.drainAt o (s.buf ++ data)
      { buf := r.2
        rxHistory := recordAll s.rxHistory (r.1.map Prod.snd)
        rxQueue := s.rxQueue ++ r.1.map Prod.snd } := by
  by_cases hd : data = []
  · have hcut : scanner.cut s.buf = none := hs
    rw [readChunk, if_pos hd, hd, List.append_nil, scanner.drainAt_none hcut]
    simp [recordAll]
  · rw [readChunk, if_neg hd]
    exact takeFrames_eq _ o { s with buf := s.buf ++ data }

/-- The frames that reading `chunks` from the start delivers, each with the position in the
stream where its first byte stands. -/
def deliveries (chunks : List Bytes) : List (ℕ × Bytes) := (scanner.receive 0 [] chunks).1

theorem deliveries_eq (chunks : List Bytes) :
    deliveries chunks = (scanner.drainAt 0 chunks.flatten).1 := by
  rw [deliveries, scanner.receive_eq_drainAt 0 [] chunks rfl, List.nil_append]

theorem foldl_readChunk (o : ℕ) (s : RxState) (chunks : List Bytes)
    (hs : scanFrame s.buf = none) :
    chunks.foldl readChunk s =
      let r := scanner.receive o s.buf chunks
      { buf := r.2
        rxHistory := recordAll s.rxHistory (r.1.map Prod.snd)
        rxQueue := s.rxQueue ++ r.1.map Prod.snd } := by
  induction chunks generalizing o s with
  | nil => simp [Cutter.receive, recordAll]
  | cons chunk chunks ih =>
      have hrest := (scanner.drainAt_rest o (s.buf ++ chunk)).1
      have hbuf : scanFrame (readChunk s chunk).buf = none := by
        rw [readChunk_eq o s chunk hs]
        exact hrest
      rw [List.foldl_cons, ih (o + ((s.buf ++ chunk).length -
        (scanner.drainAt o (s.buf ++ chunk)).2.length)) (readChunk s chunk) hbuf,
        readChunk_eq o s chunk hs]
      simp only [Cutter.receive, List.map_append, recordAll_append, List.append_assoc]

/-- The state of the loop after any reads, as a function of the stream. -/
theorem run_eq (chunks : List Bytes) :
    run chunks =
      { buf := (scanner.drainAt 0 chunks.flatten).2
        rxHistory := recordAll [] ((deliveries chunks).map Prod.snd)
        rxQueue := (deliveries chunks).map Prod.snd } := by
  have hrun := foldl_readChunk 0 {} chunks rfl
  rw [run, hrun, deliveries, scanner.receive_eq_drainAt 0 [] chunks rfl]
  simp

theorem trimHistory_eq {α : Type*} (history : List α) :
    trimHistory history = history.drop (history.length - historyLimit) := by
  rw [trimHistory]
  split_ifs with hlong
  · rfl
  · rw [Nat.sub_eq_zero_of_le (not_lt.mp hlong)]
    rfl

/-- Trimming after every record keeps the last frames. -/
theorem recordAll_eq (history frames : List Bytes) (h : history.length ≤ historyLimit) :
    recordAll history frames =
      (history ++ frames).drop ((history ++ frames).length - historyLimit) := by
  induction frames generalizing history with
  | nil =>
      rw [List.append_nil, Nat.sub_eq_zero_of_le h]
      rfl
  | cons f fs ih =>
      have htrim := trimHistory_eq (history ++ [f])
      have hlen : (trimHistory (history ++ [f])).length ≤ historyLimit := by
        rw [htrim, List.length_drop]
        omega
      have hcons : recordAll history (f :: fs) = recordAll (trimHistory (history ++ [f])) fs :=
        List.foldl_cons ..
      rw [hcons, ih _ hlen, htrim]
      have hsplit : history ++ f :: fs = (history ++ [f]) ++ fs := by simp
      have hle : (history ++ [f]).length - historyLimit ≤ (history ++ [f]).length := Nat.sub_le _ _
      have hcount : (history ++ [f]).length - historyLimit +
          (((history ++ [f] ++ fs).drop ((history ++ [f]).length - historyLimit)).length -
            historyLimit) = (history ++ [f] ++ fs).length - historyLimit := by
        rw [List.length_drop, @List.length_append _ (history ++ [f]) fs]
        omega
      rw [hsplit, ← List.drop_append_of_le_length hle, List.drop_drop, hcount]

/-- The history is the end of the queue's content, never longer than its limit. -/
theorem run_history (chunks : List Bytes) :
    (run chunks).rxHistory =
      (run chunks).rxQueue.drop ((run chunks).rxQueue.length - historyLimit) := by
  rw [run_eq]
  exact recordAll_eq [] _ (Nat.zero_le _)

/-- However the operating system chops the stream, the loop extracts the same frames in the
same order as from one read of the whole stream. They are valid frames and lie in the stream
one after the other. -/
theorem run_chunking_independent (chunks : List Bytes) :
    (run chunks).rxQueue = (run [chunks.flatten]).rxQueue ∧
      (run chunks).rxQueue = (deliveries chunks).map Prod.snd ∧
      Cutter.Tiled 0 chunks.flatten (deliveries chunks) ∧
      ∀ f ∈ (run chunks).rxQueue, ValidFrame f := by
  refine ⟨?_, ?_, ?_, ?_⟩
  · rw [run_eq, run_eq, deliveries_eq, deliveries_eq]
    simp
  · rw [run_eq]
  · rw [deliveries_eq]
    exact scanner.drainAt_tiled 0 _
  · intro f hf
    rw [run_eq, deliveries_eq] at hf
    obtain ⟨p, hp, rfl⟩ := List.mem_map.mp hf
    exact scanner.drainAt_forall scanner_valid 0 _ p hp

/-! ## Frames after noise -/

/-- No complete valid frame lies inside the bytes `g`. -/
def NoFrameInside (g : Bytes) : Prop :=
  ∀ before f after, g = before ++ f ++ after → ¬ ValidFrame f

/-- Each frame sent after the noise is delivered by the time its last byte has arrived, however
the bytes up to there were chopped. -/
def DeliversInTime (g : Bytes) (frames : List Bytes) : Prop :=
  ∀ before f after, frames = before ++ f :: after →
    ∀ chunks : List Bytes, chunks.flatten = g ++ before.flatten ++ f →
      ((g ++ before.flatten).length, f) ∈ deliveries chunks

/-- Every `0x68` of the noise, read as a head on the noise followed by the frame `f`, is seen
to be false: its length is below 10, or ends within these bytes on something that is no frame. -/
def FalseHeadsRejected (g f : Bytes) : Prop :=
  ∀ i < g.length, byteAt g i = 0x68 → judgeHead ((g ++ f).drop i) = .skip

theorem scanFrom_skips {g f : Bytes} (i : ℕ)
    (h : ∀ j < g.length, byteAt g j = 0x68 → judgeHead ((g ++ f).drop j) = .skip) :
    scanFrom i (g ++ f) = scanFrom (i + g.length) f := by
  induction g generalizing i with
  | nil => rfl
  | cons x rest ih =>
      have hrest : scanFrom (i + 1) (rest ++ f) = scanFrom (i + (x :: rest).length) f := by
        rw [ih (i + 1) (fun j hj hb => h (j + 1) (by simpa using hj) (by simpa [byteAt] using hb))]
        congr 1
        rw [List.length_cons]
        omega
      rw [List.cons_append, scanFrom]
      by_cases hx : x ≠ 0x68
      · rw [if_pos hx, hrest]
      · have hskip := h 0 (by simp) (by simpa [byteAt] using hx)
        rw [List.drop_zero, List.cons_append] at hskip
        rw [if_neg hx, hskip]
        exact hrest

/-- A position of the noise that the scanner does not skip stops it or makes it cut there. -/
theorem scanFrom_stops {g f : Bytes} (i : ℕ)
    (h : ¬ ∀ j < g.length, byteAt g j = 0x68 → judgeHead ((g ++ f).drop j) = .skip) :
    scanFrom i (g ++ f) = none ∨
      ∃ j c, j < g.length ∧ scanFrom i (g ++ f) = some (c, i + j + c.length) ∧ ValidFrame c ∧
        c = ((g ++ f).drop j).take c.length ∧ j + c.length ≤ (g ++ f).length := by
  induction g generalizing i with
  | nil => exact absurd (fun j hj => absurd hj (Nat.not_lt_zero j)) h
  | cons x rest ih =>
      have hstep : (¬ ∀ j < rest.length, byteAt rest j = 0x68 →
          judgeHead ((rest ++ f).drop j) = .skip) →
          scanFrom i (x :: rest ++ f) = scanFrom (i + 1) (rest ++ f) →
          scanFrom i (x :: rest ++ f) = none ∨
            ∃ j c, j < (x :: rest).length ∧
              scanFrom i (x :: rest ++ f) = some (c, i + j + c.length) ∧ ValidFrame c ∧
              c = ((x :: rest ++ f).drop j).take c.length ∧
              j + c.length ≤ (x :: rest ++ f).length := by
        intro hrest heq
        rcases ih (i + 1) hrest with hnone | ⟨j, c, hj, hc, hv, ht, hl⟩
        · exact Or.inl (heq.trans hnone)
        · refine Or.inr ⟨j + 1, c, by simpa using hj, ?_, hv, ht, ?_⟩
          · rw [heq, hc]
            congr 2
            omega
          · rw [List.cons_append, List.length_cons]
            omega
      by_cases hx : x ≠ 0x68
      · refine hstep (fun hall => h ?_) (by rw [List.cons_append, scanFrom, if_pos hx])
        intro j hj hb
        cases j with
        | zero => exact absurd (by simpa [byteAt] using hb) hx
        | succ j => exact hall j (by simpa using hj) (by simpa [byteAt] using hb)
      · cases hjudge : judgeHead (x :: rest ++ f) with
        | wait =>
            rw [List.cons_append] at hjudge
            exact Or.inl (by rw [List.cons_append, scanFrom, if_neg hx, hjudge])
        | skip =>
            refine hstep (fun hall => h ?_) ?_
            · intro j hj hb
              cases j with
              | zero => exact hjudge
              | succ j => exact hall j (by simpa using hj) (by simpa [byteAt] using hb)
            · rw [List.cons_append] at hjudge
              rw [List.cons_append, scanFrom, if_neg hx, hjudge]
        | frame c =>
            have hhead : byteAt (x :: rest ++ f) 0 = 0x68 := by simpa [byteAt] using hx
            obtain ⟨hv, ht, hl⟩ := judgeHead_frame hjudge hhead
            refine Or.inr ⟨0, c, by simp, ?_, hv, ht, by omega⟩
            rw [List.cons_append] at hjudge ⊢
            simp only [scanFrom, if_neg hx, hjudge, Nat.add_zero]

/-- Valid frames that follow an empty buffer are delivered one by one. -/
theorem drainAt_frames (o : ℕ) (frames : List Bytes) (t : Bytes)
    (hv : ∀ f ∈ frames, ValidFrame f) (before : List Bytes) (f : Bytes) (after : List Bytes)
    (hsplit : frames = before ++ f :: after) :
    (o + before.flatten.length, f) ∈ (scanner.drainAt o (frames.flatten ++ t)).1 := by
  induction before generalizing o frames with
  | nil =>
      subst hsplit
      have hf : ValidFrame f := hv f (by simp)
      have hcut : scanner.cut (([] ++ f :: after).flatten ++ t) = some (f, f.length) := by
        rw [List.nil_append, List.flatten_cons, List.append_assoc]
        exact scanFrame_valid hf _
      rw [scanner.drainAt_some hcut]
      simp
  | cons b before ih =>
      subst hsplit
      have hb : ValidFrame b := hv b (by simp)
      have hflat : (b :: before ++ f :: after).flatten ++ t =
          b ++ ((before ++ f :: after).flatten ++ t) := by simp
      have hcut : scanner.cut ((b :: before ++ f :: after).flatten ++ t) = some (b, b.length) := by
        rw [hflat]
        exact scanFrame_valid hb _
      have hrest := ih (o + b.length) (before ++ f :: after)
        (fun f' hf' => hv f' (by simp at hf' ⊢; tauto)) rfl
      rw [scanner.drainAt_some hcut]
      apply List.mem_cons_of_mem
      rw [hflat, List.drop_left]
      have hoff : o + (b :: before).flatten.length = o + b.length + before.flatten.length := by
        rw [List.flatten_cons, List.length_append, Nat.add_assoc]
      rw [hoff]
      exact hrest

theorem deliversInTime_of_rejected {g : Bytes} {frames : List Bytes}
    (hv : ∀ f ∈ frames, ValidFrame f)
    (hrej : ∀ f ∈ frames.head?, FalseHeadsRejected g f) : DeliversInTime g frames := by
  intro before f after hsplit chunks hchunks
  obtain ⟨f₁, rest, hfirst⟩ : ∃ f₁ rest, before ++ [f] = f₁ :: rest := by
    cases before with
    | nil => exact ⟨f, [], rfl⟩
    | cons b before => exact ⟨b, before ++ [f], rfl⟩
  have hhead : f₁ ∈ frames.head? := by
    rw [hsplit, show before ++ f :: after = before ++ [f] ++ after by simp, hfirst]
    rfl
  have hvalid : ∀ f' ∈ before ++ [f], ValidFrame f' := by
    intro f' hf'
    apply hv
    rw [hsplit]
    simp only [List.mem_append, List.mem_cons] at hf' ⊢
    tauto
  have hf₁ : ValidFrame f₁ := hvalid f₁ (by rw [hfirst]; simp)
  have hstream : chunks.flatten = g ++ (f₁ ++ rest.flatten) := by
    rw [hchunks, List.append_assoc, ← List.flatten_cons, ← hfirst]
    simp
  -- the noise is skipped, so the scan continues at the first frame
  have hskip : ∀ j < g.length, byteAt g j = 0x68 →
      judgeHead ((g ++ (f₁ ++ rest.flatten)).drop j) = .skip := by
    intro j hj hb
    have hjudge := hrej f₁ hhead j hj hb
    rw [← List.append_assoc, List.drop_append_of_le_length (by rw [List.length_append]; omega),
      judgeHead_stable (by rw [hjudge]; exact HeadVerdict.noConfusion), hjudge]
  have hscan : scanner.cut (g ++ (f₁ ++ rest.flatten)) = some (f₁, g.length + f₁.length) := by
    have hat := scanFrame_valid hf₁ rest.flatten
    obtain ⟨x, more, hcons⟩ := List.exists_cons_of_ne_nil hf₁.ne_nil
    change scanFrom 0 _ = _
    rw [scanFrom_skips 0 hskip]
    have hx : ¬ x ≠ 0x68 := by
      have hh := hf₁.head
      rw [hcons] at hh
      exact not_ne_iff.mpr hh
    have hj := hf₁.judgeHead_append rest.flatten
    rw [hcons, List.cons_append] at hj ⊢
    rw [scanFrom, if_neg hx, hj, Nat.zero_add]
  have hpos := drainAt_frames g.length (before ++ [f]) [] hvalid before f [] rfl
  rw [deliveries_eq, hstream, scanner.drainAt_some hscan]
  have hall : scanner.drainAt g.length ((before ++ [f]).flatten ++ []) =
      ((g.length, f₁) :: (scanner.drainAt (g.length + f₁.length) rest.flatten).1,
        (scanner.drainAt (g.length + f₁.length) rest.flatten).2) := by
    have hcut : scanner.cut (f₁ ++ rest.flatten) = some (f₁, f₁.length) :=
      scanFrame_valid hf₁ rest.flatten
    rw [List.append_nil, hfirst, List.flatten_cons, scanner.drainAt_some hcut, List.drop_left,
      Nat.add_sub_cancel]
  rw [hall] at hpos
  have hdrop : (g ++ (f₁ ++ rest.flatten)).drop (g.length + f₁.length) = rest.flatten := by
    rw [← List.append_assoc, ← List.length_append, List.drop_left]
  rw [hdrop, Nat.zero_add, Nat.add_sub_cancel, List.length_append]
  exact hpos

/-- A false head that is not rejected keeps the first frame from being delivered. -/
theorem not_delivered_of_not_rejected {g f : Bytes} (hg : NoFrameInside g)
    (h : ¬ FalseHeadsRejected g f) : (g.length, f) ∉ deliveries [g ++ f] := by
  rw [deliveries_eq, List.flatten_singleton]
  rcases scanFrom_stops 0 h with hnone | ⟨j, c, hj, hc, hv, ht, hl⟩
  · have hcut : scanner.cut (g ++ f) = none := hnone
    rw [scanner.drainAt_none hcut]
    simp
  · rw [Nat.zero_add] at hc
    have hcut : scanner.cut (g ++ f) = some (c, j + c.length) := hc
    have hover : g.length < j + c.length := by
      by_contra hle
      refine hg (g.take j) c (g.drop (j + c.length)) ?_ hv
      have hin : c = (g.drop j).take c.length := by
        rw [List.drop_append_of_le_length hj.le, List.take_append_of_le_length] at ht
        · exact ht
        · rw [List.length_drop]
          omega
      conv_lhs => rw [← List.take_append_drop j g, ← List.take_append_drop c.length (g.drop j)]
      rw [← hin, List.drop_drop, List.append_assoc]
    rw [scanner.drainAt_some hcut, List.mem_cons]
    rintro (heq | hmem)
    · have hpos := congrArg Prod.fst heq
      simp only at hpos
      omega
    · have hle := scanner.drainAt_start_le _ _ _ hmem
      simp only at hle
      omega

/-- Frames after noise are all delivered in time exactly when the noise holds no head whose
decision needs more than the noise and the first frame, or that swallows part of this frame. -/
theorem deliversInTime_iff (g : Bytes) (frames : List Bytes) (hg : NoFrameInside g)
    (hv : ∀ f ∈ frames, ValidFrame f) :
    DeliversInTime g frames ↔ ∀ f ∈ frames.head?, FalseHeadsRejected g f := by
  constructor
  · intro hdel f hf
    by_contra hrej
    obtain ⟨rest, hrest⟩ : ∃ rest, frames = f :: rest := by
      cases frames with
      | nil => cases hf
      | cons a rest => exact ⟨rest, by rw [Option.mem_some_iff.mp hf]⟩
    have hone := hdel [] f rest hrest [g ++ f] (by simp)
    rw [List.flatten_nil, List.append_nil] at hone
    exact not_delivered_of_not_rejected hg hrej hone
  · exact deliversInTime_of_rejected hv

/-- The frame `build_frame(afn=0x01, fn=1, info={"seq": 1})`. -/
def resetFrame : Bytes :=
  [0x68, 0x0F, 0x00, 0x43, 0, 0, 0, 0, 0, 1, 0x01, 0x01, 0x00, 0x46, 0x16]

theorem resetFrame_valid : ValidFrame resetFrame := by decide

theorem noFrameInside_of_short {g : Bytes} (h : g.length < 10) : NoFrameInside g := by
  intro before f after hsplit hv
  have hlen := congrArg List.length hsplit
  have hlong := hv.long
  simp only [List.length_append] at hlen
  omega

/-- Three noise bytes that announce a frame of 65535 bytes hold back the complete valid frame
behind them. -/
theorem noise_head_blocks_frame :
    ¬ ∀ (g : Bytes) (frames : List Bytes), NoFrameInside g → (∀ f ∈ frames, ValidFrame f) →
      DeliversInTime g frames := by
  intro hall
  have hdel := hall [0x68, 0xFF, 0xFF] [resetFrame] (noFrameInside_of_short (by decide))
    (by simpa using resetFrame_valid) [] resetFrame [] rfl [[0x68, 0xFF, 0xFF] ++ resetFrame]
    (by simp)
  have hnone : scanner.cut ([0x68, 0xFF, 0xFF] ++ resetFrame) = none := by decide
  rw [deliveries_eq, List.flatten_singleton, scanner.drainAt_none hnone] at hdel
  cases hdel

theorem frame_after_plain_noise :
    DeliversInTime [0xAA, 0xBB] [resetFrame] ↔
      ∀ f ∈ [resetFrame].head?, FalseHeadsRejected [0xAA, 0xBB] f :=
  deliversInTime_iff [0xAA, 0xBB] [resetFrame] (noFrameInside_of_short (by decide))
    (by simpa using resetFrame_valid)

end HplcWorkbench.SerialIO
