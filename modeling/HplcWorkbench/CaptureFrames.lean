import HplcWorkbench.Bytes
import HplcWorkbench.FlagPairing
import Mathlib.Data.List.Chain

/-!
# Frames cut from the listener's byte stream

The capture frames stand between flags and have flags and escapes stuffed. The buffer keeps what
follows an open flag, so the chunks in which a stream arrives make no difference. A stream that is
entered inside a frame is cut right unless noise follows the end of that frame.
-/

namespace HplcWorkbench.SerialCapture

open FlagPairing (Framed Opened Recovers frame stream)

/-! ## Cutting a buffer -/

/-- `_FLAG`. -/
def flag : Byte := 0x7E

/-- `_ESC`. -/
def esc : Byte := 0x7D

/-- The scan of `split_7e_frames`: the frames, and what follows a flag that is open. -/
def scan : Option Bytes → Bytes → List Bytes × Option Bytes
  | opened, [] => ([], opened)
  | opened, [b] =>
    ((FlagPairing.step flag 2 opened b).1.toList, (FlagPairing.step flag 2 opened b).2)
  | opened, b :: c :: rest =>
    if b = esc ∧ (c = flag ∨ c = esc) then scan (opened.map (· ++ [b, c])) rest
    else
      ((FlagPairing.step flag 2 opened b).1.toList ++
        (scan (FlagPairing.step flag 2 opened b).2 (c :: rest)).1,
        (scan (FlagPairing.step flag 2 opened b).2 (c :: rest)).2)

/-- `split_7e_frames`. -/
def split7eFrames (data : Bytes) : List Bytes × Bytes :=
  ((scan none data).1,
    match (scan none data).2 with
    | some opened => opened
    | none => if data.getLast? = some flag ∧ (scan none data).1 = [] then [flag] else [])

/-- What `_on_chunk` changes; `ingested` lists the frames handed to `_ingest_batch`. -/
structure Capture where
  buffer : Bytes := []
  ingested : List Bytes := []
  deriving DecidableEq, Repr

def onChunk (s : Capture) (chunk : Bytes) : Capture where
  buffer := (split7eFrames (s.buffer ++ chunk)).2
  ingested := s.ingested ++ (split7eFrames (s.buffer ++ chunk)).1

/-! ## Streams of capture frames -/

/-- The body of a frame on the line. -/
def escape (payload : Bytes) : Bytes :=
  payload.flatMap fun b =>
    if b = flag then [esc, 0x5E] else if b = esc then [esc, 0x5D] else [b]

/-- Noise and payloads as they come on the line. -/
def onLine (parts : List (Bytes × Bytes)) : List (Bytes × Bytes) :=
  parts.map fun p => (p.1, escape p.2)

/-- A stream: maybe the tail of a frame, then frames with noise around them. -/
structure Delivered (cut : Bytes) (parts : List (Bytes × Bytes)) (last : Bytes) : Prop where
  tail : ∃ payload, cut <:+ escape payload ++ [flag]
  noise : ∀ p ∈ parts, flag ∉ p.1 ∧ esc ∉ p.1
  long : ∀ p ∈ parts, 2 ≤ (escape p.2).length
  last : flag ∉ last ∧ esc ∉ last

def line (cut : Bytes) (parts : List (Bytes × Bytes)) (last : Bytes) : Bytes :=
  cut ++ stream flag (onLine parts) ++ last

/-! ## No escape hides a flag -/

/-- An escape is never in front of a flag or an escape. -/
def Calm (data : Bytes) : Prop := data.IsChain fun a b => ¬ (a = esc ∧ (b = flag ∨ b = esc))

/-- Plain bytes and escapes with the byte they escape. -/
inductive Stuffed : Bytes → Prop
  | nil : Stuffed []
  | plain {b : Byte} {rest : Bytes} : b ≠ esc → Stuffed rest → Stuffed (b :: rest)
  | pair {c : Byte} {rest : Bytes} : c ≠ flag → c ≠ esc → Stuffed rest → Stuffed (esc :: c :: rest)

theorem Stuffed.append {xs ys : Bytes} (hx : Stuffed xs) (hy : Stuffed ys) : Stuffed (xs ++ ys) := by
  induction hx with
  | nil => exact hy
  | plain hb _ ih => exact .plain hb ih
  | pair hflag hesc _ ih => exact .pair hflag hesc ih

theorem stuffed_of_free {xs : Bytes} (h : esc ∉ xs) : Stuffed xs := by
  induction xs with
  | nil => exact .nil
  | cons b rest ih =>
      obtain ⟨hb, hrest⟩ := not_or.mp (List.mem_cons.not.mp h)
      exact .plain (Ne.symm hb) (ih hrest)

theorem stuffed_escape (payload : Bytes) : Stuffed (escape payload) := by
  induction payload with
  | nil => exact .nil
  | cons b rest ih =>
      rw [escape, List.flatMap_cons]
      apply Stuffed.append _ ih
      split
      · exact .pair (by decide) (by decide) .nil
      · split
        · exact .pair (by decide) (by decide) .nil
        · exact .plain (by assumption) .nil

theorem stuffed_flag : Stuffed [flag] := .plain (by decide) .nil

theorem Stuffed.calm {xs : Bytes} (h : Stuffed xs) : Calm xs := by
  induction h with
  | nil => exact List.isChain_nil
  | @plain b rest hb _ ih =>
      cases rest with
      | nil => exact List.isChain_singleton b
      | cons c rest => exact List.isChain_cons_cons.mpr ⟨fun h => hb h.1, ih⟩
  | @pair c rest hflag hesc _ ih =>
      have hc : Calm (c :: rest) := by
        cases rest with
        | nil => exact List.isChain_singleton c
        | cons d rest => exact List.isChain_cons_cons.mpr ⟨fun h => hesc h.1, ih⟩
      exact List.isChain_cons_cons.mpr ⟨fun h => h.2.elim hflag hesc, hc⟩

theorem flag_notMem_escape (payload : Bytes) : flag ∉ escape payload := by
  intro hmem
  obtain ⟨b, -, hb⟩ := List.mem_flatMap.mp hmem
  split at hb
  · revert hb
    decide
  · split at hb
    · revert hb
      decide
    · exact absurd (List.mem_singleton.mp hb).symm (by assumption)

theorem scan_calm {data : Bytes} (h : Calm data) (opened : Option Bytes) :
    scan opened data = FlagPairing.run flag 2 opened data := by
  induction data generalizing opened with
  | nil => rfl
  | cons b rest ih =>
      cases rest with
      | nil => rw [scan, FlagPairing.run, FlagPairing.run, List.append_nil]
      | cons c rest =>
          obtain ⟨hbc, hrest⟩ := List.isChain_cons_cons.mp h
          rw [scan, if_neg hbc, ih hrest]
          rfl

theorem Delivered.stuffed {cut last : Bytes} {parts : List (Bytes × Bytes)}
    (h : Delivered cut parts last) : Stuffed (stream flag (onLine parts) ++ last) := by
  apply Stuffed.append _ (stuffed_of_free h.last.2)
  have hnoise := h.noise
  clear h
  induction parts with
  | nil => exact .nil
  | cons p rest ih =>
      obtain ⟨hp, hrest⟩ := List.forall_mem_cons.mp hnoise
      change Stuffed ((p.1 ++ ([flag] ++ escape p.2 ++ [flag])) ++ stream flag (onLine rest))
      have hframe := (stuffed_flag.append (stuffed_escape p.2)).append stuffed_flag
      exact ((stuffed_of_free hp.2).append hframe).append (ih hrest)

theorem Delivered.calm {cut last : Bytes} {parts : List (Bytes × Bytes)}
    (h : Delivered cut parts last) : Calm (line cut parts last) := by
  obtain ⟨payload, before, hcut⟩ := h.tail
  have hwhole := (((stuffed_escape payload).append stuffed_flag).append h.stuffed).calm
  rw [← hcut] at hwhole
  apply List.IsChain.suffix hwhole
  exact ⟨before, by simp only [line, List.append_assoc]⟩

/-! ## Chunks -/

/-- The buffer holds what is open, and the frames of a chunk are those that it closes. -/
theorem onChunk_calm {s : Capture} {opened : Option Bytes} {chunk : Bytes}
    (hbuffer : s.buffer = opened.getD []) (hopened : Opened flag opened)
    (hcalm : Calm (s.buffer ++ chunk)) :
    onChunk s chunk =
      ⟨(FlagPairing.run flag 2 opened chunk).2.getD [],
        s.ingested ++ (FlagPairing.run flag 2 opened chunk).1⟩ := by
  have hscan : scan none (s.buffer ++ chunk) = FlagPairing.run flag 2 opened chunk := by
    rw [scan_calm hcalm, hbuffer, FlagPairing.run_append, hopened.reread]
    rfl
  unfold onChunk split7eFrames
  rw [hscan]
  cases hrun : (FlagPairing.run flag 2 opened chunk).2 with
  | some content => rfl
  | none =>
      rw [if_neg]
      · rfl
      · rintro ⟨hlast, hnoframe⟩
        obtain hclosed | hopen :=
          FlagPairing.closed_or_open_of_getLast hlast
        · rw [← scan_calm hcalm, hscan] at hclosed
          exact hclosed hnoframe
        · rw [← scan_calm hcalm, hscan] at hopen
          exact hopen hrun

theorem foldl_onChunk {s : Capture} {opened : Option Bytes} (chunks : List Bytes)
    (hbuffer : s.buffer = opened.getD []) (hopened : Opened flag opened)
    (hcalm : Calm (s.buffer ++ chunks.flatten)) :
    (chunks.foldl onChunk s).ingested =
      s.ingested ++ (FlagPairing.run flag 2 opened chunks.flatten).1 := by
  induction chunks generalizing s opened with
  | nil => exact (List.append_nil _).symm
  | cons chunk rest ih =>
      rw [List.flatten_cons, ← List.append_assoc] at hcalm
      have hstep := onChunk_calm hbuffer hopened hcalm.left_of_append
      have hsuffix : (FlagPairing.run flag 2 opened chunk).2.getD [] <:+ s.buffer ++ chunk :=
        FlagPairing.run_suffix (hbuffer ▸ List.suffix_refl _) chunk
      have hrest : Calm ((onChunk s chunk).buffer ++ rest.flatten) := by
        rw [hstep]
        obtain ⟨u, hu⟩ := hsuffix
        apply List.IsChain.suffix hcalm
        exact ⟨u, by rw [← hu, List.append_assoc]⟩
      rw [List.foldl_cons, ih (congrArg Capture.buffer hstep) (hopened.run chunk) hrest, hstep, List.flatten_cons,
        FlagPairing.run_append, List.append_assoc]

/-- However the line is cut into chunks, the frames are those that the flags pair up. -/
theorem ingested_eq {cut last : Bytes} {parts : List (Bytes × Bytes)}
    (h : Delivered cut parts last) {chunks : List Bytes} (hline : chunks.flatten = line cut parts last) :
    (chunks.foldl onChunk {}).ingested =
      (FlagPairing.run flag 2 none (line cut parts last)).1 := by
  have hcalm : Calm (({} : Capture).buffer ++ chunks.flatten) := by
    rw [List.nil_append, hline]
    exact h.calm
  have hopened : Opened flag (none : Option Bytes) := by
    rintro _ ⟨⟩
  rw [foldl_onChunk chunks rfl hopened hcalm, hline]
  rfl

theorem Delivered.framed {cut last : Bytes} {parts : List (Bytes × Bytes)}
    (h : Delivered cut parts last) : Framed flag 2 (onLine parts) := by
  intro q hq
  obtain ⟨p, hp, rfl⟩ := List.mem_map.mp hq
  exact ⟨(h.noise p hp).1, flag_notMem_escape p.2, h.long p hp⟩

/-- The frames of the stream are ingested exactly if it does not begin inside a frame, or if after
the end of that frame the noise is short before it differs from the frame behind it. -/
theorem ingested_iff (cut last : Bytes) (parts : List (Bytes × Bytes)) (chunks : List Bytes)
    (h : Delivered cut parts last) (hline : chunks.flatten = line cut parts last) :
    (chunks.foldl onChunk {}).ingested = parts.map (fun p => frame flag (escape p.2)) ↔
      cut = [] ∨ Recovers 2 (onLine parts) := by
  have hframes : (onLine parts).map (fun p => frame flag p.2) =
      parts.map fun p => frame flag (escape p.2) := List.map_map
  obtain ⟨payload, hcut⟩ := h.tail
  rw [ingested_eq h hline, line, ← hframes, FlagPairing.run_append, FlagPairing.run_free h.last.1,
    List.append_nil, FlagPairing.run_append]
  obtain rfl | ⟨u, rfl, hu⟩ := List.suffix_concat_iff.mp hcut
  · rw [FlagPairing.run, FlagPairing.run_stream h.framed]
    exact ⟨fun _ => .inl rfl, fun _ => rfl⟩
  · have hfree : flag ∉ u := fun hmem => flag_notMem_escape payload (hu.subset hmem)
    have hopen : FlagPairing.run flag 2 none (u ++ [flag]) = ([], some [flag]) := by
      rw [FlagPairing.run_append, FlagPairing.run_free hfree, Option.map_none,
        FlagPairing.run_flag_none]
      rfl
    rw [hopen, List.nil_append, FlagPairing.shifted_eq_iff h.framed]
    simp

/-- The end of a frame, two bytes of noise and a frame. -/
def noisyStart : Bytes := [0x7E, 0x00, 0x00, 0x7E, 0x01, 0x02, 0x7E]

theorem delivered_noisyStart : Delivered [0x7E] [([0x00, 0x00], [0x01, 0x02])] [] := by
  constructor
  · exact ⟨[], List.suffix_refl _⟩
  · decide
  · decide
  · decide

/-- The noise is ingested, and the frame is not. -/
theorem noisyStart_shifted :
    ¬ ∀ (cut last : Bytes) (parts : List (Bytes × Bytes)) (chunks : List Bytes),
      Delivered cut parts last → chunks.flatten = line cut parts last →
      (chunks.foldl onChunk {}).ingested = parts.map (fun p => frame flag (escape p.2)) := by
  intro hclaim
  have h := hclaim _ _ _ [noisyStart] delivered_noisyStart rfl
  revert h
  decide

/-- A stream that begins with a frame, in two chunks. -/
theorem ingested_fromStart :
    ([[0x7E, 0x01, 0x7D], [0x5E, 0x7E, 0x00]].foldl onChunk {}).ingested =
      [frame flag (escape [0x01, 0x7E])] :=
  (ingested_iff [] [0x00] [([], [0x01, 0x7E])] [[0x7E, 0x01, 0x7D], [0x5E, 0x7E, 0x00]]
    ⟨⟨[], List.nil_suffix⟩, by decide, by decide, by decide⟩ rfl).mpr (.inl rfl)

end HplcWorkbench.SerialCapture
