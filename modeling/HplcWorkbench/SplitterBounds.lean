import HplcWorkbench.ChunkedFrames

/-!
# The frame splitter with any adapters

`feed` asks whatever adapters it was given. It comes to an end as long as an adapter that answers
takes at least one byte and no more than there are, and then it keeps a short buffer that begins
where a frame can begin.
-/

namespace HplcWorkbench.FrameSplitter
open StreamSplitting

/-- What the splitter knows of an adapter. -/
structure Adapter where
  protocol : String
  tryExtract : Bytes → Option ExtractResult

/-- A frame that `feed` returns; `complete` is always true. -/
structure Frame where
  protocol : String
  raw : Bytes

/-- An adapter that answers takes some of the bytes it has seen. -/
def Adapter.Consumes (a : Adapter) : Prop :=
  ∀ buf r, a.tryExtract buf = some r → 1 ≤ r.consumed ∧ r.consumed ≤ buf.length

/-- What it takes is the frame. -/
def Adapter.CutsFront (a : Adapter) : Prop :=
  ∀ buf r, a.tryExtract buf = some r → r.raw = buf.take r.consumed

/-- The first adapter that answers: its frame, and how many bytes to delete. -/
def ask (adapters : List Adapter) (buf : Bytes) : Option (Frame × ℕ) :=
  adapters.findSome? fun a => (a.tryExtract buf).map fun r => (⟨a.protocol, r.raw⟩, r.consumed)

/-- The loop of `feed`: the frames and the buffer that is kept, `none` where it is still running after
so many rounds. -/
def feedRounds (adapters : List Adapter) : ℕ → Bytes → Option (List Frame × Bytes)
  | 0, _ => none
  | rounds + 1, buf =>
    match ask adapters buf with
    | some (frame, consumed) =>
      (feedRounds adapters rounds (buf.drop consumed)).map fun r => (frame :: r.1, r.2)
    | none =>
      match resync buf with
      | some k => feedRounds adapters rounds (buf.drop k)
      | none => some ([], buf)

/-- Calls of `feed` from one buffer to another, with all frames they return. -/
inductive Feeds (adapters : List Adapter) : Bytes → List Bytes → List Frame → Bytes → Prop
  | start (buf : Bytes) : Feeds adapters buf [] [] buf
  | feed {buf chunk pending last : Bytes} {chunks : List Bytes} {frames more : List Frame} {rounds : ℕ} :
      feedRounds adapters rounds (buf ++ chunk) = some (frames, pending) →
      Feeds adapters pending chunks more last → Feeds adapters buf (chunk :: chunks) (frames ++ more) last

/-- A byte that begins a frame of some adapter. -/
def StartsFrame (b : Byte) : Prop := ∃ a ∈ buildAdapters, ∃ rest r, a.tryExtract (b :: rest) = some r

/-! ## The buffer that is kept -/

/-- A 4-3 message on this port, with an embedded 645 frame. -/
def portMessage (port messageId : Byte) : Bytes := [port, messageId, 0x00, 0x00] ++ readRequest

theorem startsFrame_of_mem {b : Byte} (h : b ∈ frameStartBytes) : StartsFrame b := by
  have hport : ∀ messageId, (DualMode43.tryExtract (portMessage b messageId)).isSome → StartsFrame b := by
    intro messageId hsome
    obtain ⟨r, hr⟩ := Option.isSome_iff_exists.mp hsome
    exact ⟨.dualMode43, by decide, _, r, hr⟩
  rcases List.mem_cons.mp h with rfl | h
  · exact ⟨.dlt645, by decide, readRequest.drop 1, ⟨readRequest, 16⟩, by decide⟩
  rcases List.mem_cons.mp h with rfl | h
  · exact hport 0x01 (by decide +kernel)
  rcases List.mem_cons.mp h with rfl | h
  · exact hport 0x30 (by decide +kernel)
  obtain rfl := List.mem_singleton.mp h
  exact hport 0xA0 (by decide +kernel)

/-- The splitter keeps what may still become a frame. -/
theorem resync_eq_none {buf : Bytes} (h : resync buf = none) :
    buf.length ≤ maxFrame ∧ ∀ b ∈ buf.head?, b ∈ frameStartBytes := by
  rw [resync] at h
  cases buf with
  | nil =>
      refine ⟨Nat.zero_le _, ?_⟩
      intro b hb
      cases hb
  | cons first rest =>
      rw [if_neg (List.cons_ne_nil _ _)] at h
      have hfirst : byteAt (first :: rest) 0 = first := rfl
      by_cases hnoise : byteAt (first :: rest) 0 ∉ frameStartBytes
      · rw [if_pos hnoise] at h
        cases h
      rw [if_neg hnoise, Option.or_eq_none_iff, Option.or_eq_none_iff, skipTooLong] at h
      obtain ⟨-, -, hlong⟩ := h
      refine ⟨?_, ?_⟩
      · by_contra hover
        rw [if_pos (not_le.mp hover)] at hlong
        cases hlong
      · rintro b hb
        obtain rfl := Option.some.inj hb
        exact not_not.mp hnoise

/-! ## The loop -/

section Loop
variable {adapters : List Adapter} (h : ∀ a ∈ adapters, a.Consumes)

theorem ask_eq_some {buf : Bytes} {frame : Frame} {consumed : ℕ}
    (hask : ask adapters buf = some (frame, consumed)) :
    ∃ a ∈ adapters, a.protocol = frame.protocol ∧ a.tryExtract buf = some ⟨frame.raw, consumed⟩ := by
  obtain ⟨a, hmem, hcut⟩ := List.exists_of_findSome?_eq_some hask
  obtain ⟨r, hr, heq⟩ := Option.map_eq_some_iff.mp hcut
  obtain ⟨rfl, rfl⟩ := Prod.mk.inj heq
  exact ⟨a, hmem, rfl, hr⟩

/-- One round of the loop. -/
def lookAt (adapters : List Adapter) (buf : Bytes) : Look Frame :=
  match ask adapters buf with
  | some (frame, consumed) => .hit frame consumed
  | none =>
    match resync buf with
    | some k => .skip k
    | none => .wait

theorem lookAt_hit {buf : Bytes} {frame : Frame} {k : ℕ} (hlook : lookAt adapters buf = .hit frame k) :
    ask adapters buf = some (frame, k) := by
  rw [lookAt] at hlook
  cases hask : ask adapters buf with
  | some r =>
      rw [hask] at hlook
      obtain ⟨rfl, rfl⟩ := Look.hit.inj hlook
      rfl
  | none =>
      rw [hask] at hlook
      cases hresync : resync buf <;> simp [hresync] at hlook

theorem ask_eq_none {buf : Bytes} (hlook : ∀ frame k, lookAt adapters buf ≠ .hit frame k) :
    ask adapters buf = none := by
  cases hask : ask adapters buf with
  | none => rfl
  | some r =>
      refine absurd ?_ (hlook r.1 r.2)
      rw [lookAt, hask]

theorem lookAt_skip {buf : Bytes} {k : ℕ} (hlook : lookAt adapters buf = .skip k) :
    ask adapters buf = none ∧ resync buf = some k := by
  have hask := @ask_eq_none adapters buf fun frame k hhit => nomatch hlook.symm.trans hhit
  rw [lookAt, hask] at hlook
  cases hresync : resync buf with
  | none => simp [hresync] at hlook
  | some k' =>
      rw [hresync] at hlook
      obtain rfl := Look.skip.inj hlook
      exact ⟨hask, rfl⟩

theorem lookAt_wait {buf : Bytes} (hlook : lookAt adapters buf = .wait) :
    ask adapters buf = none ∧ resync buf = none := by
  have hask := @ask_eq_none adapters buf fun frame k hhit => nomatch hlook.symm.trans hhit
  rw [lookAt, hask] at hlook
  cases hresync : resync buf with
  | none => exact ⟨hask, rfl⟩
  | some k => simp [hresync] at hlook

include h

theorem lookAt_hit_bounds {buf : Bytes} {frame : Frame} {k : ℕ}
    (hlook : lookAt adapters buf = .hit frame k) : 0 < k ∧ k ≤ buf.length := by
  obtain ⟨a, hmem, -, hcut⟩ := ask_eq_some (lookAt_hit hlook)
  exact h a hmem buf _ hcut

/-- The adapters as a splitter of streams. -/
def splitterOf : Splitter Byte Frame where
  look := lookAt adapters
  hit_bounds := lookAt_hit_bounds h
  skip_bounds := fun hlook => resync_bounds (lookAt_skip hlook).2

theorem feedRounds_eq (rounds : ℕ) (buf : Bytes) :
    (∀ r, feedRounds adapters rounds buf = some r →
        r = (((splitterOf h).drain buf).1.map Prod.fst, ((splitterOf h).drain buf).2)) ∧
      (buf.length < rounds → ∃ r, feedRounds adapters rounds buf = some r) := by
  induction rounds generalizing buf with
  | zero => exact ⟨fun r hr => (nomatch hr), fun hlt => absurd hlt (Nat.not_lt_zero _)⟩
  | succ rounds ih =>
      have hdrop : ∀ k, (buf.drop k).length = buf.length - k := fun k => List.length_drop
      rw [feedRounds]
      cases hlook : lookAt adapters buf with
      | hit frame k =>
          have hk := lookAt_hit_bounds h hlook
          obtain ⟨hsame, hends⟩ := ih (buf.drop k)
          rw [lookAt_hit hlook]
          have hdrain := Splitter.drain_hit (s := splitterOf h) hlook
          rw [hdrain]
          refine ⟨fun r hr => ?_, fun hlt => ?_⟩
          · obtain ⟨r', hr', rfl⟩ := Option.map_eq_some_iff.mp hr
            rw [hsame r' hr']
            rfl
          · obtain ⟨r', hr'⟩ := hends (by rw [hdrop]; omega)
            exact ⟨_, Option.map_eq_some_iff.mpr ⟨r', hr', rfl⟩⟩
      | skip k =>
          have hk := resync_bounds (lookAt_skip hlook).2
          obtain ⟨hsame, hends⟩ := ih (buf.drop k)
          obtain ⟨hask, hresync⟩ := lookAt_skip hlook
          rw [hask]
          dsimp only
          rw [hresync, Splitter.drain_skip (s := splitterOf h) hlook]
          exact ⟨hsame, fun hlt => hends (by rw [hdrop]; omega)⟩
      | wait =>
          obtain ⟨hask, hresync⟩ := lookAt_wait hlook
          rw [hask]
          dsimp only
          rw [hresync, Splitter.drain_wait (s := splitterOf h) hlook]
          exact ⟨fun r hr => (Option.some.inj hr).symm, fun _ => ⟨_, rfl⟩⟩

theorem feeds_parted {buf pending : Bytes} {chunks : List Bytes} {frames : List Frame}
    (hfeeds : Feeds adapters buf chunks frames pending) :
    ∃ pieces, Parted (buf ++ chunks.flatten) pieces pending ∧
      List.Forall₂ (fun f p => ∃ a ∈ adapters, ∃ t, a.protocol = f.protocol ∧
        a.tryExtract (p ++ t) = some ⟨f.raw, p.length⟩) frames pieces := by
  induction hfeeds with
  | start buf =>
      refine ⟨[], ?_, .nil⟩
      rw [List.flatten_nil, List.append_nil]
      exact .left buf
  | @feed buf chunk pending last chunks frames more rounds hfeed hmore ih =>
      obtain ⟨pieces, hparted, hpieces⟩ := ih
      obtain ⟨rfl, rfl⟩ := Prod.mk.inj ((feedRounds_eq h rounds (buf ++ chunk)).1 _ hfeed)
      refine ⟨((splitterOf h).drain (buf ++ chunk)).1.map Prod.snd ++ pieces, ?_, ?_⟩
      · rw [List.flatten_cons, ← List.append_assoc]
        exact ((Splitter.drain_parted (buf ++ chunk)).append chunks.flatten).trans hparted
      · refine List.rel_append ?_ hpieces
        rw [List.forall₂_map_left_iff, List.forall₂_map_right_iff, List.forall₂_same]
        intro p hp
        obtain ⟨t, hlook⟩ := Splitter.drain_answers (buf ++ chunk) p hp
        obtain ⟨a, hmem, hprotocol, hcut⟩ := ask_eq_some (lookAt_hit hlook)
        exact ⟨a, hmem, t, hprotocol, hcut⟩

omit h in
/-- Adapters that cut what they take return the pieces themselves. -/
theorem raws_eq_pieces (hfront : ∀ a ∈ adapters, a.CutsFront) {frames : List Frame} {pieces : List Bytes}
    (hpieces : List.Forall₂ (fun f p => ∃ a ∈ adapters, ∃ t, a.protocol = f.protocol ∧
      a.tryExtract (p ++ t) = some ⟨f.raw, p.length⟩) frames pieces) : frames.map Frame.raw = pieces := by
  induction hpieces with
  | nil => rfl
  | @cons f p fs ps hhead _ ih =>
      obtain ⟨a, hmem, t, -, hcut⟩ := hhead
      have hraw : f.raw = (p ++ t).take p.length := hfront a hmem _ _ hcut
      rw [List.map_cons, ih, hraw, List.take_left]

end Loop

/-- `feed` comes to an end and keeps at most the bytes of one frame, none or from a byte on that begins
a frame; and what successive calls return are disjoint pieces of the stream in its order, in front of
the bytes that are kept. -/
theorem feed_bounded (adapters : List Adapter) (h : ∀ a ∈ adapters, a.Consumes) :
    (∀ buf chunk, ∃ frames pending,
      (∀ rounds > (buf ++ chunk).length,
        feedRounds adapters rounds (buf ++ chunk) = some (frames, pending)) ∧
      pending.length ≤ maxFrame ∧ ∀ b ∈ pending.head?, StartsFrame b) ∧
    ∀ buf chunks frames pending, Feeds adapters buf chunks frames pending →
      ∃ pieces, Parted (buf ++ chunks.flatten) pieces pending ∧
        List.Forall₂ (fun f p => ∃ a ∈ adapters, ∃ t, a.protocol = f.protocol ∧
          a.tryExtract (p ++ t) = some ⟨f.raw, p.length⟩) frames pieces ∧
        ((∀ a ∈ adapters, a.CutsFront) → frames.map Frame.raw = pieces) := by
  constructor
  · intro buf chunk
    obtain ⟨hshort, hstart⟩ := resync_eq_none
      (lookAt_wait (Splitter.drain_waits (s := splitterOf h) (buf ++ chunk))).2
    refine ⟨((splitterOf h).drain (buf ++ chunk)).1.map Prod.fst, _, fun rounds hrounds => ?_, hshort, fun b hb => startsFrame_of_mem (hstart b hb)⟩
    obtain ⟨hsame, hends⟩ := feedRounds_eq h rounds (buf ++ chunk)
    obtain ⟨r, hr⟩ := hends hrounds
    rw [hr, hsame r hr]
  · intro buf chunks frames pending hfeeds
    obtain ⟨pieces, hparted, hpieces⟩ := feeds_parted h hfeeds
    exact ⟨pieces, hparted, hpieces, fun hfront => raws_eq_pieces hfront hpieces⟩

/-! ## The adapters of the library -/

def protocolName : Protocol → String
  | .dualMode43 => "双模4-3"
  | .dlt645 => "645"
  | .dlt69845 => "698.45"
  | .qgdw103762 => "1376.2"

def libraryAdapter (a : Protocol) : Adapter := ⟨protocolName a, a.tryExtract⟩

theorem libraryAdapter_consumes (a : Protocol) : (libraryAdapter a).Consumes := by
  intro buf r hr
  have hcut := Protocol.tryExtract_cutOf hr
  exact ⟨hcut.pos, hcut.le⟩

theorem ask_library (adapters : List Protocol) (buf : Bytes) :
    ask (adapters.map libraryAdapter) buf =
      (firstHit adapters buf).map fun p => (⟨protocolName p.1, p.2.raw⟩, p.2.consumed) := by
  induction adapters with
  | nil => rfl
  | cons a rest ih =>
      have hmore : ask (rest.map libraryAdapter) buf = List.findSome? _ (rest.map libraryAdapter) := rfl
      rw [List.map_cons, ask, firstHit, List.findSome?_cons, List.findSome?_cons, ← hmore, ih, firstHit]
      cases hcut : a.tryExtract buf <;> simp [libraryAdapter, hcut]

/-- With the adapters of the library the loop is the one of `feed`. -/
theorem feedRounds_library (adapters : List Protocol) (rounds : ℕ) (buf : Bytes)
    (hrounds : buf.length < rounds) :
    feedRounds (adapters.map libraryAdapter) rounds buf =
      some ((feedLoop adapters rounds buf).1.map fun p => ⟨protocolName p.1, p.2⟩,
        (feedLoop adapters rounds buf).2) := by
  induction rounds generalizing buf with
  | zero => exact absurd hrounds (Nat.not_lt_zero _)
  | succ rounds ih =>
      have hdrop : ∀ k, (buf.drop k).length = buf.length - k := fun k => List.length_drop
      rw [feedRounds, feedLoop, ask_library]
      cases hhit : firstHit adapters buf with
      | some p =>
          have hcut := Protocol.tryExtract_cutOf (firstHit_eq_some hhit).2
          have hpos := hcut.pos
          have hle := hcut.le
          have hrest := ih (buf.drop p.2.consumed) (by rw [hdrop]; omega)
          simp only [Option.map_some, hrest, List.map_cons]
      | none =>
          cases hresync : resync buf with
          | some k =>
              have hk := resync_bounds hresync
              exact ih (buf.drop k) (by rw [hdrop]; omega)
          | none => rfl

/-- The chunk of a request with the first bytes of the next. -/
theorem feed_bounded_library :
    ∃ frames pending, feedRounds (buildAdapters.map libraryAdapter) 30 (readRequest ++ query.take 8) =
      some (frames, pending) ∧ pending.length ≤ maxFrame := by
  have hconsumes : ∀ a ∈ buildAdapters.map libraryAdapter, a.Consumes := by
    intro a ha
    obtain ⟨p, -, rfl⟩ := List.mem_map.mp ha
    exact libraryAdapter_consumes p
  obtain ⟨frames, pending, hends, hshort, -⟩ := (feed_bounded _ hconsumes).1 readRequest (query.take 8)
  exact ⟨frames, pending, hends 30 (by decide), hshort⟩

end HplcWorkbench.FrameSplitter
