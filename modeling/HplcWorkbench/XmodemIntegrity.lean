import HplcWorkbench.XmodemTransfer

/-!
# What the receiver holds when the sender returns

A packet is repeated until a response to it is read, so the receiver is never more than one
block ahead of the sender. The argument needs the read after a write to see no older response:
an answer that comes in after its read timed out is taken for the answer to the next write.
-/

namespace HplcWorkbench.Xmodem

open StopAndWait (firstBlocks Sending retry)

/-- At most one answer for each write, no other byte that reads as one, and damage that the
receiver notices. -/
structure Exchange.Lawful (e : Exchange) : Prop where
  stray : ∀ b, .stray b ∈ e.polls.flatten ++ e.late → isProtocol b = false
  single : (e.polls.flatten ++ e.late).count .answer ≤ 1
  detected : ∀ received, e.damaged = some received → readPacket received = none ∧ received ≠ [EOT]

/-- The answer comes while the read polls for it, or not at all. -/
def Exchange.Prompt (e : Exchange) : Prop := .answer ∉ e.late

/-- No response waits in the port. -/
def Quiet (waiting : Bytes) : Prop := ∀ b ∈ waiting, isProtocol b = false

/-- The image filled up with `PAD` to whole blocks. -/
def padded (image : Bytes) (blockSize : ℕ) : Bytes :=
  image ++ List.replicate ((blockSize - image.length % blockSize) % blockSize) PAD

section Response
variable {a : Byte} {waiting : Bytes} {arrivals : List Arrival}

theorem quiet_append {xs ys : Bytes} (hxs : Quiet xs) (hys : Quiet ys) : Quiet (xs ++ ys) := by
  intro b hb
  rcases List.mem_append.mp hb with hb | hb
  · exact hxs b hb
  · exact hys b hb

theorem quiet_spell (hstray : ∀ b, .stray b ∈ arrivals → isProtocol b = false)
    (hanswer : Arrival.answer ∉ arrivals) : Quiet (spell a arrivals) := by
  intro b hb
  obtain ⟨arrival, harrival, rfl⟩ := List.mem_map.mp hb
  cases arrival with
  | stray b => exact hstray b harrival
  | answer => exact absurd harrival hanswer

theorem find?_quiet (h : Quiet waiting) : waiting.find? isProtocol = none := by
  rw [List.find?_eq_none]
  intro b hb
  simp [h b hb]

theorem find?_spell (hstray : ∀ b, .stray b ∈ arrivals → isProtocol b = false)
    (ha : isProtocol a = true) (hanswer : Arrival.answer ∈ arrivals) :
    (spell a arrivals).find? isProtocol = some a := by
  induction arrivals with
  | nil => cases hanswer
  | cons arrival arrivals ih =>
    cases arrival with
    | answer => exact List.find?_cons_of_pos ha
    | stray b =>
      have hb : isProtocol b = false := hstray b List.mem_cons_self
      have hrest : Arrival.answer ∈ arrivals := by simpa using hanswer
      have hfirst : ¬ isProtocol b = true := by simp [hb]
      exact (List.find?_cons_of_neg hfirst).trans
        (ih (fun b hb => hstray b (List.mem_cons_of_mem _ hb)) hrest)

theorem spell_flatten (polls : List (List Arrival)) :
    (polls.map (spell a)).flatten = spell a polls.flatten := List.map_flatten.symm

/-- A read that starts on a quiet port times out or returns the answer to the last write, and
leaves the port quiet. -/
theorem readXmodemResponse_spec {polls : List (List Arrival)} (ha : isProtocol a = true)
    (hquiet : Quiet waiting) (hstray : ∀ b, .stray b ∈ polls.flatten → isProtocol b = false)
    (hsingle : polls.flatten.count .answer ≤ 1) :
    ((readXmodemResponse waiting (polls.map (spell a))).1 = none ∨
      (readXmodemResponse waiting (polls.map (spell a))).1 = some a) ∧
    Quiet (readXmodemResponse waiting (polls.map (spell a))).2 := by
  induction polls generalizing waiting with
  | nil => exact ⟨Or.inl rfl, hquiet⟩
  | cons arrivals polls ih =>
    rw [List.flatten_cons] at hstray hsingle
    have hhead : ∀ b, .stray b ∈ arrivals → isProtocol b = false :=
      fun b hb => hstray b (List.mem_append_left _ hb)
    have htail : ∀ b, .stray b ∈ polls.flatten → isProtocol b = false :=
      fun b hb => hstray b (List.mem_append_right _ hb)
    rw [List.count_append] at hsingle
    rw [List.map_cons, readXmodemResponse, List.find?_append, find?_quiet hquiet, Option.none_or]
    by_cases hanswer : Arrival.answer ∈ arrivals
    · have hone : 0 < arrivals.count .answer := List.count_pos_iff.mpr hanswer
      have hnone : Arrival.answer ∉ polls.flatten := by
        rw [← List.count_eq_zero]
        omega
      rw [find?_spell hhead ha hanswer]
      refine ⟨Or.inr rfl, ?_⟩
      change Quiet (polls.map (spell a)).flatten
      rw [spell_flatten]
      exact quiet_spell htail hnone
    · rw [find?_quiet (quiet_spell hhead hanswer)]
      exact ih (fun _ hb => by cases hb) htail (by omega)

end Response

section Attempt
variable {line : ℕ → Exchange} {link : Link} {bytes : Bytes} {cancelled : String}

theorem receive_answer (stored : List Bytes) (received : Bytes) :
    (receive stored received).1 = ACK ∨ (receive stored received).1 = NAK := by
  unfold receive
  split
  · exact Or.inl rfl
  · split
    · dsimp only
      split
      · exact Or.inl rfl
      · exact Or.inr rfl
    · exact Or.inr rfl

theorem isProtocol_answer (stored : List Bytes) (received : Bytes) :
    isProtocol (receive stored received).1 = true := by
  rcases receive_answer stored received with h | h
  · rw [h]
    rfl
  · rw [h]
    rfl

theorem receive_damaged (stored : List Bytes) {received : Bytes}
    (h : readPacket received = none ∧ received ≠ [EOT]) :
    receive stored received = (NAK, stored) := by
  rw [receive, if_neg h.2, h.1]

@[simp] theorem attempt_writes :
    (attempt line bytes cancelled link).2.writes = link.writes + 1 := rfl

@[simp] theorem attempt_stored :
    (attempt line bytes cancelled link).2.stored =
      (receive link.stored ((line link.writes).damaged.getD bytes)).2 := rfl

/-- An attempt on a quiet port leaves it quiet, and is acknowledged by the receiver's answer to
this very write. -/
theorem attempt_spec (bytes : Bytes) (cancelled : String)
    (hlawful : (line link.writes).Lawful) (hprompt : (line link.writes).Prompt) (hquiet : Quiet link.waiting) :
    Quiet (attempt line bytes cancelled link).2.waiting ∧
    ((attempt line bytes cancelled link).1 = .acknowledged →
      (receive link.stored ((line link.writes).damaged.getD bytes)).1 = ACK) := by
  have hspec := readXmodemResponse_spec
    (isProtocol_answer link.stored ((line link.writes).damaged.getD bytes)) hquiet
    (fun b hb => hlawful.stray b (List.mem_append_left _ hb))
    (by have hsingle := hlawful.single; rw [List.count_append] at hsingle; omega)
  obtain ⟨hresp, hrest⟩ := hspec
  constructor
  · exact quiet_append hrest
      (quiet_spell (fun b hb => hlawful.stray b (List.mem_append_right _ hb)) hprompt)
  · intro hverdict
    have hack : (readXmodemResponse link.waiting ((line link.writes).polls.map
        (spell (receive link.stored ((line link.writes).damaged.getD bytes)).1))).1 = some ACK := by
      by_contra hne
      dsimp only [attempt] at hverdict
      rw [if_neg hne] at hverdict
      split at hverdict
      · cases hverdict
      · cases hverdict
    rcases hresp with hnone | hanswer
    · rw [hnone] at hack
      cases hack
    · rw [hanswer] at hack
      exact Option.some.inj hack

end Attempt

section Blocks
variable {image : Bytes} {blockSize k : ℕ}

def totalPackets (image : Bytes) (blockSize : ℕ) : ℕ := (image.length + blockSize - 1) / blockSize

def imageBlock (image : Bytes) (blockSize k : ℕ) : Bytes := blockAt image blockSize (k * blockSize)

theorem length_blockAt (image : Bytes) (blockSize offset : ℕ) : (blockAt image blockSize offset).length = blockSize := by
  simp only [blockAt, slice, List.length_append, List.length_drop, List.length_take,
    List.length_replicate]
  omega

theorem lt_totalPackets (hsize : 0 < blockSize) :
    k < totalPackets image blockSize ↔ k * blockSize < image.length := by
  rw [totalPackets, Nat.lt_iff_add_one_le, Nat.le_div_iff_mul_le hsize, Nat.add_mul, Nat.one_mul]
  omega

/-- The first blocks hold as much of the image, and behind its end `PAD`. -/
theorem flatten_firstBlocks (hk : k ≤ totalPackets image blockSize) (hsize : 0 < blockSize) :
    (firstBlocks (imageBlock image blockSize) k).flatten =
      image.take (k * blockSize) ++ List.replicate (k * blockSize - image.length) PAD := by
  induction k with
  | zero => simp [firstBlocks]
  | succ k ih =>
    have hlt : k * blockSize < image.length := (lt_totalPackets hsize).mp hk
    have hnone : k * blockSize - image.length = 0 := by omega
    have hnext : (k + 1) * blockSize = k * blockSize + blockSize := Nat.succ_mul k blockSize
    rw [StopAndWait.firstBlocks_succ, List.flatten_append, List.flatten_singleton,
      ih (Nat.le_of_succ_le hk), hnone, List.replicate_zero, List.append_nil, imageBlock, blockAt,
      slice, ← List.append_assoc, List.drop_replicate]
    congr 1
    · have htake : k * blockSize + min blockSize (image.length - k * blockSize) =
          min ((k + 1) * blockSize) image.length := by omega
      rw [htake, ← List.take_take, List.take_length]
      conv_rhs => rw [← List.take_append_drop (k * blockSize) (image.take ((k + 1) * blockSize))]
      rw [List.take_take, Nat.min_eq_left (by omega)]
    · congr 1
      omega

/-- The last block is the first that reaches the end of the image. -/
theorem totalPackets_bounds (image : Bytes) (hsize : 0 < blockSize) :
    image.length ≤ totalPackets image blockSize * blockSize ∧
    totalPackets image blockSize * blockSize < image.length + blockSize := by
  constructor
  · exact Nat.le_of_not_lt fun h => Nat.lt_irrefl _ ((lt_totalPackets hsize).mpr h)
  · cases htotal : totalPackets image blockSize with
    | zero => omega
    | succ n =>
      have hlast : n * blockSize < image.length := (lt_totalPackets hsize).mp (by omega)
      rw [Nat.succ_mul]
      omega

theorem flatten_allBlocks (hsize : 0 < blockSize) :
    (firstBlocks (imageBlock image blockSize) (totalPackets image blockSize)).flatten =
      padded image blockSize := by
  obtain ⟨hcovered, hlast⟩ := totalPackets_bounds image hsize
  rw [flatten_firstBlocks le_rfl hsize, List.take_of_length_le hcovered, padded]
  congr 2
  set fill := totalPackets image blockSize * blockSize - image.length with hfill
  have hsum : image.length + fill = totalPackets image blockSize * blockSize := by omega
  have hmod : (image.length + fill) % blockSize = 0 := by rw [hsum, Nat.mul_mod_left]
  have hrest : image.length % blockSize < blockSize := Nat.mod_lt _ hsize
  rw [Nat.add_mod, Nat.mod_eq_of_lt (show fill < blockSize by omega)] at hmod
  by_cases hzero : image.length % blockSize = 0
  · rw [hzero, Nat.zero_add, Nat.mod_eq_of_lt (show fill < blockSize by omega)] at hmod
    rw [hzero, hmod, Nat.sub_zero, Nat.mod_self]
  · have hfull : image.length % blockSize + fill = blockSize := by
      obtain ⟨q, hq⟩ := Nat.dvd_of_mod_eq_zero hmod
      have hq1 : q = 1 := by
        have hlow : 0 < q := Nat.pos_of_ne_zero (by rintro rfl; omega)
        have hhigh : q < 2 := by
          by_contra hge
          have := Nat.mul_le_mul_left blockSize (Nat.le_of_not_lt hge)
          omega
        omega
      rw [hq, hq1, Nat.mul_one]
    rw [Nat.mod_eq_of_lt (show blockSize - image.length % blockSize < blockSize by omega)]
    omega

end Blocks

section Loops
variable {line : ℕ → Exchange} {image : Bytes} {blockSize k maxRetries : ℕ} {link : Link}

/-- One attempt at packet `k`: the receiver is left without it or with it, and with it if the
attempt is acknowledged. -/
theorem attempt_packet {packet : Bytes} {cancelled : String}
    (hlawful : ∀ n, (line n).Lawful) (hprompt : ∀ n, (line n).Prompt)
    (hread : readPacket packet =
      some (byte (StopAndWait.number 256 k), imageBlock image blockSize k))
    (hsending : Sending (imageBlock image blockSize) k link.stored) (hquiet : Quiet link.waiting) :
    Sending (imageBlock image blockSize) k (attempt line packet cancelled link).2.stored ∧
    Quiet (attempt line packet cancelled link).2.waiting ∧
    ((attempt line packet cancelled link).1 = .acknowledged →
      (attempt line packet cancelled link).2.stored =
        firstBlocks (imageBlock image blockSize) (k + 1)) := by
  obtain ⟨hwaiting, hack⟩ := attempt_spec packet cancelled (hlawful link.writes)
    (hprompt link.writes) hquiet
  cases hdamaged : (line link.writes).damaged with
  | some received =>
    have hnak := receive_damaged link.stored
      ((hlawful link.writes).detected received hdamaged)
    simp only [hdamaged, Option.getD_some, hnak, attempt_stored] at hack ⊢
    exact ⟨hsending, hwaiting, fun h => absurd (hack h) (by decide)⟩
  | none =>
    have hnotEot : packet ≠ [EOT] := by
      rintro rfl
      cases hread
    have hnumber : ((byte (StopAndWait.number 256 k) : Byte) : ℕ) = StopAndWait.number 256 k := by
      rw [byte_val, StopAndWait.number, Nat.mod_mod]
    have hreceive : (receive link.stored packet).2 =
        firstBlocks (imageBlock image blockSize) (k + 1) := by
      have haccept := StopAndWait.accept_current (show 1 < 256 by decide) hsending
      rw [receive, if_neg hnotEot, hread]
      simp only [hnumber, haccept]
    simp only [hdamaged, Option.getD_none, attempt_stored, hreceive, implies_true, and_true]
    exact ⟨Or.inr rfl, hwaiting⟩

theorem attempt_eot {cancelled : String} (hlawful : ∀ n, (line n).Lawful) :
    (attempt line [EOT] cancelled link).2.stored = link.stored := by
  rw [attempt_stored]
  cases hdamaged : (line link.writes).damaged with
  | some received =>
    rw [Option.getD_some,
      receive_damaged _ ((hlawful link.writes).detected received hdamaged)]
  | none => rfl

/-- The loop over the packets when packet `k` is the next to send. -/
def sendFrom (line : ℕ → Exchange) (image : Bytes) (maxRetries : ℕ) {blockSize : ℕ}
    (hsize : 0 < blockSize) (k : ℕ) (link : Link) : Except TransferError Unit × Link :=
  sendPackets line image true maxRetries blockSize hsize (StopAndWait.number 256 k)
    (min (k * blockSize) image.length) link

theorem sendFrom_end (hsize : 0 < blockSize) :
    sendFrom line image maxRetries hsize (totalPackets image blockSize) link = (.ok (), link) := by
  have hend : ¬ min (totalPackets image blockSize * blockSize) image.length < image.length := by
    have := (totalPackets_bounds image hsize).1
    omega
  rw [sendFrom, sendPackets, dif_neg hend]

theorem sendFrom_packet (line : ℕ → Exchange) (maxRetries : ℕ) (link : Link)
    (hblock : blockSize = 128 ∨ blockSize = 1024) (hsize : 0 < blockSize)
    (hk : k < totalPackets image blockSize) :
    ∃ packet failed,
      readPacket packet = some (byte (StopAndWait.number 256 k), imageBlock image blockSize k) ∧
      sendFrom line image maxRetries hsize k link =
        match retry (attempt line packet "Receiver cancelled XMODEM transfer.") failed
          maxRetries link with
        | (.error e, link') => (.error e, link')
        | (.ok (), link') => sendFrom line image maxRetries hsize (k + 1) link' := by
  have hlt : k * blockSize < image.length := (lt_totalPackets hsize).mp hk
  have hoffset : min (k * blockSize) image.length = k * blockSize := by omega
  have hnext : k * blockSize + min blockSize (image.length - k * blockSize) =
      min ((k + 1) * blockSize) image.length := by
    rw [Nat.succ_mul]
    omega
  have hnumber : (StopAndWait.number 256 k + 1) &&& 0xFF = StopAndWait.number 256 (k + 1) := by
    rw [BitFields.and_mask8, StopAndWait.number, StopAndWait.number, Nat.mod_add_mod]
  have hpacket := buildXmodemPacket_crc (StopAndWait.number 256 k)
    (length_blockAt image blockSize (k * blockSize))
  refine ⟨_, .runtimeError s!"XMODEM packet {StopAndWait.number 256 k} failed after retries.",
    readPacket_build hblock (length_blockAt _ _ _) hpacket, ?_⟩
  rw [sendFrom, hoffset, sendPackets, dif_pos hlt]
  simp only [hpacket, hnext, hnumber]
  rfl

theorem sendFrom_delivers (maxRetries : ℕ) (link : Link)
    (hlawful : ∀ n, (line n).Lawful) (hprompt : ∀ n, (line n).Prompt)
    (hblock : blockSize = 128 ∨ blockSize = 1024) (hsize : 0 < blockSize)
    (hk : k ≤ totalPackets image blockSize)
    (hstored : link.stored = firstBlocks (imageBlock image blockSize) k)
    (hquiet : Quiet link.waiting)
    (hok : (sendFrom line image maxRetries hsize k link).1 = .ok ()) :
    (sendFrom line image maxRetries hsize k link).2.stored =
      firstBlocks (imageBlock image blockSize) (totalPackets image blockSize) := by
  induction hrest : totalPackets image blockSize - k generalizing k link with
  | zero =>
    obtain rfl : k = totalPackets image blockSize := by omega
    rw [sendFrom_end]
    exact hstored
  | succ rest ih =>
    obtain ⟨packet, failed, hread, hstep⟩ :=
      sendFrom_packet line maxRetries link hblock hsize
        (show k < totalPackets image blockSize by omega)
    rw [hstep] at hok ⊢
    cases hretry : retry (attempt line packet "Receiver cancelled XMODEM transfer.") failed
        maxRetries link with
    | mk outcome link' =>
      rw [hretry] at hok
      cases outcome with
      | error e => cases hok
      | ok =>
        have hafter : link'.stored = firstBlocks (imageBlock image blockSize) (k + 1) ∧
            Quiet link'.waiting := by
          have hrule := StopAndWait.retry_ok (n := maxRetries) failed
            (P := fun l => Sending (imageBlock image blockSize) k l.stored ∧ Quiet l.waiting)
            (Q := fun l => l.stored = firstBlocks (imageBlock image blockSize) (k + 1) ∧
              Quiet l.waiting) ⟨Or.inl hstored, hquiet⟩
            (fun l hl _ => ((attempt_packet hlawful hprompt hread hl.1 hl.2).imp_right And.left))
            (fun l hl hacknowledged =>
              have hspec := attempt_packet hlawful hprompt hread hl.1 hl.2
              ⟨hspec.2.2 hacknowledged, hspec.2.1⟩)
            (by rw [hretry])
          rwa [hretry] at hrule
        exact ih link' (by omega) hafter.1 hafter.2 hok (by omega)

theorem sendFrom_writes (line : ℕ → Exchange) (maxRetries : ℕ) (link : Link)
    (hblock : blockSize = 128 ∨ blockSize = 1024) (hsize : 0 < blockSize)
    (hk : k ≤ totalPackets image blockSize) :
    (sendFrom line image maxRetries hsize k link).2.writes ≤
      link.writes + maxRetries * (totalPackets image blockSize - k) := by
  induction hrest : totalPackets image blockSize - k generalizing k link with
  | zero =>
    obtain rfl : k = totalPackets image blockSize := by omega
    rw [sendFrom_end]
    exact Nat.le_add_right _ _
  | succ rest ih =>
    obtain ⟨packet, failed, -, hstep⟩ :=
      sendFrom_packet line maxRetries link hblock hsize
        (show k < totalPackets image blockSize by omega)
    have hcost := StopAndWait.retry_cost (n := maxRetries) (s := link)
      (attempt line packet "Receiver cancelled XMODEM transfer.") failed Link.writes
      (fun _ => le_rfl)
    rw [hstep, Nat.mul_succ]
    cases hretry : retry (attempt line packet "Receiver cancelled XMODEM transfer.") failed
        maxRetries link with
    | mk outcome link' =>
      rw [hretry] at hcost
      cases outcome with
      | error e => exact hcost.trans (by omega)
      | ok =>
        exact (ih link' (by omega) (by omega)).trans (by simp only at hcost; omega)

end Loops

section Transfer
variable {line : ℕ → Exchange}

/-- The state in which `send_xmodem` is called: nothing stored, no response waiting. -/
def Link.start (waiting : Bytes) : Link := ⟨[], waiting, 0⟩

theorem sendXmodem_eq (image : Bytes) (maxRetries : ℕ) {blockSize : ℕ} (hsize : 0 < blockSize)
    (link : Link) :
    sendXmodem line image true maxRetries blockSize link =
      match sendFrom line image maxRetries hsize 0 link with
      | (.error e, link') => (.error e, link')
      | (.ok (), link') =>
        retry (attempt line [EOT] "Receiver cancelled XMODEM at EOT.")
          (.runtimeError "XMODEM EOT was not acknowledged.") maxRetries link' := by
  rw [sendXmodem, dif_pos hsize, sendFrom, Nat.zero_mul, Nat.zero_min]
  rfl

/-- When the sender returns, the receiver holds the padded image, each block once and in order;
returning or raising, it has written no packet and no EOT more than `max_retries` times. -/
theorem sendXmodem_complete (hlawful : ∀ n, (line n).Lawful) (hprompt : ∀ n, (line n).Prompt)
    (image waiting : Bytes) (hquiet : Quiet waiting) (maxRetries blockSize : ℕ)
    (hblock : blockSize = 128 ∨ blockSize = 1024) :
    ((sendXmodem line image true maxRetries blockSize (.start waiting)).1 = .ok () →
      (sendXmodem line image true maxRetries blockSize (.start waiting)).2.stored.flatten =
        padded image blockSize) ∧
    (sendXmodem line image true maxRetries blockSize (.start waiting)).2.writes ≤
      maxRetries * (totalPackets image blockSize + 1) := by
  have hsize : 0 < blockSize := by omega
  have hdelivers := sendFrom_delivers maxRetries (.start waiting) hlawful hprompt
    hblock hsize (Nat.zero_le (totalPackets image blockSize)) rfl hquiet
  have hwrites := sendFrom_writes line maxRetries (.start waiting) hblock hsize
    (Nat.zero_le (totalPackets image blockSize))
  have hstart : (Link.start waiting).writes = 0 := rfl
  rw [hstart, Nat.zero_add, Nat.sub_zero] at hwrites
  rw [sendXmodem_eq image maxRetries hsize, Nat.mul_succ]
  cases hpackets : sendFrom line image maxRetries hsize 0 (.start waiting) with
  | mk outcome link' =>
    rw [hpackets] at hdelivers hwrites
    cases outcome with
    | error e => exact ⟨nofun, hwrites.trans (Nat.le_add_right _ _)⟩
    | ok =>
      constructor
      · intro hok
        have hheld := StopAndWait.retry_ok _ (P := fun l => l.stored = link'.stored)
          (Q := fun l => l.stored = link'.stored) rfl
          (fun l hl _ => (attempt_eot hlawful).trans hl)
          (fun l hl _ => (attempt_eot hlawful).trans hl) hok
        simp only at hheld ⊢
        rw [hheld, hdelivers rfl, flatten_allBlocks hsize]
      · have hcost := StopAndWait.retry_cost (n := maxRetries) (s := link')
          (attempt line [EOT] "Receiver cancelled XMODEM at EOT.")
          (.runtimeError "XMODEM EOT was not acknowledged.") Link.writes
          (fun _ => le_rfl)
        simp only at hwrites ⊢
        omega

/-- The first answer is lost, the repeated packet damaged; dots come in throughout. -/
def noisyLine (n : ℕ) : Exchange :=
  if n = 0 then ⟨none, [[.stray 0x2E]], []⟩
  else if n = 1 then ⟨some [SOH], [[.stray 0x2E], [.answer]], [.stray 0x2E]⟩
  else ⟨none, [[], [.stray 0x2E, .answer], [.stray 0x2E]], []⟩

theorem noisyLine_lawful (n : ℕ) : (noisyLine n).Lawful ∧ (noisyLine n).Prompt := by
  unfold noisyLine
  split
  · exact ⟨⟨by simp [isProtocol, ACK, NAK, CAN], by decide, nofun⟩, nofun⟩
  · split
    · exact ⟨⟨by simp [isProtocol, ACK, NAK, CAN], by decide,
        fun _ h => by cases h; decide⟩, by unfold Exchange.Prompt; decide⟩
    · exact ⟨⟨by simp [isProtocol, ACK, NAK, CAN], by decide, nofun⟩, nofun⟩

theorem noisyLine_complete :
    (sendXmodem noisyLine (List.replicate 129 7) true 10 128 (.start [0x43])).2.stored.flatten =
      padded (List.replicate 129 7) 128 :=
  (sendXmodem_complete (fun n => (noisyLine_lawful n).1) (fun n => (noisyLine_lawful n).2)
    (List.replicate 129 7) [0x43] (by simp [Quiet, isProtocol, ACK, NAK, CAN]) 10 128
    (Or.inl rfl)).1 (by decide +kernel)

/-- Every answer comes in just after its read, and the third packet written is damaged. -/
def lateLine (n : ℕ) : Exchange := ⟨if n = 2 then some [SOH] else none, [[]], [.answer]⟩

theorem lateLine_lawful (n : ℕ) : (lateLine n).Lawful := by
  refine ⟨by simp [lateLine], by simp [lateLine], ?_⟩
  intro received h
  by_cases hn : n = 2
  · rw [lateLine, if_pos hn] at h
    cases h
    decide
  · rw [lateLine, if_neg hn] at h
    cases h

/-- The first packet is sent twice and answered twice. Its second answer is taken for that to the
damaged second packet, whose block is lost although the sender returns. -/
theorem late_answer_loses_block :
    ¬ ∀ (line : ℕ → Exchange), (∀ n, (line n).Lawful) → ∀ (image waiting : Bytes), Quiet waiting →
      ∀ maxRetries blockSize, blockSize = 128 ∨ blockSize = 1024 →
        (sendXmodem line image true maxRetries blockSize (.start waiting)).1 = .ok () →
        (sendXmodem line image true maxRetries blockSize (.start waiting)).2.stored.flatten =
          padded image blockSize := by
  intro hclaim
  obtain ⟨hok, hheld⟩ : (sendXmodem lateLine (List.replicate 256 0) true 10 128
        (.start [])).1 = .ok () ∧
      (sendXmodem lateLine (List.replicate 256 0) true 10 128
        (.start [])).2.stored.flatten.length = 128 := by
    decide +kernel
  have hall := hclaim lateLine lateLine_lawful (List.replicate 256 0) [] (fun _ h => by cases h)
    10 128 (Or.inl rfl) hok
  rw [hall, padded, List.length_append, List.length_replicate] at hheld
  omega

end Transfer

end HplcWorkbench.Xmodem
