import HplcWorkbench.Bytes
import HplcWorkbench.StopAndWait

/-!
# The XMODEM sender on its line

A block goes out behind its header, its number and the complement of that, and before its
CRC-16. The receiver's half is the standard one: it takes a packet whose three checks hold.

Each write of `send_xmodem` is followed by one read of a response. `Exchange` is what the line
does in between: what reaches the receiver in place of the bytes written, what the port holds
at each poll of the read, and what comes in after the read and before the next write.
-/

namespace HplcWorkbench.Xmodem

def SOH : Byte := 0x01
def STX : Byte := 0x02
def EOT : Byte := 0x04
def ACK : Byte := 0x06
def NAK : Byte := 0x15
def CAN : Byte := 0x18
def PAD : Byte := 0x1A

/-- One round of the inner loop of `crc16_xmodem`. -/
def crcShift (crc : ℕ) : ℕ :=
  if crc &&& 0x8000 ≠ 0 then ((crc <<< 1) ^^^ 0x1021) &&& 0xFFFF else (crc <<< 1) &&& 0xFFFF

def crcByte (crc : ℕ) (b : Byte) : ℕ := crcShift^[8] (crc ^^^ ((b : ℕ) &&& 0xFF) <<< 8)

/-- `count` is `None` where the caller leaves it out. -/
def crc16Xmodem (data : Bytes) (offset : ℕ) (count : Option ℕ) : PyM ℕ := do
  let count := count.getD (data.length - offset)
  let crc ← (List.range' offset count).foldlM
    (fun crc i => do pure (crcByte crc (← index data i))) 0
  pure (crc &&& 0xFFFF)

/-- The CRC of a whole block. -/
def blockCrc (block : Bytes) : ℕ := block.foldl crcByte 0 &&& 0xFFFF

theorem foldlM_index (data : Bytes) (n : ℕ) (crc : ℕ) :
    (List.range' n (data.length - n)).foldlM
        (fun crc i => do pure (crcByte crc (← index data i))) crc =
      (pure ((data.drop n).foldl crcByte crc) : PyM ℕ) := by
  induction h : data.length - n generalizing n crc with
  | zero =>
    have hn : data.length ≤ n := by omega
    simp [List.drop_eq_nil_of_le hn]
  | succ rest ih =>
    have hn : n < data.length := by omega
    have hindex : index data n = pure data[n] := by simp [index, hn]
    rw [List.range'_succ, List.foldlM_cons, hindex, List.drop_eq_getElem_cons hn,
      List.foldl_cons]
    exact ih (n + 1) (crcByte crc data[n]) (by omega)

theorem crc16Xmodem_block (block : Bytes) : crc16Xmodem block 0 none = pure (blockCrc block) := by
  have hfold := foldlM_index block 0 0
  rw [Nat.sub_zero, List.drop_zero] at hfold
  simp only [crc16Xmodem, Option.getD_none, Nat.sub_zero, hfold, pure_bind]
  rfl

def buildXmodemPacket (block : Bytes) (packetNo : ℕ) (useCrc : Bool) (blockSize : ℕ) :
    PyM Bytes := do
  if block.length ≠ blockSize then
    throw (.valueError s!"XMODEM block must be {blockSize} bytes.")
  let header := if blockSize = 128 then SOH else STX
  let seq := packetNo &&& 0xFF
  let packet := [header, byte seq, byte ((0xFF - seq) &&& 0xFF)] ++ block
  if useCrc then
    let crc ← crc16Xmodem block 0 none
    pure (packet ++ [byte ((crc >>> 8) &&& 0xFF), byte (crc &&& 0xFF)])
  else
    pure (packet ++ [byte (byteSum block &&& 0xFF)])

/-- The block size a header announces. -/
def announcedSize (header : Byte) : Option ℕ :=
  if header = SOH then some 128 else if header = STX then some 1024 else none

/-- Number and block of a packet that passes the receiver's checks. -/
def readPacket : Bytes → Option (Byte × Bytes)
  | header :: seq :: complement :: rest => do
    let size ← announcedSize header
    let block := rest.take size
    if (complement : ℕ) = 0xFF - (seq : ℕ) ∧
        rest.drop size = [byte (blockCrc block >>> 8), byte (blockCrc block)] then
      pure (seq, block)
    else none
  | _ => none

@[simp] theorem byte_mask (n : ℕ) : byte (n &&& 0xFF) = byte n := by
  rw [BitFields.and_mask8]
  exact Fin.ext (Nat.mod_mod n 256)

theorem buildXmodemPacket_crc {block : Bytes} {blockSize : ℕ} (n : ℕ)
    (hlength : block.length = blockSize) :
    buildXmodemPacket block n true blockSize =
      .ok ([if blockSize = 128 then SOH else STX, byte n, byte (0xFF - n % 256)] ++ block ++
        [byte (blockCrc block >>> 8), byte (blockCrc block)]) := by
  have hmask : n &&& 0xFF = n % 256 := BitFields.and_mask8 n
  have hnumber : byte (n % 256) = byte n := Fin.ext (Nat.mod_mod n 256)
  simp only [buildXmodemPacket, hlength, ne_eq, not_true_eq_false, if_false, if_true,
    crc16Xmodem_block, pure_bind, byte_mask, hmask, hnumber]
  rfl

theorem announcedSize_header {blockSize : ℕ} (hsize : blockSize = 128 ∨ blockSize = 1024) :
    announcedSize (if blockSize = 128 then SOH else STX) = some blockSize := by
  rcases hsize with rfl | rfl
  · rfl
  · rfl

/-- The receiver reads back the number and the block that were sent. -/
theorem readPacket_build {block packet : Bytes} {blockSize n : ℕ}
    (hsize : blockSize = 128 ∨ blockSize = 1024) (hlength : block.length = blockSize)
    (hpacket : buildXmodemPacket block n true blockSize = .ok packet) :
    readPacket packet = some (byte n, block) := by
  rw [buildXmodemPacket_crc n hlength] at hpacket
  cases hpacket
  have hcomplement : ((byte (0xFF - n % 256) : Byte) : ℕ) = 0xFF - ((byte n : Byte) : ℕ) := by
    rw [byte_val, byte_val]
    omega
  simp only [readPacket, List.cons_append, List.nil_append, announcedSize_header hsize,
    Option.bind_eq_bind, Option.bind_some, List.take_left' hlength, List.drop_left' hlength,
    hcomplement, true_and, if_true]
  rfl

/-! ## The sender -/

open StopAndWait (Verdict retry)

inductive TransferError
  | raised (e : PyErr)
  | zeroDivisionError (message : String)
  | runtimeError (message : String)
  deriving DecidableEq, Repr

/-- A byte coming in from the receiver's side. -/
inductive Arrival
  | stray (b : Byte)
  | answer
  deriving DecidableEq, Repr

structure Exchange where
  damaged : Option Bytes
  polls : List (List Arrival)
  late : List Arrival

/-- The receiver's blocks, what the port holds unread, and the number of writes so far. -/
structure Link where
  stored : List Bytes
  waiting : Bytes
  writes : ℕ
  deriving DecidableEq, Repr

/-- The standard receiver: its answer, and what it then holds. -/
def receive (stored : List Bytes) (received : Bytes) : Byte × List Bytes :=
  if received = [EOT] then (ACK, stored)
  else
    match readPacket received with
    | some (seq, block) =>
      let taken := StopAndWait.accept 256 stored seq block
      (if taken.1 then ACK else NAK, taken.2)
    | none => (NAK, stored)

def spell (answer : Byte) (arrivals : List Arrival) : Bytes :=
  arrivals.map fun
    | .stray b => b
    | .answer => answer

def isProtocol (b : Byte) : Bool := b == ACK || b == NAK || b == CAN

/-- The response, `none` for a timeout, and what is still to be read. A poll takes all bytes that
wait and drops those behind the response. -/
def readXmodemResponse (waiting : Bytes) : List Bytes → Option Byte × Bytes
  | [] => (none, waiting)
  | arrived :: polls =>
    match (waiting ++ arrived).find? isProtocol with
    | some b => (some b, polls.flatten)
    | none => readXmodemResponse [] polls

/-- One write and the read after it, in both loops of `send_xmodem`. -/
def attempt (line : ℕ → Exchange) (bytes : Bytes) (cancelled : String) (link : Link) :
    Verdict TransferError × Link :=
  let exchange := line link.writes
  let (answer, stored) := receive link.stored (exchange.damaged.getD bytes)
  let (resp, waiting) :=
    readXmodemResponse link.waiting (exchange.polls.map (spell answer))
  let verdict :=
    if resp = some ACK then .acknowledged
    else if resp = some CAN then .cancelled (.runtimeError cancelled)
    else .again
  (verdict, ⟨stored, waiting ++ spell answer exchange.late, link.writes + 1⟩)

def blockAt (image : Bytes) (blockSize offset : ℕ) : Bytes :=
  let count := min blockSize (image.length - offset)
  slice image offset (offset + count) ++ (List.replicate blockSize PAD).drop count

section Send
variable (line : ℕ → Exchange) (image : Bytes) (useCrc : Bool) (maxRetries blockSize : ℕ)

/-- The loop over the packets. -/
def sendPackets (hsize : 0 < blockSize) (packetNo offset : ℕ) (link : Link) :
    Except TransferError Unit × Link :=
  if _h : offset < image.length then
    let count := min blockSize (image.length - offset)
    match buildXmodemPacket (blockAt image blockSize offset) packetNo useCrc blockSize with
    | .error e => (.error (.raised e), link)
    | .ok packet =>
      match retry (attempt line packet "Receiver cancelled XMODEM transfer.")
        (.runtimeError s!"XMODEM packet {packetNo} failed after retries.") maxRetries link with
      | (.error e, link') => (.error e, link')
      | (.ok (), link') =>
        sendPackets hsize ((packetNo + 1) &&& 0xFF) (offset + count) link'
  else (.ok (), link)
termination_by image.length - offset
decreasing_by omega

/-- The number of packets counts for the progress report, and fails for a block size of zero. -/
def sendXmodem (link : Link) : Except TransferError Unit × Link :=
  if hsize : 0 < blockSize then
    match sendPackets line image useCrc maxRetries blockSize hsize 1 0 link with
    | (.error e, link') => (.error e, link')
    | (.ok (), link') =>
      retry (attempt line [EOT] "Receiver cancelled XMODEM at EOT.")
        (.runtimeError "XMODEM EOT was not acknowledged.") maxRetries link'
  else (.error (.zeroDivisionError "integer division or modulo by zero"), link)

end Send

end HplcWorkbench.Xmodem
