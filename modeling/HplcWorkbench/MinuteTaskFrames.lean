import HplcWorkbench.AppEncode
import HplcWorkbench.FrameRoundTrip
import HplcWorkbench.HexReading
import Mathlib.Data.List.TakeWhile

/-!
# Task frames in the minute logs

The log parser reads the task and archive frames 11H-F231 and 11H-F232 back from the hexadecimal
text of a log line. It finds every task that the encoder wrote. It turns the bytes of an archive
address around, which the encoder does not, so the addresses come back exactly when their digit
pairs read the same both ways.
-/

namespace HplcWorkbench.MinuteAssert

open Adapter10376

/-! ## Lines of the log -/

def isHexDigit (c : Char) : Bool := (hexDigitValue c).isSome

/-- What follows a prefix of the given shape: `none` stands for a decimal digit. -/
def dropShape : List (Option Char) → List Char → Option (List Char)
  | [], cs => some cs
  | some c :: shape, d :: cs => if c = d then dropShape shape cs else none
  | none :: shape, d :: cs => if d.isDigit then dropShape shape cs else none
  | _ :: _, [] => none

/-- `^\[\d{8}-\d{2}:\d{2}:\d{2}:\d{3}\]`. -/
def stampShape : List (Option Char) :=
  let digits (n : ℕ) : List (Option Char) := List.replicate n none
  [some '['] ++ digits 8 ++ [some '-'] ++ digits 2 ++ [some ':'] ++ digits 2 ++ [some ':'] ++
    digits 2 ++ [some ':'] ++ digits 3 ++ [some ']']

/-- `dedup_key`. -/
def dedupKey (line : List Char) : List Char :=
  let stripped := pyStrip ((dropShape stampShape line).getD line)
  let run := (stripped.reverse.takeWhile isHexDigit).reverse
  if run = [] then stripped else run

/-- `parse_full_f231_frame`: task number, cycle and enable flag. -/
def parseFullF231Frame (line : List Char) : Option (ℕ × ℕ × ℕ) := do
  let content := dedupKey line
  if content = [] ∨ ¬ content.all isHexDigit then none
  else
    let data ← fromHexChars content
    if data.length < 17 ∨ byteAt data 0 ≠ 0x68 ∨ (byteAt data 3 : ℕ) &&& 0x80 ≠ 0 ∨
        byteAt data 10 ≠ 0x11 ∨ byteAt data 11 ≠ 0x40 ∨ byteAt data 12 ≠ 0x1C then none
    else
      let taskId := byteAt data 13
      let switchFlag := byteAt data 14
      if taskId = 0xFF then if switchFlag = 0 then some (0xFF, 0, 0) else none
      else some ((taskId : ℕ), (byteAt data 16 : ℕ), (switchFlag : ℕ) &&& 0x01)

/-- `parse_f232_frame`: task number and meter addresses. -/
def parseF232Frame (frame : Bytes) : Option (ℕ × List String) :=
  if frame.length < 16 ∨ byteAt frame 3 ≠ 0x43 ∨ byteAt frame 10 ≠ 0x11 ∨
      byteAt frame 11 ≠ 0x80 ∨ byteAt frame 12 ≠ 0x1C then none
  else
    let taskId := byteAt frame 13
    if taskId = 0xFF then none
    else
      let count := (byteAt frame 14 : ℕ) ||| (byteAt frame 15 : ℕ) <<< 8
      if count = 0 ∨ frame.length < 16 + count * 6 then none
      else
        let addresses := (List.range count).map fun i =>
          upper (hex (slice frame (16 + i * 6) (22 + i * 6)).reverse)
        some ((taskId : ℕ), addresses)

/-! ## What the encoder was given -/

/-- A downlink frame of AFN 11H without an address field. -/
def taskFrame (info : InfoArg) (fn : ℕ) (data : Bytes) : PyM Bytes :=
  buildFrame { info, afn := 0x11, fn, appdata := data }

/-- The flag that an `action` stands for. -/
def actionFlag (v : PyVal) : Option ℕ :=
  if v.eqInt 1 ∨ v.eqStr "enable" then some 1
  else if v.eqInt 0 ∨ v.eqStr "delete" then some 0
  else none

/-- The task that the parameters of 11H-F231 describe. -/
structure TaskGiven (p : Params) (task cycle flag : ℕ) : Prop where
  task : (p.getD "task_no" (.int 0)).toInt = .ok (task : ℤ)
  cycle : (p.getD "cycle_min" (.int 0)).toInt = .ok (cycle : ℤ)
  flag : actionFlag (p.getD "action" (.str "enable")) = some flag

/-- Deleting all tasks gives neither a task nor a cycle. -/
def expectedTask (task cycle flag : ℕ) : ℕ × ℕ × ℕ :=
  if task = 0xFF ∧ flag = 0 then (0xFF, 0, 0) else (task, cycle, flag)

/-- The address of an element of `meters`. -/
def meterText (m : PyVal) : String :=
  match m with
  | .dict entries => String.ofList (pyStrip (Params.get entries "addr").toStr.toList)
  | m => String.ofList (pyStrip m.toStr.toList)

/-- The archive that the parameters of 11H-F232 describe. -/
structure ArchiveGiven (p : Params) (task : ℕ) (addresses : List String) : Prop where
  task : (p.getD "task_no" (.int 0)).toInt = .ok (task : ℤ)
  addresses : ∃ ms, (p.get "meters").orEmpty.elems = .ok ms ∧ addresses = ms.map meterText

/-! ## Fixed places of a frame -/

section Frame
variable {info : InfoArg} {data : Bytes}

/-- Thirteen bytes stand before the data unit of a task frame and two behind it. -/
theorem taskFrame_shape (info : InfoArg) (fn : ℕ) (data : Bytes) :
    ∃ l₀ l₁ r₀ r₁ r₂ r₃ r₄ r₅ cs, taskFrame info fn data =
      .ok ([0x68, l₀, l₁, 0x43, r₀, r₁, r₂, r₃, r₄, r₅, 0x11, (fnToDt fn).1, (fnToDt fn).2] ++ data ++
        [cs, 0x16]) := by
  have hsix := packInfo_length .down (markAddress info [])
  match hinfo : packInfo .down (markAddress info []), hsix with
  | [r₀, r₁, r₂, r₃, r₄, r₅], _ =>
    have hframe : taskFrame info fn data = .ok (linkFrame 0x43
        ([r₀, r₁, r₂, r₃, r₄, r₅] ++ [0x11, (fnToDt fn).1, (fnToDt fn).2] ++ data) 0x16) := by
      have hpack : packAddress {} = .ok [] := by decide
      unfold taskFrame buildFrame
      dsimp only
      rw [hpack]
      have hcontrol : packControl .down none 3 = 0x43 := by decide
      have hafn : byte (0x11 &&& 0xFF) = 0x11 := by decide
      simp only [bind, Except.bind, pure, Except.pure, userData, hinfo, hcontrol, hafn,
        List.append_nil]
    exact ⟨_, _, r₀, r₁, r₂, r₃, r₄, r₅, _, hframe⟩

end Frame

/-! ## 11H-F231 -/

section Task
variable {p : Params}

theorem u8_given {v : PyVal} {name : String} {lo hi : Byte} {b : InRange lo hi}
    (h : u8 v name lo hi = .ok b) : v.toInt = .ok (((b : Byte) : ℕ) : ℤ) := by
  unfold u8 at h
  cases hv : v.toInt with
  | error e =>
      rw [hv] at h
      cases h
  | ok n =>
      rw [hv] at h
      dsimp only [bind, Except.bind] at h
      split at h
      · rename_i hrange
        obtain rfl := Except.ok.inj h
        have hlt := hi.isLt
        have hval : ((byte n.toNat : Byte) : ℕ) = n.toNat := by
          rw [byte_val]
          omega
        change Except.ok n = Except.ok (((byte n.toNat : Byte) : ℕ) : ℤ)
        rw [hval, Int.toNat_of_nonneg (by omega)]
      · cases h

theorem actionArg_given {v : PyVal} {a : InRange 0 1} {hint : String}
    (h : actionArg v "enable" "delete" hint = .ok a) : actionFlag v = some ((a : Byte) : ℕ) := by
  unfold actionArg at h
  unfold actionFlag
  split at h
  · rename_i hon
    rw [if_pos hon]
    obtain rfl := Except.ok.inj h
    rfl
  · rename_i hon
    rw [if_neg hon]
    split at h
    · rename_i hoff
      rw [if_pos hoff]
      obtain rfl := Except.ok.inj h
      rfl
    · cases h

/-- What the encoder keeps of the parameters is what they give. -/
theorem readTask_given {f : TaskConfig} (h : entry11F231.read p = .ok f) :
    TaskGiven p f.taskNo (f.cycle : Byte) (f.action : Byte) ∧
      (f.taskNo = 0xFF → (f.action : Byte) = 0) := by
  unfold entry11F231 at h
  dsimp only at h
  obtain ⟨action, haction, h⟩ := bind_eq_ok h
  have hflag := actionArg_given haction
  have hrest : ∀ taskNo : Byte,
      ((do
        let protocol ← u8 (p.getD "protocol" (.int 2)) "protocol" 2 3
        let cycle ← u8 (p.getD "cycle_min" (.int 0)) "cycle_min"
        let items ← optionalList p "items" itemArg
        let _ ← [0, 1, 2].mapM (fun mt : Byte =>
          counted (meterGroup items mt) ("meter_type=" ++ toString mt ++ " 数据项数量"))
        pure ⟨taskNo, action, protocol, cycle, items⟩ : PyM TaskConfig) = .ok f) →
      f.taskNo = taskNo ∧ f.action = action ∧
        (p.getD "cycle_min" (.int 0)).toInt = .ok (((f.cycle : Byte) : ℕ) : ℤ) := by
    intro taskNo h
    obtain ⟨protocol, -, h⟩ := bind_eq_ok h
    obtain ⟨cycle, hcycle, h⟩ := bind_eq_ok h
    obtain ⟨items, -, h⟩ := bind_eq_ok h
    obtain ⟨_, -, h⟩ := bind_eq_ok h
    obtain rfl := Except.ok.inj h
    exact ⟨rfl, rfl, u8_given hcycle⟩
  obtain ⟨number, hnumber, h⟩ := bind_eq_ok h
  split at h
  · rename_i hall
    obtain ⟨htask, haction', hcycle⟩ := hrest 0xFF h
    rw [hall.2] at hnumber
    exact ⟨⟨htask ▸ hnumber, hcycle, haction' ▸ hflag⟩, fun _ => haction' ▸ hall.1⟩
  · obtain ⟨taskNo, htaskNo, h⟩ := bind_eq_ok h
    obtain ⟨htask, haction', hcycle⟩ := hrest taskNo h
    refine ⟨⟨htask ▸ u8_given htaskNo, hcycle, haction' ▸ hflag⟩, ?_⟩
    intro hall
    have hle : ((taskNo : Byte) : ℕ) ≤ 15 := taskNo.2.2
    rw [← htask, hall] at hle
    omega

/-- A line that is the hexadecimal text of a frame and nothing else. -/
structure HexLine (line : List Char) (frame : Bytes) : Prop where
  digits : ∀ c ∈ line, isHexDigit c
  reads : fromHexChars line = some frame

theorem hexDigit_chars {c : Char} (h : isHexDigit c) : pySpace c = false ∧ c ≠ '[' := by
  have hrange : (48 ≤ c.toNat ∧ c.toNat ≤ 57) ∨ (97 ≤ c.toNat ∧ c.toNat ≤ 102) ∨
      (65 ≤ c.toNat ∧ c.toNat ≤ 70) := by
    unfold isHexDigit hexDigitValue at h
    split at h
    · rename_i hc
      exact .inl hc
    · split at h
      · rename_i hc
        exact .inr (.inl hc)
      · split at h
        · rename_i hc
          exact .inr (.inr hc)
        · cases h
  constructor
  · rw [pySpace, decide_eq_false_iff_not]
    simp only [List.mem_cons, List.not_mem_nil, or_false]
    omega
  · rintro rfl
    revert hrange
    decide

theorem dedupKey_hexLine {line : List Char} {frame : Bytes} (h : HexLine line frame) :
    dedupKey line = line := by
  have hstamp : dropShape stampShape line = none := by
    cases line with
    | nil => rfl
    | cons c rest =>
        have hc := (hexDigit_chars (h.digits c List.mem_cons_self)).2
        exact if_neg fun heq => hc heq.symm
  have hstrip : pyStrip line = line :=
    pyStrip_eq_self fun c hc => (hexDigit_chars (h.digits c hc)).1
  have hrun : (line.reverse.takeWhile isHexDigit).reverse = line := by
    rw [List.takeWhile_eq_self_iff.mpr fun c hc => h.digits c (List.mem_reverse.mp hc),
      List.reverse_reverse]
  rw [dedupKey]
  simp only [hstamp, Option.getD_none, hstrip, hrun, ite_self]

/-- The parser finds the task in any text of the frame. -/
theorem parseFullF231Frame_written {info : InfoArg} {f : TaskConfig} {frame : Bytes} {line : List Char}
    (hframe : taskFrame info 231 (entry11F231.write f) = .ok frame) (hline : HexLine line frame)
    (hall : f.taskNo = 0xFF → (f.action : Byte) = 0) :
    parseFullF231Frame line = some (expectedTask f.taskNo (f.cycle : Byte) (f.action : Byte)) := by
  obtain ⟨l₀, l₁, r₀, r₁, r₂, r₃, r₄, r₅, cs, hshape⟩ :=
    taskFrame_shape info 231 (entry11F231.write f)
  obtain rfl := Except.ok.inj (hshape.symm.trans hframe)
  have hne : line ≠ [] := by
    rintro rfl
    cases hline.reads
  have hdigits : line.all isHexDigit := List.all_eq_true.mpr hline.digits
  have hunit : fnToDt 231 = (0x40, 0x1C) := by decide
  have hflag : ((f.action : Byte) : ℕ) ≤ 1 := f.action.2.2
  rw [parseFullF231Frame]
  dsimp only
  rw [dedupKey_hexLine hline, if_neg (by simp [hne, hdigits]), hline.reads]
  have hwrite : entry11F231.write f = [f.taskNo, (f.action : Byte), (f.protocol : Byte), (f.cycle : Byte)] ++
      ([0, 1, 2] : Bytes).flatMap (fun mt => groupBytes mt (meterGroup f.items mt)) := rfl
  rw [hwrite, hunit]
  generalize ([0, 1, 2] : Bytes).flatMap (fun mt => groupBytes mt (meterGroup f.items mt)) = rest
  rw [Option.bind_eq_bind, Option.bind_some, if_neg]
  · have hbyte : ∀ b : Byte, (b : ℕ) ≤ 1 → (b : ℕ) &&& 0x01 = b := by
      intro b hb
      interval_cases (b : ℕ) <;> rfl
    change (if f.taskNo = 0xFF then if (f.action : Byte) = 0 then some (0xFF, 0, 0) else none
      else some ((f.taskNo : ℕ), ((f.cycle : Byte) : ℕ), ((f.action : Byte) : ℕ) &&& 0x01)) = _
    rw [hbyte _ hflag, expectedTask]
    by_cases htask : f.taskNo = 0xFF
    · rw [if_pos htask, if_pos (hall htask), htask, hall htask]
      rfl
    · have hvalue : ¬ ((f.taskNo : ℕ) = 0xFF ∧ ((f.action : Byte) : ℕ) = 0) :=
        fun h => htask (Fin.ext h.1)
      rw [if_neg htask, if_neg hvalue]
  · rintro (h | h | h | h | h | h)
    · simp at h
      omega
    · exact h rfl
    · exact h (show ((0x43 : Byte) : ℕ) &&& 0x80 = 0 by decide)
    all_goals exact h rfl

end Task

/-! ## 11H-F232 -/

section Archive
variable {p : Params}

theorem bcdBytes_given {v : PyVal} {name : String} {a : BcdAddr} (h : bcdBytes v name = .ok a) :
    a.text = String.ofList (pyStrip v.toStr.toList) := by
  unfold bcdBytes at h
  dsimp only at h
  split at h
  · split at h
    · obtain rfl := Except.ok.inj h
      rfl
    · cases h
  · split at h <;> cases h

theorem mapM_given {row : PyVal → PyM BcdAddr} {text : PyVal → String}
    (hrow : ∀ v a, row v = .ok a → a.text = text v) :
    ∀ {vs : List PyVal} {as : List BcdAddr}, vs.mapM row = .ok as →
      as.map BcdAddr.text = vs.map text := by
  intro vs
  induction vs with
  | nil =>
      intro as h
      obtain rfl := Except.ok.inj h
      rfl
  | cons v vs ih =>
      intro as h
      rw [List.mapM_cons] at h
      obtain ⟨a, ha, h⟩ := bind_eq_ok h
      obtain ⟨rest, hrest, h⟩ := bind_eq_ok h
      obtain rfl := Except.ok.inj h
      rw [List.map_cons, List.map_cons, hrow v a ha, ih hrest]

theorem readArchive_given {f : InRange 1 15 × UpTo BcdAddr 65535} (h : entry11F232.read p = .ok f) :
    ArchiveGiven p (f.1 : Byte) (f.2.1.map BcdAddr.text) := by
  unfold entry11F232 at h
  dsimp only at h
  obtain ⟨taskNo, htaskNo, h⟩ := bind_eq_ok h
  obtain ⟨meters, hmeters, h⟩ := bind_eq_ok h
  obtain ⟨bounded, hbounded, h⟩ := bind_eq_ok h
  obtain rfl := Except.ok.inj h
  obtain ⟨ms, hms, hmeters⟩ := bind_eq_ok hmeters
  have hsame : bounded.1 = meters := by
    unfold upTo at hbounded
    split at hbounded
    · obtain rfl := Except.ok.inj hbounded
      rfl
    · cases hbounded
  refine ⟨u8_given htaskNo, ms, hms, ?_⟩
  rw [hsame]
  refine mapM_given ?_ hmeters
  intro m a ha
  cases m <;> exact bcdBytes_given ha

/-- The digit pairs of the address read the same both ways. -/
def PairPalindrome (address : String) : Prop :=
  ∃ a b c d e f, address.toList = [a, b, c, d, e, f, e, f, c, d, a, b]

theorem wire_digits (a : BcdAddr) : a.bytes.length = 6 ∧ hexChars a.bytes = a.text.toList := by
  obtain ⟨bs, -, hpairs, hcount, hchars⟩ :=
    fromHexChars_digits 6 a.text.toList a.digits.1 a.digits.2
  have hpacked := a.packed
  rw [strToBcd_eq a.digits, hpairs] at hpacked
  obtain rfl := Except.ok.inj hpacked
  exact ⟨hcount, hchars⟩

theorem printed_digits (a : BcdAddr) :
    (hexChars a.bytes.reverse).map Char.toUpper = hexChars a.bytes.reverse := by
  refine (List.map_congr_left fun c hc => ?_).trans (List.map_id _)
  obtain ⟨b, hb, hmem⟩ := List.mem_flatMap.mp hc
  have hdigit : c ∈ a.text.toList := by
    rw [← (wire_digits a).2]
    exact List.mem_flatMap.mpr ⟨b, List.mem_reverse.mp hb, hmem⟩
  obtain ⟨k, hk, rfl⟩ := (a.digits.2 c hdigit).exists_val
  interval_cases k <;> rfl

/-- The parser prints the bytes of an address from the last to the first. -/
theorem printed_eq_iff (a : BcdAddr) :
    upper (hex a.bytes.reverse) = a.text ↔ PairPalindrome a.text := by
  obtain ⟨hlength, hchars⟩ := wire_digits a
  have hupper := printed_digits a
  match hwire : a.bytes, hlength with
  | [b₀, b₁, b₂, b₃, b₄, b₅], _ =>
    rw [hwire] at hchars hupper
    have htext : upper (hex [b₀, b₁, b₂, b₃, b₄, b₅].reverse) = a.text ↔
        hexChars [b₀, b₁, b₂, b₃, b₄, b₅].reverse = a.text.toList := by
      rw [upper, toList_hex, hupper]
      constructor
      · intro h
        rw [← h, String.toList_ofList]
      · intro h
        rw [h, String.ofList_toList]
    rw [htext, PairPalindrome, ← hchars]
    simp only [hexChars, List.reverse_cons, List.reverse_nil, List.nil_append, List.cons_append,
      List.flatMap_cons, List.flatMap_nil, List.cons.injEq, and_true]
    constructor
    · intro h
      exact ⟨hexDigitLower ((b₀ : ℕ) / 16), hexDigitLower ((b₀ : ℕ) % 16),
        hexDigitLower ((b₁ : ℕ) / 16), hexDigitLower ((b₁ : ℕ) % 16),
        hexDigitLower ((b₂ : ℕ) / 16), hexDigitLower ((b₂ : ℕ) % 16), by grind⟩
    · rintro ⟨a, b, c, d, e, f, h⟩
      grind

theorem length_flatMap_bytes (as : List BcdAddr) : (as.flatMap BcdAddr.bytes).length = as.length * 6 := by
  induction as with
  | nil => rfl
  | cons a as ih =>
      rw [List.flatMap_cons, List.length_append, ih, (wire_digits a).1, List.length_cons]
      omega

theorem slice_address (pre post : Bytes) (as : List BcdAddr) (i : ℕ) (h : i < as.length) :
    slice (pre ++ as.flatMap BcdAddr.bytes ++ post) (pre.length + i * 6) (pre.length + 6 + i * 6) =
      as[i].bytes := by
  have hsplit : as = as.take i ++ as[i] :: as.drop (i + 1) := by
    rw [← List.drop_eq_getElem_cons h, List.take_append_drop]
  have hbefore : (as.take i).length = i := by
    rw [List.length_take]
    omega
  have hparts : pre ++ as.flatMap BcdAddr.bytes ++ post =
      (pre ++ (as.take i).flatMap BcdAddr.bytes) ++ as[i].bytes ++
        ((as.drop (i + 1)).flatMap BcdAddr.bytes ++ post) := by
    conv_lhs => rw [hsplit]
    simp only [List.flatMap_append, List.flatMap_cons, List.append_assoc]
  refine slice_of_parts hparts ?_ ?_
  · rw [List.length_append, length_flatMap_bytes, hbefore]
  · rw [List.length_append, length_flatMap_bytes, hbefore, (wire_digits as[i]).1]
    omega

theorem parseF232Frame_written {info : InfoArg} {f : InRange 1 15 × UpTo BcdAddr 65535} {frame : Bytes}
    (hframe : taskFrame info 232 (entry11F232.write f) = .ok frame) (hne : f.2.1 ≠ []) :
    parseF232Frame frame =
      some (((f.1 : Byte) : ℕ), f.2.1.map fun a => upper (hex a.bytes.reverse)) := by
  obtain ⟨l₀, l₁, r₀, r₁, r₂, r₃, r₄, r₅, cs, hshape⟩ :=
    taskFrame_shape info 232 (entry11F232.write f)
  have hunit : fnToDt 232 = (0x80, 0x1C) := by decide
  obtain ⟨task, meters, hcount⟩ := f
  have hframe' : frame = [0x68, l₀, l₁, 0x43, r₀, r₁, r₂, r₃, r₄, r₅, 0x11, 0x80, 0x1C, task.1,
      byte meters.length, byte (meters.length / 256)] ++ meters.flatMap BcdAddr.bytes ++
        [cs, 0x16] := by
    rw [hunit] at hshape
    exact Except.ok.inj (hframe.symm.trans hshape)
  have hmany : (byte meters.length : ℕ) ||| (byte (meters.length / 256) : ℕ) <<< 8 =
      meters.length := by
    change le16 (byte meters.length) (byte (meters.length / 256)) = _
    rw [le16_eq, byte_val, byte_val]
    omega
  have hlength : frame.length = 18 + meters.length * 6 := by
    rw [hframe', List.length_append, List.length_append, length_flatMap_bytes]
    simp only [List.length_cons, List.length_nil]
    omega
  have hfourteen : byteAt frame 14 = byte meters.length := by
    rw [hframe']
    rfl
  have hfifteen : byteAt frame 15 = byte (meters.length / 256) := by
    rw [hframe']
    rfl
  have htask : byteAt frame 13 = task.1 := by
    rw [hframe']
    rfl
  have hnotAll : ¬ task.1 = 0xFF := by
    intro hall
    have hle : (task.1 : ℕ) ≤ 15 := task.2.2
    rw [hall] at hle
    omega
  have hsome : ¬ (meters.length = 0 ∨ frame.length < 16 + meters.length * 6) := by
    have hpos : 0 < meters.length := List.length_pos_iff.mpr hne
    omega
  rw [parseF232Frame, if_neg]
  · dsimp only
    rw [htask, if_neg hnotAll, hfourteen, hfifteen, hmany, if_neg hsome]
    congr 2
    refine List.ext_getElem (by simp) fun i hi hi' => ?_
    rw [List.getElem_map, List.getElem_map, List.getElem_range, hframe']
    rw [List.length_map] at hi'
    exact congrArg (fun bs : Bytes => upper (hex bs.reverse)) (slice_address _ _ meters i hi')
  · rintro (h | h | h | h | h)
    · omega
    all_goals
      rw [hframe'] at h
      exact h rfl

end Archive

/-! ## Both frames -/

/-- The parser finds the task given to 11H-F231 in any hexadecimal text of the frame. -/
def TaskReturned (info : InfoArg) (p : Params) (data : Bytes) : Prop :=
  ∃ frame task cycle flag, taskFrame info 231 data = .ok frame ∧ TaskGiven p task cycle flag ∧
    ∀ line, HexLine line frame → parseFullF231Frame line = some (expectedTask task cycle flag)

/-- The parser finds the task number and the addresses given to 11H-F232. -/
def ArchiveReturned (info : InfoArg) (p : Params) (data : Bytes) : Prop :=
  ∃ frame task addresses, taskFrame info 232 data = .ok frame ∧ ArchiveGiven p task addresses ∧
    parseF232Frame frame = some (task, addresses)

theorem ArchiveGiven.unique {p : Params} {t t' : ℕ} {as as' : List String} (h : ArchiveGiven p t as)
    (h' : ArchiveGiven p t' as') : t = t' ∧ as = as' := by
  obtain ⟨ms, hms, rfl⟩ := h.addresses
  obtain ⟨ms', hms', rfl⟩ := h'.addresses
  obtain rfl := Except.ok.inj (hms.symm.trans hms')
  have htask := Except.ok.inj (h.task.symm.trans h'.task)
  exact ⟨by omega, rfl⟩

theorem encode_eq_ok {e : TableEntry} {p : Params} {data : Bytes} (h : e.encode p = .ok data) :
    ∃ f, e.read p = .ok f ∧ e.write f = data := by
  obtain ⟨f, hread, hwrite⟩ := bind_eq_ok h
  exact ⟨f, hread, Except.ok.inj hwrite⟩

theorem archiveFrame_iff {info : InfoArg} {p : Params} {f : InRange 1 15 × UpTo BcdAddr 65535}
    (hread : entry11F232.read p = .ok f) (hne : f.2.1 ≠ []) :
    ArchiveReturned info p (entry11F232.write f) ↔ ∀ a ∈ f.2.1.map BcdAddr.text, PairPalindrome a := by
  obtain ⟨l₀, l₁, r₀, r₁, r₂, r₃, r₄, r₅, cs, hframe⟩ :=
    taskFrame_shape info 232 (entry11F232.write f)
  have hgiven := readArchive_given hread
  have hparse := parseF232Frame_written hframe hne
  rw [List.forall_mem_map]
  constructor
  · rintro ⟨frame, task, addresses, hbuilt, hreturned, hfound⟩
    obtain rfl := Except.ok.inj (hframe.symm.trans hbuilt)
    obtain ⟨-, rfl⟩ := hgiven.unique hreturned
    have hsame := congrArg Prod.snd (Option.some.inj (hparse.symm.trans hfound))
    exact fun a ha => (printed_eq_iff a).mp (List.map_inj_left.mp hsame a ha)
  · intro h
    have hsame : f.2.1.map (fun a => upper (hex a.bytes.reverse)) = f.2.1.map BcdAddr.text :=
      List.map_inj_left.mpr fun a ha => (printed_eq_iff a).mpr (h a ha)
    exact ⟨_, _, _, hframe, hgiven, hsame ▸ hparse⟩

/-- The frames of every task are read back; those of an archive exactly when its addresses read
the same in both byte orders. -/
theorem taskFrames_returned_iff (info : InfoArg) :
    (∀ p data, encodeAppData 0x11 231 p .down = .ok data → TaskReturned info p data) ∧
      ∀ p data, encodeAppData 0x11 232 p .down = .ok data →
        ∀ task addresses, ArchiveGiven p task addresses → addresses ≠ [] →
          (ArchiveReturned info p data ↔ ∀ a ∈ addresses, PairPalindrome a) := by
  constructor
  · intro p data h
    obtain ⟨f, hread, rfl⟩ := encode_eq_ok (e := entry11F231) h
    obtain ⟨l₀, l₁, r₀, r₁, r₂, r₃, r₄, r₅, cs, hframe⟩ :=
      taskFrame_shape info 231 (entry11F231.write f)
    obtain ⟨hgiven, hall⟩ := readTask_given hread
    exact ⟨_, _, _, _, hframe, hgiven, fun line hline =>
      parseFullF231Frame_written hframe hline hall⟩
  · intro p data h task addresses hgiven hne
    obtain ⟨f, hread, rfl⟩ := encode_eq_ok (e := entry11F232) h
    obtain ⟨-, rfl⟩ := (readArchive_given hread).unique hgiven
    exact archiveFrame_iff hread fun hempty => hne (by rw [hempty, List.map_nil])

/-- Parameters of 11H-F232 for task 1 and one meter. -/
def oneMeter (addr : String) : Params := [("task_no", .int 1), ("meters", .list [.str addr])]

/-- An address comes back with its digit pairs turned around. -/
theorem oneMeter_turned :
    encodeAppData 0x11 232 (oneMeter "123456789012") .down =
        .ok [1, 1, 0, 0x12, 0x34, 0x56, 0x78, 0x90, 0x12] ∧
      ArchiveGiven (oneMeter "123456789012") 1 ["123456789012"] ∧
      taskFrame {} 232 [1, 1, 0, 0x12, 0x34, 0x56, 0x78, 0x90, 0x12] =
        .ok [0x68, 24, 0, 0x43, 0, 0, 0, 0, 0, 0, 0x11, 0x80, 0x1C,
          1, 1, 0, 0x12, 0x34, 0x56, 0x78, 0x90, 0x12, 168, 0x16] ∧
      parseF232Frame [0x68, 24, 0, 0x43, 0, 0, 0, 0, 0, 0, 0x11, 0x80, 0x1C,
          1, 1, 0, 0x12, 0x34, 0x56, 0x78, 0x90, 0x12, 168, 0x16] =
        some (1, ["129078563412"]) :=
  ⟨by decide, ⟨rfl, _, rfl, by decide⟩, by decide, by decide⟩

theorem palindrome_returned :
    ArchiveReturned {} (oneMeter "123456563412") [1, 1, 0, 0x12, 0x34, 0x56, 0x56, 0x34, 0x12] := by
  have hgiven : ArchiveGiven (oneMeter "123456563412") 1 ["123456563412"] :=
    ⟨rfl, _, rfl, by decide⟩
  refine ((taskFrames_returned_iff {}).2 _ _ (by decide) 1 _ hgiven (by decide)).mpr ?_
  intro a ha
  obtain rfl := List.mem_singleton.mp ha
  exact ⟨_, _, _, _, _, _, rfl⟩

end HplcWorkbench.MinuteAssert
