import HplcWorkbench.LinkFields
import Mathlib.Tactic.IntervalCases

/-!
# The header fields survive packing

Each parsing function of the header undoes its packing function on values in range. For the
address field this holds as long as no relay is listed, because the cut of the relays depends
on what follows.
-/

namespace HplcWorkbench.Adapter10376

/-! ## Fn bitmap and control byte -/

theorem dtToFn_fnToDt {fn : ℕ} (h1 : 1 ≤ fn) (h2 : fn ≤ 255) :
    dtToFn (fnToDt fn).1 (fnToDt fn).2 = fn := by
  interval_cases fn <;> rfl

theorem packControl_val (direction : Direction) (prm : Option ℕ) (commMode : ℕ) :
    (packControl direction prm commMode : ℕ) =
      direction.bit * 128 + (prm.getD (defaultPrm direction)) % 2 * 64 + commMode % 64 := by
  have hdir : direction.bit < 2 := by cases direction <;> decide
  rw [packControl, BitFields.and_mask1, BitFields.and_mask6,
    BitFields.shiftLeft_or_or _ (by omega) (by omega) (by omega), byte_val]
  omega

theorem parseControl_direction (direction : Direction) (prm : Option ℕ) (commMode : ℕ) :
    (parseControl (packControl direction prm commMode)).direction = direction := by
  have hval := packControl_val direction prm commMode
  have hbit : (packControl direction prm commMode : ℕ) / 2 ^ 7 % 2 = direction.bit := by
    have hdir : direction.bit < 2 := by cases direction <;> decide
    omega
  rw [parseControl, BitFields.shiftRight_eq, BitFields.and_mask1, hbit]
  cases direction <;> rfl

theorem parseControl_packControl (direction : Direction) (prm : Option ℕ) {commMode : ℕ}
    (h : commMode < 64) :
    parseControl (packControl direction prm commMode) =
      ⟨direction.bit, prm.getD (defaultPrm direction) % 2, commMode, direction⟩ := by
  have hval := packControl_val direction prm commMode
  have hdirection := parseControl_direction direction prm commMode
  have hdir : direction.bit < 2 := by cases direction <;> decide
  rw [parseControl] at hdirection ⊢
  rw [BitFields.shiftRight_eq, BitFields.shiftRight_eq, BitFields.and_mask1, BitFields.and_mask1,
    BitFields.and_mask6] at *
  congr 1 <;> omega

/-! ## Information field -/

def UpInfo.InRange (i : UpInfo) : Prop :=
  i.relayLevel < 16 ∧ i.moduleId < 4 ∧ i.routeFlag < 2 ∧ i.channel < 16 ∧ i.meterChannel < 16 ∧
    i.phase < 16 ∧ i.sigQuality < 16 ∧ i.eventFlag < 2 ∧ i.seq < 256

def DownInfo.InRange (i : DownInfo) : Prop :=
  i.relayLevel < 16 ∧ i.conflictDetect < 2 ∧ i.moduleId < 4 ∧ i.subNode < 2 ∧ i.ecc < 16 ∧
    i.channel < 16 ∧ i.expectReplyLen < 256 ∧ i.rateUnit < 2 ∧ i.rate < 32768 ∧ i.seq < 256

/-- The fields that `info` stands for in this direction: absent keys count as 0. -/
def InfoArg.fields (info : InfoArg) : Direction → Info
  | .up => .up {
      relayLevel := info.relayLevel.getD 0
      moduleId := info.moduleId.getD 0
      routeFlag := info.routeFlag.getD 0
      channel := info.channel.getD 0
      meterChannel := info.meterChannel.getD 0
      phase := info.phase.getD 0
      sigQuality := info.sigQuality.getD 0
      eventFlag := info.eventFlag.getD 0
      seq := info.seq.getD 0 }
  | .down => .down {
      relayLevel := info.relayLevel.getD 0
      conflictDetect := info.conflictDetect.getD 0
      moduleId := info.moduleId.getD 0
      subNode := info.subNode.getD 0
      ecc := info.ecc.getD 0
      channel := info.channel.getD 0
      expectReplyLen := info.expectReplyLen.getD 0
      rateUnit := info.rateUnit.getD 0
      rate := info.rate.getD 0
      seq := info.seq.getD 0 }

def Info.InRange : Info → Prop
  | .up i => i.InRange
  | .down i => i.InRange

theorem packInfo_length (direction : Direction) (info : InfoArg) :
    (packInfo direction info).length = 6 := by
  cases direction <;> rfl

section Words
variable (a b c d n : ℕ)

/-- Two half bytes in one byte. -/
theorem nibbles_val :
    (byte ((a &&& 0x0F) <<< 4 ||| (b &&& 0x0F)) : ℕ) = a % 16 * 16 + b % 16 := by
  rw [BitFields.and_mask4, BitFields.and_mask4, BitFields.shiftLeft_or _ (by omega), byte_val]
  omega

theorem high_nibble : (a % 16 * 16 + b % 16) / 2 ^ 4 % 16 = a % 16 := by
  omega

theorem upFirst_val :
    (byte (((a &&& 0x0F) <<< 4) ||| ((b &&& 0x03) <<< 2) ||| (c &&& 0x01)) : ℕ) =
      a % 16 * 16 + b % 4 * 4 + c % 2 := by
  rw [BitFields.and_mask4, BitFields.and_mask2, BitFields.and_mask1,
    BitFields.shiftLeft_or_or _ (by omega) (by omega) (by omega), byte_val]
  omega

theorem downFirst_val :
    (byte (((a &&& 0x0F) <<< 4) ||| ((b &&& 0x01) <<< 3) ||| ((c &&& 0x03) <<< 1) |||
      (d &&& 0x01)) : ℕ) = a % 16 * 16 + b % 2 * 8 + c % 4 * 2 + d % 2 := by
  have hjoin : ((a % 16) <<< 4) ||| ((b % 2) <<< 3) ||| ((c % 4) <<< 1) =
      (a % 16 * 8 + b % 2 * 4 + c % 4) <<< 1 := by
    have hcut : (c % 4) <<< 1 < 2 ^ 3 := by
      rw [Nat.shiftLeft_eq]
      omega
    rw [BitFields.shiftLeft_or_or _ (by omega) (by omega) hcut, Nat.shiftLeft_eq, Nat.shiftLeft_eq]
    omega
  rw [BitFields.and_mask4, BitFields.and_mask1, BitFields.and_mask1, BitFields.and_mask2, hjoin,
    BitFields.shiftLeft_or _ (by omega), byte_val]
  omega

theorem rateHigh_val :
    (byte ((((a &&& 0x01) &&& 0x01) <<< 7) ||| (((n &&& 0x7FFF) >>> 8) &&& 0x7F)) : ℕ) =
      a % 2 * 128 + n % 32768 / 256 := by
  have hlow : n % 32768 / 2 ^ 8 < 128 := by omega
  rw [BitFields.and_mask1, BitFields.and_mask1, BitFields.and_mask15, BitFields.and_mask7,
    BitFields.shiftRight_eq, Nat.mod_mod, Nat.mod_eq_of_lt hlow, BitFields.shiftLeft_or _ hlow,
    byte_val]
  omega

end Words

theorem parseInfo_packInfo {direction : Direction} {info : InfoArg}
    (h : (info.fields direction).InRange) :
    parseInfo direction (packInfo direction info) = info.fields direction := by
  cases direction with
  | up =>
      obtain ⟨hrelay, hmodule, hroute, hchannel, hmeter, hphase, hsig, hevent, hseq⟩ := h
      dsimp only at hrelay hmodule hroute hchannel hmeter hphase hsig hevent hseq
      simp only [parseInfo, packInfo, InfoArg.fields, List.getD_cons_zero, List.getD_cons_succ,
        upFirst_val, nibbles_val]
      simp only [byte_val, BitFields.and_mask1, BitFields.and_mask2, BitFields.and_mask4,
        BitFields.and_mask8, BitFields.shiftRight_eq, high_nibble]
      congr 2 <;> omega
  | down =>
      obtain ⟨hrelay, hconflict, hmodule, hsub, hecc, hchannel, hreply, hunit, hrate, hseq⟩ := h
      dsimp only at hrelay hconflict hmodule hsub hecc hchannel hreply hunit hrate hseq
      have hlow : (byte ((info.rate.getD 0 &&& 0x7FFF) &&& 0xFF) : ℕ) = info.rate.getD 0 % 256 := by
        rw [BitFields.and_mask15, BitFields.and_mask8, byte_val]
        omega
      have hsplit : ((info.rateUnit.getD 0 % 2 * 128 + info.rate.getD 0 % 32768 / 256) &&& 0x7F)
          <<< 8 ||| info.rate.getD 0 % 256 = info.rate.getD 0 := by
        rw [BitFields.and_mask7, BitFields.shiftLeft_or _ (by omega)]
        omega
      simp only [parseInfo, packInfo, InfoArg.fields, List.getD_cons_zero, List.getD_cons_succ,
        downFirst_val, nibbles_val, rateHigh_val, hlow, hsplit]
      simp only [byte_val, BitFields.and_mask1, BitFields.and_mask2, BitFields.and_mask4,
        BitFields.and_mask8, BitFields.shiftRight_eq]
      congr 2 <;> omega

/-! ## Address field -/

def IsDigit (c : Char) : Prop := '0' ≤ c ∧ c ≤ '9'

/-- A meter address as the callers write it. -/
def TwelveDigits (s : String) : Prop := s.toList.length = 12 ∧ ∀ c ∈ s.toList, IsDigit c

instance (c : Char) : Decidable (IsDigit c) := inferInstanceAs (Decidable ('0' ≤ c ∧ c ≤ '9'))

instance (s : String) : Decidable (TwelveDigits s) :=
  @instDecidableAnd _ _ (Nat.decEq _ _) (List.decidableBAll _ _)

theorem IsDigit.exists_val {c : Char} (h : IsDigit c) : ∃ k < 10, c = Char.ofNat (48 + k) := by
  have hlo : 48 ≤ c.toNat := h.1
  have hhi : c.toNat ≤ 57 := h.2
  refine ⟨c.toNat - 48, by omega, ?_⟩
  rw [Nat.add_sub_cancel' hlo, Char.ofNat_toNat]

theorem hexDigitValue_digit {k : ℕ} (h : k < 10) :
    hexDigitValue (Char.ofNat (48 + k)) = some k := by
  interval_cases k <;> rfl

theorem toDigits_digit {k : ℕ} (h : k < 10) : Nat.toDigits 10 k = [Char.ofNat (48 + k)] := by
  interval_cases k <;> rfl

/-- Digits become half bytes, and each half byte prints as its digit. -/
theorem pairsToBytes_digits (n : ℕ) : ∀ digits : List Char, digits.length = 2 * n →
    (∀ c ∈ digits, IsDigit c) →
      ∃ bs, pairsToBytes digits = .ok bs ∧ bs.length = n ∧ bcdChars bs = digits := by
  induction n with
  | zero =>
      intro digits hlen _
      obtain rfl := List.length_eq_zero_iff.mp hlen
      exact ⟨[], rfl, rfl, rfl⟩
  | succ n ih =>
      intro digits hlen hd
      match digits, hlen, hd with
      | hi :: lo :: rest, hlen, hd =>
        obtain ⟨bs, hbs, hcount, hchars⟩ := ih rest (by simp at hlen; omega)
          (fun c hc => hd c (by simp [hc]))
        obtain ⟨x, hx, rfl⟩ := (hd hi (by simp)).exists_val
        obtain ⟨y, hy, rfl⟩ := (hd lo (by simp)).exists_val
        have hval : (byte (x <<< 4 ||| y) : ℕ) = x * 16 + y := by
          rw [BitFields.shiftLeft_or _ (by omega), byte_val]
          omega
        refine ⟨byte (x <<< 4 ||| y) :: bs, ?_, by simp [hcount], ?_⟩
        · simp only [pairsToBytes, hexDigitValue_digit hx, hexDigitValue_digit hy, hbs]
          rfl
        · have hhigh : ((x * 16 + y) >>> 4) &&& 0xF = x := by
            rw [BitFields.shiftRight_eq, BitFields.and_mask4]
            omega
          have hlow : (x * 16 + y) &&& 0xF = y := by
            rw [BitFields.and_mask4]
            omega
          rw [bcdChars, List.flatMap_cons, hval, hhigh, hlow, toDigits_digit hx, toDigits_digit hy]
          change _ ++ bcdChars bs = _
          rw [hchars]
          rfl

theorem pyStrip_digits {digits : List Char} (h : ∀ c ∈ digits, IsDigit c) :
    pyStrip digits = digits := by
  have hspace : ∀ c, IsDigit c → pySpace c = false := by
    intro c hc
    obtain ⟨k, hk, rfl⟩ := hc.exists_val
    interval_cases k <;> rfl
  have hkeep : ∀ cs : List Char, (∀ c ∈ cs, IsDigit c) → cs.dropWhile pySpace = cs := by
    intro cs hcs
    cases cs with
    | nil => rfl
    | cons c rest =>
      rw [List.dropWhile_cons_of_neg]
      simp [hspace c (hcs c (by simp))]
  rw [pyStrip, hkeep digits h, hkeep _ (fun c hc => h c (List.mem_reverse.mp hc)),
    List.reverse_reverse]

/-- Twelve digits are neither padded nor cut. -/
theorem strToBcd_eq {s : String} (h : TwelveDigits s) : strToBcd s 6 = pairsToBytes s.toList := by
  obtain ⟨hlen, hd⟩ := h
  have hfilter : s.toList.filter (· ≠ '-') = s.toList := by
    rw [List.filter_eq_self]
    intro c hc
    obtain ⟨k, hk, rfl⟩ := (hd c hc).exists_val
    interval_cases k <;> rfl
  have hpad : (List.replicate (6 * 2 - s.toList.length) '0' ++ s.toList).take (6 * 2) = s.toList := by
    rw [hlen]
    simp [List.take_of_length_le, hlen]
  simp only [strToBcd, pyStrip_digits hd, hfilter, hpad]

theorem strToBcd_digits {s : String} (h : TwelveDigits s) :
    ∃ bs, strToBcd s 6 = .ok bs ∧ bs.length = 6 ∧ bcdToStr bs = s := by
  obtain ⟨hlen, hd⟩ := h
  obtain ⟨bs, hbs, hcount, hchars⟩ := pairsToBytes_digits 6 s.toList (by omega) hd
  refine ⟨bs, ?_, hcount, ?_⟩
  · rw [strToBcd_eq ⟨hlen, hd⟩, hbs]
  · rw [bcdToStr, hchars, String.ofList_toList]

end HplcWorkbench.Adapter10376
