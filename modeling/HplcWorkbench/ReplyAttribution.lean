import HplcWorkbench.CreditedFrames

/-!
# Attribution of replies in the batch job

Ownership is decided by searching hex text, so a frame can name more than one meter of the job.
Replies and denials are attributed right in the runs whose received frames are `Unambiguous`.
-/

namespace HplcWorkbench.Batch
open Adapter10376 FrameCodec SerialIO Transitions

/-- The address of an embedded frame, high byte first: the 645 address field, or the 698.45 server
address without its head byte, in reversed byte order. -/
def carriedAddress (n : ProtocolFrame) : Option String :=
  match fieldOf n.fields "地址域" with
  | some f => (fromHex f.hex).map fun bs => upper (hex bs.reverse)
  | none => do
    let f ← fieldOf n.fields "服务器地址SA"
    let bs ← fromHex f.hex
    pure (upper (hex (bs.drop 1).reverse))

/-- The searched texts of a reply or denial contain the address of at most one meter of the job,
and those of a reply with an embedded frame that of no meter but the one with the embedded
address. -/
structure Unambiguous (cfg : Config) (raw : Bytes) : Prop where
  single : ∀ decoded, decode cfg.store raw = .ok decoded →
    IsReply cfg decoded ∨ IsDenial decoded →
    ∀ m ∈ cfg.meters, ∀ m' ∈ cfg.meters,
      decodedMatchAddr decoded m → decodedMatchAddr decoded m' → m = m'
  sender : ∀ decoded, decode cfg.store raw = .ok decoded → IsReply cfg decoded →
    ∀ n ∈ decoded.nested, ∀ a, carriedAddress n = some a →
    ∀ m ∈ cfg.meters, decodedMatchAddr decoded m → (addrHexes m).2 = a

/-- Every frame that comes in is unambiguous. -/
def ClearFrames (cfg : Config) (_ : JobState) (e : JobEvent) : Prop :=
  ∀ raw, e = .append raw → Unambiguous cfg raw

section Attribution
variable {cfg : Config} {s : JobState} {history : List Bytes}

theorem fresh_of_reach (h : (job cfg).Reach (ClearFrames cfg) (startJob cfg history) s) :
    Fresh (Unambiguous cfg) history.length s := by
  refine h.invariant (fresh_start history) ?_
  intro s e s' _ hs hguard hstep
  cases jobStep_cases hstep with
  | slot i slot hslot hrunning hmove => exact hs.move hslot hmove
  | dispatcher hmove => exact hs.dispatch hmove
  | stop => exact ⟨hs.started, hs.numbered, hs.later, hs.slots⟩
  | append f => exact hs.append (hguard f rfl)
  | trim =>
      rw [trimHistory_eq]
      exact hs.drop (Nat.sub_le _ _)

/-- A recorded row is the one that its slot holds. -/
theorem Lawful.holder (h : Lawful cfg s) {row : Row} (hrow : row ∈ s.rows) :
    ∃ slot, s.workers[row.entry]? = some slot ∧ slot.row = some row ∧ slot.meter = row.meter ∧
      Credit cfg row.meter row := by
  obtain ⟨slot, hslot, hend⟩ := h.rowOf row hrow
  have hown := h.ownRow row.entry slot row hslot (Or.inr hend)
  exact ⟨slot, hslot, by rw [Slot.row, hend], hown.meter_eq.symm, hown.meter_eq ▸ hown.credit⟩

theorem Lawful.row_of_entry (h : Lawful cfg s) {row row' : Row} (hrow : row ∈ s.rows)
    (hrow' : row' ∈ s.rows) (hentry : row.entry = row'.entry) : row = row' := by
  obtain ⟨slot, hslot, hheld, -⟩ := h.holder hrow
  obtain ⟨slot', hslot', hheld', -⟩ := h.holder hrow'
  rw [hentry, hslot'] at hslot
  obtain rfl := Option.some.inj hslot
  exact Option.some.inj (hheld.symm.trans hheld')

theorem Lawful.entry_of_meter (h : Lawful cfg s) (hnodup : cfg.meters.Nodup) {row row' : Row}
    (hrow : row ∈ s.rows) (hrow' : row' ∈ s.rows) (hmeter : row.meter = row'.meter) :
    row.entry = row'.entry := by
  obtain ⟨hlt, heq⟩ := List.getElem?_eq_some_iff.mp (h.row_meter hrow)
  obtain ⟨hlt', heq'⟩ := List.getElem?_eq_some_iff.mp (h.row_meter hrow')
  exact (List.Nodup.getElem_inj_iff hnodup).mp (heq.trans (hmeter.trans heq'.symm))

/-- A credited frame is a reply or a denial, and it names the meter unless it was claimed. -/
theorem Credit.named {meter : String} {row : Row} (h : Credit cfg meter row) {f : Received}
    (hf : row.frame = some f) :
    ∃ decoded, decode cfg.store f.2 = .ok decoded ∧ (IsReply cfg decoded ∨ IsDenial decoded) ∧
      (decodedMatchAddr decoded meter = true ∨
        (∃ code, frameVerdict cfg meter f.2 = .claim code) ∧
          ∀ m ∈ cfg.meters, decodedMatchAddr decoded m = false) := by
  have hskip : frameVerdict cfg meter f.2 ≠ .skip := by
    cases h with
    | nothing hframe hstatus =>
        rw [hframe] at hf
        cases hf
    | reply g hframe hv =>
        obtain rfl := Option.some.inj (hframe.symm.trans hf)
        rw [hv]
        exact Verdict.noConfusion
    | denial g code hframe hstatus hv =>
        obtain rfl := Option.some.inj (hframe.symm.trans hf)
        rcases hv with hv | hv <;>
          · rw [hv]
            exact Verdict.noConfusion
  have hjudged := judged cfg meter f.2
  generalize frameVerdict cfg meter f.2 = verdict at hjudged hskip
  cases hjudged with
  | skip => exact absurd rfl hskip
  | deny decoded code hdecode hdenial hmatch =>
      exact ⟨decoded, hdecode, Or.inr hdenial, Or.inl hmatch⟩
  | claim decoded code hdecode hdenial hnone =>
      exact ⟨decoded, hdecode, Or.inr hdenial, Or.inr ⟨⟨code, rfl⟩, hnone⟩⟩
  | success decoded hdecode hreply hmatch =>
      exact ⟨decoded, hdecode, Or.inl hreply, Or.inl hmatch⟩

/-- An unambiguous frame is credited to one meter, or claimed by both. -/
theorem meter_eq_or_claimed {m m' : String} (hm : m ∈ cfg.meters) (hm' : m' ∈ cfg.meters)
    {row row' : Row} (h : Credit cfg m row) (h' : Credit cfg m' row') {f : Received}
    (hf : row.frame = some f) (hf' : row'.frame = some f) (hclear : Unambiguous cfg f.2) :
    m = m' ∨ (∃ code, frameVerdict cfg m f.2 = .claim code) ∧
      ∃ code, frameVerdict cfg m' f.2 = .claim code := by
  obtain ⟨decoded, hdecode, hkind, hnamed⟩ := h.named hf
  obtain ⟨decoded', hdecode', -, hnamed'⟩ := h'.named hf'
  obtain rfl := Except.ok.inj (hdecode.symm.trans hdecode')
  rcases hnamed with hmatch | ⟨hclaim, hnone⟩ <;> rcases hnamed' with hmatch' | ⟨hclaim', hnone'⟩
  · exact Or.inl (hclear.single decoded hdecode hkind m hm m' hm' hmatch hmatch')
  · rw [hnone' m hm] at hmatch
    cases hmatch
  · rw [hnone m' hm'] at hmatch'
    cases hmatch'
  · exact Or.inr ⟨hclaim, hclaim'⟩

theorem Lawful.credited_once (h : Lawful cfg s) (hclaims : ClaimedOnce cfg s.workers s.claimed)
    (hfresh : Fresh (Unambiguous cfg) history.length s) (hnodup : cfg.meters.Nodup)
    {row row' : Row} (hrow : row ∈ s.rows) (hrow' : row' ∈ s.rows) {f : Received}
    (hf : row.frame = some f) (hf' : row'.frame = some f) : row = row' := by
  obtain ⟨slot, hslot, hheld, hmeter, hcredit⟩ := h.holder hrow
  obtain ⟨slot', hslot', hheld', hmeter', hcredit'⟩ := h.holder hrow'
  have hclear : Unambiguous cfg f.2 :=
    (hfresh.slots slot (List.mem_of_getElem? hslot)).row hheld hf
  have hmem := List.mem_of_getElem? (h.row_meter hrow)
  have hmem' := List.mem_of_getElem? (h.row_meter hrow')
  refine h.row_of_entry hrow hrow' ?_
  rcases meter_eq_or_claimed hmem hmem' hcredit hcredit' hf hf' hclear with
    heq | ⟨⟨code, hclaim⟩, code', hclaim'⟩
  · exact h.entry_of_meter hnodup hrow hrow' heq
  · exact hclaims.once row.entry row'.entry slot slot' (frameToHex f.2) hslot hslot'
      ⟨row, f, code, hheld, hf, hmeter ▸ hclaim, rfl⟩
      ⟨row', f, code', hheld', hf', hmeter' ▸ hclaim', rfl⟩

/-- A successful row is credited with a reply that names its meter. -/
theorem Credit.replied {meter : String} {row : Row} (h : Credit cfg meter row)
    (hstatus : row.status = .success) :
    ∃ f decoded, row.frame = some f ∧ decode cfg.store f.2 = .ok decoded ∧ IsReply cfg decoded ∧
      decodedMatchAddr decoded meter = true := by
  cases h with
  | nothing hframe hother => exact absurd hstatus hother
  | reply f hframe hv =>
      have hjudged := judged cfg meter f.2
      rw [hv] at hjudged
      cases hjudged with
      | success decoded hdecode hreply hmatch =>
          exact ⟨f, decoded, hframe, hdecode, hreply, hmatch⟩
  | denial f code hframe hdeny hv =>
      rw [hdeny] at hstatus
      cases hstatus

end Attribution

/-- A successful row carries the meter whose address its reply embeds, and no frame is credited to
two rows. -/
structure Attributed (cfg : Config) (s : JobState) : Prop where
  sender : ∀ row ∈ s.rows, row.status = .success →
    ∃ f decoded, row.frame = some f ∧ decode cfg.store f.2 = .ok decoded ∧
      ∀ n ∈ decoded.nested, ∀ a, carriedAddress n = some a → (addrHexes row.meter).2 = a
  once : ∀ row ∈ s.rows, ∀ row' ∈ s.rows, ∀ f,
    row.frame = some f → row'.frame = some f → row = row'

theorem replies_attributed (cfg : Config) (hnodup : cfg.meters.Nodup) (history : List Bytes)
    (s : JobState) (h : (job cfg).Reach (ClearFrames cfg) (startJob cfg history) s) :
    Attributed cfg s := by
  have hlaw := lawful_of_reachable h.any
  have hfresh := fresh_of_reach h
  constructor
  · intro row hrow hstatus
    obtain ⟨slot, hslot, hheld, -, hcredit⟩ := hlaw.holder hrow
    obtain ⟨f, decoded, hf, hdecode, hreply, hmatch⟩ := hcredit.replied hstatus
    have hclear : Unambiguous cfg f.2 :=
      (hfresh.slots slot (List.mem_of_getElem? hslot)).row hheld hf
    have hmem := List.mem_of_getElem? (hlaw.row_meter hrow)
    exact ⟨f, decoded, hf, hdecode, fun n hn a ha =>
      hclear.sender decoded hdecode hreply n hn a ha row.meter hmem hmatch⟩
  · intro row hrow row' hrow' f hf hf'
    exact hlaw.credited_once (claimedOnce_of_reachable h.any) hfresh hnodup hrow hrow' hf hf'

/-- A reply of meter `010203040506`. -/
def meterReply : Bytes :=
  [0x68, 0x23, 0x00, 0x83, 0, 0, 0, 0, 0, 0, 0x02, 0x01, 0x00, 0x02, 0x00, 0x10, 0x00,
    0x68, 0x06, 0x05, 0x04, 0x03, 0x02, 0x01, 0x68, 0x91, 0x04, 0x33, 0x33, 0x33, 0x33, 0x46, 0x16,
    0x3A, 0x16]

def meterAnd (other : String) : Config where
  meters := ["010203040506", other]
  maxConcurrent := 2

/-- Both slots wait when the reply comes in and take it into their snapshots. -/
def bothWaiting : List JobEvent :=
  [.check, .size, .take, .launch, .take, .launch, .take, .send 0, .send 1, .append meterReply,
    .arm 0, .poll 0, .arm 1, .poll 1]

section MeterReply
variable (other : String)

/-- What the reader uses of the decoded reply. Only the whole frame names a meter. -/
theorem meterReply_read : ∃ decoded, decode (meterAnd other).store meterReply = .ok decoded ∧
    (upBit decoded = 1 ∧ intField decoded "AFN" = some 2 ∧ intField decoded "FN" = some 1) ∧
      searchedTexts decoded =
        ["", "", "(无)", "6823008302010002001000680605040302016891043333333346163A16"] ∧
      decoded.nested.map carriedAddress = [some (addrHexes "010203040506").2] := by
  have hfacts : (decode (meterAnd "").store meterReply).toOption.map (fun decoded =>
      ((upBit decoded, intField decoded "AFN", intField decoded "FN"), searchedTexts decoded,
        decoded.nested.map carriedAddress)) =
      some ((1, some 2, some 1),
        ["", "", "(无)", "6823008302010002001000680605040302016891043333333346163A16"],
        [some (addrHexes "010203040506").2]) := by
    decide +kernel
  change ∃ decoded, decode (meterAnd "").store meterReply = .ok decoded ∧ _
  generalize decode (meterAnd "").store meterReply = result at hfacts
  cases result with
  | error e => cases hfacts
  | ok decoded =>
      obtain ⟨hheader, htexts, hnested⟩ : _ ∧ _ ∧ _ := by
        simpa only [Except.toOption, Option.map_some, Option.some_inj, Prod.mk.injEq] using hfacts
      exact ⟨decoded, rfl, hheader, htexts, hnested⟩

theorem meterReply_matches {decoded : ProtocolFrame}
    (htexts : searchedTexts decoded =
      ["", "", "(无)", "6823008302010002001000680605040302016891043333333346163A16"]) :
    decodedMatchAddr decoded "010203040506" = true ∧ decodedMatchAddr decoded "060504030201" = true ∧
      decodedMatchAddr decoded "111111111111" = false := by
  unfold decodedMatchAddr
  rw [htexts]
  decide +kernel

theorem meterReply_verdict (meter : String) (hmeter : meter = "010203040506" ∨ meter = "060504030201") :
    frameVerdict (meterAnd other) meter meterReply = .success := by
  obtain ⟨decoded, hdecode, ⟨hup, hafn, hfn⟩, htexts, -⟩ := meterReply_read other
  obtain ⟨hown, hreversed, -⟩ := meterReply_matches htexts
  have hmatch : decodedMatchAddr decoded meter = true := by
    rcases hmeter with rfl | rfl
    · exact hown
    · exact hreversed
  rw [frameVerdict, hdecode]
  dsimp only
  rw [hup, hafn, hfn, if_neg (by decide), if_neg (by decide), if_pos ⟨rfl, rfl, hmatch⟩]

theorem bothWaiting_run : ∃ s, (job (meterAnd other)).run (startJob (meterAnd other) []) bothWaiting =
    some s ∧ s.rows = [] ∧ s.workers = [⟨"010203040506", .polling 1 [(0, meterReply)]⟩,
      ⟨other, .polling 1 [(0, meterReply)]⟩] :=
  ⟨_, rfl, rfl, rfl⟩

end MeterReply

/-- A slot that examines a reply of its meter records it. -/
theorem takes_reply {cfg : Config} {guard : JobState → JobEvent → Prop} {s₀ s : JobState} {i seen : ℕ}
    {meter : String} {f : Received} {rest : List Received} (h : (job cfg).Reach guard s₀ s)
    (hguard : ∀ s, guard s (.examine i) ∧ guard s (.record i))
    (hslot : s.workers[i]? = some ⟨meter, .polling seen (f :: rest)⟩)
    (hv : frameVerdict cfg meter f.2 = .success) :
    ∃ s', (job cfg).Reach guard s₀ s' ∧ s'.rows = s.rows ++ [successRow cfg i meter f] ∧
      s'.workers = s.workers.set i ⟨meter, .ended (some (successRow cfg i meter f))⟩ := by
  let row := successRow cfg i meter f
  let s₁ : JobState := setPc s i ⟨meter, .polling seen (f :: rest)⟩ (.recording row)
  have hframe : examineFrame cfg s i ⟨meter, .polling seen (f :: rest)⟩ seen f rest =
      setPc s i ⟨meter, .polling seen (f :: rest)⟩ (.recording (successRow cfg i meter f)) := by
    simp only [examineFrame, hv]
  have hexamine : (job cfg).step s (.examine i) = some s₁ := by
    change (s.workers[i]?).bind (fun slot => slotStep cfg s i slot (.examine i)) = _
    rw [hslot]
    exact congrArg some hframe
  have hlt : i < s.workers.length := (List.getElem?_eq_some_iff.mp hslot).1
  have hslot₁ : s₁.workers[i]? = some ⟨meter, .recording row⟩ := List.getElem?_set_self hlt
  have hrecord : (job cfg).step s₁ (.record i) =
      some (setPc (recordRow s₁ row) i ⟨meter, .recording row⟩ (.ended (some row))) := by
    change (s₁.workers[i]?).bind (fun slot => slotStep cfg s₁ i slot (.record i)) = _
    rw [hslot₁]
    exact rfl
  refine ⟨_, .step (.step h (hguard s).1 hexamine) (hguard s₁).2 hrecord, rfl, ?_⟩
  exact List.set_set ..

theorem meterReply_unambiguous : Unambiguous (meterAnd "111111111111") meterReply := by
  obtain ⟨reply, hread, -, htexts, hcarried⟩ := meterReply_read "111111111111"
  obtain ⟨-, -, hother⟩ := meterReply_matches htexts
  -- the first meter is the only one that the frame names
  have hnamed : ∀ m ∈ (meterAnd "111111111111").meters, decodedMatchAddr reply m = true →
      m = "010203040506" := by
    intro m hm hmatch
    rcases List.mem_pair.mp hm with rfl | rfl
    · rfl
    · rw [hother] at hmatch
      cases hmatch
  constructor
  · intro decoded hdecode _ m hm m' hm' hmatch hmatch'
    obtain rfl := Except.ok.inj (hread.symm.trans hdecode)
    exact (hnamed m hm hmatch).trans (hnamed m' hm' hmatch').symm
  · intro decoded hdecode _ n hn a ha m hm hmatch
    obtain rfl := Except.ok.inj (hread.symm.trans hdecode)
    have hmem : carriedAddress n ∈ reply.nested.map carriedAddress := List.mem_map_of_mem hn
    rw [hcarried, ha, List.mem_singleton, Option.some_inj] at hmem
    rw [hnamed m hm hmatch, hmem]

theorem reply_to_distinct_meters : ∃ s : JobState,
    s.rows.map Row.meter = ["010203040506"] ∧ Attributed (meterAnd "111111111111") s := by
  obtain ⟨s, hrun, hrows, hworkers⟩ := bothWaiting_run "111111111111"
  have hguard : ∀ e ∈ bothWaiting, ∀ s, ClearFrames (meterAnd "111111111111") s e := by
    rintro e he s raw rfl
    have hraw : raw = meterReply := by simpa [bothWaiting] using he
    exact hraw ▸ meterReply_unambiguous
  have hclear : ∀ i s, ClearFrames (meterAnd "111111111111") s (.examine i) ∧
      ClearFrames (meterAnd "111111111111") s (.record i) :=
    fun i s => ⟨fun _ h => JobEvent.noConfusion h, fun _ h => JobEvent.noConfusion h⟩
  have hslot : s.workers[0]? = some ⟨"010203040506", .polling 1 [(0, meterReply)]⟩ := by
    rw [hworkers]
    rfl
  have hverdict := meterReply_verdict "111111111111" "010203040506" (Or.inl rfl)
  obtain ⟨s', hreach, hrows', -⟩ :=
    takes_reply (Machine.reach_of_run hguard hrun) (hclear 0) hslot hverdict
  refine ⟨s', ?_, replies_attributed _ (by decide) [] s' hreach⟩
  rw [hrows', hrows]
  rfl

/-- The slot of the meter with the reversed address takes the reply, which carries another
address, and so does the slot of the meter that sent it. -/
theorem reversed_address_credited : ¬ ∀ (cfg : Config) (history : List Bytes) (s : JobState),
    cfg.meters.Nodup → (job cfg).Reachable (startJob cfg history) s → Attributed cfg s := by
  intro hall
  obtain ⟨s, hrun, hrows, hworkers⟩ := bothWaiting_run "060504030201"
  have hslot : s.workers[1]? = some ⟨"060504030201", .polling 1 [(0, meterReply)]⟩ := by
    rw [hworkers]
    rfl
  have hreversed := meterReply_verdict "060504030201" "060504030201" (Or.inr rfl)
  obtain ⟨s₁, hreach₁, hrows₁, hworkers₁⟩ := takes_reply (Machine.reachable_of_run hrun)
    (fun _ => ⟨trivial, trivial⟩) hslot hreversed
  have hslot₁ : s₁.workers[0]? = some ⟨"010203040506", .polling 1 [(0, meterReply)]⟩ := by
    rw [hworkers₁, hworkers]
    rfl
  have hown := meterReply_verdict "060504030201" "010203040506" (Or.inl rfl)
  obtain ⟨s₂, hreach₂, hrows₂, -⟩ := takes_reply hreach₁ (fun _ => ⟨trivial, trivial⟩) hslot₁ hown
  have hcredits : s₂.rows = [successRow (meterAnd "060504030201") 1 "060504030201" (0, meterReply),
      successRow (meterAnd "060504030201") 0 "010203040506" (0, meterReply)] := by
    rw [hrows₂, hrows₁, hrows]
    rfl
  have honce := (hall _ [] s₂ (by decide) hreach₂).once
  rw [hcredits] at honce
  have hsame := congrArg Row.entry (honce _ List.mem_cons_self _
    (List.mem_cons_of_mem _ List.mem_cons_self) (0, meterReply) rfl rfl)
  exact absurd hsame Nat.one_ne_zero

end HplcWorkbench.Batch
