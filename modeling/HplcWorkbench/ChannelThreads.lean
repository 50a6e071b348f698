import HplcWorkbench.ModuleObservations
import HplcWorkbench.TransitionSystems
import HplcWorkbench.WriteOrder

/-!
# The threads of a channel

Threads put bytes into the buffers of a channel and take lines out of them. A line gets its number under
one lock and is written to the log file under another, so that a thread may be between the two while
others number and write. A client polls for the lines behind the last number that it was told.

What the client collects is what is in the file exactly if each line is written while the file is open
and before the lines that have a later number, no line was written before the file was opened, and no
thread is between the two locks.
-/

namespace HplcWorkbench.ModuleLog
open Transitions
open RetainedTail (keepLast)

/-! ## Threads -/

inductive Direction
  | rx
  | tx
  deriving DecidableEq, Repr

def Direction.text : Direction → String
  | .rx => "RX"
  | .tx => "TX"

/-- Where a thread is. `back` is the loop of `_ingest_char_stream` that it goes on with behind a line. -/
inductive Phase
  | idle
  | ingesting (direction : Direction)
  | found (direction : Direction) (idx : ℕ)
  | sliced (direction : Direction) (idx : ℕ) (line : Bytes)
  | flushing (direction : Direction) (line : Bytes)
  | appending (new : NewLine) (back : Option Direction)
  | writing (line : LogLine) (back : Option Direction)
  deriving DecidableEq, Repr

def Phase.resume : Option Direction → Phase
  | none => .idle
  | some direction => .ingesting direction

/-- The line that has its number and is not in the file yet. -/
def Phase.unwritten : Phase → Option LogLine
  | .writing line _ => some line
  | _ => none

theorem Phase.unwritten_resume (back : Option Direction) : (Phase.resume back).unwritten = none := by
  cases back with
  | none => rfl
  | some direction => rfl

/-- A `_SerialChannel` with its log file, its threads and a client. A line of the file keeps its number,
which the file does not show. -/
structure ChannelThreads where
  channel : Channel := {}
  buf : Direction → Bytes := fun _ => []
  phase : ℕ → Phase := fun _ => .idle
  logHandle : Bool := false
  file : List LogLine := []
  after : ℤ := -1
  collected : List LogLine := []

/-- What happens next. `event` is a call of `_append_line` from elsewhere. -/
inductive ThreadEvent
  | openLog
  | closeLog
  | ingest (t : ℕ) (direction : Direction) (data : Bytes)
  | find (t : ℕ)
  | slice (t : ℕ)
  | delete (t : ℕ) (ts : Stamp)
  | flush (t : ℕ) (direction : Direction)
  | clear (t : ℕ) (ts : Stamp)
  | event (t : ℕ) (ts : Stamp) (text : String)
  | number (t : ℕ)
  | write (t : ℕ)
  | poll

/-- `last_seq` of `logs`. -/
def Channel.lastSeq (c : Channel) (after : ℤ) : ℤ := if c.lines = [] then after else c.nextSeq - 1

namespace ChannelThreads

def setPhase (s : ChannelThreads) (t : ℕ) (p : Phase) : ChannelThreads :=
  { s with phase := Function.update s.phase t p }

def setBuf (s : ChannelThreads) (direction : Direction) (data : Bytes) : ChannelThreads :=
  { s with buf := Function.update s.buf direction data }

/-- The front end begins anew with each log. -/
def openLog (s : ChannelThreads) : ChannelThreads :=
  { s with logHandle := true, file := [], after := -1, collected := [] }

/-- The first locked part of `_append_line`. -/
def number (s : ChannelThreads) (t : ℕ) (new : NewLine) (back : Option Direction) : ChannelThreads :=
  { s.setPhase t (.writing ⟨s.channel.nextSeq, new.ts, new.direction, new.text⟩ back) with
    channel := s.channel.appendLine new }

/-- The second locked part of `_append_line`. -/
def write (s : ChannelThreads) (t : ℕ) (line : LogLine) (back : Option Direction) : ChannelThreads :=
  { s.setPhase t (.resume back) with file := if s.logHandle then s.file ++ [line] else s.file }

def poll (s : ChannelThreads) : ChannelThreads :=
  { s with
    collected := s.collected ++ s.channel.logs s.after
    after := s.channel.lastSeq s.after }

variable (decode : Bytes → String)

/-- One step of one thread; the lines between two steps are `_ingest_char_stream`, `_flush_char_buf` and
`_append_line`. -/
def step (s : ChannelThreads) : ThreadEvent → Option ChannelThreads
  | .openLog => some s.openLog
  | .closeLog => some { s with logHandle := false }
  | .ingest t direction data =>
    match s.phase t with
    | .idle => some ((s.setBuf direction (s.buf direction ++ data)).setPhase t (.ingesting direction))
    | _ => none
  | .find t =>
    match s.phase t with
    | .ingesting direction =>
      some (s.setPhase t (((s.buf direction).idxOf? 0x0A).elim .idle (.found direction)))
    | _ => none
  | .slice t =>
    match s.phase t with
    | .found direction idx => some (s.setPhase t (.sliced direction idx ((s.buf direction).take (idx + 1))))
    | _ => none
  | .delete t ts =>
    match s.phase t with
    | .sliced direction idx line =>
      some ((s.setBuf direction ((s.buf direction).drop (idx + 1))).setPhase t
        (.appending ⟨ts, direction.text, decode line⟩ (some direction)))
    | _ => none
  | .flush t direction =>
    match s.phase t with
    | .idle =>
      if s.buf direction = [] then some s else some (s.setPhase t (.flushing direction (s.buf direction)))
    | _ => none
  | .clear t ts =>
    match s.phase t with
    | .flushing direction line =>
      some ((s.setBuf direction []).setPhase t (.appending ⟨ts, direction.text, decode line⟩ none))
    | _ => none
  | .event t ts text =>
    match s.phase t with
    | .idle => some (s.setPhase t (.appending ⟨ts, "EVENT", text⟩ none))
    | _ => none
  | .number t =>
    match s.phase t with
    | .appending new back => some (s.number t new back)
    | _ => none
  | .write t =>
    match s.phase t with
    | .writing line back => some (s.write t line back)
    | _ => none
  | .poll => some s.poll

/-- The threads of a channel, one step of one of them after the other. -/
def threads : Machine ChannelThreads ThreadEvent where
  step := step decode

/-! ## What a step can do -/

/-- The numbers of the lines and who has them. -/
def log (s : ChannelThreads) : WriteOrder.Log ℕ where
  count := s.channel.nextSeq
  held t := (s.phase t).unwritten.map LogLine.seq
  written := s.file.map LogLine.seq

/-- A line is written while the file is open and is the least of those that have a number; a log is opened
while nothing is in the file. -/
def Orderly (s : ChannelThreads) : ThreadEvent → Prop
  | .openLog => s.file = []
  | .write t => ∀ line ∈ (s.phase t).unwritten,
      s.logHandle = true ∧ ∀ t', ∀ line' ∈ (s.phase t').unwritten, line.seq ≤ line'.seq
  | _ => True

/-- Before a poll, fewer lines have come than the channel keeps. -/
def Timely (s : ChannelThreads) : ThreadEvent → Prop
  | .poll => (s.channel.nextSeq : ℤ) < s.after + 1 + maxMemoryLines
  | _ => True

/-- What a step outside both locks leaves. -/
structure Local (s s' : ChannelThreads) : Prop where
  channel : s'.channel = s.channel
  file : s'.file = s.file
  after : s'.after = s.after
  collected : s'.collected = s.collected
  unwritten : ∀ t, (s'.phase t).unwritten = (s.phase t).unwritten

variable {decode} {s s' : ChannelThreads} {e : ThreadEvent} {t : ℕ}

theorem Local.log (h : Local s s') : s'.log = s.log := by
  unfold ChannelThreads.log
  rw [h.channel, h.file]
  simp only [h.unwritten]

theorem phase_setPhase (s : ChannelThreads) (t : ℕ) (p : Phase) :
    (s.setPhase t p).phase = Function.update s.phase t p := rfl

theorem local_setPhase {p : Phase} (hs : (s.phase t).unwritten = none) (hp : p.unwritten = none) :
    Local s (s.setPhase t p) := by
  refine ⟨rfl, rfl, rfl, rfl, ?_⟩
  intro t'
  rw [phase_setPhase]
  by_cases h : t' = t
  · subst h
    rw [Function.update_self, hs, hp]
  · rw [Function.update_of_ne h]

theorem local_setBuf {direction : Direction} {data : Bytes} {p : Phase}
    (hs : (s.phase t).unwritten = none) (hp : p.unwritten = none) :
    Local s ((s.setBuf direction data).setPhase t p) :=
  let h := local_setPhase (s := s) hs hp
  ⟨h.channel, h.file, h.after, h.collected, h.unwritten⟩

/-- A step takes a lock, opens a log, polls, or is local. -/
theorem step_cases (h : (threads decode).step s e = some s') :
    Local s s' ∧ Orderly s e ∨ e = .poll ∧ s' = s.poll ∨ e = .openLog ∧ s' = s.openLog ∨
      (∃ t new back, e = .number t ∧ s.phase t = .appending new back ∧ s' = s.number t new back) ∨
        ∃ t line back, e = .write t ∧ s.phase t = .writing line back ∧ s' = s.write t line back := by
  have hlocal : ∀ {t data direction p}, (s.phase t).unwritten = none → p.unwritten = none →
      some ((s.setBuf direction data).setPhase t p) = some s' → Local s s' := by
    intro t data direction p hs hp h
    exact Option.some.inj h ▸ local_setBuf hs hp
  have hphase : ∀ {t p}, (s.phase t).unwritten = none → p.unwritten = none →
      some (s.setPhase t p) = some s' → Local s s' := by
    intro t p hs hp h
    exact Option.some.inj h ▸ local_setPhase hs hp
  change step decode s e = some s' at h
  cases e with
  | openLog => exact .inr (.inr (.inl ⟨rfl, (Option.some.inj h).symm⟩))
  | poll => exact .inr (.inl ⟨rfl, (Option.some.inj h).symm⟩)
  | closeLog =>
    obtain rfl := Option.some.inj h
    exact .inl ⟨⟨rfl, rfl, rfl, rfl, fun _ => rfl⟩, trivial⟩
  | number t =>
    rw [step] at h
    split at h
    · exact .inr (.inr (.inr (.inl ⟨t, _, _, rfl, ‹_›, (Option.some.inj h).symm⟩)))
    · cases h
  | write t =>
    rw [step] at h
    split at h
    · exact .inr (.inr (.inr (.inr ⟨t, _, _, rfl, ‹_›, (Option.some.inj h).symm⟩)))
    · cases h
  | find t =>
    rw [step] at h
    split at h
    · refine .inl ⟨hphase (by rw [‹s.phase t = _›]; rfl) ?_ h, trivial⟩
      cases (s.buf _).idxOf? _ with
      | none => rfl
      | some idx => rfl
    · cases h
  | flush t direction =>
    rw [step] at h
    split at h
    · split at h
      · obtain rfl := Option.some.inj h
        exact .inl ⟨⟨rfl, rfl, rfl, rfl, fun _ => rfl⟩, trivial⟩
      · exact .inl ⟨hphase (by rw [‹s.phase t = _›]; rfl) rfl h, trivial⟩
    · cases h
  | slice t | event t ts text =>
    rw [step] at h
    split at h
    · exact .inl ⟨hphase (by rw [‹s.phase t = _›]; rfl) rfl h, trivial⟩
    · cases h
  | ingest t direction data | delete t ts | clear t ts =>
    rw [step] at h
    split at h
    · exact .inl ⟨hlocal (by rw [‹s.phase t = _›]; rfl) rfl h, trivial⟩
    · cases h

theorem log_openLog (s : ChannelThreads) : s.openLog.log = s.log.restart := rfl

theorem held_setPhase (s : ChannelThreads) (t : ℕ) (p : Phase) :
    (s.setPhase t p).log.held = Function.update s.log.held t (p.unwritten.map LogLine.seq) :=
  Function.comp_update (fun p : Phase => p.unwritten.map LogLine.seq) s.phase t p

theorem log_number (s : ChannelThreads) (t : ℕ) (new : NewLine) (back : Option Direction) :
    (s.number t new back).log = s.log.number t := by
  have hheld : (s.number t new back).log.held = Function.update s.log.held t (some s.channel.nextSeq) :=
    held_setPhase s t _
  rw [WriteOrder.Log.number]
  change WriteOrder.Log.mk _ (s.number t new back).log.held _ = _
  rw [hheld]
  rfl

theorem log_write (s : ChannelThreads) (t : ℕ) (line : LogLine) (back : Option Direction) :
    (s.write t line back).log = s.log.write t line.seq s.logHandle := by
  have hheld : (s.write t line back).log.held = Function.update s.log.held t none := by
    change (s.setPhase t (.resume back)).log.held = _
    rw [held_setPhase, Phase.unwritten_resume]
    rfl
  have hfile : (s.write t line back).file.map LogLine.seq =
      if s.logHandle = true then s.log.written ++ [line.seq] else s.log.written := by
    rw [write]
    split
    · rw [List.map_append]
      rfl
    · rfl
  rw [WriteOrder.Log.write]
  change WriteOrder.Log.mk _ (s.write t line back).log.held _ = _
  rw [hheld, hfile]
  rfl

theorem held_of_phase {p : Phase} (h : s.phase t = p) :
    s.log.held t = p.unwritten.map LogLine.seq := h ▸ rfl

/-! ## The order of the file -/

theorem owned_step (h : (threads decode).step s e = some s') (howned : s.log.Owned) : s'.log.Owned := by
  obtain ⟨hlocal, -⟩ | ⟨-, rfl⟩ | ⟨-, rfl⟩ | ⟨t, new, back, -, ht, rfl⟩ | ⟨t, line, back, -, ht, rfl⟩ :=
    step_cases h
  · rw [hlocal.log]
    exact howned
  · exact howned
  · exact howned.restart
  · rw [log_number]
    exact howned.number t
  · rw [log_write]
    exact howned.write (held_of_phase ht) _

theorem inOrder_back (howned : s.log.Owned) (h : (threads decode).step s e = some s')
    (hordered : s'.log.InOrder) : s.log.InOrder := by
  obtain ⟨hlocal, -⟩ | ⟨-, rfl⟩ | ⟨-, rfl⟩ | ⟨t, new, back, -, ht, rfl⟩ | ⟨t, line, back, -, ht, rfl⟩ :=
    step_cases h
  · rw [hlocal.log] at hordered
    exact hordered
  · exact hordered
  · exact ((WriteOrder.Log.restart_inOrder_iff howned).mp hordered).1
  · rw [log_number] at hordered
    exact (WriteOrder.Log.number_inOrder_iff (held_of_phase ht)).mp hordered
  · rw [log_write] at hordered
    exact WriteOrder.Log.inOrder_of_write (held_of_phase ht) hordered

/-- A step keeps the order exactly where it is orderly. -/
theorem inOrder_step_iff (howned : s.log.Owned) (hordered : s.log.InOrder)
    (h : (threads decode).step s e = some s') : s'.log.InOrder ↔ Orderly s e := by
  obtain ⟨hlocal, he⟩ | ⟨rfl, rfl⟩ | ⟨rfl, rfl⟩ | ⟨t, new, back, rfl, ht, rfl⟩ |
    ⟨t, line, back, rfl, ht, rfl⟩ := step_cases h
  · rw [hlocal.log]
    exact iff_of_true hordered he
  · exact iff_of_true hordered trivial
  · rw [log_openLog, WriteOrder.Log.restart_inOrder_iff howned, and_iff_right hordered]
    exact List.map_eq_nil_iff
  · rw [log_number, WriteOrder.Log.number_inOrder_iff (held_of_phase ht)]
    exact iff_of_true hordered trivial
  · rw [log_write, WriteOrder.Log.write_inOrder_iff howned (held_of_phase ht) hordered]
    constructor
    · rintro ⟨hopen, hleast⟩ line' hline
      rw [ht] at hline
      obtain rfl := Option.some.inj hline
      refine ⟨hopen, ?_⟩
      intro t' line' hline
      exact hleast t' line'.seq (Option.map_eq_some_iff.mpr ⟨line', hline, rfl⟩)
    · intro horderly
      obtain ⟨hopen, hleast⟩ := horderly line (by rw [ht]; rfl)
      refine ⟨hopen, ?_⟩
      intro t' m hm
      obtain ⟨line', hline, rfl⟩ := Option.map_eq_some_iff.mp hm
      exact hleast t' line' hline

theorem inOrder_iff_follows {events : List ThreadEvent} (h : (threads decode).run {} events = some s) :
    s.log.InOrder ↔ (threads decode).Follows Orderly {} events := by
  apply Machine.run_iff_follows (P := fun s : ChannelThreads => s.log.InOrder)
    (fun s => s.log.Owned) (fun s => s.log.Owned ∧ s.log.InOrder)
  · exact fun s e s' h howned => owned_step h howned
  · exact fun s e s' howned h hordered => inOrder_back howned h hordered
  · exact fun s hs => hs.2
  · exact fun s e s' hs h => inOrder_step_iff hs.1 hs.2 h
  · exact fun s e s' hs he h => ⟨owned_step h hs.1, (inOrder_step_iff hs.1 hs.2 h).mpr he⟩
  · exact ⟨WriteOrder.Log.owned_empty, WriteOrder.Log.inOrder_empty⟩
  · exact WriteOrder.Log.owned_empty
  · exact h

/-! ## What the client collects -/

/-- The lines that came, the ones that are on their way to the file, and those that the client has. -/
structure Collects (s : ChannelThreads) (news : List NewLine) : Prop where
  channel : s.channel = channelAfter news
  unwritten : ∀ t, ∀ line ∈ (s.phase t).unwritten, line ∈ history news
  file : ∀ line ∈ s.file, line ∈ history news
  collected : ∃ k ≤ news.length, s.after = k - 1 ∧ s.collected = (history news).take k

theorem collects_empty : Collects {} [] where
  channel := rfl
  unwritten _ _ hline := by cases hline
  file _ hline := absurd hline List.not_mem_nil
  collected := ⟨0, le_rfl, rfl, rfl⟩

/-- A poll in time finds the lines behind the last one. -/
theorem logs_channelAfter {news : List NewLine} {k : ℕ} (hk : k ≤ news.length)
    (htimely : news.length < k + maxMemoryLines) :
    (channelAfter news).logs (k - 1) = (history news).drop k := by
  have hseq := seq_history news
  have hlength := length_history news
  have hlines : (channelAfter news).lines =
      (history news).filter fun line => (history news).length ≤ line.seq + maxMemoryLines := by
    rw [(channelAfter_spec news).2, RetainedTail.keepLast_eq_filter _ hseq]
  have hdrop : (history news).drop k =
      (history news).filter fun line => (history news).length ≤ line.seq + ((history news).length - k) := by
    rw [← RetainedTail.keepLast_eq_filter _ hseq, keepLast, hlength, Nat.sub_sub_self hk]
  rw [Channel.logs]
  split
  · have hzero : k = 0 := by omega
    subst hzero
    have hall : (channelAfter news).lines = history news := by
      rw [hlines]
      apply List.filter_eq_self.mpr
      intro line _
      rw [decide_eq_true_eq]
      omega
    rw [if_neg (by rw [hall]; omega), hall, List.drop_zero]
  · rw [hlines, hdrop, List.filter_filter]
    apply List.filter_congr
    intro line _
    rw [← Bool.decide_and, decide_eq_decide]
    omega

theorem lastSeq_channelAfter {news : List NewLine} {k : ℕ} (hk : k ≤ news.length) :
    (channelAfter news).lastSeq (k - 1) = news.length - 1 := by
  obtain ⟨hseq, hlines⟩ := channelAfter_spec news
  rw [Channel.lastSeq, hseq, hlines]
  split
  · rename_i hnil
    have hlength := congrArg List.length hnil
    rw [keepLast, List.length_drop, length_history, List.length_nil, maxMemoryLines] at hlength
    omega
  · rfl

theorem Collects.poll {news : List NewLine} (h : Collects s news) (htimely : Timely s .poll) :
    Collects s.poll news ∧ s.poll.collected = history news := by
  obtain ⟨k, hk, hafter, hcollected⟩ := h.collected
  have hlt : news.length < k + maxMemoryLines := by
    have hseq : s.channel.nextSeq = news.length := by rw [h.channel, (channelAfter_spec news).1]
    rw [Timely, hseq, hafter] at htimely
    omega
  have hall : s.poll.collected = history news := by
    change s.collected ++ s.channel.logs s.after = _
    rw [hcollected, hafter, h.channel, logs_channelAfter hk hlt, List.take_append_drop]
  refine ⟨⟨h.channel, h.unwritten, h.file, news.length, le_rfl, ?_, ?_⟩, hall⟩
  · change s.channel.lastSeq s.after = _
    rw [hafter, h.channel, lastSeq_channelAfter hk]
  · rw [hall, ← length_history, List.take_length]

theorem Collects.number {news : List NewLine} (h : Collects s news) (new : NewLine)
    (back : Option Direction) : Collects (s.number t new back) (news ++ [new]) := by
  have hsub : ∀ line ∈ history news, line ∈ history (news ++ [new]) := by
    intro line hline
    rw [history_append]
    exact List.mem_append_left _ hline
  constructor
  · change s.channel.appendLine new = _
    rw [h.channel, channelAfter, channelAfter, List.foldl_append]
    rfl
  · intro t' line hline
    change line ∈ (Function.update s.phase t _ t').unwritten at hline
    by_cases ht : t' = t
    · subst ht
      rw [Function.update_self] at hline
      obtain rfl := Option.some.inj hline
      rw [h.channel, (channelAfter_spec news).1, history_append]
      exact List.mem_append_right _ (List.mem_singleton.mpr rfl)
    · rw [Function.update_of_ne ht] at hline
      exact hsub line (h.unwritten t' line hline)
  · exact fun line hline => hsub line (h.file line hline)
  · obtain ⟨k, hk, hafter, hcollected⟩ := h.collected
    refine ⟨k, ?_, hafter, ?_⟩
    · rw [List.length_append]
      exact Nat.le_add_right_of_le hk
    · rw [history_append, List.take_append_of_le_length (hk.trans_eq (length_history news).symm)]
      exact hcollected

theorem Collects.write {news : List NewLine} {line : LogLine} {back : Option Direction}
    (h : Collects s news) (ht : s.phase t = .writing line back) : Collects (s.write t line back) news := by
  have hline : line ∈ history news := h.unwritten t line (by rw [ht]; rfl)
  refine ⟨h.channel, ?_, ?_, h.collected⟩
  · intro t' line' hline'
    change line' ∈ (Function.update s.phase t _ t').unwritten at hline'
    by_cases h' : t' = t
    · subst h'
      rw [Function.update_self, Phase.unwritten_resume] at hline'
      cases hline'
    · rw [Function.update_of_ne h'] at hline'
      exact h.unwritten t' line' hline'
  · intro line' hline'
    rw [ChannelThreads.write] at hline'
    split at hline'
    · rcases List.mem_append.mp hline' with hold | hnew
      · exact h.file line' hold
      · rw [List.mem_singleton.mp hnew]
        exact hline
    · exact h.file line' hline'

theorem Collects.step {news : List NewLine} (h : Collects s news) (htimely : Timely s e)
    (hstep : (threads decode).step s e = some s') : ∃ news', Collects s' news' := by
  obtain ⟨hlocal, -⟩ | ⟨rfl, rfl⟩ | ⟨-, rfl⟩ | ⟨t, new, back, -, ht, rfl⟩ | ⟨t, line, back, -, ht, rfl⟩ :=
    step_cases hstep
  · refine ⟨news, hlocal.channel.trans h.channel, ?_, ?_, ?_⟩
    · intro t line hline
      rw [hlocal.unwritten] at hline
      exact h.unwritten t line hline
    · rw [hlocal.file]
      exact h.file
    · rw [hlocal.after, hlocal.collected]
      exact h.collected
  · exact ⟨news, (h.poll htimely).1⟩
  · exact ⟨news, h.channel, h.unwritten, fun _ hline => absurd hline List.not_mem_nil, 0, Nat.zero_le _, rfl, rfl⟩
  · exact ⟨news ++ [new], h.number new back⟩
  · exact ⟨news, h.write ht⟩

/-- The file is all lines in their order exactly if its numbers are. -/
theorem file_eq_history_iff {news : List NewLine} (h : Collects s news) :
    s.file = history news ↔ s.file.map LogLine.seq = List.range news.length := by
  have hnumbers : (history news).map LogLine.seq = List.range news.length := by
    apply List.ext_getElem
    · rw [List.length_map, length_history, List.length_range]
    · intro i hi hi'
      rw [List.getElem_map, seq_history, List.getElem_range]
  rw [← hnumbers]
  constructor
  · exact congrArg _
  · intro heq
    apply List.ext_getElem
    · simpa only [List.length_map] using congrArg List.length heq
    · intro i hi hi'
      obtain ⟨j, hj, hline⟩ := List.getElem_of_mem (h.file _ (List.getElem_mem hi))
      have hseq : (s.file[i]).seq = (history news)[i].seq := by
        rw [← List.getElem_map LogLine.seq (h := by rwa [List.length_map]), List.getElem_of_eq heq,
          List.getElem_map]
      rw [← hline, seq_history, seq_history] at hseq
      subst hseq
      exact hline.symm

/-- With timely polls, a last poll leaves the client with the lines of the file in their order exactly if
no line is on its way to the file and every step was orderly. -/
theorem polled_eq_file_iff {events : List ThreadEvent} (h : (threads decode).run {} events = some s)
    (htimely : (threads decode).Follows Timely {} events) (hlast : Timely s .poll) :
    s.poll.collected = s.file ↔
      (∀ t, (s.phase t).unwritten = none) ∧ (threads decode).Follows Orderly {} events := by
  have howned : s.log.Owned :=
    (Machine.reachable_of_run h).invariant (P := fun s : ChannelThreads => s.log.Owned)
      WriteOrder.Log.owned_empty fun s e s' _ howned _ h => owned_step h howned
  obtain ⟨news, hnews⟩ := Machine.run_invariant (fun s : ChannelThreads => ∃ news, Collects s news)
    (fun s e s' ⟨news, hnews⟩ htimely h => hnews.step htimely h) ⟨[], collects_empty⟩ htimely h
  have hcount : s.log.count = news.length := by
    change s.channel.nextSeq = _
    rw [hnews.channel, (channelAfter_spec news).1]
  rw [(hnews.poll hlast).2, eq_comm, file_eq_history_iff hnews, ← inOrder_iff_follows h]
  constructor
  · intro hfile
    have hquiet : ∀ t, (s.phase t).unwritten = none := by
      intro t
      apply Option.eq_none_iff_forall_ne_some.mpr
      intro line hline
      have hheld : s.log.held t = some line.seq := Option.map_eq_some_iff.mpr ⟨line, hline, rfl⟩
      apply howned.unwritten t line.seq hheld
      change line.seq ∈ s.file.map LogLine.seq
      rw [hfile, ← hcount]
      exact List.mem_range.mpr (howned.lt t line.seq hheld)
    refine ⟨hquiet, ?_⟩
    apply (WriteOrder.Log.inOrder_iff_of_quiet howned fun t => Option.map_eq_none_iff.mpr (hquiet t)).mpr
    rw [hcount]
    exact hfile
  · rintro ⟨hquiet, hordered⟩
    rw [← hcount]
    exact (WriteOrder.Log.inOrder_iff_of_quiet howned fun t => Option.map_eq_none_iff.mpr (hquiet t)).mp
      hordered

/-- A thread numbers and writes one received line. -/
def oneLine : List ThreadEvent :=
  [.openLog, .ingest 0 .rx [0x41, 0x0A], .find 0, .slice 0, .delete 0 (.text ""), .number 0, .write 0]

theorem oneLine_polled : ∃ s, (threads fun _ => "A").run {} oneLine = some s ∧
    (s.poll.collected = s.file ↔
      (∀ t, (s.phase t).unwritten = none) ∧ (threads fun _ => "A").Follows Orderly {} oneLine) := by
  refine ⟨_, rfl, polled_eq_file_iff rfl (Machine.follows_of_forall ?_) ?_⟩
  · intro e he s
    simp only [oneLine, List.mem_cons, List.not_mem_nil, or_false] at he
    rcases he with rfl | rfl | rfl | rfl | rfl | rfl | rfl <;> trivial
  · change (1 : ℤ) < -1 + 1 + maxMemoryLines
    decide

/-- A received line is numbered before a sent one and written behind it. -/
def swapped : List ThreadEvent :=
  [.openLog, .ingest 0 .rx [0x41, 0x0A], .find 0, .slice 0, .delete 0 (.text ""),
    .ingest 1 .tx [0x42, 0x0A], .find 1, .slice 1, .delete 1 (.text ""),
    .number 0, .number 1, .write 1, .write 0]

theorem swapped_not_polled : ¬ ∀ events s, (threads fun _ => "A").run {} events = some s →
    (threads fun _ => "A").Follows Timely {} events → Timely s .poll →
    (∀ t, (s.phase t).unwritten = none) → s.poll.collected.map (·.dir) = s.file.map (·.dir) := by
  intro hclaim
  have hdirs := hclaim swapped _ rfl (Machine.follows_of_forall ?_) ?_ ?_
  · revert hdirs
    decide +kernel
  · intro e he s
    simp only [swapped, List.mem_cons, List.not_mem_nil, or_false] at he
    rcases he with rfl | rfl | rfl | rfl | rfl | rfl | rfl | rfl | rfl | rfl | rfl | rfl | rfl <;> trivial
  · change (2 : ℤ) < -1 + 1 + maxMemoryLines
    decide
  · intro t
    rcases t with _ | _ | t <;> rfl

end ChannelThreads
end HplcWorkbench.ModuleLog
