import HplcWorkbench.CursorPaging
import HplcWorkbench.FrameSummary

/-!
# Pages of the frame journal

`query` selects the first entries behind a sequence number that meet the filters. A client that
follows `next_after_seq` meets a journal that records and evicts frames between its pages.
-/

namespace HplcWorkbench.Journal
open Transitions

/-- The filters of `query`. -/
structure Filters where
  direction : Option String := none
  updown : Option String := none
  afn : PyVal := .none
  fn : PyVal := .none
  kind : Option String := none
  runId : Option String := none

def wantDir : Option String → Option Direction
  | some "tx" => some .tx
  | some "rx" => some .rx
  | _ => none

def wantUpdown (updown : Option String) : Option String :=
  if updown = some "up" ∨ updown = some "down" then updown else none

/-- A filter that is missing lets everything through. -/
def passes {α : Type} [DecidableEq α] (want value : Option α) : Bool :=
  want = none || value = want

def Filters.admits (q : Filters) (e : Entry) : Bool :=
  passes (wantDir q.direction) (some e.dir) && passes (wantUpdown q.updown) e.updown &&
    passes (given (normalizeAfn q.afn)) e.afn && passes (given (normalizeFn q.fn)) e.fn &&
    passes (given q.kind) e.kind && passes (given q.runId) e.runId

structure Counts where
  tx : ℕ := 0
  rx : ℕ := 0
  uplink : ℕ := 0
  deriving DecidableEq, Repr

def Counts.add (c : Counts) (e : Entry) : Counts :=
  match e.dir with
  | .tx => { c with tx := c.tx + 1 }
  | .rx => { c with rx := c.rx + 1, uplink := c.uplink + if e.updown = some "up" then 1 else 0 }

structure QueryResult where
  entries : List Entry
  nextAfterSeq : ℤ
  matchedTotal : ℕ
  hasMore : Bool
  counts : Counts
  deriving DecidableEq, Repr

/-- `max(1, min(int(limit or 100), 500))`. -/
def pageLimit (limit : ℤ) : ℕ := (max 1 (min (if limit = 0 then 100 else limit) 500)).toNat

/-- One round of the loop of `query`. -/
def selectEntry (q : Filters) (afterSeq : ℤ) (limit : ℕ) (s : Counts × List Entry) (e : Entry) :
    Counts × List Entry :=
  (s.1.add e,
    if afterSeq < e.seq ∧ q.admits e ∧ s.2.length < limit then s.2 ++ [e] else s.2)

section Query
variable {Thread : Type}

def FrameJournal.query (j : FrameJournal Thread) (q : Filters) (afterSeq limit : ℤ) : QueryResult :=
  let limit := pageLimit limit
  let afterSeq := max 0 afterSeq
  let (counts, selected) := j.entries.foldl (selectEntry q afterSeq limit) ({}, [])
  let matchedTotal := j.entries.countP fun e => afterSeq < e.seq ∧ q.admits e
  { entries := selected
    nextAfterSeq := (selected.getLast?.map fun e => (e.seq : ℤ)).getD afterSeq
    matchedTotal
    hasMore := selected.length < matchedTotal
    counts }

/-- The key of the pages. -/
def Entry.key (e : Entry) : ℤ := e.seq

theorem selectEntry_foldl (q : Filters) (afterSeq : ℤ) (limit : ℕ) (entries : List Entry)
    (s : Counts × List Entry) (hs : s.2.length ≤ limit) :
    (entries.foldl (selectEntry q afterSeq limit) s).2 =
      s.2 ++ (CursorPaging.rest Entry.key q.admits entries afterSeq).take (limit - s.2.length) := by
  induction entries generalizing s with
  | nil => simp [CursorPaging.rest]
  | cons e entries ih =>
    rw [List.foldl_cons]
    by_cases hmatch : afterSeq < e.key ∧ q.admits e = true
    · have hrest : CursorPaging.rest Entry.key q.admits (e :: entries) afterSeq =
          e :: CursorPaging.rest Entry.key q.admits entries afterSeq :=
        List.filter_cons_of_pos (decide_eq_true hmatch)
      by_cases hroom : s.2.length < limit
      · have hstep : (selectEntry q afterSeq limit s e).2 = s.2 ++ [e] :=
          if_pos ⟨hmatch.1, hmatch.2, hroom⟩
        have hleft : limit - s.2.length = limit - (s.2 ++ [e]).length + 1 := by
          rw [List.length_append, List.length_singleton]
          omega
        rw [ih _ (by rw [hstep, List.length_append, List.length_singleton]; omega), hstep, hrest,
          hleft, List.take_succ_cons, List.append_assoc, List.singleton_append]
      · have hstep : (selectEntry q afterSeq limit s e).2 = s.2 := if_neg fun h => hroom h.2.2
        have hfull : limit - s.2.length = 0 := by omega
        rw [ih _ (hstep ▸ hs), hstep, hfull, List.take_zero, List.take_zero]
    · have hstep : (selectEntry q afterSeq limit s e).2 = s.2 := if_neg fun h => hmatch ⟨h.1, h.2.1⟩
      have hrest : CursorPaging.rest Entry.key q.admits (e :: entries) afterSeq =
          CursorPaging.rest Entry.key q.admits entries afterSeq :=
        List.filter_cons_of_neg (by simpa using hmatch)
      rw [ih _ (hstep ▸ hs), hstep, hrest]

theorem query_entries (j : FrameJournal Thread) (q : Filters) (afterSeq limit : ℤ) :
    (j.query q afterSeq limit).entries =
      CursorPaging.page Entry.key q.admits (pageLimit limit) j.entries (max 0 afterSeq) := by
  have h := selectEntry_foldl q (max 0 afterSeq) (pageLimit limit) j.entries ({}, []) (Nat.zero_le _)
  rw [List.nil_append, List.length_nil, Nat.sub_zero] at h
  exact h

theorem query_next (j : FrameJournal Thread) (q : Filters) (afterSeq limit : ℤ) :
    (j.query q afterSeq limit).nextAfterSeq =
      CursorPaging.next Entry.key (max 0 afterSeq) (j.query q afterSeq limit).entries := rfl

theorem query_hasMore (j : FrameJournal Thread) (q : Filters) (afterSeq limit : ℤ) :
    (j.query q afterSeq limit).hasMore = true ↔
      pageLimit limit < (CursorPaging.rest Entry.key q.admits j.entries (max 0 afterSeq)).length := by
  have hmatched : (j.query q afterSeq limit).matchedTotal =
      (CursorPaging.rest Entry.key q.admits j.entries (max 0 afterSeq)).length :=
    List.countP_eq_length_filter
  have hmore : (j.query q afterSeq limit).hasMore = true ↔
      (j.query q afterSeq limit).entries.length < (j.query q afterSeq limit).matchedTotal :=
    decide_eq_true_iff
  rw [hmore, hmatched, query_entries, CursorPaging.page, List.length_take]
  omega

end Query

/-! ## The journal between two pages -/

section Between
variable {Thread : Type} [DecidableEq Thread] {memoryLimit : ℕ} {summarize : Bytes → Summary}
  {j j' : FrameJournal Thread}

/-- The entries stand in the order of their numbers, none of them above the last one given. -/
structure Numbered (j : FrameJournal Thread) : Prop where
  ordered : CursorPaging.Ordered Entry.key j.entries
  positive : ∀ e ∈ j.entries, 0 < e.key
  bounded : ∀ e ∈ j.entries, e.key ≤ j.seq

/-- A later journal: a number that was given before is that of an entry from before. -/
structure Later (j j' : FrameJournal Thread) : Prop where
  seq : j.seq ≤ j'.seq
  old : ∀ e ∈ j'.entries, e.key ≤ j.seq → e ∈ j.entries

omit [DecidableEq Thread] in
theorem Later.refl (j : FrameJournal Thread) : Later j j := ⟨le_rfl, fun _ he _ => he⟩

omit [DecidableEq Thread] in
theorem Later.trans {j'' : FrameJournal Thread} (h : Later j j') (h' : Later j' j'') :
    Later j j'' where
  seq := h.seq.trans h'.seq
  old e he hle := by
    have hseq : (j.seq : ℤ) ≤ j'.seq := Int.ofNat_le.mpr h.seq
    exact h.old e (h'.old e he (hle.trans hseq)) hle

omit [DecidableEq Thread] in
theorem Later.keeps (h : Later j j') (hj : Numbered j) :
    CursorPaging.Keeps Entry.key j.entries j'.entries :=
  fun z hz a ha hle => h.old a ha (hle.trans (hj.bounded z hz))

omit [DecidableEq Thread] in
/-- A frame that is recorded gets the next number, and old entries may leave. -/
theorem append_recorded (memoryLimit : ℕ) (summarize : Bytes → Summary) (j : FrameJournal Thread)
    (direction : Direction) {raw : Bytes} (tags : Tags) (hraw : raw ≠ []) :
    ∃ (entry : Entry) (n : ℕ), entry.key = j.seq + 1 ∧
      (append memoryLimit summarize j direction raw tags).2 =
        { j with seq := j.seq + 1, entries := (j.entries ++ [entry]).drop n } := by
  rw [append, if_neg hraw]
  exact ⟨_, _, rfl, rfl⟩

omit [DecidableEq Thread] in
theorem append_numbered (h : Numbered j) (direction : Direction) (raw : Bytes) (tags : Tags) :
    Numbered (append memoryLimit summarize j direction raw tags).2 ∧
      Later j (append memoryLimit summarize j direction raw tags).2 := by
  by_cases hraw : raw = []
  · rw [append, if_pos hraw]
    exact ⟨h, Later.refl j⟩
  obtain ⟨entry, n, hkey, hnext⟩ :=
    append_recorded memoryLimit summarize j direction tags hraw
  have hmem {e : Entry} (he : e ∈ (j.entries ++ [entry]).drop n) : e ∈ j.entries ∨ e = entry := by
    rcases List.mem_append.mp (List.mem_of_mem_drop he) with he | he
    · exact .inl he
    · exact .inr (List.mem_singleton.mp he)
  rw [hnext]
  constructor
  · constructor
    · apply List.Pairwise.sublist (List.drop_sublist _ _)
      refine List.pairwise_append.mpr ⟨h.ordered, List.pairwise_singleton _ _, ?_⟩
      intro e he e' he'
      rw [List.mem_singleton.mp he', hkey]
      exact Int.lt_add_one_iff.mpr (h.bounded e he)
    · intro e he
      rcases hmem he with he | rfl
      · exact h.positive e he
      · omega
    · intro e he
      change e.key ≤ ((j.seq + 1 : ℕ) : ℤ)
      rcases hmem he with he | rfl
      · have hbounded := h.bounded e he
        omega
      · omega
  · constructor
    · exact Nat.le_succ _
    · intro e he hle
      rcases hmem he with he | rfl
      · exact he
      · omega

theorem step_numbered {e : Event Thread} (h : Numbered j)
    (he : (journal memoryLimit summarize).step j e = some j') : Numbered j' ∧ Later j j' := by
  cases e with
  | enter t runId kind =>
    obtain rfl := Option.some.inj he
    exact ⟨⟨h.ordered, h.positive, h.bounded⟩, ⟨le_rfl, fun _ he _ => he⟩⟩
  | exit t =>
    cases hinside : j.inside t with
    | nil =>
      simp only [journal, hinside] at he
      cases he
    | cons scope outer =>
      simp only [journal, hinside, Option.some.injEq] at he
      subst he
      exact ⟨⟨h.ordered, h.positive, h.bounded⟩, ⟨le_rfl, fun _ he _ => he⟩⟩
  | record t direction raw tags =>
    obtain rfl := Option.some.inj he
    exact append_numbered h direction raw tags

theorem run_numbered {events : List (Event Thread)} (h : Numbered j)
    (hrun : (journal memoryLimit summarize).run j events = some j') : Numbered j' ∧ Later j j' := by
  induction events generalizing j with
  | nil =>
    obtain rfl := Option.some.inj hrun
    exact ⟨h, Later.refl j⟩
  | cons e events ih =>
    rw [Machine.run, Option.bind_eq_some_iff] at hrun
    obtain ⟨j₁, he, hrest⟩ := hrun
    obtain ⟨hj₁, hlater⟩ := step_numbered h he
    obtain ⟨hj', hlater'⟩ := ih hj₁ hrest
    exact ⟨hj', hlater.trans hlater'⟩

theorem reachable_numbered (h : (journal memoryLimit summarize).Reachable {} j) : Numbered j := by
  refine h.invariant ⟨List.Pairwise.nil, List.forall_mem_nil _, List.forall_mem_nil _⟩ ?_
  intro s e s' _ hs _ he
  exact (step_numbered hs he).1

end Between

/-! ## A client that follows the cursor -/

section Client
variable {Thread : Type} [DecidableEq Thread] (memoryLimit : ℕ) (summarize : Bytes → Summary)
  (q : Filters) (limit : ℤ)

/-- The pages from a sequence number on until `has_more` is false, with any events of the journal
between them; the last journal is the one the last page is read from. -/
inductive Paging : FrameJournal Thread → ℤ → List (List Entry) → FrameJournal Thread → Prop
  | last {j : FrameJournal Thread} {afterSeq : ℤ} (hmore : (j.query q afterSeq limit).hasMore = false) :
      Paging j afterSeq [(j.query q afterSeq limit).entries] j
  | more {j j' last : FrameJournal Thread} {afterSeq : ℤ} {events : List (Event Thread)}
      {pages : List (List Entry)} (hmore : (j.query q afterSeq limit).hasMore = true)
      (hrun : (journal memoryLimit summarize).run j events = some j')
      (hrest : Paging j' (j.query q afterSeq limit).nextAfterSeq pages last) :
      Paging j afterSeq ((j.query q afterSeq limit).entries :: pages) last

variable {memoryLimit summarize q limit} {j last : FrameJournal Thread} {afterSeq : ℤ}
  {pages : List (List Entry)}

omit [DecidableEq Thread] in
theorem nonneg_next (j : FrameJournal Thread) (q : Filters) (afterSeq limit : ℤ) :
    max 0 (j.query q afterSeq limit).nextAfterSeq = (j.query q afterSeq limit).nextAfterSeq := by
  apply max_eq_right
  rw [query_next, CursorPaging.next]
  cases (j.query q afterSeq limit).entries.getLast? with
  | none => exact le_max_left _ _
  | some e => exact Int.natCast_nonneg _

/-- The pages are those of the snapshots they are read from. -/
theorem Paging.snapshots (h : Paging memoryLimit summarize q limit j afterSeq pages last)
    (hj : Numbered j) : ∃ snapshots : List (List Entry),
      pages = CursorPaging.pages Entry.key q.admits (pageLimit limit) (max 0 afterSeq) snapshots ∧
      CursorPaging.Ends Entry.key q.admits (pageLimit limit) (max 0 afterSeq) snapshots ∧
      snapshots.Pairwise (CursorPaging.Keeps Entry.key) ∧ snapshots.getLast? = some last.entries ∧
      ∀ b ∈ snapshots, ∃ j', Numbered j' ∧ Later j j' ∧ b = j'.entries := by
  induction h with
  | @last j afterSeq hmore =>
    have hends : (CursorPaging.rest Entry.key q.admits j.entries (max 0 afterSeq)).length ≤
        pageLimit limit := by
      rw [← not_lt, ← query_hasMore, hmore]
      exact Bool.false_ne_true
    refine ⟨[j.entries], ?_, hends, List.pairwise_singleton _ _, rfl, ?_⟩
    · rw [query_entries]
      rfl
    · intro b hb
      exact ⟨j, hj, Later.refl j, List.mem_singleton.mp hb⟩
  | @more j j' last afterSeq events pages hmore hrun hrest ih =>
    obtain ⟨hj', hlater⟩ := run_numbered hj hrun
    obtain ⟨snapshots, hpages, hends, hkeeps, hlast, hlater'⟩ := ih hj'
    rw [nonneg_next, query_next, query_entries] at hpages hends
    refine ⟨j.entries :: snapshots, ?_, ?_, ?_, ?_, ?_⟩
    · rw [query_entries, hpages]
      rfl
    · cases snapshots with
      | nil => cases hends
      | cons b snapshots => exact hends
    · refine List.pairwise_cons.mpr ⟨?_, hkeeps⟩
      intro b hb
      obtain ⟨j₁, -, hj₁, rfl⟩ := hlater' b hb
      exact (hlater.trans hj₁).keeps hj
    · rw [List.getLast?_cons, hlast]
      rfl
    · intro b hb
      rcases List.mem_cons.mp hb with rfl | hb
      · exact ⟨j, hj, Later.refl j, rfl⟩
      · obtain ⟨j₁, hnumbered, hj₁, rfl⟩ := hlater' b hb
        exact ⟨j₁, hnumbered, hlater.trans hj₁, rfl⟩

theorem pageLimit_pos (limit : ℤ) : 0 < pageLimit limit := by
  rw [pageLimit]
  omega

/-- A journal that does not change is read in finitely many pages. -/
theorem exists_paging (hj : Numbered j) (afterSeq : ℤ) :
    ∃ pages, Paging memoryLimit summarize q limit j afterSeq pages j := by
  have hlimit := pageLimit_pos limit
  -- each page takes its entries off what is left
  induction hleft : (CursorPaging.rest Entry.key q.admits j.entries (max 0 afterSeq)).length
    using Nat.strong_induction_on generalizing afterSeq with
  | h n ih =>
    by_cases hmore : (j.query q afterSeq limit).hasMore = true
    · have hbehind := (query_hasMore j q afterSeq limit).mp hmore
      have hnext := CursorPaging.rest_next q.admits (max 0 afterSeq) hj.ordered hlimit
      have hfewer : (CursorPaging.rest Entry.key q.admits j.entries
          (max 0 (j.query q afterSeq limit).nextAfterSeq)).length < n := by
        rw [nonneg_next, query_next, query_entries, hnext, List.length_drop]
        omega
      have hstay : (journal memoryLimit summarize).run j [] = some j := rfl
      obtain ⟨pages, hpages⟩ := ih _ hfewer (j.query q afterSeq limit).nextAfterSeq rfl
      exact ⟨_, .more hmore hstay hpages⟩
    · exact ⟨_, .last (eq_false_of_ne_true hmore)⟩

end Client

/-- Every entry that meets the filters and is still there at the last page is on the pages once,
and the pages are in the order of the sequence numbers. -/
theorem paging_lossless {Thread : Type} [DecidableEq Thread] (memoryLimit : ℕ)
    (summarize : Bytes → Summary) (q : Filters) (limit : ℤ) {j : FrameJournal Thread}
    (hj : (journal memoryLimit summarize).Reachable {} j) :
    (∃ pages, Paging memoryLimit summarize q limit j 0 pages j) ∧
    ∀ pages last, Paging memoryLimit summarize q limit j 0 pages last →
      (pages.flatten.map Entry.seq).Pairwise (· < ·) ∧ (∀ e ∈ pages.flatten, q.admits e = true) ∧
      ∀ e ∈ last.entries, q.admits e = true → pages.flatten.count e = 1 := by
  have hnumbered := reachable_numbered hj
  refine ⟨exists_paging hnumbered 0, fun pages last h => ?_⟩
  obtain ⟨snapshots, hpages, hends, hkeeps, hlast, hsnapshots⟩ := h.snapshots hnumbered
  have hordered : ∀ b ∈ snapshots, CursorPaging.Ordered Entry.key b := by
    intro b hb
    obtain ⟨j', hj', -, rfl⟩ := hsnapshots b hb
    exact hj'.ordered
  obtain ⟨hsorted, hadmitted⟩ := CursorPaging.pages_ordered q.admits (pageLimit limit)
    (max 0 0) hordered
  rw [← hpages] at hsorted hadmitted
  have hincreasing : (pages.flatten.map Entry.seq).Pairwise (· < ·) :=
    List.pairwise_map.mpr (hsorted.imp fun hlt => Int.ofNat_lt.mp hlt)
  refine ⟨hincreasing, fun e he => (hadmitted e he).2, fun e he hadmits => ?_⟩
  obtain ⟨j', hj', -, hentries⟩ := hsnapshots _ (List.mem_of_getLast? hlast)
  have hpositive : 0 < e.key := hj'.positive e (hentries ▸ he)
  have hmem := CursorPaging.mem_pages hordered hkeeps hends hlast he hpositive hadmits
  rw [← hpages] at hmem
  have hnodup : pages.flatten.Nodup := List.Nodup.of_map Entry.seq (hincreasing.imp ne_of_lt)
  exact List.count_eq_one_of_mem hnodup hmem

/-- Three frames, of which the first one leaves a journal of two. -/
def threeFrames : List (Event ℕ) :=
  [.record 0 .tx [0x01] {}, .record 0 .rx [0x02] {}, .record 0 .rx [0x03] {}]

theorem threeFrames_paged : ∃ j, (journal 2 undecoded).run {} threeFrames = some j ∧
    (∃ pages, Paging 2 undecoded { direction := some "rx" } 1 j 0 pages j) ∧
    ∀ pages last, Paging 2 undecoded { direction := some "rx" } 1 j 0 pages last →
      (pages.flatten.map Entry.seq).Pairwise (· < ·) ∧
      (∀ e ∈ pages.flatten, Filters.admits { direction := some "rx" } e = true) ∧
      ∀ e ∈ last.entries, Filters.admits { direction := some "rx" } e = true →
        pages.flatten.count e = 1 := by
  obtain ⟨j, hrun⟩ : ∃ j, (journal 2 undecoded).run {} threeFrames = some j := ⟨_, rfl⟩
  exact ⟨j, hrun, paging_lossless 2 undecoded { direction := some "rx" } 1
    (Machine.reach_of_run (fun _ _ _ => trivial) hrun)⟩

end HplcWorkbench.Journal
