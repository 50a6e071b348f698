import HplcWorkbench.Bytes
import HplcWorkbench.TransitionSystems
import Mathlib.Data.List.Induction
import Mathlib.Data.List.Nodup

/-!
# Scopes of the frame journal

Threads open and close tag scopes around what they send, and the journal tags every frame it
records from one list of open scopes. A scope carries the thread that opened it and a number, which
the program does not keep: they say whose tags a frame gets and which scope is closed.
-/

namespace HplcWorkbench.Journal
open Transitions

inductive Direction
  | tx
  | rx
  deriving DecidableEq, Repr

/-- What `summarize_frame` finds in a frame. -/
structure Summary where
  afn : Option String
  fn : Option String
  updown : Option String
  deriving DecidableEq, Repr

structure Entry where
  seq : ℕ
  dir : Direction
  kind : Option String
  runId : Option String
  frame : Bytes
  afn : Option String
  fn : Option String
  updown : Option String
  deriving DecidableEq, Repr

/-- The explicit tags of `append`. -/
structure Tags where
  kind : Option String := none
  runId : Option String := none
  afn : Option String := none
  fn : Option String := none
  updown : Option String := none
  deriving DecidableEq, Repr

structure Scope (Thread : Type) where
  number : ℕ
  thread : Thread
  runId : Option String
  kind : Option String
  deriving DecidableEq, Repr

/-- A text that is missing or empty does not count. -/
def given : Option String → Option String
  | some "" => none
  | text => text

/-- The run identifier a scope gives. -/
def Scope.givenRun {Thread : Type} (s : Scope Thread) : Option String := given s.runId

/-- The journal and, for each thread, the scopes it is inside of, innermost first. -/
structure FrameJournal (Thread : Type) where
  seq : ℕ := 0
  entries : List Entry := []
  scopes : List (Scope Thread) := []
  entered : ℕ := 0
  inside : Thread → List (Scope Thread) := fun _ => []

section Journal
variable {Thread : Type}

/-- `_current_scope`. -/
def currentScope (scopes : List (Scope Thread)) : Option String × Option String :=
  scopes.foldl (fun acc s => (if acc.1 = none then s.givenRun else acc.1, s.kind)) (none, none)

variable (memoryLimit : ℕ) (summarize : Bytes → Summary)

/-- `append`; nothing is recorded for an empty frame. -/
def append (j : FrameJournal Thread) (direction : Direction) (raw : Bytes) (tags : Tags) :
    Option Entry × FrameJournal Thread :=
  if raw = [] then (none, j)
  else
    let scope := currentScope j.scopes
    let summary := summarize raw
    let entry : Entry :=
      { seq := j.seq + 1
        dir := direction
        kind := if direction = .tx ∧ tags.kind = none then scope.2 else tags.kind
        runId := if tags.runId = none then scope.1 else tags.runId
        frame := raw
        afn := (given tags.afn).or summary.afn
        fn := (given tags.fn).or summary.fn
        updown := (given tags.updown).or summary.updown }
    let entries := j.entries ++ [entry]
    (some entry,
      { j with seq := j.seq + 1, entries := entries.drop (entries.length - max 1 memoryLimit) })

inductive Event (Thread : Type)
  | enter (thread : Thread) (runId kind : Option String)
  | exit (thread : Thread)
  | record (thread : Thread) (direction : Direction) (raw : Bytes) (tags : Tags)
  deriving DecidableEq, Repr

/-- Threads enter scopes, leave their innermost one and record frames, in any order. -/
def journal [DecidableEq Thread] : Machine (FrameJournal Thread) (Event Thread) where
  step j
    | .enter t runId kind =>
      let scope : Scope Thread := ⟨j.entered, t, runId, kind⟩
      some { j with
        scopes := j.scopes ++ [scope]
        entered := j.entered + 1
        inside := Function.update j.inside t (scope :: j.inside t) }
    | .exit t =>
      match j.inside t with
      | [] => none
      | _ :: rest =>
        some { j with scopes := j.scopes.dropLast, inside := Function.update j.inside t rest }
    | .record _ direction raw tags => some (append memoryLimit summarize j direction raw tags).2

end Journal

/-! ## What the tags of a frame should be -/

section Attribution
variable {Thread : Type} [DecidableEq Thread]

/-- A sent frame without explicit tags gets the kind of the innermost scope of its thread and the
run identifier of the nearest one that gives any; a scope that is left is the one taken off. -/
def Attributed (j : FrameJournal Thread) (e : Event Thread) (j' : FrameJournal Thread) : Prop :=
  match e with
  | .record t .tx raw tags =>
    tags.kind = none → tags.runId = none → raw ≠ [] → ∀ scope outer, j.inside t = scope :: outer →
      ∃ entry, j'.entries.getLast? = some entry ∧ entry.seq = j.seq + 1 ∧ entry.frame = raw ∧
        entry.kind = scope.kind ∧ entry.runId = (j.inside t).findSome? Scope.givenRun
  | .exit t =>
    ∀ scope outer, j.inside t = scope :: outer →
      scope ∈ j.scopes ∧ j'.scopes = j.scopes.filter (·.number ≠ scope.number)
  | _ => True

/-- The thread that sends or leaves is the one that opened the last open scope, and the run
identifier that was given first among the open scopes is the one of its nearest scope. -/
def Undisturbed (j : FrameJournal Thread) : Event Thread → Prop
  | .record t _ _ _ =>
    j.inside t ≠ [] → (∃ scope, j.scopes.getLast? = some scope ∧ scope.thread = t) ∧
      j.scopes.find? (·.givenRun.isSome) = (j.inside t).find? (·.givenRun.isSome)
  | .exit t => ∃ scope, j.scopes.getLast? = some scope ∧ scope.thread = t
  | .enter _ _ _ => True

variable {memoryLimit : ℕ} {summarize : Bytes → Summary} {j j' : FrameJournal Thread} {e : Event Thread}

omit [DecidableEq Thread] in
theorem currentScope_eq (scopes : List (Scope Thread)) :
    currentScope scopes = (scopes.findSome? Scope.givenRun, scopes.getLast?.bind Scope.kind) := by
  induction scopes using List.reverseRecOn with
  | nil => rfl
  | append_singleton scopes s ih =>
      unfold currentScope at ih ⊢
      rw [List.foldl_append, ih, List.findSome?_append, List.getLast?_concat]
      cases hrun : scopes.findSome? Scope.givenRun with
      | none => simp
      | some run => simp

theorem findSome?_eq_find?_bind {α β : Type*} (f : α → Option β) (l : List α) :
    l.findSome? f = (l.find? fun a => (f a).isSome).bind f := by
  induction l with
  | nil => rfl
  | cons a l ih =>
      rw [List.findSome?_cons, List.find?_cons]
      cases hf : f a with
      | none => simpa [hf] using ih
      | some b => simp [hf]

omit [DecidableEq Thread] in
/-- The entry that `append` returns is the newest one. -/
theorem append_entry (memoryLimit : ℕ) (summarize : Bytes → Summary)
    (j : FrameJournal Thread) (direction : Direction) {raw : Bytes} (tags : Tags)
    (hraw : raw ≠ []) : ∃ entry,
      (append memoryLimit summarize j direction raw tags).1 = some entry ∧
      (append memoryLimit summarize j direction raw tags).2.entries.getLast? = some entry ∧
      entry.seq = j.seq + 1 ∧ entry.frame = raw ∧
      entry.kind = (if direction = .tx ∧ tags.kind = none then (currentScope j.scopes).2 else tags.kind) ∧
      entry.runId = (if tags.runId = none then (currentScope j.scopes).1 else tags.runId) := by
  unfold append
  rw [if_neg hraw]
  refine ⟨_, rfl, ?_, rfl, rfl, rfl, rfl⟩
  rw [List.getLast?_drop, List.getLast?_concat, if_neg]
  simp only [List.length_append, List.length_singleton]
  omega

/-- The scopes of each thread stand in the list of open scopes in the order it entered them, and
no scope stands there twice. -/
structure Stacked (j : FrameJournal Thread) : Prop where
  own : ∀ t, j.inside t = (j.scopes.filter (·.thread = t)).reverse
  numbered : ∀ s ∈ j.scopes, s.number < j.entered
  distinct : (j.scopes.map Scope.number).Nodup

theorem Stacked.innermost (h : Stacked j) {open_ : List (Scope Thread)} {scope : Scope Thread}
    (hscopes : j.scopes = open_ ++ [scope]) :
    j.inside scope.thread = scope :: (open_.filter (·.thread = scope.thread)).reverse := by
  rw [h.own, hscopes, List.filter_append, List.filter_cons_of_pos (by simp), List.filter_nil,
    List.reverse_append]
  rfl

theorem Stacked.step (h : Stacked j) (hg : Undisturbed j e)
    (he : (journal memoryLimit summarize).step j e = some j') : Stacked j' := by
  cases e with
  | enter t runId kind =>
      obtain rfl := Option.some.inj he
      refine ⟨fun t' => ?_, fun s hs => ?_, ?_⟩
      · by_cases ht : t' = t
        · subst ht
          simp [h.own t', List.filter_append]
        · simp [h.own t', List.filter_append, Function.update_of_ne ht, Ne.symm ht]
      · obtain hs | hs := List.mem_append.mp hs
        · exact (h.numbered s hs).trans (Nat.lt_succ_self _)
        · rw [List.mem_singleton.mp hs]
          exact Nat.lt_succ_self _
      · rw [List.map_append, List.map_singleton]
        refine List.Nodup.append h.distinct (List.nodup_singleton _) ?_
        rw [List.disjoint_singleton]
        intro hmem
        obtain ⟨s, hs, hnumber⟩ := List.mem_map.mp hmem
        exact (h.numbered s hs).ne hnumber
  | exit t =>
      obtain ⟨scope, hlast, rfl⟩ := hg
      obtain ⟨before, hscopes⟩ := List.getLast?_eq_some_iff.mp hlast
      have hinner := h.innermost hscopes
      simp only [journal, hinner, Option.some.injEq] at he
      subst he
      refine ⟨fun t' => ?_, fun s hs => h.numbered s ((List.dropLast_sublist _).subset hs), ?_⟩
      · by_cases ht : t' = scope.thread
        · subst ht
          simp [hscopes]
        · simp [hscopes, h.own t', List.filter_append, Function.update_of_ne ht, Ne.symm ht]
      · exact h.distinct.sublist ((List.dropLast_sublist _).map _)
  | record t direction raw tags =>
      obtain rfl := Option.some.inj he
      unfold append
      split
      · exact h
      · exact ⟨h.own, h.numbered, h.distinct⟩

theorem Stacked.attributed (h : Stacked j) (hg : Undisturbed j e)
    (he : (journal memoryLimit summarize).step j e = some j') : Attributed j e j' := by
  cases e with
  | enter t runId kind => trivial
  | exit t =>
      intro scope outer hinside
      obtain ⟨last, hlast, rfl⟩ := hg
      obtain ⟨before, hscopes⟩ := List.getLast?_eq_some_iff.mp hlast
      have hinner := h.innermost hscopes
      obtain ⟨rfl, -⟩ := List.cons.inj (hinside.symm.trans hinner)
      simp only [journal, hinner, Option.some.injEq] at he
      subst he
      refine ⟨by simp [hscopes], ?_⟩
      have hdistinct := h.distinct
      rw [hscopes, List.map_append, List.map_singleton] at hdistinct
      have hother : ∀ s ∈ before, s.number ≠ scope.number := fun s hs =>
        (List.nodup_append.mp hdistinct).2.2 _ (List.mem_map_of_mem hs) _ (List.mem_singleton_self _)
      have hkeep : before.filter (·.number ≠ scope.number) = before :=
        List.filter_eq_self.mpr fun s hs => by simpa using hother s hs
      change j.scopes.dropLast = _
      rw [hscopes, List.dropLast_concat, List.filter_append, hkeep,
        List.filter_cons_of_neg (by simp), List.filter_nil, List.append_nil]
  | record t direction raw tags =>
      cases direction with
      | rx => trivial
      | tx =>
          intro hkind hrun hraw scope outer hinside
          obtain ⟨⟨last, hlast, hthread⟩, hfirst⟩ := hg (by simp [hinside])
          obtain ⟨before, hscopes⟩ := List.getLast?_eq_some_iff.mp hlast
          subst hthread
          obtain ⟨rfl, -⟩ := List.cons.inj (hinside.symm.trans (h.innermost hscopes))
          obtain rfl := Option.some.inj he
          obtain ⟨entry, -, hentry, hseq, hframe, hkind', hrun'⟩ :=
            append_entry memoryLimit summarize j .tx tags hraw
          refine ⟨entry, hentry, hseq, hframe, ?_, ?_⟩
          · rw [hkind', if_pos ⟨rfl, hkind⟩, currentScope_eq, hlast]
            rfl
          · rw [hrun', if_pos hrun, currentScope_eq, findSome?_eq_find?_bind, findSome?_eq_find?_bind,
              hfirst]

/-- Every step of the run gives a sent frame the tags of its own thread and closes its own scope. -/
def AllAttributed (memoryLimit : ℕ) (summarize : Bytes → Summary) (events : List (Event Thread)) : Prop :=
  (journal memoryLimit summarize).Follows
    (fun j e => ∀ j', (journal memoryLimit summarize).step j e = some j' → Attributed j e j') {} events

theorem Stacked.follows {events : List (Event Thread)} (h : Stacked j)
    (hfollows : (journal memoryLimit summarize).Follows Undisturbed j events) :
    (journal memoryLimit summarize).Follows
      (fun j e => ∀ j', (journal memoryLimit summarize).step j e = some j' → Attributed j e j')
      j events := by
  induction events generalizing j with
  | nil => trivial
  | cons e events ih =>
      obtain ⟨hg, hrest⟩ := hfollows
      exact ⟨fun j' he => h.attributed hg he, fun j' he => ih (h.step hg he) (hrest j' he)⟩

/-- In a run whose threads do not disturb each other's scopes all frames are tagged as they should
be, and all scopes are closed as they should be. -/
theorem allAttributed_of_undisturbed (memoryLimit : ℕ) (summarize : Bytes → Summary)
    (events : List (Event Thread))
    (hfollows : (journal memoryLimit summarize).Follows Undisturbed {} events) :
    AllAttributed memoryLimit summarize events := by
  refine Stacked.follows ⟨fun t => rfl, fun s hs => ?_, List.nodup_nil⟩ hfollows
  cases hs

end Attribution

section Examples

/-- Of a frame that cannot be decoded nothing is recorded. -/
def undecoded (_ : Bytes) : Summary := ⟨none, none, none⟩

/-- A verify task of thread `0` sends an automatic reply in its own scope. -/
def nestedReply : List (Event ℕ) :=
  [.enter 0 (some "run-1") (some "step_send"), .enter 0 none (some "auto_reply"),
    .record 0 .tx [0x00] {}, .exit 0, .exit 0]

theorem nestedReply_attributed : AllAttributed 5000 undecoded nestedReply := by
  refine allAttributed_of_undisturbed 5000 undecoded nestedReply ?_
  simp [nestedReply, Machine.Follows, journal, Undisturbed, append, Scope.givenRun, given]

/-- Thread `1` sends a frame of run `run-b` while thread `0` is inside a scope of run `run-a`. -/
def overlapping : List (Event ℕ) :=
  [.enter 0 (some "run-a") (some "step_send"), .enter 1 (some "run-b") (some "manual_send"),
    .record 1 .tx [0x00] {}]

/-- The frame is recorded under the run of the other thread. -/
theorem overlapping_misattributed :
    ¬ ∀ events : List (Event ℕ), AllAttributed 5000 undecoded events := by
  intro hclaim
  obtain ⟨-, hrest⟩ := hclaim overlapping
  obtain ⟨-, hrest⟩ := hrest _ rfl
  obtain ⟨hrecord, -⟩ := hrest _ rfl
  obtain ⟨entry, hentry, -, -, -, hrun⟩ := hrecord _ rfl rfl rfl (by decide) _ _ rfl
  obtain rfl := Option.some.inj hentry
  revert hrun
  decide

end Examples

end HplcWorkbench.Journal
