import HplcWorkbench.FrameJournal
import HplcWorkbench.OrderedDict

/-!
# The sessions of the frame journal

The manager keeps the sessions by their identifier, in the order they came, and trims the oldest
ones. A session identifier is made of the second and the port, so that two sessions of one port
can have the same one. Which object a session is says its number.
-/

namespace HplcWorkbench.Journal
open OrderedDict Transitions

/-- A `FrameJournal` as the manager sees it. -/
structure Session where
  number : ℕ
  sessionId : String
  port : String
  deriving DecidableEq, Repr

/-- What `_PORT_SANITIZE` leaves alone. -/
def portChar (c : Char) : Bool := c.isAlphanum || c = '_' || c = '-'

/-- `_PORT_SANITIZE.sub("-", s)`: every run of other characters becomes one dash. -/
def sanitize : Bool → List Char → List Char
  | _, [] => []
  | inRun, c :: rest =>
    if portChar c then c :: sanitize false rest
    else if inRun then sanitize true rest
    else '-' :: sanitize true rest

/-- `f"sc-{stamp}-{safe_port}"`. -/
def sessionIdOf (stamp port : String) : String :=
  let port := if port = "" then "COM" else port
  "sc-" ++ stamp ++ "-" ++ String.ofList (sanitize false port.toList)

/-- `FrameJournal(port=port)` at an instant printed as `stamp`. -/
def newSession (number : ℕ) (stamp port : String) : Session := ⟨number, sessionIdOf stamp port, port⟩

structure SessionManager where
  sessions : Dict String Session := .empty
  current : Option Session := none
  closed : List Session := []

/-- What `_trim` takes off the front: the oldest entries over the limit, up to the current one. -/
def trimCount (limit : ℕ) (current : Option Session) : List (String × Session) → ℕ
  | [] => 0
  | e :: rest =>
    if (e :: rest).length ≤ limit then 0
    else if some e.2 = current then 0
    else trimCount limit current rest + 1

/-- `_trim`. -/
def SessionManager.trim (limit : ℕ) (s : SessionManager) : SessionManager :=
  let n := trimCount limit s.current s.sessions.entries
  { s with
    closed := (s.sessions.entries.take n).map Prod.snd ++ s.closed
    sessions := ⟨s.sessions.entries.drop n,
      s.sessions.nodup.sublist ((List.drop_sublist _ _).map _)⟩ }

/-- `open_session`, with the journal that it creates. -/
def SessionManager.openSession (limit : ℕ) (s : SessionManager) (journal : Session) :
    SessionManager :=
  SessionManager.trim limit
    { sessions := s.sessions.set journal.sessionId journal
      current := some journal
      closed := s.current.toList ++ s.closed }

/-- `register_ephemeral`. -/
def SessionManager.registerEphemeral (limit : ℕ) (s : SessionManager) (journal : Session) :
    SessionManager :=
  SessionManager.trim limit { s with sessions := s.sessions.set journal.sessionId journal }

/-- `finalize`. -/
def SessionManager.finalize (s : SessionManager) (journal : Session) : SessionManager :=
  { s with closed := journal :: s.closed }

/-- `get`. -/
def SessionManager.get (s : SessionManager) (sessionId : String) : Option Session :=
  s.sessions.get? sessionId

/-- `current_or_latest`. -/
def SessionManager.currentOrLatest (s : SessionManager) : Option Session :=
  s.current.or (s.sessions.entries.getLast?.map Prod.snd)

/-- `resolve`. -/
def SessionManager.resolve (s : SessionManager) (sessionId : Option String) : Option Session :=
  match sessionId with
  | some "" | none => s.currentOrLatest
  | some sessionId => s.get sessionId

inductive SessionEvent
  | openSession (number : ℕ) (stamp port : String)
  | registerEphemeral (journal : Session)
  | finalize (journal : Session)
  deriving DecidableEq, Repr

/-- `max(1, int(retain))`. -/
def retainLimit (retain : ℤ) : ℕ := max 1 retain.toNat

/-- The manager under a sequence of calls. -/
def sessionManager (retain : ℤ) : Machine SessionManager SessionEvent where
  step s
    | .openSession number stamp port =>
      some (s.openSession (retainLimit retain) (newSession number stamp port))
    | .registerEphemeral journal => some (s.registerEphemeral (retainLimit retain) journal)
    | .finalize journal => some (s.finalize journal)

/-! ## Retention -/

/-- No more sessions than the limit, and the current one is found under its identifier. -/
structure Retained (limit : ℕ) (s : SessionManager) : Prop where
  bounded : s.sessions.entries.length ≤ limit
  current : ∀ journal, s.current = some journal →
    s.get journal.sessionId = some journal ∧ s.resolve (some journal.sessionId) = some journal

/-- Every session is filed under its own identifier. -/
def Filed (d : Dict String Session) : Prop := ∀ e ∈ d.entries, e.2.sessionId = e.1

/-- An ephemeral session does not take the identifier of the current session, and when its own
identifier is new and the table is full, the oldest session is not the current one. -/
def Roomy (limit : ℕ) (s : SessionManager) : SessionEvent → Prop
  | .registerEphemeral journal =>
    (∀ current, s.current = some current → current.sessionId = journal.sessionId → current = journal) ∧
      (s.sessions.get? journal.sessionId = none → s.sessions.entries.length = limit →
        ∀ oldest, s.sessions.entries.head? = some oldest → s.current ≠ some oldest.2)
  | _ => True

section Trim
variable {limit : ℕ} {s : SessionManager}

theorem trim_of_le (h : s.sessions.entries.length ≤ limit) : s.trim limit = s := by
  have hcount : trimCount limit s.current s.sessions.entries = 0 := by
    cases hentries : s.sessions.entries with
    | nil => rfl
    | cons e rest =>
        rw [hentries] at h
        rw [trimCount, if_pos h]
  unfold SessionManager.trim
  simp only [hcount, List.drop_zero, List.take_zero, List.map_nil, List.nil_append]

/-- With one entry too many, the oldest goes unless it is the current session. -/
theorem trim_of_full {oldest : String × Session} {rest : List (String × Session)}
    (hentries : s.sessions.entries = oldest :: rest) (h : rest.length = limit) :
    (s.trim limit).sessions.entries =
      if some oldest.2 = s.current then oldest :: rest else rest := by
  have hover : ¬ (oldest :: rest).length ≤ limit := by
    rw [List.length_cons]
    omega
  unfold SessionManager.trim
  dsimp only
  rw [hentries, trimCount, if_neg hover]
  by_cases hcurrent : some oldest.2 = s.current
  · rw [if_pos hcurrent, if_pos hcurrent, List.drop_zero]
  · have hrest : trimCount limit s.current rest = 0 := by
      cases rest with
      | nil => rfl
      | cons e more => rw [trimCount, if_pos (le_of_eq h)]
    rw [if_neg hcurrent, if_neg hcurrent, hrest]
    rfl

theorem trim_filed (h : Filed s.sessions) : Filed (s.trim limit).sessions :=
  fun e he => h e (List.mem_of_mem_drop he)

theorem resolve_of_get {journal : Session} (hcurrent : s.current = some journal)
    (h : s.get journal.sessionId = some journal) :
    s.resolve (some journal.sessionId) = some journal := by
  unfold SessionManager.resolve
  split
  · rw [SessionManager.currentOrLatest, hcurrent]
    rfl
  · rename_i heq
    cases heq
  · rename_i heq
    rw [← Option.some.inj heq]
    exact h

theorem retained_iff : Retained limit s ↔ s.sessions.entries.length ≤ limit ∧
    ∀ journal, s.current = some journal → (journal.sessionId, journal) ∈ s.sessions.entries := by
  constructor
  · rintro ⟨hbounded, hcurrent⟩
    exact ⟨hbounded, fun journal hj => (Dict.get?_eq_some_iff _ _ _).mp (hcurrent journal hj).1⟩
  · rintro ⟨hbounded, hcurrent⟩
    refine ⟨hbounded, fun journal hj => ?_⟩
    have hget := (Dict.get?_eq_some_iff _ _ _).mpr (hcurrent journal hj)
    exact ⟨hget, resolve_of_get hj hget⟩

end Trim

section Filing
variable {d : Dict String Session} {journal : Session}

theorem set_filed (h : Filed d) : Filed (d.set journal.sessionId journal) := by
  intro e he
  have hget := (Dict.get?_eq_some_iff _ _ _).mpr he
  by_cases hkey : e.1 = journal.sessionId
  · rw [hkey, Dict.get?_set_self] at hget
    rw [← Option.some.inj hget, hkey]
  · rw [Dict.get?_set_of_ne _ _ _ _ hkey] at hget
    exact h e ((Dict.get?_eq_some_iff _ _ _).mp hget)

theorem set_mem : (journal.sessionId, journal) ∈ (d.set journal.sessionId journal).entries :=
  (Dict.get?_eq_some_iff _ _ _).mp (Dict.get?_set_self _ _ _)

theorem set_mem_of_ne {other : Session} (h : other.sessionId ≠ journal.sessionId) :
    (other.sessionId, other) ∈ (d.set journal.sessionId journal).entries ↔
      (other.sessionId, other) ∈ d.entries := by
  rw [← Dict.get?_eq_some_iff, ← Dict.get?_eq_some_iff, Dict.get?_set_of_ne _ _ _ _ h]

end Filing

/-! ## Steps -/

section Steps
variable {limit : ℕ} {s : SessionManager}

/-- Opening a session never lets the table overflow: the new session is current and last. -/
theorem openSession_retained (hlimit : 0 < limit) (h : Retained limit s) (hfiled : Filed s.sessions)
    (journal : Session) : Retained limit (s.openSession limit journal) := by
  rw [retained_iff]
  have hbounded := h.bounded
  unfold SessionManager.openSession
  cases hkey : s.sessions.get? journal.sessionId with
  | some known =>
      have hlength : (s.sessions.set journal.sessionId journal).entries.length ≤ limit := by
        rwa [Dict.length_set_of_some _ journal hkey]
      rw [trim_of_le hlength]
      refine ⟨hlength, fun j hj => ?_⟩
      obtain rfl := Option.some.inj hj
      exact set_mem
  | none =>
      have hentries := Dict.entries_set_of_none s.sessions journal hkey
      by_cases hroom : s.sessions.entries.length < limit
      · have hlength : (s.sessions.set journal.sessionId journal).entries.length ≤ limit := by
          rw [hentries, List.length_append, List.length_singleton]
          omega
        rw [trim_of_le hlength]
        refine ⟨hlength, fun j hj => ?_⟩
        obtain rfl := Option.some.inj hj
        exact set_mem
      · cases hold : s.sessions.entries with
        | nil =>
            rw [hold] at hroom
            exact absurd hlimit hroom
        | cons oldest rest =>
            rw [hold, List.cons_append] at hentries
            rw [hold, List.length_cons] at hbounded hroom
            have hfull : (rest ++ [(journal.sessionId, journal)]).length = limit := by
              rw [List.length_append, List.length_singleton]
              omega
            have hother : some oldest.2 ≠ some journal := by
              intro heq
              have hown := hfiled oldest (hold ▸ List.mem_cons_self)
              rw [Option.some.inj heq] at hown
              refine (Dict.get?_eq_none_iff _ _).mp hkey (List.mem_map.mpr ⟨oldest, ?_, hown.symm⟩)
              exact hold ▸ List.mem_cons_self
            rw [trim_of_full hentries hfull, if_neg hother]
            refine ⟨le_of_eq hfull, fun j hj => ?_⟩
            obtain rfl := Option.some.inj hj
            exact List.mem_append_right _ (List.mem_singleton.mpr rfl)

/-- Registering an ephemeral session keeps the retention exactly when there is room for it. -/
theorem registerEphemeral_retained (hlimit : 0 < limit) (h : Retained limit s) (journal : Session) :
    Retained limit (s.registerEphemeral limit journal) ↔
      Roomy limit s (.registerEphemeral journal) := by
  obtain ⟨hbounded, hcurrent⟩ := retained_iff.mp h
  rw [retained_iff, Roomy]
  unfold SessionManager.registerEphemeral
  cases hkey : s.sessions.get? journal.sessionId with
  | some known =>
      have hlength : (s.sessions.set journal.sessionId journal).entries.length ≤ limit := by
        rwa [Dict.length_set_of_some _ journal hkey]
      rw [trim_of_le hlength]
      constructor
      · rintro ⟨-, hkept⟩
        refine ⟨fun current hc hsame => ?_, fun hnone => nomatch hnone⟩
        have hget := (Dict.get?_eq_some_iff _ _ _).mpr (hkept current hc)
        rw [hsame, Dict.get?_set_self] at hget
        exact (Option.some.inj hget).symm
      · rintro ⟨hsame, -⟩
        refine ⟨hlength, fun current hc => ?_⟩
        by_cases hid : current.sessionId = journal.sessionId
        · obtain rfl := hsame current hc hid
          exact set_mem
        · exact (set_mem_of_ne hid).mpr (hcurrent current hc)
  | none =>
      have hentries := Dict.entries_set_of_none s.sessions journal hkey
      have hfresh : ∀ current, s.current = some current → current.sessionId ≠ journal.sessionId := by
        intro current hc hid
        have hget := (Dict.get?_eq_some_iff _ _ _).mpr (hcurrent current hc)
        rw [hid, hkey] at hget
        cases hget
      have hsame : ∀ current, s.current = some current → current.sessionId = journal.sessionId →
          current = journal := fun current hc hid => absurd hid (hfresh current hc)
      by_cases hroom : s.sessions.entries.length < limit
      · have hlength : (s.sessions.set journal.sessionId journal).entries.length ≤ limit := by
          rw [hentries, List.length_append, List.length_singleton]
          omega
        rw [trim_of_le hlength]
        refine iff_of_true ⟨hlength, fun current hc => ?_⟩ ⟨hsame, fun _ hfull => ?_⟩
        · exact (set_mem_of_ne (hfresh current hc)).mpr (hcurrent current hc)
        · omega
      · cases hold : s.sessions.entries with
        | nil =>
            rw [hold] at hroom
            exact absurd hlimit hroom
        | cons oldest rest =>
            rw [hold, List.cons_append] at hentries
            rw [hold, List.length_cons] at hbounded hroom
            have hlength : (oldest :: rest).length = limit := by
              rw [List.length_cons]
              omega
            have hfull : (rest ++ [(journal.sessionId, journal)]).length = limit := by
              rw [List.length_append, List.length_singleton]
              omega
            rw [trim_of_full hentries hfull]
            constructor
            · rintro ⟨hkept, -⟩
              refine ⟨hsame, fun _ _ first hfirst hcurrent' => ?_⟩
              obtain rfl := Option.some.inj hfirst
              rw [if_pos hcurrent'.symm, List.length_cons, hfull] at hkept
              omega
            · rintro ⟨-, hroomy⟩
              have hother := hroomy rfl hlength oldest rfl
              rw [if_neg (Ne.symm hother)]
              refine ⟨le_of_eq hfull, fun current hc => ?_⟩
              have hmem := hcurrent current hc
              rw [hold] at hmem
              rcases List.mem_cons.mp hmem with rfl | hmem
              · exact absurd hc hother
              · exact List.mem_append_left _ hmem

/-- What every step keeps. -/
structure Kept (retain : ℤ) (s : SessionManager) : Prop where
  retained : Retained (retainLimit retain) s
  filed : Filed s.sessions

theorem step_retained {retain : ℤ} {e : SessionEvent} {s' : SessionManager} (h : Kept retain s)
    (he : (sessionManager retain).step s e = some s') :
    Retained (retainLimit retain) s' ↔ Roomy (retainLimit retain) s e := by
  have hlimit : 0 < retainLimit retain := lt_of_lt_of_le Nat.zero_lt_one (le_max_left _ _)
  cases e with
  | openSession number stamp port =>
      obtain rfl := Option.some.inj he
      exact iff_of_true (openSession_retained hlimit h.retained h.filed _) trivial
  | registerEphemeral journal =>
      obtain rfl := Option.some.inj he
      exact registerEphemeral_retained hlimit h.retained journal
  | finalize journal =>
      obtain rfl := Option.some.inj he
      exact iff_of_true ⟨h.retained.bounded, h.retained.current⟩ trivial

theorem step_kept {retain : ℤ} {e : SessionEvent} {s' : SessionManager} (h : Kept retain s)
    (hroomy : Roomy (retainLimit retain) s e) (he : (sessionManager retain).step s e = some s') :
    Kept retain s' := by
  refine ⟨(step_retained h he).mpr hroomy, ?_⟩
  cases e with
  | openSession number stamp port =>
      obtain rfl := Option.some.inj he
      exact trim_filed (set_filed h.filed)
  | registerEphemeral journal =>
      obtain rfl := Option.some.inj he
      exact trim_filed (set_filed h.filed)
  | finalize journal =>
      obtain rfl := Option.some.inj he
      exact h.filed

end Steps

/-! ## Runs -/

/-- After every call of the run the limit is kept and the current session is found. -/
def AllRetained (retain : ℤ) (events : List SessionEvent) : Prop :=
  (sessionManager retain).Follows
    (fun s e => ∀ s', (sessionManager retain).step s e = some s' → Retained (retainLimit retain) s')
    {} events

/-- Retention holds along a run exactly when every ephemeral session finds room. -/
theorem allRetained_iff_roomy (retain : ℤ) (events : List SessionEvent) :
    AllRetained retain events ↔
      (sessionManager retain).Follows (Roomy (retainLimit retain)) {} events := by
  have hstart : Kept retain {} := by
    refine ⟨⟨Nat.zero_le _, fun journal hj => nomatch hj⟩, fun e he => nomatch he⟩
  apply Machine.follows_iff (Kept retain)
  · intro s e s' hs he
    rw [← step_retained hs he]
    constructor
    · exact fun h => h s' he
    · intro h t ht
      exact Option.some.inj (he.symm.trans ht) ▸ h
  · intro s e hs he
    cases e <;> cases he
  · exact fun s e s' hs hg he => step_kept hs hg he
  · exact hstart

/-- One session is current while two ephemeral ones are registered. -/
def twoEphemeral : List SessionEvent :=
  [.openSession 0 "20260913-100000" "COM1",
    .registerEphemeral (newSession 1 "20260913-100001" "COM2"),
    .registerEphemeral (newSession 2 "20260913-100002" "COM3")]

/-- Three sessions are kept where two are allowed. -/
theorem twoEphemeral_overflow : ¬ ∀ retain events, AllRetained retain events := by
  intro hall
  obtain ⟨-, hrest⟩ := hall 2 twoEphemeral
  obtain ⟨-, hrest⟩ := hrest _ rfl
  obtain ⟨hlast, -⟩ := hrest _ rfl
  have hbounded := (hlast _ rfl).bounded
  revert hbounded
  decide +kernel

end HplcWorkbench.Journal
