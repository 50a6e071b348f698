import HplcWorkbench.JournalSessions
import HplcWorkbench.SerialOwnership

/-!
# Opening the serial line of the simulated concentrator

`_open_io` keeps an open line whatever line is asked for. Otherwise it starts a journal session
first, then reserves the line and opens it, and each of the two can fail. What the driver answers
is an argument of the call.
-/

namespace HplcWorkbench.SimconApi
open Journal SerialResources

/-- The entries of `port_identity` that the channel reads, empty where they are missing. -/
structure PortIdentity where
  mappingId : String := ""
  device : String := ""
  windowsCom : String := ""
  linuxDevice : String := ""
  deriving DecidableEq, Repr

/-- What `resolve_serial_config` returns. -/
structure Resolved where
  port : String
  baudrate : ℤ
  bytesize : ℤ
  parity : String
  stopbits : ℤ
  identity : PortIdentity
  deriving DecidableEq, Repr

/-- The settings with which the driver opens a port. -/
structure Line where
  port : String
  baudrate : ℤ
  bytesize : ℤ
  parity : String
  stopbits : ℤ
  deriving DecidableEq, Repr

/-- `SerialIO`; `line` are the settings of `_ser`, and `opened` is `_open`. -/
structure SerialIO where
  ident : ℕ
  port : String
  baudrate : ℤ
  bytesize : ℤ
  parity : String
  stopbits : ℤ
  identity : PortIdentity
  journal : Session
  opened : Bool := false
  line : Option Line := none
  deriving DecidableEq, Repr

inductive OpenError
  | resolve (message : String)
  | reserve (error : ReserveError)
  | driver (message : String)
  deriving DecidableEq, Repr

/-- `_BYTESIZE_MAP.get(bytesize, EIGHTBITS)`. -/
def lineBytesize (n : ℤ) : ℤ := if n ∈ [5, 6, 7, 8] then n else 8

/-- `_PARITY_MAP.get(parity.upper(), PARITY_NONE)`. -/
def lineParity (parity : String) : String :=
  if upper parity ∈ ["N", "E", "O", "M", "S"] then upper parity else "N"

/-- `_STOPBITS_MAP.get(stopbits, STOPBITS_ONE)`. -/
def lineStopbits (n : ℤ) : ℤ := if n ∈ [1, 2] then n else 1

/-- The settings that `open` hands to the driver. -/
def SerialIO.settings (io : SerialIO) : Line :=
  ⟨io.port, io.baudrate, lineBytesize io.bytesize, lineParity io.parity, lineStopbits io.stopbits⟩

/-- `_resource_aliases`. -/
def SerialIO.aliases (io : SerialIO) : List String :=
  [io.port, io.identity.device, io.identity.windowsCom, io.identity.linuxDevice].filter (· ≠ "")

/-- `_resource_owner_id`. -/
def SerialIO.ownerId (io : SerialIO) : String := "simcon:" ++ toString io.ident

/-- `SerialIO.open`, with the answer of the driver: the message of what it raises, if it does. -/
def SerialIO.open (casefold : Casefold) (driver : Line → Option String) (io : SerialIO)
    (registry : Registry) : Except OpenError SerialIO × Registry :=
  if io.opened then (.ok io, registry)
  else
    match onRegistry (reserve casefold io.ownerId "模拟集中器" io.identity.mappingId io.aliases)
        registry with
    | (.error e, registry) => (.error (.reserve e), registry)
    | (.ok _, registry) =>
      match driver io.settings with
      | some message => (.error (.driver message), (onRegistry (release io.ownerId) registry).2)
      | none => (.ok { io with opened := true, line := some io.settings }, registry)

/-- What the API and the profile adapter on top of it hold. -/
structure ApiState where
  io : Option SerialIO := none
  sessions : SessionManager := {}
  registry : Registry := {}
  openPort : Option String := none

/-- A number that no session of the manager has. -/
def freshNumber (s : SessionManager) : ℕ :=
  ((s.current.toList ++ s.sessions.entries.map Prod.snd).map Session.number).foldr max 0 + 1

/-- The surroundings of one call: the clock, the identity of the new channel and the driver. -/
structure Surroundings where
  retain : ℤ := 10
  stamp : String
  ident : ℕ
  driver : Line → Option String

/-- The channel that `_open_io` creates. -/
def newIO (env : Surroundings) (resolved : Resolved) (journal : Session) : SerialIO where
  ident := env.ident
  port := resolved.port
  baudrate := resolved.baudrate
  bytesize := resolved.bytesize
  parity := resolved.parity
  stopbits := resolved.stopbits
  identity := resolved.identity
  journal := journal

/-- The journal session that `_open_io` starts. -/
def startedSession (env : Surroundings) (resolved : Resolved) (s : ApiState) : Session :=
  newSession (freshNumber s.sessions) env.stamp resolved.port

/-- What `_open_io` does without an open channel: the session comes first. -/
def startIO (casefold : Casefold) (env : Surroundings) (resolved : Resolved) (s : ApiState) :
    Except OpenError SerialIO × ApiState :=
  let journal := startedSession env resolved s
  let sessions := s.sessions.openSession (retainLimit env.retain) journal
  match ( newIO env resolved journal).open casefold env.driver s.registry with
  | (.error e, registry) => (.error e, { s with sessions := sessions, registry := registry })
  | (.ok io, registry) =>
    (.ok io, { s with io := some io, sessions := sessions, registry := registry })

/-- `_open_io`. -/
def openIO (casefold : Casefold) (env : Surroundings) (resolved : Resolved) (s : ApiState) :
    Except OpenError SerialIO × ApiState :=
  match s.io with
  | some io => if io.opened then (.ok io, s) else startIO casefold env resolved s
  | none => startIO casefold env resolved s

/-- `SimconProfileAdapter.open`, with the configuration that `resolve_serial_config` finds. -/
def adapterOpen (casefold : Casefold) (env : Surroundings)
    (resolve : String → Except String Resolved) (port : String) (s : ApiState) :
    Except OpenError Unit × ApiState :=
  match resolve port with
  | .error message => (.error (.resolve message), s)
  | .ok resolved =>
    match openIO casefold env resolved s with
    | (.error e, s') => (.error e, s')
    | (.ok _, s') =>
      (.ok (), { s' with openPort := some (if resolved.port ≠ "" then resolved.port else port) })

/-! ## What opening should do -/

/-- The settings that were asked for. -/
def Resolved.line (r : Resolved) : Line := ⟨r.port, r.baudrate, r.bytesize, upper r.parity, r.stopbits⟩

/-- The channel is open on the requested port with the requested parameters. -/
def OpenOn (resolved : Resolved) (io : SerialIO) : Prop :=
  io.opened = true ∧ io.port = resolved.port ∧ io.line = some resolved.line

/-- Success leaves the requested line open, failure leaves the held channel, the port that is
reported and the current session alone. -/
def AtomicHonest {α : Type} (resolved : Resolved) (s : ApiState) (result : Except OpenError α × ApiState) :
    Prop :=
  match result with
  | (.ok _, s') => ∃ io, s'.io = some io ∧ OpenOn resolved io
  | (.error _, s') =>
    s'.io = s.io ∧ s'.openPort = s.openPort ∧ s'.sessions.current = s.sessions.current

/-- A line that can be reserved and that the driver opens as it is asked to. -/
structure Opens (casefold : Casefold) (env : Surroundings) (resolved : Resolved) (s : ApiState) :
    Prop where
  bytesize : resolved.bytesize ∈ ([5, 6, 7, 8] : List ℤ)
  parity : upper resolved.parity ∈ ["N", "E", "O", "M", "S"]
  stopbits : resolved.stopbits ∈ ([1, 2] : List ℤ)
  reserved : ∃ r, (onRegistry (reserve casefold ("simcon:" ++ toString env.ident) "模拟集中器"
    resolved.identity.mappingId ([resolved.port, resolved.identity.device,
      resolved.identity.windowsCom, resolved.identity.linuxDevice].filter (· ≠ ""))) s.registry).1 = .ok r
  driver : env.driver resolved.line = none

/-- An open channel is asked for its own line, and without one the line opens. -/
def Openable (casefold : Casefold) (env : Surroundings) (resolved : Resolved) (s : ApiState) : Prop :=
  (∃ io, s.io = some io ∧ OpenOn resolved io) ∨
    (∀ io, s.io = some io → io.opened = false) ∧ Opens casefold env resolved s

section Settings

theorem lineBytesize_eq_iff (n : ℤ) : lineBytesize n = n ↔ n ∈ ([5, 6, 7, 8] : List ℤ) := by
  unfold lineBytesize
  by_cases h : n ∈ ([5, 6, 7, 8] : List ℤ)
  · rw [if_pos h]
    exact iff_of_true rfl h
  · rw [if_neg h]
    refine iff_of_false (fun h8 => h ?_) h
    rw [← h8]
    decide

theorem lineStopbits_eq_iff (n : ℤ) : lineStopbits n = n ↔ n ∈ ([1, 2] : List ℤ) := by
  unfold lineStopbits
  by_cases h : n ∈ ([1, 2] : List ℤ)
  · rw [if_pos h]
    exact iff_of_true rfl h
  · rw [if_neg h]
    refine iff_of_false (fun h1 => h ?_) h
    rw [← h1]
    decide

theorem lineParity_eq_iff (parity : String) :
    lineParity parity = upper parity ↔ upper parity ∈ ["N", "E", "O", "M", "S"] := by
  unfold lineParity
  by_cases h : upper parity ∈ ["N", "E", "O", "M", "S"]
  · rw [if_pos h]
    exact iff_of_true rfl h
  · rw [if_neg h]
    refine iff_of_false (fun hN => h ?_) h
    rw [← hN]
    exact List.mem_cons_self

/-- The driver gets the requested settings exactly when it knows them. -/
theorem settings_eq_iff (env : Surroundings) (resolved : Resolved) (journal : Session) :
    ( newIO env resolved journal).settings = resolved.line ↔
      resolved.bytesize ∈ ([5, 6, 7, 8] : List ℤ) ∧ upper resolved.parity ∈ ["N", "E", "O", "M", "S"] ∧
        resolved.stopbits ∈ ([1, 2] : List ℤ) := by
  rw [← lineBytesize_eq_iff, ← lineParity_eq_iff, ← lineStopbits_eq_iff]
  simp [ SerialIO.settings, newIO, Resolved.line]

end Settings

theorem freshNumber_ne {s : SessionManager} {journal : Session} (h : s.current = some journal) :
    journal.number ≠ freshNumber s := by
  have hle : ∀ (numbers : List ℕ), ∀ n ∈ numbers, n ≤ numbers.foldr max 0 := by
    intro numbers n hn
    induction numbers with
    | nil => cases hn
    | cons m rest ih =>
        rcases List.mem_cons.mp hn with rfl | hn
        · exact le_max_left _ _
        · exact (ih hn).trans (le_max_right _ _)
  have hmem : journal ∈ s.current.toList ++ s.sessions.entries.map Prod.snd := by
    rw [h]
    exact List.mem_append_left _ (List.mem_singleton.mpr rfl)
  have hbound := hle _ _ (List.mem_map_of_mem (f := Session.number) hmem)
  unfold freshNumber
  omega

section Opening
variable (casefold : Casefold) (env : Surroundings) (resolved : Resolved) (s : ApiState)

/-- A new session is never the one that was current. -/
theorem startedSession_changes :
    (s.sessions.openSession (retainLimit env.retain) (startedSession env resolved s)).current ≠
      s.sessions.current := by
  intro h
  have hnew : s.sessions.current = some (startedSession env resolved s) := h.symm
  exact freshNumber_ne hnew rfl

/-- What opening a new channel comes to. -/
inductive Opened (io : SerialIO) : Except OpenError SerialIO → Prop
  | refused (e : ReserveError)
      (h : (onRegistry (reserve casefold io.ownerId "模拟集中器" io.identity.mappingId io.aliases)
        s.registry).1 = .error e) : Opened io (.error (.reserve e))
  | failed (r : SerialReservation) (message : String)
      (h : (onRegistry (reserve casefold io.ownerId "模拟集中器" io.identity.mappingId io.aliases)
        s.registry).1 = .ok r) (hdriver : env.driver io.settings = some message) :
      Opened io (.error (.driver message))
  | opened (r : SerialReservation)
      (h : (onRegistry (reserve casefold io.ownerId "模拟集中器" io.identity.mappingId io.aliases)
        s.registry).1 = .ok r) (hdriver : env.driver io.settings = none) :
      Opened io (.ok { io with opened := true, line := some io.settings })

theorem open_cases (io : SerialIO) (hclosed : io.opened = false) :
    Opened casefold env s io (io.open casefold env.driver s.registry).1 := by
  have hneg : ¬ io.opened = true := by
    rw [hclosed]
    exact Bool.false_ne_true
  rw [ SerialIO.open, if_neg hneg]
  cases hreserve : onRegistry
      (reserve casefold io.ownerId "模拟集中器" io.identity.mappingId io.aliases) s.registry with
  | mk outcome registry =>
      have hfirst := congrArg Prod.fst hreserve
      cases outcome with
      | error e => exact .refused e hfirst
      | ok r =>
          dsimp only
          cases hdriver : env.driver io.settings with
          | some message => exact .failed r message hfirst hdriver
          | none => exact .opened r hfirst hdriver

/-- A failed opening has changed the current session, a successful one left the new channel. -/
theorem startIO_atomicHonest_iff : AtomicHonest resolved s ( startIO casefold env resolved s) ↔
    ∃ io, (( newIO env resolved (startedSession env resolved s)).open casefold env.driver s.registry).1 =
      .ok io ∧ OpenOn resolved io := by
  have hchanged := startedSession_changes env resolved s
  unfold startIO
  dsimp only
  generalize ( newIO env resolved (startedSession env resolved s)).open casefold env.driver s.registry
    = result
  generalize s.sessions.openSession (retainLimit env.retain) (startedSession env resolved s) =
    sessions at hchanged ⊢
  obtain ⟨outcome, registry⟩ := result
  cases outcome with
  | error e =>
      refine iff_of_false ?_ ?_
      · rintro ⟨-, -, hsame⟩
        exact hchanged hsame
      · rintro ⟨io, h, -⟩
        cases h
  | ok io =>
      constructor
      · rintro ⟨io', hio, h⟩
        obtain rfl := Option.some.inj hio
        exact ⟨io, rfl, h⟩
      · rintro ⟨io', hio, h⟩
        obtain rfl := Except.ok.inj hio
        exact ⟨io, rfl, h⟩

/-- Without an open channel the line is opened, and only a line that opens is opened honestly. -/
theorem startIO_iff_opens :
    AtomicHonest resolved s ( startIO casefold env resolved s) ↔ Opens casefold env resolved s := by
  rw [startIO_atomicHonest_iff]
  have hparts := settings_eq_iff env resolved (startedSession env resolved s)
  have hcases := open_cases casefold env s ( newIO env resolved (startedSession env resolved s)) rfl
  generalize ( newIO env resolved (startedSession env resolved s)).open casefold env.driver s.registry
    = result at hcases
  obtain ⟨outcome, registry⟩ := result
  dsimp only at hcases ⊢
  cases hcases with
  | refused e h =>
      refine iff_of_false (fun ⟨io, hio, _⟩ => nomatch hio) fun hopens => ?_
      obtain ⟨r, hr⟩ := hopens.reserved
      cases h.symm.trans hr
  | failed r message h hdriver =>
      refine iff_of_false (fun ⟨io, hio, _⟩ => nomatch hio) fun hopens => ?_
      rw [hparts.mpr ⟨hopens.bytesize, hopens.parity, hopens.stopbits⟩, hopens.driver] at hdriver
      cases hdriver
  | opened r h hdriver =>
      constructor
      · rintro ⟨io, hio, -, -, hline⟩
        obtain rfl := Except.ok.inj hio
        have hsettings := Option.some.inj hline
        obtain ⟨hbytes, hparity, hstop⟩ := hparts.mp hsettings
        exact ⟨hbytes, hparity, hstop, ⟨r, h⟩, hsettings ▸ hdriver⟩
      · intro hopens
        refine ⟨_, rfl, rfl, rfl, congrArg some ?_⟩
        exact hparts.mpr ⟨hopens.bytesize, hopens.parity, hopens.stopbits⟩

variable {s} in
theorem atomicHonest_held {io : SerialIO} (hio : s.io = some io) (hopened : io.opened = true) :
    AtomicHonest resolved s ( openIO casefold env resolved s) ↔ OpenOn resolved io := by
  have hheld : openIO casefold env resolved s = (.ok io, s) := by
    unfold openIO
    rw [hio]
    exact if_pos hopened
  rw [hheld]
  constructor
  · rintro ⟨io', hio', h⟩
    exact Option.some.inj (hio.symm.trans hio') ▸ h
  · exact fun h => ⟨io, hio, h⟩

variable {s} in
theorem openIO_closed (hclosed : ∀ io, s.io = some io → io.opened = false) :
    openIO casefold env resolved s = startIO casefold env resolved s := by
  unfold openIO
  cases hio : s.io with
  | none => rfl
  | some io =>
      refine if_neg ?_
      rw [hclosed io hio]
      exact Bool.false_ne_true

/-- Opening is atomic and honest exactly when an open channel is asked for its own line, and
without one the line opens as it is asked to. -/
theorem openIO_atomicHonest_iff :
    AtomicHonest resolved s ( openIO casefold env resolved s) ↔ Openable casefold env resolved s := by
  by_cases hopen : ∃ io, s.io = some io ∧ io.opened = true
  · obtain ⟨io, hio, hopened⟩ := hopen
    have hnot : ¬ ((∀ io, s.io = some io → io.opened = false) ∧ Opens casefold env resolved s) :=
      fun h => Bool.false_ne_true ((h.1 io hio).symm.trans hopened)
    rw [atomicHonest_held casefold env resolved hio hopened, Openable, or_iff_left hnot]
    constructor
    · exact fun h => ⟨io, hio, h⟩
    · rintro ⟨io', hio', h⟩
      exact Option.some.inj (hio.symm.trans hio') ▸ h
  · have hclosed : ∀ io, s.io = some io → io.opened = false :=
      fun io hio => Bool.eq_false_iff.mpr fun h => hopen ⟨io, hio, h⟩
    have hnot : ¬ ∃ io, s.io = some io ∧ OpenOn resolved io :=
      fun ⟨io, hio, h⟩ => hopen ⟨io, hio, h.1⟩
    rw [openIO_closed casefold env resolved hclosed, startIO_iff_opens, Openable, or_iff_right hnot]
    exact (and_iff_right hclosed).symm

/-- The adapter resolves the port first and reports it when the opening has succeeded. -/
theorem adapterOpen_atomicHonest_iff {resolve : String → Except String Resolved} {port : String}
    (hresolve : resolve port = .ok resolved) :
    AtomicHonest resolved s (adapterOpen casefold env resolve port s) ↔
      AtomicHonest resolved s ( openIO casefold env resolved s) := by
  unfold adapterOpen
  rw [hresolve]
  dsimp only
  generalize openIO casefold env resolved s = result
  obtain ⟨outcome, after⟩ := result
  cases outcome <;> exact Iff.rfl

/-- Both ways of opening a line, and what the adapter reports afterwards. -/
theorem opening_iff_openable :
    (AtomicHonest resolved s ( openIO casefold env resolved s) ↔ Openable casefold env resolved s) ∧
      ∀ resolve port, resolve port = .ok resolved →
        (AtomicHonest resolved s (adapterOpen casefold env resolve port s) ↔
          Openable casefold env resolved s) := by
  refine ⟨openIO_atomicHonest_iff casefold env resolved s, fun resolve port hresolve => ?_⟩
  rw [adapterOpen_atomicHonest_iff casefold env resolved s hresolve]
  exact openIO_atomicHonest_iff casefold env resolved s

end Opening

/-! ## Another port -/

def requestCom2 : Resolved := ⟨"COM2", 9600, 8, "E", 1, { device := "COM2" }⟩

/-- A driver that opens every line. -/
def willing : Surroundings := { stamp := "20260913-100000", ident := 1, driver := fun _ => none }

/-- COM1 is open. -/
def com1Open : ApiState where
  io := some
    { ident := 0, port := "COM1", baudrate := 9600, bytesize := 8, parity := "E", stopbits := 1,
      identity := { device := "COM1" }, journal := newSession 0 "20260913-095959" "COM1",
      opened := true, line := some ⟨"COM1", 9600, 8, "E", 1⟩ }
  openPort := some "COM1"

/-- Opening COM2 succeeds, and COM1 is the line that is open. -/
theorem com2_not_opened : ¬ ∀ casefold env resolved s,
    AtomicHonest resolved s ( openIO casefold env resolved s) := by
  intro hall
  obtain ⟨io, hio, -, hport, -⟩ := hall asciiCasefold willing requestCom2 com1Open
  obtain rfl := Option.some.inj hio
  exact absurd hport (by decide)

end HplcWorkbench.SimconApi
