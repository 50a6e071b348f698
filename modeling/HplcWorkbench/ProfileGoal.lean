import HplcWorkbench.PortOwnership
import HplcWorkbench.SerialProfiles

/-!
# The goal of a serial profile

Each slot has a part of the services to itself. Where nothing fails, a slot that does not run already
is started as the profile says; one that runs is left as it is, and then it may be on another port or
have other parameters.

An enabled slot is to run on the port of its mapping with the parameters of the profile, and nothing of a
disabled slot is to run. What a slot starts from decides whether it gets there.
-/

namespace HplcWorkbench.SerialProfiles
open ModuleSerial SerialResources OrderedDict

/-! ## Calls on the module service -/

section Sessions
variable {casing : Casing} {catalog : SerialPortCatalog casing} {nt : Bool} {ports : List String}
  {w w' : Service} {a port : String} {session s : ModuleSession} {config : SerialConfig} {opening : Opening}

/-- The keys of the sessions are their identifiers. -/
def Keyed (w : Service) : Prop := ∀ a s, w.sessions.get? a = some s → s.sessionId = a

theorem Keyed.set (hkeyed : Keyed w) (hsessions : w'.sessions = w.sessions.set a s) (hs : s.sessionId = a) :
    Keyed w' := by
  intro b t ht
  rw [hsessions] at ht
  by_cases hb : b = a
  · rw [hb, Dict.get?_set_self] at ht
    rw [← Option.some.inj ht, hs, hb]
  · rw [Dict.get?_set_of_ne _ _ _ _ hb] at ht
    exact hkeyed b t ht

/-- A session that replaces another one under its name. -/
structure Replaces (w w' : Service) (a : String) (session s : ModuleSession) : Prop where
  sessions : w'.sessions = w.sessions.set a s
  sessionId : s.sessionId = a
  title : s.title = session.title
  moduleType : s.moduleType = session.moduleType

/-- What a start that succeeds makes of a session that was not running. -/
theorem start_ok (hkeyed : Keyed w) (hs : w.sessions.get? a = some session)
    (hstopped : session.channel.state ≠ .running)
    (h : w.start catalog nt ports a port config opening = (.ok s, w')) :
    Replaces w w' a session s ∧ s.channel.state = .running ∧
      s.channel.config = requestedConfig casing config ∧
      ∃ identity, catalog.identityForPort nt ports port = .ok (s.channel.port, identity) := by
  unfold Service.start at h
  rw [hs] at h
  dsimp only at h
  cases hidentity : catalog.identityForPort nt ports port with
  | error e =>
      rw [hidentity] at h
      cases h
  | ok identified =>
      obtain ⟨openPort, identity⟩ := identified
      rw [hidentity] at h
      dsimp only at h
      rw [if_neg hstopped] at h
      split at h
      · cases h
      · unfold Service.acquire at h
        dsimp only at h
        split at h
        · cases h
        · split at h
          case isTrue hopened =>
            obtain ⟨hs', rfl⟩ := Prod.mk.inj h
            obtain rfl := Except.ok.inj hs'
            subst hopened
            have hid := hkeyed a session hs
            exact ⟨⟨by rw [← hid]; rfl, hid, rfl, rfl⟩, rfl, rfl, identity, rfl⟩
          case isFalse => cases h

/-- What a stop that succeeds makes of a session. -/
theorem stop_ok (hkeyed : Keyed w) (hs : w.sessions.get? a = some session)
    (h : w.stop a = (.ok s, w')) :
    Replaces w w' a session s ∧ s.channel.state = .idle := by
  unfold Service.stop at h
  rw [hs] at h
  dsimp only at h
  split at h
  · cases h
  · obtain ⟨hs', rfl⟩ := Prod.mk.inj h
    obtain rfl := Except.ok.inj hs'
    have hid := hkeyed a session hs
    refine ⟨⟨?_, hid, rfl, rfl⟩, rfl⟩
    unfold Service.releaseResource Service.update
    dsimp only
    rw [hid]
    split
    · rw [disown_sessions]
    · rfl

/-- The session that is created is a new entry at the end. -/
theorem create_ok {digits title moduleType : String}
    (hfresh : w.sessions.get? ("ms-" ++ digits) = none)
    (h : w.create casing digits title moduleType = (.ok s, w')) :
    s = w.newSession casing digits title moduleType ∧
      w'.sessions = w.sessions.set ("ms-" ++ digits) s ∧
      w'.sessions.entries = w.sessions.entries ++ [("ms-" ++ digits, s)] := by
  unfold Service.create at h
  split at h
  · cases h
  · obtain ⟨hs', rfl⟩ := Prod.mk.inj h
    obtain rfl := Except.ok.inj hs'
    exact ⟨rfl, rfl, Dict.entries_set_of_none _ _ hfresh⟩

end Sessions

/-! ## Managed sessions -/

section Managed
variable {w w' : World} {moduleType : String}

/-- The managed sessions of a module type. -/
def managed (w : World) (moduleType : String) : List (String × ModuleSession) :=
  w.service.sessions.entries.filter fun e => managedBy moduleType e.2

theorem findManagedSession_eq (w : World) (moduleType : String) :
    findManagedSession w moduleType = (managed w moduleType).head? := List.head?_filter.symm

/-- The open port of a session that runs. -/
def handleOf (s : ModuleSession) : Option Handle :=
  if s.channel.state = .running then some ⟨s.channel.port, configParams s.channel.config⟩ else none

theorem get?_of_managed {a : String} {s : ModuleSession} (h : (a, s) ∈ managed w moduleType) :
    w.service.sessions.get? a = some s ∧ managedBy moduleType s = true := by
  obtain ⟨hmem, hmanaged⟩ := List.mem_filter.mp h
  exact ⟨(Dict.get?_eq_some_iff _ _ _).mpr hmem, hmanaged⟩

/-- A session that is replaced keeps its place among the managed ones. -/
theorem managed_replaces {a : String} {session s : ModuleSession}
    (hs : w.service.sessions.get? a = some session) (h : Replaces w.service w'.service a session s)
    (moduleType : String) : managed w' moduleType = (managed w moduleType).map (Dict.put a s) := by
  unfold managed
  rw [h.sessions, Dict.entries_set_of_some _ _ hs, List.filter_map]
  congr 1
  apply List.filter_congr
  intro e he
  rw [Function.comp_apply]
  by_cases ha : e.1 = a
  · have hsession : e.2 = session := by
      have hget := (Dict.get?_eq_some_iff _ _ _).mpr (show (a, e.2) ∈ w.service.sessions.entries from ha ▸ he)
      exact Option.some.inj (hget.symm.trans hs)
    rw [Dict.put, if_pos ha, hsession]
    unfold managedBy
    rw [h.title, h.moduleType]
  · rw [Dict.put, if_neg ha]

/-- The sessions of another module type stay as they are. -/
theorem managed_replaces_other {a other : String} {session s : ModuleSession}
    (hs : w.service.sessions.get? a = some session) (h : Replaces w.service w'.service a session s)
    (hmodule : session.moduleType = moduleType) (hother : other ≠ moduleType) :
    managed w' other = managed w other := by
  rw [managed_replaces hs h]
  conv_rhs => rw [← List.map_id (managed w other)]
  apply List.map_congr_left
  rintro ⟨b, t⟩ ht
  obtain ⟨hget, hmanaged⟩ := get?_of_managed ht
  have hb : b ≠ a := by
    rintro rfl
    obtain rfl := Option.some.inj (hget.symm.trans hs)
    rw [managedBy, Bool.and_eq_true, decide_eq_true_eq] at hmanaged
    exact hother (hmanaged.2.symm.trans hmodule)
  exact if_neg hb

/-- The first managed session is replaced, and the others stay as they are. -/
theorem managed_replaces_first {a : String} {session s : ModuleSession} {rest : List (String × ModuleSession)}
    (hfirst : managed w moduleType = (a, session) :: rest)
    (h : Replaces w.service w'.service a session s) : managed w' moduleType = (a, s) :: rest := by
  have hs := (get?_of_managed (hfirst ▸ List.mem_cons_self)).1
  rw [managed_replaces hs h, hfirst, List.map_cons, Dict.put, if_pos rfl]
  congr 1
  conv_rhs => rw [← List.map_id rest]
  apply List.map_congr_left
  intro e he
  have hnodup : ((managed w moduleType).map Prod.fst).Nodup :=
    w.service.sessions.nodup.sublist (List.filter_sublist.map _)
  rw [hfirst, List.map_cons, List.nodup_cons] at hnodup
  apply if_neg
  rintro (ha : e.1 = a)
  apply hnodup.1
  rw [← ha]
  exact List.mem_map.mpr ⟨e, he, rfl⟩

end Managed

end HplcWorkbench.SerialProfiles

namespace HplcWorkbench.SerialProfiles
open ModuleSerial SerialResources OrderedDict

/-! ## The goal -/

/-- The open port that a slot runs on. -/
def running (w : World) : Slot → Option Handle
  | .listenerMain => w.listener
  | .moduleLogCco => (findManagedSession w "cco").bind fun e => handleOf e.2
  | .moduleLogSta => (findManagedSession w "sta").bind fun e => handleOf e.2
  | .simconMain => w.simcon.bind (·.io)

def NoneManaged (w : World) (moduleType : String) : Prop :=
  ∀ e ∈ managed w moduleType, e.2.channel.state ≠ .running

/-- Nothing of the slot runs. -/
def Off (w : World) : Slot → Prop
  | .moduleLogCco => NoneManaged w "cco"
  | .moduleLogSta => NoneManaged w "sta"
  | slot => running w slot = none

section Goal
variable {casing : Casing} (env : Surroundings casing) (profile : Profile) (w : World)

/-- The slot runs on the port of its mapping, or on some port where it is selected automatically, with the
parameters of the profile. -/
def On (slot : Slot) : Prop :=
  ∃ h, running w slot = some h ∧ h.params = effectiveParams env profile ∧
    (deviceFor env profile.mappingId = .ok h.port ∨ slot = .simconMain ∧ profile.mappingId = "")

def Done (slot : Slot) : Prop := if profile.enabled then On env profile w slot else Off w slot

/-! ## What a slot starts from -/

/-- The listener is idle and gets its port, or has it already with the parameters of the profile. -/
def FitsListener : Prop :=
  profile.enabled → ∃ device, deviceFor env profile.mappingId = .ok device ∧
    (w.listener = some ⟨device, effectiveParams env profile⟩ ∨
      w.listener = none ∧ env.captures device (effectiveParams env profile) = true)

/-- The session that is found runs as it is to run, or runs not and the parameters are such as a session
can have. Of a disabled slot, no session runs behind the one that is found. -/
def FitsModule (moduleType : String) : Prop :=
  if profile.enabled then
    ∃ device, deviceFor env profile.mappingId = .ok device ∧
      match (findManagedSession w moduleType).bind fun e => handleOf e.2 with
      | some h => h = ⟨device, effectiveParams env profile⟩
      | none => configParams (requestedConfig casing (effectiveParams env profile).config) =
          effectiveParams env profile
  else ∀ e ∈ (managed w moduleType).tail, e.2.channel.state ≠ .running

/-- The concentrator has the port with the parameters of the profile, or it is closed, the adapter has
noted nothing that keeps it closed, and the parameters of the mapping are those of the profile. A disabled
one that is open is noted. -/
def FitsSimcon : Prop :=
  if profile.enabled then
    ∃ simcon, w.simcon = some simcon ∧
      if profile.mappingId = "" then
        match simcon.io with
        | some h => h.params = effectiveParams env profile
        | none => simcon.openPort = none ∧ configParams simconAutoParams = effectiveParams env profile
      else
        ∃ device, deviceFor env profile.mappingId = .ok device ∧
          match simcon.io with
          | some h => h = ⟨device, effectiveParams env profile⟩
          | none => simcon.openPort ≠ some device ∧ (env.liveDevice profile.mappingId).getD device = device ∧
              configParams (env.defaults profile.mappingId) = effectiveParams env profile
  else ∀ simcon, w.simcon = some simcon → simcon.openPort = none → simcon.io = none

def Fits : Slot → Prop
  | .listenerMain => FitsListener env profile w
  | .moduleLogCco => FitsModule env profile w "cco"
  | .moduleLogSta => FitsModule env profile w "sta"
  | .simconMain => FitsSimcon env profile w

end Goal

/-! ## The parts of the services -/

/-- The part of a slot is the same. -/
def SamePart (w w' : World) : Slot → Prop
  | .listenerMain => w'.listener = w.listener
  | .moduleLogCco => managed w' "cco" = managed w "cco"
  | .moduleLogSta => managed w' "sta" = managed w "sta"
  | .simconMain => w'.simcon = w.simcon

section Parts
variable {casing : Casing} {env : Surroundings casing} {profile : Profile} {w w' w'' : World} {slot : Slot}

theorem SamePart.refl (w : World) (slot : Slot) : SamePart w w slot := by
  cases slot <;> exact rfl

theorem SamePart.trans (h : SamePart w w' slot) (h' : SamePart w' w'' slot) : SamePart w w'' slot := by
  cases slot <;> exact Eq.trans h' h

theorem findManagedSession_congr {moduleType : String} (h : managed w' moduleType = managed w moduleType) :
    findManagedSession w' moduleType = findManagedSession w moduleType := by
  rw [findManagedSession_eq, findManagedSession_eq, h]

theorem SamePart.running (h : SamePart w w' slot) : running w' slot = running w slot := by
  cases slot with
  | listenerMain => exact h
  | moduleLogCco | moduleLogSta =>
    unfold SerialProfiles.running
    rw [findManagedSession_congr h]
  | simconMain => exact congrArg (Option.bind · _) h

theorem SamePart.done_iff (h : SamePart w w' slot) :
    Done env profile w' slot ↔ Done env profile w slot := by
  have hoff : Off w' slot ↔ Off w slot := by
    cases slot with
    | listenerMain | simconMain => exact iff_of_eq (congrArg (· = none) h.running)
    | moduleLogCco | moduleLogSta =>
      unfold Off NoneManaged
      rw [show managed w' _ = managed w _ from h]
  unfold Done On
  rw [h.running, hoff]

theorem SamePart.fits_iff (h : SamePart w w' slot) :
    Fits env profile w' slot ↔ Fits env profile w slot := by
  cases slot with
  | listenerMain =>
    unfold Fits FitsListener
    rw [show w'.listener = w.listener from h]
  | moduleLogCco | moduleLogSta =>
    unfold Fits FitsModule
    rw [findManagedSession_congr h, show managed w' _ = managed w _ from h]
  | simconMain =>
    unfold Fits FitsSimcon
    rw [show w'.simcon = w.simcon from h]

/-- What a slot leaves to the others. -/
structure Touches (w w' : World) (slot : Slot) : Prop where
  others : ∀ other, other ≠ slot → SamePart w w' other
  keyed : Keyed w.service → Keyed w'.service

theorem Touches.refl (w : World) (slot : Slot) : Touches w w slot :=
  ⟨fun other _ => SamePart.refl w other, id⟩

theorem managed_congr (h : w'.service.sessions = w.service.sessions) (moduleType : String) :
    managed w' moduleType = managed w moduleType := by
  unfold managed
  rw [h]

theorem keyed_congr (h : w'.service.sessions = w.service.sessions) (hkeyed : Keyed w.service) :
    Keyed w'.service := by
  unfold Keyed
  rw [h]
  exact hkeyed

theorem touches_listener (hsessions : w'.service.sessions = w.service.sessions)
    (hsimcon : w'.simcon = w.simcon) : Touches w w' .listenerMain := by
  refine ⟨?_, keyed_congr hsessions⟩
  rintro (- | - | - | -) hne
  · exact absurd rfl hne
  · exact managed_congr hsessions "cco"
  · exact managed_congr hsessions "sta"
  · exact hsimcon

theorem touches_simcon (hsessions : w'.service.sessions = w.service.sessions)
    (hlistener : w'.listener = w.listener) : Touches w w' .simconMain := by
  refine ⟨?_, keyed_congr hsessions⟩
  rintro (- | - | - | -) hne
  · exact hlistener
  · exact managed_congr hsessions "cco"
  · exact managed_congr hsessions "sta"
  · exact absurd rfl hne

end Parts

/-! ## Devices -/

section Devices
variable {casing : Casing} {env : Surroundings casing} {id device openPort : String} {identity : PortIdentity}

theorem mapping_of_deviceFor (h : deviceFor env id = .ok device) :
    ∃ m, env.catalog.find device = some m ∧ m.id = id ∧ m.deviceFor env.nt = device := by
  unfold deviceFor at h
  split at h
  · rename_i m hm
    obtain rfl := Except.ok.inj h
    exact ⟨m, SerialPortCatalog.find_deviceFor (List.mem_of_find?_eq_some hm),
      by simpa using List.find?_some hm, rfl⟩
  · cases h

theorem deviceFor_empty : deviceFor env "" ≠ .ok device := by
  intro h
  obtain ⟨m, hfind, hid, -⟩ := mapping_of_deviceFor h
  exact env.catalog.named m (SerialPortCatalog.find_eq_some hfind).1 hid

theorem openPort_eq (h : deviceFor env id = .ok device)
    (hopen : env.catalog.identityForPort env.nt env.ports device = .ok (openPort, identity)) :
    openPort = device := by
  obtain ⟨m, hfind, -, hdevice⟩ := mapping_of_deviceFor h
  rcases SerialPortCatalog.identityForPort_eq_ok hopen with ⟨hnone, -⟩ | ⟨m', hfind', rfl, -⟩
  · cases hnone.symm.trans hfind
  · obtain rfl := Option.some.inj (hfind'.symm.trans hfind)
    exact hdevice

/-- A slot with a mapping runs as it is to run exactly on this port with these parameters. -/
theorem on_iff {profile : Profile} {w : World} {slot : Slot} (h : deviceFor env profile.mappingId = .ok device) :
    On env profile w slot ↔ running w slot = some ⟨device, effectiveParams env profile⟩ := by
  constructor
  · rintro ⟨⟨port, params⟩, hrunning, rfl, hport | ⟨-, hempty⟩⟩
    · obtain rfl := Except.ok.inj (hport.symm.trans h)
      exact hrunning
    · rw [hempty] at h
      exact absurd h deviceFor_empty
  · intro hrunning
    exact ⟨_, hrunning, rfl, .inl h⟩

end Devices

/-! ## One slot -/

section Branches
variable {casing : Casing} {env : Surroundings casing} {profile : Profile} {w w' : World} {slot : Slot}
  {device : String} {entry : SlotResult}

/-- An enabled slot with the device of its mapping. -/
def applyDevice (env : Surroundings casing) (w : World) (profile : Profile) (device : String) : Slot → Applied
  | .listenerMain => applyListener env w profile device
  | .moduleLogCco => applyModule env w .moduleLogCco "cco" profile device
  | .moduleLogSta => applyModule env w .moduleLogSta "sta" profile device
  | .simconMain => applySimcon env w (some device)

theorem applySlot_disabled (h : profile.enabled = false) :
    applySlot env w profile slot = stopManaged env w slot := if_pos h

theorem applySlot_unmapped (h : profile.enabled = true) (hempty : profile.mappingId = "") :
    applySlot env w profile slot =
      if slot = .simconMain then applySimcon env w none else (.ok ⟨slot, .skipped, "未选择映射", none⟩, w) := by
  rw [applySlot, if_neg (by simp [h]), if_pos hempty]

theorem applySlot_mapped (h : profile.enabled = true)
    (hdevice : deviceFor env profile.mappingId = .ok device) :
    applySlot env w profile slot = applyDevice env w profile device slot := by
  have hmapping : profile.mappingId ≠ "" := by
    intro hempty
    rw [hempty] at hdevice
    exact deviceFor_empty hdevice
  rw [applySlot, if_neg (by simp [h]), if_neg hmapping, hdevice]
  cases slot <;> rfl

theorem applySlot_cases (h : applySlot env w profile slot = (.ok entry, w')) :
    profile.enabled = false ∧ stopManaged env w slot = (.ok entry, w') ∨
      profile.enabled = true ∧ profile.mappingId = "" ∧
        (slot ≠ .simconMain ∧ w' = w ∨ slot = .simconMain ∧ applySimcon env w none = (.ok entry, w')) ∨
      profile.enabled = true ∧ ∃ device, deviceFor env profile.mappingId = .ok device ∧
        applyDevice env w profile device slot = (.ok entry, w') := by
  cases henabled : profile.enabled with
  | false => exact .inl ⟨rfl, applySlot_disabled henabled ▸ h⟩
  | true =>
    right
    by_cases hempty : profile.mappingId = ""
    · left
      rw [applySlot_unmapped henabled hempty] at h
      refine ⟨rfl, hempty, ?_⟩
      split at h
      · exact .inr ⟨‹_›, h⟩
      · exact .inl ⟨‹_›, (Prod.mk.inj h).2.symm⟩
    · right
      cases hdevice : deviceFor env profile.mappingId with
      | error e =>
        rw [applySlot, if_neg (by simp [henabled]), if_neg hempty, hdevice] at h
        cases h
      | ok device =>
        rw [applySlot_mapped henabled hdevice] at h
        exact ⟨rfl, device, rfl, h⟩

theorem done_disabled (h : profile.enabled = false) : Done env profile w slot ↔ Off w slot := by
  rw [Done, if_neg (by simp [h])]

theorem done_enabled (h : profile.enabled = true) : Done env profile w slot ↔ On env profile w slot := by
  rw [Done, if_pos h]

/-- What a slot that does not fail leaves to the others, when it is done, and that it stays as it is. -/
structure SlotStep (env : Surroundings casing) (profile : Profile) (w w' : World) (slot : Slot) : Prop where
  touches : Touches w w' slot
  done_iff : Done env profile w' slot ↔ Fits env profile w slot
  again : ∀ w'', SamePart w' w'' slot → Done env profile w'' slot →
    ∃ entry, applySlot env w'' profile slot = (.ok entry, w'')

/-- A slot without a mapping is left alone and is not done. -/
theorem slotStep_unmapped (h : profile.enabled = true) (hempty : profile.mappingId = "")
    (hslot : slot ≠ .simconMain) : SlotStep env profile w w slot := by
  have hdevice : ∀ device, deviceFor env profile.mappingId ≠ .ok device := by
    intro device
    rw [hempty]
    exact deviceFor_empty
  refine ⟨Touches.refl w slot, iff_of_false ?_ ?_, fun w'' _ _ => ?_⟩
  · rw [done_enabled h]
    rintro ⟨_, _, _, hport | ⟨hsimcon, -⟩⟩
    · exact hdevice _ hport
    · exact hslot hsimcon
  · cases slot with
    | listenerMain =>
      intro hfits
      obtain ⟨device, hport, -⟩ := hfits h
      exact hdevice device hport
    | moduleLogCco | moduleLogSta =>
      rw [Fits, FitsModule, if_pos h]
      rintro ⟨device, hport, -⟩
      exact hdevice device hport
    | simconMain => exact absurd rfl hslot
  · rw [applySlot_unmapped h hempty, if_neg hslot]
    exact ⟨_, rfl⟩

end Branches

end HplcWorkbench.SerialProfiles
