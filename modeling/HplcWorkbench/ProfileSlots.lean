import HplcWorkbench.ProfileGoal

/-!
# The slots of a serial profile

For each kind of slot: one that does not fail is as it is to be exactly if it fits, leaves the parts of
the others alone, and is not touched again once it is as it is to be.
-/

namespace HplcWorkbench.SerialProfiles
open ModuleSerial SerialResources OrderedDict

/-! ## The listener -/

section Listener
variable {casing : Casing} {env : Surroundings casing} {profile : Profile} {w w' : World}
  {id device : String} {entry : SlotResult}

theorem startListener_ok {params : SerialParams} (hdevice : deviceFor env id = .ok device)
    (h : startListener env w device params = (.ok (), w')) :
    w.listener = none ∧
      w'.listener = (if env.captures device params then some ⟨device, params⟩ else none) ∧
      w'.service.sessions = w.service.sessions ∧ w'.simcon = w.simcon := by
  unfold startListener at h
  split at h
  · cases h
  · rename_i openPort identity hidentity
    obtain rfl := openPort_eq hdevice hidentity
    split at h
    · cases h
    · rename_i hidle
      have hnone : w.listener = none := Option.not_isSome_iff_eq_none.mp hidle
      refine ⟨hnone, ?_⟩
      split at h
      · cases h
      · dsimp only at h
        split at h
        · rename_i hcaptures
          obtain rfl := (Prod.mk.inj h).2
          exact ⟨(if_pos hcaptures).symm, rfl, rfl⟩
        · rename_i hcaptures
          obtain rfl := (Prod.mk.inj h).2
          exact ⟨hnone.trans (if_neg hcaptures).symm, rfl, rfl⟩

/-- A listener that is as it is to be is not touched. -/
theorem listener_again (hdone : Done env profile w .listenerMain) :
    ∃ entry, applySlot env w profile .listenerMain = (.ok entry, w) := by
  cases henabled : profile.enabled with
  | false =>
    have hidle : w.listener = none := (done_disabled henabled).mp hdone
    rw [applySlot_disabled henabled, stopManaged, hidle, if_neg (by decide)]
    exact ⟨_, rfl⟩
  | true =>
    obtain ⟨h, hrunning, -, hport | ⟨hslot, -⟩⟩ := (done_enabled henabled).mp hdone
    · have hlistener : w.listener = some h := hrunning
      rw [applySlot_mapped henabled hport, applyDevice, applyListener, hlistener, Option.map_some,
        if_pos rfl]
      exact ⟨_, rfl⟩
    · cases hslot

theorem slotStep_listener (h : applySlot env w profile .listenerMain = (.ok entry, w')) :
    SlotStep env profile w w' .listenerMain := by
  obtain ⟨hdisabled, h⟩ | ⟨henabled, hempty, ⟨hslot, rfl⟩ | ⟨hslot, -⟩⟩ | ⟨henabled, device, hdevice, h⟩ :=
    applySlot_cases h
  · have hoff : w'.listener = none ∧ w'.service.sessions = w.service.sessions ∧ w'.simcon = w.simcon := by
      rw [stopManaged] at h
      split at h
      · obtain rfl := (Prod.mk.inj h).2
        exact ⟨rfl, rfl, rfl⟩
      · rename_i hidle
        obtain rfl := (Prod.mk.inj h).2
        exact ⟨Option.not_isSome_iff_eq_none.mp hidle, rfl, rfl⟩
    refine ⟨touches_listener hoff.2.1 hoff.2.2, ?_, fun w'' _ hdone => listener_again hdone⟩
    apply iff_of_true ((done_disabled hdisabled).mpr (show Off w' .listenerMain from hoff.1))
    intro henabled
    cases hdisabled.symm.trans henabled
  · exact slotStep_unmapped henabled hempty hslot
  · cases hslot
  · have hfits : Fits env profile w .listenerMain ↔
        w.listener = some ⟨device, effectiveParams env profile⟩ ∨
          w.listener = none ∧ env.captures device (effectiveParams env profile) = true := by
      constructor
      · intro hfits
        obtain ⟨device', hdevice', hlistener⟩ := hfits henabled
        obtain rfl := Except.ok.inj (hdevice'.symm.trans hdevice)
        exact hlistener
      · exact fun hlistener _ => ⟨device, hdevice, hlistener⟩
    rw [applyDevice, applyListener] at h
    split at h
    · rename_i hport
      obtain rfl := (Prod.mk.inj h).2
      refine ⟨Touches.refl w _, ?_, fun w'' _ hdone => listener_again hdone⟩
      rw [done_enabled henabled, on_iff hdevice, hfits]
      constructor
      · exact .inl
      · rintro (hlistener | ⟨hnone, -⟩)
        · exact hlistener
        · rw [hnone] at hport
          cases hport
    · split at h
      · cases h
      · rename_i w₁ hstart
        obtain rfl := (Prod.mk.inj h).2
        obtain ⟨hidle, hlistener, hsessions, hsimcon⟩ := startListener_ok hdevice hstart
        refine ⟨touches_listener hsessions hsimcon, ?_, fun w'' _ hdone => listener_again hdone⟩
        rw [done_enabled henabled, on_iff hdevice, hfits, running, hlistener, hidle]
        simp

end Listener

/-! ## The managed sessions -/

section Modules
variable {casing : Casing} {env : Surroundings casing} {profile : Profile} {w w' : World} {slot : Slot}
  {id device moduleType : String} {entry : SlotResult}

/-- The slot of a module type. -/
inductive ModuleSlot : Slot → String → Prop
  | cco : ModuleSlot .moduleLogCco "cco"
  | sta : ModuleSlot .moduleLogSta "sta"

/-- A change of the sessions of one module type. -/
theorem ModuleSlot.touches (hslot : ModuleSlot slot moduleType)
    (hothers : ∀ other, other ≠ moduleType → managed w' other = managed w other)
    (hkeyed : Keyed w.service → Keyed w'.service) (hlistener : w'.listener = w.listener)
    (hsimcon : w'.simcon = w.simcon) : Touches w w' slot := by
  refine ⟨?_, hkeyed⟩
  intro other hother
  cases hslot with
  | cco =>
    cases other with
    | listenerMain => exact hlistener
    | moduleLogCco => exact absurd rfl hother
    | moduleLogSta => exact hothers "sta" (by decide)
    | simconMain => exact hsimcon
  | sta =>
    cases other with
    | listenerMain => exact hlistener
    | moduleLogCco => exact hothers "cco" (by decide)
    | moduleLogSta => exact absurd rfl hother
    | simconMain => exact hsimcon

theorem ModuleSlot.running (hslot : ModuleSlot slot moduleType) :
    running w slot = (findManagedSession w moduleType).bind fun e => handleOf e.2 := by
  cases hslot <;> rfl

theorem ModuleSlot.off_iff (hslot : ModuleSlot slot moduleType) : Off w slot ↔ NoneManaged w moduleType := by
  cases hslot <;> exact Iff.rfl

theorem ModuleSlot.fits_iff (hslot : ModuleSlot slot moduleType) :
    Fits env profile w slot ↔ FitsModule env profile w moduleType := by
  cases hslot <;> exact Iff.rfl

theorem ModuleSlot.ne_simcon (hslot : ModuleSlot slot moduleType) : slot ≠ .simconMain := by
  cases hslot <;> decide

theorem ModuleSlot.applyDevice (hslot : ModuleSlot slot moduleType) :
    applyDevice env w profile device slot = applyModule env w slot moduleType profile device := by
  cases hslot <;> rfl

theorem ModuleSlot.stopManaged (hslot : ModuleSlot slot moduleType) :
    stopManaged env w slot = stopModule w slot moduleType := by
  cases hslot <;> rfl

theorem moduleType_of_managedBy {session : ModuleSession} (h : managedBy moduleType session = true) :
    session.moduleType = moduleType := by
  rw [managedBy, Bool.and_eq_true, decide_eq_true_eq] at h
  exact h.2

theorem state_of_handleOf {session : ModuleSession} {h : Handle} (hh : handleOf session = some h) :
    session.channel.state = .running := by
  rw [handleOf] at hh
  split at hh
  · assumption
  · cases hh

/-- A start that succeeds of the first managed session. -/
theorem startManaged_ok {a : String} {session : ModuleSession} {rest : List (String × ModuleSession)}
    {params : SerialParams} (hkeyed : Keyed w.service) (hdevice : deviceFor env id = .ok device)
    (hfirst : managed w moduleType = (a, session) :: rest) (hstopped : session.channel.state ≠ .running)
    (h : startManaged env w slot a device params = (.ok entry, w')) :
    (∃ s, managed w' moduleType = (a, s) :: rest ∧
      handleOf s = some ⟨device, configParams (requestedConfig casing params.config)⟩) ∧
      (∀ other, other ≠ moduleType → managed w' other = managed w other) ∧ Keyed w'.service ∧
      w'.listener = w.listener ∧ w'.simcon = w.simcon := by
  obtain ⟨hs, hmanaged⟩ := get?_of_managed (hfirst ▸ List.mem_cons_self)
  unfold startManaged at h
  split at h
  · cases h
  · rename_i s service hstart
    obtain rfl := (Prod.mk.inj h).2
    obtain ⟨hreplaces, hrunning, hconfig, identity, hidentity⟩ := start_ok hkeyed hs hstopped hstart
    have hworld : Replaces w.service ({ w with service := service } : World).service a session s := hreplaces
    refine ⟨⟨s, managed_replaces_first hfirst hworld, ?_⟩, ?_,
      hkeyed.set hreplaces.sessions hreplaces.sessionId, rfl, rfl⟩
    · rw [handleOf, if_pos hrunning, hconfig, openPort_eq hdevice hidentity]
    · intro other hother
      exact managed_replaces_other hs hworld (moduleType_of_managedBy hmanaged) hother

/-- The session that is created is the managed one. -/
theorem newSession_managed (hslot : ModuleSlot slot moduleType) (other : String) :
    managedBy other (w.service.newSession casing (env.digits w.service) (managedTitle ++ upper moduleType)
      moduleType) = decide (moduleType = other) := by
  have hmodule : normalise casing moduleType = moduleType := by
    cases hslot with
    | cco => exact env.lower_cco
    | sta => exact env.lower_sta
  have htitle : managedTitle.toList.isPrefixOf (strip (managedTitle ++ upper moduleType)).toList = true ∧
      strip (managedTitle ++ upper moduleType) ≠ "" := by
    cases hslot <;> exact ⟨by decide +kernel, by decide +kernel⟩
  rw [managedBy, Service.newSession]
  dsimp only
  rw [if_pos htitle.2, htitle.1, Bool.true_and, hmodule]

theorem create_managed {session : ModuleSession} {service : Service} (hslot : ModuleSlot slot moduleType)
    (hkeyed : Keyed w.service) (hnone : managed w moduleType = [])
    (h : w.service.create casing (env.digits w.service) (managedTitle ++ upper moduleType) moduleType =
      (.ok session, service)) :
    managed { w with service := service } moduleType = [(session.sessionId, session)] ∧
      (∀ other, other ≠ moduleType → managed { w with service := service } other = managed w other) ∧
      Keyed service ∧ session.channel.state ≠ .running := by
  obtain ⟨rfl, hsessions, hentries⟩ := create_ok (env.fresh w.service) h
  have hmanaged : ∀ other, managed { w with service := service } other =
      managed w other ++ if moduleType = other then
        [("ms-" ++ env.digits w.service, w.service.newSession casing (env.digits w.service)
          (managedTitle ++ upper moduleType) moduleType)] else [] := by
    intro other
    unfold managed
    dsimp only
    rw [hentries, List.filter_append, List.filter_singleton, newSession_managed hslot]
    by_cases hother : moduleType = other <;> simp [hother]
  refine ⟨?_, ?_, hkeyed.set hsessions rfl, ?_⟩
  · rw [hmanaged, if_pos rfl, hnone]
    rfl
  · intro other hother
    rw [hmanaged, if_neg hother.symm, List.append_nil]
  · intro hrunning
    cases hrunning

/-- A slot whose first managed session is as it is to be is not touched. -/
theorem module_again (hslot : ModuleSlot slot moduleType) (hdone : Done env profile w slot) :
    ∃ entry, applySlot env w profile slot = (.ok entry, w) := by
  cases henabled : profile.enabled with
  | false =>
    have hoff : NoneManaged w moduleType := hslot.off_iff.mp ((done_disabled henabled).mp hdone)
    rw [applySlot_disabled henabled, hslot.stopManaged, stopModule, findManagedSession_eq]
    cases hfirst : managed w moduleType with
    | nil => exact ⟨_, rfl⟩
    | cons e rest =>
      rw [List.head?_cons]
      dsimp only
      rw [if_neg (hoff e (hfirst ▸ List.mem_cons_self))]
      exact ⟨_, rfl⟩
  | true =>
    obtain ⟨h, hrunning, -, hport | ⟨hsimcon, -⟩⟩ := (done_enabled henabled).mp hdone
    · rw [hslot.running] at hrunning
      obtain ⟨e, hfound, hhandle⟩ := Option.bind_eq_some_iff.mp hrunning
      rw [applySlot_mapped henabled hport, hslot.applyDevice, applyModule, hfound]
      dsimp only
      rw [if_pos (state_of_handleOf hhandle)]
      exact ⟨_, rfl⟩
    · exact absurd hsimcon hslot.ne_simcon

theorem slotStep_stopModule (hslot : ModuleSlot slot moduleType) (hkeyed : Keyed w.service)
    (hdisabled : profile.enabled = false) (h : stopModule w slot moduleType = (.ok entry, w')) :
    SlotStep env profile w w' slot := by
  have hfits : Fits env profile w slot ↔
      ∀ e ∈ (managed w moduleType).tail, e.2.channel.state ≠ .running := by
    rw [hslot.fits_iff, FitsModule, if_neg (by simp [hdisabled])]
  have hdone : ∀ w', Done env profile w' slot ↔ NoneManaged w' moduleType := by
    intro w'
    rw [done_disabled hdisabled, hslot.off_iff]
  rw [stopModule, findManagedSession_eq] at h
  cases hfirst : managed w moduleType with
  | nil =>
    rw [hfirst] at h
    obtain rfl := (Prod.mk.inj h).2
    refine ⟨Touches.refl w slot, ?_, fun w'' _ hdone => module_again hslot hdone⟩
    rw [hdone, hfits, NoneManaged, hfirst]
    exact iff_of_true (List.forall_mem_nil _) (List.forall_mem_nil _)
  | cons e rest =>
    obtain ⟨a, session⟩ := e
    rw [hfirst, List.head?_cons] at h
    dsimp only at h
    split at h
    · obtain ⟨hs, hmanaged⟩ := get?_of_managed (hfirst ▸ List.mem_cons_self)
      split at h
      · cases h
      · rename_i s service hstop
        obtain rfl := (Prod.mk.inj h).2
        obtain ⟨hreplaces, hidle⟩ := stop_ok hkeyed hs hstop
        have hworld : Replaces w.service ({ w with service := service } : World).service a session s :=
          hreplaces
        refine ⟨hslot.touches ?_ ?_ rfl rfl, ?_, fun w'' _ hdone => module_again hslot hdone⟩
        · intro other hother
          exact managed_replaces_other hs hworld (moduleType_of_managedBy hmanaged) hother
        · exact fun hkeyed => hkeyed.set hreplaces.sessions hreplaces.sessionId
        · rw [hdone, hfits, NoneManaged, managed_replaces_first hfirst hworld, hfirst, List.forall_mem_cons]
          apply and_iff_right
          dsimp only
          rw [hidle]
          decide
    · rename_i hidle
      obtain rfl := (Prod.mk.inj h).2
      refine ⟨Touches.refl w slot, ?_, fun w'' _ hdone => module_again hslot hdone⟩
      rw [hdone, hfits, NoneManaged, hfirst, List.forall_mem_cons]
      exact and_iff_right hidle

theorem slotStep_applyModule (hslot : ModuleSlot slot moduleType) (hkeyed : Keyed w.service)
    (henabled : profile.enabled = true) (hdevice : deviceFor env profile.mappingId = .ok device)
    (h : applyModule env w slot moduleType profile device = (.ok entry, w')) :
    SlotStep env profile w w' slot := by
  have hfits : Fits env profile w slot ↔
      ((managed w moduleType).head?.bind fun e => handleOf e.2).elim
        (configParams (requestedConfig casing (effectiveParams env profile).config) =
          effectiveParams env profile)
        fun h => h = ⟨device, effectiveParams env profile⟩ := by
    rw [hslot.fits_iff, FitsModule, if_pos henabled, findManagedSession_eq]
    constructor
    · rintro ⟨device', hdevice', hfits⟩
      obtain rfl := Except.ok.inj (hdevice'.symm.trans hdevice)
      cases hhandle : (managed w moduleType).head?.bind fun e => handleOf e.2 <;>
        rwa [hhandle] at hfits
    · intro hfits
      refine ⟨device, hdevice, ?_⟩
      cases hhandle : (managed w moduleType).head?.bind fun e => handleOf e.2 <;>
        rwa [hhandle] at hfits
  have hdone : ∀ w' a s rest, managed w' moduleType = (a, s) :: rest →
      (Done env profile w' slot ↔ handleOf s = some ⟨device, effectiveParams env profile⟩) := by
    intro w' a s rest hfirst
    rw [done_enabled henabled, on_iff hdevice, hslot.running, findManagedSession_eq, hfirst]
    rfl
  rw [applyModule, findManagedSession_eq] at h
  cases hfirst : managed w moduleType with
  | nil =>
    rw [hfirst] at h
    dsimp only [List.head?_nil] at h
    split at h
    · cases h
    · rename_i session service hcreate
      obtain ⟨hone, hothers, hkeyed', hidle⟩ := create_managed hslot hkeyed hfirst hcreate
      obtain ⟨⟨s, hmanaged, hhandle⟩, hothers', hkeyed'', hlistener, hsimcon⟩ :=
        startManaged_ok hkeyed' hdevice hone hidle h
      refine ⟨hslot.touches ?_ (fun _ => hkeyed'') hlistener hsimcon, ?_,
        fun w'' _ hdone => module_again hslot hdone⟩
      · exact fun other hother => (hothers' other hother).trans (hothers other hother)
      · rw [hdone w' _ _ _ hmanaged, hfits, hfirst, hhandle]
        simp
  | cons e rest =>
    obtain ⟨a, session⟩ := e
    rw [hfirst, List.head?_cons] at h
    dsimp only at h
    split at h
    · rename_i hrunning
      obtain rfl := (Prod.mk.inj h).2
      refine ⟨Touches.refl w slot, ?_, fun w'' _ hdone => module_again hslot hdone⟩
      rw [hdone w _ _ _ hfirst, hfits, hfirst, List.head?_cons, Option.bind_some, handleOf, if_pos hrunning]
      exact Option.some_inj
    · rename_i hidle
      obtain ⟨⟨s, hmanaged, hhandle⟩, hothers, hkeyed', hlistener, hsimcon⟩ :=
        startManaged_ok hkeyed hdevice hfirst hidle h
      refine ⟨hslot.touches hothers (fun _ => hkeyed') hlistener hsimcon, ?_,
        fun w'' _ hdone => module_again hslot hdone⟩
      rw [hdone w' _ _ _ hmanaged, hfits, hfirst, hhandle, List.head?_cons, Option.bind_some, handleOf,
        if_neg hidle]
      simp

theorem slotStep_module (hslot : ModuleSlot slot moduleType) (hkeyed : Keyed w.service)
    (h : applySlot env w profile slot = (.ok entry, w')) : SlotStep env profile w w' slot := by
  obtain ⟨hdisabled, h⟩ | ⟨henabled, hempty, ⟨hne, rfl⟩ | ⟨hsimcon, -⟩⟩ | ⟨henabled, device, hdevice, h⟩ :=
    applySlot_cases h
  · rw [hslot.stopManaged] at h
    exact slotStep_stopModule hslot hkeyed hdisabled h
  · exact slotStep_unmapped henabled hempty hne
  · exact absurd hsimcon hslot.ne_simcon
  · rw [hslot.applyDevice] at h
    exact slotStep_applyModule hslot hkeyed henabled hdevice h

end Modules

/-! ## The simulated concentrator -/

section Simcon
variable {casing : Casing} {env : Surroundings casing} {profile : Profile} {w w' : World}
  {id device : String} {entry : SlotResult} {simcon : SimconService} {resolved : Handle}
  {identity : PortIdentity} {port : Option String}

theorem resolve_device (h : deviceFor env id = .ok device) :
    ∃ identity, resolveSerialConfig env (some device) =
      .ok (⟨(env.liveDevice id).getD device, configParams (env.defaults id)⟩, identity) := by
  obtain ⟨m, hfind, rfl, rfl⟩ := mapping_of_deviceFor h
  unfold resolveSerialConfig
  dsimp only
  rw [hfind]
  exact ⟨_, rfl⟩

theorem openIo_ok {s : SimconService} (h : openIo env w simcon resolved identity = (.ok s, w')) :
    s = ⟨simcon.openPort, some (simcon.io.getD resolved)⟩ ∧ w'.service.sessions = w.service.sessions ∧
      w'.listener = w.listener := by
  unfold openIo at h
  split at h
  · rename_i hopen
    obtain ⟨handle, hio⟩ := Option.isSome_iff_exists.mp hopen
    obtain ⟨hs, rfl⟩ := Prod.mk.inj h
    obtain rfl := Except.ok.inj hs
    refine ⟨?_, rfl, rfl⟩
    rw [hio, Option.getD_some, ← hio]
  · rename_i hclosed
    split at h
    · cases h
    · dsimp only at h
      split at h
      · obtain ⟨hs, rfl⟩ := Prod.mk.inj h
        obtain rfl := Except.ok.inj hs
        rw [Option.not_isSome_iff_eq_none.mp hclosed]
        exact ⟨rfl, rfl, rfl⟩
      · cases h

/-- The port that is open stays open, and the adapter notes the other one. -/
theorem openSimcon_ok (hresolved : resolveSerialConfig env port = .ok (resolved, identity))
    (h : openSimcon env w simcon port = (.ok (), w')) :
    w'.simcon = some ⟨some resolved.port, some (simcon.io.getD resolved)⟩ ∧
      w'.service.sessions = w.service.sessions ∧ w'.listener = w.listener := by
  rw [openSimcon, hresolved] at h
  dsimp only at h
  split at h
  · cases h
  · rename_i s w₁ hopen
    obtain rfl := (Prod.mk.inj h).2
    obtain ⟨rfl, hsessions, hlistener⟩ := openIo_ok hopen
    exact ⟨rfl, hsessions, hlistener⟩

/-- An adapter that has noted the port leaves an open port as it is. -/
theorem openSimcon_open {handle : Handle} (hresolved : resolveSerialConfig env port = .ok (resolved, identity))
    (hw : w.simcon = some simcon) (hio : simcon.io = some handle)
    (hnoted : simcon.openPort = some resolved.port) : openSimcon env w simcon port = (.ok (), w) := by
  have hsame : ({ w with simcon := some { simcon with openPort := some resolved.port } } : World) = w := by
    rw [← hnoted, ← hw]
  rw [openSimcon, hresolved]
  dsimp only
  rw [openIo, if_pos (by rw [hio]; rfl)]
  dsimp only
  rw [hsame]

/-- What the adapter has noted after the profile has been applied. -/
def Noted (env : Surroundings casing) (profile : Profile) (simcon : SimconService) : Prop :=
  if profile.enabled then
    if profile.mappingId = "" then simcon.openPort.isSome = true
    else ∃ device, deviceFor env profile.mappingId = .ok device ∧
      (simcon.openPort = some device ∨ simcon.openPort = some ((env.liveDevice profile.mappingId).getD device))
  else simcon.openPort = none

/-- A concentrator that is as it is to be is not touched. -/
theorem simcon_again (hnoted : ∀ simcon, w.simcon = some simcon → Noted env profile simcon)
    (hdone : Done env profile w .simconMain) :
    ∃ entry, applySlot env w profile .simconMain = (.ok entry, w) := by
  cases henabled : profile.enabled with
  | false =>
    have hnone : w.simcon.bind (·.openPort) = none := by
      rw [Option.bind_eq_none_iff]
      intro simcon hw
      have hnote := hnoted simcon hw
      rwa [Noted, if_neg (by simp [henabled])] at hnote
    rw [applySlot_disabled henabled, stopManaged, hnone, if_neg (by decide)]
    exact ⟨_, rfl⟩
  | true =>
    obtain ⟨h, hrunning, -, hport⟩ := (done_enabled henabled).mp hdone
    obtain ⟨simcon, hw, hio⟩ := Option.bind_eq_some_iff.mp hrunning
    have hnote := hnoted simcon hw
    rw [Noted, if_pos henabled] at hnote
    by_cases hempty : profile.mappingId = ""
    · rw [if_pos hempty] at hnote
      rw [applySlot_unmapped henabled hempty, if_pos rfl, applySimcon, hw]
      dsimp only
      rw [if_neg (by simp), if_pos ⟨rfl, hnote⟩]
      exact ⟨_, rfl⟩
    · rw [if_neg hempty] at hnote
      obtain ⟨device, hdevice, hnote⟩ := hnote
      rw [applySlot_mapped henabled hdevice, applyDevice, applySimcon, hw]
      dsimp only
      by_cases hsame : simcon.openPort = some device
      · rw [if_pos ⟨rfl, hsame⟩]
        exact ⟨_, rfl⟩
      · obtain ⟨identity, hresolved⟩ := resolve_device hdevice
        rw [if_neg (by simp [hsame]), if_neg (by simp),
          openSimcon_open hresolved hw hio (hnote.resolve_left hsame)]
        exact ⟨_, rfl⟩

theorem on_auto_iff (hempty : profile.mappingId = "") :
    On env profile w .simconMain ↔
      ∃ h, running w .simconMain = some h ∧ h.params = effectiveParams env profile := by
  constructor
  · rintro ⟨h, hrunning, hparams, -⟩
    exact ⟨h, hrunning, hparams⟩
  · rintro ⟨h, hrunning, hparams⟩
    exact ⟨h, hrunning, hparams, .inr ⟨rfl, hempty⟩⟩

theorem fits_auto_iff (henabled : profile.enabled = true) (hempty : profile.mappingId = "")
    (hw : w.simcon = some simcon) : Fits env profile w .simconMain ↔
      match simcon.io with
      | some h => h.params = effectiveParams env profile
      | none => simcon.openPort = none ∧ configParams simconAutoParams = effectiveParams env profile := by
  rw [Fits, FitsSimcon, if_pos henabled]
  constructor
  · rintro ⟨simcon', hw', hfits⟩
    obtain rfl := Option.some.inj (hw'.symm.trans hw)
    rwa [if_pos hempty] at hfits
  · intro hfits
    refine ⟨simcon, hw, ?_⟩
    rwa [if_pos hempty]

theorem fits_device_iff (henabled : profile.enabled = true)
    (hdevice : deviceFor env profile.mappingId = .ok device) (hw : w.simcon = some simcon) :
    Fits env profile w .simconMain ↔
      match simcon.io with
      | some h => h = ⟨device, effectiveParams env profile⟩
      | none => simcon.openPort ≠ some device ∧ (env.liveDevice profile.mappingId).getD device = device ∧
          configParams (env.defaults profile.mappingId) = effectiveParams env profile := by
  have hmapping : profile.mappingId ≠ "" := by
    intro hempty
    rw [hempty] at hdevice
    exact deviceFor_empty hdevice
  rw [Fits, FitsSimcon, if_pos henabled]
  constructor
  · rintro ⟨simcon', hw', hfits⟩
    obtain rfl := Option.some.inj (hw'.symm.trans hw)
    rw [if_neg hmapping] at hfits
    obtain ⟨device', hdevice', hfits⟩ := hfits
    obtain rfl := Except.ok.inj (hdevice'.symm.trans hdevice)
    exact hfits
  · intro hfits
    refine ⟨simcon, hw, ?_⟩
    rw [if_neg hmapping]
    exact ⟨device, hdevice, hfits⟩

/-- Without the service the slot is not done. -/
theorem slotStep_unavailable (henabled : profile.enabled = true) (hw : w.simcon = none) :
    SlotStep env profile w w .simconMain := by
  have hrunning : running w .simconMain = none := by rw [running, hw, Option.bind_none]
  refine ⟨Touches.refl w _, iff_of_false ?_ ?_, fun w'' hsame hdone => simcon_again ?_ hdone⟩
  · rw [done_enabled henabled]
    rintro ⟨h, hsome, -⟩
    cases hsome.symm.trans hrunning
  · rw [Fits, FitsSimcon, if_pos henabled]
    rintro ⟨simcon, hsome, -⟩
    cases hsome.symm.trans hw
  · intro simcon hsome
    have hpart : w''.simcon = w.simcon := hsame
    rw [hpart, hw] at hsome
    cases hsome

theorem slotStep_auto (henabled : profile.enabled = true) (hempty : profile.mappingId = "")
    (h : applySimcon env w none = (.ok entry, w')) : SlotStep env profile w w' .simconMain := by
  have hagain : ∀ noted, w'.simcon = some noted → noted.openPort.isSome = true →
      ∀ w'', SamePart w' w'' .simconMain → Done env profile w'' .simconMain →
        ∃ entry, applySlot env w'' profile .simconMain = (.ok entry, w'') := by
    intro noted hw' hsome w'' hsame hdone
    refine simcon_again (fun s hs => ?_) hdone
    have hpart : w''.simcon = w'.simcon := hsame
    obtain rfl := Option.some.inj (hs.symm.trans (hpart.trans hw'))
    rwa [Noted, if_pos henabled, if_pos hempty]
  rw [applySimcon] at h
  cases hw : w.simcon with
  | none =>
    rw [hw] at h
    obtain rfl := (Prod.mk.inj h).2
    exact slotStep_unavailable henabled hw
  | some simcon =>
    rw [hw] at h
    dsimp only at h
    rw [if_neg (by simp)] at h
    have hfits : Fits env profile w .simconMain ↔ _ := fits_auto_iff henabled hempty hw
    split at h
    · rename_i hnoted
      obtain rfl := (Prod.mk.inj h).2
      refine ⟨Touches.refl w _, ?_, hagain simcon hw hnoted.2⟩
      rw [done_enabled henabled, on_auto_iff hempty, hfits, running, hw, Option.bind_some]
      cases simcon.io with
      | none =>
        have hopen : simcon.openPort ≠ none := Option.isSome_iff_ne_none.mp hnoted.2
        simp [hopen]
      | some handle => simp
    · rename_i hnoted
      have hclosed : simcon.openPort = none := by simpa using hnoted
      split at h
      · cases h
      · rename_i w₁ hopen
        obtain rfl := (Prod.mk.inj h).2
        cases hauto : env.autoPort with
        | none =>
          rw [openSimcon, resolveSerialConfig, hauto] at hopen
          cases hopen
        | some auto =>
          have hresolved : resolveSerialConfig env none =
              .ok (⟨auto, configParams simconAutoParams⟩, { device := auto }) := by
            rw [resolveSerialConfig, hauto]
          obtain ⟨hsimcon, hsessions, hlistener⟩ := openSimcon_ok hresolved hopen
          refine ⟨touches_simcon hsessions hlistener, ?_, hagain _ hsimcon rfl⟩
          rw [done_enabled henabled, on_auto_iff hempty, hfits, running, hsimcon, Option.bind_some]
          cases simcon.io <;> simp [hclosed]

theorem slotStep_simconDevice (henabled : profile.enabled = true)
    (hdevice : deviceFor env profile.mappingId = .ok device)
    (h : applySimcon env w (some device) = (.ok entry, w')) : SlotStep env profile w w' .simconMain := by
  have hmapping : profile.mappingId ≠ "" := by
    intro hempty
    rw [hempty] at hdevice
    exact deviceFor_empty hdevice
  have hagain : ∀ noted, w'.simcon = some noted →
      (noted.openPort = some device ∨
        noted.openPort = some ((env.liveDevice profile.mappingId).getD device)) →
      ∀ w'', SamePart w' w'' .simconMain → Done env profile w'' .simconMain →
        ∃ entry, applySlot env w'' profile .simconMain = (.ok entry, w'') := by
    intro noted hw' hopen w'' hsame hdone
    refine simcon_again (fun s hs => ?_) hdone
    have hpart : w''.simcon = w'.simcon := hsame
    obtain rfl := Option.some.inj (hs.symm.trans (hpart.trans hw'))
    rw [Noted, if_pos henabled, if_neg hmapping]
    exact ⟨device, hdevice, hopen⟩
  rw [applySimcon] at h
  cases hw : w.simcon with
  | none =>
    rw [hw] at h
    obtain rfl := (Prod.mk.inj h).2
    exact slotStep_unavailable henabled hw
  | some simcon =>
    rw [hw] at h
    dsimp only at h
    have hfits := fits_device_iff henabled hdevice hw
    split at h
    · rename_i hnoted
      obtain rfl := (Prod.mk.inj h).2
      refine ⟨Touches.refl w _, ?_, hagain simcon hw (.inl hnoted.2)⟩
      rw [done_enabled henabled, on_iff hdevice, hfits, running, hw, Option.bind_some]
      cases simcon.io with
      | none => simp [hnoted.2]
      | some handle => simp
    · rename_i hnoted
      have hother : simcon.openPort ≠ some device := by simpa using hnoted
      rw [if_neg (by simp)] at h
      split at h
      · cases h
      · rename_i w₁ hopen
        obtain rfl := (Prod.mk.inj h).2
        obtain ⟨identity, hresolved⟩ := resolve_device hdevice
        obtain ⟨hsimcon, hsessions, hlistener⟩ := openSimcon_ok hresolved hopen
        refine ⟨touches_simcon hsessions hlistener, ?_, hagain _ hsimcon (.inr rfl)⟩
        rw [done_enabled henabled, on_iff hdevice, hfits, running, hsimcon, Option.bind_some]
        cases simcon.io <;> simp [hother]

theorem slotStep_stopSimcon (hdisabled : profile.enabled = false)
    (h : stopManaged env w .simconMain = (.ok entry, w')) : SlotStep env profile w w' .simconMain := by
  have hfits : Fits env profile w .simconMain ↔
      ∀ simcon, w.simcon = some simcon → simcon.openPort = none → simcon.io = none := by
    rw [Fits, FitsSimcon, if_neg (by simp [hdisabled])]
  have hdone : Done env profile w' .simconMain ↔ w'.simcon.bind (·.io) = none := done_disabled hdisabled
  have hagain : (∀ noted, w'.simcon = some noted → noted.openPort = none) →
      ∀ w'', SamePart w' w'' .simconMain → Done env profile w'' .simconMain →
        ∃ entry, applySlot env w'' profile .simconMain = (.ok entry, w'') := by
    intro hnone w'' hsame hdone
    refine simcon_again (fun s hs => ?_) hdone
    rw [Noted, if_neg (by simp [hdisabled])]
    exact hnone s (hsame.symm.trans hs)
  rw [stopManaged] at h
  split at h
  · rename_i hopen
    obtain rfl := (Prod.mk.inj h).2
    refine ⟨touches_simcon rfl rfl, ?_, hagain fun noted hnoted => ?_⟩
    · rw [hdone, hfits]
      apply iff_of_true rfl
      intro simcon hw hnone
      rw [hw, Option.bind_some, hnone] at hopen
      cases hopen
    · obtain rfl := Option.some.inj hnoted
      rfl
  · rename_i hopen
    have hnone := Option.not_isSome_iff_eq_none.mp hopen
    rw [Option.bind_eq_none_iff] at hnone
    obtain rfl := (Prod.mk.inj h).2
    refine ⟨Touches.refl w _, ?_, hagain hnone⟩
    rw [hdone, hfits, Option.bind_eq_none_iff]
    exact forall_congr' fun simcon => forall_congr' fun hw => (imp_iff_right (hnone simcon hw)).symm

theorem slotStep_simcon (h : applySlot env w profile .simconMain = (.ok entry, w')) :
    SlotStep env profile w w' .simconMain := by
  obtain ⟨hdisabled, h⟩ | ⟨henabled, hempty, ⟨hslot, -⟩ | ⟨-, h⟩⟩ | ⟨henabled, device, hdevice, h⟩ :=
    applySlot_cases h
  · exact slotStep_stopSimcon hdisabled h
  · exact absurd rfl hslot
  · exact slotStep_auto henabled hempty h
  · exact slotStep_simconDevice henabled hdevice h

end Simcon

end HplcWorkbench.SerialProfiles
