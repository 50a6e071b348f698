import HplcWorkbench.ModuleSessions
import Mathlib.Data.Rat.Defs

/-!
# Serial profiles

A profile says for each of four slots whether it is to run, on the port of which mapping and with which
parameters. It is applied to three services: the listener, the managed sessions of the module service
and the simulated concentrator. Each of them decides in its own way whether a slot runs already.
-/

namespace HplcWorkbench.SerialProfiles
open ModuleSerial SerialResources

/-! ## Profiles -/

/-- The parameters of a profile; the stop bits may be 1.5. -/
structure SerialParams where
  baudrate : ℤ
  bytesize : ℤ
  parity : String
  stopbits : ℚ
  deriving DecidableEq, Repr

/-- `int` of a number that may be a fraction. -/
def pyInt (q : ℚ) : ℤ := q.num.tdiv q.den

/-- What `start_session` makes of the parameters. -/
def SerialParams.config (p : SerialParams) : SerialConfig :=
  ⟨p.baudrate, p.bytesize, p.parity, pyInt p.stopbits⟩

def configParams (c : SerialConfig) : SerialParams := ⟨c.baudrate, c.bytesize, c.parity, c.stopbits⟩

structure Profile where
  mappingId : String := ""
  enabled : Bool := false
  baudrate : Option ℤ := none
  bytesize : Option ℤ := none
  parity : Option String := none
  stopbits : Option ℚ := none
  deriving DecidableEq, Repr

inductive Slot
  | listenerMain
  | moduleLogCco
  | moduleLogSta
  | simconMain
  deriving DecidableEq, Repr

/-- `APPLY_ORDER`. -/
def applyOrder : List Slot := [.listenerMain, .moduleLogCco, .moduleLogSta, .simconMain]

/-- `MANAGED_TITLE_PREFIX`. -/
def managedTitle : String := "托管-"

/-! ## What the profile is applied to -/

/-- An open port with its parameters. -/
structure Handle where
  port : String
  params : SerialParams
  deriving DecidableEq, Repr

/-- `SimconProfileAdapter` with the simulated concentrator behind it: the port that the adapter has
noted, and the port that is open. -/
structure SimconService where
  openPort : Option String := none
  io : Option Handle := none
  deriving DecidableEq, Repr

/-- The three services. The registry that they share is in the module service. -/
structure World where
  service : Service := {}
  listener : Option Handle := none
  simcon : Option SimconService := none

/-- The catalogue, the ports of the system and what opening them comes to. -/
structure Surroundings (casing : Casing) where
  catalog : SerialPortCatalog casing
  nt : Bool
  ports : List String
  /-- The parameters of a mapping. -/
  defaults : String → SerialConfig
  /-- `_find_device_by_busid` of a mapping with a bus id. -/
  liveDevice : String → Option String
  /-- `_auto_select_port`. -/
  autoPort : Option String
  listenerOwner : String
  simconOwner : String
  opening : String → SerialConfig → Opening
  /-- The thread of the listener gets the port. -/
  captures : String → SerialParams → Bool
  /-- The digits of the next session. -/
  digits : Service → String
  fresh : ∀ w : Service, w.sessions.get? ("ms-" ++ digits w) = none
  lower_cco : casing.lower "cco" = "cco"
  lower_sta : casing.lower "sta" = "sta"

inductive Status
  | started
  | reused
  | stopped
  | unchanged
  | skipped
  | failed
  deriving DecidableEq, Repr

structure SlotResult where
  slot : Slot
  status : Status
  reason : String := ""
  error : Option ServiceError := none
  deriving DecidableEq, Repr

section Services
variable {casing : Casing} (env : Surroundings casing)

/-! ## The listener -/

def World.withRegistry (w : World) (registry : Registry) : World :=
  { w with service := { w.service with registry := registry } }

def World.releaseOwner (w : World) (owner : String) : World :=
  w.withRegistry (onRegistry (release owner) w.service.registry).2

/-- `SerialCaptureService.start`; the port is opened by the thread, after the call has returned. -/
def startListener (w : World) (device : String) (params : SerialParams) :
    Except ServiceError Unit × World :=
  match env.catalog.identityForPort env.nt env.ports device with
  | .error e => (.error e, w)
  | .ok (openPort, identity) =>
    if w.listener.isSome then (.error (.runtimeError "串口采集已在运行"), w)
    else
      match onRegistry (reserve casing.toCasefold env.listenerOwner "侦听台" identity.mappingId
        (resourceAliases openPort identity)) w.service.registry with
      | (.error e, registry) => (.error (reserveError openPort e), w.withRegistry registry)
      | (.ok _, registry) =>
        let w := w.withRegistry registry
        if env.captures openPort params then
          (.ok (), { w with listener := some ⟨openPort, params⟩ })
        else (.ok (), w.releaseOwner env.listenerOwner)

def stopListener (w : World) : World := { w.releaseOwner env.listenerOwner with listener := none }

/-! ## The simulated concentrator -/

/-- The parameters of the local bus, for a port that is selected automatically. -/
def simconAutoParams : SerialConfig := ⟨9600, 8, "E", 1⟩

/-- `resolve_serial_config` of a port, or of none. -/
def resolveSerialConfig (port : Option String) : Except ServiceError (Handle × PortIdentity) :=
  match port with
  | none =>
    match env.autoPort with
    | none => .error (.valueError "未找到可用串口：请接入串口设备，或在任务/请求中显式指定 port")
    | some auto => .ok (⟨auto, configParams simconAutoParams⟩, { device := auto })
  | some port =>
    match env.catalog.find port with
    | some m =>
      let device := (env.liveDevice m.id).getD (m.deviceFor env.nt)
      .ok (⟨device, configParams (env.defaults m.id)⟩,
        ⟨m.id, m.label, device, m.linuxDevice, m.windowsCom, m.usage, m.moduleType⟩)
    | none =>
      if strip port = "" then .error (.valueError "必须提供串口或 mapping_id")
      else .ok (⟨strip port, configParams {}⟩, { device := strip port })

/-- `_open_io`: a port that is open stays open. -/
def openIo (w : World) (simcon : SimconService) (resolved : Handle) (identity : PortIdentity) :
    Except ServiceError SimconService × World :=
  if simcon.io.isSome then (.ok simcon, w)
  else
    match onRegistry (reserve casing.toCasefold env.simconOwner "模拟集中器" identity.mappingId
      (resourceAliases resolved.port identity)) w.service.registry with
    | (.error e, registry) => (.error (reserveError resolved.port e), w.withRegistry registry)
    | (.ok _, registry) =>
      let w := w.withRegistry registry
      if env.opening resolved.port resolved.params.config = .opened then
        (.ok { simcon with io := some resolved }, w)
      else (.error .driver, w.releaseOwner env.simconOwner)

/-- `SimconProfileAdapter.open`. -/
def openSimcon (w : World) (simcon : SimconService) (port : Option String) :
    Except ServiceError Unit × World :=
  match resolveSerialConfig env port with
  | .error e => (.error e, w)
  | .ok (resolved, identity) =>
    match openIo env w simcon resolved identity with
    | (.error e, w) => (.error e, w)
    | (.ok simcon, w) => (.ok (), { w with simcon := some { simcon with openPort := some resolved.port } })

def closeSimcon (w : World) : World :=
  { w.releaseOwner env.simconOwner with simcon := some {} }

/-! ## The slots -/

/-- `device_for`. -/
def deviceFor (mappingId : String) : Except ServiceError String :=
  match env.catalog.mappings.find? (·.id = mappingId) with
  | some m => .ok (m.deviceFor env.nt)
  | none => .error (.valueError ("未知映射：" ++ mappingId))

/-- `_effective_params`, and what an automatic port is to have. -/
def effectiveParams (profile : Profile) : SerialParams :=
  let defaults := if profile.mappingId = "" then simconAutoParams else env.defaults profile.mappingId
  ⟨profile.baudrate.getD defaults.baudrate, profile.bytesize.getD defaults.bytesize,
    profile.parity.getD defaults.parity, profile.stopbits.getD defaults.stopbits⟩

def managedBy (moduleType : String) (session : ModuleSession) : Bool :=
  managedTitle.toList.isPrefixOf session.title.toList && decide (session.moduleType = moduleType)

/-- `_find_managed_session`. -/
def findManagedSession (w : World) (moduleType : String) : Option (String × ModuleSession) :=
  w.service.sessions.entries.find? fun e => managedBy moduleType e.2

abbrev Applied := Except ServiceError SlotResult × World

def applyListener (w : World) (profile : Profile) (device : String) : Applied :=
  if (w.listener.map (·.port)) = some device then
    (.ok ⟨.listenerMain, .unchanged, "已运行且端口一致", none⟩, w)
  else
    match startListener env w device (effectiveParams env profile) with
    | (.error e, w) => (.error e, w)
    | (.ok _, w) => (.ok ⟨.listenerMain, .started, "", none⟩, w)

/-- `start_session` of a managed session. -/
def startManaged (w : World) (slot : Slot) (sessionId device : String) (params : SerialParams) : Applied :=
  match w.service.start env.catalog env.nt env.ports sessionId device params.config
    (env.opening device params.config) with
  | (.error e, service) => (.error e, { w with service := service })
  | (.ok _, service) => (.ok ⟨slot, .started, "", none⟩, { w with service := service })

def applyModule (w : World) (slot : Slot) (moduleType : String) (profile : Profile) (device : String) :
    Applied :=
  let params := effectiveParams env profile
  match findManagedSession w moduleType with
  | some (sessionId, session) =>
    if session.channel.state = .running then
      (.ok ⟨slot, .reused, "托管会话 " ++ sessionId ++ " 已运行", none⟩, w)
    else startManaged env w slot sessionId device params
  | none =>
    match w.service.create casing (env.digits w.service) (managedTitle ++ upper moduleType) moduleType with
    | (.error e, service) => (.error e, { w with service := service })
    | (.ok session, service) =>
      startManaged env { w with service := service } slot session.sessionId device params

/-- `_apply_simcon`; no device is an automatic port. -/
def applySimcon (w : World) (device : Option String) : Applied :=
  match w.simcon with
  | none => (.ok ⟨.simconMain, .skipped, "模拟集中器服务不可用", none⟩, w)
  | some simcon =>
    if device.isSome ∧ simcon.openPort = device then
      (.ok ⟨.simconMain, .unchanged, "模拟集中器已打开同端口", none⟩, w)
    else if device = none ∧ simcon.openPort.isSome then
      (.ok ⟨.simconMain, .unchanged, "模拟集中器已打开（自动模式不限定端口）", none⟩, w)
    else
      match openSimcon env w simcon device with
      | (.error e, w) => (.error e, w)
      | (.ok _, w) => (.ok ⟨.simconMain, .started, "", none⟩, w)

def stopModule (w : World) (slot : Slot) (moduleType : String) : Applied :=
  match findManagedSession w moduleType with
  | some (sessionId, session) =>
    if session.channel.state = .running then
      match w.service.stop sessionId with
      | (.error e, service) => (.error e, { w with service := service })
      | (.ok _, service) => (.ok ⟨slot, .stopped, "", none⟩, { w with service := service })
    else (.ok ⟨slot, .unchanged, "无运行托管会话", none⟩, w)
  | none => (.ok ⟨slot, .unchanged, "无运行托管会话", none⟩, w)

/-- `_stop_managed`. -/
def stopManaged (w : World) : Slot → Applied
  | .listenerMain =>
    if w.listener.isSome then (.ok ⟨.listenerMain, .stopped, "", none⟩, stopListener env w)
    else (.ok ⟨.listenerMain, .unchanged, "侦听台未运行", none⟩, w)
  | .moduleLogCco => stopModule w .moduleLogCco "cco"
  | .moduleLogSta => stopModule w .moduleLogSta "sta"
  | .simconMain =>
    if (w.simcon.bind (·.openPort)).isSome then
      (.ok ⟨.simconMain, .stopped, "", none⟩, closeSimcon env w)
    else (.ok ⟨.simconMain, .unchanged, "模拟集中器未打开", none⟩, w)

/-- `_apply_slot`. -/
def applySlot (w : World) (profile : Profile) (slot : Slot) : Applied :=
  if profile.enabled = false then stopManaged env w slot
  else if profile.mappingId = "" then
    if slot = .simconMain then applySimcon env w none
    else (.ok ⟨slot, .skipped, "未选择映射", none⟩, w)
  else
    match deviceFor env profile.mappingId with
    | .error e => (.error e, w)
    | .ok device =>
      match slot with
      | .listenerMain => applyListener env w profile device
      | .moduleLogCco => applyModule env w .moduleLogCco "cco" profile device
      | .moduleLogSta => applyModule env w .moduleLogSta "sta" profile device
      | .simconMain => applySimcon env w (some device)

/-- A slot in the loop of `apply`: an exception is the result of its slot. -/
def applyEntry (profiles : Slot → Profile) (w : World) (slot : Slot) : SlotResult × World :=
  match applySlot env w (profiles slot) slot with
  | (.ok entry, w) => (entry, w)
  | (.error e, w) => (⟨slot, .failed, "", some e⟩, w)

/-- What `apply` returns, and the services after it. -/
structure Report where
  slots : List SlotResult := []
  world : World

def Report.okCount (r : Report) : ℕ :=
  r.slots.countP fun entry => entry.status ∈ [Status.started, .reused, .stopped]

def Report.failCount (r : Report) : ℕ := r.slots.countP fun entry => entry.status = .failed

def Report.overall (r : Report) : String :=
  if r.okCount = 0 ∧ 0 < r.failCount then "failed" else if r.failCount = 0 then "ok" else "partial"

def apply (profiles : Slot → Profile) (w : World) : Report :=
  applyOrder.foldl (fun r slot =>
    let (entry, w) := applyEntry env profiles r.world slot
    { slots := r.slots ++ [entry], world := w }) { world := w }

end Services

end HplcWorkbench.SerialProfiles
