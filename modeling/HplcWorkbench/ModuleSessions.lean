import HplcWorkbench.SerialOwnership
import HplcWorkbench.OrderedDict

/-!
# The sessions of the module serial service

A mapping names one serial line by an identifier that survives a change of its device names. The
catalogue finds the mapping of a device, and the system enumeration decides which mappings are online.
Nothing is assumed of `str.lower` and `str.upper` but that the first makes no text empty.

A session has a channel that holds the handle of one serial port. Who owns a port is recorded in a table
of the service and in the registry that all services share, and the session remembers its key in the
table. `start_session` fills both records before it opens the port and takes them back when an exception
reaches it; what the driver answers is an argument of the call.
-/

namespace HplcWorkbench.ModuleSerial
open SerialResources

/-- `str.lower`, `str.upper` and `str.casefold`. -/
structure Casing extends Casefold where
  lower : String → String
  upper : String → String
  lower_eq_empty : ∀ {s : String}, lower s = "" ↔ s = ""

/-- `SerialPortMapping`, the fields that opening a port reads. -/
structure SerialPortMapping where
  id : String
  linuxDevice : String := ""
  windowsCom : String := ""
  label : String := ""
  usage : String := ""
  moduleType : String := ""
  enabled : Bool := true
  deriving DecidableEq, Repr

/-- `device_for`; `nt` says that the platform is Windows. -/
def SerialPortMapping.deviceFor (m : SerialPortMapping) (nt : Bool) : String :=
  if nt then (if m.windowsCom ≠ "" then m.windowsCom else m.linuxDevice)
  else (if m.linuxDevice ≠ "" then m.linuxDevice else m.windowsCom)

/-- The identity that a session keeps of the port it was started on. -/
structure PortIdentity where
  mappingId : String := ""
  label : String := ""
  device : String := ""
  linuxDevice : String := ""
  windowsCom : String := ""
  usage : String := ""
  moduleType : String := ""
  deriving DecidableEq, Repr

/-- The exceptions of the service. -/
inductive ServiceError
  | keyError (sessionId : String)
  | valueError (message : String)
  | runtimeError (message : String)
  /-- What the driver raises, or what follows the opening of the port. -/
  | driver
  deriving DecidableEq, Repr

section Catalog
variable (casing : Casing)

/-- `_normalise`. -/
def normalise (value : String) : String := casing.lower (strip value)

def SerialPortMapping.aliases (m : SerialPortMapping) : List String :=
  ([m.linuxDevice, m.windowsCom].filter (· ≠ "")).map (normalise casing)

/-- The mappings that `load` accepts. -/
structure SerialPortCatalog where
  mappings : List SerialPortMapping
  named : ∀ m ∈ mappings, m.id ≠ ""
  placed : ∀ m ∈ mappings, m.linuxDevice ≠ "" ∨ m.windowsCom ≠ ""
  distinct : (mappings.map (·.id)).Nodup
  separate : ∀ m ∈ mappings, ∀ m' ∈ mappings, ∀ a ∈ m.aliases casing, a ∈ m'.aliases casing → m = m'

/-- A port as the merged enumeration lists it. -/
structure PortDetail where
  device : String
  mappingId : String
  online : Bool
  deriving DecidableEq, Repr

namespace SerialPortCatalog
variable {casing}
variable (catalog : SerialPortCatalog casing) (nt : Bool) (ports : List String) (device : String)

/-- `find`: of several mappings with one alias the last stays in `_by_alias`. -/
def find : Option SerialPortMapping :=
  catalog.mappings.reverse.find? (fun m => normalise casing device ∈ m.aliases casing)

/-- `identity_key`. -/
def identityKey : String :=
  match catalog.find device with
  | some m => m.id
  | none => normalise casing device

/-- The loop over the system ports; `seen` are the normalised devices so far. -/
def mergeOnline : List String → List String → List PortDetail
  | _, [] => []
  | seen, device :: rest =>
    if device = "" ∨ normalise casing device ∈ seen then mergeOnline seen rest
    else
      ⟨device, (catalog.find device).elim "" (·.id), true⟩ ::
        mergeOnline (normalise casing device :: seen) rest

/-- `merge_system_ports`: the system ports, then the enabled mappings that are offline. -/
def mergeSystemPorts : List PortDetail :=
  let online := catalog.mergeOnline [] ports
  online ++ (catalog.mappings.filter
      (fun m => m.enabled ∧ m.id ∉ online.map (·.mappingId))).map
    fun m => ⟨m.deviceFor nt, m.id, false⟩

/-- `_mapping_is_online`. -/
def mappingIsOnline (mappingId : String) : Bool :=
  (catalog.mergeSystemPorts nt ports).any (fun d => d.mappingId = mappingId ∧ d.online)

/-- `_identity_for_port`. -/
def identityForPort (port : String) : Except ServiceError (String × PortIdentity) :=
  match catalog.find port with
  | none => .ok (port, { device := port })
  | some m =>
    if m.enabled = false then .error (.runtimeError ("串口映射 " ++ m.id ++ " 已禁用"))
    else if catalog.mappingIsOnline nt ports m.id = false then
      .error (.runtimeError ("映射串口 " ++ (if m.label ≠ "" then m.label else m.id) ++
        " 当前离线，请刷新端口列表"))
    else .ok (m.deviceFor nt,
      ⟨m.id, m.label, m.deviceFor nt, m.linuxDevice, m.windowsCom, m.usage, m.moduleType⟩)

/-! ## What the catalogue finds -/

variable {catalog} {nt ports device} {m : SerialPortMapping}

theorem find_eq_some (h : catalog.find device = some m) :
    m ∈ catalog.mappings ∧ normalise casing device ∈ m.aliases casing := by
  constructor
  · exact List.mem_reverse.mp (List.mem_of_find?_eq_some h)
  · simpa using List.find?_some h

theorem find_eq_none (h : catalog.find device = none) (hm : m ∈ catalog.mappings) :
    normalise casing device ∉ m.aliases casing := by
  simpa using List.find?_eq_none.mp h m (List.mem_reverse.mpr hm)

theorem deviceFor_ne_empty (hm : m ∈ catalog.mappings) : m.deviceFor nt ≠ "" := by
  have hplaced := catalog.placed m hm
  unfold SerialPortMapping.deviceFor
  split
  · split
    · assumption
    · next hcom => exact hplaced.resolve_right hcom
  · split
    · assumption
    · next hlinux => exact hplaced.resolve_left hlinux

theorem deviceFor_mem_aliases (hm : m ∈ catalog.mappings) :
    normalise casing (m.deviceFor nt) ∈ m.aliases casing := by
  refine List.mem_map_of_mem (List.mem_filter.mpr ⟨?_, by simpa using deviceFor_ne_empty hm⟩)
  unfold SerialPortMapping.deviceFor
  split_ifs <;> simp

/-- The device of a mapping belongs to the mapping. -/
theorem find_deviceFor (hm : m ∈ catalog.mappings) : catalog.find (m.deviceFor nt) = some m := by
  cases h : catalog.find (m.deviceFor nt) with
  | none => exact absurd (deviceFor_mem_aliases hm) (find_eq_none h hm)
  | some m' =>
      obtain ⟨hm', halias⟩ := find_eq_some h
      rw [catalog.separate m hm m' hm' _ (deviceFor_mem_aliases hm) halias]

theorem normalise_eq_empty {value : String} : normalise casing value = "" ↔ strip value = "" :=
  casing.lower_eq_empty

/-- What `_identity_for_port` returns: an unmapped port as it is, or the device of its mapping. -/
theorem identityForPort_eq_ok {port openPort : String} {identity : PortIdentity}
    (h : catalog.identityForPort nt ports port = .ok (openPort, identity)) :
    (catalog.find port = none ∧ openPort = port ∧ identity = { device := port }) ∨
      ∃ m, catalog.find port = some m ∧ openPort = m.deviceFor nt ∧ catalog.find openPort = some m ∧
        identity.mappingId = m.id := by
  unfold identityForPort at h
  split at h
  · next hfind =>
      obtain ⟨rfl, rfl⟩ := Prod.mk.inj (Except.ok.inj h)
      exact .inl ⟨hfind, rfl, rfl⟩
  · next m hfind =>
      split at h
      · cases h
      split at h
      · cases h
      obtain ⟨rfl, rfl⟩ := Prod.mk.inj (Except.ok.inj h)
      exact .inr ⟨m, hfind, rfl, find_deviceFor (find_eq_some hfind).1, rfl⟩

end SerialPortCatalog

end Catalog

end HplcWorkbench.ModuleSerial

namespace HplcWorkbench.ModuleSerial
open SerialResources OrderedDict Transitions

structure SerialConfig where
  baudrate : ℤ := 115200
  bytesize : ℤ := 8
  parity : String := "N"
  stopbits : ℤ := 1
  deriving DecidableEq, Repr

/-- `requested_config`. -/
def requestedConfig (casing : Casing) (config : SerialConfig) : SerialConfig :=
  { config with parity := casing.upper (if config.parity ≠ "" then config.parity else "N") }

inductive ChannelState
  | idle
  | running
  | error
  deriving DecidableEq, Repr

/-- `_SerialChannel`; `ser` is the port whose handle is open, and `rxThread` says that a receiving
thread was started and has not failed. -/
structure Channel where
  state : ChannelState := .idle
  ser : Option String := none
  port : String := ""
  config : SerialConfig := {}
  rxThread : Bool := false
  flashing : Bool := false
  deriving DecidableEq, Repr

/-- `_ModuleSession`. -/
structure ModuleSession where
  sessionId : String
  title : String
  moduleType : String
  channel : Channel := {}
  portIdentity : PortIdentity := {}
  portKey : String := ""
  deriving DecidableEq, Repr

/-- What opening a port comes to: it opens, `serial.Serial` raises, or something after it does, such as
the creation of the log file. -/
inductive Opening
  | opened
  | refused
  | broken
  deriving DecidableEq, Repr

/-- `_SerialChannel.start` of a channel that is not running, up to what raises. A handle that the channel
still has is dropped. -/
def Channel.start (c : Channel) (port : String) (config : SerialConfig) (opening : Opening) : Channel :=
  match opening with
  | .refused => c
  | .opened => { c with state := .running, ser := some port, port := port, config := config, rxThread := true }
  | .broken => { c with state := .running, ser := some port, port := port, config := config }

/-- `_SerialChannel.stop`. The thread is waited for, but one that is late can still fail. -/
def Channel.stop (c : Channel) : Channel := { c with state := .idle, ser := none }

/-- `_resource_owner_id`. -/
def resourceOwnerId (sessionId : String) : String := "module:" ++ sessionId

/-- `_resource_aliases`. -/
def resourceAliases (openPort : String) (identity : PortIdentity) : List String :=
  [openPort, identity.device, identity.windowsCom, identity.linuxDevice].filter (· ≠ "")

/-- How `_reserve_serial_resource` raises what `reserve` raises. -/
def reserveError (openPort : String) : ReserveError → ServiceError
  | .emptyOwner => .valueError "串口资源 owner_id 不能为空"
  | .noKeys => .valueError "串口资源至少需要映射 ID 或实际端口别名"
  | .holdsOther ownerId =>
    .runtimeError ("后端会话 " ++ ownerId ++ " 已持有其他串口资源，必须先释放后再切换")
  | .conflict existing => .runtimeError ("串口 " ++ openPort ++ " 已被后端会话“" ++ existing.ownerLabel ++
      "”占用（" ++ existing.ownerId ++ "）")

/-- `_reserve_serial_resource`. -/
def reserveResource (casing : Casing) (registry : Registry) (session : ModuleSession) (openPort : String)
    (identity : PortIdentity) : Except ReserveError SerialReservation × Registry :=
  onRegistry (reserve casing.toCasefold (resourceOwnerId session.sessionId)
    ("模块日志会话“" ++ session.title ++ "”") identity.mappingId (resourceAliases openPort identity)) registry

/-- `ModuleSerialService`. -/
structure Service where
  sessions : Dict String ModuleSession := Dict.empty
  portOwners : Dict String String := Dict.empty
  registry : Registry := {}
  nextDefaultTitle : ℕ := 1

section Methods
variable {casing : Casing} (catalog : SerialPortCatalog casing) (nt : Bool)

namespace Service
variable (w : Service)

/-- A session is replaced by one that was changed. -/
def update (session : ModuleSession) : Service :=
  { w with sessions := w.sessions.set session.sessionId session }

/-- An entry of the port table that names the session is removed. -/
def disown (portKey sessionId : String) : Service :=
  if w.portOwners.get? portKey = some sessionId then { w with portOwners := w.portOwners.erase portKey } else w

/-- `_release_serial_resource`. -/
def releaseResource (sessionId : String) : Service :=
  { w with registry := (onRegistry (release (resourceOwnerId sessionId)) w.registry).2 }

/-- Another session is entered in the port table under the key. -/
def Taken (portKey sessionId : String) : Prop :=
  (w.portOwners.get? portKey).getD "" ≠ "" ∧ (w.portOwners.get? portKey).getD "" ≠ sessionId

instance (portKey sessionId : String) : Decidable (w.Taken portKey sessionId) :=
  inferInstanceAs (Decidable (_ ∧ _))

/-- The session that `create_session` registers; `digits` are those of the new identifier. -/
def newSession (casing : Casing) (digits title moduleType : String) : ModuleSession where
  sessionId := "ms-" ++ digits
  title := if strip title ≠ "" then strip title else "实时日志 " ++ toString w.nextDefaultTitle
  moduleType := normalise casing moduleType

/-- `create_session`. -/
def create (casing : Casing) (digits title moduleType : String) :
    Except ServiceError ModuleSession × Service :=
  if normalise casing moduleType ∉ ["cco", "sta"] then (.error (.runtimeError "模块类型必须为 cco 或 sta"), w)
  else
    let session := w.newSession casing digits title moduleType
    (.ok session, { w.update session with
      nextDefaultTitle := if strip title ≠ "" then w.nextDefaultTitle else w.nextDefaultTitle + 1 })

/-- The `except` branch of `start_session`. -/
def rollBack (session : ModuleSession) (portKey : String) : Service :=
  ((w.disown portKey session.sessionId).releaseResource session.sessionId).update { session with portKey := "" }

/-- `start_session` once the port table names the session: the registry, then the port. -/
def acquire (session : ModuleSession) (openPort : String) (identity : PortIdentity) (config : SerialConfig)
    (opening : Opening) : Except ServiceError ModuleSession × Service :=
  let portKey := catalog.identityKey openPort
  match reserveResource casing w.registry session openPort identity with
  | (.error e, registry) =>
    (.error (reserveError openPort e), { w with registry := registry }.rollBack session portKey)
  | (.ok _, registry) =>
    let started := { session with
      portIdentity := identity, portKey := portKey, channel := session.channel.start openPort config opening }
    if opening = .opened then (.ok started, { w with registry := registry }.update started)
    else (.error .driver, { w with registry := registry }.rollBack started portKey)

/-- `start_session`. -/
def start (ports : List String) (sessionId port : String) (config : SerialConfig) (opening : Opening) :
    Except ServiceError ModuleSession × Service :=
  match w.sessions.get? sessionId with
  | none => (.error (.keyError sessionId), w)
  | some session =>
    match catalog.identityForPort nt ports port with
    | .error e => (.error e, w)
    | .ok (openPort, identity) =>
      let config := requestedConfig casing config
      if session.channel.state = .running then
        if catalog.identityKey session.channel.port = catalog.identityKey openPort ∧
            session.channel.config = config then (.ok session, w)
        else (.error (.runtimeError "会话正在运行，不能更换串口或串口参数"), w)
      else
        let portKey := catalog.identityKey openPort
        if w.Taken portKey sessionId then
          let ownerId := (w.portOwners.get? portKey).getD ""
          (.error (.runtimeError ("串口 " ++ openPort ++ " 已被会话“" ++
            ((w.sessions.get? ownerId).elim ownerId (·.title)) ++ "”占用（" ++ ownerId ++ "）")), w)
        else
          { w with portOwners := w.portOwners.set portKey sessionId }.acquire catalog session openPort identity
            config opening

/-- `stop_session`. -/
def stop (sessionId : String) : Except ServiceError ModuleSession × Service :=
  match w.sessions.get? sessionId with
  | none => (.error (.keyError sessionId), w)
  | some session =>
    if session.channel.flashing then
      (.error (.runtimeError ("[" ++ session.moduleType ++ "] 烧录进行中，不能停止串口")), w)
    else
      let stopped := { session with channel := session.channel.stop, portKey := "" }
      let w := if session.portKey ≠ "" then w.disown session.portKey sessionId else w
      (.ok stopped, (w.update stopped).releaseResource sessionId)

/-- `delete_session`. The channel is dropped with its session. -/
def delete (sessionId : String) : Except ServiceError Unit × Service :=
  match w.sessions.get? sessionId with
  | none => (.error (.keyError sessionId), w)
  | some session =>
    if session.channel.state = .running ∨ session.channel.flashing then
      (.error (.runtimeError "会话运行中，必须先停止后删除"), w)
    else
      let w := { w with sessions := w.sessions.erase sessionId }
      let w := if session.portKey ≠ "" then w.disown session.portKey sessionId else w
      (.ok (), w.releaseResource sessionId)

end Service

/-! ## Runs -/

/-- A call on the service, a failure of a receiving thread, or the begin or the end of a flashing. -/
inductive Event
  | create (digits title moduleType : String)
  | start (ports : List String) (sessionId port : String) (config : SerialConfig) (opening : Opening)
  | stop (sessionId : String)
  | delete (sessionId : String)
  | rxFails (sessionId : String)
  | flash (sessionId : String)
  | flashEnds (sessionId : String)
  deriving DecidableEq, Repr

/-- What `uuid4().hex` is made of. -/
def IsHex (digits : String) : Prop := ∀ c ∈ digits.toList, c ∈ "0123456789abcdef".toList

instance (digits : String) : Decidable (IsHex digits) := List.decidableBAll _ _

/-- The channel of a session is changed, where it allows it. -/
def Service.onChannel (w : Service) (sessionId : String) (allowed : Channel → Bool) (f : Channel → Channel) :
    Option Service :=
  match w.sessions.get? sessionId with
  | none => none
  | some session =>
    if allowed session.channel then some (w.update { session with channel := f session.channel }) else none

/-- The service; an identifier is new when it is made. -/
def machine : Machine Service Event where
  step w
    | .create digits title moduleType =>
      if IsHex digits ∧ w.sessions.get? ("ms-" ++ digits) = none then
        some (w.create casing digits title moduleType).2
      else none
    | .start ports sessionId port config opening =>
      some (w.start catalog nt ports sessionId port config opening).2
    | .stop sessionId => some (w.stop sessionId).2
    | .delete sessionId => some (w.delete sessionId).2
    | .rxFails sessionId =>
      w.onChannel sessionId (·.rxThread) ({ · with state := .error, rxThread := false })
    | .flash sessionId =>
      w.onChannel sessionId (fun c => c.state = .running ∧ c.flashing = false) ({ · with flashing := true })
    | .flashEnds sessionId => w.onChannel sessionId (·.flashing) ({ · with flashing := false })

end Methods

end HplcWorkbench.ModuleSerial
