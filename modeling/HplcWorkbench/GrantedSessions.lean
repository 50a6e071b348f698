import HplcWorkbench.AddressMatch
import HplcWorkbench.ModuleSessions

/-!
# Module sessions on behalf of a grant

A grant names the resources its holder may use. Both endpoints make a resource out of the session or the
mapping that a request names and let the grant decide on it; which port is opened is then decided by the
control service from the same request, and from a port it may name.
-/

namespace HplcWorkbench.ModuleSerial
open SerialResources OrderedDict

/-- A stored grant; `create_grant` strips the resources and leaves out blank ones. -/
structure Grant where
  grantId : String
  scopes : List String
  resources : List String
  expiresAt : ℤ
  revokedAt : Option String := none
  stripped : ∀ r ∈ resources, strip r = r ∧ r ≠ ""

/-- The exceptions of `authenticate`. -/
inductive AuthorizationError
  | invalid
  | revoked
  | expired
  | missingScope (scope : String)
  | outside (resource : String)
  deriving DecidableEq, Repr

def AuthorizationError.message : AuthorizationError → String
  | .invalid => "Bearer token 无效"
  | .revoked => "授权已撤销"
  | .expired => "授权已过期"
  | .missingScope scope => "缺少授权范围：" ++ scope
  | .outside resource => "资源不在授权范围内：" ++ resource

/-- `authenticate`, where `grant` is the one whose digest is that of the token. -/
def authenticate (grant : Option Grant) (now : ℤ) (scope resource : Option String) :
    Except AuthorizationError Grant :=
  match grant with
  | none => .error .invalid
  | some grant =>
    if grant.revokedAt ≠ none then .error .revoked
    else if grant.expiresAt ≤ now then .error .expired
    else match scope.filter (fun s => s ≠ "" ∧ s ∉ grant.scopes) with
      | some scope => .error (.missingScope scope)
      | none =>
        match resource.filter (fun r => r ≠ "" ∧ "*" ∉ grant.resources ∧ r ∉ grant.resources) with
        | some resource => .error (.outside resource)
        | none => .ok grant

/-- `HTTPException`; the text of an exception from outside is left out. -/
structure HttpError where
  status : ℕ
  detail : Option String
  deriving DecidableEq, Repr

/-- How both routers report an `AuthorizationError`. -/
def AuthorizationError.http (e : AuthorizationError) : HttpError :=
  ⟨if ["无效", "过期", "撤销"].any (Batch.inText · e.message) then 401 else 403, some e.message⟩

/-- A request for a module session, with `str(value or "")` of its entries. `serial` are the numbers and
the parity that `int` and `str` make of its settings, if they do not raise. -/
structure EnsureRequest where
  sessionId : String := ""
  mappingId : String := ""
  port : String := ""
  moduleType : String := ""
  title : String := ""
  serial : PyM SerialConfig := .ok {}
  text : Option String := none
  dataHex : Option String := none

/-- The exceptions of `ensure_module_session`. -/
inductive EnsureError
  | service (e : ServiceError)
  | sourceUnavailable (message : String)
  | serial (e : PyErr)

/-- What the surroundings decide during a call: the system ports, the digits of a new identifier, and what
opening a port comes to. -/
structure Surroundings where
  ports : List String
  digits : String
  opening : Opening
  deriving DecidableEq, Repr

section Control
variable {casing : Casing} (catalog : SerialPortCatalog casing) (nt : Bool)

/-- `_norm` of `_same_serial_port`. -/
def portName (casing : Casing) (value : String) : String :=
  let text := (strip value).toList
  casing.fold (String.ofList (if ['\\', '\\', '.', '\\'] <+: text then text.drop 4 else text))

/-- `_same_serial_port`. -/
def sameSerialPort (casing : Casing) (left right : String) : Bool :=
  portName casing left ≠ "" ∧ portName casing left = portName casing right

/-- `_port_for_mapping`. -/
def portForMapping (ports : List String) (mappingId : String) : String :=
  if mappingId = "" then ""
  else ((catalog.mergeSystemPorts nt ports).find? (fun d => d.mappingId = mappingId ∧ d.online)).elim ""
    (·.device)

/-- The port that a request asks for. -/
def requestedPort (ports : List String) (q : EnsureRequest) : String :=
  strip (if q.port ≠ "" then q.port else portForMapping catalog nt ports (strip q.mappingId))

namespace Service
variable (w : Service)

/-- `list_sessions`. -/
def list : List ModuleSession := w.sessions.entries.map Prod.snd

/-- `session_resource`. -/
def sessionResource (sessionId : String) : Except ServiceError String :=
  match w.sessions.get? sessionId with
  | none => .error (.keyError sessionId)
  | some session =>
    .ok (if session.portIdentity.mappingId ≠ "" then session.portIdentity.mappingId else sessionId)

/-- The session that is used for the port: one of the module type that was on it, or a new one. -/
def sessionForPort (env : Surroundings) (q : EnsureRequest) :
    Except ServiceError (Bool × ModuleSession) × Service :=
  let moduleType := normalise casing (if q.moduleType ≠ "" then q.moduleType else "cco")
  let port := requestedPort catalog nt env.ports q
  match w.list.find? (fun s => port ≠ "" ∧ normalise casing s.moduleType = moduleType ∧
      sameSerialPort casing s.channel.port port) with
  | some session => (.ok (true, session), w)
  | none =>
    match w.create casing env.digits q.title moduleType with
    | (.error e, w) => (.error e, w)
    | (.ok created, w) => (.ok (false, created), w)

/-- The end of `ensure_module_session`: the session for the port is started on it. -/
def ensureOnPort (env : Surroundings) (q : EnsureRequest) :
    Except EnsureError (Bool × ModuleSession) × Service :=
  let port := requestedPort catalog nt env.ports q
  match w.sessionForPort catalog nt env q with
  | (.error e, w) => (.error (.service e), w)
  | (.ok (reused, session), w) =>
    if port = "" then
      (.error (.sourceUnavailable "无法解析串口映射；请提供已授权的映射 ID 或实际端口"), w)
    else
      match q.serial with
      | .error e => (.error (.serial e), w)
      | .ok config =>
        match w.start catalog nt env.ports session.sessionId port config env.opening with
        | (.error e, w) => (.error (.service e), w)
        | (.ok started, w) => (.ok (reused, started), w)

/-- `AIControlService.ensure_module_session`. -/
def ensure (env : Surroundings) (q : EnsureRequest) : Except EnsureError (Bool × ModuleSession) × Service :=
  let mappingId := strip q.mappingId
  let sessionId := strip q.sessionId
  if sessionId ≠ "" then
    match w.list.find? (·.sessionId = sessionId) with
    | some session => (.ok (true, session), w)
    | none => (.error (.service (.keyError sessionId)), w)
  else
    match w.list.find? (fun s => mappingId ≠ "" ∧ s.portIdentity.mappingId = mappingId) with
    | some session => (.ok (true, session), w)
    | none => w.ensureOnPort catalog nt env q

end Service

/-! ## The endpoints -/

/-- The resource of a request, as both endpoints make it out. -/
def requestResource (w : Service) (q : EnsureRequest) : String :=
  if q.sessionId ≠ "" then
    match w.sessionResource q.sessionId with
    | .ok resource => resource
    | .error _ => q.sessionId
  else q.mappingId

/-- How an endpoint of the first version reports an exception. -/
def ensureErrorV1 : EnsureError → HttpError
  | .service (.keyError sessionId) => ⟨404, some ("会话不存在：" ++ sessionId)⟩
  | .service (.valueError message) => ⟨409, some message⟩
  | .service (.runtimeError message) => ⟨409, some message⟩
  | .service .driver => ⟨409, none⟩
  | .sourceUnavailable message => ⟨503, some message⟩
  | .serial (.valueError message) => ⟨409, some message⟩
  | .serial (.typeError message) => ⟨409, some message⟩
  | .serial _ => ⟨409, none⟩

/-- How an endpoint of the second version does. -/
def ensureErrorV2 : EnsureError → HttpError
  | .service (.keyError _) => ⟨404, some "模块会话不存在"⟩
  | .service (.valueError message) => ⟨422, some message⟩
  | .service _ => ⟨500, none⟩
  | .sourceUnavailable message => ⟨503, some message⟩
  | .serial (.valueError message) => ⟨422, some message⟩
  | .serial _ => ⟨500, none⟩

/-- `POST /api/ai/v1/module-sessions/ensure` with the grant of its token, if it has one. -/
def ensureV1 (grant : Option (Option Grant)) (now : ℤ) (w : Service) (env : Surroundings) (q : EnsureRequest) :
    Except HttpError (Bool × ModuleSession) × Service :=
  match grant with
  | none => (.error ⟨401, some "缺少 Bearer token"⟩, w)
  | some grant =>
    match authenticate grant now (some "module_session:ensure") (some (requestResource w q)) with
    | .error e => (.error e.http, w)
    | .ok _ =>
      match w.ensure catalog nt env q with
      | (.error e, w) => (.error (ensureErrorV1 e), w)
      | (.ok reply, w) => (.ok reply, w)

/-- `_v2_grant` for `module_actions.ensure`. -/
def v2Grant (grant : Option (Option Grant)) (now : ℤ) (resource : String) : Except HttpError Grant :=
  match grant with
  | none => .error ⟨401, some "缺少 Bearer token"⟩
  | some grant =>
    match authenticate grant now none none with
    | .error e => .error e.http
    | .ok grant =>
      if "module_session:ensure" ∉ grant.scopes then
        .error ⟨403, some "缺少 v2 能力范围：module_actions.ensure"⟩
      else if "*" ∉ grant.resources ∧ resource ≠ "" ∧ resource ∉ grant.resources then
        .error ⟨403, some ("资源不在授权范围内：" ++ resource)⟩
      else .ok grant

/-- What creating the job of a request comes to: a new job, or the one that the same request made before. -/
inductive JobOutcome
  | created
  | replayed
  | refused (e : HttpError)
  deriving DecidableEq, Repr

/-- `POST /api/ai/v2/module-actions` with the action `ensure`, from outside the machine. A request whose
job was made before gets its envelope and reaches no session. -/
def ensureV2 (grant : Option (Option Grant)) (now : ℤ) (job : JobOutcome) (w : Service) (env : Surroundings)
    (q : EnsureRequest) : Except HttpError (Option (Bool × ModuleSession)) × Service :=
  let resource := requestResource w q
  match v2Grant grant now resource with
  | .error e => (.error e, w)
  | .ok _ =>
    if resource = "" then (.error ⟨403, some "局域网写操作必须提供已授权的逻辑资源"⟩, w)
    else if q.text ≠ none ∨ q.dataHex ≠ none then (.error ⟨422, some "ensure、stop 不接受发送数据"⟩, w)
    else match job with
      | .refused e => (.error e, w)
      | .replayed => (.ok none, w)
      | .created =>
        match w.ensure catalog nt env q with
        | (.error e, w) => (.error (ensureErrorV2 e), w)
        | (.ok reply, w) => (.ok (some reply), w)

end Control

end HplcWorkbench.ModuleSerial
