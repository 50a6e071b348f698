import HplcWorkbench.GrantedSessions
import HplcWorkbench.PortRuns

/-!
# Which sessions a grant reaches

A grant decides on the mapping of the session that a request names, or on the mapping that it names. The
session that comes back is on another line where the named session has no mapping and its own identifier is
granted, or where no session has the mapping yet and the request gives a port of its own.
-/

namespace HplcWorkbench.ModuleSerial
open SerialResources OrderedDict Transitions

section Confinement
variable {casing : Casing} (catalog : SerialPortCatalog casing) (nt : Bool)

/-- The mapping of a port, empty where it has none. -/
def mappingOf (port : String) : String := (catalog.find port).elim "" (·.id)

/-- The mapping of the line on which a session is after a start on `port`: a session that runs stays where
it is. -/
def mappingAfter (s : ModuleSession) (port : String) : String :=
  if s.channel.state = .running then s.portIdentity.mappingId else mappingOf catalog port

/-- The surroundings where opening a port comes to something else. -/
def Surroundings.withOpening (env : Surroundings) (opening : Opening) : Surroundings :=
  { env with opening := opening }

/-- Every session that the request brings back, whatever opening a port comes to, is within the
resources. -/
def Confined (w : Service) (env : Surroundings) (q : EnsureRequest) (resources : List String) : Prop :=
  ∀ opening reused s, (w.ensure catalog nt (env.withOpening opening) q).1 = .ok (reused, s) →
    s.portIdentity.mappingId ∈ resources

/-- The service has a session for the port of the request, and starts it should the port open. -/
def Placed (w : Service) (env : Surroundings) (q : EnsureRequest) (s : ModuleSession) : Prop :=
  ∃ reused w' config started, w.sessionForPort catalog nt env q = (.ok (reused, s), w') ∧ q.serial = .ok config ∧
    requestedPort catalog nt env.ports q ≠ "" ∧
    (w'.start catalog nt env.ports s.sessionId (requestedPort catalog nt env.ports q) config .opened).1 =
      .ok started

/-- A request stays within the resources. -/
structure Confining (w : Service) (env : Surroundings) (q : EnsureRequest) (resources : List String) : Prop where
  /-- A session that is named has a mapping. -/
  named : q.sessionId ≠ "" → ∀ s, w.sessions.get? q.sessionId = some s → s.portIdentity.mappingId ≠ ""
  /-- The port is on a granted mapping if no session is named and none has the mapping of the request. -/
  placed : q.sessionId = "" → (∀ s ∈ w.list, q.mappingId ≠ "" → s.portIdentity.mappingId ≠ q.mappingId) →
    ∀ s, Placed catalog nt w env q s → mappingAfter catalog s (requestedPort catalog nt env.ports q) ∈ resources

/-- The grant is valid for the call and covers the resource, or the request has none. -/
def AllowedV1 (grant : Grant) (now : ℤ) (w : Service) (q : EnsureRequest) : Prop :=
  grant.revokedAt = none ∧ now < grant.expiresAt ∧ "module_session:ensure" ∈ grant.scopes ∧
    (requestResource w q = "" ∨ requestResource w q ∈ grant.resources)

/-- In the second version the request has a resource, and it brings no data to send. -/
def AllowedV2 (grant : Grant) (now : ℤ) (w : Service) (q : EnsureRequest) : Prop :=
  grant.revokedAt = none ∧ now < grant.expiresAt ∧ "module_session:ensure" ∈ grant.scopes ∧
    requestResource w q ∈ grant.resources ∧ q.text = none ∧ q.dataHex = none

/-- The keys of the sessions are their identifiers, which have no spaces around them. -/
def Filed (w : Service) : Prop :=
  ∀ a s, w.sessions.get? a = some s → s.sessionId = a ∧ strip a = a ∧ a ≠ ""

variable {catalog nt} {w w' : Service}

/-! ## The identifiers of the sessions -/

theorem Filed.congr (h : Filed w) (hsessions : w'.sessions = w.sessions) : Filed w' := by
  unfold Filed
  rw [hsessions]
  exact h

theorem Filed.update (h : Filed w) {s : ModuleSession} (hsessions : w'.sessions = w.sessions)
    (hstrip : strip s.sessionId = s.sessionId) (hnamed : s.sessionId ≠ "") : Filed (w'.update s) := by
  intro a t ht
  change (w'.sessions.set s.sessionId s).get? a = some t at ht
  by_cases ha : a = s.sessionId
  · rw [ha, Dict.get?_set_self] at ht
    obtain rfl := Option.some.inj ht
    exact ⟨ha.symm, ha ▸ hstrip, ha ▸ hnamed⟩
  · rw [Dict.get?_set_of_ne _ _ _ _ ha, hsessions] at ht
    exact h a t ht

theorem Filed.rollBack (h : Filed w) {s : ModuleSession} {k : String} (hsessions : w'.sessions = w.sessions)
    (hstrip : strip s.sessionId = s.sessionId) (hnamed : s.sessionId ≠ "") : Filed (w'.rollBack s k) := by
  refine Filed.update h ?_ hstrip hnamed
  exact (disown_sessions k s.sessionId).trans hsessions

theorem Filed.start (h : Filed w) (ports : List String) (a port : String) (config : SerialConfig)
    (opening : Opening) : Filed (w.start catalog nt ports a port config opening).2 := by
  by_cases hreaches : ∃ session openPort identity, Reaches catalog nt w ports a port session openPort identity
  case neg =>
    rw [start_of_not_reaches fun session openPort identity hr => hreaches ⟨session, openPort, identity, hr⟩]
    exact h
  obtain ⟨session, openPort, identity, hr⟩ := hreaches
  obtain ⟨hid, hstrip, hnamed⟩ := h a session hr.found
  subst hid
  rw [start_of_reaches hr config opening]
  generalize hreserve : reserveResource casing w.registry session openPort identity = granted
  obtain ⟨result, registry⟩ := granted
  cases result with
  | error e =>
      rw [acquire_of_error hreserve]
      exact h.rollBack rfl hstrip hnamed
  | ok r =>
      rw [acquire_of_ok hreserve]
      split
      · exact Filed.update h rfl hstrip hnamed
      · exact h.rollBack rfl hstrip hnamed

theorem Filed.step (h : Filed w) {e : Event} (hs : (machine catalog nt).step w e = some w') : Filed w' := by
  have hchannel : ∀ {a : String} {allowed : Channel → Bool} {f : Channel → Channel},
      w.onChannel a allowed f = some w' → Filed w' := by
    intro a allowed f hw
    unfold Service.onChannel at hw
    split at hw
    · cases hw
    · next session hfound =>
        obtain ⟨hid, hstrip, hnamed⟩ := h a session hfound
        subst hid
        split at hw
        · obtain rfl := Option.some.inj hw
          exact h.update rfl hstrip hnamed
        · cases hw
  cases e with
  | create digits title moduleType =>
      simp only [machine] at hs
      split at hs
      · next hnew =>
          obtain rfl := Option.some.inj hs
          unfold Service.create
          split
          · exact h
          · have hid : (w.newSession casing digits title moduleType).sessionId = "ms-" ++ digits := rfl
            have hadded : Filed (w.update (w.newSession casing digits title moduleType)) := by
              refine Filed.update h rfl ?_ ?_ <;> rw [hid]
              · exact strip_eq_self hnew.1.no_space
              · exact sessionId_ne_empty digits
            exact hadded.congr rfl
      · cases hs
  | start ports a port config opening =>
      obtain rfl := Option.some.inj hs
      exact h.start ports a port config opening
  | stop a =>
      obtain rfl := Option.some.inj hs
      unfold Service.stop
      split
      · exact h
      · next session hfound =>
          split
          · exact h
          · obtain ⟨hid, hstrip, hnamed⟩ := h a session hfound
            subst hid
            exact Filed.update h (disowned_sessions _ _) hstrip hnamed
  | delete a =>
      obtain rfl := Option.some.inj hs
      unfold Service.delete
      split
      · exact h
      · split
        · exact h
        · intro b t ht
          refine h b t ?_
          unfold Service.releaseResource at ht
          dsimp only at ht
          rw [disowned_sessions] at ht
          by_cases hb : b = a
          · rw [hb, Dict.get?_erase_self] at ht
            cases ht
          · rwa [Dict.get?_erase_of_ne _ _ _ hb] at ht
  | rxFails a =>
      dsimp only [machine] at hs
      exact hchannel hs
  | flash a =>
      dsimp only [machine] at hs
      exact hchannel hs
  | flashEnds a =>
      dsimp only [machine] at hs
      exact hchannel hs

theorem filed_of_reachable (h : (machine catalog nt).Reachable {} w) : Filed w := by
  refine Machine.Reach.invariant h (fun a s hs => ?_) fun w e w' _ hw _ hs => hw.step hs
  cases hs

/-! ## The control service -/

/-- Looking for an identifier in the list of the sessions finds the session it is the key of. -/
theorem Filed.find?_list (h : Filed w) (a : String) :
    w.list.find? (·.sessionId = a) = w.sessions.get? a := by
  unfold Service.list Dict.get?
  rw [List.find?_map, ← List.head?_filter, ← List.head?_filter]
  have hsame : w.sessions.entries.filter ((fun s : ModuleSession => decide (s.sessionId = a)) ∘ Prod.snd) =
      w.sessions.entries.filter (fun e => decide (e.1 = a)) := by
    refine List.filter_congr fun e he => ?_
    have hid := (h e.1 e.2 ((w.sessions.get?_eq_some_iff e.1 e.2).mpr he)).1
    rw [Function.comp_apply, hid]
  rw [hsame]

theorem mem_list {s : ModuleSession} (hs : s ∈ w.list) : ∃ a, w.sessions.get? a = some s := by
  obtain ⟨e, he, rfl⟩ := List.mem_map.mp hs
  exact ⟨e.1, (w.sessions.get?_eq_some_iff e.1 e.2).mpr he⟩

theorem identity_mapping {ports : List String} {port openPort : String} {identity : PortIdentity}
    (h : catalog.identityForPort nt ports port = .ok (openPort, identity)) :
    identity.mappingId = mappingOf catalog port := by
  unfold mappingOf
  obtain ⟨hfind, -, rfl⟩ | ⟨m, hfind, -, -, hid⟩ := SerialPortCatalog.identityForPort_eq_ok h
  · rw [hfind]
    rfl
  · rw [hfind, hid]
    rfl

/-- A start that succeeds puts the session on the line of the port, and it succeeds when the port opens. -/
theorem start_ok {ports : List String} {a port : String} {config : SerialConfig} {opening : Opening}
    {s started : ModuleSession} (hs : w.sessions.get? a = some s)
    (h : (w.start catalog nt ports a port config opening).1 = .ok started) :
    started.portIdentity.mappingId = mappingAfter catalog s port ∧
      ∃ started', (w.start catalog nt ports a port config .opened).1 = .ok started' := by
  unfold Service.start at h ⊢
  rw [hs] at h ⊢
  dsimp only at h ⊢
  cases hidentity : catalog.identityForPort nt ports port with
  | error e =>
      rw [hidentity] at h
      cases h
  | ok found =>
      obtain ⟨openPort, identity⟩ := found
      rw [hidentity] at h
      dsimp only at h ⊢
      unfold mappingAfter
      by_cases hrunning : s.channel.state = .running
      · rw [if_pos hrunning] at h ⊢
        refine ⟨?_, started, ?_⟩
        · split at h
          · obtain rfl := Except.ok.inj h
            rfl
          · cases h
        · rw [if_pos hrunning]
          exact h
      rw [if_neg hrunning] at h ⊢
      by_cases htaken : w.Taken (catalog.identityKey openPort) a
      · rw [if_pos htaken] at h
        cases h
      rw [if_neg hrunning, if_neg htaken]
      rw [if_neg htaken] at h
      unfold Service.acquire at h ⊢
      dsimp only at h ⊢
      generalize reserveResource casing w.registry s openPort identity = granted at h ⊢
      obtain ⟨result, registry⟩ := granted
      cases result with
      | error e => cases h
      | ok r =>
          dsimp only at h ⊢
          by_cases hopened : opening = .opened
          · rw [if_pos hopened] at h
            obtain rfl := Except.ok.inj h
            refine ⟨identity_mapping hidentity, ?_⟩
            rw [if_pos rfl]
            exact ⟨_, rfl⟩
          · rw [if_neg hopened] at h
            cases h

theorem create_ok {digits title moduleType : String} {created : ModuleSession}
    (h : w.create casing digits title moduleType = (.ok created, w')) :
    w'.sessions.get? created.sessionId = some created := by
  unfold Service.create at h
  split at h
  · cases h
  · obtain ⟨hok, rfl⟩ := Prod.mk.inj h
    obtain rfl := Except.ok.inj hok
    exact Dict.get?_set_self _ _ _

/-- The session for a port is one of the service afterwards. -/
theorem Filed.sessionForPort (h : Filed w) {env : Surroundings} {q : EnsureRequest} {reused : Bool}
    {s : ModuleSession} (hs : w.sessionForPort catalog nt env q = (.ok (reused, s), w')) :
    w'.sessions.get? s.sessionId = some s := by
  unfold Service.sessionForPort at hs
  generalize normalise casing (if q.moduleType ≠ "" then q.moduleType else "cco") = moduleType at hs
  dsimp only at hs
  split at hs
  · next found hfound =>
      obtain ⟨hok, rfl⟩ := Prod.mk.inj hs
      obtain ⟨-, rfl⟩ := Prod.mk.inj (Except.ok.inj hok)
      obtain ⟨a, ha⟩ := mem_list (List.mem_of_find?_eq_some hfound)
      rw [(h a _ ha).1, ha]
  · split at hs
    · cases hs
    · next hcreated =>
        obtain ⟨hok, rfl⟩ := Prod.mk.inj hs
        obtain ⟨-, rfl⟩ := Prod.mk.inj (Except.ok.inj hok)
        exact create_ok hcreated

/-! ## What the control service returns -/

section Ensure
variable {env : Surroundings} {q : EnsureRequest} {resources : List String}

/-- The sessions that come back on a port are those the service has for it. -/
theorem ensureOnPort_iff (h : Filed w) {P : String → Prop} :
    (∀ opening reused s, (w.ensureOnPort catalog nt (env.withOpening opening) q).1 = .ok (reused, s) →
      P s.portIdentity.mappingId) ↔
      ∀ found, Placed catalog nt w env q found →
        P (mappingAfter catalog found (requestedPort catalog nt env.ports q)) := by
  have hsession : ∀ opening, w.sessionForPort catalog nt (env.withOpening opening) q =
      w.sessionForPort catalog nt env q := fun _ => rfl
  have hport : ∀ opening, requestedPort catalog nt (env.withOpening opening).ports q =
      requestedPort catalog nt env.ports q := fun _ => rfl
  constructor
  · rintro hall found ⟨reused, w', config, started, hfor, hserial, hne, hstart⟩
    have hmapping := (start_ok (h.sessionForPort hfor) hstart).1
    rw [← hmapping]
    refine hall .opened reused started ?_
    unfold Service.ensureOnPort
    rw [hsession, hfor, hport]
    dsimp only
    rw [if_neg hne, hserial]
    dsimp only [Surroundings.withOpening]
    generalize w'.start catalog nt env.ports found.sessionId (requestedPort catalog nt env.ports q) config
      .opened = result at hstart
    obtain ⟨result, w''⟩ := result
    obtain rfl := hstart
    rfl
  · intro hall opening reused s hs
    unfold Service.ensureOnPort at hs
    rw [hsession, hport] at hs
    generalize hfor : w.sessionForPort catalog nt env q = result at hs
    obtain ⟨result, w'⟩ := result
    cases result with
    | error e => cases hs
    | ok chosen =>
        obtain ⟨reused', found⟩ := chosen
        dsimp only at hs
        by_cases hne : requestedPort catalog nt env.ports q = ""
        · rw [if_pos hne] at hs
          cases hs
        rw [if_neg hne] at hs
        cases hserial : q.serial with
        | error e =>
            rw [hserial] at hs
            cases hs
        | ok config =>
            rw [hserial] at hs
            dsimp only [Surroundings.withOpening] at hs
            generalize hstart : w'.start catalog nt env.ports found.sessionId
              (requestedPort catalog nt env.ports q) config opening = result at hs
            obtain ⟨result, w''⟩ := result
            cases result with
            | error e => cases hs
            | ok started =>
                obtain ⟨-, rfl⟩ := Prod.mk.inj (Except.ok.inj hs)
                obtain ⟨hmapping, started', hopened⟩ :=
                  start_ok (h.sessionForPort hfor) (congrArg Prod.fst hstart)
                rw [hmapping]
                exact hall found ⟨reused', w', config, started', hfor, hserial, hne, hopened⟩

/-- A session that is named comes back as it is. -/
theorem ensure_named (h : Filed w) (hnamed : q.sessionId ≠ "") (hstrip : strip q.sessionId = q.sessionId)
    (env : Surroundings) :
    w.ensure catalog nt env q = match w.sessions.get? q.sessionId with
      | some s => (.ok (true, s), w)
      | none => (.error (.service (.keyError q.sessionId)), w) := by
  unfold Service.ensure
  dsimp only
  rw [hstrip, if_pos hnamed]
  cases hget : w.sessions.get? q.sessionId <;> simp only [h.find?_list, hget]

/-- Otherwise the first session with the mapping does, or the port decides. -/
theorem ensure_unnamed (hnamed : q.sessionId = "") (hstrip : strip q.mappingId = q.mappingId)
    (env : Surroundings) :
    w.ensure catalog nt env q =
      match w.list.find? (fun s => q.mappingId ≠ "" ∧ s.portIdentity.mappingId = q.mappingId) with
      | some s => (.ok (true, s), w)
      | none => w.ensureOnPort catalog nt env q := by
  have hblank : strip q.sessionId = "" := by
    rw [hnamed]
    rfl
  unfold Service.ensure
  dsimp only
  rw [hblank, hstrip]
  cases w.list.find? (fun s => q.mappingId ≠ "" ∧ s.portIdentity.mappingId = q.mappingId) <;>
    simp only [if_neg (not_not.mpr rfl)]

theorem requestResource_named {s : ModuleSession} (hnamed : q.sessionId ≠ "")
    (hs : w.sessions.get? q.sessionId = some s) :
    requestResource w q =
      if s.portIdentity.mappingId ≠ "" then s.portIdentity.mappingId else q.sessionId := by
  unfold requestResource Service.sessionResource
  rw [if_pos hnamed, hs]

theorem requestResource_missing (hnamed : q.sessionId ≠ "") (hs : w.sessions.get? q.sessionId = none) :
    requestResource w q = q.sessionId := by
  unfold requestResource Service.sessionResource
  rw [if_pos hnamed, hs]

theorem requestResource_unnamed (hnamed : q.sessionId = "") : requestResource w q = q.mappingId := by
  unfold requestResource
  rw [if_neg (not_not.mpr hnamed)]

variable {grant : Grant}

/-- A session is named: its mapping is what the grant decides on, or its identifier if it has none. -/
theorem confined_named (h : Filed w) (hnamed : q.sessionId ≠ "")
    (hresource : requestResource w q = "" ∨ requestResource w q ∈ grant.resources) :
    Confined catalog nt w env q grant.resources ↔
      Confining catalog nt w env q grant.resources := by
  have hvacuous : (∀ s, w.sessions.get? q.sessionId = some s → s.portIdentity.mappingId ≠ "") →
      Confining catalog nt w env q grant.resources :=
    fun hmapped => ⟨fun _ => hmapped, fun hunnamed => absurd hunnamed hnamed⟩
  cases hs : w.sessions.get? q.sessionId with
  | none =>
      rw [requestResource_missing hnamed hs] at hresource
      have hstrip := (grant.stripped _ (hresource.resolve_left hnamed)).1
      refine iff_of_true (fun opening reused s hok => ?_) (hvacuous fun s hsome => ?_)
      · rw [ensure_named h hnamed hstrip, hs] at hok
        cases hok
      · cases hs.symm.trans hsome
  | some s =>
      have hstrip := (h q.sessionId s hs).2.1
      rw [requestResource_named hnamed hs] at hresource
      have hreturned : Confined catalog nt w env q grant.resources ↔
          s.portIdentity.mappingId ∈ grant.resources := by
        constructor
        · intro hall
          refine hall .opened true s ?_
          rw [ensure_named h hnamed hstrip, hs]
        · intro hmem opening reused s' hok
          rw [ensure_named h hnamed hstrip, hs] at hok
          obtain ⟨-, rfl⟩ := Prod.mk.inj (Except.ok.inj hok)
          exact hmem
      rw [hreturned]
      by_cases hmapped : s.portIdentity.mappingId = ""
      · refine iff_of_false (fun hmem => (grant.stripped _ hmem).2 hmapped) fun hconfining => ?_
        exact hconfining.named hnamed s hs hmapped
      · rw [if_pos hmapped] at hresource
        refine iff_of_true (hresource.resolve_left hmapped) (hvacuous fun s' hs' => ?_)
        obtain rfl := Option.some.inj (hs.symm.trans hs')
        exact hmapped

/-- No session is named: the mapping of the request is granted, and the port decides if no session has
it. -/
theorem confined_unnamed (h : Filed w) (hnamed : q.sessionId = "")
    (hresource : requestResource w q = "" ∨ requestResource w q ∈ grant.resources) :
    Confined catalog nt w env q grant.resources ↔
      Confining catalog nt w env q grant.resources := by
  rw [requestResource_unnamed hnamed] at hresource
  have hstrip : strip q.mappingId = q.mappingId := by
    obtain hblank | hmem := hresource
    · rw [hblank]
      rfl
    · exact (grant.stripped _ hmem).1
  cases hfind : w.list.find? (fun s => q.mappingId ≠ "" ∧ s.portIdentity.mappingId = q.mappingId) with
  | some s =>
      have hs : q.mappingId ≠ "" ∧ s.portIdentity.mappingId = q.mappingId := by
        simpa using List.find?_some hfind
      refine iff_of_true (fun opening reused s' hok => ?_) ⟨fun hne => absurd hnamed hne, fun _ hapart => ?_⟩
      · rw [ensure_unnamed hnamed hstrip, hfind] at hok
        obtain ⟨-, rfl⟩ := Prod.mk.inj (Except.ok.inj hok)
        rw [hs.2]
        exact hresource.resolve_left hs.1
      · exact absurd hs.2 (hapart s (List.mem_of_find?_eq_some hfind) hs.1)
  | none =>
      have hapart : ∀ s ∈ w.list, q.mappingId ≠ "" → s.portIdentity.mappingId ≠ q.mappingId := by
        intro s hs hne heq
        have hnot := List.find?_eq_none.mp hfind s hs
        exact hnot (decide_eq_true ⟨hne, heq⟩)
      have hport := @ensureOnPort_iff _ catalog nt w env q h (· ∈ grant.resources)
      constructor
      · intro hall
        refine ⟨fun hne => absurd hnamed hne, fun _ _ => hport.mp fun opening reused s hok => ?_⟩
        refine hall opening reused s ?_
        rw [ensure_unnamed hnamed hstrip, hfind]
        exact hok
      · intro hconfining opening reused s hok
        rw [ensure_unnamed hnamed hstrip, hfind] at hok
        exact hport.mpr (hconfining.placed hnamed hapart) opening reused s hok

theorem confined_iff (h : Filed w)
    (hresource : requestResource w q = "" ∨ requestResource w q ∈ grant.resources) :
    Confined catalog nt w env q grant.resources ↔
      Confining catalog nt w env q grant.resources := by
  by_cases hnamed : q.sessionId = ""
  · exact confined_unnamed h hnamed hresource
  · exact confined_named h hnamed hresource

end Ensure

/-! ## A port of the mapping -/

theorem mappingOf_strip (port : String) : mappingOf catalog (strip port) = mappingOf catalog port := by
  unfold mappingOf SerialPortCatalog.find normalise
  rw [strip_strip]

theorem mem_mergeOnline {ports seen : List String} {d : PortDetail} (hd : d ∈ catalog.mergeOnline seen ports) :
    d.mappingId = mappingOf catalog d.device := by
  induction ports generalizing seen with
  | nil => cases hd
  | cons device rest ih =>
      unfold SerialPortCatalog.mergeOnline at hd
      split at hd
      · exact ih hd
      · obtain rfl | hrest := List.mem_cons.mp hd
        · rfl
        · exact ih hrest

/-- A request with a mapping and without a port of its own asks for a port of the mapping. -/
theorem mappingOf_requestedPort {ports : List String} {q : EnsureRequest} (hport : q.port = "")
    (hfound : requestedPort catalog nt ports q ≠ "") :
    mappingOf catalog (requestedPort catalog nt ports q) = strip q.mappingId := by
  unfold requestedPort at hfound ⊢
  rw [if_neg (not_not.mpr hport)] at hfound ⊢
  rw [mappingOf_strip]
  unfold portForMapping at hfound ⊢
  by_cases hmapping : strip q.mappingId = ""
  · rw [if_pos hmapping] at hfound
    exact absurd rfl hfound
  rw [if_neg hmapping] at hfound ⊢
  cases hd : (catalog.mergeSystemPorts nt ports).find?
      (fun d => d.mappingId = strip q.mappingId ∧ d.online) with
  | none =>
      rw [hd] at hfound
      exact absurd rfl hfound
  | some d =>
      have hgood : d.mappingId = strip q.mappingId ∧ d.online = true := by simpa using List.find?_some hd
      obtain honline | hoffline := List.mem_append.mp (List.mem_of_find?_eq_some hd)
      · exact (mem_mergeOnline honline).symm.trans hgood.1
      · obtain ⟨m, -, rfl⟩ := List.mem_map.mp hoffline
        cases hgood.2

/-- Such a request stays within the resources that name its mapping, unless a session runs on the port. -/
theorem confining_of_mapping {env : Surroundings} {q : EnsureRequest} {resources : List String}
    (hnamed : q.sessionId = "") (hport : q.port = "") (hmapping : strip q.mappingId ∈ resources)
    (hstopped : ∀ s, Placed catalog nt w env q s → s.channel.state ≠ .running) :
    Confining catalog nt w env q resources := by
  refine ⟨fun hne => absurd hnamed hne, fun _ _ s hs => ?_⟩
  unfold mappingAfter
  rw [if_neg (hstopped s hs)]
  obtain ⟨-, -, -, -, -, -, hfound, -⟩ := hs
  rwa [mappingOf_requestedPort hport hfound]

/-! ## The endpoints -/

section Endpoints
variable {grant : Grant} {now : ℤ} {env : Surroundings} {q : EnsureRequest} {resource : String}

theorem authenticate_token (grant : Grant) (now : ℤ) :
    authenticate (some grant) now none none = .ok grant ↔ grant.revokedAt = none ∧ now < grant.expiresAt := by
  unfold authenticate
  by_cases hrevoked : grant.revokedAt = none
  · by_cases hexpired : grant.expiresAt ≤ now
    · simp [hrevoked, hexpired]
    · simp [hrevoked, hexpired, not_le.mp hexpired]
  · simp [hrevoked]

theorem authenticate_resource (hlimited : "*" ∉ grant.resources) :
    authenticate (some grant) now (some "module_session:ensure") (some resource) = .ok grant ↔
      grant.revokedAt = none ∧ now < grant.expiresAt ∧ "module_session:ensure" ∈ grant.scopes ∧
        (resource = "" ∨ resource ∈ grant.resources) := by
  unfold authenticate
  by_cases hrevoked : grant.revokedAt = none
  case neg => simp [hrevoked]
  by_cases hexpired : grant.expiresAt ≤ now
  case pos => simp [hrevoked, hexpired]
  by_cases hscope : "module_session:ensure" ∈ grant.scopes
  case neg => simp [hrevoked, hexpired, hscope, Option.filter]
  have hgate : (¬ resource = "" ∧ resource ∉ grant.resources) ↔
      ¬ (resource = "" ∨ resource ∈ grant.resources) := not_or.symm
  by_cases hresource : resource = "" ∨ resource ∈ grant.resources
  · simp [hrevoked, hexpired, not_le.mp hexpired, hscope, hlimited, hgate, hresource, Option.filter]
  · simp [hrevoked, hexpired, not_le.mp hexpired, hscope, hlimited, hgate, hresource, Option.filter]

/-- A limited grant that is asked answers with itself. -/
theorem authenticate_eq {scope resource : Option String} {answer : Grant}
    (h : authenticate (some grant) now scope resource = .ok answer) : answer = grant := by
  unfold authenticate at h
  dsimp only at h
  split at h
  · cases h
  split at h
  · cases h
  split at h
  · cases h
  split at h
  · cases h
  · exact (Except.ok.inj h).symm

variable (catalog nt) in
/-- Every session that the first endpoint returns is within the resources. -/
def ConfinedV1 (grant : Grant) (now : ℤ) (w : Service) (env : Surroundings) (q : EnsureRequest) : Prop :=
  ∀ opening reused s, (ensureV1 catalog nt (some (some grant)) now w (env.withOpening opening) q).1 =
    .ok (reused, s) → s.portIdentity.mappingId ∈ grant.resources

variable (catalog nt) in
/-- Every session that the second endpoint returns is within the resources. -/
def ConfinedV2 (grant : Grant) (now : ℤ) (w : Service) (env : Surroundings) (q : EnsureRequest) : Prop :=
  ∀ job opening reused s, (ensureV2 catalog nt (some (some grant)) now job w (env.withOpening opening) q).1 =
    .ok (some (reused, s)) → s.portIdentity.mappingId ∈ grant.resources

theorem confinedV1_iff (h : Filed w) (hlimited : "*" ∉ grant.resources) :
    ConfinedV1 catalog nt grant now w env q ↔
      (AllowedV1 grant now w q → Confining catalog nt w env q grant.resources) := by
  have hauth := @authenticate_resource grant now (requestResource w q) hlimited
  by_cases hallowed : AllowedV1 grant now w q
  · rw [imp_iff_right hallowed, ← confined_iff h hallowed.2.2.2]
    refine forall_congr' fun opening => forall_congr' fun reused => forall_congr' fun s => ?_
    unfold ensureV1
    dsimp only
    rw [hauth.mpr hallowed]
    dsimp only
    generalize w.ensure catalog nt (env.withOpening opening) q = result
    obtain ⟨result, w'⟩ := result
    cases result with
    | error e => exact iff_of_true (fun hok => by cases hok) fun hok => by cases hok
    | ok reply => simp
  · refine iff_of_true (fun opening reused s hok => ?_) fun h => absurd h hallowed
    unfold ensureV1 at hok
    dsimp only at hok
    split at hok
    · cases hok
    · next answer hanswer =>
        obtain rfl := authenticate_eq hanswer
        exact absurd (hauth.mp hanswer) hallowed

theorem v2Grant_eq_ok (hlimited : "*" ∉ grant.resources) {answer : Grant} :
    v2Grant (some (some grant)) now resource = .ok answer ↔ answer = grant ∧ grant.revokedAt = none ∧
      now < grant.expiresAt ∧ "module_session:ensure" ∈ grant.scopes ∧
        (resource = "" ∨ resource ∈ grant.resources) := by
  unfold v2Grant
  dsimp only
  split
  · next e he =>
      refine iff_of_false (fun hok => by cases hok) ?_
      rintro ⟨-, hrevoked, hexpired, -⟩
      cases he.symm.trans ((authenticate_token grant now).mpr ⟨hrevoked, hexpired⟩)
  · next found hfound =>
      obtain rfl := authenticate_eq hfound
      have htoken := (authenticate_token found now).mp hfound
      have hgate : (resource ≠ "" ∧ resource ∉ found.resources) ↔
          ¬ (resource = "" ∨ resource ∈ found.resources) := not_or.symm
      by_cases hscope : "module_session:ensure" ∈ found.scopes
      · by_cases hresource : resource = "" ∨ resource ∈ found.resources
        · simp [hscope, hlimited, hgate, hresource, htoken, eq_comm]
        · simp [hscope, hlimited, hgate, hresource]
      · simp [hscope]

theorem confinedV2_iff (h : Filed w) (hlimited : "*" ∉ grant.resources) :
    ConfinedV2 catalog nt grant now w env q ↔
      (AllowedV2 grant now w q → Confining catalog nt w env q grant.resources) := by
  by_cases hallowed : AllowedV2 grant now w q
  · obtain ⟨hrevoked, hexpired, hscope, hresource, htext, hdata⟩ := hallowed
    have hgrant := (@v2Grant_eq_ok grant now (requestResource w q) hlimited grant).mpr
      ⟨rfl, hrevoked, hexpired, hscope, .inr hresource⟩
    have hblank : requestResource w q ≠ "" := (grant.stripped _ hresource).2
    have hplain : ¬ (q.text ≠ none ∨ q.dataHex ≠ none) := by simp [htext, hdata]
    have hrefused : ∀ e env, ensureV2 catalog nt (some (some grant)) now (.refused e) w env q =
        (.error e, w) := by
      intro e env
      simp only [ensureV2, hgrant, if_neg hblank, if_neg hplain]
    have hreplayed : ∀ env, ensureV2 catalog nt (some (some grant)) now .replayed w env q = (.ok none, w) := by
      intro env
      simp only [ensureV2, hgrant, if_neg hblank, if_neg hplain]
    have hcreated : ∀ env, (ensureV2 catalog nt (some (some grant)) now .created w env q).1 =
        ((w.ensure catalog nt env q).1.mapError ensureErrorV2).map some := by
      intro env
      simp only [ensureV2, hgrant, if_neg hblank, if_neg hplain]
      cases w.ensure catalog nt env q with
      | mk reply w' => cases reply <;> rfl
    rw [imp_iff_right ⟨hrevoked, hexpired, hscope, hresource, htext, hdata⟩, ← confined_iff h (.inr hresource)]
    constructor
    · intro hall opening reused s hok
      refine hall .created opening reused s ?_
      rw [hcreated, hok]
      rfl
    · intro hall job opening reused s hok
      refine hall opening reused s ?_
      cases job with
      | refused e =>
          rw [hrefused] at hok
          cases hok
      | replayed =>
          rw [hreplayed] at hok
          cases hok
      | created =>
          rw [hcreated] at hok
          cases hreply : (w.ensure catalog nt (env.withOpening opening) q).1 with
          | error e =>
              rw [hreply] at hok
              cases hok
          | ok reply =>
              rw [hreply] at hok
              exact congrArg Except.ok (Option.some.inj (Except.ok.inj hok))
  · refine iff_of_true (fun job opening reused s hok => ?_) fun h => absurd h hallowed
    unfold ensureV2 at hok
    dsimp only at hok
    split at hok
    · cases hok
    · next answer hanswer =>
        obtain ⟨-, hrevoked, hexpired, hscope, hresource⟩ := (v2Grant_eq_ok hlimited).mp hanswer
        split_ifs at hok with hblank hdata
        rw [not_or, not_not, not_not] at hdata
        exact absurd ⟨hrevoked, hexpired, hscope, hresource.resolve_left hblank, hdata.1, hdata.2⟩ hallowed

/-- A limited grant confines what both endpoints return exactly to the requests that stay within its
resources. -/
theorem grantConfines_iff (catalog : SerialPortCatalog casing) (nt : Bool)
    (hw : (machine catalog nt).Reachable {} w) (hlimited : "*" ∉ grant.resources) (now : ℤ)
    (env : Surroundings) (q : EnsureRequest) :
    (ConfinedV1 catalog nt grant now w env q ↔
      (AllowedV1 grant now w q → Confining catalog nt w env q grant.resources)) ∧
    (ConfinedV2 catalog nt grant now w env q ↔
      (AllowedV2 grant now w q → Confining catalog nt w env q grant.resources)) :=
  ⟨confinedV1_iff (filed_of_reachable hw) hlimited, confinedV2_iff (filed_of_reachable hw) hlimited⟩

end Endpoints

end Confinement

/-! ## A port beside the mapping -/

/-- COM1 is mapped. -/
def meterA : SerialPortMapping := { id := "meter-a", windowsCom := "COM1" }

def oneMapping : SerialPortCatalog asciiCasing where
  mappings := [meterA]
  named m hm := by
    rw [List.mem_singleton.mp hm]
    decide
  placed m hm := by
    rw [List.mem_singleton.mp hm]
    decide
  distinct := List.nodup_singleton _
  separate m hm m' hm' a _ _ := (List.mem_singleton.mp hm).trans (List.mem_singleton.mp hm').symm

/-- A grant for the mapping of COM1. -/
def meterGrant : Grant where
  grantId := "grant-0000000000000001"
  scopes := ["module_session:ensure"]
  resources := ["meter-a"]
  expiresAt := 3600
  stripped := by decide +kernel

/-- COM1 and COM9 are plugged in, and ports open. -/
def bothPorts : Surroundings := ⟨["COM1", "COM9"], "00000000000a", .opened⟩

/-- The grant allows the request because of its mapping, and COM9 is opened. -/
theorem otherPort_opened : ¬ ∀ (w : Service) (grant : Grant) (now : ℤ) (env : Surroundings) (q : EnsureRequest),
    (machine oneMapping true).Reachable {} w → "*" ∉ grant.resources →
      ConfinedV1 oneMapping true grant now w env q ∧ ConfinedV2 oneMapping true grant now w env q := by
  intro hall
  have hconfined := (hall {} meterGrant 0 bothPorts { mappingId := "meter-a", port := "COM9" } .start
    (by decide)).2
  have hopened : ((ensureV2 oneMapping true (some (some meterGrant)) 0 .created {} bothPorts
      { mappingId := "meter-a", port := "COM9" }).1.toOption.join.map fun reply =>
        reply.2.portIdentity.mappingId) = some "" := by decide +kernel
  cases hreply : (ensureV2 oneMapping true (some (some meterGrant)) 0 .created {} bothPorts
      { mappingId := "meter-a", port := "COM9" }).1 with
  | error e =>
      rw [hreply] at hopened
      cases hopened
  | ok reply =>
      rw [hreply] at hopened
      cases reply with
      | none => cases hopened
      | some session =>
          have hmem := hconfined .created .opened session.1 session.2 hreply
          rw [show session.2.portIdentity.mappingId = "" from Option.some.inj hopened] at hmem
          exact (meterGrant.stripped "" hmem).2 rfl

/-- Without the port the session is on COM1. -/
theorem mappedPort_confined :
    ConfinedV1 oneMapping true meterGrant 0 {} bothPorts { mappingId := "meter-a" } ∧
      ConfinedV2 oneMapping true meterGrant 0 {} bothPorts { mappingId := "meter-a" } := by
  have hmapping : strip "meter-a" ∈ meterGrant.resources := by decide +kernel
  have hconfining : Confining oneMapping true {} bothPorts { mappingId := "meter-a" } meterGrant.resources := by
    refine confining_of_mapping rfl rfl hmapping ?_
    rintro s ⟨reused, w', config, started, hfor, -⟩ hrunning
    have hidle : (match (Service.sessionForPort oneMapping true {} bothPorts { mappingId := "meter-a" }).1 with
      | .ok (_, s) => s.channel.state
      | .error _ => .running) = .idle := by decide +kernel
    rw [hfor] at hidle
    cases hidle.symm.trans hrunning
  have hlimited : "*" ∉ meterGrant.resources := by decide
  obtain ⟨hv1, hv2⟩ := grantConfines_iff oneMapping true .start hlimited 0 bothPorts { mappingId := "meter-a" }
  exact ⟨hv1.mpr fun _ => hconfining, hv2.mpr fun _ => hconfining⟩

end HplcWorkbench.ModuleSerial
