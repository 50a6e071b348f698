import HplcWorkbench.HexReading
import HplcWorkbench.ModuleSessions

/-!
# Who holds a serial port

A session with an open handle is recorded as the owner of its port in the port table and in the registry,
and nobody else is. A start keeps this unless the session still has a handle and does not open the same
line again, or the opening fails after the handle was there.
-/

namespace HplcWorkbench.ModuleSerial
open SerialResources OrderedDict Transitions KeyOwnership

section Ownership
variable {casing : Casing} (catalog : SerialPortCatalog casing) (nt : Bool)

/-! ## The line of a session -/

/-- The keys under which the registry files the line of a session whose handle is open on `port`. -/
def ModuleSession.lineKeys (casing : Casing) (s : ModuleSession) (port : String) : Finset String :=
  keySet casing.toCasefold s.portIdentity.mappingId (resourceAliases port s.portIdentity)

/-- The port whose handle a session has, with the keys of the line. -/
def ModuleSession.line (casing : Casing) (s : ModuleSession) : Option (String × Finset String) :=
  s.channel.ser.map fun p => (p, s.lineKeys casing p)

def Service.lineOf (casing : Casing) (w : Service) (a : String) : Option (String × Finset String) :=
  (w.sessions.get? a).bind (·.line casing)

/-- What the sessions rely on. -/
structure Exclusive (w : Service) : Prop where
  /-- The handles of two sessions are on different lines. -/
  alone : ∀ a b l l', a ≠ b → w.lineOf casing a = some l → w.lineOf casing b = some l' →
    catalog.identityKey l.1 ≠ catalog.identityKey l'.1 ∧ Disjoint l.2 l'.2
  /-- A session with a handle is entered in the port table -/
  entered : ∀ a l, w.lineOf casing a = some l → w.portOwners.get? (catalog.identityKey l.1) = some a
  /-- and in the registry. -/
  reserved : ∀ a l, w.lineOf casing a = some l →
    ∃ r, w.registry.byOwner.lookup (resourceOwnerId a) = some r ∧ r.keys casing.toCasefold = l.2
  /-- Nobody else is entered in the port table -/
  entry : ∀ k a, w.portOwners.get? k = some a →
    ∃ l, w.lineOf casing a = some l ∧ catalog.identityKey l.1 = k
  /-- or in the registry. -/
  reservation : ∀ o r, w.registry.byOwner.lookup o = some r →
    ∃ a l, o = resourceOwnerId a ∧ w.lineOf casing a = some l
  /-- A port on whose line no handle is open is opened for a session without a handle. -/
  reopens : ∀ ports a port config session openPort identity, w.sessions.get? a = some session →
    session.channel.ser = none → catalog.identityForPort nt ports port = .ok (openPort, identity) →
    (keySet casing.toCasefold identity.mappingId (resourceAliases openPort identity)).Nonempty →
    (∀ b l, w.lineOf casing b = some l → catalog.identityKey l.1 ≠ catalog.identityKey openPort ∧
      Disjoint l.2 (keySet casing.toCasefold identity.mappingId (resourceAliases openPort identity))) →
    ∃ started, (w.start catalog nt ports a port config .opened).1 = .ok started ∧
      started.channel.ser = some openPort

/-- A start of a session that is not running gets past the port table. -/
structure Reaches (w : Service) (ports : List String) (a port : String) (session : ModuleSession)
    (openPort : String) (identity : PortIdentity) : Prop where
  found : w.sessions.get? a = some session
  stopped : session.channel.state ≠ .running
  identified : catalog.identityForPort nt ports port = .ok (openPort, identity)
  free : ¬ w.Taken (catalog.identityKey openPort) a

/-- A start that gets past the port table opens the line again that the session still has, and succeeds;
if the session has none, nothing fails between the opening of the port and the end of the start. -/
def Orderly (w : Service) : Event → Prop
  | .start ports a port _ opening => ∀ session openPort identity,
    Reaches catalog nt w ports a port session openPort identity →
      match session.line casing with
      | none => opening = .broken → ∃ e, (reserveResource casing w.registry session openPort identity).1 = .error e
      | some l => opening = .opened ∧ catalog.identityKey openPort = catalog.identityKey l.1 ∧
        keySet casing.toCasefold identity.mappingId (resourceAliases openPort identity) = l.2
  | _ => True

/-! ## The invariant -/

/-- What a session says of itself. -/
structure ModuleSession.Fits (a : String) (s : ModuleSession) : Prop where
  sessionId : s.sessionId = a
  named : a ≠ ""
  unspaced : strip (resourceOwnerId a) = resourceOwnerId a
  key : ∀ p, s.channel.ser = some p → s.portKey = catalog.identityKey p ∧ s.portKey ≠ ""
  running : s.channel.state = .running → s.channel.ser ≠ none

/-- The sessions fit, and both records are the ledger of the handles. -/
structure Sound (w : Service) : Prop where
  consistent : Consistent casing.toCasefold w.registry
  fits : ∀ a s, w.sessions.get? a = some s → s.Fits catalog a
  ledger : Ledger (fun l : String × Finset String => catalog.identityKey l.1) (fun l => (l.2 : Set String))
    (w.lineOf casing) w.portOwners.get? (fun a => ownerKeys casing.toCasefold w.registry (resourceOwnerId a))
  nonempty : ∀ a l, w.lineOf casing a = some l → l.2.Nonempty
  owners : ∀ o, (ownerKeys casing.toCasefold w.registry o).Nonempty → ∃ a, o = resourceOwnerId a

variable {catalog nt} {w w' : Service}

theorem resourceOwnerId_injective : Function.Injective resourceOwnerId := by
  intro a b h
  have hlist := congrArg String.toList h
  rw [resourceOwnerId, resourceOwnerId, String.toList_append, String.toList_append] at hlist
  exact String.toList_inj.mp (List.append_cancel_left hlist)

theorem resourceOwnerId_ne_empty (a : String) : resourceOwnerId a ≠ "" := by
  intro h
  have hlist := congrArg String.toList h
  rw [resourceOwnerId, String.toList_append] at hlist
  cases hlist

theorem Sound.empty : Sound catalog {} := by
  refine ⟨Consistent.empty, ?_, ⟨?_, ?_⟩, ?_, ?_⟩
  · intro a s h
    cases h
  · intro k a
    refine iff_of_false (fun h => by cases h) ?_
    rintro ⟨l, h, -⟩
    cases h
  · intro a
    simp [ownerKeys, Service.lineOf]
  · intro a l h
    cases h
  · intro o h
    simp [ownerKeys] at h

theorem lineOf_update (s : ModuleSession) (b : String) :
    (w.update s).lineOf casing b = if b = s.sessionId then s.line casing else w.lineOf casing b := by
  unfold Service.lineOf
  change ((w.sessions.set s.sessionId s).get? b).bind _ = _
  split
  · next hb => rw [hb, Dict.get?_set_self, Option.bind_some]
  · next hb => rw [Dict.get?_set_of_ne _ _ _ _ hb]

theorem fits_update (h : ∀ a s, w.sessions.get? a = some s → s.Fits catalog a) {s : ModuleSession}
    (hs : s.Fits catalog s.sessionId) (a : String) (t : ModuleSession)
    (ht : (w.update s).sessions.get? a = some t) : t.Fits catalog a := by
  change (w.sessions.set s.sessionId s).get? a = some t at ht
  by_cases ha : a = s.sessionId
  · rw [ha, Dict.get?_set_self] at ht
    obtain rfl := Option.some.inj ht
    exact ha ▸ hs
  · rw [Dict.get?_set_of_ne _ _ _ _ ha] at ht
    exact h a t ht

theorem get?_disown (k a k' : String) :
    (w.disown k a).portOwners.get? k' =
      if k' = k ∧ w.portOwners.get? k = some a then none else w.portOwners.get? k' := by
  unfold Service.disown
  split
  · next howner =>
      by_cases hk : k' = k
      · rw [if_pos ⟨hk, howner⟩, hk]
        exact Dict.get?_erase_self _ _
      · rw [if_neg fun h => hk h.1]
        exact Dict.get?_erase_of_ne _ _ _ hk
  · next hother => rw [if_neg fun h => hother h.2]

@[simp] theorem disown_sessions (k a : String) : (w.disown k a).sessions = w.sessions := by
  unfold Service.disown
  split <;> rfl

@[simp] theorem disown_registry (k a : String) : (w.disown k a).registry = w.registry := by
  unfold Service.disown
  split <;> rfl

/-- A port that the registry can file has a key in the port table. -/
theorem identityKey_ne_empty {ports : List String} {port openPort : String} {identity : PortIdentity}
    (hidentity : catalog.identityForPort nt ports port = .ok (openPort, identity))
    (hkeys : (keySet casing.toCasefold identity.mappingId (resourceAliases openPort identity)).Nonempty) :
    catalog.identityKey openPort ≠ "" := by
  unfold SerialPortCatalog.identityKey
  obtain ⟨hfind, rfl, rfl⟩ | ⟨m, -, -, hfind, -⟩ := SerialPortCatalog.identityForPort_eq_ok hidentity
  · rw [hfind]
    intro hblank
    have hstrip : strip openPort = "" := SerialPortCatalog.normalise_eq_empty.mp hblank
    have hblanks : ∀ a ∈ resourceAliases openPort { device := openPort },
        normaliseAlias casing.toCasefold a = "" := by
      intro a ha
      obtain ⟨hmem, hne⟩ := List.mem_filter.mp ha
      have ha' : a = openPort := by simpa [of_decide_eq_true hne] using hmem
      rw [ha', ← normaliseAlias_strip, hstrip, normaliseAlias_blank]
    obtain ⟨key, hkey⟩ := hkeys
    simp only [keySet, normaliseAlias_blank, ne_eq, not_true_eq_false, if_false, Finset.empty_union,
      List.mem_toFinset, List.mem_map, List.mem_filter, decide_eq_true_eq] at hkey
    obtain ⟨-, ⟨⟨a, ha, rfl⟩, hne⟩, -⟩ := hkey
    exact hne (hblanks a ha)
  · rw [hfind]
    exact catalog.named m (SerialPortCatalog.find_eq_some hfind).1

/-! ## What the invariant gives -/

theorem lineOf_eq {a : String} {s : ModuleSession} (hs : w.sessions.get? a = some s) : w.lineOf casing a = s.line casing := by
  rw [Service.lineOf, hs, Option.bind_some]

theorem Sound.ownerKeys_eq (h : Sound catalog w) {a : String} {l : String × Finset String}
    (hl : w.lineOf casing a = some l) :
    ownerKeys casing.toCasefold w.registry (resourceOwnerId a) = l.2 := by
  have hregister := h.ledger.register_eq a
  rw [hl] at hregister
  exact Finset.coe_injective hregister

theorem Sound.ownerKeys_empty (h : Sound catalog w) {a : String} (hl : w.lineOf casing a = none) :
    ownerKeys casing.toCasefold w.registry (resourceOwnerId a) = ∅ := by
  have hregister := h.ledger.register_eq a
  rw [hl] at hregister
  exact Finset.coe_eq_empty.mp hregister

/-- The entries of the port table name sessions, so a port that is not taken has no entry of another. -/
theorem Sound.owner_of_free (h : Sound catalog w) {k a b : String} (hfree : ¬ w.Taken k a)
    (hb : w.portOwners.get? k = some b) : b = a := by
  obtain ⟨l, hl, -⟩ := (h.ledger.table_iff k b).mp hb
  obtain ⟨s, hs, -⟩ := Option.bind_eq_some_iff.mp hl
  refine not_not.mp fun hne => hfree ?_
  rw [Service.Taken, hb]
  exact ⟨(h.fits b s hs).named, hne⟩

/-! ## A start, step by step -/

/-- The service with a new entry in the port table, and a registry that has changed. -/
def Service.enter (w : Service) (portKey a : String) (registry : Registry) : Service :=
  { w with portOwners := w.portOwners.set portKey a, registry := registry }

section Start
variable {ports : List String} {a port openPort : String} {config : SerialConfig} {opening : Opening}
  {session : ModuleSession} {identity : PortIdentity}

theorem start_of_reaches (h : Reaches catalog nt w ports a port session openPort identity)
    (config : SerialConfig) (opening : Opening) :
    w.start catalog nt ports a port config opening =
      (w.enter (catalog.identityKey openPort) a w.registry).acquire catalog session openPort identity
        (requestedConfig casing config) opening := by
  unfold Service.start
  rw [h.found]
  dsimp only
  rw [h.identified]
  dsimp only
  rw [if_neg h.stopped, if_neg h.free]
  rfl

/-- A start that does not get past the port table changes nothing. -/
theorem start_of_not_reaches
    (h : ∀ session openPort identity, ¬ Reaches catalog nt w ports a port session openPort identity) :
    (w.start catalog nt ports a port config opening).2 = w := by
  unfold Service.start
  split
  · rfl
  · next session hfound =>
      split
      · rfl
      · next openPort identity hidentified =>
          dsimp only
          by_cases hstate : session.channel.state = .running
          · rw [if_pos hstate]
            split_ifs <;> rfl
          rw [if_neg hstate]
          by_cases hfree : w.Taken (catalog.identityKey openPort) a
          · rw [if_pos hfree]
          · exact absurd ⟨hfound, hstate, hidentified, hfree⟩ (h session openPort identity)

section Acquire
variable {portKey : String} {registry : Registry}

theorem acquire_of_error {e : ReserveError}
    (hr : reserveResource casing w.registry session openPort identity = (.error e, registry)) :
    ((w.enter portKey a w.registry).acquire catalog session openPort identity config opening).2 =
      (w.enter portKey a registry).rollBack session (catalog.identityKey openPort) := by
  unfold Service.acquire Service.enter
  dsimp only
  rw [hr]

/-- What the session is when the port was to be opened. -/
def ModuleSession.started (session : ModuleSession) (catalog : SerialPortCatalog casing) (openPort : String)
    (identity : PortIdentity) (config : SerialConfig) (opening : Opening) : ModuleSession :=
  { session with
    portIdentity := identity
    portKey := catalog.identityKey openPort
    channel := session.channel.start openPort config opening }

theorem acquire_of_ok {r : SerialReservation}
    (hr : reserveResource casing w.registry session openPort identity = (.ok r, registry)) :
    (w.enter portKey a w.registry).acquire catalog session openPort identity config opening =
      if opening = .opened then
        (.ok (session.started catalog openPort identity config opening),
          (w.enter portKey a registry).update (session.started catalog openPort identity config opening))
      else (.error .driver, (w.enter portKey a registry).rollBack
        (session.started catalog openPort identity config opening) (catalog.identityKey openPort)) := by
  unfold Service.acquire Service.enter
  dsimp only
  rw [hr]
  rfl

end Acquire

/-- The registry is asked for the keys of the line. -/
theorem Sound.reserve_cases (h : Sound catalog w) (hs : w.sessions.get? a = some session) (openPort : String)
    (identity : PortIdentity) :
    (∃ e, reserveResource casing w.registry session openPort identity = (.error e, w.registry)) ∨
    ∃ r registry, reserveResource casing w.registry session openPort identity = (.ok r, registry) ∧
      Consistent casing.toCasefold registry ∧
      (keySet casing.toCasefold identity.mappingId (resourceAliases openPort identity)).Nonempty ∧
      (∀ o, ownerKeys casing.toCasefold registry o = if o = resourceOwnerId a then
        keySet casing.toCasefold identity.mappingId (resourceAliases openPort identity)
        else ownerKeys casing.toCasefold w.registry o) ∧
      ∀ l, w.lineOf casing a = some l →
        keySet casing.toCasefold identity.mappingId (resourceAliases openPort identity) = l.2 := by
  have hfits := h.fits a session hs
  unfold reserveResource
  rw [hfits.sessionId]
  generalize "模块日志会话“" ++ session.title ++ "”" = label
  generalize resourceAliases openPort identity = aliases
  have hrefused := fun e => @reserve_error _ _ h.consistent (resourceOwnerId a) label identity.mappingId aliases e
  have hgranted := fun r => @reserve_ok _ _ h.consistent (resourceOwnerId a) label identity.mappingId aliases r
  have hconsistent := h.consistent.reserve (resourceOwnerId a) label identity.mappingId aliases
  rw [hfits.unspaced] at hgranted
  generalize onRegistry (reserve casing.toCasefold (resourceOwnerId a) label identity.mappingId aliases)
    w.registry = reserved at hrefused hgranted hconsistent ⊢
  obtain ⟨result, registry⟩ := reserved
  cases result with
  | error e => exact .inl ⟨e, congrArg (Prod.mk _) (hrefused e rfl)⟩
  | ok r =>
      obtain ⟨hkeys, hown, hbefore⟩ := hgranted r rfl
      refine .inr ⟨r, registry, rfl, hconsistent, hkeys, hown, fun l hl => ?_⟩
      rw [h.ownerKeys_eq hl] at hbefore
      exact (hbefore.resolve_left (h.nonempty a l hl).ne_empty).symm

/-- A session that has a line is granted the keys of that line again. -/
theorem Sound.reserve_line (h : Sound catalog w) (hs : w.sessions.get? a = some session)
    {l : String × Finset String} (hl : session.line casing = some l)
    (hkeys : keySet casing.toCasefold identity.mappingId (resourceAliases openPort identity) = l.2) (e : ReserveError) :
    (reserveResource casing w.registry session openPort identity).1 ≠ .error e := by
  have hline := (lineOf_eq hs).trans hl
  have hfits := h.fits a session hs
  have hown := h.ownerKeys_eq hline
  have hnonempty := h.nonempty a l hline
  cases hprevious : w.registry.byOwner.lookup (resourceOwnerId a) with
  | none =>
      rw [ownerKeys, hprevious] at hown
      exact absurd hown.symm hnonempty.ne_empty
  | some r =>
      unfold reserveResource
      rw [reserve_again h.consistent (by rw [hfits.sessionId, hfits.unspaced]; exact hprevious), hkeys,
        if_neg hnonempty.ne_empty, hfits.sessionId, hfits.unspaced, hown, if_pos rfl]
      exact fun heq => by cases heq

end Start

theorem Sound.exclusive (h : Sound catalog w) : Exclusive catalog nt w := by
  have hreserved : ∀ a l, w.lineOf casing a = some l →
      ∃ r, w.registry.byOwner.lookup (resourceOwnerId a) = some r ∧ r.keys casing.toCasefold = l.2 := by
    intro a l hl
    have hkeys := h.ownerKeys_eq hl
    unfold ownerKeys at hkeys
    cases hr : w.registry.byOwner.lookup (resourceOwnerId a) with
    | none =>
        rw [hr] at hkeys
        exact absurd (h.nonempty a l hl) (by rw [← hkeys]; exact Finset.not_nonempty_empty)
    | some r =>
        rw [hr] at hkeys
        exact ⟨r, rfl, hkeys⟩
  have hreservation : ∀ o, (ownerKeys casing.toCasefold w.registry o).Nonempty →
      ∃ a l, o = resourceOwnerId a ∧ w.lineOf casing a = some l := by
    intro o ho
    obtain ⟨a, rfl⟩ := h.owners o ho
    cases hl : w.lineOf casing a with
    | none =>
        rw [h.ownerKeys_empty hl] at ho
        exact absurd ho Finset.not_nonempty_empty
    | some l => exact ⟨a, l, rfl, hl⟩
  constructor
  case alone =>
    intro a b l l' hab hl hl'
    refine ⟨fun hkey => hab (h.ledger.alone hl hl' hkey), ?_⟩
    have hdisjoint := h.consistent.ownership.disjoint (resourceOwnerId_injective.ne hab)
    rw [← h.ownerKeys_eq hl, ← h.ownerKeys_eq hl']
    exact Finset.disjoint_coe.mp hdisjoint
  case entered =>
    intro a l hl
    exact (h.ledger.table_iff _ a).mpr ⟨l, hl, rfl⟩
  case reserved => exact hreserved
  case entry =>
    intro k a hk
    exact (h.ledger.table_iff k a).mp hk
  case reservation =>
    intro o r hr
    refine hreservation o ?_
    unfold ownerKeys
    rw [hr]
    exact h.consistent.nonempty hr
  case reopens =>
    intro ports a port config session openPort identity hs hser hidentity hkeys hapart
    have hstopped : session.channel.state ≠ .running := fun hrunning =>
      (h.fits a session hs).running hrunning hser
    have hvacant : w.portOwners.get? (catalog.identityKey openPort) = none := by
      cases howner : w.portOwners.get? (catalog.identityKey openPort) with
      | none => rfl
      | some b =>
          obtain ⟨l, hl, hkey⟩ := (h.ledger.table_iff _ b).mp howner
          exact absurd hkey (hapart b l hl).1
    have hfree : ¬ w.Taken (catalog.identityKey openPort) a := by
      rw [Service.Taken, hvacant]
      exact fun htaken => htaken.1 rfl
    have hfits := h.fits a session hs
    have hnone : w.lineOf casing a = none := by
      rw [lineOf_eq hs, ModuleSession.line, hser]
      rfl
    have hreaches : Reaches catalog nt w ports a port session openPort identity :=
      ⟨hs, hstopped, hidentity, hfree⟩
    have hstart := start_of_reaches hreaches config .opened
    have hgranted : ∃ r, (reserveResource casing w.registry session openPort identity).1 = .ok r := by
      unfold reserveResource
      rw [hfits.sessionId]
      generalize "模块日志会话“" ++ session.title ++ "”" = label
      refine (reserve_fresh h.consistent ?_ hkeys ?_).mpr ?_
      · rw [hfits.unspaced]
        exact resourceOwnerId_ne_empty a
      · rw [hfits.unspaced]
        exact h.ownerKeys_empty hnone
      · intro key hkey o ho
        obtain ⟨b, l, rfl, hl⟩ := hreservation o ⟨key, ho⟩
        change key ∈ ownerKeys casing.toCasefold w.registry (resourceOwnerId b) at ho
        rw [h.ownerKeys_eq hl] at ho
        exact absurd hkey (Finset.disjoint_left.mp (hapart b l hl).2 ho)
    obtain ⟨e, he⟩ | ⟨r, registry, hr, -⟩ := h.reserve_cases hs openPort identity
    · obtain ⟨r, hr⟩ := hgranted
      rw [he] at hr
      cases hr
    · rw [hstart, acquire_of_ok hr, if_pos rfl]
      exact ⟨_, rfl, rfl⟩

/-! ## What the calls keep -/

section Calls
variable {ports : List String} {a port openPort : String} {config : SerialConfig} {opening : Opening}
  {s session : ModuleSession} {identity : PortIdentity} {registry : Registry}

/-- A change of a session that leaves its line alone. -/
theorem Sound.update (h : Sound catalog w) (hfits : s.Fits catalog s.sessionId)
    (hline : s.line casing = w.lineOf casing s.sessionId) : Sound catalog (w.update s) := by
  have hsame : ∀ b, (w.update s).lineOf casing b = w.lineOf casing b := by
    intro b
    rw [lineOf_update]
    split
    · next hb => rw [hb, hline]
    · rfl
  refine ⟨h.consistent, fits_update h.fits hfits, ?_, ?_, h.owners⟩
  · exact h.ledger.congr hsame (fun _ => rfl) fun _ => rfl
  · intro b l hl
    exact h.nonempty b l ((hsame b).symm.trans hl)

/-- The handle of a session is closed, or dropped with the session, and both records are cleared. -/
theorem Sound.leave (h : Sound catalog w) (hs : w.sessions.get? a = some session)
    (hline : ∀ b, w'.lineOf casing b = if b = a then none else w.lineOf casing b)
    (hfits : ∀ b t, w'.sessions.get? b = some t → t.Fits catalog b)
    (howners : w'.portOwners =
      (if session.portKey ≠ "" then w.disown session.portKey a else w).portOwners)
    (hregistry : w'.registry = (onRegistry (release (resourceOwnerId a)) w.registry).2) :
    Sound catalog w' := by
  have hunspaced := (h.fits a session hs).unspaced
  have hkeys : ∀ o, ownerKeys casing.toCasefold w'.registry o =
      if o = resourceOwnerId a then ∅ else ownerKeys casing.toCasefold w.registry o := by
    intro o
    rw [hregistry, ownerKeys_release h.consistent, hunspaced]
  -- the entry that `disown` removes is the only one of the session
  have hentry : ∀ k, w.portOwners.get? k = some a → k = session.portKey ∧ session.portKey ≠ "" := by
    intro k hk
    obtain ⟨l, hl, rfl⟩ := (h.ledger.table_iff k a).mp hk
    rw [lineOf_eq hs] at hl
    obtain ⟨p, hp, rfl⟩ := Option.map_eq_some_iff.mp hl
    have hkey := (h.fits a session hs).key p hp
    exact ⟨hkey.1.symm, hkey.2⟩
  have htable : ∀ k b, w'.portOwners.get? k = some b ↔ w.portOwners.get? k = some b ∧ b ≠ a := by
    intro k b
    rw [howners]
    by_cases hkey : session.portKey ≠ ""
    · rw [if_pos hkey, get?_disown]
      split
      · next hgone =>
          refine iff_of_false (fun heq => by cases heq) ?_
          rintro ⟨hb, hne⟩
          rw [hgone.1, hgone.2] at hb
          exact hne (Option.some.inj hb).symm
      · next hstays =>
          refine (and_iff_left_of_imp fun hb hba => hstays ?_).symm
          subst hba
          obtain ⟨rfl, -⟩ := hentry k hb
          exact ⟨rfl, hb⟩
    · rw [if_neg hkey]
      refine (and_iff_left_of_imp fun hb hba => hkey ?_).symm
      subst hba
      exact (hentry k hb).2
  constructor
  case consistent =>
    rw [hregistry]
    exact h.consistent.release _
  case fits => exact hfits
  case ledger =>
    refine h.ledger.leave hline htable fun b => ?_
    rw [hkeys]
    by_cases hb : b = a
    · simp [hb]
    · rw [if_neg (resourceOwnerId_injective.ne hb), if_neg hb]
  case nonempty =>
    intro b l hl
    rw [hline] at hl
    split at hl
    · cases hl
    · exact h.nonempty b l hl
  case owners =>
    intro o ho
    rw [hkeys] at ho
    split at ho
    · exact absurd ho Finset.not_nonempty_empty
    · exact h.owners o ho

/-- A session opens a port that nobody else is entered for. -/
theorem Sound.enter (h : Sound catalog w) (hs : w.sessions.get? a = some session)
    (hfrom : ∀ l, session.line casing = some l → catalog.identityKey l.1 = catalog.identityKey openPort)
    (hfree : ¬ w.Taken (catalog.identityKey openPort) a) (hfits : s.Fits catalog a)
    (hline : s.line casing = some (openPort,
      keySet casing.toCasefold identity.mappingId (resourceAliases openPort identity)))
    (hconsistent : Consistent casing.toCasefold registry)
    (hkeys : (keySet casing.toCasefold identity.mappingId (resourceAliases openPort identity)).Nonempty)
    (hown : ∀ o, ownerKeys casing.toCasefold registry o = if o = resourceOwnerId a then
      keySet casing.toCasefold identity.mappingId (resourceAliases openPort identity)
      else ownerKeys casing.toCasefold w.registry o) :
    Sound catalog ((w.enter (catalog.identityKey openPort) a registry).update s) := by
  have hid := hfits.sessionId
  have hplace : ∀ b, ((w.enter (catalog.identityKey openPort) a registry).update s).lineOf casing b =
      if b = a then
        some (openPort, keySet casing.toCasefold identity.mappingId (resourceAliases openPort identity))
      else w.lineOf casing b := by
    intro b
    rw [lineOf_update, hid, hline]
    rfl
  constructor
  case consistent => exact hconsistent
  case fits =>
    refine fits_update ?_ (hid.symm ▸ hfits)
    exact h.fits
  case ledger =>
    refine h.ledger.enter ?_ ?_ hplace ?_ fun b => ?_
    · intro l hl
      exact hfrom l ((lineOf_eq hs).symm.trans hl)
    · intro b hb
      exact h.owner_of_free hfree hb
    · intro k
      change (w.portOwners.set (catalog.identityKey openPort) a).get? k = _
      split
      · next hk => rw [hk, Dict.get?_set_self]
      · next hk => rw [Dict.get?_set_of_ne _ _ _ _ hk]
    · change (ownerKeys casing.toCasefold registry (resourceOwnerId b) : Set String) = _
      rw [hown]
      by_cases hb : b = a
      · rw [if_pos (congrArg _ hb), if_pos hb]
      · rw [if_neg (resourceOwnerId_injective.ne hb), if_neg hb]
  case nonempty =>
    intro b l hl
    rw [hplace] at hl
    split at hl
    · obtain rfl := Option.some.inj hl
      exact hkeys
    · exact h.nonempty b l hl
  case owners =>
    intro o ho
    change (ownerKeys casing.toCasefold registry o).Nonempty at ho
    rw [hown] at ho
    split at ho
    · next heq => exact ⟨a, heq⟩
    · exact h.owners o ho

/-- The records are taken back for a session that has no handle. -/
theorem Sound.rollBack (h : Sound catalog w) (hs : w.sessions.get? a = some session)
    (hnone : session.line casing = none) {k : String} (hfree : ¬ w.Taken k a) (hid : s.sessionId = a)
    (hser : s.channel.ser = none) (hstate : s.channel.state ≠ .running)
    (hconsistent : Consistent casing.toCasefold registry)
    (hown : ∀ o, o ≠ resourceOwnerId a →
      ownerKeys casing.toCasefold registry o = ownerKeys casing.toCasefold w.registry o) :
    Sound catalog ((w.enter k a registry).rollBack s k) := by
  subst hid
  have hfits := h.fits _ session hs
  have hvacant := (lineOf_eq hs).trans hnone
  have hline : ∀ b, ((w.enter k s.sessionId registry).rollBack s k).lineOf casing b =
      w.lineOf casing b := by
    intro b
    unfold Service.rollBack
    rw [lineOf_update]
    split
    · next hb =>
        rw [hb, hvacant, ModuleSession.line]
        dsimp only
        rw [hser]
        rfl
    · change (((w.enter k s.sessionId registry).disown k s.sessionId).sessions.get? b).bind _ = _
      rw [disown_sessions]
      rfl
  have howners : ∀ k', ((w.enter k s.sessionId registry).rollBack s k).portOwners.get? k' =
      w.portOwners.get? k' := by
    intro k'
    change ((w.enter k s.sessionId registry).disown k s.sessionId).portOwners.get? k' = _
    have hentered : (w.enter k s.sessionId registry).portOwners.get? k = some s.sessionId :=
      Dict.get?_set_self _ _ _
    rw [get?_disown, hentered]
    by_cases hk : k' = k
    · rw [if_pos ⟨hk, rfl⟩, hk]
      cases howner : w.portOwners.get? k with
      | none => rfl
      | some b =>
          obtain rfl := h.owner_of_free hfree howner
          obtain ⟨l, hl, -⟩ := (h.ledger.table_iff k _).mp howner
          cases hvacant.symm.trans hl
    · rw [if_neg fun hand => hk hand.1]
      exact Dict.get?_set_of_ne _ _ _ _ hk
  have hregistry : ((w.enter k s.sessionId registry).rollBack s k).registry =
      (onRegistry (release (resourceOwnerId s.sessionId)) registry).2 := by
    unfold Service.rollBack Service.update Service.releaseResource
    dsimp only
    rw [disown_registry]
    rfl
  have hkeys : ∀ o, ownerKeys casing.toCasefold ((w.enter k s.sessionId registry).rollBack s k).registry o =
      ownerKeys casing.toCasefold w.registry o := by
    intro o
    rw [hregistry, ownerKeys_release hconsistent, hfits.unspaced]
    split
    · next ho => rw [ho, h.ownerKeys_empty hvacant]
    · next ho => exact hown o ho
  constructor
  case consistent =>
    rw [hregistry]
    exact hconsistent.release _
  case fits =>
    refine fits_update ?_ ⟨rfl, hfits.named, hfits.unspaced, ?_, fun hrunning => absurd hrunning hstate⟩
    · intro b t ht
      change ((w.enter k s.sessionId registry).disown k s.sessionId).sessions.get? b = some t at ht
      rw [disown_sessions] at ht
      exact h.fits b t ht
    · intro p hp
      cases hser.symm.trans hp
  case ledger =>
    refine h.ledger.congr hline howners fun b => ?_
    rw [hkeys]
  case nonempty =>
    intro b l hl
    exact h.nonempty b l ((hline b).symm.trans hl)
  case owners =>
    intro o ho
    rw [hkeys] at ho
    exact h.owners o ho

/-- An orderly start keeps the invariant. -/
theorem Sound.start (h : Sound catalog w)
    (hg : Orderly catalog nt w (.start ports a port config opening)) :
    Sound catalog (w.start catalog nt ports a port config opening).2 := by
  by_cases hreaches : ∃ session openPort identity, Reaches catalog nt w ports a port session openPort identity
  case neg =>
    rw [start_of_not_reaches fun session openPort identity hr => hreaches ⟨session, openPort, identity, hr⟩]
    exact h
  obtain ⟨session, openPort, identity, hr⟩ := hreaches
  have hstart := start_of_reaches hr config opening
  have hfits := h.fits a session hr.found
  have hg' := hg session openPort identity hr
  rw [hstart]
  obtain ⟨e, he⟩ | ⟨r, registry, hok, hconsistent, hkeys, hown, -⟩ :=
    h.reserve_cases hr.found openPort identity
  · rw [acquire_of_error he]
    cases hline : session.line casing with
    | none =>
        refine h.rollBack hr.found hline hr.free hfits.sessionId ?_ hr.stopped h.consistent fun _ _ => rfl
        exact Option.map_eq_none_iff.mp hline
    | some l =>
        rw [hline] at hg'
        exact absurd (congrArg Prod.fst he) (h.reserve_line hr.found hline hg'.2.2 e)
  · rw [acquire_of_ok hok]
    by_cases hopened : opening = .opened
    · subst hopened
      rw [if_pos rfl]
      refine h.enter hr.found ?_ hr.free ?_ rfl hconsistent hkeys hown
      · intro l hl
        rw [hl] at hg'
        exact hg'.2.1.symm
      · refine ⟨hfits.sessionId, hfits.named, hfits.unspaced, ?_, fun _ heq => by cases heq⟩
        intro p hp
        obtain rfl := Option.some.inj hp
        exact ⟨rfl, identityKey_ne_empty hr.identified hkeys⟩
    · rw [if_neg hopened]
      cases hline : session.line casing with
      | some l =>
          rw [hline] at hg'
          exact absurd hg'.1 hopened
      | none =>
          have hser : session.channel.ser = none := Option.map_eq_none_iff.mp hline
          rw [hline] at hg'
          have hrefused : opening = .refused := by
            cases opening with
            | opened => exact absurd rfl hopened
            | refused => rfl
            | broken =>
                obtain ⟨e, he⟩ := hg' rfl
                rw [hok] at he
                cases he
          subst hrefused
          refine h.rollBack hr.found hline hr.free hfits.sessionId hser hr.stopped hconsistent fun o ho => ?_
          rw [hown, if_neg ho]

end Calls

end Ownership

end HplcWorkbench.ModuleSerial
