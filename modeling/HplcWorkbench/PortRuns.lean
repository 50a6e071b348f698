import HplcWorkbench.PortOwnership

/-!
# The ports over the runs of the module serial service

Every call but an unorderly start keeps the records of the handles, and an unorderly start breaks them at
once. After it a session can be stopped and deleted while the port table still names it, and nobody else
opens the port again.
-/

namespace HplcWorkbench.ModuleSerial
open SerialResources OrderedDict Transitions KeyOwnership

section Steps
variable {casing : Casing} {catalog : SerialPortCatalog casing} {nt : Bool} {w w' : Service}
  {ports : List String} {a port : String} {config : SerialConfig} {opening : Opening}

/-! ## The other calls -/

theorem disowned_sessions (k a : String) :
    (if k ≠ "" then w.disown k a else w).sessions = w.sessions := by
  split
  · exact disown_sessions k a
  · rfl

theorem disowned_registry (k a : String) :
    (if k ≠ "" then w.disown k a else w).registry = w.registry := by
  split
  · exact disown_registry k a
  · rfl

theorem Sound.stop (h : Sound catalog w) : Sound catalog (w.stop a).2 := by
  unfold Service.stop
  cases hs : w.sessions.get? a with
  | none => exact h
  | some session =>
      dsimp only
      by_cases hflash : session.channel.flashing = true
      · rw [if_pos hflash]
        exact h
      rw [if_neg hflash]
      have hfits := h.fits a session hs
      refine h.leave hs ?_ ?_ rfl ?_
      · intro b
        change ((Service.update _ _).lineOf casing b) = _
        rw [lineOf_update, hfits.sessionId]
        refine if_congr Iff.rfl rfl ?_
        unfold Service.lineOf
        rw [disowned_sessions]
      · refine fits_update ?_ ⟨rfl, ?_, ?_, ?_, ?_⟩
        · rw [disowned_sessions]
          exact h.fits
        · exact hfits.sessionId.symm ▸ hfits.named
        · exact hfits.sessionId.symm ▸ hfits.unspaced
        · intro p hp
          cases hp
        · intro hrunning
          cases hrunning
      · unfold Service.releaseResource Service.update
        dsimp only
        rw [disowned_registry]

theorem Sound.delete (h : Sound catalog w) : Sound catalog (w.delete a).2 := by
  unfold Service.delete
  cases hs : w.sessions.get? a with
  | none => exact h
  | some session =>
      dsimp only
      by_cases hbusy : session.channel.state = .running ∨ session.channel.flashing = true
      · rw [if_pos hbusy]
        exact h
      rw [if_neg hbusy]
      have hget : ∀ b, (w.sessions.erase a).get? b = if b = a then none else w.sessions.get? b := by
        intro b
        split
        · next hb => rw [hb, Dict.get?_erase_self]
        · next hb => rw [Dict.get?_erase_of_ne _ _ _ hb]
      refine h.leave hs ?_ ?_ ?_ ?_
      · intro b
        unfold Service.lineOf Service.releaseResource
        dsimp only
        rw [disowned_sessions, hget]
        split <;> rfl
      · intro b t ht
        unfold Service.releaseResource at ht
        dsimp only at ht
        rw [disowned_sessions, hget] at ht
        split at ht
        · cases ht
        · exact h.fits b t ht
      · unfold Service.releaseResource Service.disown
        split <;> [split; skip] <;> rfl
      · unfold Service.releaseResource
        dsimp only
        rw [disowned_registry]

theorem strip_eq_self {s : String} (h : ∀ c ∈ s.toList, Adapter10376.pySpace c = false) : strip s = s := by
  rw [strip, pyStrip_eq_self h, String.ofList_toList]

/-- A new identifier has no spaces. -/
theorem IsHex.no_space {digits : String} (h : IsHex digits) :
    ∀ c ∈ ("ms-" ++ digits).toList, Adapter10376.pySpace c = false := by
  intro c hc
  rw [String.toList_append, List.mem_append] at hc
  have hall : ("ms-".toList ++ "0123456789abcdef".toList).all (fun c => !Adapter10376.pySpace c) = true := by
    decide
  rw [List.all_eq_true] at hall
  obtain hc | hc := hc
  · simpa using hall c (List.mem_append_left _ hc)
  · simpa using hall c (List.mem_append_right _ (h c hc))

theorem resourceOwnerId_unspaced {a : String} (h : ∀ c ∈ a.toList, Adapter10376.pySpace c = false) :
    strip (resourceOwnerId a) = resourceOwnerId a := by
  refine strip_eq_self fun c hc => ?_
  have hall : ("module:".toList.all fun c => !Adapter10376.pySpace c) = true := by decide
  rw [resourceOwnerId, String.toList_append, List.mem_append] at hc
  rw [List.all_eq_true] at hall
  exact hc.elim (fun hc => by simpa using hall c hc) (h c)

theorem sessionId_ne_empty (digits : String) : "ms-" ++ digits ≠ "" := by
  intro hblank
  have hlist := congrArg String.toList hblank
  rw [String.toList_append] at hlist
  cases hlist

/-- The counter of the default titles does not matter. -/
theorem Sound.retitle (h : Sound catalog w) (n : ℕ) : Sound catalog { w with nextDefaultTitle := n } :=
  ⟨h.consistent, h.fits, h.ledger, h.nonempty, h.owners⟩

theorem Sound.create (h : Sound catalog w) {digits : String} (title moduleType : String)
    (hhex : IsHex digits) (hfresh : w.sessions.get? ("ms-" ++ digits) = none) :
    Sound catalog (w.create casing digits title moduleType).2 := by
  have hupdate : Sound catalog (w.update (w.newSession casing digits title moduleType)) := by
    refine h.update ⟨rfl, sessionId_ne_empty digits, resourceOwnerId_unspaced hhex.no_space, ?_, ?_⟩ ?_
    · intro p hp
      cases hp
    · intro hrunning
      cases hrunning
    · unfold Service.lineOf
      rw [Service.newSession, hfresh]
      rfl
  unfold Service.create
  by_cases hmodule : normalise casing moduleType ∉ ["cco", "sta"]
  · rw [if_pos hmodule]
    exact h
  · rw [if_neg hmodule]
    exact hupdate.retitle _

/-- A change of a channel that leaves its handle alone. -/
theorem Sound.onChannel (h : Sound catalog w) {allowed : Channel → Bool} {f : Channel → Channel}
    (hser : ∀ c, (f c).ser = c.ser) (hrunning : ∀ c, (f c).state = .running → c.state = .running)
    (hw : w.onChannel a allowed f = some w') : Sound catalog w' := by
  unfold Service.onChannel at hw
  split at hw
  · cases hw
  · next session hs =>
      split at hw
      · obtain rfl := Option.some.inj hw
        have hfits := h.fits a session hs
        have hline : ({ session with channel := f session.channel } : ModuleSession).line casing =
            session.line casing := by
          unfold ModuleSession.line
          dsimp only
          rw [hser]
          rfl
        refine h.update ⟨rfl, ?_, ?_, ?_, ?_⟩ ?_
        · exact hfits.sessionId.symm ▸ hfits.named
        · exact hfits.sessionId.symm ▸ hfits.unspaced
        · intro p hp
          exact hfits.key p ((hser _).symm.trans hp)
        · intro hstate
          exact fun hnone => hfits.running (hrunning _ hstate) ((hser _).symm.trans hnone)
        · rw [hline]
          exact (lineOf_eq (hfits.sessionId.symm ▸ hs)).symm
      · cases hw

/-- Every step but an unorderly start keeps the invariant. -/
theorem Sound.step (h : Sound catalog w) {e : Event} (hg : Orderly catalog nt w e)
    (hs : (machine catalog nt).step w e = some w') : Sound catalog w' := by
  cases e with
  | create digits title moduleType =>
      simp only [machine] at hs
      split at hs
      · next hnew =>
          obtain rfl := Option.some.inj hs
          exact h.create title moduleType hnew.1 hnew.2
      · cases hs
  | start ports a port config opening =>
      obtain rfl := Option.some.inj hs
      exact h.start hg
  | stop a =>
      obtain rfl := Option.some.inj hs
      exact h.stop
  | delete a =>
      obtain rfl := Option.some.inj hs
      exact h.delete
  | rxFails a =>
      dsimp only [machine] at hs
      refine h.onChannel ?_ ?_ hs
      · exact fun _ => rfl
      · intro c hstate
        cases hstate
  | flash a =>
      dsimp only [machine] at hs
      refine h.onChannel ?_ ?_ hs
      · exact fun _ => rfl
      · exact fun _ => id
  | flashEnds a =>
      dsimp only [machine] at hs
      refine h.onChannel ?_ ?_ hs
      · exact fun _ => rfl
      · exact fun _ => id

/-! ## An unorderly start -/

/-- Taking the records back for a session that still has a handle. -/
theorem not_exclusive_rollBack {s : ModuleSession} {k : String} {l : String × Finset String}
    (hunspaced : strip (resourceOwnerId s.sessionId) = resourceOwnerId s.sessionId)
    (hline : s.line casing = some l) : ¬ Exclusive catalog nt (w.rollBack s k) := by
  intro h
  have hheld : (w.rollBack s k).lineOf casing s.sessionId = some l := by
    unfold Service.rollBack
    rw [lineOf_update, if_pos rfl]
    exact hline
  obtain ⟨r, hr, -⟩ := h.reserved s.sessionId l hheld
  have hreleased := release_lookup (s := (w.disown k s.sessionId).registry) (resourceOwnerId s.sessionId)
  rw [hunspaced] at hreleased
  cases hreleased.symm.trans hr

theorem orderly_of_exclusive (h : Sound catalog w)
    (hx : Exclusive catalog nt (w.start catalog nt ports a port config opening).2) :
    Orderly catalog nt w (.start ports a port config opening) := by
  intro session openPort identity hr
  have hstart := start_of_reaches hr config opening
  have hfits := h.fits a session hr.found
  have hunspaced := hfits.sessionId.symm ▸ hfits.unspaced
  rw [hstart] at hx
  obtain ⟨e, he⟩ | ⟨r, registry, hok, -, -, -, hsame⟩ := h.reserve_cases hr.found openPort identity
  · rw [acquire_of_error he] at hx
    cases hline : session.line casing with
    | none => exact fun _ => ⟨e, congrArg Prod.fst he⟩
    | some l => exact absurd hx (not_exclusive_rollBack hunspaced hline)
  rw [acquire_of_ok hok] at hx
  by_cases hopened : opening = .opened
  · subst hopened
    rw [if_pos rfl] at hx
    cases hline : session.line casing with
    | none => exact fun hbroken => by cases hbroken
    | some l =>
        have hheld := (lineOf_eq hr.found).trans hline
        refine ⟨rfl, not_not.mp fun hne => ?_, hsame l hheld⟩
        -- the entry of the old port is still there
        have hstale : ((w.enter (catalog.identityKey openPort) a registry).update
            (session.started catalog openPort identity (requestedConfig casing config) .opened)).portOwners.get?
            (catalog.identityKey l.1) = some a := by
          refine (Dict.get?_set_of_ne _ _ _ _ (Ne.symm hne)).trans ?_
          exact (h.ledger.table_iff _ a).mpr ⟨l, hheld, rfl⟩
        obtain ⟨l', hl', hkey⟩ := hx.entry _ a hstale
        have hself : a = (session.started catalog openPort identity (requestedConfig casing config) .opened).sessionId :=
          hfits.sessionId.symm
        rw [lineOf_update, if_pos hself] at hl'
        obtain rfl := Option.some.inj hl'
        exact hne hkey
  · rw [if_neg hopened] at hx
    cases hline : session.line casing with
    | none =>
        intro hbroken
        subst hbroken
        exact absurd hx (not_exclusive_rollBack hunspaced rfl)
    | some l =>
        cases opening with
        | opened => exact absurd rfl hopened
        | refused =>
            obtain ⟨p, hp, -⟩ := Option.map_eq_some_iff.mp hline
            have hkept : (session.started catalog openPort identity (requestedConfig casing config) .refused).line casing =
                some (p, _) := congrArg (Option.map _) hp
            exact absurd hx (not_exclusive_rollBack hunspaced hkept)
        | broken => exact absurd hx (not_exclusive_rollBack hunspaced rfl)

/-- The handles and the two records agree in every state of a run exactly when all its starts are
orderly. -/
theorem exclusive_iff_orderly (catalog : SerialPortCatalog casing) (nt : Bool) (events : List Event) :
    (machine catalog nt).Follows
        (fun w e => ∀ w', (machine catalog nt).step w e = some w' → Exclusive catalog nt w') {} events ↔
      (machine catalog nt).Follows (Orderly catalog nt) {} events := by
  refine Machine.follows_iff (Sound catalog) ?_ ?_ (fun w e w' h hg hs => h.step hg hs) Sound.empty
  · intro w e w' h hs
    constructor
    · intro hx
      cases e with
      | start ports a port config opening => exact orderly_of_exclusive h (hx _ rfl)
      | create | stop | delete | rxFails | flash | flashEnds => trivial
    · intro hg w' hs'
      exact (h.step hg hs').exclusive
  · intro w e h hs
    refine iff_of_true (fun w' hs' => ?_) ?_
    · cases hs.symm.trans hs'
    · cases e with
      | start ports a port config opening => cases hs
      | create | stop | delete | rxFails | flash | flashEnds => trivial

end Steps

/-! ## A port that is lost -/

/-- Casing of ASCII text. -/
def asciiCasing : Casing where
  toCasefold := asciiCasefold
  lower s := String.ofList (s.toList.map Char.toLower)
  upper s := String.ofList (s.toList.map Char.toUpper)
  lower_eq_empty := by
    intro s
    rw [← String.toList_eq_nil_iff, String.toList_ofList, List.map_eq_nil_iff, String.toList_eq_nil_iff]

/-- A catalogue without mappings. -/
def noMappings : SerialPortCatalog asciiCasing :=
  ⟨[], fun _ h => absurd h List.not_mem_nil, fun _ h => absurd h List.not_mem_nil, List.nodup_nil,
    fun _ h => absurd h List.not_mem_nil⟩

/-- The receiving thread on COM1 fails, the session is started on COM2 instead, which is refused, and then
it is stopped and deleted. -/
def failingPort : List Event :=
  [.create "00000000000a" "" "cco", .start [] "ms-00000000000a" "COM1" {} .opened, .rxFails "ms-00000000000a",
    .start [] "ms-00000000000a" "COM2" {} .opened, .stop "ms-00000000000a", .delete "ms-00000000000a"]

/-- The port table still names the session that is gone. -/
theorem deletedSession_owns_port : ¬ ∀ events : List Event,
    (machine noMappings false).Follows
      (fun w e => ∀ w', (machine noMappings false).step w e = some w' → Exclusive noMappings false w')
      {} events := by
  intro hall
  have hlost : ((machine noMappings false).run {} failingPort).map
      (fun w => (w.portOwners.get? "com1", w.sessions.get? "ms-00000000000a")) =
      some (some "ms-00000000000a", none) := by decide +kernel
  obtain ⟨w, hrun, hw⟩ := Option.map_eq_some_iff.mp hlost
  obtain ⟨howner, hgone⟩ := Prod.mk.inj hw
  have hx : Exclusive noMappings false w :=
    Machine.run_invariant (Exclusive noMappings false) (fun _ _ w' _ hg hs => hg w' hs)
      Sound.empty.exclusive (hall failingPort) hrun
  obtain ⟨l, hl, -⟩ := hx.entry "com1" _ howner
  unfold Service.lineOf at hl
  rw [hgone] at hl
  cases hl

end HplcWorkbench.ModuleSerial
