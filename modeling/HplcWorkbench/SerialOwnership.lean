import HplcWorkbench.SerialResources
import Mathlib.Data.List.DropRight

/-!
# The two dicts of the serial registry agree

In every registry that calls leave behind, the keys of an owner's reservation are exactly the
keys filed under it, so the dict of the owners is an ownership of keys: a successful `reserve` claims
in it, and `release` frees.
-/

namespace HplcWorkbench.SerialResources

open KeyOwnership

/-! ## Lookups -/

section Lookups
variable {s : Registry} {key : String}

theorem lookup_foldl_insert (r : SerialReservation) (keys : List String)
    (d : AList fun _ : String => SerialReservation) (key : String) :
    (keys.foldl (fun d k => d.insert k r) d).lookup key =
      if key ∈ keys then some r else d.lookup key := by
  induction keys generalizing d with
  | nil => simp
  | cons k rest ih =>
      rw [List.foldl_cons, ih]
      by_cases hrest : key ∈ rest
      · simp [hrest]
      by_cases hk : key = k
      · simp [hrest, ← hk, AList.lookup_insert]
      · simp [hrest, hk, AList.lookup_insert_ne]

theorem lookup_foldl_erase (items : List (Sigma fun _ : String => SerialReservation))
    (d : AList fun _ : String => SerialReservation) (key : String) :
    (items.foldl (fun d e => d.erase e.1) d).lookup key =
      if key ∈ items.map Sigma.fst then none else d.lookup key := by
  induction items generalizing d with
  | nil => simp
  | cons e rest ih =>
      rw [List.foldl_cons, ih]
      by_cases hrest : key ∈ rest.map Sigma.fst
      · rw [if_pos hrest, if_pos (by simpa using Or.inr (by simpa using hrest))]
      by_cases he : key = e.1
      · rw [if_neg hrest, he, AList.lookup_erase, if_pos (by simp)]
      · rw [if_neg hrest, AList.lookup_erase_ne he, if_neg (by simpa [he] using hrest)]

theorem mem_heldKeys {ownerId : String} :
    key ∈ heldKeys s ownerId ↔ ∃ r, s.byKey.lookup key = some r ∧ r.ownerId = ownerId := by
  simp only [heldKeys, List.mem_toFinset, List.mem_map, List.mem_filter, decide_eq_true_eq]
  constructor
  · rintro ⟨e, ⟨he, howner⟩, rfl⟩
    exact ⟨e.2, AList.mem_lookup_iff.mpr he, howner⟩
  · rintro ⟨r, hr, howner⟩
    exact ⟨⟨key, r⟩, ⟨AList.mem_lookup_iff.mp hr, howner⟩, rfl⟩

theorem lookup_unfile (s : Registry) (ownerId key : String) :
    (s.unfile ownerId).byKey.lookup key =
      (s.byKey.lookup key).filter (fun r => r.ownerId ≠ ownerId) := by
  rw [Registry.unfile, lookup_foldl_erase]
  have hheld : key ∈ (s.byKey.entries.filter (fun e => e.2.ownerId = ownerId)).map Sigma.fst ↔
      ∃ r, s.byKey.lookup key = some r ∧ r.ownerId = ownerId := by
    rw [← mem_heldKeys, heldKeys, List.mem_toFinset]
  simp only [hheld]
  cases s.byKey.lookup key with
  | none => simp
  | some r => by_cases h : r.ownerId = ownerId <;> simp [Option.filter, h]

theorem lookup_file (s : Registry) (r : SerialReservation) (keys : Finset String) (key : String) :
    (s.file r (keys.sort (· ≤ ·))).byKey.lookup key =
      if key ∈ keys then some r else s.byKey.lookup key := by
  rw [Registry.file, lookup_foldl_insert]
  simp only [Finset.mem_sort]

theorem owner_file (s : Registry) (r : SerialReservation) (keys : List String) (o : String) :
    (s.file r keys).byOwner.lookup o = if o = r.ownerId then some r else s.byOwner.lookup o := by
  by_cases ho : o = r.ownerId
  · rw [if_pos ho, ho]
    exact AList.lookup_insert _
  · rw [if_neg ho]
    exact AList.lookup_insert_ne ho

theorem owner_unfile (s : Registry) (ownerId o : String) :
    (s.unfile ownerId).byOwner.lookup o = if o = ownerId then none else s.byOwner.lookup o := by
  by_cases ho : o = ownerId
  · rw [if_pos ho, ho]
    exact AList.lookup_erase _ _
  · rw [if_neg ho]
    exact AList.lookup_erase_ne ho

theorem conflict?_eq_none {ownerId : String} {keys : List String} :
    conflict? s ownerId keys = none ↔
      ∀ key ∈ keys, ∀ r, s.byKey.lookup key = some r → r.ownerId = ownerId := by
  simp only [conflict?, List.findSome?_eq_none_iff, Option.filter_eq_none_iff]
  simp

end Lookups

/-! ## The recorded aliases -/

theorem pyStrip_pyStrip (l : List Char) :
    Adapter10376.pyStrip (Adapter10376.pyStrip l) = Adapter10376.pyStrip l := by
  let front := l.dropWhile Adapter10376.pySpace
  change List.rdropWhile _ (List.dropWhile _ (front.rdropWhile Adapter10376.pySpace)) =
    front.rdropWhile Adapter10376.pySpace
  have hhead : (front.rdropWhile Adapter10376.pySpace).dropWhile Adapter10376.pySpace =
      front.rdropWhile Adapter10376.pySpace := by
    rw [List.dropWhile_eq_self_iff]
    intro hpos
    have hfront := List.dropWhile_eq_self_iff.mp
      (List.dropWhile_idempotent (p := Adapter10376.pySpace) (l := l))
    rw [List.IsPrefix.getElem (List.rdropWhile_prefix Adapter10376.pySpace front) hpos]
    exact hfront (hpos.trans_le (List.rdropWhile_prefix Adapter10376.pySpace front).length_le)
  rw [hhead, List.rdropWhile_idempotent]

theorem strip_strip (a : String) : strip (strip a) = strip a := by
  rw [strip, strip, String.toList_ofList, pyStrip_pyStrip]

section Keys
variable (casefold : Casefold)

theorem normaliseAlias_strip (a : String) :
    normaliseAlias casefold (strip a) = normaliseAlias casefold a := by
  rw [normaliseAlias, normaliseAlias, strip_strip]

theorem normaliseAlias_blank : normaliseAlias casefold "" = "" := casefold.fold_empty

/-- A reservation records its keys: the aliases left out and the spaces around them do not matter. -/
theorem keySet_recordedAliases (resourceId : String) (aliases : List String) :
    keySet casefold resourceId (recordedAliases aliases) = keySet casefold resourceId aliases := by
  have hports : ∀ name, name ≠ "" →
      ((∃ a ∈ recordedAliases aliases, normaliseAlias casefold a = name) ↔
        ∃ a ∈ aliases, normaliseAlias casefold a = name) := by
    intro name hname
    constructor
    · rintro ⟨a, ha, rfl⟩
      simp only [recordedAliases, Finset.mem_sort, List.mem_toFinset, List.mem_filter,
        List.mem_map] at ha
      obtain ⟨⟨b, hb, rfl⟩, -⟩ := ha
      exact ⟨b, hb, (normaliseAlias_strip casefold b).symm⟩
    · rintro ⟨a, ha, rfl⟩
      refine ⟨strip a, ?_, normaliseAlias_strip casefold a⟩
      simp only [recordedAliases, Finset.mem_sort, List.mem_toFinset, List.mem_filter, List.mem_map]
      refine ⟨⟨a, ha, rfl⟩, ?_⟩
      have hstrip : strip a ≠ "" := by
        intro h
        exact hname (by rw [← normaliseAlias_strip, h, normaliseAlias_blank])
      simpa using hstrip
  ext key
  simp only [keySet, Finset.mem_union, List.mem_toFinset, List.mem_map, List.mem_filter,
    decide_eq_true_eq]
  refine or_congr_right (exists_congr fun name => ?_)
  by_cases hname : name = ""
  · simp [hname]
  · simp only [hname, ne_eq, not_false_eq_true, and_true]
    rw [hports name hname]

end Keys

/-! ## The invariant -/

section Consistency
variable (casefold : Casefold)

/-- The keys of a reservation. -/
def SerialReservation.keys (r : SerialReservation) : Finset String :=
  keySet casefold r.resourceId r.aliases

/-- The keys of an owner, as the dict of the owners records them. -/
def ownerKeys (s : Registry) (ownerId : String) : Finset String :=
  (s.byOwner.lookup ownerId).elim ∅ (·.keys casefold)

/-- The two dicts describe one relation: a reservation is filed under exactly its keys. -/
structure Consistent (s : Registry) : Prop where
  owner : ∀ {o r}, s.byOwner.lookup o = some r → r.ownerId = o
  named : s.byOwner.lookup "" = none
  nonempty : ∀ {o r}, s.byOwner.lookup o = some r → (r.keys casefold).Nonempty
  filed : ∀ {key r}, s.byKey.lookup key = some r ↔
    s.byOwner.lookup r.ownerId = some r ∧ key ∈ r.keys casefold

variable {casefold} {s : Registry}

theorem keys_reservationOf (ownerId label resourceId : String) (aliases : List String) :
    (reservationOf ownerId label resourceId aliases).keys casefold =
      keySet casefold resourceId aliases := keySet_recordedAliases casefold resourceId aliases

namespace Consistent
variable (h : Consistent casefold s)
include h

theorem mem_ownerKeys {ownerId key : String} :
    key ∈ ownerKeys casefold s ownerId ↔ ∃ r, s.byKey.lookup key = some r ∧ r.ownerId = ownerId := by
  unfold ownerKeys
  constructor
  · intro hkey
    cases hr : s.byOwner.lookup ownerId with
    | none => simp [hr] at hkey
    | some r =>
        rw [hr] at hkey
        have howner := h.owner hr
        exact ⟨r, h.filed.mpr ⟨howner ▸ hr, hkey⟩, howner⟩
  · rintro ⟨r, hr, rfl⟩
    obtain ⟨hown, hkey⟩ := h.filed.mp hr
    rw [hown]
    exact hkey

theorem heldKeys_eq (ownerId : String) : heldKeys s ownerId = ownerKeys casefold s ownerId :=
  Finset.ext fun _ => mem_heldKeys.trans h.mem_ownerKeys.symm

theorem ownerKeys_eq_empty {ownerId : String} :
    ownerKeys casefold s ownerId = ∅ ↔ s.byOwner.lookup ownerId = none := by
  unfold ownerKeys
  cases hr : s.byOwner.lookup ownerId with
  | none => simp
  | some r => simpa using (h.nonempty hr).ne_empty

/-- No key is recorded for two owners. -/
theorem owner_unique {a b key : String} (ha : key ∈ ownerKeys casefold s a)
    (hb : key ∈ ownerKeys casefold s b) : a = b := by
  obtain ⟨r, hr, rfl⟩ := h.mem_ownerKeys.mp ha
  obtain ⟨r', hr', rfl⟩ := h.mem_ownerKeys.mp hb
  rw [Option.some.inj (hr.symm.trans hr')]

/-- The ownership of keys that a registry stands for. -/
def ownership : Ownership String String where
  holds o := ownerKeys casefold s o
  exclusive := h.owner_unique

theorem conflict?_eq_none {ownerId : String} {keys : Finset String} :
    conflict? s ownerId (keys.sort (· ≤ ·)) = none ↔ h.ownership.Claimable ownerId keys := by
  simp only [SerialResources.conflict?_eq_none, Finset.mem_sort, Ownership.Claimable,
    Finset.mem_coe]
  refine forall_congr' fun key => forall_congr' fun _ => ?_
  constructor
  · intro hfree b hb
    obtain ⟨r, hr, rfl⟩ := h.mem_ownerKeys.mp hb
    exact hfree r hr
  · intro hfree r hr
    exact hfree _ (h.mem_ownerKeys.mpr ⟨r, hr, rfl⟩)

/-- Filing a reservation of an owner that holds nothing. -/
theorem file {r : SerialReservation} (hnamed : r.ownerId ≠ "") (hfresh : s.byOwner.lookup r.ownerId = none)
    (hkeys : (r.keys casefold).Nonempty) (hclaim : h.ownership.Claimable r.ownerId (r.keys casefold)) :
    Consistent casefold (s.file r ((r.keys casefold).sort (· ≤ ·))) := by
  refine ⟨?_, ?_, ?_, ?_⟩
  · intro o r' hr'
    rw [owner_file] at hr'
    split at hr'
    case isTrue ho => exact Option.some.inj hr' ▸ ho.symm
    case isFalse => exact h.owner hr'
  · rw [owner_file, if_neg hnamed.symm, h.named]
  · intro o r' hr'
    rw [owner_file] at hr'
    split at hr'
    case isTrue => exact Option.some.inj hr' ▸ hkeys
    case isFalse => exact h.nonempty hr'
  · intro key r'
    rw [lookup_file, owner_file]
    by_cases hkey : key ∈ r.keys casefold
    · rw [if_pos hkey]
      constructor
      · intro hr'
        obtain rfl := Option.some.inj hr'
        exact ⟨if_pos rfl, hkey⟩
      · rintro ⟨hr', hkey'⟩
        split at hr'
        case isTrue => exact hr'
        case isFalse ho =>
          have hheld : key ∈ ownerKeys casefold s r'.ownerId :=
            h.mem_ownerKeys.mpr ⟨r', h.filed.mpr ⟨hr', hkey'⟩, rfl⟩
          exact absurd (hclaim key hkey _ hheld) ho
    · rw [if_neg hkey, h.filed]
      refine and_congr_left fun hkey' => ?_
      by_cases ho : r'.ownerId = r.ownerId
      · rw [if_pos ho, ho, hfresh]
        refine iff_of_false (by simp) fun hr => hkey ?_
        exact Option.some.inj hr ▸ hkey'
      · rw [if_neg ho]

theorem unfile (ownerId : String) : Consistent casefold (s.unfile ownerId) := by
  refine ⟨?_, ?_, ?_, ?_⟩
  · intro o r hr
    rw [owner_unfile] at hr
    split at hr
    case isTrue => cases hr
    case isFalse => exact h.owner hr
  · rw [owner_unfile, h.named, ite_self]
  · intro o r hr
    rw [owner_unfile] at hr
    split at hr
    case isTrue => cases hr
    case isFalse => exact h.nonempty hr
  · intro key r
    rw [lookup_unfile, owner_unfile, Option.filter_eq_some_iff, h.filed]
    by_cases ho : r.ownerId = ownerId <;> simp [ho]

end Consistent

theorem Consistent.empty : Consistent casefold {} := by
  refine ⟨?_, AList.lookup_empty _, ?_, ?_⟩ <;> simp

/-- At the start nobody holds a key. -/
theorem ownership_empty :
    (Consistent.empty : Consistent casefold {}).ownership = Ownership.vacant := by
  refine Ownership.ext (funext fun o => Set.ext fun key => ?_)
  change key ∈ ownerKeys casefold {} o ↔ key ∈ (∅ : Set String)
  simp [ownerKeys]

end Consistency

/-! ## The calls -/

section Calls
variable {casefold : Casefold} {s : Registry} (h : Consistent casefold s)
  {ownerId label resourceId : String} {aliases : List String}
include h

/-- A reservation that is refused changes nothing, and so does a repeated one; otherwise the owner
claims the keys. -/
theorem reserve_cases (ownerId label resourceId : String) (aliases : List String) :
    (∃ e, onRegistry (reserve casefold ownerId label resourceId aliases) s = (.error e, s)) ∨
    (∃ r, s.byOwner.lookup (strip ownerId) = some r ∧
      onRegistry (reserve casefold ownerId label resourceId aliases) s = (.ok r, s)) ∨
    (strip ownerId ≠ "" ∧ s.byOwner.lookup (strip ownerId) = none ∧
      (keySet casefold resourceId aliases).Nonempty ∧
      h.ownership.Claimable (strip ownerId) (keySet casefold resourceId aliases) ∧
      onRegistry (reserve casefold ownerId label resourceId aliases) s =
        (.ok (reservationOf ownerId label resourceId aliases),
          s.file (reservationOf ownerId label resourceId aliases)
            ((keySet casefold resourceId aliases).sort (· ≤ ·)))) := by
  rw [reserve_run]
  by_cases howner : strip ownerId = ""
  · exact .inl ⟨_, if_pos howner⟩
  by_cases hkeys : keySet casefold resourceId aliases = ∅
  · exact .inl ⟨.noKeys, by rw [if_neg howner, if_pos hkeys]⟩
  rw [if_neg howner, if_neg hkeys]
  cases hprev : s.byOwner.lookup (strip ownerId) with
  | some previous =>
      dsimp only
      split
      case isTrue => exact .inr (.inl ⟨previous, rfl, rfl⟩)
      case isFalse => exact .inl ⟨_, rfl⟩
  | none =>
      dsimp only
      cases hc : conflict? s (strip ownerId) ((keySet casefold resourceId aliases).sort (· ≤ ·)) with
      | some existing => exact .inl ⟨_, rfl⟩
      | none =>
          refine .inr (.inr ⟨howner, rfl, Finset.nonempty_iff_ne_empty.mpr hkeys, ?_, rfl⟩)
          exact h.conflict?_eq_none.mp hc

theorem Consistent.reserve (ownerId label resourceId : String) (aliases : List String) :
    Consistent casefold
      (onRegistry (reserve casefold ownerId label resourceId aliases) s).2 := by
  obtain ⟨e, he⟩ | ⟨r, -, hr⟩ | ⟨hnamed, hfresh, hkeys, hclaim, hr⟩ :=
    reserve_cases h ownerId label resourceId aliases
  · rw [he]
    exact h
  · rw [hr]
    exact h
  · rw [hr, ← keys_reservationOf ownerId label]
    refine h.file hnamed hfresh ?_ ?_
    · rwa [keys_reservationOf]
    · rwa [keys_reservationOf]

theorem Consistent.release (ownerId : String) :
    Consistent casefold (onRegistry (release ownerId) s).2 := by
  rw [release_run]
  split
  · exact h
  · exact h.unfile _

theorem Consistent.run (c : Call) : Consistent casefold (c.run casefold s) := by
  cases c with
  | reserve ownerId label resourceId aliases => exact h.reserve ownerId label resourceId aliases
  | release ownerId => exact h.release ownerId

omit h in
theorem ownerKeys_file (label : String) (o : String) :
    ownerKeys casefold (s.file (reservationOf ownerId label resourceId aliases)
        ((keySet casefold resourceId aliases).sort (· ≤ ·))) o =
      if o = strip ownerId then keySet casefold resourceId aliases else ownerKeys casefold s o := by
  have hlookup := owner_file s (reservationOf ownerId label resourceId aliases)
    ((keySet casefold resourceId aliases).sort (· ≤ ·)) o
  change _ = if o = strip ownerId then _ else _ at hlookup
  unfold ownerKeys
  rw [hlookup]
  by_cases ho : o = strip ownerId
  · rw [if_pos ho, if_pos ho]
    exact keys_reservationOf ownerId label resourceId aliases
  · rw [if_neg ho, if_neg ho]

theorem ownerKeys_release (ownerId o : String) :
    ownerKeys casefold (onRegistry (release ownerId) s).2 o =
      if o = strip ownerId then ∅ else ownerKeys casefold s o := by
  rw [release_run]
  cases hr : s.byOwner.lookup (strip ownerId) with
  | none =>
      by_cases ho : o = strip ownerId
      · rw [if_pos ho, ho]
        exact h.ownerKeys_eq_empty.mpr hr
      · rw [if_neg ho]
  | some r =>
      change ownerKeys casefold (s.unfile (strip ownerId)) o = _
      unfold ownerKeys
      rw [owner_unfile]
      by_cases ho : o = strip ownerId
      · rw [if_pos ho, if_pos ho]
        rfl
      · rw [if_neg ho, if_neg ho]

/-- A successful first reservation is a claim. -/
theorem ownership_reserve
    (hfresh : ownerKeys casefold s (strip ownerId) = ∅)
    (hok : ∃ r, (onRegistry (reserve casefold ownerId label resourceId aliases) s).1 = .ok r) :
    ∃ hclaim, (h.reserve ownerId label resourceId aliases).ownership =
      h.ownership.claim (strip ownerId) (keySet casefold resourceId aliases) hclaim := by
  obtain ⟨e, he⟩ | ⟨r, hr, -⟩ | ⟨-, -, -, hclaim, hr⟩ :=
    reserve_cases h ownerId label resourceId aliases
  · obtain ⟨r, hr⟩ := hok
    rw [he] at hr
    cases hr
  · rw [h.ownerKeys_eq_empty.mp hfresh] at hr
    cases hr
  · refine ⟨hclaim, Ownership.ext (funext fun o => Set.ext fun key => ?_)⟩
    rw [Ownership.mem_claim]
    change key ∈ ownerKeys casefold _ o ↔ key ∈ ownerKeys casefold s o ∨ _
    rw [hr, ownerKeys_file]
    by_cases ho : o = strip ownerId
    · rw [if_pos ho, ho, hfresh]
      simp
    · simp [ho]

/-- A release frees. -/
theorem ownership_release (ownerId : String) :
    (h.release ownerId).ownership = h.ownership.free (strip ownerId) := by
  refine Ownership.ext (funext fun o => Set.ext fun key => ?_)
  rw [Ownership.mem_free]
  change key ∈ ownerKeys casefold _ o ↔ key ∈ ownerKeys casefold s o ∧ _
  rw [ownerKeys_release h]
  by_cases ho : o = strip ownerId <;> simp [ho]

theorem lookup_release (ownerId key : String) :
    (onRegistry (release ownerId) s).2.byKey.lookup key =
      if key ∈ ownerKeys casefold s (strip ownerId) then none else s.byKey.lookup key := by
  have hfilter : (s.byKey.lookup key).filter (fun r => r.ownerId ≠ strip ownerId) =
      if key ∈ ownerKeys casefold s (strip ownerId) then none else s.byKey.lookup key := by
    simp only [h.mem_ownerKeys]
    cases s.byKey.lookup key with
    | none => simp
    | some r => by_cases ho : r.ownerId = strip ownerId <;> simp [Option.filter, ho]
  rw [release_run]
  cases hr : s.byOwner.lookup (strip ownerId) with
  | none =>
      rw [if_neg]
      rw [h.ownerKeys_eq_empty.mpr hr]
      exact Finset.notMem_empty _
  | some r => exact (lookup_unfile s (strip ownerId) key).trans hfilter

/-- An owner that holds nothing gets its keys exactly when they can be claimed. -/
theorem reserve_fresh (hnamed : strip ownerId ≠ "") (hkeys : (keySet casefold resourceId aliases).Nonempty)
    (hfresh : ownerKeys casefold s (strip ownerId) = ∅) :
    (∃ r, (onRegistry (reserve casefold ownerId label resourceId aliases) s).1 = .ok r) ↔
      h.ownership.Claimable (strip ownerId) (keySet casefold resourceId aliases) := by
  rw [reserve_run, if_neg hnamed, if_neg hkeys.ne_empty, h.ownerKeys_eq_empty.mp hfresh,
    ← h.conflict?_eq_none]
  dsimp only
  cases conflict? s (strip ownerId) ((keySet casefold resourceId aliases).sort (· ≤ ·)) with
  | some existing => simp
  | none => simp

/-- An owner that holds something gets its reservation back for the same keys only. -/
theorem reserve_again {r : SerialReservation} (hr : s.byOwner.lookup (strip ownerId) = some r) :
    onRegistry (reserve casefold ownerId label resourceId aliases) s =
      (if keySet casefold resourceId aliases = ∅ then .error .noKeys
        else if ownerKeys casefold s (strip ownerId) = keySet casefold resourceId aliases then .ok r
        else .error (.holdsOther (strip ownerId)), s) := by
  have hnamed : strip ownerId ≠ "" := by
    intro hblank
    rw [hblank, h.named] at hr
    cases hr
  rw [reserve_run, if_neg hnamed]
  by_cases hkeys : keySet casefold resourceId aliases = ∅
  · rw [if_pos hkeys, if_pos hkeys]
  rw [if_neg hkeys, if_neg hkeys, hr, h.heldKeys_eq]
  dsimp only
  split <;> rfl

omit h in
theorem release_lookup (ownerId : String) :
    (onRegistry (release ownerId) s).2.byOwner.lookup (strip ownerId) = none := by
  rw [release_run]
  cases hr : s.byOwner.lookup (strip ownerId) with
  | none => exact hr
  | some r =>
      dsimp only
      rw [owner_unfile, if_pos rfl]

/-- What a reservation leaves of the keys: nothing changes where it is refused, -/
theorem reserve_error {e : ReserveError}
    (he : (onRegistry (reserve casefold ownerId label resourceId aliases) s).1 = .error e) :
    (onRegistry (reserve casefold ownerId label resourceId aliases) s).2 = s := by
  obtain ⟨e', hr⟩ | ⟨r, -, hr⟩ | ⟨-, -, -, -, hr⟩ := reserve_cases h ownerId label resourceId aliases
  · rw [hr]
  · rw [hr]
  · rw [hr] at he
    cases he

/-- and where it is granted the owner has exactly the keys it asked for, which it had before if it had
any. -/
theorem reserve_ok {r : SerialReservation}
    (hr : (onRegistry (reserve casefold ownerId label resourceId aliases) s).1 = .ok r) :
    (keySet casefold resourceId aliases).Nonempty ∧
      (∀ o, ownerKeys casefold (onRegistry (reserve casefold ownerId label resourceId aliases) s).2 o =
        if o = strip ownerId then keySet casefold resourceId aliases else ownerKeys casefold s o) ∧
      (ownerKeys casefold s (strip ownerId) = ∅ ∨
        ownerKeys casefold s (strip ownerId) = keySet casefold resourceId aliases) := by
  obtain ⟨e, he⟩ | ⟨r', hprevious, -⟩ | ⟨-, hfresh, hkeys, -, hfile⟩ :=
    reserve_cases h ownerId label resourceId aliases
  · rw [he] at hr
    cases hr
  · rw [reserve_again h hprevious] at hr ⊢
    dsimp only at hr ⊢
    split at hr
    · cases hr
    · next hne =>
        split at hr
        · next hsame =>
            refine ⟨Finset.nonempty_iff_ne_empty.mpr hne, fun o => ?_, .inr hsame⟩
            split
            · next ho => rw [ho, hsame]
            · rfl
        · cases hr
  · refine ⟨hkeys, fun o => ?_, .inl (h.ownerKeys_eq_empty.mpr hfresh)⟩
    rw [hfile, ownerKeys_file]

end Calls

theorem consistent_after (casefold : Casefold) (calls : List Call) :
    Consistent casefold (after casefold calls) := by
  unfold after
  induction calls using List.reverseRecOn with
  | nil => exact Consistent.empty
  | append_singleton calls c ih =>
      rw [List.foldl_append]
      exact ih.run c

/-! ## Mutual exclusion and atomicity -/

section Exclusion
variable (casefold : Casefold) (s : Registry)

/-- What the callers of a registry rely on. -/
structure MutuallyExclusive : Prop where
  /-- The key sets of two owners are disjoint. -/
  disjoint : ∀ a b, a ≠ b → Disjoint (ownerKeys casefold s a) (ownerKeys casefold s b)
  /-- The two dicts describe one relation. -/
  inverse : ∀ key o,
    (∃ r, s.byKey.lookup key = some r ∧ r.ownerId = o) ↔ key ∈ ownerKeys casefold s o
  /-- A refused reservation leaves both dicts as they were. -/
  refused : ∀ ownerId label resourceId aliases e,
    (onRegistry (reserve casefold ownerId label resourceId aliases) s).1 = .error e →
      (onRegistry (reserve casefold ownerId label resourceId aliases) s).2 = s
  /-- An owner without a name and a reservation without a key are refused. -/
  guards : ∀ ownerId label resourceId aliases,
    strip ownerId = "" ∨ keySet casefold resourceId aliases = ∅ →
      ∃ e, (onRegistry (reserve casefold ownerId label resourceId aliases) s).1 = .error e
  /-- Otherwise an owner that holds nothing is refused exactly when a key is taken, -/
  fresh : ∀ ownerId label resourceId aliases, strip ownerId ≠ "" →
    keySet casefold resourceId aliases ≠ ∅ → ownerKeys casefold s (strip ownerId) = ∅ →
      ((∃ r, (onRegistry (reserve casefold ownerId label resourceId aliases) s).1 = .ok r) ↔
        ∀ key ∈ keySet casefold resourceId aliases, ∀ o, o ≠ strip ownerId →
          key ∉ ownerKeys casefold s o)
  /-- and holds exactly these keys once it succeeded. -/
  takes : ∀ ownerId label resourceId aliases, ownerKeys casefold s (strip ownerId) = ∅ →
    (∃ r, (onRegistry (reserve casefold ownerId label resourceId aliases) s).1 = .ok r) → ∀ o,
      ownerKeys casefold (onRegistry (reserve casefold ownerId label resourceId aliases) s).2 o =
        if o = strip ownerId then keySet casefold resourceId aliases else ownerKeys casefold s o
  /-- A holder gets its reservation back for the same keys and is refused for others. -/
  repeated : ∀ ownerId label resourceId aliases r, s.byOwner.lookup (strip ownerId) = some r →
    if keySet casefold resourceId aliases = ownerKeys casefold s (strip ownerId) then
      onRegistry (reserve casefold ownerId label resourceId aliases) s = (.ok r, s)
    else ∃ e, (onRegistry (reserve casefold ownerId label resourceId aliases) s).1 = .error e
  /-- A release frees the keys of its owner and no other. -/
  frees : ∀ ownerId,
    (∀ o, ownerKeys casefold (onRegistry (release ownerId) s).2 o =
      if o = strip ownerId then ∅ else ownerKeys casefold s o) ∧
    ∀ key, (onRegistry (release ownerId) s).2.byKey.lookup key =
      if key ∈ ownerKeys casefold s (strip ownerId) then none else s.byKey.lookup key

end Exclusion

/-- After any calls the registry is exclusive, its dicts agree and its calls are atomic. -/
theorem mutuallyExclusive_after (casefold : Casefold) (calls : List Call) :
    MutuallyExclusive casefold (after casefold calls) := by
  have h := consistent_after casefold calls
  constructor
  case disjoint =>
    intro a b hab
    exact Finset.disjoint_coe.mp (h.ownership.disjoint hab)
  case inverse =>
    intro key o
    exact h.mem_ownerKeys.symm
  case refused =>
    intro ownerId label resourceId aliases e he
    obtain ⟨e', hr⟩ | ⟨r, -, hr⟩ | ⟨-, -, -, -, hr⟩ :=
      reserve_cases h ownerId label resourceId aliases
    · rw [hr]
    · rw [hr]
    · rw [hr] at he
      cases he
  case guards =>
    intro ownerId label resourceId aliases hguard
    rw [reserve_run]
    by_cases hblank : strip ownerId = ""
    · exact ⟨_, by rw [if_pos hblank]⟩
    · exact ⟨.noKeys, by rw [if_neg hblank, if_pos (hguard.resolve_left hblank)]⟩
  case fresh =>
    intro ownerId label resourceId aliases hnamed hkeys hfresh
    rw [reserve_fresh h hnamed (Finset.nonempty_iff_ne_empty.mpr hkeys) hfresh]
    refine forall_congr' fun key => forall_congr' fun _ => forall_congr' fun o => ?_
    exact not_imp_not.symm
  case takes =>
    intro ownerId label resourceId aliases hfresh hok o
    obtain ⟨hclaim, hown⟩ := ownership_reserve h hfresh hok
    have ho := congrArg (fun w => w.holds o) hown
    apply Finset.coe_injective
    refine Eq.trans ho (Set.ext fun key => ?_)
    change key ∈ ownerKeys casefold (after casefold calls) o ∨ _ ↔ _
    by_cases howner : o = strip ownerId
    · rw [howner, hfresh]
      simp
    · simp [howner]
  case repeated =>
    intro ownerId label resourceId aliases r hr
    have hheld : ownerKeys casefold (after casefold calls) (strip ownerId) ≠ ∅ := by
      intro hempty
      rw [h.ownerKeys_eq_empty.mp hempty] at hr
      cases hr
    rw [reserve_again h hr]
    by_cases hsame : keySet casefold resourceId aliases =
        ownerKeys casefold (after casefold calls) (strip ownerId)
    · rw [if_pos hsame, hsame, if_neg hheld, if_pos rfl]
    · rw [if_neg hsame, if_neg (Ne.symm hsame)]
      split
      · exact ⟨_, rfl⟩
      · exact ⟨_, rfl⟩
  case frees =>
    intro ownerId
    exact ⟨ownerKeys_release h ownerId, lookup_release h ownerId⟩

/-- `str.casefold` on ASCII text. -/
def asciiCasefold : Casefold := ⟨fun s => String.ofList (s.toList.map Char.toLower), rfl⟩

/-- The guards matter: a reservation without a key is refused although none of its keys is taken. -/
theorem reserve_without_key :
    ¬ ∀ (calls : List Call) (ownerId label resourceId : String) (aliases : List String),
      ownerKeys asciiCasefold (after asciiCasefold calls) (strip ownerId) = ∅ →
        ((∃ r, (onRegistry (reserve asciiCasefold ownerId label resourceId aliases)
            (after asciiCasefold calls)).1 = .ok r) ↔
          ∀ key ∈ keySet asciiCasefold resourceId aliases, ∀ o, o ≠ strip ownerId →
            key ∉ ownerKeys asciiCasefold (after asciiCasefold calls) o) := by
  intro hclaim
  have hkeys : keySet asciiCasefold "" [] = ∅ := by simp [keySet, normaliseAlias_blank]
  obtain ⟨r, hr⟩ := (hclaim [] "module:one" "" "" [] rfl).mpr
    (by rw [hkeys]; exact fun key hkey => absurd hkey (Finset.notMem_empty key))
  rw [reserve_run, if_neg (by decide +kernel), if_pos hkeys] at hr
  cases hr

end HplcWorkbench.SerialResources
