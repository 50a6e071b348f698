import HplcWorkbench.KeyOwnership
import HplcWorkbench.LinkFields
import HplcWorkbench.TransitionSystems
import Mathlib.Data.List.AList
import Mathlib.Data.Finset.Sort

/-!
# The registry of serial resources

Each backend session reserves the mapping identifier and the port aliases of a serial line. The
registry keeps two dicts, from keys to reservations and from owners to reservations, and both are
changed under one lock. Of `str.casefold` only one fact is used.
-/

namespace HplcWorkbench.SerialResources

/-- `s.strip()`. -/
def strip (s : String) : String := String.ofList (Adapter10376.pyStrip s.toList)

/-- `s.replace(pattern, "")`; `skip` characters of an occurrence are still to be passed over. -/
def removeAll (pattern : List Char) : ℕ → List Char → List Char
  | _, [] => []
  | skip + 1, _ :: rest => removeAll pattern skip rest
  | 0, c :: rest =>
    if pattern <+: c :: rest then removeAll pattern (pattern.length - 1) rest
    else c :: removeAll pattern 0 rest

/-- `str.casefold`. -/
structure Casefold where
  fold : String → String
  fold_empty : fold "" = ""

section Registry
variable (casefold : Casefold)

/-- `_normalise_alias` of a text. -/
def normaliseAlias (value : String) : String :=
  let text := (strip value).toList
  let text := if ['\\', '\\', '.', '\\'] <+: text then text.drop 4 else text
  casefold.fold (String.ofList (removeAll ['\\', '\\', '?', '\\'] 0 text))

/-- `SerialReservation`. -/
structure SerialReservation where
  ownerId : String
  ownerLabel : String
  resourceId : String
  aliases : List String
  deriving DecidableEq, Repr

/-- The exceptions of `reserve`. -/
inductive ReserveError
  | emptyOwner
  | noKeys
  | holdsOther (ownerId : String)
  | conflict (existing : SerialReservation)
  deriving DecidableEq, Repr

/-- The two dicts. -/
structure Registry where
  byKey : AList (fun _ : String => SerialReservation) := ∅
  byOwner : AList (fun _ : String => SerialReservation) := ∅
  deriving DecidableEq

/-- A method body: it may raise, and what it changed before stays changed. -/
abbrev RegistryM := ExceptT ReserveError (StateM Registry)

/-- The set that `_keys` fills. -/
def keySet (resourceId : String) (aliases : List String) : Finset String :=
  let resource := normaliseAlias casefold resourceId
  let ports := (aliases.map (normaliseAlias casefold)).filter (· ≠ "")
  (if resource ≠ "" then {"mapping:" ++ resource} else ∅) ∪ (ports.map ("port:" ++ ·)).toFinset

/-- `_keys`. -/
def keysOf (resourceId : String) (aliases : List String) : RegistryM (List String) :=
  let keys := keySet casefold resourceId aliases
  if keys = ∅ then throw .noKeys else pure (keys.sort (· ≤ ·))

/-- The loop that looks for a key of another owner. -/
def checkKeys (ownerId : String) : List String → RegistryM Unit
  | [] => pure ()
  | key :: rest => do
    match (← get).byKey.lookup key with
    | some existing =>
      if existing.ownerId ≠ ownerId then throw (.conflict existing) else checkKeys ownerId rest
    | none => checkKeys ownerId rest

/-- The loop that files the reservation under its keys. -/
def fileKeys (reservation : SerialReservation) : List String → RegistryM Unit
  | [] => pure ()
  | key :: rest => do
    modify fun s => { s with byKey := s.byKey.insert key reservation }
    fileKeys reservation rest

/-- `{key for key, item in self._by_key.items() if item.owner_id == owner_id}`. -/
def heldKeys (s : Registry) (ownerId : String) : Finset String :=
  ((s.byKey.entries.filter (fun e => e.2.ownerId = ownerId)).map Sigma.fst).toFinset

/-- The aliases a reservation records. -/
def recordedAliases (aliases : List String) : List String :=
  ((aliases.map strip).filter (· ≠ "")).toFinset.sort (· ≤ ·)

/-- `SerialResourceRegistry.reserve`. -/
def reserve (ownerId label resourceId : String) (aliases : List String) :
    RegistryM SerialReservation := do
  let ownerId := strip ownerId
  if ownerId = "" then throw .emptyOwner
  let keys ← keysOf casefold resourceId aliases
  let reservation : SerialReservation :=
    ⟨ownerId, if label ≠ "" then label else ownerId, resourceId, recordedAliases aliases⟩
  match (← get).byOwner.lookup ownerId with
  | some previous =>
    if heldKeys (← get) ownerId = keys.toFinset then pure previous
    else throw (.holdsOther ownerId)
  | none =>
    checkKeys ownerId keys
    modify fun s => { s with byOwner := s.byOwner.insert ownerId reservation }
    fileKeys reservation keys
    pure reservation

/-- The loop that frees the keys of an owner, over a copy of the items. -/
def freeKeys (ownerId : String) : List (Sigma fun _ : String => SerialReservation) →
    RegistryM Unit
  | [] => pure ()
  | item :: rest => do
    if item.2.ownerId = ownerId then
      modify fun s => { s with byKey := s.byKey.erase item.1 }
    freeKeys ownerId rest

/-- `SerialResourceRegistry.release`. -/
def release (ownerId : String) : RegistryM Bool := do
  let ownerId := strip ownerId
  match (← get).byOwner.lookup ownerId with
  | none => pure false
  | some _ =>
    modify fun s => { s with byOwner := s.byOwner.erase ownerId }
    freeKeys ownerId (← get).byKey.entries
    pure true

/-- A call on the registry. -/
inductive Call
  | reserve (ownerId label resourceId : String) (aliases : List String)
  | release (ownerId : String)
  deriving DecidableEq, Repr

/-- What a call leaves behind, whether it raised or not. -/
def Call.run (c : Call) (s : Registry) : Registry :=
  match c with
  | .reserve ownerId label resourceId aliases =>
    (ExceptT.run (SerialResources.reserve casefold ownerId label resourceId aliases) s).2
  | .release ownerId => (ExceptT.run (SerialResources.release ownerId) s).2

/-- The registry after a sequence of calls from the empty one. -/
def after (calls : List Call) : Registry := calls.foldl (fun s c => c.run casefold s) {}

end Registry


/-! ## What a call does -/

/-- A method body run on a registry: what it returns or raises, and the registry it leaves. -/
def onRegistry {α : Type} (m : RegistryM α) (s : Registry) : Except ReserveError α × Registry :=
  ExceptT.run m s

/-- The first reservation of another owner that one of the keys is filed under. -/
def conflict? (s : Registry) (ownerId : String) (keys : List String) : Option SerialReservation :=
  keys.findSome? (fun key => (s.byKey.lookup key).filter (fun r => r.ownerId ≠ ownerId))

/-- The registry with a reservation filed under its owner and its keys. -/
def Registry.file (s : Registry) (reservation : SerialReservation) (keys : List String) : Registry where
  byOwner := s.byOwner.insert reservation.ownerId reservation
  byKey := keys.foldl (fun d key => d.insert key reservation) s.byKey

/-- The registry without an owner and its keys. -/
def Registry.unfile (s : Registry) (ownerId : String) : Registry where
  byOwner := s.byOwner.erase ownerId
  byKey := List.foldl (fun d e => d.erase e.1) s.byKey
    (s.byKey.entries.filter (fun e => e.2.ownerId = ownerId))

/-- The reservation that a call of `reserve` makes out. -/
def reservationOf (ownerId label resourceId : String) (aliases : List String) :
    SerialReservation :=
  ⟨strip ownerId, if label ≠ "" then label else strip ownerId, resourceId, recordedAliases aliases⟩

section Runs
variable {casefold : Casefold} {s : Registry} {ownerId : String}

theorem checkKeys_run (ownerId : String) (keys : List String) (s : Registry) :
    onRegistry (checkKeys ownerId keys) s =
      match conflict? s ownerId keys with
      | some existing => (.error (.conflict existing), s)
      | none => (.ok (), s) := by
  induction keys with
  | nil => rfl
  | cons key rest ih =>
      change onRegistry (match s.byKey.lookup key with
        | some existing =>
          if existing.ownerId ≠ ownerId then throw (.conflict existing) else checkKeys ownerId rest
        | none => checkKeys ownerId rest) s = _
      have hcons : conflict? s ownerId (key :: rest) =
          ((s.byKey.lookup key).filter (fun r => r.ownerId ≠ ownerId)).or
            (conflict? s ownerId rest) := by
        rw [conflict?, List.findSome?_cons]
        cases (s.byKey.lookup key).filter (fun r => r.ownerId ≠ ownerId) <;> rfl
      rw [hcons]
      cases hkey : s.byKey.lookup key with
      | none => exact ih
      | some existing =>
          by_cases hother : existing.ownerId = ownerId
          · simpa [hother, Option.filter] using ih
          · simp only [Option.filter, ne_eq, hother, not_false_eq_true, decide_true, if_true,
              Option.some_or]
            rfl

theorem fileKeys_run (reservation : SerialReservation) (keys : List String) (s : Registry) :
    onRegistry (fileKeys reservation keys) s =
      (.ok (), { s with byKey := keys.foldl (fun d key => d.insert key reservation) s.byKey }) := by
  induction keys generalizing s with
  | nil => rfl
  | cons key rest ih => exact ih { s with byKey := s.byKey.insert key reservation }

theorem freeKeys_run (ownerId : String) (items : List (Sigma fun _ : String => SerialReservation))
    (s : Registry) :
    onRegistry (freeKeys ownerId items) s =
      (.ok (), ⟨List.foldl (fun d e => d.erase e.1) s.byKey
        (items.filter (fun e => e.2.ownerId = ownerId)), s.byOwner⟩) := by
  induction items generalizing s with
  | nil => rfl
  | cons e rest ih =>
      by_cases h : e.2.ownerId = ownerId
      · rw [List.filter_cons_of_pos (by simpa using h), List.foldl_cons]
        simp only [freeKeys, if_pos h]
        exact ih { s with byKey := s.byKey.erase e.1 }
      · rw [List.filter_cons_of_neg (by simpa using h), ← ih]
        simp only [freeKeys, if_neg h]

/-- Two bodies in a row: the second runs on what the first left, unless the first raised. -/
theorem onRegistry_bind {α β : Type} (m : RegistryM α) (f : α → RegistryM β) (s : Registry) :
    onRegistry (m >>= f) s =
      match onRegistry m s with
      | (.ok a, s') => onRegistry (f a) s'
      | (.error e, s') => (.error e, s') := by
  change (match onRegistry m s with
    | (r, s') => (ExceptT.bindCont f r) s') = _
  rcases onRegistry m s with ⟨r | r, s'⟩ <;> rfl

theorem reserve_run (ownerId label resourceId : String) (aliases : List String) (s : Registry) :
    onRegistry (reserve casefold ownerId label resourceId aliases) s =
      if strip ownerId = "" then (.error .emptyOwner, s)
      else if keySet casefold resourceId aliases = ∅ then (.error .noKeys, s)
      else match s.byOwner.lookup (strip ownerId) with
        | some previous =>
          if heldKeys s (strip ownerId) = keySet casefold resourceId aliases then (.ok previous, s)
          else (.error (.holdsOther (strip ownerId)), s)
        | none =>
          match conflict? s (strip ownerId) ((keySet casefold resourceId aliases).sort (· ≤ ·)) with
          | some existing => (.error (.conflict existing), s)
          | none =>
            (.ok (reservationOf ownerId label resourceId aliases),
              s.file (reservationOf ownerId label resourceId aliases)
                ((keySet casefold resourceId aliases).sort (· ≤ ·))) := by
  by_cases howner : strip ownerId = ""
  · rw [if_pos howner, reserve]
    simp only [if_pos howner]
    rfl
  rw [if_neg howner]
  by_cases hkeys : keySet casefold resourceId aliases = ∅
  · rw [if_pos hkeys, reserve]
    simp only [if_neg howner, keysOf, if_pos hkeys]
    rfl
  rw [if_neg hkeys, reserve]
  simp only [if_neg howner, keysOf, if_neg hkeys]
  cases hprev : s.byOwner.lookup (strip ownerId) with
  | some previous =>
      change onRegistry (match s.byOwner.lookup (strip ownerId) with
        | some previous => _
        | none => _) s = _
      simp only [hprev]
      change onRegistry (if heldKeys s (strip ownerId) =
          ((keySet casefold resourceId aliases).sort (· ≤ ·)).toFinset then pure previous
        else throw (.holdsOther (strip ownerId))) s = _
      rw [Finset.sort_toFinset]
      split <;> rfl
  | none =>
      change onRegistry (match s.byOwner.lookup (strip ownerId) with
        | some previous => _
        | none => _) s = _
      simp only [hprev]
      rw [onRegistry_bind, checkKeys_run]
      cases conflict? s (strip ownerId) ((keySet casefold resourceId aliases).sort (· ≤ ·)) with
      | some existing => rfl
      | none =>
          change onRegistry (fileKeys (reservationOf ownerId label resourceId aliases) _ >>=
            fun _ => pure (reservationOf ownerId label resourceId aliases)) ⟨s.byKey, _⟩ = _
          rw [onRegistry_bind, fileKeys_run]
          rfl

theorem release_run (ownerId : String) (s : Registry) :
    onRegistry (release ownerId) s =
      match s.byOwner.lookup (strip ownerId) with
      | none => (.ok false, s)
      | some _ => (.ok true, s.unfile (strip ownerId)) := by
  change onRegistry (match s.byOwner.lookup (strip ownerId) with
    | none => _
    | some _ => _) s = _
  cases s.byOwner.lookup (strip ownerId) with
  | none => rfl
  | some _ =>
      change onRegistry (freeKeys (strip ownerId) s.byKey.entries >>= fun _ => pure true)
        { s with byOwner := s.byOwner.erase (strip ownerId) } = _
      rw [onRegistry_bind, freeKeys_run]
      rfl

end Runs

end HplcWorkbench.SerialResources
