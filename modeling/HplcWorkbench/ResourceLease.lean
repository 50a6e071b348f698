import Mathlib.Data.List.AList
import Mathlib.Data.List.Induction

/-!
# Leases of test resources

A lease manager files the leases of a resource under its type and identifier. An exclusive lease
stands alone: as long as one manager is asked, nobody else gets the resource.
-/

namespace HplcWorkbench.Orchestration

structure DeviceSpec where
  resourceType : String := "serial_port"
  resourceId : String
  shared : Bool := false
  deriving DecidableEq, Repr

structure ResourceLease where
  resourceType : String
  resourceId : String
  holder : String
  shared : Bool
  deriving DecidableEq, Repr

/-- `ResourceConflictError`; `holder` is who has the resource. -/
structure ResourceConflict where
  resourceType : String
  resourceId : String
  holder : String
  deriving DecidableEq, Repr

structure ResourceLeaseManager where
  leases : AList (fun _ : String × String => List ResourceLease) := ∅
  deriving DecidableEq

namespace ResourceLeaseManager

/-- `self._leases.get(key, [])`. -/
def existing (m : ResourceLeaseManager) (key : String × String) : List ResourceLease :=
  (m.leases.lookup key).getD []

def acquire (m : ResourceLeaseManager) (spec : DeviceSpec) (holder : String) :
    Except ResourceConflict (ResourceLease × ResourceLeaseManager) :=
  let key := (spec.resourceType, spec.resourceId)
  let lease : ResourceLease := ⟨spec.resourceType, spec.resourceId, holder, spec.shared⟩
  match m.existing key with
  | [] => .ok (lease, ⟨m.leases.insert key [lease]⟩)
  | first :: rest =>
    if !spec.shared || (first :: rest).any (fun l => !l.shared) then
      .error ⟨spec.resourceType, spec.resourceId, first.holder⟩
    else .ok (lease, ⟨m.leases.insert key (first :: rest ++ [lease])⟩)

def release (m : ResourceLeaseManager) (resourceType resourceId holder : String) :
    ResourceLeaseManager :=
  let key := (resourceType, resourceId)
  match m.leases.lookup key with
  | none | some [] => m
  | some leases =>
    match leases.filter (·.holder ≠ holder) with
    | [] => ⟨m.leases.erase key⟩
    | kept => ⟨m.leases.insert key kept⟩

/-- `holder` has an exclusive lease of the resource. -/
def HeldBy (m : ResourceLeaseManager) (key : String × String) (holder : String) : Prop :=
  ∃ l ∈ m.existing key, l.shared = false ∧ l.holder = holder

/-- An exclusive lease is the only one of its resource. -/
def Exclusive (m : ResourceLeaseManager) : Prop :=
  ∀ key, ∀ l ∈ m.existing key, l.shared = false → m.existing key = [l]

variable {m m' : ResourceLeaseManager} {spec : DeviceSpec} {holder : String} {lease : ResourceLease}

theorem existing_insert (key key' : String × String) (ls : List ResourceLease) :
    existing ⟨m.leases.insert key ls⟩ key' = if key' = key then ls else m.existing key' := by
  unfold existing
  by_cases h : key' = key
  · rw [if_pos h, h, AList.lookup_insert, Option.getD_some]
  · rw [if_neg h, AList.lookup_insert_ne h]

theorem existing_erase (key key' : String × String) :
    existing ⟨m.leases.erase key⟩ key' = if key' = key then [] else m.existing key' := by
  unfold existing
  by_cases h : key' = key
  · rw [if_pos h, h, AList.lookup_erase, Option.getD_none]
  · rw [if_neg h, AList.lookup_erase_ne h]

/-- What a successful `acquire` leaves: the lease is appended, and it may only join others where
all are shared. -/
theorem acquire_cases (h : m.acquire spec holder = .ok (lease, m')) :
    lease = ⟨spec.resourceType, spec.resourceId, holder, spec.shared⟩ ∧
    (∀ key, m'.existing key = if key = (spec.resourceType, spec.resourceId) then
      m.existing key ++ [lease] else m.existing key) ∧
    (m.existing (spec.resourceType, spec.resourceId) = [] ∨ spec.shared = true ∧
      ∀ l ∈ m.existing (spec.resourceType, spec.resourceId), l.shared = true) := by
  unfold acquire at h
  cases hex : m.existing (spec.resourceType, spec.resourceId) with
  | nil =>
      simp only [hex, Except.ok.injEq, Prod.mk.injEq] at h
      obtain ⟨rfl, rfl⟩ := h
      refine ⟨rfl, fun key => ?_, .inl rfl⟩
      rw [existing_insert]
      by_cases hkey : key = (spec.resourceType, spec.resourceId)
      · rw [if_pos hkey, if_pos hkey, hkey, hex, List.nil_append]
      · rw [if_neg hkey, if_neg hkey]
  | cons first rest =>
      simp only [hex] at h
      split at h
      case isTrue => cases h
      case isFalse hshared =>
        simp only [Except.ok.injEq, Prod.mk.injEq] at h
        obtain ⟨rfl, rfl⟩ := h
        rw [Bool.not_eq_true, Bool.or_eq_false_iff, List.any_eq_false] at hshared
        refine ⟨rfl, fun key => ?_, .inr ⟨by simpa using hshared.1, by simpa using hshared.2⟩⟩
        rw [existing_insert]
        by_cases hkey : key = (spec.resourceType, spec.resourceId)
        · rw [if_pos hkey, if_pos hkey, hkey, hex]
        · rw [if_neg hkey, if_neg hkey]

theorem existing_release (resourceType resourceId holder : String) (key : String × String) :
    (m.release resourceType resourceId holder).existing key =
      if key = (resourceType, resourceId) then
        (m.existing key).filter (·.holder ≠ holder) else m.existing key := by
  unfold release
  cases hls : m.leases.lookup (resourceType, resourceId) with
  | none =>
      have hex : m.existing (resourceType, resourceId) = [] := by rw [existing, hls, Option.getD_none]
      simp only [hls]
      by_cases hkey : key = (resourceType, resourceId)
      · rw [if_pos hkey, hkey, hex, List.filter_nil]
      · rw [if_neg hkey]
  | some leases =>
      have hex : m.existing (resourceType, resourceId) = leases := by
        rw [existing, hls, Option.getD_some]
      cases leases with
      | nil =>
          simp only [hls]
          by_cases hkey : key = (resourceType, resourceId)
          · rw [if_pos hkey, hkey, hex, List.filter_nil]
          · rw [if_neg hkey]
      | cons first rest =>
          simp only [hls]
          cases hkept : (first :: rest).filter (·.holder ≠ holder) with
          | nil =>
              rw [existing_erase]
              by_cases hkey : key = (resourceType, resourceId)
              · rw [if_pos hkey, if_pos hkey, hkey, hex, hkept]
              · rw [if_neg hkey, if_neg hkey]
          | cons k ks =>
              rw [existing_insert]
              by_cases hkey : key = (resourceType, resourceId)
              · rw [if_pos hkey, if_pos hkey, hkey, hex, hkept]
              · rw [if_neg hkey, if_neg hkey]

theorem Exclusive.acquire (hm : m.Exclusive) (h : m.acquire spec holder = .ok (lease, m')) :
    m'.Exclusive := by
  obtain ⟨hlease, hex, hjoin⟩ := acquire_cases h
  intro key l hl hshared
  rw [hex] at hl ⊢
  split at hl
  case isFalse hkey => rw [if_neg hkey]; exact hm key l hl hshared
  case isTrue hkey =>
    rw [if_pos hkey]
    rw [← hkey] at hjoin
    obtain hnone | ⟨hspec, hall⟩ := hjoin
    · rw [hnone, List.nil_append, List.mem_singleton] at hl
      rw [hnone, hl, List.nil_append]
    · obtain hold | hnew := List.mem_append.mp hl
      · rw [hall l hold] at hshared
        cases hshared
      · rw [List.mem_singleton.mp hnew, hlease, hspec] at hshared
        cases hshared

theorem Exclusive.release (hm : m.Exclusive) (resourceType resourceId holder : String) :
    (m.release resourceType resourceId holder).Exclusive := by
  intro key l hl hshared
  rw [existing_release] at hl ⊢
  split at hl
  case isFalse hkey => rw [if_neg hkey]; exact hm key l hl hshared
  case isTrue hkey =>
    rw [if_pos hkey]
    obtain ⟨hl, hholder⟩ := List.mem_filter.mp hl
    rw [hm key l hl hshared]
    exact List.filter_cons_of_pos hholder

/-- One manager gives a resource to one holder at a time. -/
theorem Exclusive.holder_unique (hm : m.Exclusive) {key : String × String} {a b : String}
    (ha : m.HeldBy key a) (hb : m.HeldBy key b) : a = b := by
  obtain ⟨l, hl, hshared, rfl⟩ := ha
  obtain ⟨l', hl', -, rfl⟩ := hb
  rw [hm key l hl hshared, List.mem_singleton] at hl'
  rw [hl']

/-- A call on a manager; a conflict leaves it as it was. -/
inductive Call
  | acquire (spec : DeviceSpec) (holder : String)
  | release (resourceType resourceId holder : String)
  deriving DecidableEq, Repr

def Call.run (m : ResourceLeaseManager) : Call → ResourceLeaseManager
  | .acquire spec holder =>
    match m.acquire spec holder with
    | .ok (_, m') => m'
    | .error _ => m
  | .release resourceType resourceId holder => m.release resourceType resourceId holder

theorem exclusive_after (calls : List Call) :
    (calls.foldl Call.run {}).Exclusive := by
  induction calls using List.reverseRecOn with
  | nil => exact fun key l hl => absurd hl List.not_mem_nil
  | append_singleton calls c ih =>
      rw [List.foldl_append]
      cases c with
      | acquire spec holder =>
          change (match acquire _ spec holder with
            | .ok (_, m') => m'
            | .error _ => _).Exclusive
          split
          case h_1 lease m' h => exact ih.acquire h
          case h_2 => exact ih
      | release resourceType resourceId holder => exact ih.release resourceType resourceId holder

end ResourceLeaseManager

/-- `acquire_serial_lease`. -/
def acquireSerialLease (manager : ResourceLeaseManager) (holder resourceId : String) :
    Except ResourceConflict (ResourceLease × ResourceLeaseManager) :=
  manager.acquire { resourceId } holder

end HplcWorkbench.Orchestration
