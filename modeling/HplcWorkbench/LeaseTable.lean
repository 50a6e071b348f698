import HplcWorkbench.ResourceLease

/-!
# Lease tables over whole runs

Whatever is called on a lease manager, a resource is free, has one exclusive lease or has shared
leases only, and nobody loses a lease but through a release of his own.
-/

namespace HplcWorkbench.Orchestration.ResourceLeaseManager

variable {m m' : ResourceLeaseManager} {spec : DeviceSpec} {holder : String} {lease : ResourceLease}

/-- `is_held`. -/
def isHeld (m : ResourceLeaseManager) (resourceType resourceId : String) : Bool :=
  (m.leases.lookup (resourceType, resourceId)).isSome

/-- The leases that a resource may have together. -/
def Compatible (leases : List ResourceLease) : Prop :=
  leases = [] ∨ (∃ l, leases = [l] ∧ l.shared = false) ∨ ∀ l ∈ leases, l.shared = true

/-- The table has no entry without a lease, and an exclusive lease stands alone. -/
structure Sound (m : ResourceLeaseManager) : Prop where
  exclusive : m.Exclusive
  filed : ∀ key, m.leases.lookup key ≠ some []

theorem Exclusive.compatible (hm : m.Exclusive) (key : String × String) :
    Compatible (m.existing key) := by
  by_cases hshared : ∀ l ∈ m.existing key, l.shared = true
  · exact .inr (.inr hshared)
  · push Not at hshared
    obtain ⟨l, hl, hexclusive⟩ := hshared
    have hexclusive := Bool.eq_false_iff.mpr hexclusive
    exact .inr (.inl ⟨l, hm key l hl hexclusive, hexclusive⟩)

/-! ## What a call does -/

theorem acquire_refused {e : ResourceConflict} (h : m.acquire spec holder = .error e) :
    m.existing (spec.resourceType, spec.resourceId) ≠ [] ∧ (spec.shared = false ∨
      ∃ l ∈ m.existing (spec.resourceType, spec.resourceId), l.shared = false) := by
  unfold acquire at h
  cases hex : m.existing (spec.resourceType, spec.resourceId) with
  | nil => simp only [hex, reduceCtorEq] at h
  | cons first rest =>
      simp only [hex] at h
      split at h
      case isTrue hshared =>
        rw [Bool.or_eq_true, Bool.not_eq_true', List.any_eq_true] at hshared
        constructor
        · exact List.cons_ne_nil first rest
        · obtain hspec | ⟨l, hl, hexclusive⟩ := hshared
          · exact .inl hspec
          · exact .inr ⟨l, hl, (Bool.not_eq_true' _).mp hexclusive⟩
      case isFalse => cases h

/-- A request is granted exactly when its lease may join those that are there. -/
theorem acquire_granted_iff (hm : m.Exclusive) :
    (∃ lease m', m.acquire spec holder = .ok (lease, m')) ↔
      Compatible (m.existing (spec.resourceType, spec.resourceId) ++
        [⟨spec.resourceType, spec.resourceId, holder, spec.shared⟩]) := by
  constructor
  · rintro ⟨lease, m', h⟩
    obtain ⟨rfl, hex, -⟩ := acquire_cases h
    have hcompatible := (hm.acquire h).compatible (spec.resourceType, spec.resourceId)
    rwa [hex, if_pos rfl] at hcompatible
  · intro hcompatible
    cases h : m.acquire spec holder with
    | ok granted => exact ⟨granted.1, granted.2, rfl⟩
    | error e =>
        obtain ⟨hsome, hrefused⟩ := acquire_refused h
        obtain ⟨first, rest, hex⟩ := List.exists_cons_of_ne_nil hsome
        obtain hnone | ⟨l, hone, -⟩ | hall := hcompatible
        · exact absurd hnone (by simp)
        · rw [hex, List.cons_append, List.cons_eq_cons] at hone
          exact absurd hone.2 (by simp)
        · obtain hspec | ⟨l, hl, hexclusive⟩ := hrefused
          · have hown := hall _ (List.mem_append_right _ (List.mem_singleton_self _))
            exact absurd (hspec.symm.trans hown) (by simp)
          · have hshared := hall l (List.mem_append_left _ hl)
            exact absurd (hexclusive.symm.trans hshared) (by simp)

theorem run_refused {e : ResourceConflict} (h : m.acquire spec holder = .error e) :
    Call.run m (.acquire spec holder) = m := by
  unfold Call.run
  simp only [h]

theorem run_granted (h : m.acquire spec holder = .ok (lease, m')) :
    Call.run m (.acquire spec holder) = m' := by
  unfold Call.run
  simp only [h]

/-- The entry that a granted request leaves is not empty. -/
theorem acquire_files (h : m.acquire spec holder = .ok (lease, m')) :
    ∃ ls, ls ≠ [] ∧ m' = ⟨m.leases.insert (spec.resourceType, spec.resourceId) ls⟩ := by
  unfold acquire at h
  cases hex : m.existing (spec.resourceType, spec.resourceId) with
  | nil =>
      simp only [hex, Except.ok.injEq, Prod.mk.injEq] at h
      exact ⟨_, List.cons_ne_nil _ _, h.2.symm⟩
  | cons first rest =>
      simp only [hex] at h
      split at h
      · cases h
      · simp only [Except.ok.injEq, Prod.mk.injEq] at h
        exact ⟨_, List.cons_ne_nil _ _, h.2.symm⟩

/-- A release changes nothing, drops the entry or leaves one that the holder has no part in. -/
theorem release_cases (m : ResourceLeaseManager) (resourceType resourceId holder : String) :
    m.release resourceType resourceId holder = m ∨
      m.release resourceType resourceId holder = ⟨m.leases.erase (resourceType, resourceId)⟩ ∨
      ∃ kept, kept ≠ [] ∧ kept.filter (·.holder ≠ holder) = kept ∧
        m.release resourceType resourceId holder =
          ⟨m.leases.insert (resourceType, resourceId) kept⟩ := by
  unfold release
  cases hls : m.leases.lookup (resourceType, resourceId) with
  | none => exact .inl (by simp only [hls])
  | some leases =>
      cases leases with
      | nil => exact .inl (by simp only [hls])
      | cons first rest =>
          simp only [hls]
          cases hkept : (first :: rest).filter (·.holder ≠ holder) with
          | nil => exact .inr (.inl rfl)
          | cons k ks =>
              have hagain : (k :: ks).filter (·.holder ≠ holder) = k :: ks := by
                rw [← hkept, List.filter_filter]
                simp only [Bool.and_self]
              exact .inr (.inr ⟨k :: ks, List.cons_ne_nil k ks, hagain, rfl⟩)

theorem release_other {resourceType resourceId holder : String} {key : String × String}
    {l : ResourceLease} (h : key ≠ (resourceType, resourceId) ∨ l.holder ≠ holder) :
    ((m.release resourceType resourceId holder).existing key).count l =
      (m.existing key).count l := by
  rw [existing_release]
  by_cases hkey : key = (resourceType, resourceId)
  · rw [if_pos hkey]
    exact List.count_filter (decide_eq_true (h.resolve_left fun hne => hne hkey))
  · rw [if_neg hkey]

theorem release_release (resourceType resourceId holder : String) :
    (m.release resourceType resourceId holder).release resourceType resourceId holder =
      m.release resourceType resourceId holder := by
  obtain hsame | herased | ⟨kept, hsome, hagain, hkept⟩ :=
    release_cases m resourceType resourceId holder
  · rw [hsame, hsame]
  · rw [herased]
    simp [release]
  · obtain ⟨k, ks, rfl⟩ := List.exists_cons_of_ne_nil hsome
    rw [hkept]
    unfold release
    simp only [AList.lookup_insert, hagain, AList.insert_insert]

/-! ## Whole runs -/

theorem Sound.acquire (hm : m.Sound) (h : m.acquire spec holder = .ok (lease, m')) : m'.Sound := by
  constructor
  · exact hm.exclusive.acquire h
  · intro key hempty
    obtain ⟨ls, hsome, rfl⟩ := acquire_files h
    by_cases hkey : key = (spec.resourceType, spec.resourceId)
    · rw [hkey, AList.lookup_insert] at hempty
      exact hsome (Option.some.inj hempty)
    · rw [AList.lookup_insert_ne hkey] at hempty
      exact hm.filed key hempty

theorem Sound.release (hm : m.Sound) (resourceType resourceId holder : String) :
    (m.release resourceType resourceId holder).Sound := by
  constructor
  · exact hm.exclusive.release resourceType resourceId holder
  · intro key hempty
    obtain hsame | herased | ⟨kept, hsome, -, hkept⟩ :=
      release_cases m resourceType resourceId holder
    · exact hm.filed key (hsame ▸ hempty)
    · rw [herased] at hempty
      by_cases hkey : key = (resourceType, resourceId)
      · rw [hkey, AList.lookup_erase] at hempty
        cases hempty
      · rw [AList.lookup_erase_ne hkey] at hempty
        exact hm.filed key hempty
    · rw [hkept] at hempty
      by_cases hkey : key = (resourceType, resourceId)
      · rw [hkey, AList.lookup_insert] at hempty
        exact hsome (Option.some.inj hempty)
      · rw [AList.lookup_insert_ne hkey] at hempty
        exact hm.filed key hempty

theorem Sound.run (hm : m.Sound) (c : Call) : (Call.run m c).Sound := by
  cases c with
  | acquire spec holder =>
      cases h : m.acquire spec holder with
      | ok granted =>
          rw [run_granted h]
          exact hm.acquire h
      | error e =>
          rw [run_refused h]
          exact hm
  | release resourceType resourceId holder => exact hm.release resourceType resourceId holder

theorem sound_after (calls : List Call) : (calls.foldl Call.run {}).Sound := by
  induction calls using List.reverseRecOn with
  | nil =>
      constructor
      · exact fun key l hl => absurd hl List.not_mem_nil
      · exact fun key hempty => by cases hempty
  | append_singleton calls c ih =>
      rw [List.foldl_append]
      exact ih.run c

/-- A call takes a lease away only if it is the release of its holder. -/
theorem count_le_run {key : String × String} {l : ResourceLease} {c : Call}
    (hc : c ≠ .release key.1 key.2 l.holder) :
    (m.existing key).count l ≤ ((Call.run m c).existing key).count l := by
  cases c with
  | acquire spec holder =>
      cases h : m.acquire spec holder with
      | error e => rw [run_refused h]
      | ok granted =>
          rw [run_granted h, (acquire_cases h).2.1 key]
          split
          · rw [List.count_append]
            exact Nat.le_add_right _ _
          · exact Nat.le_refl _
  | release resourceType resourceId holder =>
      have hother : key ≠ (resourceType, resourceId) ∨ l.holder ≠ holder := by
        by_contra! hsame
        apply hc
        rw [hsame.1, hsame.2]
      exact Nat.le_of_eq (release_other hother).symm

theorem count_le_after {key : String × String} {l : ResourceLease} (calls : List Call)
    (hkept : ∀ c ∈ calls, c ≠ .release key.1 key.2 l.holder) (m : ResourceLeaseManager) :
    (m.existing key).count l ≤ ((calls.foldl Call.run m).existing key).count l := by
  induction calls generalizing m with
  | nil => exact Nat.le_refl _
  | cons c calls ih =>
      rw [List.forall_mem_cons] at hkept
      exact Nat.le_trans (count_le_run hkept.1) (ih hkept.2 (Call.run m c))

theorem isHeld_iff (hm : m.Sound) (resourceType resourceId : String) :
    m.isHeld resourceType resourceId = true ↔ ∃ l, l ∈ m.existing (resourceType, resourceId) := by
  unfold isHeld existing
  cases hls : m.leases.lookup (resourceType, resourceId) with
  | none => simp
  | some leases =>
      cases leases with
      | nil => exact absurd hls (hm.filed _)
      | cons first rest => simp

/-- The readers and writers of every resource exclude each other over whole runs. -/
theorem leases_exclude (calls : List Call) (m : ResourceLeaseManager)
    (hm : calls.foldl Call.run {} = m) :
    (∀ key, Compatible (m.existing key)) ∧
    (∀ spec holder, (∃ lease m', m.acquire spec holder = .ok (lease, m')) ↔
      Compatible (m.existing (spec.resourceType, spec.resourceId) ++
        [⟨spec.resourceType, spec.resourceId, holder, spec.shared⟩])) ∧
    (∀ spec holder e, m.acquire spec holder = .error e → Call.run m (.acquire spec holder) = m) ∧
    (∀ spec holder lease m', m.acquire spec holder = .ok (lease, m') →
      lease ∈ m'.existing (spec.resourceType, spec.resourceId) ∧ ∀ later : List Call,
        (∀ c ∈ later, c ≠ .release spec.resourceType spec.resourceId holder) →
        (m'.existing (spec.resourceType, spec.resourceId)).count lease ≤
          ((later.foldl Call.run m').existing (spec.resourceType, spec.resourceId)).count lease) ∧
    (∀ resourceType resourceId holder key l, key ≠ (resourceType, resourceId) ∨ l.holder ≠ holder →
      ((m.release resourceType resourceId holder).existing key).count l =
        (m.existing key).count l) ∧
    (∀ resourceType resourceId holder,
      (m.release resourceType resourceId holder).release resourceType resourceId holder =
        m.release resourceType resourceId holder) ∧
    ∀ resourceType resourceId, m.isHeld resourceType resourceId = true ↔
      ∃ l, l ∈ m.existing (resourceType, resourceId) := by
  have hsound : m.Sound := hm ▸ sound_after calls
  refine ⟨hsound.exclusive.compatible, fun spec holder => acquire_granted_iff hsound.exclusive,
    fun spec holder e => run_refused, ?_, fun _ _ _ _ _ => release_other,
    fun _ _ _ => release_release _ _ _, isHeld_iff hsound⟩
  intro spec holder lease m' h
  obtain ⟨rfl, hex, -⟩ := acquire_cases h
  constructor
  · rw [hex, if_pos rfl]
    exact List.mem_append_right _ (List.mem_singleton_self _)
  · exact fun later hkept => count_le_after later hkept m'

/-- Two readers of a file, and a writer who comes too late. -/
def readersFirst : List Call :=
  [.acquire ⟨"file", "a.log", true⟩ "run-1", .acquire ⟨"file", "a.log", true⟩ "run-2",
    .acquire ⟨"file", "a.log", false⟩ "run-3"]

theorem leases_exclude_readersFirst :
    Compatible ((readersFirst.foldl Call.run {}).existing ("file", "a.log")) ∧
      (readersFirst.foldl Call.run {}).isHeld "file" "a.log" = true := by
  have h := leases_exclude readersFirst _ rfl
  constructor
  · exact h.1 ("file", "a.log")
  · exact (h.2.2.2.2.2.2 "file" "a.log").mpr ⟨⟨"file", "a.log", "run-1", true⟩, by decide⟩

end HplcWorkbench.Orchestration.ResourceLeaseManager
