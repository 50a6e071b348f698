import HplcWorkbench.OperationStore
import Mathlib.Data.List.Nodup

/-!
# Which calls on the operation store are atomic

As long as every write succeeds, the file reads back as what is in memory, restarts included. A
call whose write fails leaves memory changed, so calls are all atomic exactly in the runs in
which no write of a changing call fails.
-/

namespace HplcWorkbench.OperationStore
open Transitions

variable {Value : Type}

/-! ## Reading back -/

namespace Dict
variable {α β : Type} {d : Dict α} {key : String} {value : α}

theorem set_of_notMem (value : α) (h : key ∉ d.map Prod.fst) :
    d.set key value = d ++ [(key, value)] := if_neg h

theorem nodup_concat (value : α) (hnodup : (d.map Prod.fst).Nodup) (h : key ∉ d.map Prod.fst) :
    ((d ++ [(key, value)]).map Prod.fst).Nodup := by
  rw [List.map_append, List.nodup_append]
  refine ⟨hnodup, List.nodup_singleton _, fun a ha b hb => ?_⟩
  rw [List.mem_singleton.mp hb]
  exact fun hab : a = key => h (hab ▸ ha)

theorem map_set (f : α → β) :
    (d.set key value).map (fun e => (e.1, f e.2)) = Dict.set (d.map fun e => (e.1, f e.2)) key (f value) := by
  unfold set
  have hkeys : (d.map fun e => (e.1, f e.2)).map Prod.fst = d.map Prod.fst := by
    rw [List.map_map]
    rfl
  rw [hkeys]
  split
  · rw [List.map_map, List.map_map]
    refine List.map_congr_left fun e _ => ?_
    by_cases he : e.1 = key <;> simp [he]
  · simp

theorem keys_set_of_mem (h : key ∈ d.map Prod.fst) : (d.set key value).map Prod.fst = d.map Prod.fst := by
  unfold set
  rw [if_pos h, List.map_map]
  refine List.map_congr_left fun e _ => ?_
  by_cases he : e.1 = key <;> simp [he]

theorem mem_of_lookup (h : d.lookup key = some value) : (key, value) ∈ d := by
  induction d with
  | nil => cases h
  | cons e d ih =>
      rw [List.lookup_cons] at h
      cases he : key == e.1 with
      | true =>
          rw [he] at h
          rw [beq_iff_eq.mp he, ← Option.some.inj h]
          exact List.mem_cons_self
      | false =>
          rw [he] at h
          exact List.mem_cons_of_mem _ (ih h)

theorem lookup_eq_none : d.lookup key = none ↔ key ∉ d.map Prod.fst := by
  rw [List.lookup_eq_none_iff]
  simp only [bne_iff_ne, ne_eq, List.mem_map, not_exists, not_and]
  exact forall₂_congr fun e _ => ⟨fun h he => h he.symm, fun h he => h he.symm⟩

theorem value_unique {value' : α} (hnodup : (d.map Prod.fst).Nodup) (h : (key, value) ∈ d)
    (h' : (key, value') ∈ d) : value = value' :=
  congrArg Prod.snd (List.inj_on_of_nodup_map hnodup h h' rfl)

theorem mem_set_self (value : α) (h : key ∈ d.map Prod.fst) : (key, value) ∈ d.set key value := by
  obtain ⟨e, he, rfl⟩ := List.mem_map.mp h
  rw [set, if_pos h]
  exact List.mem_map.mpr ⟨e, he, if_pos rfl⟩

end Dict

/-- The index that the operations give. -/
def indexOf (operations : Dict (Operation Value)) : Dict String :=
  operations.filterMap fun e => e.2.requestKey.map (·, e.1)

/-- Memory as the calls leave it: the dicts are keyed by the identifiers inside, and the index is
the one of the operations. -/
structure WellFormed (m : Memory Value) : Prop where
  keyed : ∀ e ∈ m.operations, e.2.operationId = e.1 ∧ e.1 ≠ ""
  nodup : (m.operations.map Prod.fst).Nodup
  indexed : m.requestIds = indexOf m.operations
  requests : (m.requestIds.map Prod.fst).Nodup
  artifactKeyed : ∀ e ∈ m.artifacts, e.2.artifactId = e.1 ∧ e.1 ≠ ""
  artifactNodup : (m.artifacts.map Prod.fst).Nodup

/-- Loading operations with identifiers of their own appends them. -/
theorem foldl_loadOperation (operations : Dict (Operation Value)) (m : Memory Value)
    (hkeyed : ∀ e ∈ operations, e.2.operationId = e.1 ∧ e.1 ≠ "")
    (hnodup : ((m.operations ++ operations).map Prod.fst).Nodup)
    (hrequests : ((m.requestIds ++ indexOf operations).map Prod.fst).Nodup) :
    operations.values.foldl (loadOperation id) m =
      { m with
        operations := m.operations ++ operations
        requestIds := m.requestIds ++ indexOf operations } := by
  induction operations generalizing m with
  | nil => simp [Dict.values, indexOf]
  | cons e rest ih =>
      obtain ⟨hid, hne⟩ := hkeyed e List.mem_cons_self
      have hfresh : e.1 ∉ m.operations.map Prod.fst := by
        rw [List.map_append, List.nodup_append] at hnodup
        exact fun hmem => hnodup.2.2 _ hmem _ (List.mem_map_of_mem List.mem_cons_self) rfl
      have hload : loadOperation id m e.2 =
          { m with
            operations := m.operations ++ [e]
            requestIds := m.requestIds ++ indexOf [e] } := by
        unfold loadOperation
        rw [if_neg (hid ▸ hne), hid, id_eq, Dict.set_of_notMem _ hfresh]
        cases hkey : e.2.requestKey with
        | none => simp [indexOf, hkey]
        | some key =>
            have hnew : key ∉ m.requestIds.map Prod.fst := by
              rw [List.map_append, List.nodup_append] at hrequests
              exact fun hmem => hrequests.2.2 _ hmem _ (by simp [indexOf, hkey]) rfl
            simp [indexOf, hkey, Dict.set_of_notMem _ hnew]
      have hindex : indexOf (e :: rest) = indexOf [e] ++ indexOf rest :=
        @List.filterMap_append _ _ [e] rest _
      change (Dict.values rest).foldl (loadOperation id) (loadOperation id m e.2) = _
      rw [hload, ih _ (fun e he => hkeyed e (List.mem_cons_of_mem _ he)) ?_ ?_, hindex]
      · simp only [List.append_assoc, List.singleton_append]
      · simpa using hnodup
      · rw [hindex] at hrequests
        simpa using hrequests

theorem foldl_loadArtifact (artifacts d : Dict (Artifact Value))
    (hkeyed : ∀ e ∈ artifacts, e.2.artifactId = e.1 ∧ e.1 ≠ "")
    (hnodup : ((d ++ artifacts).map Prod.fst).Nodup) :
    artifacts.values.foldl loadArtifact d = d ++ artifacts := by
  induction artifacts generalizing d with
  | nil => simp [Dict.values]
  | cons e rest ih =>
      obtain ⟨hid, hne⟩ := hkeyed e List.mem_cons_self
      have hfresh : e.1 ∉ d.map Prod.fst := by
        rw [List.map_append, List.nodup_append] at hnodup
        exact fun hmem => hnodup.2.2 _ hmem _ (List.mem_map_of_mem List.mem_cons_self) rfl
      have hload : loadArtifact d e.2 = d ++ [e] := by
        rw [loadArtifact, if_neg (hid ▸ hne), hid, Dict.set_of_notMem _ hfresh]
      change (Dict.values rest).foldl loadArtifact (loadArtifact d e.2) = _
      rw [hload, ih _ (fun e he => hkeyed e (List.mem_cons_of_mem _ he)) (by simpa using hnodup),
        List.append_assoc, List.singleton_append]

/-- What is written reads back. -/
theorem WellFormed.readFile_payload {m : Memory Value} (h : WellFormed m) :
    readFile id (.saved m.payload) = m := by
  have hoperations := foldl_loadOperation m.operations {} h.keyed (by simpa using h.nodup)
    (by rw [← h.indexed]; simpa using h.requests)
  have hartifacts := foldl_loadArtifact m.artifacts [] h.artifactKeyed (by simpa using h.artifactNodup)
  simp only [readFile, Memory.payload, hoperations, hartifacts, List.nil_append, ← h.indexed]

/-- What `restore` does to the operations it does to those that are read. -/
theorem readFile_map {restore : Operation Value → Operation Value}
    (hkey : ∀ o, (restore o).requestKey = o.requestKey) (file : File Value) :
    readFile restore file =
      { readFile id file with
        operations := (readFile id file).operations.map fun e => (e.1, restore e.2) } := by
  cases file with
  | missing => rfl
  | damaged => rfl
  | saved p =>
      have hfold : ∀ (operations : List (Operation Value)) (m : Memory Value),
          operations.foldl (loadOperation restore)
              { m with operations := m.operations.map fun e => (e.1, restore e.2) } =
            { operations.foldl (loadOperation id) m with
              operations := (operations.foldl (loadOperation id) m).operations.map
                fun e => (e.1, restore e.2) } := by
        intro operations
        induction operations with
        | nil => exact fun _ => rfl
        | cons o rest ih =>
            intro m
            rw [List.foldl_cons, List.foldl_cons, ← ih]
            congr 1
            unfold loadOperation
            split
            · rfl
            · simp only [id_eq, hkey, Dict.map_set]
      simp only [readFile]
      rw [show (({} : Memory Value)) = { ({} : Memory Value) with
        operations := ({} : Memory Value).operations.map fun e => (e.1, restore e.2) } from rfl, hfold]
      rfl

/-! ## What a call should be -/

/-- The file, if there is one, reads back as what is in memory. -/
def Store.Holds (s : Store Value) : Prop := s.hasPath = true → readFile id s.file = s.memory

/-- A call that succeeds leaves its state in memory and on disk; one that raises leaves memory, and
the file that a reload would read, as they were. -/
def Atomic (s : Store Value) : Except StoreError (Reply Value) × Store Value → Prop
  | (.ok _, s') => s'.Holds
  | (.error _, s') => s'.memory = s.memory ∧ s'.file = s.file

/-- The call of an event is atomic. -/
def AtomicStep (fingerprintOf : String → Value → String) (s : Store Value) : Event Value → Prop
  | .call c outcome => c.Fresh s.memory → Atomic s (c.run fingerprintOf s outcome)
  | .restart _ _ => True

/-- The call gets as far as changing something: it is not the repetition of a request, and names
an operation that is there and not finished. -/
def Call.Mutates (m : Memory Value) : Call Value → Prop
  | .create _ _ _ clientRequestId _ _ _ _ =>
    m.requested clientRequestId = none
  | .setState operationId _ _ _ _ =>
    ∃ o, m.operations.lookup operationId = some o ∧ o.state ∉ terminalStates
  | .registerArtifact .. | .audit .. => True

/-- The write of a call that changes something succeeds. -/
def Written (s : Store Value) : Event Value → Prop
  | .call c outcome =>
    c.Fresh s.memory → c.Mutates s.memory → s.hasPath = true → outcome = .ok
  | .restart _ _ => True

/-- Memory is well formed and the file holds it. -/
structure Sound (s : Store Value) : Prop where
  wellFormed : WellFormed s.memory
  holds : s.Holds

section Calls
variable {fingerprintOf : String → Value → String} {s s' : Store Value} {outcome : WriteOutcome}

theorem commit_memory (s : Store Value) (m : Memory Value) (reply : Reply Value) (outcome : WriteOutcome) :
    (commit s m reply outcome).2.memory = m := by
  unfold commit persistLocked
  cases s.hasPath <;> cases outcome <;> rfl

/-- A write of well-formed memory that succeeds holds it, one that fails leaves it changed. -/
theorem atomic_commit {m : Memory Value} {reply : Reply Value} (hm : WellFormed m) (hne : m ≠ s.memory) :
    Atomic s (commit s m reply outcome) ↔ (s.hasPath = true → outcome = .ok) := by
  unfold commit persistLocked
  cases hpath : s.hasPath with
  | false => exact iff_of_true (fun h => by cases h) (by simp)
  | true =>
      cases outcome with
      | ok => exact iff_of_true (fun _ => hm.readFile_payload) (fun _ => rfl)
      | beforeWrite => exact iff_of_false (fun h => hne h.1) (by simp)
      | whileWriting => exact iff_of_false (fun h => hne h.1) (by simp)
      | replacing => exact iff_of_false (fun h => hne h.1) (by simp)

theorem commit_holds {m : Memory Value} {reply : Reply Value} (hm : WellFormed m)
    (hwritten : s.hasPath = true → outcome = .ok) : (commit s m reply outcome).2.Holds := by
  unfold commit persistLocked
  cases hpath : s.hasPath with
  | false => exact fun h => by cases h
  | true =>
      rw [hwritten hpath]
      exact fun _ => hm.readFile_payload

/-- Memory with a new operation. -/
theorem WellFormed.addOperation {m : Memory Value} (h : WellFormed m) {o : Operation Value}
    {clientRequestId : String} (hid : o.operationId ≠ "")
    (hfresh : o.operationId ∉ m.operations.map Prod.fst) (hkey : o.clientRequestId = orNone clientRequestId)
    (hrequest : m.requested clientRequestId = none) :
    WellFormed { m with
      operations := m.operations.set o.operationId o
      requestIds := if clientRequestId = "" then m.requestIds
        else m.requestIds.set clientRequestId o.operationId } := by
  have hoperations := Dict.set_of_notMem o hfresh
  have hkeyed : ∀ e ∈ m.operations ++ [(o.operationId, o)], e.2.operationId = e.1 ∧ e.1 ≠ "" := by
    intro e he
    obtain he | he := List.mem_append.mp he
    · exact h.keyed e he
    · rw [List.mem_singleton.mp he]
      exact ⟨rfl, hid⟩
  have hnodup := Dict.nodup_concat o h.nodup hfresh
  have hindexAppend : indexOf (m.operations ++ [(o.operationId, o)]) =
      m.requestIds ++ indexOf [(o.operationId, o)] := by
    rw [h.indexed]
    exact List.filterMap_append
  by_cases hblank : clientRequestId = ""
  · have hindex : indexOf [(o.operationId, o)] = [] := by
      simp [indexOf, Operation.requestKey, hkey, orNone, hblank]
    refine ⟨?_, ?_, ?_, ?_, h.artifactKeyed, h.artifactNodup⟩
    · simpa only [hoperations] using hkeyed
    · simpa only [hoperations] using hnodup
    · simp only [hoperations, if_pos hblank, hindexAppend, hindex, List.append_nil]
    · simpa only [if_pos hblank] using h.requests
  · have hindex : indexOf [(o.operationId, o)] = [(clientRequestId, o.operationId)] := by
      simp [indexOf, Operation.requestKey, hkey, orNone, hblank]
    have hnew : clientRequestId ∉ m.requestIds.map Prod.fst := by
      rw [Memory.requested, if_neg hblank] at hrequest
      exact Dict.lookup_eq_none.mp hrequest
    have hset : m.requestIds.set clientRequestId o.operationId =
        m.requestIds ++ [(clientRequestId, o.operationId)] := Dict.set_of_notMem _ hnew
    refine ⟨?_, ?_, ?_, ?_, h.artifactKeyed, h.artifactNodup⟩
    · simpa only [hoperations] using hkeyed
    · simpa only [hoperations] using hnodup
    · simp only [hoperations, if_neg hblank, hset, hindexAppend, hindex]
    · simp only [if_neg hblank, hset]
      exact Dict.nodup_concat _ h.requests hnew

/-- Memory with an operation replaced by one of the same identifier and request. -/
theorem WellFormed.setOperation {m : Memory Value} (h : WellFormed m) {o o' : Operation Value}
    {operationId : String} (ho : m.operations.lookup operationId = some o)
    (hid : o'.operationId = o.operationId) (hkey : o'.requestKey = o.requestKey) :
    WellFormed { m with operations := m.operations.set operationId o' } := by
  have hmem := Dict.mem_of_lookup ho
  have hin : operationId ∈ m.operations.map Prod.fst := List.mem_map_of_mem hmem
  have hset : m.operations.set operationId o' =
      m.operations.map fun e => if e.1 = operationId then (operationId, o') else e := if_pos hin
  refine ⟨?_, ?_, ?_, h.requests, h.artifactKeyed, h.artifactNodup⟩
  · intro e he
    simp only [hset, List.mem_map] at he
    obtain ⟨d, hd, rfl⟩ := he
    split
    · exact ⟨hid.trans (h.keyed _ hmem).1, (h.keyed _ hmem).2⟩
    · exact h.keyed d hd
  · simpa only [Dict.keys_set_of_mem hin] using h.nodup
  · simp only [hset, h.indexed, indexOf, List.filterMap_map]
    refine List.filterMap_congr fun e he => ?_
    by_cases hkeys : e.1 = operationId
    · have hsame : e.2 = o := Dict.value_unique h.nodup (hkeys ▸ he) hmem
      simp [hkeys, hkey, hsame]
    · simp [hkeys]

/-- Memory with a new artifact. -/
theorem WellFormed.addArtifact {m : Memory Value} (h : WellFormed m) {a : Artifact Value}
    (hid : a.artifactId ≠ "") (hfresh : a.artifactId ∉ m.artifacts.map Prod.fst) :
    WellFormed { m with artifacts := m.artifacts.set a.artifactId a } := by
  have hset := Dict.set_of_notMem a hfresh
  refine ⟨h.keyed, h.nodup, h.indexed, h.requests, ?_, ?_⟩
  · intro e he
    simp only [hset, List.mem_append, List.mem_singleton] at he
    obtain he | rfl := he
    · exact h.artifactKeyed e he
    · exact ⟨rfl, hid⟩
  · simp only [hset]
    exact Dict.nodup_concat _ h.artifactNodup hfresh

theorem WellFormed.withAudit {m : Memory Value} (h : WellFormed m) (entries : List AuditEntry) :
    WellFormed { m with audit := entries } :=
  ⟨h.keyed, h.nodup, h.indexed, h.requests, h.artifactKeyed, h.artifactNodup⟩

/-- What a call does: it leaves the store alone, or commits another well-formed memory. -/
theorem run_cases (fingerprintOf : String → Value → String) (outcome : WriteOutcome)
    (h : WellFormed s.memory) (c : Call Value) (hfresh : c.Fresh s.memory) :
    (¬ c.Mutates s.memory ∧ ∃ r, c.run fingerprintOf s outcome = (r, s)) ∨
    (c.Mutates s.memory ∧ ∃ m reply, WellFormed m ∧ m ≠ s.memory ∧
      c.run fingerprintOf s outcome = commit s m reply outcome) := by
  cases c with
  | create kind actor payload clientRequestId fingerprint replayFingerprint newId now =>
      change (_ ∧ ∃ r, create fingerprintOf s kind actor payload clientRequestId fingerprint
          replayFingerprint newId now outcome = (r, s)) ∨
        (_ ∧ ∃ m reply, _ ∧ _ ∧ create fingerprintOf s kind actor payload clientRequestId fingerprint
          replayFingerprint newId now outcome = commit s m reply outcome)
      unfold create
      cases hrequested : s.memory.requested clientRequestId with
      | some id =>
          refine .inl ⟨by simp [Call.Mutates, hrequested], ?_⟩
          dsimp only
          split
          · exact ⟨_, rfl⟩
          · split <;> exact ⟨_, rfl⟩
      | none =>
          have hwf := h.addOperation (o := newOperation kind actor payload clientRequestId
            (requestFingerprint fingerprintOf kind payload fingerprint) replayFingerprint newId now)
            hfresh.1 hfresh.2 rfl hrequested
          refine .inr ⟨hrequested, _, _, hwf, fun hsame => ?_, rfl⟩
          have hlength := congrArg (fun m => m.operations.length) hsame
          simp [newOperation, Dict.set_of_notMem _ hfresh.2] at hlength
  | setState operationId state result error now =>
      change (_ ∧ ∃ r, setState s operationId state result error now outcome = (r, s)) ∨
        (_ ∧ ∃ m reply, _ ∧ _ ∧ setState s operationId state result error now outcome =
          commit s m reply outcome)
      unfold setState
      cases ho : s.memory.operations.lookup operationId with
      | none => exact .inl ⟨by simp [Call.Mutates, ho], _, rfl⟩
      | some o =>
          by_cases hterminal : o.state ∈ terminalStates
          · exact .inl ⟨by simp [Call.Mutates, ho, hterminal], _, if_pos hterminal⟩
          · let o' : Operation Value := { o with
              state := state, result := result.or o.result, error := error.or o.error
              updatedAt := now, version := o.version + 1 }
            have hkept : WellFormed { s.memory with
                operations := s.memory.operations.set operationId o' } := h.setOperation ho rfl rfl
            refine .inr ⟨⟨o, ho, hterminal⟩, _, _, hkept, ?_, if_neg hterminal⟩
            intro hsame
            have hmem := Dict.mem_of_lookup ho
            have hoperations : s.memory.operations.set operationId o' = s.memory.operations :=
              congrArg Memory.operations hsame
            have hnew := Dict.mem_set_self o' (List.mem_map_of_mem (f := Prod.fst) hmem)
            rw [hoperations] at hnew
            have hversion := congrArg Operation.version (Dict.value_unique h.nodup hmem hnew)
            exact absurd hversion (Nat.succ_ne_self _).symm
  | registerArtifact operationId resource kind content newId now =>
      refine .inr ⟨trivial, _, _, h.addArtifact (a := ⟨newId, operationId, resource, kind, now, content⟩)
        hfresh.1 hfresh.2, fun hsame => ?_, rfl⟩
      have hlength := congrArg (fun m => m.artifacts.length) hsame
      simp [Dict.set_of_notMem _ hfresh.2] at hlength
  | audit actor action resource result operationId now =>
      refine .inr ⟨trivial, _, _, h.withAudit (s.memory.audit ++
        [⟨now, actor, action, resource, result, orNone operationId⟩]), fun hsame => ?_, rfl⟩
      have hlength := congrArg (fun m => m.audit.length) hsame
      simp at hlength

/-- A call is atomic exactly when its write does not fail. -/
theorem Sound.atomic_iff (h : Sound s) (e : Event Value) :
    AtomicStep fingerprintOf s e ↔ Written s e := by
  cases e with
  | restart now outcome => exact Iff.rfl
  | call c outcome =>
      refine forall_congr' fun hfresh => ?_
      obtain ⟨hleaves, r, hr⟩ | ⟨hmutates, m, reply, hm, hne, hr⟩ :=
        run_cases fingerprintOf outcome h.wellFormed c hfresh
      · rw [hr]
        refine iff_of_true ?_ fun hm => absurd hm hleaves
        cases r with
        | ok reply => exact h.holds
        | error error => exact ⟨rfl, rfl⟩
      · rw [hr, atomic_commit hm hne]
        exact ⟨fun hw _ => hw, fun hw => hw hmutates⟩

theorem requestKey_interrupt (now : String) (o : Operation Value) :
    (interrupt now o).requestKey = o.requestKey := by
  unfold interrupt
  split <;> rfl

theorem WellFormed.interrupt {m : Memory Value} (h : WellFormed m) (now : String) :
    WellFormed { m with operations := m.operations.map fun e => (e.1, interrupt now e.2) } := by
  have hid (o : Operation Value) : (OperationStore.interrupt now o).operationId = o.operationId := by
    unfold OperationStore.interrupt
    split <;> rfl
  refine ⟨?_, ?_, ?_, h.requests, h.artifactKeyed, h.artifactNodup⟩
  · intro e he
    obtain ⟨d, hd, rfl⟩ := List.mem_map.mp he
    exact ⟨(hid d.2).trans (h.keyed d hd).1, (h.keyed d hd).2⟩
  · rw [List.map_map]
    exact h.nodup
  · simp only [h.indexed, indexOf, List.filterMap_map]
    refine List.filterMap_congr fun e _ => ?_
    simp only [Function.comp_apply, requestKey_interrupt]

/-- A file without unfinished operations is read as it is. -/
theorem readFile_interrupt_of_finished {file : File Value} (h : ¬ file.unfinished) (now : String) :
    readFile (interrupt now) file = readFile id file := by
  cases file with
  | missing => rfl
  | damaged => rfl
  | saved p =>
      have hfold : p.operations.foldl (loadOperation (interrupt now)) {} =
          p.operations.foldl (loadOperation id) {} := by
        refine List.foldl_ext _ _ _ fun m o ho => ?_
        unfold loadOperation
        by_cases hblank : o.operationId = ""
        · rw [if_pos hblank, if_pos hblank]
        · have hterminal : o.state ∈ terminalStates := by
            by_contra hopen
            exact h ⟨o, ho, hblank, hopen⟩
          simp only [if_neg hblank, interrupt, if_pos hterminal, id_eq]
      simp only [readFile, hfold]

theorem WellFormed.empty : WellFormed ({} : Memory Value) :=
  ⟨fun _ he => absurd he List.not_mem_nil, List.nodup_nil, rfl, List.nodup_nil,
    fun _ he => absurd he List.not_mem_nil, List.nodup_nil⟩

theorem Sound.restart (h : Sound s) {now : String}
    (he : restart s now outcome = (.ok (), s')) : Sound s' := by
  unfold OperationStore.restart at he
  cases hpath : s.hasPath with
  | false =>
      simp only [hpath, Bool.false_eq_true, if_false, File.unfinished, readFile, Prod.mk.injEq,
        true_and] at he
      subst he
      exact ⟨WellFormed.empty, fun h => by cases h⟩
  | true =>
      simp only [hpath, if_true] at he
      have hread : readFile (interrupt now) s.file =
          { s.memory with operations := s.memory.operations.map fun e => (e.1, interrupt now e.2) } := by
        rw [readFile_map (requestKey_interrupt now), h.holds hpath]
      have hwf : WellFormed (readFile (interrupt now) s.file) := hread ▸ h.wellFormed.interrupt now
      split at he
      case isTrue hunfinished =>
        unfold persistLocked at he
        cases outcome with
        | ok =>
            obtain rfl := congrArg Prod.snd he
            exact ⟨hwf, fun _ => hwf.readFile_payload⟩
        | beforeWrite => cases congrArg Prod.fst he
        | whileWriting => cases congrArg Prod.fst he
        | replacing => cases congrArg Prod.fst he
      case isFalse hfinished =>
        obtain rfl := congrArg Prod.snd he
        exact ⟨hwf, fun _ => (readFile_interrupt_of_finished hfinished now).symm⟩

theorem Sound.step (h : Sound s) {e : Event Value} (hwritten : Written s e)
    (he : (operationStore fingerprintOf).step s e = some s') : Sound s' := by
  cases e with
  | restart now outcome =>
      simp only [operationStore] at he
      split at he
      case h_1 s₁ hs₁ => exact h.restart (Option.some.inj he ▸ hs₁)
      case h_2 => cases he
  | call c outcome =>
      simp only [operationStore] at he
      split at he
      case isFalse => cases he
      case isTrue hfresh =>
        obtain rfl := Option.some.inj he
        obtain ⟨-, r, hr⟩ | ⟨hmutates, m, reply, hm, -, hr⟩ :=
          run_cases fingerprintOf outcome h.wellFormed c hfresh
        · rw [hr]
          exact h
        · rw [hr]
          refine ⟨by rwa [commit_memory], ?_⟩
          exact commit_holds hm (hwritten hfresh hmutates)

end Calls

/-! ## Whole runs -/

section Runs
variable (fingerprintOf : String → Value → String)

/-- A new store, with or without a path; a file that is there already cannot be read. -/
def opened (hasPath damaged : Bool) : Store Value :=
  { hasPath := hasPath, file := if damaged then .damaged else .missing }

theorem Sound.opened (hasPath damaged : Bool) : Sound (opened hasPath damaged : Store Value) := by
  refine ⟨WellFormed.empty, fun _ => ?_⟩
  cases damaged <;> rfl

/-- All calls of a run are atomic exactly when no write of a call that changes something fails. -/
theorem allAtomic_iff (hasPath damaged : Bool) (events : List (Event Value)) :
    (operationStore fingerprintOf).Follows (AtomicStep fingerprintOf) (opened hasPath damaged) events ↔
      (operationStore fingerprintOf).Follows Written (opened hasPath damaged) events :=
  Machine.follows_iff Sound (fun _ e _ hs _ => hs.atomic_iff e)
    (fun _ e hs _ => hs.atomic_iff e) (fun _ _ _ hs hwritten he => hs.step hwritten he)
    (Sound.opened hasPath damaged)

end Runs

/-- The disk is full when a request with an idempotency key is stored. -/
def failedCreate : List (Event String) :=
  [.call (.create "module_send" "ai:grant" "{}" "req-1" none none "op-1" "t0") .whileWriting]

/-- The caller is told that the request failed, and memory keeps it. -/
theorem failed_create_stays :
    ¬ ∀ events : List (Event String), (operationStore fun kind payload => kind ++ payload).Follows
      (AtomicStep fun kind payload => kind ++ payload) (opened true false) events := by
  intro hclaim
  have hatomic := (hclaim failedCreate).1 (by decide)
  have hmemory := congrArg (fun m => m.requestIds) hatomic.1
  revert hmemory
  decide

end HplcWorkbench.OperationStore
