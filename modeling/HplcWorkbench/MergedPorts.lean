import HplcWorkbench.PortRuns
import Mathlib.Data.List.Count
import Mathlib.Data.List.Induction

/-!
# The merged list of serial ports

Each port of the system is put to a mapping by its bus identifier, and by its name where that is not
known. The ports of the system are listed once each and the mappings without a port once each. But
one mapping is offered on several ports where its bus identifier is on one and its name on another,
or two of its names are there, or two ports show its bus identifier.
-/

namespace HplcWorkbench.SerialMapping

open ModuleSerial (Casing normalise)
open OrderedDict (Dict)
open SerialResources (strip)

/-! ## Mappings and records -/

structure MappedPort extends ModuleSerial.SerialPortMapping where
  usbBusid : String := ""
  baudrate : ℕ := 115200
  parity : String := "N"
  bytesize : ℕ := 8
  stopbits : ℕ := 1
  deriving DecidableEq, Repr

structure PortRecord where
  device : String
  description : String := ""
  online : Bool := false
  mappingId : String := ""
  linuxDevice : String := ""
  windowsCom : String := ""
  usbBusid : String := ""
  com : String := ""
  label : String := ""
  usage : String := ""
  moduleType : String := ""
  baudrate : Option ℕ := none
  parity : String := ""
  bytesize : Option ℕ := none
  stopbits : Option ℕ := none
  enabled : Bool := true
  deriving DecidableEq, Repr

/-- `as_dict`; `nt` says that the platform is Windows. -/
def MappedPort.asDict (m : MappedPort) (nt : Bool) : PortRecord where
  mappingId := m.id
  device := m.deviceFor nt
  linuxDevice := m.linuxDevice
  windowsCom := m.windowsCom
  usbBusid := m.usbBusid
  com := if nt then "" else m.windowsCom
  label := m.label
  usage := m.usage
  moduleType := m.moduleType
  baudrate := some m.baudrate
  parity := m.parity
  bytesize := some m.bytesize
  stopbits := some m.stopbits
  enabled := m.enabled

/-- What the module sessions read of a record. -/
def PortRecord.detail (r : PortRecord) : ModuleSerial.PortDetail := ⟨r.device, r.mappingId, r.online⟩

/-- A port of the system; of a bare text the description is empty. -/
structure SystemPort where
  device : String
  description : String := ""
  deriving DecidableEq, Repr

section Catalog
variable (casing : Casing)

/-- The mappings that `load` accepts. Bus identifiers are not compared. -/
structure SerialPortCatalog where
  mappings : List MappedPort
  named : ∀ m ∈ mappings, m.id ≠ ""
  placed : ∀ m ∈ mappings, m.linuxDevice ≠ "" ∨ m.windowsCom ≠ ""
  distinct : (mappings.map (·.id)).Nodup
  separate : ∀ m ∈ mappings, ∀ m' ∈ mappings, ∀ a ∈ m.aliases casing, a ∈ m'.aliases casing → m = m'

namespace SerialPortCatalog
variable {casing}
variable (catalog : SerialPortCatalog casing) (nt : Bool) (deviceBusids : Dict String String)

/-- Of several mappings with one alias the last stays in `_by_alias`. -/
def find (device : String) : Option MappedPort :=
  catalog.mappings.reverse.find? fun m => normalise casing device ∈ m.aliases casing

/-- `find_by_busid`, with the last of several mappings again. -/
def findByBusid (busid : String) : Option MappedPort :=
  catalog.mappings.reverse.find? fun m =>
    m.usbBusid ≠ "" ∧ normalise casing m.usbBusid = normalise casing busid

omit catalog in
/-- `(device_busids.get(device) or "").strip()`. -/
def busidOf (device : String) : String := strip ((deviceBusids.get? device).getD "")

/-- The mapping by the bus identifier. -/
def busMapping (device : String) : Option MappedPort :=
  let busid := busidOf deviceBusids device
  if busid = "" then none else catalog.findByBusid busid

def mappingOf (device : String) : Option MappedPort :=
  match catalog.busMapping deviceBusids device with
  | some m => some m
  | none => catalog.find device

def record (port : SystemPort) : PortRecord :=
  match catalog.mappingOf deviceBusids port.device with
  | none =>
    { device := port.device
      description := port.description
      online := true
      usbBusid := busidOf deviceBusids port.device }
  | some m =>
    { m.asDict nt with device := port.device, description := port.description, online := true }

structure MergeState where
  results : List PortRecord := []
  seenMappingIds : List String := []
  seenDevices : List String := []

/-- The body of the loop over the ports of the system. -/
def mergePort (s : MergeState) (port : SystemPort) : MergeState :=
  if port.device = "" ∨ normalise casing port.device ∈ s.seenDevices then s
  else
    { results := s.results ++ [catalog.record nt deviceBusids port]
      seenMappingIds :=
        ((catalog.mappingOf deviceBusids port.device).map (·.id)).toList ++ s.seenMappingIds
      seenDevices := normalise casing port.device :: s.seenDevices }

def offline (m : MappedPort) : PortRecord :=
  { m.asDict nt with description := "配置的串口当前离线", online := false }

def mergeSystemPorts (ports : List SystemPort) : List PortRecord :=
  let s := ports.foldl (catalog.mergePort nt deviceBusids) {}
  s.results ++ (catalog.mappings.filter fun m => m.enabled ∧ m.id ∉ s.seenMappingIds).map (offline nt)

/-! ## What is asked of the list -/

omit catalog in
variable (casing) in
/-- The ports of the system, each at its first place. -/
def listed (ports : List SystemPort) : List SystemPort :=
  ports.foldl (fun acc port =>
    if port.device = "" ∨ ∃ q ∈ acc, normalise casing q.device = normalise casing port.device then acc
    else acc ++ [port]) []

/-- Some port of the system is put to the mapping. -/
def Matched (ports : List SystemPort) (m : MappedPort) : Prop :=
  ∃ port ∈ listed casing ports, catalog.mappingOf deviceBusids port.device = some m

/-- Every port of the system is listed once, and every enabled mapping without one. -/
structure Complete (ports : List SystemPort) (records : List PortRecord) : Prop where
  onlineOnce : ∀ port ∈ ports, port.device ≠ "" → records.countP (fun r =>
    r.online ∧ normalise casing r.device = normalise casing port.device) = 1
  system : ∀ r ∈ records, r.online → ⟨r.device, r.description⟩ ∈ ports ∧ r.device ≠ ""
  offlineOnce : ∀ m ∈ catalog.mappings, m.enabled → ¬ catalog.Matched deviceBusids ports m →
    records.countP (fun r => !r.online ∧ r.mappingId = m.id) = 1
  mapped : ∀ r ∈ records, ¬ r.online → ∃ m ∈ catalog.mappings, m.enabled ∧
    ¬ catalog.Matched deviceBusids ports m ∧ r = offline nt m

/-- No mapping is offered on two ports. -/
def Unambiguous (records : List PortRecord) : Prop :=
  ∀ id ≠ "", records.countP (fun r => r.online ∧ r.mappingId = id) ≤ 1

/-- How two ports come to one mapping. -/
inductive Clash (d d' : String) : Prop
  /-- Both show the bus identifier of a mapping. -/
  | sameBus (hmapped : (catalog.busMapping deviceBusids d).isSome) (h' : busidOf deviceBusids d' ≠ "")
      (heq : normalise casing (busidOf deviceBusids d) = normalise casing (busidOf deviceBusids d'))
  /-- One shows the bus identifier of a mapping, and the other has its name. -/
  | busAndName (m : MappedPort) (hbus : catalog.busMapping deviceBusids d = some m)
      (hnone : catalog.busMapping deviceBusids d' = none) (hname : normalise casing d' ∈ m.aliases casing)
  | nameAndBus (m : MappedPort) (hbus : catalog.busMapping deviceBusids d' = some m)
      (hnone : catalog.busMapping deviceBusids d = none) (hname : normalise casing d ∈ m.aliases casing)
  /-- They have two names of a mapping. -/
  | twoNames (m : MappedPort) (hm : m ∈ catalog.mappings)
      (hnone : catalog.busMapping deviceBusids d = none) (hname : normalise casing d ∈ m.aliases casing)
      (hnone' : catalog.busMapping deviceBusids d' = none)
      (hname' : normalise casing d' ∈ m.aliases casing)

/-! ## Mappings that are found -/

section Found
variable {catalog} {deviceBusids} {device d d' : String} {m : MappedPort}

theorem find_eq_some_iff :
    catalog.find device = some m ↔
      m ∈ catalog.mappings ∧ normalise casing device ∈ m.aliases casing := by
  constructor
  · intro h
    exact ⟨List.mem_reverse.mp (List.mem_of_find?_eq_some h), by simpa using List.find?_some h⟩
  · rintro ⟨hm, halias⟩
    cases h : catalog.find device with
    | none =>
      have hnone := List.find?_eq_none.mp h m (List.mem_reverse.mpr hm)
      exact absurd (decide_eq_true halias) hnone
    | some m' =>
      have hm' := List.mem_reverse.mp (List.mem_of_find?_eq_some h)
      have halias' : normalise casing device ∈ m'.aliases casing := by simpa using List.find?_some h
      rw [catalog.separate m hm m' hm' _ halias halias']

theorem mem_of_busMapping (h : catalog.busMapping deviceBusids device = some m) :
    m ∈ catalog.mappings ∧ busidOf deviceBusids device ≠ "" ∧
      normalise casing m.usbBusid = normalise casing (busidOf deviceBusids device) := by
  unfold busMapping at h
  dsimp only at h
  split at h
  · cases h
  · rename_i hbusid
    have hfound : m.usbBusid ≠ "" ∧ normalise casing m.usbBusid =
        normalise casing (busidOf deviceBusids device) := by simpa using List.find?_some h
    exact ⟨List.mem_reverse.mp (List.mem_of_find?_eq_some h), hbusid, hfound.2⟩

theorem mem_of_mappingOf (h : catalog.mappingOf deviceBusids device = some m) :
    m ∈ catalog.mappings := by
  unfold mappingOf at h
  split at h
  · rename_i hbus
    cases h
    exact (mem_of_busMapping hbus).1
  · exact (find_eq_some_iff.mp h).1

theorem busMapping_congr (hd : busidOf deviceBusids d ≠ "") (hd' : busidOf deviceBusids d' ≠ "")
    (heq : normalise casing (busidOf deviceBusids d) = normalise casing (busidOf deviceBusids d')) :
    catalog.busMapping deviceBusids d = catalog.busMapping deviceBusids d' := by
  unfold busMapping findByBusid
  dsimp only
  rw [if_neg hd, if_neg hd', heq]

/-- Two ports clash exactly if they are put to one mapping. -/
theorem clash_iff :
    catalog.Clash deviceBusids d d' ↔
      ∃ m, catalog.mappingOf deviceBusids d = some m ∧ catalog.mappingOf deviceBusids d' = some m := by
  unfold mappingOf
  constructor
  · rintro (⟨hmapped, h', heq⟩ | ⟨m, hbus, hnone, hname⟩ | ⟨m, hbus, hnone, hname⟩ |
      ⟨m, hm, hnone, hname, hnone', hname'⟩)
    · obtain ⟨m, hm⟩ := Option.isSome_iff_exists.mp hmapped
      have hsame : catalog.busMapping deviceBusids d = _ := busMapping_congr (mem_of_busMapping hm).2.1 h' heq
      rw [hm] at hsame
      refine ⟨m, ?_, ?_⟩
      · rw [hm]
      · rw [← hsame]
    · rw [hbus, hnone]
      exact ⟨m, rfl, find_eq_some_iff.mpr ⟨(mem_of_busMapping hbus).1, hname⟩⟩
    · rw [hbus, hnone]
      exact ⟨m, find_eq_some_iff.mpr ⟨(mem_of_busMapping hbus).1, hname⟩, rfl⟩
    · rw [hnone, hnone']
      exact ⟨m, find_eq_some_iff.mpr ⟨hm, hname⟩, find_eq_some_iff.mpr ⟨hm, hname'⟩⟩
  · rintro ⟨m, h, h'⟩
    cases hbus : catalog.busMapping deviceBusids d with
    | some n =>
      rw [hbus] at h
      cases h
      cases hbus' : catalog.busMapping deviceBusids d' with
      | some n' =>
        rw [hbus'] at h'
        cases h'
        obtain ⟨-, -, heq⟩ := mem_of_busMapping hbus
        obtain ⟨-, hne', heq'⟩ := mem_of_busMapping hbus'
        exact .sameBus (by rw [hbus]; rfl) hne' (heq.symm.trans heq')
      | none =>
        rw [hbus'] at h'
        exact .busAndName m hbus hbus' (find_eq_some_iff.mp h').2
    | none =>
      rw [hbus] at h
      obtain ⟨hm, hname⟩ := find_eq_some_iff.mp h
      cases hbus' : catalog.busMapping deviceBusids d' with
      | some n' =>
        rw [hbus'] at h'
        cases h'
        exact .nameAndBus m hbus' hbus hname
      | none =>
        rw [hbus'] at h'
        exact .twoNames m hm hbus hname hbus' (find_eq_some_iff.mp h').2

end Found

/-! ## The ports of the system -/

section Listed
variable {ports : List SystemPort}

omit catalog in
theorem listed_concat (port : SystemPort) :
    listed casing (ports ++ [port]) =
      if port.device = "" ∨ ∃ q ∈ listed casing ports,
        normalise casing q.device = normalise casing port.device then listed casing ports
      else listed casing ports ++ [port] := by
  rw [listed, List.foldl_append, List.foldl_cons, List.foldl_nil, ← listed]

omit catalog in
theorem mem_of_mem_listed {port : SystemPort} (h : port ∈ listed casing ports) :
    port ∈ ports ∧ port.device ≠ "" := by
  induction ports using List.reverseRecOn with
  | nil => cases h
  | append_singleton ports q ih =>
    rw [listed_concat] at h
    split at h
    · exact ⟨List.mem_append_left _ (ih h).1, (ih h).2⟩
    · rename_i hnew
      rcases List.mem_append.mp h with h | h
      · exact ⟨List.mem_append_left _ (ih h).1, (ih h).2⟩
      · cases List.mem_singleton.mp h
        exact ⟨List.mem_append_right _ h, fun hempty => hnew (.inl hempty)⟩

omit catalog in
variable (casing) in
theorem exists_mem_listed {port : SystemPort} (h : port ∈ ports) (hdevice : port.device ≠ "") :
    ∃ q ∈ listed casing ports,
      normalise casing q.device = normalise casing port.device := by
  induction ports using List.reverseRecOn with
  | nil => cases h
  | append_singleton ports q ih =>
    rw [listed_concat]
    rcases List.mem_append.mp h with h | h
    · obtain ⟨r, hr, hsame⟩ := ih h
      split
      · exact ⟨r, hr, hsame⟩
      · exact ⟨r, List.mem_append_left _ hr, hsame⟩
    · cases List.mem_singleton.mp h
      split
      · rename_i hold
        exact hold.resolve_left hdevice
      · exact ⟨port, List.mem_append_right _ h, rfl⟩

omit catalog in
variable (casing) (ports) in
theorem nodup_listed :
    ((listed casing ports).map fun port => normalise casing port.device).Nodup := by
  induction ports using List.reverseRecOn with
  | nil => exact List.nodup_nil
  | append_singleton ports q ih =>
    rw [listed_concat]
    split
    · exact ih
    · rename_i hnew
      rw [List.map_append, List.map_singleton, ← List.concat_eq_append, List.nodup_concat]
      refine ⟨?_, ih⟩
      intro h
      obtain ⟨r, hr, hsame⟩ := List.mem_map.mp h
      exact hnew (.inr ⟨r, hr, hsame⟩)

end Listed

/-! ## The list -/

section Merged
variable {catalog} {nt} {deviceBusids} {ports : List SystemPort} {port : SystemPort}

instance (m : MappedPort) : Decidable (catalog.Matched deviceBusids ports m) :=
  inferInstanceAs (Decidable (∃ port ∈ _, _))

theorem record_fields (catalog : SerialPortCatalog casing) (nt : Bool) (deviceBusids : Dict String String)
    (port : SystemPort) :
    (catalog.record nt deviceBusids port).device = port.device ∧
      (catalog.record nt deviceBusids port).description = port.description ∧
      (catalog.record nt deviceBusids port).online = true ∧
      (catalog.record nt deviceBusids port).mappingId =
        ((catalog.mappingOf deviceBusids port.device).map (·.id)).getD "" := by
  unfold record
  split <;> rename_i h <;> rw [h] <;> exact ⟨rfl, rfl, rfl, rfl⟩

/-- What the loop has seen. -/
structure Seen (catalog : SerialPortCatalog casing) (nt : Bool) (deviceBusids : Dict String String)
    (ports : List SystemPort) (s : MergeState) : Prop where
  results : s.results = (listed casing ports).map (catalog.record nt deviceBusids)
  mappings : ∀ id, id ∈ s.seenMappingIds ↔ ∃ port ∈ listed casing ports,
    (catalog.mappingOf deviceBusids port.device).map (·.id) = some id
  devices : ∀ name, name ∈ s.seenDevices ↔ ∃ port ∈ listed casing ports,
    normalise casing port.device = name

theorem Seen.step {s : MergeState} (h : Seen catalog nt deviceBusids ports s) (port : SystemPort) :
    Seen catalog nt deviceBusids (ports ++ [port]) (catalog.mergePort nt deviceBusids s port) := by
  obtain ⟨hresults, hmappings, hdevices⟩ := h
  have hknown := hdevices (normalise casing port.device)
  unfold mergePort
  by_cases hskip : port.device = "" ∨ ∃ q ∈ listed casing ports,
      normalise casing q.device = normalise casing port.device
  · rw [if_pos (hskip.imp_right hknown.mpr)]
    have hlisted := (listed_concat port).trans (if_pos hskip)
    constructor <;> rwa [hlisted]
  · rw [if_neg (fun h => hskip (h.imp_right hknown.mp))]
    have hlisted := (listed_concat port).trans (if_neg hskip)
    constructor <;> rw [hlisted]
    · rw [hresults, List.map_append, List.map_singleton]
    · intro id
      rw [List.mem_append, hmappings id, Option.mem_toList, or_comm]
      simp only [List.mem_append, List.mem_singleton, or_and_right, exists_or, exists_eq_left]
    · intro name
      rw [List.mem_cons, hdevices name, or_comm, eq_comm]
      simp only [List.mem_append, List.mem_singleton, or_and_right, exists_or, exists_eq_left]

theorem seen_foldl (catalog : SerialPortCatalog casing) (nt : Bool) (deviceBusids : Dict String String)
    (ports : List SystemPort) :
    Seen catalog nt deviceBusids ports (ports.foldl (catalog.mergePort nt deviceBusids) {}) := by
  induction ports using List.reverseRecOn with
  | nil => exact ⟨rfl, by simp [listed], by simp [listed]⟩
  | append_singleton ports port ih =>
    rw [List.foldl_append, List.foldl_cons, List.foldl_nil]
    exact ih.step port

theorem mergeSystemPorts_eq (ports : List SystemPort) :
    catalog.mergeSystemPorts nt deviceBusids ports =
      (listed casing ports).map (catalog.record nt deviceBusids) ++
        (catalog.mappings.filter fun m => m.enabled ∧ ¬ catalog.Matched deviceBusids ports m).map
          (offline nt) := by
  obtain ⟨hresults, hmappings, -⟩ := seen_foldl catalog nt deviceBusids ports
  rw [mergeSystemPorts, hresults]
  congr 2
  apply List.filter_congr
  intro m hm
  rw [decide_eq_decide]
  apply and_congr_right
  intro _
  rw [hmappings m.id, not_iff_not]
  constructor
  · rintro ⟨port, hport, hid⟩
    obtain ⟨m', hm', hid⟩ := Option.map_eq_some_iff.mp hid
    obtain rfl := List.inj_on_of_nodup_map catalog.distinct (mem_of_mappingOf hm') hm hid
    exact ⟨port, hport, hm'⟩
  · rintro ⟨port, hport, hm'⟩
    exact ⟨port, hport, by rw [hm']; rfl⟩

theorem countP_online (ports : List SystemPort) (p : PortRecord → Prop) [DecidablePred p] :
    (catalog.mergeSystemPorts nt deviceBusids ports).countP (fun r => r.online ∧ p r) =
      (listed casing ports).countP fun port => p (catalog.record nt deviceBusids port) := by
  rw [mergeSystemPorts_eq, List.countP_append, List.countP_map, List.countP_map]
  have hoffline : ∀ ms : List MappedPort, ms.countP
      ((fun r : PortRecord => decide (r.online ∧ p r)) ∘ offline nt) = 0 := by
    intro ms
    rw [List.countP_eq_zero]
    intro m _
    simp [offline]
  rw [hoffline, Nat.add_zero]
  apply List.countP_congr
  intro port _
  simp [(record_fields catalog nt deviceBusids port).2.2.1]

theorem complete (ports : List SystemPort) :
    catalog.Complete nt deviceBusids ports (catalog.mergeSystemPorts nt deviceBusids ports) := by
  constructor
  · intro port hport hdevice
    rw [countP_online]
    obtain ⟨q, hq, hsame⟩ := exists_mem_listed casing hport hdevice
    have hcount := List.count_eq_one_of_mem (nodup_listed casing ports)
      (List.mem_map_of_mem hq)
    rw [hsame, List.count, List.countP_map] at hcount
    rw [← hcount]
    apply List.countP_congr
    intro r _
    simp [record_fields]
  · intro r hr honline
    rw [mergeSystemPorts_eq] at hr
    rcases List.mem_append.mp hr with hr | hr
    · obtain ⟨port, hport, rfl⟩ := List.mem_map.mp hr
      obtain ⟨hdevice, hdescription, -, -⟩ := record_fields catalog nt deviceBusids port
      rw [hdevice, hdescription]
      exact mem_of_mem_listed hport
    · obtain ⟨m, -, rfl⟩ := List.mem_map.mp hr
      cases honline
  · intro m hm henabled hfree
    rw [mergeSystemPorts_eq, List.countP_append, List.countP_map, List.countP_map]
    have honline : (listed casing ports).countP ((fun r : PortRecord =>
        decide (!r.online ∧ r.mappingId = m.id)) ∘ catalog.record nt deviceBusids) = 0 := by
      rw [List.countP_eq_zero]
      intro port _
      simp [record_fields]
    have hmem : m ∈ catalog.mappings.filter fun m =>
        m.enabled ∧ ¬ catalog.Matched deviceBusids ports m :=
      List.mem_filter.mpr ⟨hm, decide_eq_true ⟨henabled, hfree⟩⟩
    have hnodup := catalog.distinct.sublist ((List.filter_sublist (p := fun m =>
      decide (m.enabled ∧ ¬ catalog.Matched deviceBusids ports m))).map (·.id))
    have hcount := List.count_eq_one_of_mem hnodup (List.mem_map_of_mem hmem)
    rw [List.count, List.countP_map] at hcount
    rw [honline, Nat.zero_add, ← hcount]
    apply List.countP_congr
    intro m' _
    constructor
    · intro h
      exact beq_iff_eq.mpr (of_decide_eq_true h).2
    · intro h
      exact decide_eq_true ⟨rfl, beq_iff_eq.mp h⟩
  · intro r hr hoffline
    rw [mergeSystemPorts_eq] at hr
    rcases List.mem_append.mp hr with hr | hr
    · obtain ⟨port, hport, rfl⟩ := List.mem_map.mp hr
      exact absurd (record_fields catalog nt deviceBusids port).2.2.1 hoffline
    · obtain ⟨m, hm, rfl⟩ := List.mem_map.mp hr
      rw [List.mem_filter, decide_eq_true_eq] at hm
      exact ⟨m, hm.1, hm.2.1, hm.2.2, rfl⟩

/-- The identifiers of the mappings that are offered. -/
def offered (catalog : SerialPortCatalog casing) (deviceBusids : Dict String String)
    (ports : List SystemPort) : List String :=
  ((listed casing ports).filterMap fun port =>
    catalog.mappingOf deviceBusids port.device).map (·.id)

theorem countP_offered (nt : Bool) {id : String} (hid : id ≠ "") (ports : List SystemPort) :
    (catalog.mergeSystemPorts nt deviceBusids ports).countP (fun r => r.online ∧ r.mappingId = id) =
      (catalog.offered deviceBusids ports).count id := by
  rw [countP_online, offered, List.count, List.countP_map, List.countP_filterMap]
  apply List.countP_congr
  intro port _
  rw [decide_eq_true_eq, (record_fields catalog nt deviceBusids port).2.2.2]
  cases catalog.mappingOf deviceBusids port.device with
  | none => simp [Ne.symm hid]
  | some m => simp

theorem unambiguous_iff_nodup (ports : List SystemPort) :
    Unambiguous (catalog.mergeSystemPorts nt deviceBusids ports) ↔
      (catalog.offered deviceBusids ports).Nodup := by
  rw [List.nodup_iff_count_le_one, Unambiguous]
  constructor
  · intro h id
    by_cases hid : id = ""
    · subst hid
      rw [List.count_eq_zero_of_not_mem]
      · exact Nat.zero_le 1
      · intro hmem
        obtain ⟨m, hm, hempty⟩ := List.mem_map.mp hmem
        obtain ⟨port, -, hport⟩ := List.mem_filterMap.mp hm
        exact catalog.named m (mem_of_mappingOf hport) hempty
    · rw [← countP_offered nt hid]
      exact h id hid
  · intro h id hid
    rw [countP_offered nt hid]
    exact h id

theorem nodup_offered_iff (ports : List SystemPort) :
    (catalog.offered deviceBusids ports).Nodup ↔
      (listed casing ports).Pairwise fun p q =>
        ¬ catalog.Clash deviceBusids p.device q.device := by
  rw [offered, List.Nodup, List.pairwise_map, List.pairwise_filterMap]
  apply List.Pairwise.iff
  intro p q
  rw [clash_iff]
  constructor
  · rintro h ⟨m, hp, hq⟩
    exact h m hp m hq rfl
  · intro h m hp m' hq hid
    obtain rfl := List.inj_on_of_nodup_map catalog.distinct (mem_of_mappingOf hp)
      (mem_of_mappingOf hq) hid
    exact h ⟨m, hp, hq⟩

end Merged

/-! ## Without bus identifiers -/

section Plain
variable {nt} {ports : List SystemPort}

/-- The catalogue as the module sessions read it. -/
def plain : ModuleSerial.SerialPortCatalog casing where
  mappings := catalog.mappings.map (·.toSerialPortMapping)
  named := List.forall_mem_map.mpr catalog.named
  placed := List.forall_mem_map.mpr catalog.placed
  distinct := by
    rw [List.map_map]
    exact catalog.distinct
  separate := by
    intro m hm m' hm' a ha ha'
    obtain ⟨n, hn, rfl⟩ := List.mem_map.mp hm
    obtain ⟨n', hn', rfl⟩ := List.mem_map.mp hm'
    rw [catalog.separate n hn n' hn' a ha ha']

theorem plain_find (device : String) :
    catalog.plain.find device = (catalog.find device).map (·.toSerialPortMapping) := by
  rw [ModuleSerial.SerialPortCatalog.find, plain, find, ← List.map_reverse, List.find?_map]
  rfl

theorem mappingOf_empty (device : String) :
    catalog.mappingOf Dict.empty device = catalog.find device := by
  have hbusid : busidOf Dict.empty device = "" := rfl
  rw [mappingOf, busMapping, hbusid, if_pos rfl]

/-- One more port at the end. -/
theorem mergeOnline_concat (plain : ModuleSerial.SerialPortCatalog casing) (devices seen : List String)
    (device : String) :
    plain.mergeOnline seen (devices ++ [device]) = plain.mergeOnline seen devices ++
      if device = "" ∨ normalise casing device ∈ seen ∨ ∃ d ∈ plain.mergeOnline seen devices,
          normalise casing d.device = normalise casing device then []
      else [⟨device, (plain.find device).elim "" (·.id), true⟩] := by
  induction devices generalizing seen with
  | nil => simp [ModuleSerial.SerialPortCatalog.mergeOnline]
  | cons first rest ih =>
    rw [List.cons_append, ModuleSerial.SerialPortCatalog.mergeOnline,
      ModuleSerial.SerialPortCatalog.mergeOnline]
    split
    · exact ih seen
    · rw [ih, List.cons_append]
      congr 2
      apply if_congr _ rfl rfl
      simp only [List.mem_cons, exists_eq_or_imp, eq_comm, or_assoc, or_left_comm]

theorem detail_record (port : SystemPort) :
    (catalog.record nt Dict.empty port).detail =
      ⟨port.device, (catalog.plain.find port.device).elim "" (·.id), true⟩ := by
  obtain ⟨hdevice, -, honline, hid⟩ := record_fields catalog nt Dict.empty port
  rw [PortRecord.detail, hdevice, honline, hid, mappingOf_empty, plain_find]
  cases catalog.find port.device <;> rfl

theorem mergeOnline_listed (nt : Bool) (ports : List SystemPort) :
    catalog.plain.mergeOnline [] (ports.map (·.device)) =
      (listed casing ports).map fun port =>
        (catalog.record nt Dict.empty port).detail := by
  induction ports using List.reverseRecOn with
  | nil => rfl
  | append_singleton ports port ih =>
    have hknown : (∃ d ∈ catalog.plain.mergeOnline [] (ports.map (·.device)),
        normalise casing d.device = normalise casing port.device) ↔
        ∃ q ∈ listed casing ports,
          normalise casing q.device = normalise casing port.device := by
      rw [ih]
      simp only [List.mem_map, exists_exists_and_eq_and, detail_record]
    rw [List.map_append, List.map_singleton, mergeOnline_concat, listed_concat]
    by_cases hskip : port.device = "" ∨ ∃ q ∈ listed casing ports,
        normalise casing q.device = normalise casing port.device
    · rw [if_pos (hskip.imp_right fun h => .inr (hknown.mpr h)), if_pos hskip, List.append_nil, ih]
    · rw [if_neg, if_neg hskip, ih, List.map_append, List.map_singleton, detail_record]
      rintro (hempty | hseen | hold)
      · exact hskip (.inl hempty)
      · cases hseen
      · exact hskip (.inr (hknown.mp hold))

/-- Without bus identifiers the list is the one that the module sessions read. -/
theorem detail_mergeSystemPorts (ports : List SystemPort) :
    (catalog.mergeSystemPorts nt Dict.empty ports).map PortRecord.detail =
      catalog.plain.mergeSystemPorts nt (ports.map (·.device)) := by
  rw [mergeSystemPorts_eq, ModuleSerial.SerialPortCatalog.mergeSystemPorts, mergeOnline_listed catalog nt,
    List.map_append, List.map_map, List.map_map]
  congr 1
  have hmatched : ∀ m ∈ catalog.mappings, catalog.Matched Dict.empty ports m ↔
      m.id ∈ ((listed casing ports).map fun port =>
        (catalog.record nt Dict.empty port).detail).map (·.mappingId) := by
    intro m hm
    rw [List.map_map, List.mem_map]
    constructor
    · rintro ⟨port, hport, hfound⟩
      rw [mappingOf_empty] at hfound
      refine ⟨port, hport, ?_⟩
      rw [Function.comp_apply, detail_record, plain_find, hfound]
      rfl
    · rintro ⟨port, hport, hid⟩
      rw [Function.comp_apply, detail_record, plain_find] at hid
      refine ⟨port, hport, ?_⟩
      rw [mappingOf_empty]
      cases hfound : catalog.find port.device with
      | none =>
        rw [hfound] at hid
        exact absurd hid.symm (catalog.named m hm)
      | some m' =>
        rw [hfound] at hid
        rw [List.inj_on_of_nodup_map catalog.distinct (find_eq_some_iff.mp hfound).1 hm hid]
  rw [plain, List.filter_map, List.map_map]
  refine congrArg (List.map (PortRecord.detail ∘ offline nt)) (List.filter_congr ?_)
  intro m hm
  exact decide_eq_decide.mpr (and_congr_right fun _ => not_congr (hmatched m hm))

end Plain

end SerialPortCatalog
end Catalog

open SerialPortCatalog

/-- The list is complete, and it is unambiguous exactly if no two ports come to one mapping. -/
theorem mergeSystemPorts_iff (casing : Casing) (catalog : SerialPortCatalog casing) (nt : Bool)
    (deviceBusids : Dict String String) (ports : List SystemPort) :
    (catalog.Complete nt deviceBusids ports (catalog.mergeSystemPorts nt deviceBusids ports) ∧
        Unambiguous (catalog.mergeSystemPorts nt deviceBusids ports)) ↔
      (listed casing ports).Pairwise fun p q =>
        ¬ catalog.Clash deviceBusids p.device q.device := by
  rw [unambiguous_iff_nodup, nodup_offered_iff]
  exact and_iff_right (complete ports)

/-! ## Ports that were renumbered -/

/-- A concentrator at bus 6-1, known as the first port. -/
def simcon : MappedPort where
  id := "simcon"
  linuxDevice := "/dev/ttyUSB0"
  usbBusid := "6-1"

def simconCatalog : SerialPortCatalog ModuleSerial.asciiCasing where
  mappings := [simcon]
  named := by decide
  placed := by decide
  distinct := List.nodup_singleton _
  separate := by
    intro m hm m' hm' _ _ _
    rw [List.mem_singleton.mp hm, List.mem_singleton.mp hm']

/-- The concentrator is the second port now, and another device the first. -/
theorem renumbered_ambiguous :
    ¬ (simconCatalog.Complete false (Dict.empty.set "/dev/ttyUSB1" "6-1")
          [⟨"/dev/ttyUSB0", ""⟩, ⟨"/dev/ttyUSB1", ""⟩]
          (simconCatalog.mergeSystemPorts false (Dict.empty.set "/dev/ttyUSB1" "6-1")
            [⟨"/dev/ttyUSB0", ""⟩, ⟨"/dev/ttyUSB1", ""⟩]) ∧
        Unambiguous (simconCatalog.mergeSystemPorts false (Dict.empty.set "/dev/ttyUSB1" "6-1")
          [⟨"/dev/ttyUSB0", ""⟩, ⟨"/dev/ttyUSB1", ""⟩])) := by
  rintro ⟨-, h⟩
  exact absurd (h "simcon" (by decide)) (by decide +kernel)

end HplcWorkbench.SerialMapping
