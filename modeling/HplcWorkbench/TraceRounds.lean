import HplcWorkbench.TraceDenials
import Mathlib.Data.List.Dedup

/-!
# Rounds of the communication trace

A round gathers the reports of its flows: the meters that were asked, their final answers over all
flows, and the table of the meters from which the counts are taken.
-/

namespace HplcWorkbench.Trace
open OrderedDict KeyedFolds

inductive MeterStatus
  | ok
  | denied
  | missing
  deriving DecidableEq, Repr

structure MeterRow where
  meterAddr : String
  viaTei : Option String
  status : MeterStatus
  flowKey : Option String
  extra : Bool := false

structure Meters where
  targets : ℕ
  responded : ℕ
  denied : ℕ
  missing : ℕ
  deriving DecidableEq, Repr

structure RoundReport where
  roundId : String
  clusterIndex : ℕ
  startT : String
  endT : String
  durationMs : Option ℤ
  msgSeqs : List String
  flows : List FlowReport
  meterTable : List MeterRow
  meters : Meters
  badFrames : ℕ

/-- `targets.setdefault(addr, via_tei)`. -/
def setTarget (viaTei : Option String) (targets : Dict String (Option String)) (addr : String) :
    Dict String (Option String) :=
  match targets.get? addr with
  | none => targets.set addr viaTei
  | some _ => targets

/-- The meters that were asked, each with the peer of the first flow that asked it. -/
def roundTargets (flowReports : List FlowReport) (nf : Feature) :
    List (String × Option String) :=
  let targets := flowReports.foldl (fun targets report =>
    report.targets.foldl (setTarget report.viaTei) targets) Dict.empty
  if nf.expectMeters ≠ [] then targets.entries.filter (·.1 ∈ nf.expectMeters) else targets.entries

/-- The answers of the meters over all flows. -/
def roundResponses (flowReports : List FlowReport) : Dict String Response :=
  flowReports.foldl (fun responses report => report.responses.foldl respond responses) Dict.empty

def Response.status (r : Response) : MeterStatus := if r.denied then .denied else .ok

def targetStatus (responses : Dict String Response) (addr : String) : MeterStatus :=
  match responses.get? addr with
  | none => .missing
  | some r => r.status

def targetRow (flowReports : List FlowReport) (responses : Dict String Response)
    (target : String × Option String) : MeterRow where
  meterAddr := target.1
  viaTei := target.2
  status := targetStatus responses target.1
  flowKey := (flowReports.find? fun r => target.1 ∈ r.targets).map FlowReport.flowKey

/-- The row of a meter that answered without being asked in this round. -/
def extraRow (flowReports : List FlowReport) (e : String × Response) : MeterRow where
  meterAddr := e.1
  viaTei := none
  status := e.2.status
  flowKey := (flowReports.find? fun r => r.responses.any (·.addr = e.1)).map FlowReport.flowKey
  extra := true

/-- `sorted(d.items())`. -/
def byAddr {α : Type} (entries : List (String × α)) : List (String × α) :=
  entries.insertionSort fun a b => a.1 ≤ b.1

def meterTable (flowReports : List FlowReport) (targets : List (String × Option String))
    (responses : Dict String Response) : List MeterRow :=
  (byAddr targets).map (targetRow flowReports responses) ++
    ((byAddr responses.entries).filter (·.1 ∉ targets.map Prod.fst)).map (extraRow flowReports)

/-- `_round_report`. -/
def roundReport (index : ℕ) (cluster : List Frame) (flowReports : List FlowReport) (nf : Feature)
    (badFrames : ℕ) : RoundReport :=
  let targets := roundTargets flowReports nf
  let table := meterTable flowReports targets (roundResponses flowReports)
  { roundId := "rd-" ++ padDec 4 index
    clusterIndex := index
    startT := (cluster.head?.map Frame.logTime).getD ""
    endT := (cluster.getLast?.map Frame.logTime).getD ""
    durationMs := do elapsed (← cluster.head?) (← cluster.getLast?)
    msgSeqs := (flowReports.map FlowReport.msgSeq).dedup.insertionSort (· ≤ ·)
    flows := flowReports
    meterTable := table
    meters :=
      { targets := targets.length
        responded := table.countP fun m => m.status = .ok ∧ ¬ m.extra
        -- the rows of the meters that were not asked are not left out here
        denied := table.countP fun m => m.status = .denied
        missing := table.countP fun m => m.status = .missing }
    badFrames := badFrames }

/-! ## The balance -/

/-- A meter that was asked in the round, and expected if there is a list of expected meters. -/
def IsTarget (flowReports : List FlowReport) (nf : Feature) (addr : String) : Prop :=
  (∃ report ∈ flowReports, addr ∈ report.targets) ∧
    (nf.expectMeters = [] ∨ addr ∈ nf.expectMeters)

/-- The answers in the reports of the flows. -/
def reported (flowReports : List FlowReport) : List Response :=
  flowReports.flatMap FlowReport.responses

/-- The four numbers add up, and the missing meters are the ones asked that were not heard. -/
structure Balanced (flowReports : List FlowReport) (nf : Feature) (report : RoundReport) : Prop where
  sum : report.meters.targets =
    report.meters.responded + report.meters.denied + report.meters.missing
  counted : report.meters.missing = (report.meterTable.filter (·.status = .missing)).length
  once : ((report.meterTable.filter (·.status = .missing)).map MeterRow.meterAddr).Nodup
  missing : ∀ addr, addr ∈ (report.meterTable.filter (·.status = .missing)).map MeterRow.meterAddr ↔
    IsTarget flowReports nf addr ∧ ∀ r ∈ reported flowReports, r.addr ≠ addr

section Balance
variable {flowReports : List FlowReport} {nf : Feature} {addr : String}
  {targets : List (String × Option String)} {responses : Dict String Response}

theorem roundResponses_eq (flowReports : List FlowReport) :
    roundResponses flowReports = collect Response.addr settle (reported flowReports) := by
  have hrespond : step Response.addr settle = respond :=
    funext₂ fun d r => (respond_eq_step d r).symm
  rw [roundResponses, collect, reported, hrespond, List.foldl_flatMap]

/-- `setTarget`, for one meter. -/
def firstPeer : Option (Option String) → String × Option String → Option String
  | none, asked => asked.2
  | some peer, _ => peer

theorem setTarget_eq_step (viaTei : Option String) (targets : Dict String (Option String))
    (addr : String) :
    setTarget viaTei targets addr = step Prod.fst firstPeer targets (addr, viaTei) := by
  rw [setTarget, step]
  cases hget : targets.get? addr with
  | none => rfl
  | some peer => exact (Dict.set_self targets hget).symm

theorem mem_roundTargets :
    addr ∈ (roundTargets flowReports nf).map Prod.fst ↔ IsTarget flowReports nf addr := by
  set asked := flowReports.flatMap fun report =>
    report.targets.map fun addr => (addr, report.viaTei) with hasked
  have hcollect : flowReports.foldl (fun targets report =>
      report.targets.foldl (setTarget report.viaTei) targets) Dict.empty =
        collect Prod.fst firstPeer asked := by
    rw [collect, hasked, List.foldl_flatMap]
    congr 1
    funext targets report
    rw [List.foldl_map]
    congr 1
    funext targets addr
    exact setTarget_eq_step report.viaTei targets addr
  have hkeys : addr ∈ (collect Prod.fst firstPeer asked).entries.map Prod.fst ↔
      ∃ report ∈ flowReports, addr ∈ report.targets := by
    rw [mem_keys_collect]
    constructor
    · rintro ⟨e, he, rfl⟩
      obtain ⟨report, hreport, he⟩ := List.mem_flatMap.mp he
      obtain ⟨addr, haddr, rfl⟩ := List.mem_map.mp he
      exact ⟨report, hreport, haddr⟩
    · rintro ⟨report, hreport, haddr⟩
      exact ⟨_, List.mem_flatMap.mpr ⟨report, hreport, List.mem_map_of_mem haddr⟩, rfl⟩
  rw [roundTargets, hcollect, IsTarget, ← hkeys]
  split_ifs with hexpect
  · simp only [List.mem_map, List.mem_filter, decide_eq_true_eq]
    constructor
    · rintro ⟨e, ⟨he, hin⟩, rfl⟩
      exact ⟨⟨e, he, rfl⟩, .inr hin⟩
    · rintro ⟨⟨e, he, rfl⟩, hin⟩
      exact ⟨e, ⟨he, hin.resolve_left hexpect⟩, rfl⟩
  · rw [ne_eq, not_not] at hexpect
    exact (and_iff_left (.inl hexpect)).symm

theorem roundTargets_nodup (flowReports : List FlowReport) (nf : Feature) :
    ((roundTargets flowReports nf).map Prod.fst).Nodup := by
  rw [roundTargets]
  split_ifs
  · exact (Dict.nodup _).sublist (List.filter_sublist.map _)
  · exact Dict.nodup _

theorem perm_byAddr {α : Type} (entries : List (String × α)) : (byAddr entries).Perm entries :=
  List.perm_insertionSort _ _

/-- A meter without an answer is missing. -/
theorem targetStatus_missing_iff :
    targetStatus (roundResponses flowReports) addr = .missing ↔
      ∀ r ∈ reported flowReports, r.addr ≠ addr := by
  rw [roundResponses_eq, ← get?_collect_eq_none_iff, targetStatus]
  cases (collect Response.addr settle (reported flowReports)).get? addr with
  | none => exact ⟨fun _ => rfl, fun _ => rfl⟩
  | some r =>
    refine iff_of_false ?_ (Option.some_ne_none r)
    dsimp only [Response.status]
    cases r.denied <;> decide

/-- A row of a meter that was not asked is a denial when the meter gave nothing else. -/
theorem extra_denied_iff :
    (∃ e ∈ (roundResponses flowReports).entries, e.1 ∉ targets.map Prod.fst ∧
        e.2.status = .denied) ↔
      ∃ r ∈ reported flowReports, r.addr ∉ targets.map Prod.fst ∧
        ∀ x ∈ reported flowReports, x.addr = r.addr → x.denied = true := by
  have hstatus (r : Response) : r.status = .denied ↔ r.denied = true := by
    rw [Response.status]
    cases r.denied <;> decide
  rw [roundResponses_eq]
  constructor
  · rintro ⟨e, he, hnot, hdenied⟩
    have hget := (Dict.get?_eq_some_iff _ e.1 e.2).mpr he
    rw [get?_collect] at hget
    have haddr := (mem_fiber.mp (settled_settle hget).1).2
    obtain ⟨hmem, hall⟩ := denied_of_mem_responses (List.mem_map_of_mem he)
    exact ⟨e.2, hmem, haddr ▸ hnot, hall.mp ((hstatus e.2).mp hdenied)⟩
  · rintro ⟨r, hr, hnot, hall⟩
    obtain ⟨r', hr', haddr⟩ := exists_response hr
    obtain ⟨e, he, rfl⟩ := List.mem_map.mp hr'
    have hget := (Dict.get?_eq_some_iff _ e.1 e.2).mpr he
    rw [get?_collect] at hget
    have hkey := (mem_fiber.mp (settled_settle hget).1).2
    rw [haddr] at hkey
    refine ⟨e, he, hkey ▸ hnot, (hstatus e.2).mpr ?_⟩
    exact (denied_of_mem_responses hr').2.mpr fun x hx hxaddr => hall x hx (hxaddr.trans haddr)

/-- Each target has one of the three states. -/
theorem length_eq_countP (xs : List MeterRow) :
    xs.length = xs.countP (·.status = .ok) + xs.countP (·.status = .denied) +
      xs.countP (·.status = .missing) := by
  induction xs with
  | nil => rfl
  | cons x xs ih =>
    simp only [List.length_cons, List.countP_cons, ih]
    cases x.status <;> simp <;> omega

/-- The rows of the meters that were asked. -/
def targetRows (flowReports : List FlowReport) (nf : Feature) : List MeterRow :=
  (byAddr (roundTargets flowReports nf)).map (targetRow flowReports (roundResponses flowReports))

def extraRows (flowReports : List FlowReport) (nf : Feature) : List MeterRow :=
  ((byAddr (roundResponses flowReports).entries).filter
    (·.1 ∉ (roundTargets flowReports nf).map Prod.fst)).map (extraRow flowReports)

theorem targetRows_addrs (flowReports : List FlowReport) (nf : Feature) :
    ((targetRows flowReports nf).map MeterRow.meterAddr).Perm
      ((roundTargets flowReports nf).map Prod.fst) := by
  rw [targetRows, List.map_map]
  exact (perm_byAddr _).map Prod.fst

theorem targetRows_status {m : MeterRow} (hm : m ∈ targetRows flowReports nf) :
    m.extra = false ∧ m.status = targetStatus (roundResponses flowReports) m.meterAddr := by
  obtain ⟨target, -, rfl⟩ := List.mem_map.mp hm
  exact ⟨rfl, rfl⟩

theorem extraRows_status {m : MeterRow} (hm : m ∈ extraRows flowReports nf) :
    m.extra = true ∧ m.status ≠ .missing := by
  obtain ⟨e, -, rfl⟩ := List.mem_map.mp hm
  refine ⟨rfl, ?_⟩
  dsimp only [extraRow, Response.status]
  cases e.2.denied <;> decide

theorem extraRows_denied_iff :
    (extraRows flowReports nf).countP (·.status = .denied) = 0 ↔
      ∀ r ∈ reported flowReports, ¬ IsTarget flowReports nf r.addr →
        ∃ x ∈ reported flowReports, x.addr = r.addr ∧ x.denied = false := by
  have hnone : (∀ m ∈ extraRows flowReports nf, m.status ≠ .denied) ↔
      ¬ ∃ e ∈ (roundResponses flowReports).entries,
        e.1 ∉ (roundTargets flowReports nf).map Prod.fst ∧ e.2.status = .denied := by
    rw [extraRows, List.forall_mem_map]
    simp only [List.mem_filter, decide_eq_true_eq, (perm_byAddr _).mem_iff, extraRow]
    push Not
    simp only [and_imp]
  rw [List.countP_eq_zero]
  simp only [decide_eq_true_eq]
  rw [hnone, extra_denied_iff]
  simp only [mem_roundTargets]
  push Not
  simp only [Bool.not_eq_true, ne_eq]

/-- The table has the rows of the targets and behind them those of the other meters. -/
theorem roundReport_table (index : ℕ) (cluster : List Frame) (flowReports : List FlowReport)
    (nf : Feature) (badFrames : ℕ) :
    (roundReport index cluster flowReports nf badFrames).meterTable =
      targetRows flowReports nf ++ extraRows flowReports nf := rfl

theorem filter_missing (flowReports : List FlowReport) (nf : Feature) :
    (targetRows flowReports nf ++ extraRows flowReports nf).filter (·.status = .missing) =
      (targetRows flowReports nf).filter (·.status = .missing) := by
  have hextra : (extraRows flowReports nf).filter (·.status = .missing) = [] := by
    rw [List.filter_eq_nil_iff]
    intro m hm
    simpa using (extraRows_status hm).2
  rw [List.filter_append, hextra, List.append_nil]

theorem countP_responded (flowReports : List FlowReport) (nf : Feature) :
    (targetRows flowReports nf ++ extraRows flowReports nf).countP
        (fun m => m.status = .ok ∧ ¬ m.extra) =
      (targetRows flowReports nf).countP (·.status = .ok) := by
  have hextra : (extraRows flowReports nf).countP (fun m => m.status = .ok ∧ ¬ m.extra) = 0 := by
    rw [List.countP_eq_zero]
    intro m hm
    simp [(extraRows_status hm).1]
  rw [List.countP_append, hextra, Nat.add_zero]
  apply List.countP_congr
  intro m hm
  simp [(targetRows_status hm).1]

end Balance

/-- The numbers of a round add up exactly when no meter that was not asked gave only denials. -/
theorem balanced_iff (index : ℕ) (cluster : List Frame) (flowReports : List FlowReport)
    (nf : Feature) (badFrames : ℕ) :
    Balanced flowReports nf (roundReport index cluster flowReports nf badFrames) ↔
      ∀ r ∈ reported flowReports, ¬ IsTarget flowReports nf r.addr →
        ∃ x ∈ reported flowReports, x.addr = r.addr ∧ x.denied = false := by
  rw [← extraRows_denied_iff]
  set report := roundReport index cluster flowReports nf badFrames
  have htable : report.meterTable = targetRows flowReports nf ++ extraRows flowReports nf := rfl
  have hmissing : report.meterTable.filter (·.status = .missing) =
      (targetRows flowReports nf).filter (·.status = .missing) := by
    rw [htable, filter_missing]
  have hcounted : report.meters.missing =
      (report.meterTable.filter (·.status = .missing)).length :=
    List.countP_eq_length_filter
  have hsum : report.meters.targets =
      report.meters.responded + report.meters.denied + report.meters.missing ↔
        (extraRows flowReports nf).countP (·.status = .denied) = 0 := by
    have htargets : report.meters.targets = (targetRows flowReports nf).length := by
      rw [targetRows, List.length_map, (perm_byAddr _).length_eq]
      rfl
    have hresponded : report.meters.responded =
        (targetRows flowReports nf).countP (·.status = .ok) := countP_responded flowReports nf
    have hdenied : report.meters.denied = (targetRows flowReports nf).countP (·.status = .denied) +
        (extraRows flowReports nf).countP (·.status = .denied) := List.countP_append
    rw [htargets, hresponded, hdenied, hcounted, hmissing, ← List.countP_eq_length_filter,
      length_eq_countP]
    omega
  constructor
  · exact fun h => hsum.mp h.sum
  · intro h
    refine ⟨hsum.mpr h, hcounted, ?_, ?_⟩
    · rw [hmissing]
      exact ((targetRows_addrs flowReports nf).nodup_iff.mpr
        (roundTargets_nodup flowReports nf)).sublist (List.filter_sublist.map _)
    · intro addr
      rw [hmissing, ← mem_roundTargets, ← (targetRows_addrs flowReports nf).mem_iff,
        ← targetStatus_missing_iff]
      simp only [List.mem_map, List.mem_filter, decide_eq_true_eq]
      constructor
      · rintro ⟨m, ⟨hm, hstatus⟩, rfl⟩
        exact ⟨⟨m, hm, rfl⟩, (targetRows_status hm).2.symm.trans hstatus⟩
      · rintro ⟨⟨m, hm, rfl⟩, hstatus⟩
        exact ⟨m, ⟨hm, (targetRows_status hm).2.trans hstatus⟩, rfl⟩

/-- A read request to one meter, and the denial of another one. -/
def strangerDenied : List Frame :=
  [{ frameId := 1, flowDir := some 0, msgSeq := some 5, meterAddrs := some [.text "112233445566"] },
    { frameId := 2, flowDir := some 1, msgSeq := some 5,
      meterAddrs := some [.reply "665544332211" true] }]

theorem stranger_denial_unbalanced :
    ¬ ∀ (index : ℕ) (cluster : List Frame) (acks : Dict ℕ Frame) (confirms : Dict ℕ (List Frame))
      (nf : Feature) (directions : List String) (badFrames : ℕ) (flowReports : List FlowReport),
      flowReports = (buildFlows cluster nf.appId).map (flowReport · acks confirms nf directions) →
      Balanced flowReports nf (roundReport index cluster flowReports nf badFrames) := by
  intro h
  have hsum := (h 0 strangerDenied .empty .empty readFeature [] 0 _ rfl).sum
  exact absurd hsum (by decide)

end HplcWorkbench.Trace
