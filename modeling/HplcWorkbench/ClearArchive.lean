import HplcWorkbench.FrameSummary

/-!
# Clearing the archive of a concentrator

`_run_clear_archive` asks for the addresses page by page, deletes them batch by batch and asks once
more. What a request does to the device and how its answer reads is left to `run_single_step`.
-/

namespace HplcWorkbench.Recipes

open Adapter10376

/-- The requests of the recipe: 10H-F2 and 11H-F2. -/
inductive Request
  | query (start count : ℕ)
  | delete (meters : List String)
  deriving DecidableEq, Repr

/-- What the recipe reads of a step: the items of its answer and its result. -/
structure StepResult where
  items : List DataField
  result : String

/-- `MAX_BATCH`. -/
def maxBatch : ℕ := 16

/-- One round of the loop over the items of an answer: the total and the addresses so far. -/
def readItem (acc : Option ℤ × List String) (it : DataField) : Option ℤ × List String :=
  if it.name = "从节点总数量" then
    match it.value.toInt with
    | .ok n => (some n, acc.2)
    | .error _ => acc
  else if "从节点".toList.isPrefixOf it.name.toList ∧ "地址".toList.isSuffixOf it.name.toList then
    let v := it.value.toStr
    if v ≠ "" ∧ v.toList.length ≥ 10 then (acc.1, acc.2 ++ [v]) else acc
  else acc

section Recipe
variable {σ : Type} (runSingleStep : Request → σ → StepResult × σ)

/-- The loop of `_query_all_archives` over the start positions. -/
def queryPages : List ℕ → List String → Option ℤ → StateM σ (List String × Option ℤ)
  | [], allAddrs, total => pure (allAddrs, total)
  | start :: starts, allAddrs, total => do
    let r ← runSingleStep (.query start maxBatch)
    let (total, addrs) := r.items.foldl readItem (total, [])
    let new := addrs.filter (· ∉ allAddrs)
    let allAddrs := allAddrs ++ new
    if new.length < maxBatch ∨ ∃ t ∈ total, t ≤ allAddrs.length then pure (allAddrs, total)
    else queryPages starts allAddrs total

/-- `_query_all_archives`, over `range(0, 400, MAX_BATCH)`. -/
def queryAllArchives : StateM σ (List String × Option ℤ) :=
  queryPages runSingleStep (List.range' 0 25 maxBatch) [] none

/-- The deletions of `_run_clear_archive`, over `range(0, len(addrs), MAX_BATCH)`. -/
def deleteBatches (addrs : List String) : List ℕ → StateM σ (List StepResult)
  | [] => pure []
  | i :: is => do
    let r ← runSingleStep (.delete ((addrs.drop i).take maxBatch))
    let results ← deleteBatches addrs is
    pure (r :: results)

structure ClearSummary where
  total : ℕ
  pass : ℕ
  fail : ℕ
  verdict : String
  reason : Option String := none
  queriedTotal : Option ℤ := none
  deleted : Option ℕ := none
  remain : Option ℤ := none
  cleared : Option Bool := none
  deriving DecidableEq, Repr

structure ClearReport where
  steps : List StepResult
  summary : ClearSummary
  message : String

/-- `_run_clear_archive` on a line that the caller has opened. -/
def runClearArchive (confirm : Bool) : StateM σ ClearReport := do
  if ¬ confirm then
    return {
      steps := []
      summary := { total := 0, pass := 0, fail := 0, verdict := "skip",
                   reason := some "confirm 未置 true，拒绝执行" }
      message := "清空档案是破坏性操作，需显式传 confirm=true" }
  let (addrs, total) ← queryAllArchives runSingleStep
  let deletions ← deleteBatches runSingleStep addrs
    (List.range' 0 ((addrs.length + maxBatch - 1) / maxBatch) maxBatch)
  let r ← runSingleStep (.query 0 16)
  let remain := (r.items.foldl readItem (none, [])).1
  let steps := deletions ++ [r]
  let cleared := remain = some 0
  let remainText := (remain.map toString).getD "None"
  return {
    steps
    summary := {
      total := steps.length
      pass := steps.countP (·.result = "pass")
      fail := steps.countP (·.result = "fail")
      verdict := if cleared then "pass" else "fail"
      queriedTotal := total
      deleted := some addrs.length
      remain
      cleared := some cleared }
    message := if cleared then s!"清空完成：删除 {addrs.length} 个，剩余 {remainText}"
      else s!"清空未完成：剩余 {remainText}" }

end Recipe

/-! ## The device -/

/-- A node of the archive: its address of twelve digits and its two bytes of information. -/
structure StoredNode where
  addr : String
  digits : TwelveDigits addr
  info : Byte × Byte
  deriving DecidableEq

def StoredNode.wire (nd : StoredNode) : Bytes := ((strToBcd nd.addr 6).toOption).getD []

def StoredNode.bytes (nd : StoredNode) : Bytes := nd.wire ++ [nd.info.1, nd.info.2]

/-- The nodes at the positions that a request asks for. -/
def asked (archive : List StoredNode) (start count : ℕ) : List StoredNode :=
  (archive.drop start).take count

/-- The data unit of the answer to 10H-F2. -/
def answerUnit (archive : List StoredNode) (start count : ℕ) : Bytes :=
  [byte archive.length, byte (archive.length >>> 8), byte (asked archive start count).length] ++
    (asked archive start count).flatMap StoredNode.bytes

/-- A device that answers requests from its archive and deletes what it is told to, where every
answer is received and decoded. -/
structure Device {σ : Type} (runSingleStep : Request → σ → StepResult × σ)
    (archive : σ → List StoredNode) : Prop where
  answers : ∀ s start count, items10 2 (answerUnit (archive s) start count) true =
    .ok (runSingleStep (.query start count) s).1.items
  keeps : ∀ s start count, archive (runSingleStep (.query start count) s).2 = archive s
  deletes : ∀ s meters, archive (runSingleStep (.delete meters) s).2 =
    (archive s).filter (·.addr ∉ meters)

theorem wire_spec (nd : StoredNode) : nd.wire.length = 6 ∧ bcdToStr nd.wire = nd.addr := by
  obtain ⟨bs, hbs, hlength, htext⟩ := strToBcd_digits nd.digits
  have hwire : nd.wire = bs := by
    rw [StoredNode.wire, hbs]
    rfl
  exact ⟨hwire ▸ hlength, hwire ▸ htext⟩

/-! ## Reading an answer -/

section Answer
variable (acc : Option ℤ × List String)

theorem readItem_total (data : Bytes) (i : ℕ) :
    readItem acc (wordItem "从节点总数量" data i) = (some (le16At data i : ℤ), acc.2) := by
  have hvalue : (wordItem "从节点总数量" data i).value.toInt = .ok (le16At data i : ℤ) := by
    have htext : dec (le16At data i) ++ "" = String.ofList (Nat.toDigits 10 (le16At data i)) := by
      rw [String.append_empty, dec, Nat.toString_eq_ofList_toDigits]
    change (PyVal.str (dec (le16At data i) ++ "")).toInt = _
    rw [htext, PyVal.toInt, Journal.textValue_toDigits]
    rfl
  have hname : (wordItem "从节点总数量" data i).name = "从节点总数量" := rfl
  rw [readItem, if_pos hname, hvalue]

theorem readItem_count (b : Byte) : readItem acc (numItem "本次应答的从节点数量" b) = acc := by
  have hname : (numItem "本次应答的从节点数量" b).name = "本次应答的从节点数量" := rfl
  rw [readItem, hname, if_neg (by decide), if_neg (by decide)]

/-- The name of an item of a row begins with the mark of a node and is not that of the total. -/
theorem row_name (i : ℕ) (kind : String) :
    ("从节点" ++ dec i ++ kind).toList = '从' :: '节' :: '点' :: (Nat.toDigits 10 i ++ kind.toList) := by
  have hmark : "从节点".toList = ['从', '节', '点'] := rfl
  have hdec : (dec i).toList = Nat.toDigits 10 i := by
    rw [dec, Nat.toString_eq_ofList_toDigits, String.toList_ofList]
  rw [String.toList_append, String.toList_append, hmark, hdec, List.append_assoc]
  exact List.append_assoc ['从', '节', '点'] (Nat.toDigits 10 i) kind.toList

theorem row_name_ne_total (i : ℕ) (kind : String) : "从节点" ++ dec i ++ kind ≠ "从节点总数量" := by
  intro h
  have hchars := congrArg String.toList h
  obtain ⟨c, rest, hcons, hdigit⟩ := Journal.toDigits_cons i
  rw [row_name, hcons] at hchars
  have htotal : "从节点总数量".toList = ['从', '节', '点', '总', '数', '量'] := rfl
  rw [htotal, List.cons_append] at hchars
  have hfirst : c = '总' := by
    simp only [List.cons.injEq] at hchars
    exact hchars.2.2.2.1
  rw [hfirst] at hdigit
  exact absurd hdigit (by decide)

theorem row_name_mark (i : ℕ) (kind : String) :
    "从节点".toList.isPrefixOf ("从节点" ++ dec i ++ kind).toList = true := by
  rw [row_name]
  rfl

theorem row_name_kind (i : ℕ) (kind : String) {a b : Char} (hkind : kind.toList = [a, b]) :
    "地址".toList.isSuffixOf ("从节点" ++ dec i ++ kind).toList = true ↔ a = '地' ∧ b = '址' := by
  have haddr : "地址".toList = ['地', '址'] := rfl
  rw [row_name, hkind, haddr, List.isSuffixOf_iff_suffix]
  constructor
  · rintro ⟨front, h⟩
    have hlast := congrArg List.reverse h
    simp only [List.reverse_append, List.reverse_cons, List.reverse_nil, List.nil_append,
      List.cons_append, List.cons.injEq] at hlast
    exact ⟨hlast.2.1.symm, hlast.1.symm⟩
  · rintro ⟨rfl, rfl⟩
    exact ⟨'从' :: '节' :: '点' :: Nat.toDigits 10 i, rfl⟩

theorem readItem_addr (i : ℕ) (nd : StoredNode) :
    readItem acc (bcdItem ("从节点" ++ dec (i + 1) ++ "地址") nd.wire) =
      (acc.1, acc.2 ++ [nd.addr]) := by
  have hname : (bcdItem ("从节点" ++ dec (i + 1) ++ "地址") nd.wire).name =
      "从节点" ++ dec (i + 1) ++ "地址" := rfl
  have hvalue : (bcdItem ("从节点" ++ dec (i + 1) ++ "地址") nd.wire).value.toStr = nd.addr :=
    (wire_spec nd).2
  have hlong : nd.addr ≠ "" ∧ nd.addr.toList.length ≥ 10 := by
    have hlength := nd.digits.1
    constructor
    · intro hempty
      rw [hempty] at hlength
      cases hlength
    · omega
  have hkind := (row_name_kind (i + 1) "地址" rfl).mpr ⟨rfl, rfl⟩
  rw [readItem, hname, if_neg (row_name_ne_total _ _), if_pos ⟨row_name_mark _ _, hkind⟩, hvalue]
  exact if_pos hlong

theorem readItem_info (i : ℕ) (value hexStr desc : String) :
    readItem acc (textField ("从节点" ++ dec (i + 1) ++ "信息") value hexStr desc) = acc := by
  have hname : (textField ("从节点" ++ dec (i + 1) ++ "信息") value hexStr desc).name =
      "从节点" ++ dec (i + 1) ++ "信息" := rfl
  have hkind := (row_name_kind (i + 1) "信息" rfl).not.mpr (by decide)
  rw [readItem, hname, if_neg (row_name_ne_total _ _), if_neg fun h => hkind h.2]

/-- The rows of an answer give the addresses of their nodes. -/
theorem foldl_rows (desc : ℕ → String) (nodes : List StoredNode) (before : Bytes) (i : ℕ) :
    (fixedRows (before ++ nodes.flatMap StoredNode.bytes) 8 (infoRow desc) nodes.length i
        before.length).1.foldl readItem acc = (acc.1, acc.2 ++ nodes.map StoredNode.addr) := by
  induction nodes generalizing before i acc with
  | nil => simp [fixedRows]
  | cons nd nodes ih =>
    have hbytes : nd.bytes.length = 8 := by
      rw [StoredNode.bytes, List.length_append, (wire_spec nd).1]
      rfl
    have hslice : slice (before ++ (nd :: nodes).flatMap StoredNode.bytes) before.length
        (before.length + 8) = nd.bytes := by
      rw [slice, List.flatMap_cons, ← List.append_assoc,
        List.take_left' (by rw [List.length_append, hbytes]), List.drop_left]
    have hroom : ¬ before.length + 8 > (before ++ (nd :: nodes).flatMap StoredNode.bytes).length := by
      rw [List.flatMap_cons, List.length_append, List.length_append, hbytes]
      omega
    have hwire : slice nd.bytes 0 6 = nd.wire := by
      rw [slice, StoredNode.bytes, List.take_left' (wire_spec nd).1, List.drop_zero]
    have hnext : before ++ (nd :: nodes).flatMap StoredNode.bytes =
        (before ++ nd.bytes) ++ nodes.flatMap StoredNode.bytes := by
      rw [List.flatMap_cons, List.append_assoc]
    have hlength : before.length + 8 = (before ++ nd.bytes).length := by
      rw [List.length_append, hbytes]
    rw [List.length_cons, fixedRows, if_neg hroom, hslice]
    dsimp only
    rw [List.foldl_append, infoRow, List.foldl_cons, List.foldl_cons, List.foldl_nil, hwire,
      readItem_addr, readItem_info, hnext, hlength, ih, List.map_cons, List.append_assoc,
      List.singleton_append]

/-- What the recipe reads from the answer of the device. -/
theorem foldl_answer {archive : List StoredNode} {start count : ℕ} {items : List DataField}
    (hsize : archive.length < 65536) (hcount : count < 256)
    (hitems : items10 2 (answerUnit archive start count) true = .ok items) (total : Option ℤ) :
    items.foldl readItem (total, []) =
      (some (archive.length : ℤ), (asked archive start count).map StoredNode.addr) := by
  have hlong : (answerUnit archive start count).length ≥ 3 := by
    rw [answerUnit, List.length_append]
    simp
  have hasked : (asked archive start count).length < 256 := by
    rw [asked, List.length_take]
    omega
  have htotal : le16At (answerUnit archive start count) 0 = archive.length := by
    have hlow : byteAt (answerUnit archive start count) 0 = byte archive.length := rfl
    have hhigh : byteAt (answerUnit archive start count) 1 = byte (archive.length >>> 8) := rfl
    rw [le16At, hlow, hhigh, le16_eq, byte_val, byte_val, BitFields.shiftRight_eq]
    omega
  have hn : ((byteAt (answerUnit archive start count) 2 : Byte) : ℕ) =
      (asked archive start count).length := by
    have hbyte : byteAt (answerUnit archive start count) 2 = byte (asked archive start count).length :=
      rfl
    rw [hbyte, byte_val, Nat.mod_eq_of_lt hasked]
  rw [items10, if_neg (by omega), if_pos ⟨.inl rfl, hlong⟩] at hitems
  simp only [if_true, not_true_eq_false, if_false] at hitems
  cases hitems
  have hrows := foldl_rows (some (archive.length : ℤ), []) nodeInfoText (asked archive start count)
    [byte archive.length, byte (archive.length >>> 8), byte (asked archive start count).length] 0
  have hnames : "从节点" ++ "总数量" = "从节点总数量" ∧ "本次应答的" ++ "从节点" ++ "数量" = "本次应答的从节点数量" := by
    decide
  rw [List.foldl_append, List.foldl_cons, List.foldl_cons, List.foldl_nil, hnames.1, hnames.2,
    readItem_total, readItem_count, htotal, hn]
  exact hrows

end Answer

/-! ## The pages -/

section Pages
variable {σ : Type} {runSingleStep : Request → σ → StepResult × σ} {archive : σ → List StoredNode}
  {nodes : List StoredNode}

/-- The addresses of a page are new, as the pages before have other positions. -/
theorem filter_new {addrs : List String} (hdistinct : addrs.Nodup) (start count : ℕ) :
    ((addrs.drop start).take count).filter (· ∉ addrs.take start) = (addrs.drop start).take count := by
  rw [List.filter_eq_self]
  intro a ha
  rw [← List.take_append_drop start addrs, List.nodup_append] at hdistinct
  apply decide_eq_true
  intro hbefore
  exact hdistinct.2.2 a hbefore a (List.mem_of_mem_take ha) rfl

/-- One page: the loop ends where the archive does. -/
theorem queryPages_cons (h : Device runSingleStep archive) (hsize : nodes.length < 65536)
    (hdistinct : (nodes.map StoredNode.addr).Nodup) (start : ℕ) (starts : List ℕ)
    (total : Option ℤ) (s : σ) (hs : archive s = nodes) :
    ∃ s', archive s' = nodes ∧
      queryPages runSingleStep (start :: starts) ((nodes.map StoredNode.addr).take start) total s =
        if nodes.length ≤ start + 16 then
          (((nodes.map StoredNode.addr).take (start + 16), some (nodes.length : ℤ)), s')
        else queryPages runSingleStep starts ((nodes.map StoredNode.addr).take (start + 16))
          (some (nodes.length : ℤ)) s' := by
  set addrs := nodes.map StoredNode.addr with haddrs
  have hlength : addrs.length = nodes.length := List.length_map _
  refine ⟨(runSingleStep (.query start maxBatch) s).2, (h.keeps s start maxBatch).trans hs, ?_⟩
  have hread := foldl_answer (hs ▸ hsize) (by decide) (h.answers s start maxBatch) total
  have hpage : (asked (archive s) start maxBatch).map StoredNode.addr = (addrs.drop start).take 16 := by
    rw [hs, asked, List.map_take, List.map_drop, haddrs]
    rfl
  rw [hpage, hs] at hread
  have hall : addrs.take start ++ (addrs.drop start).take 16 = addrs.take (start + 16) :=
    (List.take_add).symm
  have hstop : (((addrs.drop start).take 16).length < maxBatch ∨
      ∃ t ∈ some (nodes.length : ℤ), t ≤ (addrs.take (start + 16)).length) ↔
        nodes.length ≤ start + 16 := by
    simp only [List.length_take, List.length_drop, maxBatch, Option.mem_def, Option.some.injEq,
      exists_eq_left', hlength]
    omega
  change (match (runSingleStep (.query start maxBatch) s).1.items.foldl readItem (total, []) with
    | (total, found) => (if (found.filter (· ∉ addrs.take start)).length < maxBatch ∨
        ∃ t ∈ total, t ≤ ((addrs.take start ++ found.filter (· ∉ addrs.take start)).length : ℤ)
      then pure (addrs.take start ++ found.filter (· ∉ addrs.take start), total)
      else queryPages runSingleStep starts (addrs.take start ++ found.filter (· ∉ addrs.take start))
        total : StateM σ _)) (runSingleStep (.query start maxBatch) s).2 = _
  rw [hread]
  dsimp only
  rw [filter_new hdistinct, hall]
  by_cases hend : nodes.length ≤ start + 16
  · rw [if_pos (hstop.mpr hend), if_pos hend]
    rfl
  · rw [if_neg (mt hstop.mp hend), if_neg hend]

/-- From a position on, `k + 1` more pages bring all addresses up to the end of the last page. -/
theorem queryPages_spec (h : Device runSingleStep archive) (hsize : nodes.length < 65536)
    (hdistinct : (nodes.map StoredNode.addr).Nodup) (k start : ℕ) (total : Option ℤ) (s : σ)
    (hs : archive s = nodes) :
    ∃ s', archive s' = nodes ∧ queryPages runSingleStep (List.range' start (k + 1) maxBatch)
        ((nodes.map StoredNode.addr).take start) total s =
        (((nodes.map StoredNode.addr).take (start + 16 * (k + 1)), some (nodes.length : ℤ)), s') := by
  induction k generalizing start total s with
  | zero =>
    obtain ⟨s', hs', hpage⟩ := queryPages_cons h hsize hdistinct start [] total s hs
    refine ⟨s', hs', ?_⟩
    rw [List.range'_one, hpage]
    split_ifs
    · rfl
    · rfl
  | succ k ih =>
    obtain ⟨s', hs', hpage⟩ := queryPages_cons h hsize hdistinct start
      (List.range' (start + maxBatch) (k + 1) maxBatch) total s hs
    rw [List.range'_succ, hpage]
    by_cases hend : nodes.length ≤ start + 16
    · refine ⟨s', hs', ?_⟩
      rw [if_pos hend, List.take_of_length_le (by rw [List.length_map]; exact hend),
        List.take_of_length_le (by rw [List.length_map]; omega)]
    · obtain ⟨s'', hs'', hrest⟩ := ih (start + 16) (some (nodes.length : ℤ)) s' hs'
      refine ⟨s'', hs'', ?_⟩
      have hposition : start + 16 + 16 * (k + 1) = start + 16 * (k + 1 + 1) := by omega
      rw [if_neg hend, ← hposition]
      exact hrest

/-- The recipe finds the first 400 nodes. -/
theorem queryAllArchives_spec (h : Device runSingleStep archive) (hsize : nodes.length < 65536)
    (hdistinct : (nodes.map StoredNode.addr).Nodup) (s : σ) (hs : archive s = nodes) :
    ∃ s', archive s' = nodes ∧ queryAllArchives runSingleStep s =
      (((nodes.map StoredNode.addr).take 400, some (nodes.length : ℤ)), s') :=
  queryPages_spec h hsize hdistinct 24 0 none s hs

/-! ## The deletions -/

theorem deleteBatches_spec (h : Device runSingleStep archive) (addrs : List String) (is : List ℕ)
    (s : σ) : archive (deleteBatches runSingleStep addrs is s).2 =
      (archive s).filter fun nd => ∀ i ∈ is, nd.addr ∉ (addrs.drop i).take maxBatch := by
  induction is generalizing s with
  | nil => exact (List.filter_eq_self.mpr (by simp)).symm
  | cons i is ih =>
    change archive (deleteBatches runSingleStep addrs is
      (runSingleStep (.delete ((addrs.drop i).take maxBatch)) s).2).2 = _
    rw [ih, h.deletes, List.filter_filter]
    apply List.filter_congr
    intro nd _
    simp [Bool.and_comm]

/-- Every address is in one of the batches. -/
theorem mem_batch {addrs : List String} {a : String} (ha : a ∈ addrs) :
    ∃ i ∈ List.range' 0 ((addrs.length + maxBatch - 1) / maxBatch) maxBatch,
      a ∈ (addrs.drop i).take maxBatch := by
  obtain ⟨j, hj, rfl⟩ := List.mem_iff_getElem.mp ha
  refine ⟨16 * (j / 16), ?_, ?_⟩
  · rw [List.mem_range']
    refine ⟨j / 16, ?_, ?_⟩
    · simp only [maxBatch]
      omega
    · simp only [maxBatch]
      omega
  · rw [List.mem_iff_getElem]
    refine ⟨j % 16, ?_, ?_⟩
    · simp only [maxBatch, List.length_take, List.length_drop]
      omega
    · rw [List.getElem_take, List.getElem_drop]
      congr 1
      omega

/-- Exactly the nodes that were found are deleted. -/
theorem deleteBatches_all (h : Device runSingleStep archive) (addrs : List String) (s : σ) :
    archive (deleteBatches runSingleStep addrs
        (List.range' 0 ((addrs.length + maxBatch - 1) / maxBatch) maxBatch) s).2 =
      (archive s).filter fun nd => nd.addr ∉ addrs := by
  rw [deleteBatches_spec h]
  apply List.filter_congr
  intro nd _
  rw [decide_eq_decide]
  constructor
  · intro hnone hfound
    obtain ⟨i, hi, hbatch⟩ := mem_batch hfound
    exact hnone i hi hbatch
  · intro hout i _ hbatch
    exact hout (List.mem_of_mem_drop (List.mem_of_mem_take hbatch))

/-- The nodes behind the first 400 stay. -/
theorem runClearArchive_spec (h : Device runSingleStep archive) (hsize : nodes.length < 65536)
    (hdistinct : (nodes.map StoredNode.addr).Nodup) (s : σ) (hs : archive s = nodes) :
    archive (runClearArchive runSingleStep true s).2 = nodes.drop 400 := by
  obtain ⟨s', hs', hquery⟩ := queryAllArchives_spec h hsize hdistinct s hs
  have hrun : (runClearArchive runSingleStep true s).2 =
      (runSingleStep (.query 0 16) (deleteBatches runSingleStep
        (queryAllArchives runSingleStep s).1.1 (List.range' 0 (((queryAllArchives runSingleStep
          s).1.1.length + maxBatch - 1) / maxBatch) maxBatch)
        (queryAllArchives runSingleStep s).2).2).2 := rfl
  rw [hrun, hquery, h.keeps, deleteBatches_all h, hs']
  dsimp only
  have hsplit := List.take_append_drop 400 nodes
  rw [← hsplit, List.map_append, List.nodup_append] at hdistinct
  conv_lhs => rw [← hsplit]
  rw [List.filter_append, ← List.map_take]
  have hfirst : (nodes.take 400).filter
      (fun nd => nd.addr ∉ (nodes.take 400).map StoredNode.addr) = [] := by
    rw [List.filter_eq_nil_iff]
    intro nd hnd hout
    exact of_decide_eq_true hout (List.mem_map_of_mem hnd)
  have hrest : (nodes.drop 400).filter
      (fun nd => nd.addr ∉ (nodes.take 400).map StoredNode.addr) = nodes.drop 400 := by
    rw [List.filter_eq_self]
    intro nd hnd
    apply decide_eq_true
    intro hfound
    exact hdistinct.2.2 _ hfound _ (List.mem_map_of_mem hnd) rfl
  rw [hsplit, hfirst, hrest, List.nil_append]

end Pages

/-- Every node of the archive is found, in order, and deleted. -/
def Complete {σ : Type} (runSingleStep : Request → σ → StepResult × σ)
    (archive : σ → List StoredNode) (s : σ) : Prop :=
  (queryAllArchives runSingleStep s).1.1 = (archive s).map StoredNode.addr ∧
    archive (runClearArchive runSingleStep true s).2 = []

/-- The recipe is complete exactly for archives of up to 400 nodes. -/
theorem archive_complete_iff {σ : Type} {runSingleStep : Request → σ → StepResult × σ}
    {archive : σ → List StoredNode} (h : Device runSingleStep archive) (s : σ)
    (hsize : (archive s).length < 65536) (hdistinct : ((archive s).map StoredNode.addr).Nodup) :
    Complete runSingleStep archive s ↔ (archive s).length ≤ 400 := by
  obtain ⟨s', -, hquery⟩ := queryAllArchives_spec h hsize hdistinct s rfl
  rw [Complete, hquery, runClearArchive_spec h hsize hdistinct s rfl, List.drop_eq_nil_iff]
  constructor
  · exact And.right
  · intro hle
    exact ⟨List.take_of_length_le (by rw [List.length_map]; exact hle), hle⟩

/-! ## A device that holds its archive -/

/-- The device itself as the line: its answers are decoded as they come. -/
def directLine : Request → List StoredNode → StepResult × List StoredNode
  | .query start count, nodes =>
    (⟨((items10 2 (answerUnit nodes start count) true).toOption).getD [], "pass"⟩, nodes)
  | .delete meters, nodes => (⟨[], "pass"⟩, nodes.filter (·.addr ∉ meters))

theorem directLine_device : Device directLine id where
  answers nodes start count := by
    have hlong : (answerUnit nodes start count).length ≥ 3 := by
      rw [answerUnit, List.length_append]
      simp
    obtain ⟨items, hitems⟩ :
        ∃ items, items10 2 (answerUnit nodes start count) true = .ok items := by
      rw [items10, if_neg (by omega), if_pos ⟨.inl rfl, hlong⟩]
      exact ⟨_, rfl⟩
    change items10 2 (answerUnit nodes start count) true =
      .ok (((items10 2 (answerUnit nodes start count) true).toOption).getD [])
    rw [hitems]
    rfl
  keeps _ _ _ := rfl
  deletes _ _ := rfl

/-- The digit of a number below ten. -/
def digitOf (n : ℕ) : Char := Char.ofNat (48 + n % 10)

theorem digitOf_spec (n : ℕ) : IsDigit (digitOf n) ∧ (digitOf n).toNat = 48 + n % 10 := by
  have hlt : n % 10 < 10 := Nat.mod_lt n (by decide)
  rw [digitOf]
  generalize n % 10 = k at hlt ⊢
  interval_cases k <;> decide

/-- The address that ends in a number of three digits. -/
def numberedAddr (n : ℕ) : String :=
  String.ofList (List.replicate 9 '0' ++ [digitOf (n / 100), digitOf (n / 10), digitOf n])

theorem numberedAddr_digits (n : ℕ) : TwelveDigits (numberedAddr n) := by
  rw [TwelveDigits, numberedAddr, String.toList_ofList]
  refine ⟨rfl, fun c hc => ?_⟩
  rcases List.mem_append.mp hc with hc | hc
  · rw [List.eq_of_mem_replicate hc]
    decide
  · simp only [List.mem_cons, List.not_mem_nil, or_false] at hc
    rcases hc with rfl | rfl | rfl
    · exact (digitOf_spec _).1
    · exact (digitOf_spec _).1
    · exact (digitOf_spec _).1

theorem numberedAddr_injective {m n : ℕ} (hm : m < 1000) (hn : n < 1000)
    (h : numberedAddr m = numberedAddr n) : m = n := by
  have hchars := congrArg String.toList h
  rw [numberedAddr, numberedAddr, String.toList_ofList, String.toList_ofList] at hchars
  have hlast := List.append_cancel_left hchars
  simp only [List.cons.injEq, and_true] at hlast
  have hdigit (a b : ℕ) (hab : digitOf a = digitOf b) : a % 10 = b % 10 := by
    have hnat := congrArg Char.toNat hab
    rw [(digitOf_spec a).2, (digitOf_spec b).2] at hnat
    omega
  have hundreds := hdigit _ _ hlast.1
  have htens := hdigit _ _ hlast.2.1
  have hunits := hdigit _ _ hlast.2.2
  omega

/-- An archive of so many nodes. -/
def numberedNodes (n : ℕ) : List StoredNode :=
  (List.range n).map fun i => ⟨numberedAddr i, numberedAddr_digits i, (0, 0)⟩

theorem numberedNodes_distinct {n : ℕ} (hn : n ≤ 1000) :
    ((numberedNodes n).map StoredNode.addr).Nodup := by
  rw [numberedNodes, List.map_map]
  refine List.Nodup.map_on ?_ List.nodup_range
  intro a ha b hb h
  have ha' := List.mem_range.mp ha
  have hb' := List.mem_range.mp hb
  exact numberedAddr_injective (by omega) (by omega) h

theorem length_numberedNodes (n : ℕ) : (numberedNodes n).length = n := by
  rw [numberedNodes, List.length_map, List.length_range]

/-- Of 401 nodes the last one stays. -/
theorem page_limit_incomplete :
    ¬ ∀ (σ : Type) (runSingleStep : Request → σ → StepResult × σ) (archive : σ → List StoredNode),
      Device runSingleStep archive → ∀ s, (archive s).length < 65536 →
      ((archive s).map StoredNode.addr).Nodup → Complete runSingleStep archive s := by
  intro h
  have hlength := length_numberedNodes 401
  have hsize : (numberedNodes 401).length < 65536 := by omega
  have hdistinct := numberedNodes_distinct (n := 401) (by decide)
  obtain ⟨-, hcleared⟩ := h _ directLine id directLine_device (numberedNodes 401) hsize hdistinct
  have hleft := runClearArchive_spec directLine_device hsize hdistinct (numberedNodes 401) rfl
  rw [hcleared, eq_comm, List.drop_eq_nil_iff] at hleft
  omega

theorem twoPages_complete : Complete directLine id (numberedNodes 20) ↔ (numberedNodes 20).length ≤ 400 :=
  archive_complete_iff directLine_device (numberedNodes 20) (by rw [id, length_numberedNodes]; decide)
    (numberedNodes_distinct (by decide))

end HplcWorkbench.Recipes
