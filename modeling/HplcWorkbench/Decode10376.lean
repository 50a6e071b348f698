import HplcWorkbench.Adapter645
import HplcWorkbench.Apdu698
import HplcWorkbench.AppItems

/-!
# Decoding a 1376.2 frame

`decode` prints the header, walks the application data and, for the AFNs that carry meter
frames, searches the application data for embedded 645 and 698.45 frames and decodes these too.
-/

namespace HplcWorkbench.Adapter10376

/-- The adapter that cuts the best-rated embedded frame off a payload: 645 is asked first, and
698.45 replaces it only with a higher score. -/
inductive NestedAdapter
  | a645
  | a698
  deriving DecidableEq, Repr

def bestNested (payload : Bytes) : Option (NestedAdapter × ExtractResult) :=
  match Adapter645.tryExtract payload, Adapter698.tryExtract payload with
  | none, none => none
  | some r, none => some (.a645, r)
  | none, some r => some (.a698, r)
  | some r, some r' =>
    if Adapter698.confidence r'.raw > Adapter645.confidence r.raw then some (.a698, r')
    else some (.a645, r)

def NestedAdapter.decode (store : MetadataStore) : NestedAdapter → Bytes → PyM ProtocolFrame
  | .a645, raw => Adapter645.decode store raw
  | .a698, raw => Adapter698.decode store raw

def scanNestedFuel (store : MetadataStore) : ℕ → Bytes → PyM (List ProtocolFrame)
  | 0, _ => pure []
  | _ + 1, [] => pure []
  | fuel + 1, b :: rest =>
    match bestNested (b :: rest) with
    | none => scanNestedFuel store fuel rest
    | some (adapter, res) => do
      let pf ← adapter.decode store res.raw
      let more ← scanNestedFuel store fuel ((b :: rest).drop res.consumed)
      pure (pf :: more)

/-- `_scan_nested`. Every step takes at least one byte, so the length is fuel enough. -/
def scanNested (store : MetadataStore) (payload : Bytes) : PyM (List ProtocolFrame) :=
  scanNestedFuel store payload.length payload

/-- The item that `_append_nested` adds for one embedded frame. -/
def nestedItem (source : String) (idx : ℕ) (pf : ProtocolFrame) : DataField :=
  let summary := if pf.address ≠ "" then pf.structure_ ++ " · 地址" ++ pf.address else pf.structure_
  ⟨"嵌套帧[" ++ toString idx ++ "] · " ++ pf.structure_, .str summary, none, pf.rawHex,
    .str pf.rawHex, source ++ "递归解出"⟩

/-- `afn in (0x02, 0x06, 0x13, 0xF1)`. -/
def carriesFrames (afn : Byte) : Bool := (afn : ℕ) ∈ [0x02, 0x06, 0x13, 0xF1]

/-- What `decode` reads out of the application data: its items and the embedded frames. -/
def decodeBody (store : MetadataStore) (afn : Byte) (fn : ℕ) (appdata : Bytes)
    (direction : Direction) : PyM (List DataField × List ProtocolFrame) :=
  if appdata = [] then pure ([⟨"应用数据", .str "(无)", none, "", .str "", ""⟩], [])
  else do
    let items ← appItems afn fn appdata direction
    if carriesFrames afn then
      let nested ← scanNested store appdata
      pure (items ++ nested.mapIdx (nestedItem "1376.2应用数据内"), nested)
    else pure (items, [])

def decode (store : MetadataStore) (raw : Bytes) : PyM ProtocolFrame := do
  match ← decodeHeader raw with
  | none => pure { newFrame "1376.2" (hex raw) with warnings := ["用户数据不足：缺 AFN/DT"] }
  | some h =>
    let (items, nested) ← decodeBody store h.afn h.fn h.appdata h.ctl.direction
    pure { newFrame "1376.2" (hex raw) with
      fields := headerFields h
      items := afnItem h :: items
      nested := nested
      warnings := headerWarnings h }

section Decode
variable {store : MetadataStore} {raw : Bytes} {h : Header}

theorem decode_of_body (hheader : decodeHeader raw = .ok (some h))
    {body : List DataField × List ProtocolFrame}
    (hbody : decodeBody store h.afn h.fn h.appdata h.ctl.direction = .ok body) :
    decode store raw = .ok { newFrame "1376.2" (hex raw) with
      fields := headerFields h
      items := afnItem h :: body.1
      nested := body.2
      warnings := headerWarnings h } := by
  rw [decode, hheader]
  simp only [bind, Except.bind, hbody]
  rfl

theorem body_of_decode (hheader : decodeHeader raw = .ok (some h)) {pf : ProtocolFrame}
    (hdecode : decode store raw = .ok pf) :
    ∃ body, decodeBody store h.afn h.fn h.appdata h.ctl.direction = .ok body := by
  rw [decode, hheader] at hdecode
  simp only [bind, Except.bind] at hdecode
  cases hbody : decodeBody store h.afn h.fn h.appdata h.ctl.direction with
  | ok body => exact ⟨body, rfl⟩
  | error e =>
      rw [hbody] at hdecode
      cases hdecode

end Decode

end HplcWorkbench.Adapter10376
