import HplcWorkbench.GrantConfinement
import HplcWorkbench.ProfileSlots
import Mathlib.Algebra.Order.BigOperators.Group.List

/-!
# When applying a profile reaches its goal

Where no slot fails, the goal is reached and a second application changes nothing exactly if each slot
fits at the start.
-/

namespace HplcWorkbench.SerialProfiles
open ModuleSerial SerialResources OrderedDict

/-! ## All slots -/

section All
variable {casing : Casing} {env : Surroundings casing} {profiles : Slot → Profile} {w w' : World}
  {slots : List Slot}

theorem slotStep {profile : Profile} {slot : Slot} {entry : SlotResult} (hkeyed : Keyed w.service)
    (h : applySlot env w profile slot = (.ok entry, w')) : SlotStep env profile w w' slot := by
  cases slot with
  | listenerMain => exact slotStep_listener h
  | moduleLogCco => exact slotStep_module .cco hkeyed h
  | moduleLogSta => exact slotStep_module .sta hkeyed h
  | simconMain => exact slotStep_simcon h

/-- The slots are applied one after the other, and none fails. -/
inductive Applies (env : Surroundings casing) (profiles : Slot → Profile) : List Slot → World → World → Prop
  | nil (w : World) : Applies env profiles [] w w
  | cons {slot : Slot} {slots : List Slot} {w w₁ w' : World} {entry : SlotResult} :
      applySlot env w (profiles slot) slot = (.ok entry, w₁) → Applies env profiles slots w₁ w' →
        Applies env profiles (slot :: slots) w w'

theorem Applies.samePart (h : Applies env profiles slots w w') (hkeyed : Keyed w.service) {slot : Slot}
    (hslot : slot ∉ slots) : SamePart w w' slot := by
  induction h with
  | nil w => exact SamePart.refl w slot
  | cons hfirst _ ih =>
    have hne := List.ne_of_not_mem_cons hslot
    have hrest := List.not_mem_of_not_mem_cons hslot
    have hstep := slotStep hkeyed hfirst
    exact (hstep.touches.others slot hne).trans (ih (hstep.touches.keyed hkeyed) hrest)

/-- A slot is done at the end exactly if it fits at the start. -/
theorem Applies.done_iff (h : Applies env profiles slots w w') (hkeyed : Keyed w.service)
    (hnodup : slots.Nodup) {slot : Slot} (hslot : slot ∈ slots) :
    Done env (profiles slot) w' slot ↔ Fits env (profiles slot) w slot := by
  induction h with
  | nil w => cases hslot
  | @cons first slots w w₁ w' entry hfirst hrest ih =>
    obtain ⟨hfresh, hnodup⟩ := List.nodup_cons.mp hnodup
    have hstep := slotStep hkeyed hfirst
    have hkeyed' := hstep.touches.keyed hkeyed
    rcases List.mem_cons.mp hslot with rfl | hslot
    · exact (hrest.samePart hkeyed' hfresh).done_iff.trans hstep.done_iff
    · have hne : slot ≠ first := ne_of_mem_of_not_mem hslot hfresh
      exact (ih hkeyed' hnodup hslot).trans (hstep.touches.others slot hne).fits_iff

/-- A slot that is done is not touched again. -/
theorem Applies.again (h : Applies env profiles slots w w') (hkeyed : Keyed w.service)
    (hnodup : slots.Nodup) {slot : Slot} (hslot : slot ∈ slots) (hdone : Done env (profiles slot) w' slot) :
    ∃ entry, applySlot env w' (profiles slot) slot = (.ok entry, w') := by
  induction h with
  | nil w => cases hslot
  | @cons first slots w w₁ w' entry hfirst hrest ih =>
    obtain ⟨hfresh, hnodup⟩ := List.nodup_cons.mp hnodup
    have hstep := slotStep hkeyed hfirst
    have hkeyed' := hstep.touches.keyed hkeyed
    rcases List.mem_cons.mp hslot with rfl | hslot
    · exact hstep.again w' (hrest.samePart hkeyed' hfresh) hdone
    · exact ih hkeyed' hnodup hslot hdone

/-- A slot in the loop of `apply`. -/
def Report.next (env : Surroundings casing) (profiles : Slot → Profile) (r : Report) (slot : Slot) : Report :=
  { slots := r.slots ++ [(applyEntry env profiles r.world slot).1]
    world := (applyEntry env profiles r.world slot).2 }

theorem slots_foldl (slots : List Slot) (r : Report) :
    r.slots <+: (slots.foldl (Report.next env profiles) r).slots := by
  induction slots generalizing r with
  | nil => exact List.prefix_rfl
  | cons slot slots ih => exact (List.prefix_append _ _).trans (ih (r.next env profiles slot))

theorem applies_foldl (slots : List Slot) (r : Report)
    (h : ∀ entry ∈ (slots.foldl (Report.next env profiles) r).slots, entry.status ≠ .failed) :
    Applies env profiles slots r.world (slots.foldl (Report.next env profiles) r).world := by
  induction slots generalizing r with
  | nil => exact .nil _
  | cons slot slots ih =>
    have hentry : (applyEntry env profiles r.world slot).1 ∈
        ((slot :: slots).foldl (Report.next env profiles) r).slots :=
      (slots_foldl slots (r.next env profiles slot)).subset
        (List.mem_append_right _ (List.mem_singleton.mpr rfl))
    have hok := h _ hentry
    have hrest := ih (r.next env profiles slot) h
    cases hslot : applySlot env r.world (profiles slot) slot with
    | mk result w₁ =>
      have hworld : (r.next env profiles slot).world = w₁ := by
        rw [Report.next, applyEntry, hslot]
        cases result <;> rfl
      cases result with
      | error e =>
        rw [applyEntry, hslot] at hok
        exact absurd rfl hok
      | ok entry =>
        rw [hworld] at hrest
        exact .cons hslot hrest

theorem world_foldl (slots : List Slot) (r : Report)
    (h : ∀ slot ∈ slots, ∃ entry, applySlot env r.world (profiles slot) slot = (.ok entry, r.world)) :
    (slots.foldl (Report.next env profiles) r).world = r.world := by
  induction slots generalizing r with
  | nil => rfl
  | cons slot slots ih =>
    obtain ⟨entry, hslot⟩ := h slot List.mem_cons_self
    have hworld : (r.next env profiles slot).world = r.world := by
      rw [Report.next, applyEntry, hslot]
    rw [List.foldl_cons, ih, hworld]
    rw [hworld]
    exact fun slot hslot => h slot (List.mem_cons_of_mem _ hslot)

theorem mem_applyOrder (slot : Slot) : slot ∈ applyOrder := by
  cases slot <;> decide

/-- Where no slot fails, all slots are as they are to be and a second application changes nothing exactly
if each slot fits at the start. -/
theorem applied_iff (env : Surroundings casing) (profiles : Slot → Profile) (w : World)
    (hkeyed : Keyed w.service) (hok : (apply env profiles w).failCount = 0) :
    ((∀ slot, Done env (profiles slot) (apply env profiles w).world slot) ∧
        (apply env profiles (apply env profiles w).world).world = (apply env profiles w).world) ↔
      ∀ slot, Fits env (profiles slot) w slot := by
  have happlies : Applies env profiles applyOrder w (apply env profiles w).world := by
    apply applies_foldl applyOrder { world := w }
    intro entry hentry
    have hzero := List.countP_eq_zero.mp hok entry hentry
    simpa using hzero
  have hnodup : applyOrder.Nodup := by decide
  have hdone := fun slot => happlies.done_iff hkeyed hnodup (mem_applyOrder slot)
  constructor
  · exact fun h slot => (hdone slot).mp (h.1 slot)
  · intro hfits
    have hall := fun slot => (hdone slot).mpr (hfits slot)
    refine ⟨hall, ?_⟩
    apply world_foldl applyOrder { world := (apply env profiles w).world }
    exact fun slot hslot => happlies.again hkeyed hnodup hslot (hall slot)

end All

/-! ## A listener with another rate -/

/-- COM1 is plugged in and opens. A new session has more digits than all others. -/
def onePort : Surroundings asciiCasing where
  catalog := oneMapping
  nt := true
  ports := ["COM1"]
  defaults _ := {}
  liveDevice _ := none
  autoPort := none
  listenerOwner := "listener"
  simconOwner := "simcon"
  opening _ _ := .opened
  captures _ _ := true
  digits w := String.ofList (List.replicate (w.sessions.entries.map fun e => e.1.length).sum '0')
  fresh w := by
    apply Option.eq_none_iff_forall_ne_some.mpr
    intro s hs
    have hmem := (Dict.get?_eq_some_iff _ _ _).mp hs
    have hle := List.single_le_sum (fun _ _ => Nat.zero_le _) _
      (List.mem_map_of_mem (f := fun e : String × ModuleSession => e.1.length) hmem)
    simp at hle
  lower_cco := by decide +kernel
  lower_sta := by decide +kernel

/-- The listener is to run on COM1 with 115200 baud, and nothing else is. -/
def fastListener : Slot → Profile
  | .listenerMain => { mappingId := "meter-a", enabled := true, baudrate := some 115200 }
  | _ => {}

/-- The listener runs on COM1. -/
def listening (baudrate : ℤ) : World := { listener := some ⟨"COM1", ⟨baudrate, 8, "N", 1⟩⟩ }

theorem keyed_listening (baudrate : ℤ) : Keyed (listening baudrate).service := by
  intro a s hs
  cases hs

theorem fastListener_applied_iff :
    ((∀ slot, Done onePort (fastListener slot) (apply onePort fastListener (listening 115200)).world slot) ∧
        (apply onePort fastListener (apply onePort fastListener (listening 115200)).world).world =
          (apply onePort fastListener (listening 115200)).world) ↔
      ∀ slot, Fits onePort (fastListener slot) (listening 115200) slot :=
  applied_iff onePort fastListener (listening 115200) (keyed_listening 115200) (by decide +kernel)

theorem slowListener_not_applied : ¬ ∀ (profiles : Slot → Profile) (w : World), Keyed w.service →
    (apply onePort profiles w).failCount = 0 →
      (∀ slot, Done onePort (profiles slot) (apply onePort profiles w).world slot) ∧
        (apply onePort profiles (apply onePort profiles w).world).world = (apply onePort profiles w).world := by
  intro hclaim
  have hdone := (hclaim fastListener (listening 9600) (keyed_listening 9600) (by decide +kernel)).1 .listenerMain
  obtain ⟨h, hrunning, hparams, -⟩ := (done_enabled rfl).mp hdone
  have hslow : (apply onePort fastListener (listening 9600)).world.listener =
      some ⟨"COM1", ⟨9600, 8, "N", 1⟩⟩ := by decide +kernel
  obtain rfl := Option.some.inj (hslow.symm.trans hrunning)
  revert hparams
  decide +kernel

end HplcWorkbench.SerialProfiles
