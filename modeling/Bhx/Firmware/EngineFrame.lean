import Bhx.Firmware.SlotCores

/-!
# What the firmware leaves alone

BRISC, TRISC1 and TRISC2 run their main loops side by side. Each iteration reads a mask of active
slots and works on the slots in it, while the daemon changes the masks and guests store to their
registers. The code, the constants and the variables of the firmware lie in L1 too, from its start
on and below the statistics. `engine_spares_byte` says that nothing of this reaches another byte:
the STATUS registers, the device configurations, the masks and what belongs to the UARTs hold what
was stored there from outside.

Scope. TRISC0, which serves the UARTs, and the resets of TRISC1 and TRISC2 are left out. A store
from outside is one byte. What the loops keep in variables is kept beside L1; the stores to the
variables come at any time and store anything.
-/

set_option autoImplicit false

namespace Bhx.Firmware

open SharedMemory Machine L1Layout Cores

/-- The cores that serve the slots. -/
inductive EngineCore
  | brisc | trisc1 | trisc2
deriving DecidableEq, Repr

/-- What a core keeps between two iterations: the mask or, for each slot, the selector it saw
last. -/
def EngineCore.Private : EngineCore → Type
  | .brisc => ℕ
  | .trisc1 | .trisc2 => ℕ → ℕ

/-- BRISC_VIRTIO_CODE_SIZE. -/
def codeSize : ℕ := 0x4000

/-- The code and the data of the firmware: the linker script places them from the start of L1 on. -/
def firmwareRegion (a : ℕ) : Prop := a < codeSize

/-- A store of one byte that is not part of the work on a slot. -/
inductive EngineEvent
  /-- Somebody else stores it. -/
  | outside (store : ByteStore)
  /-- A core stores it to a variable of the firmware. -/
  | static (addr : Fin codeSize) (value : ℕ)

def EngineEvent.store : EngineEvent → ByteStore
  | .outside store => store
  | .static addr value => ⟨addr, value⟩

/-- The main loops, next to stores to variables and stores from outside. -/
def engineCores : Cores EngineCore Op ℕ EngineEvent World EngineCore.Private where
  exec := exec
  act event w := { w with l1 := writeLE w.l1 event.store.addr 1 event.store.value }
  loop
    | .brisc, prevActive => sweep prevActive
    | .trisc1, lastQsel => trisc1Pass lastQsel
    | .trisc2, lastDfsel => trisc2Pass lastDfsel

abbrev EngineConfig := Config EngineCore Op ℕ EngineEvent World EngineCore.Private

/-- What the firmware may write for some slot. -/
def engineRegion (a : ℕ) : Prop := ∃ slot < numSlots, slotRegion slot a

variable {c : EngineConfig} {a : ℕ}

theorem slot_lt {slot : ℕ} {keep : ℕ → Bool} (hmem : slot ∈ (List.range numSlots).filter keep) :
    slot < numSlots := List.mem_range.mp (List.mem_filter.mp hmem).1

theorem inRegion_of_slot {α : Type} {slot : ℕ} {program : Prog α} (hslot : slot < numSlots)
    (h : program.Performs (StoresIn (slotRegion slot))) :
    program.Performs (StoresIn engineRegion) :=
  h.allow fun _ hop ↦ hop.mono fun _ ha ↦ ⟨slot, hslot, ha⟩

theorem inRegion_visitSlots {visit : ℕ → ℕ → Prog ℕ} (slots : List ℕ)
    (hslots : ∀ slot ∈ slots, slot < numSlots)
    (hvisit : ∀ slot last, (visit slot last).Performs (StoresIn (slotRegion slot)))
    (last : ℕ → ℕ) : (visitSlots visit slots last).Performs (StoresIn engineRegion) := by
  induction slots generalizing last with
  | nil => trivial
  | cons slot slots ih =>
    refine (inRegion_of_slot (hslots slot List.mem_cons_self) (hvisit slot _)).bind fun seen _ ↦ ?_
    exact ih (fun other hother ↦ hslots other (List.mem_cons_of_mem _ hother)) _

/-- Every iteration stores inside the regions of the slots, whatever mask it reads. -/
theorem inRegion_loop (core : EngineCore) (kept : core.Private) :
    (engineCores.loop core kept).Performs (StoresIn engineRegion) := by
  cases core with
  | brisc =>
    refine (always_readU32 trivial).bind fun active _ ↦ (always_readU32 trivial).bind fun _ _ ↦ ?_
    refine (Program.always_forM _ fun slot hmem ↦
      inRegion_of_slot (slot_lt hmem) (always_initDevice slot)).bind fun _ _ ↦ ?_
    exact (Program.always_forM _ fun slot hmem ↦
      inRegion_of_slot (slot_lt hmem) (always_pollOneDevice (slot_lt hmem))).bind fun _ _ ↦ trivial
  | trisc1 =>
    refine (always_readU32 trivial).bind fun active _ ↦ ?_
    exact inRegion_visitSlots _ (fun _ ↦ slot_lt) always_watchSel _
  | trisc2 =>
    refine (always_readU32 trivial).bind fun active _ ↦ ?_
    exact inRegion_visitSlots _ (fun _ ↦ slot_lt) always_watchFeatures _

/-- The cores are about to store inside the regions only. -/
def Confined (c : EngineConfig) : Prop := ∀ core, (c.rest core).Performs (StoresIn engineRegion)

/-- A turn of a core leaves the byte, and the cores stay confined. -/
theorem Confined.turn (h : Confined c) (ha : ¬ engineRegion a) (core : EngineCore) :
    Confined (engineCores.turn c (.core core)) ∧
      (engineCores.turn c (.core core)).scene.memory.l1 a = c.scene.memory.l1 a := by
  have hupdate (program : Prog core.Private) (hprogram : program.Performs (StoresIn engineRegion)) :
      ∀ other, (Function.update c.rest core program other).Performs (StoresIn engineRegion) :=
    (Function.forall_update_iff c.rest fun _ rest ↦ rest.Performs (StoresIn engineRegion)).mpr
      ⟨hprogram, fun other _ ↦ h other⟩
  have hcore := h core
  cases hrest : c.rest core with
  | done result =>
    rw [turn_done engineCores hrest]
    exact ⟨hupdate _ (inRegion_loop core result), rfl⟩
  | step op next =>
    rw [hrest] at hcore
    rw [turn_step engineCores hrest]
    exact ⟨hupdate _ (hcore.2 _), hcore.1.l1_apply ha _⟩

/-- The byte after a store, where the two memories before agree on it. -/
theorem byte_act {w w' : World} (hbyte : w.l1 a = w'.l1 a) (event : EngineEvent) :
    (engineCores.act event w).l1 a = (engineCores.act event w').l1 a := by
  change writeLE _ _ _ _ a = writeLE _ _ _ _ a
  unfold writeLE
  rw [hbyte]

theorem byte_static (ha : ¬ firmwareRegion a) (addr : Fin codeSize) (value : ℕ) (w : World) :
    (engineCores.act (.static addr value) w).l1 a = w.l1 a :=
  writeLE_apply_of_not_mem fun hin ↦ ha (show a < codeSize from by
    have hlow := hin.1
    have hhigh := hin.2
    have hbound := addr.isLt
    simp only [EngineEvent.store] at hlow hhigh
    omega)

/-- The firmware leaves alone what is not its own. Assumes: an address outside the firmware and
outside the regions of all slots, and cores between two iterations. Whatever L1 holds, whatever is
stored from outside and however the turns are mixed, the byte is the one that the stores from
outside alone leave there. -/
theorem engine_spares_byte (hfirmware : ¬ firmwareRegion a)
    (hslots : ∀ slot < numSlots, ¬ slotRegion slot a) (hrest : ∀ core, Resting core c)
    (turns : List (Turn EngineCore EngineEvent)) :
    (engineCores.follow c turns).scene.memory.l1 a =
      (engineCores.follow c (turns.filter (· matches .act (.outside _)))).scene.memory.l1 a := by
  have ha : ¬ engineRegion a := fun ⟨slot, hslot, hin⟩ ↦ hslots slot hslot hin
  have hconfined : Confined c := fun core ↦ by
    obtain ⟨result, hdone⟩ := (hrest core).exists_done
    rw [hdone]
    trivial
  -- the right side runs from a configuration of its own, which shares the byte
  have hruns : ∀ c d : EngineConfig, Confined c → c.scene.memory.l1 a = d.scene.memory.l1 a →
      (engineCores.follow c turns).scene.memory.l1 a =
        (engineCores.follow d (turns.filter (· matches .act (.outside _)))).scene.memory.l1 a := by
    induction turns with
    | nil => exact fun c d _ hbyte ↦ hbyte
    | cons turn turns ih =>
      intro c d hc hbyte
      cases turn with
      | core core =>
        obtain ⟨hnext, hkept⟩ := hc.turn ha core
        exact ih _ _ hnext (hkept.trans hbyte)
      | act event =>
        cases event with
        | outside store => exact ih _ _ hc (byte_act hbyte (.outside store))
        | static addr value =>
          exact ih _ _ hc ((byte_static hfirmware addr value _).trans hbyte)
  exact hruns c c hconfined rfl

/-- The cores before their first iterations. -/
def engineStart (w : World) : EngineConfig where
  scene := ⟨w, []⟩
  rest
    | .brisc => .done (0 : ℕ)
    | .trisc1 => .done fun _ ↦ 0
    | .trisc2 => .done fun _ ↦ dfselSentinel

/-- The STATUS that a guest of slot `3` stores stays while the cores run and count in a variable. -/
theorem engine_spares_byte_status :
    (engineCores.follow (engineStart wildWorld) [.core .brisc, .core .trisc1,
      .act (.outside ⟨regAddr 3 mmioStatus, 7⟩), .core .brisc, .act (.static ⟨0x2000, by decide⟩ 1),
      .core .trisc2]).scene.memory.l1 (regAddr 3 mmioStatus) = 7 := by
  refine engine_spares_byte (by unfold firmwareRegion; decide) (fun slot hslot hin ↦ ?_)
    (fun core ↦ ?_) _
  · obtain ⟨hstatus, -, hother⟩ := slotRegion_apart hslot hin
    by_cases hself : slot = 3
    · subst hself
      exact hstatus ⟨le_rfl, by omega⟩
    · exact (hother 3 (by decide) (Ne.symm hself)).1 ⟨by decide, by decide⟩
  · cases core <;> rfl

end Bhx.Firmware
