import Bhx.Firmware.PollDevice

/-!
# The watch loops of TRISC1 and TRISC2

Two cores beside BRISC watch one register each. TRISC1 clears QUEUE_READY when it finds QUEUE_SEL
changed, so that a guest that selects the next queue does not read the READY of the last one. TRISC2
shows the half of the feature bits that DEVICE_FEATURES_SEL selects. Each compares the register with
the value it saw last, which it keeps per slot in a variable of its own: `last_qsel`, which starts
at zero, and `last_dfsel`, which TRISC2 sets to a value no guest writes.

A visit (`watchSel`, `watchFeatures`) is what a core does for one slot, with the last value seen as
argument and the next one as result; a pass (`trisc1Pass`, `trisc2Pass`) visits the slots of the
virtio mask.
-/

set_option autoImplicit false

namespace Bhx.Firmware

open SharedMemory Machine L1Layout

/-- A visit of TRISC1: the result is `last_qsel` of the slot. -/
def watchSel (slot lastQsel : ℕ) : Prog ℕ := do
  let qsel ← readU32 (regAddr slot mmioQueueSel)
  if qsel ≠ lastQsel then
    storeU32 (regAddr slot mmioQueueReady) 0
    pure qsel
  else
    pure lastQsel

/-- The word that DEVICE_FEATURES shows for a selector. -/
def featureWord (slot dfsel : ℕ) : ℕ :=
  if dfsel = 0 then (deviceForSlot slot).devFeatLow
  else if dfsel = 1 then (deviceForSlot slot).devFeatHigh
  else 0

/-- The value of `last_dfsel` before TRISC2 has visited a slot. -/
def dfselSentinel : ℕ := 0xFFFFFFFF

/-- A visit of TRISC2: the result is `last_dfsel` of the slot. -/
def watchFeatures (slot lastDfsel : ℕ) : Prog ℕ := do
  let dfsel ← readU32 (regAddr slot mmioDeviceFeaturesSel)
  if dfsel ≠ lastDfsel then
    storeU32 (regAddr slot mmioDeviceFeatures) (featureWord slot dfsel)
    incStat statsOffDevFeatSelChanges
    pure dfsel
  else
    pure lastDfsel

/-- Visits some slots in order. -/
def visitSlots (visit : ℕ → ℕ → Prog ℕ) : List ℕ → (ℕ → ℕ) → Prog (ℕ → ℕ)
  | [], last => pure last
  | slot :: slots, last => do
    let seen ← visit slot (last slot)
    visitSlots visit slots (Function.update last slot seen)

/-- An iteration of `trisc1_main`. -/
def trisc1Pass (lastQsel : ℕ → ℕ) : Prog (ℕ → ℕ) := do
  let virtioActive ← readU32 (ctrlBase + ctrlOffActiveVirtioSlots)
  visitSlots watchSel (polledSlots virtioActive) lastQsel

/-- An iteration of `trisc2_main`. -/
def trisc2Pass (lastDfsel : ℕ → ℕ) : Prog (ℕ → ℕ) := do
  let virtioActive ← readU32 (ctrlBase + ctrlOffActiveVirtioSlots)
  visitSlots watchFeatures (polledSlots virtioActive) lastDfsel

end Bhx.Firmware
