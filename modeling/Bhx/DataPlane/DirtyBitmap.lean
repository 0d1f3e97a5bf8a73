import Bhx.DataPlane.DispatchChain

/-!
# Draining the dirty bitmap

`drain_dirty_bitmap` of `tensix_data_plane.rs`: `collect_dirty_pairs` reads the dirty byte of every
queue of every registered slot, clears the bytes it found set and lists their queues, and then each
listed queue is dispatched and its cursor published to the control page.

The registry is the list of its entries in the order the map is iterated, which is the same from
pass to pass as long as no slot is registered or removed. A dispatch that does not return within the
passes it may make ends the drain, and `Drained.returned` says whether that happened; the daemon
itself would never leave that dispatch.

Scope. The registry lock is held over the whole pass, so nothing in a pass is about locking. The
statistics of the poller are not modelled.
-/

set_option autoImplicit false

namespace Bhx.DataPlane

open SharedMemory Machine L1Layout Virtqueue List

/-- The registered devices, in the order the map is iterated. -/
abbrev Registry (D : Type) := List (RegEntry D)

/-- The queues of one slot whose dirty bytes a pass reads. -/
def slotPairs (slotQueues : ℕ × ℕ) : List (ℕ × ℕ) :=
  (List.range (min slotQueues.2 maxQueuesPerSlot)).map fun q ↦ (slotQueues.1, q)

/-- The dirty byte of a queue as L1 holds it. -/
def dirtyByte (l1 : Bytes) (slot queue : ℕ) : ℕ := readLE l1 (dirtyByteAddr slot queue) 1

/-- The loop of `collect_dirty_pairs` over the queues. -/
def collectPairs : List (ℕ × ℕ) → Prog (List (ℕ × ℕ))
  | [] => pure []
  | pair :: pairs => do
    let dirty ← Program.perform (.l1Load (dirtyByteAddr pair.1 pair.2) 1)
    if dirty ≠ 0 then
      let _ ← Program.perform (.l1Store (dirtyByteAddr pair.1 pair.2) 1 0)
      let hits ← collectPairs pairs
      pure (pair :: hits)
    else collectPairs pairs

/-- `collect_dirty_pairs`. -/
def collectDirtyPairs (slotsWithQueueCount : List (ℕ × ℕ)) : Prog (List (ℕ × ℕ)) :=
  collectPairs (slotsWithQueueCount.flatMap slotPairs)

/-- Publishes the cursor of a queue after a dispatch that posted something. -/
def publishCursor (slot queue : ℕ) : (usedIdx : Option ℕ) → Prog Unit
  | none => pure ()
  | some _ => do
    let cursor ← Program.perform (.getProcessed slot queue)
    let _ ← Program.perform (.l1Store (processedCursorAddr slot queue) 2 cursor)
    pure ()

section Drain

variable {D : Type}
variable {entry : RegEntry D}

/-- The entry of a slot. -/
def Registry.get (registry : Registry D) (slot : ℕ) : Option (RegEntry D) :=
  registry.find? fun entry ↦ entry.slot = slot

/-- The registry after a device model's state changed. -/
def Registry.setDevice (registry : Registry D) (slot : ℕ) (state : D) : Registry D :=
  registry.map fun entry ↦ if entry.slot = slot then { entry with device := state } else entry

/-- The queues that the registry serves and whose shadow holds an accepted configuration. -/
def configuredQueues (registry : Registry D) (l1 : Bytes) : List QueueView :=
  registry.flatMap fun entry ↦
    (List.range (min entry.numQueues maxQueuesPerSlot)).filterMap fun queue ↦
      configure entry.slot entry.l2cpu queue (shadowWords l1 entry.slot queue)

/-- A map has one entry for a slot, and slots are numbered below `NUM_SLOTS`. -/
structure Registry.Valid (registry : Registry D) : Prop where
  nodup : (registry.map RegEntry.slot).Nodup
  slot_lt : ∀ entry ∈ registry, entry.slot < numSlots

variable {registry : Registry D}

theorem mem_configuredQueues {l1 : Bytes} {view : QueueView} :
    view ∈ configuredQueues registry l1 ↔ ∃ entry ∈ registry, ∃ queue < entry.numQueues,
      queue < maxQueuesPerSlot ∧
        configure entry.slot entry.l2cpu queue (shadowWords l1 entry.slot queue) = some view := by
  simp only [configuredQueues, mem_flatMap, mem_filterMap, mem_range, lt_min_iff,
    and_assoc]

theorem Registry.Valid.get_eq (h : Registry.Valid registry) (hmem : entry ∈ registry) :
    Registry.get registry entry.slot = some entry := by
  obtain ⟨hnodup, -⟩ := h
  unfold Registry.get
  induction registry with
  | nil => exact absurd hmem not_mem_nil
  | cons first rest ih =>
    rw [map_cons, nodup_cons] at hnodup
    rcases mem_cons.mp hmem with rfl | hrest
    · rw [find?_cons_of_pos (by simp)]
    · have hne : first.slot ≠ entry.slot := by
        intro heq
        exact hnodup.1 (heq ▸ mem_map_of_mem hrest)
      rw [find?_cons_of_neg (by simpa using hne)]
      exact ih hrest hnodup.2

theorem Registry.get_mem {slot : ℕ} (h : Registry.get registry slot = some entry) :
    entry ∈ registry ∧ entry.slot = slot := by
  refine ⟨mem_of_find?_eq_some h, ?_⟩
  simpa using find?_some h

theorem Registry.Valid.setDevice (h : Registry.Valid registry) (slot : ℕ) (state : D) :
    Registry.Valid (Registry.setDevice registry slot state) := by
  have hslot : ∀ entry : RegEntry D,
      (if entry.slot = slot then { entry with device := state } else entry).slot = entry.slot := by
    intro entry
    split_ifs <;> rfl
  constructor
  · simpa [Registry.setDevice, Function.comp_def, hslot] using h.nodup
  · intro entry hmem
    obtain ⟨old, hold, rfl⟩ := mem_map.mp hmem
    rw [hslot]
    exact h.slot_lt old hold

theorem configuredQueues_setDevice {registry : Registry D} {slot : ℕ} {state : D} {l1 : Bytes} :
    configuredQueues (Registry.setDevice registry slot state) l1 =
      configuredQueues registry l1 := by
  unfold configuredQueues Registry.setDevice
  rw [flatMap_map]
  refine congrArg₂ _ (funext fun entry ↦ ?_) rfl
  split_ifs <;> rfl

/-- What a drain leaves: the registry and whether every dispatch returned. -/
structure Drained (D : Type) where
  registry : Registry D
  returned : Bool

variable (device : VirtioDevice D) (passes : ℕ)

/-- The dispatches of a pass. -/
def drainHits : List (ℕ × ℕ) → Registry D → Prog (Drained D)
  | [], registry => pure ⟨registry, true⟩
  | (slot, queue) :: hits, registry =>
    match registry.get slot with
    | none => drainHits hits registry
    | some entry => do
      let dispatched ← dispatchChain device passes entry queue
      if dispatched.returned then
        publishCursor slot queue dispatched.usedIdx
        drainHits hits (registry.setDevice slot dispatched.device)
      else pure ⟨registry.setDevice slot dispatched.device, false⟩

/-- `drain_dirty_bitmap`, with a bound on the passes of each dispatch. -/
def drainDirtyBitmap (registry : Registry D) : Prog (Drained D) := do
  let hits ← collectDirtyPairs (registry.map fun entry ↦ (entry.slot, entry.numQueues))
  drainHits device passes hits registry

/-- Any number of successive drains, up to the first that does not return. -/
def drainRepeatedly : (count : ℕ) → Registry D → Prog (Drained D)
  | 0, registry => pure ⟨registry, true⟩
  | count + 1, registry => do
    let drained ← drainDirtyBitmap device passes registry
    if drained.returned then drainRepeatedly count drained.registry else pure drained

end Drain

end Bhx.DataPlane
