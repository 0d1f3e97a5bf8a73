import Bhx.Daemon.Attachments

/-!
# The disk table of a slot

A slot has a table of the disks that are attached to its L2CPU. It has at most three entries, their
devices are different block devices of the L2CPU, and entries with a name have different names
(`DiskTable`). An entry is appended only with the checks of `validate_add_disk_request` and at an
index that `pick_free_blk_slot` has found (`DiskTable.append`), and every other change of the table
takes entries out (`DiskTable.sublist`).
-/

set_option autoImplicit false

namespace Bhx.Daemon

open SharedMemory Chip Machine.L1Layout List

variable {devIdx : ℕ}

/-- The block devices of an L2CPU. -/
def blockDevs : List ℕ := [devBlk, devBlk1, devBlk2]

theorem ne_of_mem_blockDevs (h : devIdx ∈ blockDevs) :
    devIdx ≠ devNet ∧ devIdx ≠ devConsole ∧ devIdx ≠ devRng := by
  simp only [blockDevs, mem_cons, not_mem_nil, or_false] at h
  rcases h with rfl | rfl | rfl <;> decide

theorem lt_of_mem_blockDevs (h : devIdx ∈ blockDevs) : devIdx < devsPerL2Cpu := by
  simp only [blockDevs, mem_cons, not_mem_nil, or_false] at h
  rcases h with rfl | rfl | rfl <;> decide

/-- The invariant of the disk table. -/
structure L2CpuSlot.DiskTable (slot : L2CpuSlot) : Prop where
  length : slot.disks.length ≤ maxDisksPerL2Cpu
  nodup : (slot.disks.map DiskWorker.devIdx).Nodup
  block : ∀ disk ∈ slot.disks, disk.devIdx ∈ blockDevs
  names : (slot.disks.filterMap DiskWorker.name).Nodup

/-- What `pick_free_blk_slot` finds is a block device that may be added and is not in use. -/
theorem mem_of_pickFreeBlkSlot {used eligible : List ℕ}
    (h : pickFreeBlkSlot used eligible = some devIdx) :
    devIdx ∈ blockDevs ∧ devIdx ∈ eligible ∧ devIdx ∉ used := by
  have hfound := find?_some h
  exact ⟨mem_of_find?_eq_some h, of_decide_eq_true hfound⟩

section DiskTable

variable {slot : L2CpuSlot}

theorem L2CpuSlot.DiskTable.append (h : slot.DiskTable) {name : Option Serial}
    (hmay : mayAddDisk slot name = true)
    (hpick : pickFreeBlkSlot (slot.disks.map DiskWorker.devIdx) slot.blkDtbDevIdx = some devIdx)
    (path : Path) :
    ({ slot with disks := slot.disks ++ [⟨path, name, devIdx⟩] } : L2CpuSlot).DiskTable := by
  obtain ⟨hblock, -, hfree⟩ := mem_of_pickFreeBlkSlot hpick
  obtain ⟨hlen, hname⟩ := (Bool.and_eq_true _ _).mp hmay
  refine ⟨?_, ?_, fun disk hdisk ↦ ?_, ?_⟩
  · rw [length_append, length_singleton]
    exact Nat.succ_le_of_lt (of_decide_eq_true hlen)
  · rw [map_append]
    exact h.nodup.append (nodup_singleton devIdx) (disjoint_singleton.mpr hfree)
  · rcases mem_append.mp hdisk with hold | hnew
    · exact h.block disk hold
    · rw [mem_singleton.mp hnew]
      exact hblock
  · cases name with
    | none => simpa using h.names
    | some want =>
      have hunused : want ∉ slot.disks.filterMap DiskWorker.name := by
        simpa [eq_comm] using hname
      rw [filterMap_append]
      exact h.names.append (nodup_singleton want) (disjoint_singleton.mpr hunused)

theorem L2CpuSlot.DiskTable.sublist (h : slot.DiskTable) {slot' : L2CpuSlot}
    (hdisks : slot'.disks.Sublist slot.disks) : slot'.DiskTable where
  length := hdisks.length_le.trans h.length
  nodup := h.nodup.sublist (hdisks.map _)
  block disk hdisk := h.block disk (hdisks.subset hdisk)
  names := h.names.sublist (hdisks.filterMap _)

theorem L2CpuSlot.DiskTable.withoutDisks (h : slot.DiskTable) (name : Option Serial) :
    (slot.withoutDisks name).DiskTable := by
  cases name with
  | none =>
    unfold L2CpuSlot.withoutDisks
    split_ifs
    · exact h
    · exact h.sublist (nil_sublist _)
  | some want => exact h.sublist filter_sublist

end DiskTable

end Bhx.Daemon
