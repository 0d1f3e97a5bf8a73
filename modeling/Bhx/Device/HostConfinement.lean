import Bhx.Device.PayloadConfinement
import Bhx.Virtqueue.WalkBound

/-!
# Host memory of the device models

The block device reaches for its mapping at an offset that the guest chooses, and the network device
collects a frame over several callbacks. Both stay inside: the block device checks the end of every
transfer with the offset it uses, whatever the sector in the header is and whenever the guest
changes it, and the network device cuts every copy to what is left of the packet buffer.

`hostMemory_confined` is about any sequence of chains on any queues. The checksum fix-up works on
the frame in the buffer; `fixTxL4Checksum?` is the same function with an index check at every
access, and none of the checks fails.

Scope. The size of a file is an `off_t`, so it is below `2 ^ 63`.
-/

set_option autoImplicit false

namespace Bhx.Device

open SharedMemory Machine Virtqueue

/-- An operation under which every device model keeps to the first `limit` bytes. -/
def OnHost (limit : ℕ) : Op → Prop
  | .device _ _ op => HostInside limit op
  | _ => True

theorem onHost_of_walkOp {limit : ℕ} (view : QueueView) (op : Op)
    (h : WalkOp view (HostInside limit) op) : OnHost limit op := by
  cases h with
  | device op h => exact h
  | _ => trivial

/-! ### The callbacks -/

theorem callbacksKeep_block {fileSize : ℕ} (hfile : fileSize < 2 ^ 63) :
    CallbacksKeep virtioBlk (fun blk ↦ blk.fileSize = fileSize) (HostInside fileSize) where
  start := fun _ _ _ _ hblk ↦ hblk
  data := by
    rintro blk _ addr len rfl
    -- the sum does not saturate, since the file is smaller than that
    have hlimit : ∀ diskOffset < 2 ^ 64, saturatingAdd diskOffset len ≤ blk.fileSize →
        diskOffset + len ≤ blk.fileSize := by
      intro diskOffset _ hend
      unfold saturatingAdd at hend
      omega
    have hdata := always_blkData (d := ⟨addr, len, 0, 0⟩) blk (List.subset_append_left _
      (reqField blk.req outhdrOffType 4)) (fun _ ↦ List.subset_append_right _ _) hlimit
    exact (hdata.allow fun _ hop ↦ hop.2).weaken fun _ hblk ↦ congrArg BlkSummary.fileSize hblk
  complete := by
    intro blk _ addr len hblk
    have hcomplete := always_blkComplete (d := ⟨addr, len, 0, 0⟩) blk fileSize
    exact (hcomplete.allow fun _ hop ↦ hop.2).weaken fun _ hreply ↦
      (congrArg BlkSummary.fileSize hreply).trans hblk
  hasData := fun _ _ _ ↦ trivial

theorem callbacksKeep_net : CallbacksKeep virtioNet (fun _ ↦ True) (HostInside packetSize) where
  start := fun net queueIdx addr len _ ↦
    ((always_netStart (d := ⟨addr, len, 0, 0⟩) net queueIdx fun _ hmem ↦ hmem).allow
      fun _ hop ↦ hop.2).weaken fun _ _ ↦ trivial
  data := by
    intro net queueIdx addr len _
    have hdata : (net.processQueueData queueIdx addr len).Always
        (Reaches ⟨addr, len, 0, 0⟩ [] packetSize) _ := always_netData net queueIdx
    exact (hdata.allow fun _ hop ↦ hop.2).weaken fun _ _ ↦ trivial
  complete := fun net queueIdx addr len _ ↦ ((always_netComplete (d := ⟨addr, len, 0,
    0⟩) net queueIdx fun _ _ hmem ↦ hmem).allow fun _ hop ↦ hop.2).bind
  hasData := by
    intro net queueIdx _
    change (VirtioNet.queueHasData queueIdx).Always _ _
    unfold VirtioNet.queueHasData
    split_ifs
    · exact ⟨trivial, fun _ ↦ trivial⟩
    · trivial

/-! ### The checksum -/

/-- A value that is read or written up to an index; `none` where the index is out of range. -/
def upTo {α : Type} (buf : List UInt8) (idx : ℕ) (value : α) : Option α :=
  if idx < buf.length then some value else none

/-- `fix_tx_l4_checksum` with the index checks of its slices. -/
def fixTxL4Checksum? (buf : List UInt8) : Option (List UInt8) :=
  if buf.length < 14 + 20 then some buf
  else (upTo buf 13 (be16At buf 12)).bind fun etype ↦ if etype ≠ 0x0800 then some buf
  else (upTo buf 14 (byteAt buf 14)).bind fun version ↦ if version / 16 ≠ 4 then some buf
  else
    let ihl := version % 16 * 4
    if ihl < 20 ∨ buf.length < 14 + ihl then some buf
    else (upTo buf 17 (be16At buf 16)).bind fun totalLen ↦
      if totalLen < ihl ∨ buf.length < 14 + totalLen then some buf
      else (upTo buf 23 (byteAt buf 23)).bind fun proto ↦
        match csumFieldOff proto ihl with
        | none => some buf
        | some fieldOff =>
          if buf.length < fieldOff + 2 then some buf
          else (upTo buf (fieldOff + 1) (putChecksum buf fieldOff 0)).bind fun zeroed ↦
            -- the addresses of the pseudo-header end at 33, the segment at its length
            (upTo zeroed (max 33 (14 + ihl + (totalLen - ihl) - 1))
              (l4Checksum zeroed proto (14 + ihl) (totalLen - ihl))).bind fun checksum ↦
                upTo zeroed (fieldOff + 1) (putChecksum zeroed fieldOff checksum)

theorem fixTxL4Checksum?_eq (buf : List UInt8) :
    fixTxL4Checksum? buf = some (fixTxL4Checksum buf) := by
  have hupTo : ∀ {α : Type} {frame : List UInt8} {idx : ℕ} (value : α), idx < frame.length →
      upTo frame idx value = some value := fun value h ↦ if_pos h
  have hlen : ∀ fieldOff, (putChecksum buf fieldOff 0).length = buf.length := by
    simp [putChecksum]
  unfold fixTxL4Checksum? fixTxL4Checksum
  by_cases hshort : buf.length < 14 + 20
  · simp [hshort]
  iterate 4 rw [hupTo _ (by omega)]
  simp only [Option.bind_some]
  split_ifs with hetype hversion hihl htotal <;> try rfl
  cases csumFieldOff (byteAt buf 23) (byteAt buf 14 % 16 * 4) with
  | none => rfl
  | some fieldOff =>
    dsimp only
    split_ifs with hfield
    · rfl
    · rw [hupTo _ (by omega), Option.bind_some, hupTo _ (by rw [hlen]; omega), Option.bind_some,
        hupTo _ (by rw [hlen]; omega)]

/-- The device models keep to their host memory. For every sequence of chains on any queues, with
any descriptors, whatever guest memory answers at each access: the block device keeps to the bytes
of its file, the network device to its packet buffer, with the offset of the frame inside, and the
checksum fix-up makes no access outside the frame. Assumes: a file size below `2 ^ 63`. -/
theorem hostMemory_confined :
    (∀ (blk : VirtioBlk) (views : List QueueView), blk.fileSize < 2 ^ 63 →
      (serveChains virtioBlk views blk).Always (OnHost blk.fileSize)
        fun blk' ↦ blk'.fileSize = blk.fileSize) ∧
    (∀ (net : VirtioNet) (views : List QueueView),
      (serveChains virtioNet views net).Always (OnHost packetSize)
        fun net' ↦ net'.txOffset ≤ packetSize) ∧
    ∀ frame, fixTxL4Checksum? frame = some (fixTxL4Checksum frame) := by
  refine ⟨fun blk views hfile ↦ ?_, fun net views ↦ ?_, fixTxL4Checksum?_eq⟩
  · exact (callbacksKeep_block hfile).serveChains views onHost_of_walkOp rfl
  · exact (callbacksKeep_net.serveChains views onHost_of_walkOp trivial).weaken fun net' _ ↦
      net'.txOffset_le

theorem hostMemory_confined_sector :
    (serveChains virtioBlk [⟨⟨0, 0, 0⟩, 0x1000, 0x2000, 0x3000, 4, 0x1000, 0x10000, by decide,
      by decide⟩] (.fromFileWithSerial 512 0 none)).Always (OnHost 512) fun blk ↦
        blk.fileSize = 512 :=
  hostMemory_confined.1 (.fromFileWithSerial 512 0 none) _ (by decide)

end Bhx.Device
