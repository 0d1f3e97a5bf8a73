import Bhx.Virtqueue.ChainWalk

/-!
# The block device

`VirtioBlk` of `virtio/block.rs`. A request is a header of 16 bytes (the type in the first four, the
sector in the last eight), data, and a status byte. The model keeps a pointer to the header and
reads its fields again in every callback; until the first request the pointer is null.

Scope. A copy between the mapped file and guest memory is one load and one store. Integer arithmetic
wraps, as in the release build. Metrics and log output are not modelled, but the read of the type
that the metrics need is.
-/

set_option autoImplicit false

namespace Bhx.Device

open SharedMemory Machine Virtqueue

def virtioBlkTIn : ℕ := 0
def virtioBlkTOut : ℕ := 1
def virtioBlkTGetId : ℕ := 8
def virtioBlkIdBytes : ℕ := 20
def sectorSize : ℕ := 512

/-- The size of `VirtioBlkOuthdr`, and the offsets of the fields that are read. -/
def virtioBlkOuthdrSize : ℕ := 16
def outhdrOffType : ℕ := 0
def outhdrOffSector : ℕ := 8

/-- The status byte of a request. -/
inductive BlkStatus
  | ok | ioerr | unsupp
deriving DecidableEq, Repr

/-- `VIRTIO_BLK_S_OK`, `VIRTIO_BLK_S_IOERR` and `VIRTIO_BLK_S_UNSUPP`. -/
def BlkStatus.byte : BlkStatus → ℕ
  | .ok => 0
  | .ioerr => 1
  | .unsupp => 2

/-- The state of the block device. -/
structure VirtioBlk where
  fileSize : ℕ
  /-- The header of the current request; `none` is the null pointer. -/
  req : Option ℕ
  dataOffset : ℕ
  reqStatus : BlkStatus
  l2cpuIdx : ℕ
  serial : Option (List UInt8)

/-- `from_file_with_serial`. -/
def VirtioBlk.fromFileWithSerial (fileSize l2cpuIdx : ℕ) (serial : Option (List UInt8)) :
    VirtioBlk where
  fileSize := fileSize
  req := none
  dataOffset := 0
  reqStatus := .ok
  l2cpuIdx := l2cpuIdx
  serial := serial

/-- The bytes of an ASCII text. -/
def asciiBytes (text : String) : List UInt8 := text.toList.map fun c ↦ UInt8.ofNat c.toNat

/-- The serial that a `GET_ID` request returns. -/
def VirtioBlk.idBytes (blk : VirtioBlk) : List UInt8 :=
  match blk.serial with
  | some serial => serial
  | none =>
    let digits := toString blk.l2cpuIdx
    asciiBytes ("bhx-l2cpu-" ++ if digits.length < 2 then "0" ++ digits else digits)

/-- A read of a field of the request header. -/
def VirtioBlk.readReq (blk : VirtioBlk) (offset size : ℕ) : DevProg ℕ :=
  match blk.req with
  | some header => Program.perform (.load (header + offset) size)
  | none => Program.perform (.call .nullRead)

/-- The `match` on the request type; the result is the status afterwards. -/
def VirtioBlk.transfer (blk : VirtioBlk) (type diskOffset addr len : ℕ) : DevProg BlkStatus :=
  if type = virtioBlkTIn then do
    let data ← Program.perform (.hostLoad diskOffset len)
    let _ ← Program.perform (.store addr len data)
    pure blk.reqStatus
  else if type = virtioBlkTOut then do
    let data ← Program.perform (.load addr len)
    let _ ← Program.perform (.hostStore diskOffset len data)
    pure blk.reqStatus
  else if type = virtioBlkTGetId then do
    let n := min len virtioBlkIdBytes
    let copyLen := min blk.idBytes.length n
    let _ ← Program.perform (.store addr n 0)
    let _ ← Program.perform (.store addr copyLen (leWord (blk.idBytes.take copyLen)))
    pure blk.reqStatus
  else
    pure .unsupp

def VirtioBlk.processQueueStart (blk : VirtioBlk) (addr : ℕ) : VirtioBlk :=
  { blk with req := some addr, dataOffset := 0, reqStatus := .ok }

/-- The state after a data buffer with the given status. -/
def VirtioBlk.afterData (blk : VirtioBlk) (len : ℕ) (status : BlkStatus) : VirtioBlk :=
  { blk with reqStatus := status, dataOffset := (blk.dataOffset + len) % 2 ^ 64 }

def VirtioBlk.processQueueData (blk : VirtioBlk) (addr len : ℕ) : DevProg VirtioBlk := do
  let sector ← blk.readReq outhdrOffSector 8
  let diskOffset := (sectorSize * sector + blk.dataOffset) % 2 ^ 64
  if blk.fileSize < saturatingAdd diskOffset len then
    pure (blk.afterData len .ioerr)
  else do
    let type ← blk.readReq outhdrOffType 4
    let status ← blk.transfer type diskOffset addr len
    pure (blk.afterData len status)

def VirtioBlk.processQueueComplete (blk : VirtioBlk) (addr len : ℕ) : DevProg (VirtioBlk × ℕ) := do
  let _ ← Program.perform (.store addr 1 blk.reqStatus.byte)
  let _ ← blk.readReq outhdrOffType 4
  pure ({ blk with reqStatus := .ok }, len)

/-- The callbacks of the block device. -/
def virtioBlk : VirtioDevice VirtioBlk where
  numQueues := fun _ ↦ 1
  queueHeaderSize := fun _ ↦ virtioBlkOuthdrSize
  processQueueStart := fun blk _ addr _ ↦ pure (blk.processQueueStart addr)
  processQueueData := fun blk _ addr len ↦ blk.processQueueData addr len
  processQueueComplete := fun blk _ addr len ↦ blk.processQueueComplete addr len
  queueHasData := fun _ _ ↦ pure true

end Bhx.Device
