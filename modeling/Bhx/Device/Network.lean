import Bhx.Virtqueue.ChainWalk

/-!
# The network device

`VirtioNet` of `virtio/network.rs`: queue 0 receives frames from slirp, queue 1 sends frames to it.
Every chain starts with a header of 12 bytes, in a descriptor of its own or in front of the frame in
the only descriptor, which `headerProcessed` tells apart. A frame passes through the packet buffer,
which is the host memory of the slot from address 0 on.

`fixTxL4Checksum` recomputes the checksum of an IPv4 TCP or UDP frame in the buffer.

Scope. A copy is one load and one store. What `vdeslirp_recv` puts into the packet buffer is a
change of host memory by code outside the repository. Metrics and log output are not modelled.
-/

set_option autoImplicit false

namespace Bhx.Device

open SharedMemory Machine Virtqueue

def packetSize : ℕ := 1514
def virtioNetHdrFNeedsCsum : ℕ := 1

/-- The size of `VirtioNetHdrMrgRxbuf`, and the offsets of the fields that are accessed. -/
def virtioNetHdrSize : ℕ := 12
def netHdrOffFlags : ℕ := 0
def netHdrOffGsoType : ℕ := 1
def netHdrOffGsoSize : ℕ := 4
def netHdrOffNumBuffers : ℕ := 10

/-! ### The checksum -/

def byteAt (buf : List UInt8) (idx : ℕ) : ℕ := (buf.getD idx 0).toNat

/-- `u16::from_be_bytes` of two adjacent bytes. -/
def be16At (buf : List UInt8) (idx : ℕ) : ℕ := byteAt buf idx * 256 + byteAt buf (idx + 1)

/-- The sum of the 16-bit words of a segment, an odd last byte being the high half of its word. -/
def wordSum : List UInt8 → ℕ
  | [] => 0
  | [last] => last.toNat * 256
  | high :: low :: rest => high.toNat * 256 + low.toNat + wordSum rest

/-- `while sum > 0xFFFF { sum = (sum >> 16) + (sum & 0xFFFF); }` -/
def foldSum (sum : ℕ) : ℕ :=
  if 0xffff < sum then foldSum (sum / 2 ^ 16 + sum % 2 ^ 16) else sum
termination_by sum
decreasing_by omega

/-- Where the checksum field of the protocol lies behind an IPv4 header of `ihl` bytes. -/
def csumFieldOff (proto ihl : ℕ) : Option ℕ :=
  if proto = 6 then some (14 + ihl + 16)
  else if proto = 17 then some (14 + ihl + 6)
  else none

/-- The checksum over the pseudo-header and a segment whose checksum field is zero. -/
def l4Checksum (buf : List UInt8) (proto l4Off l4Len : ℕ) : ℕ :=
  let pseudo := be16At buf 26 + be16At buf 30 + (be16At buf 28 + be16At buf 32)
  let sum := foldSum (pseudo + proto + l4Len + wordSum ((buf.drop l4Off).take l4Len))
  let checksum := 0xffff - sum
  if proto = 17 ∧ checksum = 0 then 0xffff else checksum

/-- Stores a checksum in network byte order. -/
def putChecksum (buf : List UInt8) (fieldOff checksum : ℕ) : List UInt8 :=
  (buf.set fieldOff (UInt8.ofNat (checksum / 256))).set (fieldOff + 1)
    (UInt8.ofNat (checksum % 256))

def fixTxL4Checksum (buf : List UInt8) : List UInt8 :=
  if buf.length < 14 + 20 then buf
  else if be16At buf 12 ≠ 0x0800 then buf
  else if byteAt buf 14 / 16 ≠ 4 then buf
  else
    let ihl := byteAt buf 14 % 16 * 4
    if ihl < 20 ∨ buf.length < 14 + ihl then buf
    else
      let totalLen := be16At buf 16
      if totalLen < ihl ∨ buf.length < 14 + totalLen then buf
      else
        let proto := byteAt buf 23
        match csumFieldOff proto ihl with
        | none => buf
        | some fieldOff =>
          if buf.length < fieldOff + 2 then buf
          else
            let zeroed := putChecksum buf fieldOff 0
            putChecksum zeroed fieldOff (l4Checksum zeroed proto (14 + ihl) (totalLen - ihl))

/-! ### The device -/

/-- The state of the network device. -/
structure VirtioNet where
  headerProcessed : Bool
  txNeedsCsum : Bool
  txOffset : ℕ
  txOffset_le : txOffset ≤ packetSize

/-- The state `VirtioNet::new` builds. -/
def VirtioNet.new : VirtioNet := ⟨false, false, 0, Nat.zero_le _⟩

variable (net : VirtioNet)

/-- Appends a buffer to the frame in the packet buffer, as far as it fits. -/
def VirtioNet.append (addr len : ℕ) : DevProg VirtioNet := do
  let copyLen := min len (packetSize - net.txOffset)
  let data ← Program.perform (.load addr copyLen)
  let _ ← Program.perform (.hostStore net.txOffset copyLen data)
  pure ⟨net.headerProcessed, net.txNeedsCsum, net.txOffset + copyLen, by
    have hle := net.txOffset_le
    omega⟩

/-- The part of `process_queue_start` for the receive queue. -/
def VirtioNet.startRx (addr : ℕ) : DevProg VirtioNet := do
  let _ ← Program.perform (.store (addr + netHdrOffFlags) 1 0)
  let _ ← Program.perform (.store (addr + netHdrOffNumBuffers) 2 1)
  let _ ← Program.perform (.store (addr + netHdrOffGsoType) 1 0)
  let _ ← Program.perform (.store (addr + netHdrOffGsoSize) 2 0)
  pure { net with headerProcessed := true }

/-- The part of `process_queue_start` for the transmit queue. -/
def VirtioNet.startTx (addr len : ℕ) : DevProg VirtioNet := do
  let flags ← Program.perform (.load (addr + netHdrOffFlags) 1)
  let needsCsum := flags &&& virtioNetHdrFNeedsCsum != 0
  if virtioNetHdrSize < len then do
    let copyLen := min (len - virtioNetHdrSize) packetSize
    let data ← Program.perform (.load (addr + virtioNetHdrSize) copyLen)
    let _ ← Program.perform (.hostStore 0 copyLen data)
    pure ⟨true, needsCsum, copyLen, Nat.min_le_right _ _⟩
  else
    pure ⟨true, needsCsum, 0, Nat.zero_le _⟩

def VirtioNet.processQueueStart (queueIdx addr len : ℕ) : DevProg VirtioNet :=
  if queueIdx = 0 then net.startRx addr
  else if queueIdx = 1 then startTx addr len
  else pure { net with headerProcessed := true }

def VirtioNet.processQueueData (queueIdx addr len : ℕ) : DevProg VirtioNet :=
  if queueIdx = 1 then net.append addr len else pure net

/-- Takes a frame from slirp into a buffer. -/
def receiveInto (dataAddr dataLen : ℕ) : DevProg Unit := do
  let maxCopy := min dataLen packetSize
  let pktlen ← Program.perform (.call (.slirpRecv maxCopy))
  if 0 < pktlen then do
    let copyLen := min pktlen maxCopy
    let data ← Program.perform (.hostLoad 0 copyLen)
    let _ ← Program.perform (.store dataAddr copyLen data)
    pure ()
  else
    pure ()

/-- `process_queue_complete` of the receive queue. -/
def VirtioNet.completeRx (addr len : ℕ) : DevProg VirtioNet :=
  if net.headerProcessed then do
    receiveInto addr len
    pure { net with headerProcessed := false }
  else do
    let started ← net.startRx addr
    receiveInto (addr + virtioNetHdrSize) (len - virtioNetHdrSize)
    pure { started with headerProcessed := false }

/-- Hands the frame in the packet buffer to slirp. -/
def VirtioNet.transmit : DevProg VirtioNet :=
  if net.txNeedsCsum then do
    let frame ← Program.perform (.hostLoad 0 net.txOffset)
    let fixed := fixTxL4Checksum (leBytes net.txOffset frame)
    let _ ← Program.perform (.hostStore 0 net.txOffset (leWord fixed))
    let _ ← Program.perform (.call (.slirpSend net.txOffset))
    pure VirtioNet.new
  else do
    let _ ← Program.perform (.call (.slirpSend net.txOffset))
    pure VirtioNet.new

/-- Takes the last buffer of a transmit chain, which is the whole chain when no header came
before. -/
def VirtioNet.takeLast (addr len : ℕ) : DevProg VirtioNet :=
  if net.headerProcessed then net.append addr len else startTx addr len

/-- `process_queue_complete` of the transmit queue. -/
def VirtioNet.completeTx (addr len : ℕ) : DevProg VirtioNet := do
  let filled ← net.takeLast addr len
  filled.transmit

/-- `process_queue_complete` by queue. -/
def VirtioNet.complete (queueIdx addr len : ℕ) : DevProg VirtioNet :=
  if queueIdx = 0 then net.completeRx addr len
  else if queueIdx = 1 then net.completeTx addr len
  else pure { net with headerProcessed := false }

def VirtioNet.processQueueComplete (queueIdx addr len : ℕ) :
    DevProg (VirtioNet × ℕ) := do
  let after ← net.complete queueIdx addr len
  pure (after, len)

def VirtioNet.queueHasData (queueIdx : ℕ) : DevProg Bool :=
  if queueIdx = 0 then do
    let ready ← Program.perform (.call .slirpReady)
    pure (ready != 0)
  else
    pure true

/-- The callbacks of the network device. -/
def virtioNet : VirtioDevice VirtioNet where
  numQueues := fun _ ↦ 2
  queueHeaderSize := fun _ ↦ virtioNetHdrSize
  processQueueStart := VirtioNet.processQueueStart
  processQueueData := VirtioNet.processQueueData
  processQueueComplete := VirtioNet.processQueueComplete
  queueHasData := fun _ queueIdx ↦ VirtioNet.queueHasData queueIdx

end Bhx.Device
