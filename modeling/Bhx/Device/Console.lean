import Bhx.Virtqueue.ChainWalk

/-!
# The console device

`VirtioConsole` of `virtio/console.rs`: queue 0 receives keystrokes from the input queue, queue 1
sends output to the console hub. There is no header. Output of a chain with several descriptors is
collected in `txBuf` and pushed when the chain is complete.

Scope. The input queue is shared with the attached clients, so what a pop answers is up to the host.
-/

set_option autoImplicit false

namespace Bhx.Device

open SharedMemory Machine Virtqueue

def rxQueue : ℕ := 0
def txQueue : ℕ := 1

/-- The state of the console device. -/
structure VirtioConsole where
  txBuf : List UInt8

/-- The bytes of a guest buffer. -/
def readBuffer (addr len : ℕ) : DevProg (List UInt8) := do
  let word ← Program.perform (.load addr len)
  pure (leBytes len word)

def VirtioConsole.processQueueStart (console : VirtioConsole) (queueIdx addr len : ℕ) :
    DevProg VirtioConsole :=
  if queueIdx = txQueue then do
    let bytes ← readBuffer addr len
    pure ⟨bytes⟩
  else
    pure console

def VirtioConsole.processQueueData (console : VirtioConsole) (queueIdx addr len : ℕ) :
    DevProg VirtioConsole :=
  if queueIdx = txQueue then do
    let bytes ← readBuffer addr len
    pure ⟨console.txBuf ++ bytes⟩
  else
    pure console

/-- The loop that moves input into the guest's buffer, with `room` bytes left in it and `written`
bytes in it; the result is the number of bytes written. -/
def fillFromInput (addr : ℕ) : (room written : ℕ) → DevProg ℕ
  | 0, written => pure written
  | room + 1, written => do
    let popped ← Program.perform (.call .inputPop)
    if popped = 0 then
      pure written
    else do
      let _ ← Program.perform (.store (addr + written) 1 (popped - 1))
      fillFromInput addr room (written + 1)

/-- `process_queue_complete` of the transmit queue. -/
def VirtioConsole.flush (console : VirtioConsole) (addr len : ℕ) : DevProg VirtioConsole :=
  if console.txBuf ≠ [] then do
    let _ ← Program.perform (.call (.hubPush console.txBuf))
    pure ⟨[]⟩
  else if 0 < len then do
    let bytes ← readBuffer addr len
    let _ ← Program.perform (.call (.hubPush bytes))
    pure console
  else
    pure console

def VirtioConsole.processQueueComplete (console : VirtioConsole) (queueIdx addr len : ℕ) :
    DevProg (VirtioConsole × ℕ) :=
  if queueIdx = txQueue then do
    let flushed ← console.flush addr len
    pure (flushed, len)
  else do
    let written ← fillFromInput addr len 0
    pure (console, written)

def VirtioConsole.queueHasData (queueIdx : ℕ) : DevProg Bool :=
  if queueIdx = txQueue then pure true
  else if queueIdx = rxQueue then do
    let ready ← Program.perform (.call .inputReady)
    pure (ready != 0)
  else
    pure false

/-- The callbacks of the console device. -/
def virtioConsole : VirtioDevice VirtioConsole where
  numQueues := fun _ ↦ 2
  queueHeaderSize := fun _ ↦ 0
  processQueueStart := VirtioConsole.processQueueStart
  processQueueData := VirtioConsole.processQueueData
  processQueueComplete := VirtioConsole.processQueueComplete
  queueHasData := fun _ queueIdx ↦ VirtioConsole.queueHasData queueIdx

end Bhx.Device
