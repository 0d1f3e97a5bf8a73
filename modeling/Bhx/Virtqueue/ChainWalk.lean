import Bhx.Machine.World

/-!
# Walking a descriptor chain

`processOneChainForQueue` of `virtio/mod.rs`: take the next avail entry of a queue, follow its
descriptor chain through the table, hand each buffer to the device model, and post the chain to the
used ring when every descriptor was acceptable.

`QueueView` collects the arguments that say where the rings are and which window of guest memory a
buffer may lie in; it carries the bounds of a `u16` queue size, which the caller checks. A device
model is a record of callbacks (`VirtioDevice`), each a program over the operations of device
models, so the walk is generic in the model. The inner loop of the source counts `steps` up to
`queue_num`; `walkChain` recurses on the steps left, and running out of them is the source's
cycle check.

Scope. The walk is the code shared by the kick-driven dispatcher and the RX poll; log output is not
modelled. Ring indices are natural numbers below `2 ^ 16`, reduced where the source wraps, and
`num_bytes_written` is reduced modulo `2 ^ 64`.
-/

set_option autoImplicit false

namespace Bhx.Virtqueue

open SharedMemory Machine

/-! ### Data -/

/-- An entry of the descriptor table. -/
structure VringDesc where
  addr : ℕ
  len : ℕ
  flags : ℕ
  next : ℕ
deriving DecidableEq, Repr

/-- `VRING_DESC_F_NEXT`. -/
def vringDescFNext : ℕ := 1

/-- The 16 bytes of a descriptor, as one little-endian word, split into their fields. -/
def VringDesc.ofRaw (raw : ℕ) : VringDesc where
  addr := raw % 2 ^ 64
  len := raw / 2 ^ 64 % 2 ^ 32
  flags := raw / 2 ^ 96 % 2 ^ 16
  next := raw / 2 ^ 112 % 2 ^ 16

/-- The word whose split gives the descriptor back. -/
def VringDesc.toRaw (d : VringDesc) : ℕ :=
  d.addr + d.len * 2 ^ 64 + d.flags * 2 ^ 96 + d.next * 2 ^ 112

/-- `flags & VRING_DESC_F_NEXT != 0`. -/
def VringDesc.hasNext (d : VringDesc) : Bool := d.flags &&& vringDescFNext != 0

/-- Where a virtqueue is and which window of guest memory its buffers may lie in. -/
structure QueueView where
  id : QueueId
  descQ : ℕ
  availQ : ℕ
  usedQ : ℕ
  queueNum : ℕ
  startingAddress : ℕ
  memEnd : ℕ
  queueNum_pos : 0 < queueNum
  queueNum_lt : queueNum < 2 ^ 16
deriving DecidableEq

theorem four_entries_pos : 0 < 4 := by decide

theorem four_entries_lt : 4 < 2 ^ 16 := by decide

/-- The range check of the walk: the buffer starts in the window, does not overflow 64 bits and
ends in the window. -/
def QueueView.inRange (view : QueueView) (d : VringDesc) : Bool :=
  view.startingAddress ≤ d.addr && d.addr < view.memEnd && d.addr + d.len < 2 ^ 64 &&
    d.addr + d.len ≤ view.memEnd

/-- The address of an entry of the descriptor table. -/
def QueueView.descAddr (view : QueueView) (idx : ℕ) : ℕ :=
  view.descQ + 16 * (idx % view.queueNum)

/-- The address of `avail.idx`. -/
def QueueView.availIdxAddr (view : QueueView) : ℕ := view.availQ + 2

/-- The address of the avail ring slot of an index. -/
def QueueView.availRingAddr (view : QueueView) (idx : ℕ) : ℕ :=
  view.availQ + 4 + 2 * (idx % view.queueNum)

/-- The address of `used.idx`. -/
def QueueView.usedIdxAddr (view : QueueView) : ℕ := view.usedQ + 2

/-- The address of the used ring element of an index. -/
def QueueView.usedElemAddr (view : QueueView) (idx : ℕ) : ℕ :=
  view.usedQ + 4 + 8 * (idx % view.queueNum)

/-- The callbacks of a device model with state `D`. -/
structure VirtioDevice (D : Type) where
  numQueues : D → ℕ
  queueHeaderSize : D → ℕ
  processQueueStart : D → (queueIdx addr len : ℕ) → DevProg D
  processQueueData : D → (queueIdx addr len : ℕ) → DevProg D
  processQueueComplete : D → (queueIdx addr len : ℕ) → DevProg (D × ℕ)
  queueHasData : D → (queueIdx : ℕ) → DevProg Bool

/-! ### The walk -/

section Walk

variable {D : Type} (device : VirtioDevice D) (view : QueueView)

/-- A program of the device model attached to the queue's slot. -/
def onDevice {α : Type} (program : DevProg α) : Prog α :=
  program.embed (Op.device view.id.slot view.id.l2cpu)

/-- Hands a descriptor's buffer to a callback; `value` is what the callback returns to the walk. -/
def handTo {β : Type} (callback : Callback) (body : DevProg β) (value : β → ℕ) (d : VringDesc) :
    Prog β := do
  let _ ← Program.perform (.enter view.id callback d.addr d.len)
  let reply ← onDevice view body
  let _ ← Program.perform (.leave view.id callback (value reply))
  pure reply

/-- Hands on a descriptor that has a successor. -/
def forward (queueHeaderSize numBytesWritten : ℕ) (state : D) (d : VringDesc) : Prog D :=
  if numBytesWritten < queueHeaderSize then
    handTo view .processQueueStart (device.processQueueStart state view.id.queue d.addr d.len)
      (fun _ ↦ 0) d
  else
    handTo view .processQueueData (device.processQueueData state view.id.queue d.addr d.len)
      (fun _ ↦ 0) d

/-- Hands on the last descriptor. -/
def handLast (state : D) (d : VringDesc) : Prog (D × ℕ) :=
  handTo view .processQueueComplete
    (device.processQueueComplete state view.id.queue d.addr d.len) Prod.snd d

/-- The inner loop, with `stepsLeft` descriptors still allowed. The result is the device model's
state and, for a valid chain, `num_bytes_written`. -/
def walkChain (queueHeaderSize : ℕ) :
    (stepsLeft descIdx numBytesWritten : ℕ) → D → Prog (D × Option ℕ)
  | 0, _, _, state => pure (state, none)
  | stepsLeft + 1, descIdx, numBytesWritten, state => do
    let raw ← Program.perform (.ringLoad view.id .desc (view.descAddr descIdx) 16)
    let d := VringDesc.ofRaw raw
    if view.inRange d then
      if d.hasNext then
        let state ← forward device view queueHeaderSize numBytesWritten state d
        walkChain queueHeaderSize stepsLeft d.next ((numBytesWritten + d.len) % 2 ^ 64) state
      else
        let reply ← handLast device view state d
        pure (reply.1, some ((numBytesWritten + reply.2) % 2 ^ 64))
    else
      pure (state, none)

/-- Appends an element to the used ring and advances `used.idx`. -/
def postUsed (head numBytesWritten : ℕ) : Prog Unit := do
  let usedIdx ← Program.perform (.ringLoad view.id .usedIdx view.usedIdxAddr 2)
  let _ ← Program.perform
    (.ringStore view.id .usedElemId (view.usedElemAddr usedIdx) 4 head)
  let _ ← Program.perform
    (.ringStore view.id .usedElemLen (view.usedElemAddr usedIdx + 4) 4 (numBytesWritten % 2 ^ 32))
  let _ ← Program.perform
    (.ringStore view.id .usedIdx view.usedIdxAddr 2 ((usedIdx + 1) % 2 ^ 16))
  pure ()

/-- Posts a chain that was valid. -/
def settle (head : ℕ) : Option ℕ → Prog Bool
  | some numBytesWritten => do
    postUsed view head numBytesWritten
    pure true
  | none => pure false

/-- The part of `process_one_chain_for_queue` after its early returns. -/
def consumeEntry (queueHeaderSize processed : ℕ) (state : D) : Prog (D × Bool) := do
  let head ← Program.perform (.ringLoad view.id .availRing (view.availRingAddr processed) 2)
  let walked ← walkChain device view queueHeaderSize view.queueNum head 0 state
  let posted ← settle view head walked.2
  let _ ← Program.perform (.setProcessed view.id.slot view.id.queue ((processed + 1) % 2 ^ 16))
  pure (walked.1, posted)

/-- The part of `process_one_chain_for_queue` after it has read `avail.idx`. -/
def takeEntry (queueHeaderSize : ℕ) (state : D) (availIdx : ℕ) : Prog (D × Bool) := do
  let processed ← Program.perform (.getProcessed view.id.slot view.id.queue)
  if processed = availIdx then
    pure (state, false)
  else
    let ready ← onDevice view (device.queueHasData state view.id.queue)
    if ready then
      consumeEntry device view queueHeaderSize processed state
    else
      pure (state, false)

/-- `process_one_chain_for_queue`: the result is the device model's state and whether a chain was
posted. -/
def processOneChainForQueue (queueHeaderSize : ℕ) (state : D) : Prog (D × Bool) := do
  let availIdx ← Program.perform (.ringLoad view.id .availIdx view.availIdxAddr 2)
  takeEntry device view queueHeaderSize state availIdx

end Walk

end Bhx.Virtqueue
