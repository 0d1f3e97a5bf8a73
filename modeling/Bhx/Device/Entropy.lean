import Bhx.Virtqueue.ChainWalk

/-!
# The entropy device

`VirtioRng` of `virtio/rng.rs`: every callback fills the buffer it is handed from `getrandom`, at
most 256 bytes at a time, and falls back to a counter pattern when a call fails.

Scope. `getrandom` writes to the guest's buffer itself; the model stores the bytes that the call
answered. It never returns more bytes than it was asked for.
-/

set_option autoImplicit false

namespace Bhx.Device

open SharedMemory Machine Virtqueue

/-- The fallback: `count` bytes from `filled` on that count up. -/
def fillWithCounter (addr : ℕ) : (count filled : ℕ) → DevProg Unit
  | 0, _ => pure ()
  | count + 1, filled => do
    let _ ← Program.perform (.store (addr + filled) 1 (filled % 256))
    fillWithCounter addr count (filled + 1)

/-- One pass of the loop of `fill_with_entropy`: the number of bytes it filled. -/
def fillChunk (addr filled chunk : ℕ) : DevProg ℕ := do
  let reply ← Program.perform (.call (.getrandom chunk))
  let count := min (reply % 512) chunk
  if count = 0 then do
    fillWithCounter addr chunk filled
    pure chunk
  else do
    let _ ← Program.perform (.store (addr + filled) count (reply / 512))
    pure count

/-- The loop of `fill_with_entropy`. A pass fills at least one byte, so `total` passes are
enough. -/
def fillFrom (addr total : ℕ) : (passes filled : ℕ) → DevProg Unit
  | 0, _ => pure ()
  | passes + 1, filled =>
    if filled < total then do
      let count ← fillChunk addr filled (min (total - filled) 256)
      fillFrom addr total passes (filled + count)
    else
      pure ()

def fillWithEntropy (addr len : ℕ) : DevProg Unit := fillFrom addr len len 0

/-- The callbacks of the entropy device, which has no state. -/
def virtioRng : VirtioDevice Unit where
  numQueues := fun _ ↦ 1
  queueHeaderSize := fun _ ↦ 0
  processQueueStart := fun _ _ addr len ↦ fillWithEntropy addr len
  processQueueData := fun _ _ addr len ↦ fillWithEntropy addr len
  processQueueComplete := fun _ _ addr len ↦ do
    fillWithEntropy addr len
    pure ((), len)
  queueHasData := fun _ _ ↦ pure true

end Bhx.Device
