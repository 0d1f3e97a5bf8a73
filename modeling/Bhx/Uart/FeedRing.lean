import Bhx.SharedMemory.ByteMemory
import Bhx.SharedMemory.Restart
import Bhx.Uart.GuestWindow

/-!
# The UARTs: TRISC0, the feed rings and the daemon's drain

A guest stores a byte into the transmit cell of its UART's register file. TRISC0 sweeps the four
register files, takes the byte out and pushes it into the feed ring of the L2CPU, 1024 words behind
a producer and a consumer sequence number of 32 bits each (`trisc0UartPollOne`,
`trisc0UartFeedPush`). The daemon's poll loop reads the ring up to the producer, hands the bytes to
the L2CPU's console hub and stores the consumer back (`drainUart`). `uartCores` runs the two over
one L1, next to the stores of guests and of everything else, and BRISC may put TRISC0 into reset
between any two of its accesses and release it again later.

`feedLog` reads off a trace what has been pushed into one ring, dropped and delivered. The call and
the return of a push are operations without an effect, so that the trace shows them.

Scope. The registry of UARTs is a hash map behind a mutex: which key the daemon's iteration yields
next is chosen from outside, so every registered set and every order is covered. The other parts of
the daemon's poll loop do not touch a UART. A fence is not an operation, since accesses are
sequentially consistent.
-/

set_option autoImplicit false

namespace Bhx.Uart

open SharedMemory Machine.L1Layout

variable (l2cpu : ℕ)

/-! ### Operations -/

/-- Operations of TRISC0 and of the daemon's drain. -/
inductive UartOp
  /-- A load of a word of L1. -/
  | load (addr : ℕ)
  /-- A store of a word of L1. -/
  | store (addr value : ℕ)
  /-- `trisc0_uart_feed_push` is called. -/
  | enterPush (l2cpu : ℕ) (byte : UInt8)
  /-- It returns. -/
  | leavePush (l2cpu : ℕ)
  /-- The next key of the UART registry: one more than the L2CPU, `0` at the end. -/
  | nextUart
  /-- A read of the daemon's `uart_consumer`. -/
  | getConsumer (l2cpu : ℕ)
  | setConsumer (l2cpu value : ℕ)
  | pushChipOutput (l2cpu : ℕ) (bytes : List UInt8)
  /-- The daemon logs that it fast-forwards a consumer. -/
  | logFastForward (l2cpu : ℕ)
deriving DecidableEq, Repr

/-- L1, the daemon's consumers, its iteration over the registry and what the hubs got. -/
structure UartWorld where
  l1 : Bytes
  consumer : ℕ → ℕ
  nextKey : ℕ
  hub : ℕ → List UInt8

/-- Performs an operation. -/
def UartOp.exec : UartOp → UartWorld → ℕ × UartWorld
  | .load addr, w => (readLE w.l1 addr 4, w)
  | .store addr value, w => (0, { w with l1 := writeLE w.l1 addr 4 value })
  | .nextUart, w => (w.nextKey, w)
  | .getConsumer l2cpu, w => (w.consumer l2cpu, w)
  | .setConsumer l2cpu value, w =>
    (0, { w with consumer := Function.update w.consumer l2cpu value })
  | .pushChipOutput l2cpu bytes, w =>
    (0, { w with hub := Function.update w.hub l2cpu (w.hub l2cpu ++ bytes) })
  | .enterPush _ _, w | .leavePush _, w | .logFastForward _, w => (0, w)

abbrev UartProg (α : Type) := Program UartOp ℕ α

def loadWord (addr : ℕ) : UartProg ℕ := .perform (.load addr)

def storeWord (addr value : ℕ) : UartProg Unit := do
  let _ ← Program.perform (.store addr value)

/-- `u32::wrapping_sub`. -/
def wrappingSub (a b : ℕ) : ℕ := (a + (2 ^ 32 - b)) % 2 ^ 32

/-! ### TRISC0 -/

/-- A word of an L2CPU's feed ring. -/
def feedRingAddr (l2cpu sequence : ℕ) : ℕ :=
  uartPrivateAddr l2cpu (uartPrivOffFeedRing + (sequence &&& (uartFeedRingEntries - 1)) * 4)

/-- `trisc0_uart_feed_push`. -/
def trisc0UartFeedPush (byte : UInt8) : UartProg Unit := do
  let producer ← loadWord (uartPrivateAddr l2cpu uartPrivOffFeedProducerSeq)
  let consumer ← loadWord (uartPrivateAddr l2cpu uartPrivOffFeedConsumerSeq)
  if uartFeedRingEntries ≤ wrappingSub producer consumer then
    let drops ← loadWord (uartPrivateAddr l2cpu uartPrivOffFeedDropCount)
    storeWord (uartPrivateAddr l2cpu uartPrivOffFeedDropCount) ((drops + 1) % 2 ^ 32)
  else
    storeWord (feedRingAddr l2cpu producer) byte.toNat
    let _ ← loadWord (feedRingAddr l2cpu producer)
    storeWord (uartPrivateAddr l2cpu uartPrivOffFeedProducerSeq) ((producer + 1) % 2 ^ 32)

/-- `BRISC_UART_THR_SENTINEL`. -/
def uartThrSentinel : ℕ := 0xFFFFFFFF

/-- `UART_LSR_THRE | UART_LSR_TEMT`. -/
def uartLsrIdle : ℕ := 0x20 ||| 0x40

def uartLcrDlab : ℕ := 0x80

def trisc0UartThreHoldSweeps : ℕ := 20

/-- A register of an L2CPU's UART. -/
def uartRegAddr (l2cpu register : ℕ) : ℕ := uartRegsBase l2cpu + register

/-- What `trisc0_uart_poll_one` does with a value that is not the sentinel. -/
def trisc0UartTake (l2cpu value : ℕ) : UartProg Unit := do
  storeWord (uartRegAddr l2cpu uartRegLsr) 0
  let lcr ← loadWord (uartRegAddr l2cpu uartRegLcr)
  if lcr &&& uartLcrDlab ≠ 0 then
    storeWord (uartRegAddr l2cpu uartRegRbrThr) uartThrSentinel
    storeWord (uartRegAddr l2cpu uartRegLsr) uartLsrIdle
  else
    storeWord (uartRegAddr l2cpu uartRegRbrThr) uartThrSentinel
    let _ ← Program.perform (.enterPush l2cpu (UInt8.ofNat (value &&& 0xff)))
    trisc0UartFeedPush l2cpu (UInt8.ofNat (value &&& 0xff))
    let _ ← Program.perform (.leavePush l2cpu)
    storeWord (uartPrivateAddr l2cpu uartPrivOffHold) trisc0UartThreHoldSweeps

/-- `trisc0_uart_poll_one`. -/
def trisc0UartPollOne : UartProg Unit := do
  let hold ← loadWord (uartPrivateAddr l2cpu uartPrivOffHold)
  if 0 < hold then
    storeWord (uartPrivateAddr l2cpu uartPrivOffHold) (hold - 1)
    .onlyIf (hold - 1 = 0) (storeWord (uartRegAddr l2cpu uartRegLsr) uartLsrIdle)
  else
    let value ← loadWord (uartRegAddr l2cpu uartRegRbrThr)
    if value = uartThrSentinel then pure () else trisc0UartTake l2cpu value

/-- `brisc_uart_slot_for_l2cpu`. -/
def uartSlotForL2Cpu : ℕ := l2cpu * devsPerL2Cpu + uartSlotOffsetInL2Cpu

/-- An iteration of `trisc0_main`, with its count of iterations. -/
def trisc0Main (count : ℕ) : UartProg ℕ := do
  let active ← loadWord (ctrlBase + ctrlOffActiveSlots)
  (List.range numL2Cpus).forM fun l2cpu ↦
    .onlyIf ((active >>> uartSlotForL2Cpu l2cpu) &&& 1 ≠ 0) (trisc0UartPollOne l2cpu)
  let count := (count + 1) % 2 ^ 32
  .onlyIf (count &&& 0x3ff = 0) (storeWord (trisc0GlobalBase + trisc0GlobalOffHeartbeat) count)
  pure count

/-! ### The daemon's drain -/

/-- `clamp_consumer_to_ring`. -/
def clampConsumerToRing (producer consumer ringEntries : ℕ) : ℕ :=
  if ringEntries < wrappingSub producer consumer then wrappingSub producer ringEntries else consumer

/-- The length of the drain's buffer. -/
def drainBufferLen : ℕ := 256

/-- The cells of `take` entries from a sequence number on, low bytes. -/
def readCells (l2cpu sequence : ℕ) : (take : ℕ) → UartProg (List UInt8)
  | 0 => pure []
  | take + 1 => do
    let cell ← loadWord (feedRingAddr l2cpu sequence)
    let bytes ← readCells l2cpu ((sequence + 1) % 2 ^ 32) take
    pure (UInt8.ofNat (cell &&& 0xff) :: bytes)

/-- The loop over buffers of the drain. Each round takes at least one entry, so as many rounds as
there are entries are enough. -/
def drainBuffers (l2cpu producer : ℕ) : (rounds consumer : ℕ) → UartProg ℕ
  | 0, consumer => pure consumer
  | rounds + 1, consumer =>
    if consumer = producer then
      pure consumer
    else do
      let take := min (wrappingSub producer consumer) drainBufferLen
      let bytes ← readCells l2cpu consumer take
      let _ ← Program.perform (.pushChipOutput l2cpu bytes)
      drainBuffers l2cpu producer rounds ((consumer + take) % 2 ^ 32)

/-- The log line of a fast-forward. -/
def logFastForward : UartProg Unit := do
  let _ ← Program.perform (.logFastForward l2cpu)

/-- The drain of one UART in `run_poll_loop`. -/
def drainUart : UartProg Unit := do
  let producer ← loadWord (uartPrivateAddr l2cpu uartPrivOffFeedProducerSeq)
  let consumer ← Program.perform (.getConsumer l2cpu)
  if producer = consumer then
    pure ()
  else
    let clamped := clampConsumerToRing producer consumer uartFeedRingEntries
    .onlyIf (clamped ≠ consumer) (logFastForward l2cpu)
    let final ← drainBuffers l2cpu producer (wrappingSub producer clamped) clamped
    storeWord (uartPrivateAddr l2cpu uartPrivOffFeedConsumerSeq) final
    let _ ← Program.perform (.setConsumer l2cpu final)

/-- One key of the registry. -/
def drainNext : UartProg Unit := do
  let key ← Program.perform .nextUart
  .onlyIf (0 < key ∧ key - 1 < numL2Cpus) (drainUart (key - 1))

/-! ### The system -/

inductive UartCore
  | trisc0 | dispatcher
deriving DecidableEq, Repr

/-- TRISC0 keeps its count of iterations. -/
def UartCore.Private : UartCore → Type
  | .trisc0 => ℕ
  | .dispatcher => Unit

/-- A store of a guest into its UART's register file. -/
structure GuestStore where
  offset : ℕ
  size : ℕ
  value : ℕ
  size_pos : 0 < size
  inside : offset + size ≤ uartRegFileSize
deriving Repr

theorem word_pos : 0 < 4 := by decide

theorem thr_inside : uartRegRbrThr + 4 ≤ uartRegFileSize := by decide

/-- What happens outside TRISC0 and the drain. -/
inductive UartEvent
  /-- A guest stores into the register file it sees. -/
  | guest (l2cpu : ℕ) (access : GuestStore)
  /-- Anything else that is stored into L1. -/
  | store (addr size value : ℕ)
  /-- The registry will yield this key next. -/
  | yields (key : ℕ)
deriving Repr

/-- The engine's tile and the windows each L2CPU had before the engine's. -/
structure Fabric where
  tile : Tile
  windows : ℕ → ℕ → SmallTlb

/-- The bytes of L1 that an event stores to: address, width and value. -/
def UartEvent.target (fabric : Fabric) : UartEvent → Option (ℕ × ℕ × ℕ)
  | .guest l2cpu access =>
    (guestUartTarget fabric.tile (fabric.windows l2cpu) l2cpu access.offset).bind fun reached ↦
      if reached.tile = fabric.tile then some (reached.addr, access.size, access.value) else none
  | .store addr size value => some (addr, size, value)
  | .yields _ => none

/-- What a store from outside leaves. -/
def UartWorld.written (w : UartWorld) : Option (ℕ × ℕ × ℕ) → UartWorld
  | some (addr, size, value) => { w with l1 := writeLE w.l1 addr size value }
  | none => w

/-- The key that the registry yields after an event. -/
def UartEvent.nextKey (w : UartWorld) : UartEvent → ℕ
  | .yields key => key
  | .guest _ _ | .store _ _ _ => w.nextKey

/-- The effect of an event. -/
def UartEvent.apply (fabric : Fabric) (w : UartWorld) (event : UartEvent) : UartWorld :=
  { w.written (event.target fabric) with nextKey := event.nextKey w }

/-- TRISC0 and the dispatcher. -/
def uartCores (fabric : Fabric) :
    Cores UartCore UartOp ℕ UartEvent UartWorld UartCore.Private where
  exec := UartOp.exec
  act event w := event.apply fabric w
  loop := fun
    | .trisc0 => trisc0Main
    | .dispatcher => fun _ ↦ drainNext

abbrev UartConfig := Config UartCore UartOp ℕ UartEvent UartWorld UartCore.Private

abbrev UartScene := Scene UartCore UartOp ℕ UartEvent UartWorld

abbrev UartMark := Mark UartCore UartOp ℕ UartEvent

/-- TRISC0 begins at its entry point with its count at `0`. -/
def trisc0Entry : UartCore.Private .trisc0 := (0 : ℕ)

/-- A run, in which TRISC0 may be reset. -/
def uartPlay (fabric : Fabric) (c : UartConfig) (moves : List (Move UartCore UartEvent)) :
    UartConfig :=
  (uartCores fabric).play .trisc0 trisc0Entry c moves

/-! ### Footprints -/

/-- The range lies in the register file or in the private block of an L2CPU's UART. -/
def OwnRange (l2cpu addr size : ℕ) : Prop :=
  Inside addr size (uartRegsBase l2cpu) uartRegFileSize ∨
    Inside addr size (uartPrivateAddr l2cpu 0) uartPrivatePerL2Cpu

instance (l2cpu addr size : ℕ) : Decidable (OwnRange l2cpu addr size) :=
  inferInstanceAs (Decidable (_ ∨ _))

/-- An operation on one L2CPU's UART, its ring or its hub. -/
def OnUart : UartOp → Prop
  | .load addr | .store addr _ => OwnRange l2cpu addr 4
  | .enterPush other _ | .leavePush other | .getConsumer other | .setConsumer other _ |
    .pushChipOutput other _ | .logFastForward other => other = l2cpu
  | .nextUart => False

theorem ownRange_register {register : ℕ} (h : register + 4 ≤ uartRegFileSize := by decide) :
    OwnRange l2cpu (uartRegAddr l2cpu register) 4 := by
  left
  unfold Inside uartRegAddr
  omega

theorem ownRange_private {offset : ℕ} (h : offset + 4 ≤ uartPrivatePerL2Cpu := by decide) :
    OwnRange l2cpu (uartPrivateAddr l2cpu offset) 4 := by
  right
  unfold Inside uartPrivateAddr
  omega

theorem ownRange_ring {sequence : ℕ} : OwnRange l2cpu (feedRingAddr l2cpu sequence) 4 := by
  refine ownRange_private l2cpu ?_
  have hmask : sequence &&& (uartFeedRingEntries - 1) ≤ 1023 := Nat.and_le_right
  simp only [uartPrivOffFeedRing, uartPrivatePerL2Cpu]
  omega

theorem onUart_feedPush {byte : UInt8} :
    (trisc0UartFeedPush l2cpu byte).Performs (OnUart l2cpu) := by
  refine ⟨ownRange_private l2cpu, fun producer ↦ ⟨ownRange_private l2cpu, fun consumer ↦ ?_⟩⟩
  change Program.Always _ _ (if _ then _ else _)
  split_ifs
  · exact ⟨ownRange_private l2cpu, fun _ ↦ ⟨ownRange_private l2cpu, fun _ ↦ trivial⟩⟩
  · exact ⟨ownRange_ring l2cpu, fun _ ↦ ⟨ownRange_ring l2cpu, fun _ ↦
      ⟨ownRange_private l2cpu, fun _ ↦ trivial⟩⟩⟩

theorem onUart_take (value : ℕ) : (trisc0UartTake l2cpu value).Performs (OnUart l2cpu) := by
  refine ⟨ownRange_register l2cpu, fun _ ↦ ⟨ownRange_register l2cpu, fun lcr ↦ ?_⟩⟩
  change Program.Always _ _ (if _ then _ else _)
  split_ifs
  · exact ⟨ownRange_register l2cpu, fun _ ↦ ⟨ownRange_register l2cpu, fun _ ↦ trivial⟩⟩
  · refine ⟨ownRange_register l2cpu, fun _ ↦ ⟨rfl, fun _ ↦ ?_⟩⟩
    refine (onUart_feedPush l2cpu).bind fun _ _ ↦ ⟨rfl, fun _ ↦ ?_⟩
    exact ⟨ownRange_private l2cpu, fun _ ↦ trivial⟩

theorem onUart_pollOne : (trisc0UartPollOne l2cpu).Performs (OnUart l2cpu) := by
  refine ⟨ownRange_private l2cpu, fun hold ↦ ?_⟩
  change Program.Always _ _ (if _ then _ else _)
  split_ifs
  · refine ⟨ownRange_private l2cpu, fun _ ↦ Program.always_onlyIf fun _ ↦ ?_⟩
    exact ⟨ownRange_register l2cpu, fun _ ↦ trivial⟩
  · refine ⟨ownRange_register l2cpu, fun value ↦ ?_⟩
    change Program.Always _ _ (if _ then _ else _)
    split_ifs
    · trivial
    · exact onUart_take l2cpu value

theorem onUart_readCells (take : ℕ) (sequence : ℕ) :
    (readCells l2cpu sequence take).Performs (OnUart l2cpu) := by
  induction take generalizing sequence with
  | zero => trivial
  | succ take ih => exact ⟨ownRange_ring l2cpu, fun _ ↦ (ih _).bind⟩

theorem onUart_drainBuffers {producer : ℕ} (rounds consumer : ℕ) :
    (drainBuffers l2cpu producer rounds consumer).Performs (OnUart l2cpu) := by
  induction rounds generalizing consumer with
  | zero => trivial
  | succ rounds ih =>
    unfold drainBuffers
    split_ifs
    · trivial
    · exact (onUart_readCells l2cpu _ _).bind fun _ _ ↦ ⟨rfl, fun _ ↦ ih _⟩

theorem onUart_drainUart : (drainUart l2cpu).Performs (OnUart l2cpu) := by
  have hlog : (logFastForward l2cpu).Performs (OnUart l2cpu) := ⟨rfl, fun _ ↦ trivial⟩
  refine ⟨ownRange_private l2cpu, fun producer ↦ ⟨rfl, fun consumer ↦ ?_⟩⟩
  change Program.Always _ _ (if _ then _ else _)
  split_ifs
  · trivial
  · refine (Program.always_onlyIf fun _ ↦ hlog).bind fun _ _ ↦ ?_
    refine (onUart_drainBuffers l2cpu _ _).bind fun final _ ↦ ?_
    exact ⟨ownRange_private l2cpu, fun _ ↦ ⟨rfl, fun _ ↦ trivial⟩⟩

/-! ### What has been pushed and delivered -/

/-- A call of `trisc0_uart_feed_push`: its byte, and how often it stored an advanced producer and an
advanced drop counter. -/
structure PushRecord where
  byte : UInt8
  enqueued : ℕ
  drops : ℕ
deriving DecidableEq, Repr

/-- What has happened to a feed ring. -/
structure FeedLog where
  /-- The call TRISC0 is in. -/
  current : Option PushRecord
  /-- The bytes of the calls that stored an advanced producer, oldest first. -/
  enqueued : List UInt8
  /-- How often the drop counter was stored. -/
  drops : ℕ
  /-- The calls that ran to their end, oldest first. -/
  returned : List PushRecord
  /-- The bytes handed to the hub, oldest first. -/
  delivered : List UInt8
  /-- How many of them the daemon had handed over when it last stored the consumer into L1. -/
  acked : ℕ
  /-- The same for `uart_consumer`. -/
  counted : ℕ
  /-- What was enqueued when the daemon's last pass began. -/
  atPass : List UInt8
  /-- What was enqueued when its last drain pass of this ring began. -/
  atDrain : List UInt8
  /-- How often it fast-forwarded the consumer. -/
  fastForwards : ℕ
deriving DecidableEq, Repr

def FeedLog.initial : FeedLog where
  current := none
  enqueued := []
  drops := 0
  returned := []
  delivered := []
  acked := 0
  counted := 0
  atPass := []
  atDrain := []
  fastForwards := 0

/-- TRISC0 makes an access. -/
def FeedLog.trisc0 (log : FeedLog) : UartOp → FeedLog
  | .enterPush other byte => if other = l2cpu then { log with current := some ⟨byte, 0, 0⟩ }
    else log
  | .store addr _ =>
    if addr = uartPrivateAddr l2cpu uartPrivOffFeedProducerSeq then
      { log with
        current := log.current.map fun push ↦ { push with enqueued := push.enqueued + 1 }
        enqueued := log.enqueued ++ (log.current.map PushRecord.byte).toList }
    else if addr = uartPrivateAddr l2cpu uartPrivOffFeedDropCount then
      { log with
        current := log.current.map fun push ↦ { push with drops := push.drops + 1 }
        drops := log.drops + 1 }
    else log
  | .leavePush other =>
    if other = l2cpu then
      { log with current := none, returned := log.returned ++ log.current.toList }
    else log
  | .load _ | .nextUart | .getConsumer _ | .setConsumer _ _ | .pushChipOutput _ _ |
    .logFastForward _ => log

/-- The daemon makes an access. -/
def FeedLog.dispatcher (log : FeedLog) (answer : ℕ) : UartOp → FeedLog
  | .nextUart => if answer = l2cpu + 1 then { log with atDrain := log.atPass } else log
  | .pushChipOutput other bytes =>
    if other = l2cpu then { log with delivered := log.delivered ++ bytes } else log
  | .store addr _ =>
    if addr = uartPrivateAddr l2cpu uartPrivOffFeedConsumerSeq then
      { log with acked := log.delivered.length }
    else log
  | .setConsumer other _ =>
    if other = l2cpu then { log with counted := log.delivered.length } else log
  | .logFastForward other =>
    if other = l2cpu then { log with fastForwards := log.fastForwards + 1 } else log
  | .load _ | .enterPush _ _ | .leavePush _ | .getConsumer _ => log

/-- What a trace says of a feed ring. -/
def feedLog (l2cpu : ℕ) : List UartMark → FeedLog
  | [] => FeedLog.initial
  | .access .trisc0 op _ :: trace => (feedLog l2cpu trace).trisc0 l2cpu op
  | .access .dispatcher op answer :: trace => (feedLog l2cpu trace).dispatcher l2cpu answer op
  | .pass .dispatcher :: trace =>
    { feedLog l2cpu trace with atPass := (feedLog l2cpu trace).enqueued }
  | .pass .trisc0 :: trace | .act _ :: trace => feedLog l2cpu trace

end Bhx.Uart
