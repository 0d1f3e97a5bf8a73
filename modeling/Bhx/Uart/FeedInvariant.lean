import Mathlib.Data.List.Infix
import Bhx.Uart.FeedRing

/-!
# The invariant of a feed ring

The ring has one producer and one consumer, and each stores its own sequence number only. TRISC0 may
find the consumer older than it is, since the daemon stores it once at the end of a drain, but never
newer; so a push goes into a cell whose entry the daemon has acknowledged. The daemon may find the
producer older than it is, but every entry below the value it read is complete, because the cell was
stored before the producer.

`FeedInv` says this of one scene: entry `k` of the pushes stands in cell `(start + k) mod 1024` as
long as it is not acknowledged, what is delivered is the beginning of what is enqueued, and no more
than 1024 entries are ahead of the acknowledged ones. `TriscAccess` and `DrainAccess` list what the
two cores may store, and every such store keeps it (`TriscAccess.inv`, `DrainAccess.inv`) and what
the other core relies on (`drainRely_trisc0`, `DrainAccess.triscRely`).
-/

set_option autoImplicit false

namespace Bhx.Uart

open SharedMemory Machine.L1Layout List Function FeedLog

variable {l2cpu : ℕ} {op : UartOp} {start : ℕ}
variable {dropStart : ℕ} {fabric : Fabric} {w : UartWorld} {log : FeedLog} (value : ℕ)
  {s s' s'' : UartScene}

/-! ### Sequence numbers -/

theorem wrappingSub_seq {ahead behind : ℕ} (h : behind ≤ ahead) (hlt : ahead - behind < 2 ^ 32) :
    wrappingSub ((start + ahead) % 2 ^ 32) ((start + behind) % 2 ^ 32) = ahead - behind := by
  unfold wrappingSub
  omega

theorem clamp_of_le {producer consumer entries : ℕ} (h : wrappingSub producer consumer ≤ entries) :
    clampConsumerToRing producer consumer entries = consumer :=
  if_neg (Nat.not_lt.mpr h)

theorem feedRingAddr_seq (l2cpu sequence : ℕ) :
    feedRingAddr l2cpu (sequence % 2 ^ 32) =
      uartPrivateAddr l2cpu (uartPrivOffFeedRing + sequence % 1024 * 4) := by
  have hmask : sequence % 2 ^ 32 &&& (uartFeedRingEntries - 1) = sequence % 2 ^ 32 % 2 ^ 10 :=
    Nat.and_two_pow_sub_one_eq_mod _ 10
  rw [feedRingAddr, hmask]
  congr 3
  omega

/-- Entries less than a ring apart have different cells. -/
theorem apart_feedRingAddr {k n : ℕ} (hk : k < n) (hn : n < k + uartFeedRingEntries) :
    Apart (feedRingAddr l2cpu ((start + n) % 2 ^ 32)) 4
      (feedRingAddr l2cpu ((start + k) % 2 ^ 32)) 4 := by
  unfold uartFeedRingEntries at hn
  rw [feedRingAddr_seq, feedRingAddr_seq]
  unfold Apart uartPrivateAddr
  omega

theorem ofNat_toNat_and (byte : UInt8) : UInt8.ofNat (byte.toNat &&& 0xff) = byte := by
  have hmask : byte.toNat &&& 0xff = byte.toNat % 2 ^ 8 := Nat.and_two_pow_sub_one_eq_mod _ 8
  rw [hmask, Nat.mod_eq_of_lt byte.toNat_lt, UInt8.ofNat_toNat]

/-! ### The feed words -/

/-- A word of L1. -/
def UartWorld.word (w : UartWorld) (addr : ℕ) : ℕ := readLE w.l1 addr 4

abbrev producerAddr (l2cpu : ℕ) : ℕ := uartPrivateAddr l2cpu uartPrivOffFeedProducerSeq

abbrev consumerAddr (l2cpu : ℕ) : ℕ := uartPrivateAddr l2cpu uartPrivOffFeedConsumerSeq

abbrev dropAddr (l2cpu : ℕ) : ℕ := uartPrivateAddr l2cpu uartPrivOffFeedDropCount

/-- The word lies among the producer, the consumer, the drop counter and the ring of an L2CPU. -/
def InFeed (l2cpu addr : ℕ) : Prop :=
  Inside addr 4 (uartPrivateAddr l2cpu uartPrivOffFeedProducerSeq) 0x103c

theorem inFeed_producer (l2cpu : ℕ) : InFeed l2cpu (producerAddr l2cpu) := by
  simp [InFeed, Inside]

theorem inFeed_consumer (l2cpu : ℕ) : InFeed l2cpu (consumerAddr l2cpu) := by
  simp only [InFeed, Inside, uartPrivateAddr, uartPrivOffFeedProducerSeq,
    uartPrivOffFeedConsumerSeq]
  omega

theorem inFeed_drop (l2cpu : ℕ) : InFeed l2cpu (dropAddr l2cpu) := by
  simp only [InFeed, Inside, uartPrivateAddr, uartPrivOffFeedProducerSeq, uartPrivOffFeedDropCount]
  omega

theorem inFeed_ring (l2cpu sequence : ℕ) :
    InFeed l2cpu (feedRingAddr l2cpu (sequence % 2 ^ 32)) := by
  rw [feedRingAddr_seq]
  simp only [InFeed, Inside, uartPrivateAddr, uartPrivOffFeedProducerSeq, uartPrivOffFeedRing]
  omega

theorem apart_private (l2cpu : ℕ) {first second : ℕ}
    (h : first + 4 ≤ second ∨ second + 4 ≤ first := by decide) :
    Apart (uartPrivateAddr l2cpu first) 4 (uartPrivateAddr l2cpu second) 4 := by
  unfold Apart uartPrivateAddr
  omega

/-- The words before the ring are apart from its cells. -/
theorem apart_ring (l2cpu sequence : ℕ) {offset : ℕ}
    (h : offset + 4 ≤ uartPrivOffFeedRing := by decide) :
    Apart (uartPrivateAddr l2cpu offset) 4 (feedRingAddr l2cpu (sequence % 2 ^ 32)) 4 := by
  exact apart_private l2cpu (Or.inl (h.trans (Nat.le_add_right _ _)))

/-- An operation on nothing of this ring. -/
def QuietOp (l2cpu : ℕ) : UartOp → Prop
  | .store addr _ => Apart addr 4 (uartPrivateAddr l2cpu uartPrivOffFeedProducerSeq) 0x103c
  | .enterPush other _ | .leavePush other | .setConsumer other _ | .pushChipOutput other _ |
    .logFastForward other => other ≠ l2cpu
  | .load _ | .getConsumer _ => True
  | .nextUart => False

/-- The feed words, the daemon's consumer and the hub stay. -/
structure SameFeed (l2cpu : ℕ) (w w' : UartWorld) : Prop where
  word : ∀ addr, InFeed l2cpu addr → w'.word addr = w.word addr
  consumer : w'.consumer l2cpu = w.consumer l2cpu
  hub : w'.hub l2cpu = w.hub l2cpu

theorem SameFeed.refl (l2cpu : ℕ) (w : UartWorld) : SameFeed l2cpu w w :=
  ⟨fun _ _ ↦ rfl, rfl, rfl⟩

theorem SameFeed.write (w : UartWorld) {addr size : ℕ} (value : ℕ)
    (h : Apart addr size (producerAddr l2cpu) 0x103c) :
    SameFeed l2cpu w { w with l1 := writeLE w.l1 addr size value } := by
  constructor
  · intro word hword
    exact readLE_writeLE_of_apart (h.symm.of_inside hword).symm
  · rfl
  · rfl

theorem QuietOp.sameFeed (h : QuietOp l2cpu op) (w : UartWorld) :
    SameFeed l2cpu w (op.exec w).2 := by
  cases op with
  | store addr value => exact SameFeed.write w value h
  | setConsumer other value => exact ⟨fun _ _ ↦ rfl, update_of_ne (Ne.symm h) _ _, rfl⟩
  | pushChipOutput other bytes => exact ⟨fun _ _ ↦ rfl, rfl, update_of_ne (Ne.symm h) _ _⟩
  | load _ | enterPush _ _ | leavePush _ | nextUart | getConsumer _ | logFastForward _ =>
    exact SameFeed.refl l2cpu w

theorem QuietOp.trisc0 (h : QuietOp l2cpu op) (log : FeedLog) : log.trisc0 l2cpu op = log := by
  cases op with
  | store addr value =>
    have hproducer : addr ≠ producerAddr l2cpu := by
      rintro rfl
      simp [QuietOp, Apart] at h
    have hdrop : addr ≠ dropAddr l2cpu := by
      rintro rfl
      simp [QuietOp, Apart, uartPrivateAddr, uartPrivOffFeedProducerSeq,
        uartPrivOffFeedDropCount] at h
    simp [trisc0, hproducer, hdrop]
  | enterPush other byte => exact if_neg h
  | leavePush other => exact if_neg h
  | load _ | nextUart | getConsumer _ | setConsumer _ _ | pushChipOutput _ _ | logFastForward _ =>
    rfl

theorem QuietOp.dispatcher (h : QuietOp l2cpu op) (answer : ℕ) (log : FeedLog) :
    log.dispatcher l2cpu answer op = log := by
  cases op with
  | store addr value =>
    have hconsumer : addr ≠ consumerAddr l2cpu := by
      rintro rfl
      simp [QuietOp, Apart, uartPrivateAddr, uartPrivOffFeedProducerSeq,
        uartPrivOffFeedConsumerSeq] at h
    exact if_neg hconsumer
  | setConsumer other value => exact if_neg h
  | pushChipOutput other bytes => exact if_neg h
  | logFastForward other => exact if_neg h
  | nextUart => exact absurd h id
  | load _ | enterPush _ _ | leavePush _ | getConsumer _ => rfl

/-! ### The invariant -/

/-- One scene of the ring: `start` and `dropStart` are the sequence number and the drop counter that
the run began with. -/
structure FeedInv (l2cpu start dropStart : ℕ) (w : UartWorld) (log : FeedLog) : Prop where
  producer : w.word (uartPrivateAddr l2cpu uartPrivOffFeedProducerSeq) =
    (start + log.enqueued.length) % 2 ^ 32
  consumer : w.word (uartPrivateAddr l2cpu uartPrivOffFeedConsumerSeq) =
    (start + log.acked) % 2 ^ 32
  counted : w.consumer l2cpu = (start + log.counted) % 2 ^ 32
  drops : w.word (uartPrivateAddr l2cpu uartPrivOffFeedDropCount) =
    (dropStart + log.drops) % 2 ^ 32
  /-- An entry that is not acknowledged stands in its cell. -/
  cells : ∀ k byte, log.acked ≤ k → log.enqueued[k]? = some byte →
    UInt8.ofNat (w.word (feedRingAddr l2cpu ((start + k) % 2 ^ 32)) &&& 0xff) = byte
  acked_le : log.acked ≤ log.delivered.length
  counted_le : log.counted ≤ log.delivered.length
  delivered : log.delivered <+: log.enqueued
  room : log.enqueued.length ≤ log.acked + uartFeedRingEntries
  atPass : log.atPass <+: log.enqueued
  returned : ∀ push ∈ log.returned, push.enqueued + push.drops = 1
  fastForwards : log.fastForwards = 0

section Steps

variable {dropStart : ℕ} {w : UartWorld} {log : FeedLog}

/-- The invariant depends on the feed words and the daemon's consumer only. -/
theorem FeedInv.same {w' : UartWorld} (h : FeedInv l2cpu start dropStart w log)
    (hsame : SameFeed l2cpu w w') : FeedInv l2cpu start dropStart w' log :=
  { h with
    producer := (hsame.word _ (inFeed_producer l2cpu)).trans h.producer
    consumer := (hsame.word _ (inFeed_consumer l2cpu)).trans h.consumer
    counted := hsame.consumer.trans h.counted
    drops := (hsame.word _ (inFeed_drop l2cpu)).trans h.drops
    cells := by
      intro k byte hk hbyte
      rw [hsame.word _ (inFeed_ring l2cpu (start + k))]
      exact h.cells k byte hk hbyte }

/-- A store of a word leaves the feed words it does not meet. -/
theorem word_store_of_apart {addr value other : ℕ} (h : Apart addr 4 other 4) :
    ((UartOp.store addr value).exec w).2.word other = w.word other :=
  readLE_writeLE_of_apart h

theorem word_store_self (addr value : ℕ) :
    ((UartOp.store addr value).exec w).2.word addr = value % 2 ^ 32 :=
  readLE_writeLE_self w.l1 addr 4 value

/-! ### What TRISC0 stores -/

/-- The accesses of TRISC0. -/
inductive TriscAccess (l2cpu start dropStart : ℕ) (w : UartWorld) (log : FeedLog) : UartOp → Prop
  | quiet {op : UartOp} (h : QuietOp l2cpu op) : TriscAccess l2cpu start dropStart w log op
  | enter (byte : UInt8) : TriscAccess l2cpu start dropStart w log (.enterPush l2cpu byte)
  /-- The cell of the next entry, which is free. -/
  | cell (value : ℕ) (hroom : log.enqueued.length < log.acked + uartFeedRingEntries) :
    TriscAccess l2cpu start dropStart w log
      (.store (feedRingAddr l2cpu ((start + log.enqueued.length) % 2 ^ 32)) value)
  /-- The advanced producer, once the cell holds the byte. -/
  | advance (push : PushRecord) (hcurrent : log.current = some push)
    (hroom : log.enqueued.length < log.acked + uartFeedRingEntries)
    (hcell : UInt8.ofNat (w.word (feedRingAddr l2cpu ((start + log.enqueued.length) % 2 ^ 32)) &&&
      0xff) = push.byte) :
    TriscAccess l2cpu start dropStart w log
      (.store (uartPrivateAddr l2cpu uartPrivOffFeedProducerSeq)
        ((start + (log.enqueued.length + 1)) % 2 ^ 32))
  | drop : TriscAccess l2cpu start dropStart w log
      (.store (uartPrivateAddr l2cpu uartPrivOffFeedDropCount)
        ((dropStart + (log.drops + 1)) % 2 ^ 32))
  /-- A push returns after exactly one of the two. -/
  | leave (push : PushRecord) (hcurrent : log.current = some push)
    (hdone : push.enqueued + push.drops = 1) :
    TriscAccess l2cpu start dropStart w log (.leavePush l2cpu)

theorem trisc0_store_ring (sequence value : ℕ) :
    log.trisc0 l2cpu (.store (feedRingAddr l2cpu (sequence % 2 ^ 32)) value) = log := by
  have hproducer := (apart_ring l2cpu sequence
    (show uartPrivOffFeedProducerSeq + 4 ≤ _ by decide)).ne
    (by decide) (by decide)
  have hdrop := (apart_ring l2cpu sequence (show uartPrivOffFeedDropCount + 4 ≤ _ by decide)).ne
    (by decide) (by decide)
  simp only [trisc0, if_neg hproducer.symm, if_neg hdrop.symm]

theorem trisc0_store_producer :
    log.trisc0 l2cpu (.store (producerAddr l2cpu) value) =
      { log with
        current := log.current.map fun push ↦ { push with enqueued := push.enqueued + 1 }
        enqueued := log.enqueued ++ (log.current.map PushRecord.byte).toList } :=
  if_pos rfl

theorem trisc0_store_drop :
    log.trisc0 l2cpu (.store (dropAddr l2cpu) value) =
      { log with
        current := log.current.map fun push ↦ { push with drops := push.drops + 1 }
        drops := log.drops + 1 } := by
  have hne := (apart_private l2cpu (show uartPrivOffFeedDropCount + 4 ≤ uartPrivOffFeedProducerSeq ∨
    uartPrivOffFeedProducerSeq + 4 ≤ uartPrivOffFeedDropCount by decide)).ne (by decide) (by decide)
  simp [trisc0, hne]

section

variable (h : FeedInv l2cpu start dropStart w log)
include h

theorem FeedInv.store_cell (value : ℕ)
    (hroom : log.enqueued.length < log.acked + uartFeedRingEntries) : FeedInv l2cpu start dropStart
      ((UartOp.store (feedRingAddr l2cpu ((start + log.enqueued.length) % 2 ^ 32)) value).exec w).2
      log :=
  { h with
    producer := (word_store_of_apart (apart_ring l2cpu _).symm).trans h.producer
    consumer := (word_store_of_apart (apart_ring l2cpu _).symm).trans h.consumer
    drops := (word_store_of_apart (apart_ring l2cpu _).symm).trans h.drops
    cells := by
      intro k byte hk hbyte
      have hlt : k < log.enqueued.length := (List.getElem?_eq_some_iff.mp hbyte).1
      rw [word_store_of_apart (apart_feedRingAddr hlt (by omega))]
      exact h.cells k byte hk hbyte }

theorem FeedInv.store_producer {push : PushRecord} (hcurrent : log.current = some push)
    (hroom : log.enqueued.length < log.acked + uartFeedRingEntries)
    (hcell : UInt8.ofNat (w.word (feedRingAddr l2cpu ((start + log.enqueued.length) % 2 ^ 32)) &&&
      0xff) = push.byte) : FeedInv l2cpu start dropStart
      ((UartOp.store (producerAddr l2cpu)
        ((start + (log.enqueued.length + 1)) % 2 ^ 32)).exec w).2
      { log with
        current := log.current.map fun push ↦ { push with enqueued := push.enqueued + 1 }
        enqueued := log.enqueued ++ (log.current.map PushRecord.byte).toList } := by
  have hbyte : (log.current.map PushRecord.byte).toList = [push.byte] := by
    rw [hcurrent]
    rfl
  have hgrows : log.enqueued <+: log.enqueued ++ [push.byte] := List.prefix_append _ _
  rw [hbyte]
  exact { h with
    producer := by
      rw [word_store_self, Nat.mod_mod, List.length_append]
      rfl
    consumer := (word_store_of_apart (apart_private l2cpu)).trans h.consumer
    drops := (word_store_of_apart (apart_private l2cpu)).trans h.drops
    cells := by
      intro k byte hk hentry
      rw [word_store_of_apart (apart_ring l2cpu _)]
      by_cases hlast : k = log.enqueued.length
      · subst hlast
        rw [List.getElem?_append_right le_rfl, Nat.sub_self] at hentry
        exact hcell.trans (Option.some.inj hentry)
      · have hlt : k < (log.enqueued ++ [push.byte]).length :=
          (List.getElem?_eq_some_iff.mp hentry).1
        rw [List.length_append, List.length_singleton] at hlt
        rw [List.getElem?_append_left (by omega)] at hentry
        exact h.cells k byte hk hentry
    delivered := h.delivered.trans hgrows
    room := by
      rw [List.length_append]
      exact hroom
    atPass := h.atPass.trans hgrows }

theorem FeedInv.store_drop : FeedInv l2cpu start dropStart
      ((UartOp.store (dropAddr l2cpu)
        ((dropStart + (log.drops + 1)) % 2 ^ 32)).exec w).2
      { log with
        current := log.current.map fun push ↦ { push with drops := push.drops + 1 }
        drops := log.drops + 1 } :=
  { h with
    producer := (word_store_of_apart (apart_private l2cpu)).trans h.producer
    consumer := (word_store_of_apart (apart_private l2cpu)).trans h.consumer
    drops := by rw [word_store_self, Nat.mod_mod]
    cells := by
      intro k byte hk hbyte
      rw [word_store_of_apart (apart_ring l2cpu _)]
      exact h.cells k byte hk hbyte }

end

theorem TriscAccess.inv (hop : TriscAccess l2cpu start dropStart w log op)
    (h : FeedInv l2cpu start dropStart w log) :
    FeedInv l2cpu start dropStart (op.exec w).2 (log.trisc0 l2cpu op) := by
  cases hop with
  | quiet hquiet =>
    rw [hquiet.trisc0]
    exact h.same (hquiet.sameFeed w)
  | enter byte =>
    rw [trisc0, if_pos rfl]
    exact { h with }
  | cell value hroom =>
    rw [trisc0_store_ring]
    exact h.store_cell value hroom
  | advance push hcurrent hroom hcell =>
    rw [trisc0_store_producer]
    exact h.store_producer hcurrent hroom hcell
  | drop =>
    rw [trisc0_store_drop]
    exact h.store_drop
  | leave push hcurrent hdone =>
    have hreturned : ∀ other ∈ log.returned ++ log.current.toList,
        other.enqueued + other.drops = 1 := by
      intro other hother
      rw [hcurrent] at hother
      rcases mem_append.mp hother with hold | hnew
      · exact h.returned other hold
      · rw [mem_singleton.mp hnew]
        exact hdone
    rw [trisc0, if_pos rfl]
    exact { h with returned := hreturned }

/-! ### What the daemon stores -/

/-- The accesses of the daemon. -/
inductive DrainAccess (l2cpu start : ℕ) (log : FeedLog) : UartOp → Prop
  | quiet {op : UartOp} (h : QuietOp l2cpu op) : DrainAccess l2cpu start log op
  | next : DrainAccess l2cpu start log .nextUart
  /-- The next entries go to the hub. -/
  | deliver (bytes : List UInt8) (h : log.delivered ++ bytes <+: log.enqueued) :
    DrainAccess l2cpu start log (.pushChipOutput l2cpu bytes)
  | acknowledge : DrainAccess l2cpu start log
      (.store (uartPrivateAddr l2cpu uartPrivOffFeedConsumerSeq)
        ((start + log.delivered.length) % 2 ^ 32))
  | count : DrainAccess l2cpu start log
      (.setConsumer l2cpu ((start + log.delivered.length) % 2 ^ 32))

theorem DrainAccess.inv (hop : DrainAccess l2cpu start log op)
    (h : FeedInv l2cpu start dropStart w log) :
    FeedInv l2cpu start dropStart (op.exec w).2 (log.dispatcher l2cpu (op.exec w).1 op) := by
  cases hop with
  | quiet hquiet =>
    rw [hquiet.dispatcher]
    exact h.same (hquiet.sameFeed w)
  | next =>
    by_cases hkey : w.nextKey = l2cpu + 1
    · rw [dispatcher, if_pos (show (UartOp.nextUart.exec w).1 = l2cpu + 1 from hkey)]
      exact { h with }
    · rw [dispatcher, if_neg (show ¬ (UartOp.nextUart.exec w).1 = l2cpu + 1 from hkey)]
      exact h
  | deliver bytes hbytes =>
    rw [dispatcher, if_pos rfl]
    have hlen : log.delivered.length ≤ (log.delivered ++ bytes).length := by
      rw [length_append]
      exact Nat.le_add_right _ _
    exact { h with
      acked_le := h.acked_le.trans hlen
      counted_le := h.counted_le.trans hlen
      delivered := hbytes }
  | acknowledge =>
    rw [dispatcher, if_pos rfl]
    exact { h with
      producer := (word_store_of_apart (apart_private l2cpu)).trans h.producer
      consumer := by
        rw [word_store_self, Nat.mod_mod]
      drops := (word_store_of_apart (apart_private l2cpu)).trans h.drops
      cells := by
        intro k byte hk hbyte
        rw [word_store_of_apart (apart_ring l2cpu _)]
        exact h.cells k byte (h.acked_le.trans hk) hbyte
      acked_le := le_rfl
      room := h.room.trans (Nat.add_le_add_right h.acked_le _) }
  | count =>
    rw [dispatcher, if_pos rfl]
    exact { h with
      counted := update_self _ _ _
      counted_le := le_rfl }

end Steps

/-! ### The hub -/

theorem TriscAccess.hub (hop : TriscAccess l2cpu start dropStart w log op) :
    (op.exec w).2.hub l2cpu = w.hub l2cpu := by
  cases hop with
  | quiet hquiet => exact (hquiet.sameFeed w).hub
  | enter _ | cell _ _ | advance _ _ _ _ | drop | leave _ _ _ => rfl

theorem DrainAccess.hub (hop : DrainAccess l2cpu start log op) {hubStart : List UInt8}
    (h : w.hub l2cpu = hubStart ++ log.delivered) :
    (op.exec w).2.hub l2cpu = hubStart ++ (log.dispatcher l2cpu (op.exec w).1 op).delivered := by
  cases hop with
  | quiet hquiet => rw [hquiet.dispatcher, (hquiet.sameFeed w).hub, h]
  | next =>
    rw [dispatcher]
    split_ifs
    all_goals exact h
  | deliver bytes _ =>
    rw [dispatcher, if_pos rfl, ← append_assoc, ← h]
    exact update_self _ _ _
  | acknowledge =>
    rw [dispatcher, if_pos rfl]
    exact h
  | count =>
    rw [dispatcher, if_pos rfl]
    exact h

/-! ### What the two rely on -/

/-- The ring's log in a scene. -/
def feed (l2cpu : ℕ) (s : UartScene) : FeedLog := feedLog l2cpu s.trace

/-- What TRISC0 relies on. -/
structure TriscRely (l2cpu : ℕ) (s s' : UartScene) : Prop where
  enqueued : (feed l2cpu s').enqueued = (feed l2cpu s).enqueued
  current : (feed l2cpu s').current = (feed l2cpu s).current
  drops : (feed l2cpu s').drops = (feed l2cpu s).drops
  acked : (feed l2cpu s).acked ≤ (feed l2cpu s').acked
  ring : ∀ sequence, s'.memory.word (feedRingAddr l2cpu (sequence % 2 ^ 32)) =
    s.memory.word (feedRingAddr l2cpu (sequence % 2 ^ 32))

theorem TriscRely.refl (l2cpu : ℕ) (s : UartScene) : TriscRely l2cpu s s :=
  ⟨rfl, rfl, rfl, le_rfl, fun _ ↦ rfl⟩

theorem TriscRely.trans (h : TriscRely l2cpu s s') (h' : TriscRely l2cpu s' s'') :
    TriscRely l2cpu s s'' where
  enqueued := h'.enqueued.trans h.enqueued
  current := h'.current.trans h.current
  drops := h'.drops.trans h.drops
  acked := h.acked.trans h'.acked
  ring sequence := (h'.ring sequence).trans (h.ring sequence)

/-- What the daemon finds the same while it drains. -/
structure Draining (l2cpu : ℕ) (s s' : UartScene) : Prop where
  acked : (feed l2cpu s').acked = (feed l2cpu s).acked
  counted : (feed l2cpu s').counted = (feed l2cpu s).counted
  atPass : (feed l2cpu s').atPass = (feed l2cpu s).atPass
  atDrain : (feed l2cpu s').atDrain = (feed l2cpu s).atDrain
  enqueued : (feed l2cpu s).enqueued <+: (feed l2cpu s').enqueued

theorem Draining.trans (h : Draining l2cpu s s') (h' : Draining l2cpu s' s'') :
    Draining l2cpu s s'' where
  acked := h'.acked.trans h.acked
  counted := h'.counted.trans h.counted
  atPass := h'.atPass.trans h.atPass
  atDrain := h'.atDrain.trans h.atDrain
  enqueued := h.enqueued.trans h'.enqueued

/-- What the daemon relies on. -/
structure DrainRely (l2cpu : ℕ) (s s' : UartScene) : Prop extends Draining l2cpu s s' where
  delivered : (feed l2cpu s').delivered = (feed l2cpu s).delivered

theorem DrainRely.refl (l2cpu : ℕ) (s : UartScene) : DrainRely l2cpu s s :=
  ⟨⟨rfl, rfl, rfl, rfl, prefix_rfl⟩, rfl⟩

theorem DrainRely.trans (h : DrainRely l2cpu s s') (h' : DrainRely l2cpu s' s'') :
    DrainRely l2cpu s s'' :=
  ⟨h.toDraining.trans h'.toDraining, h'.delivered.trans h.delivered⟩

/-- Between two drains everything delivered is acknowledged, and the last drain has delivered what
was enqueued when it began. -/
structure Settled (l2cpu : ℕ) (s : UartScene) : Prop where
  acked : (feed l2cpu s).acked = (feed l2cpu s).delivered.length
  counted : (feed l2cpu s).counted = (feed l2cpu s).delivered.length
  atDrain : (feed l2cpu s).atDrain <+: (feed l2cpu s).delivered

theorem Settled.rely (h : Settled l2cpu s) (hrely : DrainRely l2cpu s s') : Settled l2cpu s' := by
  constructor
  · rw [hrely.acked, hrely.delivered, h.acked]
  · rw [hrely.counted, hrely.delivered, h.counted]
  · rw [hrely.atDrain, hrely.delivered]
    exact h.atDrain

/-- An access of TRISC0 leaves the daemon's part of the log and only adds to the entries. -/
theorem drainRely_trisc0 (fabric : Fabric) (l2cpu : ℕ) (op : UartOp) (s : UartScene) :
    DrainRely l2cpu s ((uartCores fabric).access .trisc0 op s).2 := by
  have hfeed : feed l2cpu ((uartCores fabric).access .trisc0 op s).2 =
      (feed l2cpu s).trisc0 l2cpu op := rfl
  cases op with
  | store addr value =>
    rw [trisc0] at hfeed
    split_ifs at hfeed
    · exact ⟨⟨by rw [hfeed], by rw [hfeed], by rw [hfeed], by rw [hfeed], by
        rw [hfeed]
        exact prefix_append _ _⟩, by rw [hfeed]⟩
    all_goals exact ⟨⟨by rw [hfeed], by rw [hfeed], by rw [hfeed], by rw [hfeed], by rw [hfeed]⟩,
      by rw [hfeed]⟩
  | enterPush other byte | leavePush other =>
    rw [trisc0] at hfeed
    split_ifs at hfeed
    all_goals exact ⟨⟨by rw [hfeed], by rw [hfeed], by rw [hfeed], by rw [hfeed], by rw [hfeed]⟩,
      by rw [hfeed]⟩
  | load _ | nextUart | getConsumer _ | setConsumer _ _ | pushChipOutput _ _ | logFastForward _ =>
    exact ⟨⟨rfl, rfl, rfl, rfl, prefix_rfl⟩, rfl⟩

theorem QuietOp.triscRely (h : QuietOp l2cpu op) (s : UartScene) :
    TriscRely l2cpu s ((uartCores fabric).access .dispatcher op s).2 := by
  have hfeed : feed l2cpu ((uartCores fabric).access .dispatcher op s).2 = feed l2cpu s :=
    h.dispatcher _ _
  constructor
  · rw [hfeed]
  · rw [hfeed]
  · rw [hfeed]
  · rw [hfeed]
  · exact fun sequence ↦ (h.sameFeed s.memory).word _ (inFeed_ring l2cpu sequence)

/-- An access of the daemon leaves TRISC0's part of the log and the ring. -/
theorem DrainAccess.triscRely (hop : DrainAccess l2cpu start (feed l2cpu s) op)
    (hinv : FeedInv l2cpu start dropStart s.memory (feed l2cpu s)) :
    TriscRely l2cpu s ((uartCores fabric).access .dispatcher op s).2 := by
  cases hop with
  | quiet hquiet => exact hquiet.triscRely s
  | next =>
    have hfeed : feed l2cpu ((uartCores fabric).access .dispatcher .nextUart s).2 =
        if s.memory.nextKey = l2cpu + 1 then
          { feed l2cpu s with atDrain := (feed l2cpu s).atPass } else feed l2cpu s := rfl
    split_ifs at hfeed
    all_goals exact ⟨by rw [hfeed], by rw [hfeed], by rw [hfeed], by rw [hfeed], fun _ ↦ rfl⟩
  | deliver bytes hbytes =>
    have hfeed : feed l2cpu ((uartCores fabric).access .dispatcher (.pushChipOutput l2cpu bytes)
        s).2 = { feed l2cpu s with delivered := (feed l2cpu s).delivered ++ bytes } := if_pos rfl
    exact ⟨by rw [hfeed], by rw [hfeed], by rw [hfeed], by rw [hfeed], fun _ ↦ rfl⟩
  | acknowledge =>
    have hfeed : feed l2cpu ((uartCores fabric).access .dispatcher (.store (consumerAddr l2cpu)
        ((start + (feed l2cpu s).delivered.length) % 2 ^ 32)) s).2 = { feed l2cpu s with acked :=
        (feed l2cpu s).delivered.length } := if_pos rfl
    refine ⟨by rw [hfeed], by rw [hfeed], by rw [hfeed], ?_, fun sequence ↦ ?_⟩
    · rw [hfeed]
      exact hinv.acked_le
    · exact word_store_of_apart (apart_ring l2cpu sequence)
  | count =>
    have hfeed : feed l2cpu ((uartCores fabric).access .dispatcher
        (.setConsumer l2cpu ((start + (feed l2cpu s).delivered.length) % 2 ^ 32)) s).2 =
        { feed l2cpu s with counted := (feed l2cpu s).delivered.length } := if_pos rfl
    exact ⟨by rw [hfeed], by rw [hfeed], by rw [hfeed], by rw [hfeed], fun _ ↦ rfl⟩

/-- The ring's part of what each core does; `hubStart` is what the hub had at the beginning. -/
def feedOutline (l2cpu start dropStart : ℕ) (hubStart : List UInt8) :
    Outline UartCore UartOp ℕ UartEvent UartWorld UartCore.Private where
  inv s := FeedInv l2cpu start dropStart s.memory (feed l2cpu s) ∧
    s.memory.hub l2cpu = hubStart ++ (feed l2cpu s).delivered
  rely := fun
    | .trisc0 => TriscRely l2cpu
    | .dispatcher => DrainRely l2cpu
  guarantee core op s := match core with
    | .trisc0 => TriscAccess l2cpu start dropStart s.memory (feed l2cpu s) op
    | .dispatcher => DrainAccess l2cpu start (feed l2cpu s) op
  between core _ s := match core with
    | .trisc0 => True
    | .dispatcher => Settled l2cpu s

end Bhx.Uart
