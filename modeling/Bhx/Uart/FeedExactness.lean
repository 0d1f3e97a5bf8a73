import Bhx.Uart.FeedInvariant

/-!
# The feed ring loses and repeats nothing

TRISC0's pass and the daemon's pass do no more than `FeedInvariant` allows, next to each other
(`ensures_trisc0Main`, `ensures_drainNext`): a push finds its cell free and returns after exactly
one of an enqueued byte and a counted drop, and a drain reads the cells of entries that are complete
and not acknowledged, up to the producer it read at its beginning.

`feed_ring_exact` puts the two together for every run, in which TRISC0 may be reset at any point: a
push cut short has stored a cell that the next one stores again, or has counted a drop.

Scope. Nothing else stores into the feed words of the L2CPU.
-/

set_option autoImplicit false

namespace Bhx.Uart

open SharedMemory Machine.L1Layout List Program FeedLog

variable {s : UartScene} {byte : UInt8} {s' : UartScene} {l2cpu other : ℕ} {op : UartOp} (addr : ℕ)

/-! ### TRISC0's pass -/

variable {fabric : Fabric} {start dropStart : ℕ}

section Trisc

/-- Away from the L2CPU's ring and from the other words of its block TRISC0 is quiet. -/
theorem quiet_store_register (l2cpu : ℕ) {register : ℕ} (value : ℕ) (hother : other < numL2Cpus)
    (hregister : register < 0x20) : QuietOp l2cpu (.store (uartRegAddr other register) value) := by
  unfold numL2Cpus at hother
  simp only [QuietOp, Apart, uartRegAddr, uartRegsBase, uartBase, uartPerL2CpuStride,
    uartPrivateAddr, uartPrivateBase, uartPrivatePerL2Cpu]
  omega

theorem quiet_store_hold (l2cpu other : ℕ) {value : ℕ} :
    QuietOp l2cpu (.store (uartPrivateAddr other uartPrivOffHold) value) := by
  simp only [QuietOp, Apart, uartPrivateAddr, uartPrivatePerL2Cpu, uartPrivOffHold,
    uartPrivOffFeedProducerSeq]
  omega

theorem quiet_store_heartbeat (hl2cpu : l2cpu < numL2Cpus) {value : ℕ} :
    QuietOp l2cpu (.store (trisc0GlobalBase + trisc0GlobalOffHeartbeat) value) := by
  unfold numL2Cpus at hl2cpu
  simp only [QuietOp, Apart, trisc0GlobalBase, trisc0GlobalOffHeartbeat, uartPrivateAddr,
    uartPrivateBase, uartPrivatePerL2Cpu, uartPrivOffFeedProducerSeq]
  omega

/-- Another L2CPU's UART is nothing of this ring. -/
theorem OnUart.quiet (hother : other ≠ l2cpu) (hlt : other < numL2Cpus) (h : OnUart other op) :
    QuietOp l2cpu op := by
  have hapart : ∀ addr, OwnRange other addr 4 → Apart addr 4 (producerAddr l2cpu) 0x103c := by
    intro addr hown
    unfold numL2Cpus at hlt
    simp only [OwnRange, Inside, uartRegsBase, uartBase, uartPerL2CpuStride, uartRegFileSize,
      uartPrivateAddr, uartPrivateBase, uartPrivatePerL2Cpu] at hown
    simp only [Apart, uartPrivateAddr, uartPrivateBase, uartPrivatePerL2Cpu,
      uartPrivOffFeedProducerSeq]
    omega
  cases op with
  | store addr value => exact hapart addr h
  | enterPush _ _ | leavePush _ | setConsumer _ _ | pushChipOutput _ _ | logFastForward _ =>
    exact fun hsame ↦ hother (h.symm.trans hsame)
  | load _ | getConsumer _ => trivial
  | nextUart => exact h

/-- TRISC0 from a point of its pass on. -/
def TriscEnsures (fabric : Fabric) (l2cpu start dropStart : ℕ) {α : Type}
    (post : α → UartScene → Prop) (program : UartProg α) (s : UartScene) : Prop :=
  Ensures ((uartCores fabric).access .trisc0)
    (fun s s' ↦ TriscRely l2cpu s s' ∧ FeedInv l2cpu start dropStart s'.memory (feed l2cpu s'))
    (fun op s ↦ TriscAccess l2cpu start dropStart s.memory (feed l2cpu s) op) post program s

theorem TriscEnsures.quiet {α : Type} {program : UartProg α}
    (h : program.Performs (QuietOp l2cpu)) (s : UartScene) :
    TriscEnsures fabric l2cpu start dropStart (fun _ _ ↦ True) program s :=
  (Ensures.ofAlways h s).imp (fun _ _ hop ↦ .quiet hop) fun _ _ hpost ↦ hpost

theorem triscRely_load (s : UartScene) :
    TriscRely l2cpu s ((uartCores fabric).access .trisc0 (.load addr) s).2 :=
  ⟨rfl, rfl, rfl, le_rfl, fun _ ↦ rfl⟩

theorem current_enterPush {byte : UInt8} (s : UartScene) :
    (feed l2cpu ((uartCores fabric).access .trisc0 (.enterPush l2cpu byte) s).2).current =
      some ⟨byte, 0, 0⟩ := by
  change ((feed l2cpu s).trisc0 l2cpu (.enterPush l2cpu byte)).current = _
  rw [trisc0, if_pos rfl]

/-- The call in progress has done exactly one of its two things. -/
def PushDone (l2cpu : ℕ) (s : UartScene) : Prop :=
  ∃ push, (feed l2cpu s).current = some push ∧ push.enqueued + push.drops = 1

theorem PushDone.rely (h : PushDone l2cpu s) (hrely : TriscRely l2cpu s s') :
    PushDone l2cpu s' := by
  obtain ⟨push, hcurrent, hdone⟩ := h
  exact ⟨push, hrely.current.trans hcurrent, hdone⟩

section

variable (hcurrent : (feed l2cpu s).current = some ⟨byte, 0, 0⟩)
include hcurrent

theorem ensures_countDrop : TriscEnsures fabric l2cpu start dropStart (fun _ s' ↦ PushDone l2cpu s')
      (do
        let drops ← loadWord (dropAddr l2cpu)
        storeWord (dropAddr l2cpu) ((drops + 1) % 2 ^ 32)) s := by
  intro s1 ⟨hrely1, hinv1⟩
  refine ⟨.quiet trivial, ?_⟩
  intro s2 ⟨hrely2, _⟩
  have hvalue : (s1.memory.word (dropAddr l2cpu) + 1) % 2 ^ 32 =
      (dropStart + ((feed l2cpu s2).drops + 1)) % 2 ^ 32 := by
    have hdrops : (feed l2cpu s2).drops = (feed l2cpu s1).drops := hrely2.drops
    rw [hinv1.drops, hdrops]
    omega
  have hnow : (feed l2cpu s2).current = some ⟨byte, 0, 0⟩ :=
    hrely2.current.trans (hrely1.current.trans hcurrent)
  refine ⟨congrArg (UartOp.store (dropAddr l2cpu)) hvalue ▸ .drop, ⟨byte, 0, 1⟩, ?_, rfl⟩
  change ((feed l2cpu s2).trisc0 l2cpu _).current = _
  rw [trisc0_store_drop, hnow]
  rfl

/-- A ring with room: the push stores the cell, then the producer. -/
theorem ensures_enqueue
    (hroom : (feed l2cpu s).enqueued.length < (feed l2cpu s).acked + uartFeedRingEntries)
    {producer : ℕ} (hproducer : producer = (start + (feed l2cpu s).enqueued.length) % 2 ^ 32) :
    TriscEnsures fabric l2cpu start dropStart (fun _ s' ↦ PushDone l2cpu s')
      (do
        storeWord (feedRingAddr l2cpu producer) byte.toNat
        let _ ← loadWord (feedRingAddr l2cpu producer)
        storeWord (producerAddr l2cpu)
          ((producer + 1) % 2 ^ 32)) s := by
  subst hproducer
  intro s1 ⟨hrely1, _⟩
  have hlen1 : (feed l2cpu s1).enqueued = (feed l2cpu s).enqueued := hrely1.enqueued
  have hroom1 : (feed l2cpu s1).enqueued.length < (feed l2cpu s1).acked + uartFeedRingEntries := by
    have := hrely1.acked
    rw [hlen1]
    omega
  rw [← hlen1]
  refine ⟨.cell byte.toNat hroom1, ?_⟩
  -- the log does not change with the cell, and from here on the cell holds the byte
  have hfeed : feed l2cpu ((uartCores fabric).access .trisc0
      (.store (feedRingAddr l2cpu ((start + (feed l2cpu s1).enqueued.length) % 2 ^ 32))
        byte.toNat) s1).2 = feed l2cpu s1 := trisc0_store_ring _ byte.toNat
  intro s2 ⟨hrely2, _⟩
  refine ⟨.quiet trivial, ?_⟩
  intro s3 ⟨hrely3, _⟩
  have hkept : TriscRely l2cpu s2 s3 := (triscRely_load _ s2).trans hrely3
  have henq : (feed l2cpu s3).enqueued = (feed l2cpu s1).enqueued :=
    (hkept.enqueued.trans hrely2.enqueued).trans (congrArg enqueued hfeed)
  have hnow : (feed l2cpu s3).current = some ⟨byte, 0, 0⟩ := (hkept.current.trans
    hrely2.current).trans ((congrArg current hfeed).trans (hrely1.current.trans hcurrent))
  have hroom3 : (feed l2cpu s3).enqueued.length < (feed l2cpu s3).acked + uartFeedRingEntries := by
    have hfirst := hrely2.acked
    have hsecond := hkept.acked
    rw [hfeed] at hfirst
    rw [henq]
    omega
  have hcell : s3.memory.word (feedRingAddr l2cpu
      ((start + (feed l2cpu s1).enqueued.length) % 2 ^ 32)) = byte.toNat := by
    rw [hkept.ring, hrely2.ring]
    refine (word_store_self _ _).trans (Nat.mod_eq_of_lt ?_)
    exact byte.toNat_lt.trans (by decide)
  have hvalue : ((start + (feed l2cpu s1).enqueued.length) % 2 ^ 32 + 1) % 2 ^ 32 =
      (start + ((feed l2cpu s3).enqueued.length + 1)) % 2 ^ 32 := by
    rw [henq]
    omega
  rw [hvalue]
  constructor
  · refine .advance ⟨byte, 0, 0⟩ hnow hroom3 ?_
    rw [henq, hcell]
    exact ofNat_toNat_and byte
  · refine ⟨⟨byte, 1, 0⟩, ?_, rfl⟩
    change ((feed l2cpu s3).trisc0 l2cpu _).current = _
    rw [trisc0_store_producer, hnow]
    rfl

theorem ensures_push : TriscEnsures fabric l2cpu start dropStart (fun _ s' ↦ PushDone l2cpu s')
      (trisc0UartFeedPush l2cpu byte) s := by
  intro s1 ⟨hrely1, hinv1⟩
  refine ⟨.quiet trivial, ?_⟩
  intro s2 ⟨hrely2, hinv2⟩
  refine ⟨.quiet trivial, ?_⟩
  have henq : (feed l2cpu s2).enqueued = (feed l2cpu s1).enqueued := hrely2.enqueued
  have hnow : (feed l2cpu s2).current = some ⟨byte, 0, 0⟩ :=
    hrely2.current.trans (hrely1.current.trans hcurrent)
  have hproducer : s1.memory.word (producerAddr l2cpu) =
      (start + (feed l2cpu s2).enqueued.length) % 2 ^ 32 := by
    rw [hinv1.producer, henq]
  have hbehind : (feed l2cpu s2).acked ≤ (feed l2cpu s2).enqueued.length :=
    hinv2.acked_le.trans hinv2.delivered.length_le
  have hroom := hinv2.room
  have hdistance : wrappingSub (s1.memory.word (producerAddr l2cpu)) (s2.memory.word
      (consumerAddr l2cpu)) = (feed l2cpu s2).enqueued.length - (feed l2cpu s2).acked := by
    rw [hproducer, hinv2.consumer]
    refine wrappingSub_seq hbehind ?_
    unfold uartFeedRingEntries at hroom
    omega
  change TriscEnsures fabric l2cpu start dropStart _ (if _ then _ else _) _
  split_ifs with hfull
  · exact ensures_countDrop hnow
  · have hfree := lt_of_eq_of_lt hdistance.symm (Nat.lt_of_not_le hfull)
    exact ensures_enqueue (s := ((uartCores fabric).access .trisc0 _ s2).2) hnow
      ((Nat.sub_lt_iff_lt_add' hbehind).mp hfree) hproducer

end

theorem ensures_pollOne (hl2cpu : l2cpu < numL2Cpus) (s : UartScene) :
    TriscEnsures fabric l2cpu start dropStart (fun _ _ ↦ True) (trisc0UartPollOne l2cpu) s := by
  have hregister : ∀ register value, register < 0x20 → QuietOp l2cpu (.store (uartRegAddr l2cpu
    register) value) := fun register value h ↦ quiet_store_register l2cpu value hl2cpu h
  intro s1 _
  refine ⟨.quiet trivial, ?_⟩
  change TriscEnsures fabric l2cpu start dropStart _ (if _ then _ else _) _
  split_ifs
  · refine TriscEnsures.quiet ?_ _
    refine ⟨quiet_store_hold l2cpu l2cpu, fun _ ↦ always_onlyIf fun _ ↦ ?_⟩
    exact ⟨hregister _ _ (by decide), fun _ ↦ trivial⟩
  · intro s2 _
    refine ⟨.quiet trivial, ?_⟩
    change TriscEnsures fabric l2cpu start dropStart _ (if _ then _ else _) _
    split_ifs
    · trivial
    · intro s3 _
      refine ⟨.quiet (hregister _ _ (by decide)), ?_⟩
      intro s4 _
      refine ⟨.quiet trivial, ?_⟩
      change TriscEnsures fabric l2cpu start dropStart _ (if _ then _ else _) _
      split_ifs
      · intro s5 _
        refine ⟨.quiet (hregister _ _ (by decide)), ?_⟩
        intro s6 _
        exact ⟨.quiet (hregister _ _ (by decide)), trivial⟩
      · intro s5 _
        refine ⟨.quiet (hregister _ _ (by decide)), ?_⟩
        intro s6 _
        refine ⟨.enter _, ?_⟩
        change TriscEnsures fabric l2cpu start dropStart _ (trisc0UartFeedPush l2cpu _ >>= _) _
        refine Ensures.bind (ensures_push (current_enterPush s6)) ?_
        intro _ s7 hdone s8 hrely8
        obtain ⟨push, hcurrent, hone⟩ := hdone.rely hrely8.1
        refine ⟨.leave push hcurrent hone, ?_⟩
        intro s9 _
        exact ⟨.quiet (quiet_store_hold l2cpu l2cpu), trivial⟩

theorem ensures_trisc0Main (hl2cpu : l2cpu < numL2Cpus) (count : ℕ) (s : UartScene) :
    TriscEnsures fabric l2cpu start dropStart (fun _ _ ↦ True) (trisc0Main count) s := by
  intro s1 _
  refine ⟨.quiet trivial, ?_⟩
  change TriscEnsures fabric l2cpu start dropStart _ ((range numL2Cpus).forM _ >>= _) _
  have hpoll : ∀ active, ∀ other ∈ range numL2Cpus, ∀ s' : UartScene, True →
      TriscEnsures fabric l2cpu start dropStart (fun _ _ ↦ True)
        (.onlyIf ((active >>> uartSlotForL2Cpu other) &&& 1 ≠ 0) (trisc0UartPollOne other)) s' := by
    intro active other hmem s' _
    have hother : other < numL2Cpus := mem_range.mp hmem
    unfold onlyIf
    split_ifs
    · by_cases hsame : other = l2cpu
      · subst hsame
        exact ensures_pollOne hl2cpu s'
      · exact TriscEnsures.quiet ((onUart_pollOne other).allow fun _ ↦ OnUart.quiet hsame hother) s'
    · trivial
  refine Ensures.bind (ensures_forM (range numL2Cpus) (hpoll _) trivial) ?_
  intro _ s' _
  refine TriscEnsures.quiet ?_ s'
  refine (always_onlyIf fun _ ↦ ?_).bind
  exact ⟨quiet_store_heartbeat hl2cpu, fun _ ↦ trivial⟩

end Trisc

/-! ### The daemon's pass -/

/-- The daemon from a point of its pass on. -/
def DrainEnsures (fabric : Fabric) (l2cpu start dropStart : ℕ) {α : Type}
    (post : α → UartScene → Prop) (program : UartProg α) (s : UartScene) : Prop :=
  Ensures ((uartCores fabric).access .dispatcher)
    (fun s s' ↦ DrainRely l2cpu s s' ∧ FeedInv l2cpu start dropStart s'.memory (feed l2cpu s'))
    (fun op s ↦ DrainAccess l2cpu start (feed l2cpu s) op) post program s

theorem DrainRely.of_feed_eq (h : feed l2cpu s' = feed l2cpu s) : DrainRely l2cpu s s' :=
  ⟨⟨by rw [h], by rw [h], by rw [h], by rw [h], by rw [h]⟩, by rw [h]⟩

theorem drainRely_load (s : UartScene) :
    DrainRely l2cpu s ((uartCores fabric).access .dispatcher (.load addr) s).2 :=
  DrainRely.of_feed_eq rfl

theorem QuietOp.drainRely (h : QuietOp l2cpu op) (s : UartScene) :
    DrainRely l2cpu s ((uartCores fabric).access .dispatcher op s).2 :=
  DrainRely.of_feed_eq (h.dispatcher _ _)

theorem getElem?_of_isPrefix {first second : List UInt8} (h : first <+: second) {i : ℕ}
    (hi : first[i]? = some byte) : second[i]? = some byte := by
  obtain ⟨rest, rfl⟩ := h
  rw [List.getElem?_append_left (List.getElem?_eq_some_iff.mp hi).1, hi]

/-- The cells from an unacknowledged entry on hold the entries. -/
theorem ensures_readCells (bytes : List UInt8) {k : ℕ} (hacked : (feed l2cpu s).acked ≤ k)
    (hbytes : ∀ i byte, bytes[i]? = some byte → (feed l2cpu s).enqueued[k + i]? = some byte) :
    DrainEnsures fabric l2cpu start dropStart
      (fun result s' ↦ result = bytes ∧ DrainRely l2cpu s s')
      (readCells l2cpu ((start + k) % 2 ^ 32) bytes.length) s := by
  induction bytes generalizing k s with
  | nil => exact ⟨rfl, DrainRely.refl l2cpu s⟩
  | cons byte bytes ih =>
    intro s1 ⟨hrely1, hinv1⟩
    refine ⟨.quiet trivial, ?_⟩
    have hhead : (feed l2cpu s1).enqueued[k]? = some byte :=
      getElem?_of_isPrefix hrely1.enqueued (hbytes 0 byte rfl)
    have hcell := hinv1.cells k byte (hrely1.acked.trans_le hacked) hhead
    have hrely2 : DrainRely l2cpu s ((uartCores fabric).access .dispatcher (.load
      (feedRingAddr l2cpu ((start + k) % 2 ^ 32))) s1).2 := hrely1.trans (drainRely_load _ s1)
    have hnext : ((start + k) % 2 ^ 32 + 1) % 2 ^ 32 = (start + (k + 1)) % 2 ^ 32 := by
      omega
    change DrainEnsures fabric l2cpu start dropStart _
      (readCells l2cpu (((start + k) % 2 ^ 32 + 1) % 2 ^ 32) bytes.length >>= _) _
    rw [hnext]
    refine Ensures.bind (ih (hrely2.acked.trans_le (hacked.trans (Nat.le_succ k))) ?_) ?_
    · intro i byte' hi
      have hold := hbytes (i + 1) byte' hi
      rw [show k + (i + 1) = k + 1 + i by omega] at hold
      exact getElem?_of_isPrefix hrely2.enqueued hold
    · intro result s' ⟨hres, hrely'⟩
      constructor
      · rw [hres]
        exact congrArg (· :: bytes) hcell
      · exact hrely2.trans hrely'

theorem delivered_append_isPrefix
    (hdel : (feed l2cpu s).delivered <+: (feed l2cpu s).enqueued) (take : ℕ) :
    (feed l2cpu s).delivered ++
      (((feed l2cpu s).enqueued.drop (feed l2cpu s).delivered.length).take take) <+:
        (feed l2cpu s).enqueued := by
  obtain ⟨rest, hrest⟩ := hdel
  rw [← hrest, drop_left, prefix_append_right_inj]
  exact take_prefix take rest

/-- The loop over buffers delivers everything up to the producer that was read. -/
theorem ensures_drainBuffers {rounds d n : ℕ} (hdel : (feed l2cpu s).delivered.length = d)
    (hbegun : (feed l2cpu s).delivered <+: (feed l2cpu s).enqueued)
    (hacked : (feed l2cpu s).acked ≤ d) (hle : d ≤ n) (hn : n ≤ (feed l2cpu s).enqueued.length)
    (hrounds : n - d ≤ rounds) (hring : n - d ≤ uartFeedRingEntries) :
    DrainEnsures fabric l2cpu start dropStart
      (fun result s' ↦ result = (start + n) % 2 ^ 32 ∧ (feed l2cpu s').delivered.length = n ∧
        Draining l2cpu s s')
      (drainBuffers l2cpu ((start + n) % 2 ^ 32) rounds ((start + d) % 2 ^ 32)) s := by
  unfold uartFeedRingEntries at hring
  induction rounds generalizing d s with
  | zero =>
    obtain rfl : d = n := by omega
    exact ⟨rfl, hdel, (DrainRely.refl l2cpu s).toDraining⟩
  | succ rounds ih =>
    unfold drainBuffers
    by_cases hend : d = n
    · subst hend
      rw [if_pos rfl]
      exact ⟨rfl, hdel, (DrainRely.refl l2cpu s).toDraining⟩
    · rw [if_neg (by omega : ¬ (start + d) % 2 ^ 32 = (start + n) % 2 ^ 32),
        wrappingSub_seq hle (by omega)]
      have htake : 0 < min (n - d) drainBufferLen := by
        unfold drainBufferLen
        omega
      have htake_le : min (n - d) drainBufferLen ≤ n - d := min_le_left _ _
      generalize min (n - d) drainBufferLen = take at htake htake_le
      -- what this buffer takes, as a piece of the entries
      have hlen : (((feed l2cpu s).enqueued.drop d).take take).length = take := by
        rw [length_take, length_drop]
        omega
      have hnew := delivered_append_isPrefix hbegun take
      rw [hdel] at hnew
      generalize ((feed l2cpu s).enqueued.drop d).take take = bytes at hlen hnew
      have hentries : ∀ i byte, bytes[i]? = some byte →
          (feed l2cpu s).enqueued[d + i]? = some byte := by
        intro i byte hi
        refine getElem?_of_isPrefix hnew ?_
        rw [getElem?_append_right (by omega), hdel, Nat.add_sub_cancel_left]
        exact hi
      rw [← hlen]
      refine Ensures.bind (ensures_readCells bytes hacked hentries) ?_
      rintro result s1 ⟨hres, hrely1⟩ s2 ⟨hrely2, -⟩
      subst hres
      have hkept := hrely1.trans hrely2
      have hnow : (feed l2cpu s2).delivered ++ result <+: (feed l2cpu s2).enqueued := by
        rw [hkept.delivered]
        exact hnew.trans hkept.enqueued
      refine ⟨.deliver result hnow, ?_⟩
      have hfeed : feed l2cpu
          ((uartCores fabric).access .dispatcher (.pushChipOutput l2cpu result) s2).2 =
          { feed l2cpu s2 with delivered := (feed l2cpu s2).delivered ++ result } := if_pos rfl
      have hlen2 : ((feed l2cpu s2).delivered ++ result).length = d + result.length := by
        rw [length_append, hkept.delivered, hdel]
      have hconsumer : ((start + d) % 2 ^ 32 + result.length) % 2 ^ 32 =
          (start + (d + result.length)) % 2 ^ 32 := by
        omega
      rw [hconsumer]
      refine (ih (d := d + result.length) ?_ ?_ ?_ ?_ ?_ ?_ ?_).weaken ?_
      · rw [hfeed]
        exact hlen2
      · rw [hfeed]
        exact hnow
      · rw [hfeed]
        exact (hkept.acked.trans_le hacked).trans (Nat.le_add_right _ _)
      · omega
      · rw [hfeed]
        exact hn.trans hkept.enqueued.length_le
      · omega
      · omega
      · rintro value s' ⟨hvalue, hend', hdraining⟩
        refine ⟨hvalue, hend', hkept.toDraining.trans (Draining.trans ?_ hdraining)⟩
        exact ⟨by rw [hfeed], by rw [hfeed], by rw [hfeed], by rw [hfeed], by rw [hfeed]⟩

/-- The end of a drain: the consumer is stored into L1, then into `uart_consumer`. -/
theorem ensures_publishConsumer {n : ℕ} (hlen : (feed l2cpu s).delivered.length = n)
    (hatDrain : (feed l2cpu s).atDrain <+: (feed l2cpu s).enqueued)
    (hle : (feed l2cpu s).atDrain.length ≤ n) :
    DrainEnsures fabric l2cpu start dropStart (fun _ s' ↦ Settled l2cpu s')
      (do
        storeWord (consumerAddr l2cpu) ((start + n) % 2 ^ 32)
        let _ ← perform (.setConsumer l2cpu ((start + n) % 2 ^ 32))) s := by
  subst hlen
  intro s1 ⟨hrely1, _⟩
  rw [← hrely1.delivered]
  refine ⟨.acknowledge, ?_⟩
  have hfeed1 : feed l2cpu ((uartCores fabric).access .dispatcher (.store (consumerAddr l2cpu)
      ((start + (feed l2cpu s1).delivered.length) % 2 ^ 32)) s1).2 = { feed l2cpu s1 with acked :=
      (feed l2cpu s1).delivered.length } := if_pos rfl
  intro s2 ⟨hrely2, hinv2⟩
  have hdel : (feed l2cpu s2).delivered = (feed l2cpu s1).delivered := by
    rw [hrely2.delivered, hfeed1]
  rw [← hdel]
  refine ⟨.count, ?_⟩
  have hfeed2 : feed l2cpu ((uartCores fabric).access .dispatcher
      (.setConsumer l2cpu ((start + (feed l2cpu s2).delivered.length) % 2 ^ 32)) s2).2 =
      { feed l2cpu s2 with counted := (feed l2cpu s2).delivered.length } := if_pos rfl
  refine Settled.mk ?_ ?_ ?_
  · rw [hfeed2, hdel]
    exact hrely2.acked.trans (by rw [hfeed1])
  · rw [hfeed2]
  · rw [hfeed2]
    have hsame : (feed l2cpu s2).atDrain = (feed l2cpu s).atDrain := by
      rw [hrely2.atDrain, hfeed1, hrely1.atDrain]
    refine prefix_of_prefix_length_le ?_ hinv2.delivered ?_
    · rw [hsame]
      refine hatDrain.trans (hrely1.enqueued.trans ?_)
      have hgrows := hrely2.enqueued
      rw [hfeed1] at hgrows
      exact hgrows
    · rw [hsame, hdel, hrely1.delivered]
      exact hle

theorem ensures_drainUart (hacked : (feed l2cpu s).acked = (feed l2cpu s).delivered.length)
    (hcounted : (feed l2cpu s).counted = (feed l2cpu s).delivered.length)
    (hatDrain : (feed l2cpu s).atDrain <+: (feed l2cpu s).enqueued) :
    DrainEnsures fabric l2cpu start dropStart (fun _ s' ↦ Settled l2cpu s') (drainUart l2cpu)
      s := by
  intro s1 ⟨hrely1, hinv1⟩
  refine ⟨.quiet trivial, ?_⟩
  intro s2 ⟨hrely2, hinv2⟩
  refine ⟨.quiet trivial, ?_⟩
  have hkept2 : DrainRely l2cpu s1 s2 := (drainRely_load _ s1).trans hrely2
  have hacked1 : (feed l2cpu s1).acked = (feed l2cpu s1).delivered.length := by
    rw [hrely1.acked, hrely1.delivered, hacked]
  have hconsumer : ((uartCores fabric).access .dispatcher (.getConsumer l2cpu) s2).1 =
      (start + (feed l2cpu s1).delivered.length) % 2 ^ 32 := by
    rw [hrely1.delivered, ← hcounted, ← hrely1.counted, ← hkept2.counted]
    exact hinv2.counted
  have hdelivered_le : (feed l2cpu s1).delivered.length ≤ (feed l2cpu s1).enqueued.length :=
    hinv1.delivered.length_le
  have hroom : (feed l2cpu s1).enqueued.length ≤
      (feed l2cpu s1).delivered.length + uartFeedRingEntries := by
    rw [← hacked1]
    exact hinv1.room
  have hatDrain1 : (feed l2cpu s1).atDrain <+: (feed l2cpu s1).enqueued := by
    rw [hrely1.atDrain]
    exact hatDrain.trans hrely1.enqueued
  generalize hn : (feed l2cpu s1).enqueued.length = n at hdelivered_le hroom
  generalize hd : (feed l2cpu s1).delivered.length = d at hdelivered_le hroom hconsumer
  have hproducer : ((uartCores fabric).access .dispatcher (.load (producerAddr l2cpu)) s1).1 =
      (start + n) % 2 ^ 32 := by
    rw [← hn]
    exact hinv1.producer
  have hdistance : wrappingSub ((start + n) % 2 ^ 32) ((start + d) % 2 ^ 32) = n - d :=
    wrappingSub_seq hdelivered_le (by unfold uartFeedRingEntries at hroom; omega)
  have hsame : feed l2cpu ((uartCores fabric).access .dispatcher (.getConsumer l2cpu) s2).2 =
      feed l2cpu s2 := rfl
  change DrainEnsures fabric l2cpu start dropStart _ (if _ then _ else _) _
  rw [hproducer, hconsumer]
  unfold uartFeedRingEntries at hroom
  by_cases hempty : n = d
  · rw [if_pos (by rw [hempty])]
    refine Settled.rely ⟨hacked1, ?_, ?_⟩ (hkept2.trans (DrainRely.of_feed_eq hsame))
    · rw [hrely1.counted, hcounted, hrely1.delivered]
    · refine prefix_of_prefix_length_le hatDrain1 hinv1.delivered ?_
      rw [hd, ← hempty, ← hn]
      exact hatDrain1.length_le
  · rw [if_neg (by omega)]
    have hclamp : clampConsumerToRing ((start + n) % 2 ^ 32) ((start + d) % 2 ^ 32)
        uartFeedRingEntries = (start + d) % 2 ^ 32 := by
      refine clamp_of_le ?_
      unfold uartFeedRingEntries
      omega
    rw [hclamp, hdistance, onlyIf, if_neg (not_not.mpr rfl)]
    change DrainEnsures fabric l2cpu start dropStart _ (drainBuffers l2cpu _ _ _ >>= _) _
    refine Ensures.bind (ensures_drainBuffers (d := d) (n := n) ?_ ?_ ?_ hdelivered_le ?_ le_rfl
      ?_) ?_
    · rw [hsame, hkept2.delivered, hd]
    · exact hinv2.delivered
    · rw [hsame, hkept2.acked, hacked1, hd]
    · rw [hsame, ← hn]
      exact hkept2.enqueued.length_le
    · unfold uartFeedRingEntries
      omega
    · intro final s3 ⟨hfinal, hlen, hdraining⟩
      subst hfinal
      have hatDrain3 : (feed l2cpu s3).atDrain = (feed l2cpu s1).atDrain := by
        rw [hdraining.atDrain, hsame, hkept2.atDrain]
      refine ensures_publishConsumer hlen ?_ ?_
      · rw [hatDrain3]
        exact hatDrain1.trans (hkept2.enqueued.trans hdraining.enqueued)
      · rw [hatDrain3, ← hn]
        exact hatDrain1.length_le

theorem ensures_drainNext (hl2cpu : l2cpu < numL2Cpus) (hsettled : Settled l2cpu s) :
    DrainEnsures fabric l2cpu start dropStart (fun _ s' ↦ Settled l2cpu s') drainNext s := by
  intro s1 ⟨hrely1, hinv1⟩
  refine ⟨.next, ?_⟩
  have hsettled1 := hsettled.rely hrely1
  change DrainEnsures fabric l2cpu start dropStart _ (.onlyIf (0 < s1.memory.nextKey ∧
    s1.memory.nextKey - 1 < numL2Cpus) (drainUart (s1.memory.nextKey - 1))) _
  have hfeed : feed l2cpu ((uartCores fabric).access .dispatcher .nextUart s1).2 =
      if s1.memory.nextKey = l2cpu + 1 then
        { feed l2cpu s1 with atDrain := (feed l2cpu s1).atPass } else feed l2cpu s1 := rfl
  unfold onlyIf
  by_cases hkey : s1.memory.nextKey = l2cpu + 1
  · rw [if_pos hkey] at hfeed
    rw [hkey, Nat.add_sub_cancel, if_pos ⟨Nat.succ_pos l2cpu, hl2cpu⟩]
    refine ensures_drainUart ?_ ?_ ?_
    · rw [hfeed]
      exact hsettled1.acked
    · rw [hfeed]
      exact hsettled1.counted
    · rw [hfeed]
      exact hinv1.atPass
  · rw [if_neg hkey] at hfeed
    have hsettled2 := hsettled1.rely (DrainRely.of_feed_eq hfeed)
    split_ifs with hvalid
    · have hother : s1.memory.nextKey - 1 ≠ l2cpu := by omega
      have hstable : ∀ s s', DrainRely l2cpu s s' ∧ FeedInv l2cpu start dropStart s'.memory
          (feed l2cpu s') → Settled l2cpu s → Settled l2cpu s' := fun _ _ hstep hs ↦ hs.rely hstep.1
      have hquiet : ∀ op s, QuietOp l2cpu op → Settled l2cpu s → Settled l2cpu
        ((uartCores fabric).access .dispatcher op s).2 := fun _ s hop hs ↦ hs.rely (hop.drainRely s)
      have hdrain := (onUart_drainUart (s1.memory.nextKey - 1)).allow fun _ ↦
        OnUart.quiet hother hvalid.2
      have hkept := Ensures.keeping (Settled l2cpu) hdrain hstable hquiet hsettled2
      exact hkept.imp (fun _ _ hop ↦ .quiet hop.1) fun _ _ hpost ↦ hpost.2
    · exact hsettled2

/-! ### Every run -/

/-- An event that stores into nothing of the L2CPU's feed words. -/
def UartEvent.OffFeed (fabric : Fabric) (l2cpu : ℕ) (event : UartEvent) : Prop :=
  match event.target fabric with
  | some (addr, size, _) =>
    Apart addr size (uartPrivateAddr l2cpu uartPrivOffFeedProducerSeq) 0x103c
  | none => True

instance (fabric : Fabric) (l2cpu : ℕ) (event : UartEvent) :
    Decidable (event.OffFeed fabric l2cpu) := by
  unfold UartEvent.OffFeed
  split <;> infer_instance

/-- The turns of a run: nothing but TRISC0 and the daemon stores into the feed words. -/
def OffFeed (fabric : Fabric) (l2cpu : ℕ) (_ : UartConfig) : Turn UartCore UartEvent → Prop
  | .core _ => True
  | .act event => event.OffFeed fabric l2cpu

instance (fabric : Fabric) (l2cpu : ℕ) (c : UartConfig) (turn : Turn UartCore UartEvent) :
    Decidable (OffFeed fabric l2cpu c turn) :=
  match turn with
  | .core _ => .isTrue trivial
  | .act event => inferInstanceAs (Decidable (event.OffFeed fabric l2cpu))

theorem UartEvent.OffFeed.sameFeed {event : UartEvent}
    (h : event.OffFeed fabric l2cpu) (w : UartWorld) : SameFeed l2cpu w (event.apply fabric w) := by
  have hstored : SameFeed l2cpu w (w.written (event.target fabric)) := by
    unfold UartEvent.OffFeed at h
    generalize event.target fabric = target at h
    cases target with
    | none => exact SameFeed.refl l2cpu w
    | some stored => exact SameFeed.write w _ h
  exact ⟨hstored.word, hstored.consumer, hstored.hub⟩

theorem feedOutline_sound (fabric : Fabric) (hl2cpu : l2cpu < numL2Cpus) {start dropStart : ℕ}
    {hubStart : List UInt8} :
    (feedOutline l2cpu start dropStart hubStart).Sound (uartCores fabric)
      (OffFeed fabric l2cpu) := by
  refine Outline.Sound.ofRely ?_ ?_ ?_ ?_ ?_ ?_ ?_
  · intro core s
    cases core with
    | trisc0 => exact TriscRely.refl l2cpu s
    | dispatcher => exact DrainRely.refl l2cpu s
  · intro core s s' s'' h h'
    cases core with
    | trisc0 => exact TriscRely.trans h h'
    | dispatcher => exact DrainRely.trans h h'
  · intro core result s s' hrely hbetween
    cases core with
    | trisc0 => trivial
    | dispatcher => exact Settled.rely hbetween hrely
  · intro core result s hinv hbetween
    cases core with
    | trisc0 =>
      exact ⟨hinv, (ensures_trisc0Main hl2cpu result _).restrict fun _ _ hstep ↦
        ⟨hstep.1, hstep.2.1⟩⟩
    | dispatcher =>
      have hpass : FeedInv l2cpu start dropStart s.memory { feed l2cpu s with atPass :=
        (feed l2cpu s).enqueued } := { hinv.1 with atPass := prefix_rfl }
      have hsettled : Settled l2cpu (Cores.pass .dispatcher s) :=
        ⟨hbetween.acked, hbetween.counted, hbetween.atDrain⟩
      exact ⟨⟨hpass, hinv.2⟩, (ensures_drainNext hl2cpu hsettled).restrict fun _ _ hstep ↦
        ⟨hstep.1, hstep.2.1⟩⟩
  · intro core other s hother
    cases core with
    | trisc0 =>
      cases other with
      | trisc0 => exact absurd rfl hother
      | dispatcher => exact DrainRely.of_feed_eq rfl
    | dispatcher =>
      cases other with
      | trisc0 => exact ⟨rfl, rfl, rfl, le_rfl, fun _ ↦ rfl⟩
      | dispatcher => exact absurd rfl hother
  · intro c core op next _ _ hop hholds
    obtain ⟨hinv, hhub⟩ := hholds.inv
    cases core with
    | trisc0 =>
      have hdrain := drainRely_trisc0 fabric l2cpu op c.scene
      refine ⟨⟨TriscAccess.inv hop hinv, ?_⟩, fun other hother ↦ Or.inl ?_⟩
      · rw [hdrain.delivered, ← hhub]
        exact TriscAccess.hub hop
      · cases other with
        | trisc0 => exact absurd rfl hother
        | dispatcher => exact hdrain
    | dispatcher =>
      refine ⟨⟨DrainAccess.inv hop hinv, DrainAccess.hub hop hhub⟩, fun other hother ↦ Or.inl ?_⟩
      cases other with
      | trisc0 => exact DrainAccess.triscRely hop hinv
      | dispatcher => exact absurd rfl hother
  · intro c event hallowed hholds
    obtain ⟨hinv, hhub⟩ := hholds.inv
    have hsame : SameFeed l2cpu c.scene.memory (event.apply fabric c.scene.memory) :=
      UartEvent.OffFeed.sameFeed hallowed _
    refine ⟨⟨hinv.same hsame, hsame.hub.trans hhub⟩, fun core ↦ Or.inl ?_⟩
    cases core with
    | trisc0 =>
      exact ⟨rfl, rfl, rfl, le_rfl, fun sequence ↦ hsame.word _ (inFeed_ring l2cpu sequence)⟩
    | dispatcher => exact DrainRely.of_feed_eq rfl

/-- A run begins: TRISC0 and the daemon are between two passes, and the ring's two sequence numbers
and the daemon's consumer are equal. -/
structure FeedStart (l2cpu : ℕ) (c : UartConfig) : Prop where
  trace : c.scene.trace = []
  resting : ∀ core, Cores.Resting core c
  consumer : c.scene.memory.word (uartPrivateAddr l2cpu uartPrivOffFeedConsumerSeq) =
    c.scene.memory.word (uartPrivateAddr l2cpu uartPrivOffFeedProducerSeq)
  daemon : c.scene.memory.consumer l2cpu =
    c.scene.memory.word (uartPrivateAddr l2cpu uartPrivOffFeedProducerSeq)

/-- What holds at every point `c'` of a run from `c`. -/
structure FeedExact (l2cpu : ℕ) (c c' : UartConfig) : Prop where
  /-- The hub has got the first bytes of the completed pushes, in order and each once. -/
  hub : c'.scene.memory.hub l2cpu =
    c.scene.memory.hub l2cpu ++ (feed l2cpu c'.scene).delivered
  delivered : (feed l2cpu c'.scene).delivered <+: (feed l2cpu c'.scene).enqueued
  /-- After a drain pass it has all the pushes that were complete when the pass began. -/
  drained : Cores.Resting .dispatcher c' →
    (feed l2cpu c'.scene).atDrain <+: (feed l2cpu c'.scene).delivered
  whole : Cores.Resting .dispatcher c' →
    (feed l2cpu c'.scene).atDrain = (feed l2cpu c'.scene).enqueued →
    (feed l2cpu c'.scene).delivered = (feed l2cpu c'.scene).enqueued
  distance : wrappingSub
    (c'.scene.memory.word (uartPrivateAddr l2cpu uartPrivOffFeedProducerSeq))
    (c'.scene.memory.word (uartPrivateAddr l2cpu uartPrivOffFeedConsumerSeq)) ≤
      uartFeedRingEntries
  clamp : Cores.Resting .dispatcher c' → clampConsumerToRing
    (c'.scene.memory.word (uartPrivateAddr l2cpu uartPrivOffFeedProducerSeq))
    (c'.scene.memory.consumer l2cpu) uartFeedRingEntries = c'.scene.memory.consumer l2cpu
  fastForwards : (feed l2cpu c'.scene).fastForwards = 0
  /-- Every store of the drop counter counts one. -/
  drops : c'.scene.memory.word (uartPrivateAddr l2cpu uartPrivOffFeedDropCount) =
    (c.scene.memory.word (uartPrivateAddr l2cpu uartPrivOffFeedDropCount) +
      (feed l2cpu c'.scene).drops) % 2 ^ 32
  /-- A push that returned was enqueued, or stored the drop counter once. -/
  returned : ∀ push ∈ (feed l2cpu c'.scene).returned,
    push.enqueued = 1 ∧ push.drops = 0 ∨ push.enqueued = 0 ∧ push.drops = 1

theorem FeedStart.inv {c : UartConfig} (h : FeedStart l2cpu c) :
    FeedInv l2cpu (c.scene.memory.word (producerAddr l2cpu))
      (c.scene.memory.word (dropAddr l2cpu)) c.scene.memory
      (feed l2cpu c.scene) := by
  have hfeed : feed l2cpu c.scene = initial := congrArg (feedLog l2cpu) h.trace
  have hlt : ∀ addr, (c.scene.memory.word addr + 0) % 2 ^ 32 = c.scene.memory.word addr :=
    fun addr ↦ Nat.mod_eq_of_lt (readLE_lt c.scene.memory.l1 addr 4)
  rw [hfeed]
  exact {
    producer := (hlt _).symm
    consumer := h.consumer.trans (hlt _).symm
    counted := h.daemon.trans (hlt _).symm
    drops := (hlt _).symm
    cells := by
      intro k byte _ hbyte
      simp [initial] at hbyte
    acked_le := le_rfl
    counted_le := le_rfl
    delivered := prefix_rfl
    room := Nat.zero_le _
    atPass := prefix_rfl
    returned := by
      intro push hpush
      simp [initial] at hpush
    fastForwards := rfl }

/-- Assumes: one of the four L2CPUs, whose ring and daemon begin at one sequence number of any
value, and a run of TRISC0 pushes, daemon passes, resets of TRISC0 and acts from outside that keep
off the feed words. The ring loses nothing, repeats nothing and counts every drop. -/
theorem feed_ring_exact (fabric : Fabric) {l2cpu : ℕ} (hl2cpu : l2cpu < numL2Cpus)
    {c : UartConfig} (hstart : FeedStart l2cpu c) {moves : List (Move UartCore UartEvent)}
    (hmoves : (uartCores fabric).AdmitsPlay .trisc0 trisc0Entry (OffFeed fabric l2cpu) c moves) :
    FeedExact l2cpu c (uartPlay fabric c moves) := by
  have hfeed : feed l2cpu c.scene = initial := congrArg (feedLog l2cpu) hstart.trace
  have hholds : (feedOutline l2cpu
      (c.scene.memory.word (producerAddr l2cpu))
      (c.scene.memory.word (dropAddr l2cpu))
      (c.scene.memory.hub l2cpu)).Holds (uartCores fabric) c := by
    refine ⟨⟨hstart.inv, ?_⟩, fun core ↦ ?_⟩
    · rw [hfeed]
      exact (append_nil _).symm
    · obtain ⟨result, hrest⟩ := (hstart.resting core).exists_done
      rw [hrest]
      cases core with
      | trisc0 => trivial
      | dispatcher =>
        refine Settled.mk ?_ ?_ ?_
        all_goals rw [hfeed]
        all_goals simp [initial]
  have hentry : ∀ start dropStart hubStart s, (feedOutline l2cpu start dropStart hubStart).inv s →
      (feedOutline l2cpu start dropStart hubStart).between .trisc0 trisc0Entry s :=
    fun _ _ _ _ _ ↦ trivial
  have hend := (feedOutline_sound fabric hl2cpu).play (hentry _ _ _) hholds hmoves
  obtain ⟨hinv, hhub⟩ := hend.inv
  have hsettled : Cores.Resting .dispatcher (uartPlay fabric c moves) →
      Settled l2cpu (uartPlay fabric c moves).scene := by
    intro hresting
    obtain ⟨result, hrest⟩ := hresting.exists_done
    have hat := hend.at_rest .dispatcher
    change Outline.At _ _ _ ((uartPlay fabric c moves).rest .dispatcher) _ at hat
    rw [hrest] at hat
    exact hat
  change FeedInv l2cpu _ _ (uartPlay fabric c moves).scene.memory
    (feed l2cpu (uartPlay fabric c moves).scene) at hinv
  change (uartPlay fabric c moves).scene.memory.hub l2cpu =
    _ ++ (feed l2cpu (uartPlay fabric c moves).scene).delivered at hhub
  generalize uartPlay fabric c moves = c' at hinv hhub hsettled
  have hroom := hinv.room
  have hbehind : (feed l2cpu c'.scene).acked ≤ (feed l2cpu c'.scene).enqueued.length :=
    hinv.acked_le.trans hinv.delivered.length_le
  unfold uartFeedRingEntries at hroom
  exact {
    hub := hhub
    delivered := hinv.delivered
    drained := fun hresting ↦ (hsettled hresting).atDrain
    whole := by
      intro hresting hsame
      have hdrained := (hsettled hresting).atDrain
      rw [hsame] at hdrained
      exact hinv.delivered.eq_of_length_le hdrained.length_le
    distance := by
      rw [hinv.producer, hinv.consumer, wrappingSub_seq hbehind (by omega)]
      unfold uartFeedRingEntries
      omega
    clamp := by
      intro hresting
      have hcounted : (feed l2cpu c'.scene).counted = (feed l2cpu c'.scene).acked :=
        (hsettled hresting).counted.trans (hsettled hresting).acked.symm
      refine clamp_of_le ?_
      rw [hinv.producer, hinv.counted, hcounted, wrappingSub_seq hbehind (by omega)]
      unfold uartFeedRingEntries
      omega
    fastForwards := hinv.fastForwards
    drops := hinv.drops
    returned := by
      intro push hpush
      have hone := hinv.returned push hpush
      omega }

/-- The sequence numbers are about to wrap, and a byte waits in the transmit cell of L2CPU 0. -/
def wrappingStart : UartConfig where
  scene := {
    memory := {
      l1 := memoryWith [(ctrlBase + ctrlOffActiveSlots, 4, 0x40),
        (uartRegAddr 0 uartRegRbrThr, 4, 65),
        (uartPrivateAddr 0 uartPrivOffFeedProducerSeq, 4, 0xFFFFFFFF),
        (uartPrivateAddr 0 uartPrivOffFeedConsumerSeq, 4, 0xFFFFFFFF)]
      consumer := fun _ ↦ 0xFFFFFFFF
      nextKey := 1
      hub := fun _ ↦ [] }
    trace := [] }
  rest := fun
    | .trisc0 => .done (0 : ℕ)
    | .dispatcher => .done ()

/-- TRISC0 is reset in the middle of its first push, the guest sends another byte, TRISC0 pushes it
and the daemon drains. -/
def resetMoves : List (Move UartCore UartEvent) :=
  replicate 11 (.turn (.core .trisc0)) ++
    [.restart, .turn (.act (.guest 0 ⟨uartRegRbrThr, 4, 66, word_pos, thr_inside⟩))] ++
    replicate 16 (.turn (.core .trisc0)) ++ replicate 8 (.turn (.core .dispatcher))

/-- A tile for the engine, and no windows before its own. -/
def someFabric : Fabric := ⟨⟨1, 2⟩, fun _ _ ↦ ⟨0, 0, 0, 0⟩⟩

theorem feed_ring_exact_reset :
    FeedExact 0 wrappingStart (uartPlay someFabric wrappingStart resetMoves) ∧
      (uartPlay someFabric wrappingStart resetMoves).scene.memory.hub 0 = [66] :=
  ⟨feed_ring_exact someFabric (by decide)
    ⟨rfl, fun core ↦ by cases core <;> rfl, by decide +kernel, by decide +kernel⟩
    (by decide +kernel), by decide +kernel⟩

end Bhx.Uart
