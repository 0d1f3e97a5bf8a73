import Bhx.SharedMemory.Noninterference
import Bhx.Uart.FeedRing

/-!
# Which guest reaches which UART

The window of an L2CPU is 32 KiB behind the one before, and the daemon's layout puts the UART at one
offset behind every window. The firmware's register files are 16 KiB apart. The two meet for L2CPU 0
only: the guest of L2CPU 1 reaches the register file that TRISC0 polls for L2CPU 2, the guest of
L2CPU 2 reaches the feed ring of L2CPU 0, and the guest of L2CPU 3 the word TRISC0 counts in.

A guest is isolated (`UartIsolated`) when its accesses reach exactly the bytes of its own register
file, and what it stores there changes nothing of any other L2CPU: no byte of L1 outside its own
register file and private block, no other hub. The second part compares two runs that differ in what
the guest stores and in how many turns TRISC0 and the daemon spend on its UART. It holds of every
L2CPU whose guest reaches its own register file, since a poll and a drain of one UART touch nothing
of another (`uart_separates`). `uart_isolated_iff` says that this is L2CPU 0.

Scope. The other guests, BRISC and the daemon's other work store what they like, the same in both
runs. The time TRISC0 takes is not observed.
-/

set_option autoImplicit false

namespace Bhx.Uart

open SharedMemory Machine.L1Layout Program

variable {l2cpu : ℕ} {op : UartOp}
variable {other addr size a : ℕ} (fabric : Fabric)

/-! ### Seen and hidden -/

/-- No byte of the range is in the register file or the private block of the L2CPU. -/
def ClearOf (l2cpu addr size : ℕ) : Prop :=
  Apart addr size (uartRegsBase l2cpu) uartRegFileSize ∧
    Apart addr size (uartPrivateAddr l2cpu 0) uartPrivatePerL2Cpu

/-- An operation that is about the L2CPU's UART. -/
def hiddenOp (l2cpu : ℕ) : UartOp → Bool
  | .load addr | .store addr _ => decide (OwnRange l2cpu addr 4)
  | .enterPush other _ | .leavePush other | .getConsumer other | .setConsumer other _ |
    .pushChipOutput other _ | .logFastForward other => other == l2cpu
  | .nextUart => false

/-- An act of the L2CPU's guest. -/
def hiddenAct (l2cpu : ℕ) : UartEvent → Bool
  | .guest other _ => other == l2cpu
  | .store _ _ _ | .yields _ => false

/-- A word is own or clear. -/
def ProperOp (l2cpu : ℕ) : UartOp → Prop
  | .load addr | .store addr _ => OwnRange l2cpu addr 4 ∨ ClearOf l2cpu addr 4
  | .enterPush _ _ | .leavePush _ | .getConsumer _ | .setConsumer _ _ | .pushChipOutput _ _ |
    .logFastForward _ | .nextUart => True

/-- What does not belong to the L2CPU is the same. -/
structure SameElsewhere (l2cpu : ℕ) (w w' : UartWorld) : Prop where
  l1 : ∀ addr, ¬ OwnRange l2cpu addr 1 → w.l1 addr = w'.l1 addr
  consumer : ∀ other, other ≠ l2cpu → w.consumer other = w'.consumer other
  hub : ∀ other, other ≠ l2cpu → w.hub other = w'.hub other
  nextKey : w.nextKey = w'.nextKey

section Same

variable {w w' : UartWorld}

theorem SameElsewhere.refl (l2cpu : ℕ) (w : UartWorld) : SameElsewhere l2cpu w w :=
  ⟨fun _ _ ↦ rfl, fun _ _ ↦ rfl, fun _ _ ↦ rfl, rfl⟩

theorem SameElsewhere.symm (h : SameElsewhere l2cpu w w') : SameElsewhere l2cpu w' w :=
  ⟨fun addr hclear ↦ (h.l1 addr hclear).symm, fun other hother ↦ (h.consumer other hother).symm,
    fun other hother ↦ (h.hub other hother).symm, h.nextKey.symm⟩

theorem not_ownRange_of_clearOf (h : ClearOf l2cpu addr size) (hlow : addr ≤ a)
    (hhigh : a < addr + size) : ¬ OwnRange l2cpu a 1 := by
  unfold ClearOf Apart at h
  unfold OwnRange Inside
  omega

theorem ownRange_byte (h : OwnRange l2cpu addr size) (hlow : addr ≤ a) (hhigh : a < addr + size) :
    OwnRange l2cpu a 1 := by
  unfold OwnRange Inside at *
  omega

section

variable (h : SameElsewhere l2cpu w w')
include h

theorem SameElsewhere.write_own (value : ℕ) (hown : OwnRange l2cpu addr size) :
    SameElsewhere l2cpu { w with l1 := writeLE w.l1 addr size value } w' where
  l1 := by
    intro a hclear
    have hout : ¬ (addr ≤ a ∧ a < addr + size) := fun hin ↦ hclear (ownRange_byte hown hin.1 hin.2)
    exact (writeLE_apply_of_not_mem hout).trans (h.l1 a hclear)
  consumer := h.consumer
  hub := h.hub
  nextKey := h.nextKey

theorem SameElsewhere.write_both (addr size value : ℕ) :
    SameElsewhere l2cpu { w with l1 := writeLE w.l1 addr size value }
      { w' with l1 := writeLE w'.l1 addr size value } where
  l1 := by
    intro a hclear
    simp only [writeLE, h.l1 a hclear]
  consumer := h.consumer
  hub := h.hub
  nextKey := h.nextKey

theorem SameElsewhere.read_eq (hclear : ClearOf l2cpu addr size) :
    readLE w.l1 addr size = readLE w'.l1 addr size :=
  readLE_congr fun a hlow hhigh ↦ h.l1 a (not_ownRange_of_clearOf hclear hlow hhigh)

end

theorem hidden_op_same (hop : hiddenOp l2cpu op = true) (h : SameElsewhere l2cpu w w') :
    SameElsewhere l2cpu (op.exec w).2 w' := by
  cases op with
  | store addr value => exact h.write_own value (of_decide_eq_true hop)
  | setConsumer target value =>
    obtain rfl : target = l2cpu := beq_iff_eq.mp hop
    refine ⟨h.l1, fun other hother ↦ ?_, h.hub, h.nextKey⟩
    exact (Function.update_of_ne hother _ _).trans (h.consumer other hother)
  | pushChipOutput target bytes =>
    obtain rfl : target = l2cpu := beq_iff_eq.mp hop
    refine ⟨h.l1, h.consumer, fun other hother ↦ ?_, h.nextKey⟩
    exact (Function.update_of_ne hother _ _).trans (h.hub other hother)
  | load _ | enterPush _ _ | leavePush _ | getConsumer _ | logFastForward _ | nextUart => exact h

theorem visible_op_same (hproper : ProperOp l2cpu op) (hop : hiddenOp l2cpu op = false)
    (h : SameElsewhere l2cpu w w') :
    (op.exec w).1 = (op.exec w').1 ∧ SameElsewhere l2cpu (op.exec w).2 (op.exec w').2 := by
  cases op with
  | load addr =>
    have hclear : ClearOf l2cpu addr 4 := hproper.resolve_left (of_decide_eq_false hop)
    exact ⟨h.read_eq hclear, h⟩
  | store addr value => exact ⟨rfl, h.write_both addr 4 value⟩
  | getConsumer target => exact ⟨h.consumer target (beq_eq_false_iff_ne.mp hop), h⟩
  | nextUart => exact ⟨h.nextKey, h⟩
  | setConsumer target value =>
    refine ⟨rfl, h.l1, fun other hother ↦ ?_, h.hub, h.nextKey⟩
    by_cases htarget : other = target
    · subst htarget
      simp [UartOp.exec]
    · simp [UartOp.exec, htarget, h.consumer other hother]
  | pushChipOutput target bytes =>
    refine ⟨rfl, h.l1, h.consumer, fun other hother ↦ ?_, h.nextKey⟩
    by_cases htarget : other = target
    · subst htarget
      simp [UartOp.exec, h.hub other hother]
    · simp [UartOp.exec, htarget, h.hub other hother]
  | enterPush _ _ | leavePush _ | logFastForward _ => exact ⟨rfl, h⟩

end Same

/-! ### The programs -/

section Programs

/-- What is about the L2CPU's UART is hidden, and what is about another's is seen. -/
theorem OnUart.hidden (h : OnUart l2cpu op) : hiddenOp l2cpu op = true := by
  cases op with
  | load _ | store _ _ => exact decide_eq_true h
  | enterPush _ _ | leavePush _ | getConsumer _ | setConsumer _ _ | pushChipOutput _ _
  | logFastForward _ => exact beq_iff_eq.mpr h
  | nextUart => exact absurd h id

/-- The UARTs of two L2CPUs share no byte. -/
theorem clearOf_of_ownRange (hl2cpu : l2cpu < numL2Cpus) (hlt : other < numL2Cpus)
    (hother : other ≠ l2cpu) (h : OwnRange other addr size) : ClearOf l2cpu addr size := by
  unfold numL2Cpus at hl2cpu hlt
  simp only [OwnRange, Inside, uartRegsBase, uartBase, uartPerL2CpuStride, uartRegFileSize,
    uartPrivateAddr, uartPrivateBase, uartPrivatePerL2Cpu] at h
  simp only [ClearOf, Apart, uartRegsBase, uartBase, uartPerL2CpuStride, uartRegFileSize,
    uartPrivateAddr, uartPrivateBase, uartPrivatePerL2Cpu]
  omega

theorem not_ownRange_of_clear (hsize : 0 < size) (h : ClearOf l2cpu addr size) :
    ¬ OwnRange l2cpu addr size := by
  simp only [ClearOf, Apart, uartRegFileSize, uartPrivatePerL2Cpu] at h
  simp only [OwnRange, Inside, uartRegFileSize, uartPrivatePerL2Cpu]
  omega

variable (hl2cpu : l2cpu < numL2Cpus)
include hl2cpu

theorem OnUart.seen (hlt : other < numL2Cpus) (hother : other ≠ l2cpu) (h : OnUart other op) :
    ProperOp l2cpu op ∧ hiddenOp l2cpu op = false := by
  cases op with
  | load _ | store _ _ =>
    have hclear := clearOf_of_ownRange hl2cpu hlt hother h
    exact ⟨Or.inr hclear, decide_eq_false (not_ownRange_of_clear (by decide) hclear)⟩
  | enterPush _ _ | leavePush _ | getConsumer _ | setConsumer _ _ | pushChipOutput _ _
  | logFastForward _ => exact ⟨trivial, beq_eq_false_iff_ne.mpr (h ▸ hother)⟩
  | nextUart => exact absurd h id

theorem tame_onUart (hlt : other < numL2Cpus) {program : UartProg Unit}
    (h : program.Performs (OnUart other)) : program.Tame (ProperOp l2cpu) (hiddenOp l2cpu) 0 := by
  by_cases hother : other = l2cpu
  · subst hother
    constructor
    · refine h.allow fun op hop ↦ ?_
      cases op with
      | load _ | store _ _ => exact Or.inl hop
      | enterPush _ _ | leavePush _ | getConsumer _ | setConsumer _ _ | pushChipOutput _ _
      | logFastForward _ | nextUart => trivial
    · exact indifferent_of_always_hidden (h.allow fun _ ↦ OnUart.hidden)
  · constructor
    · exact h.allow fun _ hop ↦ (hop.seen hl2cpu hlt hother).1
    · exact indifferent_of_always_visible
        (h.allow fun _ hop ↦ (hop.seen hl2cpu hlt hother).2)

theorem clearOf_activeSlots : ClearOf l2cpu (ctrlBase + ctrlOffActiveSlots) 4 := by
  unfold numL2Cpus at hl2cpu
  simp only [ClearOf, Apart, uartRegsBase, uartBase, uartPerL2CpuStride, uartRegFileSize,
    uartPrivateAddr, uartPrivateBase, uartPrivatePerL2Cpu, ctrlBase, ctrlOffActiveSlots]
  omega

theorem clearOf_heartbeat : ClearOf l2cpu (trisc0GlobalBase + trisc0GlobalOffHeartbeat) 4 := by
  unfold numL2Cpus at hl2cpu
  simp only [ClearOf, Apart, uartRegsBase, uartBase, uartPerL2CpuStride, uartRegFileSize,
    uartPrivateAddr, uartPrivateBase, uartPrivatePerL2Cpu, trisc0GlobalBase,
    trisc0GlobalOffHeartbeat]
  omega

/-- What TRISC0 does outside the UART does not depend on it. -/
theorem tame_trisc0Main (count : ℕ) :
    (trisc0Main count).Tame (ProperOp l2cpu) (hiddenOp l2cpu) 0 := by
  have hactive := clearOf_activeSlots hl2cpu
  have hheartbeat := clearOf_heartbeat hl2cpu
  refine tame_step (Or.inr hactive)
    (decide_eq_false (not_ownRange_of_clear (by decide) hactive)) fun active ↦ ?_
  refine (tame_forM fun other hmem ↦ tame_onlyIf fun _ ↦ ?_).bind fun _ ↦ ?_
  · exact tame_onUart hl2cpu (List.mem_range.mp hmem) (onUart_pollOne other)
  · refine (tame_onlyIf fun _ ↦ ?_).bind fun _ ↦ tame_done
    exact tame_step (Or.inr hheartbeat) (decide_eq_false (not_ownRange_of_clear
      (by decide) hheartbeat)) fun _ ↦ tame_done

/-- What the daemon does for the other UARTs does not depend on it. -/
theorem tame_drainNext : drainNext.Tame (ProperOp l2cpu) (hiddenOp l2cpu) 0 := by
  refine tame_step trivial rfl fun key ↦ tame_onlyIf fun hkey ↦ ?_
  exact tame_onUart hl2cpu hkey.2 (onUart_drainUart (key - 1))

end Programs

/-! ### Two runs that differ in what one guest stores -/

/-- The bytes that a guest's accesses reach are those of its own register file. -/
def ReachesOwnFile (fabric : Fabric) (l2cpu : ℕ) : Prop :=
  ∀ target, (∃ offset, offset < uartRegFileSize ∧
      guestUartTarget fabric.tile (fabric.windows l2cpu) l2cpu offset = some target) ↔
    target.tile = fabric.tile ∧ Inside target.addr 1 (uartRegsBase l2cpu) uartRegFileSize

theorem target_guest (hl2cpu : l2cpu < numL2Cpus) (access : GuestStore) :
    (UartEvent.guest l2cpu access).target fabric =
      some (l2cpuWindowBase l2cpu + uartOffsetFromEngineBase + access.offset, access.size,
        access.value) := by
  have hoffset : access.offset < uartRegFileSize := by
    have hsize := access.size_pos
    have hinside := access.inside
    omega
  rw [UartEvent.target, guestUartTarget_eq fabric.tile _ hl2cpu hoffset, Option.bind_some,
    if_pos rfl]

theorem SameElsewhere.act {fabric : Fabric} {w w' : UartWorld} (event : UartEvent)
    (h : SameElsewhere l2cpu w w') :
    SameElsewhere l2cpu (event.apply fabric w) (event.apply fabric w') := by
  have hwritten : SameElsewhere l2cpu (w.written (event.target fabric))
      (w'.written (event.target fabric)) := by
    generalize event.target fabric = target
    cases target with
    | none => exact h
    | some stored => exact h.write_both _ _ _
  have hkey : event.nextKey w = event.nextKey w' := by
    cases event with
    | yields key => rfl
    | guest _ _ | store _ _ _ => exact h.nextKey
  exact ⟨hwritten.l1, hwritten.consumer, hwritten.hub, hkey⟩

/-- Assumes: a guest whose register file begins where its accesses go. TRISC0, the daemon and the
other guests depend on nothing that the guest stores. -/
theorem uart_separates {fabric : Fabric} (hl2cpu : l2cpu < numL2Cpus)
    (hbase : l2cpuWindowBase l2cpu + uartOffsetFromEngineBase = uartRegsBase l2cpu) :
    Separates (uartCores fabric) (ProperOp l2cpu) (hiddenOp l2cpu) (hiddenAct l2cpu) 0
      (SameElsewhere l2cpu) where
  symm _ _ h := h.symm
  hidden_op op _ _ _ hop h := hidden_op_same hop h
  visible_op op _ _ hproper hop h := visible_op_same hproper hop h
  hidden_act := by
    intro event w w' hevent h
    cases event with
    | guest other access =>
      obtain rfl : other = l2cpu := beq_iff_eq.mp hevent
      have hown : OwnRange other (uartRegsBase other + access.offset) access.size := by
        left
        have hinside := access.inside
        unfold Inside
        omega
      have hwritten := h.write_own access.value hown
      change SameElsewhere other ((UartEvent.guest other access).apply fabric w) w'
      rw [UartEvent.apply, target_guest fabric hl2cpu, hbase]
      exact ⟨hwritten.l1, hwritten.consumer, hwritten.hub, hwritten.nextKey⟩
    | store _ _ _ | yields _ => exact absurd hevent Bool.false_ne_true
  visible_act event _ _ _ h := h.act event
  loop := by
    intro core result
    cases core with
    | trisc0 => exact tame_trisc0Main hl2cpu result
    | dispatcher => exact tame_drainNext hl2cpu

/-- The guest of an L2CPU is isolated from the UARTs of the others. -/
structure UartIsolated (fabric : Fabric) (l2cpu : ℕ) : Prop where
  /-- Its accesses reach exactly its own register file. -/
  cells : ReachesOwnFile fabric l2cpu
  /-- Two runs that differ in what it stores, and in the turns spent on its UART, leave everything
  of the others the same. -/
  noninterference : ∀ (c : UartConfig) (moves moves' : List (Move UartCore UartEvent)),
    (∀ core, Cores.Resting core c) →
    (uartCores fabric).visible (hiddenOp l2cpu) (hiddenAct l2cpu) .trisc0 trisc0Entry c moves =
      (uartCores fabric).visible (hiddenOp l2cpu) (hiddenAct l2cpu) .trisc0 trisc0Entry c moves' →
    SameElsewhere l2cpu (uartPlay fabric c moves).scene.memory
      (uartPlay fabric c moves').scene.memory

theorem reachesOwnFile_of_base (hl2cpu : l2cpu < numL2Cpus)
    (hbase : l2cpuWindowBase l2cpu + uartOffsetFromEngineBase = uartRegsBase l2cpu) :
    ReachesOwnFile fabric l2cpu := by
  intro target
  constructor
  · rintro ⟨offset, hoffset, htarget⟩
    rw [guestUartTarget_eq _ _ hl2cpu hoffset, hbase] at htarget
    obtain rfl := Option.some.inj htarget
    constructor
    · rfl
    · show Inside (uartRegsBase l2cpu + offset) 1 (uartRegsBase l2cpu) uartRegFileSize
      unfold Inside
      omega
  · rintro ⟨htile, hinside⟩
    unfold Inside at hinside
    refine ⟨target.addr - uartRegsBase l2cpu, by omega, ?_⟩
    rw [guestUartTarget_eq _ _ hl2cpu (by omega), hbase, ← htile]
    congr 2
    omega

theorem alike_of_resting (c : UartConfig) (hc : ∀ core, Cores.Resting core c) :
    Alike (ProperOp l2cpu) (hiddenOp l2cpu) 0 (SameElsewhere l2cpu) c c := by
  have htame : ∀ core, (c.rest core).Tame (ProperOp l2cpu) (hiddenOp l2cpu) 0 := by
    intro core
    obtain ⟨result, hrest⟩ := (hc core).exists_done
    rw [hrest]
    exact tame_done
  exact ⟨SameElsewhere.refl l2cpu _, htame, htame, fun _ ↦ rfl⟩

/-- Assumes: one of the four L2CPUs. Its guest is isolated exactly when it is L2CPU 0. -/
theorem uart_isolated_iff (fabric : Fabric) {l2cpu : ℕ} (hl2cpu : l2cpu < numL2Cpus) :
    UartIsolated fabric l2cpu ↔ l2cpu = 0 := by
  constructor
  · intro h
    -- the first byte of the window's UART must be in the register file
    have hfirst := (h.cells ⟨fabric.tile, l2cpuWindowBase l2cpu + uartOffsetFromEngineBase⟩).mp
      ⟨0, by decide, guestUartTarget_eq _ _ hl2cpu (by decide)⟩
    have hinside := hfirst.2
    simp only [Inside, l2cpuWindowBase, regsBase, perL2CpuWindowSize, devsPerL2Cpu, regsPerDev,
      uartOffsetFromEngineBase, uartRegsBase, uartBase, uartPerL2CpuStride,
      uartRegFileSize] at hinside
    omega
  · rintro rfl
    have hbase : l2cpuWindowBase 0 + uartOffsetFromEngineBase = uartRegsBase 0 := by decide
    constructor
    · exact reachesOwnFile_of_base fabric hl2cpu hbase
    · intro c moves moves' hc hvisible
      exact ((alike_of_resting c hc).play (uart_separates hl2cpu hbase) hvisible).memory

theorem uart_isolated_first : UartIsolated ⟨⟨1, 2⟩, fun _ _ ↦ ⟨0, 0, 0, 0⟩⟩ 0 :=
  (uart_isolated_iff _ (by decide)).mpr rfl

/-- The UART of L2CPU 2 is registered and idle. -/
def secondIdle : UartConfig where
  scene := {
    memory := {
      l1 := memoryWith [(ctrlBase + ctrlOffActiveSlots, 4, 1 <<< uartSlotForL2Cpu 2),
        (uartRegAddr 2 uartRegRbrThr, 4, uartThrSentinel)]
      consumer := fun _ ↦ 0
      nextKey := 3
      hub := fun _ ↦ [] }
    trace := [] }
  rest := fun
    | .trisc0 => .done (0 : ℕ)
    | .dispatcher => .done ()

/-- TRISC0 sweeps once and the daemon drains. -/
def sweepAndDrain : List (Move UartCore UartEvent) :=
  List.replicate 16 (.turn (.core .trisc0)) ++ List.replicate 8 (.turn (.core .dispatcher))

/-- The guest of L2CPU 1 stores a byte into the transmit cell of the UART it sees. -/
def firstSends : Move UartCore UartEvent :=
  .turn (.act (.guest 1 ⟨uartRegRbrThr, 4, 65, word_pos, thr_inside⟩))

/-- A byte that the guest of L2CPU 1 sends comes out of the console of L2CPU 2. -/
theorem first_guest_writes_second_console :
    ¬ UartIsolated ⟨⟨1, 2⟩, fun _ _ ↦ ⟨0, 0, 0, 0⟩⟩ 1 ∧
      (uartPlay ⟨⟨1, 2⟩, fun _ _ ↦ ⟨0, 0, 0, 0⟩⟩ secondIdle
        (firstSends :: sweepAndDrain)).scene.memory.hub 2 = [65] ∧
      (uartPlay ⟨⟨1, 2⟩, fun _ _ ↦ ⟨0, 0, 0, 0⟩⟩ secondIdle
        sweepAndDrain).scene.memory.hub 2 = [] := by
  refine ⟨fun h ↦ ?_, by decide +kernel, by decide +kernel⟩
  have hreached := (h.cells ⟨⟨1, 2⟩, 0x48000⟩).mp ⟨0, by decide, by decide +kernel⟩
  exact absurd hreached.2 (by decide)

end Bhx.Uart
