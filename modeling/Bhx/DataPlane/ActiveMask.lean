import Bhx.Firmware.PollDevice
import Bhx.SharedMemory.Cores

/-!
# The active masks

The daemon tells the engine which slots to poll by two words of the control page: the virtio slots
registered with its dispatcher, and those together with the slots of the UARTs. After each change of
a registry the dispatcher computes both words anew and stores them (`publishActiveMask`). It reads
the two registries one after the other and holds no lock over the two stores, so two threads that
changed a registry at the same time could store their words in the wrong order.

They never do. Every caller in the daemon takes the mutex `DaemonState.dispatcher` first and keeps
it over all its calls (`Caller.body`), whatever it is doing to which guest. Whenever no thread holds
the mutex, the two words say what the registries hold (`active_masks_agree`), from the first call on
a dispatcher on. Before that call the words are what the engine or an earlier dispatcher left there.

Scope. A thread that finds the mutex taken waits by trying again. A thread that panics while it
holds the mutex is not modelled, and neither is a diagnostic command that stores to the words
itself.
-/

set_option autoImplicit false

namespace Bhx.DataPlane

open SharedMemory Machine.L1Layout Firmware Option

/-! ### The dispatcher -/

/-- A dispatcher: the keys of its two registries. `called` says whether a registry was ever changed;
nothing reads it but statements. -/
structure Dispatcher where
  registry : List ℕ
  uartRegistry : List UInt8
  called : Bool
deriving DecidableEq, Repr

/-- What the threads of the daemon share: L1, the thread that holds the mutex
`DaemonState.dispatcher`, and what the mutex guards. -/
structure DispatcherWorld (ι : Type) where
  l1 : Bytes
  holder : Option ι
  dispatcher : Option Dispatcher

/-- `slot_for_l2cpu`. -/
def slotForL2cpu (l2cpu : UInt8) : ℕ := (l2cpu.toNat * devsPerL2Cpu + uartSlotOffset) % 2 ^ 16

/-- Sets the bits of some slots, but for those that the word has no bit for. -/
def orSlots (mask : ℕ) (slots : List ℕ) : ℕ :=
  slots.foldl (fun mask slot ↦ if slot < numSlots then mask ||| 1 <<< slot else mask) mask

/-- The bits of the registered virtio slots. -/
def Dispatcher.virtioMask (d : Dispatcher) : ℕ := orSlots 0 d.registry

/-- Those and the bits of the registered UARTs. -/
def Dispatcher.mask (d : Dispatcher) : ℕ :=
  orSlots d.virtioMask (d.uartRegistry.map slotForL2cpu)

/-- The word at CTRL_OFF_ACTIVE_SLOTS. -/
def activeSlots (l1 : Bytes) : ℕ := readLE l1 (ctrlBase + ctrlOffActiveSlots) 4

/-- The word at CTRL_OFF_ACTIVE_VIRTIO_SLOTS. -/
def activeVirtioSlots (l1 : Bytes) : ℕ := readLE l1 (ctrlBase + ctrlOffActiveVirtioSlots) 4

/-! ### What the threads do -/

/-- The atomic steps of a thread. The lock of a registry is taken for one of them at a time. -/
inductive DispatcherOp (ι : Type)
  /-- Takes the mutex if nobody holds it, and answers whether it did. -/
  | lock (thread : ι)
  | unlock
  /-- Whether there is a dispatcher. -/
  | isSome
  | insertSlot (slot : ℕ)
  | removeSlot (slot : ℕ)
  | insertUart (l2cpu : UInt8)
  | removeUart (l2cpu : UInt8)
  /-- Adds the bits of the registered virtio slots to a mask. -/
  | orRegistry (mask : ℕ)
  /-- Adds the bits of the registered UARTs to a mask. -/
  | orUartRegistry (mask : ℕ)
  | writeL1 (addr value : ℕ)
  /-- Puts a new dispatcher in place. -/
  | install
  /-- Drops the dispatcher. -/
  | take

variable {ι L : Type}

/-- Changes a registry of the dispatcher. -/
def DispatcherWorld.change (w : DispatcherWorld ι) (f : Dispatcher → Dispatcher) :
    DispatcherWorld ι :=
  { w with dispatcher := w.dispatcher.map fun d ↦ { f d with called := true } }

/-- The keys of the registry. -/
def DispatcherWorld.registry (w : DispatcherWorld ι) : List ℕ :=
  (w.dispatcher.map Dispatcher.registry).getD []

/-- The keys of the UART registry. -/
def DispatcherWorld.uartRegistry (w : DispatcherWorld ι) : List UInt8 :=
  (w.dispatcher.map Dispatcher.uartRegistry).getD []

/-- The effect and the answer of a step. -/
def dispatcherExec : DispatcherOp ι → DispatcherWorld ι → ℕ × DispatcherWorld ι
  | .lock thread, w => if w.holder.isNone then (1, { w with holder := some thread }) else (0, w)
  | .unlock, w => (0, { w with holder := none })
  | .isSome, w => (if w.dispatcher.isSome then 1 else 0, w)
  | .insertSlot slot, w => (0, w.change fun d ↦ { d with registry := d.registry.insert slot })
  | .removeSlot slot, w =>
    (0, w.change fun d ↦ { d with registry := d.registry.filter (· ≠ slot) })
  | .insertUart l2cpu, w =>
    (0, w.change fun d ↦ { d with uartRegistry := d.uartRegistry.insert l2cpu })
  | .removeUart l2cpu, w =>
    (0, w.change fun d ↦ { d with uartRegistry := d.uartRegistry.filter (· ≠ l2cpu) })
  | .orRegistry mask, w => (orSlots mask w.registry, w)
  | .orUartRegistry mask, w => (orSlots mask (w.uartRegistry.map slotForL2cpu), w)
  | .writeL1 addr value, w => (0, { w with l1 := writeLE w.l1 addr 4 value })
  | .install, w => (0, { w with dispatcher := some ⟨[], [], false⟩ })
  | .take, w => (0, { w with dispatcher := none })

/-- A program of a thread. -/
abbrev DispatcherProg (ι α : Type) := Program (DispatcherOp ι) ℕ α

/-- `publish_active_mask`. -/
def publishActiveMask : DispatcherProg ι Unit := do
  let virtioMask ← Program.perform (.orRegistry 0)
  let mask ← Program.perform (.orUartRegistry virtioMask)
  let _ ← Program.perform (.writeL1 (ctrlBase + ctrlOffActiveSlots) mask)
  let _ ← Program.perform (.writeL1 (ctrlBase + ctrlOffActiveVirtioSlots) virtioMask)
  pure ()

/-- A call on the dispatcher. -/
inductive DispatcherCall
  | registerSlot (slot : ℕ)
  | unregisterSlot (slot : ℕ)
  | registerUart (l2cpu : UInt8)
  | unregisterUart (l2cpu : UInt8)
deriving DecidableEq, Repr

/-- The change of a registry that a call makes. -/
def DispatcherCall.change : DispatcherCall → DispatcherOp ι
  | .registerSlot slot => .insertSlot slot
  | .unregisterSlot slot => .removeSlot slot
  | .registerUart l2cpu => .insertUart l2cpu
  | .unregisterUart l2cpu => .removeUart l2cpu

/-- `register_slot`, `unregister_slot`, `register_uart` and `unregister_uart`. -/
def DispatcherCall.run (call : DispatcherCall) : DispatcherProg ι Unit := do
  let _ ← Program.perform call.change
  publishActiveMask

/-! ### The callers -/

/-- The slot of a device of an L2CPU. -/
def devSlot (l2cpu : UInt8) (devIdx : ℕ) : ℕ := l2cpu.toNat * devsPerL2Cpu + devIdx

/-- The places of the daemon that take the mutex, with what they find when they have it: which
devices there are to attach or detach, and whether attaching them works. -/
inductive Caller
  | dispatchBoot (l2cpu : UInt8) (engine rng disk cloudInit network console : Bool)
  | swapAttachedForRelease (l2cpu : UInt8) (disks : List ℕ) (net console rng : Bool)
  | attachRngInline (l2cpu : UInt8) (booted : Bool)
  | dispatchAddDisk (l2cpu : UInt8) (devIdx : ℕ) (opened : Bool)
  | dispatchRemoveDisk (disks : List ℕ)
  | dispatchAddNet (l2cpu : UInt8) (created : Bool)
  | dispatchRemoveNet (l2cpu : UInt8)
  | dispatchAddConsole (l2cpu : UInt8)
  | dispatchRemoveConsole (l2cpu : UInt8)
  | unregisterEngineSlots (l2cpu : UInt8)
  | dropNetForReboot (l2cpu : UInt8)
  | dropWorkersOnShutdownPark (l2cpu : UInt8) (disks : List ℕ) (net console rng : Bool)
  /-- `get_or_bring_up_tensix_engine` and `adopt_running_tensix_engine`. -/
  | installEngine
  /-- The reset of the board before a boot. -/
  | opportunisticReset
deriving DecidableEq, Repr

/-- A call under a condition. -/
def callIf (condition : Bool) (call : DispatcherCall) : List DispatcherCall :=
  if condition then [call] else []

/-- The calls that detach the devices of a guest. -/
def detachCalls (l2cpu : UInt8) (disks : List ℕ) (net console rng : Bool) : List DispatcherCall :=
  disks.map .unregisterSlot ++ callIf net (.unregisterSlot (devSlot l2cpu devNet)) ++
    callIf console (.unregisterSlot (devSlot l2cpu devConsole)) ++
    callIf rng (.unregisterSlot (devSlot l2cpu devRng))

/-- The calls of a caller, in order. -/
def Caller.calls : Caller → List DispatcherCall
  | .dispatchBoot l2cpu engine rng disk cloudInit network console =>
    if engine then
      callIf rng (.registerSlot (devSlot l2cpu devRng)) ++
        callIf disk (.registerSlot (devSlot l2cpu devBlk)) ++
        callIf cloudInit (.registerSlot (devSlot l2cpu devBlk1)) ++
        callIf network (.registerSlot (devSlot l2cpu devNet)) ++
        callIf console (.registerSlot (devSlot l2cpu devConsole)) ++ [.registerUart l2cpu]
    else []
  | .swapAttachedForRelease l2cpu disks net console rng => detachCalls l2cpu disks net console rng
  | .attachRngInline l2cpu booted => callIf booted (.registerSlot (devSlot l2cpu devRng))
  | .dispatchAddDisk l2cpu devIdx opened => callIf opened (.registerSlot (devSlot l2cpu devIdx))
  | .dispatchRemoveDisk disks => disks.map .unregisterSlot
  | .dispatchAddNet l2cpu created => callIf created (.registerSlot (devSlot l2cpu devNet))
  | .dispatchRemoveNet l2cpu => [.unregisterSlot (devSlot l2cpu devNet)]
  | .dispatchAddConsole l2cpu => [.registerSlot (devSlot l2cpu devConsole)]
  | .dispatchRemoveConsole l2cpu => [.unregisterSlot (devSlot l2cpu devConsole)]
  | .unregisterEngineSlots l2cpu =>
    (List.range devsPerL2Cpu).map (fun devIdx ↦ .unregisterSlot (devSlot l2cpu devIdx)) ++
      [.unregisterUart l2cpu]
  | .dropNetForReboot l2cpu => [.unregisterSlot (devSlot l2cpu devNet)]
  | .dropWorkersOnShutdownPark l2cpu disks net console rng =>
    detachCalls l2cpu disks net console rng
  | .installEngine => []
  | .opportunisticReset => []

/-- What a caller does with the mutex. -/
def Caller.body : Caller → DispatcherProg ι Unit
  | .installEngine => do
    let _ ← Program.perform .install
    pure ()
  | .opportunisticReset => do
    let _ ← Program.perform .take
    pure ()
  | caller => do
    let present ← Program.perform .isSome
    Program.onlyIf (present ≠ 0) (caller.calls.forM DispatcherCall.run)

/-- A thread tries to take the mutex and runs a caller when it has it. -/
def withDispatcher (thread : ι) (caller : Caller) (again next : L) : DispatcherProg ι L := do
  let acquired ← Program.perform (.lock thread)
  if acquired = 0 then pure again
  else do
    caller.body
    let _ ← Program.perform .unlock
    pure next

/-- The threads of the daemon, each with callers that it runs one after the other. Anything else
that happens to L1 is a store of a byte from outside. -/
def daemonThreads (plan : ι → L → Caller × L) :
    Cores ι (DispatcherOp ι) ℕ (ℕ × ℕ) (DispatcherWorld ι) fun _ ↦ L where
  exec := dispatcherExec
  act byte w := { w with l1 := writeLE w.l1 byte.1 1 byte.2 }
  loop thread l := withDispatcher thread (plan thread l).1 l (plan thread l).2

/-! ### Masks and their bits -/

section Masks

theorem testBit_orSlots (mask : ℕ) (slots : List ℕ) (bit : ℕ) :
    (orSlots mask slots).testBit bit = true ↔
      mask.testBit bit = true ∨ bit < numSlots ∧ bit ∈ slots := by
  induction slots generalizing mask with
  | nil => simp [orSlots]
  | cons slot slots ih =>
    change (orSlots (if slot < numSlots then mask ||| 1 <<< slot else mask) slots).testBit bit =
      true ↔ _
    rw [ih, List.mem_cons]
    by_cases hslot : slot < numSlots
    · rw [if_pos hslot, Nat.testBit_or, Nat.one_shiftLeft, Nat.testBit_two_pow]
      simp only [Bool.or_eq_true, decide_eq_true_eq]
      constructor
      · rintro ((hmask | rfl) | hrest)
        · exact .inl hmask
        · exact .inr ⟨hslot, .inl rfl⟩
        · exact .inr ⟨hrest.1, .inr hrest.2⟩
      · rintro (hmask | ⟨hbit, rfl | hrest⟩)
        · exact .inl (.inl hmask)
        · exact .inl (.inr rfl)
        · exact .inr ⟨hbit, hrest⟩
    · rw [if_neg hslot]
      constructor
      · rintro (hmask | hrest)
        · exact .inl hmask
        · exact .inr ⟨hrest.1, .inr hrest.2⟩
      · rintro (hmask | ⟨hbit, rfl | hrest⟩)
        · exact .inl hmask
        · exact absurd hbit hslot
        · exact .inr ⟨hbit, hrest⟩

theorem orSlots_lt {mask : ℕ} (hmask : mask < 2 ^ 32) {slots : List ℕ} :
    orSlots mask slots < 2 ^ 32 := by
  refine Nat.lt_pow_two_of_testBit _ fun bit hbit ↦ ?_
  rw [← Bool.not_eq_true, testBit_orSlots]
  rintro (hset | ⟨hslot, -⟩)
  · have hclear := Nat.testBit_lt_two_pow (hmask.trans_le (Nat.pow_le_pow_right two_pos hbit))
    rw [hclear] at hset
    exact absurd hset Bool.false_ne_true
  · exact absurd hslot (not_lt.mpr hbit)

theorem Dispatcher.testBit_virtioMask (d : Dispatcher) {bit : ℕ} (hbit : bit < numSlots) :
    d.virtioMask.testBit bit = true ↔ bit ∈ d.registry := by
  unfold Dispatcher.virtioMask
  rw [testBit_orSlots]
  simp [hbit]

theorem slotForL2cpu_eq (l2cpu : UInt8) : slotForL2cpu l2cpu = l2cpu.toNat * 8 + 6 := by
  have hlt := l2cpu.toNat_lt
  unfold slotForL2cpu devsPerL2Cpu uartSlotOffset
  omega

theorem Dispatcher.testBit_mask (d : Dispatcher) {bit : ℕ} (hbit : bit < numSlots) :
    d.mask.testBit bit = true ↔
      bit ∈ d.registry ∨ ∃ l2cpu ∈ d.uartRegistry, bit = l2cpu.toNat * 8 + 6 := by
  unfold Dispatcher.mask
  rw [testBit_orSlots, d.testBit_virtioMask hbit]
  simp only [hbit, true_and, List.mem_map, slotForL2cpu_eq, eq_comm]

end Masks

/-! ### The invariant -/

/-- The words say what the registries hold, once one of them was changed. -/
def Agrees (w : DispatcherWorld ι) : Prop :=
  ∀ d, w.dispatcher = some d → d.called = true →
    activeSlots w.l1 = d.mask ∧ activeVirtioSlots w.l1 = d.virtioMask

/-- The words are left alone, at least once a registry was changed. -/
def WordsKept (w w' : DispatcherWorld ι) : Prop :=
  ∀ d, w.dispatcher = some d → d.called = true →
    activeSlots w'.l1 = activeSlots w.l1 ∧ activeVirtioSlots w'.l1 = activeVirtioSlots w.l1

/-- What a thread relies on: while it holds the mutex, nobody else touches what the mutex guards,
and nobody else takes the mutex in its name. -/
structure MutexRely (thread : ι) (w w' : DispatcherWorld ι) : Prop where
  held : w.holder = some thread →
    w'.holder = some thread ∧ w'.dispatcher = w.dispatcher ∧ WordsKept w w'
  free : w.holder ≠ some thread → w'.holder ≠ some thread

/-- The steps between taking the mutex and giving it back. -/
def DispatcherOp.Inner : DispatcherOp ι → Prop
  | .lock _ | .unlock => False
  | _ => True

/-- The steps of a thread: it asks for the mutex, or it has the mutex, and gives it back only when
the words say what the registries hold. -/
def MutexStep (thread : ι) (op : DispatcherOp ι) (w : DispatcherWorld ι) : Prop :=
  op = .lock thread ∨ w.holder = some thread ∧ (op.Inner ∨ op = .unlock ∧ Agrees w)

/-- The parts of the threads. -/
def maskOutline (ι L : Type) : Outline ι (DispatcherOp ι) ℕ (ℕ × ℕ) (DispatcherWorld ι)
    fun _ ↦ L where
  inv s := s.memory.holder = none → Agrees s.memory
  rely thread s s' := MutexRely thread s.memory s'.memory
  guarantee thread op s := MutexStep thread op s.memory
  between thread _ s := s.memory.holder ≠ some thread

section Steps

variable {thread other : ι} {w w' w'' : DispatcherWorld ι} {op : DispatcherOp ι}

theorem MutexRely.refl (thread : ι) (w : DispatcherWorld ι) : MutexRely thread w w :=
  ⟨fun hheld ↦ ⟨hheld, rfl, fun _ _ _ ↦ ⟨rfl, rfl⟩⟩, id⟩

theorem MutexRely.trans (h : MutexRely thread w w') (h' : MutexRely thread w' w'') :
    MutexRely thread w w'' := by
  constructor
  · intro hheld
    obtain ⟨hheld', hsame, hwords⟩ := h.held hheld
    obtain ⟨hheld'', hsame', hwords'⟩ := h'.held hheld'
    refine ⟨hheld'', hsame'.trans hsame, fun d hd hcalled ↦ ?_⟩
    obtain ⟨hactive, hvirtio⟩ := hwords d hd hcalled
    obtain ⟨hactive', hvirtio'⟩ := hwords' d (hsame.trans hd) hcalled
    exact ⟨hactive'.trans hactive, hvirtio'.trans hvirtio⟩
  · exact fun hfree ↦ h'.free (h.free hfree)

theorem Agrees.stable (h : Agrees w) (hsame : w'.dispatcher = w.dispatcher)
    (hwords : WordsKept w w') : Agrees w' := by
  intro d hd hcalled
  rw [hsame] at hd
  obtain ⟨hactive, hvirtio⟩ := hwords d hd hcalled
  rw [hactive, hvirtio]
  exact h d hd hcalled

theorem DispatcherOp.Inner.holder_eq (h : op.Inner) (w : DispatcherWorld ι) :
    (dispatcherExec op w).2.holder = w.holder := by
  cases op with
  | lock thread => exact absurd h not_false
  | unlock => exact absurd h not_false
  | _ => rfl

/-- Asking for the mutex leaves everything but the holder alone. -/
theorem lock_cases (thread : ι) (w : DispatcherWorld ι) :
    w.holder = none ∧ dispatcherExec (.lock thread) w = (1, { w with holder := some thread }) ∨
      w.holder ≠ none ∧ dispatcherExec (.lock thread) w = (0, w) := by
  cases hholder : w.holder with
  | none => exact .inl ⟨rfl, by simp [dispatcherExec, hholder]⟩
  | some other => exact .inr ⟨some_ne_none other, by simp [dispatcherExec, hholder]⟩

/-- After a step of a thread the words say what the registries hold unless a thread has the
mutex. -/
theorem MutexStep.agrees (h : MutexStep thread op w) (hinv : w.holder = none → Agrees w) :
    (dispatcherExec op w).2.holder = none → Agrees (dispatcherExec op w).2 := by
  rcases h with rfl | ⟨hheld, hinner | ⟨rfl, hagrees⟩⟩
  · rcases lock_cases thread w with ⟨-, hexec⟩ | ⟨-, hexec⟩
    · rw [hexec]
      exact fun hnone ↦ absurd hnone (some_ne_none thread)
    · rw [hexec]
      exact hinv
  · rw [hinner.holder_eq, hheld]
    exact fun hnone ↦ absurd hnone (some_ne_none thread)
  · exact fun _ ↦ hagrees

/-- The steps of one thread are what the others rely on. -/
theorem MutexStep.relied (h : MutexStep thread op w) (hother : other ≠ thread) :
    MutexRely other w (dispatcherExec op w).2 := by
  have hne : some thread ≠ some other := fun heq ↦ hother (some.inj heq).symm
  rcases h with rfl | ⟨hheld, hop⟩
  · rcases lock_cases thread w with ⟨hnone, hexec⟩ | ⟨-, hexec⟩
    · rw [hexec]
      exact ⟨fun hholder ↦ absurd (hnone.symm.trans hholder) (some_ne_none other).symm,
        fun _ ↦ hne⟩
    · rw [hexec]
      exact .refl other w
  · refine ⟨fun hholder ↦ absurd (hheld.symm.trans hholder) hne, fun _ ↦ ?_⟩
    rcases hop with hinner | ⟨rfl, -⟩
    · rw [hinner.holder_eq, hheld]
      exact hne
    · exact (some_ne_none other).symm

end Steps

/-! ### The threads -/

/-- What the threads share and what has happened. -/
abbrev DispatcherScene (ι : Type) := Scene ι (DispatcherOp ι) ℕ (ℕ × ℕ) (DispatcherWorld ι)

/-- The thread holds the mutex, and the words say what the registries hold. -/
structure HeldInOrder (thread : ι) (s : DispatcherScene ι) : Prop where
  holder : s.memory.holder = some thread
  agrees : Agrees s.memory

/-- The thread holds the mutex, and this is the dispatcher. -/
structure HeldOver (thread : ι) (d : Option Dispatcher) (s : DispatcherScene ι) : Prop where
  holder : s.memory.holder = some thread
  dispatcher : s.memory.dispatcher = d

section Threads

variable {plan : ι → L → Caller × L} {thread : ι} {s s' : DispatcherScene ι}
  {d : Option Dispatcher}

theorem HeldInOrder.stable (h : HeldInOrder thread s)
    (hstep : MutexRely thread s.memory s'.memory) : HeldInOrder thread s' := by
  obtain ⟨hholder, hsame, hwords⟩ := hstep.held h.holder
  exact ⟨hholder, h.agrees.stable hsame hwords⟩

theorem HeldOver.stable (h : HeldOver thread d s)
    (hstep : MutexRely thread s.memory s'.memory) : HeldOver thread d s' := by
  obtain ⟨hholder, hsame, -⟩ := hstep.held h.holder
  exact ⟨hholder, hsame.trans h.dispatcher⟩

/-- A part of a thread keeps to what the others rely on, and ends with the mutex and the words in
order. -/
abbrev LeavesInOrder {α : Type} (plan : ι → L → Caller × L) (thread : ι)
    (part : Program (DispatcherOp ι) ℕ α) (s : DispatcherScene ι) : Prop :=
  Ensures ((daemonThreads plan).access thread)
    (fun t t' ↦ MutexRely thread t.memory t'.memory ∧ (maskOutline ι L).inv t')
    (fun op t ↦ MutexStep thread op t.memory) (fun _ t ↦ HeldInOrder thread t) part s

/-- Whoever holds the mutex and publishes leaves the words as the registries say. -/
theorem publishActiveMask_at (hs : HeldOver thread d s) :
    LeavesInOrder plan thread publishActiveMask s := by
  intro s1 hstep1
  have h1 := hs.stable hstep1.1
  refine ⟨.inr ⟨h1.holder, .inl trivial⟩, ?_⟩
  intro s2 hstep2
  have h2 : HeldOver thread d s2 := HeldOver.stable ⟨h1.holder, h1.dispatcher⟩ hstep2.1
  refine ⟨.inr ⟨h2.holder, .inl trivial⟩, ?_⟩
  intro s3 hstep3
  have h3 : HeldOver thread d s3 := HeldOver.stable ⟨h2.holder, h2.dispatcher⟩ hstep3.1
  refine ⟨.inr ⟨h3.holder, .inl trivial⟩, ?_⟩
  intro s4 hstep4
  obtain ⟨hholder, hsame, hwords⟩ := hstep4.1.held h3.holder
  refine ⟨.inr ⟨hholder, .inl trivial⟩, hholder, fun current hcurrent hcalled ↦ ?_⟩
  -- all four steps see the same registries
  have hd : d = some current := (hsame.trans h3.dispatcher).symm.trans hcurrent
  have hregistry : s1.memory.registry = current.registry := by
    unfold DispatcherWorld.registry
    rw [h1.dispatcher, hd]
    rfl
  have huarts : s2.memory.uartRegistry = current.uartRegistry := by
    unfold DispatcherWorld.uartRegistry
    rw [h2.dispatcher, hd]
    rfl
  have hvirtio : orSlots 0 s1.memory.registry = current.virtioMask := by
    rw [hregistry, Dispatcher.virtioMask]
  have hmask : orSlots (orSlots 0 s1.memory.registry) (s2.memory.uartRegistry.map slotForL2cpu) =
      current.mask := by
    rw [hvirtio, huarts, Dispatcher.mask]
  have hvirtioLt : current.virtioMask < 2 ^ 32 := orSlots_lt (by decide)
  have hstored := hwords current (h3.dispatcher.trans hd) hcalled
  constructor
  · refine (readLE_writeLE_of_apart (by decide)).trans (hstored.1.trans ?_)
    refine (readLE_writeLE_self _ _ _ _).trans ?_
    change orSlots (orSlots 0 s1.memory.registry) _ % 2 ^ 32 = _
    rw [hmask]
    exact Nat.mod_eq_of_lt (orSlots_lt hvirtioLt)
  · refine (readLE_writeLE_self _ _ _ _).trans ?_
    change orSlots 0 s1.memory.registry % 2 ^ 32 = _
    rw [hvirtio]
    exact Nat.mod_eq_of_lt hvirtioLt

theorem dispatcherCall_at (call : DispatcherCall) (hs : HeldInOrder thread s) :
    LeavesInOrder plan thread call.run s := by
  intro t hstep
  have ht := hs.stable hstep.1
  have hinner : (call.change : DispatcherOp ι).Inner := by cases call <;> trivial
  refine ⟨.inr ⟨ht.holder, .inl hinner⟩, publishActiveMask_at ⟨?_, rfl⟩⟩
  exact (hinner.holder_eq t.memory).trans ht.holder

variable (caller : Caller)

theorem callerBody_at (hs : HeldInOrder thread s) :
    LeavesInOrder plan thread caller.body s := by
  have hcalls : LeavesInOrder plan thread (do
        let present ← Program.perform .isSome
        Program.onlyIf (present ≠ 0) (caller.calls.forM DispatcherCall.run)) s := by
    intro t hstep
    have ht := hs.stable hstep.1
    refine ⟨.inr ⟨ht.holder, .inl trivial⟩, ?_⟩
    have ht' : HeldInOrder thread ((daemonThreads plan).access thread .isSome t).2 :=
      ⟨ht.holder, ht.agrees⟩
    change Ensures _ _ _ _ (Program.onlyIf (((daemonThreads plan).access thread .isSome t).1 ≠ 0)
      (caller.calls.forM DispatcherCall.run)) _
    unfold Program.onlyIf
    split_ifs
    · exact ensures_forM _ (fun call _ t' ht' ↦ dispatcherCall_at call ht') ht'
    · exact ht'
  cases caller with
  | installEngine =>
    intro t hstep
    have ht := hs.stable hstep.1
    refine ⟨.inr ⟨ht.holder, .inl trivial⟩, ht.holder, ?_⟩
    -- nothing has been called on the new dispatcher
    intro current hcurrent hcalled
    obtain rfl := some.inj hcurrent
    exact absurd hcalled Bool.false_ne_true
  | opportunisticReset =>
    intro t hstep
    have ht := hs.stable hstep.1
    refine ⟨.inr ⟨ht.holder, .inl trivial⟩, ht.holder, ?_⟩
    exact fun current hcurrent ↦ absurd hcurrent (some_ne_none current).symm
  | _ => exact hcalls

/-- A thread takes the mutex, runs a caller and gives the mutex back. -/
theorem withDispatcher_at {again next : L} (hs : s.memory.holder ≠ some thread) :
    (maskOutline ι L).At (daemonThreads plan) thread
      (withDispatcher thread caller again next) s := by
  intro t hstep
  refine ⟨.inl rfl, ?_⟩
  have hfree := hstep.1.free hs
  change Ensures _ _ _ _ (if ((daemonThreads plan).access thread (.lock thread) t).1 = 0
    then pure again else _) _
  rcases lock_cases thread t.memory with ⟨hnone, hexec⟩ | ⟨-, hexec⟩
  · have hanswer : ((daemonThreads plan).access thread (.lock thread) t).1 = 1 :=
      congrArg Prod.fst hexec
    have hmemory : ((daemonThreads plan).access thread (.lock thread) t).2.memory =
        { t.memory with holder := some thread } := congrArg Prod.snd hexec
    rw [hanswer, if_neg one_ne_zero]
    have hheld : HeldInOrder thread ((daemonThreads plan).access thread (.lock thread) t).2 := by
      constructor
      · rw [hmemory]
      · rw [hmemory]
        exact hstep.2 hnone
    refine (callerBody_at caller hheld).bind fun _ t1 ht1 ↦ ?_
    intro t2 hstep2
    have ht2 := ht1.stable hstep2.1
    refine ⟨.inr ⟨ht2.holder, .inr ⟨rfl, ht2.agrees⟩⟩, ?_⟩
    exact (some_ne_none thread).symm
  · have hanswer : ((daemonThreads plan).access thread (.lock thread) t).1 = 0 :=
      congrArg Prod.fst hexec
    have hmemory : ((daemonThreads plan).access thread (.lock thread) t).2.memory = t.memory :=
      congrArg Prod.snd hexec
    rw [hanswer, if_pos rfl]
    change ((daemonThreads plan).access thread (.lock thread) t).2.memory.holder ≠ some thread
    rw [hmemory]
    exact hfree

end Threads

/-! ### The system -/

/-- Threads take turns as they like. From outside nothing stores to the two words once a registry of
the dispatcher was changed. -/
def Undisturbed (c : Config ι (DispatcherOp ι) ℕ (ℕ × ℕ) (DispatcherWorld ι) fun _ ↦ L) :
    Turn ι (ℕ × ℕ) → Prop
  | .core _ => True
  | .act byte => Apart byte.1 1 (ctrlBase + ctrlOffActiveSlots) 8 ∨
      ∀ d ∈ c.scene.memory.dispatcher, d.called = false

instance (c : Config ι (DispatcherOp ι) ℕ (ℕ × ℕ) (DispatcherWorld ι) fun _ ↦ L) :
    (turn : Turn ι (ℕ × ℕ)) → Decidable (Undisturbed c turn)
  | .core _ => .isTrue trivial
  | .act _ => inferInstanceAs (Decidable (_ ∨ _))

/-- The daemon when it starts: no dispatcher, whatever L1 holds. -/
def daemonStart (l1 : Bytes) (l : ι → L) :
    Config ι (DispatcherOp ι) ℕ (ℕ × ℕ) (DispatcherWorld ι) fun _ ↦ L where
  scene := ⟨⟨l1, none, none⟩, []⟩
  rest thread := .done (l thread)

section System

variable [DecidableEq ι] {plan : ι → L → Caller × L}

theorem maskOutline_sound : (maskOutline ι L).Sound (daemonThreads plan) Undisturbed := by
  apply Outline.Sound.ofRely
  case hrefl => exact fun thread s ↦ .refl thread s.memory
  case htrans => exact fun _ _ _ _ h h' ↦ h.trans h'
  case hstable => exact fun _ _ _ _ hstep h ↦ hstep.free h
  case hloop => exact fun thread l s hinv h ↦ ⟨hinv, withDispatcher_at _ h⟩
  case hpass => exact fun _ other s _ ↦ .refl other s.memory
  case haccess =>
    intro c thread op next _ _ hguar h
    exact ⟨hguar.agrees h.inv, fun other hother ↦ .inl (hguar.relied hother)⟩
  case hact =>
    intro c byte hallowed h
    have hwords : WordsKept c.scene.memory ((daemonThreads plan).outside byte c.scene).memory := by
      intro d hd hcalled
      rcases hallowed with hapart | huncalled
      · constructor
        · exact readLE_writeLE_of_apart (hapart.symm.of_inside (by decide)).symm
        · exact readLE_writeLE_of_apart (hapart.symm.of_inside (by decide)).symm
      · rw [huncalled d hd] at hcalled
        exact absurd hcalled Bool.false_ne_true
    refine ⟨fun hnone ↦ (h.inv hnone).stable rfl hwords, fun thread ↦ .inl ?_⟩
    exact ⟨fun hheld ↦ ⟨hheld, rfl, hwords⟩, id⟩

/-- The active masks agree with the registries. Assumes: any number of threads, each running any
callers of the daemon in any order, from the start of the daemon with any content of L1; nothing but
the daemon stores to the two words once a registry of the dispatcher was changed. Whenever no thread
holds the mutex, and from the first call on the dispatcher on, CTRL_OFF_ACTIVE_VIRTIO_SLOTS has
exactly the bits of the registered virtio slots, and CTRL_OFF_ACTIVE_SLOTS those and the bits of the
registered UARTs. -/
theorem active_masks_agree (l1 : Bytes) (l : ι → L) {turns : List (Turn ι (ℕ × ℕ))}
    (hturns : (daemonThreads plan).Admits Undisturbed (daemonStart l1 l) turns)
    (hfree : ((daemonThreads plan).follow (daemonStart l1 l) turns).scene.memory.holder = none)
    {d : Dispatcher}
    (hd : ((daemonThreads plan).follow (daemonStart l1 l) turns).scene.memory.dispatcher = some d)
    (hcalled : d.called = true) :
    (∀ bit < numSlots,
      (activeVirtioSlots ((daemonThreads plan).follow (daemonStart l1 l) turns).scene.memory.l1
        ).testBit bit = true ↔ bit ∈ d.registry) ∧
    ∀ bit < numSlots,
      (activeSlots ((daemonThreads plan).follow (daemonStart l1 l) turns).scene.memory.l1
        ).testBit bit = true ↔
        bit ∈ d.registry ∨ ∃ l2cpu ∈ d.uartRegistry, bit = l2cpu.toNat * 8 + 6 := by
  have hstart : (maskOutline ι L).Holds (daemonThreads plan) (daemonStart l1 l) := ⟨fun _ d hd ↦
    absurd hd (some_ne_none d).symm, fun thread ↦ (some_ne_none thread).symm⟩
  obtain ⟨hactive, hvirtio⟩ := (maskOutline_sound.follow hstart hturns).inv hfree d hd hcalled
  rw [hactive, hvirtio]
  exact ⟨fun bit hbit ↦ d.testBit_virtioMask hbit, fun bit hbit ↦ d.testBit_mask hbit⟩

end System

/-- Threads with a list of callers each. -/
def nextCaller (_ : Bool) : List Caller → Caller × List Caller
  | [] => (.dispatchRemoveDisk [], [])
  | caller :: callers => (caller, callers)

/-- One thread boots a guest with an entropy device and a disk, another adds a network device to the
next guest. -/
def bootAndAddNet : Bool → List Caller
  | true => [.installEngine, .dispatchBoot 0 true true true false false false]
  | false => [.dispatchAddNet 1 true]

/-- The second thread asks for the mutex while the first one has it. -/
def contendedTurns : List (Turn Bool (ℕ × ℕ)) :=
  List.replicate 4 (.core true) ++ (List.replicate 12 [.core true, .core false]).flatten ++
    List.replicate 7 (.core true) ++ List.replicate 9 (.core false)

theorem active_masks_agree_contended :
    (∀ bit < numSlots, (activeVirtioSlots ((daemonThreads nextCaller).follow
        (daemonStart (fun _ ↦ 0) bootAndAddNet) contendedTurns).scene.memory.l1).testBit bit =
        true ↔ bit ∈ [9, 0, 3]) ∧
    ∀ bit < numSlots, (activeSlots ((daemonThreads nextCaller).follow
        (daemonStart (fun _ ↦ 0) bootAndAddNet) contendedTurns).scene.memory.l1).testBit bit =
        true ↔ bit ∈ [9, 0, 3] ∨ ∃ l2cpu ∈ [(0 : UInt8)], bit = l2cpu.toNat * 8 + 6 := by
  have hturns : (daemonThreads nextCaller).Admits Undisturbed
      (daemonStart (fun _ ↦ 0) bootAndAddNet) contendedTurns := by decide +kernel
  have hfree : ((daemonThreads nextCaller).follow (daemonStart (fun _ ↦ 0) bootAndAddNet)
      contendedTurns).scene.memory.holder = none := by decide +kernel
  have hd : ((daemonThreads nextCaller).follow (daemonStart (fun _ ↦ 0) bootAndAddNet)
      contendedTurns).scene.memory.dispatcher = some ⟨[9, 0, 3], [0], true⟩ := by decide +kernel
  exact active_masks_agree (fun _ ↦ 0) bootAndAddNet hturns hfree hd rfl

end Bhx.DataPlane
