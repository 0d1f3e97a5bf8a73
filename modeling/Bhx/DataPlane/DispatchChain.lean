import Bhx.Machine.L1Layout
import Bhx.Virtqueue.ChainWalk

/-!
# Dispatching a queue

`dispatchChain` of `tensix_data_plane.rs`: read the queue's addresses and size from its shadow in
BRISC L1, refuse a configuration that is unset, too large or out of the guest's memory, and call
`processOneChainForQueue` until a call posts nothing; then raise the interrupt and read back
`used.idx`.

The checks on the shadow words are a function of their values (`configure`), which builds the
`QueueView` that the walk needs. The drain loop re-reads `avail.idx` on every pass and has no bound
of its own, so `drainQueue` takes the number of passes it may make, and a dispatch reports whether
it returned within them (`Dispatched.returned`).

Scope. `interrupt_number` is at least 5 in every registration, so the assertion of `set_interrupt`
is not modelled; neither are log output, metrics and the latch delay of the PLIC write.
-/

set_option autoImplicit false

namespace Bhx.DataPlane

open SharedMemory Machine L1Layout Virtqueue

variable {queueIdx slot : ℕ} {rely : World → World → Prop} {kept : World → Prop} {view : QueueView}
  {w w' : World}

/-- The DRAM window of an L2CPU. -/
structure L2Cpu where
  idx : ℕ
  startingAddress : ℕ
  memorySize : ℕ
  /-- The window ends below the top of the 64-bit address space. -/
  window_lt : startingAddress + memorySize < 2 ^ 64 - 1

/-- `starting + memory_size`. -/
def L2Cpu.memEnd (l2cpu : L2Cpu) : ℕ := l2cpu.startingAddress + l2cpu.memorySize

/-- The four L2CPUs of the chip: `L2CPU_STARTING_ADDRESS` and `L2CPU_MEMORY_SIZE`. -/
def L2Cpu.ofIdx : Fin 4 → L2Cpu
  | 0 => ⟨0, 0x400030000000, 0x100000000, by decide⟩
  | 1 => ⟨1, 0x400030000000, 0x100000000, by decide⟩
  | 2 => ⟨2, 0x400030000000, 0x80000000, by decide⟩
  | 3 => ⟨3, 0x4000b0000000, 0x80000000, by decide⟩

/-- The kinds of device models. -/
inductive InterruptKind
  | block | net | console | rng
deriving DecidableEq, Repr

/-- A registered device. The cursors `processed` are in the world; `numQueues` is their number. -/
structure RegEntry (D : Type) where
  slot : ℕ
  l2cpu : L2Cpu
  device : D
  interruptNumber : ℕ
  interruptKind : InterruptKind
  numQueues : ℕ

/-! ### The configuration of a queue -/

/-- The words of a queue's shadow that a dispatch reads, in the order of the reads. -/
structure ShadowWords where
  descLo : ℕ
  descHi : ℕ
  availLo : ℕ
  availHi : ℕ
  usedLo : ℕ
  usedHi : ℕ
  queueNum : ℕ
deriving DecidableEq, Repr

/-- `in_range` of a dispatch. -/
def L2Cpu.inRange (l2cpu : L2Cpu) (addr size : ℕ) : Bool :=
  l2cpu.startingAddress ≤ addr && saturatingAdd addr size ≤ l2cpu.memEnd

/-- The saturation cannot hide an overflow, since a window ends below the saturated value. -/
theorem L2Cpu.inRange_iff (l2cpu : L2Cpu) (addr size : ℕ) :
    l2cpu.inRange addr size = true ↔ l2cpu.startingAddress ≤ addr ∧ addr + size ≤ l2cpu.memEnd := by
  have hwindow : l2cpu.memEnd < 2 ^ 64 - 1 := l2cpu.window_lt
  rw [L2Cpu.inRange, Bool.and_eq_true, decide_eq_true_iff, decide_eq_true_iff]
  unfold saturatingAdd
  omega

/-- The checks of a dispatch on the shadow words. -/
def configure (slot : ℕ) (l2cpu : L2Cpu) (queueIdx : ℕ) (words : ShadowWords) :
    Option QueueView :=
  let descAddr := words.descHi * 2 ^ 32 + words.descLo
  let availAddr := words.availHi * 2 ^ 32 + words.availLo
  let usedAddr := words.usedHi * 2 ^ 32 + words.usedLo
  if descAddr = 0 ∨ availAddr = 0 ∨ usedAddr = 0 then none
  else if h : 0 < words.queueNum ∧ words.queueNum < 2 ^ 16 then
    if l2cpu.inRange descAddr 16 && l2cpu.inRange availAddr 4 &&
        l2cpu.inRange usedAddr 4 then
      some {
        id := ⟨slot, queueIdx, l2cpu.idx⟩
        descQ := descAddr
        availQ := availAddr
        usedQ := usedAddr
        queueNum := words.queueNum
        startingAddress := l2cpu.startingAddress
        memEnd := l2cpu.memEnd
        queueNum_pos := h.1
        queueNum_lt := h.2 }
    else none
  else none

/-- What a dispatch has checked when it accepts a configuration. -/
structure ConfigureSpec (slot : ℕ) (l2cpu : L2Cpu) (queueIdx : ℕ) (words : ShadowWords)
    (view : QueueView) : Prop where
  id_eq : view.id = ⟨slot, queueIdx, l2cpu.idx⟩
  descQ_eq : view.descQ = words.descHi * 2 ^ 32 + words.descLo
  availQ_eq : view.availQ = words.availHi * 2 ^ 32 + words.availLo
  usedQ_eq : view.usedQ = words.usedHi * 2 ^ 32 + words.usedLo
  queueNum_eq : view.queueNum = words.queueNum
  startingAddress_eq : view.startingAddress = l2cpu.startingAddress
  memEnd_eq : view.memEnd = l2cpu.memEnd
  desc_inRange : l2cpu.inRange view.descQ 16 = true
  avail_inRange : l2cpu.inRange view.availQ 4 = true
  used_inRange : l2cpu.inRange view.usedQ 4 = true

theorem configure_spec {l2cpu : L2Cpu} {words : ShadowWords}
    (h : configure slot l2cpu queueIdx words = some view) :
    ConfigureSpec slot l2cpu queueIdx words view := by
  simp only [configure] at h
  split_ifs at h with hzero hnum hrange
  rw [Option.some.injEq] at h
  subst h
  rw [Bool.and_eq_true, Bool.and_eq_true] at hrange
  exact ⟨rfl, rfl, rfl, rfl, rfl, rfl, rfl, hrange.1.1, hrange.1.2, hrange.2⟩

/-- The reads of a queue's shadow. -/
def readShadow (slot queueIdx : ℕ) : Prog ShadowWords := do
  let descLo ← Program.perform (.l1Load (shadowQueueAddr slot queueIdx shadowQOffDescLo) 4)
  let descHi ← Program.perform (.l1Load (shadowQueueAddr slot queueIdx shadowQOffDescHi) 4)
  let availLo ← Program.perform (.l1Load (shadowQueueAddr slot queueIdx shadowQOffDriverLo) 4)
  let availHi ← Program.perform (.l1Load (shadowQueueAddr slot queueIdx shadowQOffDriverHi) 4)
  let usedLo ← Program.perform (.l1Load (shadowQueueAddr slot queueIdx shadowQOffDeviceLo) 4)
  let usedHi ← Program.perform (.l1Load (shadowQueueAddr slot queueIdx shadowQOffDeviceHi) 4)
  let queueNum ← Program.perform (.l1Load (shadowQueueAddr slot queueIdx shadowQOffNum) 4)
  pure ⟨descLo, descHi, availLo, availHi, usedLo, usedHi, queueNum⟩

/-- The shadow words that L1 holds for a queue. -/
def shadowWords (l1 : Bytes) (slot queueIdx : ℕ) : ShadowWords where
  descLo := readLE l1 (shadowQueueAddr slot queueIdx shadowQOffDescLo) 4
  descHi := readLE l1 (shadowQueueAddr slot queueIdx shadowQOffDescHi) 4
  availLo := readLE l1 (shadowQueueAddr slot queueIdx shadowQOffDriverLo) 4
  availHi := readLE l1 (shadowQueueAddr slot queueIdx shadowQOffDriverHi) 4
  usedLo := readLE l1 (shadowQueueAddr slot queueIdx shadowQOffDeviceLo) 4
  usedHi := readLE l1 (shadowQueueAddr slot queueIdx shadowQOffDeviceHi) 4
  queueNum := readLE l1 (shadowQueueAddr slot queueIdx shadowQOffNum) 4

/-- The words of a queue's shadow are the same in two worlds. -/
def ShadowKept (slot queueIdx : ℕ) (w w' : World) : Prop :=
  ∀ a, shadowQueueAddr slot queueIdx 0 ≤ a → a < shadowQueueAddr slot queueIdx shadowPerQueue →
    w'.l1 a = w.l1 a

section

variable (h : ShadowKept slot queueIdx w w')
include h

theorem ShadowKept.readLE_eq {offset : ℕ} (hoffset : offset + 4 ≤ shadowPerQueue) :
    readLE w'.l1 (shadowQueueAddr slot queueIdx offset) 4 =
      readLE w.l1 (shadowQueueAddr slot queueIdx offset) 4 := by
  refine readLE_congr fun a hlow hhigh ↦ h a ?_ ?_
  · unfold shadowQueueAddr at *
    omega
  · unfold shadowQueueAddr at *
    omega

theorem ShadowKept.trans {w'' : World} (h' : ShadowKept slot queueIdx w' w'') :
    ShadowKept slot queueIdx w w'' :=
  fun a hlow hhigh ↦ (h' a hlow hhigh).trans (h a hlow hhigh)

theorem shadowWords_eq : shadowWords w'.l1 slot queueIdx = shadowWords w.l1 slot queueIdx := by
  unfold shadowWords
  rw [h.readLE_eq (by decide), h.readLE_eq (by decide), h.readLE_eq (by decide), h.readLE_eq
    (by decide), h.readLE_eq (by decide), h.readLE_eq (by decide), h.readLE_eq (by decide)]

end

/-- The reads of a shadow that interference keeps answer its words, and a property that the
interference and reads of L1 keep holds after them. -/
theorem readShadow_ensures (hshadow : ∀ s s', rely s s' → ShadowKept slot queueIdx s s')
    (hkept : ∀ s s', kept s → rely s s' → kept s')
    (hload : ∀ s addr size, kept s → kept (exec (.l1Load addr size) s).2) (hw : kept w) :
    Ensures exec rely (fun op _ ↦ ∃ addr size, op = .l1Load addr size)
      (fun words s ↦ words = shadowWords w.l1 slot queueIdx ∧ kept s)
      (readShadow slot queueIdx) w := by
  have hword : ∀ s offset, offset + 4 ≤ shadowPerQueue → ShadowKept slot queueIdx w s → kept s →
      Ensures exec rely (fun op _ ↦ ∃ addr size, op = .l1Load addr size) (fun answer t ↦ answer =
      readLE w.l1 (shadowQueueAddr slot queueIdx offset) 4 ∧ ShadowKept slot queueIdx w t ∧ kept t)
      (Program.perform (.l1Load (shadowQueueAddr slot queueIdx offset) 4)) s := by
    intro s offset hoffset hs hkept' s' hrely
    have hs' := hs.trans (hshadow s s' hrely)
    exact ⟨⟨_, _, rfl⟩, hs'.readLE_eq hoffset, hs', hload _ _ _ (hkept s s' hkept' hrely)⟩
  refine (hword w _ (by decide) (fun _ _ _ ↦ rfl) hw).bind fun descLo s1 ⟨h1, hs1, hk1⟩ ↦ ?_
  refine (hword s1 _ (by decide) hs1 hk1).bind fun descHi s2 ⟨h2, hs2, hk2⟩ ↦ ?_
  refine (hword s2 _ (by decide) hs2 hk2).bind fun availLo s3 ⟨h3, hs3, hk3⟩ ↦ ?_
  refine (hword s3 _ (by decide) hs3 hk3).bind fun availHi s4 ⟨h4, hs4, hk4⟩ ↦ ?_
  refine (hword s4 _ (by decide) hs4 hk4).bind fun usedLo s5 ⟨h5, hs5, hk5⟩ ↦ ?_
  refine (hword s5 _ (by decide) hs5 hk5).bind fun usedHi s6 ⟨h6, hs6, hk6⟩ ↦ ?_
  refine (hword s6 _ (by decide) hs6 hk6).bind fun queueNum s7 ⟨h7, _, hk7⟩ ↦ ?_
  subst h1 h2 h3 h4 h5 h6 h7
  exact ⟨rfl, hk7⟩

/-! ### The dispatch -/

/-- What a dispatch leaves: the device model's state, whether it returned within the passes it was
allowed, and the `used.idx` it read back when it posted something. -/
structure Dispatched (D : Type) where
  device : D
  returned : Bool
  usedIdx : Option ℕ

section Dispatch

variable {D : Type} (device : VirtioDevice D)

/-- The drain loop: the state of the device model, whether the loop ended, and `posted`. -/
def drainQueue (view : QueueView) (queueHeaderSize : ℕ) :
    (passes : ℕ) → (posted : Bool) → D → Prog (D × Bool × Bool)
  | 0, posted, state => pure (state, false, posted)
  | passes + 1, posted, state => do
    let reply ← processOneChainForQueue device view queueHeaderSize state
    if reply.2 then drainQueue view queueHeaderSize passes true reply.1
    else pure (reply.1, true, posted)

/-- `InterruptController::set_interrupt`. -/
def setInterrupt (entry : RegEntry D) : Prog Unit := do
  let statusAddr := slotRegsBase entry.slot + mmioInterruptStatus
  let status ← Program.perform (.l1Load statusAddr 4)
  let _ ← Program.perform (.l1Store statusAddr 4 (1 ||| status))
  let _ ← Program.perform (.plicStore entry.l2cpu.idx (2 ^ (entry.interruptNumber - 5)))
  let _ ← Program.perform (.plicStore entry.l2cpu.idx 0)
  pure ()

/-- The end of a dispatch: the interrupt and the read of `used.idx`. -/
def announce (entry : RegEntry D) (view : QueueView) (drained : D × Bool × Bool) :
    Prog (Dispatched D) :=
  if drained.2.1 && drained.2.2 then do
    setInterrupt entry
    let usedIdx ← Program.perform (.ringLoad view.id .usedIdx view.usedIdxAddr 2)
    pure ⟨drained.1, true, some usedIdx⟩
  else pure ⟨drained.1, drained.2.1, none⟩

/-- `dispatch_chain`, with a bound on the passes of its drain loop. -/
def dispatchChain (passes : ℕ) (entry : RegEntry D) (queueIdx : ℕ) : Prog (Dispatched D) :=
  if entry.numQueues ≤ queueIdx then pure ⟨entry.device, true, none⟩
  else do
    let words ← readShadow entry.slot queueIdx
    match configure entry.slot entry.l2cpu queueIdx words with
    | none => pure ⟨entry.device, true, none⟩
    | some view => do
      let drained ← drainQueue device view (device.queueHeaderSize entry.device) passes false
        entry.device
      announce entry view drained

variable {device}

/-- A dispatch of a queue whose shadow holds an accepted configuration drains that queue. -/
theorem dispatchChain_ensures {guarantee : Op → World → Prop} {post : Dispatched D → World → Prop}
    {passes : ℕ} {entry : RegEntry D} (hqueue : queueIdx < entry.numQueues)
    (hview : configure entry.slot entry.l2cpu queueIdx (shadowWords w.l1 entry.slot queueIdx) =
      some view) (hshadow : ∀ s s', rely s s' → ShadowKept entry.slot queueIdx s s')
    (hkept : ∀ s s', kept s → rely s s' → kept s')
    (hload : ∀ s addr size, kept s → kept (exec (.l1Load addr size) s).2)
    (hloads : ∀ addr size s, guarantee (.l1Load addr size) s) (hw : kept w)
    (hdrain : ∀ s, kept s → Ensures exec rely guarantee post
      (do
        let drained ← drainQueue device view (device.queueHeaderSize entry.device) passes false
          entry.device
        announce entry view drained) s) :
    Ensures exec rely guarantee post (dispatchChain device passes entry queueIdx) w := by
  have hread := readShadow_ensures hshadow hkept hload hw
  rw [dispatchChain, if_neg (Nat.not_le_of_lt hqueue)]
  refine (hread.mono (fun _ _ h ↦ h) ?_ fun _ _ h ↦ h).bind ?_
  · rintro op s ⟨addr, size, rfl⟩
    exact hloads addr size s
  · rintro words s ⟨rfl, hs⟩
    rw [hview]
    exact hdrain s hs

end Dispatch

end Bhx.DataPlane
