import Mathlib.Algebra.GroupWithZero.Nat
import Bhx.SharedMemory.Fallible

/-!
# The shared chip

All four L2CPUs of a card run from one clock and are held in reset by one register. Releasing a core
goes through a sequence of single register accesses: the dividers of the clock are stepped down to
200 MHz, the release bit is set by a read and a write, and the dividers are stepped up to 1750 MHz.
`SharedChip` is what the threads of the daemon have in common for this: the registers, the window
they are reached through and the mutex `seq_lock`, which a thread holds over a whole sequence.

Each access is one operation here. It fails when the window is not open, which is so after a reset
of the board that did not come back. `set_frequency` turns a failed access into a panic, and a panic
while the mutex is held poisons it.

Scope. The sleep of a nanosecond between two steps of a divider and the log lines are left out. The
registers are those of PLL 4 and L2CPU_RESET; the window over other registers is not modelled.
-/

set_option autoImplicit false

namespace Bhx.Chip

open SharedMemory

/-! ### Registers -/

/-- An L2CPU of a card. -/
abbrev L2CpuIdx := Fin 4

/-- What the literals of L2CPUs are made with, in every module alike. -/
scoped instance l2cpus_neZero : NeZero 4 := ⟨by decide⟩

/-- PLL4_BASE. -/
def pll4Base : ℕ := 0x80020500
/-- PLL_CNTL_1. -/
def pllCntl1 : ℕ := 0x4
/-- PLL_CNTL_5. -/
def pllCntl5 : ℕ := 0x14
/-- L2CPU_RESET_ADDR. -/
def l2cpuResetAddr : ℕ := 0x80030014

/-- PLLCNTL1: two bytes that the daemon leaves alone, and the feedback divider. -/
@[ext]
structure PllCntl1 where
  refdiv : ℕ
  postdiv : ℕ
  fbdiv : ℕ
deriving DecidableEq, Repr

/-- `PllCntl1::from_u32`. -/
def PllCntl1.fromU32 (val : UInt32) : PllCntl1 where
  refdiv := val.toNat % 256
  postdiv := val.toNat / 256 % 256
  fbdiv := val.toNat / 65536 % 65536

/-- `PllCntl1::to_u32`. -/
def PllCntl1.toU32 (c : PllCntl1) : UInt32 :=
  UInt32.ofNat (c.refdiv + 256 * c.postdiv + 65536 * c.fbdiv)

/-- PLLCNTL5: the four post dividers. -/
@[ext]
structure PllCntl5 where
  postdiv : Fin 4 → ℕ

/-- `PllCntl5::from_u32`. -/
def PllCntl5.fromU32 (val : UInt32) : PllCntl5 where
  postdiv i := val.toNat / 256 ^ i.val % 256

/-- `PllCntl5::to_u32`. -/
def PllCntl5.toU32 (c : PllCntl5) : UInt32 :=
  UInt32.ofNat (c.postdiv 0 + 256 * c.postdiv 1 + 65536 * c.postdiv 2 + 16777216 * c.postdiv 3)

/-- The dividers with the post divider `i` changed. -/
def PllCntl5.set (c : PllCntl5) (i : Fin 4) (divider : ℕ) : PllCntl5 :=
  ⟨Function.update c.postdiv i divider⟩

/-- A frequency that has a solution. -/
inductive Frequency
  | mhz200
  | mhz1750
  | mhz15
deriving DecidableEq, Repr

/-- The feedback divider of `frequency_solution`. -/
def Frequency.fbdiv : Frequency → ℕ
  | .mhz200 => 128
  | .mhz1750 => 140
  | .mhz15 => 120

/-- Each of the four equal post dividers of `frequency_solution`. -/
def Frequency.postdiv : Frequency → ℕ
  | .mhz200 => 15
  | .mhz1750 => 1
  | .mhz15 => 99

/-! ### What the threads share -/

/-- A call of the daemon that holds `seq_lock` from its first access to its last. -/
inductive ChipCall
  | resetX280 (indices : List L2CpuIdx)
  | idlePll
deriving DecidableEq, Repr

/-- The chip and what guards it. `seqLock` is the thread that has the mutex with its call, and
`finished` are the calls that have given it back, newest first; nothing reads the call or `finished`
but statements. -/
structure ChipWorld (ι : Type) where
  regs : ℕ → UInt32
  inner : Bool
  seqLock : Option (ι × ChipCall)
  poisoned : Bool
  finished : List ChipCall

/-- The atomic steps of a thread. -/
inductive ChipOp (ι : Type)
  /-- Takes `seq_lock` if nobody has it and answers whether it did; a poisoned mutex gives no
  answer. -/
  | lock (thread : ι) (call : ChipCall)
  | unlock
  /-- A panic drops the guard of the mutex. -/
  | poison
  | arcRead32 (addr : ℕ)
  | arcWrite32 (addr : ℕ) (value : UInt32)

variable {ι : Type}

/-- The world after the mutex is given back. -/
def ChipWorld.release (w : ChipWorld ι) : ChipWorld ι :=
  { w with seqLock := none, finished := (w.seqLock.map Prod.snd).toList ++ w.finished }

/-- The effect and the answer of a step. -/
def chipExec : ChipOp ι → ChipWorld ι → Option UInt32 × ChipWorld ι
  | .lock thread call, w =>
    if w.poisoned then (none, w)
    else if w.seqLock.isNone then (some 1, { w with seqLock := some (thread, call) })
    else (some 0, w)
  | .unlock, w => (some 0, w.release)
  | .poison, w => (some 0, { w.release with poisoned := true })
  | .arcRead32 addr, w => (if w.inner then some (w.regs addr) else none, w)
  | .arcWrite32 addr value, w =>
    if w.inner then (some 0, { w with regs := Function.update w.regs addr value }) else (none, w)

/-! ### The sequences -/

/-- How a sequence ends early: with an error that its caller gets, with a panic, or never, because
the thread still waits for a mutex. -/
inductive Failure
  | error
  | panic
  | waiting
deriving DecidableEq, Repr

/-- A sequence of accesses that may fail. -/
abbrev ChipM (ι α : Type) := Fallible (ChipOp ι) (Option UInt32) Failure α

/-- `arc_read32`. -/
def arcRead32 (addr : ℕ) : ChipM ι UInt32 := Fallible.perform .error (.arcRead32 addr)

/-- `arc_write32`. -/
def arcWrite32 (addr : ℕ) (value : UInt32) : ChipM ι Unit := do
  let _ ← Fallible.perform .error (.arcWrite32 addr value)

/-- `pll_read32`. -/
def pllRead32 (addr : ℕ) : ChipM ι UInt32 := Fallible.perform .panic (.arcRead32 addr)

/-- `pll_write32`. -/
def pllWrite32 (addr : ℕ) (value : UInt32) : ChipM ι Unit := do
  let _ ← Fallible.perform .panic (.arcWrite32 addr value)

/-- The loops of `set_frequency`: as long as the divider has a next value, it is stepped and stored.
`steps` bounds the rounds. -/
def stepDivider (next : ℕ → Option ℕ) (store : ℕ → ChipM ι Unit) : ℕ → ℕ → ChipM ι ℕ
  | 0, divider => pure divider
  | steps + 1, divider =>
    match next divider with
    | none => pure divider
    | some divider' => do
      store divider'
      stepDivider next store steps divider'

/-- Step 1: a post divider below its target goes up by one. -/
def raise (target divider : ℕ) : Option ℕ := if divider < target then some (divider + 1) else none

/-- Step 2: the feedback divider goes one step toward its target. -/
def approach (target divider : ℕ) : Option ℕ :=
  if divider ≠ target then some (if target > divider then divider + 1 else divider - 1) else none

/-- Step 3: a post divider above its target goes down by one. -/
def lower (target divider : ℕ) : Option ℕ := if divider > target then some (divider - 1) else none

/-- One post divider in step 1 or step 3: a byte takes at most 255 steps. -/
def stepPostdiv (next : ℕ → Option ℕ) (current : PllCntl5) (i : Fin 4) : ChipM ι PllCntl5 := do
  let divider ← stepDivider next
    (fun divider ↦ pllWrite32 (pll4Base + pllCntl5) (current.set i divider).toU32) 255
    (current.postdiv i)
  pure (current.set i divider)

/-- `set_frequency`. -/
def setFrequency (frequency : Frequency) : ChipM ι Unit := do
  let postdivs := PllCntl5.fromU32 (← pllRead32 (pll4Base + pllCntl5))
  let cntl1 := PllCntl1.fromU32 (← pllRead32 (pll4Base + pllCntl1))
  let raised ← (List.finRange 4).foldlM (stepPostdiv (raise frequency.postdiv)) postdivs
  let _ ← stepDivider (approach frequency.fbdiv)
    (fun fbdiv ↦ pllWrite32 (pll4Base + pllCntl1) { cntl1 with fbdiv := fbdiv }.toU32) 65535
    cntl1.fbdiv
  let _ ← (List.finRange 4).foldlM (stepPostdiv (lower frequency.postdiv)) raised

/-- The release bits of some L2CPUs. -/
def releaseMask (indices : List L2CpuIdx) : UInt32 :=
  indices.foldl (fun mask i ↦ mask ||| 1 <<< UInt32.ofNat (i.val + 4)) 0

/-- `apply_release_bits`. -/
def applyReleaseBits (indices : List L2CpuIdx) : ChipM ι Unit := do
  let before ← arcRead32 l2cpuResetAddr
  arcWrite32 l2cpuResetAddr (before ||| releaseMask indices)

/-- `reset_x280` with the mutex. -/
def resetX280 (indices : List L2CpuIdx) : ChipM ι Unit := do
  setFrequency .mhz200
  applyReleaseBits indices
  let _ ← arcRead32 l2cpuResetAddr
  setFrequency .mhz1750

/-- `idle_pll` with the mutex. -/
def idlePll : ChipM ι Unit := setFrequency .mhz200

/-- What a call does with the mutex. -/
def ChipCall.body : ChipCall → ChipM ι Unit
  | .resetX280 indices => Chip.resetX280 indices
  | .idlePll => Chip.idlePll

/-- The mutex is given back when a call is over, and poisoned when it panics. -/
def dropGuard (result : Except Failure Unit) : Program (ChipOp ι) (Option UInt32) Unit := do
  let _ ← Program.perform (if result = .error .panic then .poison else .unlock)

/-- A thread asks for the mutex once and runs a call when it gets it. There is no result when
another thread has the mutex. -/
def ChipCall.attempt (thread : ι) (call : ChipCall) :
    Program (ChipOp ι) (Option UInt32) (Option (Except Failure Unit)) := do
  let answer ← Program.perform (.lock thread call)
  if answer = none then pure (some (.error .panic))
  else if answer = some 0 then pure none
  else do
    let result ← call.body.run
    dropGuard result
    pure (some result)

/-- A thread asks for the mutex until it gets it. `patience` bounds how often; a thread that still
does not have it waits. -/
def ChipCall.run (thread : ι) (call : ChipCall) :
    ℕ → Program (ChipOp ι) (Option UInt32) (Except Failure Unit)
  | 0 => pure (.error .waiting)
  | patience + 1 => do
    let result ← call.attempt thread
    match result with
    | some result => pure result
    | none => call.run thread patience

/-- `l2cpu_is_running`. -/
def l2cpuIsRunning (idx : L2CpuIdx) : ChipM ι Bool := do
  let val ← arcRead32 l2cpuResetAddr
  pure (val >>> UInt32.ofNat (idx.val + 4) &&& 1 = 1)

end Bhx.Chip
