import Mathlib.Logic.Function.Basic
import Mathlib.Algebra.GroupWithZero.Nat
import Bhx.Machine.L1Layout

/-!
# A guest's window onto the engine

A guest reaches the engine's L1 through a small TLB window of its own L2CPU, which the daemon
programs at boot (`programL2CpuTlb` over `programSmallTlbUnicast`). The window begins at the
register files of the L2CPU's virtio slots, and the daemon's layout puts the UART at a fixed
distance behind (`uartPaFromEngineBase`). `guestUartTarget` composes the four layers: window base,
TLB entry, offset and the translation that the L2CPU makes.

`guestUartTarget_eq` is the composition computed: the window bases of two L2CPUs are 32 KiB apart,
and so are the UARTs that their guests see.

Scope. `translate` is the L2CPU's own translation of an uncached small window, as the source
describes it. Large windows, the multicast fields and the ordering bits play no part.
-/

set_option autoImplicit false

namespace Bhx.Uart

open Machine.L1Layout

/-! ### Small windows -/

/-- What the literals of coordinates are made with. -/
scoped instance coordinates_neZero : NeZero 64 := ⟨by decide⟩

/-- The coordinates of a tile. -/
structure Tile where
  x : Fin 64
  y : Fin 64
deriving DecidableEq, Repr

/-- The four configuration words of a small window. -/
structure SmallTlb where
  localOffsetLo : ℕ
  localOffsetHi : ℕ
  propsLo : ℕ
  propsHi : ℕ
deriving DecidableEq, Repr

/-- A location on the NoC. -/
structure NocAddr where
  tile : Tile
  addr : ℕ
deriving DecidableEq, Repr

def smallTlbCount : ℕ := 224

def smallTlbWindowBaseUc : ℕ := 0x430000000

def smallTlbWindowShift : ℕ := 21

def smallTlbWindowSize : ℕ := 1 <<< smallTlbWindowShift

def sharedTlbSlot : ℕ := 0

/-- `program_small_tlb_unicast`: the words it writes for window `idx`, and the physical address it
returns. -/
def programSmallTlbUnicast (idx targetX targetY nocAddr : ℕ) : SmallTlb × ℕ :=
  let alignedNoc := nocAddr - nocAddr % smallTlbWindowSize
  let inWindowOffset := nocAddr - alignedNoc
  let localOffset := alignedNoc >>> smallTlbWindowShift
  let propsLo := (targetX &&& 0x3f) ||| ((targetY &&& 0x3f) <<< 6)
  (⟨localOffset % 2 ^ 32, (localOffset >>> 32) % 2 ^ 32, propsLo, 0⟩,
    smallTlbWindowBaseUc + idx * smallTlbWindowSize + inWindowOffset)

/-- Where a window leads. -/
def SmallTlb.lead (tlb : SmallTlb) (offset : ℕ) : NocAddr :=
  ⟨⟨Fin.ofNat 64 tlb.propsLo, Fin.ofNat 64 (tlb.propsLo >>> 6)⟩,
    ((tlb.localOffsetHi <<< 32 + tlb.localOffsetLo) <<< smallTlbWindowShift) + offset⟩

/-- The translation of a physical address in the small windows. -/
def translate (tlbs : ℕ → SmallTlb) (pa : ℕ) : Option NocAddr :=
  if smallTlbWindowBaseUc ≤ pa ∧ pa < smallTlbWindowBaseUc + smallTlbCount * smallTlbWindowSize then
    let offset := pa - smallTlbWindowBaseUc
    some ((tlbs (offset / smallTlbWindowSize)).lead (offset % smallTlbWindowSize))
  else
    none

/-! ### The UART of a guest -/

/-- `TensixEngine::program_l2cpu_tlb`: the windows of the L2CPU and its engine base. -/
def programL2CpuTlb (tile : Tile) (tlbs : ℕ → SmallTlb) (l2cpu : ℕ) : (ℕ → SmallTlb) × ℕ :=
  let programmed := programSmallTlbUnicast sharedTlbSlot tile.x tile.y (l2cpuWindowBase l2cpu)
  (Function.update tlbs sharedTlbSlot programmed.1, programmed.2)

/-- `uart_pa_from_engine_base`. -/
def uartPaFromEngineBase (engineBase : ℕ) : ℕ := engineBase + uartOffsetFromEngineBase

/-- What a guest reaches at an offset of its UART's register file. -/
def guestUartTarget (tile : Tile) (tlbs : ℕ → SmallTlb) (l2cpu offset : ℕ) : Option NocAddr :=
  let (windows, engineBase) := programL2CpuTlb tile tlbs l2cpu
  translate windows (uartPaFromEngineBase engineBase + offset)

/-- The configuration words lead back to the tile they were made for. -/
theorem lead_programSmallTlbUnicast (idx : ℕ) (tile : Tile) {nocAddr : ℕ}
    (h : nocAddr < smallTlbWindowSize) (offset : ℕ) :
    (programSmallTlbUnicast idx tile.x tile.y nocAddr).1.lead offset = ⟨tile, offset⟩ := by
  have hx : (tile.x : ℕ) &&& 0x3f = tile.x :=
    (Nat.and_two_pow_sub_one_eq_mod tile.x 6).trans (Nat.mod_eq_of_lt tile.x.isLt)
  have hy : (tile.y : ℕ) &&& 0x3f = tile.y :=
    (Nat.and_two_pow_sub_one_eq_mod tile.y 6).trans (Nat.mod_eq_of_lt tile.y.isLt)
  have hprops : (tile.x : ℕ) ||| (tile.y : ℕ) <<< 6 = 64 * tile.y + tile.x := by
    rw [Nat.or_comm, ← Nat.shiftLeft_add_eq_or_of_lt tile.x.isLt, Nat.shiftLeft_eq, Nat.mul_comm]
  have hlow : nocAddr - nocAddr % smallTlbWindowSize = 0 := by
    rw [Nat.mod_eq_of_lt h, Nat.sub_self]
  simp only [programSmallTlbUnicast, SmallTlb.lead, hx, hy, hprops, hlow]
  congr 2
  · ext
    simp only [Fin.val_ofNat]
    omega
  · ext
    simp only [Fin.val_ofNat, Nat.shiftRight_eq_div_pow]
    omega
  · simp

/-- Assumes: one of the four L2CPUs and an offset in its register file. A guest reaches the engine
tile, at the fixed offset from its own window. -/
theorem guestUartTarget_eq (tile : Tile) (tlbs : ℕ → SmallTlb) {l2cpu offset : ℕ}
    (hl2cpu : l2cpu < numL2Cpus) (hoffset : offset < uartRegFileSize) :
    guestUartTarget tile tlbs l2cpu offset =
      some ⟨tile, l2cpuWindowBase l2cpu + uartOffsetFromEngineBase + offset⟩ := by
  have hbase : l2cpuWindowBase l2cpu < smallTlbWindowSize := by
    unfold numL2Cpus at hl2cpu
    simp only [l2cpuWindowBase, regsBase, perL2CpuWindowSize, devsPerL2Cpu, regsPerDev,
      smallTlbWindowSize, smallTlbWindowShift, Nat.shiftLeft_eq]
    omega
  have htarget : l2cpuWindowBase l2cpu + uartOffsetFromEngineBase + offset <
      smallTlbWindowSize := by
    unfold numL2Cpus at hl2cpu
    unfold uartRegFileSize at hoffset
    simp only [l2cpuWindowBase, regsBase, perL2CpuWindowSize, devsPerL2Cpu, regsPerDev,
      uartOffsetFromEngineBase, smallTlbWindowSize, smallTlbWindowShift, Nat.shiftLeft_eq]
    omega
  have hengine : (programSmallTlbUnicast sharedTlbSlot tile.x tile.y (l2cpuWindowBase l2cpu)).2 =
      smallTlbWindowBaseUc + l2cpuWindowBase l2cpu := by
    simp only [programSmallTlbUnicast, sharedTlbSlot, Nat.mod_eq_of_lt hbase, Nat.sub_self,
      Nat.zero_mul, Nat.sub_zero, Nat.add_zero]
  have hpa : smallTlbWindowBaseUc + l2cpuWindowBase l2cpu + uartOffsetFromEngineBase + offset -
      smallTlbWindowBaseUc = l2cpuWindowBase l2cpu + uartOffsetFromEngineBase + offset := by
    omega
  have hcount : smallTlbWindowSize ≤ smallTlbCount * smallTlbWindowSize := by decide
  simp only [guestUartTarget, programL2CpuTlb, uartPaFromEngineBase, hengine, translate, hpa]
  rw [if_pos ⟨by omega, by omega⟩, Nat.div_eq_of_lt htarget, Nat.mod_eq_of_lt htarget]
  change some ((Function.update tlbs sharedTlbSlot _ sharedTlbSlot).lead _) = _
  rw [Function.update_self, lead_programSmallTlbUnicast sharedTlbSlot tile hbase]

end Bhx.Uart
