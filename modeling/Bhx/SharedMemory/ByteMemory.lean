import Mathlib.Data.Nat.ModEq
import Mathlib.Tactic.Ring

/-!
# Byte memories and little-endian words

A memory assigns a byte to every address. `readLE` reads a little-endian word of any number of
bytes as a natural number and `writeLE` stores the low bytes of one. The two laws a program proof
uses are that a word just stored reads back reduced to its width (`readLE_writeLE_self`) and that
a store does not change a word it does not meet (`readLE_writeLE_of_apart`); both come from
`readLE_congr`, which says that a read depends only on the bytes it covers.

`Apart` and `Inside` relate byte ranges `[addr, addr + size)`.
-/

set_option autoImplicit false

namespace Bhx.SharedMemory

/-- A byte for every address. -/
abbrev Bytes := ℕ → UInt8

/-- The little-endian word of `size` bytes at `addr`. -/
def readLE (bytes : Bytes) (addr : ℕ) : (size : ℕ) → ℕ
  | 0 => 0
  | size + 1 => (bytes addr).toNat + 256 * readLE bytes (addr + 1) size

/-- Stores the low `size` bytes of `value` at `addr`, least significant first. -/
def writeLE (bytes : Bytes) (addr size value : ℕ) : Bytes := fun a ↦
  if addr ≤ a ∧ a < addr + size then UInt8.ofNat (value / 256 ^ (a - addr)) else bytes a

/-- The bytes of a word, least significant first. -/
def leBytes : (size value : ℕ) → List UInt8
  | 0, _ => []
  | size + 1, value => UInt8.ofNat value :: leBytes size (value / 256)

/-- The word with the given bytes, least significant first. -/
def leWord : List UInt8 → ℕ
  | [] => 0
  | byte :: bytes => byte.toNat + 256 * leWord bytes

/-- Memory with the given words stored in it, each as address, width and value. -/
def memoryWith (words : List (ℕ × ℕ × ℕ)) : Bytes :=
  words.foldl (fun bytes word ↦ writeLE bytes word.1 word.2.1 word.2.2) fun _ ↦ 0

/-- The byte ranges `[addr, addr + size)` and `[base, base + extent)` share no byte. -/
def Apart (addr size base extent : ℕ) : Prop :=
  addr + size ≤ base ∨ base + extent ≤ addr

instance (addr size base extent : ℕ) : Decidable (Apart addr size base extent) :=
  inferInstanceAs (Decidable (_ ∨ _))

/-- The byte range `[addr, addr + size)` lies in `[base, base + extent)`. -/
def Inside (addr size base extent : ℕ) : Prop :=
  base ≤ addr ∧ addr + size ≤ base + extent

instance (addr size base extent : ℕ) : Decidable (Inside addr size base extent) :=
  inferInstanceAs (Decidable (_ ∧ _))

theorem Apart.ne {addr size base extent : ℕ} (h : Apart addr size base extent) (hsize : 0 < size)
    (hextent : 0 < extent) : addr ≠ base := by
  unfold Apart at h
  omega

theorem Apart.symm {addr size base extent : ℕ} (h : Apart addr size base extent) :
    Apart base extent addr size := by
  unfold Apart at *
  omega

/-- A range inside one that is apart from a third is apart from it too. -/
theorem Apart.of_inside {addr size base extent other width : ℕ}
    (h : Apart base extent other width) (hinside : Inside addr size base extent) :
    Apart addr size other width := by
  unfold Apart Inside at *
  omega

variable (bytes : Bytes)

theorem readLE_lt (addr size : ℕ) : readLE bytes addr size < 256 ^ size := by
  induction size generalizing addr with
  | zero => simp [readLE]
  | succ size ih =>
    have hbyte : (bytes addr).toNat < 256 := (bytes addr).toNat_lt
    have hrest := ih (addr + 1)
    rw [readLE, pow_succ]
    omega

/-- A read depends only on the bytes it covers. -/
theorem readLE_congr {first second : Bytes} {addr size : ℕ}
    (h : ∀ a, addr ≤ a → a < addr + size → first a = second a) :
    readLE first addr size = readLE second addr size := by
  induction size generalizing addr with
  | zero => rfl
  | succ size ih =>
    rw [readLE, readLE, h addr le_rfl (by omega), ih fun a hlow hhigh ↦ h a (by omega) (by omega)]

theorem writeLE_apply_of_not_mem {bytes : Bytes} {addr size value a : ℕ}
    (h : ¬ (addr ≤ a ∧ a < addr + size)) : writeLE bytes addr size value a = bytes a :=
  if_neg h

/-- A store leaves a word it does not meet unchanged. -/
theorem readLE_writeLE_of_apart {bytes : Bytes} {addr size value base extent : ℕ}
    (h : Apart addr size base extent) :
    readLE (writeLE bytes addr size value) base extent = readLE bytes base extent := by
  unfold Apart at h
  exact readLE_congr fun a hlow hhigh ↦ writeLE_apply_of_not_mem (by omega)

private theorem readLE_writeLE_suffix (addr size value skip : ℕ) :
    readLE (writeLE bytes addr (skip + size) value) (addr + skip) size =
      value / 256 ^ skip % 256 ^ size := by
  induction size generalizing skip with
  | zero => simp [readLE, Nat.mod_one]
  | succ size ih =>
    have hbyte : writeLE bytes addr (skip + (size + 1)) value (addr + skip) =
        UInt8.ofNat (value / 256 ^ skip) := by
      unfold writeLE
      rw [if_pos ⟨by omega, by omega⟩, Nat.add_sub_cancel_left]
    have hrest := ih (skip + 1)
    rw [show skip + 1 + size = skip + (size + 1) by omega,
      show addr + (skip + 1) = addr + skip + 1 by omega] at hrest
    rw [readLE, hbyte, hrest, UInt8.toNat_ofNat', pow_succ' 256 size, Nat.mod_mul,
      Nat.div_div_eq_div_mul, ← pow_succ]

/-- A word just stored reads back reduced to its width. -/
theorem readLE_writeLE_self (addr size value : ℕ) :
    readLE (writeLE bytes addr size value) addr size = value % 256 ^ size := by
  have h := readLE_writeLE_suffix bytes addr size value 0
  simpa using h

end Bhx.SharedMemory
