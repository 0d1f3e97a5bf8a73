import Mathlib.Algebra.Group.Nat.Defs
import Mathlib.Order.Basic

/-!
# The telemetry table

The ARC firmware leaves the address of its telemetry table in a scratch register. `readTelemetry`
takes it from there, checks that it lies in the ARC's RAM (CSM) and that as many tags and data words
as the header announces fit behind it, and follows the tags. The offset of a tag is not checked, so
its data word may lie behind the RAM, and an address that is not aligned ends in an assertion of the
window instead of an error. Apart from these two every read stays inside
(`readTelemetry_confined_iff`).

Scope. The words do not change during a call, and `SharedChip` has its fd throughout or not at all.
The decoding of the entries is left out.
-/

set_option autoImplicit false

namespace Bhx.Arc

open List

def arcCsmBase : ℕ := 0x10000000
def arcCsmSize : ℕ := 2 ^ 19
def csmWindowBase : ℕ := 0x10000000
def csmWindowSize : ℕ := 0x200000

inductive TelemetryError
  | arcNotReady
  | outOfCsm (tableAddr base limit : ℕ)
  | entryCountTooLarge (entryCount : UInt32)
  | unsupportedVersion (version : UInt32)
  | sharedChip (message : String)

/-- How a call ends that returns no table. -/
inductive Stop
  | error (error : TelemetryError)
  | panic

structure TelemetryEntry where
  tag : UInt16
  offset : UInt16
  data : UInt32

structure Telemetry where
  version : UInt32
  entryCount : UInt32
  entries : List TelemetryEntry

/-- Whether the fd is there, the scratch register, and the words behind the CSM window. -/
structure SharedChip where
  inner : Bool
  scratch : UInt32
  csm : ℕ → UInt32

/-- A computation that keeps the addresses it has read in the CSM window. -/
abbrev Walk := ExceptT Stop (StateM (List ℕ))

variable (chip : SharedChip)

/-- The fd of the chip, or an error. -/
def guard : Walk Unit :=
  if chip.inner then pure () else throw (.error (.sharedChip "SharedChip used while rotating fd"))

/-- The scratch register lies in the reset window. -/
def arcRead32 : Walk UInt32 := do
  guard chip
  pure chip.scratch

/-- The assertions are those of `csm_window_offset` and, behind the fd, of the window's `read32`. -/
def csmRead32 (addr : ℕ) : Walk UInt32 := do
  if ¬(csmWindowBase ≤ addr ∧ addr < csmWindowBase + csmWindowSize) then throw .panic
  else
    guard chip
    if ¬(addr - csmWindowBase + 4 ≤ csmWindowSize ∧ 4 ∣ addr - csmWindowBase) then throw .panic
    else
      modify (· ++ [addr])
      pure (chip.csm addr)

def tagOf (entry : UInt32) : UInt16 := (entry &&& 0xFFFF).toUInt16
def offsetOf (entry : UInt32) : UInt16 := ((entry >>> 16) &&& 0xFFFF).toUInt16
def majorOf (version : UInt32) : UInt32 := (version >>> 16) &&& 0xFF

/-- One round of the loop over the tags. -/
def readEntry (tagsBase dataBase i : ℕ) : Walk TelemetryEntry := do
  let entry ← csmRead32 chip (tagsBase + i * 4)
  let data ← csmRead32 chip (dataBase + (offsetOf entry).toNat * 4)
  pure ⟨tagOf entry, offsetOf entry, data⟩

def readTelemetry : Walk Telemetry := do
  let pointer ← arcRead32 chip
  let tableAddr := pointer.toNat
  if pointer = 0 then throw (.error .arcNotReady)
  else if ¬(arcCsmBase ≤ tableAddr ∧ tableAddr < arcCsmBase + arcCsmSize) then
    throw (.error (.outOfCsm tableAddr arcCsmBase (arcCsmBase + arcCsmSize)))
  else
    let version ← csmRead32 chip tableAddr
    if majorOf version > 1 then throw (.error (.unsupportedVersion version))
    else
      let entryCount ← csmRead32 chip (tableAddr + 4)
      if entryCount = 0 ∨ entryCount.toNat * 8 + 8 > arcCsmBase + arcCsmSize - tableAddr then
        throw (.error (.entryCountTooLarge entryCount))
      else
        let entries ← (List.range entryCount.toNat).mapM
          (readEntry chip (tableAddr + 8) (tableAddr + 8 + entryCount.toNat * 4))
        pure ⟨version, entryCount, entries⟩

/-! ### What a walk reads -/

variable {chip} {α β : Type} {addr : ℕ} {reads : List ℕ}

theorem run_bind (walk : Walk α) (next : α → Walk β) (reads : List ℕ) :
    (walk >>= next) reads = match walk reads with
      | (.ok value, reads) => next value reads
      | (.error stop, reads) => (.error stop, reads) := by
  simp only [Bind.bind, ExceptT.bind, ExceptT.mk, StateT.bind]
  rcases walk reads with ⟨value | stop, reads⟩ <;> rfl

theorem run_pure (value : α) (reads : List ℕ) :
    (pure value : Walk α) reads = (.ok value, reads) := rfl

/-- Where the tag of an entry leads. -/
def dataAddr (chip : SharedChip) (tableAddr count i : ℕ) : ℕ :=
  tableAddr + 8 + count * 4 + (offsetOf (chip.csm (tableAddr + 8 + i * 4))).toNat * 4

section Present

variable (hinner : chip.inner = true) (hbase : csmWindowBase ≤ addr)
include hinner hbase

theorem csmRead32_eq (reads : List ℕ) (hend : addr + 4 ≤ csmWindowBase + csmWindowSize)
    (haligned : 4 ∣ addr) : csmRead32 chip addr reads = (.ok (chip.csm addr), reads ++ [addr]) := by
  have hword : addr - csmWindowBase + 4 ≤ csmWindowSize ∧ 4 ∣ addr - csmWindowBase :=
    ⟨by omega, Nat.dvd_sub haligned (by decide)⟩
  unfold csmRead32 guard
  rw [if_neg (not_not.mpr ⟨hbase, by omega⟩), if_pos hinner, if_neg (not_not.mpr hword)]
  rfl

theorem csmRead32_panic (reads : List ℕ) (hend : addr < csmWindowBase + csmWindowSize)
    (haligned : ¬4 ∣ addr) : csmRead32 chip addr reads = (.error .panic, reads) := by
  have hword : ¬4 ∣ addr - csmWindowBase := fun h ↦
    haligned ((Nat.dvd_sub_iff_left hbase (by decide)).mp h)
  unfold csmRead32 guard
  rw [if_neg (not_not.mpr ⟨hbase, hend⟩), if_pos hinner, if_pos fun h ↦ hword h.2]
  rfl

theorem entries_eq {count : ℕ} (haligned : 4 ∣ addr)
    (hfits : addr + count * 8 + 8 ≤ arcCsmBase + arcCsmSize) {is : List ℕ}
    (his : ∀ i ∈ is, i < count) (reads : List ℕ) :
    ∃ entries, is.mapM (readEntry chip (addr + 8) (addr + 8 + count * 4)) reads = (.ok entries,
      reads ++ is.flatMap fun i ↦ [addr + 8 + i * 4, dataAddr chip addr count i]) := by
  have hend : arcCsmBase + arcCsmSize + 2 ^ 18 ≤ csmWindowBase + csmWindowSize := by decide
  induction is generalizing reads with
  | nil => exact ⟨[], congrArg (Prod.mk _) reads.append_nil.symm⟩
  | cons i is ih =>
    have hi : i < count := his i mem_cons_self
    have hoffset := (offsetOf (chip.csm (addr + 8 + i * 4))).toNat_lt
    have hword : ∀ word reads, addr ≤ word → word + 4 ≤ csmWindowBase + csmWindowSize → 4 ∣ word →
        csmRead32 chip word reads = (.ok (chip.csm word), reads ++ [word]) :=
      fun _ reads h ↦ csmRead32_eq hinner (Nat.le_trans hbase h) reads
    have hdata : addr ≤ dataAddr chip addr count i ∧ dataAddr chip addr count i + 4 ≤ csmWindowBase
        + csmWindowSize ∧ 4 ∣ dataAddr chip addr count i := by
      unfold dataAddr
      omega
    obtain ⟨entries, hentries⟩ := ih (fun j hj ↦ his j (mem_cons_of_mem _ hj))
      (reads ++ [addr + 8 + i * 4] ++ [dataAddr chip addr count i])
    have htag := hword (addr + 8 + i * 4) reads (by omega) (by omega) (by omega)
    have hread := hword _ (reads ++ [addr + 8 + i * 4]) hdata.1 hdata.2.1 hdata.2.2
    unfold dataAddr at *
    simp only [mapM_cons, readEntry, run_bind, htag, hread, run_pure, hentries]
    exact ⟨_, Prod.ext rfl (by simp)⟩

end Present

/-! ### Where the reads lie -/

/-- A word of the ARC's RAM. -/
def InCsm (addr : ℕ) : Prop := arcCsmBase ≤ addr ∧ addr + 4 ≤ arcCsmBase + arcCsmSize

/-- A bounded number of reads, no panic, and no read outside the RAM unless an error is returned. -/
def Confined (run : Except Stop Telemetry × List ℕ) : Prop :=
  run.2.length ≤ 2 ^ 17 ∧ match run.1 with
    | .ok _ => ∀ addr ∈ run.2, InCsm addr
    | .error stop => stop ≠ .panic

/-- There is no fd, a check refuses the address, or it is aligned and a check refuses the header or
every tag leads into the RAM. -/
def Tidy (chip : SharedChip) : Prop :=
  let tableAddr := chip.scratch.toNat
  let entryCount := chip.csm (tableAddr + 4)
  chip.inner = false ∨ chip.scratch = 0 ∨
    ¬(arcCsmBase ≤ tableAddr ∧ tableAddr < arcCsmBase + arcCsmSize) ∨
    4 ∣ tableAddr ∧ (majorOf (chip.csm tableAddr) > 1 ∨
      (entryCount = 0 ∨ entryCount.toNat * 8 + 8 > arcCsmBase + arcCsmSize - tableAddr) ∨
      ∀ i < entryCount.toNat, InCsm (dataAddr chip tableAddr entryCount.toNat i))

theorem confined_error {error : TelemetryError} (hlen : reads.length ≤ 2) :
    Confined (.error (.error error), reads) :=
  ⟨Nat.le_trans hlen (by decide), nofun⟩

/-- The reads of a table that fits lie in the RAM when those of its data words do. -/
theorem confined_ok_iff {telemetry : Telemetry} {count : ℕ} (hbase : arcCsmBase ≤ addr)
    (hfits : addr + count * 8 + 8 ≤ arcCsmBase + arcCsmSize) :
    Confined (.ok telemetry, addr :: (addr + 4) :: (range count).flatMap fun i ↦
        [addr + 8 + i * 4, dataAddr chip addr count i]) ↔
      ∀ i < count, InCsm (dataAddr chip addr count i) := by
  unfold Confined
  simp only [mem_cons, mem_flatMap, mem_range, not_mem_nil, or_false]
  constructor
  · exact fun h i hi ↦ h.2 _ (.inr (.inr ⟨i, hi, .inr rfl⟩))
  · intro h
    have hsize : arcCsmSize = 2 ^ 19 := rfl
    refine ⟨by simp [map_const']; omega, ?_⟩
    rintro _ (rfl | rfl | ⟨i, hi, rfl | rfl⟩)
    · exact ⟨hbase, by omega⟩
    · exact ⟨by omega, by omega⟩
    · exact ⟨by omega, by omega⟩
    · exact h i hi

theorem readTelemetry_confined_iff (chip : SharedChip) :
    Confined (readTelemetry chip []) ↔ Tidy chip := by
  unfold Tidy readTelemetry arcRead32 guard
  cases hinner : chip.inner with
  | false => exact iff_of_true (confined_error (by simp)) (.inl rfl)
  | true =>
    simp only [run_bind, run_pure, if_true]
    split_ifs with hzero hrange
    · exact iff_of_true (confined_error (by simp)) (.inr (.inl hzero))
    · have hend : arcCsmBase + arcCsmSize + 8 ≤ csmWindowBase + csmWindowSize := by decide
      by_cases haligned : 4 ∣ chip.scratch.toNat
      · have hversion := csmRead32_eq hinner hrange.1 [] (by omega) haligned
        have hcount := csmRead32_eq hinner (Nat.le_add_right_of_le hrange.1)
          [chip.scratch.toNat] (by omega) (Nat.dvd_add haligned (Nat.dvd_refl 4))
        simp only [run_bind, hversion]
        split_ifs with hmajor
        · exact iff_of_true (confined_error (by simp)) (.inr (.inr (.inr ⟨haligned, .inl hmajor⟩)))
        simp only [run_bind, nil_append, hcount]
        split_ifs with hlarge
        · exact iff_of_true (confined_error (by simp))
            (.inr (.inr (.inr ⟨haligned, .inr (.inl hlarge)⟩)))
        have hfits : chip.scratch.toNat + (chip.csm (chip.scratch.toNat + 4)).toNat * 8 + 8 ≤
            arcCsmBase + arcCsmSize := by omega
        obtain ⟨entries, hentries⟩ := entries_eq hinner hrange.1 haligned hfits
          (fun _ ↦ mem_range.mp) [chip.scratch.toNat, chip.scratch.toNat + 4]
        simp only [run_bind, cons_append, nil_append, hentries, run_pure]
        rw [confined_ok_iff hrange.1 hfits]
        simp [hzero, hrange, haligned, hmajor, hlarge]
      · have hrun := csmRead32_panic hinner hrange.1 [] (by omega) haligned
        simp only [run_bind, hrun]
        refine iff_of_false (fun h ↦ h.2 rfl) ?_
        simp [haligned, hzero, hrange]
    · exact iff_of_true (confined_error (by simp)) (.inr (.inr (.inl hrange)))

/-- A table whose address is not aligned, and one near the end of the RAM whose tag leads behind
it. -/
theorem telemetry_escapes :
    (readTelemetry ⟨true, 0x10000001, fun _ ↦ 0⟩ []).1 = .error .panic ∧
      (readTelemetry ⟨true, 0x1007FF00, fun addr ↦ if addr = 0x1007FF04 then 1 else
        if addr = 0x1007FF08 then 0xFFFF0000 else 0⟩ []) = (.ok ⟨0, 1, [⟨0, 0xFFFF, 0⟩]⟩,
          [0x1007FF00, 0x1007FF04, 0x1007FF08, 0x100BFF08]) ∧ ¬InCsm 0x100BFF08 :=
  ⟨rfl, rfl, fun h ↦ absurd h.2 (by decide)⟩

end Bhx.Arc
