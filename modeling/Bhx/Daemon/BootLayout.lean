import Bhx.Daemon.RequestSteps
import Bhx.DeviceTree.ModifyDtb

/-!
# Where a boot writes

A boot places OpenSBI, the device tree, the kernel and the initramfs at fixed offsets in the memory
of the L2CPU, next to the page in which a parked guest says so. The files have any size, the memory
ends where the request says, and its top is reserved. `run_boot_sequence` compares none of these
with each other: a file that is too large runs into the next image, and an initramfs on an L2CPU
with two gigabytes lies behind the end of its memory (`initramfs_beyond_memory`).

`boot_layout_safe_iff` says when the images have room: OpenSBI ends below the page, each image ends
where the next one begins, and all of them end below the reservation (`Fit`).

Scope. The words that `runBootSequence` stores for a file are the ones that hold its bytes
(`FileSizes`), so that the last of them may be one that the file ends in. The device tree is filled
up to whole words before it is stored.
-/

set_option autoImplicit false

namespace Bhx.Daemon

open SharedMemory Chip DeviceTree List

variable {image : Image} {part : ImagePart} {l2cpu : L2CpuIdx} {path : Path}

/-! ### Ranges of addresses -/

/-- The addresses from `start` on. -/
structure Span where
  start : ℕ
  size : ℕ
deriving DecidableEq, Repr

instance : Membership ℕ Span := ⟨fun span addr ↦ span.start ≤ addr ∧ addr < span.start + span.size⟩

theorem Span.mem_def {span : Span} {addr : ℕ} :
    addr ∈ span ↔ span.start ≤ addr ∧ addr < span.start + span.size := Iff.rfl

/-- The ranges have no address in common. -/
def Span.Apart (first second : Span) : Prop := ∀ addr ∈ first, addr ∉ second

/-- Each address of the range is in the other. -/
def Span.Within (span outer : Span) : Prop := ∀ addr ∈ span, addr ∈ outer

theorem Span.apart_iff {first second : Span} :
    first.Apart second ↔ first.size = 0 ∨ second.size = 0 ∨
      first.start + first.size ≤ second.start ∨ second.start + second.size ≤ first.start := by
  constructor
  · intro hapart
    -- the later of the two starts is in both, unless one of them is empty or ends before it
    have hstart := hapart (max first.start second.start)
    simp only [Span.mem_def] at hstart
    omega
  · intro hapart addr haddr haddr'
    rw [Span.mem_def] at haddr haddr'
    omega

theorem Span.within_iff {span outer : Span} :
    span.Within outer ↔ span.size = 0 ∨
      outer.start ≤ span.start ∧ span.start + span.size ≤ outer.start + outer.size := by
  constructor
  · intro hwithin
    have hfirst := hwithin span.start
    have hlast := hwithin (span.start + span.size - 1)
    simp only [Span.mem_def] at hfirst hlast
    omega
  · intro hwithin addr haddr
    rw [Span.mem_def] at haddr ⊢
    omega

/-! ### The memory of an L2CPU -/

/-- L2CPU_MEMORY_SIZE. -/
def physicalSize (l2cpu : L2CpuIdx) : ℕ :=
  if l2cpu = 0 ∨ l2cpu = 1 then 0x100000000 else 0x80000000

/-- The size of the memory in `run_boot_sequence`: what was asked for, down to a multiple of two
megabytes and to what is there. -/
def bootMemorySize (l2cpu : L2CpuIdx) : Option ℕ → ℕ
  | some req => min (req - req % (2 * 1024 * 1024)) (physicalSize l2cpu)
  | none => physicalSize l2cpu

/-- The memory below the region that is reserved at its top. -/
def usable (l2cpu : L2CpuIdx) (memorySize : ℕ) : Span :=
  ⟨startingAddress l2cpu, memorySize - reservedSize⟩

/-- The page with the status of a parked guest. -/
def purgatoryPage (l2cpu : L2CpuIdx) : Span := ⟨startingAddress l2cpu + statusOffset, 0x1000⟩

/-- Where an image of a size goes. -/
def imageSpan (l2cpu : L2CpuIdx) (sizes : ImagePart → ℕ) (part : ImagePart) : Span :=
  ⟨partAddr l2cpu part, sizes part⟩

/-- What a boot writes, and the page of the status. -/
def bootSpans (l2cpu : L2CpuIdx) (sizes : ImagePart → ℕ) : List Span :=
  purgatoryPage l2cpu ::
    [ImagePart.opensbi, .dtb, .kernel, .initramfs].map (imageSpan l2cpu sizes)

/-- The images and the page are apart, and in the memory that is not reserved. -/
structure LayoutSafe (l2cpu : L2CpuIdx) (memorySize : ℕ) (sizes : ImagePart → ℕ) : Prop where
  apart : (bootSpans l2cpu sizes).Pairwise Span.Apart
  within : ∀ span ∈ bootSpans l2cpu sizes, span.Within (usable l2cpu memorySize)

/-- The images have room. -/
structure Fit (memorySize : ℕ) (sizes : ImagePart → ℕ) : Prop where
  page : statusOffset + 0x1000 + reservedSize ≤ memorySize
  opensbi : sizes .opensbi ≤ statusOffset
  next : ∀ part part' : ImagePart, part.offset < part'.offset → 0 < sizes part' →
    part.offset + sizes part ≤ part'.offset
  top : ∀ part : ImagePart, 0 < sizes part → part.offset + sizes part + reservedSize ≤ memorySize

section Layout

variable {memorySize : ℕ} {sizes : ImagePart → ℕ}

theorem LayoutSafe.of_fit (h : Fit memorySize sizes) : LayoutSafe l2cpu memorySize sizes := by
  have hpage := h.page
  have hopensbi := h.opensbi
  have hdtb := h.next .dtb .kernel (by decide)
  have hdtb' := h.next .dtb .initramfs (by decide)
  have hkernel := h.next .kernel .initramfs (by decide)
  simp only [ImagePart.offset, statusOffset] at hpage hopensbi hdtb hdtb' hkernel
  constructor
  · simp only [bootSpans, map_cons, map_nil, pairwise_cons, mem_cons,
      not_mem_nil, or_false, forall_eq_or_imp, forall_eq, Span.apart_iff, imageSpan,
      purgatoryPage, partAddr, ImagePart.offset, statusOffset]
    refine ⟨⟨?_, ?_, ?_, ?_⟩, ⟨?_, ?_, ?_⟩, ⟨?_, ?_⟩, ?_, ?_⟩ <;> first | omega | simp
  · intro span hspan
    rcases mem_cons.mp hspan with rfl | hspan
    · refine Span.within_iff.mpr (.inr ?_)
      simp only [usable, purgatoryPage, statusOffset]
      omega
    · obtain ⟨part, -, rfl⟩ := mem_map.mp hspan
      have htop := h.top part
      refine Span.within_iff.mpr ?_
      simp only [usable, imageSpan, partAddr]
      omega

theorem Span.Apart.end_le {first second : Span} (h : first.Apart second) (hsize : 0 < second.size)
    (hstart : first.start ≤ second.start) : first.start + first.size ≤ second.start := by
  have hapart := h second.start
  simp only [Span.mem_def] at hapart
  omega

theorem LayoutSafe.apart_images (h : LayoutSafe l2cpu memorySize sizes) {part' : ImagePart}
    (hlt : part.offset < part'.offset) :
    (imageSpan l2cpu sizes part).Apart (imageSpan l2cpu sizes part') := by
  have hpairs := (pairwise_cons.mp h.apart).2
  simp only [map_cons, map_nil, pairwise_cons, mem_cons, not_mem_nil,
    or_false, forall_eq_or_imp, forall_eq] at hpairs
  -- the images are listed in the order of their offsets
  cases part <;> cases part' <;> first | exact absurd hlt (by decide) | tauto

theorem LayoutSafe.fit (h : LayoutSafe l2cpu memorySize sizes) : Fit memorySize sizes := by
  have himage (part : ImagePart) : imageSpan l2cpu sizes part ∈ bootSpans l2cpu sizes := by
    cases part <;> simp [bootSpans]
  constructor
  · have hpage := Span.within_iff.mp (h.within (purgatoryPage l2cpu) mem_cons_self)
    simp only [purgatoryPage, usable, statusOffset] at hpage ⊢
    omega
  · have hopensbi := (pairwise_cons.mp h.apart).1 (imageSpan l2cpu sizes .opensbi) (by simp)
    rw [Span.apart_iff] at hopensbi
    simp only [purgatoryPage, imageSpan, partAddr, ImagePart.offset, statusOffset] at hopensbi ⊢
    omega
  · intro part part' hlt hpos
    have hend := (h.apart_images hlt).end_le hpos (by simp only [imageSpan, partAddr]; omega)
    simp only [imageSpan, partAddr] at hend
    omega
  · intro part hpos
    have htop := Span.within_iff.mp (h.within _ (himage part))
    simp only [imageSpan, partAddr, usable] at htop
    omega

end Layout

/-! ### Copies through windows -/

/-- TWO_MEG. -/
def twoMeg : ℕ := 2 ^ 21

/-- A copy through a window: where the window lies, the offset in it, and the bytes. -/
structure Chunk where
  windowBase : ℕ
  offsetInWindow : ℕ
  bytes : List UInt8

/-- The stores of a copy: the bytes, each with its address. -/
def Chunk.stores (chunk : Chunk) : List (UInt8 × ℕ) :=
  chunk.bytes.zipIdx (chunk.windowBase + chunk.offsetInWindow)

/-- The loop of `l2cpu_noc_write_bulk`, with the address for the rest of the data. -/
def bulkChunks (curAddr : ℕ) (data : List UInt8) : List Chunk :=
  if data = [] then []
  else
    let windowBase := curAddr - curAddr % twoMeg
    let offsetInWindow := curAddr - windowBase
    let chunk := min (twoMeg - offsetInWindow) data.length
    ⟨windowBase, offsetInWindow, data.take chunk⟩ :: bulkChunks (curAddr + chunk) (data.drop chunk)
termination_by data.length
decreasing_by
  have hpos : 0 < data.length := length_pos_of_ne_nil ‹_›
  simp only [length_drop, twoMeg]
  omega

theorem stores_bulkChunks (curAddr : ℕ) (data : List UInt8) :
    (bulkChunks curAddr data).flatMap Chunk.stores = data.zipIdx curAddr := by
  fun_induction bulkChunks curAddr data with
  | case1 curAddr => rfl
  | case2 curAddr data hne windowBase offsetInWindow chunk ih =>
    have haddr : windowBase + offsetInWindow = curAddr := by
      have hmod := Nat.mod_le curAddr twoMeg
      omega
    have hlength : (data.take chunk).length = chunk := by
      rw [length_take]
      omega
    have hjoin : (data.take chunk ++ data.drop chunk).zipIdx curAddr = _ := zipIdx_append
    rw [take_append_drop, hlength] at hjoin
    rw [flatMap_cons, ih, Chunk.stores, haddr, hjoin]

theorem inside_bulkChunks (curAddr : ℕ) (data : List UInt8) :
    ∀ chunk ∈ bulkChunks curAddr data, twoMeg ∣ chunk.windowBase ∧
      chunk.offsetInWindow + chunk.bytes.length ≤ twoMeg := by
  fun_induction bulkChunks curAddr data with
  | case1 curAddr => exact nofun
  | case2 curAddr data hne windowBase offsetInWindow chunk ih =>
    intro other hother
    rcases mem_cons.mp hother with rfl | hother
    · refine ⟨Nat.dvd_sub_mod curAddr, ?_⟩
      have hmod := Nat.mod_lt curAddr (show 0 < twoMeg by decide)
      have hle := Nat.mod_le curAddr twoMeg
      simp only [length_take]
      omega
    · exact ih other hother

/-- The bytes of a word, as they lie in memory. -/
def wordBytes (word : UInt32) : List UInt8 :=
  [word.toUInt8, (word >>> 8).toUInt8, (word >>> 16).toUInt8, (word >>> 24).toUInt8]

theorem zipIdx_wordBytes (image : Image) (addr index : ℕ) :
    (image.flatMap wordBytes).zipIdx (addr + 4 * index) = (image.zipIdx index).flatMap fun item ↦
      (wordBytes item.1).zipIdx (addr + 4 * item.2) := by
  induction image generalizing index with
  | nil => rfl
  | cons word image ih =>
    rw [flatMap_cons, zipIdx_append, zipIdx_cons, flatMap_cons, ← ih (index + 1)]
    rfl

/-- `l2cpu_noc_write_bulk` puts every word of an image where `nocWriteBulk` stores it, each byte
once and in order. Each of its copies lies inside the window it is made through. -/
theorem bulkChunks_exact (addr : ℕ) (image : Image) :
    (bulkChunks addr (image.flatMap wordBytes)).flatMap Chunk.stores =
        image.zipIdx.flatMap (fun item ↦ (wordBytes item.1).zipIdx (addr + 4 * item.2)) ∧
      ∀ chunk ∈ bulkChunks addr (image.flatMap wordBytes), twoMeg ∣ chunk.windowBase ∧
        chunk.offsetInWindow + chunk.bytes.length ≤ twoMeg :=
  ⟨(stores_bulkChunks _ _).trans (zipIdx_wordBytes image addr 0), inside_bulkChunks _ _⟩

/-! ### What a boot stores -/

/-- The sizes of the files in bytes: the words of a file are the ones that hold its bytes. -/
structure FileSizes (platform : Platform) where
  size : Path → ℕ
  words : ∀ path image, platform.files path = some image → image.length = (size path + 3) / 4

/-- The sizes of the images of a boot. -/
def FileSizes.images {platform : Platform} (files : FileSizes platform) (args : BootArgs)
    (dtb : Image) : ImagePart → ℕ
  | .opensbi => files.size args.opensbi
  | .dtb => 4 * dtb.length
  | .kernel => files.size args.payload.path
  | .initramfs => args.initramfs.elim 0 files.size

/-- The step stores no part of an image. -/
def RpcOp.NoImage : RpcOp → Prop
  | .image .. => False
  | _ => True

/-- A step that stores a part of an image stores it in the range of that image. -/
def RpcOp.InSpan (l2cpu : L2CpuIdx) (sizes : ImagePart → ℕ) : RpcOp → Prop
  | .image target part index _ =>
    target = l2cpu ∧ partAddr target part + 4 * index ∈ imageSpan l2cpu sizes part
  | _ => True

variable {platform : Platform} {args : BootArgs} {α : Type} {allowed : RpcOp → Prop}

theorem inSpan_nocWriteBulk {sizes : ImagePart → ℕ} (hsize : image.length = (sizes part + 3) / 4) :
    (nocWriteBulk l2cpu part image).Only (RpcOp.InSpan l2cpu sizes) := by
  have hitems (items : List (UInt32 × ℕ)) (hitems : ∀ item ∈ items, item.2 < image.length) :
      (items.forM fun word ↦ do
        let _ ← askOk (.image l2cpu part word.2 word.1) : RpcM Unit).Only
        (RpcOp.InSpan l2cpu sizes) := by
    induction items with
    | nil => exact only_pure ()
    | cons item items ih =>
      have hindex := hitems item mem_cons_self
      refine ((only_askOk ⟨rfl, ?_⟩).map).bind fun _ ↦
        ih fun other hother ↦ hitems other (mem_cons_of_mem _ hother)
      simp only [imageSpan, Span.mem_def]
      omega
  exact hitems _ fun item hitem ↦ (mem_zipIdx' hitem).1

theorem only_readBinFile {rest : Image → RpcM α} (htrial : allowed .trial)
    (h : ∀ image, platform.files path = some image → (rest image).Only allowed) :
    (readBinFile platform path >>= rest).Only allowed := by
  unfold readBinFile
  rw [bind_assoc]
  refine (only_askOk htrial).bind fun _ ↦ ?_
  cases hfile : platform.files path with
  | none => exact only_throw
  | some image =>
    exact h image hfile

theorem inSpan_runBootSequence (files : FileSizes platform) {dtbRaw dtb : Image}
    (hraw : platform.files args.dtb = some dtbRaw)
    (hdtb : platform.modifyDtb args dtbRaw = some dtb) :
    (runBootSequence platform args).Only (RpcOp.InSpan args.l2cpu (files.images args dtb)) := by
  have hload (part : ImagePart) (path : Path)
      (hpart : files.images args dtb part = files.size path) :
      (loadPart platform args.l2cpu part path).Only
        (RpcOp.InSpan args.l2cpu (files.images args dtb)) := by
    refine only_readBinFile trivial fun image hfile ↦ inSpan_nocWriteBulk ?_
    rw [files.words path image hfile, hpart]
  refine (only_askOk).bind fun _ ↦ only_readBinFile trivial fun image hfile ↦ ?_
  obtain rfl : dtbRaw = image := Option.some.inj (hraw.symm.trans hfile)
  refine (only_doIf (only_forSome fun path ↦ only_readBinFile trivial fun _ _ ↦ only_pure _)).bind
    fun _ ↦ ?_
  refine (only_doIf ((only_askOk).bind fun _ ↦ (only_askOk).bind fun _ ↦
    only_pure _)).bind fun _ ↦ ?_
  rw [hdtb]
  refine Fallible.Only.map ?_
  refine ((only_askOk).map).bind fun _ ↦ (only_askOk).bind fun _ ↦ (hload .opensbi _ rfl).bind
    fun _ ↦ (hload .kernel _ rfl).bind fun _ ↦ (inSpan_nocWriteBulk ?_).bind fun _ ↦ ?_
  · simp only [FileSizes.images]
    omega
  · refine Fallible.Only.bind ?_ fun _ ↦ only_forM _ fun _ ↦ ((only_askOk).bind fun _ ↦
      only_pure _).bind fun _ ↦ (only_askOk).map
    cases hinitramfs : args.initramfs with
    | none => exact only_pure ()
    | some path => exact hload .initramfs path (by simp [FileSizes.images, hinitramfs])

/-! ### A boot that stores -/

section Reached

variable {rest : Unit → RpcM α}

theorem only_of_askOk {op : RpcOp} {rest : Reply → RpcM α} (h : (askOk op >>= rest).Only allowed) :
    (rest {}).Only allowed := h.2 {}

theorem only_of_readBinFile {rest : Image → RpcM α} (hfile : platform.files path = some image)
    (h : (readBinFile platform path >>= rest).Only allowed) : (rest image).Only allowed := by
  have hread : readBinFile platform path >>= rest = askOk .trial >>= fun _ ↦ rest image := by
    unfold readBinFile
    rw [bind_assoc, hfile]
    rfl
  rw [hread] at h
  exact only_of_askOk h

theorem only_of_nocWriteBulk (h : (nocWriteBulk l2cpu part image >>= rest).Only allowed) :
    (rest ()).Only allowed := by
  unfold nocWriteBulk at h
  generalize image.zipIdx = items at h
  induction items with
  | nil => exact h
  | cons item items ih => exact ih (h.2 {})

theorem only_of_loadPart (hfile : platform.files path = some image)
    (h : (loadPart platform l2cpu part path >>= rest).Only allowed) : (rest ()).Only allowed := by
  unfold loadPart at h
  rw [bind_assoc] at h
  exact only_of_nocWriteBulk (only_of_readBinFile hfile h)

theorem only_of_doIf {condition : Bool} {part : RpcM Unit}
    (hpart : ∀ rest' : Unit → RpcM α, (part >>= rest').Only allowed → (rest' ()).Only allowed)
    (h : (doIf condition part >>= rest).Only allowed) : (rest ()).Only allowed := by
  unfold doIf at h
  split_ifs at h
  · exact hpart rest h
  · exact h

theorem writes_nocWriteBulk (himage : image ≠ []) :
    ¬ (nocWriteBulk l2cpu part image >>= rest).Only RpcOp.NoImage := by
  obtain ⟨word, words, rfl⟩ := exists_cons_of_ne_nil himage
  exact fun h ↦ h.1

/-- Nothing keeps a boot from storing the device tree when the files are there. -/
theorem writes_runBootSequence {opensbi kernel dtbRaw dtb : Image}
    (hopensbi : platform.files args.opensbi = some opensbi)
    (hkernel : platform.files args.payload.path = some kernel)
    (hraw : platform.files args.dtb = some dtbRaw)
    (hdtb : platform.modifyDtb args dtbRaw = some dtb) (hne : dtb ≠ [])
    (hinitramfs : ∀ path ∈ args.initramfs, ∃ image, platform.files path = some image) :
    ¬ (runBootSequence platform args).Only RpcOp.NoImage := by
  intro h
  have hread := only_of_doIf (fun rest' hrest' ↦ ?_) (only_of_readBinFile hraw (only_of_askOk h))
  · have hup := only_of_doIf (fun rest' hrest' ↦ (hrest'.2 {}).2 {}) hread
    rw [hdtb] at hup
    simp only [bootL2cpu, write32, bind_assoc] at hup
    have hstarted := only_of_askOk (only_of_askOk hup)
    exact writes_nocWriteBulk hne (only_of_loadPart hkernel (only_of_loadPart hopensbi hstarted))
  · cases hpath : args.initramfs with
    | none =>
      rw [hpath] at hrest'
      exact hrest'
    | some path =>
      rw [hpath] at hrest'
      obtain ⟨image, himage⟩ := hinitramfs path hpath
      simp only [forSome, Option.elim_some, bind_assoc] at hrest'
      exact only_of_readBinFile himage hrest'

/-- The images of a boot and the page of the status are apart and in the memory that is not
reserved, and each store of the boot is in the range of its image, or the boot fails before it
stores an image, exactly if the images have room. Assumes: the files of the request are there, with
any sizes, and the tree could be patched. A patched tree is not empty. -/
theorem boot_layout_safe_iff (args : BootArgs) (files : FileSizes platform)
    {opensbi kernel dtbRaw dtb : Image}
    (hopensbi : platform.files args.opensbi = some opensbi)
    (hkernel : platform.files args.payload.path = some kernel)
    (hraw : platform.files args.dtb = some dtbRaw)
    (hdtb : platform.modifyDtb args dtbRaw = some dtb) (hne : dtb ≠ [])
    (hinitramfs : ∀ path ∈ args.initramfs, ∃ image, platform.files path = some image) :
    (LayoutSafe args.l2cpu (bootMemorySize args.l2cpu args.memoryOverride)
            (files.images args dtb) ∧
          (runBootSequence platform args).Only
            (RpcOp.InSpan args.l2cpu (files.images args dtb)) ∨
        (runBootSequence platform args).Only RpcOp.NoImage) ↔
      Fit (bootMemorySize args.l2cpu args.memoryOverride) (files.images args dtb) := by
  constructor
  · rintro (⟨hsafe, -⟩ | hnone)
    · exact hsafe.fit
    · exact absurd hnone (writes_runBootSequence hopensbi hkernel hraw hdtb hne hinitramfs)
  · intro hfit
    exact .inl ⟨.of_fit hfit, inSpan_runBootSequence files hraw hdtb⟩

end Reached

/-- The files of the small host have three bytes each. -/
def smallSizes : FileSizes smallPlatform where
  size _ := 3
  words _ _ hfile := by
    obtain rfl := Option.some.inj hfile
    rfl

/-- Small files have room on every L2CPU. -/
theorem boot_layout_safe_iff_small :
    LayoutSafe 2 (bootMemorySize 2 none) (smallSizes.images (plainBoot 2) [2]) := by
  have hfit : Fit (bootMemorySize 2 none) (smallSizes.images (plainBoot 2) [2]) := by
    refine ⟨by decide, by decide, fun part part' ↦ ?_, fun part ↦ ?_⟩
    · cases part <;> cases part' <;> decide
    · cases part <;> decide
  have hwrites : ¬ (runBootSequence smallPlatform (plainBoot 2)).Only RpcOp.NoImage :=
    writes_runBootSequence rfl rfl rfl rfl (by decide) nofun
  have hsafe :=
    (boot_layout_safe_iff (plainBoot 2) smallSizes rfl rfl rfl rfl (by decide) nofun).mpr hfit
  exact (hsafe.resolve_right hwrites).1

/-- A boot of L2CPU 2 with an initramfs. -/
def initramfsBoot : BootArgs := { plainBoot 2 with initramfs := some 3 }

/-- L2CPU 2 has two gigabytes. A boot of it with an initramfs of three bytes succeeds, and has
stored the initramfs at an address that is not in its memory. -/
theorem initramfs_beyond_memory :
    let outcome := (runBootSequence smallPlatform initramfsBoot).run.run rpcExec (fun _ w ↦ w) 0
      (startedWorld Unit [])
    outcome.result = .ok [2] ∧
      outcome.state.ram 2 (partAddr 2 .initramfs) = 3 ∧
      partAddr 2 .initramfs ∉ (⟨startingAddress 2, physicalSize 2⟩ : Span) ∧
      ¬ LayoutSafe 2 (bootMemorySize 2 none) (smallSizes.images initramfsBoot [2]) := by
  refine ⟨by decide +kernel, by decide +kernel, ?_, fun hsafe ↦ ?_⟩
  · rw [Span.mem_def]
    decide
  · exact absurd (hsafe.fit.top .initramfs (by decide)) (by decide)

end Bhx.Daemon
