import Bhx.DeviceTree.Fdt
import Mathlib.Data.Nat.Digits.Defs

/-!
# The device tree that a guest is booted with

`modify_dtb` patches the device tree of a request: the memory of the L2CPU, the boot arguments, the
memory that the kernel must not use, and a node for each virtio device that the daemon emulates. The
kernel probes the nodes that it finds when it starts, so that a device can be added later only where
there is a node. Each device that the tree was patched for has its node (`present_of_modifyDtb`).

Scope. The patcher fails as here, or because the tree has grown out of its buffer.
-/

set_option autoImplicit false

namespace Bhx.DeviceTree

open List Option

variable {path : NodePath} {value : PropValue} {key : String}

/-- `BootDevice`. -/
inductive BootDevice
  | vda (dev : String)
  | initramfs (addr len : ℕ)
  | initramfsAndVda (addr len : ℕ) (dev : String)
  | uboot
deriving DecidableEq, Repr

/-- `VirtioMmioNode`. -/
structure VirtioMmioNode where
  addr : ℕ
  size : ℕ
  irq : ℕ
deriving DecidableEq, Repr

/-- STATUS_OFFSET of `purgatory`. -/
def purgatoryOffset : ℕ := 0xE0000
/-- RESERVED_SIZE. -/
def reservedSize : ℕ := 0xC00000
/-- UART_IRQ. -/
def uartIrq : ℕ := 35

/-- A number in hexadecimal. -/
def hex (value : ℕ) : String := String.ofList (Nat.toDigits 16 value)

/-- The boot arguments. -/
def bootargs (bootDevice : BootDevice) (virtioConsoleAttached : Bool)
    (extraBootargs : Option String) : String :=
  let consoleArgs :=
    if virtioConsoleAttached then "console=hvc0 earlycon=sbi" else "earlycon=sbi keep_bootcon"
  let base :=
    match bootDevice with
    | .vda dev => "rw " ++ consoleArgs ++ " root=/dev/" ++ dev
    | .initramfs addr len => "rw " ++ consoleArgs ++ " initrd=0x" ++ hex addr ++ "," ++ toString len
    | .initramfsAndVda addr len dev =>
      "rw " ++ consoleArgs ++ " initrd=0x" ++ hex addr ++ "," ++ toString len ++ " root=/dev/" ++
        dev
    | .uboot => consoleArgs
  match extraBootargs with
  | some extra => if extra.isEmpty then base else base ++ " " ++ extra
  | none => base

/-- A node of `/reserved-memory`. -/
def addReserved (reserved : NodePath) (name : NodeName) (start size : ℕ) (fdt : Fdt) :
    Option Fdt := do
  let fdt ← fdt.addSubnode reserved name
  let fdt := fdt.setprop (reserved ++ [name]) "reg" (.reg start size)
  pure (fdt.setprop (reserved ++ [name]) "no-map" .empty)

/-- The name of the node of a virtio device. -/
def VirtioMmioNode.name (node : VirtioMmioNode) : NodeName := ⟨"virtio", some node.addr⟩

/-- The node of a virtio device. -/
def addVirtio (soc : NodePath) (plicPhandle : ℕ) (fdt : Fdt) (node : VirtioMmioNode) :
    Option Fdt := do
  let fdt ← fdt.addSubnode soc node.name
  let fdt := fdt.setprop (soc ++ [node.name]) "compatible" (.text "virtio,mmio")
  let fdt := fdt.setprop (soc ++ [node.name]) "reg" (.reg node.addr node.size)
  let fdt := fdt.setprop (soc ++ [node.name]) "interrupts" (.u32 node.irq)
  pure (fdt.setprop (soc ++ [node.name]) "interrupt-parent" (.u32 plicPhandle))

/-- The node of the UART. -/
def addUart (soc : NodePath) (plicPhandle : ℕ) (fdt : Fdt) (addr : ℕ) : Option Fdt := do
  let name : NodeName := ⟨"serial", some addr⟩
  let fdt ← fdt.addSubnode soc name
  let fdt := fdt.setprop (soc ++ [name]) "compatible" (.text "ns16550a")
  let fdt := fdt.setprop (soc ++ [name]) "reg" (.reg addr 0x1000)
  let fdt := fdt.setprop (soc ++ [name]) "reg-shift" (.u32 2)
  let fdt := fdt.setprop (soc ++ [name]) "reg-io-width" (.u32 4)
  let fdt := fdt.setprop (soc ++ [name]) "clock-frequency" (.u32 1843200)
  let fdt := fdt.setprop (soc ++ [name]) "current-speed" (.u32 115200)
  let fdt := fdt.setprop (soc ++ [name]) "interrupts" (.u32 uartIrq)
  pure (fdt.setprop (soc ++ [name]) "interrupt-parent" (.u32 plicPhandle))

/-- The memory of the L2CPU, with the name of its node. -/
def patchMemory (memStart memSize : ℕ) (fdt : Fdt) : Option Fdt := do
  let memory ← fdt.pathOffset [] [⟨"memory", some 0x400030000000⟩]
  let fdt := fdt.setprop memory "reg" (.reg memStart memSize)
  pure (if memory.getLast? = some ⟨"memory", some memStart⟩ then fdt
    else fdt.setName memory ⟨"memory", some memStart⟩)

/-- The boot arguments and the console. -/
def patchChosen (arguments : String) (fdt : Fdt) : Option Fdt := do
  let (chosen, fdt) ←
    match fdt.pathOffset [] [⟨"chosen", none⟩] with
    | some chosen => pure (chosen, fdt)
    | none => do
      let fdt ← fdt.addSubnode [] ⟨"chosen", none⟩
      pure ([⟨"chosen", none⟩], fdt)
  let fdt := fdt.setprop chosen "bootargs" (.text arguments)
  let fdt ← fdt.addSubnode chosen ⟨"sbi-console", none⟩
  let fdt := fdt.setprop (chosen ++ [⟨"sbi-console", none⟩]) "compatible"
    (.text "riscv,sbi-debug-console")
  pure (fdt.setprop chosen "stdout-path" (.text "/chosen/sbi-console"))

/-- The memory that the kernel must not use. -/
def patchReserved (memStart memSize : ℕ) (fdt : Fdt) : Option Fdt := do
  let (reserved, fdt) ←
    match fdt.pathOffset [] [⟨"reserved-memory", none⟩] with
    | some reserved => pure (reserved, fdt)
    | none => do
      let path : NodePath := [⟨"reserved-memory", none⟩]
      let fdt ← fdt.addSubnode [] ⟨"reserved-memory", none⟩
      let fdt := fdt.setprop path "#address-cells" (.u32 2)
      let fdt := fdt.setprop path "#size-cells" (.u32 2)
      pure (path, fdt.setprop path "ranges" .empty)
  let fdt ← addReserved reserved ⟨"memory", some 0x4000afa00000⟩ (memStart + memSize - reservedSize)
    reservedSize fdt
  addReserved reserved ⟨"bhx-purgatory", some (memStart + purgatoryOffset)⟩
    (memStart + purgatoryOffset) 0x1000 fdt

/-- The nodes of the devices. -/
def patchSoc (virtioNodes : List VirtioMmioNode) (uartAddr : Option ℕ) (fdt : Fdt) :
    Option Fdt := do
  let soc ← fdt.pathOffset [] [⟨"soc", none⟩]
  let plic ← fdt.pathOffset [] [⟨"soc", none⟩, ⟨"interrupt-controller", some 0xc000000⟩]
  let found := fdt.getPhandle plic
  let plicPhandle := if found = 0 then fdt.findMaxPhandle + 1 else found
  let fdt := if found = 0 then fdt.setprop plic "phandle" (.u32 plicPhandle) else fdt
  let fdt ← virtioNodes.foldlM (addVirtio soc plicPhandle) fdt
  uartAddr.elim (pure fdt) (addUart soc plicPhandle fdt)

/-- `verify_dtb_invariants`. -/
def verifyDtbInvariants (fdt : Fdt) (memStart : ℕ) : Bool :=
  let purgPa := memStart + purgatoryOffset
  ((fdt.pathOffset [] [⟨"reserved-memory", none⟩, ⟨"bhx-purgatory", some purgPa⟩]).any fun node ↦
      fdt.get node "reg" = some (.reg purgPa 0x1000) && (fdt.get node "no-map").isSome) &&
    (fdt.pathOffset [] [⟨"memory", some memStart⟩]).isSome &&
    (fdt.pathOffset [] [⟨"chosen", none⟩]).any fun chosen ↦ (fdt.get chosen "bootargs").isSome

/-- `modify_dtb`. -/
def modifyDtb (fdt : Fdt) (bootDevice : BootDevice) (memStart memSize : ℕ)
    (virtioNodes : List VirtioMmioNode) (uartAddr : Option ℕ) (virtioConsoleAttached : Bool)
    (extraBootargs : Option String) : Option Fdt := do
  let fdt ← patchMemory memStart memSize fdt
  let fdt ← patchChosen (bootargs bootDevice virtioConsoleAttached extraBootargs) fdt
  let fdt ← patchReserved memStart memSize fdt
  let fdt ← patchSoc virtioNodes uartAddr fdt
  if verifyDtbInvariants fdt memStart then some fdt else none

/-! ### The nodes of the virtio devices -/

/-- The kernel finds a virtio device at the address. -/
def Present (fdt : Fdt) (addr size : ℕ) : Prop :=
  ∃ node ∈ fdt, node.parent.map NodeName.base = ["soc"] ∧
    fdt.get node.path "compatible" = some (.text "virtio,mmio") ∧
    fdt.get node.path "reg" = some (.reg addr size)

instance (fdt : Fdt) (addr size : ℕ) : Decidable (Present fdt addr size) :=
  inferInstanceAs (Decidable (∃ _ ∈ fdt, _))

section Nodes

variable {fdt fdt' : Fdt} {soc : NodePath} {plicPhandle : ℕ} {node : VirtioMmioNode}

theorem present_of_get {name : NodeName} {addr size : ℕ} (hsoc : soc.map NodeName.base = ["soc"])
    (hcompatible : fdt.get (soc ++ [name]) "compatible" = some (.text "virtio,mmio"))
    (hreg : fdt.get (soc ++ [name]) "reg" = some (.reg addr size)) : Present fdt addr size := by
  obtain ⟨found, hmem, hpath⟩ := Fdt.Has.of_get hreg
  obtain ⟨hparent, -⟩ := append_inj' hpath rfl
  refine ⟨found, hmem, ?_, ?_, ?_⟩
  · rw [hparent, hsoc]
  · rw [hpath, hcompatible]
  · rw [hpath, hreg]

theorem get_addVirtio (h : addVirtio soc plicPhandle fdt node = some fdt') :
    fdt'.get (soc ++ [node.name]) "compatible" = some (.text "virtio,mmio") ∧
      fdt'.get (soc ++ [node.name]) "reg" = some (.reg node.addr node.size) := by
  obtain ⟨added, hadded, hrest⟩ := bind_eq_some_iff.mp h
  obtain rfl := some.inj hrest
  have hhas : added.Has (soc ++ [node.name]) := (Fdt.has_addSubnode hadded).mpr (.inl rfl)
  constructor
  · rw [Fdt.get_setprop_of_ne (.inr (by decide)), Fdt.get_setprop_of_ne (.inr (by decide)),
      Fdt.get_setprop_of_ne (.inr (by decide)), Fdt.get_setprop_self hhas]
  · rw [Fdt.get_setprop_of_ne (.inr (by decide)), Fdt.get_setprop_of_ne (.inr (by decide)),
      Fdt.get_setprop_self (Fdt.has_setprop.mpr hhas)]

/-- A node is added where there was none, so that every property of the others stays. -/
theorem get_of_addVirtio (h : addVirtio soc plicPhandle fdt node = some fdt')
    (hget : fdt.get path key = some value) : fdt'.get path key = some value := by
  obtain ⟨added, hadded, hrest⟩ := bind_eq_some_iff.mp h
  obtain rfl := some.inj hrest
  have hne : path ≠ soc ++ [node.name] := by
    rintro rfl
    exact (Fdt.addSubnode_eq_some hadded).1 (Fdt.Has.of_get hget)
  rw [Fdt.get_setprop_of_ne (.inl hne), Fdt.get_setprop_of_ne (.inl hne),
    Fdt.get_setprop_of_ne (.inl hne), Fdt.get_setprop_of_ne (.inl hne)]
  exact Fdt.get_addSubnode hadded hget

variable {nodes : List VirtioMmioNode}

section

variable (h : nodes.foldlM (addVirtio soc plicPhandle) fdt = some fdt')
include h

theorem get_of_foldlM_addVirtio (hget : fdt.get path key = some value) :
    fdt'.get path key = some value := by
  induction nodes generalizing fdt with
  | nil =>
    obtain rfl := some.inj h
    exact hget
  | cons node nodes ih =>
    obtain ⟨added, hadded, hrest⟩ := bind_eq_some_iff.mp (foldlM_cons.symm.trans h)
    exact ih hrest (get_of_addVirtio hadded hget)

theorem present_of_foldlM_addVirtio (hsoc : soc.map NodeName.base = ["soc"])
    (hnode : node ∈ nodes) : Present fdt' node.addr node.size := by
  induction nodes generalizing fdt with
  | nil => exact absurd hnode not_mem_nil
  | cons first nodes ih =>
    obtain ⟨added, hadded, hrest⟩ := bind_eq_some_iff.mp (foldlM_cons.symm.trans h)
    rcases mem_cons.mp hnode with rfl | hnode
    · obtain ⟨hcompatible, hreg⟩ := get_addVirtio hadded
      exact present_of_get hsoc (get_of_foldlM_addVirtio hrest hcompatible)
        (get_of_foldlM_addVirtio hrest hreg)
    · exact ih hrest hnode

end

theorem base_of_pathOffset {base : String} (h : fdt.pathOffset [] [⟨base, none⟩] = some path) :
    path.map NodeName.base = [base] := by
  obtain ⟨child, hchild, hrest⟩ := bind_eq_some_iff.mp h
  obtain rfl := some.inj hrest
  obtain ⟨found, hfound, rfl⟩ := map_eq_some_iff.mp hchild
  have hanswers := find?_some hfound
  simp only [Bool.and_eq_true, decide_eq_true_eq, NodeName.answers] at hanswers
  simp [Node.path, hanswers.1, hanswers.2.1]

theorem present_of_patchSoc {virtioNodes : List VirtioMmioNode}
    (h : patchSoc virtioNodes none fdt = some fdt') (hnode : node ∈ virtioNodes) :
    Present fdt' node.addr node.size := by
  obtain ⟨soc, hsoc, h⟩ := bind_eq_some_iff.mp h
  obtain ⟨plic, -, h⟩ := bind_eq_some_iff.mp h
  obtain ⟨tree, hfold, h⟩ := bind_eq_some_iff.mp h
  obtain rfl := some.inj h
  exact present_of_foldlM_addVirtio hfold (base_of_pathOffset hsoc) hnode

end Nodes

/-- The kernel finds each virtio device that the tree was patched for. -/
theorem present_of_modifyDtb {fdt fdt' : Fdt} {bootDevice : BootDevice} {memStart memSize : ℕ}
    {virtioNodes : List VirtioMmioNode} {virtioConsoleAttached : Bool}
    {extraBootargs : Option String}
    (h : modifyDtb fdt bootDevice memStart memSize virtioNodes none virtioConsoleAttached
      extraBootargs = some fdt') {node : VirtioMmioNode} (hnode : node ∈ virtioNodes) :
    Present fdt' node.addr node.size := by
  obtain ⟨_, -, h⟩ := bind_eq_some_iff.mp h
  obtain ⟨_, -, h⟩ := bind_eq_some_iff.mp h
  obtain ⟨_, -, h⟩ := bind_eq_some_iff.mp h
  obtain ⟨tree, hsoc, h⟩ := bind_eq_some_iff.mp h
  split_ifs at h
  obtain rfl := some.inj h
  exact present_of_patchSoc hsoc hnode

end Bhx.DeviceTree
