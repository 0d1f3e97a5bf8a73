import Bhx.DataPlane.DrainCompleteness
import Bhx.Firmware.SlotCores

/-!
# A guest that disables a queue

The virtio way to stop a queue is to select it and write zero to QUEUE_READY. BRISC clears that
register itself after every capture, so a zero in it is its idle value: `poll_one_device` calls
`handle_queue_ready_change` only for a nonzero word, and the branch of the handler that tears a
queue down is never reached. The daemon, for its part, does not look at the READY word of a shadow
but at the addresses.

So nothing in the shadow of the queue changes, however the cores take their turns
(`Poised.shadow_eq`). The queue ends up disabled, with no chain of it dispatched, exactly when its
shadow was that of a disabled queue before (`queue_disabled_iff`); a queue that was captured goes on
being served (`disabled_queue_dispatched`).
-/

set_option autoImplicit false

namespace Bhx.Firmware

open SharedMemory Machine L1Layout Virtqueue DataPlane

variable {stores : Cell → ℕ → Bool} {op : Op} {s t : SlotScene}

/-- The guest selects a queue and writes zero to QUEUE_READY. -/
def disableQueue (slot queue : ℕ) : Prog Unit := do
  storeU32 (regAddr slot mmioQueueSel) queue
  storeU32 (regAddr slot mmioQueueReady) 0

/-- The shadow of a queue says that it is disabled: READY and the addresses are zero. -/
def Disabled (slot queue : ℕ) (w : World) : Prop :=
  cell slot (.shadow queue shadowQOffReady) w = 0 ∧
    ∀ field ∈ queueFields.tail, cell slot (.shadow queue field.2) w = 0

/-- A dispatch of the queue for whatever device is registered does nothing but read L1, as long as
the shadow stays as it is. -/
def Undispatched (slot queue : ℕ) (w : World) : Prop :=
  ∀ (M : Type) (device : VirtioDevice M) (entry : RegEntry M) (passes : ℕ), entry.slot = slot →
    Ensures exec (ShadowKept slot queue) (fun op _ ↦ ∃ addr size, op = .l1Load addr size)
      (fun _ _ ↦ True) (dispatchChain device passes entry queue) w

/-! ### The shadow stays -/

/-- QUEUE_READY is clear, BRISC has not seen the queue selected unless it is, and the shadow of the
queue holds the words `words`. -/
structure Untouched (slot queue : ℕ) (words : ℕ → ℕ) (w : World) : Prop where
  ready : readyWord slot w = 0
  sel : selSnap slot w = queue → selWord slot w = queue
  shadow : ∀ offset, (Cell.shadow queue offset).Valid →
    cell slot (.shadow queue offset) w = words offset

/-- The parts of the cores while the guest disables the queue. -/
def disableOutline (slot queue : ℕ) (words : ℕ → ℕ) (D : Type) :
    Outline SlotCore Op ℕ ByteStore World (SlotCore.Private D) where
  inv s := Live slot s.memory ∧ Untouched slot queue words s.memory
  rely
    | .brisc, s, s' => statusSnap slot s'.memory = statusSnap slot s.memory ∧
        statusWord slot s'.memory = statusWord slot s.memory ∧
        selSnap slot s'.memory = selSnap slot s.memory ∧
        (selWord slot s.memory = queue → selWord slot s'.memory = queue)
    | .trisc1, _, _ | .trisc2, _, _ | .driver, _, _ => True
  guarantee
    | .brisc, op, t => Live slot (exec op t.memory).2 ∧
        Untouched slot queue words (exec op t.memory).2
    | .trisc1, op, _ => Touches slot watchSelStores op
    | .trisc2, op, _ => Touches slot featureStores op
    | .driver, op, _ => op = .l1Store (regAddr slot mmioQueueSel) 4 queue ∨
        op = .l1Store (regAddr slot mmioQueueReady) 4 0
  between _ _ _ := True

/-- Neither QUEUE_SEL, its snapshot nor the shadow of the queue is stored. -/
structure SparesQueue (stores : Cell → ℕ → Bool) (queue : ℕ) : Prop where
  sel : Spared stores (.reg mmioQueueSel)
  snap : Spared stores (.snap snapOffQueueSel)
  shadow : ∀ offset, Spared stores (.shadow queue offset)

variable {slot queue : ℕ} {words : ℕ → ℕ} {D : Type} {drive : D → Prog D}

section Untouched

variable {w w' : World}

variable (h : Untouched slot queue words w)
include h

theorem Untouched.kept (hkept : CellsKept slot stores w w') (hready : readyWord slot w' = 0)
    (hqueue : SparesQueue stores queue := by exact ⟨fun _ ↦ rfl, fun _ ↦ rfl, fun _ _ ↦ rfl⟩) :
    Untouched slot queue words w' := by
  have hsel' : selWord slot w' = selWord slot w := hkept (.reg mmioQueueSel) (by decide) hqueue.sel
  have hsnap' : selSnap slot w' = selSnap slot w :=
    hkept (.snap snapOffQueueSel) (by decide) hqueue.snap
  refine ⟨hready, fun hqueue' ↦ hsel'.trans (h.sel (hsnap' ▸ hqueue')), fun offset hvalid ↦ ?_⟩
  exact (hkept _ hvalid (hqueue.shadow offset)).trans (h.shadow offset hvalid)

theorem Untouched.touches (htouches : Touches slot stores op)
    (hstores : ∀ value, stores (.reg mmioQueueReady) value = true → value = 0)
    (hqueue : SparesQueue stores queue := by exact ⟨fun _ ↦ rfl, fun _ ↦ rfl, fun _ _ ↦ rfl⟩) :
    Untouched slot queue words (exec op w).2 :=
  h.kept (htouches.kept w) (htouches.readyWord_eq_zero hstores h.ready) hqueue

theorem Untouched.load (addr : ℕ) : Untouched slot queue words (exec (.l1Load addr 4) w).2 :=
  ⟨h.ready, h.sel, h.shadow⟩

end Untouched

/-! ### The poll -/

/-- A part of BRISC's poll that begins and ends with the invariant. -/
def KeepsShadow (slot queue : ℕ) (words : ℕ → ℕ) {D α : Type} (drive : D → Prog D)
    (program : Prog α) : Prop :=
  ∀ s : SlotScene, (disableOutline slot queue words D).inv s →
    Ensures ((slotCores slot drive).access .brisc)
      (fun t t' ↦ (disableOutline slot queue words D).rely .brisc t t' ∧
        (disableOutline slot queue words D).inv t')
      ((disableOutline slot queue words D).guarantee .brisc)
      (fun _ t ↦ (disableOutline slot queue words D).inv t) program s

theorem resetless_disable :
    Resetless slot fun s s' ↦ (disableOutline slot queue words D).rely .brisc s s' ∧
      (disableOutline slot queue words D).inv s' :=
  fun _ _ hstep ↦ ⟨hstep.1.1, .inl hstep.1.2.1⟩

theorem keepsShadow_phase {α : Type} {program : Prog α}
    (hprog : program.Performs (Touches slot stores))
    (hstores : ∀ value, stores (.reg mmioQueueReady) value = true → value = 0)
    (hqueue : SparesQueue stores queue := by exact ⟨fun _ ↦ rfl, fun _ ↦ rfl, fun _ _ ↦ rfl⟩)
    (hstatus : SparesStatus stores := by exact ⟨fun _ ↦ rfl, fun _ ↦ rfl⟩) :
    KeepsShadow slot queue words drive program := by
  intro s hs
  have hop : ∀ op (t : SlotScene), Touches slot stores op → (disableOutline slot queue words D).inv
    t → (disableOutline slot queue words D).inv (accessed .brisc op t) := fun op t htouches ht ↦
    ⟨(htouches.kept t.memory).live ht.1 hstatus, ht.2.touches htouches hstores hqueue⟩
  exact (Ensures.keeping _ hprog (fun _ _ hstep _ ↦ hstep.2) hop hs).imp
    (fun op t ht ↦ hop op t ht.1 ht.2) fun _ _ ht ↦ ht.2

theorem keepsShadow_pollStatus : KeepsShadow slot queue words drive (pollStatus slot) := by
  intro s hs
  have hop : ∀ op (t : SlotScene), Touches slot statusStores op →
      Untouched slot queue words t.memory → Untouched slot queue words (exec op t.memory).2 :=
    fun op t htouches ht ↦ ht.touches htouches fun _ h ↦ nomatch h
  exact (resetless_disable.pollStatus (fun t ↦ Untouched slot queue words t.memory) (fun _ _ hstep _
    ↦ hstep.2.2) hop hs.1 hs.2).imp (fun op t ht ↦ ⟨ht.2.1, hop op t ht.1 ht.2.2⟩) fun _ _ ht ↦ ht

/-- The snapshot of QUEUE_SEL is `snap`, and the queue is selected if the selection read was it. -/
structure SelRead (slot queue : ℕ) (words : ℕ → ℕ) (D : Type) (snap sel : ℕ) (t : SlotScene) :
    Prop where
  inv : (disableOutline slot queue words D).inv t
  snap_eq : selSnap slot t.memory = snap
  selected : sel = queue → selWord slot t.memory = queue

theorem SelRead.stable {snap sel : ℕ} {t' : SlotScene} (h : SelRead slot queue words D snap sel t)
    (hstep : (disableOutline slot queue words D).rely .brisc t t' ∧
      (disableOutline slot queue words D).inv t') : SelRead slot queue words D snap sel t' :=
  ⟨hstep.2, hstep.1.2.2.1.trans h.snap_eq, fun hsel ↦ hstep.1.2.2.2 (h.selected hsel)⟩

/-- `handle_queue_sel_change` for another queue leaves the shadow alone. -/
theorem SelRead.handleQueueSelChange {snap sel : ℕ} (h : SelRead slot queue words D snap sel s)
    (hsnap : snap ≠ queue) :
    Ensures ((slotCores slot drive).access .brisc)
      (fun t t' ↦ (disableOutline slot queue words D).rely .brisc t t' ∧
        (disableOutline slot queue words D).inv t')
      ((disableOutline slot queue words D).guarantee .brisc)
      (fun _ t ↦ SelRead slot queue words D snap sel t)
      (Firmware.handleQueueSelChange slot snap sel) s := by
  have hop : ∀ op (t : SlotScene), Touches slot (selStores snap) op → SelRead slot queue words D
      snap sel t → SelRead slot queue words D snap sel (accessed .brisc op t) := by
    intro op t htouches ht
    have hkept := htouches.kept t.memory
    refine ⟨⟨hkept.live ht.inv.1, ?_⟩, ?_, fun hsel ↦ ?_⟩
    · refine ht.inv.2.touches htouches (fun value hvalue ↦ ?_) ⟨fun _ ↦ rfl, fun _ ↦ rfl, ?_⟩
      · exact eq_zero_of_setupStores (setupStores_of_selStores hvalue)
      · exact fun _ _ ↦ decide_eq_false hsnap.symm
    · exact (hkept.eq (.snap snapOffQueueSel)).trans ht.snap_eq
    · exact (hkept.eq (.reg mmioQueueSel)).trans (ht.selected hsel)
  exact (Ensures.keeping _ (touches_handleQueueSelChange slot snap sel) (fun _ _ hstep ht ↦
    ht.stable hstep) hop h).imp (fun op t ht ↦ (hop op t ht.1 ht.2).inv) fun _ _ ht ↦ ht.2

theorem SelRead.storeSnap {snap sel : ℕ} (h : SelRead slot queue words D snap sel t)
    (hsel : sel < 2 ^ 32) :
    Live slot (exec (.l1Store (snapAddr slot snapOffQueueSel) 4 sel) t.memory).2 ∧
      Untouched slot queue words
        (exec (.l1Store (snapAddr slot snapOffQueueSel) 4 sel) t.memory).2 := by
  have hkept := (touches_cell slot (.snap snapOffQueueSel) sel).kept t.memory
  have hsnap := cell_store_self slot (.snap snapOffQueueSel) sel t.memory
  rw [Nat.mod_eq_of_lt hsel] at hsnap
  refine ⟨hkept.live h.inv.1, ?_, fun hqueue ↦ ?_, ?_⟩
  · exact (hkept.eq (.reg mmioQueueReady)).trans h.inv.2.ready
  · exact (hkept.eq (.reg mmioQueueSel)).trans (h.selected (hsnap.symm.trans hqueue))
  · exact fun offset hvalid ↦ (hkept _ hvalid fun _ ↦ rfl).trans (h.inv.2.shadow offset hvalid)

theorem keepsShadow_pollQueueSel : KeepsShadow slot queue words drive (pollQueueSel slot) := by
  intro s hs
  refine ensures_read (.reg mmioQueueSel) (disableOutline slot queue words D).inv
    (fun _ _ hstep _ ↦ hstep.2) hs fun s1 hs1 ↦ ⟨⟨hs1.1, hs1.2.load _⟩, ?_⟩
  refine ensures_read (.snap snapOffQueueSel) (SelRead slot queue words D (selSnap slot s1.memory)
    (selWord slot s1.memory)) (fun _ _ hstep ht ↦ ht.stable hstep) ⟨⟨hs1.1, hs1.2.load _⟩, rfl,
    id⟩ fun s2 hs2 ↦ ⟨⟨hs2.inv.1, hs2.inv.2.load _⟩, ?_⟩
  have hread : cell slot (.snap snapOffQueueSel) s2.memory = selSnap slot s1.memory := hs2.snap_eq
  have hs3 : SelRead slot queue words D (selSnap slot s1.memory) (selWord slot s1.memory)
      (accessed .brisc (.l1Load (Cell.addr slot (.snap snapOffQueueSel)) 4)
        s2) := ⟨⟨hs2.inv.1, hs2.inv.2.load _⟩, hs2.snap_eq, hs2.selected⟩
  rw [hread]
  unfold Program.onlyIf
  split_ifs with hchanged
  · have hold : selSnap slot s1.memory ≠ queue :=
      fun heq ↦ hchanged ((hs1.2.sel heq).trans heq.symm)
    refine Ensures.bind ((hs3.handleQueueSelChange hold).bind fun _ s4 hs4 ↦ ?_)
      fun _ _ hpost ↦ hpost
    refine ensures_last_store _ (fun _ _ hstep ht ↦ ht.stable hstep) hs4 fun t ht ↦ ?_
    have hstored := ht.storeSnap (cell_lt (.reg mmioQueueSel) s1.memory)
    exact ⟨hstored, hstored⟩
  · exact hs3.inv

theorem keepsShadow_pollQueueReady (sel : ℕ) :
    KeepsShadow slot queue words drive (pollQueueReady slot sel) := by
  intro s hs
  refine ensures_read (.reg mmioQueueReady) (disableOutline slot queue words D).inv
    (fun _ _ hstep _ ↦ hstep.2) hs fun t ht ↦ ⟨⟨ht.1, ht.2.load _⟩, ?_⟩
  rw [show cell slot (.reg mmioQueueReady) t.memory = 0 from ht.2.ready]
  exact ⟨ht.1, ht.2.load _⟩

theorem keepsShadow_pollOneDevice (hslot : slot < numSlots) :
    KeepsShadow slot queue words drive (pollOneDevice slot) := by
  intro s hs
  refine (keepsShadow_pollStatus s hs).bind fun _ s1 hs1 ↦ ?_
  refine (keepsShadow_pollQueueSel s1 hs1).bind fun sel s2 hs2 ↦ ?_
  refine (keepsShadow_pollQueueReady sel s2 hs2).bind fun _ s3 hs3 ↦ ?_
  have hnotify : KeepsShadow slot queue words drive (pollQueueNotify slot) :=
    keepsShadow_phase (touches_pollQueueNotify hslot) fun _ h ↦ nomatch h
  have hrest : KeepsShadow slot queue words drive (pollRest slot) :=
    keepsShadow_phase touches_pollRest fun _ h ↦ nomatch h
  exact (hnotify s3 hs3).bind fun _ s4 hs4 ↦ hrest s4 hs4

/-! ### The run -/

/-- What leaves the cells of the invariant alone keeps it and is relied on. -/
theorem disable_kept {s' : SlotScene} (hinv : (disableOutline slot queue words Unit).inv s)
    (hkept : CellsKept slot stores s.memory s'.memory) (hready : readyWord slot s'.memory = 0)
    (hqueue : SparesQueue stores queue := by exact ⟨fun _ ↦ rfl, fun _ ↦ rfl, fun _ _ ↦ rfl⟩)
    (hstatus : SparesStatus stores := by exact ⟨fun _ ↦ rfl, fun _ ↦ rfl⟩) :
    (disableOutline slot queue words Unit).inv s' ∧
      ∀ core, (disableOutline slot queue words Unit).rely core s s' := by
  refine ⟨⟨hkept.live hinv.1 hstatus, hinv.2.kept hkept hready hqueue⟩, fun core ↦ ?_⟩
  cases core with
  | brisc =>
    refine ⟨hkept.snap_eq hstatus.snap, hkept.status_eq hstatus.word,
      hkept (.snap snapOffQueueSel) (by decide) hqueue.snap, fun hsel ↦ ?_⟩
    exact (hkept (.reg mmioQueueSel) (by decide) hqueue.sel).trans hsel
  | _ => trivial

theorem disable_touches (core : SlotCore) (hinv : (disableOutline slot queue words Unit).inv s)
    (htouches : Touches slot stores op)
    (hstores : ∀ value, stores (.reg mmioQueueReady) value = true → value = 0)
    (hqueue : SparesQueue stores queue := by exact ⟨fun _ ↦ rfl, fun _ ↦ rfl, fun _ _ ↦ rfl⟩)
    (hstatus : SparesStatus stores := by exact ⟨fun _ ↦ rfl, fun _ ↦ rfl⟩) :
    let next := ((slotCores slot fun _ : Unit ↦ disableQueue slot queue).access core op s).2
    (disableOutline slot queue words Unit).inv next ∧
      ∀ other, other ≠ core → (disableOutline slot queue words Unit).rely other s next := by
  have hkept := disable_kept hinv (htouches.access_kept core s)
    (htouches.readyWord_eq_zero hstores hinv.2.ready) hqueue hstatus
  exact ⟨hkept.1, fun other _ ↦ hkept.2 other⟩

theorem disable_select (s' : SlotScene) (hqueue : queue < maxQueuesPerSlot)
    (hinv : (disableOutline slot queue words Unit).inv s)
    (hs' : s'.memory = (exec (.l1Store (regAddr slot mmioQueueSel) 4 queue) s.memory).2) :
    (disableOutline slot queue words Unit).inv s' ∧
      ∀ core, (disableOutline slot queue words Unit).rely core s s' := by
  have hkept := (touches_cell slot (.reg mmioQueueSel) queue).kept s.memory
  have hsel : selWord slot s'.memory = queue := by
    rw [hs']
    refine (cell_store_self slot (.reg mmioQueueSel) queue s.memory).trans (Nat.mod_eq_of_lt ?_)
    exact hqueue.trans (by decide)
  change CellsKept _ _ _ (exec (.l1Store (regAddr slot mmioQueueSel) 4 queue) s.memory).2 at hkept
  rw [← hs'] at hkept
  refine ⟨⟨hkept.live hinv.1, ?_, fun _ ↦ hsel, ?_⟩, fun core ↦ ?_⟩
  · exact (hkept.eq (.reg mmioQueueReady)).trans hinv.2.ready
  · exact fun offset hvalid ↦ (hkept _ hvalid fun _ ↦ rfl).trans (hinv.2.shadow offset hvalid)
  · cases core with
    | brisc =>
      exact ⟨hkept.snap_eq, hkept.status_eq, hkept.eq (.snap snapOffQueueSel), fun _ ↦ hsel⟩
    | _ => trivial

theorem disableOutline_sound (hslot : slot < numSlots) (hqueue : queue < maxQueuesPerSlot) :
    (disableOutline slot queue words Unit).Sound
      (slotCores slot fun _ ↦ disableQueue slot queue) (Unconstrained slot) := by
  apply Outline.Sound.ofRely
  case hrefl =>
    intro core s
    cases core with
    | brisc => exact ⟨rfl, rfl, rfl, id⟩
    | _ => trivial
  case htrans =>
    intro core s s' s'' h h'
    cases core with
    | brisc =>
      exact ⟨h'.1.trans h.1, h'.2.1.trans h.2.1, h'.2.2.1.trans h.2.2.1,
        fun hsel ↦ h'.2.2.2 (h.2.2.2 hsel)⟩
    | _ => trivial
  case hstable => exact fun _ _ _ _ _ _ ↦ trivial
  case hpass =>
    intro core other s _
    cases other with
    | brisc => exact ⟨rfl, rfl, rfl, id⟩
    | _ => trivial
  case hloop =>
    intro core seen s hinv _
    refine ⟨hinv, ?_⟩
    cases core with
    | brisc => exact (keepsShadow_pollOneDevice hslot _ hinv).weaken fun _ _ _ ↦ trivial
    | trisc1 => exact Ensures.ofAlways (touches_watchSel slot seen) _
    | trisc2 => exact Ensures.ofAlways (touches_watchFeatures slot seen) _
    | driver => exact fun _ _ ↦ ⟨.inl rfl, fun _ _ ↦ ⟨.inr rfl, trivial⟩⟩
  case haccess =>
    intro c core op next _ _ hguar h
    have hinv := h.inv
    cases core with
    | brisc =>
      refine ⟨hguar, fun other hother ↦ .inl ?_⟩
      cases other with
      | brisc => exact absurd rfl hother
      | _ => trivial
    | trisc1 =>
      have htouched := disable_touches .trisc1 hinv hguar
        fun value hvalue ↦ eq_zero_of_watchSelStores hvalue
      exact ⟨htouched.1, fun other hother ↦ .inl (htouched.2 other hother)⟩
    | trisc2 =>
      have htouched := disable_touches .trisc2 hinv hguar fun _ hvalue ↦ nomatch hvalue
      exact ⟨htouched.1, fun other hother ↦ .inl (htouched.2 other hother)⟩
    | driver =>
      rcases hguar with rfl | rfl
      · have hselected := disable_select ((slotCores slot fun _ : Unit ↦
          disableQueue slot queue).access .driver _ c.scene).2 hqueue hinv rfl
        exact ⟨hselected.1, fun other _ ↦ .inl (hselected.2 other)⟩
      · have htouched := disable_touches .driver hinv (touches_clearReady slot)
          fun value hvalue ↦ eq_zero_of_watchSelStores hvalue
        exact ⟨htouched.1, fun other hother ↦ .inl (htouched.2 other hother)⟩
  case hact =>
    intro c event hallowed h
    have hkept := Outsider.kept (fun _ : Unit ↦ disableQueue slot queue) hallowed c.scene
    have hready := (hkept.eq (.reg mmioQueueReady)).trans h.inv.2.ready
    have hstep := disable_kept h.inv hkept hready
    exact ⟨hstep.1, fun core ↦ .inl (hstep.2 core)⟩

/-- The guest is about to disable the queue: QUEUE_READY is clear, BRISC is between polls with no
reset pending, and has not seen the queue selected unless it is. -/
structure Poised (slot queue : ℕ) (c : SlotConfig Unit) : Prop where
  live : Live slot c.scene.memory
  ready : readyWord slot c.scene.memory = 0
  sel : selSnap slot c.scene.memory = queue → selWord slot c.scene.memory = queue
  brisc : c.rest .brisc = .done ()
  trisc1 : (c.rest .trisc1).Always (Touches slot watchSelStores) fun _ ↦ True
  trisc2 : (c.rest .trisc2).Always (Touches slot featureStores) fun _ ↦ True
  driver : c.rest .driver = .done ()

/-- The shadow of the queue holds what it held, in every state reached. -/
theorem Poised.shadow_eq {c : SlotConfig Unit} (h : Poised slot queue c) (hslot : slot < numSlots)
    (hqueue : queue < maxQueuesPerSlot) {turns : List (Turn SlotCore ByteStore)}
    (hturns : (slotCores slot fun _ ↦ disableQueue slot queue).Admits (Unconstrained slot) c
      turns) (offset : ℕ) (hvalid : (Cell.shadow queue offset).Valid) :
    cell slot (.shadow queue offset)
        ((slotCores slot fun _ ↦ disableQueue slot queue).follow c turns).scene.memory =
      cell slot (.shadow queue offset) c.scene.memory := by
  have hholds : (disableOutline slot queue (fun offset ↦ cell slot (.shadow queue offset)
      c.scene.memory) Unit).Holds (slotCores slot fun _ ↦ disableQueue slot queue) c := by
    refine ⟨⟨h.live, h.ready, h.sel, fun _ _ ↦ rfl⟩, fun core ↦ ?_⟩
    cases core with
    | brisc =>
      rw [h.brisc]
      trivial
    | trisc1 => exact Ensures.ofAlways h.trisc1 _
    | trisc2 => exact Ensures.ofAlways h.trisc2 _
    | driver =>
      rw [h.driver]
      trivial
  exact ((disableOutline_sound hslot hqueue).follow hholds hturns).inv.2.shadow offset hvalid

/-- A dispatch refuses a queue without addresses. -/
theorem Disabled.undispatched {w : World} (h : Disabled slot queue w) :
    Undispatched slot queue w := by
  intro M device entry passes hentry
  subst hentry
  have hlow : (shadowWords w.l1 entry.slot queue).descLo = 0 :=
    h.2 (mmioQueueDescLow, shadowQOffDescLo) (by decide)
  have hhigh : (shadowWords w.l1 entry.slot queue).descHi = 0 :=
    h.2 (mmioQueueDescHigh, shadowQOffDescHi) (by decide)
  have hrefused : configure entry.slot entry.l2cpu queue (shadowWords w.l1 entry.slot queue) =
      none := by
    simp [configure, hlow, hhigh]
  unfold dispatchChain
  split_ifs with hqueues
  · trivial
  · have hread : Ensures exec (ShadowKept entry.slot queue) (fun op _ ↦ ∃ addr size,
      op = .l1Load addr size) (fun words _ ↦ words = shadowWords w.l1 entry.slot queue ∧ True)
      (readShadow entry.slot queue) w := readShadow_ensures (fun _ _ hstep ↦ hstep) (fun _ _ _ _ ↦
      trivial) (fun _ _ _ _ ↦ trivial) trivial
    refine hread.bind fun words s hwords ↦ ?_
    rw [hwords.1, hrefused]
    trivial

/-- Disabling a queue. Assumes: a slot of the engine and a queue that has a shadow; the guest is
about to disable the queue, with QUEUE_READY clear, BRISC between polls, no reset pending, and the
queue selected if BRISC saw it selected last; the guest then selects the queue and writes zero to
QUEUE_READY, as often as it likes, and everybody takes turns in any order. In every state reached
the queue is disabled and the daemon dispatches none of its chains exactly when its shadow was that
of a disabled queue before. -/
theorem queue_disabled_iff (hslot : slot < numSlots) (hqueue : queue < maxQueuesPerSlot)
    {c : SlotConfig Unit} (h : Poised slot queue c) {turns : List (Turn SlotCore ByteStore)}
    (hturns : (slotCores slot fun _ ↦ disableQueue slot queue).Admits (Unconstrained slot) c
      turns) :
    let final :=
      ((slotCores slot fun _ ↦ disableQueue slot queue).follow c turns).scene.memory
    Disabled slot queue final ∧ Undispatched slot queue final ↔
      Disabled slot queue c.scene.memory := by
  intro final
  have hsame : Disabled slot queue final ↔ Disabled slot queue c.scene.memory := by
    have hready := h.shadow_eq hslot hqueue hturns shadowQOffReady
      (valid_shadow hqueue (by decide) (by decide))
    have hfields : ∀ field ∈ queueFields.tail, cell slot (.shadow queue field.2) final =
        cell slot (.shadow queue field.2) c.scene.memory := by
      intro field hfield
      have hoffset : 4 ∣ field.2 ∧ field.2 < shadowPerQueue := by
        revert field
        decide
      exact h.shadow_eq hslot hqueue hturns field.2 (valid_shadow hqueue hoffset.1 hoffset.2)
    unfold Disabled
    rw [hready]
    refine and_congr_right fun _ ↦ forall₂_congr fun field hfield ↦ ?_
    rw [hfields field hfield]
  constructor
  · exact fun hfinal ↦ hsame.mp hfinal.1
  · exact fun hstart ↦ ⟨hsame.mpr hstart, (hsame.mpr hstart).undispatched⟩

/-- A queue that was never captured stays disabled. -/
theorem queue_disabled_blank :
    let cores := slotCores 0 fun _ : Unit ↦ disableQueue 0 0
    let start := betweenPasses (l1World []) 0 dfselSentinel ()
    let final := (cores.follow start
      (List.replicate 3 (.core .driver) ++ List.replicate 20 (.core .brisc))).scene.memory
    Disabled 0 0 start.scene.memory ∧ Disabled 0 0 final ∧ Undispatched 0 0 final := by
  have hturns : (slotCores 0 fun _ : Unit ↦ disableQueue 0 0).Admits (Unconstrained 0)
      (betweenPasses (l1World []) 0 dfselSentinel ())
      (List.replicate 3 (.core .driver) ++ List.replicate 20 (.core .brisc)) := by
    decide +kernel
  have hpoised : Poised 0 0 (betweenPasses (l1World []) 0 dfselSentinel ()) :=
    ⟨by decide +kernel, by decide +kernel, fun _ ↦ by decide +kernel, rfl, trivial, trivial, rfl⟩
  have hstart : Disabled 0 0 (betweenPasses (l1World []) 0 dfselSentinel ()).scene.memory :=
    ⟨by decide +kernel, by decide +kernel⟩
  exact ⟨hstart, (queue_disabled_iff (by decide) (by decide) hpoised hturns).mpr hstart⟩

/-- The guest of slot `0` sets up queue `0`, and disables it after BRISC has captured it. -/
def setUpAndDisable : List (ℕ × ℕ) :=
  [(mmioQueueNum, 4), (mmioQueueDescLow, 0x30001000), (mmioQueueDescHigh, 0x4000),
    (mmioQueueDriverLow, 0x30002000), (mmioQueueDriverHigh, 0x4000),
    (mmioQueueDeviceLow, 0x30003000), (mmioQueueDeviceHigh, 0x4000), (mmioQueueReady, 1),
    (mmioQueueSel, 0), (mmioQueueReady, 0)]

/-- After two more polls of BRISC the shadow is still that of a ready queue, and the daemon
processes the two chains that the guest has left in it. -/
theorem disabled_queue_dispatched :
    let cores := slotCores 0 (scripted 0)
    let captured := cores.follow
      (betweenPasses { pairWorld 2 with l1 := fun _ ↦ 0 } 0 dfselSentinel setUpAndDisable)
      (List.replicate 16 (.core .driver) ++ List.replicate 45 (.core .brisc))
    let final := cores.follow captured
      (List.replicate 4 (.core .driver) ++ List.replicate 45 (.core .brisc))
    let dispatched := (dispatchChain sinkDevice 8 pairEntry 0).run exec Interference.none.act 0
      final.scene.memory
    cell 0 (.shadow 0 shadowQOffReady) captured.scene.memory = 1 ∧
      Cores.passes .brisc captured.scene.trace + 2 ≤ Cores.completed .brisc final ∧
      cell 0 (.shadow 0 shadowQOffReady) final.scene.memory = 1 ∧
      cell 0 (.shadow 0 shadowQOffDescLo) final.scene.memory ≠ 0 ∧
      dispatched.result.usedIdx = some 2 := by
  decide +kernel

end Bhx.Firmware
