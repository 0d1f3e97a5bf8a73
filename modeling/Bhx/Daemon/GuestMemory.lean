import Bhx.Daemon.Attachments

/-!
# The memory of a guest

To the attachments of an L2CPU this abstraction adds its memory (`GuestView`). A step that stores a
word and succeeds changes the memory at one address, and a word that was read is the one in the
memory (`GuestNext`); whether a step succeeds is left open.

An image is stored word by word. When that succeeds the image is in the memory (`Holds`), and
whether it does or not, nothing changes outside of the area of the image (`settles_nocWriteBulk`). A
guest that parks stores a magic value and the addresses of a few of its fields, and
`GuestView.parked` is what `read_parked_release_meta` finds of them.
-/

set_option autoImplicit false

namespace Bhx.Daemon

open SharedMemory Chip Machine.L1Layout Function DaemonWorld

variable {ι : Type}
variable {w : DaemonWorld ι}

/-! ### The abstraction -/

/-- The memory of an L2CPU and what the daemon holds for it. -/
structure GuestView where
  ram : ℕ → UInt32
  held : Attachments

/-- The memory of an L2CPU and what the daemon holds for it. -/
def DaemonWorld.guest (w : DaemonWorld ι) (l2cpu : L2CpuIdx) : GuestView :=
  ⟨w.ram l2cpu, w.attachments l2cpu⟩

/-- The word that a step stores in the memory of the L2CPU, with its address. -/
def RpcOp.store (l2cpu : L2CpuIdx) : RpcOp → Option (ℕ × UInt32)
  | .write32 target addr value => if target = l2cpu then some (addr, value) else none
  | .image target part index word =>
    if target = l2cpu then some (partAddr l2cpu part + 4 * index, word) else none
  | .wake target addr => if target = l2cpu then some (addr, 1) else none
  | _ => none

/-- The memory after a step that may have stored a word. -/
def afterStore (ram : ℕ → UInt32) : Option (ℕ × UInt32) → ℕ → UInt32
  | some (addr, value) => Function.update ram addr value
  | none => ram

/-- The steps of the abstraction. -/
structure GuestNext (l2cpu : L2CpuIdx) (op : RpcOp) (v : GuestView) (reply : Reply)
    (v' : GuestView) :
    Prop where
  held : AttachNext .any l2cpu op v.held reply v'.held
  ram : v'.ram = if reply.ok then afterStore v.ram (op.store l2cpu) else v.ram
  word : ∀ addr, op = .read32 l2cpu addr → ∀ word ∈ reply.word, word = v.ram addr

theorem tryStore_guest (w : DaemonWorld ι) (target l2cpu : L2CpuIdx) (addr : ℕ) (value : UInt32) :
    (w.tryStore target addr value).2.ram l2cpu =
      if (w.tryStore target addr value).1.ok then
        afterStore (w.ram l2cpu) (if target = l2cpu then some (addr, value) else none)
      else w.ram l2cpu := by
  unfold tryStore
  by_cases hluck : w.luck = true
  · by_cases htarget : target = l2cpu
    · subst htarget
      simp [hluck, store, tried, afterStore]
    · simp [hluck, store, tried, afterStore, htarget, Ne.symm htarget]
  · simp [hluck, tried]

/-- While no step is to fail, none is after a step. -/
theorem rpcExec_faults (op : RpcOp) (hfaults : w.faults = .none) :
    (rpcExec op w).2.faults = .none := by
  have hstore (target : L2CpuIdx) (addr : ℕ) (value : UInt32) :
      (w.tryStore target addr value).2.faults = .none := by
    simp [tryStore, luck, tried, store, hfaults, Faults.none]
  have htried : w.tried.faults = .none := by simp [tried, hfaults, Faults.none]
  cases op with
  | write32 target addr value => exact hstore _ _ _
  | image target part index word => exact hstore _ _ _
  | wake target addr => exact hstore _ _ _
  | read32 target addr =>
    change (if _ then _ else _ : Reply × DaemonWorld ι).2.faults = _
    split_ifs
    · exact htried
    · exact htried
  | peekSlot | takeSlot | putSlot | editSlot | lockEngine | hasDispatcher | dropEngine =>
    rw [← hfaults]
    exact withLock_keeps faults rfl
  | bringUp =>
    change (if _ then _ else if _ then _ else if _ then _ else _ : Reply ×
      DaemonWorld ι).2.faults = _
    split_ifs
    · exact hfaults
    · exact hfaults
    · exact htried
    · exact htried
  | dupFd | trial => exact htried
  | _ => exact hfaults

/-- The abstraction is one: each step of a thread is one of its steps. -/
theorem guestNext_rpcExec (l2cpu : L2CpuIdx) (op : RpcOp) (w : DaemonWorld ι) :
    GuestNext l2cpu op (w.guest l2cpu) (rpcExec op w).1 ((rpcExec op w).2.guest l2cpu) := by
  refine ⟨attachNext_rpcExec l2cpu op w fun _ _ ↦ trivial, ?_, fun addr hop word hword ↦ ?_⟩
  · cases op with
    | write32 target addr value => exact tryStore_guest w target l2cpu addr value
    | image target part index word =>
      refine (tryStore_guest w target l2cpu _ word).trans ?_
      by_cases htarget : target = l2cpu
      · subst htarget
        rfl
      · simp only [rpcExec, RpcOp.store, htarget, if_false]
        rfl
    | wake target addr => exact tryStore_guest w target l2cpu addr 1
    | read32 target addr =>
      by_cases hluck : w.luck = true <;>
        simp [rpcExec, hluck, guest, tried, RpcOp.store, afterStore]
    | bringUp =>
      refine Eq.trans ?_ (ite_self _).symm
      change (if _ then _ else if _ then _ else if _ then _ else _ : Reply ×
        DaemonWorld ι).2.ram _ = _
      split_ifs <;> rfl
    | peekSlot | takeSlot | putSlot | editSlot | lockEngine | hasDispatcher | dropEngine =>
      refine Eq.trans ?_ (ite_self _).symm
      exact withLock_keeps (ram · l2cpu) rfl
    | _ => exact (ite_self _).symm
  · subst hop
    by_cases hluck : w.luck = true
    · simpa [rpcExec, hluck, guest, eq_comm] using hword
    · simp [rpcExec, hluck] at hword

variable {l2cpu : L2CpuIdx} {v : GuestView}

section Guest

variable {α : Type} {part : RpcM α} {post : α → Attachments → Prop} {fail : Attachments → Prop}
  {op : RpcOp} {reply : Reply}

/-- What is left of the memory and the attachments. -/
abbrev Guests (l2cpu : L2CpuIdx) (part : RpcM α) (post : α → GuestView → Prop)
    (fail : GuestView → Prop) (v : GuestView) : Prop :=
  Settles (GuestNext l2cpu) (fun _ _ ↦ True) part post (fun _ ↦ fail) v

/-- Stores nothing in the memory of the L2CPU. -/
def RpcOp.Storeless (l2cpu : L2CpuIdx) (op : RpcOp) : Prop := op.store l2cpu = none

theorem GuestNext.ram_of_storeless {v' : GuestView} (h : GuestNext l2cpu op v reply v')
    (hop : op.Storeless l2cpu) : v'.ram = v.ram := by
  rw [h.ram, hop]
  exact ite_self _

/-- A step that neither stores a word nor changes the attachments. -/
theorem GuestNext.eq {v' : GuestView} (h : GuestNext l2cpu op v reply v') (hram : v'.ram = v.ram)
    (hop : op.Still) : v' = v := by
  have hheld : v'.held = v.held := h.held.2.trans (hop.change l2cpu reply v.held)
  cases v
  cases v'
  exact congrArg₂ GuestView.mk hram hheld

theorem guests_trial {rest : Reply → RpcM α} {post : α → GuestView → Prop} {fail : GuestView → Prop}
    (hfail : fail v) (h : ∀ reply, Guests l2cpu (rest reply) post fail v) :
    Guests l2cpu (askOk .trial >>= rest) post fail v := by
  have heq (reply : Reply) (v' : GuestView) (hnext : GuestNext l2cpu .trial v reply v') : v' = v :=
    hnext.eq (hnext.ram_of_storeless rfl) trivial
  refine runs_askOk (fun reply v' hnext _ ↦ ?_) fun reply v' hnext _ ↦ ?_
  · rw [heq reply v' hnext]
    exact hfail
  · rw [heq reply v' hnext]
    exact h reply

theorem guests_store {addr : ℕ} {value : UInt32} (hstore : op.store l2cpu = some (addr, value))
    (hop : op.Still) :
    Guests l2cpu (do let _ ← askOk op)
      (fun _ v' ↦ v'.held = v.held ∧ v'.ram = update v.ram addr value)
      (fun v' ↦ v' = v) v := by
  refine runs_askOk (fun reply v' hnext hok ↦ ?_) fun reply v' hnext hok ↦ ?_
  · refine hnext.eq ?_ hop
    rw [hnext.ram, hok]
    rfl
  · refine ⟨hnext.held.2.trans (hop.change l2cpu reply v.held), ?_⟩
    rw [hnext.ram, hok, hstore]
    rfl

theorem guests_write32 (addr : ℕ) (value : UInt32) :
    Guests l2cpu (write32 l2cpu addr value)
      (fun _ v' ↦ v'.held = v.held ∧ v'.ram = update v.ram addr value)
      (fun v' ↦ v' = v) v :=
  guests_store (if_pos rfl) trivial

theorem guests_of_leaves (h : Leaves .any l2cpu part post fail v.held) :
    Guests l2cpu part (fun value v' ↦ post value v'.held) (fun v' ↦ fail v'.held) v :=
  (Settles.lift GuestView.held (fun _ _ _ _ ↦ ⟨trivial, fun _ _ hnext ↦ ⟨trivial, hnext.held⟩⟩)
    trivial h).mono (fun _ _ hpost ↦ hpost.2) fun _ _ hfail ↦ hfail.2

/-- What a part leaves in a run, next to anything that leaves alone the memory and the
attachments. -/
theorem run_guests {post : α → GuestView → Prop} {fail : GuestView → Prop}
    {environment : ℕ → DaemonWorld ι → DaemonWorld ι}
    (henv : ∀ clock w, (environment clock w).guest l2cpu = w.guest l2cpu) (clock : ℕ)
    (h : Guests l2cpu part post fail (w.guest l2cpu)) :
    Settled post (fun _ ↦ fail) (part.run.run rpcExec environment clock w).result
      ((part.run.run rpcExec environment clock w).state.guest l2cpu) :=
  Settles.run (fun w : DaemonWorld ι ↦ w.guest l2cpu) (guestNext_rpcExec l2cpu) henv clock h

end Guest

/-! ### Images in the memory -/

/-- The image is in the memory from an address on. -/
def Holds (ram : ℕ → UInt32) (base : ℕ) (image : Image) : Prop :=
  ∀ index word, image[index]? = some word → ram (base + 4 * index) = word

/-- The address is not one of the image. -/
def Outside (base : ℕ) (image : Image) (addr : ℕ) : Prop :=
  ∀ index < image.length, addr ≠ base + 4 * index

theorem settles_nocWriteBulk (part : ImagePart) (image : Image) :
    Guests l2cpu (nocWriteBulk l2cpu part image)
      (fun _ v' ↦ v'.held = v.held ∧ Holds v'.ram (partAddr l2cpu part) image ∧
        ∀ addr, Outside (partAddr l2cpu part) image addr → v'.ram addr = v.ram addr)
      (fun v' ↦ v'.held = v.held ∧
        ∀ addr, Outside (partAddr l2cpu part) image addr → v'.ram addr = v.ram addr) v := by
  -- what was stored is what is not left in the list
  let stored (items : List (UInt32 × ℕ)) (v' : GuestView) : Prop := (∀ item ∈ items,
    image[item.2]? = some item.1) ∧ v'.held = v.held ∧ (∀ index word, image[index]? = some word →
    (∀ item ∈ items, item.2 ≠ index) → v'.ram (partAddr l2cpu part + 4 * index) = word) ∧ ∀ addr,
    Outside (partAddr l2cpu part) image addr → v'.ram addr = v.ram addr
  have hall : ∀ item ∈ image.zipIdx, image[item.2]? = some item.1 := fun item hitem ↦
    List.mem_zipIdx_iff_getElem?.mp hitem
  have hstart : stored image.zipIdx v := by
    refine ⟨hall, rfl, fun index word hword hleft ↦ ?_, fun _ _ ↦ rfl⟩
    exact absurd rfl (hleft (word, index) (List.mem_zipIdx_iff_getElem?.mpr hword))
  refine (settles_forM stored (fun item items v' hv' ↦ ?_) image.zipIdx hstart).imp
    fun _ v' hv' ↦ ?_
  · obtain ⟨hitems, hheld, hwords, houtside⟩ := hv'
    have hitem := hitems item List.mem_cons_self
    have hstore : (RpcOp.image l2cpu part item.2 item.1).store l2cpu =
        some (partAddr l2cpu part + 4 * item.2, item.1) := if_pos rfl
    refine (guests_store hstore trivial).mono (fun _ v'' hv'' ↦ ?_) fun _ v'' hv'' ↦ ?_
    · obtain ⟨hheld', hram⟩ := hv''
      refine ⟨fun other hother ↦ hitems other (List.mem_cons_of_mem item hother),
        hheld'.trans hheld, fun index word hword hleft ↦ ?_, fun addr haddr ↦ ?_⟩
      · rw [hram]
        by_cases hself : index = item.2
        · subst hself
          simpa using (Option.some.inj (hword.symm.trans hitem)).symm
        · rw [update_of_ne (by omega)]
          refine hwords index word hword fun other hother ↦ ?_
          rcases List.mem_cons.mp hother with rfl | htail
          · exact Ne.symm hself
          · exact hleft other htail
      · rw [hram, update_of_ne (haddr item.2 (List.getElem?_eq_some_iff.mp hitem).1)]
        exact houtside addr haddr
    · subst hv''
      exact ⟨hheld, houtside⟩
  · exact ⟨hv'.2.1, fun index word hword ↦ hv'.2.2.1 index word hword (by simp), hv'.2.2.2⟩

/-! ### Recognising a park -/

/-- The number in two words of a memory. -/
def u64At (ram : ℕ → UInt32) (addr : ℕ) : ℕ := joinWords (ram addr) (ram (addr + 4))

/-- The park that is recognised when no word fails to be read. -/
def GuestView.parked (l2cpu : L2CpuIdx) (v : GuestView) : Option ParkedReleaseMeta :=
  let base := startingAddress l2cpu
  if v.held.slot.isNone then none
  else if u64At v.ram (base + statusOffset) ≠ statusParked then none
  else ParkedReleaseMeta.ofPublished (some (u64At v.ram (base + nextAddrPaOffset)))
    (some (u64At v.ram (base + nextModePaOffset))) (some (u64At v.ram (base + nextArg1PaOffset)))
    (some (u64At v.ram (base + hsmStatePaOffset))) (some (u64At v.ram (base + msipPaOffset)))

/-- The addresses that a parked guest has published. -/
def diskParkedMeta : ParkedReleaseMeta := ⟨0x1000, 0x1008, 0x1010, 0x1018, 0x1020⟩

end Bhx.Daemon
