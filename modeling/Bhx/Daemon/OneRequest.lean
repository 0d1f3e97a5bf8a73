import Bhx.Daemon.RequestSteps

/-!
# One request at a time

Two threads must not boot or release the same L2CPU at once, or one starts the guest on the images
of the other. The daemon checks that a guest is parked, and that a slot is free, under the mutex of
the slot, and gives the mutex back before it stores an image: two boot requests may both find the
guest parked, and so may a boot request and the console thread that reacts to a reboot. One of them
then wakes the guest on the kernel of the other, and the other goes on storing under the running
guest (`two_releases`).

What is missing is exclusion from the check for a parked guest to the completion of a request. If a
boot or release of an L2CPU begins, with that check, only while no other thread is between the
beginning and the completion of one for it, then all images that are stored for the L2CPU since a
thread began are the thread's own, as long as it stores images or wakes the guest. No image is
stored under a guest that another request has woken: the thread has found the guest parked since it
began, or boots it from reset. And when it starts the guest, it has stored one kernel file and one
device tree to the last word (`one_request_at_a_time`).

Scope. The statement is about the stores of the daemon. What a guest stores to its own memory, where
it has published addresses for the daemon to fill in, can be anywhere.
-/

set_option autoImplicit false

namespace Bhx.Daemon

open SharedMemory Chip List Function Option Cores

variable {ι : Type} {op : DaemonOp ι} (args : BootArgs)
  {part : ImagePart} {log : List (DaemonOp ι × Reply)} (parked : ParkedReleaseMeta)
  (target : L2CpuIdx) {l2cpu : L2CpuIdx} (image : Image) {path : Path}

/-! ### What a thread is at -/

/-- The L2CPU that a thread boots or releases, by its steps, the newest first. -/
def inProgress : List (DaemonOp ι × Reply) → Option L2CpuIdx
  | [] => none
  | (.rpc (.note (.began l2cpu _)), _) :: _ => some l2cpu
  | (.rpc (.note (.completed _)), _) :: _ => none
  | _ :: log => inProgress log

/-- The words of a part of the image, with their indices, that a thread has stored since it began,
the newest first. -/
def stored (l2cpu : L2CpuIdx) (part : ImagePart) : List (DaemonOp ι × Reply) → List (UInt32 × ℕ)
  | [] => []
  | (.rpc (.note (.began _ _)), _) :: _ => []
  | (.rpc (.image target kind index word), answer) :: log =>
    if target = l2cpu ∧ kind = part ∧ answer.ok = true then (word, index) :: stored l2cpu part log
    else stored l2cpu part log
  | _ :: log => stored l2cpu part log

/-- The L2CPU that a step begins to boot or release. -/
def DaemonOp.begins : DaemonOp ι → Option L2CpuIdx
  | .rpc (.note (.began l2cpu _)) => some l2cpu
  | _ => none

/-- The steps of a thread since it began. -/
def sinceBegan (log : List (DaemonOp ι × Reply)) : List (DaemonOp ι × Reply) :=
  log.takeWhile fun entry ↦ entry.1.begins.isNone

section Logs

variable (l2cpu : L2CpuIdx) (log : List (DaemonOp ι × Reply))

/-- Among the steps are reads of the status of a parked guest. -/
def FoundParked : Prop :=
  ∃ lo hi : Reply, lo.word.bind (fun lo ↦ hi.word.map (joinWords lo)) = some statusParked ∧
    (.rpc (.read32 l2cpu (startingAddress l2cpu + statusOffset)), lo) ∈ log ∧
    (.rpc (.read32 l2cpu (startingAddress l2cpu + statusOffset + 4)), hi) ∈ log

/-- By these steps, the thread has found the guest parked, or has set out to boot from reset. -/
def Decided : Prop :=
  FoundParked l2cpu log ∨ ∃ answer, (.rpc (.note (.cold l2cpu)), answer) ∈ log

/-- The step starts the guest of an L2CPU: it wakes hart 0, or it releases the core that the thread
boots. -/
def Starts : DaemonOp ι → Prop
  | .rpc (.wake target _) => target = l2cpu
  | .chip (.arcWrite32 addr _) => addr = l2cpuResetAddr ∧ inProgress log = some l2cpu
  | _ => False

/-- The step stores a word of an image for an L2CPU, or starts its guest. -/
def Handles : DaemonOp ι → Prop
  | .rpc (.image target _ _ _) => target = l2cpu
  | op => Starts l2cpu log op

end Logs

theorem Decided.mono {log' : List (DaemonOp ι × Reply)} (h : Decided l2cpu log)
    (hlog : log ⊆ log') : Decided l2cpu log' := by
  rcases h with ⟨lo, hi, hparked, hlo, hhi⟩ | ⟨answer, hcold⟩
  · exact .inl ⟨lo, hi, hparked, hlog hlo, hlog hhi⟩
  · exact .inr ⟨answer, hlog hcold⟩

/-- Since it began, the thread has stored all of one kernel and one device tree, and nothing else
in their places. -/
def Whole (platform : Platform) (l2cpu : L2CpuIdx) (log : List (DaemonOp ι × Reply)) : Prop :=
  ∃ (path : Path) (kernel dtb : Image), platform.files path = some kernel ∧
    stored l2cpu .kernel log = kernel.zipIdx.reverse ∧ stored l2cpu .dtb log = dtb.zipIdx.reverse

section Threads

variable [DecidableEq ι]

/-- The thread is between the beginning and the completion of a boot or release of an L2CPU. -/
def Busy (thread : ι) (l2cpu : L2CpuIdx) (s : DaemonScene ι) : Prop :=
  inProgress (accesses thread s.trace) = some l2cpu

instance (thread : ι) (l2cpu : L2CpuIdx) (s : DaemonScene ι) : Decidable (Busy thread l2cpu s) :=
  inferInstanceAs (Decidable (_ = _))

/-- Since the thread began with an L2CPU, nobody else has stored an image for it or started its
guest. -/
def Undisturbed (thread : ι) (l2cpu : L2CpuIdx) :
    List (Mark ι (DaemonOp ι) Reply Incident) → Prop
  | [] => False
  | .access other op _ :: trace =>
    (other = thread ∧ ∃ devices, op = .rpc (.note (.began l2cpu devices))) ∨
      (Handles l2cpu (accesses other trace) op → other = thread) ∧
        Undisturbed thread l2cpu trace
  | .pass _ :: trace | .act _ :: trace => Undisturbed thread l2cpu trace

/-- A thread begins a boot or release of an L2CPU only while no other thread is at one. -/
def DaemonOp.Alone (op : DaemonOp ι) (thread : ι) (s : DaemonScene ι) : Prop :=
  ∀ l2cpu ∈ op.begins, ∀ other, other ≠ thread → ¬ Busy other l2cpu s

/-- A turn keeps to that. -/
def Alone (c : DaemonConfig ι) : Turn ι Incident → Prop
  | .core thread => ∀ op ∈ (c.rest thread).nextOp, op.Alone thread c.scene
  | .act _ => True

instance [Fintype ι] (c : DaemonConfig ι) : (turn : Turn ι Incident) → Decidable (Alone c turn)
  | .core thread => inferInstanceAs (Decidable (∀ op ∈ (c.rest thread).nextOp,
    ∀ l2cpu ∈ op.begins, ∀ other, other ≠ thread → ¬ Busy other l2cpu c.scene))
  | .act _ => .isTrue trivial

end Threads

/-! ### What a thread does -/

/-- How far a thread is: the L2CPU that it boots or releases, what it has stored since it began, and
some of the steps that it has made since then. -/
structure Progress (ι : Type) where
  l2cpu : Option L2CpuIdx
  stored : L2CpuIdx → ImagePart → List (UInt32 × ℕ)
  known : List (DaemonOp ι × Reply)

/-- The log of a thread says so. -/
structure Progress.Of (p : Progress ι) (log : List (DaemonOp ι × Reply)) : Prop where
  l2cpu : inProgress log = p.l2cpu
  stored : ∀ l2cpu part, Daemon.stored l2cpu part log = p.stored l2cpu part
  known : p.known ⊆ sinceBegan log

section

variable (p : Progress ι) (l2cpu : L2CpuIdx) (part : ImagePart)

/-- More words of a part of an image have been stored. -/
def Progress.store (words : List (UInt32 × ℕ)) : Progress ι :=
  { p with
    stored := update p.stored l2cpu
      (update (p.stored l2cpu) part (words ++ p.stored l2cpu part)) }

@[simp]
theorem Progress.store_nil : p.store l2cpu part [] = p := by
  simp [store]

@[simp]
theorem Progress.store_store (words more : List (UInt32 × ℕ)) :
    (p.store l2cpu part words).store l2cpu part more = p.store l2cpu part (more ++ words) := by
  simp [store]

theorem Progress.stored_store (kind : ImagePart) (words : List (UInt32 × ℕ)) :
    (p.store l2cpu part words).stored l2cpu kind =
      if kind = part then words ++ p.stored l2cpu part else p.stored l2cpu kind := by
  simp [store, update_apply]

end

theorem DaemonOp.Apart.not_handles (h : op.Apart) (l2cpu : L2CpuIdx)
    (log : List (DaemonOp ι × Reply)) : ¬ Handles l2cpu log op := by
  cases op with
  | rpc op =>
    cases op with
    | image | wake => exact absurd h not_false
    | note note =>
      cases note with
      | cold => exact not_false
      | began | completed => exact absurd h not_false
    | _ => exact not_false
  | chip op =>
    cases op with
    | arcWrite32 addr value => exact fun hop ↦ h hop.1
    | _ => exact not_false
  | resetBoard | readFlag | setFlag => exact not_false

theorem Starts.handles (h : Starts l2cpu log op) : Handles l2cpu log op := by
  cases op with
  | rpc op =>
    cases op with
    | image => exact absurd h not_false
    | _ => exact h
  | _ => exact h

theorem sinceBegan_cons (answer : Reply) (log : List (DaemonOp ι × Reply)) (h : op.begins = none) :
    sinceBegan ((op, answer) :: log) = (op, answer) :: sinceBegan log := by
  rw [sinceBegan, takeWhile_cons_of_pos (by rw [h]; rfl)]
  rfl

theorem DaemonOp.Apart.same (h : op.Apart) : op.begins = none ∧
    (∀ answer log, inProgress ((op, answer) :: log) = inProgress log) ∧
    ∀ l2cpu part answer log, stored l2cpu part ((op, answer) :: log) = stored l2cpu part log := by
  cases op with
  | rpc op =>
    cases op with
    | image => exact absurd h not_false
    | note note =>
      cases note with
      | cold => exact ⟨rfl, fun _ _ ↦ rfl, fun _ _ _ _ ↦ rfl⟩
      | began | completed => exact absurd h not_false
    | _ => exact ⟨rfl, fun _ _ ↦ rfl, fun _ _ _ _ ↦ rfl⟩
  | _ => exact ⟨rfl, fun _ _ ↦ rfl, fun _ _ _ _ ↦ rfl⟩

/-- The other parts do not go in the place of a kernel or a device tree. -/
theorem Progress.store_otherPart (p : Progress ι) (l2cpu : L2CpuIdx)
    (words : List (UInt32 × ℕ)) (hkernel : part ≠ .kernel) (hdtb : part ≠ .dtb) :
    (p.store l2cpu part words).stored l2cpu .kernel = p.stored l2cpu .kernel ∧
      (p.store l2cpu part words).stored l2cpu .dtb = p.stored l2cpu .dtb := by
  rw [stored_store, stored_store, if_neg (Ne.symm hkernel), if_neg (Ne.symm hdtb)]
  exact ⟨rfl, rfl⟩

variable {platform : Platform}

section Serves

variable [DecidableEq ι]

/-- The images that a thread stores and the guests that it starts are those of the L2CPU it is at.
It has decided to boot or release that when it stores an image, and starts a guest on whole
images. -/
structure RequestStep (platform : Platform) (thread : ι) (op : DaemonOp ι) (s : DaemonScene ι) :
    Prop where
  busy : ∀ l2cpu, Handles l2cpu (accesses thread s.trace) op → Busy thread l2cpu s
  decided : ∀ l2cpu part index word, op = .rpc (.image l2cpu part index word) →
    Decided l2cpu (sinceBegan (accesses thread s.trace))
  whole : ∀ l2cpu, Starts l2cpu (accesses thread s.trace) op →
    Whole platform l2cpu (accesses thread s.trace)

/-- What a thread relies on: nobody acts in its name. -/
def OwnRely (thread : ι) (s s' : DaemonScene ι) : Prop :=
  accesses thread s'.trace = accesses thread s.trace

/-- A property of how far the thread is. -/
def HasProgress (thread : ι) (holds : Progress ι → Prop) (s : DaemonScene ι) : Prop :=
  ∃ p : Progress ι, p.Of (accesses thread s.trace) ∧ holds p

/-- A part of a thread that leads from one property to another, unless it fails. -/
abbrev Serves {α : Type} (platform : Platform) (thread : ι) (pre : DaemonScene ι → Prop)
    (part : DaemonM ι α) (post : α → DaemonScene ι → Prop) : Prop :=
  Establishes ((rpcThreads platform).access thread) (OwnRely thread) (RequestStep platform thread)
    pre part post

/-- The same for a part that touches neither the chip nor the flag. -/
abbrev ServesRpc {α : Type} (platform : Platform) (thread : ι) (pre : DaemonScene ι → Prop)
    (part : RpcM α) (post : α → DaemonScene ι → Prop) : Prop :=
  Establishes (fun op ↦ (rpcThreads platform).access thread (.rpc op)) (OwnRely thread)
    (fun op ↦ RequestStep platform thread (.rpc op)) pre part post

variable {α : Type} {thread : ι} {s s' : DaemonScene ι} {holds holds' : Progress ι → Prop}

theorem serves_rpc {part : RpcM α} {pre : DaemonScene ι → Prop} {post : α → DaemonScene ι → Prop}
    (h : ServesRpc platform thread pre part post) : Serves platform thread pre (rpc part) post :=
  fun s hs ↦ (h s hs).embed

theorem hasProgress_true (s : DaemonScene ι) : HasProgress thread (fun _ ↦ True) s :=
  ⟨⟨_, _, []⟩, ⟨rfl, fun _ _ ↦ rfl, nil_subset _⟩, trivial⟩

theorem HasProgress.rely (hs : HasProgress thread holds s) (h : OwnRely thread s s') :
    HasProgress thread holds s' := by
  unfold HasProgress
  rw [h]
  exact hs

/-- A step that neither stores an image nor begins or completes anything leaves how far the thread
is. -/
theorem HasProgress.access (hs : HasProgress thread holds s) (hbegins : op.begins = none)
    (hprogress : ∀ answer log, inProgress ((op, answer) :: log) = inProgress log)
    (hstored : ∀ l2cpu part answer log,
      stored l2cpu part ((op, answer) :: log) = stored l2cpu part log) :
    HasProgress thread holds ((rpcThreads platform).access thread op s).2 := by
  obtain ⟨p, hof, hp⟩ := hs
  refine ⟨p, ?_, hp⟩
  rw [accesses_access_self]
  refine ⟨(hprogress _ _).trans hof.l2cpu, fun _ _ ↦ (hstored _ _ _ _).trans (hof.stored _ _), ?_⟩
  rw [sinceBegan_cons _ _ hbegins]
  exact fun _ hmem ↦ mem_cons_of_mem _ (hof.known hmem)

theorem HasProgress.apart (hs : HasProgress thread holds s) (h : op.Apart) :
    HasProgress thread holds ((rpcThreads platform).access thread op s).2 :=
  hs.access h.same.1 h.same.2.1 h.same.2.2

theorem DaemonOp.Apart.requestStep (h : op.Apart) : RequestStep platform thread op s := by
  refine ⟨fun l2cpu hop ↦ absurd hop (h.not_handles l2cpu _), fun _ _ _ _ himage ↦ ?_,
    fun l2cpu hop ↦ absurd hop.handles (h.not_handles l2cpu _)⟩
  subst himage
  exact h.elim

/-- A part that stores no image and starts no guest leaves everything as it was. -/
theorem serves_apart {part : DaemonM ι α} (h : part.Only DaemonOp.Apart) :
    Serves platform thread (HasProgress thread holds) part fun _ ↦ HasProgress thread holds :=
  Establishes.keeping h fun _ _ _ hop hs hstep ↦ ⟨hop.requestStep, (hs.rely hstep).apart hop⟩

theorem servesRpc_silent {part : RpcM α} (h : part.Only RpcOp.Silent) :
    ServesRpc platform thread (HasProgress thread holds) part fun _ ↦ HasProgress thread holds := by
  refine Establishes.keeping h fun op s s' hop hs hstep ↦ ?_
  have hcalm : (DaemonOp.rpc op : DaemonOp ι).Calm := hop
  exact ⟨hcalm.apart.requestStep, (hs.rely hstep).apart hcalm.apart⟩

/-- The thread has decided to boot or release an L2CPU. -/
def Chosen (l2cpu : L2CpuIdx) (p : Progress ι) : Prop :=
  p.l2cpu = some l2cpu ∧ Decided l2cpu p.known

theorem servesRpc_image (part : ImagePart) (index : ℕ) (word : UInt32) {p : Progress ι}
    (hp : Chosen l2cpu p) :
    ServesRpc platform thread (HasProgress thread (· = p)) (askOk (.image l2cpu part index word))
      fun _ ↦ HasProgress thread (· = p.store l2cpu part [(word, index)]) := by
  have hask : ServesRpc platform thread (HasProgress thread (· = p))
      (ask (.image l2cpu part index word)) fun reply s ↦ reply.ok = true →
        HasProgress thread (· = p.store l2cpu part [(word, index)]) s := by
    refine establishes_step fun s s' hs hstep ↦ ?_
    obtain ⟨p, hof, rfl⟩ := hs.rely hstep
    refine ⟨⟨fun target htarget ↦ ?_, fun target _ _ _ himage ↦ ?_, fun _ h ↦ h.elim⟩, ?_⟩
    · obtain rfl : l2cpu = target := htarget
      exact hof.l2cpu.trans hp.1
    · obtain rfl : l2cpu = target := by
        injection DaemonOp.rpc.inj himage
      exact hp.2.mono hof.known
    · intro hok
      refine ⟨_, ⟨?_, fun target kind ↦ ?_, ?_⟩, rfl⟩
      · rw [accesses_access_self]
        exact hof.l2cpu
      · rw [accesses_access_self]
        change (if l2cpu = target ∧ part = kind ∧ _ = true then _ else _) = _
        rw [hof.stored target kind]
        by_cases htarget : l2cpu = target
        · subst htarget
          by_cases hpart : part = kind
          · subst hpart
            rw [if_pos ⟨rfl, rfl, hok⟩, Progress.stored_store, if_pos rfl, singleton_append]
          · rw [if_neg fun h ↦ hpart h.2.1, Progress.stored_store, if_neg (Ne.symm hpart)]
        · rw [if_neg fun h ↦ htarget h.1]
          exact congrFun (update_of_ne (Ne.symm htarget) _ _).symm kind
      · rw [accesses_access_self, sinceBegan_cons _ _ rfl]
        exact fun _ hmem ↦ mem_cons_of_mem _ (hof.known hmem)
  refine hask.bind fun reply ↦ ?_
  split_ifs with hok
  · exact establishes_pure fun _ hs ↦ hs hok
  · exact establishes_throw

theorem servesRpc_nocWriteBulk (part : ImagePart) (image : Image) {p : Progress ι}
    (hp : Chosen l2cpu p) :
    ServesRpc platform thread (HasProgress thread (· = p)) (nocWriteBulk l2cpu part image)
      fun _ ↦ HasProgress thread (· = p.store l2cpu part image.zipIdx.reverse) := by
  unfold nocWriteBulk
  generalize image.zipIdx = items
  induction items generalizing p with
  | nil =>
    refine establishes_pure fun _ hs ↦ ?_
    rw [reverse_nil, Progress.store_nil]
    exact hs
  | cons item items ih =>
    have himage : ServesRpc platform thread (HasProgress thread (· = p))
        (do let _ ← askOk (.image l2cpu part item.2 item.1))
        fun _ ↦ HasProgress thread (· = p.store l2cpu part [(item.1, item.2)]) :=
      Establishes.map (servesRpc_image part item.2 item.1 hp)
    have hstored : Chosen l2cpu (p.store l2cpu part [(item.1, item.2)]) := hp
    refine himage.bind fun _ ↦ (ih hstored).mono (fun _ hs ↦ hs) fun _ _ hs ↦ ?_
    rw [Progress.store_store, ← reverse_cons] at hs
    exact hs

theorem servesRpc_readBinFile (path : Path) :
    ServesRpc platform thread (HasProgress thread holds) (readBinFile platform path)
      fun image s ↦ platform.files path = some image ∧ HasProgress thread holds s := by
  refine (servesRpc_silent (only_askOk (by trivial))).bind fun _ ↦ ?_
  cases platform.files path with
  | none => exact establishes_throw
  | some image => exact establishes_pure fun _ hs ↦ ⟨rfl, hs⟩

/-- Storing a part of the image, between two properties of how far the thread is. -/
theorem servesRpc_part {image : Image} (hchosen : ∀ p, holds p → Chosen l2cpu p)
    (hnext : ∀ p, holds p → holds' (p.store l2cpu part image.zipIdx.reverse)) :
    ServesRpc platform thread (HasProgress thread holds) (nocWriteBulk l2cpu part image)
      fun _ ↦ HasProgress thread holds' := by
  rintro s ⟨p, hof, hp⟩
  refine (servesRpc_nocWriteBulk part image (hchosen p hp) s ⟨p, hof, rfl⟩).weaken
    fun _ s' h value hvalue ↦ ?_
  obtain ⟨_, hof', rfl⟩ := h value hvalue
  exact ⟨_, hof', hnext p hp⟩

section

variable (platform : Platform) (l2cpu : L2CpuIdx) (p : Progress ι)

/-- Nothing has been stored in the place of a kernel or a device tree. -/
def NothingIn : Prop :=
  p.stored l2cpu .kernel = [] ∧ p.stored l2cpu .dtb = []

/-- A kernel file has been stored, and no device tree. -/
def KernelIn : Prop :=
  Chosen l2cpu p ∧ p.stored l2cpu .dtb = [] ∧ ∃ path kernel,
    platform.files path = some kernel ∧ p.stored l2cpu .kernel = kernel.zipIdx.reverse

/-- A kernel file and a device tree have been stored. -/
def ImagesIn : Prop :=
  Chosen l2cpu p ∧ ∃ (path : Path) (kernel dtb : Image), platform.files path = some kernel ∧
    p.stored l2cpu .kernel = kernel.zipIdx.reverse ∧ p.stored l2cpu .dtb = dtb.zipIdx.reverse

/-- The thread has begun, and has stored nothing yet. -/
def Begun : Prop := p.l2cpu = some l2cpu ∧ NothingIn l2cpu p

/-- It has decided as well. -/
def Opened : Prop := Chosen l2cpu p ∧ NothingIn l2cpu p

end

theorem servesRpc_kernel {image : Image} (hfile : platform.files path = some image) :
    ServesRpc platform thread (HasProgress thread (Opened l2cpu))
      (nocWriteBulk l2cpu .kernel image) fun _ ↦ HasProgress thread (KernelIn platform l2cpu) := by
  refine servesRpc_part (fun p hp ↦ hp.1) fun p hp ↦ ⟨hp.1, ?_, path, image, hfile, ?_⟩
  · rw [Progress.stored_store, if_neg (by decide), hp.2.2]
  · rw [Progress.stored_store, if_pos rfl, hp.2.1, append_nil]

theorem servesRpc_dtb :
    ServesRpc platform thread (HasProgress thread (KernelIn platform l2cpu))
      (nocWriteBulk l2cpu .dtb image) fun _ ↦ HasProgress thread (ImagesIn platform l2cpu) := by
  refine servesRpc_part (fun p hp ↦ hp.1) fun p hp ↦ ?_
  obtain ⟨hchosen, hdtb, path, kernel, hfile, hkernel⟩ := hp
  refine ⟨hchosen, path, kernel, image, hfile, ?_, ?_⟩
  · rw [Progress.stored_store, if_neg (by decide), hkernel]
  · rw [Progress.stored_store, if_pos rfl, hdtb, append_nil]

theorem servesRpc_loadPart (h : ∀ image, platform.files path = some image →
      ServesRpc platform thread (HasProgress thread holds) (nocWriteBulk l2cpu part image)
        fun _ ↦ HasProgress thread holds') :
    ServesRpc platform thread (HasProgress thread holds) (loadPart platform l2cpu part path)
      fun _ ↦ HasProgress thread holds' :=
  (servesRpc_readBinFile path).bind fun image s hs ↦ h image hs.1 s hs.2

theorem servesRpc_bootL2cpu (dtb : Image) :
    ServesRpc platform thread (HasProgress thread (Opened args.l2cpu))
      (bootL2cpu platform args dtb)
      fun _ ↦ HasProgress thread (ImagesIn platform args.l2cpu) := by
  have hopensbi (image : Image) : ServesRpc platform thread
      (HasProgress thread (Opened args.l2cpu)) (nocWriteBulk args.l2cpu .opensbi image)
      fun _ ↦ HasProgress thread (Opened args.l2cpu) := by
    refine servesRpc_part (fun p hp ↦ hp.1) fun p hp ↦ ⟨hp.1, ?_⟩
    obtain ⟨hkernel, hdtb⟩ := p.store_otherPart args.l2cpu image.zipIdx.reverse
      (by decide : ImagePart.opensbi ≠ .kernel) (by decide)
    exact ⟨hkernel.trans hp.2.1, hdtb.trans hp.2.2⟩
  have hinitramfs (image : Image) : ServesRpc platform thread
      (HasProgress thread (ImagesIn platform args.l2cpu))
      (nocWriteBulk args.l2cpu .initramfs image)
      fun _ ↦ HasProgress thread (ImagesIn platform args.l2cpu) := by
    refine servesRpc_part (fun p hp ↦ hp.1) fun p hp ↦ ?_
    obtain ⟨hkernel, hdtb⟩ := p.store_otherPart args.l2cpu image.zipIdx.reverse
      (by decide : ImagePart.initramfs ≠ .kernel) (by decide)
    obtain ⟨hchosen, path, kernel, dtb, hfile, hk, hd⟩ := hp
    exact ⟨hchosen, path, kernel, dtb, hfile, hkernel.trans hk, hdtb.trans hd⟩
  have hextra : ServesRpc platform thread (HasProgress thread (ImagesIn platform args.l2cpu))
      (forSome args.initramfs (loadPart platform args.l2cpu .initramfs))
      fun _ ↦ HasProgress thread (ImagesIn platform args.l2cpu) := by
    cases args.initramfs with
    | none => exact establishes_pure fun _ hs ↦ hs
    | some path => exact servesRpc_loadPart fun image _ ↦ hinitramfs image
  refine (servesRpc_silent (looks_write32 _ _).silent).bind fun _ ↦ ?_
  refine (servesRpc_silent (only_askOk (by trivial))).bind fun _ ↦ ?_
  refine (servesRpc_loadPart fun image _ ↦ hopensbi image).bind fun _ ↦ ?_
  refine (servesRpc_loadPart fun image hfile ↦ servesRpc_kernel hfile).bind fun _ ↦ ?_
  refine (servesRpc_dtb dtb).bind fun _ ↦ hextra.bind fun _ ↦ ?_
  exact servesRpc_silent (only_forM _ fun _ ↦ (looks_writeU64 _ _ _).silent)

theorem servesRpc_runBootSequence :
    ServesRpc platform thread (HasProgress thread (Opened args.l2cpu))
      (runBootSequence platform args)
      fun _ ↦ HasProgress thread (ImagesIn platform args.l2cpu) := by
  refine (servesRpc_silent (only_askOk (by trivial))).bind fun _ ↦ ?_
  refine (servesRpc_silent (looks_readBinFile _ _).silent).bind fun dtbRaw ↦ ?_
  refine (servesRpc_silent (only_doIf (only_forSome fun path ↦
    (looks_readBinFile _ path).silent.map))).bind fun _ ↦ ?_
  refine (servesRpc_silent (only_doIf ?_)).bind fun _ ↦ ?_
  · exact (only_askOk trivial).bind fun _ ↦ (only_askOk trivial).map
  · cases platform.modifyDtb args dtbRaw with
    | none => exact establishes_throw
    | some dtb =>
      exact (servesRpc_bootL2cpu args dtb).bind fun _ ↦ establishes_pure fun _ hs ↦ hs

/-- A thread that has stored whole images may start the guest. -/
theorem ImagesIn.requestStep (hs : HasProgress thread (ImagesIn platform l2cpu) s)
    (himage : ∀ l2cpu part index word, op ≠ .rpc (.image l2cpu part index word))
    (hop : ∀ target, Handles target (accesses thread s.trace) op → target = l2cpu) :
    RequestStep platform thread op s := by
  obtain ⟨p, hof, hchosen, path, kernel, dtb, hfile, hkernel, hdtb⟩ := hs
  refine ⟨fun target htarget ↦ ?_, fun _ _ _ _ h ↦ absurd h (himage _ _ _ _),
    fun target htarget ↦ ?_⟩
  · obtain rfl := hop target htarget
    exact hof.l2cpu.trans hchosen.1
  · obtain rfl := hop target htarget.handles
    exact ⟨path, kernel, dtb, hfile, (hof.stored _ _).trans hkernel, (hof.stored _ _).trans hdtb⟩

theorem servesRpc_wake {addr : ℕ} :
    ServesRpc platform thread (HasProgress thread (ImagesIn platform l2cpu))
      (ask (.wake l2cpu addr)) fun _ ↦ HasProgress thread (ImagesIn platform l2cpu) := by
  refine establishes_step fun s s' hs hstep ↦ ⟨?_, ?_⟩
  · exact ImagesIn.requestStep (hs.rely hstep) nofun fun target htarget ↦ Eq.symm htarget
  · exact (hs.rely hstep).access rfl (fun _ _ ↦ rfl) fun _ _ _ _ ↦ rfl

theorem servesRpc_wakeParked :
    ServesRpc platform thread (HasProgress thread (ImagesIn platform l2cpu))
      (wakeParked l2cpu parked) fun _ ↦ HasProgress thread (ImagesIn platform l2cpu) := by
  have hstore (addr value : ℕ) : ServesRpc platform thread
      (HasProgress thread (ImagesIn platform l2cpu)) (writeU64 l2cpu addr value)
      fun _ ↦ HasProgress thread (ImagesIn platform l2cpu) :=
    servesRpc_silent (looks_writeU64 _ _ _).silent
  refine (hstore _ _).bind fun _ ↦ (hstore _ _).bind fun _ ↦ (hstore _ _).bind fun _ ↦
    (hstore _ _).bind fun _ ↦ (servesRpc_silent (only_askOk (by trivial))).bind fun hsmNow ↦ ?_
  split_ifs
  · exact establishes_throw
  · refine (servesRpc_silent (looks_write32 _ _).silent).bind fun _ ↦ ?_
    refine Establishes.map (Establishes.bind servesRpc_wake fun reply ↦ ?_)
    split_ifs
    · exact establishes_pure fun _ hs ↦ hs
    · exact establishes_throw

/-- A reply stores no image and starts no guest. -/
theorem servesRpc_replyOk :
    ServesRpc platform thread (HasProgress thread holds) (tell (.replyOk target))
      fun _ ↦ HasProgress thread holds := by
  have happart : (DaemonOp.rpc (.replyOk target) : DaemonOp ι).Apart := trivial
  refine Establishes.map (establishes_step fun s s' hs hstep ↦ ?_)
  exact ⟨happart.requestStep, (hs.rely hstep).apart happart⟩

/-- A release stores whole images before it wakes the guest. -/
theorem servesRpc_dispatchRelease {payload : BootPayload} {parked : ParkedReleaseMeta}
    {dtbBytes : Option Image} {args : DeviceArgs} :
    ServesRpc platform thread (HasProgress thread (Opened l2cpu))
      (dispatchRelease platform l2cpu payload parked dtbBytes args) fun _ _ ↦ True := by
  have hdtb : ServesRpc platform thread (HasProgress thread (KernelIn platform l2cpu))
      (reimageDtb platform l2cpu dtbBytes)
      fun _ ↦ HasProgress thread (ImagesIn platform l2cpu) := by
    cases dtbBytes with
    | none =>
      refine establishes_pure fun s hs ↦ ?_
      obtain ⟨p, hof, hchosen, hdtb, path, kernel, hfile, hkernel⟩ := hs
      exact ⟨p, hof, hchosen, path, kernel, [], hfile, hkernel, hdtb⟩
    | some bytes =>
      simp only [reimageDtb, forSome, Option.elim_some]
      cases platform.addOpensbiReservation l2cpu bytes with
      | none => exact establishes_throw
      | some bytes => exact servesRpc_dtb bytes
  refine (servesRpc_readBinFile _).bind fun kernel s hs ↦ ?_
  have hrest : ServesRpc platform thread (HasProgress thread (Opened l2cpu)) (do
      nocWriteBulk l2cpu .kernel kernel
      reimageDtb platform l2cpu dtbBytes
      doIf args.asks (swapAttachedForRelease platform l2cpu args)
      wakeParked l2cpu parked
      tell (.replyOk l2cpu)) fun _ _ ↦ True := by
    refine (servesRpc_kernel hs.1).bind fun _ ↦ hdtb.bind fun _ ↦ ?_
    refine (servesRpc_silent (only_doIf (own_swapAttachedForRelease _ _).ownSilent)).bind fun _ ↦ ?_
    refine (servesRpc_wakeParked parked).bind fun _ ↦ ?_
    exact (servesRpc_replyOk l2cpu).mono (fun _ hs ↦ hs) fun _ _ _ ↦ trivial
  exact hrest s hs.2

theorem servesRpc_began (devices : DeviceArgs) :
    ServesRpc platform thread (fun _ ↦ True) (tell (.note (.began l2cpu devices)))
      fun _ ↦ HasProgress thread (Begun l2cpu) := by
  refine Establishes.map (establishes_step fun s s' _ _ ↦ ?_)
  refine ⟨⟨fun _ h ↦ h.elim, fun _ _ _ _ himage ↦ (nomatch himage), fun _ h ↦ h.elim⟩, ?_⟩
  refine ⟨⟨some l2cpu, fun _ _ ↦ [], []⟩, ⟨?_, fun _ _ ↦ ?_, nil_subset _⟩, rfl, rfl, rfl⟩
  · rw [accesses_access_self]
    rfl
  · rw [accesses_access_self]
    rfl

/-- A step is known once it has been made. -/
theorem servesRpc_known {op : RpcOp} {next : Reply → Progress ι → Prop}
    (hop : (DaemonOp.rpc op : DaemonOp ι).Apart)
    (h : ∀ p answer, holds p → next answer { p with known := (.rpc op, answer) :: p.known }) :
    ServesRpc platform thread (HasProgress thread holds) (ask op)
      fun answer ↦ HasProgress thread (next answer) := by
  refine establishes_step fun s s' hs hstep ↦ ⟨hop.requestStep, ?_⟩
  obtain ⟨p, hof, hp⟩ := hs.rely hstep
  refine ⟨_, ⟨?_, fun l2cpu part ↦ ?_, ?_⟩, h p _ hp⟩
  · rw [accesses_access_self]
    exact (hop.same.2.1 _ _).trans hof.l2cpu
  · rw [accesses_access_self]
    exact (hop.same.2.2 _ _ _ _).trans (hof.stored l2cpu part)
  · rw [accesses_access_self, sinceBegan_cons _ _ hop.same.1]
    exact cons_subset_cons _ hof.known

/-- A thread that reads the status of a parked guest has decided. -/
theorem servesRpc_status :
    ServesRpc platform thread (HasProgress thread (Begun l2cpu))
      (readU64 l2cpu (startingAddress l2cpu + statusOffset))
      fun status ↦ HasProgress thread fun p ↦
        Begun l2cpu p ∧ (status = some statusParked → Decided l2cpu p.known) := by
  have hlo : ServesRpc platform thread (HasProgress thread (Begun l2cpu))
      (read32 l2cpu (startingAddress l2cpu + statusOffset))
      fun word ↦ HasProgress thread fun p ↦ Begun l2cpu p ∧ ∃ answer, answer.word = word ∧
        (.rpc (.read32 l2cpu (startingAddress l2cpu + statusOffset)), answer) ∈ p.known :=
    Establishes.map (servesRpc_known trivial fun p answer hp ↦ ⟨hp, answer, rfl, mem_cons_self⟩)
  have hnone {pre : Progress ι → Prop} (hpre : ∀ p, pre p → Begun l2cpu p) :
      ServesRpc platform thread (HasProgress thread pre) (pure none)
        fun status ↦ HasProgress thread fun p ↦
          Begun l2cpu p ∧ (status = some statusParked → Decided l2cpu p.known) :=
    establishes_pure fun _ ⟨p, hof, hp⟩ ↦ ⟨p, hof, hpre p hp, nofun⟩
  refine hlo.bind fun lo ↦ ?_
  cases lo with
  | none => exact hnone fun _ hp ↦ hp.1
  | some lo =>
    have hhi : ServesRpc platform thread
        (HasProgress thread fun p ↦ Begun l2cpu p ∧ ∃ answer, answer.word = some lo ∧
          (.rpc (.read32 l2cpu (startingAddress l2cpu + statusOffset)), answer) ∈ p.known)
        (read32 l2cpu (startingAddress l2cpu + statusOffset + 4))
        fun hi ↦ HasProgress thread fun p ↦ Begun l2cpu p ∧
          (hi.map (joinWords lo) = some statusParked → Decided l2cpu p.known) := by
      refine Establishes.map (servesRpc_known trivial fun p answer hp ↦ ⟨hp.1, fun hparked ↦ ?_⟩)
      obtain ⟨-, old, hold, hmem⟩ := hp
      refine .inl ⟨old, answer, ?_, mem_cons_of_mem _ hmem, mem_cons_self⟩
      rw [hold]
      exact hparked
    refine hhi.bind fun hi ↦ ?_
    cases hi with
    | none => exact hnone fun _ hp ↦ hp.1
    | some hi => exact establishes_pure fun _ hs ↦ hs

/-- What a check for a parked guest leaves: when it finds one, the thread has decided. -/
abbrev Checks (platform : Platform) (thread : ι) (l2cpu : L2CpuIdx)
    (part : RpcM (Option ParkedReleaseMeta)) : Prop :=
  ServesRpc platform thread (HasProgress thread (Begun l2cpu)) part fun parked ↦
    HasProgress thread fun p ↦ Begun l2cpu p ∧ (parked.isSome = true → Decided l2cpu p.known)

theorem checks_none : Checks platform thread l2cpu (pure none) :=
  establishes_pure fun _ ⟨p, hof, hp⟩ ↦ ⟨p, hof, hp, nofun⟩

theorem checks_readParkedReleaseMeta :
    Checks platform thread l2cpu (readParkedReleaseMeta l2cpu) := by
  refine (servesRpc_silent (only_askOk (by trivial))).bind fun reply ↦ ?_
  split_ifs
  · exact checks_none
  · refine servesRpc_status.bind fun status ↦ ?_
    by_cases hparked : status = some statusParked
    · rw [if_neg (not_not_intro hparked)]
      have hread (addr : ℕ) {holds : Progress ι → Prop} : ServesRpc platform thread
          (HasProgress thread holds) (readU64 l2cpu addr) fun _ ↦ HasProgress thread holds :=
        servesRpc_silent (looks_readU64 _ _).silent
      exact (hread _).bind fun _ ↦ (hread _).bind fun _ ↦ (hread _).bind fun _ ↦
        (hread _).bind fun _ ↦ (hread _).bind fun _ ↦
          establishes_pure fun _ ⟨p, hof, hp, hd⟩ ↦ ⟨p, hof, hp, fun _ ↦ hd hparked⟩
    · rw [if_pos hparked]
      exact establishes_pure fun _ ⟨p, hof, hp, _⟩ ↦ ⟨p, hof, hp, nofun⟩

theorem checks_findParked : Checks platform thread args.l2cpu (findParked platform args) := by
  have hlooks {α : Type} {part : RpcM α} (h : part.Only RpcOp.Looks) : ServesRpc platform thread
      (HasProgress thread (Begun args.l2cpu)) part fun _ ↦
        HasProgress thread (Begun args.l2cpu) := servesRpc_silent h.silent
  refine checks_readParkedReleaseMeta.bind fun parked ↦ ?_
  cases parked with
  | some parked => exact establishes_pure fun _ hs ↦ hs
  | none =>
    have hrest : Checks platform thread args.l2cpu
        (if args.force then triggerForceParkIfAvailable platform args.l2cpu else pure none) := by
      split_ifs
      · refine (hlooks only_askOk).bind fun reply ↦ ?_
        split_ifs
        · exact checks_none
        · refine (hlooks (looks_readU64 _ _)).bind fun reqPa ↦ (hlooks (looks_readU64 _ _)).bind
            fun reqVal ↦ (hlooks (looks_readU64 _ _)).bind fun msipPa ↦ ?_
          split
          · exact (hlooks (looks_writeU64 _ _ _)).bind fun _ ↦ (hlooks (looks_write32 _ _)).bind
              fun _ ↦ (hlooks (looks_awaitParked _ _)).bind fun _ ↦ checks_readParkedReleaseMeta
          · exact checks_none
      · exact checks_none
    exact hrest.mono (fun _ ⟨p, hof, hp⟩ ↦ ⟨p, hof, hp.1⟩) fun _ _ hs ↦ hs

theorem servesRpc_any {part : RpcM α} (h : part.Only RpcOp.Silent) :
    ServesRpc platform thread (fun _ ↦ True) part fun _ _ ↦ True := by
  have hkept : ServesRpc platform thread (HasProgress thread fun _ ↦ True) part
      fun _ ↦ HasProgress thread fun _ ↦ True := servesRpc_silent h
  exact hkept.mono (fun s _ ↦ hasProgress_true s) fun _ _ _ ↦ trivial

theorem servesRpc_releaseParked :
    ServesRpc platform thread (HasProgress thread (Opened args.l2cpu))
      (releaseParked platform args parked) fun _ _ ↦ True := by
  refine (servesRpc_silent (looks_takeSlotDtbBytes _).silent).bind fun dtbBytes ↦ ?_
  exact servesRpc_dispatchRelease

theorem serves_chipCall {call : ChipCall} :
    Serves platform thread (HasProgress thread (ImagesIn platform l2cpu))
      (chipCall platform thread call) fun _ ↦ HasProgress thread (ImagesIn platform l2cpu) := by
  have honly : (chipCall platform thread call).Only fun op ↦ ∃ access, op = .chip access :=
    Program.always_within Reply.word _ fun access ↦ ⟨access, rfl⟩
  refine Establishes.keeping honly fun op s s' hop hs hstep ↦ ?_
  obtain ⟨access, rfl⟩ := hop
  have hs' := hs.rely hstep
  constructor
  · refine ImagesIn.requestStep hs' nofun fun target htarget ↦ ?_
    obtain ⟨p, hof, hchosen, -⟩ := hs'
    cases access with
    | arcWrite32 addr value => exact some.inj (htarget.2.symm.trans (hof.l2cpu.trans hchosen.1))
    | _ => exact htarget.elim
  · exact hs'.access rfl (fun _ _ ↦ rfl) fun _ _ _ _ ↦ rfl

theorem serves_coldBoot :
    Serves platform thread (HasProgress thread (Begun args.l2cpu))
      (coldBoot platform thread args) fun _ _ ↦ True := by
  have hsilent {α : Type} {part : RpcM α} (h : part.Only RpcOp.Silent) :
      Serves platform thread (HasProgress thread (ImagesIn platform args.l2cpu)) (rpc part)
        fun _ ↦ HasProgress thread (ImagesIn platform args.l2cpu) :=
    serves_rpc (servesRpc_silent h)
  have hrelease : Serves platform thread (HasProgress thread (ImagesIn platform args.l2cpu))
      (releaseL2cpuFromReset platform thread args.l2cpu)
      fun _ ↦ HasProgress thread (ImagesIn platform args.l2cpu) := by
    refine (hsilent only_tell).bind fun _ ↦ (hsilent only_tell).bind fun _ ↦ ?_
    exact serves_chipCall.bind fun _ ↦ hsilent (looks_configurePrefetchers _).silent
  have hcold : ServesRpc platform thread (HasProgress thread (Begun args.l2cpu))
      (tell (.note (.cold args.l2cpu))) fun _ ↦ HasProgress thread (Opened args.l2cpu) := by
    exact Establishes.map (servesRpc_known trivial fun p answer hp ↦
      ⟨⟨hp.1, .inr ⟨answer, mem_cons_self⟩⟩, hp.2⟩)
  refine (serves_rpc (servesRpc_silent (own_handleExistingSlot _).ownSilent)).bind fun _ ↦ ?_
  refine (serves_rpc hcold).bind fun _ ↦ ?_
  refine (serves_apart (apart_maybeOpportunisticResetBoard _)).bind fun _ ↦ ?_
  refine (serves_rpc (servesRpc_runBootSequence args)).bind fun dtb ↦ ?_
  refine (hsilent only_askOk).bind fun _ ↦ (hsilent only_tell).bind fun _ ↦ ?_
  refine (hsilent (own_registerDevices _).ownSilent).bind fun slot ↦ ?_
  refine hrelease.bind fun _ ↦ (hsilent only_askOk).bind fun _ ↦ ?_
  exact (serves_rpc (servesRpc_replyOk _)).mono (fun _ hs ↦ hs) fun _ _ _ ↦ trivial

theorem serves_dispatchBoot :
    Serves platform thread (fun _ ↦ True) (dispatchBoot platform thread args) fun _ _ ↦ True := by
  refine (serves_rpc (servesRpc_any only_require)).bind fun _ ↦ ?_
  refine (serves_rpc (servesRpc_began args.devices)).bind fun _ ↦ ?_
  refine (serves_rpc (checks_findParked args)).bind fun parked ↦ ?_
  cases parked with
  | some parked =>
    exact (serves_rpc (servesRpc_releaseParked args parked)).mono
      (fun _ ⟨p, hof, hp, hd⟩ ↦ ⟨p, hof, ⟨hp.1, hd rfl⟩, hp.2⟩) fun _ _ hs ↦ hs
  | none =>
    exact (serves_coldBoot args).mono (fun _ ⟨p, hof, hp, _⟩ ↦ ⟨p, hof, hp⟩) fun _ _ hs ↦ hs

theorem serves_run {part : DaemonM ι α}
    (h : Serves platform thread (fun _ ↦ True) part fun _ _ ↦ True) (s : DaemonScene ι) :
    Ensures ((rpcThreads platform).access thread) (OwnRely thread) (RequestStep platform thread)
      (fun _ _ ↦ True) part.run s :=
  (h s trivial).weaken fun _ _ _ ↦ trivial

theorem servesRpc_caught {part : RpcM Unit}
    (h : ServesRpc platform thread (fun _ ↦ True) part fun _ _ ↦ True) :
    ServesRpc platform thread (fun _ ↦ True) (caught part) fun _ _ ↦ True := by
  intro s hs
  refine Ensures.bind (h s hs) fun result s' _ ↦ ?_
  cases result with
  | ok value => exact fun _ _ ↦ trivial
  | error failure => cases failure <;> exact fun _ _ ↦ trivial

theorem composes_servesRpc : Composes RpcOp.Silent fun _ part ↦
    ServesRpc platform thread (fun _ ↦ True) part fun _ _ ↦ True :=
  ⟨servesRpc_any, fun h hrest ↦ h.bind hrest, servesRpc_caught⟩

theorem servesRpc_autoReleaseForReboot (l2cpu : L2CpuIdx) :
    ServesRpc platform thread (fun _ ↦ True) (autoReleaseForReboot platform l2cpu)
      fun _ _ ↦ True := by
  refine (servesRpc_began .none).bind fun _ ↦ ?_
  refine checks_readParkedReleaseMeta.bind fun parked ↦ ?_
  cases parked with
  | none => exact establishes_throw
  | some parked =>
    have hbooted : ServesRpc platform thread (HasProgress thread (Opened l2cpu))
        (bootedSlot l2cpu) fun _ ↦ HasProgress thread (Opened l2cpu) :=
      servesRpc_silent (looks_bootedSlot _).silent
    refine (hbooted.mono (fun _ ⟨p, hof, hp, hd⟩ ↦ ⟨p, hof, ⟨hp.1, hd rfl⟩, hp.2⟩)
      fun _ _ hs ↦ hs).bind fun slot ↦ ?_
    cases slot.bootPayload with
    | none => exact establishes_throw
    | some payload =>
      refine (servesRpc_silent (only_askOk (by trivial))).bind fun _ ↦ ?_
      exact servesRpc_dispatchRelease

theorem servesRpc_completed (l2cpu : L2CpuIdx) :
    ServesRpc platform thread (fun _ ↦ True) (tell (.note (.completed l2cpu))) fun _ _ ↦ True := by
  refine Establishes.map (establishes_step fun s s' _ _ ↦ ?_)
  exact ⟨⟨fun _ h ↦ h.elim, fun _ _ _ _ himage ↦ (nomatch himage), fun _ h ↦ h.elim⟩, trivial⟩

theorem servesRpc_parkProbe (l2cpu : L2CpuIdx) {lastParked : Bool} :
    ServesRpc platform thread (fun _ ↦ True) (parkProbe platform l2cpu lastParked)
      fun _ _ ↦ True := by
  refine composes_servesRpc.parkProbe (fun _ hop ↦ hop.silent) ?_
    (servesRpc_any (own_detachWorkers l2cpu).ownSilent) lastParked
  exact composes_servesRpc.rebootParked trivial (servesRpc_any (own_dropNetForReboot
    l2cpu).ownSilent) (fun _ ↦ servesRpc_any (own_dispatchAddNet l2cpu platform none _).ownSilent)
    (servesRpc_autoReleaseForReboot l2cpu) (servesRpc_completed l2cpu)

/-- Every job stores images and starts guests only as a boot or release of its own. -/
theorem serves_pass (worker : Worker) {s : DaemonScene ι} :
    Ensures ((rpcThreads platform).access thread) (OwnRely thread) (RequestStep platform thread)
      (fun _ _ ↦ True) (worker.pass platform thread) s := by
  unfold Worker.pass
  cases worker.jobs with
  | nil => trivial
  | cons job jobs =>
    cases job with
    | boot args =>
      have hjob : Serves platform thread (fun _ ↦ True)
          (Job.run platform thread worker.lastParked (.boot args)) fun _ _ ↦ True :=
        (serves_dispatchBoot args).map
      refine Ensures.bind (serves_run hjob s) fun result s1 _ s2 _ ↦ ?_
      exact ⟨⟨fun _ h ↦ h.elim, fun _ _ _ _ himage ↦ (nomatch himage), fun _ h ↦ h.elim⟩, trivial⟩
    | device l2cpu request =>
      have hreply : ServesRpc platform thread (fun _ ↦ True) (tell (.replyOk l2cpu))
          fun _ _ ↦ True :=
        (servesRpc_replyOk l2cpu).mono (fun s _ ↦ hasProgress_true s) fun _ _ _ ↦ trivial
      have hjob : Serves platform thread (fun _ ↦ True)
          (Job.run platform thread worker.lastParked (.device l2cpu request)) fun _ _ ↦ True := by
        refine (serves_rpc (servesRpc_any (own_deviceRequest _ _).ownSilent)).bind fun _ ↦ ?_
        exact (serves_rpc hreply).bind fun _ ↦ establishes_pure fun _ _ ↦ trivial
      exact Ensures.bind (serves_run hjob s) fun _ _ _ ↦ trivial
    | stop l2cpu =>
      have hstop : (dispatchStop platform thread l2cpu).Only DaemonOp.Apart := by
        refine ((calm_internalStop l2cpu).allow fun _ hop ↦ hop.apart).bind fun stopped ↦ ?_
        split_ifs
        · have hreply : (tell (.replyOk l2cpu)).Only (· = .replyOk l2cpu) := only_tell rfl
          refine Program.Always.embed hreply fun op hop ↦ ?_
          rw [hop]
          trivial
        · exact only_throw
      have hjob : Serves platform thread (fun _ ↦ True)
          (Job.run platform thread worker.lastParked (.stop l2cpu)) fun _ _ ↦ True :=
        (serves_apart hstop.map).mono (fun s _ ↦ hasProgress_true s) fun _ _ _ ↦ trivial
      exact Ensures.bind (serves_run hjob s) fun _ _ _ ↦ trivial
    | probe l2cpu fresh =>
      have hjob : Serves platform thread (fun _ ↦ True)
          (Job.run platform thread worker.lastParked (.probe l2cpu fresh)) fun _ _ ↦ True :=
        serves_rpc (servesRpc_parkProbe l2cpu)
      exact Ensures.bind (serves_run hjob s) fun _ _ _ ↦ trivial

end Serves

/-! ### All threads -/

/-- A thread comes to be at an L2CPU by deciding so. -/
theorem inProgress_cons {answer : Reply} (h : inProgress ((op, answer) :: log) = some l2cpu) :
    (∃ devices, op = .rpc (.note (.began l2cpu devices))) ∨ inProgress log = some l2cpu := by
  cases op with
  | rpc op =>
    cases op with
    | note note =>
      cases note with
      | began target devices =>
        obtain rfl : target = l2cpu := some.inj h
        exact .inl ⟨devices, rfl⟩
      | cold => exact .inr h
      | completed target => exact absurd h.symm (some_ne_none l2cpu)
    | _ => exact .inr h
  | _ => exact .inr h

section Run

variable [DecidableEq ι] {s : DaemonScene ι}

/-- At most one thread is at an L2CPU, and what has been stored for it since that thread began is
the thread's own. It was so at every step that stored an image or started a guest, images were
stored by threads that had decided, and guests were started on whole images. -/
structure RequestInv (platform : Platform) (s : DaemonScene ι) : Prop where
  exclusive : ∀ thread other l2cpu, Busy thread l2cpu s → Busy other l2cpu s → thread = other
  undisturbed : ∀ thread l2cpu, Busy thread l2cpu s → Undisturbed thread l2cpu s.trace
  orderly : ∀ thread op answer older, .access thread op answer :: older <:+ s.trace → ∀ l2cpu,
    Handles l2cpu (accesses thread older) op →
      Undisturbed thread l2cpu older ∧
        (∀ part index word, op = .rpc (.image l2cpu part index word) →
          Decided l2cpu (sinceBegan (accesses thread older))) ∧
        (Starts l2cpu (accesses thread older) op →
          Whole platform l2cpu (accesses thread older))

/-- Something that is not a step of a thread keeps the invariant. -/
theorem RequestInv.mark (hinv : RequestInv platform s) (w : DaemonWorld ι)
    (mark : Mark ι (DaemonOp ι) Reply Incident)
    (hmark : ∀ thread op answer, mark ≠ .access thread op answer) :
    RequestInv platform ⟨w, mark :: s.trace⟩ := by
  have hbusy (thread : ι) (l2cpu : L2CpuIdx) (h : Busy thread l2cpu ⟨w, mark :: s.trace⟩) :
      Busy thread l2cpu s := by
    cases mark with
    | access thread op answer => exact absurd rfl (hmark thread op answer)
    | _ => exact h
  constructor
  · exact fun thread other l2cpu h h' ↦
      hinv.exclusive thread other l2cpu (hbusy _ _ h) (hbusy _ _ h')
  · intro thread l2cpu h
    have hold := hinv.undisturbed thread l2cpu (hbusy _ _ h)
    cases mark with
    | access thread op answer => exact absurd rfl (hmark thread op answer)
    | _ => exact hold
  · intro thread op answer older hsuffix
    rcases suffix_cons_iff.mp hsuffix with heq | hsuffix
    · exact absurd (cons.inj heq).1.symm (hmark thread op answer)
    · exact hinv.orderly thread op answer older hsuffix

/-- A step of a thread keeps it, if a thread begins only when it is alone. -/
theorem RequestInv.access (hinv : RequestInv platform s) {thread : ι}
    (hstep : RequestStep platform thread op s) (halone : op.Alone thread s) :
    RequestInv platform ((rpcThreads platform).access thread op s).2 := by
  -- who is at an L2CPU after the step has begun in it or was there before
  have hbusy (other : ι) (l2cpu : L2CpuIdx)
      (h : Busy other l2cpu ((rpcThreads platform).access thread op s).2) :
      (other = thread ∧ ∃ devices, op = .rpc (.note (.began l2cpu devices))) ∨
        Busy other l2cpu s := by
    unfold Busy at h
    by_cases hother : thread = other
    · subst hother
      rw [accesses_access_self] at h
      exact (inProgress_cons h).imp_left fun hop ↦ ⟨rfl, hop⟩
    · rw [accesses_access_of_ne _ hother] at h
      exact .inr h
  have hnobody (other : ι) (l2cpu : L2CpuIdx)
      (hop : ∃ devices, op = .rpc (.note (.began l2cpu devices))) (h : Busy other l2cpu s) :
      other = thread := by
    obtain ⟨devices, rfl⟩ := hop
    by_contra hother
    exact halone l2cpu rfl other hother h
  constructor
  · intro first second l2cpu h h'
    rcases hbusy _ _ h with ⟨rfl, hop⟩ | hfirst
    · rcases hbusy _ _ h' with ⟨rfl, -⟩ | hsecond
      · rfl
      · exact (hnobody second l2cpu hop hsecond).symm
    · rcases hbusy _ _ h' with ⟨rfl, hop⟩ | hsecond
      · exact hnobody first l2cpu hop hfirst
      · exact hinv.exclusive first second l2cpu hfirst hsecond
  · intro other l2cpu h
    rcases hbusy _ _ h with ⟨rfl, hop⟩ | hother
    · exact .inl ⟨rfl, hop⟩
    · refine .inr ⟨fun hhandles ↦ ?_, hinv.undisturbed other l2cpu hother⟩
      exact hinv.exclusive thread other l2cpu (hstep.busy l2cpu hhandles) hother
  · intro other op' answer older hsuffix
    rcases suffix_cons_iff.mp hsuffix with heq | hsuffix
    · obtain ⟨hmark, rfl⟩ := cons.inj heq
      obtain ⟨rfl, rfl, -⟩ := Mark.access.inj hmark
      exact fun l2cpu hhandles ↦ ⟨hinv.undisturbed other l2cpu (hstep.busy l2cpu hhandles),
        hstep.decided l2cpu, hstep.whole l2cpu⟩
    · exact hinv.orderly other op' answer older hsuffix

/-- The threads. -/
def requestOutline (platform : Platform) :
    Outline ι (DaemonOp ι) Reply Incident (DaemonWorld ι) fun _ ↦ Worker where
  inv := RequestInv platform
  rely := OwnRely
  guarantee := RequestStep platform
  between _ _ _ := True

theorem requestOutline_sound (platform : Platform) :
    (requestOutline platform).Sound (rpcThreads platform) (fun c : DaemonConfig ι ↦ Alone c) := by
  apply Outline.Sound.ofRely
  case hrefl => exact fun _ _ ↦ rfl
  case htrans => exact fun _ _ _ _ h h' ↦ Eq.trans h' h
  case hstable => exact fun _ _ _ _ _ _ ↦ trivial
  case hpass => exact fun _ _ _ _ ↦ rfl
  case hloop =>
    intro thread worker s hinv _
    have hmark : RequestInv platform (pass thread s) :=
      RequestInv.mark hinv s.memory (.pass thread) fun _ _ _ h ↦ nomatch h
    have hpass : Ensures ((rpcThreads platform).access thread) (fun s s' ↦ OwnRely thread s s' ∧
      RequestInv platform s') (RequestStep platform thread) (fun _ _ ↦ True) (worker.pass platform
      thread) (pass thread s) := (serves_pass worker).restrict fun _ _ h ↦ h.1
    exact ⟨hmark, hpass⟩
  case haccess =>
    intro c thread op next hallowed hrest hstep h
    refine ⟨h.inv.access hstep (hallowed op (by rw [hrest]; rfl)), fun other hother ↦ .inl ?_⟩
    exact accesses_access_of_ne _ (Ne.symm hother) op c.scene
  case hact =>
    intro c event _ h
    have hmark : RequestInv platform ((rpcThreads platform).outside event c.scene) :=
      RequestInv.mark h.inv _ (.act event) fun _ _ _ h ↦ nomatch h
    exact ⟨hmark, fun _ ↦ .inl rfl⟩

end Run

/-- A thread that releases the parked guest of L2CPU 1, after some turns. -/
def releasing (turns : ℕ) : DaemonConfig Unit :=
  (rpcThreads smallPlatform).follow
    (rpcStart (parkedWorld Unit resetTypeShutdown plainSlot) bootWorker)
    (replicate turns (.core ()))

/-- Two boot requests for the parked L2CPU 1, with the kernels `1` and `3`. Both find the guest
parked and set out to release it. The first stores its kernel and its device tree and goes on to the
wake, the second stores its kernel, and the first takes some more turns. -/
def twoReleases (turns : ℕ) : DaemonConfig Bool :=
  (rpcThreads smallPlatform).follow
    (rpcStart (parkedWorld Bool resetTypeShutdown plainSlot) fun second ↦
      ⟨[.boot { plainBoot 1 with payload := .kernel (if second then 3 else 1) }], false⟩)
    (replicate 15 (.core false) ++ replicate 15 (.core true) ++
      replicate 14 (.core false) ++ replicate 3 (.core true) ++
      replicate turns (.core false))

end Bhx.Daemon
