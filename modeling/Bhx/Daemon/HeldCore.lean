import Bhx.Daemon.RequestSteps

/-!
# Booting a held core

A boot from reset stores the images of the guest and then sets the release bit of its core. That
makes sense only if the core is held until then. The daemon does not look at the release bit. It
relies on the reset of the board, which holds every core, and resets the board at most once in a
session: after a stop, which leaves the release bit as it is, the next boot stores its images under
a running core, sets a bit that is set already, and replies that it has booted the guest
(`boot_after_stop`).

A boot is sound when it finds the release bit of its core clear, and also when it resets the board,
which it does unless the board was reset before or another guest runs. When the flag of the session
is unset whenever a boot from reset begins with the bit set, and the other guests that it asks are
then parked, all images go to held cores and each boot that succeeds has released its core
(`cold_boot_on_held_core`).

Scope. The requests come one after the other, next to guests that store to their memories.
-/

set_option autoImplicit false

namespace Bhx.Daemon

open SharedMemory Chip

variable {ι : Type} {s : DaemonScene Unit}
variable (args : BootArgs)

/-! ### How far a boot is -/

/-- How far the boot is that a thread works on. -/
inductive BootStage
  | idle
  /-- It boots the L2CPU from reset, and has stored the release bit or not. -/
  | cold (l2cpu : L2CpuIdx) (released : Bool)
deriving DecidableEq, Repr

/-- The stage after a step and its answer. -/
def BootStage.after (stage : BootStage) : DaemonOp ι × Reply → BootStage
  | (.rpc (.note (.cold l2cpu)), _) => .cold l2cpu false
  | (.rpc (.note (.began _ _)), _) | (.rpc (.note (.completed _)), _) => .idle
  | (.chip (.arcWrite32 addr _), answer) =>
    match stage with
    | .cold l2cpu released =>
      .cold l2cpu (released || (decide (addr = l2cpuResetAddr) && answer.word.isSome))
    | stage => stage
  | _ => stage

/-- The stage after some steps, the newest first. -/
def bootStage : List (DaemonOp ι × Reply) → BootStage
  | [] => .idle
  | entry :: log => (bootStage log).after entry

/-- The stage of a thread by what it has done. -/
def DaemonScene.stage [DecidableEq ι] (thread : ι) (s : DaemonScene ι) : BootStage :=
  bootStage (Cores.accesses thread s.trace)

open DaemonScene

/-! ### The order that a boot needs -/

/-- A word of the status of a parked guest. -/
def parkedWord (l2cpu : L2CpuIdx) (addr : ℕ) : UInt32 :=
  if addr = startingAddress l2cpu + statusOffset then loWord statusParked else hiWord statusParked

/-- A word of the status of another guest. -/
def StatusWord (l2cpu other : L2CpuIdx) (addr : ℕ) : Prop :=
  other ≠ l2cpu ∧ (addr = startingAddress other + statusOffset ∨
    addr = startingAddress other + statusOffset + 4)

instance (l2cpu other : L2CpuIdx) (addr : ℕ) : Decidable (StatusWord l2cpu other addr) :=
  inferInstanceAs (Decidable (_ ∧ _))

/-- A boot from reset of a core that is not held begins while the board was not reset in this
session, and finds parked the other guests whose status it reads. -/
def DaemonOp.Timely (op : DaemonOp ι) (stage : BootStage) (w : DaemonWorld ι) : Prop :=
  match op with
  | .rpc (.note (.cold l2cpu)) => Released w.chip.regs l2cpu → w.chipResetThisSession = false
  | .rpc (.read32 other addr) => ∀ l2cpu, stage = .cold l2cpu false → StatusWord l2cpu other addr →
    Released w.chip.regs l2cpu → w.luck = true ∧ w.ram other addr = parkedWord other addr
  | _ => True

instance (stage : BootStage) (w : DaemonWorld ι) : (op : DaemonOp ι) → Decidable (op.Timely stage w)
  | .rpc (.note (.cold l2cpu)) =>
    inferInstanceAs (Decidable (Released w.chip.regs l2cpu → _ = false))
  | .rpc (.read32 other addr) =>
    inferInstanceAs (Decidable (∀ l2cpu, _ → StatusWord l2cpu other addr →
      Released w.chip.regs l2cpu → _ = true ∧ _ = _))
  | .rpc (.write32 _ _ _) | .rpc (.image _ _ _ _) | .rpc (.wake _ _) | .rpc (.peekSlot _)
  | .rpc (.takeSlot _) | .rpc (.putSlot _ _) | .rpc (.editSlot _ _) | .rpc (.updateSlot _ _)
  | .rpc (.register _ _ _)
  | .rpc (.unregister _ _) | .rpc (.registerUart _) | .rpc (.unregisterUart _)
  | .rpc (.spawnConsole _) | .rpc (.joinConsole _) | .rpc .lockEngine | .rpc .hasDispatcher
  | .rpc .bringUp | .rpc .dropEngine | .rpc .dupFd | .rpc .trial | .rpc (.replyOk _)
  | .rpc (.note (.began _ _)) | .rpc (.note (.completed _)) | .chip _ | .resetBoard | .readFlag
  | .setFlag => .isTrue trivial

/-- A turn keeps to that order. -/
def Timely [DecidableEq ι] (c : DaemonConfig ι) : Turn ι Incident → Prop
  | .core thread => ∀ op ∈ (c.rest thread).nextOp,
    op.Timely (stage thread c.scene) c.scene.memory
  | .act _ => True

instance [DecidableEq ι] (c : DaemonConfig ι) :
    (turn : Turn ι Incident) → Decidable (Timely c turn)
  | .core thread => inferInstanceAs (Decidable (∀ op ∈ (c.rest thread).nextOp, _))
  | .act _ => .isTrue trivial

/-! ### What a boot does -/

/-- The steps of a boot from reset: its images go to its own L2CPU, while that is held, the release
bit it stores was clear, it sets the flag when its core is held, and it replies when it has stored
the bit. -/
def HeldStep (op : DaemonOp Unit) (s : DaemonScene Unit) : Prop :=
  match op with
  | .rpc (.image l2cpu _ _ _) => ∀ target released, stage () s = .cold target released →
    target = l2cpu ∧ ¬ Released s.memory.chip.regs l2cpu
  | .rpc (.replyOk l2cpu) => ∀ target released, stage () s = .cold target released →
    target = l2cpu ∧ released = true
  | .chip (.arcWrite32 addr value) => addr = l2cpuResetAddr →
    ∀ target released, stage () s = .cold target released →
      ¬ Released s.memory.chip.regs target ∧ value.toNat.testBit (target.val + 4) = true
  | .setFlag => ∀ target, stage () s = .cold target false →
    ¬ Released s.memory.chip.regs target
  | _ => True

/-- The words of other guests' status that a boot from reset has read since it began were those of
parked ones. -/
def Sighted (l2cpu : L2CpuIdx) : List (DaemonOp ι × Reply) → Prop
  | [] => True
  | (.rpc (.note _), _) :: _ => True
  | (.rpc (.read32 other addr), answer) :: log =>
    (StatusWord l2cpu other addr → answer.word = some (parkedWord other addr)) ∧ Sighted l2cpu log
  | _ :: log => Sighted l2cpu log

/-- While the core is not held, nothing keeps a boot from resetting the board. -/
def ColdInv (s : DaemonScene Unit) : Prop :=
  ∀ l2cpu, stage () s = .cold l2cpu false → Released s.memory.chip.regs l2cpu →
    s.memory.chipResetThisSession = false ∧ Sighted l2cpu (Cores.accesses () s.trace)

/-- What the thread relies on: the guests touch neither the chip nor the flag nor what it has
done. -/
structure GuestRely (s s' : DaemonScene Unit) : Prop where
  chip : s'.memory.chip = s.memory.chip
  flag : s'.memory.chipResetThisSession = s.memory.chipResetThisSession
  log : Cores.accesses () s'.trace = Cores.accesses () s.trace

/-- A part of the thread that leads from one property to another, unless it fails. -/
abbrev Boots {α : Type} (platform : Platform) (pre : DaemonScene Unit → Prop)
    (part : DaemonM Unit α) (post : α → DaemonScene Unit → Prop) : Prop :=
  Establishes ((rpcThreads platform).access ()) (fun s s' ↦ GuestRely s s' ∧ ColdInv s') HeldStep
    pre part post

/-- The same for a part that touches neither the chip nor the flag. -/
abbrev BootsRpc {α : Type} (platform : Platform) (pre : DaemonScene Unit → Prop) (part : RpcM α)
    (post : α → DaemonScene Unit → Prop) : Prop :=
  Establishes (fun op ↦ (rpcThreads platform).access () (.rpc op))
    (fun s s' ↦ GuestRely s s' ∧ ColdInv s') (fun op ↦ HeldStep (.rpc op)) pre part post

/-- The thread boots this L2CPU from reset, has not stored the release bit, and knows something if
the core is not held. -/
def Known (l2cpu : L2CpuIdx) (fact : Prop) (s : DaemonScene Unit) : Prop :=
  stage () s = .cold l2cpu false ∧
    (ColdInv s → Released s.memory.chip.regs l2cpu → fact)

/-- The thread does not boot from reset. -/
def Warm (s : DaemonScene Unit) : Prop :=
  ∀ l2cpu released, stage () s ≠ .cold l2cpu released

variable {α : Type} {platform : Platform} {l2cpu : L2CpuIdx} {fact : Prop} {op : DaemonOp Unit}

section Steps

variable {s' : DaemonScene Unit}

theorem stage_access (op : DaemonOp Unit) (s : DaemonScene Unit) :
    stage () ((rpcThreads platform).access () op s).2 =
      (stage () s).after (op, (daemonExec platform op s.memory).1) := by
  unfold stage
  rfl

theorem GuestRely.stage_eq (h : GuestRely s s') :
    stage () s' = stage () s := by
  unfold stage
  rw [h.log]

theorem GuestRely.coldInv (h : GuestRely s s') : ColdInv s' ↔ ColdInv s := by
  unfold ColdInv
  rw [h.stage_eq, h.chip, h.flag, h.log]

theorem Known.rely (hs : Known l2cpu fact s) (h : GuestRely s s') : Known l2cpu fact s' := by
  unfold Known
  rw [h.stage_eq, h.coldInv, h.chip]
  exact hs

theorem Warm.rely (hs : Warm s) (h : GuestRely s s') : Warm s' := by
  unfold Warm
  rw [h.stage_eq]
  exact hs

theorem released_congr {regs regs' : ℕ → UInt32} (h : regs' l2cpuResetAddr = regs l2cpuResetAddr)
    (l2cpu : L2CpuIdx) : Released regs' l2cpu ↔ Released regs l2cpu := by
  unfold Released
  rw [h]

/-- A step that notes no boot from reset. -/
def DaemonOp.Mild : DaemonOp ι → Prop
  | .rpc (.note (.cold _)) => False
  | _ => True

theorem RpcOp.Works.mild {op : RpcOp} (h : op.Works l2cpu) :
    (DaemonOp.rpc op : DaemonOp Unit).Mild := by
  cases op with
  | note => exact absurd h not_false
  | _ => trivial

theorem RpcOp.Silent.mild {op : RpcOp} (h : op.Silent) :
    (DaemonOp.rpc op : DaemonOp Unit).Mild :=
  (h.loads 0).works.mild

theorem DaemonOp.Calm.mild (h : op.Calm) : op.Mild := by
  cases op with
  | rpc op => exact RpcOp.Silent.mild h
  | _ => trivial

/-- A step that leaves the stage, the release bits and the flag alone. -/
structure DaemonOp.Idle (platform : Platform) (op : DaemonOp Unit) : Prop where
  after : ∀ (stage : BootStage) (answer : Reply), stage.after (op, answer) = stage
  reset : ∀ w, (daemonExec platform op w).2.chip.regs l2cpuResetAddr = w.chip.regs l2cpuResetAddr
  flag : ∀ w, (daemonExec platform op w).2.chipResetThisSession = w.chipResetThisSession
  sighted : ∀ l2cpu answer log, Sighted l2cpu ((op, answer) :: log) → Sighted l2cpu log

/-- The steps on slots, memories and registrations leave the flag alone. -/
theorem rpcExec_flag (op : RpcOp) (w : DaemonWorld Unit) :
    (rpcExec op w).2.chipResetThisSession = w.chipResetThisSession := by
  have hstore (l2cpu : L2CpuIdx) (addr : ℕ) (value : UInt32) :
      (w.tryStore l2cpu addr value).2.chipResetThisSession = w.chipResetThisSession := by
    unfold DaemonWorld.tryStore
    split_ifs
    · rfl
    · rfl
  cases op with
  | read32 l2cpu addr =>
    simp only [rpcExec]
    split_ifs
    · rfl
    · rfl
  | write32 | image | wake => exact hstore _ _ _
  | peekSlot | takeSlot | putSlot | editSlot | lockEngine | hasDispatcher | dropEngine =>
    exact DaemonWorld.withLock_keeps DaemonWorld.chipResetThisSession rfl
  | bringUp =>
    simp only [rpcExec]
    split_ifs
    · rfl
    · rfl
    · rfl
    · rfl
  | _ => rfl

theorem RpcOp.Works.idle {op : RpcOp} (h : op.Works l2cpu) : DaemonOp.Idle platform (.rpc op) := by
  refine ⟨fun stage answer ↦ ?_, fun w ↦ ?_, fun w ↦ rpcExec_flag op w, fun l2cpu answer log ↦ ?_⟩
  · cases op with
    | note => exact absurd h not_false
    | _ => rfl
  · exact congrArg (fun chip : ChipWorld Unit ↦ chip.regs l2cpuResetAddr) (rpcExec_chip op w)
  · cases op with
    | note => exact absurd h not_false
    | read32 other addr => exact fun hseen ↦ hseen.2
    | _ => exact fun hseen ↦ hseen

theorem DaemonOp.Calm.idle (h : op.Calm) : op.Idle platform := by
  cases op with
  | rpc op => exact ((RpcOp.Silent.loads h 0).works).idle
  | resetBoard | readFlag | setFlag => exact absurd h not_false
  | chip op =>
    cases op with
    | arcWrite32 addr value =>
      refine ⟨fun stage answer ↦ ?_, fun w ↦ ?_, fun _ ↦ rfl, fun _ _ _ hseen ↦ hseen⟩
      · cases stage with
        | cold l2cpu released =>
          change BootStage.cold l2cpu (released || (decide (addr = l2cpuResetAddr) && _)) = _
          rw [decide_eq_false h, Bool.false_and, Bool.or_false]
        | idle => rfl
      · change (chipExec (.arcWrite32 addr value) w.chip).2.regs l2cpuResetAddr = _
        unfold chipExec
        by_cases hinner : w.chip.inner = true
        · simp only [hinner, if_true]
          exact Function.update_of_ne (Ne.symm h) _ _
        · simp only [hinner]
          rfl
    | lock thread call =>
      refine ⟨fun _ _ ↦ rfl, fun w ↦ ?_, fun _ ↦ rfl, fun _ _ _ hseen ↦ hseen⟩
      change (chipExec (.lock thread call) w.chip).2.regs l2cpuResetAddr = _
      unfold chipExec
      by_cases hpoisoned : w.chip.poisoned = true
      · simp [hpoisoned]
      · by_cases hnone : w.chip.seqLock.isNone = true
        · simp [hpoisoned, hnone]
        · simp [hpoisoned, hnone]
    | unlock | poison | arcRead32 =>
      exact ⟨fun _ _ ↦ rfl, fun _ ↦ rfl, fun _ ↦ rfl, fun _ _ _ hseen ↦ hseen⟩

/-- A thread that idles does not learn that the board may not be reset. -/
theorem DaemonOp.Idle.coldInv (h : op.Idle platform)
    (hinv : ColdInv ((rpcThreads platform).access () op s).2) : ColdInv s := by
  intro l2cpu hstage hreleased
  have hsame : stage () ((rpcThreads platform).access () op s).2 =
      .cold l2cpu false := by
    rw [stage_access, h.after, hstage]
  obtain ⟨hflag, hseen⟩ := hinv l2cpu hsame
    ((released_congr (h.reset s.memory) l2cpu).mpr hreleased)
  exact ⟨(h.flag s.memory).symm.trans hflag, h.sighted _ _ _ hseen⟩

theorem Known.idle (hs : Known l2cpu fact s) (h : op.Idle platform) :
    Known l2cpu fact ((rpcThreads platform).access () op s).2 := by
  constructor
  · rw [stage_access, h.after]
    exact hs.1
  · exact fun hinv hreleased ↦ hs.2 (h.coldInv hinv)
      ((released_congr (h.reset s.memory) l2cpu).mp hreleased)

theorem DaemonOp.Calm.held (h : op.Calm) : HeldStep op s := by
  cases op with
  | rpc op =>
    cases op with
    | image | wake | replyOk | note => exact absurd h not_false
    | _ => trivial
  | chip op =>
    cases op with
    | arcWrite32 addr value => exact fun haddr ↦ absurd haddr h
    | _ => trivial
  | resetBoard | readFlag | setFlag => exact absurd h not_false

theorem Known.loads (hs : Known l2cpu False s) (hinv : ColdInv s) {op : RpcOp}
    (h : op.Loads l2cpu) : HeldStep (.rpc op) s := by
  cases op with
  | image target part index word =>
    intro booted released hstage
    have hbooted : BootStage.cold l2cpu false = .cold booted released := hs.1.symm.trans hstage
    obtain rfl : l2cpu = booted := by
      injection hbooted
    refine ⟨Eq.symm h, fun hreleased ↦ hs.2 hinv ?_⟩
    rw [← (show target = l2cpu from h)]
    exact hreleased
  | wake | replyOk | note => exact absurd h not_false
  | _ => trivial

/-- Any step is in order for a thread that does not boot from reset. -/
theorem Warm.held (hs : Warm s) : HeldStep op s := by
  cases op with
  | rpc op =>
    cases op with
    | image l2cpu part index word => exact fun target released hstage ↦ absurd hstage (hs _ _)
    | replyOk l2cpu => exact fun target released hstage ↦ absurd hstage (hs _ _)
    | _ => trivial
  | chip op =>
    cases op with
    | arcWrite32 addr value => exact fun _ target released hstage ↦ absurd hstage (hs _ _)
    | _ => trivial
  | setFlag => exact fun target hstage ↦ absurd hstage (hs _ _)
  | readFlag | resetBoard => trivial

theorem Warm.access (hs : Warm s) (h : op.Mild) :
    Warm ((rpcThreads platform).access () op s).2 := by
  intro l2cpu released
  rw [stage_access]
  have hstage := hs l2cpu released
  cases op with
  | rpc op =>
    cases op with
    | note note =>
      cases note with
      | cold => exact absurd h not_false
      | _ => exact BootStage.noConfusion
    | _ => exact hstage
  | chip op =>
    cases op with
    | arcWrite32 addr value =>
      generalize hcurrent : DaemonScene.stage () s = stage
      cases stage with
      | cold target other => exact absurd hcurrent (hs target other)
      | idle => exact BootStage.noConfusion
    | _ => exact hstage
  | readFlag | resetBoard | setFlag => exact hstage

end Steps

/-! ### A boot from reset -/

section Boot

variable {part : DaemonM Unit α}

theorem boots_rpc {part : RpcM α} {pre : DaemonScene Unit → Prop}
    {post : α → DaemonScene Unit → Prop} (h : BootsRpc platform pre part post) :
    Boots platform pre (rpc part) post :=
  fun s hs ↦ (h s hs).embed

theorem boots_warm (h : part.Only DaemonOp.Mild) : Boots platform Warm part fun _ ↦ Warm :=
  Establishes.keeping h fun _ _ _ hop hs hstep ↦
    ⟨(hs.rely hstep.1).held, (hs.rely hstep.1).access hop⟩

theorem boots_warm_rpc {part : RpcM α}
    (h : part.Only fun op ↦ (DaemonOp.rpc op : DaemonOp Unit).Mild) :
    Boots platform Warm (rpc part) fun _ ↦ Warm :=
  boots_warm (Program.Always.embed h fun _ hop ↦ hop)

theorem boots_calm (h : part.Only DaemonOp.Calm) :
    Boots platform (Known l2cpu fact) part fun _ ↦ Known l2cpu fact :=
  Establishes.keeping h fun _ _ _ hop hs hstep ↦ ⟨hop.held, (hs.rely hstep.1).idle hop.idle⟩

theorem boots_stage (h : part.Only DaemonOp.Calm) {stage : BootStage} :
    Boots platform (fun s ↦ DaemonScene.stage () s = stage) part
      fun _ s ↦ DaemonScene.stage () s = stage := by
  refine Establishes.keeping h fun op s s' hop hs hstep ↦ ⟨hop.held, ?_⟩
  have hidle : op.Idle platform := hop.idle
  rw [stage_access, hidle.after, hstep.1.stage_eq]
  exact hs

theorem bootsRpc_silent {part : RpcM α} (h : part.Only RpcOp.Silent) :
    BootsRpc platform (Known l2cpu fact) part fun _ ↦ Known l2cpu fact := by
  refine Establishes.keeping h fun op s s' hop hs hstep ↦ ?_
  have hcalm : (DaemonOp.rpc op : DaemonOp Unit).Calm := hop
  exact ⟨hcalm.held, (hs.rely hstep.1).idle hcalm.idle⟩

theorem boots_loads {part : RpcM α} (h : part.Only (RpcOp.Loads l2cpu)) :
    Boots platform (Known l2cpu False) (rpc part) fun _ ↦ Known l2cpu False := by
  refine boots_rpc (Establishes.keeping h fun op s s' hop hs hstep ↦ ?_)
  have hknown := hs.rely hstep.1
  exact ⟨hknown.loads hstep.2 hop, hknown.idle hop.works.idle⟩

theorem Known.imp {fact' : Prop} (hs : Known l2cpu fact s) (h : fact → fact') :
    Known l2cpu fact' s :=
  ⟨hs.1, fun hinv hreleased ↦ h (hs.2 hinv hreleased)⟩

/-- What a read of another guest's status gives, if the core is not held. -/
theorem bootsRpc_read32 {other : L2CpuIdx} {addr : ℕ} (hword : StatusWord l2cpu other addr) :
    BootsRpc platform (Known l2cpu fact) (read32 other addr)
      fun word ↦ Known l2cpu (fact ∧ word = some (parkedWord other addr)) := by
  have hask : BootsRpc platform (Known l2cpu fact) (ask (.read32 other addr))
      fun reply ↦ Known l2cpu (fact ∧ reply.word = some (parkedWord other addr)) := by
    refine establishes_step fun s s' hs hstep ↦ ⟨trivial, ?_⟩
    have hcalm : (DaemonOp.rpc (.read32 other addr) : DaemonOp Unit).Calm := trivial
    have hidle : DaemonOp.Idle platform (.rpc (.read32 other addr)) := hcalm.idle
    have hknown := (hs.rely hstep.1).idle hidle
    refine ⟨hknown.1, fun hinv hreleased ↦ ⟨hknown.2 hinv hreleased, ?_⟩⟩
    have hseen := (hinv l2cpu hknown.1 hreleased).2
    exact hseen.1 hword
  exact hask.bind fun reply ↦ establishes_pure fun _ hs ↦ hs

/-- A boot whose core is not held finds every other guest parked. -/
theorem bootsRpc_scanSibling {siblings : Siblings} {other : L2CpuIdx} (hother : other ≠ l2cpu) :
    BootsRpc platform (Known l2cpu (siblings.running = [])) (scanSibling siblings other)
      fun siblings ↦ Known l2cpu (siblings.running = []) := by
  have hpeek : BootsRpc platform (Known l2cpu (siblings.running = [])) (askOk (.peekSlot other))
      fun _ ↦ Known l2cpu (siblings.running = []) := bootsRpc_silent (only_askOk trivial)
  refine hpeek.bind fun reply ↦ ?_
  split_ifs
  · exact establishes_pure fun _ hs ↦ hs
  · refine (bootsRpc_read32 ⟨hother, .inl rfl⟩).bind fun lo ↦
      (bootsRpc_read32 ⟨hother, .inr rfl⟩).bind fun hi ↦ ?_
    refine establishes_pure fun s hs ↦ hs.imp ?_
    rintro ⟨⟨hrunning, rfl⟩, rfl⟩
    have hlo : parkedWord other (startingAddress other + statusOffset) = loWord statusParked :=
      if_pos rfl
    have hhi : parkedWord other (startingAddress other + statusOffset + 4) = hiWord statusParked :=
      if_neg (by omega)
    rw [hlo, hhi]
    exact hrunning

theorem resetBoard_flag (w : DaemonWorld Unit) :
    (daemonExec platform .resetBoard w).2.chipResetThisSession = w.chipResetThisSession := by
  change (if w.luck then _ else if w.tried.luck then _ else _ :
    Reply × DaemonWorld Unit).2.chipResetThisSession = _
  split_ifs
  · rfl
  · rfl
  · rfl

theorem resetBoard_held {w : DaemonWorld Unit} (l2cpu : L2CpuIdx)
    (hreleased : Released (daemonExec platform .resetBoard w).2.chip.regs l2cpu) :
    (daemonExec platform .resetBoard w).1.ok = false := by
  change (if w.luck then _ else if w.tried.luck then _ else _ :
    Reply × DaemonWorld Unit).1.ok = false
  change Released (if w.luck then _ else if w.tried.luck then _ else _ :
    Reply × DaemonWorld Unit).2.chip.regs l2cpu at hreleased
  split_ifs at hreleased ⊢
  · exact absurd ((platform.held l2cpu).symm.trans hreleased) Bool.false_ne_true
  · rfl
  · rfl

/-- When it is done with the board, a boot has its core held. -/
theorem boots_maybeOpportunisticResetBoard :
    Boots platform (fun s ↦ stage () s = .cold l2cpu false)
      (maybeOpportunisticResetBoard platform () l2cpu) fun _ ↦ Known l2cpu False := by
  have hflag : Boots platform (fun s ↦ stage () s = .cold l2cpu false) (step .readFlag)
      fun reply ↦ Known l2cpu (reply.ok = false) := by
    refine establishes_step fun s s' hs hstep ↦ ⟨trivial, ?_, fun _ hreleased ↦ ?_⟩
    · rw [stage_access, hstep.1.stage_eq, hs]
      rfl
    · have hunset := hstep.2 l2cpu (hstep.1.stage_eq.trans hs) hreleased
      exact hunset.1
  refine hflag.bind fun flag ↦ ?_
  split_ifs with hok
  · refine establishes_pure fun s hs ↦ hs.imp fun hunset ↦ ?_
    exact absurd (hunset.symm.trans hok) Bool.false_ne_true
  · have hscan : BootsRpc platform (Known l2cpu (flag.ok = false))
        ((allL2Cpus.filter (· ≠ l2cpu)).foldlM scanSibling ⟨[], []⟩)
        fun siblings ↦ Known l2cpu (siblings.running = []) := by
      have hnone : BootsRpc platform (Known l2cpu ([] = ([] : List L2CpuIdx)))
          ((allL2Cpus.filter (· ≠ l2cpu)).foldlM scanSibling ⟨[], []⟩)
          fun siblings ↦ Known l2cpu (siblings.running = []) := by
        refine establishes_foldlM (fun siblings other hother ↦ bootsRpc_scanSibling ?_) ⟨[], []⟩
        exact of_decide_eq_true (List.mem_filter.mp hother).2
      exact hnone.mono (fun _ hs ↦ hs.imp fun _ ↦ rfl) fun _ _ hs ↦ hs
    refine (boots_rpc hscan).bind fun siblings ↦ ?_
    split_ifs with hrunning
    · exact establishes_pure fun s hs ↦ hs.imp fun hnone ↦ absurd hnone hrunning
    · have hstop : Boots platform (Known l2cpu (siblings.running = []))
          (siblings.parked.forM fun other ↦ do let _ ← internalStop platform () other)
          fun _ s ↦ stage () s = .cold l2cpu false := by
        refine (boots_stage (only_forM _ fun other ↦ ?_)).mono (fun _ hs ↦ hs.1) fun _ _ hs ↦ hs
        exact (calm_internalStop other).map
      have hreset : Boots platform (fun s ↦ stage () s = .cold l2cpu false)
          (step .resetBoard) fun reply ↦ Known l2cpu (reply.ok = false) := by
        refine establishes_step fun s s' hs hstep ↦ ⟨trivial, ?_, fun _ ↦ resetBoard_held l2cpu⟩
        rw [stage_access, hstep.1.stage_eq, hs]
        rfl
      have hset : Boots platform (Known l2cpu False) (step .setFlag) fun _ ↦ Known l2cpu False := by
        refine establishes_step fun s s' hs hstep ↦ ?_
        have hknown := hs.rely hstep.1
        refine ⟨fun target htarget ↦ ?_, hknown.1, fun hinv hreleased ↦ ?_⟩
        · obtain rfl : l2cpu = target := by
            injection hknown.1.symm.trans htarget
          exact hknown.2 hstep.2
        · exact nomatch (hinv l2cpu hknown.1 hreleased).1
      have hdrop : Boots platform (fun s ↦ stage () s = .cold l2cpu false)
          (rpc (askOk .dropEngine)) fun _ s ↦ stage () s = .cold l2cpu false := by
        exact boots_stage (calm_rpc only_askOk)
      refine hstop.bind fun _ ↦ hdrop.bind fun _ ↦ hreset.bind fun reply ↦ ?_
      have hrequire : Boots platform (Known l2cpu (reply.ok = false)) (rpc (require reply.ok))
          fun _ ↦ Known l2cpu False := by
        refine boots_rpc ?_
        unfold require
        split_ifs with hreply
        · refine establishes_pure fun s hs ↦ hs.imp fun hfailed ↦ ?_
          exact absurd (hfailed.symm.trans hreply) Bool.false_ne_true
        · exact establishes_throw
      exact hrequire.bind fun _ ↦ hset.bind fun _ ↦ establishes_pure fun _ hs ↦ hs

theorem testBit_releaseMask (l2cpu : L2CpuIdx) (before : UInt32) :
    (before ||| releaseMask [l2cpu]).toNat.testBit (l2cpu.val + 4) = true := by
  have hmask : ∀ l2cpu : L2CpuIdx, (releaseMask [l2cpu]).toNat.testBit (l2cpu.val + 4) = true := by
    decide
  rw [UInt32.toNat_or, Nat.testBit_or, hmask, Bool.or_true]

/-- What is ensured of a sequence of accesses to the chip. -/
abbrev ChipEnsures {α : Type} (platform : Platform) (post : α → DaemonScene Unit → Prop)
    (program : Program (ChipOp Unit) (Option UInt32) α) (s : DaemonScene Unit) : Prop :=
  Ensures (fun op s ↦ (((rpcThreads platform).access () (.chip op) s).1.word,
      ((rpcThreads platform).access () (.chip op) s).2))
    (fun s s' ↦ GuestRely s s' ∧ ColdInv s') (fun op ↦ HeldStep (.chip op)) post program s

/-- The same for one that may fail. -/
abbrev BootsChip {α : Type} (platform : Platform) (pre : DaemonScene Unit → Prop)
    (part : ChipM Unit α) (post : α → DaemonScene Unit → Prop) : Prop :=
  ∀ s, pre s → ChipEnsures platform (fun result s ↦ ∀ value, result = .ok value → post value s)
    part.run s

theorem bootsChip_known {part : ChipM Unit α}
    (h : part.Only fun op ↦ (DaemonOp.chip op : DaemonOp Unit).Calm) :
    BootsChip platform (Known l2cpu fact) part fun _ ↦ Known l2cpu fact :=
  Establishes.keeping h fun _ _ _ hop hs hstep ↦
    ⟨DaemonOp.Calm.held hop, (hs.rely hstep.1).idle (DaemonOp.Calm.idle hop)⟩

theorem chipEnsures_stage {program : Program (ChipOp Unit) (Option UInt32) α}
    (h : program.Performs (fun op ↦ (DaemonOp.chip op : DaemonOp Unit).Calm))
    (keeps : BootStage → Prop) (hs : keeps (stage () s)) :
    ChipEnsures platform (fun _ s ↦ keeps (stage () s)) program s := by
  refine Ensures.preserving h (fun op s s' hop hs hstep ↦ ⟨DaemonOp.Calm.held hop, ?_⟩) hs
  have hidle : DaemonOp.Idle platform (.chip op) := DaemonOp.Calm.idle hop
  rw [stage_access, hidle.after, hstep.1.stage_eq]
  exact hs

theorem bootsChip_stage {part : ChipM Unit α}
    (h : part.Only fun op ↦ (DaemonOp.chip op : DaemonOp Unit).Calm) {stage : BootStage} :
    BootsChip platform (fun s ↦ DaemonScene.stage () s = stage) part
      fun _ s ↦ DaemonScene.stage () s = stage :=
  fun _ hs ↦ (chipEnsures_stage h (· = stage) hs).weaken fun _ _ h _ _ ↦ h

theorem bootsChip_arcWrite32 (before : UInt32) :
    BootsChip platform (Known l2cpu False)
      (arcWrite32 l2cpuResetAddr (before ||| releaseMask [l2cpu]))
      fun _ s ↦ stage () s = .cold l2cpu true := by
  refine Establishes.map (establishes_perform fun s s' hs hstep ↦ ⟨?_, fun answer hanswer ↦ ?_⟩)
  · intro _ target released hstage
    have hknown := hs.rely hstep.1
    have htarget : BootStage.cold l2cpu false = .cold target released := hknown.1.symm.trans hstage
    obtain ⟨rfl, -⟩ : l2cpu = target ∧ false = released := by
      injection htarget with hl hr
      exact ⟨hl, hr⟩
    exact ⟨hknown.2 hstep.2, testBit_releaseMask l2cpu before⟩
  · have hword : (daemonExec platform (.chip (.arcWrite32 l2cpuResetAddr
        (before ||| releaseMask [l2cpu]))) s'.memory).1.word = some answer := hanswer
    rw [stage_access, (hs.rely hstep.1).1]
    simp only [BootStage.after, hword, decide_true, Option.isSome_some, Bool.and_self,
      Bool.false_or]

theorem bootsChip_resetX280 :
    BootsChip platform (Known l2cpu False) (ChipCall.body (.resetX280 [l2cpu]))
      fun _ s ↦ stage () s = .cold l2cpu true := by
  have hdivide (f : Frequency) : (setFrequency f : ChipM Unit Unit).Only fun op ↦
    (DaemonOp.chip op : DaemonOp Unit).Calm := (setFrequency_only Unit f).allow fun _ ↦ calm_divider
  refine Establishes.bind (bootsChip_known (hdivide .mhz200)) fun _ ↦ ?_
  refine Establishes.bind
    (Establishes.bind (bootsChip_known (only_perform trivial)) bootsChip_arcWrite32) fun _ ↦ ?_
  refine Establishes.bind (bootsChip_stage (only_perform (by trivial))) fun _ ↦ ?_
  exact bootsChip_stage (hdivide .mhz1750)

theorem chipEnsures_attempt (hs : Known l2cpu False s) :
    ChipEnsures platform
      (fun result s ↦ match result with
        | none => Known l2cpu False s
        | some result => ∀ value, result = .ok value → DaemonScene.stage () s = .cold l2cpu true)
      ((ChipCall.resetX280 [l2cpu]).attempt ()) s := by
  intro s' hstep
  have hlock : (DaemonOp.chip (.lock () (.resetX280 [l2cpu])) : DaemonOp Unit).Calm := trivial
  have hknown : Known l2cpu False ((rpcThreads platform).access () _ s').2 :=
    (hs.rely hstep.1).idle hlock.idle
  refine ⟨trivial, ?_⟩
  change Ensures _ _ _ _ (if _ then _ else if _ then _ else _) _
  split_ifs
  · exact fun _ hvalue ↦ nomatch hvalue
  · exact hknown
  · refine Ensures.bind (bootsChip_resetX280 _ hknown) fun result s1 hs1 ↦ ?_
    have hguard : (dropGuard result : Program (ChipOp Unit) (Option UInt32) Unit).Performs
        (fun op ↦ (DaemonOp.chip op : DaemonOp Unit).Calm) := by
      refine ⟨?_, fun _ ↦ trivial⟩
      split_ifs
      · trivial
      · trivial
    exact Ensures.bind (chipEnsures_stage hguard
      (fun stage ↦ ∀ value, result = .ok value → stage = .cold l2cpu true) hs1) fun _ _ hs2 ↦ hs2

/-- A boot that has released its core has found it held. -/
theorem boots_release :
    Boots platform (Known l2cpu False) (chipCall platform () (.resetX280 [l2cpu]))
      fun _ s ↦ stage () s = .cold l2cpu true := by
  have hrun (patience : ℕ) (s : DaemonScene Unit) (hs : Known l2cpu False s) : ChipEnsures platform
      (fun result s ↦ ∀ value, result = .ok value → stage () s = .cold l2cpu true)
      ((ChipCall.resetX280 [l2cpu]).run () patience) s := by
    induction patience generalizing s with
    | zero => exact fun _ hvalue ↦ nomatch hvalue
    | succ patience ih =>
      refine Ensures.bind (chipEnsures_attempt hs) fun result s1 hs1 ↦ ?_
      cases result with
      | some result => exact hs1
      | none => exact ih s1 hs1
  exact fun s hs ↦ (hrun platform.patience s hs).viewed

theorem boots_releaseL2cpuFromReset :
    Boots platform (Known l2cpu False) (releaseL2cpuFromReset platform () l2cpu)
      fun _ s ↦ stage () s = .cold l2cpu true := by
  have hclear (addr : ℕ) : Boots platform (Known l2cpu False) (rpc (tell (.write32 l2cpu addr 0)))
      fun _ ↦ Known l2cpu False := by
    exact boots_calm (calm_rpc (only_tell trivial))
  refine (hclear _).bind fun _ ↦ (hclear _).bind fun _ ↦ boots_release.bind fun _ ↦ ?_
  exact boots_stage (calm_rpc (looks_configurePrefetchers _).silent)

theorem boots_coldBoot : Boots platform Warm (coldBoot platform () args) fun _ _ ↦ True := by
  have hcold : Boots platform Warm (rpc (tell (.note (.cold args.l2cpu))))
      fun _ s ↦ stage () s = .cold args.l2cpu false :=
    fun s _ s' _ ↦ ⟨trivial, fun _ _ ↦ stage_access _ s'⟩
  have hreply : Boots platform (fun s ↦ stage () s = .cold args.l2cpu true)
      (rpc (tell (.replyOk args.l2cpu))) fun _ _ ↦ True := by
    refine fun s hs s' hstep ↦ ⟨fun target released hstage ↦ ?_, fun _ _ ↦ trivial⟩
    have htarget : BootStage.cold args.l2cpu true = .cold target released :=
      (hs.symm.trans hstep.1.stage_eq.symm).trans hstage
    injection htarget with hl hr
    exact ⟨hl.symm, hr.symm⟩
  refine (boots_warm_rpc ((own_handleExistingSlot _).allow fun _ hop ↦ hop.silent.mild)).bind
    fun _ ↦ hcold.bind fun _ ↦ ?_
  refine boots_maybeOpportunisticResetBoard.bind fun _ ↦ ?_
  refine (boots_loads (loads_runBootSequence platform args)).bind fun dtb ↦ ?_
  refine (boots_calm (calm_rpc only_askOk)).bind fun _ ↦ ?_
  refine (boots_calm (calm_rpc only_tell)).bind fun _ ↦ ?_
  refine (boots_calm (calm_rpc (own_registerDevices _).ownSilent)).bind fun slot ↦ ?_
  refine boots_releaseL2cpuFromReset.bind fun _ ↦ ?_
  exact (boots_stage (calm_rpc only_askOk)).bind fun _ ↦ hreply

theorem boots_dispatchBoot :
    Boots platform Warm (dispatchBoot platform () args) fun _ _ ↦ True := by
  refine (boots_warm_rpc only_require).bind fun _ ↦ (boots_warm_rpc only_tell).bind
    fun _ ↦ ?_
  refine (boots_warm_rpc ((looks_findParked _).allow fun _ hop ↦ hop.silent.mild)).bind
    fun parked ↦ ?_
  cases parked with
  | none => exact boots_coldBoot args
  | some parked =>
    refine (boots_warm_rpc (Fallible.Only.bind ?_ fun dtbBytes ↦ ?_)).mono (fun _ hs ↦ hs)
      fun _ _ _ ↦ trivial
    · exact (looks_takeSlotDtbBytes _).allow fun _ hop ↦ hop.silent.mild
    · exact (works_dispatchRelease _ _).allow fun _ hop ↦ hop.mild

/-- A probe does not boot from reset. -/
theorem mild_parkProbe (l2cpu : L2CpuIdx) (lastParked : Bool) :
    (parkProbe platform l2cpu lastParked).Only fun op ↦ (DaemonOp.rpc op : DaemonOp Unit).Mild := by
  have hown {α : Type} {part : RpcM α} (h : part.Only (RpcOp.Own l2cpu)) :
      part.Only fun op ↦ (DaemonOp.rpc op : DaemonOp Unit).Mild :=
    h.allow fun _ hop ↦ hop.silent.mild
  refine composes_only.parkProbe (fun _ hop ↦ hop.silent.mild) ?_ (hown (own_detachWorkers _)) _
  refine composes_only.rebootParked trivial (hown (own_dropNetForReboot _))
    (fun _ ↦ hown (own_dispatchAddNet _ _ _ _)) ?_ (only_tell trivial)
  refine composes_only.autoReleaseForReboot (fun _ hop ↦ hop.silent.mild) (only_tell trivial) ?_
  exact fun _ _ _ ↦ (works_dispatchRelease _ _).allow fun _ hop ↦ hop.mild

/-- Every job is in order, and leaves a thread that boots nothing. -/
theorem boots_pass (worker : Worker) (hs : Warm s) :
    Ensures ((rpcThreads platform).access ()) (fun s s' ↦ GuestRely s s' ∧ ColdInv s') HeldStep
      (fun _ ↦ Warm) (worker.pass platform ()) s := by
  have hwarm {α : Type} {program : Program (DaemonOp Unit) Reply α}
      (h : program.Performs DaemonOp.Mild) {s : DaemonScene Unit} (hs : Warm s) :
      Ensures ((rpcThreads platform).access ()) (fun s s' ↦ GuestRely s s' ∧ ColdInv s') HeldStep
        (fun _ ↦ Warm) program s :=
    Ensures.preserving h (fun _ _ _ hop hs hstep ↦
      ⟨(hs.rely hstep.1).held, (hs.rely hstep.1).access hop⟩) hs
  unfold Worker.pass
  cases worker.jobs with
  | nil => exact hs
  | cons job jobs =>
    cases job with
    | boot args =>
      have hjob : Boots platform Warm (Job.run platform () worker.lastParked (.boot args))
          fun _ _ ↦ True :=
        (boots_dispatchBoot args).bind fun _ ↦ establishes_pure fun _ _ ↦ trivial
      refine Ensures.bind (hjob s hs) fun result s1 _ s2 _ ↦ ⟨trivial, fun l2cpu released ↦ ?_⟩
      exact nofun
    | stop l2cpu =>
      have hjob : (Job.run platform () worker.lastParked (.stop l2cpu)).Only DaemonOp.Mild := by
        refine Fallible.Only.map (Fallible.Only.bind ?_ fun stopped ↦ ?_)
        · exact (calm_internalStop l2cpu).allow fun _ hop ↦ hop.mild
        · split_ifs
          · exact Program.Always.embed (only_tell trivial) fun _ hop ↦ hop
          · exact only_throw
      exact Ensures.bind (hwarm hjob hs) fun _ _ hs1 ↦ hs1
    | device l2cpu request =>
      have hjob : (Job.run platform () worker.lastParked (.device l2cpu request)).Only
          DaemonOp.Mild := by
        refine Fallible.Only.bind ?_ fun _ ↦ Fallible.Only.map ?_
        · exact Program.Always.embed (own_deviceRequest _ _) fun _ hop ↦ hop.silent.mild
        · exact Program.Always.embed (only_tell trivial) fun _ hop ↦ hop
      exact Ensures.bind (hwarm hjob hs) fun _ _ hs1 ↦ hs1
    | probe l2cpu fresh =>
      have hjob : (Job.run platform () worker.lastParked (.probe l2cpu fresh)).Only
          DaemonOp.Mild := Program.Always.embed (mild_parkProbe l2cpu _) fun _ hop ↦ hop
      exact Ensures.bind (hwarm hjob hs) fun _ _ hs1 ↦ hs1

end Boot

/-! ### Every run -/

/-- A step that leaves the stage, the release bits and the flag alone and shows nothing new. -/
theorem ColdInv.idle (hinv : ColdInv s) (h : op.Idle platform)
    (hseen : ∀ l2cpu, stage () s = .cold l2cpu false →
      Released s.memory.chip.regs l2cpu → Sighted l2cpu (Cores.accesses () s.trace) →
        Sighted l2cpu ((op, (daemonExec platform op s.memory).1) :: Cores.accesses () s.trace)) :
    ColdInv ((rpcThreads platform).access () op s).2 := by
  intro l2cpu hstage hreleased
  rw [stage_access, h.after] at hstage
  have hbefore := (released_congr (h.reset s.memory) l2cpu).mp hreleased
  obtain ⟨hflag, hlog⟩ := hinv l2cpu hstage hbefore
  exact ⟨(h.flag s.memory).trans hflag, hseen l2cpu hstage hbefore hlog⟩

/-- The steps of a boot keep the invariant, if they come in time. -/
theorem ColdInv.access (hinv : ColdInv s) (hstep : HeldStep op s)
    (htimely : op.Timely (DaemonScene.stage () s) s.memory) :
    ColdInv ((rpcThreads platform).access () op s).2 := by
  cases op with
  | setFlag => exact fun l2cpu hstage hreleased ↦ absurd hreleased (hstep l2cpu hstage)
  | readFlag => exact hinv
  | resetBoard =>
    intro l2cpu hstage hreleased
    change Released (if s.memory.luck then _ else if s.memory.tried.luck then _ else _ :
      Reply × DaemonWorld Unit).2.chip.regs l2cpu at hreleased
    split_ifs at hreleased with hfailed
    · exact absurd ((platform.held l2cpu).symm.trans hreleased) Bool.false_ne_true
    · obtain ⟨hflag, hlog⟩ := hinv l2cpu hstage hreleased
      exact ⟨(resetBoard_flag s.memory).trans hflag, hlog⟩
    · exact absurd ((platform.held l2cpu).symm.trans hreleased) Bool.false_ne_true
  | rpc op =>
    cases op with
    | note note =>
      intro l2cpu hstage hreleased
      cases note with
      | began | completed => exact absurd hstage nofun
      | cold target =>
        obtain rfl : target = l2cpu := by
          injection hstage
        exact ⟨htimely hreleased, trivial⟩
    | read32 other addr =>
      have hidle : DaemonOp.Idle platform (.rpc (.read32 other addr)) :=
        (show (RpcOp.read32 other addr).Works other from trivial).idle
      refine hinv.idle hidle fun l2cpu hstage hreleased hseen ↦ ⟨fun hword ↦ ?_, hseen⟩
      obtain ⟨hluck, hparked⟩ := htimely l2cpu hstage hword hreleased
      change (if s.memory.luck then _ else _ : Reply × DaemonWorld Unit).1.word = _
      rw [if_pos hluck, ← hparked]
    | image other part index word =>
      have hworks : (RpcOp.image other part index word).Works other := rfl
      exact hinv.idle hworks.idle fun _ _ _ h ↦ h
    | wake other addr =>
      have hworks : (RpcOp.wake other addr).Works other := rfl
      exact hinv.idle hworks.idle fun _ _ _ h ↦ h
    | replyOk other =>
      have hworks : (RpcOp.replyOk other).Works other := rfl
      exact hinv.idle hworks.idle fun _ _ _ h ↦ h
    | _ => exact hinv.idle (RpcOp.Works.idle (show RpcOp.Works 0 _ from trivial)) fun _ _ _ h ↦ h
  | chip op =>
    cases op with
    | arcWrite32 addr value =>
      by_cases haddr : addr = l2cpuResetAddr
      · -- a store that was not carried out leaves everything as it was
        subst haddr
        intro l2cpu hstage hreleased
        rw [stage_access] at hstage
        by_cases hinner : s.memory.chip.inner = true
        · generalize DaemonScene.stage () s = stage at hstage
          cases stage with
          | cold target released =>
            simp [BootStage.after, daemonExec, chipExec, hinner] at hstage
          | _ => exact absurd hstage nofun
        · have hsame : chipExec (.arcWrite32 l2cpuResetAddr value) s.memory.chip =
              (none, s.memory.chip) := if_neg hinner
          change Released (chipExec (.arcWrite32 l2cpuResetAddr value) s.memory.chip).2.regs l2cpu
            at hreleased
          rw [hsame] at hreleased
          refine hinv l2cpu ?_ hreleased
          generalize DaemonScene.stage () s = stage at hstage ⊢
          cases stage with
          | cold target released =>
            simp only [BootStage.after, daemonExec, hsame, Option.isSome_none, Bool.and_false,
              Bool.or_false] at hstage
            exact hstage
          | _ => exact absurd hstage nofun
      · exact hinv.idle (DaemonOp.Calm.idle haddr) fun _ _ _ h ↦ h
    | _ => exact hinv.idle (DaemonOp.Calm.idle trivial) fun _ _ _ h ↦ h

/-- The thread, next to the guests. -/
def heldOutline :
    Outline Unit (DaemonOp Unit) Reply Incident (DaemonWorld Unit) fun _ ↦ Worker where
  inv := ColdInv
  rely _ := GuestRely
  guarantee _ := HeldStep
  between _ _ := Warm

theorem heldOutline_sound (platform : Platform) :
    heldOutline.Sound (rpcThreads platform) Timely := by
  apply Outline.Sound.ofRely
  case hrefl => exact fun _ _ ↦ ⟨rfl, rfl, rfl⟩
  case htrans => exact fun _ _ _ _ h h' ↦
    ⟨h'.chip.trans h.chip, h'.flag.trans h.flag, h'.log.trans h.log⟩
  case hstable => exact fun _ _ _ _ hstep h ↦ h.rely hstep
  case hpass => exact fun _ _ _ _ ↦ ⟨rfl, rfl, rfl⟩
  case hloop =>
    intro thread worker s hinv hwarm
    have hrely : GuestRely s (Cores.pass thread s) := ⟨rfl, rfl, rfl⟩
    exact ⟨hrely.coldInv.mpr hinv, boots_pass worker (hwarm.rely hrely)⟩
  case haccess =>
    intro c thread op next hallowed hrest hstep h
    refine ⟨h.inv.access hstep (hallowed op (by rw [hrest]; rfl)), fun other hother ↦ ?_⟩
    exact absurd (Subsingleton.elim other thread) hother
  case hact =>
    intro c event _ h
    have hrely : GuestRely c.scene ((rpcThreads platform).outside event c.scene) := by
      cases event with
      | guestWrite | poison => exact ⟨rfl, rfl, rfl⟩
    exact ⟨hrely.coldInv.mpr h.inv, fun _ ↦ .inl hrely⟩

/-- A daemon that has just started on a chip where a core runs that it knows nothing of. -/
def strayCore : DaemonWorld Unit :=
  { startedWorld Unit [] with chip := (startedWorld Unit [1]).chip }

/-- A boot of that core, about to store the first word of its images. -/
def strayLoading : DaemonConfig Unit :=
  (rpcThreads smallPlatform).follow (rpcStart strayCore bootWorker) (List.replicate 17 (.core ()))

/-- A thread that boots L2CPU 1, stops it and boots it again, after some turns. -/
def bootedAgain (turns : ℕ) : DaemonConfig Unit :=
  (rpcThreads smallPlatform).follow
    (rpcStart (startedWorld Unit [])
      fun _ ↦ ⟨[.boot (plainBoot 1), .stop 1, .boot (plainBoot 1)], false⟩)
    (List.replicate turns (.core ()))

end Bhx.Daemon
