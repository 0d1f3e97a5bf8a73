import Bhx.Daemon.RequestSteps
import Bhx.SharedMemory.Abstraction

/-!
# What is attached to an L2CPU

What the daemon holds for one L2CPU is its slot, the devices and the UART registered for it, its
console threads, and the dispatcher that all L2CPUs share (`Attachments`). The steps of a thread
change these as `RpcOp.change` says, and answer questions about them as `RpcOp.Fits` says;
everything else that a step answers, a word of a memory or the success of a step that may fail, is
left open. Which requests for mutexes succeed is a parameter (`Locks`). This is an abstraction of
the daemon (`attachNext_rpcExec`), in which what a request does to the attachments can be said
without the memories and the failures of the day: `Leaves` gives for each handler the attachments
that it leaves when it succeeds and when it fails.

A handler that attaches a device fails without a trace (`leaves_dispatchAddDisk`,
`leaves_dispatchAddNet`, `leaves_dispatchAddConsole`, `leaves_attachRngInline`). The one that
removes a disk does so unless it does not get the mutex of the dispatcher
(`leaves_dispatchRemoveDisk`). The one that detaches the network or the console does not
(`leaves_detachDevice`).
-/

set_option autoImplicit false

namespace Bhx.Daemon

open SharedMemory Chip Machine.L1Layout Function L2CpuSlot DaemonWorld

variable {part : RpcM Unit} {op : RpcOp}
variable {slot : L2CpuSlot}

/-! ### The abstraction -/

/-- What the daemon holds for an L2CPU. -/
@[ext]
structure Attachments where
  slot : Option L2CpuSlot
  registry : ℕ → Option Device
  uart : Bool
  consoles : ℕ
  dispatcher : Bool

variable {ι : Type}

/-- What the daemon holds for an L2CPU. -/
def DaemonWorld.attachments (w : DaemonWorld ι) (l2cpu : L2CpuIdx) : Attachments :=
  ⟨w.slots l2cpu, w.registry l2cpu, w.uarts l2cpu, w.consoles l2cpu, w.dispatcher⟩

/-- The answers that requests for the mutexes may have. -/
abbrev Locks := Mutex → Bool → Prop

/-- Nothing is known of the mutexes. -/
abbrev Locks.any : Locks := fun _ _ ↦ True

/-- No mutex is poisoned. -/
abbrev Locks.sound : Locks := fun _ ok ↦ ok = true

variable {locks : Locks}

/-- The answer to a step fits what is held for the L2CPU and what may be answered for the
mutexes. -/
def RpcOp.Fits (locks : Locks) (l2cpu : L2CpuIdx) (held : Attachments) (reply : Reply) :
    RpcOp → Prop
  | .peekSlot target | .takeSlot target | .editSlot target _ =>
    locks (.slot target) reply.ok ∧
      (target = l2cpu → reply.slot = if reply.ok then held.slot else none)
  | .putSlot target _ => locks (.slot target) reply.ok
  | .lockEngine => locks .tensixEngine reply.ok
  | .hasDispatcher =>
    locks .dispatcher reply.word.isSome ∧ reply.ok = (reply.word.isSome && held.dispatcher)
  | .dropEngine => locks .dispatcher reply.word.isSome
  | _ => True

/-- What is held for the L2CPU after a step with this answer. -/
def RpcOp.change (l2cpu : L2CpuIdx) (reply : Reply) (held : Attachments) : RpcOp → Attachments
  | .takeSlot target =>
    if target = l2cpu ∧ reply.ok = true then { held with slot := none } else held
  | .putSlot target slot =>
    if target = l2cpu ∧ reply.ok = true then { held with slot := some slot } else held
  | .editSlot target edit =>
    if target = l2cpu ∧ reply.ok = true then { held with slot := held.slot.map edit } else held
  | .updateSlot target edit =>
    if target = l2cpu then { held with slot := held.slot.map edit } else held
  | .register target devIdx device =>
    if target = l2cpu then
      { held with registry := update held.registry devIdx (some device) }
    else held
  | .unregister target devIdx =>
    if target = l2cpu then { held with registry := update held.registry devIdx none }
    else held
  | .registerUart target => if target = l2cpu then { held with uart := true } else held
  | .unregisterUart target => if target = l2cpu then { held with uart := false } else held
  | .spawnConsole target =>
    if target = l2cpu then { held with consoles := held.consoles + 1 } else held
  | .joinConsole target =>
    if target = l2cpu then { held with consoles := held.consoles - 1 } else held
  | .bringUp => { held with dispatcher := held.dispatcher || reply.ok }
  | .dropEngine =>
    if reply.word.isSome then
      { held with dispatcher := false, registry := fun _ ↦ none, uart := false }
    else held
  | _ => held

/-- The steps of the abstraction. -/
def AttachNext (locks : Locks) (l2cpu : L2CpuIdx) (op : RpcOp) (held : Attachments) (reply : Reply)
    (held' : Attachments) : Prop :=
  op.Fits locks l2cpu held reply ∧ held' = op.change l2cpu reply held

/-- The mutexes that a step asks for. -/
def RpcOp.mutexes : RpcOp → List Mutex
  | .peekSlot l2cpu | .takeSlot l2cpu | .putSlot l2cpu _ | .editSlot l2cpu _ => [.slot l2cpu]
  | .lockEngine => [.tensixEngine]
  | .hasDispatcher => [.dispatcher]
  | .bringUp | .dropEngine => [.dispatcher, .tensixEngine]
  | _ => []

section Updates

variable (w : DaemonWorld ι) (target l2cpu : L2CpuIdx)

theorem attachments_setSlot {slot : Option L2CpuSlot} :
    (w.setSlot target slot).attachments l2cpu =
      if target = l2cpu then { w.attachments l2cpu with slot := slot }
      else w.attachments l2cpu := by
  split_ifs with h
  · simp [attachments, setSlot, h]
  · simp [attachments, setSlot, Ne.symm h]

theorem attachments_setDevice {devIdx : ℕ} {device : Option Device} :
    (w.setDevice target devIdx device).attachments l2cpu =
      if target = l2cpu then
        { w.attachments l2cpu with
          registry := update (w.attachments l2cpu).registry devIdx device }
      else w.attachments l2cpu := by
  split_ifs with h
  · simp [attachments, setDevice, h]
  · simp [attachments, setDevice, Ne.symm h]

theorem attachments_setUart {uart : Bool} :
    ({ w with uarts := update w.uarts target uart } : DaemonWorld ι).attachments l2cpu =
      if target = l2cpu then { w.attachments l2cpu with uart := uart }
      else w.attachments l2cpu := by
  split_ifs with h
  · simp [attachments, h]
  · simp [attachments, Ne.symm h]

theorem attachments_setConsoles (change : ℕ → ℕ) :
    ({ w with consoles := update w.consoles target (change (w.consoles target)) } :
        DaemonWorld ι).attachments l2cpu =
      if target = l2cpu then
        { w.attachments l2cpu with consoles := change (w.attachments l2cpu).consoles }
      else w.attachments l2cpu := by
  split_ifs with h
  · simp [attachments, h]
  · simp [attachments, Ne.symm h]

end Updates

/-- The abstraction is one: each step of a thread is one of its steps. -/
theorem attachNext_rpcExec (l2cpu : L2CpuIdx) (op : RpcOp) (w : DaemonWorld ι)
    (hlocks : ∀ mutex ∈ op.mutexes, locks mutex (!w.poisoned mutex)) :
    AttachNext locks l2cpu op (w.attachments l2cpu) (rpcExec op w).1
      ((rpcExec op w).2.attachments l2cpu) := by
  have hstore (target : L2CpuIdx) (addr : ℕ) (value : UInt32) :
      (w.tryStore target addr value).2.attachments l2cpu = w.attachments l2cpu := by
    unfold tryStore
    by_cases h : w.luck <;> simp [h] <;> rfl
  -- a step that asks for a mutex may not get it
  have hlock {mutex : Mutex} {step : Reply × DaemonWorld ι}
      (hexec : rpcExec op w = w.withLock mutex step) (hmem : mutex ∈ op.mutexes)
      (hgot : locks mutex true → AttachNext locks l2cpu op (w.attachments l2cpu) step.1
        (step.2.attachments l2cpu))
      (hfailed : locks mutex false → AttachNext locks l2cpu op (w.attachments l2cpu)
        { ok := false } (w.attachments l2cpu)) :
      AttachNext locks l2cpu op (w.attachments l2cpu) (rpcExec op w).1
        ((rpcExec op w).2.attachments l2cpu) := by
    have hanswer := hlocks mutex hmem
    rw [hexec, withLock]
    cases hpoisoned : w.poisoned mutex with
    | false =>
      rw [hpoisoned] at hanswer
      exact hgot hanswer
    | true =>
      rw [hpoisoned] at hanswer
      exact hfailed hanswer
  have hunmoved (target : L2CpuIdx) (held : Attachments) :
      w.attachments l2cpu = if target = l2cpu ∧ false = true then held
        else w.attachments l2cpu := by
    simp
  have hmoved (target : L2CpuIdx) {slot : Option L2CpuSlot} :
      (w.setSlot target slot).attachments l2cpu = if target = l2cpu ∧ true = true then
        { w.attachments l2cpu with slot := slot } else w.attachments l2cpu := by
    simpa using attachments_setSlot w target l2cpu
  cases op with
  | read32 target addr =>
    refine ⟨trivial, ?_⟩
    by_cases h : w.luck <;> simp [rpcExec, h] <;> rfl
  | write32 target addr value => exact ⟨trivial, hstore target addr value⟩
  | image target part index word => exact ⟨trivial, hstore _ _ _⟩
  | wake target addr => exact ⟨trivial, hstore target addr 1⟩
  | peekSlot target =>
    exact hlock rfl List.mem_cons_self (fun h ↦ ⟨⟨h, fun heq ↦ heq ▸ rfl⟩, rfl⟩)
      fun h ↦ ⟨⟨h, fun _ ↦ rfl⟩, rfl⟩
  | takeSlot target =>
    exact hlock rfl List.mem_cons_self (fun h ↦ ⟨⟨h, fun heq ↦ heq ▸ rfl⟩, hmoved target⟩)
      fun h ↦ ⟨⟨h, fun _ ↦ rfl⟩, hunmoved target _⟩
  | putSlot target slot =>
    exact hlock rfl List.mem_cons_self (fun h ↦ ⟨h, hmoved target⟩)
      fun h ↦ ⟨h, hunmoved target _⟩
  | editSlot target edit =>
    refine hlock rfl List.mem_cons_self
      (fun h ↦ ⟨⟨h, fun heq ↦ heq ▸ rfl⟩, (hmoved target).trans ?_⟩)
      fun h ↦ ⟨⟨h, fun _ ↦ rfl⟩, hunmoved target _⟩
    by_cases h : target = l2cpu
    · subst h
      rfl
    · simp [RpcOp.change, h]
  | updateSlot target edit =>
    refine ⟨trivial, (attachments_setSlot _ _ _).trans ?_⟩
    by_cases h : target = l2cpu
    · subst h
      rfl
    · simp [RpcOp.change, h]
  | register target devIdx device => exact ⟨trivial, attachments_setDevice _ _ _⟩
  | unregister target devIdx => exact ⟨trivial, attachments_setDevice _ _ _⟩
  | registerUart target => exact ⟨trivial, attachments_setUart _ _ _⟩
  | unregisterUart target => exact ⟨trivial, attachments_setUart _ _ _⟩
  | spawnConsole target => exact ⟨trivial, attachments_setConsoles _ _ _ (· + 1)⟩
  | joinConsole target => exact ⟨trivial, attachments_setConsoles _ _ _ (· - 1)⟩
  | lockEngine => exact hlock rfl List.mem_cons_self (fun h ↦ ⟨h, rfl⟩) fun h ↦ ⟨h, rfl⟩
  | hasDispatcher =>
    exact hlock rfl List.mem_cons_self (fun h ↦ ⟨⟨h, rfl⟩, rfl⟩) fun h ↦ ⟨⟨h, rfl⟩, rfl⟩
  | bringUp =>
    refine ⟨trivial, ?_⟩
    simp only [rpcExec]
    split_ifs with _ hdisp
    · simp [RpcOp.change]
    · simp [RpcOp.change, attachments, hdisp]
    · simp [RpcOp.change, attachments, tried]
    · simp [RpcOp.change, attachments, tried]
  | dropEngine => exact hlock rfl List.mem_cons_self (fun h ↦ ⟨h, rfl⟩) fun h ↦ ⟨h, rfl⟩
  | _ => exact ⟨by trivial, rfl⟩

/-- No step of a thread poisons a mutex. -/
theorem rpcExec_poisoned (op : RpcOp) (w : DaemonWorld ι) :
    (rpcExec op w).2.faults.poisoned = w.faults.poisoned := by
  have hstore (target : L2CpuIdx) (addr : ℕ) (value : UInt32) :
      (w.tryStore target addr value).2.faults.poisoned = w.faults.poisoned := by
    unfold tryStore
    split_ifs
    · rfl
    · rfl
  cases op with
  | write32 target addr value => exact hstore _ _ _
  | image target part index word => exact hstore _ _ _
  | wake target addr => exact hstore _ _ _
  | read32 target addr =>
    change (if _ then _ else _ : Reply × DaemonWorld ι).2.faults.poisoned = _
    split_ifs
    · rfl
    · rfl
  | peekSlot | takeSlot | putSlot | editSlot | lockEngine | hasDispatcher | dropEngine =>
    exact withLock_keeps (fun w ↦ w.faults.poisoned) rfl
  | bringUp =>
    simp only [rpcExec]
    split_ifs <;> rfl
  | _ => rfl

theorem daemonExec_poisoned {platform : Platform} (op : DaemonOp ι) (w : DaemonWorld ι) :
    (daemonExec platform op w).2.faults.poisoned = w.faults.poisoned := by
  cases op with
  | rpc op => exact rpcExec_poisoned op w
  | resetBoard =>
    change (if _ then _ else if _ then _ else _ : Reply × DaemonWorld ι).2.faults.poisoned = _
    split_ifs <;> rfl
  | _ => rfl

/-- The steps of a thread, in the abstraction: the chip and the flag are not part of it. -/
def DaemonNext (locks : Locks) (l2cpu : L2CpuIdx) :
    DaemonOp ι → Attachments → Reply → Attachments → Prop
  | .rpc op, held, reply, held' => AttachNext locks l2cpu op held reply held'
  | _, held, _, held' => held' = held

/-- The mutexes that a step asks for. -/
def DaemonOp.mutexes : DaemonOp ι → List Mutex
  | .rpc op => op.mutexes
  | _ => []

theorem daemonNext_daemonExec (platform : Platform) (l2cpu : L2CpuIdx) (op : DaemonOp ι)
    (w : DaemonWorld ι) (hlocks : ∀ mutex ∈ op.mutexes, locks mutex (!w.poisoned mutex)) :
    DaemonNext locks l2cpu op (w.attachments l2cpu) (daemonExec platform op w).1
      ((daemonExec platform op w).2.attachments l2cpu) := by
  cases op with
  | rpc op => exact attachNext_rpcExec l2cpu op w hlocks
  | resetBoard =>
    change ((if _ then _ else if _ then _ else _ : Reply × DaemonWorld ι).2).attachments l2cpu = _
    split_ifs
    · rfl
    · rfl
    · rfl
  | _ => rfl

/-! ### Poisoned mutexes -/

/-- What is attached to an L2CPU, and which mutexes are poisoned. -/
structure SlotView where
  held : Attachments
  poisoned : Mutex → Bool

/-- What is attached to an L2CPU, and which mutexes are poisoned. -/
def DaemonWorld.slotView (w : DaemonWorld ι) (l2cpu : L2CpuIdx) : SlotView :=
  ⟨w.attachments l2cpu, w.faults.poisoned⟩

/-- The answers to requests for these mutexes. -/
abbrev Locks.of (poisoned : Mutex → Bool) : Locks := fun mutex ok ↦ ok = !poisoned mutex

theorem Locks.of_true {poisoned : Mutex → Bool} {mutex : Mutex}
    (h : Locks.of poisoned mutex true) : poisoned mutex = false := by
  simpa using h.symm

theorem Locks.of_false {poisoned : Mutex → Bool} {mutex : Mutex}
    (h : Locks.of poisoned mutex false) : poisoned mutex = true := by
  simpa using h.symm

/-- The steps of a thread, by what is attached and which mutexes are poisoned. -/
def SlotView.next (l2cpu : L2CpuIdx) (op : DaemonOp ι) (v : SlotView) (reply : Reply)
    (v' : SlotView) : Prop :=
  DaemonNext (.of v.poisoned) l2cpu op v.held reply v'.held ∧ v'.poisoned = v.poisoned

theorem slotView_daemonExec (platform : Platform) (l2cpu : L2CpuIdx) (op : DaemonOp ι)
    (w : DaemonWorld ι) : (w.slotView l2cpu).next l2cpu op (daemonExec platform op w).1
      ((daemonExec platform op w).2.slotView l2cpu) :=
  ⟨daemonNext_daemonExec platform l2cpu op w fun _ _ ↦ rfl, daemonExec_poisoned op w⟩

theorem slotView_rpcExec (l2cpu : L2CpuIdx) (op : RpcOp) (w : DaemonWorld ι) :
    (w.slotView l2cpu).next l2cpu (.rpc op : DaemonOp ι) (rpcExec op w).1
      ((rpcExec op w).2.slotView l2cpu) :=
  ⟨attachNext_rpcExec l2cpu op w fun _ _ ↦ rfl, rpcExec_poisoned op w⟩

/-! ### Parts of a request in an abstraction -/

variable {α τ : Type} {rest : Reply → RpcM α}

section Rules

variable {step : RpcOp → τ → Reply → τ → Prop} {guarantee : RpcOp → τ → Prop} {post : α → τ → Prop}
  {fail : Failure → τ → Prop} {next : Unit → RpcM α} {v : τ}

theorem settles_ask
    (h : ∀ reply v', step op v reply v' → Settles step guarantee (rest reply) post fail v')
    (hop : guarantee op v) : Settles step guarantee (ask op >>= rest) post fail v := ⟨hop, h⟩

theorem settles_askOk (hfail : ∀ reply v', step op v reply v' → reply.ok = false → fail .error v')
    (h : ∀ reply v', step op v reply v' → reply.ok = true →
      Settles step guarantee (rest reply) post fail v') (hop : guarantee op v) :
    Settles step guarantee (askOk op >>= rest) post fail v := by
  unfold askOk
  rw [bind_assoc]
  refine settles_ask (fun reply v' hnext ↦ ?_) hop
  by_cases hok : reply.ok = true
  · simp only [hok, if_true, pure_bind]
    exact h reply v' hnext hok
  · simp only [hok]
    exact hfail reply v' hnext (Bool.eq_false_iff.mpr hok)

theorem runs_ask (h : ∀ reply v', step op v reply v' → Runs step (rest reply) post fail v') :
    Runs step (ask op >>= rest) post fail v := settles_ask h trivial

theorem runs_tell (h : ∀ reply v', step op v reply v' → Runs step (next ()) post fail v') :
    Runs step (tell op >>= next) post fail v := settles_ask h trivial

theorem runs_askOk (hfail : ∀ reply v', step op v reply v' → reply.ok = false → fail .error v')
    (h : ∀ reply v', step op v reply v' → reply.ok = true → Runs step (rest reply) post fail v') :
    Runs step (askOk op >>= rest) post fail v := settles_askOk hfail h trivial

theorem settles_doIf {condition : Bool} {post : Unit → τ → Prop}
    (h : condition = true → Settles step guarantee part post fail v)
    (hskip : condition = false → post () v) :
    Settles step guarantee (doIf condition part) post fail v := by
  cases condition with
  | true => exact h rfl
  | false => exact hskip rfl

theorem settles_forSome {β : Type} {value : Option β} {part : β → RpcM Unit}
    {post : Unit → τ → Prop}
    (h : ∀ b, value = some b → Settles step guarantee (part b) post fail v)
    (hskip : value = none → post () v) :
    Settles step guarantee (forSome value part) post fail v := by
  cases value with
  | none => exact hskip rfl
  | some b => exact h b rfl

theorem settles_caught {post : Bool → τ → Prop} (h : Settles step guarantee part (fun _ ↦ post true)
      (fun failure v' ↦ post false v' ∧ fail failure v') v) :
    Settles step guarantee (caught part) post fail v := by
  refine Meets.bind h fun result v' hres ↦ ?_
  cases result with
  | ok value => exact hres
  | error failure =>
    cases failure with
    | error => exact hres.1
    | _ => exact hres.2

end Rules

/-- The attachments that a part leaves when it succeeds and when it fails. -/
abbrev Leaves {α : Type} (locks : Locks) (l2cpu : L2CpuIdx) (part : RpcM α)
    (post : α → Attachments → Prop) (fail : Attachments → Prop) (held : Attachments) : Prop :=
  Settles (AttachNext locks l2cpu) (fun _ _ ↦ True) part post (fun _ ↦ fail) held

/-- What happens next to a request leaves alone what is attached to the L2CPU, and poisons no
mutex. -/
def SparesSlot (l2cpu : L2CpuIdx) (environment : ℕ → DaemonWorld ι → DaemonWorld ι) : Prop :=
  ∀ clock w, (environment clock w).slotView l2cpu = w.slotView l2cpu

/-- What a part leaves in a run, with the answers for the mutexes that are poisoned at its start. -/
theorem Leaves.settled {l2cpu : L2CpuIdx} {w : DaemonWorld ι} {part : RpcM α}
    {post : α → Attachments → Prop} {fail : Attachments → Prop}
    (h : Leaves (.of w.faults.poisoned) l2cpu part post fail (w.attachments l2cpu))
    {environment : ℕ → DaemonWorld ι → DaemonWorld ι} (henvironment : SparesSlot l2cpu environment)
    (clock : ℕ) :
    Settled post (fun _ ↦ fail) (part.run.run rpcExec environment clock w).result
      ((part.run.run rpcExec environment clock w).state.attachments l2cpu) := by
  have hop (op : RpcOp) (u : SlotView) (hu : u.poisoned = w.faults.poisoned) (_ : True) :
      True ∧ ∀ reply u', u.next l2cpu (.rpc op : DaemonOp ι) reply u' →
        u'.poisoned = w.faults.poisoned ∧
          AttachNext (.of w.faults.poisoned) l2cpu op u.held reply u'.held := by
    refine ⟨trivial, fun reply u' hnext ↦ ⟨hnext.2.trans hu, ?_⟩⟩
    rw [← hu]
    exact hnext.1
  have hkept : (w.slotView l2cpu).poisoned = w.faults.poisoned := rfl
  have hrun := (Settles.lift SlotView.held hop hkept h).run
    (fun w : DaemonWorld ι ↦ w.slotView l2cpu) (slotView_rpcExec l2cpu) henvironment clock
  generalize (part.run.run rpcExec environment clock w).result = result at hrun ⊢
  cases result with
  | ok value => exact hrun.2
  | error failure => exact hrun.2

/-- A slot that was found is the one that is there. -/
theorem slot_of_fits {reply : Reply} {slot' : Option L2CpuSlot}
    (h : reply.slot = if reply.ok then slot' else none) (hfound : reply.slot = some slot) :
    reply.ok = true ∧ slot' = some slot := by
  cases hok : reply.ok with
  | false => simp [h, hok] at hfound
  | true => simpa [h, hok] using hfound

section Leaves

variable {l2cpu : L2CpuIdx} {held : Attachments} {post : α → Attachments → Prop}
  {fail : Attachments → Prop} {next : Unit → RpcM α}

theorem leaves_ask (h : ∀ reply, op.Fits locks l2cpu held reply →
      Leaves locks l2cpu (rest reply) post fail (op.change l2cpu reply held)) :
    Leaves locks l2cpu (ask op >>= rest) post fail held := by
  refine runs_ask fun reply held' hnext ↦ ?_
  obtain ⟨hfits, rfl⟩ := hnext
  exact h reply hfits

theorem leaves_tell
    (h : ∀ reply, Leaves locks l2cpu (next ()) post fail (op.change l2cpu reply held)) :
    Leaves locks l2cpu (tell op >>= next) post fail held :=
  leaves_ask fun reply _ ↦ h reply

theorem leaves_askOk (hfail : ∀ reply, op.Fits locks l2cpu held reply → reply.ok = false →
      fail (op.change l2cpu reply held))
    (h : ∀ reply, op.Fits locks l2cpu held reply → reply.ok = true →
      Leaves locks l2cpu (rest reply) post fail (op.change l2cpu reply held)) :
    Leaves locks l2cpu (askOk op >>= rest) post fail held := by
  refine runs_askOk (fun reply held' hnext hok ↦ ?_) fun reply held' hnext hok ↦ ?_
  · obtain ⟨hfits, rfl⟩ := hnext
    exact hfail reply hfits hok
  · obtain ⟨hfits, rfl⟩ := hnext
    exact h reply hfits hok

theorem leaves_trial (hfail : fail held)
    (h : ∀ reply, Leaves locks l2cpu (rest reply) post fail held) :
    Leaves locks l2cpu (askOk .trial >>= rest) post fail held :=
  leaves_askOk (fun _ _ _ ↦ hfail) fun reply _ _ ↦ h reply

theorem leaves_hasDispatcher (hfail : fail held)
    (h : ∀ reply, held.dispatcher = true → Leaves locks l2cpu (rest reply) post fail held) :
    Leaves locks l2cpu (askOk .hasDispatcher >>= rest) post fail held :=
  leaves_askOk (fun _ _ _ ↦ hfail) fun reply hfits hok ↦
    h reply (Bool.and_eq_true_iff.mp (hfits.2.symm.trans hok)).2

theorem leaves_lockEngine (hfail : fail held)
    (h : ∀ reply, Leaves locks l2cpu (rest reply) post fail held) :
    Leaves locks l2cpu (askOk .lockEngine >>= rest) post fail held :=
  leaves_askOk (fun _ _ _ ↦ hfail) fun reply _ _ ↦ h reply

theorem leaves_bootedSlot {rest : L2CpuSlot → RpcM α} (hfail : fail held)
    (h : ∀ slot, held.slot = some slot → Leaves locks l2cpu (rest slot) post fail held) :
    Leaves locks l2cpu (bootedSlot l2cpu >>= rest) post fail held := by
  unfold bootedSlot
  rw [bind_assoc]
  refine leaves_ask fun reply hfits ↦ ?_
  cases hfound : reply.slot with
  | none => exact hfail
  | some slot => exact h slot (slot_of_fits (hfits.2 rfl) hfound).2

end Leaves

/-! ### Steps that leave everything alone -/

/-- Leaves alone what is attached to any L2CPU. -/
def RpcOp.Still : RpcOp → Prop
  | .image _ _ _ _ | .wake _ _ | .replyOk _ | .note _ => True
  | op => op.Looks

theorem RpcOp.Still.change (h : op.Still) (l2cpu : L2CpuIdx) (reply : Reply) (held : Attachments) :
    op.change l2cpu reply held = held := by
  cases op with
  | read32 | write32 | image | wake | peekSlot | lockEngine | hasDispatcher | dupFd | trial
  | replyOk | note => rfl
  | _ => exact absurd h not_false

theorem RpcOp.Looks.still (h : op.Looks) : op.Still := by
  cases op with
  | read32 | write32 | peekSlot | lockEngine | hasDispatcher | dupFd | trial => trivial
  | _ => exact absurd h not_false

theorem RpcOp.Stores.still {l2cpu : L2CpuIdx} (h : op.Stores l2cpu) : op.Still := by
  cases op with
  | image | wake | replyOk | note => trivial
  | _ => exact h

theorem RpcOp.Own.change_of_ne {l2cpu target : L2CpuIdx} (h : op.Own target)
    (htarget : target ≠ l2cpu) (reply : Reply) (held : Attachments) :
    op.change l2cpu reply held = held := by
  cases op with
  | takeSlot | putSlot | editSlot =>
    obtain rfl := h
    exact if_neg fun hboth ↦ htarget hboth.1
  | updateSlot | register | unregister | registerUart | unregisterUart | spawnConsole
  | joinConsole =>
    obtain rfl := h
    exact if_neg htarget
  | read32 | write32 | peekSlot | lockEngine | hasDispatcher | dupFd | trial => rfl
  | _ => exact absurd h not_false

section Still

variable {l2cpu target : L2CpuIdx} {held : Attachments} {part : RpcM α}

theorem leaves_of_change {allowed : RpcOp → Prop} (h : part.Only allowed)
    (hchange : ∀ op, allowed op → ∀ reply, op.change l2cpu reply held = held) :
    Leaves locks l2cpu part (fun _ held' ↦ held' = held) (fun held' ↦ held' = held) held := by
  have hop (op : RpcOp) (v : Attachments) (hallowed : allowed op) (hv : v = held) :
      True ∧ ∀ reply v', AttachNext locks l2cpu op v reply v' → v' = held := by
    refine ⟨trivial, fun reply v' hnext ↦ ?_⟩
    rw [hnext.2, hv, hchange op hallowed]
  exact settles_keeping h hop rfl

theorem leaves_still (h : part.Only RpcOp.Still) :
    Leaves locks l2cpu part (fun _ held' ↦ held' = held) (fun held' ↦ held' = held) held :=
  leaves_of_change h fun _ hop reply ↦ hop.change l2cpu reply held

theorem leaves_elsewhere (h : part.Only (RpcOp.Own target)) (htarget : target ≠ l2cpu) :
    Leaves locks l2cpu part (fun _ held' ↦ held' = held) (fun held' ↦ held' = held) held :=
  leaves_of_change h fun _ hop reply ↦ hop.change_of_ne htarget reply held

theorem still_wakeParked (l2cpu : L2CpuIdx) (parked : ParkedReleaseMeta) :
    (wakeParked l2cpu parked).Only RpcOp.Still := by
  have hstore (addr value : ℕ) : (writeU64 l2cpu addr value).Only RpcOp.Still :=
    (looks_writeU64 l2cpu addr value).allow fun _ hop ↦ hop.still
  refine (hstore _ _).bind fun _ ↦ (hstore _ _).bind fun _ ↦ (hstore _ _).bind fun _ ↦
    (hstore _ _).bind fun _ ↦ (only_askOk trivial).bind fun hsmNow ↦ ?_
  split_ifs
  · exact only_throw
  · refine ((looks_write32 _ _).allow fun _ hop ↦ hop.still).bind fun _ ↦ ?_
    exact (only_askOk trivial).bind fun _ ↦ only_pure _

theorem Composes.dispatchRelease {Has : (α : Type) → RpcM α → Prop} (h : Composes RpcOp.Still Has)
    {platform : Platform} {payload : BootPayload} {parked : ParkedReleaseMeta}
    {dtbBytes : Option Image} {args : DeviceArgs}
    (hswap : args.asks = true → Has Unit (Daemon.swapAttachedForRelease platform l2cpu args)) :
    Has Unit (Daemon.dispatchRelease platform l2cpu payload parked dtbBytes args) := by
  refine h.bind (h.only ((looks_readBinFile _ _).allow fun _ hop ↦ hop.still)) fun kernel ↦ ?_
  refine h.bind (h.only ((stores_nocWriteBulk _).allow fun _ hop ↦ hop.still)) fun _ ↦ ?_
  refine h.bind (h.only ((stores_reimageDtb _ _).allow fun _ hop ↦ hop.still)) fun _ ↦ ?_
  refine h.bind (h.doIf hswap) fun _ ↦ h.bind (h.only (still_wakeParked _ _)) fun _ ↦ ?_
  exact h.only (only_tell trivial)

end Still

/-! ### Attaching -/

/-- What is held after a device was registered and the slot was changed. -/
def Attachments.attach (held : Attachments) (slot : L2CpuSlot) (devIdx : ℕ) (device : Device) :
    Attachments :=
  { held with
    slot := some slot
    registry := update held.registry devIdx (some device) }

section Attach

variable (l2cpu : L2CpuIdx) (held : Attachments)

theorem leaves_attach {held : Attachments} {devIdx : ℕ} {device : Device}
    {edit : L2CpuSlot → L2CpuSlot} {post : Unit → Attachments → Prop} {fail : Attachments → Prop}
    (hslot : held.slot = some slot) (h : post () (held.attach (edit slot) devIdx device)) :
    Leaves locks l2cpu (do tell (.register l2cpu devIdx device); tell (.updateSlot l2cpu edit))
      post fail held := by
  refine leaves_tell fun _ ↦ leaves_ask fun _ _ ↦ ?_
  simp only [RpcOp.change, if_true, hslot, Option.map_some]
  exact settles_pure h

theorem leaves_dispatchAddDisk (path : Path) (name : Option Serial) :
    Leaves locks l2cpu (dispatchAddDisk l2cpu path name)
      (fun _ held' ↦ held.dispatcher = true ∧ ∃ slot devIdx, held.slot = some slot ∧
        mayAddDisk slot name = true ∧
        pickFreeBlkSlot (slot.disks.map DiskWorker.devIdx) slot.blkDtbDevIdx = some devIdx ∧
        held' = held.attach { slot with disks := slot.disks ++ [⟨path, name, devIdx⟩] } devIdx
          (.blk path name))
      (fun held' ↦ held' = held) held := by
  refine leaves_bootedSlot rfl fun slot hslot ↦ ?_
  by_cases hmay : mayAddDisk slot name = true
  · simp only [hmay, if_true]
    refine leaves_trial rfl fun _ ↦ ?_
    cases hpick : pickFreeBlkSlot (slot.disks.map DiskWorker.devIdx) slot.blkDtbDevIdx with
    | none => exact settles_throw rfl
    | some devIdx =>
      refine leaves_hasDispatcher rfl fun _ hdisp ↦ leaves_lockEngine rfl fun _ ↦
        leaves_trial rfl fun _ ↦ ?_
      exact leaves_attach l2cpu hslot ⟨hdisp, slot, devIdx, hslot, hmay, hpick, rfl⟩
  · simp only [hmay]
    exact settles_throw rfl

theorem leaves_dispatchAddNet (platform : Platform) (sshPortOverride : Option ℕ)
    (extraFwd : Forwards) :
    Leaves locks l2cpu (dispatchAddNet platform l2cpu sshPortOverride extraFwd)
      (fun _ held' ↦ held.dispatcher = true ∧ ∃ slot, held.slot = some slot ∧ slot.net = false ∧
        held' = held.attach { slot with net := true } devNet
          (.net (netForwards (sshPortOverride.getD (sshPort platform.card l2cpu)) extraFwd) none))
      (fun held' ↦ held' = held) held := by
  refine leaves_bootedSlot rfl fun slot hslot ↦ ?_
  by_cases hnet : slot.net = true
  · simp only [hnet, if_true]
    exact settles_throw rfl
  · simp only [hnet]
    have hprobe (forwards : Forwards) : (forwards.forM fun _ ↦ do let _ ← askOk .trial).Only
      RpcOp.Still := only_forM _ fun _ ↦ (only_askOk trivial).map
    refine Settles.bind (leaves_still (hprobe _)) fun _ held' hheld' ↦ ?_
    subst hheld'
    refine leaves_hasDispatcher rfl fun _ hdisp ↦ leaves_trial rfl fun _ ↦ ?_
    exact leaves_attach l2cpu hslot ⟨hdisp, slot, hslot, Bool.eq_false_iff.mpr hnet, rfl⟩

theorem leaves_dispatchAddConsole :
    Leaves locks l2cpu (dispatchAddConsole l2cpu)
      (fun _ held' ↦ held.dispatcher = true ∧ ∃ slot, held.slot = some slot ∧
        slot.virtioConsole = false ∧
        held' = held.attach { slot with virtioConsole := true } devConsole .console)
      (fun held' ↦ held' = held) held := by
  refine leaves_bootedSlot rfl fun slot hslot ↦ ?_
  by_cases hconsole : slot.virtioConsole = true
  · simp only [hconsole, if_true]
    exact settles_throw rfl
  · simp only [hconsole]
    refine leaves_hasDispatcher rfl fun _ hdisp ↦ ?_
    exact leaves_attach l2cpu hslot ⟨hdisp, slot, hslot, Bool.eq_false_iff.mpr hconsole, rfl⟩

theorem leaves_attachRngInline :
    Leaves locks l2cpu (attachRngInline l2cpu)
      (fun _ held' ↦ held.dispatcher = true ∧ ∃ slot, held.slot = some slot ∧
        held' = held.attach { slot with virtioRng := true } devRng .rng)
      (fun held' ↦ held' = held) held := by
  refine leaves_lockEngine rfl fun _ ↦ leaves_hasDispatcher rfl fun _ hdisp ↦ ?_
  refine leaves_bootedSlot rfl fun slot hslot ↦ ?_
  exact leaves_attach l2cpu hslot ⟨hdisp, slot, hslot, rfl⟩

end Attach

/-! ### Detaching -/

/-- What is held with another slot. -/
def Attachments.withSlot (held : Attachments) (slot : Option L2CpuSlot) : Attachments :=
  { held with slot }

/-- What is held after devices were unregistered, if there is a dispatcher. -/
def Attachments.without (held : Attachments) (devs : List ℕ) : Attachments :=
  { held with
    registry := fun devIdx ↦
      if held.dispatcher = true ∧ devIdx ∈ devs then none else held.registry devIdx }

section Detach

variable (l2cpu : L2CpuIdx) (held : Attachments)
variable (devs : List ℕ) (devIdx : ℕ)

@[simp]
theorem Attachments.withSlot_self : held.withSlot held.slot = held := rfl

/-- What a change of the slot answers and leaves. -/
theorem leaves_editSlot {edit : L2CpuSlot → L2CpuSlot} {rest : Reply → RpcM α}
    {post : α → Attachments → Prop} {fail : Attachments → Prop}
    (hlock : ∀ reply, locks (.slot l2cpu) false → reply.slot = none →
      Leaves locks l2cpu (rest reply) post fail held)
    (hnone : ∀ reply, locks (.slot l2cpu) true → held.slot = none → reply.slot = none →
      Leaves locks l2cpu (rest reply) post fail held)
    (h : ∀ reply slot, locks (.slot l2cpu) true → held.slot = some slot → reply.slot = some slot →
      Leaves locks l2cpu (rest reply) post fail (held.withSlot (some (edit slot)))) :
    Leaves locks l2cpu (ask (.editSlot l2cpu edit) >>= rest) post fail held := by
  refine leaves_ask fun reply hfits ↦ ?_
  obtain ⟨hgot, hslot⟩ := hfits
  have hslot := hslot rfl
  cases hok : reply.ok with
  | false =>
    rw [hok] at hgot hslot
    rw [show (RpcOp.editSlot l2cpu edit).change l2cpu reply held = held by
      simp [RpcOp.change, hok]]
    exact hlock reply hgot hslot
  | true =>
    rw [hok] at hgot
    rw [hok, if_pos rfl] at hslot
    rw [show (RpcOp.editSlot l2cpu edit).change l2cpu reply held =
      held.withSlot (held.slot.map edit) by simp [RpcOp.change, hok, Attachments.withSlot]]
    cases hheld : held.slot with
    | none =>
      rw [Option.map_none, ← hheld, Attachments.withSlot_self]
      exact hnone reply hgot hheld (hslot.trans hheld)
    | some slot => exact h reply slot hgot hheld (hslot.trans hheld)

/-- A request to remove a disk that is refused leaves the slot as it is. -/
theorem withoutDisks_of_refused {name : Option Serial} (h : ¬ mayRemoveDisk slot name = true) :
    slot.withoutDisks name = slot := by
  cases name with
  | none =>
    by_cases hlen : slot.disks.length > 1
    · simp [withoutDisks, hlen]
    · have hdisks : slot.disks = [] := by
        simpa [mayRemoveDisk, takenDisks, hlen] using h
      simp only [withoutDisks, hdisks]
      rw [← hdisks]
      simp
  | some want =>
    have hnames : ∀ disk ∈ slot.disks, disk.name ≠ some want := by
      intro disk hdisk
      have hsome : slot.disks ≠ [] := List.ne_nil_of_mem hdisk
      have hrefused : ∀ disk ∈ slot.disks, ¬ disk.name = some want := by
        simpa [mayRemoveDisk, takenDisks, hsome] using h
      exact hrefused disk hdisk
    have hfilter : (slot.disks.filter fun disk ↦ disk.name ≠ some want) = slot.disks := by
      simpa using hnames
    simp only [withoutDisks, hfilter]

theorem Attachments.without_nil : held.without [] = held := by
  simp [Attachments.without]

theorem Attachments.without_cons (devs : List ℕ) :
    (held.without [devIdx]).without devs = held.without (devIdx :: devs) := by
  ext other device
  case registry =>
    by_cases hother : other = devIdx <;> by_cases hdisp : held.dispatcher = true <;>
      simp [Attachments.without, hother, hdisp]
  all_goals rfl

theorem Attachments.without_of_none (hdisp : held.dispatcher = false) (devs : List ℕ) :
    held.without devs = held := by
  cases held
  simp_all [Attachments.without]

theorem change_unregister (hdisp : held.dispatcher = true) (devIdx : ℕ) (reply : Reply) :
    (RpcOp.unregister l2cpu devIdx).change l2cpu reply held = held.without [devIdx] := by
  simp [RpcOp.change, Attachments.without, hdisp, funext_iff, update_apply]

variable {l2cpu held} {β : Type} {post : α → Attachments → Prop} {fail : Attachments → Prop}

theorem leaves_unregister (items : List β) (index : β → ℕ) (hdisp : held.dispatcher = true) :
    Leaves locks l2cpu (items.forM fun item ↦ tell (.unregister l2cpu (index item)))
      (fun _ held' ↦ held' = held.without (items.map index)) fail held := by
  induction items generalizing held with
  | nil => exact settles_pure held.without_nil.symm
  | cons item items ih =>
    refine leaves_tell fun reply ↦ ?_
    rw [change_unregister l2cpu held hdisp, List.map_cons, ← Attachments.without_cons]
    exact ih hdisp

/-- Whether the dispatcher runs, unless its mutex is not there. -/
theorem leaves_askDispatcher {rest : Reply → RpcM α}
    (hlock : ∀ reply, locks .dispatcher false → reply.word.isSome = false → reply.ok = false →
      Leaves locks l2cpu (rest reply) post fail held)
    (h : ∀ reply, locks .dispatcher true → reply.word.isSome = true →
      reply.ok = held.dispatcher → Leaves locks l2cpu (rest reply) post fail held) :
    Leaves locks l2cpu (ask .hasDispatcher >>= rest) post fail held := by
  refine leaves_ask fun reply hfits ↦ ?_
  obtain ⟨hgot, hok⟩ := hfits
  cases hword : reply.word.isSome with
  | false =>
    rw [hword] at hgot hok
    exact hlock reply hgot hword hok
  | true =>
    rw [hword] at hgot
    rw [hword, Bool.true_and] at hok
    exact h reply hgot hword hok

theorem leaves_dispatcherRuns {rest : Bool → RpcM α} (hlock : locks .dispatcher false → fail held)
    (h : locks .dispatcher true → Leaves locks l2cpu (rest held.dispatcher) post fail held) :
    Leaves locks l2cpu (dispatcherRuns >>= rest) post fail held := by
  unfold dispatcherRuns
  rw [bind_assoc]
  refine leaves_askDispatcher (fun reply hgot hword _ ↦ ?_) fun reply hgot hword hok ↦ ?_
  · rw [hword]
    exact settles_throw (hlock hgot)
  · rw [hword, hok]
    exact h hgot

section

variable (hpart : held.dispatcher = true →
  Leaves locks l2cpu part (fun _ held' ↦ held' = held.without devs) fail held)
include hpart

theorem leaves_doIf {condition : Bool} (hcondition : condition = held.dispatcher) :
    Leaves locks l2cpu (doIf condition part) (fun _ held' ↦ held' = held.without devs) fail
      held := by
  refine settles_doIf (fun hrun ↦ hpart (hcondition.symm.trans hrun)) fun hrun ↦ ?_
  exact (held.without_of_none (hcondition.symm.trans hrun) devs).symm

end

variable (l2cpu held)

/-- The disks are out of the slot and stay registered when the mutex of the dispatcher is not
there. -/
theorem leaves_dispatchRemoveDisk (name : Option Serial) :
    Leaves locks l2cpu (dispatchRemoveDisk l2cpu name)
      (fun _ held' ↦ locks .dispatcher true ∧ ∃ slot, held.slot = some slot ∧
        mayRemoveDisk slot name = true ∧
        held' = (held.withSlot (some (slot.withoutDisks name))).without
          ((slot.takenDisks name).map DiskWorker.devIdx))
      (fun held' ↦ (held' = held ∧ (locks (.slot l2cpu) false ∨
          ∀ slot ∈ held.slot, ¬ mayRemoveDisk slot name = true)) ∨
        locks (.slot l2cpu) true ∧ locks .dispatcher false ∧ ∃ slot, held.slot = some slot ∧
          mayRemoveDisk slot name = true ∧ held' = held.withSlot (some (slot.withoutDisks name)))
      held := by
  refine leaves_editSlot l2cpu held (fun reply hlock hfound ↦ ?_) (fun reply _ hnone hfound ↦ ?_)
    fun reply slot hslotGot hslot hfound ↦ ?_
  · rw [hfound]
    exact settles_throw (.inl ⟨rfl, .inl hlock⟩)
  · rw [hfound]
    exact settles_throw (.inl ⟨rfl, .inr (by simp [hnone])⟩)
  · rw [hfound]
    by_cases hmay : mayRemoveDisk slot name = true
    · simp only [hmay, if_true]
      refine leaves_dispatcherRuns (fun hlock ↦ .inr ⟨hslotGot, hlock, slot, hslot, hmay, rfl⟩)
        fun hgot ↦ ?_
      refine (leaves_doIf _ (leaves_unregister _ _) rfl).imp fun _ held' hheld' ↦ ?_
      exact ⟨hgot, slot, hslot, hmay, hheld'⟩
    · simp only [hmay]
      refine settles_throw (.inl ⟨?_, .inr (by simpa [hslot] using hmay)⟩)
      rw [withoutDisks_of_refused hmay, ← hslot, Attachments.withSlot_self]

theorem leaves_unregister_one :
    held.dispatcher = true → Leaves locks l2cpu (tell (.unregister l2cpu devIdx))
      (fun _ held' ↦ held' = held.without [devIdx]) fail held := by
  intro hdisp
  refine leaves_ask fun reply _ ↦ ?_
  rw [change_unregister l2cpu held hdisp]
  exact settles_pure rfl

theorem leaves_detachDevice (has : L2CpuSlot → Bool) (take : L2CpuSlot → L2CpuSlot) :
    Leaves locks l2cpu (detachDevice l2cpu devIdx has take)
      (fun _ held' ↦ locks (.slot l2cpu) true ∧ (∃ slot, held.slot = some slot ∧ has slot = true) ∧
        held' = (held.without [devIdx]).withSlot (held.slot.map take))
      (fun held' ↦ (locks .dispatcher false ∧ held' = held) ∨
        locks .dispatcher true ∧ ((locks (.slot l2cpu) false ∧ held' = held.without [devIdx]) ∨
          (∀ slot ∈ held.slot, has slot = false) ∧
            held' = (held.without [devIdx]).withSlot (held.slot.map take))) held := by
  refine leaves_dispatcherRuns (fun hlock ↦ .inl ⟨hlock, rfl⟩) fun hruns ↦ ?_
  refine (leaves_doIf [devIdx] (leaves_unregister_one l2cpu held devIdx) rfl).bind
    fun _ held' hheld' ↦ ?_
  subst hheld'
  refine leaves_editSlot l2cpu _ (fun reply hlock hfound ↦ ?_) (fun reply _ hnone hfound ↦ ?_)
    fun reply slot hgot hslot hfound ↦ ?_
  · rw [hfound]
    exact settles_throw (.inr ⟨hruns, .inl ⟨hlock, rfl⟩⟩)
  · rw [hfound]
    have hnone : held.slot = none := hnone
    refine settles_throw (.inr ⟨hruns, .inr ⟨by simp [hnone], ?_⟩⟩)
    rw [hnone, Option.map_none, ← hnone]
    rfl
  · rw [hfound]
    have hslot : held.slot = some slot := hslot
    by_cases hhas : has slot = true
    · simp only [hhas, if_true]
      exact settles_pure ⟨hgot, ⟨slot, hslot, hhas⟩, by rw [hslot]; rfl⟩
    · simp only [hhas]
      exact settles_throw (.inr ⟨hruns, .inr ⟨by simpa [hslot] using hhas, by rw [hslot]; rfl⟩⟩)

/-- Without the mutex of the slot nothing is detached, and without that of the dispatcher the
devices stay registered. -/
theorem leaves_detachWorkers (strict : Bool) :
    Leaves locks l2cpu (detachWorkers l2cpu strict)
      (fun booted held' ↦ (locks (.slot l2cpu) false ∧ booted = false ∧ held' = held) ∨
        booted = held.slot.isSome ∧
          (held' = (held.withSlot (held.slot.map detached)).without (held.slot.elim [] workers) ∨
            strict = false ∧ locks .dispatcher false ∧
              held' = held.withSlot (held.slot.map detached)))
      (fun held' ↦ locks .dispatcher false ∧ held' = held.withSlot (held.slot.map detached))
      held := by
  refine leaves_editSlot l2cpu held (fun reply hlock hfound ↦ ?_) (fun reply _ hnone hfound ↦ ?_)
    fun reply slot hgot hslot hfound ↦ ?_
  · rw [hfound]
    exact settles_pure (.inl ⟨hlock, rfl, rfl⟩)
  · rw [hfound]
    refine settles_pure (.inr ⟨by rw [hnone]; rfl, .inl ?_⟩)
    rw [hnone, Option.map_none, ← hnone, Attachments.withSlot_self, hnone]
    exact held.without_nil.symm
  · rw [hfound, hslot]
    refine leaves_askDispatcher (fun reply hlock hword hok ↦ ?_) fun reply _ hword hok ↦ ?_
    · simp only [hword, hok]
      cases strict with
      | true => exact settles_throw ⟨hlock, rfl⟩
      | false => exact settles_pure (.inr ⟨rfl, .inr ⟨rfl, hlock, rfl⟩⟩)
    · simp only [hword, Bool.or_true]
      refine (leaves_doIf slot.workers (fun hdisp ↦ ?_) hok).bind fun _ held' hheld' ↦ ?_
      · simpa using leaves_unregister slot.workers id hdisp
      · exact settles_pure (.inr ⟨rfl, .inl hheld'⟩)

theorem leaves_dropNetForReboot :
    Leaves locks l2cpu (dropNetForReboot l2cpu)
      (fun extraFwd held' ↦ (extraFwd = none ∧ held' = held) ∨
        ∃ slot, held.slot = some slot ∧ slot.bootPayload.isSome = true ∧ slot.net = true ∧
          extraFwd = some slot.netExtraFwd ∧
          (held' = (held.withSlot (some { slot with net := false })).without [devNet] ∨
            locks .dispatcher false ∧ held' = held.withSlot (some { slot with net := false })))
      (fun _ ↦ False) held := by
  refine leaves_editSlot l2cpu held (fun reply _ hfound ↦ ?_) (fun reply _ hnone hfound ↦ ?_)
    fun reply slot _ hslot hfound ↦ ?_
  · rw [hfound]
    exact settles_pure (.inl ⟨rfl, rfl⟩)
  · rw [hfound]
    exact settles_pure (.inl ⟨rfl, rfl⟩)
  · rw [hfound]
    by_cases hpayload : slot.bootPayload.isSome = true
    · by_cases hnet : slot.net = true
      · simp only [hpayload, hnet, Bool.and_true, if_true]
        refine leaves_askDispatcher (fun reply hlock _ hok ↦ ?_) fun reply _ _ hok ↦ ?_
        · rw [hok]
          exact settles_pure (.inr ⟨slot, hslot, hpayload, hnet, rfl, .inr ⟨hlock, rfl⟩⟩)
        · refine (leaves_doIf [devNet] (leaves_unregister_one _ _ devNet) hok).bind
            fun _ held' hheld' ↦ settles_pure (.inr ?_)
          exact ⟨slot, hslot, hpayload, hnet, rfl, .inl hheld'⟩
      · have hsame : { slot with net := false } = slot := by
          rw [← Bool.eq_false_iff.mpr hnet]
        simp only [hpayload, if_true, hsame]
        simp only [hnet, Bool.and_false]
        refine settles_pure (.inl ⟨rfl, ?_⟩)
        rw [← hslot, Attachments.withSlot_self]
    · simp only [hpayload, Bool.false_and]
      refine settles_pure (.inl ⟨rfl, ?_⟩)
      simp [← hslot]

/-- What is held after a slot was torn down. -/
def Attachments.tornDown (held : Attachments) : Attachments :=
  { held.without (List.range devsPerL2Cpu) with
    uart := held.uart && !held.dispatcher
    consoles := held.consoles - 1 }

theorem leaves_tearDown :
    Leaves locks l2cpu (tearDown l2cpu)
      (fun _ held' ↦ held' = held.tornDown ∨
        locks .dispatcher false ∧ held' = { held with consoles := held.consoles - 1 })
      fail held := by
  have hunregister : Leaves locks l2cpu (unregisterEngineSlots l2cpu)
      (fun _ held' ↦ held' = { held.without (List.range devsPerL2Cpu) with
        uart := held.uart && !held.dispatcher } ∨ locks .dispatcher false ∧ held' = held)
      fail held := by
    refine leaves_askDispatcher (fun reply hlock _ hok ↦ ?_) fun reply _ _ hok ↦ ?_
    · rw [hok]
      exact settles_pure (.inr ⟨hlock, rfl⟩)
    · refine settles_doIf (fun hrun ↦ ?_) fun hrun ↦ .inl ?_
      · have hdisp : held.dispatcher = true := hok.symm.trans hrun
        refine (leaves_unregister _ id hdisp).bind fun _ held' hheld' ↦ leaves_ask fun _ _ ↦ ?_
        subst hheld'
        refine settles_pure (.inl ?_)
        simp [RpcOp.change, hdisp]
      · have hdisp : held.dispatcher = false := hok.symm.trans hrun
        rw [held.without_of_none hdisp]
        ext <;> simp [hdisp]
  refine hunregister.bind fun _ held' hheld' ↦ leaves_ask fun _ _ ↦ settles_pure ?_
  rcases hheld' with rfl | ⟨hlock, rfl⟩
  · exact .inl (if_pos rfl)
  · exact .inr ⟨hlock, if_pos rfl⟩

end Detach

end Bhx.Daemon
