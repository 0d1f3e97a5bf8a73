import Bhx.Daemon.HandlerEffects

/-!
# Jobs of several threads

Every client of the daemon has a thread, and so has the console of every guest. What a thread does
for one L2CPU can come between any two steps of what another one does, for the same L2CPU or a
different one, and nothing in the daemon keeps two requests for one L2CPU apart. `HandlerEffects`
says what one job does when nobody interferes with the attachments of its L2CPU. Here the threads
run next to each other, and the condition is about their order only (`Orderly`): no thread begins a
job for the L2CPU while another one is engaged with it, and no boot of another L2CPU goes on to its
reset of the board.

A thread is engaged with an L2CPU (`Engaged`) while it carries out a job for it, and also in a boot
of another L2CPU from the point on where it may reset the board, which takes all slots, until it
stores the first word of an image. All other steps for other L2CPUs leave the attachments alone
(`Aside`). So at most one thread is engaged with the L2CPU at a time, and whenever none is, what is
attached to it comes by effects from what was attached at the start (`effects_when_idle`).

The proof gives each thread a stage (`Stage`): it is away, or it is here with the attachments as it
has left them. What a job does to the stage follows from what it does to the attachments.
-/

set_option autoImplicit false

namespace Bhx.Daemon

open SharedMemory Chip List Attachments Cores

variable {ι α : Type} {l2cpu target : L2CpuIdx}

/-! ### Threads that are engaged with an L2CPU -/

/-- With the step, a boot from reset gets to where it may reset the board. -/
def DaemonOp.goesCold : DaemonOp ι → Bool
  | .rpc (.note (.cold _)) => true
  | _ => false

/-- With the step, a boot goes on to its images or ends. -/
def DaemonOp.goesOn : DaemonOp ι → Bool
  | .rpc (.image _ _ _ _) | .rpc (.note (.completed _)) => true
  | _ => false

/-- A thread with these steps behind it, newest first, may reset the board. -/
def mayReset : List (DaemonOp ι × Reply) → Bool
  | [] => false
  | (op, _) :: earlier => op.goesCold || (!op.goesOn && mayReset earlier)

/-- The next turn of the thread begins a job for the L2CPU, or it gets to where it may reset the
board. -/
def Enters (l2cpu : L2CpuIdx) : Program (DaemonOp ι) Reply Worker → Prop
  | .done worker => ∃ job ∈ worker.jobs.head?, job.l2cpu = l2cpu
  | .step op _ => op.goesCold = true

instance (l2cpu : L2CpuIdx) :
    (rest : Program (DaemonOp ι) Reply Worker) → Decidable (Enters l2cpu rest)
  | .done worker => inferInstanceAs (Decidable (∃ job ∈ worker.jobs.head?, job.l2cpu = l2cpu))
  | .step op _ => inferInstanceAs (Decidable (op.goesCold = true))

section Threads

variable [DecidableEq ι] (workers : ι → Worker) (l2cpu : L2CpuIdx) (c : DaemonConfig ι) (thread : ι)

/-- The job that a thread carries out. -/
def jobOf : Option Job :=
  if Resting thread c then none
  else (workers thread).jobs[passes thread c.scene.trace - 1]?

/-- A thread carries out a job for the L2CPU, or it may reset the board. -/
def Engaged : Prop :=
  (∃ job ∈ jobOf workers c thread, job.l2cpu = l2cpu) ∨
    mayReset (accesses thread c.scene.trace) = true

instance : Decidable (Engaged workers l2cpu c thread) := inferInstanceAs (Decidable (_ ∨ _))

/-- The next turn of the thread does not begin to work on the L2CPU while another thread does. -/
def Orderly : Prop :=
  Enters l2cpu (c.rest thread) → ∀ other, other ≠ thread → ¬ Engaged workers l2cpu c other

instance [Fintype ι] : Decidable (Orderly workers l2cpu c thread) :=
  inferInstanceAs (Decidable (_ → _))

end Threads

/-! ### Steps for other L2CPUs -/

/-- Leaves alone what is attached to the L2CPU. -/
def DaemonOp.Aside (l2cpu : L2CpuIdx) : DaemonOp ι → Prop
  | .rpc op => ∀ reply held, op.change l2cpu reply held = held
  | _ => True

section Aside

variable {part : RpcM α} {platform : Platform}

/-- The same for what a handler does apart from the chip. -/
abbrev AsideRpc (l2cpu : L2CpuIdx) (part : RpcM α) : Prop :=
  part.Only fun op ↦ ∀ reply held, op.change l2cpu reply held = held

theorem composes_aside : Composes RpcOp.Still fun _ part ↦ AsideRpc l2cpu part :=
  ⟨fun h ↦ h.allow fun _ hop ↦ hop.change l2cpu, fun h hrest ↦ h.bind hrest, only_caught⟩

theorem asideRpc_own (h : part.Only (RpcOp.Own target)) (htarget : target ≠ l2cpu) :
    AsideRpc l2cpu part :=
  h.allow fun _ hop ↦ hop.change_of_ne htarget

theorem aside_rpc (h : AsideRpc l2cpu part) :
    (rpc part : DaemonM ι α).Only (DaemonOp.Aside l2cpu) :=
  h.embed fun _ hop ↦ hop

theorem aside_still {part : DaemonM ι α} (h : part.Only Setting.Still) :
    part.Only (DaemonOp.Aside l2cpu) := by
  refine h.allow fun op hop ↦ ?_
  cases op with
  | rpc op => exact fun reply held ↦ RpcOp.Still.change hop l2cpu reply held
  | _ => trivial

theorem aside_tell {op : RpcOp} (h : op.Still := by exact trivial) :
    (rpc (tell op) : DaemonM ι Unit).Only (DaemonOp.Aside l2cpu) :=
  aside_rpc (composes_aside.only (only_tell h))

section

variable (htarget : target ≠ l2cpu)
include htarget

theorem asideRpc_dispatchRelease {payload : BootPayload} {parked : ParkedReleaseMeta}
    {dtbBytes : Option Image} {args : DeviceArgs} :
    AsideRpc l2cpu (dispatchRelease platform target payload parked dtbBytes args) :=
  composes_aside.dispatchRelease fun _ ↦ asideRpc_own (own_swapAttachedForRelease _ _) htarget

theorem asideRpc_parkProbe (lastParked : Bool) :
    AsideRpc l2cpu (parkProbe platform target lastParked) := by
  have hnote (note : Note) : AsideRpc l2cpu (tell (.note note)) :=
    composes_aside.only (only_tell trivial)
  refine composes_aside.parkProbe (fun _ hop ↦ hop.still) ?_
    (asideRpc_own (own_detachWorkers _) htarget) lastParked
  refine composes_aside.rebootParked trivial (asideRpc_own (own_dropNetForReboot _) htarget)
    (fun _ ↦ asideRpc_own (own_dispatchAddNet _ _ _ _) htarget) ?_ (hnote _)
  exact composes_aside.autoReleaseForReboot (fun _ hop ↦ hop.still) (hnote _)
    fun _ _ _ ↦ asideRpc_dispatchRelease htarget

theorem aside_internalStop (thread : ι) :
    (internalStop platform thread target).Only (DaemonOp.Aside l2cpu) := by
  have htake : AsideRpc l2cpu (ask (.takeSlot target)) := asideRpc_own (only_ask rfl) htarget
  refine (aside_rpc htake).bind fun reply ↦ ?_
  split_ifs
  · exact only_pure false
  · refine (aside_rpc (asideRpc_own (own_tearDown _) htarget)).bind fun _ ↦ ?_
    exact (aside_still (Setting.still_maybeIdlePll thread)).map

end

/-- What a boot of another L2CPU does once it has stored its images. -/
theorem aside_completeBoot {thread : ι} {args : BootArgs} (hother : args.l2cpu ≠ l2cpu)
    (dtb : Image) :
    (do
      let _ ← rpc (askOk .trial)
      rpc (tell (.spawnConsole args.l2cpu))
      let slot ← rpc (registerDevices platform args (freshSlot args dtb))
      releaseL2cpuFromReset platform thread args.l2cpu
      let _ ← rpc (askOk (.putSlot args.l2cpu slot))
      rpc (tell (.replyOk args.l2cpu)) : DaemonM ι Unit).Only (DaemonOp.Aside l2cpu) := by
  have hown {α : Type} {part : RpcM α} (h : part.Only (RpcOp.Own args.l2cpu)) :
      (rpc part : DaemonM ι α).Only (DaemonOp.Aside l2cpu) := aside_rpc (asideRpc_own h hother)
  refine (hown only_askOk).bind fun _ ↦ (hown only_tell).bind fun _ ↦ ?_
  refine (hown (own_registerDevices _)).bind fun slot ↦ ?_
  refine (aside_still (Setting.still_releaseL2cpuFromReset thread _)).bind fun _ ↦ ?_
  exact (hown only_askOk).bind fun _ ↦ aside_tell

theorem attachments_of_aside (platform : Platform) {op : DaemonOp ι} (h : op.Aside l2cpu)
    (w : DaemonWorld ι) :
    (daemonExec platform op w).2.attachments l2cpu = w.attachments l2cpu := by
  have hnext : DaemonNext (fun _ _ ↦ True) l2cpu op (w.attachments l2cpu) _ _ :=
    daemonNext_daemonExec platform l2cpu op w fun _ _ ↦ trivial
  cases op with
  | rpc op => exact hnext.2.trans (h _ _)
  | _ => exact hnext

theorem aside_of_goesOn {op : DaemonOp ι} (h : op.goesOn = true) : op.Aside l2cpu := by
  cases op with
  | rpc op =>
    cases op with
    | image | note => exact fun _ _ ↦ rfl
    | _ => exact absurd h Bool.false_ne_true
  | _ => exact absurd h Bool.false_ne_true

theorem DaemonOp.Apart.goesOn {op : DaemonOp ι} (h : op.Apart) : op.goesOn = false := by
  cases op with
  | rpc op =>
    cases op with
    | image => exact absurd h not_false
    | note note =>
      cases note with
      | completed => exact absurd h not_false
      | _ => rfl
    | _ => rfl
  | _ => rfl

end Aside

/-! ### Stages -/

namespace Setting

/-- Where a thread is: away from the L2CPU, or engaged with it and with these attachments. At `home`
it carries out a job for it. -/
inductive Stage
  | away
  | here (home : Bool) (held : Attachments)

/-- The attachments of a thread that is here. -/
def Stage.held (default : Attachments) : Stage → Attachments
  | .away => default
  | .here _ held => held

variable (setting : Setting ι) (start : Attachments)

/-- The steps of a thread by stages. A boot of another L2CPU finds attachments that come by effects
from the start. -/
def stageNext (op : DaemonOp ι) : Stage → Reply → Stage → Prop
  | .away, _, stage' =>
    if op.goesCold then ∃ held, setting.Effects start held ∧ stage' = .here false held
    else stage' = .away
  | .here home held, reply, stage' =>
    if !home && op.goesOn then stage' = .away
    else ∃ held', setting.next op held reply held' ∧ stage' = .here home held'

/-- A thread that is away changes nothing, and one that goes away leaves what comes by effects from
the start. -/
def stageAllows (op : DaemonOp ι) : Stage → Prop
  | .away => op.Aside setting.l2cpu
  | .here home held => home = false → op.goesOn = true → setting.Effects start held

/-- What a thread leaves comes by effects from the start. -/
def Left : Stage → Prop
  | .away => True
  | .here _ held => setting.Effects start held

/-- A thread is away, or it carries out a job for another L2CPU and has come by effects. -/
def Visits : Stage → Prop
  | .away => True
  | .here home held => home = false ∧ setting.Effects start held

/-- A thread carries out a job for another L2CPU and has come by effects. -/
def Present (stage : Stage) : Prop := ∃ held, setting.Effects start held ∧ stage = .here false held

variable {setting start} {stage : Stage} {thread : ι} {args : BootArgs}

theorem Visits.left (h : setting.Visits start stage) : setting.Left start stage := by
  cases stage with
  | away => trivial
  | here home held => exact h.2

theorem Present.visits (h : setting.Present start stage) : setting.Visits start stage := by
  obtain ⟨held, heffects, rfl⟩ := h
  exact ⟨rfl, heffects⟩

theorem Visits.step {op : DaemonOp ι} (h : setting.Visits start stage)
    (hop : op.Aside setting.l2cpu) : setting.stageAllows start op stage ∧
      ∀ reply stage', setting.stageNext start op stage reply stage' →
        setting.Visits start stage' := by
  cases stage with
  | away =>
    refine ⟨hop, fun reply stage' hnext ↦ ?_⟩
    change (if _ then _ else _) at hnext
    split_ifs at hnext
    · obtain ⟨held, heffects, rfl⟩ := hnext
      exact ⟨rfl, heffects⟩
    · rw [hnext]
      trivial
  | here home held =>
    refine ⟨fun _ _ ↦ h.2, fun reply stage' hnext ↦ ?_⟩
    change (if _ then _ else _) at hnext
    split_ifs at hnext
    · rw [hnext]
      trivial
    · obtain ⟨held', hstep, rfl⟩ := hnext
      obtain rfl : held' = held := by
        cases op with
        | rpc op => exact hstep.2.2.trans (hop _ _)
        | _ => exact hstep.2
      exact h

/-- Steps of a part, by stages. -/
abbrev Passes (setting : Setting ι) (start : Attachments) (part : DaemonM ι α)
    (post : Stage → Prop) (stage : Stage) : Prop :=
  Settles (setting.stageNext start) (setting.stageAllows start) part (fun _ ↦ post)
    (fun _ ↦ setting.Visits start) stage

/-- The same for what a handler does apart from the chip. -/
abbrev PassesRpc (setting : Setting ι) (start : Attachments) (part : RpcM α)
    (post : Stage → Prop) (stage : Stage) : Prop :=
  Settles (fun op ↦ setting.stageNext start (.rpc op))
    (fun op ↦ setting.stageAllows start (.rpc op))
    part (fun _ ↦ post) (fun _ ↦ setting.Visits start) stage

/-- What a part does to the attachments it does to the stage of a thread that is here. One that
carries out a job for another L2CPU does not go on meanwhile. -/
theorem settles_here {home : Bool} {part : DaemonM ι α} {post : α → Attachments → Prop}
    {fail : Failure → Attachments → Prop} {held : Attachments}
    (h : Settles setting.next (fun op _ ↦ home = false → op.goesOn = false) part post fail held) :
    Settles (setting.stageNext start) (setting.stageAllows start) part
      (fun value stage ↦ ∃ held', post value held' ∧ stage = .here home held')
      (fun failure stage ↦ ∃ held', fail failure held' ∧ stage = .here home held')
      (.here home held) := by
  have hop (op : DaemonOp ι) (stage : Stage) (hstage : ∃ held', stage = .here home held')
      (hop : home = false → op.goesOn = false) : setting.stageAllows start op stage ∧
      ∀ reply stage', setting.stageNext start op stage reply stage' →
        (∃ held', stage' = .here home held') ∧
          setting.next op (stage.held held) reply (stage'.held held) := by
    obtain ⟨held', rfl⟩ := hstage
    refine ⟨fun hhome h ↦ absurd ((hop hhome).symm.trans h) Bool.false_ne_true,
      fun reply stage' hnext ↦ ?_⟩
    have hgoes : ¬ (!home && op.goesOn) = true := by
      cases home with
      | true => simp
      | false => simp [hop rfl]
    rw [stageNext, if_neg hgoes] at hnext
    obtain ⟨held'', hnext, rfl⟩ := hnext
    exact ⟨⟨held'', rfl⟩, hnext⟩
  refine (Settles.lift (Stage.held held) hop ⟨held, rfl⟩ h).mono ?_ ?_
  · rintro value stage ⟨⟨held', rfl⟩, hpost⟩
    exact ⟨held', hpost, rfl⟩
  · rintro failure stage ⟨⟨held', rfl⟩, hfail⟩
    exact ⟨held', hfail, rfl⟩

theorem passes_aside {part : DaemonM ι α} (h : part.Only (DaemonOp.Aside setting.l2cpu))
    (hstage : setting.Visits start stage) :
    setting.Passes start part (setting.Visits start) stage :=
  settles_keeping h (fun _ _ hop hstage ↦ hstage.step hop) hstage

/-- What a boot of another L2CPU does before it stores its images. -/
theorem passes_present {part : RpcM α} (h : part.Only fun op ↦ op.Looks ∨ op = .bringUp)
    (hstage : setting.Present start stage) :
    setting.PassesRpc start part (setting.Present start) stage := by
  refine (settles_keeping h (fun op stage hop hstage ↦ ?_) hstage).mono (fun _ _ h ↦ h)
    fun _ _ h ↦ h.visits
  obtain ⟨held, heffects, rfl⟩ := hstage
  have hon : (DaemonOp.rpc op : DaemonOp ι).goesOn = false := by
    rcases hop with hlooks | rfl
    · cases op with
      | image | note => exact absurd hlooks not_false
      | _ => rfl
    · rfl
  refine ⟨fun _ h ↦ absurd (hon.symm.trans h) Bool.false_ne_true, fun reply stage' hnext ↦ ?_⟩
  simp only [stageNext, hon, Bool.and_false, Bool.false_eq_true, if_false] at hnext
  obtain ⟨held', hnext, rfl⟩ := hnext
  refine ⟨held', heffects.trans ?_, rfl⟩
  rw [hnext.2.2]
  rcases hop with hlooks | rfl
  · rw [hlooks.still.change]
    exact .refl
  · exact effects_bringUp reply

theorem passes_runBootSequence (args : BootArgs) (hstage : setting.Present start stage) :
    setting.Passes start (rpc (runBootSequence setting.platform args)) (setting.Visits start)
      stage := by
  have hlooks {α : Type} {part : RpcM α} (h : part.Only RpcOp.Looks) :
      part.Only fun op ↦ op.Looks ∨ op = .bringUp := h.allow fun _ hop ↦ .inl hop
  refine Settles.embed ?_
  refine (passes_present (hlooks only_askOk) hstage).bind fun _ _ hstage ↦ ?_
  refine (passes_present (hlooks (looks_readBinFile _ _)) hstage).bind fun dtbRaw _ hstage ↦ ?_
  refine (passes_present (hlooks (only_doIf (only_forSome fun _ ↦ (looks_readBinFile _ _).map)))
    hstage).bind fun _ _ hstage ↦ ?_
  refine (passes_present (only_doIf ((only_askOk (.inr rfl)).bind fun _ ↦
    (only_askOk (.inl trivial)).map)) hstage).bind fun _ stage hstage ↦ ?_
  cases setting.platform.modifyDtb args dtbRaw with
  | none => exact settles_throw hstage.visits
  | some dtb =>
    refine (settles_keeping (stores_bootL2cpu setting.platform args dtb) (fun op stage hop hstage ↦
      hstage.step fun reply held ↦ ?_) hstage.visits).bind fun _ _ hstage ↦ settles_pure hstage
    exact hop.still.change setting.l2cpu reply held

theorem passes_coldBoot (hother : args.l2cpu ≠ setting.l2cpu)
    (hstage : setting.Visits start stage) :
    setting.Passes start (coldBoot setting.platform thread args) (setting.Visits start) stage := by
  refine (passes_aside (aside_rpc (asideRpc_own (own_handleExistingSlot _) hother)) hstage).bind
    fun _ stage hstage ↦ ?_
  have hcold : setting.Passes start (rpc (tell (.note (.cold args.l2cpu))))
      (setting.Present start) stage := by
    have haside : (DaemonOp.rpc (.note (.cold args.l2cpu)) : DaemonOp ι).Aside setting.l2cpu :=
      fun _ _ ↦ rfl
    refine ⟨(hstage.step haside).1, fun reply stage' hnext ↦ ?_⟩
    cases stage with
    | away => exact hnext
    | here home held =>
      obtain ⟨rfl, heffects⟩ := hstage
      obtain ⟨held', hstep, rfl⟩ := hnext
      exact ⟨held', (hstep.2.2 : held' = held) ▸ heffects, rfl⟩
  refine hcold.bind fun _ stage hstage ↦ ?_
  obtain ⟨held, heffects, rfl⟩ := hstage
  have hreset : setting.Passes start
      (maybeOpportunisticResetBoard setting.platform thread args.l2cpu) (setting.Present start)
      (.here false held) := by
    have hslot (heq : args.l2cpu = setting.l2cpu) : held.slot = none := absurd heq hother
    have hboard := (settles_maybeOpportunisticResetBoard thread hslot).only
      (apart_maybeOpportunisticResetBoard args.l2cpu)
    refine (settles_here (Meets.mono hboard (fun _ _ hop _ ↦ hop.2.goesOn)
      fun _ _ h ↦ h)).mono ?_ ?_
    · rintro _ _ ⟨held', hafter, rfl⟩
      exact ⟨held', heffects.trans hafter.1, rfl⟩
    · rintro _ _ ⟨held', hafter, rfl⟩
      exact ⟨rfl, heffects.trans hafter.1⟩
  refine hreset.bind fun _ stage hstage ↦ ?_
  refine (passes_runBootSequence args hstage).bind fun dtb stage hstage ↦ ?_
  exact passes_aside (aside_completeBoot hother dtb) hstage

theorem passes_job (job : Job) (lastParked : Bool) (hother : job.l2cpu ≠ setting.l2cpu)
    (hstage : setting.Visits start stage) :
    setting.Passes start (job.run setting.platform thread lastParked) (setting.Visits start)
      stage := by
  cases job with
  | boot args =>
    refine Settles.bind ?_ fun _ _ hstage ↦ settles_pure hstage
    refine (passes_aside (aside_still (still_rpc only_require)) hstage).bind fun _ _ hstage ↦ ?_
    refine (passes_aside (aside_tell) hstage).bind fun _ _ hstage ↦ ?_
    refine (passes_aside (aside_rpc (composes_aside.only ((looks_findParked _).allow
      fun _ hop ↦ hop.still))) hstage).bind fun parked stage hstage ↦ ?_
    cases parked with
    | some parked =>
      refine passes_aside (aside_rpc ?_) hstage
      exact (composes_aside.only ((looks_takeSlotDtbBytes _).allow fun _ hop ↦ hop.still)).bind
        fun _ ↦ asideRpc_dispatchRelease hother
    | none => exact passes_coldBoot hother hstage
  | stop target =>
    refine passes_aside (Fallible.Only.map ?_) hstage
    refine (aside_internalStop hother thread).bind fun stopped ↦ ?_
    split_ifs
    · exact aside_tell
    · exact only_throw
  | device target request =>
    refine passes_aside ?_ hstage
    refine (aside_rpc (asideRpc_own (own_deviceRequest _ _) hother)).bind fun _ ↦ ?_
    exact (aside_tell).map
  | probe target fresh =>
    exact passes_aside (aside_rpc (asideRpc_parkProbe hother _)) hstage

/-! ### Runs -/

theorem Left.note (h : setting.Left start stage) (note : Note) :
    Meets (setting.stageNext start) (setting.stageAllows start) (fun _ ↦ setting.Left start)
      (do let _ ← Program.perform (.rpc (.note note))) stage := by
  cases stage with
  | away =>
    refine ⟨fun _ _ ↦ rfl, fun reply stage' hnext ↦ ?_⟩
    change (if _ then _ else _) at hnext
    split_ifs at hnext
    · obtain ⟨held, heffects, rfl⟩ := hnext
      exact heffects
    · rw [hnext]
      trivial
  | here home held =>
    refine ⟨fun _ _ ↦ h, fun reply stage' hnext ↦ ?_⟩
    change (if _ then _ else _) at hnext
    split_ifs at hnext
    · rw [hnext]
      trivial
    · obtain ⟨held', hstep, rfl⟩ := hnext
      rwa [show held' = held from hstep.2.2]

/-- What a thread may be left with after its pass: the jobs that come next, or none. -/
def Follows (jobs : List Job) (worker : Worker) : Prop := worker.jobs = jobs ∨ worker.jobs = []

/-- A thread goes through the stages, and is left with these jobs. -/
abbrev LeftWith (setting : Setting ι) (start : Attachments) (jobs : List Job)
    (rest : Program (DaemonOp ι) Reply Worker) (stage : Stage) : Prop :=
  Meets (setting.stageNext start) (setting.stageAllows start)
    (fun worker stage ↦ setting.Left start stage ∧ Follows jobs worker) rest stage

/-- What a job does to the stage a pass does. -/
theorem meets_pass {worker : Worker} {job : Job} {jobs : List Job}
    (hjobs : worker.jobs = job :: jobs) {stage : Stage}
    (hjob : Settles (setting.stageNext start) (setting.stageAllows start)
      (job.run setting.platform thread worker.lastParked) (fun _ ↦ setting.Left start)
      (fun _ ↦ setting.Left start) stage) :
    setting.LeftWith start jobs (worker.pass setting.platform thread) stage := by
  unfold Worker.pass
  rw [hjobs]
  refine Meets.bind hjob fun result stage hresult ↦ ?_
  have hover : Meets (setting.stageNext start) (setting.stageAllows start)
      (fun _ ↦ setting.Left start) job.over stage := by
    cases job with
    | boot args => exact Left.note hresult.both (.completed args.l2cpu)
    | _ => exact hresult.both
  refine hover.bind fun _ stage hstage ↦ ⟨hstage, ?_⟩
  cases result with
  | ok found => exact .inl rfl
  | error failure =>
    cases failure with
    | error => exact .inl rfl
    | _ => exact .inr rfl

theorem meets_pass_own {worker : Worker} {job : Job} {jobs : List Job} {held : Attachments}
    (hjobs : worker.jobs = job :: jobs) (hjob : job.l2cpu = setting.l2cpu)
    (hcompletes : setting.Completes) (hheld : setting.Effects start held) :
    setting.LeftWith start jobs (worker.pass setting.platform thread) (.here true held) := by
  refine meets_pass hjobs ((settles_here (Meets.mono (leads_job thread job _ hjob hcompletes)
    (fun _ _ _ h ↦ absurd h (by decide)) fun _ _ h ↦ h)).mono ?_ ?_)
  · rintro _ _ ⟨held', heffects, rfl⟩
    exact hheld.trans heffects
  · rintro _ _ ⟨held', heffects, rfl⟩
    exact hheld.trans heffects

section Runs

variable [DecidableEq ι]

/-- The stage of a thread, when this one is engaged with the L2CPU. -/
def stageOf (held : Attachments) (present : Option (ι × Bool)) (thread : ι) : Stage :=
  match present with
  | some (other, home) => if other = thread then .here home held else .away
  | none => .away

/-- From here on a thread goes through the stages, and is left with the jobs that come next. -/
abbrev GoesOn (setting : Setting ι) (workers : ι → Worker) (start : Attachments)
    (c : DaemonConfig ι) (thread : ι) (stage : Stage) : Prop :=
  setting.LeftWith start ((workers thread).jobs.drop (passes thread c.scene.trace)) (c.rest thread)
    stage

/-- At most one thread is engaged with the L2CPU. If none is, what is attached comes by effects from
the start. -/
structure Concurs (setting : Setting ι) (workers : ι → Worker) (start : Attachments)
    (c : DaemonConfig ι) (present : Option (ι × Bool)) : Prop where
  goesOn : ∀ thread, setting.GoesOn workers start c thread
    (stageOf (c.scene.memory.attachments setting.l2cpu) present thread)
  busy : ∀ thread home, (thread, home) ∈ present → ¬ Resting thread c
  own : ∀ thread, (thread, true) ∈ present →
    ∃ job ∈ jobOf workers c thread, job.l2cpu = setting.l2cpu
  cold : ∀ thread, (thread, false) ∈ present →
    mayReset (accesses thread c.scene.trace) = true
  free : present = none → setting.Effects start (c.scene.memory.attachments setting.l2cpu)

variable {workers : ι → Worker} {c c' : DaemonConfig ι} {present : Option (ι × Bool)}

theorem Concurs.engaged (h : setting.Concurs workers start c present) {home : Bool}
    (hmem : (thread, home) ∈ present) : Engaged workers setting.l2cpu c thread := by
  cases home with
  | true => exact .inl (h.own thread hmem)
  | false => exact .inr (h.cold thread hmem)

theorem stageOf_of_not_mem {held : Attachments} (h : ∀ home, (thread, home) ∉ present) :
    stageOf held present thread = .away := by
  cases present with
  | none => rfl
  | some engaged => exact if_neg fun heq ↦ h engaged.2 (by simp [← heq])

theorem stageOf_some {held : Attachments} {home : Bool} :
    stageOf held (some (thread, home)) thread = .here home held := if_pos rfl

/-- Nothing has changed for a thread. -/
structure Unmoved (c c' : DaemonConfig ι) (thread : ι) : Prop where
  rest : c'.rest thread = c.rest thread
  passes : passes thread c'.scene.trace = passes thread c.scene.trace
  accesses : accesses thread c'.scene.trace = accesses thread c.scene.trace

theorem Unmoved.goesOn (h : Unmoved c c' thread)
    (hgoes : setting.GoesOn workers start c thread stage) :
    setting.GoesOn workers start c' thread stage := by
  unfold GoesOn
  rw [h.rest, h.passes]
  exact hgoes

theorem Unmoved.resting (h : Unmoved c c' thread) :
    Resting thread c' ↔ Resting thread c := by
  unfold Resting
  rw [h.rest]

theorem Unmoved.jobOf (h : Unmoved c c' thread) :
    Daemon.jobOf workers c' thread = Daemon.jobOf workers c thread := by
  simp only [Daemon.jobOf, h.resting, h.passes]

theorem unmoved_turn {other : ι} (hother : other ≠ thread) (c : DaemonConfig ι) :
    Unmoved c ((rpcThreads setting.platform).turn c (.core thread)) other := by
  refine ⟨Cores.turn_rest_of_ne _ hother c, ?_, ?_⟩
  · cases hrest : c.rest thread with
    | done worker =>
      rw [Cores.turn_done _ hrest]
      exact if_neg (Ne.symm hother)
    | step op next =>
      rw [Cores.turn_step _ hrest]
      rfl
  · cases hrest : c.rest thread with
    | done worker =>
      rw [Cores.turn_done _ hrest]
      rfl
    | step op next =>
      rw [Cores.turn_step _ hrest]
      exact Cores.accesses_access_of_ne _ (Ne.symm hother) op c.scene

/-- What a step of a thread at a stage does. -/
structure Stepped (setting : Setting ι) (workers : ι → Worker) (start : Attachments)
    (c c' : DaemonConfig ι) (thread : ι) (op : DaemonOp ι) (stage : Stage) : Prop where
  memory : c'.scene.memory = (daemonExec setting.platform op c.scene.memory).2
  passes : Cores.passes thread c'.scene.trace = Cores.passes thread c.scene.trace
  accesses : Cores.accesses thread c'.scene.trace =
    (op, (daemonExec setting.platform op c.scene.memory).1) :: Cores.accesses thread c.scene.trace
  others : ∀ other, other ≠ thread → Unmoved c c' other
  allows : setting.stageAllows start op stage
  goesOn : ∀ stage', setting.stageNext start op stage
    (daemonExec setting.platform op c.scene.memory).1 stage' →
    setting.GoesOn workers start c' thread stage'

theorem Concurs.stepped (h : setting.Concurs workers start c present) {op : DaemonOp ι}
    {next : Reply → Program (DaemonOp ι) Reply Worker} (hrest : c.rest thread = .step op next) :
    setting.Stepped workers start c ((rpcThreads setting.platform).turn c (.core thread)) thread op
      (stageOf (c.scene.memory.attachments setting.l2cpu) present thread) := by
  have hgoes := h.goesOn thread
  unfold GoesOn at hgoes
  rw [hrest] at hgoes
  have hturn := Cores.turn_step (rpcThreads setting.platform) hrest
  refine ⟨?_, ?_, ?_, fun other hother ↦ unmoved_turn hother c, hgoes.1, fun stage hstage ↦ ?_⟩
  · rw [hturn]
    rfl
  · rw [hturn]
    rfl
  · rw [hturn]
    exact Cores.accesses_access_self _ thread op c.scene
  · unfold GoesOn
    rw [hturn]
    change Meets _ _ _ (Function.update c.rest thread _ thread) stage
    rw [Function.update_self]
    exact hgoes.2 _ stage hstage

section Turn

variable (h : setting.Concurs workers start c present)
  (hothers : ∀ other, other ≠ thread → Unmoved c c' other)
include h hothers

/-- A thread that is away and stays away leaves it at that. -/
theorem Concurs.keep (haway : ∀ home, (thread, home) ∉ present)
    (hheld : c'.scene.memory.attachments setting.l2cpu =
      c.scene.memory.attachments setting.l2cpu)
    (hgoes : setting.GoesOn workers start c' thread .away) :
    setting.Concurs workers start c' present := by
  have hne {other : ι} {home : Bool} (hmem : (other, home) ∈ present) : Unmoved c c' other :=
    hothers other fun heq ↦ haway home (heq ▸ hmem)
  refine ⟨fun other ↦ ?_, fun other home hmem ↦ ?_, fun other hmem ↦ ?_, fun other hmem ↦ ?_,
    fun hnone ↦ ?_⟩
  · rw [hheld]
    by_cases hself : other = thread
    · rw [hself, stageOf_of_not_mem haway]
      exact hgoes
    · exact (hothers other hself).goesOn (h.goesOn other)
  · rw [(hne hmem).resting]
    exact h.busy other home hmem
  · rw [(hne hmem).jobOf]
    exact h.own other hmem
  · rw [(hne hmem).accesses]
    exact h.cold other hmem
  · rw [hheld]
    exact h.free hnone

section

variable (halone : ∀ other home, (other, home) ∈ present → other = thread)
include halone

theorem Concurs.goesOn_other {other : ι} (hother : other ≠ thread) :
    setting.GoesOn workers start c' other .away := by
  have hstage := h.goesOn other
  rw [stageOf_of_not_mem fun home hmem ↦ hother (halone other home hmem)] at hstage
  exact (hothers other hother).goesOn hstage

/-- Nobody is engaged when the only thread that was goes away. -/
theorem Concurs.go (hgoes : setting.GoesOn workers start c' thread .away)
    (heffects : setting.Effects start (c'.scene.memory.attachments setting.l2cpu)) :
    setting.Concurs workers start c' none := by
  refine ⟨fun other ↦ ?_, nofun, nofun, nofun, fun _ ↦ heffects⟩
  by_cases hself : other = thread
  · rw [hself]
    exact hgoes
  · exact h.goesOn_other hothers halone hself

/-- A thread is engaged, unless this was the end of its job. -/
theorem Concurs.come {home : Bool} (hgoes : setting.GoesOn workers start c' thread
      (.here home (c'.scene.memory.attachments setting.l2cpu)))
    (hown : home = true → ¬ Resting thread c' →
      ∃ job ∈ jobOf workers c' thread, job.l2cpu = setting.l2cpu)
    (hcold : home = false → mayReset (accesses thread c'.scene.trace) = true) :
    ∃ present', setting.Concurs workers start c' present' := by
  by_cases hresting : Resting thread c'
  · obtain ⟨worker, hdone⟩ := hresting.exists_done
    unfold GoesOn at hgoes
    rw [hdone] at hgoes
    refine ⟨none, h.go hothers halone ?_ hgoes.1⟩
    unfold GoesOn
    rw [hdone]
    exact ⟨trivial, hgoes.2⟩
  · have hmem {other : ι} {home' : Bool} (h : (other, home') ∈ some (thread, home)) :
        other = thread ∧ home' = home := by simpa [eq_comm] using h
    refine ⟨some (thread, home), fun other ↦ ?_, fun other home' h ↦ ?_, fun other h ↦ ?_,
      fun other h ↦ ?_, nofun⟩
    · by_cases hself : other = thread
      · rw [hself, stageOf_some]
        exact hgoes
      · rw [stageOf_of_not_mem fun home' h ↦ hself (hmem h).1]
        exact h.goesOn_other hothers halone hself
    · rw [(hmem h).1]
      exact hresting
    · obtain ⟨rfl, rfl⟩ := hmem h
      exact hown rfl hresting
    · obtain ⟨rfl, rfl⟩ := hmem h
      exact hcold rfl

end

end Turn

/-- What a turn of a thread that is engaged with the L2CPU must meet. -/
def Turns (setting : Setting ι) (workers : ι → Worker) (c : DaemonConfig ι) (thread : ι) : Prop :=
  Orderly workers setting.l2cpu c thread ∧ (Engaged workers setting.l2cpu c thread →
    ∀ op ∈ (c.rest thread).nextOp,
      setting.sure op (c.scene.memory.attachments setting.l2cpu)
        (daemonExec setting.platform op c.scene.memory).1 ∧
      ∀ mutex ∈ op.mutexes, setting.locks mutex (!c.scene.memory.poisoned mutex))

section

variable (h : setting.Concurs workers start c present) (hturns : setting.Turns workers c thread)
include h hturns

/-- Nobody is engaged when a thread enters. -/
theorem Concurs.none_of_enters (haway : ∀ home, (thread, home) ∉ present)
    (henters : Enters setting.l2cpu (c.rest thread)) : present = none := by
  cases hpresent : present with
  | none => rfl
  | some engaged =>
    refine absurd (h.engaged hpresent) (hturns.1 henters engaged.1 fun heq ↦ ?_)
    exact haway engaged.2 (hpresent ▸ heq ▸ rfl)

section Step

variable {op : DaemonOp ι} {next : Reply → Program (DaemonOp ι) Reply Worker}
  (hrest : c.rest thread = .step op next)
include hrest

/-- A thread that is engaged stays so, or goes on to the images of another L2CPU. -/
theorem Concurs.step_engaged {home : Bool} (hpresent : (thread, home) ∈ present)
    (hstep : setting.Stepped workers start c c' thread op
      (.here home (c.scene.memory.attachments setting.l2cpu))) :
    ∃ present', setting.Concurs workers start c' present' := by
  have hsure := hturns.2 (h.engaged hpresent) op (by rw [hrest]; rfl)
  have halone (other : ι) (home' : Bool) (hother : (other, home') ∈ present) : other = thread :=
    congrArg Prod.fst (Option.mem_unique hother hpresent)
  by_cases hon : (!home && op.goesOn) = true
  · -- a boot of another L2CPU goes on to its images, and leaves the L2CPU alone from now on
    obtain ⟨hhome, hon'⟩ := Bool.and_eq_true_iff.mp hon
    refine ⟨none, h.go hstep.others halone (hstep.goesOn .away (by rw [stageNext, if_pos hon])) ?_⟩
    rw [hstep.memory, attachments_of_aside _ (aside_of_goesOn hon')]
    exact hstep.allows (by simpa using hhome) hon'
  · have hnext := And.intro hsure.1
      (daemonNext_daemonExec setting.platform setting.l2cpu op _ hsure.2)
    rw [← hstep.memory] at hnext
    refine h.come hstep.others halone (hstep.goesOn (.here home _) ?_) ?_ ?_
    · rw [stageNext, if_neg hon]
      exact ⟨_, hnext, rfl⟩
    · rintro rfl hresting
      have hjob := h.own thread hpresent
      rw [jobOf, if_neg (h.busy thread true hpresent)] at hjob
      rwa [jobOf, if_neg hresting, hstep.passes]
    · rintro rfl
      have hreset := h.cold thread hpresent
      have hon' : op.goesOn = false := by simpa using hon
      rw [hstep.accesses]
      simp [mayReset, hreset, hon']

/-- A thread that is away stays so, or is engaged from where it goes on to a boot from reset. -/
theorem Concurs.step_away (haway : ∀ home, (thread, home) ∉ present)
    (hstep : setting.Stepped workers start c c' thread op .away) :
    ∃ present', setting.Concurs workers start c' present' := by
  have hheld := attachments_of_aside setting.platform hstep.allows c.scene.memory
  rw [← hstep.memory] at hheld
  cases hcold : op.goesCold with
  | false =>
    exact ⟨present, h.keep hstep.others haway hheld
      (hstep.goesOn .away (by simp [stageNext, hcold]))⟩
  | true =>
    have hnone := h.none_of_enters hturns haway (by rw [hrest]; exact hcold)
    refine h.come hstep.others (by simp [hnone]) (hstep.goesOn (.here false _) ?_) nofun
      fun _ ↦ ?_
    · rw [stageNext, if_pos hcold, hheld]
      exact ⟨_, h.free hnone, rfl⟩
    · rw [hstep.accesses]
      simp [mayReset, hcold]

theorem Concurs.step : ∃ present', setting.Concurs workers start
    ((rpcThreads setting.platform).turn c (.core thread)) present' := by
  have hstep := h.stepped hrest
  by_cases hmem : ∃ home, (thread, home) ∈ present
  · obtain ⟨home, hpresent⟩ := hmem
    rw [show present = some (thread, home) from hpresent, stageOf_some] at hstep
    exact h.step_engaged hturns hrest hpresent hstep
  · have haway (home : Bool) : (thread, home) ∉ present := fun hmem' ↦ hmem ⟨home, hmem'⟩
    rw [stageOf_of_not_mem haway] at hstep
    exact h.step_away hturns hrest haway hstep

end Step

theorem Concurs.pass (hcompletes : setting.Completes) {worker : Worker}
    (hrest : c.rest thread = .done worker) :
    ∃ present', setting.Concurs workers start
      ((rpcThreads setting.platform).turn c (.core thread)) present' := by
  have hothers (other : ι) (hother : other ≠ thread) :
      Unmoved c ((rpcThreads setting.platform).turn c (.core thread)) other :=
    unmoved_turn hother c
  have hturn := Cores.turn_done (rpcThreads setting.platform) hrest
  generalize (rpcThreads setting.platform).turn c (.core thread) = c' at hothers hturn ⊢
  have haway (home : Bool) (hmem : (thread, home) ∈ present) : False :=
    h.busy thread home hmem (congrArg Program.nextOp hrest)
  have hmemory : c'.scene.memory = c.scene.memory := by
    rw [hturn]
    rfl
  have hpasses : passes thread c'.scene.trace = passes thread c.scene.trace + 1 := by
    rw [hturn]
    exact if_pos rfl
  have hrest' : c'.rest thread = worker.pass setting.platform thread := by
    rw [hturn]
    exact Function.update_self ..
  have hgoes := h.goesOn thread
  unfold GoesOn at hgoes
  rw [hrest] at hgoes
  obtain ⟨-, hfollows⟩ := hgoes
  cases hjobs : worker.jobs with
  | nil =>
    refine ⟨present, h.keep hothers haway (by rw [hmemory]) ?_⟩
    unfold GoesOn
    rw [hrest', Worker.pass, hjobs]
    exact ⟨trivial, .inr hjobs⟩
  | cons job jobs =>
    have hdrop : (workers thread).jobs.drop (passes thread c.scene.trace) = job :: jobs := by
      rcases hfollows with heq | hnil
      · rw [← heq, hjobs]
      · exact absurd (hjobs.symm.trans hnil) (cons_ne_nil job jobs)
    have htail : (workers thread).jobs.drop (passes thread c'.scene.trace) = jobs := by
      rw [hpasses, ← drop_drop, hdrop]
      rfl
    have hgoes {stage : Stage}
        (hmeets : setting.LeftWith start jobs (worker.pass setting.platform thread) stage) :
        setting.GoesOn workers start c' thread stage := by
      unfold GoesOn
      rw [hrest', htail]
      exact hmeets
    by_cases hjob : job.l2cpu = setting.l2cpu
    · have henters : Enters setting.l2cpu (c.rest thread) := by
        rw [hrest]
        exact ⟨job, by rw [hjobs]; rfl, hjob⟩
      have hnone := h.none_of_enters hturns haway henters
      refine h.come hothers (by simp [hnone]) (hgoes (meets_pass_own hjobs hjob hcompletes ?_))
        (fun _ hresting ↦ ⟨job, ?_, hjob⟩) fun hfalse ↦ absurd hfalse (by decide)
      · rw [hmemory]
        exact h.free hnone
      · rw [jobOf, if_neg hresting, hpasses, Nat.add_sub_cancel, ← head?_drop, hdrop]
        rfl
    · have haside : setting.Visits start .away := trivial
      exact ⟨present, h.keep hothers haway (by rw [hmemory]) (hgoes (meets_pass hjobs
        ((passes_job job _ hjob haside).mono (fun _ _ h ↦ h.left) fun _ _ h ↦ h.left)))⟩

end

/-- Whenever no thread is engaged with the L2CPU, what is attached to it comes by effects from what
was attached at the start.

Assumes: threads begin to work on the L2CPU in order, and every step of one that is engaged with it
is sure. -/
theorem effects_when_idle (hcompletes : setting.Completes) {w : DaemonWorld ι}
    {turns : List (Turn ι Incident)}
    (hturns : (rpcThreads setting.platform).Admits
      (fun c turn ↦ ∀ thread, turn = .core thread → setting.Turns workers c thread)
      (rpcStart w workers) turns) :
    let c := (rpcThreads setting.platform).follow (rpcStart w workers) turns
    (∀ thread, ¬ Engaged workers setting.l2cpu c thread) →
      setting.Effects (w.attachments setting.l2cpu)
        (c.scene.memory.attachments setting.l2cpu) := by
  intro c hidle
  have hstart : setting.Concurs workers (w.attachments setting.l2cpu) (rpcStart w workers) none :=
    ⟨fun thread ↦ ⟨trivial, .inl rfl⟩, nofun, nofun, nofun, fun _ ↦ .refl⟩
  obtain ⟨present, hconcurs⟩ : ∃ present, setting.Concurs workers (w.attachments setting.l2cpu) c
      present := by
    have hkeeps (c : DaemonConfig ι) (turn : Turn ι Incident)
        (hturn : ∀ thread, turn = .core thread → setting.Turns workers c thread)
        (hc : ∃ present, setting.Concurs workers (w.attachments setting.l2cpu) c present) :
        ∃ present, setting.Concurs workers (w.attachments setting.l2cpu)
          ((rpcThreads setting.platform).turn c turn) present := by
      obtain ⟨present, hconcurs⟩ := hc
      cases turn with
      | core thread =>
        cases hrest : c.rest thread with
        | done worker => exact hconcurs.pass (hturn thread rfl) hcompletes hrest
        | step op next => exact hconcurs.step (hturn thread rfl) hrest
      | act event =>
        cases event with
        | guestWrite | poison =>
          exact ⟨present, hconcurs.goesOn, hconcurs.busy, hconcurs.own, hconcurs.cold,
            hconcurs.free⟩
    exact Cores.follow_induction _ hkeeps hturns ⟨none, hstart⟩
  cases present with
  | none => exact hconcurs.free rfl
  | some engaged => exact absurd (hconcurs.engaged rfl) (hidle engaged.1)

end Runs

end Setting

end Bhx.Daemon
