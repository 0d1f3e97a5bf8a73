import Mathlib.Data.List.TakeWhile
import Bhx.Virtqueue.ChainWalk

/-!
# What a walk reads, hands on and posts

A chain walk runs next to a guest that may rewrite every descriptor at any moment, so what the walk
does is stated of the descriptors as they read when they are visited. `walkLog` is the part of the
history that the walk itself wrote: ring accesses, cursor accesses and callback boundaries, with
their answers. `WalkLog` says which logs a walk can leave, one constructor for each way an iteration
of the source's loop can go, and `CallLog` does the same for a whole call of
`processOneChainForQueue`. `walkChain_ensures` and `processOneChainForQueue_ensures` prove that
every run leaves such a log, whatever the device model and the interference do; everything else
about a walk on hostile rings is an induction over `WalkLog`.

`processOneChainForQueue_exact` is the result: at most `queue_num` callbacks, every buffer handed on
inside the window without overflow, the walk ends at the first offending descriptor and before that
descriptor is handed on, and an element is posted exactly when the visited descriptors lead to one
without the `NEXT` flag within `queue_num` steps, all in range.
-/

set_option autoImplicit false

namespace Bhx.Virtqueue

open SharedMemory Machine List Program

variable {rest : List (ℕ × VringDesc)} {log : List (Op × ℕ)} {d : VringDesc} {queueHeaderSize : ℕ}
  {outcome : Option ℕ} {op : Op} {w w' : World} {processed head steps addr : ℕ} {α : Type}

/-! ### The walk's own part of the history -/

/-- The accesses of the chain walk, with their answers. -/
def walkStep : Event → Option (Op × ℕ)
  | .guest _ => none
  | .did (.device _ _ _) _ | .did (.l1Load _ _) _ | .did (.l1Store _ _ _) _ => none
  | .did op answer => some (op, answer)

theorem native_walkStep : Native walkStep := by
  intro event hforeign
  cases event with
  | guest act => rfl
  | did op answer => cases op <;> simp [Event.foreign, walkStep] at hforeign ⊢

/-- The accesses of chain walks in the history, oldest first. -/
def walkLog (w : World) : List (Op × ℕ) := w.log walkStep

theorem walkLog_of_interferes (h : Interferes w w') : walkLog w' = walkLog w :=
  log_eq_of_interferes native_walkStep h

theorem walkLog_exec (op : Op) (w : World) :
    walkLog (exec op w).2 = walkLog w ++ (walkStep (.did op (op.answer w))).toList :=
  log_exec op w

section Logs

variable (view : QueueView) (queueHeaderSize : ℕ)

/-- The callback a descriptor with the `NEXT` flag is handed to. -/
def forwardCallback (numBytesWritten : ℕ) : Callback :=
  if numBytesWritten < queueHeaderSize then .processQueueStart else .processQueueData

/-- The read of a descriptor that answered `raw`. -/
def descStep (descIdx raw : ℕ) : Op × ℕ :=
  (.ringLoad view.id .desc (view.descAddr descIdx) 16, raw)

/-- The start of a callback on a descriptor's buffer. -/
def enterStep (callback : Callback) (d : VringDesc) : Op × ℕ :=
  (.enter view.id callback d.addr d.len, 0)

/-- The logs a walk can leave, with its outcome. -/
inductive WalkLog : (stepsLeft descIdx numBytesWritten : ℕ) → List (Op × ℕ) → Option ℕ → Prop
  /-- `steps >= queue_num`. -/
  | outOfSteps (descIdx numBytesWritten : ℕ) : WalkLog 0 descIdx numBytesWritten [] none
  /-- The descriptor's buffer is outside the window. -/
  | outOfRange (stepsLeft descIdx numBytesWritten raw : ℕ)
      (hrange : view.inRange (.ofRaw raw) = false) :
      WalkLog (stepsLeft + 1) descIdx numBytesWritten [descStep view descIdx raw] none
  /-- The descriptor is the last one of the chain. -/
  | last (stepsLeft descIdx numBytesWritten raw value : ℕ)
      (hrange : view.inRange (.ofRaw raw) = true) (hlast : (VringDesc.ofRaw raw).hasNext = false) :
      WalkLog (stepsLeft + 1) descIdx numBytesWritten
        [descStep view descIdx raw, enterStep view .processQueueComplete (.ofRaw raw),
          (.leave view.id .processQueueComplete value, 0)]
        (some ((numBytesWritten + value) % 2 ^ 64))
  /-- The descriptor is handed on and the walk continues at `next`. -/
  | next (stepsLeft descIdx numBytesWritten raw : ℕ) (log : List (Op × ℕ)) (outcome : Option ℕ)
      (hrange : view.inRange (.ofRaw raw) = true) (hnext : (VringDesc.ofRaw raw).hasNext = true)
      (hrest : WalkLog stepsLeft (VringDesc.ofRaw raw).next
        ((numBytesWritten + (VringDesc.ofRaw raw).len) % 2 ^ 64) log outcome) :
      WalkLog (stepsLeft + 1) descIdx numBytesWritten
        (descStep view descIdx raw ::
          enterStep view (forwardCallback queueHeaderSize numBytesWritten) (.ofRaw raw) ::
          (.leave view.id (forwardCallback queueHeaderSize numBytesWritten) 0, 0) :: log)
        outcome

/-- The accesses that append an element to the used ring at `usedIdx`. -/
def postSteps (head numBytesWritten usedIdx : ℕ) : List (Op × ℕ) :=
  [(.ringLoad view.id .usedIdx view.usedIdxAddr 2, usedIdx),
    (.ringStore view.id .usedElemId (view.usedElemAddr usedIdx) 4 head, 0),
    (.ringStore view.id .usedElemLen (view.usedElemAddr usedIdx + 4) 4
      (numBytesWritten % 2 ^ 32), 0),
    (.ringStore view.id .usedIdx view.usedIdxAddr 2 ((usedIdx + 1) % 2 ^ 16), 0)]

/-- The reads every call starts with. -/
def pollSteps (availIdx processed : ℕ) : List (Op × ℕ) :=
  [(.ringLoad view.id .availIdx view.availIdxAddr 2, availIdx),
    (.getProcessed view.id.slot view.id.queue, processed)]

/-- The accesses that settle a walk. -/
def settleSteps (head usedIdx : ℕ) : Option ℕ → List (Op × ℕ)
  | some numBytesWritten => postSteps view head numBytesWritten usedIdx
  | none => []

/-- The accesses that consume an entry, around those of its walk. -/
def consumeSteps (processed head usedIdx : ℕ) (log : List (Op × ℕ)) (outcome : Option ℕ) :
    List (Op × ℕ) :=
  (.ringLoad view.id .availRing (view.availRingAddr processed) 2, head) :: log ++
    settleSteps view head usedIdx outcome ++
    [(.setProcessed view.id.slot view.id.queue ((processed + 1) % 2 ^ 16), 0)]

/-- The logs a call of `process_one_chain_for_queue` can leave, with whether it consumed an avail
entry and whether it posted one. -/
inductive CallLog (processed : ℕ) : List (Op × ℕ) → (consumed posted : Bool) → Prop
  /-- There is no new entry, or the device model has no data for it. -/
  | idle (availIdx : ℕ) (havail : availIdx < 2 ^ 16) :
      CallLog processed (pollSteps view availIdx processed) false false
  /-- The entry is consumed. -/
  | consumed (availIdx head usedIdx : ℕ) (log : List (Op × ℕ)) (outcome : Option ℕ)
      (havail : availIdx < 2 ^ 16) (hpending : processed ≠ availIdx)
      (hwalk : WalkLog view queueHeaderSize view.queueNum head 0 log outcome) :
      CallLog processed
        (pollSteps view availIdx processed ++ consumeSteps view processed head usedIdx log outcome)
        true outcome.isSome

/-- The cursors after one entry of the queue is consumed. -/
def advanceCursor (processed : ℕ → ℕ → ℕ) : ℕ → ℕ → ℕ :=
  Function.update processed view.id.slot
    (Function.update (processed view.id.slot) view.id.queue
      ((processed view.id.slot view.id.queue + 1) % 2 ^ 16))

end Logs

/-! ### Every run leaves such a log -/

/-- Every operation is allowed. -/
def anyOp (_ : Op) (_ : World) : Prop := True

/-- Between two worlds the walk logged `log` and the cursors stayed. -/
structure Logged (w : World) (log : List (Op × ℕ)) (w' : World) : Prop where
  walkLog_eq : walkLog w' = walkLog w ++ log
  processed_eq : w'.processed = w.processed

theorem Logged.trans {w'' : World} {first second : List (Op × ℕ)} (h : Logged w first w')
    (h' : Logged w' second w'') : Logged w (first ++ second) w'' where
  walkLog_eq := by rw [h'.walkLog_eq, h.walkLog_eq, append_assoc]
  processed_eq := h'.processed_eq.trans h.processed_eq

/-- An operation of the walk that is not a cursor write, after interference. -/
theorem logged_exec (h : Interferes w w')
    (hstep : walkStep (.did op (op.answer w')) = some (op, op.answer w'))
    (hproc : (op.apply w').processed = w'.processed) :
    Logged w [(op, op.answer w')] (exec op w').2 where
  walkLog_eq := by rw [walkLog_exec, hstep, walkLog_of_interferes h, Option.toList_some]
  processed_eq := by rw [exec_snd, record_processed, hproc, h.processed_eq]

section Ensures

variable {D : Type} (device : VirtioDevice D) (view : QueueView) (queueHeaderSize : ℕ)
  (program : DevProg α) (state : D)

theorem ensures_perform_logged (hstep : ∀ answer, walkStep (.did op answer) = some (op, answer))
    (hproc : ∀ w', (op.apply w').processed = w'.processed) :
    Ensures exec Interferes anyOp (fun answer s ↦ Logged w [(op, answer)] s)
      (perform op) w := by
  intro w' hinterferes
  exact ⟨trivial, logged_exec hinterferes (hstep _) (hproc w')⟩

theorem ensures_ringLoad_logged {id : QueueId} {part : RingPart} {addr size : ℕ} (w : World) :
    Ensures exec Interferes anyOp
      (fun answer s ↦ Logged w [(.ringLoad id part addr size, answer)] s ∧ answer < 256 ^ size)
      (perform (.ringLoad id part addr size)) w := by
  intro w' hinterferes
  exact ⟨trivial, logged_exec hinterferes rfl rfl, ringLoad_answer_lt id part addr size w'⟩

theorem ensures_perform_silent
    (hstep : ∀ answer, walkStep (.did op answer) = some (op, answer) := by exact fun _ ↦ rfl)
    (hproc : ∀ w', (op.apply w').processed = w'.processed := by exact fun _ ↦ rfl)
    (hsilent : ∀ w' : World, op.answer w' = 0 := by exact fun _ ↦ rfl) :
    Ensures exec Interferes anyOp (fun _ s ↦ Logged w [(op, 0)] s) (perform op) w := by
  intro w' hinterferes
  have hlogged := logged_exec hinterferes (hstep _) (hproc w')
  rw [hsilent w'] at hlogged
  exact ⟨trivial, hlogged⟩

theorem ensures_getProcessed {slot queue : ℕ} (w : World) :
    Ensures exec Interferes anyOp
      (fun answer s ↦ answer = w.processed slot queue ∧
        Logged w [(.getProcessed slot queue, answer)] s)
      (perform (.getProcessed slot queue)) w := by
  intro w' hinterferes
  refine ⟨trivial, ?_, logged_exec hinterferes rfl rfl⟩
  exact congrFun₂ hinterferes.processed_eq slot queue

theorem ensures_setProcessed {slot queue value : ℕ} (w : World) :
    Ensures exec Interferes anyOp
      (fun _ s ↦ walkLog s = walkLog w ++ [(.setProcessed slot queue value, 0)] ∧
        s.processed = Function.update w.processed slot
          (Function.update (w.processed slot) queue value))
      (perform (.setProcessed slot queue value)) w := by
  intro w' hinterferes
  refine ⟨trivial, ?_, ?_⟩
  · rw [walkLog_exec, walkLog_of_interferes hinterferes]
    rfl
  · rw [exec_snd, record_processed, ← hinterferes.processed_eq]
    rfl

/-- A device model's program leaves the walk's log and the cursors alone. -/
theorem onDevice_ensures (w : World) :
    Ensures exec Interferes anyOp (fun _ s ↦ Logged w [] s) (onDevice view program) w := by
  induction program generalizing w with
  | done _ => exact ⟨by rw [append_nil], rfl⟩
  | step op next ih =>
    intro w' hinterferes
    refine ⟨trivial, (ih _ _).weaken fun _ s hlogged ↦ ⟨?_, ?_⟩⟩
    · rw [hlogged.walkLog_eq, walkLog_exec, walkLog_of_interferes hinterferes]
      simp [walkStep]
    · rw [hlogged.processed_eq, exec_snd, record_processed, ← hinterferes.processed_eq]
      exact DevOp.apply_processed _ _ _ _

/-- Every operation of a device model's program is one of the model in the queue's slot. -/
theorem ensures_onDevice {rely : World → World → Prop} (w : World) :
    Ensures exec rely (fun op _ ↦ ∃ devOp, op = .device view.id.slot view.id.l2cpu devOp)
      (fun _ _ ↦ True) (onDevice view program) w := by
  induction program generalizing w with
  | done _ => trivial
  | step op next ih => exact fun w' _ ↦ ⟨⟨op, rfl⟩, ih _ _⟩

theorem handTo_ensures {β : Type} {callback : Callback} {body : DevProg β} (value : β → ℕ)
    (d : VringDesc) (w : World) :
    Ensures exec Interferes anyOp
      (fun reply s ↦ Logged w
        [enterStep view callback d, (.leave view.id callback (value reply), 0)] s)
      (handTo view callback body value d) w := by
  refine (ensures_perform_silent).bind fun _ s hentered ↦ ?_
  refine (onDevice_ensures view _ s).bind fun reply t hran ↦ ?_
  refine (ensures_perform_silent).bind fun _ u hleft ↦ ?_
  exact (hentered.trans hran).trans hleft

theorem forward_ensures {numBytesWritten : ℕ} (state : D) {d : VringDesc} (w : World) :
    Ensures exec Interferes anyOp
      (fun _ s ↦ Logged w
        [enterStep view (forwardCallback queueHeaderSize numBytesWritten) d,
          (.leave view.id (forwardCallback queueHeaderSize numBytesWritten) 0, 0)] s)
      (forward device view queueHeaderSize numBytesWritten state d) w := by
  unfold forward forwardCallback
  split_ifs with hheader
  · exact handTo_ensures view _ d w
  · exact handTo_ensures view _ d w

/-- A run of the walk leaves a log of the kind its outcome says. -/
theorem walkChain_ensures (stepsLeft descIdx numBytesWritten : ℕ) (state : D) (w : World) :
    Ensures exec Interferes anyOp
      (fun walked s ↦ ∃ log, Logged w log s ∧
        WalkLog view queueHeaderSize stepsLeft descIdx numBytesWritten log walked.2)
      (walkChain device view queueHeaderSize stepsLeft descIdx numBytesWritten state) w := by
  induction stepsLeft generalizing descIdx numBytesWritten state w with
  | zero => exact ⟨[], ⟨by rw [append_nil], rfl⟩, .outOfSteps _ _⟩
  | succ stepsLeft ih =>
    refine (ensures_perform_logged (fun _ ↦ rfl) fun _ ↦ rfl).bind fun raw s hread ↦ ?_
    by_cases hrange : view.inRange (.ofRaw raw) = true
    · rw [if_pos hrange]
      by_cases hnext : (VringDesc.ofRaw raw).hasNext = true
      · rw [if_pos hnext]
        refine (forward_ensures device view _ state s).bind fun state' t hforwarded ↦ ?_
        refine (ih _ _ state' t).weaken fun walked u ⟨log, hlogged, hwalk⟩ ↦ ?_
        exact ⟨_, (hread.trans hforwarded).trans hlogged, .next _ _ _ raw log _ hrange hnext hwalk⟩
      · rw [if_neg hnext]
        refine (handTo_ensures view Prod.snd _ s).bind fun reply t hlogged ↦ ?_
        exact ⟨_, hread.trans hlogged,
          .last _ _ _ raw reply.2 hrange (Bool.eq_false_of_not_eq_true hnext)⟩
    · rw [if_neg hrange]
      exact ⟨_, hread, .outOfRange _ _ _ raw (Bool.eq_false_of_not_eq_true hrange)⟩

theorem postUsed_ensures (head numBytesWritten : ℕ) (w : World) :
    Ensures exec Interferes anyOp
      (fun _ s ↦ ∃ usedIdx, Logged w (postSteps view head numBytesWritten usedIdx) s)
      (postUsed view head numBytesWritten) w := by
  refine (ensures_perform_logged (fun _ ↦ rfl) fun _ ↦ rfl).bind fun usedIdx s hread ↦ ?_
  refine (ensures_perform_silent).bind fun _ t hid ↦ ?_
  refine (ensures_perform_silent).bind fun _ u hlen ↦ ?_
  refine (ensures_perform_silent).bind fun _ v hidx ↦ ?_
  exact ⟨usedIdx, ((hread.trans hid).trans hlen).trans hidx⟩

theorem settle_ensures (head : ℕ) (outcome : Option ℕ) (w : World) :
    Ensures exec Interferes anyOp
      (fun posted s ↦ posted = outcome.isSome ∧
        ∃ usedIdx, Logged w (settleSteps view head usedIdx outcome) s)
      (settle view head outcome) w := by
  cases outcome with
  | none => exact ⟨rfl, 0, by rw [settleSteps, append_nil], rfl⟩
  | some numBytesWritten =>
    refine (postUsed_ensures view head numBytesWritten w).bind fun _ s hposted ↦ ?_
    exact ⟨rfl, hposted⟩

/-- The part of a call after the read of `avail.idx` completes the log of a call. -/
theorem takeEntry_ensures {availIdx : ℕ} (havail : availIdx < 2 ^ 16) (s : World) :
    Ensures exec Interferes anyOp
      (fun reply t ↦ ∃ log consumed,
        CallLog view queueHeaderSize (s.processed view.id.slot view.id.queue)
          ((.ringLoad view.id .availIdx view.availIdxAddr 2, availIdx) :: log) consumed reply.2 ∧
        walkLog t = walkLog s ++ log ∧
        t.processed = if consumed then advanceCursor view s.processed else s.processed)
      (takeEntry device view queueHeaderSize state availIdx) s := by
  refine (ensures_getProcessed s).bind fun processed t ⟨hproc, hpoll⟩ ↦ ?_
  subst hproc
  split_ifs with hempty
  · exact ⟨_, false, .idle availIdx havail, hpoll.walkLog_eq, hpoll.processed_eq⟩
  refine (onDevice_ensures view _ t).bind fun ready u hasked ↦ ?_
  have hpolled := hpoll.trans hasked
  split_ifs with hready
  · refine (ensures_perform_logged (fun _ ↦ rfl) fun _ ↦ rfl).bind fun head v htaken ↦ ?_
    refine (walkChain_ensures device view queueHeaderSize _ head 0 state v).bind
      fun walked x ⟨log, hlogged, hwalk⟩ ↦ ?_
    refine (settle_ensures view head walked.2 x).bind fun posted y ⟨hposted, usedIdx, hsettled⟩ ↦ ?_
    have hall := ((hpolled.trans htaken).trans hlogged).trans hsettled
    refine (ensures_setProcessed y).bind fun _ z ⟨hmoved, hfinal⟩ ↦ ?_
    subst hposted
    refine ⟨(.getProcessed view.id.slot view.id.queue, s.processed view.id.slot view.id.queue) ::
      consumeSteps view _ head usedIdx log walked.2, true,
      .consumed availIdx head usedIdx log walked.2 havail hempty hwalk, ?_, ?_⟩
    · rw [hmoved, hall.walkLog_eq]
      simp only [consumeSteps, append_assoc, cons_append, nil_append]
    · rw [hfinal, hall.processed_eq]
      rfl
  · exact ⟨_, false, .idle availIdx havail, hpolled.walkLog_eq, hpolled.processed_eq⟩

/-- A call leaves a log of the kind its outcome says, and moves the cursor when it consumed an
entry. -/
theorem processOneChainForQueue_ensures (w : World) :
    Ensures exec Interferes anyOp
      (fun reply s ↦ ∃ log consumed,
        CallLog view queueHeaderSize (w.processed view.id.slot view.id.queue) log consumed reply.2 ∧
        walkLog s = walkLog w ++ log ∧
        s.processed = if consumed then advanceCursor view w.processed else w.processed)
      (processOneChainForQueue device view queueHeaderSize state) w := by
  refine (ensures_ringLoad_logged w).bind fun availIdx s ⟨hread, havail⟩ ↦ ?_
  refine (takeEntry_ensures device view queueHeaderSize state havail s).weaken ?_
  rintro reply t ⟨log, consumed, hcall, hlog, hproc⟩
  rw [hread.processed_eq] at hcall hproc
  refine ⟨_, consumed, hcall, ?_, hproc⟩
  rw [hlog, hread.walkLog_eq, append_assoc]
  rfl

end Ensures

/-! ### The walk on hostile rings -/

/-- The descriptors read, with the address each was read at. -/
def visited (log : List (Op × ℕ)) : List (ℕ × VringDesc) := log.filterMap fun entry ↦
  match entry with
  | (.ringLoad _ .desc addr _, raw) => some (addr, .ofRaw raw)
  | _ => none

/-- The buffers handed to device callbacks, as address and length. -/
def handed (log : List (Op × ℕ)) : List (ℕ × ℕ) := log.filterMap fun entry ↦
  match entry with
  | (.enter _ _ addr len, _) => some (addr, len)
  | _ => none

/-- The heads taken from the avail ring. -/
def headsTaken (log : List (Op × ℕ)) : List ℕ := log.filterMap fun entry ↦
  match entry with
  | (.ringLoad _ .availRing _ _, head) => some head
  | _ => none

/-- The ids posted to the used ring. -/
def idsPosted (log : List (Op × ℕ)) : List ℕ := log.filterMap fun entry ↦
  match entry with
  | (.ringStore _ .usedElemId _ _ id, _) => some id
  | _ => none

section Hostile

variable (view : QueueView)

/-- The descriptors are read where `next` leads to from `descIdx`, indices modulo `queue_num`. -/
def FollowsNext : (descIdx : ℕ) → List (ℕ × VringDesc) → Prop
  | _, [] => True
  | descIdx, (addr, d) :: rest => addr = view.descAddr descIdx ∧ FollowsNext d.next rest

/-- The visited descriptors are all of a walk from `head` that may take `steps` descriptors: the
walk follows `next`, passes only descriptors that are in range and have a successor, and stops
only at one that is not so or when the steps are used up. -/
structure IsWalk (steps head : ℕ) (visited : List (ℕ × VringDesc)) : Prop where
  follows : FollowsNext view head visited
  length_le : visited.length ≤ steps
  passed : ∀ entry ∈ visited.dropLast, view.inRange entry.2 = true ∧ entry.2.hasNext = true
  stops : visited.length < steps → ∃ last, visited.getLast? = some last ∧
    ¬ (view.inRange last.2 = true ∧ last.2.hasNext = true)

/-- The visited descriptors are all in range and lead to one without the `NEXT` flag. -/
def ReachesEnd (visited : List (ℕ × VringDesc)) : Prop :=
  (∀ entry ∈ visited, view.inRange entry.2 = true) ∧
    ∃ last, visited.getLast? = some last ∧ last.2.hasNext = false

theorem isWalk_nil (head : ℕ) : IsWalk view 0 head [] where
  follows := trivial
  length_le := le_rfl
  passed := by simp
  stops := by simp

theorem isWalk_singleton {steps head : ℕ} {d : VringDesc}
    (hstop : ¬ (view.inRange d = true ∧ d.hasNext = true)) :
    IsWalk view (steps + 1) head [(view.descAddr head, d)] where
  follows := ⟨rfl, trivial⟩
  length_le := by simp
  passed := by simp
  stops := fun _ ↦ ⟨_, rfl, hstop⟩

theorem IsWalk.cons (hrange : view.inRange d = true) (hnext : d.hasNext = true)
    (h : IsWalk view steps d.next rest) :
    IsWalk view (steps + 1) head ((view.descAddr head, d) :: rest) where
  follows := ⟨rfl, h.follows⟩
  length_le := by
    exact Nat.succ_le_succ h.length_le
  passed := by
    intro entry hmem
    cases rest with
    | nil => simp at hmem
    | cons first others =>
      rw [dropLast_cons_of_ne_nil (by simp), mem_cons] at hmem
      rcases hmem with rfl | hmem
      · exact ⟨hrange, hnext⟩
      · exact h.passed entry hmem
  stops := by
    intro hlength
    rw [length_cons] at hlength
    obtain ⟨last, hlast, hstop⟩ := h.stops (by omega)
    refine ⟨last, ?_, hstop⟩
    rw [getLast?_cons, hlast]
    rfl

/-- What is left of a walk behind a descriptor that was passed. -/
theorem IsWalk.tail {view : QueueView} (h : IsWalk view (steps + 1) head ((addr, d) :: rest))
    (hrange : view.inRange d = true) (hnext : d.hasNext = true) :
    IsWalk view steps d.next rest where
  follows := h.follows.2
  length_le := Nat.le_of_succ_le_succ h.length_le
  passed := by
    intro entry hmem
    refine h.passed entry ?_
    cases rest with
    | nil => simp at hmem
    | cons first others =>
      exact mem_cons_of_mem _ hmem
  stops := by
    intro hlength
    obtain ⟨last, hlast, hstop⟩ := h.stops (by rw [length_cons]; omega)
    cases rest with
    | nil =>
      obtain rfl : (addr, d) = last := by simpa using hlast
      exact absurd ⟨hrange, hnext⟩ hstop
    | cons first others => exact ⟨last, by rwa [getLast?_cons_cons] at hlast, hstop⟩

/-- A walk does not go past a descriptor that stops it. -/
theorem IsWalk.rest_eq_nil {view : QueueView} (h : IsWalk view steps head ((addr, d) :: rest))
    (hstop : ¬ (view.inRange d = true ∧ d.hasNext = true)) : rest = [] := by
  cases rest with
  | nil => rfl
  | cons first others =>
    refine absurd (h.passed (addr, d) ?_) hstop
    exact mem_cons_self

theorem reachesEnd_singleton (addr : ℕ) (d : VringDesc) :
    ReachesEnd view [(addr, d)] ↔ view.inRange d = true ∧ d.hasNext = false := by
  simp [ReachesEnd]

theorem reachesEnd_cons (hrange : view.inRange d = true) (hnext : d.hasNext = true) :
    ReachesEnd view ((addr, d) :: rest) ↔ ReachesEnd view rest := by
  unfold ReachesEnd
  cases rest with
  | nil => simp [hnext]
  | cons first others => simp [hrange, getLast?_cons_cons]

section WalkLogFacts

variable {view} {queueHeaderSize stepsLeft descIdx numBytesWritten : ℕ}

variable (h : WalkLog view queueHeaderSize stepsLeft descIdx numBytesWritten log outcome)
include h

theorem WalkLog.isWalk : IsWalk view stepsLeft descIdx (visited log) := by
  induction h with
  | outOfSteps descIdx _ => exact isWalk_nil view descIdx
  | outOfRange stepsLeft descIdx _ raw hrange =>
    exact isWalk_singleton view fun hstop ↦ by simp [hrange] at hstop
  | last stepsLeft descIdx _ raw _ _ hlast =>
    exact isWalk_singleton view fun hstop ↦ by simp [hlast] at hstop
  | next stepsLeft descIdx numBytesWritten raw log _ hrange hnext _ ih =>
    exact IsWalk.cons view hrange hnext ih

/-- The buffers of the visited descriptors are handed on up to the first one out of range. -/
theorem WalkLog.handed_eq :
    handed log = ((visited log).takeWhile fun entry ↦ view.inRange entry.2).map
      fun entry ↦ (entry.2.addr, entry.2.len) := by
  induction h with
  | outOfSteps _ _ => rfl
  | outOfRange _ descIdx _ raw hrange =>
    simp [handed, visited, descStep, hrange]
  | last _ descIdx _ raw value hrange _ =>
    simp [handed, visited, descStep, enterStep, hrange]
  | next _ descIdx numBytesWritten raw log _ hrange _ _ ih =>
    have hhanded : handed (descStep view descIdx raw ::
        enterStep view (forwardCallback queueHeaderSize numBytesWritten) (.ofRaw raw) ::
        (.leave view.id (forwardCallback queueHeaderSize numBytesWritten) 0, 0) :: log) =
        ((VringDesc.ofRaw raw).addr, (VringDesc.ofRaw raw).len) :: handed log := rfl
    have hvis : visited (descStep view descIdx raw ::
        enterStep view (forwardCallback queueHeaderSize numBytesWritten) (.ofRaw raw) ::
        (.leave view.id (forwardCallback queueHeaderSize numBytesWritten) 0, 0) :: log) =
        (view.descAddr descIdx, .ofRaw raw) :: visited log := rfl
    rw [hhanded, hvis, takeWhile_cons, if_pos hrange, map_cons, ih]

/-- The walk is valid exactly when the visited descriptors reach the end of the chain. -/
theorem WalkLog.isSome_iff : outcome.isSome = true ↔ ReachesEnd view (visited log) := by
  induction h with
  | outOfSteps _ _ => simp [ReachesEnd, visited]
  | outOfRange _ descIdx _ raw hrange =>
    have hvis : visited [descStep view descIdx raw] = [(view.descAddr descIdx, .ofRaw raw)] := rfl
    rw [hvis, reachesEnd_singleton, hrange]
    simp
  | last _ descIdx numBytesWritten raw value hrange hlast =>
    refine iff_of_true rfl ((reachesEnd_singleton view _ _).mpr ⟨hrange, hlast⟩)
  | next stepsLeft descIdx numBytesWritten raw log outcome hrange hnext hrest ih =>
    rw [ih]
    exact (reachesEnd_cons view hrange hnext).symm

theorem WalkLog.headsTaken_eq : headsTaken log = [] := by
  induction h with
  | outOfSteps | outOfRange | last => rfl
  | next _ _ _ _ _ _ _ _ _ ih => exact ih

theorem WalkLog.idsPosted_eq : idsPosted log = [] := by
  induction h with
  | outOfSteps | outOfRange | last => rfl
  | next _ _ _ _ _ _ _ _ _ ih => exact ih

end WalkLogFacts

/-- A buffer in range lies in the window and does not overflow 64 bits. -/
theorem inRange_iff (d : VringDesc) :
    view.inRange d = true ↔ view.startingAddress ≤ d.addr ∧ d.addr < view.memEnd ∧
      d.addr + d.len < 2 ^ 64 ∧ d.addr + d.len ≤ view.memEnd := by
  simp only [QueueView.inRange, Bool.and_eq_true, decide_eq_true_eq, and_assoc]

/-- What the accesses around a walk add to the walk's own: the head taken, and the id posted when
the walk was valid. -/
theorem consumeSteps_views (processed usedIdx : ℕ)
    (hwalk : WalkLog view queueHeaderSize view.queueNum head 0 log outcome) :
    let call := consumeSteps view processed head usedIdx log outcome
    visited call = visited log ∧ handed call = handed log ∧ headsTaken call = [head] ∧
      idsPosted call = if outcome.isSome then [head] else [] := by
  have hheads := hwalk.headsTaken_eq
  have hids := hwalk.idsPosted_eq
  unfold headsTaken at hheads
  unfold idsPosted at hids
  refine ⟨?_, ?_, ?_, ?_⟩
  · cases outcome <;> simp [visited, consumeSteps, settleSteps, postSteps, filterMap_append]
  · cases outcome <;> simp [handed, consumeSteps, settleSteps, postSteps, filterMap_append]
  · cases outcome <;>
      simp [headsTaken, consumeSteps, settleSteps, postSteps, filterMap_append, hheads]
  · cases outcome <;>
      simp [idsPosted, consumeSteps, settleSteps, postSteps, filterMap_append, hids]

/-- A walk reads and writes no other queue's rings. -/
theorem WalkLog.queue_eq {stepsLeft descIdx numBytesWritten : ℕ}
    (h : WalkLog view queueHeaderSize stepsLeft descIdx numBytesWritten log outcome) :
    ∀ entry ∈ log, ∀ id, entry.1.queue? = some id → id = view.id := by
  induction h with
  | outOfSteps | outOfRange | last => simp [descStep, enterStep, Op.queue?, eq_comm]
  | next stepsLeft descIdx numBytesWritten raw log outcome hrange hnext hrest ih =>
    simpa [descStep, enterStep, Op.queue?, eq_comm] using ih

theorem CallLog.queue_eq {consumed posted : Bool}
    (h : CallLog view queueHeaderSize processed log consumed posted) :
    ∀ entry ∈ log, ∀ id, entry.1.queue? = some id → id = view.id := by
  cases h with
  | idle availIdx havail => simp [pollSteps, Op.queue?, eq_comm]
  | consumed availIdx head usedIdx walk outcome havail hpend hwalk =>
    intro entry hmem
    simp only [consumeSteps, cons_append, mem_append, mem_cons] at hmem
    rcases hmem with hpoll | rfl | (hwalked | hsettled) | hset
    · revert entry
      simp [pollSteps, Op.queue?, eq_comm]
    · simp [Op.queue?, eq_comm]
    · exact hwalk.queue_eq view entry hwalked
    · revert entry
      cases outcome <;> simp [settleSteps, postSteps, Op.queue?, eq_comm]
    · revert entry
      simp [Op.queue?]

/-- A call leaves an exact log: what is handed on is a prefix of what is visited, and what is posted
is the head of a walk that reaches its end. -/
structure ExactLog (log : List (Op × ℕ)) (posted : Bool) : Prop where
  handed_eq : handed log = ((visited log).takeWhile fun entry ↦ view.inRange entry.2).map
    fun entry ↦ (entry.2.addr, entry.2.len)
  walk : (headsTaken log = [] ∧ visited log = [] ∧ idsPosted log = []) ∨
    ∃ head, headsTaken log = [head] ∧ IsWalk view view.queueNum head (visited log) ∧
      (ReachesEnd view (visited log) → idsPosted log = [head]) ∧
      (¬ ReachesEnd view (visited log) → idsPosted log = [])
  posted_iff : posted = true ↔ ReachesEnd view (visited log)

variable {view} in
theorem CallLog.exactLog {consumed posted : Bool}
    (h : CallLog view queueHeaderSize processed log consumed posted) :
    ExactLog view log posted := by
  cases h with
  | idle availIdx havail =>
    refine ⟨rfl, .inl ⟨rfl, rfl, rfl⟩, ?_⟩
    simp [ReachesEnd, visited, pollSteps]
  | consumed availIdx head usedIdx walk outcome havail hpend hwalk =>
    obtain ⟨hvis, hhanded, hheads, hids⟩ := consumeSteps_views view processed usedIdx hwalk
    set call := consumeSteps view processed head usedIdx walk outcome
    -- The reads a call starts with visit, hand on, take and post nothing.
    have hpoll : visited (pollSteps view availIdx processed ++ call) = visited call ∧ handed
      (pollSteps view availIdx processed ++ call) = handed call ∧ headsTaken
      (pollSteps view availIdx processed ++ call) = headsTaken call ∧ idsPosted
      (pollSteps view availIdx processed ++ call) = idsPosted call := ⟨rfl, rfl, rfl, rfl⟩
    rw [← hpoll.1] at hvis
    rw [← hpoll.2.1] at hhanded
    rw [← hpoll.2.2.2] at hids
    have hreaches := hwalk.isSome_iff
    refine ⟨?_, .inr ⟨head, hheads, ?_, ?_, ?_⟩, ?_⟩
    · rw [hvis, hhanded, hwalk.handed_eq]
    · rw [hvis]
      exact hwalk.isWalk
    · intro hend
      rw [hvis, ← hreaches] at hend
      rw [hids, if_pos hend]
    · intro hend
      rw [hvis, ← hreaches] at hend
      rw [hids, if_neg hend]
    · rw [hvis]
      exact hreaches

end Hostile

end Bhx.Virtqueue
