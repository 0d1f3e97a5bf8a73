import Bhx.Firmware.SlotCores

/-!
# What a device reset overwrites

A guest resets its device by writing zero to STATUS. BRISC notices when it next reads the register
and then wipes the register file and the shadow block word by word. Nothing holds the guest back in
the meantime: what it writes to the other registers after its STATUS=0 is overwritten by the wipe.

What happened around a reset can be told from the trace (`resetLog`): whether BRISC is wiping, which
registers the guest has written since the STATUS=0 that made it, and whether the wipe has stored to
one of those. The wipe is recognised by its form: BRISC reads zero from STATUS, then something else
from its snapshot, and from there on it stores without reading until it is done.

When the guest leaves the other registers alone while a reset is pending or a poll is going on, no
wipe eats a write (`reset_eats_nothing`). Otherwise the first register written after STATUS=0 is
lost (`reset_eats_write`).
-/

set_option autoImplicit false

namespace Bhx.Firmware

open SharedMemory Machine L1Layout Cell

variable {stores : Cell → ℕ → Bool} {op : Op} {α : Type} {program : Prog α}
  {offset addr size value : ℕ}
variable {c : Cell}

/-! ### The log of a reset -/

/-- Where BRISC is with respect to a reset. -/
inductive ResetStage
  /-- It is not resetting the device. -/
  | idle
  /-- It has read zero from STATUS and not yet read its snapshot. -/
  | sawZero
  /-- It is running `init_device` for the guest's STATUS=0. -/
  | wiping
deriving DecidableEq, Repr

/-- What a trace says about resets. -/
structure ResetLog where
  stage : ResetStage
  /-- The addresses the guest has stored to since its last STATUS=0 before BRISC saw it. -/
  fresh : List ℕ
  /-- Whether `init_device` has stored to one of them. -/
  eaten : Bool
deriving DecidableEq, Repr

/-- The log after one more mark. -/
def ResetLog.next (slot : ℕ) (log : ResetLog) : Mark SlotCore Op ℕ ByteStore → ResetLog
  | .access .driver (.l1Store addr _ value) _ =>
    if addr = regAddr slot mmioStatus ∧ value % 2 ^ 32 = 0 then
      if log.stage = .idle then { log with fresh := [] } else log
    else { log with fresh := addr :: log.fresh }
  | .access .brisc (.l1Load addr _) answer =>
    if addr = regAddr slot mmioStatus then
      { log with stage := if answer = 0 then .sawZero else .idle }
    else if addr = snapAddr slot snapOffStatus ∧ log.stage = .sawZero ∧ answer ≠ 0 then
      { log with stage := .wiping }
    else { log with stage := .idle }
  | .access .brisc (.l1Store addr _ _) _ =>
    if log.stage = .wiping ∧ addr ∈ log.fresh then { log with eaten := true } else log
  | _ => log

/-- The log of a trace. -/
def resetLog (slot : ℕ) : List (Mark SlotCore Op ℕ ByteStore) → ResetLog
  | [] => ⟨.idle, [], false⟩
  | mark :: trace => (resetLog slot trace).next slot mark

/-- The guest has written nothing but STATUS since its STATUS=0. -/
def ResetLog.Quiet (slot : ℕ) (log : ResetLog) : Prop :=
  ∀ addr ∈ log.fresh, addr = regAddr slot mmioStatus

/-- What a guest that waits for a reset to be over may do: load, store to STATUS at any time, and
store to its other registers while BRISC is between two polls and no reset is pending. -/
def Patient (slot : ℕ) {D : Type} (c : SlotConfig D) : Op → Prop
  | .l1Load _ _ => True
  | .l1Store addr size _ => size = 4 ∧
      ∃ offset < mmioConfig, 4 ∣ offset ∧ addr = regAddr slot offset ∧
        (offset = mmioStatus ∨ Cores.Resting .brisc c ∧ Live slot c.scene.memory)
  | _ => False

instance (slot : ℕ) {D : Type} (c : SlotConfig D) : (op : Op) → Decidable (Patient slot c op)
  | .l1Load _ _ => .isTrue trivial
  | .l1Store _ _ _ => inferInstanceAs (Decidable (_ ∧ _))
  | .ringLoad _ _ _ _ | .ringStore _ _ _ _ _ | .plicStore _ _ | .getProcessed _ _ |
    .setProcessed _ _ _ | .enter _ _ _ _ | .leave _ _ _ | .device _ _ _ => .isFalse id

/-- The turns around a guest that waits for a reset to be over. -/
def Waiting (slot : ℕ) {D : Type} (c : SlotConfig D) : Turn SlotCore ByteStore → Prop
  | .core .driver => ∀ op ∈ (c.rest .driver).nextOp, Patient slot c op
  | .core _ => True
  | .act event => Outsider slot event

instance (slot : ℕ) {D : Type} (c : SlotConfig D) :
    (turn : Turn SlotCore ByteStore) → Decidable (Waiting slot c turn)
  | .core .driver => inferInstanceAs (Decidable (∀ op ∈ (c.rest .driver).nextOp, _))
  | .core .brisc | .core .trisc1 | .core .trisc2 => .isTrue trivial
  | .act event => inferInstanceAs (Decidable (Outsider slot event))

/-! ### What BRISC knows -/

/-- Nothing that the guest has written can be wiped: it has only written STATUS, or no reset is
pending. -/
def ResetInv (slot : ℕ) (s : SlotScene) : Prop :=
  let log := resetLog slot s.trace
  log.Quiet slot ∨
    match log.stage with
    | .idle => Live slot s.memory
    | .sawZero => statusSnap slot s.memory = 0
    | .wiping => False

/-- While BRISC polls, the guest writes STATUS at most. -/
structure StatusOnly (slot : ℕ) (s s' : SlotScene) : Prop where
  stage_eq : (resetLog slot s'.trace).stage = (resetLog slot s.trace).stage
  snap_eq : statusSnap slot s'.memory = statusSnap slot s.memory
  quiet : (resetLog slot s.trace).Quiet slot → (resetLog slot s'.trace).Quiet slot
  status : (resetLog slot s.trace).stage = .idle → (resetLog slot s.trace).Quiet slot ∨
    statusWord slot s.memory ≠ 0 → (resetLog slot s'.trace).Quiet slot ∨
      statusWord slot s'.memory ≠ 0

variable {slot : ℕ} {s s' : SlotScene}

section Knows

variable {s'' : SlotScene}

theorem StatusOnly.refl (slot : ℕ) (s : SlotScene) : StatusOnly slot s s :=
  ⟨rfl, rfl, id, fun _ ↦ id⟩

theorem StatusOnly.trans (h : StatusOnly slot s s') (h' : StatusOnly slot s' s'') :
    StatusOnly slot s s'' := by
  refine ⟨h'.stage_eq.trans h.stage_eq, h'.snap_eq.trans h.snap_eq, fun hs ↦ h'.quiet (h.quiet hs),
    fun hidle hs ↦ ?_⟩
  exact h'.status (h.stage_eq.trans hidle) (h.status hidle hs)

theorem ResetInv.stable (h : ResetInv slot s) (hstep : StatusOnly slot s s') :
    ResetInv slot s' := by
  rcases h with hquiet | hstage
  · exact .inl (hstep.quiet hquiet)
  · unfold ResetInv
    simp only
    rw [hstep.stage_eq]
    cases hs : (resetLog slot s.trace).stage with
    | idle =>
      rw [hs] at hstage
      rcases hstage with hstatus | hsnap
      · rcases hstep.status hs (.inr hstatus) with hquiet | hstatus'
        · exact .inl hquiet
        · exact .inr (.inl hstatus')
      · exact .inr (.inr (hstep.snap_eq.trans hsnap))
    | sawZero =>
      rw [hs] at hstage
      exact .inr (hstep.snap_eq.trans hstage)
    | wiping =>
      rw [hs] at hstage
      exact absurd hstage not_false

end Knows

/-! ### Accesses of BRISC -/

theorem Cell.addr_ne (slot : ℕ) (hc : c.Valid) (other : Cell) (hother : other.Valid)
    (hne : c ≠ other) : c.addr slot ≠ other.addr slot :=
  (apart hc hother hne).ne (by decide) (by decide)

theorem Aside.ne_status (h : Aside slot addr size) : addr ≠ regAddr slot mmioStatus := by
  have happart := h.1
  simp only [Apart, regAddr, mmioConfig, mmioStatus] at *
  omega

variable {D : Type} {drive : D → Prog D}

section Brisc

variable {t : SlotScene}

/-- A load leaves what the guest has written and what was eaten alone. -/
theorem log_load (slot addr : ℕ) (t : SlotScene) :
    (resetLog slot (accessed .brisc (.l1Load addr 4) t).trace).fresh =
        (resetLog slot t.trace).fresh ∧
      (resetLog slot (accessed .brisc (.l1Load addr 4) t).trace).eaten =
        (resetLog slot t.trace).eaten := by
  change
    (ResetLog.next slot (resetLog slot t.trace) (.access .brisc (.l1Load addr 4) _)).fresh = _ ∧
    (ResetLog.next slot (resetLog slot t.trace) (.access .brisc (.l1Load addr 4) _)).eaten = _
  unfold ResetLog.next
  simp only
  split_ifs <;> exact ⟨rfl, rfl⟩

theorem stage_load (slot addr : ℕ) (t : SlotScene) :
    (resetLog slot (accessed .brisc (.l1Load addr 4) t).trace).stage =
      if addr = regAddr slot mmioStatus then
        if statusWord slot t.memory = 0 then .sawZero else .idle
      else if addr = snapAddr slot snapOffStatus ∧ (resetLog slot t.trace).stage = .sawZero ∧
        statusSnap slot t.memory ≠ 0 then .wiping
      else .idle := by
  change (ResetLog.next slot (resetLog slot t.trace) (.access .brisc (.l1Load addr 4)
    (readLE t.memory.l1 addr 4))).stage = _
  unfold ResetLog.next
  simp only
  by_cases hstatus : addr = regAddr slot mmioStatus
  · subst hstatus
    simp only [if_true]
    rfl
  · rw [if_neg hstatus, if_neg hstatus]
    by_cases hsnap : addr = snapAddr slot snapOffStatus
    · subst hsnap
      simp only [true_and]
      rw [show readLE t.memory.l1 (snapAddr slot snapOffStatus) 4 = statusSnap slot t.memory
        from rfl]
      by_cases hwiping : (resetLog slot t.trace).stage = .sawZero ∧ statusSnap slot t.memory ≠ 0
      · rw [if_pos hwiping, if_pos hwiping]
      · rw [if_neg hwiping, if_neg hwiping]
    · simp only [hsnap, false_and, if_false]

theorem idle_load (t : SlotScene) (hc : c.Valid) (hstatus : c ≠ .reg mmioStatus)
    (hsnap : c ≠ .snap snapOffStatus) :
    (resetLog slot (accessed .brisc (.l1Load (c.addr slot) 4) t).trace).stage = .idle := by
  have hstatus' : c.addr slot ≠ regAddr slot mmioStatus :=
    addr_ne slot hc (.reg mmioStatus) (by decide) hstatus
  have hsnap' : c.addr slot ≠ snapAddr slot snapOffStatus :=
    addr_ne slot hc (.snap snapOffStatus) (by decide) hsnap
  rw [stage_load, if_neg hstatus', if_neg fun hwiping ↦ hsnap' hwiping.1]

theorem quiet_load (addr : ℕ) (h : (resetLog slot t.trace).Quiet slot) :
    (resetLog slot (accessed .brisc (.l1Load addr 4) t).trace).Quiet slot := by
  unfold ResetLog.Quiet
  rw [(log_load slot addr t).1]
  exact h

theorem ResetInv.load (h : ResetInv slot t) (addr : ℕ) :
    ResetInv slot (accessed .brisc (.l1Load addr 4) t) := by
  rcases h with hquiet | hstage
  · exact .inl (quiet_load addr hquiet)
  refine .inr ?_
  rw [stage_load]
  -- what the stage before says of the snapshot carries over to the stage after
  have hlive : Live slot t.memory := by
    cases hs : (resetLog slot t.trace).stage with
    | idle =>
      rw [hs] at hstage
      exact hstage
    | sawZero =>
      rw [hs] at hstage
      exact .inr hstage
    | wiping =>
      rw [hs] at hstage
      exact absurd hstage not_false
  by_cases hstatus : addr = regAddr slot mmioStatus
  · rw [if_pos hstatus]
    by_cases hzero : statusWord slot t.memory = 0
    · rw [if_pos hzero]
      exact hlive.resolve_left (not_not.mpr hzero)
    · rw [if_neg hzero]
      exact .inl hzero
  · rw [if_neg hstatus]
    by_cases hwiping : addr = snapAddr slot snapOffStatus ∧
        (resetLog slot t.trace).stage = .sawZero ∧ statusSnap slot t.memory ≠ 0
    · rw [hwiping.2.1] at hstage
      exact absurd hstage hwiping.2.2
    · rw [if_neg hwiping]
      exact hlive

/-- A store beside STATUS eats nothing. -/
theorem ResetInv.log_store (h : ResetInv slot t) (haddr : addr ≠ regAddr slot mmioStatus) :
    resetLog slot (accessed .brisc (.l1Store addr size value) t).trace = resetLog slot t.trace := by
  change ResetLog.next slot (resetLog slot t.trace)
    (.access .brisc (.l1Store addr size value) _) = _
  unfold ResetLog.next
  refine if_neg fun hwiping ↦ ?_
  rcases h with hquiet | hstage
  · exact haddr (hquiet addr hwiping.2)
  · rw [hwiping.1] at hstage
    exact hstage

theorem ResetInv.store (h : ResetInv slot t) (haddr : addr ≠ regAddr slot mmioStatus)
    (hlive : Live slot t.memory → Live slot (exec (.l1Store addr size value) t.memory).2)
    (hsnap : statusSnap slot t.memory = 0 →
      statusSnap slot (exec (.l1Store addr size value) t.memory).2 = 0) :
    ResetInv slot (accessed .brisc (.l1Store addr size value) t) := by
  have hlog : resetLog slot (accessed .brisc (.l1Store addr size value) t).trace =
        resetLog slot t.trace := h.log_store haddr
  unfold ResetInv
  rw [hlog]
  rcases h with hquiet | hstage
  · exact .inl hquiet
  · refine .inr ?_
    cases hs : (resetLog slot t.trace).stage with
    | idle =>
      rw [hs] at hstage
      exact hlive hstage
    | sawZero =>
      rw [hs] at hstage
      exact hsnap hstage
    | wiping =>
      rw [hs] at hstage
      exact hstage

/-- The part of BRISC: what it wipes is not fresh. -/
def EatsNothing (slot : ℕ) {D : Type} (drive : D → Prog D) (op : Op) (t : SlotScene) : Prop :=
  (resetLog slot ((slotCores slot drive).access .brisc op t).2.trace).eaten = false

/-- Nothing has been eaten. -/
def Uneaten (slot : ℕ) (t : SlotScene) : Prop := (resetLog slot t.trace).eaten = false

/-- A part of BRISC's poll, from one property of the scene to another. -/
def ResetPart (slot : ℕ) {D α : Type} (drive : D → Prog D) (pre : SlotScene → Prop)
    (program : Prog α) (post : SlotScene → Prop) : Prop :=
  ∀ s, pre s → Ensures ((slotCores slot drive).access .brisc)
    (fun t t' ↦ StatusOnly slot t t' ∧ Uneaten slot t') (EatsNothing slot drive)
    (fun _ t ↦ post t) program s

theorem eatsNothing_load (h : Uneaten slot t) (drive : D → Prog D) (addr : ℕ) :
    EatsNothing slot drive (.l1Load addr 4) t :=
  (log_load slot addr t).2.trans h

theorem ResetInv.eatsNothing_store (h : ResetInv slot t) (hun : Uneaten slot t)
    (drive : D → Prog D) (haddr : addr ≠ regAddr slot mmioStatus) :
    EatsNothing slot drive (.l1Store addr size value) t :=
  (congrArg ResetLog.eaten (h.log_store haddr)).trans hun

theorem ResetPart.bind {β : Type} {pre mid post : SlotScene → Prop} {next : α → Prog β}
    (h : ResetPart slot drive pre program mid)
    (hnext : ∀ result, ResetPart slot drive mid (next result) post) :
    ResetPart slot drive pre (program >>= next) post :=
  fun s hs ↦ (h s hs).bind fun result t ht ↦ hnext result t ht

/-- A part that keeps a property while it eats nothing. -/
theorem resetPart_keeping {allowed : Op → Prop} {keeps : SlotScene → Prop}
    (hprog : program.Performs allowed) (hstable : Stable (StatusOnly slot) keeps)
    (hop : ∀ op t, allowed op → Uneaten slot t → keeps t → EatsNothing slot drive op t ∧
      keeps (accessed .brisc op t)) :
    ResetPart slot drive (fun t ↦ Uneaten slot t ∧ keeps t) program
      (fun t ↦ Uneaten slot t ∧ keeps t) := by
  intro s hs
  refine (Ensures.keeping (fun t ↦ Uneaten slot t ∧ keeps t) hprog ?_ ?_ hs).imp
    ?_ fun _ _ ht ↦ ht.2
  · intro t t' hstep ht
    exact ⟨hstep.2, hstable t t' hstep.1 ht.2⟩
  · intro op t hallowed ht
    exact hop op t hallowed ht.1 ht.2
  · intro op t ht
    exact (hop op t ht.1 ht.2.1 ht.2.2).1

/-- No reset of the guest is overlooked so far. -/
abbrev Noticing (slot : ℕ) (t : SlotScene) : Prop := Uneaten slot t ∧ ResetInv slot t

theorem resetPart_phase (hprog : program.Performs (Touches slot stores))
    (hstatus : SparesStatus stores := by exact ⟨fun _ ↦ rfl, fun _ ↦ rfl⟩) :
    ResetPart slot drive (Noticing slot) program (Noticing slot) := by
  refine resetPart_keeping hprog (fun _ _ hstep ht ↦ ht.stable hstep) ?_
  intro op t htouches huneaten ht
  have hkept := htouches.kept t.memory
  have hstore : ∀ {addr size value : ℕ}, op = .l1Store addr size value → addr ≠ regAddr slot
      mmioStatus → EatsNothing slot drive op t ∧ ResetInv slot (accessed .brisc op t) := by
    rintro addr size value rfl haddr
    refine ⟨ht.eatsNothing_store huneaten drive haddr, ht.store haddr ?_ ?_⟩
    · exact fun hlive ↦ hkept.live hlive hstatus
    · exact fun hzero ↦ (hkept.snap_eq hstatus.snap).trans hzero
  cases htouches with
  | load addr => exact ⟨eatsNothing_load huneaten drive addr, ht.load addr⟩
  | aside addr size value haside => exact hstore rfl haside.ne_status
  | store c value hvalid hc =>
    refine hstore rfl (addr_ne slot hvalid (.reg mmioStatus) (by decide) ?_)
    rintro rfl
    rw [hstatus.word value] at hc
    exact Bool.false_ne_true hc

/-- BRISC has seen the guest's STATUS: no reset is pending, or nothing can be wiped. -/
def StatusSeen (slot : ℕ) (t : SlotScene) : Prop :=
  (resetLog slot t.trace).Quiet slot ∨
    (resetLog slot t.trace).stage = .idle ∧ statusWord slot t.memory ≠ 0

theorem StatusSeen.resetInv (h : StatusSeen slot t) : ResetInv slot t := by
  rcases h with hquiet | ⟨hidle, hstatus⟩
  · exact .inl hquiet
  · refine .inr ?_
    rw [hidle]
    exact .inl hstatus

theorem StatusSeen.stable (h : StatusSeen slot s) (hstep : StatusOnly slot s s') :
    StatusSeen slot s' := by
  rcases h with hquiet | ⟨hidle, hstatus⟩
  · exact .inl (hstep.quiet hquiet)
  · rcases hstep.status hidle (.inr hstatus) with hquiet | hstatus'
    · exact .inl hquiet
    · exact .inr ⟨hstep.stage_eq.trans hidle, hstatus'⟩

/-- Accesses that leave STATUS alone. -/
inductive BesideStatus (slot : ℕ) : Op → Prop
  | load (addr : ℕ) (h : addr ≠ regAddr slot mmioStatus) : BesideStatus slot (.l1Load addr 4)
  | store (addr value : ℕ) (h : Apart addr 4 (regAddr slot mmioStatus) 4) :
      BesideStatus slot (.l1Store addr 4 value)

theorem WipeOp.besideStatus (h : WipeOp slot op) : BesideStatus slot op := by
  cases h with
  | register offset value hend hstatus =>
    refine .store _ value ?_
    simp only [Apart, regAddr] at *
    omega
  | shadow addr value hlow hhigh =>
    refine .store _ value ?_
    simp only [Apart, regAddr, slotRegsBase, regsBase, regsPerDev, mmioStatus, shadowQueueAddr,
      shadowBase, shadowPerDevice] at *
    omega

theorem besideStatus_incStat (h : offset + 4 ≤ statsSize) :
    (incStat offset).Performs (BesideStatus slot) := by
  have hbelow : statsBase + offset + 4 ≤ regAddr slot mmioStatus := by
    simp only [statsBase, statsSize, regAddr, slotRegsBase, regsBase] at *
    omega
  exact ⟨.load _ (by omega), fun _ ↦ ⟨.store _ _ (.inl hbelow), fun _ ↦ trivial⟩⟩

theorem StatusSeen.access (h : StatusSeen slot t) (hop : BesideStatus slot op) :
    StatusSeen slot (accessed .brisc op t) := by
  cases hop with
  | load addr haddr =>
    rcases h with hquiet | ⟨hidle, hstatus⟩
    · exact .inl (quiet_load addr hquiet)
    · refine .inr ⟨?_, hstatus⟩
      rw [stage_load, if_neg haddr, if_neg]
      intro hwiping
      rw [hwiping.2.1] at hidle
      exact nomatch hidle
  | store addr value happart =>
    have hlog : resetLog slot (accessed .brisc (.l1Store addr 4 value) t).trace =
          resetLog slot t.trace := h.resetInv.log_store (happart.ne (by decide) (by decide))
    unfold StatusSeen
    rw [hlog]
    refine h.imp id fun hs ↦ ⟨hs.1, ?_⟩
    exact (readLE_writeLE_of_apart happart).trans_ne hs.2

/-- Once BRISC has seen STATUS it eats nothing until it reads STATUS again. -/
theorem resetPart_seen (hprog : program.Performs (BesideStatus slot)) :
    ResetPart slot drive (fun t ↦ Uneaten slot t ∧ StatusSeen slot t) program
      (fun t ↦ Uneaten slot t ∧ StatusSeen slot t) := by
  refine resetPart_keeping hprog (fun _ _ hstep ht ↦ ht.stable hstep) ?_
  intro op t hop huneaten ht
  refine ⟨?_, ht.access hop⟩
  cases hop with
  | load addr haddr => exact eatsNothing_load huneaten drive addr
  | store addr value happart =>
    exact ht.resetInv.eatsNothing_store huneaten drive (happart.ne (by decide) (by decide))

theorem apart_snap_status (slot : ℕ) :
    Apart (Cell.addr slot (.snap snapOffStatus)) 4 (Cell.addr slot (.reg mmioStatus)) 4 :=
  Cell.apart (by decide) (by decide) (by decide)

theorem besideStatus_change (slot : ℕ) {status : ℕ} :
    (do
      handleStatusChange slot status
      storeU32 (snapAddr slot snapOffStatus) status : Prog Unit).Performs (BesideStatus slot) := by
  have hsnap : Apart (snapAddr slot snapOffStatus) 4 (regAddr slot mmioStatus) 4 :=
    apart_snap_status slot
  have hinit : (initDevice slot).Performs (BesideStatus slot) :=
    (wipes_initDevice slot).allow fun _ hop ↦ hop.besideStatus
  have hchange : (handleStatusChange slot status).Performs (BesideStatus slot) :=
    (Program.always_onlyIf fun _ ↦ hinit).bind fun _ _ ↦ besideStatus_incStat (by decide)
  exact hchange.bind fun _ _ ↦ always_storeU32 (.store _ _ hsnap)

/-- The STATUS phase. When it resets the device, BRISC has read zero from STATUS while its snapshot
was something else, so the guest has written nothing but STATUS since. -/
theorem resetPart_pollStatus :
    ResetPart slot drive (Noticing slot) (pollStatus slot) (Noticing slot) := by
  intro s hs
  have hsnapLoad : snapAddr slot snapOffStatus ≠ regAddr slot mmioStatus :=
    (apart_snap_status slot).ne (by decide) (by decide)
  refine ensures_read (.reg mmioStatus) (Noticing slot) (fun t t' hstep
    ht ↦ ⟨hstep.2, ht.2.stable hstep.1⟩) hs fun s1 hs1 ↦ ⟨eatsNothing_load hs1.1 drive _, ?_⟩
  have hstage : (resetLog slot (accessed .brisc (.l1Load (regAddr slot mmioStatus) 4)
      s1).trace).stage = if statusWord slot s1.memory = 0 then .sawZero else .idle := by
    rw [stage_load, if_pos rfl]
  refine ensures_read (.snap snapOffStatus) (fun t ↦ (Uneaten slot t ∧ ResetInv slot t) ∧
    (statusWord slot s1.memory ≠ 0 → StatusSeen slot t) ∧ (statusWord slot s1.memory = 0 →
    (resetLog slot t.trace).stage = .sawZero)) ?_ ⟨⟨eatsNothing_load hs1.1 drive _, hs1.2.load _⟩,
    ?_, ?_⟩ fun s2 hs2 ↦ ⟨eatsNothing_load hs2.1.1 drive _, ?_⟩
  · intro t t' hstep ht
    exact ⟨⟨hstep.2, ht.1.2.stable hstep.1⟩, fun hne ↦ (ht.2.1 hne).stable hstep.1,
      fun hzero ↦ hstep.1.stage_eq.trans (ht.2.2 hzero)⟩
  · intro hne
    exact .inr ⟨hstage.trans (if_neg hne), hne⟩
  · intro hzero
    exact hstage.trans (if_pos hzero)
  obtain ⟨⟨huneaten, hinv⟩, hseen, hsaw⟩ := hs2
  have huneaten' := eatsNothing_load huneaten drive (snapAddr slot snapOffStatus)
  split_ifs with hchanged
  · have hseen' : StatusSeen slot (accessed .brisc
        (.l1Load (snapAddr slot snapOffStatus) 4) s2) := by
      by_cases hzero : statusWord slot s1.memory = 0
      · rcases hinv with hquiet | hstage
        · exact .inl (quiet_load _ hquiet)
        · rw [hsaw hzero] at hstage
          exact absurd (hzero.trans hstage.symm) hchanged
      · exact (hseen hzero).access (.load _ hsnapLoad)
    exact (resetPart_seen (besideStatus_change slot) _ ⟨huneaten', hseen'⟩).weaken
      fun _ t ht ↦ ⟨ht.1, ht.2.resetInv⟩
  · exact ⟨huneaten', hinv.load _⟩

/-- BRISC is not resetting the device, and nothing that the guest has written can be wiped. -/
structure ResetIdle (slot : ℕ) (t : SlotScene) : Prop where
  idle : (resetLog slot t.trace).stage = .idle
  inv : ResetInv slot t

theorem ResetIdle.stable (h : ResetIdle slot s) (hstep : StatusOnly slot s s') :
    ResetIdle slot s' :=
  ⟨hstep.stage_eq.trans h.idle, h.inv.stable hstep⟩

/-- A store to a cell that is neither STATUS nor its snapshot. -/
theorem ResetIdle.store (h : ResetIdle slot t) (value : ℕ) (hc : c.Valid)
    (hstatus : c ≠ .reg mmioStatus) (hsnap : c ≠ .snap snapOffStatus) :
    ResetIdle slot (accessed .brisc (.l1Store (c.addr slot) 4 value) t) := by
  have haddr : c.addr slot ≠ regAddr slot mmioStatus :=
    addr_ne slot hc (.reg mmioStatus) (by decide) hstatus
  have hstatus' : statusWord slot (exec (.l1Store (c.addr slot) 4 value) t.memory).2 =
      statusWord slot t.memory := cell_store_of_ne hc (by decide) hstatus value t.memory
  have hsnap' : statusSnap slot (exec (.l1Store (c.addr slot) 4 value) t.memory).2 =
      statusSnap slot t.memory := cell_store_of_ne hc (by decide) hsnap value t.memory
  refine ⟨?_, h.inv.store haddr ?_ ?_⟩
  · rw [h.inv.log_store haddr]
    exact h.idle
  · unfold Live
    rw [hstatus', hsnap']
    exact id
  · exact hsnap'.trans

theorem resetPart_pollSelGeneration :
    ResetPart slot drive (Noticing slot) (pollSelGeneration slot)
      (fun t ↦ Uneaten slot t ∧ ResetIdle slot t) := by
  intro s hs
  have hstable : ∀ t t', StatusOnly slot t t' ∧ Uneaten slot t' → Uneaten slot t ∧ ResetInv slot t →
    Uneaten slot t' ∧ ResetInv slot t' := fun t t' hstep ht ↦ ⟨hstep.2, ht.2.stable hstep.1⟩
  have hidle : ∀ t t', StatusOnly slot t t' ∧ Uneaten slot t' → Uneaten slot t ∧ ResetIdle slot t →
    Uneaten slot t' ∧ ResetIdle slot t' := fun t t' hstep ht ↦ ⟨hstep.2, ht.2.stable hstep.1⟩
  refine ensures_read (.reg mmioSelGeneration) _ hstable hs
    fun s1 hs1 ↦ ⟨eatsNothing_load hs1.1 drive _, ?_⟩
  refine ensures_read (.snap snapOffSelGenEcho) _ hstable ⟨eatsNothing_load hs1.1 drive _,
    hs1.2.load _⟩ fun s2 hs2 ↦ ⟨eatsNothing_load hs2.1 drive _, ?_⟩
  -- the load of the echo is the last one of the poll, and it is not one of STATUS
  have hrest : Uneaten slot (accessed .brisc (.l1Load (addr slot
      (.snap snapOffSelGenEcho)) 4) s2) ∧ ResetIdle slot (accessed .brisc (.l1Load (addr slot
      (.snap snapOffSelGenEcho)) 4) s2) := by
    exact ⟨eatsNothing_load hs2.1 drive _,
      idle_load s2 (by decide) (by decide) (by decide), hs2.2.load _⟩
  have hstore : ∀ {c : Cell} (value : ℕ) (t : SlotScene), c.Valid → c ≠ .reg mmioStatus → c ≠ .snap
      snapOffStatus → Uneaten slot t ∧ ResetIdle slot t → EatsNothing slot drive (.l1Store (c.addr
      slot) 4 value) t ∧ ResetIdle slot (accessed .brisc (.l1Store (c.addr slot) 4 value) t) := by
    intro c value t hc hstatus hsnap ht
    refine ⟨ht.2.inv.eatsNothing_store ht.1 drive ?_, ht.2.store value hc hstatus hsnap⟩
    exact addr_ne slot hc (.reg mmioStatus) (by decide) hstatus
  split_ifs
  · refine ensures_store _ hidle hrest fun s3 hs3 ↦ ?_
    have hgen := hstore (c := .reg mmioSelGeneration) ((cell slot
      (.reg mmioSelGeneration) s1.memory + 1) % 2 ^ 32) s3 (by decide) (by decide) (by decide) hs3
    refine ⟨hgen.1, ensures_last_store _ hidle hgen fun s4 hs4 ↦ ?_⟩
    have hecho := hstore (c := .snap snapOffSelGenEcho) ((cell slot
      (.reg mmioSelGeneration) s1.memory + 1) % 2 ^ 32) s4 (by decide) (by decide) (by decide) hs4
    exact ⟨hecho.1, hecho⟩
  · exact hrest

theorem resetPart_pollOneDevice (hslot : slot < numSlots) :
    ResetPart slot drive (Noticing slot) (pollOneDevice slot)
      (fun t ↦ Uneaten slot t ∧ ResetIdle slot t) := by
  have hsnapshot : ∀ register snap, register ≠ mmioQueueNotify → (Cell.snap snap).Valid →
      (∀ value, restStores (.snap snap) value = true) →
      ResetPart slot drive (Noticing slot) (pollSnapshot slot register snap) (Noticing slot) :=
    fun _ _ hregister hvalid hstores ↦
      resetPart_phase (Touches.admits.does_pollSnapshot hregister hvalid hstores)
  refine resetPart_pollStatus.bind fun _ ↦ ?_
  refine (resetPart_phase touches_pollQueueSel).bind fun sel ↦ ?_
  refine (resetPart_phase (touches_pollQueueReady sel)).bind fun _ ↦ ?_
  refine (resetPart_phase (touches_pollQueueNotify hslot)).bind fun _ ↦ ?_
  refine (hsnapshot _ _ (by decide) (by decide) fun _ ↦ rfl).bind fun _ ↦ ?_
  exact (hsnapshot _ _ (by decide) (by decide) fun _ ↦ rfl).bind fun _ ↦ resetPart_pollSelGeneration

end Brisc

/-! ### The system -/

/-- The parts of the cores: BRISC relies on a guest that writes nothing but STATUS during a poll. -/
def resetOutline (slot : ℕ) {D : Type} (drive : D → Prog D) :
    Outline SlotCore Op ℕ ByteStore World (SlotCore.Private D) where
  inv := Uneaten slot
  rely
    | .brisc => StatusOnly slot
    | _ => fun _ _ ↦ True
  guarantee
    | .brisc => EatsNothing slot drive
    | .trisc1 => fun op _ ↦ Touches slot watchSelStores op
    | .trisc2 => fun op _ ↦ Touches slot featureStores op
    | .driver => fun _ _ ↦ True
  between
    | .brisc => fun _ s ↦ ResetIdle slot s
    | _ => fun _ _ ↦ True

section System

variable {c : SlotConfig D}

theorem StatusOnly.of_kept (hlog : resetLog slot s'.trace = resetLog slot s.trace)
    (hkept : CellsKept slot stores s.memory s'.memory)
    (hstatus : SparesStatus stores := by exact ⟨fun _ ↦ rfl, fun _ ↦ rfl⟩) :
    StatusOnly slot s s' := by
  refine ⟨congrArg ResetLog.stage hlog, hkept.snap_eq hstatus.snap, ?_, ?_⟩
  · rw [hlog]
    exact id
  · intro _
    rw [hlog, hkept.status_eq hstatus.word]
    exact id

theorem statusOnly_status (value : ℕ) (s : SlotScene) :
    StatusOnly slot s (guestStored slot mmioStatus value s) := by
  have hstatus : statusWord slot (guestStored slot mmioStatus value s).memory = value % 2 ^ 32 :=
    cell_store_self slot (.reg mmioStatus) value s.memory
  have hsnap : statusSnap slot (guestStored slot mmioStatus value s).memory =
    statusSnap slot s.memory := readLE_writeLE_of_apart (apart_snap_status slot).symm
  have hlog : resetLog slot (guestStored slot mmioStatus value s).trace = if value % 2 ^ 32 = 0 then
          if (resetLog slot s.trace).stage = .idle then { resetLog slot s.trace with fresh := [] }
          else resetLog slot s.trace
        else { resetLog slot s.trace with
          fresh := regAddr slot mmioStatus :: (resetLog slot s.trace).fresh } := by
    change ResetLog.next slot (resetLog slot s.trace) (.access .driver _ _) = _
    simp only [ResetLog.next, true_and]
  by_cases hzero : value % 2 ^ 32 = 0
  · rw [if_pos hzero] at hlog
    by_cases hidle : (resetLog slot s.trace).stage = .idle
    · rw [if_pos hidle] at hlog
      have hquiet : (resetLog slot (guestStored slot mmioStatus value s).trace).Quiet slot := by
        rw [hlog]
        exact fun addr haddr ↦ absurd haddr List.not_mem_nil
      exact ⟨by rw [hlog], hsnap, fun _ ↦ hquiet, fun _ _ ↦ .inl hquiet⟩
    · rw [if_neg hidle] at hlog
      refine ⟨congrArg ResetLog.stage hlog, hsnap, ?_, fun h ↦ absurd h hidle⟩
      rw [hlog]
      exact id
  · rw [if_neg hzero] at hlog
    refine ⟨by rw [hlog], hsnap, fun hquiet ↦ ?_, fun _ _ ↦ .inr ?_⟩
    · rw [hlog]
      intro addr haddr
      rcases List.mem_cons.mp haddr with rfl | hmem
      · rfl
      · exact hquiet addr hmem
    · rw [← hstatus] at hzero
      exact hzero

/-- A guest store to another register while no reset is pending. -/
theorem resetIdle_driver (value : ℕ) (hvalid : (Cell.reg offset).Valid)
    (hne : offset ≠ mmioStatus) (hidle : ResetIdle slot s) (hlive : Live slot s.memory) :
    ResetIdle slot (guestStored slot offset value s) := by
  have haddr : regAddr slot offset ≠ regAddr slot mmioStatus :=
    Cell.addr_ne slot hvalid (.reg mmioStatus) (by decide) fun heq ↦ hne (Cell.reg.inj heq)
  have hlog : resetLog slot (guestStored slot offset value s).trace = { resetLog slot s.trace with
        fresh := regAddr slot offset :: (resetLog slot s.trace).fresh } :=
    if_neg fun hzero ↦ haddr hzero.1
  have hidle' : (resetLog slot (guestStored slot offset value s).trace).stage = .idle := by
    rw [hlog]
    exact hidle.idle
  refine ⟨hidle', .inr ?_⟩
  rw [hidle']
  refine ((touches_cell slot (.reg offset) value hvalid).kept s.memory).live hlive
    ⟨fun _ ↦ decide_eq_false ?_,
    fun _ ↦ decide_eq_false nofun⟩
  exact fun heq ↦ hne (Cell.reg.inj heq).symm

theorem uneaten_driver (op : Op) (h : Uneaten slot s) : Uneaten slot (accessed .driver op s) := by
  have heaten : ∀ answer, (ResetLog.next slot (resetLog slot s.trace)
      (.access .driver op answer)).eaten = (resetLog slot s.trace).eaten := by
    intro answer
    unfold ResetLog.next
    cases op with
    | l1Store addr size value =>
      simp only
      split_ifs <;> rfl
    | _ => rfl
  exact (heaten _).trans h

theorem StatusOnly.admissible (h : StatusOnly slot c.scene s') (core : SlotCore) :
    (resetOutline slot drive).Admissible c core s' := by
  refine .inl ?_
  cases core with
  | brisc => exact h
  | _ => trivial

theorem resetLog_trisc (slot : ℕ) {core : SlotCore} (hbrisc : core ≠ .brisc)
    (hdriver : core ≠ .driver) (op : Op) (s : SlotScene) :
    resetLog slot (accessed core op s).trace = resetLog slot s.trace := by
  cases core with
  | brisc => exact absurd rfl hbrisc
  | driver => exact absurd rfl hdriver
  | _ => cases op <;> rfl

theorem statusOnly_trisc (h : Uneaten slot c.scene) (core : SlotCore) (hbrisc : core ≠ .brisc)
    (hdriver : core ≠ .driver) (htouches : Touches slot stores op)
    (hstatus : SparesStatus stores := by exact ⟨fun _ ↦ rfl, fun _ ↦ rfl⟩) :
    Uneaten slot (accessed core op c.scene) ∧
      ∀ other, other ≠ core → (resetOutline slot drive).Admissible c other
        (accessed core op c.scene) := by
  have hlog := resetLog_trisc slot hbrisc hdriver op c.scene
  have hkept := htouches.kept c.scene.memory
  refine ⟨(congrArg ResetLog.eaten hlog).trans h, fun other _ ↦ ?_⟩
  exact (StatusOnly.of_kept hlog hkept hstatus).admissible other

theorem Waiting.admissible (h : Waiting slot c (.core .driver)) {next : ℕ → Prog D}
    (hrest : c.rest .driver = .step op next)
    (hholds : (resetOutline slot drive).Holds (slotCores slot drive) c) (core : SlotCore) :
    (resetOutline slot drive).Admissible c core (accessed .driver op c.scene) := by
  have hop : Patient slot c op := h op (by rw [hrest]; rfl)
  cases op with
  | l1Load addr size =>
    have hkept : CellsKept slot noStores c.scene.memory
      (exec (.l1Load addr size) c.scene.memory).2 := fun _ _ _ ↦ rfl
    have honly : StatusOnly slot c.scene (accessed .driver (.l1Load addr size) c.scene) :=
      .of_kept rfl hkept
    exact honly.admissible core
  | l1Store addr size value =>
    obtain ⟨rfl, offset, hoffset, haligned, rfl, hpatient⟩ := hop
    by_cases hstatus : offset = mmioStatus
    · subst hstatus
      exact (statusOnly_status value c.scene).admissible core
    · obtain ⟨hbrisc, hlive⟩ := hpatient.resolve_left hstatus
      cases core with
      | brisc =>
        obtain ⟨result, hdone⟩ := hbrisc.exists_done
        have hidle := hholds.at_rest .brisc
        rw [hdone] at hidle
        exact .inr ⟨result, hdone, resetIdle_driver value ⟨haligned, hoffset⟩ hstatus hidle hlive⟩
      | _ => exact .inl trivial
  | _ => exact absurd hop not_false

theorem resetOutline_sound (hslot : slot < numSlots) :
    (resetOutline slot drive).Sound (slotCores slot drive) (Waiting slot) := by
  apply Outline.Sound.ofRely
  case hrefl =>
    intro core s
    cases core with
    | brisc => exact .refl slot s
    | _ => trivial
  case htrans =>
    intro core s s' s'' h h'
    cases core with
    | brisc => exact StatusOnly.trans h h'
    | _ => trivial
  case hstable =>
    intro core result s s' hstep h
    cases core with
    | brisc => exact ResetIdle.stable h hstep
    | _ => trivial
  case hloop =>
    intro core result s hinv h
    cases core with
    | brisc =>
      refine ⟨hinv, ?_⟩
      exact (resetPart_pollOneDevice hslot (Cores.pass .brisc s) ⟨hinv, h.inv⟩).weaken
        fun _ _ ht ↦ ht.2
    | trisc1 => exact ⟨hinv, Ensures.ofAlways (touches_watchSel slot result) _⟩
    | trisc2 => exact ⟨hinv, Ensures.ofAlways (touches_watchFeatures slot result) _⟩
    | driver => exact ⟨hinv, ensures_true _ _⟩
  case hpass =>
    intro core other s hother
    cases other with
    | brisc =>
      have hkept : CellsKept slot noStores s.memory s.memory := fun _ _ _ ↦ rfl
      refine .of_kept ?_ hkept
      rfl
    | _ => trivial
  case haccess =>
    intro c core op next hallowed hrest hguar h
    cases core with
    | brisc =>
      refine ⟨hguar, fun other hother ↦ .inl ?_⟩
      cases other with
      | brisc => exact absurd rfl hother
      | _ => trivial
    | trisc1 =>
      exact statusOnly_trisc h.inv .trisc1 (by decide) (by decide) hguar
    | trisc2 =>
      exact statusOnly_trisc h.inv .trisc2 (by decide) (by decide) hguar
    | driver =>
      exact ⟨uneaten_driver op h.inv, fun other _ ↦ hallowed.admissible hrest h other⟩
  case hact =>
    intro c event hallowed h
    have hkept := Outsider.kept drive hallowed c.scene
    refine ⟨h.inv, fun other ↦ ?_⟩
    refine StatusOnly.admissible (.of_kept ?_ hkept) other
    rfl

/-- Where a run begins: nothing has happened and BRISC is between two polls. -/
structure Unreset (slot : ℕ) (c : SlotConfig D) : Prop where
  trace : c.scene.trace = []
  brisc : c.rest .brisc = .done ()
  trisc1 : (c.rest .trisc1).Always (Touches slot watchSelStores) fun _ ↦ True
  trisc2 : (c.rest .trisc2).Always (Touches slot featureStores) fun _ ↦ True

/-- Resets eat nothing. Assumes: a slot of the engine; BRISC begins between two polls, TRISC1 and
TRISC2 anywhere in their visits; the guest is any program that stores words of its register file,
and while BRISC polls or a reset is pending it stores to no register but STATUS. -/
theorem reset_eats_nothing (hslot : slot < numSlots) (drive : D → Prog D) {c : SlotConfig D}
    (h : Unreset slot c) {turns : List (Turn SlotCore ByteStore)}
    (hturns : (slotCores slot drive).Admits (Waiting slot) c turns) :
    (resetLog slot ((slotCores slot drive).follow c turns).scene.trace).eaten = false := by
  have hstart : (resetOutline slot drive).Holds (slotCores slot drive) c := by
    have hlog : resetLog slot c.scene.trace = ⟨.idle, [], false⟩ := by
      rw [h.trace]
      rfl
    have huneaten : Uneaten slot c.scene := congrArg ResetLog.eaten hlog
    refine ⟨huneaten, fun core ↦ ?_⟩
    cases core with
    | brisc =>
      rw [h.brisc]
      refine ⟨congrArg ResetLog.stage hlog, .inl ?_⟩
      rw [hlog]
      exact fun addr haddr ↦ absurd haddr List.not_mem_nil
    | trisc1 => exact Ensures.ofAlways h.trisc1 _
    | trisc2 => exact Ensures.ofAlways h.trisc2 _
    | driver => exact ensures_true _ _
  exact ((resetOutline_sound hslot).follow hstart hturns).inv

end System

/-- Slot `0` of a guest that has set STATUS and is about to reset its device. -/
def aboutToReset : SlotConfig (List (ℕ × ℕ)) :=
  betweenPasses (l1World [(regAddr 0 mmioStatus, 4, 1), (snapAddr 0 snapOffStatus, 4, 1)]) 0 0
    [(mmioStatus, 0), (mmioDriverFeatures, 5)]

/-- A guest that lets BRISC notice the reset before it goes on with its probe. -/
theorem reset_eats_nothing_patient :
    let turns := List.replicate 2 (Turn.core SlotCore.driver) ++
      List.replicate 345 (.core .brisc) ++ List.replicate 2 (.core .driver)
    (resetLog 0 ((slotCores 0 (scripted 0)).follow aboutToReset turns).scene.trace).eaten =
      false := by
  have hstart : Unreset 0 aboutToReset := ⟨rfl, rfl, trivial, trivial⟩
  refine reset_eats_nothing (by decide) (scripted 0) hstart ?_
  decide +kernel

/-- A guest that goes on at once loses the feature bits it writes. -/
theorem reset_eats_write :
    let turns := List.replicate 4 (Turn.core SlotCore.driver) ++
      List.replicate 400 (.core .brisc)
    let final := (slotCores 0 (scripted 0)).follow aboutToReset turns
    (resetLog 0 final.scene.trace).eaten = true ∧
      cell 0 (.reg mmioDriverFeatures) final.scene.memory = 0 := by
  decide +kernel

end Bhx.Firmware
