import Bhx.Firmware.FeatureSelect
import Bhx.Firmware.ReadyCapture

/-!
# The generation handshake

A guest cannot see when the firmware has taken note of what it wrote. So U-Boot's driver follows a
block of register writes by a handshake (`virtioMmioSwImplSync`): it adds one to SEL_GENERATION and
waits until the register shows something else. BRISC stores something else at the end of a poll in
which it finds the register changed.

The echo says that BRISC has come to the end of a poll. It does not say that the poll began after
the writes, and it says nothing about TRISC2, which is the core that shows the feature bits
(`echo_without_effect`). It does mean what the driver takes it for when the driver adds one only
while BRISC is between two polls and after TRISC2 has visited the slot since the selector was
stored: once the handshake has succeeded, DEVICE_FEATURES shows the selected half and the shadow
holds the configuration offered (`sync_in_place`).

Two monitors of the trace carry the argument. `syncStage` follows the stores to the register, and
`selectedAt` says how often TRISC2 had begun a visit when the guest stored the selector.
-/

set_option autoImplicit false

namespace Bhx.Firmware

open SharedMemory Machine L1Layout Cores

variable {dfsel swImpl last : ℕ}

/-! ### The driver -/

/-- How often a handshake loads the register before it gives up. -/
def syncTries : ℕ := 100000

/-- Loads SEL_GENERATION until it differs from `expected`. -/
def awaitEcho (slot expected : ℕ) : ℕ → Prog Bool
  | 0 => pure false
  | tries + 1 => do
    let gen ← readU32 (regAddr slot mmioSelGeneration)
    if gen ≠ expected then pure true else awaitEcho slot expected tries

/-- `virtio_mmio_sw_impl_sync`, with the word that the driver has read from SW_IMPL. The result says
whether it succeeds. -/
def virtioMmioSwImplSync (slot swImpl : ℕ) : Prog Bool :=
  if swImpl = 0 then pure true
  else do
    let prev ← readU32 (regAddr slot mmioSelGeneration)
    storeU32 (regAddr slot mmioSelGeneration) ((prev + 1) % 2 ^ 32)
    awaitEcho slot ((prev + 1) % 2 ^ 32) syncTries

/-- A driver that follows each block of accesses by a handshake. Between two passes it knows whether
the last one succeeded. -/
def syncedDrive (slot swImpl : ℕ) {D : Type} (block : D → Prog D) (d : D × Bool) :
    Prog (D × Bool) := do
  let next ← block d.1
  let synced ← virtioMmioSwImplSync slot swImpl
  pure (next, synced)

/-- What the driver keeps, when it is between two passes. -/
def driverKeeps {D : Type} (c : SlotConfig D) : Option D := (c.rest .driver).finished

/-! ### What a trace says about the handshake -/

/-- How far a handshake is. -/
inductive SyncStage
  /-- The guest has stored to another register since, or has not begun. -/
  | idle
  /-- The guest has stored this value, when BRISC had begun so many polls. -/
  | asked (polls value : ℕ)
  /-- BRISC has stored to the register since. -/
  | echoed
deriving DecidableEq, Repr

/-- The stage after one more mark. -/
def SyncStage.next (slot polls : ℕ) (stage : SyncStage) :
    Mark SlotCore Op ℕ ByteStore → SyncStage
  | .access .driver (.l1Store addr _ value) _ =>
    if addr = regAddr slot mmioSelGeneration then .asked polls (value % 2 ^ 32) else .idle
  | .access .brisc (.l1Store addr size _) _ =>
    if (addr = regAddr slot mmioSelGeneration ∧ size = 4) ∧ stage ≠ .idle then .echoed else stage
  | _ => stage

/-- The stage of a trace. -/
def syncStage (slot : ℕ) : List (Mark SlotCore Op ℕ ByteStore) → SyncStage
  | [] => .idle
  | mark :: trace => (syncStage slot trace).next slot (passes .brisc trace) mark

/-- How many visits TRISC2 had begun when the guest stored DEVICE_FEATURES_SEL last. -/
def selectedAt (slot visits : ℕ) : List (Mark SlotCore Op ℕ ByteStore) → ℕ
  | [] => visits
  | .access .driver (.l1Store addr _ _) _ :: trace =>
    if addr = regAddr slot mmioDeviceFeaturesSel then passes .trisc2 trace
    else selectedAt slot visits trace
  | _ :: trace => selectedAt slot visits trace

/-- The word in SEL_GENERATION. -/
def generation (slot : ℕ) (w : World) : ℕ := cell slot (.reg mmioSelGeneration) w

/-- DEVICE_FEATURES shows the selected half. -/
def ShowsSelected (slot : ℕ) (w : World) : Prop :=
  shownFeatures slot w = featureWord slot (featuresSel slot w)

/-- Nothing that the monitors look at has happened. -/
structure LogsKept (slot : ℕ) (start : SetupLog) (visits : ℕ) (s s' : SlotScene) : Prop where
  setup_eq : setupLog slot start s'.trace = setupLog slot start s.trace
  sync_eq : syncStage slot s'.trace = syncStage slot s.trace
  selected_eq : selectedAt slot visits s'.trace = selectedAt slot visits s.trace
  polls_eq : passes .brisc s'.trace = passes .brisc s.trace
  visits_eq : passes .trisc2 s'.trace = passes .trisc2 s.trace

/-! ### The invariant -/

/-- What the monitor says about the register and the offer. -/
structure EchoInv (slot : ℕ) (start : SetupLog) (s : SlotScene) : Prop where
  since_le : ∀ config since, setupStage slot start s = .offered config since →
    since ≤ passes .brisc s.trace
  asked : ∀ polls value, syncStage slot s.trace = .asked polls value →
    generation slot s.memory = value ∧ polls ≤ passes .brisc s.trace ∧
      ∀ config since, setupStage slot start s = .offered config since → since ≤ polls
  echoed : syncStage slot s.trace = .echoed → ∀ config since,
    setupStage slot start s = .offered config since → readyWord slot s.memory = 0

/-- What the monitors say about the feature bits. -/
structure ShownInv (slot visits : ℕ) (s : SlotScene) : Prop where
  shown : selectedAt slot visits s.trace + 1 < passes .trisc2 s.trace →
    ShowsSelected slot s.memory
  synced : syncStage slot s.trace ≠ .idle →
    selectedAt slot visits s.trace < passes .trisc2 s.trace ∧ ShowsSelected slot s.memory

/-- The handshake that BRISC finds began before its poll. -/
def AskedBefore (slot : ℕ) (s : SlotScene) : Prop :=
  ∀ polls value, syncStage slot s.trace = .asked polls value →
    polls < passes .brisc s.trace

variable {slot visits : ℕ} {start : SetupLog} {D : Type} {stores : Cell → ℕ → Bool}
  {s s' : SlotScene} {op : Op}

theorem logsKept_access (slot : ℕ) (start : SetupLog) (visits : ℕ) (core : SlotCore)
    (hbrisc : core ≠ .brisc) (hdriver : core ≠ .driver) (op : Op) (s : SlotScene) :
    LogsKept slot start visits s (accessed core op s) := by
  refine ⟨setupLog_other slot start hdriver op s, ?_, ?_, rfl, rfl⟩
  · cases core with
    | brisc => exact absurd rfl hbrisc
    | driver => exact absurd rfl hdriver
    | _ => rfl
  · cases core with
    | brisc => exact absurd rfl hbrisc
    | driver => exact absurd rfl hdriver
    | _ => rfl

theorem logsKept_load (slot : ℕ) (start : SetupLog) (visits addr size : ℕ) (s : SlotScene) :
    LogsKept slot start visits s (accessed .driver (.l1Load addr size) s) :=
  ⟨rfl, rfl, rfl, rfl, rfl⟩

theorem EchoInv.kept (h : EchoInv slot start s) (hkept : CellsKept slot stores s.memory s'.memory)
    (hgen : Spared stores (.reg mmioSelGeneration)) (hready : Spared stores (.reg mmioQueueReady))
    (hlogs : LogsKept slot start visits s s') : EchoInv slot start s' := by
  have hstage : setupStage slot start s' = setupStage slot start s :=
    congrArg SetupLog.stage hlogs.setup_eq
  constructor
  · rw [hstage, hlogs.polls_eq]
    exact h.since_le
  · intro polls value hasked
    rw [hlogs.sync_eq] at hasked
    rw [hstage, hlogs.polls_eq]
    obtain ⟨hvalue, hrest⟩ := h.asked polls value hasked
    exact ⟨(hkept (.reg mmioSelGeneration) (by decide) hgen).trans hvalue, hrest⟩
  · intro hechoed config since hoffered
    rw [hlogs.sync_eq] at hechoed
    rw [hstage] at hoffered
    exact (hkept (.reg mmioQueueReady) (by decide) hready).trans
      (h.echoed hechoed config since hoffered)

theorem ShowsSelected.kept {w w' : World} (h : ShowsSelected slot w)
    (hkept : CellsKept slot stores w w') (hword : Spared stores (.reg mmioDeviceFeatures))
    (hsel : Spared stores (.reg mmioDeviceFeaturesSel)) : ShowsSelected slot w' := by
  unfold ShowsSelected shownFeatures featuresSel
  rw [hkept (.reg mmioDeviceFeatures) (by decide) hword,
    hkept (.reg mmioDeviceFeaturesSel) (by decide) hsel]
  exact h

theorem ShownInv.kept (h : ShownInv slot visits s)
    (hkept : CellsKept slot stores s.memory s'.memory)
    (hword : Spared stores (.reg mmioDeviceFeatures))
    (hsel : Spared stores (.reg mmioDeviceFeaturesSel))
    (hidle : syncStage slot s.trace = .idle → syncStage slot s'.trace = .idle)
    (hselected : selectedAt slot visits s'.trace = selectedAt slot visits s.trace)
    (hvisits : passes .trisc2 s'.trace = passes .trisc2 s.trace) :
    ShownInv slot visits s' := by
  constructor
  · rw [hselected, hvisits]
    exact fun hlate ↦ (h.shown hlate).kept hkept hword hsel
  · intro hne
    obtain ⟨hvisited, hshows⟩ := h.synced fun heq ↦ hne (hidle heq)
    rw [hselected, hvisits]
    exact ⟨hvisited, hshows.kept hkept hword hsel⟩

/-! ### Stores of BRISC -/

/-- The same stores but for one cell. -/
def without (c : Cell) (stores : Cell → ℕ → Bool) (other : Cell) (value : ℕ) : Bool :=
  stores other value && other ≠ c

theorem spared_without {c : Cell} {stores : Cell → ℕ → Bool} : Spared (without c stores) c := by
  intro value
  simp [without]

theorem Touches.split (h : Touches slot stores op) (c : Cell) :
    Touches slot (without c stores) op ∨ ∃ value, op = .l1Store (c.addr slot) 4 value := by
  cases h with
  | load addr => exact .inl (.load addr)
  | aside addr size value haside => exact .inl (.aside addr size value haside)
  | store other value hvalid hother =>
    by_cases heq : other = c
    · subst heq
      exact .inr ⟨value, rfl⟩
    · exact .inl (.store other value hvalid (by simp [without, hother, heq]))

theorem syncStage_brisc (slot : ℕ) (op : Op) (s : SlotScene) :
    syncStage slot (accessed .brisc op s).trace = syncStage slot s.trace ∨
      syncStage slot s.trace ≠ .idle ∧
        syncStage slot (accessed .brisc op s).trace = .echoed := by
  cases op with
  | l1Store addr size stored =>
    change (if _ then SyncStage.echoed else syncStage slot s.trace) = _ ∨
      _ ∧ (if _ then SyncStage.echoed else syncStage slot s.trace) = _
    split_ifs with hecho
    · exact .inr ⟨hecho.2, rfl⟩
    · exact .inl rfl
  | _ => exact .inl rfl

theorem asked_of_brisc {polls value : ℕ}
    (h : syncStage slot (accessed .brisc op s).trace = .asked polls value) :
    syncStage slot s.trace = .asked polls value := by
  rcases syncStage_brisc slot op s with heq | ⟨-, hechoed⟩
  · exact heq.symm.trans h
  · exact nomatch (hechoed.symm.trans h)

theorem idle_of_brisc (op : Op) (h : syncStage slot s.trace = .idle) :
    syncStage slot (accessed .brisc op s).trace = .idle := by
  rcases syncStage_brisc slot op s with heq | ⟨hne, -⟩
  · exact heq.trans h
  · exact absurd h hne

theorem Touches.syncStage_eq (h : Touches slot stores op)
    (hgen : Spared stores (.reg mmioSelGeneration)) (s : SlotScene) :
    syncStage slot (accessed .brisc op s).trace = syncStage slot s.trace := by
  have hvalid : (Cell.reg mmioSelGeneration).Valid := by decide
  cases h with
  | load addr => rfl
  | aside addr size value haside =>
    change (if _ then SyncStage.echoed else syncStage slot s.trace) = _
    rw [if_neg]
    rintro ⟨⟨rfl, rfl⟩, -⟩
    exact (haside.apart hvalid).ne (by decide) (by decide) rfl
  | store other value hother hstores =>
    change (if _ then SyncStage.echoed else syncStage slot s.trace) = _
    rw [if_neg]
    rintro ⟨⟨haddr, -⟩, -⟩
    have hne : other ≠ .reg mmioSelGeneration := by
      rintro rfl
      rw [hgen value] at hstores
      exact absurd hstores Bool.false_ne_true
    exact (Cell.apart hother hvalid hne).ne (by decide) (by decide) haddr

theorem syncStage_echo (value : ℕ) (h : syncStage slot s.trace ≠ .idle) :
    syncStage slot (accessed .brisc
      (.l1Store (regAddr slot mmioSelGeneration) 4 value) s).trace = .echoed :=
  if_pos ⟨⟨rfl, rfl⟩, h⟩

/-! ### BRISC -/

/-- What BRISC does in a poll: it keeps the invariant of the setup, and stores to SEL_GENERATION
only when no offer from before the poll is open. -/
structure EchoAccess (slot queue : ℕ) (start : SetupLog) {D : Type} (drive : D → Prog D) (op : Op)
    (t : SlotScene) : Prop where
  inv : SetupInv slot queue start ((slotCores slot drive).access .brisc op t).2
  touches : Touches slot (without (.reg mmioSelGeneration) pollStores) op ∨
    (∃ value, op = .l1Store (regAddr slot mmioSelGeneration) 4 value) ∧ Answered slot start t

variable {queue : ℕ}

section Brisc

variable {drive : D → Prog D} {t : SlotScene}

/-- A part of BRISC's poll next to a guest that asks for an echo. -/
abbrev EchoPart (slot queue : ℕ) (start : SetupLog) {D α : Type} (drive : D → Prog D)
    (post : α → SlotScene → Prop) (program : Prog α) (s : SlotScene) : Prop :=
  Ensures ((slotCores slot drive).access .brisc)
    (fun t t' ↦ SetupRely slot queue start t t' ∧ SetupInv slot queue start t')
    (EchoAccess slot queue start drive) post program s

/-- A part of the poll that does not store to SEL_GENERATION. -/
theorem CapturePart.silent {α : Type} {program : Prog α} {pre : SlotScene → Prop}
    {post : α → SlotScene → Prop} (h : CapturePart slot queue start drive pre program post)
    (hprog : program.Performs (Touches slot stores)) (hstores : ∀ c value, stores c value = true →
      without (.reg mmioSelGeneration) pollStores c value = true) (hs : pre s) :
    EchoPart slot queue start drive post program s := by
  refine ((h s hs).and (Ensures.ofAlways hprog s)).imp ?_ fun _ _ hpost ↦ hpost.1
  intro op t hop
  exact ⟨hop.1, .inl (hop.2.mono hstores)⟩

theorem echo_pollStatus (hqueue : queue < maxQueuesPerSlot) (hs : SetupInv slot queue start s) :
    EchoPart slot queue start drive (fun _ t ↦ SetupInv slot queue start t)
      (pollStatus slot) s := by
  refine ((capturePart_pollStatus hqueue s hs).and (resetless_setup.pollStatus (fun _ ↦ True)
    (fun _ _ _ _ ↦ trivial) (fun _ _ _ _ ↦ trivial) hs.live trivial)).imp ?_ fun _ _ hpost ↦ hpost.1
  intro op t hop
  refine ⟨hop.1, .inl (hop.2.1.mono fun c value hc ↦ ?_)⟩
  obtain rfl := of_decide_eq_true hc
  rfl

theorem echo_pollRest (hqueue : queue < maxQueuesPerSlot)
    (hs : SetupInv slot queue start s ∧ Answered slot start s) :
    EchoPart slot queue start drive
      (fun _ t ↦ SetupInv slot queue start t ∧ Answered slot start t) (pollRest slot) s := by
  refine ((capturePart_answered hqueue touches_pollRest spares_restStores ⟨fun _ ↦ rfl,
    fun _ ↦ rfl⟩ s hs).and (resetless_setup.phase (Answered slot start) touches_pollRest
    (fun _ _ hstep ht ↦ ht.stable hstep.1) (fun _ _ htouches ht ↦ ht.touches htouches fun _ ↦
    rfl) hs.1.live hs.2)).imp ?_ fun _ _ hpost ↦ hpost.1
  rintro op t ⟨hinv, htouches, -, ht⟩
  refine ⟨hinv, ?_⟩
  rcases (htouches.mono fun _ _ hc ↦ pollStores_of_setupStores
    (setupStores_of_restStores hc)).split (.reg mmioSelGeneration) with hquiet | hecho
  · exact .inl hquiet
  · exact .inr ⟨hecho, ht⟩

theorem echo_pollOneDevice (hslot : slot < numSlots) (hqueue : queue < maxQueuesPerSlot)
    (hs : SetupInv slot queue start s) :
    EchoPart slot queue start drive
      (fun _ t ↦ SetupInv slot queue start t ∧ Answered slot start t) (pollOneDevice slot) s := by
  refine (echo_pollStatus hqueue hs).bind fun _ s1 hs1 ↦ ?_
  refine (ensures_pollQueueSel hqueue (fun addr t ht ↦ ⟨ht.load hqueue addr, .inl (.load addr)⟩)
    hs1).bind ?_
  rintro sel s2 ⟨rfl, hs2⟩
  refine ((capturePart_pollQueueReady hqueue).silent (touches_pollQueueReady sel) ?_ hs2).bind
    fun _ s3 hs3 ↦ ?_
  · intro c value hc
    have hne : c ≠ .reg mmioSelGeneration := by
      rintro rfl
      exact absurd hc (by simp [readyStores, mmioSelGeneration, mmioQueueReady])
    simp [without, pollStores_of_setupStores (setupStores_of_readyStores hc), hne]
  refine ((capturePart_answered hqueue (touches_pollQueueNotify hslot) spares_register).silent
    (touches_pollQueueNotify hslot) ?_ hs3).bind fun _ s4 hs4 ↦ ?_
  · intro c value hc
    obtain rfl := of_decide_eq_true hc
    rfl
  exact echo_pollRest hqueue hs4

theorem EchoAccess.touches_poll (h : EchoAccess slot queue start drive op t) :
    Touches slot pollStores op := by
  rcases h.touches with hquiet | ⟨⟨value, rfl⟩, -⟩
  · refine hquiet.mono fun c value hc ↦ ?_
    simp only [without, Bool.and_eq_true] at hc
    exact hc.1
  · exact .store (.reg mmioSelGeneration) value (by decide) rfl

/-- An echo comes after the answer to the offer. -/
theorem EchoInv.brisc (h : EchoInv slot start t) (haccess : EchoAccess slot queue start drive op t)
    (hasked : AskedBefore slot t) :
    EchoInv slot start (accessed .brisc op t) := by
  have hstage : setupStage slot start (accessed .brisc op t) =
      setupStage slot start t := congrArg SetupLog.stage (setupLog_brisc slot start op t)
  have hpolls : passes .brisc (accessed .brisc op t).trace =
      passes .brisc t.trace := rfl
  constructor
  · exact h.since_le
  · intro polls value hstill
    have hbefore := asked_of_brisc hstill
    obtain ⟨hvalue, hrest⟩ := h.asked polls value hbefore
    refine ⟨?_, hrest⟩
    rcases haccess.touches with hquiet | ⟨⟨stored, rfl⟩, -⟩
    · exact (hquiet.kept t.memory _ (by decide) spared_without).trans hvalue
    · rw [syncStage_echo stored (by rw [hbefore]; exact SyncStage.noConfusion)] at hstill
      exact absurd hstill SyncStage.noConfusion
  · intro hechoed config since hoffered
    refine haccess.touches_poll.readyWord_eq_zero (fun value hvalue ↦ eq_zero_of_setupStores
      (by simpa [pollStores, statusStores] using hvalue)) ?_
    -- the echo is old, or this access is the echo
    cases hbefore : syncStage slot t.trace with
    | idle =>
      rw [idle_of_brisc op hbefore] at hechoed
      exact absurd hechoed SyncStage.noConfusion
    | echoed => exact h.echoed hbefore config since hoffered
    | asked polls value =>
      rcases haccess.touches with hquiet | ⟨-, hanswered⟩
      · rw [hquiet.syncStage_eq spared_without, hbefore] at hechoed
        exact absurd hechoed SyncStage.noConfusion
      · have hsince := (h.asked polls value hbefore).2.2 config since hoffered
        exact hanswered config since hoffered (hsince.trans_lt (hasked polls value hbefore))

theorem ShownInv.brisc (h : ShownInv slot visits t)
    (haccess : EchoAccess slot queue start drive op t) :
    ShownInv slot visits (accessed .brisc op t) := by
  have hselected : selectedAt slot visits (accessed .brisc op t).trace =
      selectedAt slot visits t.trace := by cases op <;> rfl
  exact h.kept (haccess.touches_poll.kept t.memory) (fun _ ↦ rfl) (fun _ ↦ rfl)
    (idle_of_brisc op) hselected rfl

end Brisc

/-! ### The parts of the cores -/

/-- What BRISC relies on: the surroundings keep to the setup, and nobody asks during a poll. -/
structure EchoRely (slot queue : ℕ) (start : SetupLog) (s s' : SlotScene) : Prop where
  setup : SetupRely slot queue start s s'
  asked : ∀ polls value, syncStage slot s'.trace = .asked polls value →
    syncStage slot s.trace = .asked polls value

/-- What TRISC2 relies on: nobody else stores DEVICE_FEATURES, and a store to the selector is
logged. -/
structure ShownRely (slot visits : ℕ) (s s' : SlotScene) : Prop where
  shown_eq : shownFeatures slot s'.memory = shownFeatures slot s.memory
  visits_eq : passes .trisc2 s'.trace = passes .trisc2 s.trace
  selected : (featuresSel slot s'.memory = featuresSel slot s.memory ∧
      selectedAt slot visits s'.trace = selectedAt slot visits s.trace) ∨
    selectedAt slot visits s'.trace = passes .trisc2 s.trace

/-- What the driver relies on: nobody else asks, and an echo stays. -/
structure SyncRely (slot : ℕ) (s s' : SlotScene) : Prop where
  asked : ∀ polls value, syncStage slot s.trace = .asked polls value →
    syncStage slot s'.trace = .asked polls value ∨ syncStage slot s'.trace = .echoed
  echoed : syncStage slot s.trace = .echoed → syncStage slot s'.trace = .echoed

/-- The selector that TRISC2 has read is the selector of the slot unless the guest has stored
another one during the visit. -/
def SeenSelected (slot visits dfsel : ℕ) (s : SlotScene) : Prop :=
  selectedAt slot visits s.trace < passes .trisc2 s.trace →
    dfsel = featuresSel slot s.memory

/-- The parts of the cores around a driver that syncs. -/
def syncOutline (slot queue : ℕ) (start : SetupLog) (visits : ℕ) {D : Type}
    (drive : D × Bool → Prog (D × Bool)) :
    Outline SlotCore Op ℕ ByteStore World (SlotCore.Private (D × Bool)) where
  inv s := SetupInv slot queue start s ∧ EchoInv slot start s ∧ ShownInv slot visits s
  rely
    | .brisc => EchoRely slot queue start
    | .trisc1 => fun _ _ ↦ True
    | .trisc2 => ShownRely slot visits
    | .driver => SyncRely slot
  guarantee
    | .brisc => fun op t ↦ EchoAccess slot queue start drive op t ∧ AskedBefore slot t
    | .trisc1 => fun op _ ↦ Touches slot noStores op
    | .trisc2 => fun op t ↦ Touches slot noStores op ∨ ∃ dfsel,
        op = .l1Store (regAddr slot mmioDeviceFeatures) 4 (featureWord slot dfsel) ∧
          SeenSelected slot visits dfsel t
    | .driver => fun _ _ ↦ True
  between
    | .brisc => fun _ s ↦ Answered slot start s
    | .trisc1 => fun lastQsel _ ↦ lastQsel = queue
    | .trisc2 => fun last s ↦ shownFeatures slot s.memory = featureWord slot last ∧
        SeenSelected slot visits last s
    | .driver => fun (d : D × Bool) s ↦ d.2 = true → syncStage slot s.trace = .echoed

section Relies

variable {s'' : SlotScene}

theorem EchoRely.trans (h : EchoRely slot queue start s s')
    (h' : EchoRely slot queue start s' s'') : EchoRely slot queue start s s'' :=
  ⟨h.setup.trans h'.setup, fun polls value hasked ↦
    h.asked polls value (h'.asked polls value hasked)⟩

theorem ShownRely.trans (h : ShownRely slot visits s s') (h' : ShownRely slot visits s' s'') :
    ShownRely slot visits s s'' := by
  refine ⟨h'.shown_eq.trans h.shown_eq, h'.visits_eq.trans h.visits_eq, ?_⟩
  rcases h'.selected with ⟨hsel', hat'⟩ | hnew'
  · rw [hsel', hat']
    exact h.selected
  · rw [hnew', h.visits_eq]
    exact .inr rfl

theorem SyncRely.trans (h : SyncRely slot s s') (h' : SyncRely slot s' s'') :
    SyncRely slot s s'' := by
  refine ⟨fun polls value hasked ↦ ?_, fun hechoed ↦ h'.echoed (h.echoed hechoed)⟩
  rcases h.asked polls value hasked with hstill | hechoed
  · exact h'.asked polls value hstill
  · exact .inr (h'.echoed hechoed)

theorem SeenSelected.stable (h : SeenSelected slot visits dfsel s)
    (hstep : ShownRely slot visits s s') : SeenSelected slot visits dfsel s' := by
  intro hvisited
  rw [hstep.visits_eq] at hvisited
  rcases hstep.selected with ⟨hsel, hat⟩ | hnew
  · rw [hat] at hvisited
    exact (h hvisited).trans hsel.symm
  · exact absurd hnew hvisited.ne

theorem AskedBefore.stable (h : AskedBefore slot s) (hstep : EchoRely slot queue start s s') :
    AskedBefore slot s' := by
  intro polls value hasked
  rw [hstep.setup.passes_eq]
  exact h polls value (hstep.asked polls value hasked)

end Relies

section Parts

variable {drive : D × Bool → Prog (D × Bool)}

theorem echo_at (hslot : slot < numSlots) (hqueue : queue < maxQueuesPerSlot)
    (hs : SetupInv slot queue start s) (hasked : AskedBefore slot s) :
    (syncOutline slot queue start visits drive).At (slotCores slot drive) .brisc
      (pollOneDevice slot) s := by
  have hpoll : Ensures ((slotCores slot drive).access .brisc) (fun t t' ↦ EchoRely slot queue start
    t t' ∧ (syncOutline slot queue start visits drive).inv t') (EchoAccess slot queue start drive)
    (fun _ t ↦ SetupInv slot queue start t ∧ Answered slot start t) (pollOneDevice slot) s :=
    (echo_pollOneDevice hslot hqueue hs).restrict fun _ _ hstep ↦ ⟨hstep.1.setup, hstep.2.1⟩
  refine (hpoll.withInvariant (AskedBefore slot) hasked ?_ ?_).imp
    (fun _ _ hop ↦ hop) fun _ _ hpost ↦ hpost.1.2
  · exact fun t t' ht hstep ↦ ht.stable hstep.1
  · exact fun op t ht _ polls value hstill ↦ ht polls value (asked_of_brisc hstill)

theorem syncTrisc1_at (hs : (syncOutline slot queue start visits drive).inv s) :
    (syncOutline slot queue start visits drive).At (slotCores slot drive) .trisc1
      (watchSel slot queue) s := by
  refine ensures_read (.reg mmioQueueSel) (syncOutline slot queue start visits drive).inv
    (fun _ _ hstep _ ↦ hstep.2) hs fun t ht ↦ ⟨.load _, ?_⟩
  have hsel : cell slot (.reg mmioQueueSel) t.memory = queue := ht.1.tracked.sel
  rw [hsel, if_neg (not_not.mpr rfl)]
  rfl

theorem syncCount_at
    (hs : shownFeatures slot s.memory = featureWord slot dfsel ∧ SeenSelected slot visits dfsel s) :
    (syncOutline slot queue start visits drive).At (slotCores slot drive) .trisc2
      (do incStat statsOffDevFeatSelChanges; pure dfsel) s := by
  have hcount : (incStat statsOffDevFeatSelChanges).Performs (Touches slot noStores) :=
    touches_incStat
  refine ((Ensures.keeping (fun t ↦ shownFeatures slot t.memory = featureWord slot dfsel ∧
    SeenSelected slot visits dfsel t) hcount ?_ ?_ hs).imp
    (fun _ _ hop ↦ .inl hop.1) fun _ _ hpost ↦ hpost.2).bind fun _ t ht ↦ ⟨ht.1, ht.2⟩
  · exact fun t t' hstep ht ↦ ⟨hstep.1.shown_eq.trans ht.1, ht.2.stable hstep.1⟩
  · intro op t htouches ht
    have hkept := htouches.kept t.memory
    refine ⟨(hkept.eq _).trans ht.1, ?_⟩
    change SeenSelected slot visits dfsel (accessed .trisc2 op t)
    intro hvisited
    exact (ht.2 hvisited).trans (hkept.eq (.reg mmioDeviceFeaturesSel)).symm

theorem syncTrisc2_at (hs : shownFeatures slot s.memory = featureWord slot last) :
    (syncOutline slot queue start visits drive).At (slotCores slot drive) .trisc2
      (watchFeatures slot last) s := by
  refine ensures_read (.reg mmioDeviceFeaturesSel)
    (fun t ↦ shownFeatures slot t.memory = featureWord slot last)
    (fun t t' hstep ht ↦ hstep.1.shown_eq.trans ht) hs fun t ht ↦ ⟨.inl (.load _), ?_⟩
  have hseen : SeenSelected slot visits (cell slot (.reg mmioDeviceFeaturesSel) t.memory)
      (accessed .trisc2 (.l1Load (Cell.addr slot (.reg mmioDeviceFeaturesSel)) 4) t) := fun _ ↦ rfl
  split_ifs with hchanged
  · refine ensures_store (SeenSelected slot visits _) (fun _ _ hstep hseen ↦ hseen.stable hstep.1)
      hseen fun t' ht' ↦ ⟨.inr ⟨_, rfl, ht'⟩, syncCount_at ⟨?_, ?_⟩⟩
    · exact (cell_store_self slot (.reg mmioDeviceFeatures) _ t'.memory).trans
        (Nat.mod_eq_of_lt featureWord_lt)
    · intro hvisited
      refine (ht' hvisited).trans ?_
      exact (cell_store_of_ne (c := .reg mmioDeviceFeatures) (by decide) (by decide) (by decide)
        _ t'.memory).symm
  · have hlast := not_not.mp hchanged
    exact ⟨ht, hlast ▸ hseen⟩

theorem awaitEcho_at {d : D} {expected : ℕ} (tries : ℕ)
    (hs : (∃ polls, syncStage slot s.trace = .asked polls expected) ∨
      syncStage slot s.trace = .echoed) :
    (syncOutline slot queue start visits drive).At (slotCores slot drive) .driver
      (do let synced ← awaitEcho slot expected tries; pure (d, synced)) s := by
  -- the register shows what the driver stored until BRISC stores to it
  induction tries generalizing s with
  | zero => exact fun hsynced ↦ absurd hsynced Bool.false_ne_true
  | succ tries ih =>
    have hstable : ∀ t t', SyncRely slot t t' ∧ (syncOutline slot queue start visits drive).inv t' →
        (∃ polls, syncStage slot t.trace = .asked polls expected) ∨ syncStage slot t.trace =
        .echoed → ((∃ polls, syncStage slot t'.trace =
        .asked polls expected) ∨ syncStage slot t'.trace = .echoed) ∧ EchoInv slot start t' := by
      rintro t t' hstep (⟨polls, hasked⟩ | hechoed)
      · rcases hstep.1.asked polls expected hasked with hstill | hechoed
        · exact ⟨.inl ⟨polls, hstill⟩, hstep.2.2.1⟩
        · exact ⟨.inr hechoed, hstep.2.2.1⟩
      · exact ⟨.inr (hstep.1.echoed hechoed), hstep.2.2.1⟩
    intro t hstep
    refine ⟨trivial, ?_⟩
    obtain ⟨ht, hinv⟩ := hstable s t hstep hs
    change Ensures _ _ _ _ ((if cell slot (.reg mmioSelGeneration) t.memory ≠ expected
      then pure true else awaitEcho slot expected tries) >>= fun synced ↦ pure (d, synced)) _
    split_ifs with hecho
    · rcases ht with ⟨polls, hasked⟩ | hechoed
      · exact absurd (hinv.asked polls expected hasked).1 hecho
      · exact fun _ ↦ hechoed
    · exact ih ht

theorem virtioMmioSwImplSync_at {d : D} (hswImpl : swImpl ≠ 0) :
    (syncOutline slot queue start visits drive).At (slotCores slot drive) .driver
      (do let synced ← virtioMmioSwImplSync slot swImpl; pure (d, synced)) s := by
  unfold virtioMmioSwImplSync
  rw [if_neg hswImpl]
  refine fun t _ ↦ ⟨trivial, fun t' _ ↦ ⟨trivial, awaitEcho_at syncTries (.inl ?_)⟩⟩
  refine ⟨passes .brisc t'.trace, ?_⟩
  change (if _ then SyncStage.asked _ _ else _) = _
  rw [if_pos rfl, Nat.mod_mod]

end Parts

/-! ### The guest -/

/-- The turns around a guest that stays with its queue, leaves DEVICE_FEATURES alone, and begins a
handshake only while BRISC is between two polls and TRISC2 has completed a visit begun since the
guest stored the selector. -/
def Deliberate (slot : ℕ) (start : SetupLog) (visits : ℕ) {D : Type} (c : SlotConfig D)
    (turn : Turn SlotCore ByteStore) : Prop :=
  Staying slot start c turn ∧ ∀ op ∈ (c.rest .driver).nextOp, turn = .core .driver →
    ¬ StoresTo (regAddr slot mmioDeviceFeatures) op ∧
      (StoresTo (regAddr slot mmioSelGeneration) op → Resting .brisc c ∧
        selectedAt slot visits c.scene.trace < completed .trisc2 c)

instance (slot : ℕ) (start : SetupLog) (visits : ℕ) {D : Type} (c : SlotConfig D)
    (turn : Turn SlotCore ByteStore) : Decidable (Deliberate slot start visits c turn) :=
  inferInstanceAs (Decidable (_ ∧ _))

section Guest

variable {offset value : ℕ} {drive : D → Prog D}

theorem syncStage_store (slot offset value : ℕ) (s : SlotScene) :
    syncStage slot (guestStored slot offset value s).trace =
      if offset = mmioSelGeneration then .asked (passes .brisc s.trace) (value % 2 ^ 32)
      else .idle := by
  change (if regAddr slot offset = regAddr slot mmioSelGeneration then _ else _) = _
  simp only [regAddr, Nat.add_left_cancel_iff]

theorem selectedAt_store (slot visits offset value : ℕ) (s : SlotScene) :
    selectedAt slot visits (guestStored slot offset value s).trace =
      if offset = mmioDeviceFeaturesSel then passes .trisc2 s.trace
      else selectedAt slot visits s.trace := by
  change (if regAddr slot offset = regAddr slot mmioDeviceFeaturesSel then _ else _) = _
  simp only [regAddr, Nat.add_left_cancel_iff]

/-- A store of the guest begins a handshake or ends it. -/
theorem EchoInv.driver (h : EchoInv slot start s)
    (hrely : SetupRely slot queue start s (guestStored slot offset value s)) :
    EchoInv slot start (guestStored slot offset value s) := by
  have hsince : ∀ config since, setupStage slot start (guestStored slot offset value s) =
    .offered config since →
      since ≤ passes .brisc s.trace := by
    intro config since hoffered
    rcases hrely.since config since hoffered with hbefore | hnew
    · exact h.since_le config since hbefore
    · exact hnew.le
  by_cases hgen : offset = mmioSelGeneration
  · subst hgen
    constructor
    · exact hsince
    · intro polls asked hasked
      rw [syncStage_store, if_pos rfl] at hasked
      obtain ⟨rfl, rfl⟩ := SyncStage.asked.inj hasked
      exact ⟨cell_store_self slot (.reg mmioSelGeneration) value s.memory, le_rfl, hsince⟩
    · intro hechoed
      rw [syncStage_store, if_pos rfl] at hechoed
      exact nomatch hechoed
  · have hidle := syncStage_store slot offset value s
    rw [if_neg hgen] at hidle
    constructor
    · exact hsince
    · intro polls asked hasked
      exact nomatch (hidle.symm.trans hasked)
    · intro hechoed
      exact nomatch (hidle.symm.trans hechoed)

/-- A store of the guest to another register than DEVICE_FEATURES, and to SEL_GENERATION only when
the selected half is shown. -/
theorem ShownInv.driver (h : ShownInv slot visits s) (value : ℕ)
    (hvalid : (Cell.reg offset).Valid) (hword : offset ≠ mmioDeviceFeatures)
    (hask : offset = mmioSelGeneration →
      selectedAt slot visits s.trace < passes .trisc2 s.trace ∧
        ShowsSelected slot s.memory) :
    ShownInv slot visits (guestStored slot offset value s) ∧
      ShownRely slot visits s (guestStored slot offset value s) := by
  have hkept := driver_kept slot value hvalid s
  have hwordKept : Spared (fun c _ ↦ c = .reg offset) (.reg mmioDeviceFeatures) :=
    fun _ ↦ decide_eq_false fun heq ↦ hword (Cell.reg.inj heq).symm
  have hvisits : passes .trisc2 (guestStored slot offset value s).trace =
    passes .trisc2 s.trace := rfl
  have hat := selectedAt_store slot visits offset value s
  have hstage := syncStage_store slot offset value s
  have hshown : shownFeatures slot (guestStored slot offset value s).memory =
    shownFeatures slot s.memory :=
    hkept (.reg mmioDeviceFeatures) (by decide) hwordKept
  by_cases hsel : offset = mmioDeviceFeaturesSel
  · subst hsel
    rw [if_pos rfl] at hat
    refine ⟨⟨fun hlate ↦ ?_, fun hne ↦ absurd hstage hne⟩, hshown, hvisits, .inr hat⟩
    omega
  · rw [if_neg hsel] at hat
    have hselKept : Spared (fun c _ ↦ c = .reg offset) (.reg mmioDeviceFeaturesSel) :=
      fun _ ↦ decide_eq_false fun heq ↦ hsel (Cell.reg.inj heq).symm
    refine ⟨⟨fun hlate ↦ ?_, fun hne ↦ ?_⟩, hshown, hvisits,
      .inl ⟨hkept (.reg mmioDeviceFeaturesSel) (by decide) hselKept, hat⟩⟩
    · rw [hat, hvisits] at hlate
      exact (h.shown hlate).kept hkept hwordKept hselKept
    · by_cases hgen : offset = mmioSelGeneration
      · obtain ⟨hvisited, hshows⟩ := hask hgen
        rw [hat, hvisits]
        exact ⟨hvisited, hshows.kept hkept hwordKept hselKept⟩
      · rw [if_neg hgen] at hstage
        exact absurd hstage hne

end Guest

/-! ### The system -/

section System

variable {drive : D × Bool → Prog (D × Bool)} {c : SlotConfig (D × Bool)}

/-- A step that leaves the cells and the logs alone suits everybody. -/
theorem syncOutline_quiet (hqueue : queue < maxQueuesPerSlot)
    (hinv : (syncOutline slot queue start visits drive).inv s)
    (hkept : CellsKept slot stores s.memory s'.memory) (hspares : Spares stores)
    (hlogs : LogsKept slot start visits s s')
    (hstatus : SparesStatus stores := by exact ⟨fun _ ↦ rfl, fun _ ↦ rfl⟩)
    (hgen : Spared stores (.reg mmioSelGeneration) := by exact fun _ ↦ rfl)
    (hword : Spared stores (.reg mmioDeviceFeatures) := by exact fun _ ↦ rfl)
    (hsel : Spared stores (.reg mmioDeviceFeaturesSel) := by exact fun _ ↦ rfl) :
    (syncOutline slot queue start visits drive).inv s' ∧
      ∀ core, (syncOutline slot queue start visits drive).rely core s s' := by
  obtain ⟨hsetup, hecho, hshown⟩ := hinv
  refine ⟨⟨⟨hkept.live hsetup.live hstatus, hsetup.tracked.kept hqueue hkept hspares hlogs.setup_eq
    hlogs.polls_eq⟩, hecho.kept hkept hgen (hspares _ rfl) hlogs, hshown.kept hkept hword hsel
    hlogs.sync_eq.trans hlogs.selected_eq hlogs.visits_eq⟩, fun core ↦ ?_⟩
  cases core with
  | brisc => exact ⟨.of_kept hkept hspares hstatus.snap (.inl (hkept.status_eq hstatus.word))
      hlogs.setup_eq hlogs.polls_eq, fun _ _ hasked ↦ hlogs.sync_eq.symm.trans hasked⟩
  | trisc1 => trivial
  | trisc2 => exact ⟨hkept _ (by decide) hword, hlogs.visits_eq,
      .inl ⟨hkept _ (by decide) hsel, hlogs.selected_eq⟩⟩
  | driver => exact ⟨fun _ _ hasked ↦ .inl (hlogs.sync_eq.trans hasked), hlogs.sync_eq.trans⟩

/-- After a visit the selected half is shown. -/
theorem shows_of_completed
    (h : (syncOutline slot queue start visits drive).Holds (slotCores slot drive) c)
    (hvisited : selectedAt slot visits c.scene.trace < completed .trisc2 c) :
    selectedAt slot visits c.scene.trace < passes .trisc2 c.scene.trace ∧
      ShowsSelected slot c.scene.memory := by
  have htrisc2 := h.at_rest .trisc2
  unfold completed at hvisited
  cases hrest : c.rest .trisc2 with
  | done last =>
    rw [hrest] at hvisited htrisc2
    refine ⟨hvisited, htrisc2.1.trans ?_⟩
    rw [htrisc2.2 hvisited]
  | step op next =>
    rw [hrest] at hvisited
    simp only at hvisited
    refine ⟨by omega, h.inv.2.2.shown (by omega)⟩

theorem Deliberate.step (h : Deliberate slot start visits c (.core .driver))
    {next : ℕ → Prog (D × Bool)} (hrest : c.rest .driver = .step op next)
    (hqueue : queue < maxQueuesPerSlot)
    (hholds : (syncOutline slot queue start visits drive).Holds (slotCores slot drive) c) :
    (syncOutline slot queue start visits drive).inv (accessed .driver op c.scene) ∧
      ∀ other, other ≠ .driver → (syncOutline slot queue start visits drive).Admissible c other
        (accessed .driver op c.scene) := by
  have hnext : op ∈ (c.rest .driver).nextOp := by rw [hrest]; rfl
  obtain ⟨hinv, hecho, hshown⟩ := hholds.inv
  obtain ⟨hsetup, hrely⟩ := h.1.step hrest hqueue hinv
  obtain ⟨horder, -⟩ := h.1 op hnext
  obtain ⟨hword, hask⟩ := h.2 op hnext rfl
  cases op with
  | l1Load addr size =>
    have hkept : CellsKept slot noStores c.scene.memory (accessed .driver
      (.l1Load addr size) c.scene).memory := fun _ _ _ ↦ rfl
    obtain ⟨hinv', hothers⟩ := syncOutline_quiet hqueue hholds.inv hkept spares_noStores
      (logsKept_load slot start visits addr size c.scene)
    exact ⟨hinv', fun other _ ↦ .inl (hothers other)⟩
  | l1Store addr size value =>
    obtain ⟨rfl, offset, hoffset, haligned, rfl, -⟩ := horder
    have hwordNe : offset ≠ mmioDeviceFeatures := fun heq ↦ hword (congrArg (regAddr slot) heq)
    have hready : offset = mmioSelGeneration → Resting .brisc c ∧ selectedAt slot visits
      c.scene.trace < completed .trisc2 c := fun heq ↦ hask (congrArg (regAddr slot) heq)
    obtain ⟨hshown', htrisc2⟩ := hshown.driver value ⟨haligned, hoffset⟩ hwordNe
      fun heq ↦ shows_of_completed hholds (hready heq).2
    refine ⟨⟨hsetup, hecho.driver hrely, hshown'⟩, fun other hother ↦ ?_⟩
    cases other with
    | driver => exact absurd rfl hother
    | trisc1 => exact .inl trivial
    | trisc2 => exact .inl htrisc2
    | brisc =>
      by_cases hgen : offset = mmioSelGeneration
      · -- BRISC is between two polls, so nothing that it has read is older than the question
        obtain ⟨result, hdone⟩ := (hready hgen).1.exists_done
        have hanswered := hholds.at_rest .brisc
        rw [hdone] at hanswered
        exact .inr ⟨result, hdone, Answered.stable hanswered hrely⟩
      · refine .inl ⟨hrely, fun polls asked hasked ↦ ?_⟩
        rw [syncStage_store, if_neg hgen] at hasked
        exact nomatch hasked
  | _ => exact absurd horder not_false

theorem EchoAccess.step (h : EchoAccess slot queue start drive op c.scene)
    (hasked : AskedBefore slot c.scene)
    (hinv : (syncOutline slot queue start visits drive).inv c.scene) :
    (syncOutline slot queue start visits drive).inv (accessed .brisc op c.scene) ∧
      ∀ other, other ≠ .brisc → (syncOutline slot queue start visits drive).Admissible c other
        (accessed .brisc op c.scene) := by
  have hkept := h.touches_poll.kept c.scene.memory
  refine ⟨⟨h.inv, hinv.2.1.brisc h hasked, hinv.2.2.brisc h⟩, fun other hother ↦ .inl ?_⟩
  cases other with
  | brisc => exact absurd rfl hother
  | trisc1 => trivial
  | trisc2 =>
    have hselected : selectedAt slot visits (accessed .brisc op c.scene).trace =
        selectedAt slot visits c.scene.trace := by cases op <;> rfl
    exact ⟨hkept.eq _, rfl, .inl ⟨hkept.eq _, hselected⟩⟩
  | driver =>
    rcases syncStage_brisc slot op c.scene with heq | ⟨-, hechoed⟩
    · exact ⟨fun _ _ hasked ↦ .inl (heq.trans hasked), heq.trans⟩
    · exact ⟨fun _ _ _ ↦ .inr hechoed, fun _ ↦ hechoed⟩

theorem SeenSelected.step (h : SeenSelected slot visits dfsel c.scene)
    (hqueue : queue < maxQueuesPerSlot)
    (hinv : (syncOutline slot queue start visits drive).inv c.scene) :
    (syncOutline slot queue start visits drive).inv (accessed .trisc2
        (.l1Store (regAddr slot mmioDeviceFeatures) 4 (featureWord slot dfsel)) c.scene) ∧
      ∀ other, other ≠ .trisc2 → (syncOutline slot queue start visits drive).Admissible c other
        (accessed .trisc2
          (.l1Store (regAddr slot mmioDeviceFeatures) 4 (featureWord slot dfsel)) c.scene) := by
  have htouches : Touches slot featureStores (.l1Store (regAddr slot mmioDeviceFeatures) 4
    (featureWord slot dfsel)) := .store (.reg mmioDeviceFeatures) _ (by decide) rfl
  have hkept := htouches.kept c.scene.memory
  have hlogs := logsKept_access slot start visits .trisc2 (by decide) (by decide)
    (.l1Store (regAddr slot mmioDeviceFeatures) 4 (featureWord slot dfsel)) c.scene
  have hspares : Spares featureStores := spares_register
  obtain ⟨hsetup, hecho, hshown⟩ := hinv
  -- what TRISC2 stores is the selected half unless the selector has changed during the visit
  have hshows : selectedAt slot visits c.scene.trace < passes .trisc2 c.scene.trace →
      ShowsSelected slot (accessed .trisc2 (.l1Store (regAddr slot mmioDeviceFeatures) 4
      (featureWord slot dfsel)) c.scene).memory := by
    intro hvisited
    have hword := cell_store_self slot (.reg mmioDeviceFeatures) (featureWord slot dfsel)
      c.scene.memory
    rw [Nat.mod_eq_of_lt featureWord_lt] at hword
    refine hword.trans (congrArg (featureWord slot) ((h hvisited).trans ?_))
    exact (hkept.eq (.reg mmioDeviceFeaturesSel)).symm
  refine ⟨⟨⟨hkept.live hsetup.live,
    hsetup.tracked.kept hqueue hkept hspares hlogs.setup_eq hlogs.polls_eq⟩,
    hecho.kept hkept (fun _ ↦ rfl) (fun _ ↦ rfl) hlogs, ?_⟩, fun other hother ↦ .inl ?_⟩
  · constructor
    · intro hlate
      rw [hlogs.selected_eq, hlogs.visits_eq] at hlate
      exact hshows (by omega)
    · intro hne
      exact ⟨(hshown.synced hne).1, hshows (hshown.synced hne).1⟩
  · cases other with
    | trisc2 => exact absurd rfl hother
    | trisc1 => trivial
    | brisc => exact ⟨.of_kept hkept hspares (fun _ ↦ rfl) (.inl hkept.status_eq)
        hlogs.setup_eq hlogs.polls_eq, fun _ _ hasked ↦ hlogs.sync_eq.symm.trans hasked⟩
    | driver => exact ⟨fun _ _ hasked ↦ .inl (hlogs.sync_eq.trans hasked), hlogs.sync_eq.trans⟩

theorem logsKept_pass (slot : ℕ) (start : SetupLog) (visits : ℕ) {core : SlotCore}
    (hbrisc : core ≠ .brisc) (htrisc2 : core ≠ .trisc2) (s : SlotScene) :
    LogsKept slot start visits s (pass core s) :=
  ⟨rfl, rfl, rfl, if_neg hbrisc, if_neg htrisc2⟩

theorem syncOutline_poll (hslot : slot < numSlots) (hqueue : queue < maxQueuesPerSlot)
    (hinv : (syncOutline slot queue start visits drive).inv s) (hanswered : Answered slot start s) :
    (syncOutline slot queue start visits drive).inv (pass .brisc s) ∧
      (syncOutline slot queue start visits drive).At (slotCores slot drive) .brisc
        (pollOneDevice slot) (pass .brisc s) := by
  obtain ⟨hsetup, hecho, hshown⟩ := hinv
  have hsetup' := hsetup.beginPoll hanswered
  have hecho' : EchoInv slot start (pass .brisc s) := by
    constructor
    · intro config since hoffered
      exact Nat.le_succ_of_le (hecho.since_le config since hoffered)
    · intro polls value hasked
      obtain ⟨hvalue, hle, hsince⟩ := hecho.asked polls value hasked
      exact ⟨hvalue, Nat.le_succ_of_le hle, hsince⟩
    · exact hecho.echoed
  refine ⟨⟨hsetup', hecho', hshown.shown, hshown.synced⟩, echo_at hslot hqueue hsetup' ?_⟩
  intro polls value hasked
  exact Nat.lt_succ_of_le (hecho.asked polls value hasked).2.1

theorem syncOutline_visit (hqueue : queue < maxQueuesPerSlot)
    (hinv : (syncOutline slot queue start visits drive).inv s)
    (hlast : shownFeatures slot s.memory = featureWord slot last ∧
      SeenSelected slot visits last s) :
    (syncOutline slot queue start visits drive).inv (pass .trisc2 s) ∧
      (syncOutline slot queue start visits drive).At (slotCores slot drive) .trisc2
        (watchFeatures slot last) (pass .trisc2 s) := by
  obtain ⟨hsetup, hecho, hshown⟩ := hinv
  have hshown' : ShownInv slot visits (pass .trisc2 s) := by
    constructor
    · intro hlate
      refine hlast.1.trans (congrArg (featureWord slot) (hlast.2 ?_))
      exact Nat.lt_of_succ_lt_succ hlate
    · intro hne
      exact ⟨Nat.lt_succ_of_lt (hshown.synced hne).1, (hshown.synced hne).2⟩
  exact ⟨⟨hsetup.pass hqueue (by decide), ⟨hecho.since_le, hecho.asked, hecho.echoed⟩, hshown'⟩,
    syncTrisc2_at hlast.1⟩

theorem syncOutline_sound {block : D → Prog D} (hslot : slot < numSlots)
    (hqueue : queue < maxQueuesPerSlot) (hswImpl : swImpl ≠ 0) :
    (syncOutline slot queue start visits (syncedDrive slot swImpl block)).Sound
      (slotCores slot (syncedDrive slot swImpl block)) (Deliberate slot start visits) := by
  apply Outline.Sound.ofRely
  case hrefl =>
    intro core s
    cases core with
    | brisc => exact ⟨.refl slot queue start s, fun _ _ hasked ↦ hasked⟩
    | trisc1 => trivial
    | trisc2 => exact ⟨rfl, rfl, .inl ⟨rfl, rfl⟩⟩
    | driver => exact ⟨fun _ _ hasked ↦ .inl hasked, id⟩
  case htrans =>
    intro core s s' s'' h h'
    cases core with
    | brisc => exact EchoRely.trans h h'
    | trisc1 => trivial
    | trisc2 => exact ShownRely.trans h h'
    | driver => exact SyncRely.trans h h'
  case hstable =>
    intro core result s s' hstep h
    cases core with
    | brisc => exact Answered.stable h hstep.setup
    | trisc1 => exact h
    | trisc2 => exact ⟨hstep.shown_eq.trans h.1, SeenSelected.stable h.2 hstep⟩
    | driver => exact fun hsynced ↦ hstep.echoed (h hsynced)
  case hpass =>
    intro core other s hother
    have hkept : CellsKept slot noStores s.memory s.memory := fun _ _ _ ↦ rfl
    cases other with
    | brisc => exact ⟨.of_kept hkept spares_noStores (fun _ ↦ rfl) (.inl rfl) rfl
        (if_neg hother.symm), fun _ _ hasked ↦ hasked⟩
    | trisc1 => trivial
    | trisc2 => exact ⟨rfl, if_neg hother.symm, .inl ⟨rfl, rfl⟩⟩
    | driver => exact ⟨fun _ _ hasked ↦ .inl hasked, id⟩
  case hloop =>
    intro core result s hinv h
    have hkept : CellsKept slot noStores s.memory (pass core s).memory := fun _ _ _ ↦ rfl
    have hquiet : core ≠ .brisc → core ≠ .trisc2 → (syncOutline slot queue start visits
        (syncedDrive slot swImpl block)).inv (pass core s) := by
      intro hbrisc htrisc2
      exact (syncOutline_quiet hqueue hinv hkept spares_noStores
        (logsKept_pass slot start visits hbrisc htrisc2 s)).1
    cases core with
    | brisc => exact syncOutline_poll hslot hqueue hinv h
    | trisc1 =>
      obtain rfl : result = queue := h
      have hinv' := hquiet (by decide) (by decide)
      exact ⟨hinv', syncTrisc1_at hinv'⟩
    | trisc2 => exact syncOutline_visit hqueue hinv h
    | driver =>
      refine ⟨hquiet (by decide) (by decide), ?_⟩
      refine Ensures.bind (ensures_true _ _) fun next t _ ↦ ?_
      exact virtioMmioSwImplSync_at hswImpl
  case haccess =>
    intro c core op next hallowed hrest hguar h
    have hquiet : core ≠ .brisc → core ≠ .driver → Touches slot noStores op → (syncOutline slot
        queue start visits (syncedDrive slot swImpl block)).inv ((slotCores slot (syncedDrive slot
        swImpl block)).access core op c.scene).2 ∧ ∀ other, other ≠ core → (syncOutline slot queue
        start visits (syncedDrive slot swImpl block)).Admissible c other ((slotCores slot
        (syncedDrive slot swImpl block)).access core op c.scene).2 := by
      intro hbrisc hdriver htouches
      obtain ⟨hinv, hothers⟩ := syncOutline_quiet hqueue h.inv (htouches.kept c.scene.memory)
        spares_noStores (logsKept_access slot start visits core hbrisc hdriver op c.scene)
      exact ⟨hinv, fun other _ ↦ .inl (hothers other)⟩
    cases core with
    | brisc => exact hguar.1.step hguar.2 h.inv
    | trisc1 => exact hquiet (by decide) (by decide) hguar
    | trisc2 =>
      rcases hguar with htouches | ⟨dfsel, rfl, hseen⟩
      · exact hquiet (by decide) (by decide) htouches
      · exact hseen.step hqueue h.inv
    | driver => exact hallowed.step hrest hqueue h
  case hact =>
    intro c event hallowed h
    obtain ⟨hinv, hothers⟩ := syncOutline_quiet hqueue h.inv (Outsider.kept
      (syncedDrive slot swImpl block) hallowed.1 c.scene) spares_register ⟨rfl, rfl, rfl, rfl, rfl⟩
    exact ⟨hinv, fun core ↦ .inl (hothers core)⟩

/-- Where the driver begins: it has selected the queue, BRISC and TRISC1 have noticed, TRISC2 is
between two visits and DEVICE_FEATURES shows the half that it saw selected last. -/
structure Attentive (slot queue : ℕ) (start : SetupLog) (visits : ℕ)
    (c : SlotConfig (D × Bool)) : Prop where
  noticed : Noticed slot queue start c
  idle : syncStage slot c.scene.trace = .idle
  trisc2 : ∃ last : ℕ, (c.rest .trisc2).finished = some last ∧
    shownFeatures slot c.scene.memory = featureWord slot last ∧
      SeenSelected slot visits last c.scene
  driver : ∃ d : D, driverKeeps c = some (d, false)

theorem Attentive.holds (h : Attentive slot queue start visits c)
    (drive : D × Bool → Prog (D × Bool)) :
    (syncOutline slot queue start visits drive).Holds (slotCores slot drive) c := by
  obtain ⟨last, htrisc2, hshown, hseen⟩ := h.trisc2
  obtain ⟨d, hdriver⟩ := h.driver
  have hbefore := h.noticed.holds drive
  have hfresh : ∀ config since, setupStage slot start c.scene ≠ .offered config since := by
    intro config since hoffered
    rw [h.noticed.filling] at hoffered
    exact nomatch hoffered
  refine ⟨⟨hbefore.inv, ⟨?_, ?_, ?_⟩, ?_, ?_⟩, fun core ↦ ?_⟩
  · exact fun config since hoffered ↦ absurd hoffered (hfresh config since)
  · exact fun polls value hasked ↦ nomatch (h.idle.symm.trans hasked)
  · exact fun hechoed ↦ nomatch (h.idle.symm.trans hechoed)
  · exact fun hlate ↦ hshown.trans (congrArg (featureWord slot) (hseen (by omega)))
  · exact fun hne ↦ absurd h.idle hne
  cases core with
  | brisc =>
    obtain ⟨result, hdone⟩ := h.noticed.brisc.exists_done
    rw [hdone]
    exact fun config since hoffered ↦ absurd hoffered (hfresh config since)
  | trisc1 => exact Ensures.ofAlways h.noticed.trisc1 _
  | trisc2 =>
    rw [Program.eq_done_of_finished htrisc2]
    exact ⟨hshown, hseen⟩
  | driver =>
    rw [Program.eq_done_of_finished hdriver]
    exact fun hsynced ↦ absurd hsynced Bool.false_ne_true

/-- When a handshake has succeeded, what precedes it is in place. Assumes: a slot of the engine and
a queue below the bound; the driver has read a nonzero SW_IMPL; it begins with the queue selected
and noticed, and with TRISC2 between two visits and the half shown that TRISC2 saw selected last;
each of its passes is any program followed by a handshake, and keeps to the order of a setup without
another QUEUE_SEL and without a reset; when it adds one to SEL_GENERATION, BRISC is between two
polls and TRISC2 has completed a visit begun since the guest stored DEVICE_FEATURES_SEL. -/
theorem sync_in_place (hslot : slot < numSlots) (hqueue : queue < maxQueuesPerSlot)
    (block : D → Prog D) {swImpl : ℕ} (hswImpl : swImpl ≠ 0) {c : SlotConfig (D × Bool)}
    (h : Attentive slot queue start visits c) {turns : List (Turn SlotCore ByteStore)}
    (hturns : (slotCores slot (syncedDrive slot swImpl block)).Admits
      (Deliberate slot start visits) c turns) {d : D}
    (hsynced : driverKeeps ((slotCores slot (syncedDrive slot swImpl block)).follow c turns) =
      some (d, true)) :
    ShowsSelected slot
        ((slotCores slot (syncedDrive slot swImpl block)).follow c turns).scene.memory ∧
      ∀ config since, setupStage slot start
          ((slotCores slot (syncedDrive slot swImpl block)).follow c turns).scene =
            .offered config since →
        Captured slot queue config
          ((slotCores slot (syncedDrive slot swImpl block)).follow c turns).scene.memory := by
  have hfinal := (syncOutline_sound hslot hqueue hswImpl).follow (h.holds _) hturns
  obtain ⟨hsetup, hecho, hshown⟩ := hfinal.inv
  have hechoed := hfinal.at_rest .driver
  rw [Program.eq_done_of_finished hsynced] at hechoed
  replace hechoed := hechoed rfl
  refine ⟨(hshown.synced ?_).2, fun config since hoffered ↦ ?_⟩
  · rw [hechoed]
    exact nofun
  · have hholds := hsetup.tracked.holds
    rw [hoffered] at hholds
    exact hholds.2.1 (hecho.echoed hechoed config since hoffered)

end System

/-- The register stores of a driver, one block in each pass. -/
def writeBlocks (slot : ℕ) : List (List (ℕ × ℕ)) → Prog (List (List (ℕ × ℕ)))
  | [] => pure []
  | block :: blocks => do
    block.forM fun write ↦ storeU32 (regAddr slot write.1) write.2
    pure blocks

/-- A driver with some blocks to write, in a slot where queue `1` has been noticed and
DEVICE_FEATURES shows the low half. -/
def aboutToWrite (blocks : List (List (ℕ × ℕ))) : SlotConfig (List (List (ℕ × ℕ)) × Bool) :=
  betweenPasses (l1World [(regAddr 1 mmioQueueSel, 4, 1), (snapAddr 1 snapOffQueueSel, 4, 1),
    (regAddr 1 mmioDeviceFeatures, 4, featureWord 1 0)]) 1 0 (blocks, false)

/-- The driver selects the high half and sets up the queue, TRISC2 visits the slot, the driver asks
and BRISC polls. -/
def deliberateTurns : List (Turn SlotCore ByteStore) :=
  List.replicate 11 (.core .driver) ++ List.replicate 5 (.core .trisc2) ++ [.core .driver] ++
    List.replicate 60 (.core .brisc) ++ [.core .driver]

theorem sync_in_place_deliberate :
    ShowsSelected 1 ((slotCores 1 (syncedDrive 1 1 (writeBlocks 1))).follow
        (aboutToWrite [(mmioDeviceFeaturesSel, 1) :: smallQueue]) deliberateTurns).scene.memory ∧
      Captured 1 1 [4, 0x1000, 0, 0x2000, 0, 0x3000, 0]
        ((slotCores 1 (syncedDrive 1 1 (writeBlocks 1))).follow
          (aboutToWrite [(mmioDeviceFeaturesSel, 1) :: smallQueue])
          deliberateTurns).scene.memory := by
  have hnoticed : Noticed 1 1 ⟨1, .filling [], []⟩ (aboutToWrite [(mmioDeviceFeaturesSel,
    1) :: smallQueue]) := ⟨rfl, by decide +kernel, by decide +kernel, by decide +kernel,
    by decide +kernel, rfl, rfl, trivial⟩
  have hshown : shownFeatures 1 (aboutToWrite [(mmioDeviceFeaturesSel,
      1) :: smallQueue]).scene.memory = featureWord 1 0 := by decide +kernel
  have hstart : Attentive 1 1 ⟨1, .filling [], []⟩ 0
      (aboutToWrite [(mmioDeviceFeaturesSel, 1) :: smallQueue]) :=
    ⟨hnoticed, rfl, ⟨0, rfl, hshown, fun hvisited ↦ absurd hvisited (lt_irrefl 0)⟩, ⟨_, rfl⟩⟩
  have hturns : (slotCores 1 (syncedDrive 1 1 (writeBlocks 1))).Admits (Deliberate 1 ⟨1, .filling
      [], []⟩ 0) (aboutToWrite [(mmioDeviceFeaturesSel, 1) :: smallQueue]) deliberateTurns := by
    decide +kernel
  have hsynced : driverKeeps ((slotCores 1 (syncedDrive 1 1 (writeBlocks 1))).follow
      (aboutToWrite [(mmioDeviceFeaturesSel, 1) :: smallQueue]) deliberateTurns) =
        some ([], true) := by decide +kernel
  have hoffered : setupStage 1 ⟨1, .filling [], []⟩ ((slotCores 1 (syncedDrive 1 1
      (writeBlocks 1))).follow (aboutToWrite [(mmioDeviceFeaturesSel, 1) :: smallQueue])
      deliberateTurns).scene = .offered [4, 0x1000, 0, 0x2000, 0, 0x3000, 0] 0 := by decide +kernel
  have hplace := sync_in_place (by decide) (by decide) (writeBlocks 1) (by decide) hstart hturns
    hsynced
  exact ⟨hplace.1, hplace.2 _ _ hoffered⟩

/-- The handshake succeeds without TRISC2: the driver selects the high half and reads the low one.
It succeeds in a poll whose QUEUE_READY phase is over when the driver offers its configuration, and
the shadow holds nothing. -/
theorem echo_without_effect :
    let cores := slotCores 1 (syncedDrive 1 1 (writeBlocks 1))
    let selected := cores.follow (aboutToWrite [[(mmioDeviceFeaturesSel, 1)]])
      (List.replicate 4 (.core .driver) ++ List.replicate 30 (.core .brisc) ++ [.core .driver])
    let offered := cores.follow (aboutToWrite [smallQueue])
      (List.replicate 6 (.core .brisc) ++ List.replicate 11 (.core .driver) ++
        List.replicate 14 (.core .brisc) ++ [.core .driver])
    (driverKeeps selected = some ([], true) ∧
        featuresSel 1 selected.scene.memory = 1 ∧
        shownFeatures 1 selected.scene.memory = featureWord 1 0 ∧
        featureWord 1 0 ≠ featureWord 1 1) ∧
      driverKeeps offered = some ([], true) ∧
        setupStage 1 ⟨1, .filling [], []⟩ offered.scene =
          .offered [4, 0x1000, 0, 0x2000, 0, 0x3000, 0] 1 ∧
        shadowReady 1 1 offered.scene.memory = 0 := by
  decide +kernel

end Bhx.Firmware
