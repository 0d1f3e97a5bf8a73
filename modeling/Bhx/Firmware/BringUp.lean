import Bhx.Firmware.Boot

/-!
# The handshake of the bring-up

The magic of the stats page is stored before the control page is cleared, and the control page is
not cleared before BRISC is released. So the magic says neither that this boot's firmware is past
the clearing nor, when it is the magic of an earlier boot, that this boot's firmware has run at
all: the hello can be cleared away, and an acknowledgement of an earlier boot can be taken for this
one's (`stale_boot_acknowledged`).

When the hello is stored only after BRISC has finished `init_proto` (`AfterInitProto`), neither
happens, from any content of L1 and in any interleaving (`hello_acknowledged`). The argument is an
invariant of the two messages (`HandshakeInv`): once the control page is cleared, it holds no hello
but this daemon's and no acknowledgement but this boot's.
-/

set_option autoImplicit false

namespace Bhx.Firmware

open SharedMemory Machine L1Layout List Cores

variable {phase : BriscPhase}

/-- The daemon stores its hello only when BRISC has finished `init_proto`, and nobody else stores
into the messages. -/
def AfterInitProto (c : BootConfig) : Turn BootCore ByteStore → Prop
  | .core .brisc => True
  | .core .daemon =>
    (c.rest .daemon).nextOp = some helloVersionStore ∨
      (c.rest .daemon).nextOp = some helloMagicStore → ProtoCleared c.scene.trace
  | .act event => OffHandshake event.addr

instance (c : BootConfig) : (turn : Turn BootCore ByteStore) → Decidable (AfterInitProto c turn)
  | .core .brisc => inferInstanceAs (Decidable True)
  | .core .daemon => inferInstanceAs (Decidable (_ ∨ _ → _))
  | .act _ => inferInstanceAs (Decidable (OffHandshake _))

/-! ### The invariant -/

/-- The messages and what has been said agree. -/
structure HandshakeInv (buildId : ℕ) (s : BootScene) : Prop where
  version : (handshakeLog s.trace).version = true → ProtoCleared s.trace ∧
    l1Word (helloAddr helloOffProtocolVersion) s.memory = protocolVersion
  hello : (handshakeLog s.trace).hello = true → (handshakeLog s.trace).version = true ∧
    l1Word (helloAddr helloOffMagic) s.memory = helloMagic
  /-- Once the control page is cleared, it holds no hello but this daemon's. -/
  silent : ProtoCleared s.trace → (handshakeLog s.trace).hello = false →
    l1Word (helloAddr helloOffMagic) s.memory = 0
  /-- Once the control page is cleared, it holds no acknowledgement but this boot's. -/
  unanswered : ProtoCleared s.trace → (handshakeLog s.trace).acked = false →
    l1Word (helloAckAddr helloAckOffMagic) s.memory = 0
  answered : (handshakeLog s.trace).acked = true → ProtoCleared s.trace ∧
    l1Word (helloAckAddr helloAckOffProtocolVersion) s.memory = protocolVersion ∧
    l1Word (helloAckAddr helloAckOffFirmwareVersion) s.memory = fwVersion buildId

variable {s s' : BootScene}

section Inv

variable {buildId : ℕ}

/-- Nothing is said before the control page is cleared. -/
theorem HandshakeInv.uncleared (h : HandshakeInv buildId s) (hcleared : ¬ ProtoCleared s.trace) :
    handshakeLog s.trace = ⟨false, false, false⟩ := by
  have hversion : (handshakeLog s.trace).version = false :=
    Bool.eq_false_iff.mpr fun hsaid ↦ hcleared (h.version hsaid).1
  have hhello : (handshakeLog s.trace).hello = false :=
    Bool.eq_false_iff.mpr fun hsaid ↦ hcleared (h.version (h.hello hsaid).1).1
  have hacked : (handshakeLog s.trace).acked = false :=
    Bool.eq_false_iff.mpr fun hsaid ↦ hcleared (h.answered hsaid).1
  exact HandshakeLog.ext hversion hhello hacked

theorem HandshakeInv.of_silence (hlog : handshakeLog s.trace = ⟨false, false, false⟩)
    (hwords : ProtoCleared s.trace → l1Word (helloAddr helloOffMagic) s.memory = 0 ∧
      l1Word (helloAckAddr helloAckOffMagic) s.memory = 0) : HandshakeInv buildId s := by
  constructor <;> rw [hlog]
  · exact fun hsaid ↦ absurd hsaid Bool.false_ne_true
  · exact fun hsaid ↦ absurd hsaid Bool.false_ne_true
  · exact fun hcleared _ ↦ (hwords hcleared).1
  · exact fun hcleared _ ↦ (hwords hcleared).2
  · exact fun hsaid ↦ absurd hsaid Bool.false_ne_true

/-- The invariant depends on the messages and on what has been said. -/
theorem HandshakeInv.congr (h : HandshakeInv buildId s)
    (hlog : handshakeLog s'.trace = handshakeLog s.trace)
    (hcleared : ProtoCleared s'.trace ↔ ProtoCleared s.trace)
    (hwords : ∀ addr ∈ handshakeWords, l1Word addr s'.memory = l1Word addr s.memory) :
    HandshakeInv buildId s' := by
  have hversion := hwords (helloAddr helloOffProtocolVersion) (by decide)
  have hmagic := hwords (helloAddr helloOffMagic) (by decide)
  have hprotocol := hwords (helloAckAddr helloAckOffProtocolVersion) (by decide)
  have hfirmware := hwords (helloAckAddr helloAckOffFirmwareVersion) (by decide)
  have hack := hwords (helloAckAddr helloAckOffMagic) (by decide)
  constructor <;> simp only [hlog, hcleared, hversion, hmagic, hprotocol, hfirmware, hack]
  · exact h.version
  · exact h.hello
  · exact h.silent
  · exact h.unanswered
  · exact h.answered

end Inv

/-! ### The parts of the two parties -/

/-- The store of the acknowledgement's protocol version. -/
def ackProtocolStore : Op :=
  .l1Store (helloAckAddr helloAckOffProtocolVersion) 4 protocolVersion

/-- The store of the acknowledgement's firmware version. -/
def ackFirmwareStore (buildId : ℕ) : Op :=
  .l1Store (helloAckAddr helloAckOffFirmwareVersion) 4 (fwVersion buildId)

/-- What BRISC does to the messages. -/
inductive BriscAccess (buildId : ℕ) (op : Op) (s : BootScene) : Prop
  | off (hop : StoresIn OffHandshake op)
  /-- A store of `init_proto`. -/
  | clear (addr : ℕ) (hop : op = .l1Store addr 4 0) (hcleared : ¬ ProtoCleared s.trace)
  | field (hop : op = ackProtocolStore ∨ op = ackFirmwareStore buildId)
  /-- The acknowledgement becomes valid when it is complete. -/
  | magic (hop : op = ackMagicStore) (hhello : (handshakeLog s.trace).hello = true)
      (hinitialised : Initialised s.trace)
      (hprotocol : l1Word (helloAckAddr helloAckOffProtocolVersion) s.memory = protocolVersion)
      (hfirmware : l1Word (helloAckAddr helloAckOffFirmwareVersion) s.memory = fwVersion buildId)

/-- What the daemon does to the messages. -/
inductive DaemonAccess (op : Op) (s : BootScene) : Prop
  | off (hop : StoresIn OffHandshake op)
  | version (hop : op = helloVersionStore)
  | magic (hop : op = helloMagicStore) (hversion : (handshakeLog s.trace).version = true)

/-- What BRISC relies on: only the daemon's hello changes, and only after the clearing. -/
structure BriscRely (s s' : BootScene) : Prop where
  passes_eq : passes .brisc s'.trace = passes .brisc s.trace
  hello_mono : (handshakeLog s.trace).hello = true → (handshakeLog s'.trace).hello = true
  ack_eq : ∀ addr ∈ ackWords, l1Word addr s'.memory = l1Word addr s.memory
  uncleared : ¬ ProtoCleared s.trace →
    ∀ addr ∈ handshakeWords, l1Word addr s'.memory = l1Word addr s.memory

/-- What the daemon relies on: what has been said stays said. -/
structure DaemonRely (s s' : BootScene) : Prop where
  version_mono : (handshakeLog s.trace).version = true → (handshakeLog s'.trace).version = true
  hello_mono : (handshakeLog s.trace).hello = true → (handshakeLog s'.trace).hello = true
  acked_mono : (handshakeLog s.trace).acked = true → (handshakeLog s'.trace).acked = true

/-- Where BRISC is between two passes. -/
def BriscBetween (s : BootScene) : BriscPhase → Prop
  | .reset => passes .brisc s.trace = 0
  | .statsUp => passes .brisc s.trace = 1
  | .protoUp => passes .brisc s.trace = 2 ∧
      l1Word (helloAddr helloOffMagic) s.memory = 0 ∧
      l1Word (helloAckAddr helloAckOffMagic) s.memory = 0
  | .devicesUp => passes .brisc s.trace = 3
  | .waiting => 4 ≤ passes .brisc s.trace
  | .running _ => 5 ≤ passes .brisc s.trace

/-- What `bring_up` has returned: when it succeeds, the versions are those of an acknowledgement of
this boot. -/
def DaemonBetween (buildId : ℕ) (s : BootScene) : DaemonPhase → Prop
  | .returned (.ok versions) =>
    (handshakeLog s.trace).acked = true ∧ versions = (fwVersion buildId, protocolVersion)
  | .returned (.error _) | .released _ _ => True

/-- The parts of the two parties. -/
def bootOutline (builds : Builds) : Outline BootCore Op ℕ ByteStore World BootCore.Private where
  inv := HandshakeInv builds.firmware
  rely
    | .brisc => BriscRely
    | .daemon => DaemonRely
  guarantee
    | .brisc => BriscAccess builds.firmware
    | .daemon => DaemonAccess
  between
    | .brisc, phase, s => BriscBetween s phase
    | .daemon, phase, s => DaemonBetween builds.firmware s phase

variable {builds : Builds} {op : Op}

section Accesses

variable (h : HandshakeInv builds.firmware s)
include h

theorem HandshakeInv.off (core : BootCore) (hop : StoresIn OffHandshake op) :
    HandshakeInv builds.firmware ((bootCores builds).access core op s).2 := by
  refine h.congr ?_ Iff.rfl fun addr haddr ↦ hop.l1Word_eq haddr s.memory
  cases core with
  | brisc => exact handshakeLog_brisc _ (hop.ne_store _ (by decide))
  | daemon =>
    exact handshakeLog_daemon _ (hop.ne_store _ (by decide)) (hop.ne_store _ (by decide))

/-- A field of the acknowledgement is stored: it gets the value that it has, should the
acknowledgement be out already. -/
theorem HandshakeInv.field (hop : op = ackProtocolStore ∨ op = ackFirmwareStore builds.firmware) :
    HandshakeInv builds.firmware ((bootCores builds).access .brisc op s).2 := by
  have hlog : handshakeLog ((bootCores builds).access .brisc op s).2.trace =
      handshakeLog s.trace := by
    refine handshakeLog_brisc _ ?_
    rcases hop with rfl | rfl
    · decide
    · exact fun heq ↦ absurd (Op.l1Store.inj heq).1 (by decide)
  have hothers : ∀ addr ∈ [helloAddr helloOffProtocolVersion, helloAddr helloOffMagic,
      helloAckAddr helloAckOffMagic],
      l1Word addr ((bootCores builds).access .brisc op s).2.memory = l1Word addr s.memory := by
    intro addr haddr
    have hmem : addr ∈ handshakeWords ∧ helloAckAddr helloAckOffProtocolVersion ≠ addr ∧
        helloAckAddr helloAckOffFirmwareVersion ≠ addr := by
      revert addr
      decide
    rcases hop with rfl | rfl
    · exact l1Word_store_of_ne (by decide) hmem.1 hmem.2.1
    · exact l1Word_store_of_ne (by decide) hmem.1 hmem.2.2
  have hversion := hothers (helloAddr helloOffProtocolVersion) (by decide)
  have hmagic := hothers (helloAddr helloOffMagic) (by decide)
  have hack := hothers (helloAckAddr helloAckOffMagic) (by decide)
  constructor <;> rw [hlog]
  · rw [hversion]
    exact h.version
  · rw [hmagic]
    exact h.hello
  · rw [hmagic]
    exact h.silent
  · rw [hack]
    exact h.unanswered
  · intro hacked
    obtain ⟨hcleared, hprotocol, hfirmware⟩ := h.answered hacked
    refine ⟨hcleared, ?_⟩
    rcases hop with rfl | rfl
    · exact ⟨l1Word_store_self, (l1Word_store_of_ne).trans hfirmware⟩
    · refine ⟨(l1Word_store_of_ne).trans hprotocol, ?_⟩
      exact l1Word_store_self.trans (Nat.mod_mod _ _)

theorem BriscAccess.inv (hop : BriscAccess builds.firmware op s) :
    HandshakeInv builds.firmware ((bootCores builds).access .brisc op s).2 := by
  cases hop with
  | off hop => exact h.off .brisc hop
  | clear addr hop hcleared =>
    subst hop
    refine .of_silence ?_ fun hcleared' ↦ absurd hcleared' hcleared
    exact (handshakeLog_brisc _ fun heq ↦ absurd (Op.l1Store.inj heq).2.2 (by decide)).trans
      (h.uncleared hcleared)
  | field hop => exact h.field hop
  | magic hop hhello hinitialised hprotocol hfirmware =>
    subst hop
    have hcleared : ProtoCleared s.trace := le_trans (by decide) hinitialised
    have hacked : (handshakeLog ((bootCores builds).access .brisc ackMagicStore s).2.trace).acked =
        true := by
      simp [access, handshakeLog, hhello, hinitialised]
    constructor
    · intro hversion
      exact ⟨hcleared, (l1Word_store_of_ne).trans (h.version hversion).2⟩
    · intro hsaid
      exact ⟨(h.hello hsaid).1, (l1Word_store_of_ne).trans (h.hello hsaid).2⟩
    · intro _ hsilent
      exact absurd hhello (ne_true_of_eq_false hsilent)
    · intro _ hunanswered
      exact absurd hacked (ne_true_of_eq_false hunanswered)
    · intro _
      exact ⟨hcleared, (l1Word_store_of_ne).trans hprotocol, (l1Word_store_of_ne).trans hfirmware⟩

theorem DaemonAccess.inv (hop : DaemonAccess op s)
    (hcleared : op = helloVersionStore ∨ op = helloMagicStore → ProtoCleared s.trace) :
    HandshakeInv builds.firmware ((bootCores builds).access .daemon op s).2 := by
  cases hop with
  | off hop => exact h.off .daemon hop
  | version hop =>
    subst hop
    have hcleared := hcleared (.inl rfl)
    have hversion : (handshakeLog ((bootCores builds).access .daemon helloVersionStore
        s).2.trace).version = true := by
      simp [access, handshakeLog]
    constructor
    · exact fun _ ↦ ⟨hcleared, l1Word_store_self⟩
    · intro hsaid
      exact ⟨hversion, (l1Word_store_of_ne).trans (h.hello hsaid).2⟩
    · intro _ hsilent
      exact (l1Word_store_of_ne).trans (h.silent hcleared hsilent)
    · intro _ hunanswered
      exact (l1Word_store_of_ne).trans (h.unanswered hcleared hunanswered)
    · intro hacked
      obtain ⟨_, hprotocol, hfirmware⟩ := h.answered hacked
      exact ⟨hcleared, (l1Word_store_of_ne).trans hprotocol, (l1Word_store_of_ne).trans hfirmware⟩
  | magic hop hversion =>
    subst hop
    have hcleared := hcleared (.inr rfl)
    have hsaid :
        (handshakeLog ((bootCores builds).access .daemon helloMagicStore s).2.trace).hello =
        true := by
      simp [access, handshakeLog]
    constructor
    · exact fun _ ↦ ⟨hcleared, (l1Word_store_of_ne).trans (h.version hversion).2⟩
    · exact fun _ ↦ ⟨version_kept _ hversion, l1Word_store_self⟩
    · intro _ hsilent
      exact absurd hsaid (ne_true_of_eq_false hsilent)
    · intro _ hunanswered
      exact (l1Word_store_of_ne).trans (h.unanswered hcleared hunanswered)
    · intro hacked
      obtain ⟨_, hprotocol, hfirmware⟩ := h.answered hacked
      exact ⟨hcleared, (l1Word_store_of_ne).trans hprotocol, (l1Word_store_of_ne).trans hfirmware⟩

end Accesses

/-! ### What the parties rely on -/

section Relies

variable {s'' : BootScene}

theorem BriscRely.refl (s : BootScene) : BriscRely s s :=
  ⟨rfl, id, fun _ _ ↦ rfl, fun _ _ _ ↦ rfl⟩

theorem BriscRely.cleared_iff (h : BriscRely s s') :
    ProtoCleared s'.trace ↔ ProtoCleared s.trace := by
  unfold ProtoCleared
  rw [h.passes_eq]

theorem BriscRely.trans (h : BriscRely s s') (h' : BriscRely s' s'') : BriscRely s s'' where
  passes_eq := h'.passes_eq.trans h.passes_eq
  hello_mono hsaid := h'.hello_mono (h.hello_mono hsaid)
  ack_eq addr haddr := (h'.ack_eq addr haddr).trans (h.ack_eq addr haddr)
  uncleared huncleared addr haddr :=
    (h'.uncleared (mt h.cleared_iff.mp huncleared) addr haddr).trans
      (h.uncleared huncleared addr haddr)

theorem BriscRely.between (h : BriscRely s s') (hs : BriscBetween s phase) :
    BriscBetween s' phase := by
  cases phase with
  | protoUp =>
    obtain ⟨hpasses, hhello, hack⟩ := hs
    have huncleared : ¬ ProtoCleared s.trace := by
      unfold ProtoCleared
      omega
    exact ⟨h.passes_eq.trans hpasses, (h.uncleared huncleared _ (by decide)).trans hhello,
      (h.uncleared huncleared _ (by decide)).trans hack⟩
  | reset | statsUp | devicesUp => exact h.passes_eq.trans hs
  | waiting | running prevActive => exact le_of_le_of_eq hs h.passes_eq.symm

theorem DaemonRely.refl (s : BootScene) : DaemonRely s s := ⟨id, id, id⟩

theorem DaemonRely.trans (h : DaemonRely s s') (h' : DaemonRely s' s'') : DaemonRely s s'' where
  version_mono hsaid := h'.version_mono (h.version_mono hsaid)
  hello_mono hsaid := h'.hello_mono (h.hello_mono hsaid)
  acked_mono hsaid := h'.acked_mono (h.acked_mono hsaid)

theorem DaemonRely.between (h : DaemonRely s s') {buildId : ℕ} {phase : DaemonPhase}
    (hs : DaemonBetween buildId s phase) : DaemonBetween buildId s' phase := by
  match phase, hs with
  | .returned (.ok versions), hs => exact ⟨h.acked_mono hs.1, hs.2⟩
  | .returned (.error _), _ => trivial
  | .released _ _, _ => trivial

theorem daemonRely_mark {memory : World} (mark : BootMark) :
    DaemonRely s ⟨memory, mark :: s.trace⟩ :=
  ⟨version_kept mark, hello_kept mark, acked_kept mark⟩

theorem DaemonAccess.relied (hop : DaemonAccess op s)
    (hcleared : op = helloVersionStore ∨ op = helloMagicStore → ProtoCleared s.trace) :
    BriscRely s ((bootCores builds).access .daemon op s).2 where
  passes_eq := rfl
  hello_mono := hello_kept _
  ack_eq addr haddr := by
    have hmem : addr ∈ handshakeWords ∧ helloAddr helloOffProtocolVersion ≠ addr ∧
        helloAddr helloOffMagic ≠ addr := by
      revert addr
      decide
    cases hop with
    | off hop => exact hop.l1Word_eq hmem.1 s.memory
    | version hop =>
      subst hop
      exact l1Word_store_of_ne (by decide) hmem.1 hmem.2.1
    | magic hop =>
      subst hop
      exact l1Word_store_of_ne (by decide) hmem.1 hmem.2.2
  uncleared huncleared addr haddr := by
    cases hop with
    | off hop => exact hop.l1Word_eq haddr s.memory
    | version hop => exact absurd (hcleared (.inl hop)) huncleared
    | magic hop => exact absurd (hcleared (.inr hop)) huncleared

theorem l1Word_outside {event : ByteStore} (h : OffHandshake event.addr) {addr : ℕ}
    (haddr : addr ∈ handshakeWords) (s : BootScene) :
    l1Word addr ((bootCores builds).outside event s).memory = l1Word addr s.memory := by
  have hinside := handshakeWords_inside addr haddr
  refine readLE_writeLE_of_apart ?_
  simp only [OffHandshake, InRange, Inside, Apart] at *
  omega

end Relies

/-! ### BRISC's passes -/

section Brisc

/-- BRISC's surroundings. -/
def BriscStep (buildId : ℕ) (s s' : BootScene) : Prop := BriscRely s s' ∧ HandshakeInv buildId s'

/-- A part of BRISC's bring-up. -/
abbrev BriscPart (builds : Builds) {α : Type} (post : α → BootScene → Prop) (program : Prog α)
    (s : BootScene) : Prop :=
  Ensures ((bootCores builds).access .brisc) (BriscStep builds.firmware)
    (BriscAccess builds.firmware) post program s

theorem off_pass {α : Type} {program : Prog α} (hprog : program.Performs (StoresIn OffHandshake)) :
    BriscPart builds
      (fun _ t ↦ passes .brisc t.trace = passes .brisc s.trace) program s := by
  refine (Ensures.keeping (fun t ↦ passes .brisc t.trace = passes .brisc s.trace)
    hprog (fun t t' hstep ht ↦ hstep.1.passes_eq.trans ht) (fun _ _ _ ht ↦ ht) rfl).imp
      (fun op t ht ↦ .off ht.1) fun _ t ht ↦ ht.2

theorem clears_word (builds : Builds) (addr index : ℕ) (haddr : addr = ctrlBase + 4 * index)
    (hmem : addr ∈ handshakeWords) (words : List ℕ) (hpasses : passes .brisc s.trace = 2)
    (hcleared : index ∉ words → l1Word addr s.memory = 0) :
    BriscPart builds
      (fun _ t ↦ passes .brisc t.trace = 2 ∧ l1Word addr t.memory = 0)
      (words.forM fun word ↦ storeU32 (ctrlBase + 4 * word) 0) s := by
  induction words generalizing s with
  | nil => exact ⟨hpasses, hcleared not_mem_nil⟩
  | cons word words ih =>
    intro t hstep
    have huncleared : ∀ {u : BootScene}, passes .brisc u.trace = 2 →
        ¬ ProtoCleared u.trace := by
      intro u hu
      unfold ProtoCleared
      omega
    have hpasses' : passes .brisc t.trace = 2 := hstep.1.passes_eq.trans hpasses
    refine ⟨.clear _ rfl (huncleared hpasses'), ih hpasses' fun hnot ↦ ?_⟩
    by_cases hword : index = word
    · subst hword
      rw [haddr]
      exact l1Word_store_self
    · have happart : Apart (ctrlBase + 4 * word) 4 addr 4 := by
        unfold Apart
        omega
      have hstored : l1Word addr (exec (.l1Store (ctrlBase + 4 * word) 4 0) t.memory).2 =
          l1Word addr t.memory := readLE_writeLE_of_apart happart
      have hkept := hstep.1.uncleared (huncleared hpasses) addr hmem
      refine (hstored.trans hkept).trans (hcleared fun hin ↦ ?_)
      exact (mem_cons.mp hin).elim hword hnot

theorem clears_initProto (hpasses : passes .brisc s.trace = 2) :
    BriscPart builds (fun _ t ↦ BriscBetween t .protoUp) initProto s := by
  unfold initProto zeroRegion
  have hmem : ∀ index < ctrlSize / 4, index ∈ range (ctrlSize / 4) :=
    fun index hindex ↦ mem_range.mpr hindex
  generalize range (ctrlSize / 4) = words at hmem ⊢
  have hhello := clears_word builds (helloAddr helloOffMagic) 1
    (by decide) (by decide) words hpasses fun hnot ↦ absurd (hmem 1 (by decide)) hnot
  have hack := clears_word builds (helloAckAddr helloAckOffMagic) 18
    (by decide) (by decide) words hpasses fun hnot ↦ absurd (hmem 18 (by decide)) hnot
  exact (hhello.and hack).imp (fun _ _ hop ↦ hop.1) fun _ t ht ↦ ⟨ht.1.1, ht.1.2, ht.2.2⟩

/-- Once BRISC has seen this daemon's hello, it acknowledges it. -/
theorem acknowledge_at (hhello : (handshakeLog s.trace).hello = true)
    (hinitialised : Initialised s.trace) :
    BriscPart builds (fun _ t ↦ Initialised t.trace) (acknowledge builds.firmware) s := by
  have hpasses : ∀ {t t' : BootScene}, BriscStep builds.firmware t t' → Initialised t.trace →
      Initialised t'.trace := fun hstep ht ↦ le_of_le_of_eq ht hstep.1.passes_eq.symm
  intro t1 hstep1
  refine ⟨.off trivial, ?_⟩
  intro t2 hstep2
  refine ⟨.field (.inl rfl), ?_⟩
  intro t3 hstep3
  refine ⟨.field (.inr rfl), ?_⟩
  intro t4 hstep4
  have hhello2 := hstep2.1.hello_mono (hello_kept _ (hstep1.1.hello_mono hhello))
  have hhello4 := hstep4.1.hello_mono (hello_kept _ (hstep3.1.hello_mono (hello_kept _ hhello2)))
  have hinitialised1 := hpasses hstep1 hinitialised
  have hinitialised2 := hpasses hstep2 hinitialised1
  have hinitialised3 := hpasses hstep3 hinitialised2
  have hinitialised4 := hpasses hstep4 hinitialised3
  have hprotocol3 : l1Word (helloAckAddr helloAckOffProtocolVersion) t3.memory = protocolVersion :=
    (hstep3.1.ack_eq _ (by decide)).trans l1Word_store_self
  have hprotocol4 : l1Word (helloAckAddr helloAckOffProtocolVersion) t4.memory = protocolVersion :=
    ((hstep4.1.ack_eq _ (by decide)).trans l1Word_store_of_ne).trans hprotocol3
  have hfirmware4 : l1Word (helloAckAddr helloAckOffFirmwareVersion) t4.memory =
      fwVersion builds.firmware :=
    ((hstep4.1.ack_eq _ (by decide)).trans l1Word_store_self).trans (Nat.mod_mod _ _)
  exact ⟨.magic rfl hhello4 hinitialised4 hprotocol4 hfirmware4, hinitialised4⟩

theorem passes_pass (s : BootScene) :
    passes .brisc (pass .brisc s).trace = passes .brisc s.trace + 1 :=
  if_pos rfl

/-- The begin of a pass keeps the invariant: when it is the one after `init_proto`, the page is
clear. -/
theorem HandshakeInv.pass_brisc (h : HandshakeInv builds.firmware s) (hs : BriscBetween s phase) :
    HandshakeInv builds.firmware (pass .brisc s) := by
  have hpasses := passes_pass s
  by_cases hcleared : ProtoCleared s.trace
  · refine h.congr rfl ?_ fun _ _ ↦ rfl
    unfold ProtoCleared at *
    omega
  · refine .of_silence (h.uncleared hcleared) fun hcleared' ↦ ?_
    unfold ProtoCleared at *
    have htwo : passes .brisc s.trace = 2 := by omega
    cases phase <;> simp only [BriscBetween, htwo] at hs
    · omega
    · omega
    · exact hs.2
    · omega
    · omega
    · omega

-- the passes are long, and unification must not run them
attribute [local irreducible] initStats initProto uartInitDevices

theorem brisc_loop (hs : BriscBetween s phase) :
    BriscPart builds (fun phase t ↦ BriscBetween t phase)
      (briscMain builds.firmware phase) (pass .brisc s) := by
  have hpasses := passes_pass s
  cases phase with
  | reset =>
    refine (off_pass (off_initStats _)).bind fun _ t ht ↦ ?_
    exact (ht.trans hpasses).trans (congrArg (· + 1) hs)
  | statsUp =>
    have htwo : passes .brisc (pass .brisc s).trace = 2 :=
      hpasses.trans (congrArg (· + 1) hs)
    exact (clears_initProto htwo).bind fun _ t ht ↦ ht
  | protoUp =>
    refine (off_pass off_initDevices).bind fun _ t ht ↦ ?_
    exact (ht.trans hpasses).trans (congrArg (· + 1) hs.1)
  | devicesUp =>
    refine (off_pass off_uartInitDevices).bind fun _ t ht ↦ ?_
    exact ((congrArg (· + 1) hs).symm.trans (hpasses.symm.trans ht.symm)).le
  | waiting =>
    intro t hstep
    refine ⟨.off trivial, ?_⟩
    have hinitialised : Initialised t.trace := by
      have hs' : 4 ≤ passes .brisc s.trace := hs
      have ht : passes .brisc t.trace = _ := hstep.1.passes_eq.trans hpasses
      unfold Initialised
      omega
    change Ensures _ _ _ _ (if l1Word (helloAddr helloOffMagic) t.memory = helloMagic then _ else _)
      _
    split_ifs with hmagic
    · have hhello : (handshakeLog t.trace).hello = true := by
        by_contra hsilent
        have hzero := hstep.2.silent (le_trans (by decide) hinitialised)
          (Bool.eq_false_iff.mpr hsilent)
        exact absurd (hzero.symm.trans hmagic) (by decide)
      refine (acknowledge_at ?_ ?_).bind fun _ u hu ↦ hu
      · exact hello_kept _ hhello
      · exact hinitialised
    · exact le_trans (by decide) hinitialised
  | running prevActive =>
    refine (off_pass (off_sweep prevActive)).bind fun _ t ht ↦ ?_
    have hs' : 5 ≤ passes .brisc s.trace := hs
    exact (hs'.trans (Nat.le_succ _)).trans (hpasses.symm.trans ht.symm).le

end Brisc

/-! ### The daemon's pass -/

/-- The daemon's surroundings. -/
def DaemonStep (buildId : ℕ) (s s' : BootScene) : Prop := DaemonRely s s' ∧ HandshakeInv buildId s'

/-- A poll of a word that tells something when it has the value expected. -/
theorem ensures_pollWord (builds : Builds) (addr expected : ℕ) (keeps found : BootScene → Prop)
    (hstable : Stable (DaemonStep builds.firmware) keeps)
    (hload : ∀ t, keeps t → keeps ((bootCores builds).access .daemon (.l1Load addr 4) t).2)
    (hfound : ∀ t, keeps t → HandshakeInv builds.firmware t → l1Word addr t.memory = expected →
      found ((bootCores builds).access .daemon (.l1Load addr 4) t).2) (tries : ℕ) (hs : keeps s) :
    Ensures ((bootCores builds).access .daemon) (DaemonStep builds.firmware) DaemonAccess
      (fun value t ↦ keeps t ∧ (value = expected → found t)) (pollWord addr expected tries) s := by
  induction tries generalizing s with
  | zero =>
    intro t hstep
    have ht := hstable s t hstep hs
    exact ⟨.off trivial, hload t ht, hfound t ht hstep.2⟩
  | succ tries ih =>
    intro t hstep
    have ht := hstable s t hstep hs
    refine ⟨.off trivial, ?_⟩
    change Ensures _ _ _ _ (if l1Word addr t.memory = expected then _ else _) _
    split_ifs with hvalue
    · exact ⟨hload t ht, fun _ ↦ hfound t ht hstep.2 hvalue⟩
    · exact ih (hload t ht)

/-- An acknowledgement seen after the hello is this boot's. -/
theorem HandshakeInv.acked_of_magic (h : HandshakeInv builds.firmware s)
    (hhello : (handshakeLog s.trace).hello = true)
    (hmagic : l1Word (helloAckAddr helloAckOffMagic) s.memory = helloAckMagic) :
    (handshakeLog s.trace).acked = true := by
  by_contra hunanswered
  have hcleared := (h.version (h.hello hhello).1).1
  have hzero := h.unanswered hcleared (Bool.eq_false_iff.mpr hunanswered)
  exact absurd (hzero.symm.trans hmagic) (by decide)

theorem runHandshake_at (ackTries : ℕ) :
    Ensures ((bootCores builds).access .daemon) (DaemonStep builds.firmware) DaemonAccess
      (fun outcome t ↦ DaemonBetween builds.firmware t (.returned outcome))
      (runHandshake ackTries) s := by
  intro t1 _
  refine ⟨.version rfl, ?_⟩
  intro t2 hstep2
  have hversion : (handshakeLog t2.trace).version = true :=
    hstep2.1.version_mono (by simp [access, handshakeLog, helloVersionStore])
  refine ⟨.magic rfl hversion, ?_⟩
  have hpoll := ensures_pollWord builds (helloAckAddr helloAckOffMagic) helloAckMagic (fun t ↦
    (handshakeLog t.trace).hello = true) (fun t ↦ (handshakeLog t.trace).acked = true)
    (fun _ _ hstep ↦ hstep.1.hello_mono) (fun _ ↦ hello_kept _) (fun t hhello hinv hmagic ↦
    acked_kept _ (hinv.acked_of_magic hhello hmagic)) ackTries (s :=
    ((bootCores builds).access .daemon helloMagicStore t2).2) (by simp [access, handshakeLog])
  refine hpoll.bind fun magic t ht ↦ ?_
  split_ifs with hmagic
  · have hacked := ht.2 hmagic
    intro t3 hstep3
    have hacked3 := hstep3.1.acked_mono hacked
    refine ⟨.off trivial, ?_⟩
    intro t4 hstep4
    have hacked4 := hstep4.1.acked_mono (acked_kept _ hacked3)
    refine ⟨.off trivial, ?_⟩
    have hprotocol : l1Word (helloAckAddr helloAckOffProtocolVersion) t3.memory = protocolVersion :=
      (hstep3.2.answered hacked3).2.1
    have hfirmware : l1Word (helloAckAddr helloAckOffFirmwareVersion) t4.memory =
        fwVersion builds.firmware := (hstep4.2.answered hacked4).2.2
    change Ensures _ _ _ _
      (if l1Word (helloAckAddr helloAckOffProtocolVersion) t3.memory = protocolVersion then _ else
        _) _
    rw [if_pos hprotocol]
    exact ⟨acked_kept _ hacked4, Prod.ext hfirmware hprotocol⟩
  · trivial

theorem daemon_loop {phase : DaemonPhase} (hs : DaemonBetween builds.firmware s phase) :
    (bootOutline builds).At (bootCores builds) .daemon (daemonMain builds.daemon phase)
      (pass .daemon s) := by
  cases phase with
  | returned outcome => exact (daemonRely_mark (.pass .daemon)).between hs
  | released statsTries ackTries =>
    have hpoll := ensures_pollWord builds (statsBase + statsOffMagic) statsMagicLoaded
      (fun _ ↦ True) (fun _ ↦ True) (fun _ _ _ _ ↦ trivial)
      (fun _ _ ↦ trivial) (fun _ _ _ _ ↦ trivial) statsTries (s := pass .daemon s) trivial
    have hbringUp : Ensures ((bootCores builds).access .daemon) (DaemonStep builds.firmware)
        DaemonAccess (fun outcome t ↦ DaemonBetween builds.firmware t (.returned outcome))
        (bringUp builds.daemon statsTries ackTries) (pass .daemon s) := by
      refine hpoll.bind fun magic t _ ↦ ?_
      split_ifs with hmagic
      · intro t1 _
        exact ⟨.off (storesIn_statsPage _ (by decide)), runHandshake_at ackTries⟩
      · trivial
    exact hbringUp.bind fun outcome t ht ↦ ht

/-! ### The handshake -/

/-- The parties ensure their parts along every schedule in which the hello waits for
`init_proto`. -/
theorem bootOutline_sound (builds : Builds) :
    (bootOutline builds).Sound (bootCores builds) AfterInitProto := by
  refine .ofRely ?_ ?_ ?_ ?_ ?_ ?_ ?_
  · intro core s
    cases core with
    | brisc => exact BriscRely.refl s
    | daemon => exact DaemonRely.refl s
  · intro core s s' s'' h h'
    cases core with
    | brisc => exact BriscRely.trans h h'
    | daemon => exact DaemonRely.trans h h'
  · intro core result s s' h hs
    cases core with
    | brisc => exact BriscRely.between h hs
    | daemon => exact DaemonRely.between h hs
  · intro core result s hinv hs
    cases core with
    | brisc => exact ⟨hinv.pass_brisc hs, brisc_loop hs⟩
    | daemon => exact ⟨hinv.congr rfl Iff.rfl fun _ _ ↦ rfl, daemon_loop hs⟩
  · intro core other s hother
    cases other with
    | brisc =>
      cases core with
      | brisc => exact absurd rfl hother
      | daemon => exact ⟨rfl, id, fun _ _ ↦ rfl, fun _ _ _ ↦ rfl⟩
    | daemon => exact daemonRely_mark (.pass core)
  · intro c core op next hallowed hrest hop h
    cases core with
    | brisc =>
      refine ⟨BriscAccess.inv h.inv hop, fun other hother ↦ .inl ?_⟩
      cases other with
      | brisc => exact absurd rfl hother
      | daemon => exact daemonRely_mark _
    | daemon =>
      have hcleared : op = helloVersionStore ∨ op = helloMagicStore →
          ProtoCleared c.scene.trace := by
        intro hhello
        refine hallowed ?_
        rw [hrest]
        exact hhello.imp (congrArg some) (congrArg some)
      refine ⟨DaemonAccess.inv h.inv hop hcleared, fun other hother ↦ .inl ?_⟩
      cases other with
      | brisc => exact DaemonAccess.relied hop hcleared
      | daemon => exact absurd rfl hother
  · intro c event hallowed h
    have hwords : ∀ addr ∈ handshakeWords,
        l1Word addr ((bootCores builds).outside event c.scene).memory =
          l1Word addr c.scene.memory := fun addr haddr ↦ l1Word_outside hallowed haddr c.scene
    refine ⟨h.inv.congr rfl Iff.rfl hwords, fun core ↦ .inl ?_⟩
    cases core with
    | brisc =>
      refine ⟨rfl, id, fun addr haddr ↦ hwords addr ?_, fun _ ↦ hwords⟩
      exact mem_cons_of_mem _ (mem_cons_of_mem _ haddr)
    | daemon => exact daemonRely_mark (.act event)

theorem atRelease_holds (builds : Builds) (w : World) (statsTries ackTries : ℕ) :
    (bootOutline builds).Holds (bootCores builds) (atRelease w statsTries ackTries) where
  inv := .of_silence rfl fun hcleared ↦ absurd hcleared (Nat.not_succ_le_zero 2)
  at_rest core := by
    cases core with
    | brisc => exact (rfl : BriscBetween (atRelease w statsTries ackTries).scene .reset)
    | daemon => trivial

theorem outcome_ok {c : BootConfig} {versions : ℕ × ℕ}
    (h : (bootOutline builds).Holds (bootCores builds) c)
    (houtcome : bringUpOutcome c = some (.ok versions)) :
    (handshakeLog c.scene.trace).acked = true ∧
      versions = (fwVersion builds.firmware, protocolVersion) := by
  have hdaemon := h.at_rest .daemon
  unfold bringUpOutcome at houtcome
  split at houtcome
  · rename_i outcome hrest
    rw [Option.some.inj houtcome] at hrest
    rw [hrest] at hdaemon
    exact hdaemon
  · exact absurd houtcome (Option.some_ne_none _).symm
  · exact absurd houtcome (Option.some_ne_none _).symm

/-- The handshake. Assumes: along the schedule, the daemon stores its hello only when BRISC has
finished `init_proto`, and nobody else stores into the messages. From any content of L1, for any
build ids and any number of reads before a timeout: what the daemon has stored of its hello is still
there, and when `bring_up` has returned successfully, BRISC has acknowledged this hello after it had
finished its initialisation, and the versions returned are those of this boot's acknowledgement. -/
theorem hello_acknowledged (builds : Builds) (w : World) (statsTries ackTries : ℕ)
    (turns : List (Turn BootCore ByteStore))
    (hturns : (bootCores builds).Admits AfterInitProto (atRelease w statsTries ackTries) turns) :
    let final := (bootCores builds).follow (atRelease w statsTries ackTries) turns
    ((handshakeLog final.scene.trace).version = true →
        l1Word (helloAddr helloOffProtocolVersion) final.scene.memory = protocolVersion) ∧
      ((handshakeLog final.scene.trace).hello = true →
        l1Word (helloAddr helloOffMagic) final.scene.memory = helloMagic) ∧
      ∀ versions, bringUpOutcome final = some (.ok versions) →
        (handshakeLog final.scene.trace).acked = true ∧
          versions = (fwVersion builds.firmware, protocolVersion) := by
  have hholds := (bootOutline_sound builds).follow (atRelease_holds builds w statsTries ackTries)
    hturns
  refine ⟨fun hsaid ↦ ?_, fun hsaid ↦ ?_, fun versions houtcome ↦ ?_⟩
  · exact (hholds.inv.version hsaid).2
  · exact (hholds.inv.hello hsaid).2
  · exact outcome_ok hholds houtcome

/-- L1 as an earlier boot left it, with its magics. -/
def staleWorld : World :=
  l1World [(statsBase + statsOffMagic, 4, statsMagicLoaded),
    (helloAckAddr helloAckOffProtocolVersion, 4, protocolVersion),
    (helloAckAddr helloAckOffFirmwareVersion, 4, 0x105),
    (helloAckAddr helloAckOffMagic, 4, helloAckMagic)]

theorem admits_cleared {c : BootConfig} (h : ProtoCleared c.scene.trace) (turns : List BootCore) :
    (bootCores builds).Admits AfterInitProto c (turns.map .core) := by
  induction turns generalizing c with
  | nil => trivial
  | cons core turns ih =>
    constructor
    · cases core with
      | brisc => trivial
      | daemon => exact fun _ ↦ h
    · refine ih ?_
      cases hrest : c.rest core with
      | done phase =>
        rw [(bootCores builds).turn_done hrest]
        refine le_trans h ?_
        cases core with
        | brisc => exact (passes_pass c.scene).symm ▸ Nat.le_succ _
        | daemon => exact le_rfl
      | step op next =>
        rw [(bootCores builds).turn_step hrest]
        exact h

/-- The daemon sees the magic of an earlier boot, and BRISC has so many turns. -/
def patientTurns (count : ℕ) : List (Turn BootCore ByteStore) :=
  replicate 3 (.core .daemon) ++ replicate count (.core .brisc)

/-- The daemon is about to store its hello, and BRISC waits for it. -/
def atHello (scene : BootScene) : BootConfig where
  scene
  rest
    | .brisc => .done .waiting
    | .daemon => do
      let outcome ← runHandshake 0
      pure (.returned outcome)

theorem waiting_of_passes (h : BriscBetween s phase) (hpasses : passes .brisc s.trace = 4) :
    phase = .waiting := by
  cases phase <;> simp_all [BriscBetween]

theorem exists_atHello :
    ∃ count scene, (bootCores ⟨2, 2⟩).Admits AfterInitProto (atRelease staleWorld 0 0)
        (patientTurns count) ∧
      (bootCores ⟨2, 2⟩).follow (atRelease staleWorld 0 0) (patientTurns count) = atHello scene ∧
      ProtoCleared scene.trace := by
  let seen := (bootCores ⟨2, 2⟩).follow (atRelease staleWorld 0 0) (replicate 3 (.core .daemon))
  obtain ⟨count, hresting, hpasses⟩ :=
    (bootCores ⟨2, 2⟩).exists_passes (show Resting .brisc seen from rfl) 4
  have hturns : (bootCores ⟨2, 2⟩).Admits AfterInitProto (atRelease staleWorld 0 0)
      (patientTurns count) :=
    admits_append _ (by decide +kernel) (admits_replicate _ (fun _ ↦ trivial) count _)
  have hholds := (bootOutline_sound ⟨2, 2⟩).follow (atRelease_holds _ staleWorld 0 0) hturns
  rw [patientTurns, follow_append] at hholds
  obtain ⟨phase, hrest⟩ := hresting.exists_done
  have hbetween := hholds.at_rest .brisc
  rw [hrest] at hbetween
  have hfour : passes BootCore.brisc _ = 4 := hpasses
  obtain rfl := waiting_of_passes hbetween hfour
  refine ⟨count, _, hturns, ?_, le_of_le_of_eq (by decide) hfour.symm⟩
  rw [patientTurns, follow_append]
  refine congrArg (Config.mk _) (funext fun core ↦ ?_)
  cases core with
  | brisc => exact hrest
  | daemon => exact (bootCores ⟨2, 2⟩).follow_rest_of_ne (by decide) count seen

/-- The hello, BRISC's acknowledgement and the reads of the daemon. -/
def answerTurns : List (Turn BootCore ByteStore) :=
  [.daemon, .daemon, .brisc, .brisc, .brisc, .brisc, .brisc, .brisc, .daemon, .daemon,
    .daemon].map .core

theorem hello_acknowledged_patient :
    ∃ count,
      let turns := patientTurns count ++ answerTurns
      let final := (bootCores ⟨2, 2⟩).follow (atRelease staleWorld 0 0) turns
      bringUpOutcome final = some (.ok (fwVersion 2, protocolVersion)) ∧
        (handshakeLog final.scene.trace).acked = true := by
  obtain ⟨count, scene, hturns, hhello, hcleared⟩ := exists_atHello
  have houtcome : bringUpOutcome ((bootCores ⟨2, 2⟩).follow (atRelease staleWorld 0 0)
      (patientTurns count ++ answerTurns)) = some (.ok (fwVersion 2, protocolVersion)) := by
    rw [follow_append, hhello]
    simp only [answerTurns, map, follow, turn, access, bootCores, Machine.exec]
    cbv
  have hadmits : (bootCores ⟨2, 2⟩).Admits AfterInitProto (atRelease staleWorld 0 0)
      (patientTurns count ++ answerTurns) := by
    refine admits_append _ hturns ?_
    rw [hhello]
    exact admits_cleared hcleared _
  exact ⟨count, houtcome, ((hello_acknowledged ⟨2, 2⟩ staleWorld 0 0 _ hadmits).2.2 _ houtcome).1⟩

/-- The daemon, next to a BRISC that has been released but makes no access. -/
def hastyTurns : List (Turn BootCore ByteStore) := replicate 8 (.core .daemon)

/-- BRISC finishes `init_stats`, the daemon stores its hello, and BRISC begins `init_proto`. -/
def overtakenTurns : List (Turn BootCore ByteStore) :=
  replicate 1027 (.core .brisc) ++ replicate 5 (.core .daemon) ++
    replicate 3 (.core .brisc)

/-- Over the L1 of an earlier boot, `bring_up` succeeds with the acknowledgement of that boot before
this boot's firmware has made an access. Over an empty L1, `init_proto` clears the hello away. -/
theorem stale_boot_acknowledged :
    (bringUpOutcome ((bootCores ⟨2, 2⟩).follow (atRelease staleWorld 0 0) hastyTurns) =
        some (.ok (0x105, protocolVersion)) ∧
      passes .brisc ((bootCores ⟨2, 2⟩).follow (atRelease staleWorld 0 0)
        hastyTurns).scene.trace = 0) ∧
      (handshakeLog ((bootCores ⟨2, 2⟩).follow (atRelease (l1World []) 0 0)
        overtakenTurns).scene.trace).hello = true ∧
      l1Word (helloAddr helloOffMagic) ((bootCores ⟨2, 2⟩).follow (atRelease (l1World []) 0 0)
        overtakenTurns).scene.memory = 0 := by
  refine ⟨⟨?_, ?_⟩, ?_, ?_⟩ <;> decide +kernel

end Bhx.Firmware
