import Bhx.Device.Console

/-!
# The way of a keystroke to the console

The reader threads of the attached clients (`client_reader_main` of `daemon/server.rs`) append what
is typed to the input queue of the virtio console, and evict its oldest byte when the queue is full.
The console's worker takes bytes from the front when the guest has supplied a buffer. Every byte
leaves the queue at its front, so the typed bytes meet their fate in the order in which they were
typed, and an eviction leaves the queue as long as it was: a queue that was found ready stays so.

Scope. The bytes of a batch may here come one by one, and between two pops of a completion as well;
the lock of the queue allows fewer runs. A receive chain has one descriptor, which the walk hands to
`process_queue_complete`.
-/

set_option autoImplicit false

namespace Bhx.Console

open SharedMemory Machine Device List

variable {rest : List UInt8} {byte : UInt8}

/-- `RX_BUFFER_CAP`. -/
def rxBufferCap : ℕ := 16 * 1024

/-- What became of a byte: the guest has it, or it was evicted when so many bytes had been typed. -/
inductive Fate
  | delivered
  | evicted (typed : ℕ)
deriving DecidableEq, Repr

/-- The input queue, with the bytes that have left it, those that were typed and those that were
stored into buffers of the guest. -/
structure Input where
  queue : List UInt8
  settled : List (UInt8 × Fate)
  typed : List UInt8
  stored : List UInt8

/-- `pop_front`. -/
def Input.pop (s : Input) (fate : Fate) : Input :=
  match s.queue with
  | [] => s
  | byte :: rest => { s with queue := rest, settled := s.settled ++ [(byte, fate)] }

/-- A reader appends a byte. -/
def Input.press (s : Input) (byte : UInt8) : Input :=
  let room := if rxBufferCap ≤ s.queue.length then s.pop (.evicted (s.typed.length + 1)) else s
  { room with queue := room.queue ++ [byte], typed := s.typed ++ [byte] }

/-- The readers append any number of bytes. -/
def Presses (s s' : Input) : Prop := ∃ bytes : List UInt8, s' = bytes.foldl Input.press s

/-- What the operations of the console device do to the queue. -/
def Input.access : DevOp → Input → ℕ × Input
  | .call .inputReady, s => (if s.queue.isEmpty then 0 else 1, s)
  | .call .inputPop, s => (s.queue.head?.elim 0 fun byte ↦ byte.toNat + 1, s.pop .delivered)
  | .store _ _ value, s => (0, { s with stored := s.stored ++ [UInt8.ofNat value] })
  | _, s => (0, s)

/-- The bytes that were delivered. -/
def Input.delivered (s : Input) : List UInt8 :=
  (s.settled.filter fun entry ↦ entry.2 = .delivered).map Prod.fst

/-- The queue keeps its bound, what was typed is what has left the queue and what is in it, and a
byte was evicted when exactly `rxBufferCap` newer ones had been typed. These were in the queue then,
since bytes leave it in order. -/
structure Input.Exact (s : Input) : Prop where
  bounded : s.queue.length ≤ rxBufferCap
  typed_eq : s.typed = s.settled.map Prod.fst ++ s.queue
  evicted : ∀ i byte typed, s.settled[i]? = some (byte, .evicted typed) →
    typed = i + 1 + rxBufferCap

/-- The worker's passes over receive buffers, each an address and a length: the length of every
buffer that was completed, with the number of bytes in it. -/
def receive (console : VirtioConsole) : List (ℕ × ℕ) → DevProg (List (ℕ × ℕ))
  | [] => pure []
  | buffer :: buffers => do
    let ready ← VirtioConsole.queueHasData rxQueue
    if ready then
      let completed ← console.processQueueComplete rxQueue buffer.1 buffer.2
      let rest ← receive console buffers
      pure ((buffer.2, completed.2) :: rest)
    else
      receive console buffers

section Queue

variable {s s' : Input}

theorem Input.pop_of_cons (s : Input) (h : s.queue = byte :: rest) (fate : Fate) :
    s.pop fate = { s with queue := rest, settled := s.settled ++ [(byte, fate)] } := by
  unfold Input.pop
  rw [h]

theorem Input.Exact.settle {fate : Fate} (h : s.Exact) (hqueue : s.queue = byte :: rest)
    (hfate : ∀ typed, fate = .evicted typed → typed = s.settled.length + 1 + rxBufferCap) :
    ({ s with queue := rest, settled := s.settled ++ [(byte, fate)] } : Input).Exact := by
  have hbounded := h.bounded
  rw [hqueue, length_cons] at hbounded
  refine ⟨Nat.le_of_succ_le hbounded, ?_, fun i other typed hentry ↦ ?_⟩
  · rw [map_append, append_assoc]
    exact h.typed_eq.trans (congrArg (_ ++ ·) hqueue)
  · rcases Nat.lt_trichotomy i s.settled.length with hlt | rfl | hgt
    · rw [getElem?_append_left hlt] at hentry
      exact h.evicted i other typed hentry
    · rw [getElem?_concat_length] at hentry
      exact hfate typed (congrArg Prod.snd (Option.some.inj hentry))
    · rw [getElem?_eq_none (by simp; omega)] at hentry
      exact absurd hentry (Option.some_ne_none _).symm

theorem Input.Exact.append (h : s.Exact) (hroom : s.queue.length < rxBufferCap) (byte : UInt8) :
    ({ s with queue := s.queue ++ [byte], typed := s.typed ++ [byte] } : Input).Exact := by
  refine ⟨?_, ?_, h.evicted⟩
  · rw [length_append]
    exact hroom
  · rw [h.typed_eq, append_assoc]

theorem Input.Exact.press (h : s.Exact) (byte : UInt8) : (s.press byte).Exact := by
  have hlen : s.typed.length = s.settled.length + s.queue.length := by
    rw [h.typed_eq, length_append, length_map]
  have hbounded := h.bounded
  unfold Input.press
  split_ifs with hfull
  · cases hqueue : s.queue with
    | nil =>
      rw [hqueue] at hfull
      exact absurd hfull (by decide)
    | cons oldest rest =>
      rw [s.pop_of_cons hqueue]
      refine (h.settle hqueue fun typed heq ↦ ?_).append ?_ byte
      · rw [← Fate.evicted.inj heq]
        omega
      · rw [hqueue] at hbounded
        exact hbounded
  · exact h.append (Nat.lt_of_not_le hfull) byte

/-- A byte that is typed changes nothing for the guest, and an eviction makes room for one byte. -/
theorem Input.press_kept (s : Input) (byte : UInt8) : (s.press byte).delivered = s.delivered ∧
    (s.press byte).stored = s.stored ∧ (s.press byte).queue ≠ [] := by
  unfold Input.press
  split_ifs
  · unfold Input.pop
    split
    · exact ⟨rfl, rfl, by simp⟩
    · exact ⟨by simp [Input.delivered], rfl, by simp⟩
  · exact ⟨rfl, rfl, by simp⟩

/-- Nothing is under way: the guest has what was taken from the queue. -/
structure Input.Level (s : Input) : Prop where
  exact : s.Exact
  stored_eq : s.stored = s.delivered

theorem Presses.exact (h : Presses s s') (hs : s.Exact) : s'.Exact := by
  obtain ⟨bytes, rfl⟩ := h
  induction bytes generalizing s with
  | nil => exact hs
  | cons byte _ ih => exact ih (hs.press byte)

theorem Presses.kept (h : Presses s s') : s'.delivered = s.delivered ∧ s'.stored = s.stored ∧
    (s.queue ≠ [] → s'.queue ≠ []) := by
  obtain ⟨bytes, rfl⟩ := h
  induction bytes generalizing s with
  | nil => exact ⟨rfl, rfl, id⟩
  | cons byte bytes ih =>
    obtain ⟨hdel, hstored, hqueue⟩ := s.press_kept byte
    obtain ⟨hdel', hstored', hqueue'⟩ := ih (s := s.press byte)
    exact ⟨hdel'.trans hdel, hstored'.trans hstored, fun _ ↦ hqueue' hqueue⟩

theorem Presses.level (h : Presses s s') (hs : s.Level) : s'.Level :=
  ⟨h.exact hs.exact, h.kept.2.1.trans (hs.stored_eq.trans h.kept.1.symm)⟩

/-- What the worker does, next to the readers. -/
def Receives {α : Type} (post : α → Input → Prop) (program : DevProg α) (s : Input) : Prop :=
  Ensures Input.access Presses (fun op t ↦ t.Exact ∧ (t.access op).2.Exact) post program s

/-- The loop of a completion: it writes a byte if it has written one or finds one. -/
theorem receives_fillFromInput (addr room written : ℕ) (hs : s.Level)
    (hbyte : 0 < written ∨ s.queue ≠ []) :
    Receives (fun count t ↦ t.Level ∧ (0 < room + written → 0 < count))
      (fillFromInput addr room written) s := by
  induction room generalizing written s with
  | zero => exact ⟨hs, by simp⟩
  | succ room ih =>
    intro s1 hpress1
    have hs1 := hpress1.level hs
    cases hqueue : s1.queue with
    | nil =>
      have hnone : Input.access (.call .inputPop) s1 = (0, s1) := by
        simp [Input.access, Input.pop, hqueue]
      refine ⟨⟨hs1.exact, hnone ▸ hs1.exact⟩, ?_⟩
      rw [hnone]
      refine ⟨hs1, fun _ ↦ ?_⟩
      exact hbyte.resolve_right fun hne ↦ hpress1.kept.2.2 hne hqueue
    | cons byte rest =>
      have htaken : Input.access (.call .inputPop) s1 = (byte.toNat + 1, s1.pop .delivered) := by
        simp [Input.access, hqueue]
      have hpop : (s1.pop .delivered).Exact := by
        rw [s1.pop_of_cons hqueue]
        exact hs1.exact.settle hqueue fun _ heq ↦ Fate.noConfusion heq
      have hdel : (s1.pop .delivered).delivered = s1.stored ++ [byte] := by
        rw [s1.pop_of_cons hqueue, hs1.stored_eq]
        simp [Input.delivered]
      have hkept : (s1.pop .delivered).stored = s1.stored := by rw [s1.pop_of_cons hqueue]
      refine ⟨⟨hs1.exact, htaken ▸ hpop⟩, ?_⟩
      rw [htaken]
      intro s2 hpress2
      have hs2 := hpress2.exact hpop
      have hstored : (Input.access (.store (addr + written) 1 byte.toNat) s2).2.Level := by
        refine ⟨⟨hs2.bounded, hs2.typed_eq, hs2.evicted⟩, ?_⟩
        change s2.stored ++ [UInt8.ofNat byte.toNat] = s2.delivered
        rw [hpress2.kept.1, hpress2.kept.2.1, hdel, hkept, UInt8.ofNat_toNat]
      refine ⟨⟨hs2, hstored.exact⟩, ?_⟩
      refine (ih (written + 1) hstored (.inl (Nat.succ_pos written))).weaken fun count t ht ↦
        ⟨ht.1, fun _ ↦ ?_⟩
      exact ht.2 (Nat.add_pos_right room (Nat.succ_pos written))

theorem receives_processQueueComplete (console : VirtioConsole) (addr len : ℕ) (hs : s.Level)
    (hqueue : s.queue ≠ []) :
    Receives (fun completed t ↦ t.Level ∧ (0 < len → 0 < completed.2))
      (console.processQueueComplete rxQueue addr len) s :=
  Ensures.bind (receives_fillFromInput addr len 0 hs (.inr hqueue)) fun _ _ ht ↦ ht

/-- Nothing has been typed. -/
def emptyInput : Input := ⟨[], [], [], []⟩

end Queue

end Bhx.Console
