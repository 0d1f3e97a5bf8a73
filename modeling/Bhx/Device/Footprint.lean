import Bhx.Machine.ScriptedGuest
import Bhx.Virtqueue.ChainAcceptance

/-!
# What device models touch during a walk

A device model sees one buffer at a time, but it keeps state between callbacks, so which bytes of
guest memory it touches depends on the chain so far. This module reduces the question to single
callbacks.

`callsOf` is the list of callbacks that a walk makes for the descriptors it visits, and `Serves`
runs them one after the other. `walkChain_serves` says that the accesses of the device model during
a walk are those of a service of the calls of the visited chain, and `walkChain_realises` that every
such service occurs in a run, next to a guest that provides the answers.

A `Footprint` describes a device model by the bytes that each callback touches besides its buffer,
as a function of a summary of the state. `Footprint.confined_iff` is the result: during a walk of a
chain the model stays inside the buffers of the chain if and only if the bytes of its footprint are
inside the buffers of the chain.
-/

set_option autoImplicit false

namespace Bhx.Device

open SharedMemory Machine Virtqueue List Program VringDesc

variable {inner : List (DevOp × ℕ)} {d : VringDesc} {entries : List (Op × ℕ)}
  {queueHeaderSize numBytesWritten : ℕ} {kind : Callback}

/-- The bytes of guest memory that an operation of a device model reads or writes. -/
def touch : DevOp → Option (ℕ × ℕ)
  | .load addr size | .store addr size _ => some (addr, size)
  | .hostLoad _ _ | .hostStore _ _ _ | .call _ => none

/-- The operations of device models in a trace of the daemon. -/
def deviceTrace (entries : List (Op × ℕ)) : List (DevOp × ℕ) := entries.filterMap fun entry ↦
  match entry with
  | (.device _ _ op, answer) => some (op, answer)
  | _ => none

/-- The bytes of guest memory that device models read or write in a trace. -/
def touched (entries : List (Op × ℕ)) : List (ℕ × ℕ) :=
  (deviceTrace entries).filterMap fun entry ↦ touch entry.1

variable {D : Type}

section Serves

variable (device : VirtioDevice D) (queueIdx : ℕ)

/-- A callback on a descriptor's buffer, as a program whose result is the model's state. -/
def callback (kind : Callback) (d : VringDesc) (state : D) : DevProg D :=
  match kind with
  | .processQueueStart => device.processQueueStart state queueIdx d.addr d.len
  | .processQueueData => device.processQueueData state queueIdx d.addr d.len
  | .processQueueComplete => do
    let reply ← device.processQueueComplete state queueIdx d.addr d.len
    pure reply.1

/-- The operations of a device model that serves calls one after the other. -/
def Serves : D → List (Callback × VringDesc) → List (DevOp × ℕ) → Prop
  | _, [], entries => entries = []
  | state, call :: calls, entries => ∃ first rest state', entries = first ++ rest ∧
    (callback device queueIdx call.1 call.2 state).Follows first state' ∧ Serves state' calls rest

end Serves

/-- The callbacks that a walk makes for the descriptors it visits. -/
def callsOf (view : QueueView) (queueHeaderSize : ℕ) :
    (numBytesWritten : ℕ) → List VringDesc → List (Callback × VringDesc)
  | _, [] => []
  | numBytesWritten, d :: rest =>
    if view.inRange d then
      if d.hasNext then
        (forwardCallback queueHeaderSize numBytesWritten, d) ::
          callsOf view queueHeaderSize ((numBytesWritten + d.len) % 2 ^ 64) rest
      else [(.processQueueComplete, d)]
    else []

/-! ### Traces of a walk -/

variable {view : QueueView} {state : D}

section Walk

variable {device : VirtioDevice D} {result : D × Option ℕ} {state' : D} {β : Type}
  {body : DevProg β} {reply : β}

/-- The trace of a callback on a buffer: the device model's operations between the boundaries. -/
def handTrace (view : QueueView) (kind : Callback) (d : VringDesc) (value entered left : ℕ)
    (inner : List (DevOp × ℕ)) : List (Op × ℕ) :=
  (.enter view.id kind d.addr d.len, entered) ::
    inner.map (fun entry ↦ (Op.device view.id.slot view.id.l2cpu entry.1, entry.2)) ++
    [(.leave view.id kind value, left)]

theorem deviceTrace_append (first second : List (Op × ℕ)) :
    deviceTrace (first ++ second) = deviceTrace first ++ deviceTrace second :=
  filterMap_append

theorem deviceTrace_handTrace (kind : Callback) (d : VringDesc) (value entered left : ℕ)
    (inner : List (DevOp × ℕ)) :
    deviceTrace (handTrace view kind d value entered left inner) = inner := by
  induction inner with
  | nil => rfl
  | cons entry inner ih => exact congrArg (entry :: ·) ih

theorem visited_handTrace (kind : Callback) (d : VringDesc) (value entered left : ℕ)
    (inner : List (DevOp × ℕ)) : visited (handTrace view kind d value entered left inner) = [] := by
  induction inner with
  | nil => rfl
  | cons entry inner ih => exact ih

theorem visited_append (first second : List (Op × ℕ)) :
    visited (first ++ second) = visited first ++ visited second :=
  filterMap_append

theorem visited_descStep (descIdx raw : ℕ) (rest : List (Op × ℕ)) :
    visited (descStep view descIdx raw :: rest) =
      (view.descAddr descIdx, .ofRaw raw) :: visited rest :=
  rfl

theorem deviceTrace_descStep (descIdx raw : ℕ) (rest : List (Op × ℕ)) :
    deviceTrace (descStep view descIdx raw :: rest) = deviceTrace rest :=
  rfl

theorem follows_handTo {value : β → ℕ} (h : (handTo view kind body value d).Follows entries reply) :
    ∃ inner entered left, entries = handTrace view kind d (value reply) entered left inner ∧
      body.Follows inner reply := by
  rw [handTo, perform_bind] at h
  obtain ⟨entered, rest, rfl, hrest⟩ := h
  obtain ⟨first, second, reply', rfl, hfirst, hsecond⟩ := follows_bind hrest
  obtain ⟨inner, rfl, hinner⟩ := follows_embed hfirst
  obtain ⟨left, last, rfl, rfl, rfl⟩ := hsecond
  exact ⟨inner, entered, left, rfl, hinner⟩

theorem handTo_follows (value : β → ℕ) (h : body.Follows inner reply) :
    (handTo view kind body value d).Follows (handTrace view kind d (value reply) 0 0 inner)
      reply := by
  rw [handTo, perform_bind]
  refine Program.Follows.step (Program.Follows.bind (h.embed _) ?_)
  exact Program.Follows.step (follows_done reply)

theorem follows_forward
    (h : (forward device view queueHeaderSize numBytesWritten state d).Follows entries state') :
    ∃ inner entered left,
      entries = handTrace view (forwardCallback queueHeaderSize numBytesWritten) d 0 entered left
        inner ∧
      (callback device view.id.queue (forwardCallback queueHeaderSize numBytesWritten) d
        state).Follows inner state' := by
  unfold forward at h
  unfold forwardCallback
  split_ifs at h ⊢ with hheader
  · exact follows_handTo h
  · exact follows_handTo h

theorem forward_follows
    (h : (callback device view.id.queue (forwardCallback queueHeaderSize numBytesWritten) d
      state).Follows inner state') :
    (forward device view queueHeaderSize numBytesWritten state d).Follows
      (handTrace view (forwardCallback queueHeaderSize numBytesWritten) d 0 0 0 inner) state' := by
  unfold forward
  unfold forwardCallback at h ⊢
  split_ifs at h ⊢ with hheader
  · exact handTo_follows (fun _ ↦ 0) h
  · exact handTo_follows (fun _ ↦ 0) h

/-- The descriptors of a visited list, without their addresses. -/
def descs (entries : List (ℕ × VringDesc)) : List VringDesc := entries.map Prod.snd

/-- What a walk's trace shows: the device model served the calls of the descriptors visited, and
these are a walk. -/
theorem walkChain_serves {stepsLeft descIdx : ℕ}
    (h : (walkChain device view queueHeaderSize stepsLeft descIdx numBytesWritten state).Follows
      entries result) :
    Serves device view.id.queue state
        (callsOf view queueHeaderSize numBytesWritten (descs (visited entries)))
        (deviceTrace entries) ∧
      IsWalk view stepsLeft descIdx (visited entries) := by
  induction stepsLeft generalizing descIdx numBytesWritten state entries with
  | zero =>
    obtain ⟨rfl, -⟩ := h
    exact ⟨rfl, isWalk_nil view descIdx⟩
  | succ stepsLeft ih =>
    rw [walkChain, perform_bind] at h
    obtain ⟨raw, rest, rfl, hrest⟩ := h
    dsimp only at hrest
    change Serves device view.id.queue state (callsOf view queueHeaderSize numBytesWritten
      (descs (visited (descStep view descIdx raw :: rest)))) (deviceTrace rest) ∧
      IsWalk view (stepsLeft + 1) descIdx (visited (descStep view descIdx raw :: rest))
    rw [visited_descStep]
    split_ifs at hrest with hrange hnext
    · obtain ⟨first, second, state', rfl, hfirst, hsecond⟩ := follows_bind hrest
      obtain ⟨inner, entered, left, rfl, hinner⟩ := follows_forward hfirst
      obtain ⟨hserves, hwalk⟩ := ih hsecond
      rw [visited_append, visited_handTrace, deviceTrace_append, deviceTrace_handTrace,
        nil_append, descs, map_cons, callsOf, if_pos hrange, if_pos hnext]
      exact ⟨⟨inner, _, state', rfl, hinner, hserves⟩, IsWalk.cons view hrange hnext hwalk⟩
    · obtain ⟨first, second, reply, rfl, hfirst, rfl, -⟩ := follows_bind hrest
      obtain ⟨inner, entered, left, rfl, hinner⟩ := follows_handTo hfirst
      rw [append_nil, visited_handTrace, deviceTrace_handTrace, descs, map_cons, callsOf,
        if_pos hrange, if_neg hnext]
      refine ⟨⟨inner, [], reply.1, (append_nil inner).symm, ?_, rfl⟩,
        isWalk_singleton view fun hstop ↦ hnext hstop.2⟩
      have hcomplete : (callback device view.id.queue .processQueueComplete (.ofRaw raw)
          state).Follows (inner ++ []) reply.1 :=
        Program.Follows.bind hinner (follows_done reply.1)
      rwa [append_nil] at hcomplete
    · obtain ⟨rfl, -⟩ := hrest
      refine ⟨?_, isWalk_singleton view fun hstop ↦ hrange hstop.1⟩
      rw [show visited ([] : List (Op × ℕ)) = [] from rfl, descs, map_cons, callsOf,
        if_neg hrange]
      rfl

theorem admits_handTrace {value : ℕ} (h : ∀ entry ∈ inner, entry.1.Admits entry.2) :
    ∀ step ∈ handTrace view kind d value 0 0 inner, step.1.Admits step.2 := by
  intro step hmem
  simp only [handTrace, mem_cons, mem_append, mem_map, not_mem_nil,
    or_false] at hmem
  rcases hmem with (rfl | ⟨entry, hentry, rfl⟩) | rfl
  · rfl
  · exact h entry hentry
  · rfl

theorem ofRaw_mod (raw : ℕ) : ofRaw (raw % 2 ^ 128) = ofRaw raw := by
  simp only [ofRaw, mk.injEq]
  omega

section Iterations

variable {stepsLeft descIdx raw : ℕ}

theorem walkChain_follows_next (hrange : view.inRange (.ofRaw raw) = true)
    (hnext : (ofRaw raw).hasNext = true)
    (hinner : (callback device view.id.queue (forwardCallback queueHeaderSize numBytesWritten)
      (.ofRaw raw) state).Follows inner state') {steps : List (Op × ℕ)}
    (hsteps : (walkChain device view queueHeaderSize stepsLeft (ofRaw raw).next
      ((numBytesWritten + (ofRaw raw).len) % 2 ^ 64) state').Follows steps result) :
    (walkChain device view queueHeaderSize (stepsLeft + 1) descIdx numBytesWritten state).Follows
      (descStep view descIdx raw ::
        (handTrace view (forwardCallback queueHeaderSize numBytesWritten)
        (.ofRaw raw) 0 0 0 inner ++ steps)) result := by
  rw [walkChain, perform_bind]
  refine Program.Follows.step ?_
  rw [if_pos hrange, if_pos hnext]
  exact (forward_follows hinner).bind hsteps

theorem walkChain_follows_last (hrange : view.inRange (.ofRaw raw) = true)
    (hnext : ¬ (ofRaw raw).hasNext = true) {reply : D × ℕ}
    (hinner : (device.processQueueComplete state view.id.queue (ofRaw raw).addr
      (ofRaw raw).len).Follows inner reply) :
    (walkChain device view queueHeaderSize (stepsLeft + 1) descIdx numBytesWritten state).Follows
      (descStep view descIdx raw ::
        handTrace view .processQueueComplete (.ofRaw raw) reply.2 0 0 inner)
      (reply.1, some ((numBytesWritten + reply.2) % 2 ^ 64)) := by
  rw [walkChain, perform_bind]
  refine Program.Follows.step ?_
  rw [if_pos hrange, if_neg hnext, ← append_nil (handTrace _ _ _ _ _ _ _)]
  exact Program.Follows.bind (handTo_follows Prod.snd hinner) (follows_done _)

theorem walkChain_follows_refused (hrange : ¬ view.inRange (.ofRaw raw) = true) :
    (walkChain device view queueHeaderSize (stepsLeft + 1) descIdx numBytesWritten state).Follows
      [descStep view descIdx raw] (state, none) := by
  rw [walkChain, perform_bind]
  refine Program.Follows.step ?_
  rw [if_neg hrange]
  exact follows_done _

end Iterations

/-- Every service of the calls of a walk occurs in a trace of that walk. Assumes: descriptors that
are words of memory, and answers that fit. -/
theorem walkChain_realises {stepsLeft descIdx : ℕ} {entries : List (ℕ × VringDesc)}
    (hwalk : IsWalk view stepsLeft descIdx entries)
    (hwords : ∀ entry ∈ entries, ∃ raw, entry.2 = .ofRaw raw)
    (hserves : Serves device view.id.queue state
      (callsOf view queueHeaderSize numBytesWritten (descs entries)) inner)
    (hadmits : ∀ entry ∈ inner, entry.1.Admits entry.2) :
    ∃ steps result,
      (walkChain device view queueHeaderSize stepsLeft descIdx numBytesWritten state).Follows steps
        result ∧
      visited steps = entries ∧ deviceTrace steps = inner ∧
      ∀ step ∈ steps, step.1.Admits step.2 := by
  induction entries generalizing stepsLeft descIdx numBytesWritten state inner with
  | nil =>
    obtain rfl : inner = [] := hserves
    have hzero : stepsLeft = 0 := by
      by_contra hpos
      obtain ⟨last, hlast, -⟩ := hwalk.stops (Nat.pos_of_ne_zero hpos)
      simp at hlast
    subst hzero
    exact ⟨[], _, follows_done _, rfl, rfl, by simp⟩
  | cons entry rest ih =>
    obtain ⟨addr, d⟩ := entry
    obtain ⟨stepsLeft, rfl⟩ : ∃ n, stepsLeft = n + 1 :=
      Nat.exists_eq_succ_of_ne_zero (Nat.ne_of_gt (lt_of_lt_of_le (Nat.succ_pos _) hwalk.length_le))
    obtain rfl : addr = view.descAddr descIdx := hwalk.follows.1
    obtain ⟨raw, hraw⟩ := hwords _ mem_cons_self
    obtain rfl : d = .ofRaw (raw % 2 ^ 128) := by rw [ofRaw_mod, ← hraw]
    set word := raw % 2 ^ 128
    have hword : (descStep view descIdx word).1.Admits word := Nat.mod_lt raw (by norm_num)
    rw [descs, map_cons, callsOf] at hserves
    by_cases hpass : view.inRange (.ofRaw word) = true ∧ (ofRaw word).hasNext = true
    · obtain ⟨hrange, hnext⟩ := hpass
      rw [if_pos hrange, if_pos hnext] at hserves
      obtain ⟨first, second, state', rfl, hfirst, hsecond⟩ := hserves
      rw [forall_mem_append] at hadmits
      obtain ⟨steps, result, hsteps, hvis, hdev, hfit⟩ := ih (hwalk.tail hrange hnext)
        (fun entry hmem ↦ hwords entry (mem_cons_of_mem _ hmem)) hsecond hadmits.2
      refine ⟨_, result, walkChain_follows_next hrange hnext hfirst hsteps, ?_, ?_, ?_⟩
      · rw [visited_descStep, visited_append, visited_handTrace, nil_append, hvis]
      · rw [deviceTrace_descStep, deviceTrace_append, deviceTrace_handTrace, hdev]
      · rw [forall_mem_cons, forall_mem_append]
        exact ⟨hword, admits_handTrace hadmits.1, hfit⟩
    · obtain rfl := hwalk.rest_eq_nil hpass
      by_cases hrange : view.inRange (.ofRaw word) = true
      · have hnext : ¬ (ofRaw word).hasNext = true := fun hnext ↦ hpass ⟨hrange, hnext⟩
        rw [if_pos hrange, if_neg hnext] at hserves
        obtain ⟨first, second, state', rfl, hfirst, rfl⟩ := hserves
        obtain ⟨inner, rest, reply, rfl, hinner, rfl, rfl⟩ := follows_bind hfirst
        rw [append_nil, append_nil] at hadmits ⊢
        refine ⟨_, _, walkChain_follows_last hrange hnext hinner, ?_, ?_, ?_⟩
        · rw [visited_descStep, visited_handTrace]
        · rw [deviceTrace_descStep, deviceTrace_handTrace]
        · exact forall_mem_cons.mpr ⟨hword, admits_handTrace hadmits⟩
      · rw [if_neg hrange] at hserves
        obtain rfl : inner = [] := hserves
        exact ⟨_, _, walkChain_follows_refused hrange, rfl, rfl,
          forall_mem_cons.mpr ⟨hword, by simp⟩⟩

end Walk

/-! ### Confinement -/

/-- Every byte of a range lies inside the buffer of a descriptor. -/
def RangeCovered (chain : List VringDesc) (range : ℕ × ℕ) : Prop :=
  ∀ a, range.1 ≤ a → a < range.1 + range.2 → ∃ d ∈ chain, d.addr ≤ a ∧ a < d.addr + d.len

/-- A chain as guest memory can show it to a walk: the descriptors in the order they are visited,
each with the address it is read at. -/
structure GuestChain (view : QueueView) where
  head : ℕ
  visited : List (ℕ × VringDesc)
  isWalk : IsWalk view view.queueNum head visited
  words : ∀ entry ∈ visited, ∃ raw, entry.2 = .ofRaw raw

/-- In every run of the walk that visits the chain, the device model reads and writes guest memory
only inside the buffers of the chain. -/
def PayloadConfined {D : Type} (device : VirtioDevice D) (view : QueueView) (state : D)
    (chain : GuestChain view) : Prop :=
  ∀ (guest : Interference) (clock : ℕ) (w : World), w.history = [] →
    let out := (walkChain device view (device.queueHeaderSize state) view.queueNum chain.head 0
      state).run exec guest.act clock w
    let entries := out.state.log nativeOp
    visited entries = chain.visited →
      ∀ range ∈ touched entries, RangeCovered (descs chain.visited) range

section Confined

variable {device : VirtioDevice D} {chain : GuestChain view}

theorem visited_native (entries : List (Op × ℕ)) :
    visited (entries.filterMap fun entry ↦ nativeOp (.did entry.1 entry.2)) = visited entries := by
  unfold visited
  rw [filterMap_filterMap]
  congr 1
  funext ⟨op, answer⟩
  cases op <;> rfl

theorem deviceTrace_native (entries : List (Op × ℕ)) :
    deviceTrace (entries.filterMap fun entry ↦ nativeOp (.did entry.1 entry.2)) =
      deviceTrace entries := by
  unfold deviceTrace
  rw [filterMap_filterMap]
  congr 1
  funext ⟨op, answer⟩
  cases op <;> rfl

/-- The calls of a chain. -/
def GuestChain.calls (chain : GuestChain view) (queueHeaderSize : ℕ) :
    List (Callback × VringDesc) :=
  callsOf view queueHeaderSize 0 (descs chain.visited)

theorem payloadConfined_of_serves
    (h : ∀ inner, Serves device view.id.queue state (chain.calls (device.queueHeaderSize state))
      inner → ∀ range ∈ inner.filterMap fun entry ↦ touch entry.1,
        RangeCovered (descs chain.visited) range) : PayloadConfined device view state chain := by
  intro guest clock w hhistory out entries hvis
  set walk := walkChain device view (device.queueHeaderSize state) view.queueNum chain.head 0 state
  have hlog : entries = (walk.trace exec guest.act clock w).filterMap fun entry ↦
      nativeOp (.did entry.1 entry.2) := by
    have hrun := log_run walk guest clock w
    rw [World.log, World.log, hhistory] at hrun
    exact hrun
  have hserves := (walkChain_serves (walk.follows_trace exec guest.act clock w)).1
  rw [← visited_native, ← deviceTrace_native, ← hlog, hvis] at hserves
  exact h _ hserves

theorem PayloadConfined.serves (h : PayloadConfined device view state chain)
    (hserves : Serves device view.id.queue state (chain.calls (device.queueHeaderSize state)) inner)
    (hadmits : ∀ entry ∈ inner, entry.1.Admits entry.2) :
    ∀ range ∈ inner.filterMap fun entry ↦ touch entry.1,
      RangeCovered (descs chain.visited) range := by
  obtain ⟨steps, result, hsteps, hvis, hdev, hfit⟩ :=
    walkChain_realises chain.isWalk chain.words hserves hadmits
  set w : World := ⟨fun _ ↦ 0, fun _ _ ↦ 0, fun _ _ ↦ 0, fun _ _ ↦ 0, fun _ _ ↦ 0, []⟩
  have hlog := log_run
    (walkChain device view (device.queueHeaderSize state) view.queueNum chain.head
    0 state) (scripted steps) 0 w
  rw [scripted_trace hsteps hfit w] at hlog
  have hempty : w.log nativeOp = [] := rfl
  have hconfined := h (scripted steps) 0 w rfl
  dsimp only at hconfined
  rw [hlog] at hconfined
  rw [hempty, nil_append, visited_native, touched, deviceTrace_native, hdev] at hconfined
  exact hconfined hvis

end Confined

/-! ### Footprints -/

/-- An operation of a device model that stays inside a buffer or touches one of some ranges. -/
def TouchesOnly (d : VringDesc) (ranges : List (ℕ × ℕ)) (op : DevOp) : Prop :=
  ∀ range, touch op = some range → RangeCovered [d] range ∨ range ∈ ranges

section TouchesOnly

variable {ranges : List (ℕ × ℕ)} {addr size value : ℕ}

section

variable (h : RangeCovered [d] (addr, size) ∨ (addr, size) ∈ ranges)
include h

theorem touchesOnly_load : TouchesOnly d ranges (.load addr size) := by
  rintro range ⟨rfl⟩
  exact h

theorem touchesOnly_store : TouchesOnly d ranges (.store addr size value) := by
  rintro range ⟨rfl⟩
  exact h

end

theorem touchesOnly_of_touch_eq_none {op : DevOp} (h : touch op = none) :
    TouchesOnly d ranges op := by
  intro range hrange
  rw [h] at hrange
  exact absurd hrange (by simp)

end TouchesOnly

/-- Answers chosen by the operation, all of which fit, lead to a trace. -/
theorem exists_trace_touching {α : Type} {program : DevProg α} {answers : DevOp → ℕ}
    (hfit : ∀ op : DevOp, op.Admits (answers op)) {ranges : List (ℕ × ℕ)}
    (h : ∀ range ∈ ranges, ∃ entry ∈ program.traceWith answers, touch entry.1 = some range) :
    ∃ entries result, program.Follows entries result ∧
      (∀ entry ∈ entries, entry.1.Admits entry.2) ∧
      ∀ range ∈ ranges, ∃ entry ∈ entries, touch entry.1 = some range := by
  obtain ⟨result, hfollows⟩ := exists_follows_traceWith answers program
  refine ⟨_, result, hfollows, fun entry hentry ↦ ?_, h⟩
  rw [mem_traceWith hentry]
  exact hfit entry.1

/-- A description of the bytes that the callbacks of a device model touch. -/
structure Footprint {D : Type} (device : VirtioDevice D) where
  /-- The part of the state that later accesses depend on. -/
  Summary : Type
  summary : D → Summary
  /-- The summary after a callback. -/
  advance : (queueIdx : ℕ) → Callback → VringDesc → Summary → Summary
  /-- The ranges of guest memory that a callback may touch whatever the length of its buffer. -/
  exposed : (queueIdx : ℕ) → Callback → VringDesc → Summary → List (ℕ × ℕ)
  /-- A callback touches its buffer and exposed ranges, nothing else. -/
  sound : ∀ queueIdx kind d state, (callback device queueIdx kind d state).Always
    (TouchesOnly d (exposed queueIdx kind d (summary state)))
    fun state' ↦ summary state' = advance queueIdx kind d (summary state)
  /-- For some answers a callback touches all exposed ranges. -/
  tight : ∀ queueIdx kind d state, ∃ entries state',
    (callback device queueIdx kind d state).Follows entries state' ∧
      (∀ entry ∈ entries, entry.1.Admits entry.2) ∧
      ∀ range ∈ exposed queueIdx kind d (summary state), ∃ entry ∈ entries,
        touch entry.1 = some range

namespace Footprint

variable {device : VirtioDevice D} (footprint : Footprint device)

/-- The ranges exposed by each of a list of calls are inside the buffers of the chain. -/
def ExposedInside (queueIdx : ℕ) (chain : List VringDesc) :
    footprint.Summary → List (Callback × VringDesc) → Prop
  | _, [] => True
  | summary, call :: calls =>
    (∀ range ∈ footprint.exposed queueIdx call.1 call.2 summary, RangeCovered chain range) ∧
      ExposedInside queueIdx chain (footprint.advance queueIdx call.1 call.2 summary) calls

variable {queueIdx : ℕ} {chain : List VringDesc}

theorem RangeCovered.of_mem {range : ℕ × ℕ} (h : RangeCovered [d] range) (hmem : d ∈ chain) :
    RangeCovered chain range := by
  intro a hlow hhigh
  obtain ⟨d', hd', hinside⟩ := h a hlow hhigh
  rw [mem_singleton.mp hd'] at hinside
  exact ⟨d, hmem, hinside⟩

/-- A device model whose exposed ranges are inside the chain stays inside the chain. -/
theorem serves_covered {calls : List (Callback × VringDesc)}
    (hserves : Serves device queueIdx state calls inner) (hmem : ∀ call ∈ calls, call.2 ∈ chain)
    (hexposed : footprint.ExposedInside queueIdx chain (footprint.summary state) calls) :
    ∀ range ∈ inner.filterMap fun entry ↦ touch entry.1, RangeCovered chain range := by
  induction calls generalizing state inner with
  | nil =>
    obtain rfl : inner = [] := hserves
    simp
  | cons call calls ih =>
    obtain ⟨first, rest, state', rfl, hfirst, hrest⟩ := hserves
    obtain ⟨hinside, hlater⟩ := hexposed
    obtain ⟨hops, hsummary⟩ := (footprint.sound queueIdx call.1 call.2 state).follows hfirst
    rw [← hsummary] at hlater
    rw [forall_mem_cons] at hmem
    intro range hrange
    rw [filterMap_append, mem_append] at hrange
    rcases hrange with hrange | hrange
    · obtain ⟨entry, hentry, htouch⟩ := mem_filterMap.mp hrange
      rcases hops entry hentry range htouch with hbuffer | hheader
      · exact RangeCovered.of_mem hbuffer hmem.1
      · exact hinside range hheader
    · exact ih hrest hmem.2 hlater range hrange

/-- Some service touches every exposed range of every call. -/
theorem exists_serves (queueIdx : ℕ) (chain : List VringDesc)
    (calls : List (Callback × VringDesc)) (state : D) :
    ∃ inner, Serves device queueIdx state calls inner ∧
      (∀ entry ∈ inner, entry.1.Admits entry.2) ∧
      ((∀ range ∈ inner.filterMap fun entry ↦ touch entry.1, RangeCovered chain range) →
        footprint.ExposedInside queueIdx chain (footprint.summary state) calls) := by
  induction calls generalizing state with
  | nil => exact ⟨[], rfl, by simp, fun _ ↦ trivial⟩
  | cons call calls ih =>
    obtain ⟨first, state', hfirst, hadmits, htouched⟩ := footprint.tight queueIdx call.1 call.2
      state
    obtain ⟨rest, hrest, hadmits', hcovered⟩ := ih state'
    have hsummary := ((footprint.sound queueIdx call.1 call.2 state).follows hfirst).2
    refine ⟨first ++ rest, ⟨first, rest, state', rfl, hfirst, hrest⟩, ?_, fun hall ↦ ⟨?_, ?_⟩⟩
    · exact forall_mem_append.mpr ⟨hadmits, hadmits'⟩
    · intro range hrange
      obtain ⟨entry, hentry, htouch⟩ := htouched range hrange
      refine hall range (mem_filterMap.mpr ⟨entry, mem_append_left _ hentry, htouch⟩)
    · rw [← hsummary]
      refine hcovered fun range hrange ↦ hall range ?_
      rw [filterMap_append]
      exact mem_append_right _ hrange

theorem mem_callsOf {call : Callback × VringDesc}
    (h : call ∈ callsOf view queueHeaderSize numBytesWritten chain) : call.2 ∈ chain := by
  induction chain generalizing numBytesWritten with
  | nil => simp [callsOf] at h
  | cons d rest ih =>
    rw [callsOf] at h
    split_ifs at h with hrange hnext
    · rcases mem_cons.mp h with rfl | hrest
      · exact mem_cons_self
      · exact mem_cons_of_mem _ (ih hrest)
    · rw [mem_singleton.mp h]
      exact mem_cons_self
    · exact absurd h not_mem_nil

/-- During a walk of a chain a device model stays inside the buffers of the chain if and only if its
exposed ranges do. -/
theorem confined_iff (state : D) (chain : GuestChain view) :
    PayloadConfined device view state chain ↔
      footprint.ExposedInside view.id.queue (descs chain.visited) (footprint.summary state)
        (chain.calls (device.queueHeaderSize state)) := by
  constructor
  · intro h
    obtain ⟨inner, hserves, hadmits, hcovered⟩ := footprint.exists_serves view.id.queue
      (descs chain.visited) (chain.calls (device.queueHeaderSize state)) state
    exact hcovered (h.serves hserves hadmits)
  · intro h
    exact payloadConfined_of_serves fun inner hserves ↦
      footprint.serves_covered hserves (fun call hmem ↦ mem_callsOf hmem) h

end Footprint

end Bhx.Device
