import Bhx.SharedMemory.Abstraction
import Bhx.SharedMemory.Cores

/-!
# A mutex

Threads share a memory and a mutex. A thread that wants the mutex waits until it is free (`Waits`),
works on the memory and gives it back, and says with `unlock` what it has done. What the mutex
protects is a view of the memory (`Resource`): the steps of the threads as that view sees them, an
invariant that holds while the mutex is free, and for each report what a section does to the view. A
thread by itself is described in an abstraction in which it is outside or inside a section, with
what it found there and what it has now (`Resource.next`, `Resource.guarantee`), and outside it does
only what leaves the view alone.

`Resource.follow` says that nothing else is needed: when every thread keeps to this by itself, then
along every schedule, with any number of threads and any acts from outside that leave the view
alone, the invariant holds while the mutex is free, and a section does what it reports.
-/

set_option autoImplicit false

namespace Bhx.SharedMemory

open Function Option Program Cores

variable {ι O A R ε α β σ τ E : Type} {thread : ι}

/-! ### Sections -/

/-- The steps of threads that share a mutex. -/
inductive MutexOp (ι O R : Type)
  | lock (thread : ι)
  /-- Gives the mutex back, with a report of what was done. -/
  | unlock (report : R)
  | inner (op : O)

/-- A memory with a mutex. `entry` is what the memory was when the mutex was taken; nothing reads it
but statements. -/
structure Guarded (ι σ : Type) where
  memory : σ
  owner : Option ι
  entry : σ

/-- Another content of the memory. -/
def Guarded.set (s : Guarded ι σ) (memory : σ) : Guarded ι σ := { s with memory }

/-- The effect and the answer of a step. -/
def mutexExec [Inhabited A] (exec : O → σ → A × σ) :
    MutexOp ι O R → Guarded ι σ → A × Guarded ι σ
  | .lock thread, s => (default, ⟨s.memory, some thread, s.memory⟩)
  | .unlock _, s => (default, { s with owner := none })
  | .inner op, s => ((exec op s.memory).1, s.set (exec op s.memory).2)

/-- Threads with a mutex. -/
def mutexThreads [Inhabited A] {L : ι → Type} (exec : O → σ → A × σ) (act : E → σ → σ)
    (loop : (thread : ι) → L thread → Program (MutexOp ι O R) A (L thread)) :
    Cores ι (MutexOp ι O R) A E (Guarded ι σ) L where
  exec := mutexExec exec
  act event s := s.set (act event s.memory)
  loop

/-- A part that a thread carries out with the mutex. -/
def locked (thread : ι) (report : Except ε α → R) (part : Fallible O A ε α) :
    Fallible (MutexOp ι O R) A ε α :=
  ExceptT.mk do
    let _ ← Program.perform (.lock thread)
    let result ← part.run.embed .inner
    let _ ← Program.perform (.unlock (report result))
    pure result

/-- A part that it carries out without. -/
def unlocked (part : Fallible O A ε α) : Fallible (MutexOp ι O R) A ε α :=
  ExceptT.mk (part.run.embed .inner)

/-- A program without the steps on the mutex. -/
def Program.erase [Inhabited A] : Program (MutexOp ι O R) A α → Program O A α
  | done result => done result
  | step (.inner op) next => step op fun answer ↦ (next answer).erase
  | step _ next => (next default).erase

section Erase

variable [Inhabited A]

theorem Program.erase_bind (program : Program (MutexOp ι O R) A α)
    (next : α → Program (MutexOp ι O R) A β) :
    (program >>= next).erase = program.erase >>= fun result ↦ (next result).erase := by
  induction program with
  | done result => rfl
  | step op rest ih =>
    cases op with
    | inner op => exact congrArg (step op) (funext ih)
    | _ => exact ih default

theorem Program.erase_embed (program : Program O A α) :
    (program.embed (.inner : O → MutexOp ι O R)).erase = program := by
  induction program with
  | done result => rfl
  | step op rest ih => exact congrArg (step op) (funext ih)

/-- A part that may fail, without the steps on the mutex. -/
def Fallible.erase (part : Fallible (MutexOp ι O R) A ε α) : Fallible O A ε α :=
  ExceptT.mk part.run.erase

theorem Fallible.erase_bind (part : Fallible (MutexOp ι O R) A ε α)
    (next : α → Fallible (MutexOp ι O R) A ε β) :
    Fallible.erase (part >>= next) =
      (Fallible.erase part >>= fun value ↦ Fallible.erase (next value)) := by
  refine (Program.erase_bind part.run _).trans
    (congrArg (part.run.erase >>= ·) (funext fun result ↦ ?_))
  cases result with
  | ok value => rfl
  | error failure => rfl

theorem erase_locked (thread : ι) (report : Except ε α → R) (part : Fallible O A ε α) :
    Fallible.erase (locked thread report part) = part := by
  change (part.run.embed .inner >>= fun result ↦
    step (.unlock (report result)) fun _ ↦ done result).erase = part.run
  rw [erase_bind, erase_embed]
  exact bind_done part.run

theorem erase_unlocked (part : Fallible O A ε α) :
    Fallible.erase (unlocked part : Fallible (MutexOp ι O R) A ε α) = part :=
  erase_embed part.run

end Erase

/-! ### What a mutex protects -/

/-- What a mutex protects: a view of the memory, the steps as the view sees them, the steps that are
taken without the mutex, the invariant of a free mutex, what is kept up inside a section, and what a
section does, by its report. -/
structure Resource (σ τ O A R : Type) where
  view : σ → τ
  step : O → τ → A → τ → Prop
  harmless : O → Prop
  inv : τ → Prop
  within : O → τ → Prop
  effect : R → τ → τ → Prop

/-- Where a thread is: outside of sections, or inside of one with what it found and what it has
now. -/
inductive Place (τ : Type)
  | outside
  | inside (entry now : τ)

namespace Resource

variable (resource : Resource σ τ O A R)

/-- The steps of a thread by itself. -/
def next : MutexOp ι O R → Place τ → A → Place τ → Prop
  | .lock _, .outside, _, place => ∃ entry, resource.inv entry ∧ place = .inside entry entry
  | .inner op, .inside entry now, answer, place =>
    ∃ now', resource.step op now answer now' ∧ place = .inside entry now'
  | .inner _, .outside, _, place => place = .outside
  | .unlock _, .inside _ _, _, place => place = .outside
  | _, _, _, _ => False

/-- What a thread keeps to by itself. -/
def guarantee (thread : ι) : MutexOp ι O R → Place τ → Prop
  | .lock taker, .outside => taker = thread
  | .inner op, .inside _ now => resource.within op now
  | .inner op, .outside => resource.harmless op
  | .unlock report, .inside entry now => resource.effect report entry now ∧ resource.inv now
  | _, _ => False

/-- The steps are as the view sees them, and those that are taken without the mutex leave it
alone. -/
structure Sees (exec : O → σ → A × σ) : Prop where
  step : ∀ op s, resource.step op (resource.view s) (exec op s).1 (resource.view (exec op s).2)
  still : ∀ op s, resource.harmless op → resource.view (exec op s).2 = resource.view s

section Settles

variable {resource} {thread : ι} {part : Fallible O A ε α}

theorem meets_inside {post : α → τ → Prop} {program : Program O A α} {entry now : τ}
    (h : Meets resource.step resource.within post program now) :
    Meets resource.next (resource.guarantee thread)
      (fun result place ↦ ∃ now, place = .inside entry now ∧ post result now)
      (program.embed (.inner : O → MutexOp ι O R)) (.inside entry now) := by
  induction program generalizing now with
  | done result => exact ⟨now, rfl, h⟩
  | step op rest ih =>
    refine ⟨h.1, fun answer place hnext ↦ ?_⟩
    obtain ⟨now', hstep, rfl⟩ := hnext
    exact ih answer (h.2 answer now' hstep)

/-- A section that does what it reports and keeps the invariant. -/
theorem settles_locked {report : Except ε α → R} (h : ∀ entry, resource.inv entry →
      Settles resource.step resource.within part
        (fun value now ↦ resource.effect (report (.ok value)) entry now ∧ resource.inv now)
        (fun failure now ↦ resource.effect (report (.error failure)) entry now ∧ resource.inv now)
        entry) :
    Settles resource.next (resource.guarantee thread) (locked thread report part)
      (fun _ place ↦ place = .outside) (fun _ place ↦ place = .outside) .outside := by
  refine ⟨rfl, fun _ place hnext ↦ ?_⟩
  obtain ⟨entry, hinv, rfl⟩ := hnext
  refine (meets_inside (h entry hinv)).bind fun result place hplace ↦ ?_
  obtain ⟨now, rfl, hres⟩ := hplace
  refine ⟨?_, fun _ place hnext ↦ ?_⟩
  · cases result with
    | ok value => exact hres
    | error failure => exact hres
  · cases result with
    | ok value => exact hnext
    | error failure => exact hnext

theorem settles_unlocked (h : part.Only resource.harmless) :
    Settles resource.next (resource.guarantee thread) (unlocked part)
      (fun _ place ↦ place = .outside) (fun _ place ↦ place = .outside) .outside := by
  have hinner : (unlocked part : Fallible (MutexOp ι O R) A ε α).Only fun op ↦ ∃ inner,
    op = .inner inner ∧ resource.harmless inner := h.embed fun op hop ↦ ⟨op, rfl, hop⟩
  refine settles_keeping hinner (fun op place hop hplace ↦ ?_) rfl
  obtain ⟨inner, rfl, hharmless⟩ := hop
  subst hplace
  exact ⟨hharmless, fun _ _ hnext ↦ hnext⟩

end Settles

/-! ### Threads that share it -/

section Threads

variable [DecidableEq ι] {L : ι → Type}

/-- A thread that wants the mutex waits until it is free, and what happens outside leaves the view
alone. -/
def Waits (act : E → σ → σ) (c : Config ι (MutexOp ι O R) A E (Guarded ι σ) L) : Turn ι E → Prop
  | .core thread => ∀ taker, (c.rest thread).nextOp = some (.lock taker) →
    c.scene.memory.owner = none
  | .act event =>
    resource.view (act event c.scene.memory.memory) = resource.view c.scene.memory.memory

/-- Where a thread is. -/
def place (thread : ι) (s : Guarded ι σ) : Place τ :=
  if s.owner = some thread then .inside (resource.view s.entry) (resource.view s.memory)
  else .outside

/-- Every thread keeps to what it does by itself, and the invariant holds while the mutex is
free. -/
structure Holds (between : (thread : ι) → L thread → Prop)
    (c : Config ι (MutexOp ι O R) A E (Guarded ι σ) L) : Prop where
  threads : ∀ thread, Meets resource.next (resource.guarantee thread)
    (fun result place ↦ between thread result ∧ place = .outside) (c.rest thread)
    (resource.place thread c.scene.memory)
  free : c.scene.memory.owner = none → resource.inv (resource.view c.scene.memory.memory)

variable {resource} {exec : O → σ → A × σ} {act : E → σ → σ}
  {loop : (thread : ι) → L thread → Program (MutexOp ι O R) A (L thread)}
  {between : (thread : ι) → L thread → Prop} {c : Config ι (MutexOp ι O R) A E (Guarded ι σ) L}
  {s : Guarded ι σ}

theorem place_owner (h : s.owner = some thread) :
    resource.place thread s = .inside (resource.view s.entry) (resource.view s.memory) := if_pos h

theorem place_other (h : s.owner ≠ some thread) : resource.place thread s = .outside := if_neg h

theorem place_set_owner (h : s.owner = some thread) (memory : σ) :
    resource.place thread (s.set memory) = .inside (resource.view s.entry) (resource.view memory) :=
  if_pos h

theorem place_set_other (h : s.owner ≠ some thread) (memory : σ) :
    resource.place thread (s.set memory) = .outside := if_neg h

theorem place_set {memory : σ} (hview : resource.view memory = resource.view s.memory)
    (thread : ι) : resource.place thread (s.set memory) = resource.place thread s := by
  unfold place Guarded.set
  rw [hview]

theorem Holds.effect (h : resource.Holds between c) {report : R}
    (hnext : (c.rest thread).nextOp = some (.unlock report)) :
    resource.effect report (resource.view c.scene.memory.entry)
      (resource.view c.scene.memory.memory) := by
  have hmeets := h.threads thread
  cases hrest : c.rest thread with
  | done result =>
    rw [hrest] at hnext
    exact absurd hnext (some_ne_none _).symm
  | step op rest =>
    rw [hrest] at hnext hmeets
    obtain rfl : op = .unlock report := some.inj hnext
    by_cases howner : c.scene.memory.owner = some thread
    · rw [place_owner howner] at hmeets
      exact hmeets.1.1
    · rw [place_other howner] at hmeets
      exact hmeets.1.elim

/-- What holds while the mutex is free, inside of sections and at their end holds always. -/
theorem Holds.always (h : resource.Holds between c) {holds : τ → Prop}
    (hinv : ∀ v, resource.inv v → holds v) (hwithin : ∀ op v, resource.within op v → holds v) :
    holds (resource.view c.scene.memory.memory) := by
  cases howner : c.scene.memory.owner with
  | none => exact hinv _ (h.free howner)
  | some thread =>
    have hmeets := h.threads thread
    rw [place_owner howner] at hmeets
    cases hrest : c.rest thread with
    | done result =>
      rw [hrest] at hmeets
      exact nomatch hmeets.2
    | step op rest =>
      rw [hrest] at hmeets
      cases op with
      | lock taker => exact hmeets.1.elim
      | unlock report => exact hinv _ hmeets.1.2
      | inner op => exact hwithin op _ hmeets.1

variable [Inhabited A] {rest : A → Program (MutexOp ι O R) A (L thread)}

theorem Holds.lock (h : resource.Holds between c) {taker : ι}
    (hrest : c.rest thread = .step (.lock taker) rest) (howner : c.scene.memory.owner = none) :
    resource.Holds between ((mutexThreads exec act loop).turn c (.core thread)) := by
  have hmeets := h.threads thread
  rw [hrest, place_other (by simp [howner])] at hmeets
  obtain ⟨htaker, hmeets⟩ := hmeets
  have htaker : taker = thread := htaker
  subst htaker
  rw [turn_step _ hrest]
  refine ⟨fun other ↦ ?_, fun hnone ↦ absurd hnone (some_ne_none taker)⟩
  by_cases hself : other = taker
  · subst hself
    rw [place_owner rfl]
    simp only [update_self]
    exact hmeets _ _ ⟨_, h.free howner, rfl⟩
  · rw [place_other fun hsome ↦ hself (some.inj hsome).symm]
    simp only [update_of_ne hself]
    have hother := h.threads other
    rwa [place_other (by simp [howner])] at hother

theorem Holds.unlock (h : resource.Holds between c) {report : R}
    (hrest : c.rest thread = .step (.unlock report) rest) :
    resource.Holds between ((mutexThreads exec act loop).turn c (.core thread)) := by
  have hmeets := h.threads thread
  rw [hrest] at hmeets
  by_cases howner : c.scene.memory.owner = some thread
  · rw [place_owner howner] at hmeets
    obtain ⟨⟨-, hinv⟩, hmeets⟩ := hmeets
    rw [turn_step _ hrest]
    refine ⟨fun other ↦ ?_, fun _ ↦ hinv⟩
    by_cases hself : other = thread
    · subst hself
      simp only [update_self]
      exact hmeets _ _ rfl
    · simp only [update_of_ne hself]
      have hother := h.threads other
      rwa [place_other (by simp [howner, Ne.symm hself])] at hother
  · rw [place_other howner] at hmeets
    exact hmeets.1.elim

/-- A thread takes a step with the mutex, or one that leaves the view alone. -/
theorem Holds.inner (hsees : resource.Sees exec) (h : resource.Holds between c) {op : O}
    (hrest : c.rest thread = .step (.inner op) rest) :
    resource.Holds between ((mutexThreads exec act loop).turn c (.core thread)) := by
  have hmeets := h.threads thread
  rw [hrest] at hmeets
  rw [turn_step _ hrest]
  by_cases howner : c.scene.memory.owner = some thread
  · rw [place_owner howner] at hmeets
    refine ⟨fun other ↦ ?_, fun hnone ↦ absurd (howner.symm.trans hnone) (some_ne_none thread)⟩
    change Meets _ _ _ (update c.rest thread _ other)
      (resource.place other (c.scene.memory.set (exec op c.scene.memory.memory).2))
    by_cases hself : other = thread
    · subst hself
      rw [place_set_owner howner]
      simp only [update_self]
      exact hmeets.2 _ _ ⟨_, hsees.step op c.scene.memory.memory, rfl⟩
    · have hne : c.scene.memory.owner ≠ some other := by simp [howner, Ne.symm hself]
      rw [place_set_other hne]
      simp only [update_of_ne hself]
      have hother := h.threads other
      rwa [place_other hne] at hother
  · rw [place_other howner] at hmeets
    have hview := hsees.still op c.scene.memory.memory hmeets.1
    refine ⟨fun other ↦ ?_, fun hnone ↦ ?_⟩
    · change Meets _ _ _ (update c.rest thread _ other)
        (resource.place other (c.scene.memory.set (exec op c.scene.memory.memory).2))
      rw [place_set hview]
      by_cases hself : other = thread
      · subst hself
        rw [place_other howner]
        simp only [update_self]
        exact hmeets.2 _ _ rfl
      · simp only [update_of_ne hself]
        exact h.threads other
    · have hinv := h.free hnone
      rwa [← hview] at hinv

/-- Every thread keeps to what it does by itself along every schedule.

Assumes: every pass of a thread, by itself, keeps to `guarantee` and ends outside of sections. -/
theorem follow (hsees : resource.Sees exec) (hloop : ∀ thread result, between thread result →
      Meets resource.next (resource.guarantee thread)
        (fun result place ↦ between thread result ∧ place = .outside) (loop thread result) .outside)
    {turns : List (Turn ι E)}
    (hturns : (mutexThreads exec act loop).Admits (resource.Waits act) c turns)
    (h : resource.Holds between c) :
    resource.Holds between ((mutexThreads exec act loop).follow c turns) := by
  refine follow_induction _ (fun c turn hwaits h ↦ ?_) hturns h
  cases turn with
  | act event =>
    refine ⟨fun thread ↦ ?_, fun hnone ↦ ?_⟩
    · change Meets _ _ _ (c.rest thread)
        (resource.place thread (c.scene.memory.set (act event c.scene.memory.memory)))
      rw [place_set hwaits]
      exact h.threads thread
    · have hinv := h.free hnone
      rwa [← hwaits] at hinv
  | core thread =>
    cases hrest : c.rest thread with
    | step op rest =>
      cases op with
      | lock taker => exact h.lock hrest (hwaits taker (congrArg nextOp hrest))
      | unlock report => exact h.unlock hrest
      | inner op => exact h.inner hsees hrest
    | done result =>
      have hmeets := h.threads thread
      rw [hrest] at hmeets
      obtain ⟨hbetween, hplace⟩ := hmeets
      rw [turn_done _ hrest]
      refine ⟨fun other ↦ ?_, h.free⟩
      by_cases hself : other = thread
      · subst hself
        simp only [update_self]
        rw [show resource.place other (pass other c.scene).memory = .outside from hplace]
        exact hloop other result hbetween
      · simp only [update_of_ne hself]
        exact h.threads other

end Threads

end Resource

end Bhx.SharedMemory
