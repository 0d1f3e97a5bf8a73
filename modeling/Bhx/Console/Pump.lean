import Mathlib.Data.List.Range

/-!
# The console pump

`uart_pass` moves what the guest prints from its transmit ring to the hub and what the clients type
into its receive ring. In each iteration it drains up to 256 bytes and then takes all that is typed:
it waits in front of a full receive ring for as long as it is full, and drains nothing meanwhile.
The guest waits in front of a full transmit ring and reads nothing meanwhile. With more typed than
the receive ring holds, both come to wait for each other (`pump_stuck`). They do not when, at all
times, what is typed has room or what is printed has (`pump_not_stuck`).

Scope. The eye-catcher stays in place and the guest does not park during the pass. Each index of a
ring has one writer, so an access to a ring is one step.
-/

set_option autoImplicit false

namespace Bhx.Console

open List

variable (n : ℕ)

/-! ### Rings -/

/-- `BUFFER_SIZE`. -/
def bufferSize : ℕ := 0x1000

/-- A ring of the virtual UART. -/
structure Ring where
  buf : ℕ → UInt8
  head : ℕ
  tail : ℕ

namespace Ring

/-- `can_push`. -/
def canPush (r : Ring) : Bool := (r.head % bufferSize + 1) % bufferSize ≠ r.tail % bufferSize

/-- `can_pop`. -/
def canPop (r : Ring) : Bool := r.head % bufferSize ≠ r.tail % bufferSize

/-- `push_char` where there is room. -/
def pushChar (r : Ring) (c : UInt8) : Ring :=
  { r with
    buf := Function.update r.buf (r.head % bufferSize) c
    head := (r.head + 1) % bufferSize }

/-- `pop_char`: the byte and the ring afterwards. -/
def popChar (r : Ring) : UInt8 × Ring :=
  (r.buf (r.tail % bufferSize), { r with tail := (r.tail + 1) % bufferSize })

/-- How many bytes are in the ring. -/
def fill (r : Ring) : ℕ := (r.head % bufferSize + bufferSize - r.tail % bufferSize) % bufferSize

variable (r : Ring)

theorem fill_lt : r.fill < bufferSize := Nat.mod_lt _ (by decide)

theorem canPush_iff : r.canPush = true ↔ r.fill + 1 < bufferSize := by
  rw [canPush, decide_eq_true_iff]
  unfold fill bufferSize
  omega

theorem fill_pushChar (c : UInt8) (h : r.canPush = true) : (r.pushChar c).fill = r.fill + 1 := by
  simp only [canPush, decide_eq_true_iff] at h
  simp only [pushChar, fill, bufferSize] at *
  omega

theorem fill_popChar (h : r.canPop = true) : r.popChar.2.fill + 1 = r.fill := by
  simp only [canPop, decide_eq_true_iff] at h
  simp only [popChar, fill, bufferSize] at *
  omega

end Ring

/-! ### The pump and the guest -/

/-- Where `uart_pass` is. -/
inductive PumpStage
  | top
  | drain (out : List UInt8)
  | receive
  | push (b : UInt8)
  | done
deriving DecidableEq

/-- What the guest does: it runs, or spins to print a byte. -/
inductive GuestStage
  | running
  | printing (c : UInt8)
deriving DecidableEq

/-- The pump next to the guest. -/
structure Pump where
  tx : Ring
  rx : Ring
  /-- what is typed and not yet received -/
  input : List UInt8
  exitFlag : Bool
  /-- what went to the hub -/
  output : List UInt8
  daemon : PumpStage
  guest : GuestStage

/-- What happens. -/
inductive PumpEvent
  | typed (bytes : List UInt8)
  | stop
  | daemon
  | print (c : UInt8)
  | spin
  | read

namespace Pump

/-- A step of `uart_pass`. -/
def uartPass (p : Pump) : Pump :=
  match p.daemon with
  | .top => { p with daemon := if p.exitFlag then .done else .drain [] }
  | .drain out =>
    if out.length < 256 ∧ p.tx.canPop then
      { p with tx := p.tx.popChar.2, daemon := .drain (out ++ [p.tx.popChar.1]) }
    else { p with output := p.output ++ out, daemon := .receive }
  | .receive =>
    match p.input with
    | [] => { p with daemon := .top }
    | b :: input => { p with input := input, daemon := .push b }
  | .push b =>
    if p.rx.canPush then { p with rx := p.rx.pushChar b, daemon := .receive }
    else if p.exitFlag then { p with daemon := .done }
    else p
  | .done => p

/-- A step of the guest. -/
def guestStep (p : Pump) : PumpEvent → Pump
  | .print c => if p.guest = .running then { p with guest := .printing c } else p
  | .spin =>
    match p.guest with
    | .running => p
    | .printing c => if p.tx.canPush then { p with tx := p.tx.pushChar c, guest := .running } else p
  | .read =>
    if p.guest = .running ∧ p.rx.canPop then { p with rx := p.rx.popChar.2 } else p
  | _ => p

def after (p : Pump) : PumpEvent → Pump
  | .typed bytes => { p with input := p.input ++ bytes }
  | .stop => { p with exitFlag := true }
  | .daemon => p.uartPass
  | event => p.guestStep event

/-- A pass begins, with whatever is in the rings. -/
def start (tx rx : Ring) : Pump := ⟨tx, rx, [], false, [], .top, .running⟩

/-- The daemon waits for room in the receive ring, the guest for room in the transmit ring. -/
structure Stuck (p : Pump) : Prop where
  daemon : ∃ b, p.daemon = .push b
  rx : p.rx.canPush = false
  guest : ∃ c, p.guest = .printing c
  tx : p.tx.canPush = false

variable {p : Pump}

/-- What is on its way into the receive ring, or in it. -/
def backlog (p : Pump) : ℕ :=
  p.rx.fill + p.input.length + match p.daemon with
    | .push _ => 1
    | _ => 0

/-- The guest does not wait for room in the transmit ring. -/
def GuestFree (p : Pump) : Prop := p.guest = .running ∨ p.tx.canPush = true

/-- What is typed has room in the receive ring behind what is on its way, or comes while the guest
does not wait. The guest begins to print when the transmit ring has room, or when everything on its
way into the receive ring has. -/
def HasRoom (p : Pump) : PumpEvent → Prop
  | .typed bytes => p.backlog + bytes.length < bufferSize ∨ p.GuestFree
  | .print _ => p.backlog < bufferSize ∨ p.tx.canPush = true
  | _ => True

/-- Every event finds room. -/
def Roomy : Pump → List PumpEvent → Prop
  | _, [] => True
  | p, event :: events => p.HasRoom event ∧ Roomy (p.after event) events

theorem backlog_uartPass (p : Pump) : p.uartPass.backlog ≤ p.backlog := by
  cases hdaemon : p.daemon with
  | top =>
    simp only [uartPass, backlog, hdaemon]
    split_ifs <;> simp
  | drain out =>
    simp only [uartPass, backlog, hdaemon]
    split_ifs <;> simp
  | receive =>
    cases hinput : p.input with
    | nil => simp [uartPass, backlog, hdaemon, hinput]
    | cons b input =>
      simp only [uartPass, backlog, hdaemon, hinput, length_cons]
      omega
  | push b =>
    by_cases hroom : p.rx.canPush = true
    · simp only [uartPass, backlog, hdaemon, hroom, if_true, p.rx.fill_pushChar b hroom]
      omega
    · simp only [uartPass, backlog, hdaemon, if_neg hroom]
      split_ifs <;> simp [hdaemon]
  | done => simp [uartPass, hdaemon]

theorem backlog_guestStep {p : Pump} (event : PumpEvent) :
    (p.guestStep event).backlog ≤ p.backlog := by
  cases event with
  | print c =>
    simp only [guestStep]
    split_ifs <;> exact le_rfl
  | spin =>
    simp only [guestStep]
    split
    · exact le_rfl
    · split_ifs <;> exact le_rfl
  | read =>
    simp only [guestStep]
    split_ifs with h
    · have hfill := p.rx.fill_popChar h.2
      simp only [backlog]
      omega
    · exact le_rfl
  | _ => exact le_rfl

theorem GuestFree.uartPass (h : p.GuestFree) : p.uartPass.GuestFree := by
  unfold Pump.uartPass
  split
  · exact h
  · split_ifs with hpop
    · have hfill := p.tx.fill_popChar hpop.2
      have hlt := p.tx.fill_lt
      exact .inr ((Ring.canPush_iff p.tx.popChar.2).mpr (by omega))
    · exact h
  · split <;> exact h
  · split_ifs <;> exact h
  · exact h

/-- One of the two rings has room for what is to go into it. -/
def Flowing (p : Pump) : Prop := p.backlog < bufferSize ∨ p.GuestFree

theorem Flowing.after (h : p.Flowing) {event : PumpEvent} (hroom : p.HasRoom event) :
    (p.after event).Flowing := by
  cases event with
  | typed bytes =>
    refine hroom.imp_left fun hbytes ↦ ?_
    simp only [backlog, Pump.after, length_append] at *
    omega
  | stop => exact h
  | daemon => exact h.imp p.backlog_uartPass.trans_lt GuestFree.uartPass
  | print c =>
    rcases hroom with hbacklog | hpush
    · exact .inl ((backlog_guestStep _).trans_lt hbacklog)
    · simp only [Pump.after, guestStep]
      split_ifs
      · exact .inr (.inr hpush)
      · exact .inr (.inr hpush)
  | spin =>
    simp only [Pump.after, guestStep]
    split
    · exact h
    · split_ifs
      · exact .inr (.inl rfl)
      · exact h
  | read =>
    refine h.imp (backlog_guestStep _).trans_lt fun hfree ↦ ?_
    simp only [Pump.after, guestStep]
    split_ifs <;> exact hfree

theorem Flowing.run (events : List PumpEvent) (h : p.Flowing) (hroom : p.Roomy events) :
    (events.foldl Pump.after p).Flowing := by
  induction events generalizing p with
  | nil => exact h
  | cons event events ih => exact ih (h.after hroom.1) hroom.2

theorem Flowing.not_stuck (h : p.Flowing) : ¬ p.Stuck := by
  rintro ⟨⟨b, hdaemon⟩, hrx, ⟨c, hguest⟩, htx⟩
  rcases h with hbacklog | hrunning | hpush
  · have hfull : ¬ p.rx.fill + 1 < bufferSize := by
      rw [← Ring.canPush_iff, hrx]
      exact Bool.false_ne_true
    simp only [backlog, hdaemon] at hbacklog
    omega
  · cases hguest.symm.trans hrunning
  · cases htx.symm.trans hpush

/-- The pump and the guest do not wait for each other. Assumes: a guest that spins in front of a
full transmit ring, any output, any interleaving, rings that hold anything to begin with; and no
byte is typed or printed unless one of the rings has room for what is to go into it. -/
theorem pump_not_stuck (tx rx : Ring) {events : List PumpEvent}
    (hroom : (start tx rx).Roomy events) : ¬ (events.foldl after (start tx rx)).Stuck := by
  have hstart : (start tx rx).Flowing := .inr (.inl rfl)
  exact (hstart.run events hroom).not_stuck

/-- The receive ring is full and the daemon waits for it, while the guest prints a byte and
reads. -/
theorem pump_not_stuck_waiting :
    ¬ (([.typed [97], .daemon, .daemon, .daemon, .print 98, .spin, .read] : List PumpEvent).foldl
      after (start ⟨fun _ ↦ 0, 0, 0⟩ ⟨fun _ ↦ 0, 4095, 0⟩)).Stuck := by
  refine pump_not_stuck _ _ ⟨.inr (.inl rfl), trivial, trivial, trivial, .inr ?_, trivial, trivial,
    trivial⟩
  decide

theorem foldl_daemon (hdaemon : p.daemon = .receive) (hinput : n ≤ p.input.length)
    (hroom : p.rx.fill + n < bufferSize) :
    ∃ rx input,
      (replicate (2 * n) .daemon).foldl after p = { p with rx := rx, input := input } ∧
        rx.fill = p.rx.fill + n ∧ input.length + n = p.input.length := by
  induction n generalizing p with
  | zero => exact ⟨p.rx, p.input, rfl, rfl, rfl⟩
  | succ n ih =>
    obtain ⟨tx, rx, input, exitFlag, output, daemon, guest⟩ := p
    obtain rfl : daemon = .receive := hdaemon
    cases input with
    | nil => exact absurd hinput (by simp)
    | cons b input =>
      have hpush : rx.canPush = true := rx.canPush_iff.mpr (by simp only at hroom; omega)
      have hfill := rx.fill_pushChar b hpush
      obtain ⟨rx', input', hrun, hrx, hlen⟩ := ih (p := ⟨tx, rx.pushChar b, input, exitFlag,
        output, .receive, guest⟩) rfl (by simpa using hinput) (by simp only at hroom ⊢; omega)
      refine ⟨rx', input', ?_, ?_, ?_⟩
      · rw [Nat.mul_succ, replicate_succ, replicate_succ, foldl_cons,
          foldl_cons, ← hrun]
        simp [after, uartPass, hpush]
      · simp only at hrx ⊢
        omega
      · simp only [length_cons] at hlen ⊢
        omega

theorem foldl_print (c : UInt8) (hguest : p.guest = .running) (hroom : p.tx.fill + n < bufferSize) :
    ∃ tx, (replicate n [.print c, .spin]).flatten.foldl after p = { p with tx := tx } ∧
      tx.fill = p.tx.fill + n := by
  induction n generalizing p with
  | zero => exact ⟨p.tx, rfl, rfl⟩
  | succ n ih =>
    obtain ⟨tx, rx, input, exitFlag, output, daemon, guest⟩ := p
    obtain rfl : guest = .running := hguest
    have hpush : tx.canPush = true := tx.canPush_iff.mpr (by simp only at hroom; omega)
    have hfill := tx.fill_pushChar c hpush
    obtain ⟨tx', hrun, htx⟩ := ih (p := ⟨tx.pushChar c, rx, input, exitFlag, output, daemon,
      .running⟩) rfl (by simp only at hroom ⊢; omega)
    refine ⟨tx', ?_, by simp only at htx ⊢; omega⟩
    rw [replicate_succ, flatten_cons, foldl_append, ← hrun]
    simp [after, guestStep, hpush]

/-- A client pastes one byte more than `n`, and the guest prints as many before it reads. -/
def paste (n : ℕ) : List PumpEvent :=
  [.typed (replicate (n + 1) 97), .daemon, .daemon] ++ (replicate (2 * n) .daemon ++
    (.daemon :: (replicate n [.print 98, .spin]).flatten ++ [.print 98]))

theorem stuck_paste (hn : n + 1 = bufferSize) :
    ((paste n).foldl after (start ⟨fun _ ↦ 0, 0, 0⟩ ⟨fun _ ↦ 0, 0, 0⟩)).Stuck := by
  have hroom : Ring.fill ⟨fun _ ↦ 0, 0, 0⟩ + n < bufferSize := by
    simp [Ring.fill, ← hn]
  have hfull : ∀ r : Ring, r.fill = Ring.fill ⟨fun _ ↦ 0, 0, 0⟩ + n → r.canPush = false := by
    intro r hr
    rw [Bool.eq_false_iff, ne_eq, Ring.canPush_iff, hr, ← hn]
    simp [Ring.fill]
  obtain ⟨rx, input, hpushed, hrx, hlen⟩ := foldl_daemon n (p := ⟨⟨fun _ ↦ 0, 0, 0⟩, ⟨fun _ ↦ 0,
    0, 0⟩, replicate (n + 1) 97, false, [], .receive, .running⟩) rfl (by simp) hroom
  cases input with
  | nil => simp at hlen
  | cons b input =>
    obtain ⟨tx, hprinted, htx⟩ := foldl_print n 98
      (p := ⟨⟨fun _ ↦ 0, 0, 0⟩, rx, input, false, [], .push b, .running⟩) rfl hroom
    have hlast : (paste n).foldl after (start ⟨fun _ ↦ 0, 0, 0⟩ ⟨fun _ ↦ 0, 0, 0⟩) =
        after ⟨tx, rx, input, false, [], .push b, .running⟩ (.print 98) := by
      rw [paste, foldl_append, foldl_append]
      change foldl after (foldl after ⟨⟨fun _ ↦ 0, 0, 0⟩, ⟨fun _ ↦ 0, 0, 0⟩,
        replicate (n + 1) 97, false, [], .receive, .running⟩ _) _ = _
      rw [hpushed, cons_append, foldl_cons, foldl_append]
      exact congrArg (fun p ↦ after p (.print 98)) hprinted
    rw [hlast]
    exact ⟨⟨b, rfl⟩, hfull rx hrx, ⟨98, rfl⟩, hfull tx htx⟩

/-- 4096 bytes pasted and 4096 bytes printed. -/
theorem pump_stuck :
    ((paste 4095).foldl after (start ⟨fun _ ↦ 0, 0, 0⟩ ⟨fun _ ↦ 0, 0, 0⟩)).Stuck :=
  stuck_paste 4095 rfl

end Pump

end Bhx.Console
