import Mathlib.Data.List.Induction

/-!
# The scrollback of a console

The hub of a console keeps what was printed last, to replay it to a client that attaches. Before it
appends a piece it drops as many of the oldest bytes as would be too many. The scrollback is a
suffix of what was appended since it was last cleared, and all of it where that fits. But a piece
that is larger than the bound is appended whole, so the bound holds as long as no piece is larger
(`scrollback_bounded_iff`); a virtio console can push such a piece (`scrollback_overflows`).

Scope. The calls hold the mutex of the hub, so they make one sequence. What is sent to clients is
left out.
-/

set_option autoImplicit false

namespace Bhx.Console

open List

/-- `SCROLLBACK_BYTES`. -/
def scrollbackBytes : ℕ := 1024 * 1024

/-- The calls that change a scrollback. -/
inductive ScrollCall
  /-- `push_chip_output`. -/
  | push (bytes : List UInt8)
  /-- `disconnect_all_with_reason`. -/
  | goodbye (reason : String)
  /-- `clear_scrollback`. -/
  | clear

/-- Drops the oldest bytes that would be too many, and appends. -/
def append (scrollback bytes : List UInt8) : List UInt8 :=
  scrollback.drop (scrollback.length + bytes.length - scrollbackBytes) ++ bytes

/-- The line that a hub says goodbye with. -/
def goodbyeLine (reason : String) : List UInt8 :=
  ("\r\n[bhx: " ++ reason ++ "]\r\n").toUTF8.toList

namespace ScrollCall

/-- What a call appends. -/
def piece : ScrollCall → List UInt8
  | .push bytes => bytes
  | .goodbye reason => goodbyeLine reason
  | .clear => []

/-- The scrollback after a call. -/
def after (scrollback : List UInt8) : ScrollCall → List UInt8
  | .push bytes => if bytes.isEmpty then scrollback else append scrollback bytes
  | .goodbye reason => append scrollback (goodbyeLine reason)
  | .clear => []

/-- The stream since the last clear, after a call. -/
def extend (stream : List UInt8) : ScrollCall → List UInt8
  | .clear => []
  | call => stream ++ call.piece

end ScrollCall

/-- The scrollback after some calls. -/
def scrollback (calls : List ScrollCall) : List UInt8 := calls.foldl ScrollCall.after []

/-- What has been appended since the last clear. -/
def stream (calls : List ScrollCall) : List UInt8 := calls.foldl ScrollCall.extend []

/-- A scrollback holds the end of a stream, and the whole of it if it fits. -/
def Ends (kept stream : List UInt8) : Prop :=
  kept <:+ stream ∧ (stream.length ≤ scrollbackBytes → kept = stream)

section Calls

variable {kept all bytes : List UInt8} (call : ScrollCall) (calls : List ScrollCall)

theorem Ends.append (h : Ends kept all) (bytes : List UInt8) :
    Ends (append kept bytes) (all ++ bytes) := by
  obtain ⟨hsuffix, hwhole⟩ := h
  constructor
  · exact suffix_append_inj_of_length_eq rfl |>.mpr ⟨(drop_suffix _ _).trans hsuffix, rfl⟩
  · intro hfits
    rw [length_append] at hfits
    have hkept := hwhole (by omega)
    rw [Console.append, hkept, Nat.sub_eq_zero_of_le hfits, drop_zero]

theorem Ends.after (h : Ends kept all) : Ends (call.after kept) (call.extend all) := by
  cases call with
  | push bytes =>
    by_cases hempty : bytes = []
    · simpa [ScrollCall.after, ScrollCall.extend, ScrollCall.piece, hempty] using h
    · simpa [ScrollCall.after, ScrollCall.extend, ScrollCall.piece, hempty] using h.append bytes
  | goodbye reason => exact h.append _
  | clear => exact ⟨suffix_refl [], fun _ ↦ rfl⟩

theorem ends_scrollback : Ends (scrollback calls) (stream calls) := by
  induction calls using reverseRecOn with
  | nil => exact ⟨suffix_refl [], fun _ ↦ rfl⟩
  | append_singleton calls call ih =>
    simp only [scrollback, stream, foldl_append, foldl_cons, foldl_nil]
    exact ih.after call

theorem length_append_le (hbytes : bytes.length ≤ scrollbackBytes) :
    (append kept bytes).length ≤ scrollbackBytes := by
  simp only [append, length_append, length_drop]
  omega

theorem ScrollCall.length_after_le (hkept : kept.length ≤ scrollbackBytes)
    (hpiece : call.piece.length ≤ scrollbackBytes) :
    (call.after kept).length ≤ scrollbackBytes := by
  cases call with
  | push bytes =>
    rw [ScrollCall.after]
    split_ifs
    · exact hkept
    · exact length_append_le hpiece
  | goodbye reason => exact length_append_le hpiece
  | clear => exact Nat.zero_le _

theorem ScrollCall.length_piece_le : call.piece.length ≤ (call.after kept).length := by
  cases call with
  | push bytes =>
    rw [ScrollCall.after, ScrollCall.piece]
    split_ifs with hempty
    · simp [isEmpty_iff.mp hempty]
    · simp [append]
  | goodbye reason => simp [ScrollCall.after, ScrollCall.piece, append]
  | clear => exact Nat.zero_le _

theorem scrollback_concat : scrollback (calls ++ [call]) = call.after (scrollback calls) := by
  simp [scrollback]

/-- After every call the scrollback is within its bound and holds the end of the stream, the whole
of it if it fits, exactly if no call appends a piece that is larger than the bound. -/
theorem scrollback_bounded_iff :
    (∀ front, front <+: calls → (scrollback front).length ≤ scrollbackBytes ∧
        scrollback front <:+ stream front ∧
        ((stream front).length ≤ scrollbackBytes → scrollback front = stream front)) ↔
      ∀ call ∈ calls, call.piece.length ≤ scrollbackBytes := by
  constructor
  · intro h call hmem
    obtain ⟨front, rest, rfl⟩ := append_of_mem hmem
    have hbound := (h (front ++ [call]) ⟨rest, by simp⟩).1
    rw [scrollback_concat] at hbound
    exact Nat.le_trans call.length_piece_le hbound
  · intro h front hfront
    refine ⟨?_, ends_scrollback front⟩
    have hpieces : ∀ call ∈ front, call.piece.length ≤ scrollbackBytes :=
      fun call hmem ↦ h call (hfront.subset hmem)
    clear hfront
    induction front using reverseRecOn with
    | nil => exact Nat.zero_le _
    | append_singleton front call ih =>
      rw [scrollback_concat]
      refine call.length_after_le (ih fun call hmem ↦ ?_) (hpieces call (by simp))
      exact hpieces call (mem_append_left _ hmem)

end Calls

/-- A chain of a virtio console that is one byte larger than the bound. -/
theorem scrollback_overflows :
    (scrollback [.push (List.replicate (scrollbackBytes + 1) 0)]).length = scrollbackBytes + 1 := by
  have hlength (n : ℕ) : (scrollback [.push (replicate (n + 1) 0)]).length = n + 1 := by
    simp [scrollback, ScrollCall.after, append]
  exact hlength scrollbackBytes

end Bhx.Console
