import Mathlib.Data.List.Infix

/-!
The metrics exporter's `read_request_headers` collects a request until its headers end. After each
read only the new bytes are searched for the CRLF CRLF, with the three bytes before them. That is
enough, because the bytes of the earlier reads do not hold one (`infix_append_iff`), so how the
stream is divided into reads does not decide whether the end of the headers is seen, only how much
comes after it.

Scope. A read delivers between 1 and 512 bytes, fails, or meets the end of the input, which is the
end of the list of reads.
-/

set_option autoImplicit false

namespace Bhx.Daemon.RequestHeaders

open List

/-- The bytes of one successful `read` into the 512-byte chunk. -/
structure Chunk where
  bytes : List UInt8
  length_pos : 0 < bytes.length
  length_le : bytes.length ≤ 512

inductive ErrorKind
  | wouldBlock
  | timedOut
  | invalidData
  | other (code : ℕ)
  deriving DecidableEq

structure IoError where
  kind : ErrorKind
  message : String
  deriving DecidableEq

inductive Received
  | bytes (chunk : Chunk)
  | failed (error : IoError)

def maxRequestHeaderBytes : ℕ := 8 * 1024

def crlfCrlf : List UInt8 := [0x0D, 0x0A, 0x0D, 0x0A]

def headersExceed : IoError := ⟨.invalidData, "headers exceed MAX_REQUEST_HEADER_BYTES"⟩

/-- One round of the loop: the buffer after it and, where the function returns, what it returns. -/
def readOnce (buf : List UInt8) : Received → List UInt8 × Option (Except IoError (List UInt8))
  | .bytes chunk =>
    let prevLen := buf.length
    let buf := buf ++ chunk.bytes
    let scanStart := prevLen - 3
    -- Some window of four bytes equals the pattern.
    (buf, if crlfCrlf <:+: buf.drop scanStart then some (.ok buf)
      else if maxRequestHeaderBytes ≤ buf.length then some (.error headersExceed) else none)
  | .failed error =>
    (buf, some (if error.kind = .wouldBlock ∨ error.kind = .timedOut then .ok buf
      else .error error))

/-- The rounds of the loop with the buffer it has: the buffer at the end, and the result. -/
def readRounds (buf : List UInt8) : List Received → List UInt8 × Except IoError (List UInt8)
  | [] => (buf, .ok buf)
  | received :: reads =>
    match readOnce buf received with
    | (buf, some result) => (buf, result)
    | (buf, none) => readRounds buf reads

def readRequestHeaders (reads : List Received) : List UInt8 × Except IoError (List UInt8) :=
  readRounds [] reads

/-- The bytes that the reads deliver. -/
def bytesOf (reads : List Chunk) : List UInt8 :=
  reads.flatMap Chunk.bytes

/-- A pattern that the old bytes do not hold ends among the new ones. -/
theorem length_of_fresh {buf new front extra : List UInt8} (hfresh : ¬ crlfCrlf <:+: buf)
    (h : front ++ crlfCrlf ++ extra = buf ++ new) : extra.length < new.length := by
  by_contra hmore
  have hlength := congrArg length h
  simp only [length_append] at hlength
  have hwithin : front ++ crlfCrlf <+: buf :=
    prefix_of_prefix_length_le ⟨extra, h⟩ (prefix_append _ _)
      (by simp only [length_append]; omega)
  exact hfresh ((suffix_append _ _).isInfix.trans hwithin.isInfix)

/-- Where the old bytes do not hold the pattern, it lies in the new ones and the three before
them. -/
theorem infix_append_iff {buf new : List UInt8} (hfresh : ¬ crlfCrlf <:+: buf) :
    crlfCrlf <:+: (buf ++ new).drop (buf.length - 3) ↔ crlfCrlf <:+: buf ++ new := by
  refine ⟨fun h ↦ h.trans (drop_suffix _ _).isInfix, ?_⟩
  rintro ⟨front, extra, hsplit⟩
  have hends := length_of_fresh hfresh hsplit
  have hlength := congrArg length hsplit
  simp only [length_append, crlfCrlf, length_cons, length_nil] at hlength
  rw [← hsplit, append_assoc, drop_append_of_le_length (by omega), ← append_assoc]
  exact ⟨_, _, rfl⟩

theorem bytesOf_split (earlier later : List Chunk) (last : Chunk) :
    bytesOf (earlier ++ last :: later) = bytesOf (earlier ++ [last]) ++ bytesOf later := by
  simp [bytesOf]

theorem readOnce_bytes {buf : List UInt8} {chunk : Chunk} (hfresh : ¬ crlfCrlf <:+: buf) :
    readOnce buf (.bytes chunk) = (buf ++ chunk.bytes,
      if crlfCrlf <:+: buf ++ chunk.bytes then some (.ok (buf ++ chunk.bytes))
      else if maxRequestHeaderBytes ≤ (buf ++ chunk.bytes).length then some (.error headersExceed)
      else none) := by
  simp only [readOnce, infix_append_iff hfresh]

/-- The rounds read to the end of the input, or there is a last read: the bytes before it neither
hold the pattern nor fill the buffer, and with it they do one of the two. -/
theorem readRounds_cases (buf : List UInt8) (reads : List Chunk) (hfresh : ¬ crlfCrlf <:+: buf)
    (hroom : buf.length < maxRequestHeaderBytes) :
    (readRounds buf (reads.map .bytes)).2 = .ok (buf ++ bytesOf reads) ∧
        ¬ crlfCrlf <:+: buf ++ bytesOf reads ∧
        (buf ++ bytesOf reads).length < maxRequestHeaderBytes ∨
      ∃ earlier last later, reads = earlier ++ last :: later ∧
        ¬ crlfCrlf <:+: buf ++ bytesOf earlier ∧
        (buf ++ bytesOf earlier).length < maxRequestHeaderBytes ∧
        (crlfCrlf <:+: buf ++ bytesOf (earlier ++ [last]) ∨
          maxRequestHeaderBytes ≤ (buf ++ bytesOf (earlier ++ [last])).length) ∧
        (readRounds buf (reads.map .bytes)).2 = if crlfCrlf <:+: buf ++ bytesOf (earlier ++ [last])
          then .ok (buf ++ bytesOf (earlier ++ [last])) else .error headersExceed := by
  induction reads generalizing buf with
  | nil => exact .inl ⟨by simp [readRounds, bytesOf], by simpa [bytesOf] using ⟨hfresh, hroom⟩⟩
  | cons chunk reads ih =>
    rw [map_cons, readRounds, readOnce_bytes hfresh]
    by_cases hfound : crlfCrlf <:+: buf ++ chunk.bytes
    · refine .inr ⟨[], chunk, reads, rfl, ?_⟩
      simp [bytesOf, hfresh, hroom, hfound]
    · by_cases hfull : maxRequestHeaderBytes ≤ (buf ++ chunk.bytes).length
      · refine .inr ⟨[], chunk, reads, rfl, ?_⟩
        rw [if_neg hfound, if_pos hfull]
        simp only [length_append] at hfull
        simp [bytesOf, hfresh, hroom, hfound, hfull]
      · rw [if_neg hfound, if_neg hfull]
        rcases ih _ hfound (Nat.lt_of_not_le hfull) with hall | ⟨earlier, last, later, rfl, hlast⟩
        · exact .inl (by simpa [bytesOf] using hall)
        · exact .inr ⟨chunk :: earlier, last, later, rfl, by simpa [bytesOf] using hlast⟩

theorem readRounds_length (buf : List UInt8) (received : List Received)
    (hroom : buf.length < maxRequestHeaderBytes) : (readRounds buf received).1.length ≤ 8703 := by
  simp only [maxRequestHeaderBytes] at hroom
  induction received generalizing buf with
  | nil => exact Nat.le_trans hroom.le (by decide)
  | cons received rest ih =>
    rw [readRounds]
    cases received with
    | failed error => exact Nat.le_trans hroom.le (by decide)
    | bytes chunk =>
      have hlength := chunk.length_le
      simp only [readOnce]
      split_ifs with hfound hfull
      all_goals simp only [maxRequestHeaderBytes, length_append] at *
      · omega
      · omega
      · exact ih _ (by simp only [length_append]; omega)

/-- However the stream is divided into reads, the read that completes a CRLF CRLF within the limit
is the last one. Otherwise the whole stream is returned, or the read that reaches the limit decides.
The buffer never exceeds the limit by a whole read. -/
theorem readRequestHeaders_exact (reads : List Chunk) :
    (crlfCrlf <:+: (bytesOf reads).take maxRequestHeaderBytes →
      ∃ earlier last later, reads = earlier ++ last :: later ∧ ¬ crlfCrlf <:+: bytesOf earlier ∧
        crlfCrlf <:+: bytesOf (earlier ++ [last]) ∧
        (∀ front extra, front ++ crlfCrlf ++ extra = bytesOf (earlier ++ [last]) →
          extra.length ≤ 511) ∧
        (readRequestHeaders (reads.map .bytes)).2 = .ok (bytesOf (earlier ++ [last]))) ∧
    (¬ crlfCrlf <:+: (bytesOf reads).take maxRequestHeaderBytes →
      (bytesOf reads).length < maxRequestHeaderBytes ∧
          (readRequestHeaders (reads.map .bytes)).2 = .ok (bytesOf reads) ∨
        ∃ earlier last later, reads = earlier ++ last :: later ∧
          (bytesOf earlier).length < maxRequestHeaderBytes ∧
          maxRequestHeaderBytes ≤ (bytesOf (earlier ++ [last])).length ∧
          (readRequestHeaders (reads.map .bytes)).2 =
            if crlfCrlf <:+: bytesOf (earlier ++ [last]) then .ok (bytesOf (earlier ++ [last]))
            else .error headersExceed) ∧
    ∀ received, (readRequestHeaders received).1.length ≤ 8703 := by
  have hcases := readRounds_cases [] reads (by decide) (by decide)
  simp only [nil_append] at hcases
  refine ⟨fun hheld ↦ ?_, fun hfree ↦ ?_, fun received ↦ readRounds_length _ _ (by decide)⟩
  all_goals rcases hcases with ⟨hresult, habsent, hroom⟩ |
    ⟨earlier, last, later, rfl, hfresh, hroom, hends, hresult⟩
  · exact absurd (hheld.trans ( take_prefix _ _).isInfix) habsent
  · have hfound : crlfCrlf <:+: bytesOf (earlier ++ [last]) := hends.elim id fun hfull ↦ by
      rw [bytesOf_split, take_append_of_le_length hfull] at hheld
      exact hheld.trans ( take_prefix _ _).isInfix
    refine ⟨earlier, last, later, rfl, hfresh, hfound, fun front extra hextra ↦ ?_, ?_⟩
    · have hwhole : front ++ crlfCrlf ++ extra = bytesOf earlier ++ last.bytes := by
        simpa [bytesOf] using hextra
      exact Nat.le_of_lt_succ ((length_of_fresh hfresh hwhole).trans_le last.length_le)
    · exact hresult.trans (if_pos hfound)
  · exact .inl ⟨hroom, hresult⟩
  · refine .inr ⟨earlier, last, later, rfl, hroom, hends.elim (fun hfound ↦ ?_) id, hresult⟩
    by_contra hshort
    rw [bytesOf_split, take_append, take_of_length_le (Nat.le_of_not_le hshort)] at hfree
    exact hfree (hfound.trans (prefix_append _ _).isInfix)

end Bhx.Daemon.RequestHeaders
