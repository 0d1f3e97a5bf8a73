import Bhx.Device.HostConfinement

/-!
# The checksum fix-up

A guest may leave the checksum of a TCP or UDP segment to the network device. `fix_tx_l4_checksum`
of `virtio/network.rs` clears the field, adds up the pseudo-header and the words of the segment,
folds the sum to 16 bits and stores the complement. A fold keeps the residue modulo `0xFFFF` and
does not reach zero, so with the new field the segment adds up to `0xFFFF` in one's complement, also
where the complement of a UDP segment is stored as `0xFFFF` instead of zero.

Scope. `foldSum` is the loop of the source, and that Lean accepts it is its termination. A sum only
grows until it is folded, so the whole of it stands for the sums on the way.
-/

set_option autoImplicit false

namespace Bhx.Device

open List

/-- The length of the IPv4 header that a frame claims. -/
def headerLen (frame : List UInt8) : ℕ := byteAt frame 14 % 16 * 4

/-- The length of the segment. -/
def l4Len (frame : List UInt8) : ℕ := be16At frame 16 - headerLen frame

def l4Segment (frame : List UInt8) : List UInt8 :=
  (frame.drop (14 + headerLen frame)).take (l4Len frame)

/-- Where the checksum field of a frame begins. -/
def checksumField (frame : List UInt8) : ℕ :=
  (csumFieldOff (byteAt frame 23) (headerLen frame)).getD 0

/-- What the checksum of a frame is taken of: the pseudo-header and the segment. -/
def l4Sum (frame : List UInt8) : ℕ :=
  be16At frame 26 + be16At frame 30 + (be16At frame 28 + be16At frame 32) + byteAt frame 23 +
    l4Len frame + wordSum (l4Segment frame)

/-- An IPv4 frame that passes the checks and holds a TCP or UDP segment with its checksum field. -/
structure Checksummed (frame : List UInt8) : Prop where
  room : 14 + 20 ≤ frame.length
  etype : be16At frame 12 = 0x0800
  version : byteAt frame 14 / 16 = 4
  header : 20 ≤ headerLen frame ∧ 14 + headerLen frame ≤ frame.length
  total : headerLen frame ≤ be16At frame 16 ∧ 14 + be16At frame 16 ≤ frame.length
  segment : byteAt frame 23 = 6 ∧ 18 ≤ l4Len frame ∨ byteAt frame 23 = 17 ∧ 8 ≤ l4Len frame

/-! ### Folding -/

theorem foldSum_le (sum : ℕ) : foldSum sum ≤ 0xffff := by
  fun_induction foldSum sum with
  | case1 _ _ ih => exact ih
  | case2 sum h => omega

theorem foldSum_mod (sum : ℕ) : foldSum sum % 0xffff = sum % 0xffff := by
  fun_induction foldSum sum with
  | case1 sum _ ih => omega
  | case2 sum _ => rfl

theorem foldSum_pos {sum : ℕ} (h : 0 < sum) : 0 < foldSum sum := by
  fun_induction foldSum sum with
  | case1 sum hlarge ih => exact ih (by omega)
  | case2 sum _ => exact h

/-! ### Words -/

section Words

variable (segment buf : List UInt8) {fieldOff checksum : ℕ}

theorem byteAt_lt (idx : ℕ) : byteAt buf idx < 256 := UInt8.toNat_lt _

theorem be16At_lt (idx : ℕ) : be16At buf idx < 2 ^ 16 := by
  have hhigh := byteAt_lt buf idx
  have hlow := byteAt_lt buf (idx + 1)
  unfold be16At
  omega

theorem wordSum_le : wordSum segment ≤ 0xffff * ((segment.length + 1) / 2) := by
  fun_induction wordSum segment with
  | case1 => exact Nat.zero_le _
  | case2 last =>
    have hlast := last.toNat_lt
    simp only [length_singleton]
    omega
  | case3 high low rest ih =>
    have hhigh := high.toNat_lt
    have hlow := low.toNat_lt
    simp only [length_cons]
    omega

theorem wordSum_set (k : ℕ) (high low : UInt8) (hhigh : segment[2 * k]? = some 0)
    (hlow : segment[2 * k + 1]? = some 0) :
    wordSum ((segment.set (2 * k) high).set (2 * k + 1) low) =
      wordSum segment + (high.toNat * 256 + low.toNat) := by
  induction k generalizing segment with
  | zero =>
    match segment, hhigh, hlow with
    | _ :: _ :: rest, rfl, rfl => simp [wordSum, Nat.add_comm]
  | succ k ih =>
    match segment, hhigh, hlow with
    | first :: second :: rest, hhigh, hlow =>
      have hrest := ih rest hhigh hlow
      simp only [Nat.mul_add, set_cons_succ, wordSum, hrest]
      omega

theorem byteAt_putChecksum {idx : ℕ} (hhigh : idx ≠ fieldOff) (hlow : idx ≠ fieldOff + 1) :
    byteAt (putChecksum buf fieldOff checksum) idx = byteAt buf idx := by
  simp [byteAt, putChecksum, getD, getElem?_set_ne hhigh.symm,
    getElem?_set_ne hlow.symm]

theorem be16At_putChecksum_self (hfield : fieldOff + 1 < buf.length) (h : checksum < 2 ^ 16) :
    be16At (putChecksum buf fieldOff checksum) fieldOff = checksum := by
  have hlt : fieldOff < buf.length := by omega
  simp [be16At, byteAt, putChecksum, getD, hlt, hfield]
  omega

end Words

/-! ### The fix-up -/

section Frame

variable (frame : List UInt8)

theorem l4Sum_lt : l4Sum frame < 2 ^ 32 := by
  have hlen : l4Len frame < 2 ^ 16 := Nat.lt_of_le_of_lt (Nat.sub_le _ _) (be16At_lt frame 16)
  have hsegment := wordSum_le (l4Segment frame)
  have hlength : (l4Segment frame).length ≤ l4Len frame := length_take_le _ _
  have hfirst := be16At_lt frame 26
  have hsecond := be16At_lt frame 28
  have hthird := be16At_lt frame 30
  have hfourth := be16At_lt frame 32
  have hproto := byteAt_lt frame 23
  unfold l4Sum
  omega

section Behind

variable {k : ℕ} (checksum : ℕ) (hheader : 20 ≤ headerLen frame)
include hheader

/-- A checksum behind the header leaves the header and the addresses alone. -/
theorem header_putChecksum :
    headerLen (putChecksum frame (14 + headerLen frame + 2 * k) checksum) = headerLen frame ∧
      l4Len (putChecksum frame (14 + headerLen frame + 2 * k) checksum) = l4Len frame ∧
      l4Sum (putChecksum frame (14 + headerLen frame + 2 * k) checksum) +
          wordSum (l4Segment frame) =
        l4Sum frame +
          wordSum (l4Segment (putChecksum frame (14 + headerLen frame + 2 * k) checksum)) := by
  have hbyte : ∀ idx < 34, byteAt (putChecksum frame (14 + headerLen frame + 2 * k) checksum) idx =
      byteAt frame idx := fun idx hidx ↦ byteAt_putChecksum frame (by omega) (by omega)
  generalize putChecksum frame _ checksum = fixed at hbyte
  refine ⟨?_, ?_, ?_⟩ <;>
    simp only [l4Sum, l4Len, headerLen, be16At, hbyte, Nat.reduceLT, Nat.reduceAdd]
  exact Nat.add_right_comm _ _ _

theorem l4Segment_putChecksum :
    l4Segment (putChecksum frame (14 + headerLen frame + 2 * k) checksum) =
      (((l4Segment frame).set (2 * k) (UInt8.ofNat (checksum / 256))).set (2 * k + 1)
        (UInt8.ofNat (checksum % 256))) := by
  obtain ⟨hheader', hlen', -⟩ := header_putChecksum frame (k := k) checksum hheader
  have hhigh : ¬ 14 + headerLen frame + 2 * k < 14 + headerLen frame := by omega
  have hlow : ¬ 14 + headerLen frame + 2 * k + 1 < 14 + headerLen frame := by omega
  unfold l4Segment
  rw [hheader', hlen']
  unfold putChecksum
  rw [drop_set, if_neg hlow, drop_set, if_neg hhigh, take_set, take_set,
    Nat.add_sub_cancel_left, Nat.add_assoc _ (2 * k) 1, Nat.add_sub_cancel_left]

/-- The sum of a frame with a new checksum, in a field that was cleared. -/
theorem l4Sum_putChecksum (hroom : 14 + headerLen frame + 2 * k + 1 < frame.length)
    (hk : 2 * k + 1 < l4Len frame) (hchecksum : checksum < 2 ^ 16) :
    l4Sum (putChecksum (putChecksum frame (14 + headerLen frame + 2 * k) 0)
        (14 + headerLen frame + 2 * k) checksum) =
      l4Sum (putChecksum frame (14 + headerLen frame + 2 * k) 0) + checksum := by
  have hcleared := l4Segment_putChecksum frame (k := k) 0 hheader
  have hheader1 := (header_putChecksum frame (k := k) 0 hheader).1
  have hlength : 2 * k + 1 < (l4Segment frame).length := by
    unfold l4Segment
    rw [length_take, length_drop]
    omega
  generalize putChecksum frame (14 + headerLen frame + 2 * k) 0 = cleared at *
  rw [← hheader1] at hheader ⊢
  have hsum := (header_putChecksum cleared (k := k) checksum hheader).2.2
  have hzero : (l4Segment cleared)[2 * k]? = some 0 := by
    rw [hcleared, getElem?_set_ne (by omega), getElem?_set_self (by omega)]
    rfl
  have hzero' : (l4Segment cleared)[2 * k + 1]? = some 0 := by
    rw [hcleared, getElem?_set_self (by rwa [length_set])]
    rfl
  have hset := wordSum_set (l4Segment cleared) k (UInt8.ofNat (checksum / 256))
    (UInt8.ofNat (checksum % 256)) hzero hzero'
  rw [← l4Segment_putChecksum cleared checksum hheader] at hset
  rw [UInt8.toNat_ofNat_of_lt' (by simp only [UInt8.size]; omega),
    UInt8.toNat_ofNat_of_lt' (by simp only [UInt8.size]; omega)] at hset
  omega

end Behind

/-- The complement of what has been added up, in both of its forms. -/
theorem l4Checksum_spec (hproto : byteAt frame 23 = 6 ∨ byteAt frame 23 = 17) {checksum : ℕ}
    (h : l4Checksum frame (byteAt frame 23) (14 + headerLen frame) (l4Len frame) = checksum) :
    checksum < 2 ^ 16 ∧ foldSum (l4Sum frame + checksum) = 0xffff ∧
      (byteAt frame 23 = 17 → checksum ≠ 0) := by
  have hpos : 0 < l4Sum frame := by
    unfold l4Sum
    omega
  have hle := foldSum_le (l4Sum frame)
  have hmod := foldSum_mod (l4Sum frame)
  have htotal := foldSum_le (l4Sum frame + checksum)
  have htotal' := foldSum_mod (l4Sum frame + checksum)
  have htotal'' := foldSum_pos (Nat.add_pos_left hpos checksum)
  change (if byteAt frame 23 = 17 ∧ 0xffff - foldSum (l4Sum frame) = 0 then 0xffff
    else 0xffff - foldSum (l4Sum frame)) = checksum at h
  split_ifs at h <;> omega

/-- What the fix-up does: nothing, or a new checksum in the field of the protocol. -/
theorem fixTxL4Checksum_cases :
    fixTxL4Checksum frame = frame ∧ ¬ Checksummed frame ∨
      ∃ k cleared, (byteAt frame 23 = 6 ∧ k = 8 ∨ byteAt frame 23 = 17 ∧ k = 3) ∧
        checksumField frame = 14 + headerLen frame + 2 * k ∧ 20 ≤ headerLen frame ∧
          14 + headerLen frame + 2 * k + 1 < frame.length ∧
        cleared = putChecksum frame (14 + headerLen frame + 2 * k) 0 ∧
        fixTxL4Checksum frame = putChecksum cleared (14 + headerLen frame + 2 * k)
          (l4Checksum cleared (byteAt frame 23) (14 + headerLen frame) (l4Len frame)) := by
  generalize hfixed : fixTxL4Checksum frame = fixed
  have hihl : headerLen frame = byteAt frame 14 % 16 * 4 := rfl
  simp only [fixTxL4Checksum, ← hihl] at hfixed
  split_ifs at hfixed with hshort hetype hversion hheader htotal
  · exact .inl ⟨hfixed.symm, fun h ↦ by have := h.room; omega⟩
  · exact .inl ⟨hfixed.symm, fun h ↦ hetype h.etype⟩
  · exact .inl ⟨hfixed.symm, fun h ↦ hversion h.version⟩
  · exact .inl ⟨hfixed.symm, fun h ↦ by have := h.header; omega⟩
  · exact .inl ⟨hfixed.symm, fun h ↦ by have := h.total; omega⟩
  have hlen : l4Len frame = be16At frame 16 - headerLen frame := rfl
  unfold csumFieldOff at hfixed
  split_ifs at hfixed with htcp hudp <;> dsimp only at hfixed
  · split_ifs at hfixed with hroom
    · exact .inl ⟨hfixed.symm, fun h ↦ by have := h.total; have := h.segment; omega⟩
    · exact .inr ⟨8, _, .inl ⟨htcp, rfl⟩, by simp [checksumField, csumFieldOff, htcp], by omega,
        by omega, rfl, hfixed.symm⟩
  · split_ifs at hfixed with hroom
    · exact .inl ⟨hfixed.symm, fun h ↦ by have := h.total; have := h.segment; omega⟩
    · exact .inr ⟨3, _, .inr ⟨hudp, rfl⟩, by simp [checksumField, csumFieldOff, hudp], by omega,
        by omega, rfl, hfixed.symm⟩
  · exact .inl ⟨hfixed.symm, fun h ↦ by have := h.segment; omega⟩

/-- The checksum fix-up is right. For every buffer it indexes inside of it, what it adds up fits in
32 bits before and after every fold, and at most the two bytes of the field change. In a frame that
passes the checks pseudo-header and segment fold to `0xFFFF` with the new checksum, and a UDP
checksum is not zero. -/
theorem fixTxL4Checksum_correct :
    fixTxL4Checksum? frame = some (fixTxL4Checksum frame) ∧
    (∀ fieldOff, l4Sum (putChecksum frame fieldOff 0) < 2 ^ 32) ∧
    (∀ sum, foldSum sum ≤ 0xffff) ∧
    ((fixTxL4Checksum frame).length = frame.length ∧ ∀ idx, idx ≠ checksumField frame →
      idx ≠ checksumField frame + 1 → (fixTxL4Checksum frame)[idx]? = frame[idx]?) ∧
    (Checksummed frame → foldSum (l4Sum (fixTxL4Checksum frame)) = 0xffff ∧
      (byteAt frame 23 = 17 →
        be16At (fixTxL4Checksum frame) (14 + headerLen frame + 6) ≠ 0)) := by
  refine ⟨fixTxL4Checksum?_eq frame, fun fieldOff ↦ l4Sum_lt _, foldSum_le, ?_⟩
  obtain ⟨hfixed, hbad⟩ | ⟨k, cleared, hproto, hfield, hheader, hroom, hcleared, hfixed⟩ :=
    fixTxL4Checksum_cases frame
  · exact ⟨⟨by rw [hfixed], fun _ _ _ ↦ by rw [hfixed]⟩, fun h ↦ absurd h hbad⟩
  obtain ⟨hheader', hlen', -⟩ := header_putChecksum frame (k := k) 0 hheader
  have hbyte : byteAt cleared 23 = byteAt frame 23 := by
    rw [hcleared, byteAt_putChecksum _ (by omega) (by omega)]
  have hlength : cleared.length = frame.length := by simp [hcleared, putChecksum]
  rw [← hcleared] at hheader' hlen'
  have hspec := l4Checksum_spec cleared (by omega) rfl
  rw [hbyte, hheader', hlen'] at hspec
  rw [hfixed, hfield]
  obtain ⟨hlt, hfold, hudp⟩ := hspec
  refine ⟨⟨by simp [hcleared, putChecksum], fun idx hhigh hlow ↦ ?_⟩,
    fun h ↦ ⟨?_, fun hproto' ↦ ?_⟩⟩
  · simp [hcleared, putChecksum, getElem?_set_ne hhigh.symm, getElem?_set_ne hlow.symm]
  · subst hcleared
    have hsegment := h.segment
    rwa [l4Sum_putChecksum frame _ hheader hroom (by omega) hlt]
  · obtain rfl : k = 3 := by omega
    rw [be16At_putChecksum_self _ (by omega) hlt]
    exact hudp hproto'

variable {frame} {frame' : List UInt8}

/-- A frame with its length and its headers passes the same checks. -/
theorem Checksummed.of_headers (h : Checksummed frame) (hlength : frame'.length = frame.length)
    (hbyte : ∀ idx < 34, byteAt frame' idx = byteAt frame idx) :
    headerLen frame' = headerLen frame ∧ l4Len frame' = l4Len frame ∧ Checksummed frame' := by
  have hheader : headerLen frame' = headerLen frame := by
    simp only [headerLen, hbyte, Nat.reduceLT]
  have hword : ∀ idx < 33, be16At frame' idx = be16At frame idx := fun idx hidx ↦ by
    rw [be16At, be16At, hbyte idx (by omega), hbyte (idx + 1) (by omega)]
  have hlen : l4Len frame' = l4Len frame := by
    rw [l4Len, l4Len, hheader, hword 16 (by decide)]
  refine ⟨hheader, hlen, ?_, ?_, ?_, ?_, ?_, ?_⟩
  · exact hlength ▸ h.room
  · exact (hword 12 (by decide)).trans h.etype
  · exact hbyte 14 (by decide) ▸ h.version
  · rw [hheader, hlength]
    exact h.header
  · rw [hheader, hlength, hword 16 (by decide)]
    exact h.total
  · rw [hlen, hbyte 23 (by decide)]
    exact h.segment

end Frame

theorem fixTxL4Checksum_correct_udp :
    Checksummed ((((replicate 42 0).set 12 8).set 14 0x45).set 17 28 |>.set 23 17) ∧
      foldSum (l4Sum (fixTxL4Checksum
        ((((replicate 42 0).set 12 8).set 14 0x45).set 17 28 |>.set 23 17))) = 0xffff := by
  have h : Checksummed ((((replicate 42 0).set 12 8).set 14 0x45).set 17 28 |>.set 23 17) := by
    constructor <;> decide
  exact ⟨h, ((fixTxL4Checksum_correct _).2.2.2.2 h).1⟩

end Bhx.Device
