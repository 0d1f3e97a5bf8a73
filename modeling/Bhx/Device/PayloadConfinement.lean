import Bhx.Device.Block
import Bhx.Device.Console
import Bhx.Device.Entropy
import Bhx.Device.Footprint
import Bhx.Device.Network

/-!
# Which bytes the device models touch

The walk checks the range of each descriptor before it hands the buffer on, but a device model
interprets buffers with headers and status bytes of fixed sizes, and the block device reads through
a pointer it saved in an earlier callback. The footprints below say exactly which bytes are touched
whatever the length of the buffer: the fields of the network header, and the fields of the block
request header and the status byte. The console and the entropy device touch nothing but their
buffers.

`payloadConfined_iff` is the result for all four device models in any state: they stay inside the
buffers of the chain if and only if the bytes of their headers do. `rxHeader_outside` is a receive
buffer of one byte, of which the network device writes the header's twelve.
-/

set_option autoImplicit false

namespace Bhx.Device

open SharedMemory Machine Virtqueue List Program

variable (net : VirtioNet) (queueIdx : ℕ) (blk : VirtioBlk) {range : ℕ × ℕ} (kind : Callback)

/-- Answers `0` fit every operation. -/
theorem admits_zero (op : DevOp) : op.Admits 0 := by
  cases op with
  | load addr size | hostLoad addr size => exact Nat.pow_pos (by norm_num)
  | store | hostStore => rfl
  | call => trivial

/-- An operation of a device model that keeps to the first `limit` bytes of its host memory. What
slirp receives or sends is at the front of the packet buffer. -/
def HostInside (limit : ℕ) : DevOp → Prop
  | .hostLoad addr size | .hostStore addr size _ => addr + size ≤ limit
  | .call (.slirpRecv size) | .call (.slirpSend size) => size ≤ limit
  | _ => True

/-- An operation that keeps to the buffer and some ranges, and to a part of host memory. -/
def Reaches (d : VringDesc) (ranges : List (ℕ × ℕ)) (limit : ℕ) (op : DevOp) : Prop :=
  TouchesOnly d ranges op ∧ HostInside limit op

variable {d : VringDesc} {ranges : List (ℕ × ℕ)} {limit : ℕ}

section Reaches

variable {addr size value : ℕ}

section

variable (h : RangeCovered [d] (addr, size) ∨ (addr, size) ∈ ranges)
include h

theorem reaches_load : Reaches d ranges limit (.load addr size) := ⟨touchesOnly_load h, trivial⟩

theorem reaches_store :
    Reaches d ranges limit (.store addr size value) := ⟨touchesOnly_store h, trivial⟩

end

theorem reaches_host {op : DevOp} (h : touch op = none) (hlimit : HostInside limit op) :
    Reaches d ranges limit op := ⟨touchesOnly_of_touch_eq_none h, hlimit⟩

end Reaches

/-- The footprint of a device model that touches nothing but its buffers. -/
def bufferFootprint {D : Type} (device : VirtioDevice D)
    (h : ∀ queueIdx kind d state, (callback device queueIdx kind d state).Always (TouchesOnly d [])
      fun _ ↦ True) : Footprint device where
  Summary := Unit
  summary := fun _ ↦ ()
  advance := fun _ _ _ _ ↦ ()
  exposed := fun _ _ _ _ ↦ []
  sound := fun queueIdx kind d state ↦ (h queueIdx kind d state).weaken fun _ _ ↦ rfl
  tight := fun _ _ _ _ ↦
    exists_trace_touching admits_zero fun _ hrange ↦ absurd hrange List.not_mem_nil

theorem exposedInside_bufferFootprint {D : Type} {device : VirtioDevice D}
    (h : ∀ queueIdx kind d state,
      (callback device queueIdx kind d state).Performs (TouchesOnly d []))
    {queueIdx : ℕ} {chain : List VringDesc} (calls : List (Callback × VringDesc)) :
    (bufferFootprint device h).ExposedInside queueIdx chain () calls := by
  induction calls with
  | nil => trivial
  | cons call calls ih => exact ⟨fun range hrange ↦ absurd hrange not_mem_nil, ih⟩

/-! ### The console and the entropy device -/

theorem covered_offset {offset size : ℕ} (h : offset + size ≤ d.len ∨ size = 0) :
    RangeCovered [d] (d.addr + offset, size) := by
  intro a hlow hhigh
  exact ⟨d, mem_singleton_self d, by omega, by omega⟩

theorem covered_front {size : ℕ} (h : size ≤ d.len) : RangeCovered [d] (d.addr, size) := by
  rw [← Nat.add_zero d.addr]
  exact covered_offset (.inl (by omega))

theorem always_readBuffer : (readBuffer d.addr d.len).Performs (TouchesOnly d []) :=
  ⟨touchesOnly_load (.inl (covered_front le_rfl)), fun _ ↦ trivial⟩

theorem always_fillFromInput {room written : ℕ} (h : written + room ≤ d.len) :
    (fillFromInput d.addr room written).Performs (TouchesOnly d []) := by
  induction room generalizing written with
  | zero => trivial
  | succ room ih =>
    rw [fillFromInput, perform_bind]
    refine ⟨touchesOnly_of_touch_eq_none rfl, fun popped ↦ ?_⟩
    dsimp only
    split_ifs with hempty
    · trivial
    · refine ⟨touchesOnly_store (.inl (covered_offset (by omega))), fun _ ↦ ih (by omega)⟩

theorem always_console (d : VringDesc) (console : VirtioConsole) :
    (callback virtioConsole queueIdx kind d console).Performs (TouchesOnly d []) := by
  cases kind with
  | processQueueStart =>
    change (console.processQueueStart queueIdx d.addr d.len).Always _ _
    unfold VirtioConsole.processQueueStart
    split_ifs
    · exact always_readBuffer.bind
    · trivial
  | processQueueData =>
    change (console.processQueueData queueIdx d.addr d.len).Always _ _
    unfold VirtioConsole.processQueueData
    split_ifs
    · exact always_readBuffer.bind
    · trivial
  | processQueueComplete =>
    have hcomplete :
        (console.processQueueComplete queueIdx d.addr d.len).Performs (TouchesOnly d []) := by
      unfold VirtioConsole.processQueueComplete
      split_ifs
      · have hflush : (console.flush d.addr d.len).Performs (TouchesOnly d []) := by
          unfold VirtioConsole.flush
          split_ifs
          · exact ⟨touchesOnly_of_touch_eq_none rfl, fun _ ↦ trivial⟩
          · exact always_readBuffer.bind fun _ _ ↦
              ⟨touchesOnly_of_touch_eq_none rfl, fun _ ↦ trivial⟩
          · trivial
        exact hflush.bind
      · exact (always_fillFromInput (by omega)).bind
    exact hcomplete.bind

theorem always_fillWithCounter {count filled : ℕ} (h : filled + count ≤ d.len) :
    (fillWithCounter d.addr count filled).Performs (TouchesOnly d []) := by
  induction count generalizing filled with
  | zero => trivial
  | succ count ih =>
    exact ⟨touchesOnly_store (.inl (covered_offset (by omega))), fun _ ↦ ih (by omega)⟩

theorem always_fillChunk {filled chunk : ℕ} (h : filled + chunk ≤ d.len) :
    (fillChunk d.addr filled chunk).Always (TouchesOnly d []) fun count ↦ count ≤ chunk := by
  rw [fillChunk, perform_bind]
  refine ⟨touchesOnly_of_touch_eq_none rfl, fun reply ↦ ?_⟩
  dsimp only
  split_ifs with hfailed
  · exact (always_fillWithCounter h).bind fun _ _ ↦ le_refl chunk
  · exact ⟨touchesOnly_store (.inl (covered_offset (by omega))), fun _ ↦ Nat.min_le_right _ _⟩

theorem always_fillFrom (passes filled : ℕ) :
    (fillFrom d.addr d.len passes filled).Performs (TouchesOnly d []) := by
  induction passes generalizing filled with
  | zero => trivial
  | succ passes ih =>
    rw [fillFrom]
    split_ifs with hleft
    · exact (always_fillChunk (by omega)).bind fun count _ ↦ ih (filled + count)
    · trivial

theorem always_rng (d : VringDesc) (state : Unit) :
    (callback virtioRng queueIdx kind d state).Performs (TouchesOnly d []) := by
  cases kind with
  | processQueueStart => exact always_fillFrom d.len 0
  | processQueueData => exact always_fillFrom d.len 0
  | processQueueComplete =>
    have hcomplete : (virtioRng.processQueueComplete state queueIdx d.addr d.len).Performs
        (TouchesOnly d []) :=
      (always_fillFrom d.len 0).bind
    exact hcomplete.bind

/-! ### The network device -/

/-- The bytes of the header that a queue accesses. -/
def netHeader (queueIdx addr : ℕ) : List (ℕ × ℕ) :=
  if queueIdx = 0 then
    [(addr + netHdrOffFlags, 1), (addr + netHdrOffNumBuffers, 2), (addr + netHdrOffGsoType, 1),
      (addr + netHdrOffGsoSize, 2)]
  else if queueIdx = 1 then [(addr + netHdrOffFlags, 1)]
  else []

/-- What a callback of the network device exposes, given `headerProcessed`. -/
def netExposed (queueIdx : ℕ) (kind : Callback) (d : VringDesc) (headerProcessed : Bool) :
    List (ℕ × ℕ) :=
  match kind with
  | .processQueueStart => netHeader queueIdx d.addr
  | .processQueueData => []
  | .processQueueComplete => if headerProcessed then [] else netHeader queueIdx d.addr

/-- `headerProcessed` after a callback. -/
def netAdvance (kind : Callback) (headerProcessed : Bool) : Bool :=
  match kind with
  | .processQueueStart => true
  | .processQueueData => headerProcessed
  | .processQueueComplete => false

theorem always_startRx (h : netHeader 0 d.addr ⊆ ranges) :
    (net.startRx d.addr).Always (Reaches d ranges packetSize)
      fun net' ↦ net'.headerProcessed = true := by
  refine ⟨reaches_store (.inr (h ?_)), fun _ ↦ ⟨reaches_store (.inr (h ?_)), fun _ ↦
    ⟨reaches_store (.inr (h ?_)), fun _ ↦ ⟨reaches_store (.inr (h ?_)), fun _ ↦ rfl⟩⟩⟩⟩ <;>
  simp [netHeader]

theorem always_startTx (h : netHeader 1 d.addr ⊆ ranges) :
    (VirtioNet.startTx d.addr d.len).Always (Reaches d ranges packetSize)
      fun net' ↦ net'.headerProcessed = true := by
  refine ⟨reaches_load (.inr (h (by simp [netHeader]))), fun flags ↦ ?_⟩
  split_ifs with hlong
  · refine ⟨reaches_load (.inl (covered_offset (by omega))), fun _ ↦
      ⟨reaches_host rfl ?_, fun _ ↦ rfl⟩⟩
    change 0 + min (d.len - virtioNetHdrSize) packetSize ≤ packetSize
    omega
  · rfl

theorem always_netStart (h : netHeader queueIdx d.addr ⊆ ranges) :
    (net.processQueueStart queueIdx d.addr d.len).Always (Reaches d ranges packetSize)
      fun net' ↦ net'.headerProcessed = true := by
  unfold VirtioNet.processQueueStart
  split_ifs with hrx htx
  · exact always_startRx net (hrx ▸ h)
  · exact always_startTx (htx ▸ h)
  · rfl

theorem always_append :
    (net.append d.addr d.len).Always (Reaches d ranges packetSize)
      fun net' ↦ net'.headerProcessed = net.headerProcessed := by
  have hoffset := net.txOffset_le
  refine ⟨reaches_load (.inl (covered_front (Nat.min_le_left _ _))), fun _ ↦
    ⟨reaches_host rfl ?_, fun _ ↦ rfl⟩⟩
  change net.txOffset + min d.len (packetSize - net.txOffset) ≤ packetSize
  omega

theorem always_receiveInto (offset : ℕ) :
    (receiveInto (d.addr + offset) (d.len - offset)).Performs (Reaches d ranges packetSize) := by
  rw [receiveInto, perform_bind]
  refine ⟨reaches_host rfl (Nat.min_le_right _ _), fun pktlen ↦ ?_⟩
  dsimp only
  split_ifs with hsome
  · refine ⟨reaches_host rfl ?_, fun _ ↦
      ⟨reaches_store (.inl (covered_offset (by omega))), fun _ ↦ trivial⟩⟩
    change 0 + min pktlen (min (d.len - offset) packetSize) ≤ packetSize
    omega
  · trivial

theorem always_transmit :
    net.transmit.Always (Reaches d ranges packetSize) fun net' ↦ net'.headerProcessed = false := by
  have hoffset := net.txOffset_le
  have hframe : 0 + net.txOffset ≤ packetSize := by omega
  unfold VirtioNet.transmit
  split_ifs
  · exact ⟨reaches_host rfl hframe, fun _ ↦ ⟨reaches_host rfl hframe, fun _ ↦
      ⟨reaches_host rfl hoffset, fun _ ↦ rfl⟩⟩⟩
  · exact ⟨reaches_host rfl hoffset, fun _ ↦ rfl⟩

theorem always_completeRx (h : net.headerProcessed = false → netHeader 0 d.addr ⊆ ranges) :
    (net.completeRx d.addr d.len).Always (Reaches d ranges packetSize)
      fun net' ↦ net'.headerProcessed = false := by
  unfold VirtioNet.completeRx
  split_ifs with hheader
  · exact (always_receiveInto 0).bind fun _ _ ↦ rfl
  · refine (always_startRx net (h (Bool.eq_false_of_not_eq_true hheader))).bind fun started _ ↦ ?_
    exact (always_receiveInto virtioNetHdrSize).bind fun _ _ ↦ rfl

theorem always_completeTx (h : net.headerProcessed = false → netHeader 1 d.addr ⊆ ranges) :
    (net.completeTx d.addr d.len).Always (Reaches d ranges packetSize)
      fun net' ↦ net'.headerProcessed = false := by
  have hfill : (net.takeLast d.addr d.len).Performs (Reaches d ranges packetSize) := by
    unfold VirtioNet.takeLast
    split_ifs with hheader
    · exact (always_append net).weaken fun _ _ ↦ trivial
    · exact (always_startTx (h (Bool.eq_false_of_not_eq_true hheader))).weaken fun _ _ ↦ trivial
  exact hfill.bind fun filled _ ↦ always_transmit filled

theorem always_netComplete (h : net.headerProcessed = false → netHeader queueIdx d.addr ⊆ ranges) :
    (net.complete queueIdx d.addr d.len).Always (Reaches d ranges packetSize)
      fun net' ↦ net'.headerProcessed = false := by
  unfold VirtioNet.complete
  split_ifs with hrx htx
  · exact always_completeRx net (hrx ▸ h)
  · exact always_completeTx net (htx ▸ h)
  · rfl

theorem always_netData :
    (net.processQueueData queueIdx d.addr d.len).Always (Reaches d ranges packetSize)
      fun net' ↦ net'.headerProcessed = net.headerProcessed := by
  unfold VirtioNet.processQueueData
  split_ifs
  · exact always_append net
  · rfl

theorem always_net (d : VringDesc) (net : VirtioNet) :
    (callback virtioNet queueIdx kind d net).Always
      (TouchesOnly d (netExposed queueIdx kind d net.headerProcessed))
      fun net' ↦ net'.headerProcessed = netAdvance kind net.headerProcessed := by
  cases kind with
  | processQueueStart =>
    exact (always_netStart net queueIdx fun _ hmem ↦ hmem).allow fun _ hop ↦ hop.1
  | processQueueData => exact (always_netData net queueIdx).allow fun _ hop ↦ hop.1
  | processQueueComplete =>
    have hcomplete : (net.processQueueComplete queueIdx d.addr d.len).Always
        (TouchesOnly d (netExposed queueIdx .processQueueComplete d net.headerProcessed))
        fun reply ↦ reply.1.headerProcessed = false := by
      refine ((always_netComplete net queueIdx ?_).allow fun _ hop ↦ hop.1).bind fun _ h ↦ h
      intro hheader
      rw [netExposed, hheader]
      exact fun _ hmem ↦ hmem
    exact hcomplete.bind fun _ h ↦ h

/-- The start of a chain touches the header whatever it is answered. -/
theorem tight_netStart (h : range ∈ netHeader queueIdx d.addr) :
    ∃ entry ∈ (net.processQueueStart queueIdx d.addr d.len).traceWith fun _ ↦ 0,
      touch entry.1 = some range := by
  unfold netHeader at h
  unfold VirtioNet.processQueueStart
  split_ifs at h ⊢ with hrx htx
  · simp only [mem_cons, not_mem_nil, or_false] at h
    rcases h with rfl | rfl | rfl | rfl
    · exact ⟨(.store (d.addr + netHdrOffFlags) 1 0, 0), mem_cons_self, rfl⟩
    · exact ⟨(.store (d.addr + netHdrOffNumBuffers) 2 1, 0),
        mem_cons_of_mem _ mem_cons_self, rfl⟩
    · exact ⟨(.store (d.addr + netHdrOffGsoType) 1 0, 0),
        mem_cons_of_mem _ (mem_cons_of_mem _ mem_cons_self), rfl⟩
    · exact ⟨(.store (d.addr + netHdrOffGsoSize) 2 0, 0), mem_cons_of_mem _
        (mem_cons_of_mem _ (mem_cons_of_mem _ mem_cons_self)), rfl⟩
  · rw [mem_singleton] at h
    subst h
    exact ⟨(.load (d.addr + netHdrOffFlags) 1, 0), mem_cons_self, rfl⟩
  · exact absurd h not_mem_nil

/-- With answers `0` every exposed byte of the network header is touched. -/
theorem tight_net (d : VringDesc) (net : VirtioNet)
    (h : range ∈ netExposed queueIdx kind d net.headerProcessed) :
    ∃ entry ∈ (callback virtioNet queueIdx kind d net).traceWith fun _ ↦ 0,
      touch entry.1 = some range := by
  cases kind with
  | processQueueStart => exact tight_netStart net queueIdx h
  | processQueueData => exact absurd h not_mem_nil
  | processQueueComplete =>
    rw [netExposed] at h
    split_ifs at h with hheader
    · exact absurd h not_mem_nil
    · obtain ⟨entry, hentry, htouch⟩ := tight_netStart net queueIdx h
      refine ⟨entry, mem_traceWith_bind (mem_traceWith_bind ?_), htouch⟩
      unfold VirtioNet.processQueueStart at hentry
      unfold VirtioNet.complete
      split_ifs at hentry ⊢ with hrx htx
      · rw [VirtioNet.completeRx, if_neg hheader]
        exact mem_traceWith_bind hentry
      · rw [VirtioNet.completeTx, VirtioNet.takeLast, if_neg hheader]
        exact mem_traceWith_bind hentry
      · exact hentry

/-- The footprint of the network device. -/
def netFootprint : Footprint virtioNet where
  Summary := Bool
  summary := VirtioNet.headerProcessed
  advance := fun _ kind _ headerProcessed ↦ netAdvance kind headerProcessed
  exposed := netExposed
  sound := always_net
  tight := fun queueIdx kind d net ↦
    exists_trace_touching admits_zero fun _ hrange ↦ tight_net queueIdx kind d net hrange

/-! ### The block device -/

/-- The part of the block device's state that its accesses to guest memory depend on. -/
structure BlkSummary where
  req : Option ℕ
  dataOffset : ℕ
  fileSize : ℕ

def VirtioBlk.summary (blk : VirtioBlk) : BlkSummary := ⟨blk.req, blk.dataOffset, blk.fileSize⟩

/-- A field of the request header, when there is one. -/
def reqField (req : Option ℕ) (offset size : ℕ) : List (ℕ × ℕ) :=
  match req with
  | some header => [(header + offset, size)]
  | none => []

/-- What a callback of the block device exposes: the status byte, the sector, and the type once some
sector makes the transfer fit into the file. -/
def blkExposed (kind : Callback) (d : VringDesc) (summary : BlkSummary) : List (ℕ × ℕ) :=
  match kind with
  | .processQueueStart => []
  | .processQueueData =>
    reqField summary.req outhdrOffSector 8 ++
      if saturatingAdd (summary.dataOffset % sectorSize) d.len ≤ summary.fileSize then
        reqField summary.req outhdrOffType 4
      else []
  | .processQueueComplete => (d.addr, 1) :: reqField summary.req outhdrOffType 4

/-- The summary after a callback. -/
def blkAdvance (kind : Callback) (d : VringDesc) (summary : BlkSummary) : BlkSummary :=
  match kind with
  | .processQueueStart => { summary with req := some d.addr, dataOffset := 0 }
  | .processQueueData => { summary with dataOffset := (summary.dataOffset + d.len) % 2 ^ 64 }
  | .processQueueComplete => summary

theorem always_readReq {offset size : ℕ} (h : reqField blk.req offset size ⊆ ranges) :
    (blk.readReq offset size).Performs (Reaches d ranges limit) := by
  unfold VirtioBlk.readReq
  cases hreq : blk.req with
  | none => exact ⟨reaches_host rfl trivial, fun _ ↦ trivial⟩
  | some header =>
    refine ⟨reaches_load (.inr (h ?_)), fun _ ↦ trivial⟩
    rw [hreq]
    exact mem_singleton_self _

theorem always_transfer (type : ℕ) {diskOffset : ℕ} (h : diskOffset + d.len ≤ limit) :
    (blk.transfer type diskOffset d.addr d.len).Performs (Reaches d ranges limit) := by
  unfold VirtioBlk.transfer
  split_ifs
  · exact ⟨reaches_host rfl h, fun _ ↦
      ⟨reaches_store (.inl (covered_front le_rfl)), fun _ ↦ trivial⟩⟩
  · exact ⟨reaches_load (.inl (covered_front le_rfl)), fun _ ↦
      ⟨reaches_host rfl h, fun _ ↦ trivial⟩⟩
  · exact ⟨reaches_store (.inl (covered_front (Nat.min_le_left _ _))), fun _ ↦
      ⟨reaches_store (.inl (covered_front (by omega))), fun _ ↦ trivial⟩⟩
  · trivial

/-- Whatever the sector, the transfer starts at least at the offset within a sector. -/
theorem saturatingAdd_diskOffset_le (sector dataOffset len : ℕ) :
    saturatingAdd (dataOffset % sectorSize) len ≤
      saturatingAdd ((sectorSize * sector + dataOffset) % 2 ^ 64) len := by
  unfold saturatingAdd sectorSize
  omega

/-- Some sector makes the transfer start at the offset within a sector. -/
theorem exists_sector (dataOffset : ℕ) : ∃ sector < 2 ^ 64,
    (sectorSize * sector + dataOffset) % 2 ^ 64 = dataOffset % sectorSize := by
  refine ⟨2 ^ 55 - dataOffset / 512 % 2 ^ 55, by omega, ?_⟩
  unfold sectorSize
  omega

theorem always_blkData (hsector : reqField blk.req outhdrOffSector 8 ⊆ ranges)
    (htype : saturatingAdd (blk.dataOffset % sectorSize) d.len ≤ blk.fileSize →
      reqField blk.req outhdrOffType 4 ⊆ ranges)
    (hlimit : ∀ diskOffset < 2 ^ 64, saturatingAdd diskOffset d.len ≤ blk.fileSize →
      diskOffset + d.len ≤ limit) :
    (blk.processQueueData d.addr d.len).Always (Reaches d ranges limit)
      fun blk' ↦ blk'.summary = blkAdvance .processQueueData d blk.summary := by
  refine (always_readReq blk hsector).bind fun sector _ ↦ ?_
  dsimp only
  split_ifs with hend
  · rfl
  · have hfits := (saturatingAdd_diskOffset_le sector blk.dataOffset d.len).trans
      (Nat.le_of_not_lt hend)
    refine (always_readReq blk (htype hfits)).bind fun type _ ↦ ?_
    refine (always_transfer blk type (hlimit _ ?_ (Nat.le_of_not_lt hend))).bind fun _ _ ↦ rfl
    exact Nat.mod_lt _ (by norm_num)

theorem always_blkComplete (limit : ℕ) :
    (blk.processQueueComplete d.addr d.len).Always
      (Reaches d (blkExposed .processQueueComplete d blk.summary) limit)
      fun reply ↦ reply.1.summary = blk.summary := by
  refine ⟨reaches_store (.inr mem_cons_self), fun _ ↦ ?_⟩
  exact (always_readReq blk (subset_cons_self _ _)).bind fun _ _ ↦ rfl

theorem always_block (d : VringDesc) (blk : VirtioBlk) :
    (callback virtioBlk queueIdx kind d blk).Always (TouchesOnly d (blkExposed kind d blk.summary))
      fun blk' ↦ blk'.summary = blkAdvance kind d blk.summary := by
  cases kind with
  | processQueueStart => rfl
  | processQueueData =>
    refine (always_blkData blk (subset_append_left _ _) (fun hfits ↦ ?_)
      fun diskOffset hlt _ ↦ Nat.add_le_add_right hlt.le d.len).allow fun _ hop ↦ hop.1
    have hexposed : blkExposed .processQueueData d blk.summary = reqField blk.req outhdrOffSector 8
      ++ reqField blk.req outhdrOffType 4 := congrArg _ (if_pos hfits)
    change _ ⊆ blkExposed .processQueueData d blk.summary
    rw [hexposed]
    exact subset_append_right _ _
  | processQueueComplete =>
    exact ((always_blkComplete blk 0).allow fun _ hop ↦ hop.1).bind fun _ h ↦ h

theorem mem_traceWith_readReq (answers : DevOp → ℕ) {offset size : ℕ}
    (h : range ∈ reqField blk.req offset size) :
    ∃ entry ∈ (blk.readReq offset size).traceWith answers, touch entry.1 = some range := by
  unfold VirtioBlk.readReq
  unfold reqField at h
  cases hreq : blk.req with
  | none =>
    rw [hreq] at h
    exact absurd h not_mem_nil
  | some header =>
    rw [hreq, mem_singleton] at h
    subst h
    exact ⟨_, mem_cons_self, rfl⟩

/-- The answers that bring a data callback to its read of the type: a sector that makes the transfer
start as early as it can. -/
def earlySector (sector : ℕ) : DevOp → ℕ
  | .load _ 8 => sector
  | _ => 0

theorem admits_earlySector {sector : ℕ} (h : sector < 2 ^ 64) (op : DevOp) :
    op.Admits (earlySector sector op) := by
  unfold earlySector
  split
  · exact lt_of_lt_of_eq h (by norm_num)
  · exact admits_zero op

theorem tight_blkData {sector : ℕ}
    (hsector : (sectorSize * sector + blk.dataOffset) % 2 ^ 64 = blk.dataOffset % sectorSize)
    (h : range ∈ blkExposed .processQueueData d blk.summary) :
    ∃ entry ∈ (blk.processQueueData d.addr d.len).traceWith (earlySector sector),
      touch entry.1 = some range := by
  cases hreq : blk.req with
  | none =>
    simp [blkExposed, VirtioBlk.summary, reqField, hreq] at h
  | some header =>
    rcases mem_append.mp h with hfield | hfield
    · obtain ⟨entry, hentry, htouch⟩ := mem_traceWith_readReq blk (earlySector sector) hfield
      exact ⟨entry, mem_traceWith_bind hentry, htouch⟩
    · split_ifs at hfield with hfits
      · obtain ⟨entry, hentry, htouch⟩ := mem_traceWith_readReq blk (earlySector sector) hfield
        refine ⟨entry, ?_, htouch⟩
        have hread : blk.readReq outhdrOffSector 8 =
            perform (.load (header + outhdrOffSector) 8) := by
          rw [VirtioBlk.readReq, hreq]
        have hend : ¬ blk.fileSize <
            saturatingAdd ((sectorSize * sector + blk.dataOffset) % 2 ^ 64) d.len := by
          rw [hsector]
          exact Nat.not_lt_of_le hfits
        rw [VirtioBlk.processQueueData, hread, perform_bind]
        refine mem_cons_of_mem _ ?_
        change entry ∈ traceWith (earlySector sector) (if blk.fileSize <
          saturatingAdd ((sectorSize * sector + blk.dataOffset) % 2 ^ 64) d.len then _ else _)
        rw [if_neg hend]
        exact mem_traceWith_bind hentry
      · exact absurd hfield not_mem_nil

theorem tight_blkComplete (h : range ∈ blkExposed .processQueueComplete d blk.summary) :
    ∃ entry ∈ (blk.processQueueComplete d.addr d.len).traceWith fun _ ↦ 0,
      touch entry.1 = some range := by
  rw [VirtioBlk.processQueueComplete, perform_bind]
  rcases mem_cons.mp h with rfl | hfield
  · exact ⟨_, mem_cons_self, rfl⟩
  · obtain ⟨entry, hentry, htouch⟩ := mem_traceWith_readReq blk (fun _ ↦ 0) hfield
    exact ⟨entry, mem_cons_of_mem _ (mem_traceWith_bind hentry), htouch⟩

/-- The footprint of the block device. -/
def blkFootprint : Footprint virtioBlk where
  Summary := BlkSummary
  summary := VirtioBlk.summary
  advance := fun _ kind d summary ↦ blkAdvance kind d summary
  exposed := fun _ kind d summary ↦ blkExposed kind d summary
  sound := always_block
  tight := by
    intro queueIdx kind d blk
    cases kind with
    | processQueueStart =>
      exact exists_trace_touching admits_zero fun _ hrange ↦ absurd hrange List.not_mem_nil
    | processQueueData =>
      obtain ⟨sector, hlt, hsector⟩ := exists_sector blk.dataOffset
      exact exists_trace_touching (admits_earlySector hlt) fun _ hrange ↦
        tight_blkData blk hsector hrange
    | processQueueComplete =>
      refine exists_trace_touching admits_zero fun _ hrange ↦ ?_
      obtain ⟨entry, hentry, htouch⟩ := tight_blkComplete blk hrange
      exact ⟨entry, Program.mem_traceWith_bind hentry, htouch⟩

/-! ### All device models -/

/-- A device model with its state. -/
inductive DeviceModel
  | block (state : VirtioBlk)
  | net (state : VirtioNet)
  | console (state : VirtioConsole)
  | rng

/-- Payload confinement of a device model on a chain. -/
def DeviceModel.Confined (model : DeviceModel) (view : QueueView) (chain : GuestChain view) :
    Prop :=
  match model with
  | .block state => PayloadConfined virtioBlk view state chain
  | .net state => PayloadConfined virtioNet view state chain
  | .console state => PayloadConfined virtioConsole view state chain
  | .rng => PayloadConfined virtioRng view () chain

/-- The header fields and status bytes that the callbacks access whatever the length of their buffer
lie inside the buffers of the chain. -/
def DeviceModel.HeadersInside (model : DeviceModel) (view : QueueView) (chain : GuestChain view) :
    Prop :=
  match model with
  | .block state => blkFootprint.ExposedInside view.id.queue (descs chain.visited) state.summary
      (chain.calls virtioBlkOuthdrSize)
  | .net state => netFootprint.ExposedInside view.id.queue (descs chain.visited)
      state.headerProcessed (chain.calls virtioNetHdrSize)
  | .console _ | .rng => True

/-- Payload confinement. For every chain that guest memory can show to a walk, every queue index and
each of the four device models in any state: every byte of guest memory that a callback reads or
writes while the chain is walked lies inside a buffer of the chain, in every run, if and only if the
header fields and status bytes that the model accesses do. -/
theorem payloadConfined_iff (model : DeviceModel) (view : QueueView) (chain : GuestChain view) :
    model.Confined view chain ↔ model.HeadersInside view chain := by
  cases model with
  | block state => exact blkFootprint.confined_iff state chain
  | net state => exact netFootprint.confined_iff state chain
  | console state =>
    refine iff_of_true ?_ trivial
    exact ((bufferFootprint virtioConsole always_console).confined_iff state chain).mpr
      (exposedInside_bufferFootprint always_console _)
  | rng =>
    refine iff_of_true ?_ trivial
    exact ((bufferFootprint virtioRng always_rng).confined_iff () chain).mpr
      (exposedInside_bufferFootprint always_rng _)

/-! ### A receive buffer of one byte -/

/-- A queue of the network device's receive side. -/
def rxView : QueueView where
  id := ⟨0, 0, 0⟩
  descQ := 0x1000
  availQ := 0x2000
  usedQ := 0x3000
  queueNum := 4
  startingAddress := 0x1000
  memEnd := 0x10000
  queueNum_pos := four_entries_pos
  queueNum_lt := four_entries_lt

/-- Guest memory whose descriptor 0 is a buffer of one byte. -/
def rxWorld : World where
  l1 := fun _ ↦ 0
  dram := fun _ ↦ memoryWith [(0x1000, 16, VringDesc.toRaw ⟨0x5000, 1, 2, 0⟩)]
  host := fun _ _ ↦ 0
  processed := fun _ _ ↦ 0
  outside := fun _ _ ↦ 0
  history := []

/-- The walk of the only descriptor `[0x5000, 0x5001)` stores at `0x500a`. -/
theorem rxHeader_outside :
    let out := (walkChain virtioNet rxView virtioNetHdrSize 4 0 0 VirtioNet.new).run exec
      Interference.none.act 0 rxWorld
    visited (out.state.log nativeOp) = [(0x1000, ⟨0x5000, 1, 2, 0⟩)] ∧
      (0x500a, 2) ∈ touched (out.state.log nativeOp) := by
  decide +kernel

end Bhx.Device
