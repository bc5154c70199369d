import Mathlib.Data.List.Forall2
import SimpleSipClient.Demux.Step

/-! # The walk over the input

The demuxer writes into the buffer it parses. This module states what it would
do if it did not: `walk` lists the packet offsets that the declared lengths of
the input lead to and `payloads` concatenates the video payloads found there,
both over one immutable buffer. The in-place loop follows the walk, because its
write pointer stays at least fourteen bytes behind the packet it reads.
-/

namespace SimpleSipClient.PsToH264

open Foundation

/-! ## Definitions -/

/-- What `leftlength` holds when `NextPack` is at offset `p`. -/
def leftAt (length : Int) (p : Nat) : Int := int32 (length - p)

def walkGuard (length : Int) (p : Nat) : Bool := 4 ≤ size64 (leftAt length p)

/-- Offset behind the packet at `p`, as its length field declares it. -/
def packetEnd (m : Buffer) (p : Nat) : Nat := p + 6 + declaredLength m p

/-- `Pes` gets past its size check at `p`. -/
def pesReads (length : Int) (p : Nat) : Bool := 9 ≤ size64 (leftAt length p)

/-- Offset of the next packet, if the loop gets there. -/
def walkNext (m : Buffer) (length : Int) (p : Nat) : Option Nat :=
  if hasStartCode m p 0xE0 then
    if pesReads length p ∧ p + 8 < m.size ∧ 0 ≤ payloadLength m p ∧
        (0 < payloadLength m p → packetEnd m p ≤ m.size) ∧ 0 < leftAt length (packetEnd m p) then
      some (packetEnd m p)
    else none
  else if hasStartCode m p 0xBB then
    if 6 ≤ size64 length ∧ p + 5 < m.size then some (packetEnd m p) else none
  else if hasStartCode m p 0xBC then
    if 6 ≤ size64 (leftAt length p) ∧ p + 5 < m.size then some (packetEnd m p) else none
  else none

/-- The pack header is readable and leaves room for a packet. -/
def hasPackets (m : Buffer) (length : Int) : Bool :=
  13 < m.size ∧ 4 ≤ leftAt length (firstPack m)

/-- Offsets of the packets that the loop looks at. -/
def walk (m : Buffer) (length : Int) : List Nat :=
  if hasPackets m length then
    chain (walkGuard length) (walkNext m length) (m.size + 1) (firstPack m)
  else []

/-- The payload bytes that a packet at `p` contributes. -/
def payloadAt (m : Buffer) (length : Int) (p : Nat) : List UInt8 :=
  if hasStartCode m p 0xE0 ∧ pesReads length p ∧ 0 < payloadLength m p then
    m.slice (payloadOffset m p) (payloadLength m p).toNat
  else []

def payloads (m : Buffer) (length : Int) : List UInt8 :=
  (walk m length).flatMap (payloadAt m length)

/-! ## Arithmetic of the walk -/

theorem leftBehind_leftAt (m : Buffer) (length : Int) (p : Nat) :
    leftBehind m p (leftAt length p) = leftAt length (packetEnd m p) := by
  unfold leftBehind leftAt packetEnd
  rw [show int32 (length - p) - declaredLength m p - 6 =
      int32 (length - p) - (declaredLength m p + 6) by omega, int32_sub]
  congr 1
  omega

theorem le_payloadOffset (m : Buffer) (p : Nat) : p + 9 ≤ payloadOffset m p := by
  unfold payloadOffset
  omega

theorem le_packetEnd (m : Buffer) (p : Nat) : p + 6 ≤ packetEnd m p := by
  unfold packetEnd
  omega

theorem payload_end {m : Buffer} {p : Nat} (h : 0 ≤ payloadLength m p) :
    payloadOffset m p + (payloadLength m p).toNat = packetEnd m p := by
  unfold payloadLength at h
  unfold payloadOffset payloadLength packetEnd
  omega

theorem payloadLength_lt (m : Buffer) (p : Nat) : payloadLength m p < 65536 := by
  have := declaredLength_lt m p
  unfold payloadLength
  omega

/-- The wrap-around of `int` does not show up to one packet behind the frame. -/
theorem leftAt_eq {length : Int} {p : Nat} (hint : length < 2147483648)
    (hp : p ≤ length + 2147483648) : leftAt length p = length - p :=
  int32_eq_self (by omega) (by omega)

theorem size64_leftAt {length : Int} {p n : Nat} (hint : length < 2147483648) (hp : p ≤ length) :
    n ≤ size64 (leftAt length p) ↔ (p : Int) + n ≤ length := by
  rw [leftAt_eq hint (by omega), size64_of_nonneg (by omega) (by omega)]
  omega

theorem walkNext_eq {m : Buffer} {length : Int} {p q : Nat} (h : walkNext m length p = some q) :
    q = packetEnd m p := by
  unfold walkNext at h
  split_ifs at h <;> simp_all

/-- The walk goes beyond packets with a known start code only. -/
theorem walkNext_code {m : Buffer} {length : Int} {p q : Nat}
    (h : walkNext m length p = some q) :
    ∃ streamId : UInt8, streamId ≠ 0x00 ∧ hasStartCode m p streamId = true := by
  unfold walkNext at h
  split_ifs at h with h0 _ h1 _ h2 _
  · exact ⟨0xE0, by decide, h0⟩
  · exact ⟨0xBB, by decide, h1⟩
  · exact ⟨0xBC, by decide, h2⟩

theorem walkNext_lt_size {m : Buffer} {length : Int} {p q : Nat}
    (h : walkNext m length p = some q) : p + 3 < m.size := by
  rcases walkNext_code h with ⟨streamId, hid, hcode⟩
  exact hasStartCode_lt_size hid hcode

/-- Every step of the walk moves forward inside the block. -/
theorem walkNext_measure {m : Buffer} {length : Int} (p q : Nat)
    (h : walkNext m length p = some q) : m.size - q < m.size - p := by
  have hlt := walkNext_lt_size h
  have hq := walkNext_eq h
  have hend := le_packetEnd m p
  omega

/-- The walk is closed under its successor. -/
theorem walk_closed {m : Buffer} {length : Int} {p q : Nat} (hp : p ∈ walk m length)
    (hn : walkNext m length p = some q) (hg : walkGuard length q = true) : q ∈ walk m length := by
  unfold walk at hp ⊢
  split at hp
  · rename_i hh
    rw [if_pos hh]
    exact chain_closed (μ := fun p => m.size - p) (walkNext_measure (m := m)) (by omega) hp hn hg
  · simp at hp

theorem payloadAt_eq_nil {m : Buffer} {length : Int} {p : Nat}
    (h : hasStartCode m p 0xE0 = false) : payloadAt m length p = [] := by
  simp [payloadAt, h]

/-! ## Buffers that agree from an offset on -/

/-- `s` still has the bytes of `m` from offset `p` on. -/
structure Agrees (s m : Buffer) (p : Nat) : Prop where
  size : s.size = m.size
  cells : ∀ i, p ≤ i → s.cell i = m.cell i

namespace Agrees

variable {s m : Buffer} {p : Nat}

theorem mono {q : Nat} (h : Agrees s m p) (hq : p ≤ q) : Agrees s m q :=
  ⟨h.size, fun i hi => h.cells i (Nat.le_trans hq hi)⟩

theorem hasStartCode (h : Agrees s m p) (streamId : UInt8) :
    hasStartCode s p streamId = PsToH264.hasStartCode m p streamId := by
  simp [PsToH264.hasStartCode, h.cells p (by omega), h.cells (p + 1) (by omega),
    h.cells (p + 2) (by omega), h.cells (p + 3) (by omega)]

theorem codeSpan (h : Agrees s m p) : codeSpan s p = PsToH264.codeSpan m p := by
  simp [PsToH264.codeSpan, h.size, h.cells p (by omega), h.cells (p + 1) (by omega),
    h.cells (p + 2) (by omega)]

theorem declaredLength (h : Agrees s m p) : declaredLength s p = PsToH264.declaredLength m p := by
  simp [PsToH264.declaredLength, h.cells (p + 4) (by omega), h.cells (p + 5) (by omega)]

theorem headerDataLength (h : Agrees s m p) :
    headerDataLength s p = PsToH264.headerDataLength m p := by
  simp [PsToH264.headerDataLength, h.cells (p + 8) (by omega)]

theorem payloadLength (h : Agrees s m p) : payloadLength s p = PsToH264.payloadLength m p := by
  simp [PsToH264.payloadLength, h.declaredLength, h.headerDataLength]

theorem payloadOffset (h : Agrees s m p) : payloadOffset s p = PsToH264.payloadOffset m p := by
  simp [PsToH264.payloadOffset, h.headerDataLength]

theorem payloadSource (h : Agrees s m p) : payloadSource s p = PsToH264.payloadSource m p := by
  simp [PsToH264.payloadSource, h.payloadLength, h.payloadOffset]

theorem leftBehind (h : Agrees s m p) (left : Int) :
    leftBehind s p left = PsToH264.leftBehind m p left := by
  simp [PsToH264.leftBehind, h.declaredLength]

theorem slice (h : Agrees s m p) {i n : Nat} (hi : p ≤ i) : s.slice i n = m.slice i n :=
  Block.slice_congr fun k _ => h.cells (i + k) (by omega)

end Agrees

/-! ## The loop follows the walk -/

/-- The loop state at offset `p` of the walk over `m`, with `out` written so far. -/
structure Tracks (m : Buffer) (length : Int) (c : Cursor) (s : Buffer) (p : Nat)
    (out : List UInt8) : Prop where
  nextPack : c.nextPack = p
  leftlength : c.leftlength = leftAt length p
  buffer : c.buffer = out.length
  h264length : c.h264length = int32 out.length
  behind : out.length + 14 ≤ p
  fits : out.length ≤ m.size
  ahead : Agrees s m p
  written : s.slice 0 out.length = out

/-- What the loop leaves: `out` at the front of the buffer, and its length. -/
structure Emitted (m : Buffer) (c : Cursor) (s : Buffer) (out : List UInt8) : Prop where
  size : s.size = m.size
  fits : out.length ≤ m.size
  h264length : c.h264length = int32 out.length
  written : s.slice 0 out.length = out

theorem Tracks.emitted {m : Buffer} {length : Int} {c : Cursor} {s : Buffer} {p : Nat}
    {out : List UInt8} (h : Tracks m length c s p out) : Emitted m c s out :=
  ⟨h.ahead.size, h.fits, h.h264length, h.written⟩

/-- At `p` the loop makes no access outside the block and no copy of negative length. -/
structure Settled (m : Buffer) (length : Int) (p : Nat) : Prop where
  code : p + codeSpan m p < m.size
  video : hasStartCode m p 0xE0 = true → pesReads length p = true →
    p + 8 < m.size ∧ 0 ≤ payloadLength m p ∧ (0 < payloadLength m p → packetEnd m p ≤ m.size)
  title : hasStartCode m p 0xBB = true → 6 ≤ size64 length → p + 5 < m.size
  map : hasStartCode m p 0xBC = true → 6 ≤ size64 (leftAt length p) → p + 5 < m.size

/-- One iteration at `p`, seen from the walk: it goes to the next offset, leaves
at the last one, or halts where the packet is not settled. -/
def Stepped (m : Buffer) (length : Int) (p : Nat) (out : List UInt8) :
    Except Halt (Flow Cursor × Buffer) → Prop
  | .ok (.again c, s) => Settled m length p ∧ ∃ q, walkNext m length p = some q ∧
      Tracks m length c s q (out ++ payloadAt m length p)
  | .ok (.leave c, s) => Settled m length p ∧ walkNext m length p = none ∧
      Emitted m c s (out ++ payloadAt m length p)
  | .error e => ¬ Settled m length p ∧ walkNext m length p = none ∧ e = .invalid

/-! A packet of one kind is settled when the condition on this kind holds. -/

theorem settled_video {m : Buffer} {length : Int} {p : Nat} (hv : hasStartCode m p 0xE0 = true)
    (hset : pesReads length p = true → p + 8 < m.size ∧ 0 ≤ payloadLength m p ∧
      (0 < payloadLength m p → packetEnd m p ≤ m.size)) : Settled m length p := by
  have hne := hasStartCode_unique hv
  exact ⟨codeSpan_inside (by decide) hv, fun _ => hset, by simp [hne], by simp [hne]⟩

theorem settled_title {m : Buffer} {length : Int} {p : Nat} (hs : hasStartCode m p 0xBB = true)
    (hset : 6 ≤ size64 length → p + 5 < m.size) : Settled m length p := by
  have hne := hasStartCode_unique hs
  exact ⟨codeSpan_inside (by decide) hs, by simp [hne], fun _ => hset, by simp [hne]⟩

theorem settled_map {m : Buffer} {length : Int} {p : Nat} (hm : hasStartCode m p 0xBC = true)
    (hset : 6 ≤ size64 (leftAt length p) → p + 5 < m.size) : Settled m length p := by
  have hne := hasStartCode_unique hm
  exact ⟨codeSpan_inside (by decide) hm, by simp [hne], by simp [hne], fun _ => hset⟩

section Step

variable {m : Buffer} {length : Int} {c : Cursor} {s : Buffer} {p : Nat} {out : List UInt8}

theorem walkNext_unknown (hv : hasStartCode m p 0xE0 = false) (hs : hasStartCode m p 0xBB = false)
    (hm : hasStartCode m p 0xBC = false) : walkNext m length p = none := by
  simp [walkNext, hv, hs, hm]

theorem walkNext_title (hs : hasStartCode m p 0xBB = true) : walkNext m length p =
    if 6 ≤ size64 length ∧ p + 5 < m.size then some (packetEnd m p) else none := by
  simp [walkNext, hs, hasStartCode_unique hs]

theorem walkNext_map (hm : hasStartCode m p 0xBC = true) : walkNext m length p =
    if 6 ≤ size64 (leftAt length p) ∧ p + 5 < m.size then some (packetEnd m p) else none := by
  simp [walkNext, hm, hasStartCode_unique hm]

theorem walkNext_video (hv : hasStartCode m p 0xE0 = true) : walkNext m length p =
    if pesReads length p ∧ p + 8 < m.size ∧ 0 ≤ payloadLength m p ∧
        (0 < payloadLength m p → packetEnd m p ≤ m.size) ∧ 0 < leftAt length (packetEnd m p) then
      some (packetEnd m p)
    else none := by
  simp [walkNext, hv]

/-- The start code test at the end of the block finds no known packet. -/
theorem walkNext_outside (h : m.size ≤ p + codeSpan m p) : walkNext m length p = none := by
  have hcode (streamId : UInt8) (hid : streamId ≠ 0x00) : hasStartCode m p streamId = false :=
    hasStartCode_outside streamId hid h
  exact walkNext_unknown (hcode _ (by decide)) (hcode _ (by decide)) (hcode _ (by decide))

/-- The copy of a payload appends it to the output and leaves everything behind
the packet as it was, although source and destination may overlap. -/
theorem Tracks.copied (h : Tracks m length c s p out) (hpos : 0 < payloadLength m p)
    (hend : packetEnd m p ≤ m.size) :
    let n := (payloadLength m p).toNat
    let s' := s.copy out.length (payloadOffset m p) n
    Agrees s' m (packetEnd m p) ∧
      s'.slice 0 (out.length + n) = out ++ m.slice (payloadOffset m p) n := by
  have hend' := payload_end (Int.le_of_lt hpos)
  have hoff := le_payloadOffset m p
  have hbehind := h.behind
  have hsize := h.ahead.size
  refine ⟨⟨hsize, fun i hi => ?_⟩, ?_⟩
  · rw [Block.copy_cell_outside (by omega)]
    exact h.ahead.cells i (by omega)
  · rw [Block.slice_add, Nat.zero_add, Block.slice_copy (by omega),
      Block.slice_copy_before (by omega), h.written, h.ahead.slice (by omega)]

/-- Behind a packet without payload everything is as before. -/
theorem Tracks.skipped (h : Tracks m length c s p out) :
    Tracks m length (c.behindHeader s) s (packetEnd m p) out where
  nextPack := by
    rw [Cursor.behindHeader, h.nextPack, h.ahead.declaredLength]
    rfl
  leftlength := by
    rw [Cursor.behindHeader, h.nextPack, h.leftlength, h.ahead.leftBehind, leftBehind_leftAt]
  buffer := h.buffer
  h264length := h.h264length
  behind := by have := h.behind; have := le_packetEnd m p; omega
  fits := h.fits
  ahead := h.ahead.mono (by have := le_packetEnd m p; omega)
  written := h.written

theorem Tracks.pesReads_iff (h : Tracks m length c s p out) :
    9 ≤ size64 c.leftlength ↔ pesReads length p = true := by
  rw [h.leftlength]
  simp [pesReads]

theorem Tracks.behindPes_eq (h : Tracks m length c s p out) : c.behindPes s =
    if leftAt length (packetEnd m p) ≤ 0 then
      { c with leftlength := leftAt length (packetEnd m p) }
    else c.behindHeader s := by
  unfold Cursor.behindPes Cursor.behindHeader
  rw [h.nextPack, h.leftlength, h.ahead.leftBehind, leftBehind_leftAt]

theorem Tracks.videoFlow_eq (h : Tracks m length c s p out) (d : Cursor) : videoFlow c s d =
    if leftAt length (packetEnd m p) ≤ 0 then .leave d else .again d := by
  unfold videoFlow
  rw [h.nextPack, h.leftlength, h.ahead.leftBehind, leftBehind_leftAt]

/-- A readable video packet hands the copy what its header says in the input. -/
theorem Tracks.demuxVideo_outcome (h : Tracks m length c s p out)
    (hr : pesReads length p = true) (hb : p + 8 < m.size) : (demuxVideo c s).outcome =
      match (copyPayload (c.behindPes s) (payloadSource m p) (payloadLength m p) s).outcome with
      | .ok (d, s') => .ok (if leftAt length (packetEnd m p) ≤ 0 then .leave d else .again d, s')
      | .error e => .error e := by
  have hb' : c.nextPack + 8 < s.size := by rw [h.nextPack, h.ahead.size]; exact hb
  rw [demuxVideo_run (h.pesReads_iff.mpr hr) hb', h.nextPack, h.ahead.payloadSource,
    h.ahead.payloadLength]
  dsimp only
  rcases (copyPayload _ _ _ s).outcome with e | ⟨d, s'⟩
  · rfl
  · simp only [h.videoFlow_eq]

/-- Appending a payload of length `n` keeps both counters in step with the output. -/
theorem appended_counters {out : List UInt8} {d : Cursor} {n : Int} {xs : List UInt8}
    (hb : d.buffer = out.length) (hh : d.h264length = int32 out.length)
    (hx : xs.length = n.toNat) (hn : 0 ≤ n) :
    (d.appended n).buffer = (out ++ xs).length ∧
      (d.appended n).h264length = int32 (out ++ xs).length := by
  constructor
  · simp [Cursor.appended, hb, hx]
  · simp only [Cursor.appended, hh, int32_add, List.length_append, hx]
    congr 1
    omega

theorem Tracks.video_payload_stepped (h : Tracks m length c s p out)
    (hv : hasStartCode m p 0xE0 = true) (hr : pesReads length p = true) (hb : p + 8 < m.size)
    (hpos : 0 < payloadLength m p) (hend : packetEnd m p ≤ m.size) :
    Stepped m length p out (demuxVideo c s).outcome := by
  have hsize := h.ahead.size
  have hend' := payload_end (Int.le_of_lt hpos)
  have hoff := le_payloadOffset m p
  have hbehind := h.behind
  have hlen : (m.slice (payloadOffset m p) (payloadLength m p).toNat).length =
      (payloadLength m p).toNat := by simp
  have hpiece : payloadAt m length p =
      m.slice (payloadOffset m p) (payloadLength m p).toNat := by
    simp [payloadAt, hv, hr, hpos]
  have hset : Settled m length p :=
    settled_video hv fun _ => ⟨hb, Int.le_of_lt hpos, fun _ => hend⟩
  obtain ⟨hagree, hwritten⟩ := h.copied hpos hend
  rw [h.demuxVideo_outcome hr hb, payloadSource, if_pos hpos, h.behindPes_eq]
  by_cases hleft : leftAt length (packetEnd m p) ≤ 0
  · simp only [if_pos hleft]
    rw [copyPayload_run hpos (payloadLength_lt m p) (by simp [h.buffer]; omega) (by omega)]
    obtain ⟨_, hc⟩ := appended_counters
      (d := { c with leftlength := leftAt length (packetEnd m p) }) h.buffer h.h264length hlen
      (Int.le_of_lt hpos)
    refine ⟨hset, ?_, hsize, ?_, ?_, ?_⟩
    · rw [walkNext_video hv, if_neg (by omega)]
    · rw [hpiece, List.length_append, hlen]; omega
    · rw [hpiece]; exact hc
    · rw [hpiece, List.length_append, hlen, ← hwritten]
      simp [h.buffer]
  · simp only [if_neg hleft]
    have hskip := h.skipped
    rw [copyPayload_run hpos (payloadLength_lt m p) (by simp [hskip.buffer]; omega) (by omega)]
    obtain ⟨hcb, hch⟩ := appended_counters hskip.buffer hskip.h264length hlen (Int.le_of_lt hpos)
    refine ⟨hset, packetEnd m p, ?_, ?_⟩
    · rw [walkNext_video hv, if_pos ⟨hr, hb, by omega, fun _ => hend, by omega⟩]
    · rw [hpiece]
      refine ⟨hskip.nextPack, hskip.leftlength, hcb, hch, ?_, ?_, ?_, ?_⟩
      · rw [List.length_append, hlen]; omega
      · rw [List.length_append, hlen]; omega
      · rw [hskip.buffer]; exact hagree
      · rw [List.length_append, hlen, ← hwritten, hskip.buffer]

theorem Tracks.video_empty_stepped (h : Tracks m length c s p out)
    (hv : hasStartCode m p 0xE0 = true) (hr : pesReads length p = true) (hb : p + 8 < m.size)
    (hzero : payloadLength m p = 0) : Stepped m length p out (demuxVideo c s).outcome := by
  have hsize := h.ahead.size
  have hpiece : payloadAt m length p = [] := by simp [payloadAt, hzero]
  have hset : Settled m length p := settled_video hv fun _ => ⟨hb, by omega, by omega⟩
  rw [h.demuxVideo_outcome hr hb, hzero, copyPayload_none, h.behindPes_eq]
  by_cases hleft : leftAt length (packetEnd m p) ≤ 0
  · simp only [if_pos hleft]
    refine ⟨hset, ?_, ?_⟩
    · rw [walkNext_video hv, if_neg (by omega)]
    · rw [hpiece, List.append_nil]
      exact ⟨hsize, h.fits, h.h264length, h.written⟩
  · simp only [if_neg hleft]
    refine ⟨hset, packetEnd m p, ?_, ?_⟩
    · rw [walkNext_video hv, if_pos ⟨hr, hb, by omega, by omega, by omega⟩]
    · rw [hpiece, List.append_nil]
      exact h.skipped

/-- A negative payload length comes with a null source, whatever the block. -/
theorem Tracks.video_negative_stepped (h : Tracks m length c s p out)
    (hv : hasStartCode m p 0xE0 = true) (hr : pesReads length p = true) (hb : p + 8 < m.size)
    (hneg : payloadLength m p < 0) : Stepped m length p out (demuxVideo c s).outcome := by
  have hsize := h.ahead.size
  rw [h.demuxVideo_outcome hr hb, payloadSource, if_neg (by omega), copyPayload_null (by omega)]
  refine ⟨fun hset => ?_, ?_, rfl⟩
  · have := (hset.video hv hr).2.1
    omega
  · rw [walkNext_video hv, if_neg (by omega)]

/-- A payload that reaches beyond the block cannot be copied. -/
theorem Tracks.video_outside_stepped (h : Tracks m length c s p out)
    (hv : hasStartCode m p 0xE0 = true) (hr : pesReads length p = true) (hb : p + 8 < m.size)
    (hpos : 0 < payloadLength m p) (hend : m.size < packetEnd m p) :
    Stepped m length p out (demuxVideo c s).outcome := by
  have hsize := h.ahead.size
  have hend' := payload_end (Int.le_of_lt hpos)
  rw [h.demuxVideo_outcome hr hb, payloadSource, if_pos hpos,
    copyPayload_outside hpos (payloadLength_lt m p) (by omega)]
  refine ⟨fun hset => ?_, ?_, rfl⟩
  · have := (hset.video hv hr).2.2 hpos
    omega
  · rw [walkNext_video hv, if_neg (fun hc => by have := hc.2.2.2.1 hpos; omega)]

theorem Tracks.video_stepped (h : Tracks m length c s p out) (hv : hasStartCode m p 0xE0 = true) :
    Stepped m length p out (demuxVideo c s).outcome := by
  have hsize := h.ahead.size
  by_cases hr : pesReads length p = true
  · by_cases hb : p + 8 < m.size
    · rcases Int.lt_trichotomy (payloadLength m p) 0 with hneg | hzero | hpos
      · exact h.video_negative_stepped hv hr hb hneg
      · exact h.video_empty_stepped hv hr hb hzero
      · by_cases hend : packetEnd m p ≤ m.size
        · exact h.video_payload_stepped hv hr hb hpos hend
        · exact h.video_outside_stepped hv hr hb hpos (by omega)
    · obtain ⟨es, _, hrun⟩ := demuxVideo_unreadable (h.pesReads_iff.mpr hr)
        (by rw [h.nextPack]; omega : s.size ≤ c.nextPack + 8)
      rw [hrun]
      refine ⟨fun hset => hb (hset.video hv hr).1, ?_, rfl⟩
      rw [walkNext_video hv, if_neg (fun hc => hb hc.2.1)]
  · rw [demuxVideo_short (Nat.lt_of_not_le (mt h.pesReads_iff.mp hr))]
    refine ⟨settled_video hv fun hc => absurd hc hr, ?_, ?_⟩
    · rw [walkNext_video hv, if_neg (fun hc => hr hc.1)]
    · simpa [payloadAt, hr] using h.emitted

/-- The branch of the two headers without payload, for whichever length it tests. -/
theorem Tracks.title_stepped (h : Tracks m length c s p out) {limit : Int}
    (hn : walkNext m length p =
      if 6 ≤ size64 limit ∧ p + 5 < m.size then some (packetEnd m p) else none)
    (hpiece : payloadAt m length p = [])
    (hset : Settled m length p ↔ (6 ≤ size64 limit → p + 5 < m.size)) :
    Stepped m length p out (demuxTitleHeader limit c s).outcome := by
  have hsize := h.ahead.size
  by_cases hl : 6 ≤ size64 limit
  · by_cases hb : p + 5 < m.size
    · rw [demuxTitleHeader_run hl (by rw [h.nextPack]; omega)]
      refine ⟨hset.mpr fun _ => hb, packetEnd m p, by rw [hn, if_pos ⟨hl, hb⟩], ?_⟩
      rw [hpiece, List.append_nil]
      exact h.skipped
    · rw [demuxTitleHeader_unreadable hl (by rw [h.nextPack]; omega)]
      exact ⟨fun hs => hb (hset.mp hs hl), by rw [hn, if_neg (fun hc => hb hc.2)], rfl⟩
  · rw [demuxTitleHeader_short (by omega)]
    refine ⟨hset.mpr fun hc => absurd hc hl, by rw [hn, if_neg (fun hc => hl hc.1)], ?_⟩
    rw [hpiece, List.append_nil]
    exact h.emitted

/-- One iteration of the in-place loop does what the walk over the input says. -/
theorem Tracks.stepped (h : Tracks m length c s p out) :
    Stepped m length p out (demuxPacket length c s).outcome := by
  have hp := h.nextPack
  have hcode := h.ahead.hasStartCode
  have hspan := h.ahead.codeSpan
  have hsize := h.ahead.size
  by_cases hin : p + codeSpan m p < m.size
  · cases hv : hasStartCode m p 0xE0 with
    | true =>
        rw [demuxPacket_video (by rw [hp, hcode, hv])]
        exact h.video_stepped hv
    | false =>
        cases hs : hasStartCode m p 0xBB with
        | true =>
            rw [demuxPacket_title (by rw [hp, hcode, hs])]
            exact h.title_stepped (walkNext_title hs) (payloadAt_eq_nil hv)
              ⟨fun hset => hset.title hs, settled_title hs⟩
        | false =>
            cases hm : hasStartCode m p 0xBC with
            | true =>
                rw [demuxPacket_map (by rw [hp, hcode, hm]), demuxStreamMap_eq, h.leftlength]
                exact h.title_stepped (walkNext_map hm) (payloadAt_eq_nil hv)
                  ⟨fun hset => hset.map hm, settled_map hm⟩
            | false =>
                rw [demuxPacket_unknown (by rw [hp, hspan, hsize]; exact hin)
                  (by rw [hp, hcode, hv]) (by rw [hp, hcode, hs]) (by rw [hp, hcode, hm])]
                refine ⟨⟨hin, by simp [hv], by simp [hs], by simp [hm]⟩,
                  walkNext_unknown hv hs hm, ?_⟩
                rw [payloadAt_eq_nil hv, List.append_nil]
                exact h.emitted
  · rw [demuxPacket_unreadable length (by rw [hp, hspan, hsize]; omega)]
    exact ⟨fun hset => hin hset.code, walkNext_outside (by omega), rfl⟩

theorem Tracks.settled (h : Tracks m length c s p out) {r : Flow Cursor × Buffer}
    (hok : (demuxPacket length c s).outcome = .ok r) : Settled m length p := by
  have hst := h.stepped
  rw [hok] at hst
  rcases r with ⟨c' | c', s'⟩ <;> exact hst.1

end Step

/-! ## The loop as a whole -/

theorem demux_follows (m : Buffer) (length : Int) :
    Follows loopGuard (demuxPacket length) (walkGuard length) (walkNext m length)
      (payloadAt m length) (Tracks m length) (Emitted m) where
  guards c s p out h := by
    simp [loopGuard, walkGuard, h.leftlength, sizeofPackStartCode]
  done c s p out h _ := h.emitted
  again c s p out c' s' h _ hb := by
    have hst := h.stepped
    rw [hb] at hst
    exact hst.2
  leave c s p out c' s' h _ hb := by
    have hst := h.stepped
    rw [hb] at hst
    exact hst.2
  halts c s p out e h _ hb := by
    have hst := h.stepped
    rw [hb] at hst
    exact hst.2.1

/-- The loop starts at the first packet with nothing written. -/
theorem tracks_start (m : Buffer) (length : Int) :
    Tracks m length ⟨0, 0, firstPack m, leftAt length (firstPack m)⟩ m (firstPack m) [] where
  nextPack := rfl
  leftlength := rfl
  buffer := rfl
  h264length := rfl
  behind := by simp [firstPack]
  fits := Nat.zero_le _
  ahead := ⟨rfl, fun _ _ => rfl⟩
  written := rfl

/-! ## The call as a whole -/

/-- Cursor and buffer at the head of each iteration of a call. -/
def demuxHeads (m : Buffer) (length : Int) : List (Cursor × Buffer) :=
  match (enterLoop length m).outcome with
  | .ok (some start, b) => heads loopGuard (demuxPacket length) (b.size + 1) start b
  | _ => []

section Call

variable {m : Buffer} {length : Int}

/-- A call that finds no packets reads the stuffing byte and nothing else. -/
theorem getH246FromPs_noPackets (hp : hasPackets m length = false) :
    getH246FromPs length m = ⟨[.inspect 13],
        if 13 < m.size then .ok (⟨0, 0, 0⟩, m) else .error .invalid⟩ ∧
      demuxHeads m length = [] := by
  by_cases h : 13 < m.size
  · have hleft : int32 (length - firstPack m) < 4 := by
      simpa [hasPackets, h, leftAt] using hp
    have hrun := programStreamPackHeader_run length h
    rw [if_pos hleft] at hrun
    have henter : enterLoop length m = ⟨[.inspect 13], .ok (none, m)⟩ := by
      rw [enterLoop, Traced.bind_run, hrun]
      rfl
    constructor
    · rw [getH246FromPs, Traced.bind_run, henter, if_pos h]
      rfl
    · rw [demuxHeads, henter]
  · have hrun := programStreamPackHeader_run_outside length (Nat.le_of_not_lt h)
    have henter : enterLoop length m = ⟨[.inspect 13], .error .invalid⟩ := by
      rw [enterLoop, Traced.bind_run, hrun]
    constructor
    · rw [getH246FromPs, Traced.bind_run, henter, if_neg h]
    · rw [demuxHeads, henter]

/-- A call that enters the loop is the loop, wrapped in the pack header's one read
and the three values the caller gets. -/
theorem getH246FromPs_loop (hp : hasPackets m length = true) :
    let start : Cursor := ⟨0, 0, firstPack m, leftAt length (firstPack m)⟩
    let loop := iterate loopGuard (demuxPacket length) (m.size + 1) start m
    getH246FromPs length m = ⟨.inspect 13 :: loop.events,
        match loop.outcome with
        | .ok (c, s) => .ok (⟨c.h264length, 0, c.h264length⟩, s)
        | .error e => .error e⟩ ∧
      demuxHeads m length =
        heads loopGuard (demuxPacket length) (m.size + 1) start m := by
  have hsp : 13 < m.size ∧ 4 ≤ leftAt length (firstPack m) := by simpa [hasPackets] using hp
  have hrun := programStreamPackHeader_run length hsp.1
  rw [show int32 (length - firstPack m) = leftAt length (firstPack m) from rfl,
    if_neg (by omega)] at hrun
  have hret : ¬ leftAt length (firstPack m) = 0 := by omega
  have henter : enterLoop length m =
      ⟨[.inspect 13], .ok (some ⟨0, 0, firstPack m, leftAt length (firstPack m)⟩, m)⟩ := by
    rw [enterLoop, Traced.bind_run, hrun]
    simp [hret]
  constructor
  · rw [getH246FromPs, Traced.bind_run, henter]
    simp only
    rw [Traced.bind_run, Traced.get_run]
    simp only [List.nil_append]
    rw [Traced.bind_run]
    rcases iterate _ _ _ _ m with ⟨es, _ | ⟨c, s⟩⟩ <;> simp
  · rw [demuxHeads, henter]

theorem walk_eq_nil (hp : hasPackets m length = false) : walk m length = [] := by
  simp [walk, hp]

theorem walk_eq_chain (hp : hasPackets m length = true) : walk m length =
    chain (walkGuard length) (walkNext m length) (m.size + 1) (firstPack m) := by
  simp [walk, hp]

/-- The iterations of a call stand at the offsets of the walk, one by one, each with
the payloads in front of it written. -/
theorem demuxHeads_produced (m : Buffer) (length : Int) :
    List.Forall₂ (fun h q => Tracks m length h.1 h.2 q.1 q.2) (demuxHeads m length)
      (producedBefore (payloadAt m length) [] (walk m length)) := by
  cases hp : hasPackets m length with
  | true =>
      rw [(getH246FromPs_loop hp).2, walk_eq_chain hp]
      exact (demux_follows m length).heads_produced (tracks_start m length)
  | false =>
      rw [walk_eq_nil hp, (getH246FromPs_noPackets hp).2]
      exact .nil

theorem demuxHeads_walk (m : Buffer) (length : Int) :
    List.Forall₂ (fun h p => ∃ out, Tracks m length h.1 h.2 p out) (demuxHeads m length)
      (walk m length) := by
  rw [← map_producedBefore (payloadAt m length) [] (walk m length), List.forall₂_map_right_iff]
  exact (demuxHeads_produced m length).imp fun _ q ht => ⟨q.2, ht⟩

theorem demuxHeads_nextPack (m : Buffer) (length : Int) :
    (demuxHeads m length).map (fun h => h.1.nextPack) = walk m length := by
  rw [← List.forall₂_eq_eq_eq, List.forall₂_map_left_iff]
  exact (demuxHeads_walk m length).imp fun _ _ ⟨_, ht⟩ => ht.nextPack

/-- A call that returns has moved the payloads of the walk to the front of the
buffer, and returns how many bytes they are. -/
theorem getH246FromPs_payloads {r : DemuxResult} {s : Buffer}
    (h : (getH246FromPs length m).outcome = .ok (r, s)) :
    r = ⟨int32 (payloads m length).length, 0, int32 (payloads m length).length⟩ ∧
      s.size = m.size ∧ (payloads m length).length ≤ m.size ∧
      s.slice 0 (payloads m length).length = payloads m length := by
  cases hp : hasPackets m length with
  | true =>
      rw [(getH246FromPs_loop hp).1] at h
      dsimp only at h
      split at h
      · rename_i c s' hr
        cases h
        have hpost := (demux_follows m length).collect (tracks_start m length) hr
        rw [List.nil_append, ← walk_eq_chain hp] at hpost
        have hlen : c.h264length = int32 (payloads m length).length := hpost.h264length
        exact ⟨by rw [hlen], hpost.size, hpost.fits, hpost.written⟩
      · cases h
  | false =>
      have hnil : payloads m length = [] := by rw [payloads, walk_eq_nil hp]; rfl
      rw [(getH246FromPs_noPackets hp).1] at h
      dsimp only at h
      split at h
      · cases h
        rw [hnil]
        exact ⟨rfl, rfl, Nat.zero_le _, rfl⟩
      · cases h

/-- A call whose packets are all settled returns. -/
theorem getH246FromPs_returns (hs : 13 < m.size) (hall : ∀ p ∈ walk m length, Settled m length p) :
    ∃ r s, (getH246FromPs length m).outcome = .ok (r, s) := by
  cases hp : hasPackets m length with
  | true =>
      have hsafe : ∀ c s p out e, Tracks m length c s p out → loopGuard c = true →
          Settled m length p → (demuxPacket length c s).outcome ≠ .error e := by
        intro c s p out e h _ hset ho
        have hst := h.stepped
        rw [ho] at hst
        exact hst.1 hset
      obtain ⟨c, s, hr⟩ := (demux_follows m length).returns (walkNext_measure (m := m)) hsafe
        (m.size + 1) (tracks_start m length) (by omega) (by rw [← walk_eq_chain hp]; exact hall)
      refine ⟨⟨c.h264length, 0, c.h264length⟩, s, ?_⟩
      rw [(getH246FromPs_loop hp).1, hr]
  | false => exact ⟨_, _, by rw [(getH246FromPs_noPackets hp).1, if_pos hs]⟩

/-- A call returns exactly when the stuffing byte is inside the block and all its
packets are settled. -/
theorem getH246FromPs_returns_iff : (∃ r s, (getH246FromPs length m).outcome = .ok (r, s)) ↔
    13 < m.size ∧ ∀ p ∈ walk m length, Settled m length p := by
  refine ⟨fun ⟨r, s, hr⟩ => ?_, fun h => getH246FromPs_returns h.1 h.2⟩
  cases hp : hasPackets m length with
  | true =>
      have hs : 13 < m.size := by
        simp [hasPackets] at hp
        exact hp.1
      obtain ⟨hrun, hheads⟩ := getH246FromPs_loop hp
      refine ⟨hs, fun p hpw => ?_⟩
      obtain ⟨h, hh, out, ht⟩ := (forall₂_mem (demuxHeads_walk m length)).2 p hpw
      rw [hrun] at hr
      dsimp only at hr
      split at hr
      · rename_i c t hok
        rw [hheads] at hh
        obtain ⟨f, hf⟩ := heads_ok hok h hh
        exact ht.settled hf
      · cases hr
  | false =>
      rw [walk_eq_nil hp]
      refine ⟨?_, by simp⟩
      by_contra hs
      rw [(getH246FromPs_noPackets hp).1, if_neg hs] at hr
      cases hr

/-- The fuel of the loop is never used up. -/
theorem getH246FromPs_not_exhausted (m : Buffer) (length : Int) :
    (getH246FromPs length m).outcome ≠ .error .exhausted := by
  cases hp : hasPackets m length with
  | true =>
      have hbody : ∀ c s p out, Tracks m length c s p out →
          (demuxPacket length c s).outcome ≠ .error .exhausted := by
        intro c s p out h ho
        have hst := h.stepped
        rw [ho] at hst
        exact absurd hst.2.2 (by decide)
      have hne := (demux_follows m length).not_exhausted (walkNext_measure (m := m)) hbody
        (m.size + 1) (tracks_start m length) (by omega)
      rw [(getH246FromPs_loop hp).1]
      dsimp only
      split
      · simp
      · rename_i e he
        intro hc
        cases hc
        exact hne he
  | false =>
      rw [(getH246FromPs_noPackets hp).1]
      dsimp only
      split <;> simp

end Call

end SimpleSipClient.PsToH264
