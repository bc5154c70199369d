import Mathlib.Algebra.GroupWithZero.Nat
import Mathlib.Tactic.Common

/-! # Program stream frames

The byte layout of the frames that the camera sends: a pack header with its
stuffing, then packets with a start code and a big-endian length. Every record
carries the bounds that make its length fields exact, so a value of these types
is a well-formed piece of a frame. Nothing here refers to the demuxer.
-/

namespace SimpleSipClient.ProgramStream

abbrev Bytes := List UInt8

def bigEndian16 (n : Nat) : Bytes := [UInt8.ofNat (n / 256), UInt8.ofNat (n % 256)]

/-- `00 00 01 BA`, nine bytes, and a byte whose low three bits count the stuffing. -/
structure PackHeader where
  info : Bytes
  stuffinglen : UInt8
  stuffing : Bytes
  info_length : info.length = 9
  stuffing_length : stuffing.length = (stuffinglen &&& 0x07).toNat

def PackHeader.bytes (h : PackHeader) : Bytes :=
  [0x00, 0x00, 0x01, 0xBA] ++ (h.info ++ h.stuffinglen :: h.stuffing)

/-- What follows the length field of a packet. -/
structure Body where
  bytes : Bytes
  fits : bytes.length < 65536

/-- A packet with stream id, big-endian length and body. -/
def sized (streamId : UInt8) (body : Bytes) : Bytes :=
  [0x00, 0x00, 0x01, streamId] ++ (bigEndian16 body.length ++ body)

/-- A video packet behind its length field: two flag bytes, the header data with
its length, and the payload. -/
structure VideoPes where
  flags : Bytes
  headerData : Bytes
  payload : Bytes
  flags_length : flags.length = 2
  headerData_fits : headerData.length < 256
  fits : 3 + headerData.length + payload.length < 65536

def VideoPes.bytes (v : VideoPes) : Bytes :=
  v.flags ++ (UInt8.ofNat v.headerData.length :: (v.headerData ++ v.payload))

theorem VideoPes.bytes_length (v : VideoPes) :
    v.bytes.length = 3 + v.headerData.length + v.payload.length := by
  simp [VideoPes.bytes, v.flags_length]
  omega

/-- The packets of a frame that follow its pack header. -/
inductive Packet where
  | systemHeader (body : Body)
  | streamMap (body : Body)
  | video (pes : VideoPes)

namespace Packet

def streamId : Packet → UInt8
  | systemHeader _ => 0xBB
  | streamMap _ => 0xBC
  | video _ => 0xE0

def body : Packet → Bytes
  | systemHeader b => b.bytes
  | streamMap b => b.bytes
  | video v => v.bytes

def bytes (p : Packet) : Bytes := sized p.streamId p.body

def payload : Packet → Bytes
  | systemHeader _ => []
  | streamMap _ => []
  | video v => v.payload

theorem body_length_lt (p : Packet) : p.body.length < 65536 := by
  cases p with
  | systemHeader b => exact b.fits
  | streamMap b => exact b.fits
  | video v =>
      have := v.fits
      rw [body, v.bytes_length]
      exact this

theorem payload_length_lt (p : Packet) : p.payload.length < 65536 := by
  cases p with
  | systemHeader b => exact Nat.zero_lt_succ _
  | streamMap b => exact Nat.zero_lt_succ _
  | video v =>
      have := v.fits
      rw [payload]
      omega

end Packet

@[simp] theorem sized_length (streamId : UInt8) (body : Bytes) :
    (sized streamId body).length = 6 + body.length := by
  simp [sized, bigEndian16]
  omega

theorem PackHeader.bytes_length (h : PackHeader) : h.bytes.length = 14 + h.stuffing.length := by
  simp [PackHeader.bytes, h.info_length]
  omega

def packetBytes (ps : List Packet) : Bytes := ps.flatMap Packet.bytes

/-- The H.264 bytes that a sequence of packets carries. -/
def videoPayload (ps : List Packet) : Bytes := ps.flatMap Packet.payload

@[simp] theorem packetBytes_nil : packetBytes [] = [] := rfl

@[simp] theorem packetBytes_cons (p : Packet) (ps : List Packet) :
    packetBytes (p :: ps) = p.bytes ++ packetBytes ps := List.flatMap_cons

@[simp] theorem videoPayload_nil : videoPayload [] = [] := rfl

@[simp] theorem videoPayload_cons (p : Packet) (ps : List Packet) :
    videoPayload (p :: ps) = p.payload ++ videoPayload ps := List.flatMap_cons

theorem videoPayload_append (ps qs : List Packet) :
    videoPayload (ps ++ qs) = videoPayload ps ++ videoPayload qs := by
  simp [videoPayload]

/-- The bytes of a packet in front of its payload. -/
def Packet.headerLength : Packet → Nat
  | systemHeader b => 6 + b.bytes.length
  | streamMap b => 6 + b.bytes.length
  | video v => 9 + v.headerData.length

theorem Packet.bytes_length (p : Packet) : p.bytes.length = p.headerLength + p.payload.length := by
  rw [bytes, sized_length]
  cases p with
  | systemHeader b => rfl
  | streamMap b => rfl
  | video v =>
      rw [body, v.bytes_length, headerLength, payload]
      omega

def headersLength (ps : List Packet) : Nat := (ps.map Packet.headerLength).sum

/-- A sequence of packets is its headers and its payloads. -/
theorem packetBytes_length (ps : List Packet) :
    (packetBytes ps).length = headersLength ps + (videoPayload ps).length := by
  induction ps with
  | nil => rfl
  | cons p ps ih =>
      have hp := p.bytes_length
      simp only [packetBytes_cons, videoPayload_cons, headersLength, List.length_append,
        List.map_cons, List.sum_cons] at ih ⊢
      omega

theorem length_le_packetBytes (ps : List Packet) : ps.length ≤ (packetBytes ps).length := by
  induction ps with
  | nil => simp
  | cons p ps ih =>
      rw [packetBytes_cons, List.length_append, List.length_cons, Packet.bytes, sized_length]
      omega

/-- A well-formed frame. -/
structure Frame where
  header : PackHeader
  packets : List Packet

def Frame.bytes (f : Frame) : Bytes := f.header.bytes ++ packetBytes f.packets

def Frame.payload (f : Frame) : Bytes := videoPayload f.packets

theorem videoPayload_length_le (ps : List Packet) :
    (videoPayload ps).length ≤ (packetBytes ps).length := by
  rw [packetBytes_length]
  exact Nat.le_add_left _ _

/-- Private streams, padding and audio. -/
def isForeign (streamId : UInt8) : Bool :=
  streamId == 0xBD || streamId == 0xBE || streamId == 0xBF ||
    (0xC0 ≤ streamId && streamId ≤ 0xDF)

/-- A legal packet of a frame that is not video. -/
inductive NonVideo where
  | systemHeader (body : Body)
  | streamMap (body : Body)
  | foreign (streamId : UInt8) (allowed : isForeign streamId = true) (body : Body)
  | packHeader (header : PackHeader)

namespace NonVideo

def bytes : NonVideo → Bytes
  | systemHeader b => sized 0xBB b.bytes
  | streamMap b => sized 0xBC b.bytes
  | foreign streamId _ b => sized streamId b.bytes
  | packHeader h => h.bytes

/-- A system header or a stream map, as a packet of a frame. -/
def known : NonVideo → Option Packet
  | systemHeader b => some (.systemHeader b)
  | streamMap b => some (.streamMap b)
  | foreign _ _ _ => none
  | packHeader _ => none

theorem bytes_of_known {x : NonVideo} {k : Packet} (h : x.known = some k) :
    x.bytes = k.bytes ∧ k.payload = [] := by
  cases x <;> simp only [known, Option.some.injEq, reduceCtorEq] at h
  all_goals subst h; exact ⟨rfl, rfl⟩

/-- Any other packet starts with a stream id that is none of the three. -/
theorem bytes_of_unknown {x : NonVideo} (h : x.known = none) :
    ∃ (streamId : UInt8) (rest : Bytes), x.bytes = [0x00, 0x00, 0x01, streamId] ++ rest ∧
      streamId ≠ 0xE0 ∧ streamId ≠ 0xBB ∧ streamId ≠ 0xBC := by
  cases x with
  | systemHeader b => simp [known] at h
  | streamMap b => simp [known] at h
  | foreign streamId allowed b =>
      refine ⟨streamId, _, rfl, ?_, ?_, ?_⟩ <;> rintro rfl <;> exact absurd allowed (by decide)
  | packHeader p => exact ⟨0xBA, _, rfl, by decide, by decide, by decide⟩

end NonVideo

/-- The bytes of a frame with one packet inserted between `pre` and `post`. -/
def insertedBytes (h : PackHeader) (pre : List Packet) (x : NonVideo) (post : List Packet) :
    Bytes :=
  h.bytes ++ (packetBytes pre ++ (x.bytes ++ packetBytes post))

end SimpleSipClient.ProgramStream
