import Mathlib.Algebra.GroupWithZero.Nat
import SimpleSipClient.Demux.Format
import SimpleSipClient.Demux.Walk

/-! # Demuxing well-formed frames

The walk over a frame that was built from packets stops at exactly these packets
and collects their payloads. A system header or a stream map between two packets
leaves no trace; any other packet ends the walk where it stands.
-/

namespace SimpleSipClient.PsToH264

open Foundation ProgramStream

/-- The outcome of a call as the caller sees it: the returned values and the bytes
that `*h264Buffer` and `*h264length` delimit. -/
def demuxed (m : Buffer) (length : Int) : Option (DemuxResult × Bytes) :=
  match (getH246FromPs length m).outcome with
  | .ok (r, s) => some (r, s.slice r.h264Buffer r.h264length.toNat)
  | .error _ => none

/-- The buffer starts with `xs`, whose length is an `int`. -/
structure Holds (m : Buffer) (xs : Bytes) : Prop where
  size : xs.length ≤ m.size
  int : xs.length < 2147483648
  reads : m.Reads 0 xs

/-! ## Reading one packet -/

theorem bigEndian16_read {n : Nat} (h : n < 65536) :
    littelEndianSize (UInt8.ofNat (n % 256)) (UInt8.ofNat (n / 256)) = n := by
  unfold littelEndianSize
  simp only [UInt8.toNat_ofNat']
  omega

theorem reads_sized {m : Buffer} {p : Nat} {streamId : UInt8} {body : Bytes}
    (hlt : body.length < 65536) (h : m.Reads p (sized streamId body)) :
    hasStartCode m p streamId = true ∧ declaredLength m p = body.length ∧
      m.Reads (p + 6) body := by
  simp only [sized, bigEndian16, List.cons_append, List.nil_append, Block.reads_cons] at h
  obtain ⟨h0, h1, h2, h3, h4, h5, hbody⟩ := h
  refine ⟨hasStartCode_iff.mpr ⟨h0, h1, h2, h3⟩, ?_, hbody⟩
  rw [declaredLength, h4, h5]
  exact bigEndian16_read hlt

theorem reads_video {m : Buffer} {p : Nat} {v : VideoPes}
    (h : m.Reads p (Packet.video v).bytes) :
    payloadLength m p = v.payload.length ∧
      m.slice (payloadOffset m p) v.payload.length = v.payload := by
  obtain ⟨_, hlen, hbody⟩ := reads_sized (Packet.video v).body_length_lt h
  simp only [Packet.body, VideoPes.bytes] at hbody hlen
  rw [Block.reads_append, v.flags_length, Block.reads_cons, Block.reads_append] at hbody
  obtain ⟨_, hcount, _, hpayload⟩ := hbody
  have hhdr : headerDataLength m p = v.headerData.length := by
    have hfits := v.headerData_fits
    rw [headerDataLength, hcount]
    simp
    omega
  have hbytes := v.bytes_length
  constructor
  · rw [payloadLength, hlen, hhdr]
    change ((v.bytes.length : Nat) : Int) - 3 - _ = _
    omega
  · rw [payloadOffset, hhdr]
    exact hpayload

/-- Nothing is left at the end of the frame, so the loop is over. -/
theorem walkGuard_end {length : Nat} (hint : length < 2147483648) :
    walkGuard length length = false := by
  refine decide_eq_false ?_
  rw [size64_leftAt (by omega) (Int.le_refl _)]
  omega

/-! ## Walking over packets -/

section Frame

variable {m : Buffer} {length : Nat}

/-- A complete packet that the demuxer knows: the walk goes on right behind it. -/
theorem chain_packet (hint : length < 2147483648) (hheld : length ≤ m.size) {k : Packet}
    {p : Nat} (hr : m.Reads p k.bytes) (hend : p + k.bytes.length ≤ length) (fuel : Nat) :
    chain (walkGuard length) (walkNext m length) (fuel + 1) p =
        p :: chain (walkGuard length) (walkNext m length) fuel (p + k.bytes.length) ∧
      payloadAt m length p = k.payload ∧ Settled m length p ∧
      packetEnd m p = p + k.bytes.length := by
  obtain ⟨hcode, hlen, _⟩ := reads_sized k.body_length_lt hr
  have hbytes : k.bytes.length = 6 + k.body.length := sized_length _ _
  have hlt := k.body_length_lt
  have hpe : packetEnd m p = p + k.bytes.length := by
    rw [packetEnd, hlen, hbytes]
    omega
  have hroom (n : Nat) : n ≤ size64 (leftAt length p) ↔ (p : Int) + n ≤ length :=
    size64_leftAt (by omega) (by omega)
  have hguard : walkGuard length p = true := decide_eq_true ((hroom 4).mpr (by omega))
  have hleft : leftAt length (packetEnd m p) = (length : Int) - packetEnd m p :=
    leftAt_eq (by omega) (by omega)
  -- a packet that ends the frame ends the walk, whether or not it has a successor
  have hchain : walkNext m length p = some (packetEnd m p) ∨
      (walkNext m length p = none ∧ p + k.bytes.length = length) →
      chain (walkGuard length) (walkNext m length) (fuel + 1) p =
        p :: chain (walkGuard length) (walkNext m length) fuel (p + k.bytes.length) := by
    rintro (hn | ⟨hn, hlast⟩)
    · rw [chain_next hguard hn, hpe]
    · rw [chain_last hguard hn, hlast, chain_done (walkGuard_end hint)]
  cases k with
  | systemHeader b =>
      have hs : hasStartCode m p 0xBB = true := hcode
      have hv := hasStartCode_unique hs 0xE0 (by decide)
      have h6 : 6 ≤ size64 (length : Int) := by
        rw [size64_of_nonneg (by omega) (by omega)]; omega
      refine ⟨hchain (.inl ?_), payloadAt_eq_nil hv, settled_title hs fun _ => by omega, hpe⟩
      rw [walkNext_title hs, if_pos ⟨h6, by omega⟩]
  | streamMap b =>
      have hm : hasStartCode m p 0xBC = true := hcode
      have hv := hasStartCode_unique hm 0xE0 (by decide)
      have h6 := (hroom 6).mpr (by omega)
      refine ⟨hchain (.inl ?_), payloadAt_eq_nil hv, settled_map hm fun _ => by omega, hpe⟩
      rw [walkNext_map hm, if_pos ⟨h6, by omega⟩]
  | video v =>
      have hv : hasStartCode m p 0xE0 = true := hcode
      obtain ⟨hpay, hslice⟩ := reads_video hr
      have hv9 : 9 ≤ (Packet.video v).bytes.length := by
        rw [hbytes, Packet.body, v.bytes_length]
        omega
      have hreads : pesReads length p = true := decide_eq_true ((hroom 9).mpr (by omega))
      refine ⟨hchain ?_, ?_, settled_video hv fun _ => ⟨by omega, by omega, fun _ => by omega⟩, hpe⟩
      · rw [walkNext_video hv]
        by_cases hlast : p + (Packet.video v).bytes.length = length
        · exact .inr ⟨by rw [if_neg (by omega)], hlast⟩
        · exact .inl (by rw [if_pos ⟨hreads, by omega, by omega, fun _ => by omega, by omega⟩])
      · by_cases hzero : v.payload.length = 0
        · simp [payloadAt, hpay, Packet.payload, List.length_eq_zero_iff.mp hzero]
        · rw [payloadAt, if_pos ⟨hv, hreads, by omega⟩, hpay]
          exact hslice

/-- The walk over a sequence of complete packets collects their payloads and goes
on behind the last one. -/
theorem chain_packets (hint : length < 2147483648) (hheld : length ≤ m.size) {ps : List Packet}
    {p : Nat} (hr : m.Reads p (packetBytes ps)) (hend : p + (packetBytes ps).length ≤ length)
    (fuel : Nat) :
    let rest := chain (walkGuard length) (walkNext m length) fuel (p + (packetBytes ps).length)
    let whole := chain (walkGuard length) (walkNext m length) (ps.length + fuel) p
    whole.flatMap (payloadAt m length) = videoPayload ps ++ rest.flatMap (payloadAt m length) ∧
      ∀ q ∈ whole, q ∈ rest ∨
        (Settled m length q ∧ packetEnd m q ≤ p + (packetBytes ps).length) := by
  induction ps generalizing p with
  | nil => simpa [packetBytes, videoPayload] using fun q hq => Or.inl hq
  | cons k ps ih =>
      rw [packetBytes_cons, Block.reads_append] at hr
      rw [packetBytes_cons, List.length_append] at hend
      obtain ⟨hwalk, hpay, hset, hpe⟩ :=
        chain_packet hint hheld hr.1 (by omega) (ps.length + fuel)
      obtain ⟨ihpay, ihset⟩ := ih hr.2 (by omega)
      rw [Nat.add_assoc] at ihpay ihset
      dsimp only
      rw [List.length_cons, Nat.add_right_comm, hwalk, packetBytes_cons, List.length_append]
      refine ⟨?_, fun q hq => ?_⟩
      · rw [List.flatMap_cons, ihpay, hpay]
        simp
      · rcases List.mem_cons.mp hq with rfl | hq
        · exact .inr ⟨hset, by omega⟩
        · exact ihset q hq

theorem reads_packHeader {h : PackHeader} (hr : m.Reads 0 h.bytes) :
    firstPack m = h.bytes.length := by
  have hlen := h.bytes_length
  have hst := h.stuffing_length
  have hinfo := (Block.reads_append.mp hr).2
  have htail := (Block.reads_append.mp hinfo).2
  rw [h.info_length, Block.reads_cons] at htail
  have h13 : m.cell 13 = h.stuffinglen := htail.1
  rw [firstPack, packStuffing, h13, ← hst, hlen]

/-- A frame that is longer than its pack header needs no test before the loop. -/
theorem walk_eq_chain_of_le (hint : length < 2147483648) (hheld : length ≤ m.size)
    (hfirst : firstPack m ≤ length) : walk m length =
      chain (walkGuard length) (walkNext m length) (m.size + 1) (firstPack m) := by
  cases hp : hasPackets m length with
  | true => exact walk_eq_chain hp
  | false =>
      have h14 : 14 ≤ firstPack m := Nat.le_add_right _ _
      have hleft : leftAt length (firstPack m) = length - firstPack m :=
        leftAt_eq (by omega) (by omega)
      have hlt : ¬ (4 : Int) ≤ leftAt length (firstPack m) := by
        simpa [hasPackets, show 13 < m.size by omega] using hp
      have hroom : walkGuard length (firstPack m) = false := by
        refine decide_eq_false ?_
        rw [size64_leftAt (by omega) (by omega)]
        omega
      rw [walk_eq_nil hp, chain_done hroom]

/-- Nothing behind `q` contributes to the output, and nothing there halts the loop. -/
def Ends (m : Buffer) (length : Int) (q : Nat) : Prop :=
  ∀ fuel, (chain (walkGuard length) (walkNext m length) fuel q).flatMap (payloadAt m length) = [] ∧
    ∀ r ∈ chain (walkGuard length) (walkNext m length) fuel q, Settled m length r

theorem ends_at_length (hint : length < 2147483648) : Ends m length length := fun fuel => by
  simp [chain_done (walkGuard_end hint)]

/-- A start code that the demuxer does not know ends the walk. -/
theorem ends_at_unknown {q : Nat} {streamId : UInt8} (hr : m.Reads q [0x00, 0x00, 0x01, streamId])
    (hlt : q + 3 < m.size) (hv : streamId ≠ 0xE0) (hs : streamId ≠ 0xBB) (hm : streamId ≠ 0xBC) :
    Ends m length q := by
  simp only [Block.reads_cons] at hr
  have hcode : ∀ id : UInt8, streamId ≠ id → hasStartCode m q id = false := fun id hne =>
    hasStartCode_unique (hasStartCode_iff.mpr ⟨hr.1, hr.2.1, hr.2.2.1, hr.2.2.2.1⟩) id hne
  have hset : Settled m length q :=
    ⟨by have := codeSpan_le m q; omega, by simp [hcode _ hv], by simp [hcode _ hs],
      by simp [hcode _ hm]⟩
  intro fuel
  cases fuel with
  | zero => simp [chain]
  | succ fuel =>
      cases hg : walkGuard length q with
      | false => simp [chain_done hg]
      | true =>
          rw [chain_last hg (walkNext_unknown (hcode _ hv) (hcode _ hs) (hcode _ hm))]
          simp [payloadAt_eq_nil (hcode _ hv), hset]

/-- Demuxing packets behind which the walk ends. -/
theorem demuxed_packets {h : PackHeader} {ps : List Packet} {rest : Bytes}
    (hm : Holds m (h.bytes ++ (packetBytes ps ++ rest)))
    (hend : Ends m (h.bytes ++ (packetBytes ps ++ rest)).length
      (h.bytes.length + (packetBytes ps).length)) :
    demuxed m (h.bytes ++ (packetBytes ps ++ rest)).length =
      some (⟨(videoPayload ps).length, 0, (videoPayload ps).length⟩, videoPayload ps) := by
  obtain ⟨hsize, hint, hreads⟩ := hm
  have hlen : (h.bytes ++ (packetBytes ps ++ rest)).length =
      h.bytes.length + ((packetBytes ps).length + rest.length) := by simp
  have h14 := h.bytes_length
  have hps := length_le_packetBytes ps
  have hpay := videoPayload_length_le ps
  rw [Block.reads_append, Block.reads_append, Nat.zero_add] at hreads
  generalize (h.bytes ++ (packetBytes ps ++ rest)).length = length at *
  have hfirst := reads_packHeader hreads.1
  have hwalk := walk_eq_chain_of_le hint hsize (by omega)
  obtain ⟨fuel, hfuel⟩ : ∃ fuel, m.size + 1 = ps.length + fuel := ⟨m.size + 1 - ps.length, by omega⟩
  obtain ⟨hcollect, hsettled⟩ := chain_packets hint hsize hreads.2.1 (by omega) fuel
  rw [hfuel, hfirst] at hwalk
  obtain ⟨hnil, hrest⟩ := hend fuel
  rw [hnil, List.append_nil, ← hwalk] at hcollect
  have hout : payloads m length = videoPayload ps := hcollect
  have hall : ∀ q ∈ walk m length, Settled m length q := fun q hq =>
    (hsettled q (hwalk ▸ hq)).elim (hrest q) And.left
  obtain ⟨r, s, hr⟩ := getH246FromPs_returns (by omega) hall
  obtain ⟨rfl, _, _, hslice⟩ := getH246FromPs_payloads hr
  have h32 : int32 (videoPayload ps).length = (videoPayload ps).length :=
    int32_eq_self (by omega) (by omega)
  rw [hout] at hslice hr
  rw [h32] at hr
  rw [demuxed, hr]
  simpa using hslice

/-- Demuxing a well-formed frame returns its payload. -/
theorem demuxed_complete {f : Frame} (hm : Holds m f.bytes) :
    demuxed m f.bytes.length =
      some (⟨f.payload.length, 0, f.payload.length⟩, f.payload) := by
  have hbytes : f.bytes = f.header.bytes ++ (packetBytes f.packets ++ []) := by simp [Frame.bytes]
  rw [hbytes] at hm ⊢
  refine demuxed_packets hm ?_
  have hlen : (f.header.bytes ++ (packetBytes f.packets ++ [])).length =
      f.header.bytes.length + (packetBytes f.packets).length := by simp
  rw [← hlen]
  exact ends_at_length hm.int

/-- Demuxing a frame with one more packet: a known one is skipped, any other one
ends the parse. -/
theorem demuxed_insertion {h : PackHeader} {pre post : List Packet} {x : NonVideo}
    (hm : Holds m (insertedBytes h pre x post)) :
    let out := if x.known.isSome then videoPayload (pre ++ post) else videoPayload pre
    demuxed m (insertedBytes h pre x post).length = some (⟨out.length, 0, out.length⟩, out) := by
  cases hx : x.known with
  | some k =>
      obtain ⟨hbytes, hpay⟩ := NonVideo.bytes_of_known hx
      have hframe : insertedBytes h pre x post = (Frame.mk h (pre ++ k :: post)).bytes := by
        simp [insertedBytes, Frame.bytes, packetBytes, hbytes]
      have hout : (Frame.mk h (pre ++ k :: post)).payload = videoPayload (pre ++ post) := by
        simp [Frame.payload, videoPayload, hpay]
      rw [hframe] at hm ⊢
      rw [demuxed_complete hm, hout]
      rfl
  | none =>
      obtain ⟨streamId, rest, hbytes, hv, hs, hmap⟩ := NonVideo.bytes_of_unknown hx
      have hr := hm.reads
      have hsize := hm.size
      rw [insertedBytes, hbytes, Block.reads_append, Block.reads_append, List.append_assoc,
        Block.reads_append, Nat.zero_add] at hr
      rw [insertedBytes, hbytes] at hsize
      simp only [List.length_append, List.length_cons, List.length_nil] at hsize
      exact demuxed_packets hm (ends_at_unknown hr.2.2.1 (by omega) hv hs hmap)

end Frame

theorem holds_ofList {xs : Bytes} (h : xs.length < 2147483648) : Holds (Block.ofList xs) xs :=
  ⟨Nat.le_refl _, h, Block.reads_ofList xs⟩

/-! ## Demuxing undoes muxing -/

/-- For every well-formed frame the call returns the sum of the payload lengths, and
the buffer then starts with the payloads in order. -/
theorem getH246FromPs_roundTrip (f : Frame) (m : Buffer) (hm : Holds m f.bytes) :
    ∃ r s, (getH246FromPs f.bytes.length m).outcome = .ok (r, s) ∧
      r.ret = (f.packets.map fun p => p.payload.length).sum ∧ r.h264length = r.ret ∧
      r.h264Buffer = 0 ∧
      s.slice r.h264Buffer r.h264length.toNat = f.packets.flatMap Packet.payload := by
  have hd := demuxed_complete hm
  have hsum : f.payload.length = (f.packets.map fun p => p.payload.length).sum :=
    List.length_flatMap
  unfold demuxed at hd
  split at hd
  · rename_i r s hr
    obtain ⟨rfl, hslice⟩ : r = ⟨f.payload.length, 0, f.payload.length⟩ ∧
        s.slice r.h264Buffer r.h264length.toNat = f.payload := by simpa using hd
    exact ⟨_, s, hr, by rw [← hsum], rfl, rfl, hslice⟩
  · cases hd

/-- Two stuffing bytes. -/
def sampleHeader : PackHeader where
  info := [0x44, 0, 4, 0, 4, 1, 0, 0, 3]
  stuffinglen := 0xFA
  stuffing := [0xFF, 0xFF]
  info_length := rfl
  stuffing_length := rfl

def sampleVideo : Packet :=
  .video ⟨[0x8C, 0x80], [0x21, 0, 1, 0, 1], [0x65, 0x88, 0x84], rfl, by decide, by decide⟩

def sampleFrame : Frame :=
  ⟨sampleHeader, [.systemHeader ⟨[0x80, 0x0C], by decide⟩, .streamMap ⟨[0xE0], by decide⟩,
    .video ⟨[0x80, 0], [], [0x67, 0x42], rfl, by decide, by decide⟩, sampleVideo]⟩

theorem getH246FromPs_roundTrip_sample :
    ∃ r s, (getH246FromPs sampleFrame.bytes.length (Block.ofList sampleFrame.bytes)).outcome =
        .ok (r, s) ∧
      r.ret = (sampleFrame.packets.map fun p => p.payload.length).sum ∧ r.h264length = r.ret ∧
      r.h264Buffer = 0 ∧
      s.slice r.h264Buffer r.h264length.toNat = sampleFrame.packets.flatMap Packet.payload :=
  getH246FromPs_roundTrip sampleFrame _ (holds_ofList (by decide))

/-! ## Packets that are not video -/

/-- Inserting `x` between `pre` and `post` changes neither the returned length nor
the bytes. -/
def Transparent (h : PackHeader) (pre : List Packet) (x : NonVideo) (post : List Packet) : Prop :=
  ∀ m m' : Buffer, Holds m (Frame.mk h (pre ++ post)).bytes →
    Holds m' (insertedBytes h pre x post) →
    demuxed m' (insertedBytes h pre x post).length =
      demuxed m (Frame.mk h (pre ++ post)).bytes.length

def sampleAudio : NonVideo := .foreign 0xC0 (by decide) ⟨[0x80, 0x80, 0x00, 0xD5], by decide⟩

/-- An audio packet in front of a video packet drops the video. -/
theorem audio_not_transparent : ¬ Transparent sampleHeader [] sampleAudio [sampleVideo] := by
  intro h
  have heq := h _ _ (holds_ofList (by decide)) (holds_ofList (by decide))
  revert heq
  decide

/-- A system header or a stream map is transparent. Every other packet that is not
video ends the parse: exactly the video in front of it is returned, so it is
transparent only when no video payload follows. -/
theorem demuxed_insert_nonVideo (h : PackHeader) (pre post : List Packet) (x : NonVideo)
    (m m' : Buffer) (hm : Holds m (Frame.mk h (pre ++ post)).bytes)
    (hm' : Holds m' (insertedBytes h pre x post)) :
    (x.known.isSome = true → demuxed m' (insertedBytes h pre x post).length =
      demuxed m (Frame.mk h (pre ++ post)).bytes.length) ∧
    (x.known.isSome = false →
      demuxed m' (insertedBytes h pre x post).length =
        some (⟨(videoPayload pre).length, 0, (videoPayload pre).length⟩, videoPayload pre) ∧
      (demuxed m' (insertedBytes h pre x post).length =
        demuxed m (Frame.mk h (pre ++ post)).bytes.length ↔ videoPayload post = [])) := by
  have hplain := demuxed_complete hm
  have hins := demuxed_insertion hm'
  rw [show (Frame.mk h (pre ++ post)).payload = videoPayload (pre ++ post) from rfl] at hplain
  constructor
  · intro hx
    rw [hins, hplain]
    simp [hx]
  · intro hx
    simp only [hx, Bool.false_eq_true, if_false] at hins
    refine ⟨hins, ?_⟩
    rw [hins, hplain, videoPayload_append]
    constructor
    · intro heq
      simpa using (Prod.mk.inj (Option.some.inj heq)).2
    · intro hnil
      simp [hnil]

theorem demuxed_insert_nonVideo_sample :
    (sampleAudio.known.isSome = true →
      demuxed (Block.ofList (insertedBytes sampleHeader [sampleVideo] sampleAudio [sampleVideo]))
          (insertedBytes sampleHeader [sampleVideo] sampleAudio [sampleVideo]).length =
        demuxed (Block.ofList (Frame.mk sampleHeader ([sampleVideo] ++ [sampleVideo])).bytes)
          (Frame.mk sampleHeader ([sampleVideo] ++ [sampleVideo])).bytes.length) ∧
    (sampleAudio.known.isSome = false →
      demuxed (Block.ofList (insertedBytes sampleHeader [sampleVideo] sampleAudio [sampleVideo]))
          (insertedBytes sampleHeader [sampleVideo] sampleAudio [sampleVideo]).length =
        some (⟨(videoPayload [sampleVideo]).length, 0, (videoPayload [sampleVideo]).length⟩,
          videoPayload [sampleVideo]) ∧
      (demuxed (Block.ofList (insertedBytes sampleHeader [sampleVideo] sampleAudio [sampleVideo]))
          (insertedBytes sampleHeader [sampleVideo] sampleAudio [sampleVideo]).length =
        demuxed (Block.ofList (Frame.mk sampleHeader ([sampleVideo] ++ [sampleVideo])).bytes)
          (Frame.mk sampleHeader ([sampleVideo] ++ [sampleVideo])).bytes.length ↔
        videoPayload [sampleVideo] = [])) :=
  demuxed_insert_nonVideo sampleHeader [sampleVideo] [sampleVideo] sampleAudio _ _
    (holds_ofList (by decide)) (holds_ofList (by decide))

end SimpleSipClient.PsToH264
