import SimpleSipClient.Demux.Bounds
import SimpleSipClient.Demux.RoundTrip

/-! # Copies that overlap

`memcpy` must not be given two ranges that share a byte. In a well-formed frame the
distance between the two pointers is the size of all headers up to the payload, so
the copies of a call are within the contract exactly when no payload is longer than
that.
-/

namespace SimpleSipClient.PsToH264

open Foundation ProgramStream

/-! ## The packets of a frame on the walk -/

/-- Packets from offset `p` on, each with its offset and the payload in front of it. -/
def placed (p : Nat) (out : Bytes) : List Packet → List (Packet × Nat × Bytes)
  | [] => []
  | k :: ps => (k, p, out) :: placed (p + k.bytes.length) (out ++ k.payload) ps

theorem mem_placed {p q : Nat} {out o : Bytes} {ps : List Packet} {k : Packet} :
    (k, q, o) ∈ placed p out ps ↔ ∃ pre post, ps = pre ++ k :: post ∧
      q = p + (packetBytes pre).length ∧ o = out ++ videoPayload pre := by
  induction ps generalizing p out with
  | nil => simp [placed]
  | cons j ps ih =>
      rw [placed, List.mem_cons, ih]
      constructor
      · rintro (h | ⟨pre, post, rfl, rfl, rfl⟩)
        · cases h
          exact ⟨[], ps, rfl, rfl, by simp⟩
        · exact ⟨j :: pre, post, rfl, by simp [Nat.add_assoc], by simp⟩
      · rintro ⟨pre, post, hps, rfl, rfl⟩
        cases pre with
        | nil =>
            cases hps
            exact .inl (by simp)
        | cons i pre =>
            obtain ⟨rfl, rfl⟩ := List.cons.inj hps
            exact .inr ⟨pre, post, rfl, by simp [Nat.add_assoc], by simp⟩

section Frame

variable {m : Buffer} {length : Nat}

/-- The walk over the packets at the end of a frame. -/
theorem producedBefore_packets (hint : length < 2147483648) (hheld : length ≤ m.size)
    {ps : List Packet} {p : Nat} {out : Bytes} (hr : m.Reads p (packetBytes ps))
    (hend : p + (packetBytes ps).length = length) (fuel : Nat) :
    producedBefore (payloadAt m length) out
        (chain (walkGuard length) (walkNext m length) (ps.length + fuel) p) =
      (placed p out ps).map Prod.snd := by
  induction ps generalizing p out with
  | nil =>
      rw [show p = length by simpa [packetBytes] using hend, chain_done (walkGuard_end hint)]
      rfl
  | cons k ps ih =>
      rw [packetBytes_cons, Block.reads_append] at hr
      rw [packetBytes_cons, List.length_append] at hend
      obtain ⟨hwalk, hpay, _, _⟩ := chain_packet hint hheld hr.1 (by omega) (ps.length + fuel)
      rw [List.length_cons, Nat.add_right_comm, hwalk, producedBefore, hpay, placed, List.map_cons,
        ih hr.2 (by omega)]

theorem producedBefore_frame {f : Frame} (hm : Holds m f.bytes) :
    producedBefore (payloadAt m f.bytes.length) [] (walk m f.bytes.length) =
      (placed f.header.bytes.length [] f.packets).map Prod.snd := by
  have hlen : f.bytes.length = f.header.bytes.length + (packetBytes f.packets).length :=
    List.length_append
  have hps := length_le_packetBytes f.packets
  have hsize := hm.size
  obtain ⟨hhead, hpackets⟩ := Block.reads_append.mp hm.reads
  rw [Nat.zero_add] at hpackets
  have hfirst := reads_packHeader hhead
  rw [walk_eq_chain_of_le hm.int hsize (by omega), hfirst,
    show m.size + 1 = f.packets.length + (m.size + 1 - f.packets.length) by omega]
  exact producedBefore_packets hm.int hsize hpackets hlen.symm _

/-- A packet with a payload is copied, from behind its header. -/
theorem copies_packet (hint : length < 2147483648) (hheld : length ≤ m.size) {k : Packet} {p : Nat}
    (hr : m.Reads p k.bytes) (hend : p + k.bytes.length ≤ length) :
    (copies m length p ↔ k.payload ≠ []) ∧ (k.payload ≠ [] →
      payloadSource m p = some (p + k.headerLength) ∧ payloadLength m p = k.payload.length) := by
  obtain ⟨hcode, -, -⟩ := reads_sized k.body_length_lt hr
  cases k with
  | systemHeader b =>
      have hs : hasStartCode m p 0xBB = true := hcode
      have hv := hasStartCode_unique hs 0xE0 (by decide)
      simp [copies, hv, Packet.payload]
  | streamMap b =>
      have hs : hasStartCode m p 0xBC = true := hcode
      have hv := hasStartCode_unique hs 0xE0 (by decide)
      simp [copies, hv, Packet.payload]
  | video v =>
      have hv : hasStartCode m p 0xE0 = true := hcode
      have hlen := (Packet.video v).bytes_length
      have hpay := (reads_video hr).1
      have hpe := (chain_packet hint hheld hr hend 0).2.2.2
      have hsum := payload_end (m := m) (p := p) (by omega)
      simp only [Packet.headerLength, Packet.payload] at hlen ⊢
      have hreads : pesReads length p = true :=
        decide_eq_true ((size64_leftAt (by omega) (by omega)).mpr (by omega))
      refine ⟨?_, fun hne => ?_⟩
      · rw [copies, hpay]
        simp only [hv, hreads, true_and]
        constructor
        · rintro ⟨-, hne⟩ hnil
          exact hne (by simp [hnil])
        · intro hne
          have := List.length_pos_iff.mpr hne
          exact ⟨by omega, by omega⟩
      · have := List.length_pos_iff.mpr hne
        refine ⟨?_, hpay⟩
        rw [payloadSource, if_pos (by omega)]
        congr 1
        omega

/-- A packet of a frame is found where the bytes in front of it end. -/
theorem packet_reads {f : Frame} (hm : Holds m f.bytes) {pre post : List Packet} {k : Packet}
    (hps : f.packets = pre ++ k :: post) :
    let p := f.header.bytes.length + (packetBytes pre).length
    m.Reads p k.bytes ∧ p + k.bytes.length ≤ f.bytes.length := by
  have hbytes : f.bytes = f.header.bytes ++ (packetBytes pre ++ (k.bytes ++ packetBytes post)) := by
    simp [Frame.bytes, hps, packetBytes]
  have hr := hm.reads
  rw [hbytes, Block.reads_append, Block.reads_append, Block.reads_append, Nat.zero_add] at hr
  refine ⟨hr.2.2.1, ?_⟩
  rw [hbytes]
  simp only [List.length_append]
  omega

/-- The copies of a call on a well-formed frame: one for each payload. -/
theorem memcpy_mem_frame {f : Frame} (hm : Holds m f.bytes) {dest : Nat} {src : Option Nat}
    {n : Int} : .memcpy dest src n ∈ (getH246FromPs f.bytes.length m).events ↔
      ∃ pre k post, f.packets = pre ++ k :: post ∧ k.payload ≠ [] ∧
        dest = (videoPayload pre).length ∧
        src = some (f.header.bytes.length + (packetBytes pre).length + k.headerLength) ∧
        n = k.payload.length := by
  have hheads := forall₂_mem (demuxHeads_produced m f.bytes.length)
  rw [producedBefore_frame hm] at hheads
  rw [mem_getH246FromPs_events]
  constructor
  · rintro (h | ⟨h, hh, he⟩)
    · cases h
    obtain ⟨q, hq, ht⟩ := hheads.1 h hh
    obtain ⟨⟨k, p, o⟩, hplaced, rfl⟩ := List.mem_map.mp hq
    obtain ⟨pre, post, hps, rfl, rfl⟩ := mem_placed.mp hplaced
    obtain ⟨hr, hend⟩ := packet_reads hm hps
    obtain ⟨hcopied, hvalues⟩ := copies_packet hm.int hm.size hr hend
    obtain ⟨hc, rfl, rfl, rfl⟩ := ht.memcpy_mem.mp he
    have hne := hcopied.mp hc
    exact ⟨pre, k, post, hps, hne, rfl, hvalues hne⟩
  · rintro ⟨pre, k, post, hps, hne, rfl, rfl, rfl⟩
    obtain ⟨hr, hend⟩ := packet_reads hm hps
    obtain ⟨hcopied, hvalues⟩ := copies_packet hm.int hm.size hr hend
    obtain ⟨hsrc, hn⟩ := hvalues hne
    have hplaced : (k, f.header.bytes.length + (packetBytes pre).length, videoPayload pre) ∈
        placed f.header.bytes.length [] f.packets := mem_placed.mpr ⟨pre, post, hps, rfl, rfl⟩
    obtain ⟨h, hh, ht⟩ := hheads.2 _ (List.mem_map_of_mem hplaced)
    exact .inr ⟨h, hh, ht.memcpy_mem.mpr ⟨hcopied.mpr hne, rfl, hsrc.symm, hn.symm⟩⟩

end Frame

/-! ## The contract of `memcpy` -/

/-- Two ranges of the buffer, of the length that `memcpy` converts the count to, with
no byte in common. -/
def Access.Allowed (b : Buffer) : Access → Prop
  | .inspect _ => True
  | .memcpy dest src count => ∃ s, src = some s ∧ dest + size64 count ≤ b.size ∧
      s + size64 count ≤ b.size ∧ Block.Apart dest s (size64 count)

def CopiesAllowed (m : Buffer) (length : Int) : Prop :=
  ∀ a ∈ (getH246FromPs length m).events, a.Allowed m

/-- No payload is longer than the headers up to it, those of the pack and of its own
packet included. -/
def Spaced (f : Frame) : Prop :=
  ∀ pre k post, f.packets = pre ++ k :: post →
    k.payload.length ≤ f.header.bytes.length + headersLength (pre ++ [k])

/-- How far a payload is from the place that it is copied to. -/
theorem payload_distance (f : Frame) (pre : List Packet) (k : Packet) :
    f.header.bytes.length + (packetBytes pre).length + k.headerLength =
      (videoPayload pre).length + (f.header.bytes.length + headersLength (pre ++ [k])) := by
  simp only [packetBytes_length, headersLength, List.map_append, List.sum_append, List.map_cons,
    List.map_nil, List.sum_cons, List.sum_nil]
  omega

theorem size64_payload (k : Packet) : size64 k.payload.length = k.payload.length := by
  have hlt := k.payload_length_lt
  rw [size64_of_nonneg (by omega) (by omega), Int.toNat_natCast]

/-- The copies of a call on a well-formed frame are within the contract exactly when
the headers keep source and destination apart. -/
theorem copiesAllowed_iff (f : Frame) (m : Buffer) (hm : Holds m f.bytes) :
    CopiesAllowed m f.bytes.length ↔ Spaced f := by
  constructor
  · intro hall pre k post hps
    by_cases hne : k.payload = []
    · simp [hne]
    rcases hall _ ((memcpy_mem_frame hm).mpr ⟨pre, k, post, hps, hne, rfl, rfl, rfl⟩) with
      ⟨s, hs, -, -, hapart⟩
    cases hs
    have := List.length_pos_iff.mpr hne
    rw [size64_payload, payload_distance, Block.apart_iff] at hapart
    omega
  · intro hspaced a ha
    cases a with
    | inspect o => trivial
    | memcpy dest src n =>
        obtain ⟨pre, k, post, hps, hne, rfl, rfl, rfl⟩ := (memcpy_mem_frame hm).mp ha
        have hend := (packet_reads hm hps).2
        have hsize := hm.size
        have hlen := k.bytes_length
        have hle := videoPayload_length_le pre
        refine ⟨_, rfl, ?_, ?_, ?_⟩
        · rw [size64_payload]
          omega
        · rw [size64_payload]
          omega
        · have := hspaced pre k post hps
          rw [size64_payload, payload_distance, Block.apart_iff]
          omega

theorem copiesAllowed_sample :
    CopiesAllowed (Block.ofList sampleFrame.bytes) sampleFrame.bytes.length ↔ Spaced sampleFrame :=
  copiesAllowed_iff sampleFrame _ (holds_ofList (by decide))

/-- A pack header without stuffing and one packet of 24 payload bytes, which start at
offset 23. -/
def closePayload : Frame where
  header := ⟨[0x44, 0, 8, 0, 4, 1, 0, 0, 3], 0xF8, [], rfl, rfl⟩
  packets := [.video ⟨[0x84, 0], [], 0x65 :: List.replicate 23 0x88, rfl,
    Nat.zero_lt_succ _, by decide⟩]

/-- The copy to offset 0 ends behind the first byte of its source. -/
theorem closePayload_overlaps : Holds (Block.ofList closePayload.bytes) closePayload.bytes ∧
    ¬ CopiesAllowed (Block.ofList closePayload.bytes) closePayload.bytes.length := by
  refine ⟨holds_ofList (by decide), fun hall => ?_⟩
  have hcopy : .memcpy 0 (some 23) 24 ∈
      (getH246FromPs closePayload.bytes.length (Block.ofList closePayload.bytes)).events := by
    decide
  obtain ⟨s, hs, -, -, hapart⟩ := hall _ hcopy
  cases hs
  exact hapart 23 (by decide) (by decide) (by decide)

end SimpleSipClient.PsToH264
