import SimpleSipClient.Demux.Bounds
import SimpleSipClient.Demux.RoundTrip

/-! # What the demuxer accepts

A complete packet of the walk can be read back as a packet of a frame, and so can
the pack header. Accepted output therefore is the payload of a well-formed prefix
as long as the packets that contribute to it end within the frame. The start code
of the pack header is a different matter: nothing compares it.
-/

namespace SimpleSipClient.PsToH264

open Foundation ProgramStream

/-! ## Reading a frame back -/

theorem bigEndian16_declared (m : Buffer) (p : Nat) :
    bigEndian16 (declaredLength m p) = [m.cell (p + 4), m.cell (p + 5)] := by
  have h4 := (m.cell (p + 4)).toNat_lt
  have h5 := (m.cell (p + 5)).toNat_lt
  have hdiv : declaredLength m p / 256 = (m.cell (p + 4)).toNat := by
    unfold declaredLength littelEndianSize
    omega
  have hmod : declaredLength m p % 256 = (m.cell (p + 5)).toNat := by
    unfold declaredLength littelEndianSize
    omega
  rw [bigEndian16, hdiv, hmod, UInt8.ofNat_toNat, UInt8.ofNat_toNat]

/-- Start code, declared length and body make a packet. -/
theorem sized_reads {m : Buffer} {p : Nat} {streamId : UInt8} {body : Bytes}
    (hcode : hasStartCode m p streamId = true) (hlen : body.length = declaredLength m p)
    (hbody : m.Reads (p + 6) body) : m.Reads p (sized streamId body) := by
  obtain ⟨h0, h1, h2, h3⟩ := hasStartCode_iff.mp hcode
  simp only [sized, hlen, bigEndian16_declared, List.cons_append, List.nil_append,
    Block.reads_cons, true_and]
  exact ⟨h0, h1, h2, h3, hbody⟩

def bodyAt (m : Buffer) (p : Nat) : Body where
  bytes := m.slice (p + 6) (declaredLength m p)
  fits := by simpa using declaredLength_lt m p

def videoAt (m : Buffer) (p : Nat) (h : 0 ≤ payloadLength m p) : VideoPes where
  flags := m.slice (p + 6) 2
  headerData := m.slice (p + 9) (headerDataLength m p)
  payload := m.slice (payloadOffset m p) (payloadLength m p).toNat
  flags_length := m.slice_length _ _
  headerData_fits := by simpa using headerDataLength_lt m p
  fits := by
    have hlt := declaredLength_lt m p
    unfold payloadLength at h ⊢
    simp only [Block.slice_length]
    omega

def packHeaderAt (m : Buffer) : PackHeader where
  info := m.slice 4 9
  stuffinglen := m.cell 13
  stuffing := m.slice 14 (packStuffing m)
  info_length := m.slice_length _ _
  stuffing_length := m.slice_length _ _

theorem videoAt_bytes_length {m : Buffer} {p : Nat} (h : 0 ≤ payloadLength m p) :
    (videoAt m p h).bytes.length = declaredLength m p := by
  rw [VideoPes.bytes_length]
  unfold videoAt
  simp only [Block.slice_length]
  unfold payloadLength at h ⊢
  omega

theorem videoAt_reads {m : Buffer} {p : Nat} (h : 0 ≤ payloadLength m p) :
    m.Reads (p + 6) (videoAt m p h).bytes := by
  have hcount : UInt8.ofNat (headerDataLength m p) = m.cell (p + 8) := UInt8.ofNat_toNat
  unfold VideoPes.bytes videoAt
  simp only [Block.reads_append, Block.reads_cons, Block.slice_length, hcount, true_and]
  exact ⟨m.reads_slice _ _, m.reads_slice _ _, m.reads_slice _ _⟩

theorem packHeaderAt_reads {m : Buffer} (h : hasStartCode m 0 0xBA = true) :
    m.Reads 0 (packHeaderAt m).bytes := by
  obtain ⟨h0, h1, h2, h3⟩ := hasStartCode_iff.mp h
  unfold PackHeader.bytes packHeaderAt
  simp only [List.cons_append, List.nil_append, Block.reads_append, Block.reads_cons,
    Block.slice_length, true_and]
  exact ⟨h0, h1, h2, h3, m.reads_slice _ _, m.reads_slice _ _⟩

/-! ## Complete packets of the walk -/

section Prefix

variable {m : Buffer} {length : Int}

/-- A packet of one of the three kinds that ends within the frame. -/
structure Complete (m : Buffer) (length : Int) (p : Nat) : Prop where
  known : hasStartCode m p 0xE0 = true ∨ hasStartCode m p 0xBB = true ∨
    hasStartCode m p 0xBC = true
  video : hasStartCode m p 0xE0 = true → 0 ≤ payloadLength m p
  inside : packetEnd m p ≤ length

theorem payloadAt_ne_nil {p : Nat} : payloadAt m length p ≠ [] ↔
    hasStartCode m p 0xE0 = true ∧ pesReads length p = true ∧ 0 < payloadLength m p := by
  unfold payloadAt
  split
  · rename_i h
    refine iff_of_true (fun hnil => ?_) h
    have hlen := congrArg List.length hnil
    rw [Block.slice_length, List.length_nil] at hlen
    omega
  · rename_i h
    exact iff_of_false (fun hne => hne rfl) h

theorem Complete.packet (hint : length < 2147483648) {p : Nat} (h : Complete m length p) :
    ∃ k : Packet, m.Reads p k.bytes ∧ p + k.bytes.length = packetEnd m p ∧
      payloadAt m length p = k.payload := by
  have hbody : m.Reads (p + 6) (bodyAt m p).bytes := m.reads_slice _ _
  have hlen : (bodyAt m p).bytes.length = declaredLength m p := m.slice_length _ _
  have hinside := h.inside
  by_cases hv : hasStartCode m p 0xE0 = true
  · have h0 := h.video hv
    have hvlen := videoAt_bytes_length h0
    refine ⟨.video (videoAt m p h0), sized_reads hv hvlen (videoAt_reads h0), ?_, ?_⟩
    · rw [Packet.bytes, sized_length, Packet.body, hvlen, packetEnd]
      omega
    · have h9 : pesReads length p = true := by
        have hend := payload_end h0
        have hoff := le_payloadOffset m p
        exact decide_eq_true ((size64_leftAt hint (by omega)).mpr (by omega))
      by_cases hpos : 0 < payloadLength m p
      · rw [payloadAt, if_pos ⟨hv, h9, hpos⟩]
        rfl
      · have hzero : payloadLength m p = 0 := by omega
        rw [payloadAt, if_neg (fun hc => hpos hc.2.2), Packet.payload, videoAt]
        simp [hzero]
  · have hend : p + (6 + (bodyAt m p).bytes.length) = packetEnd m p := by
      rw [hlen, packetEnd]
      omega
    have hpay : payloadAt m length p = [] := payloadAt_eq_nil (Bool.eq_false_iff.mpr hv)
    rcases h.known with hv' | hs | hm
    · exact absurd hv' hv
    · exact ⟨.systemHeader (bodyAt m p), sized_reads hs hlen hbody,
        by rw [Packet.bytes, sized_length]; exact hend, hpay⟩
    · exact ⟨.streamMap (bodyAt m p), sized_reads hm hlen hbody,
        by rw [Packet.bytes, sized_length]; exact hend, hpay⟩

theorem walkNext_known {p q : Nat} (hn : walkNext m length p = some q)
    (hinside : packetEnd m p ≤ length) : Complete m length p := by
  unfold walkNext at hn
  split_ifs at hn with hv hc hs hc hm hc
  · exact ⟨.inl hv, fun _ => hc.2.2.1, hinside⟩
  · exact ⟨.inr (.inl hs), fun hv' => absurd hv' hv, hinside⟩
  · exact ⟨.inr (.inr hm), fun hv' => absurd hv' hv, hinside⟩

/-- The walk never moves back. -/
theorem chain_from_le {fuel p : Nat} :
    ∀ q ∈ chain (walkGuard length) (walkNext m length) fuel p, p ≤ q := by
  refine chain_invariant (fun q r _ hq hn _ => ?_) fun _ => Nat.le_refl p
  have hr := walkNext_eq hn
  have hend := le_packetEnd m q
  omega

/-- From an incomplete packet on nothing contributes to the output. -/
theorem payloadAt_incomplete {fuel p : Nat} (hp : ¬ Complete m length p)
    (hin : ∀ q ∈ chain (walkGuard length) (walkNext m length) fuel p,
      payloadAt m length q ≠ [] → packetEnd m q ≤ length) :
    ∀ q ∈ chain (walkGuard length) (walkNext m length) fuel p, payloadAt m length q = [] := by
  cases fuel with
  | zero => simp [chain]
  | succ fuel =>
      cases hg : walkGuard length p with
      | false => simp [chain_done hg]
      | true =>
          have hself : p ∈ chain (walkGuard length) (walkNext m length) (fuel + 1) p := by
            simp [chain, hg]
          have hfirst : payloadAt m length p = [] := by
            by_contra hne
            obtain ⟨hv, _, hpos⟩ := payloadAt_ne_nil.mp hne
            exact hp ⟨.inl hv, fun _ => Int.le_of_lt hpos, hin p hself hne⟩
          cases hn : walkNext m length p with
          | none => simpa [chain_last hg hn] using hfirst
          | some r =>
              rw [chain_next hg hn] at hin ⊢
              intro q hq
              rcases List.mem_cons.mp hq with rfl | hq
              · exact hfirst
              by_contra hne
              -- the declared length of the incomplete packet goes beyond the frame
              have hover := mt (walkNext_known hn) hp
              have hr := walkNext_eq hn
              have hrq := chain_from_le q hq
              have hend := hin q (List.mem_cons_of_mem _ hq) hne
              have hqe := le_packetEnd m q
              omega

/-- `out` is the payload of packets that the buffer holds from `p` on, all of them
within the frame. -/
def Carried (m : Buffer) (length : Int) (p : Nat) (out : Bytes) : Prop :=
  ∃ ps : List Packet, m.Reads p (packetBytes ps) ∧ (p + (packetBytes ps).length : Int) ≤ length ∧
    out = videoPayload ps

theorem carried_nil {p : Nat} (hp : p ≤ length) : Carried m length p [] :=
  ⟨[], m.reads_nil p, by simpa [packetBytes] using hp, rfl⟩

theorem Carried.cons {p : Nat} {k : Packet} {out : Bytes} (hk : m.Reads p k.bytes)
    (h : Carried m length (p + k.bytes.length) out) : Carried m length p (k.payload ++ out) := by
  obtain ⟨ps, hr, hle, rfl⟩ := h
  refine ⟨k :: ps, ?_, ?_, (videoPayload_cons k ps).symm⟩
  · rw [packetBytes_cons, Block.reads_append]
    exact ⟨hk, hr⟩
  · rw [packetBytes_cons, List.length_append]
    push_cast at hle ⊢
    omega

/-- If the packets that contribute to the output end within the frame, the output is
the payload of the complete packets that the walk starts with. -/
theorem chain_carried (hint : length < 2147483648) {fuel p : Nat} (hp : p ≤ length)
    (hin : ∀ q ∈ chain (walkGuard length) (walkNext m length) fuel p,
      payloadAt m length q ≠ [] → packetEnd m q ≤ length) :
    Carried m length p ((chain (walkGuard length) (walkNext m length) fuel p).flatMap
      (payloadAt m length)) := by
  induction fuel generalizing p with
  | zero => exact carried_nil hp
  | succ fuel ih =>
      by_cases hc : Complete m length p
      · cases hg : walkGuard length p with
        | false =>
            rw [chain_done hg]
            exact carried_nil hp
        | true =>
            obtain ⟨k, hk, hend, hpay⟩ := hc.packet hint
            have hinside := hc.inside
            cases hn : walkNext m length p with
            | none =>
                rw [chain_last hg hn, List.flatMap_cons, hpay]
                exact Carried.cons hk (carried_nil (by omega))
            | some q =>
                have hq := walkNext_eq hn
                rw [chain_next hg hn] at hin ⊢
                rw [List.flatMap_cons, hpay]
                refine Carried.cons hk ?_
                rw [show p + k.bytes.length = q by omega]
                exact ih (by omega) fun r hr => hin r (List.mem_cons_of_mem _ hr)
      · rw [List.flatMap_eq_nil_iff.mpr (payloadAt_incomplete hc hin)]
        exact carried_nil hp

theorem payloads_eq_nil : payloads m length = [] ↔
    ∀ p ∈ walk m length, payloadAt m length p = [] := List.flatMap_eq_nil_iff

/-- If the payload of a well-formed prefix is the whole output, everything that
contributes to it is in this prefix. -/
theorem contributes_inside {n : Nat} (hint : n < 2147483648) (hheld : n ≤ m.size) {f : Frame}
    (hr : m.Reads 0 f.bytes) (hle : f.bytes.length ≤ n) (hout : payloads m n = f.payload) :
    ∀ p ∈ walk m n, payloadAt m n p ≠ [] → packetEnd m p ≤ n := by
  have hbytes : f.bytes.length = f.header.bytes.length + (packetBytes f.packets).length := by
    simp [Frame.bytes]
  have hps := length_le_packetBytes f.packets
  rw [Frame.bytes, Block.reads_append, Nat.zero_add] at hr
  have hfirst := reads_packHeader hr.1
  have hwalk := walk_eq_chain_of_le hint hheld (by omega)
  obtain ⟨fuel, hfuel⟩ : ∃ fuel, m.size + 1 = f.packets.length + fuel :=
    ⟨m.size + 1 - f.packets.length, by omega⟩
  obtain ⟨hcollect, hmem⟩ := chain_packets hint hheld hr.2 (by omega) fuel
  rw [← hfirst, ← hfuel, ← hwalk] at hcollect hmem
  rw [payloads, hcollect, Frame.payload, List.append_right_eq_self] at hout
  intro p hp hne
  rcases hmem p hp with hrest | ⟨_, hend⟩
  · exact absurd (List.flatMap_eq_nil_iff.mp hout p hrest) hne
  · omega

end Prefix

/-! ## Soundness of a call -/

/-- Accepted output is the payload of a well-formed prefix of the frame, and a buffer
that does not start with a pack header yields nothing. -/
structure Sound (i : PsInput) : Prop where
  accepted : ∀ r s, (getH246FromPs i.length i.block).outcome = .ok (r, s) → 0 < r.ret →
    hasStartCode i.block 0 0xBA = true ∧ ∃ f : Frame, f.bytes.length ≤ i.length ∧
      i.block.Reads 0 f.bytes ∧ s.slice r.h264Buffer r.ret.toNat = f.payload
  rejected : hasStartCode i.block 0 0xBA = false →
    ∃ r s, (getH246FromPs i.length i.block).outcome = .ok (r, s) ∧ r.ret = 0

/-- Behind a pack header every packet that contributes to the output ends within the
frame, and without one there is none, nor a packet on which the call halts. -/
structure SoundInput (i : PsInput) : Prop where
  headed : hasStartCode i.block 0 0xBA = true →
    (13 < i.block.size ∧ ∀ p ∈ walk i.block i.length, Settled i.block i.length p) →
    ∀ p ∈ walk i.block i.length, payloadAt i.block i.length p ≠ [] →
      packetEnd i.block p ≤ i.length
  headless : hasStartCode i.block 0 0xBA = false →
    (13 < i.block.size ∧ ∀ p ∈ walk i.block i.length, Settled i.block i.length p) ∧
    ∀ p ∈ walk i.block i.length, payloadAt i.block i.length p = []

section Sound

variable {i : PsInput}

/-- Behind a pack header, output that comes from within the frame is the payload of
the frame's well-formed prefix. -/
theorem frame_of_payloads (hba : hasStartCode i.block 0 0xBA = true)
    (hne : payloads i.block i.length ≠ [])
    (hin : ∀ p ∈ walk i.block i.length, payloadAt i.block i.length p ≠ [] →
      packetEnd i.block p ≤ i.length) :
    ∃ f : Frame, f.bytes.length ≤ i.length ∧ i.block.Reads 0 f.bytes ∧
      payloads i.block i.length = f.payload := by
  have hint := i.int.2
  obtain ⟨p, hp, hpne⟩ : ∃ p ∈ walk i.block i.length, payloadAt i.block i.length p ≠ [] := by
    by_contra hall
    refine hne (payloads_eq_nil.mpr fun p hp => ?_)
    by_contra hpne
    exact hall ⟨p, hp, hpne⟩
  have hend := hin p hp hpne
  have hpe := le_packetEnd i.block p
  have hpacks : hasPackets i.block i.length = true := by
    by_contra hno
    rw [walk_eq_nil (Bool.eq_false_iff.mpr hno)] at hp
    simp at hp
  rw [payloads, walk_eq_chain hpacks]
  rw [walk_eq_chain hpacks] at hp hin
  have hfirst := chain_from_le p hp
  obtain ⟨ps, hreads, hle, hout⟩ := chain_carried hint
    (show (firstPack i.block : Int) ≤ i.length by omega) hin
  have hlen : (packHeaderAt i.block).bytes.length = firstPack i.block := by
    rw [PackHeader.bytes_length, firstPack, packHeaderAt, Block.slice_length]
  refine ⟨⟨packHeaderAt i.block, ps⟩, ?_, ?_, hout⟩
  · simp only [Frame.bytes, List.length_append]
    push_cast
    omega
  · rw [Frame.bytes, Block.reads_append, Nat.zero_add, hlen]
    exact ⟨packHeaderAt_reads hba, hreads⟩

theorem sound_of_input (h : SoundInput i) : Sound i := by
  have hint := i.int.2
  refine ⟨fun r s hr hret => ?_, fun hba => ?_⟩
  · obtain ⟨rfl, _, _, hslice⟩ := getH246FromPs_payloads hr
    have hne : payloads i.block i.length ≠ [] := by
      intro hnil
      rw [hnil] at hret
      exact absurd hret (by decide)
    have hba : hasStartCode i.block 0 0xBA = true := by
      by_contra hba
      exact hne (payloads_eq_nil.mpr (h.headless (Bool.eq_false_iff.mpr hba)).2)
    obtain ⟨f, hle, hreads, hout⟩ := frame_of_payloads hba hne
      (h.headed hba (getH246FromPs_returns_iff.mp ⟨_, s, hr⟩))
    refine ⟨hba, f, hle, hreads, ?_⟩
    have hpay : f.payload.length ≤ f.bytes.length := by
      have hps := videoPayload_length_le f.packets
      simp only [Frame.payload, Frame.bytes, List.length_append]
      omega
    rw [hout] at hslice ⊢
    rw [int32_eq_self (by omega) (by omega)]
    exact hslice
  · obtain ⟨hsettled, hnone⟩ := h.headless hba
    obtain ⟨r, s, hr⟩ := getH246FromPs_returns_iff.mpr hsettled
    refine ⟨r, s, hr, ?_⟩
    obtain ⟨rfl, _⟩ := getH246FromPs_payloads hr
    rw [payloads_eq_nil.mpr hnone]
    rfl

theorem input_of_sound (hsize : i.block.size < 2147483648) (h : Sound i) : SoundInput i := by
  have hint := i.int.2
  refine ⟨fun hba hsettled p hp hne => ?_, fun hba => ?_⟩
  · obtain ⟨r, s, hr⟩ := getH246FromPs_returns_iff.mpr hsettled
    obtain ⟨rfl, _, hfits, hslice⟩ := getH246FromPs_payloads hr
    have hpos : 0 < (payloads i.block i.length).length := by
      rw [List.length_pos_iff]
      exact fun hnil => hne (payloads_eq_nil.mp hnil p hp)
    have h32 : int32 (payloads i.block i.length).length = (payloads i.block i.length).length :=
      int32_eq_self (by omega) (by omega)
    obtain ⟨_, f, hle, hreads, hout⟩ := h.accepted _ s hr (by change 0 < int32 _; omega)
    obtain ⟨n, hn⟩ := Int.eq_ofNat_of_zero_le (show 0 ≤ i.length by omega)
    have hheld := i.held
    rw [h32, Int.toNat_natCast, hslice] at hout
    rw [hn] at hp hne hout hle hint hheld ⊢
    have hinside := contributes_inside (by omega) (by omega) hreads (by omega) hout p hp hne
    omega
  · obtain ⟨r, s, hr, hret⟩ := h.rejected hba
    obtain ⟨rfl, _, hfits, _⟩ := getH246FromPs_payloads hr
    refine ⟨getH246FromPs_returns_iff.mp ⟨_, s, hr⟩, payloads_eq_nil.mp ?_⟩
    have h32 : int32 (payloads i.block i.length).length = (payloads i.block i.length).length :=
      int32_eq_self (by omega) (by omega)
    rw [← List.length_eq_zero_iff]
    have : int32 (payloads i.block i.length).length = 0 := hret
    omega

end Sound

/-- A call is sound on these inputs, and on no others that fit into `INT_MAX` bytes. -/
theorem sound_when (i : PsInput) : (SoundInput i → Sound i) ∧
    (i.block.size < 2147483648 → (Sound i ↔ SoundInput i)) :=
  ⟨sound_of_input, fun hsize => ⟨input_of_sound hsize, sound_of_input⟩⟩

/-- The tail of a frame whose first bytes were lost: one video packet behind fourteen
bytes that are no pack header. -/
def headlessVideo : PsInput :=
  received (List.replicate 14 0 ++ [0, 0, 1, 0xE0, 0, 6, 0x80, 0, 0, 0x65, 0x88, 0x84]) (by decide)

/-- Three bytes are returned all the same. -/
theorem headless_not_sound : ¬ Sound headlessVideo := by
  intro hsound
  have hnohead : hasStartCode headlessVideo.block 0 0xBA = false := by decide
  have hout : demuxed headlessVideo.block headlessVideo.length =
      some (⟨3, 0, 3⟩, [0x65, 0x88, 0x84]) := by decide
  unfold demuxed at hout
  split at hout
  · rename_i r s hr
    have hret : r = ⟨3, 0, 3⟩ := congrArg Prod.fst (Option.some.inj hout)
    have hba := (hsound.accepted r s hr (by rw [hret]; decide)).1
    rw [hnohead] at hba
    exact absurd hba (by decide)
  · cases hout

theorem sound_when_headless : Sound headlessVideo ↔ SoundInput headlessVideo :=
  (sound_when headlessVideo).2 (by decide)

end SimpleSipClient.PsToH264
