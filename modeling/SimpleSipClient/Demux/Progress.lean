import SimpleSipClient.Demux.Bounds

/-! # The two cursors

The demuxer writes behind the packet it reads, and what it writes never reaches the
bytes it has still to read. So the loop goes over the input as it was handed in, and
where the input ends in zeros, it meets no start code there and comes to an end.
-/

namespace SimpleSipClient.PsToH264

open Foundation

/-! ## Input that is not read yet -/

/-- Behind the pack header a call does what its iterations do. At the head of every iteration
both forms of the write cursor, the pointer and `*h264length`, are at least a pack header behind
`NextPack`, and from there on the buffer is as it was. -/
structure UnreadKept (m : Buffer) (length : Int) : Prop where
  iterations : ∀ a, a ∈ (getH246FromPs length m).events ↔
    a = .inspect 13 ∨ ∃ h ∈ demuxHeads m length, a ∈ (demuxPacket length h.1 h.2).events
  pointer : ∀ h ∈ demuxHeads m length, h.1.buffer + 14 ≤ h.1.nextPack
  h264length : ∀ h ∈ demuxHeads m length, h.1.h264length + 14 ≤ h.1.nextPack
  unread : ∀ h ∈ demuxHeads m length, ∀ i, h.1.nextPack ≤ i → h.2.cell i = m.cell i

/-- Whatever the buffer holds and whatever lengths its packets declare. -/
theorem unread_kept (m : Buffer) (length : Int) : UnreadKept m length where
  iterations _ := mem_getH246FromPs_events
  pointer h hh := by
    obtain ⟨p, _, out, ht⟩ := walk_of_head hh
    rw [ht.buffer, ht.nextPack]
    exact ht.behind
  h264length h hh := by
    obtain ⟨p, _, out, ht⟩ := walk_of_head hh
    have hbehind := ht.behind
    -- a wrap-around of the counter only lowers it
    have hwrap : int32 out.length ≤ out.length := by
      unfold int32
      omega
    rw [ht.h264length, ht.nextPack]
    omega
  unread h hh i hi := by
    obtain ⟨p, _, out, ht⟩ := walk_of_head hh
    rw [ht.nextPack] at hi
    exact ht.ahead.cells i hi

/-! ## The end of the loop -/

/-- All bytes behind the frame are zero. -/
def ZeroTail (m : Buffer) (length : Int) : Prop := ∀ i : Nat, length ≤ i → m.cell i = 0x00

/-- What a call goes through until it ends: `NextPack` advances in every iteration
that is followed by another test of the loop, so no two iterations have the same. -/
structure Progress (m : Buffer) (length : Int) : Prop where
  ends : (getH246FromPs length m).outcome ≠ .error .exhausted
  iterations : (demuxHeads m length).length ≤ length.toNat / 6 + 1
  increasing : ((demuxHeads m length).map fun h => h.1.nextPack).Pairwise (· < ·)
  advances : ∀ h ∈ demuxHeads m length, ∀ c s,
    (demuxPacket length h.1 h.2).outcome = .ok (.again c, s) → h.1.nextPack < c.nextPack

section Tail

variable {m : Buffer} {length : Int}

/-- A start code ends within the frame. -/
theorem ZeroTail.code_inside (hz : ZeroTail m length) {p : Nat} {streamId : UInt8}
    (hid : streamId ≠ 0x00) (hcode : hasStartCode m p streamId = true) : (p : Int) + 3 < length := by
  by_contra hlt
  have hzero := hz (p + 3) (by omega)
  rw [(hasStartCode_iff.mp hcode).2.2.2] at hzero
  exact hid hzero

theorem ZeroTail.walkNext_inside (hz : ZeroTail m length) (p q : Nat)
    (hn : walkNext m length p = some q) : p + 6 ≤ q ∧ p < length.toNat - 3 := by
  obtain ⟨streamId, hid, hcode⟩ := walkNext_code hn
  have hlt := hz.code_inside hid hcode
  have hq := walkNext_eq hn
  have hend := le_packetEnd m p
  omega

/-- Packets are six bytes long at least, and one iteration at most stands in the tail. -/
theorem ZeroTail.walk_length (hz : ZeroTail m length) :
    (walk m length).length ≤ length.toNat / 6 + 1 := by
  cases hp : hasPackets m length with
  | false => simp [walk_eq_nil hp]
  | true =>
      rw [walk_eq_chain hp]
      generalize hn : (chain _ _ _ _).length = n
      match n with
      | 0 => omega
      | 1 => omega
      | k + 2 =>
          have hfirst : 14 ≤ firstPack m := Nat.le_add_right _ _
          have hlast := chain_length hz.walkNext_inside hn
          omega

/-- The walk gets at most one packet behind the frame. -/
theorem ZeroTail.walk_le (hz : ZeroTail m length) :
    ∀ p ∈ walk m length, p ≤ length.toNat + 65537 := by
  cases hp : hasPackets m length with
  | false => simp [walk_eq_nil hp]
  | true =>
      rw [walk_eq_chain hp]
      refine chain_invariant (fun p q _ _ hn _ => ?_) fun _ => ?_
      · have hlt := (hz.walkNext_inside p q hn).2
        have hq := walkNext_eq hn
        have hlen := declaredLength_lt m p
        unfold packetEnd at hq
        omega
      · have hst := packStuffing_lt m
        unfold firstPack
        omega

/-- With room for one more packet behind the frame, a call returns unless it comes to
a video packet that is shorter than its own header. -/
theorem ZeroTail.returns_iff (hz : ZeroTail m length) (hroom : length.toNat + 65541 ≤ m.size) :
    (∃ r s, (getH246FromPs length m).outcome = .ok (r, s)) ↔
      ∀ p ∈ walk m length, hasStartCode m p 0xE0 = true → pesReads length p = true →
        0 ≤ payloadLength m p := by
  rw [getH246FromPs_returns_iff]
  constructor
  · rintro ⟨-, hall⟩ p hp hv hr
    exact ((hall p hp).video hv hr).2.1
  · intro hpos
    refine ⟨by omega, fun p hp => ?_⟩
    have hle := hz.walk_le p hp
    have hspan := codeSpan_le m p
    have hlen := declaredLength_lt m p
    have hin {streamId : UInt8} (hid : streamId ≠ 0x00) (hcode : hasStartCode m p streamId = true) :
        p + 65544 ≤ m.size := by
      have := hz.code_inside hid hcode
      omega
    refine ⟨by omega, fun hv hr => ?_, fun hs _ => ?_, fun hm _ => ?_⟩
    · have := hin (by decide) hv
      refine ⟨by omega, hpos p hp hv hr, fun _ => ?_⟩
      unfold packetEnd
      omega
    · have := hin (by decide) hs
      omega
    · have := hin (by decide) hm
      omega

end Tail

theorem walk_increasing (m : Buffer) (length : Int) : (walk m length).Pairwise (· < ·) := by
  cases hp : hasPackets m length with
  | false =>
      rw [walk_eq_nil hp]
      exact .nil
  | true =>
      rw [walk_eq_chain hp]
      apply chain_pairwise
      · exact fun _ _ _ => Nat.lt_trans
      intro p q hn
      have hq := walkNext_eq hn
      have hend := le_packetEnd m p
      omega

/-- Where zeros follow the frame, the loop ends, after at most one iteration for each
six bytes of the frame and one more. -/
theorem progress_of_zeroTail (m : Buffer) (length : Int) (hz : ZeroTail m length) :
    Progress m length where
  ends := getH246FromPs_not_exhausted m length
  iterations := by
    have hwalk := hz.walk_length
    rwa [← demuxHeads_nextPack, List.length_map] at hwalk
  increasing := by
    rw [demuxHeads_nextPack]
    exact walk_increasing m length
  advances h hh c s hok := by
    obtain ⟨p, _, out, ht⟩ := walk_of_head hh
    have hst := ht.stepped
    rw [hok] at hst
    obtain ⟨_, q, hn, hnext⟩ := hst
    have hq := walkNext_eq hn
    have hend := le_packetEnd m p
    rw [ht.nextPack, hnext.nextPack]
    omega

theorem zeroTail_received (xs : List UInt8) (h : xs.length ≤ 1048576) :
    ZeroTail (received xs h).block (received xs h).length := by
  intro i hi
  have hlen : xs.length ≤ i := Int.ofNat_le.mp hi
  exact Block.write_cell_outside (by omega)

/-- The last iteration here has a negative number of bytes left. -/
theorem progress_longTitle : Progress longTitle.block longTitle.length :=
  progress_of_zeroTail _ _ (zeroTail_received _ _)

end SimpleSipClient.PsToH264
