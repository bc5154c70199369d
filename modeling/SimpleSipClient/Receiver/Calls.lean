import SimpleSipClient.Demux.Progress
import SimpleSipClient.Receiver.Step

/-! # The calls of the demuxer

The receiver clears the whole buffer after each frame, so in every state of a run
there are zeros behind what is collected, whatever the size counter started with.
That is what ends the packet loop.
-/

namespace SimpleSipClient.RtpRecver

open Foundation PsToH264

/-- Behind what is collected the buffer is clear. -/
structure Cleared (r : State) : Prop where
  size : r.frameBuffer.size = BUFFERSIZE
  tail : ZeroTail r.frameBuffer r.bufferSize

theorem cleared_start (bufferSize : Int) : Cleared (rtpRecver bufferSize) :=
  ⟨rfl, fun _ _ => rfl⟩

section Packet

variable {r s : State} {p : RTPPacket}

theorem Cleared.appended (h : Cleared r) (hroom : Room r p) : Cleared (r.appended p) := by
  have hmax : BUFFERSIZE = 1048576 := rfl
  have hsize := h.size
  obtain ⟨h0, hle⟩ := hroom
  refine ⟨hsize, fun i hi => ?_⟩
  have hi' : r.bufferSize + p.payloadData.length ≤ i := by
    rwa [State.appended, int32_eq_self (by omega) (by omega)] at hi
  rw [State.appended, Block.write_cell_outside (by omega)]
  exact h.tail i (by omega)

/-- Step lemma: an append writes in front of the zeros, a closed frame leaves nothing
else. -/
theorem Cleared.step {srcdat : RTPSourceData} (h : Cleared r)
    (hs : (processRTPPacket srcdat p r).outcome = .ok ((), s)) : Cleared s := by
  obtain ⟨hroom, rfl⟩ := processRTPPacket_state h.size hs
  split
  · exact ⟨rfl, fun _ _ => rfl⟩
  · exact h.appended hroom

end Packet

/-- Run lemma: every packet finds the buffer clear behind what is collected. -/
theorem visits_cleared (bufferSize : Int) (ds : List Delivery) :
    ∀ v ∈ Traced.visits (fun d : Delivery => processRTPPacket d.srcdat d.rtppack) ds
      (rtpRecver bufferSize), Cleared v.2 :=
  Traced.visits_invariant (fun _ _ _ h hs => h.step hs) (cleared_start bufferSize)

/-- In every run the packet loop of each call of the demuxer is over after one sixth
as many iterations as bytes were collected, and one. Where they leave room for one
more packet, the frame is closed unless a video packet is shorter than its header. -/
theorem calls_end (bufferSize : Int) (ds : List Delivery) {d : Delivery} {r : State}
    (hv : (d, r) ∈ Traced.visits (fun d : Delivery => processRTPPacket d.srcdat d.rtppack) ds
      (rtpRecver bufferSize)) (hroom : Room r d.rtppack) :
    let filled := r.appended d.rtppack
    (demuxHeads filled.frameBuffer filled.bufferSize).length ≤
        filled.bufferSize.toNat / 6 + 1 ∧
      (filled.bufferSize.toNat + 65541 ≤ BUFFERSIZE →
        ((∃ s, (closeFrame filled).outcome = .ok ((), s)) ↔
          ∀ p ∈ walk filled.frameBuffer filled.bufferSize,
            hasStartCode filled.frameBuffer p 0xE0 = true →
            pesReads filled.bufferSize p = true → 0 ≤ payloadLength filled.frameBuffer p)) := by
  intro filled
  have hclear : Cleared filled := (visits_cleared bufferSize ds (d, r) hv).appended hroom
  refine ⟨?_, fun hfree => ?_⟩
  · rw [← List.length_map (fun h => h.1.nextPack), demuxHeads_nextPack]
    exact hclear.tail.walk_length
  · rw [← hclear.tail.returns_iff (hclear.size ▸ hfree)]
    constructor
    · rintro ⟨s, hs⟩
      cases hd : (getH246FromPs filled.bufferSize filled.frameBuffer).outcome with
      | ok t => exact ⟨t.1, t.2, rfl⟩
      | error e =>
          rw [closeFrame_error hd] at hs
          cases hs
    · rintro ⟨t, b, hd⟩
      rw [closeFrame_ok hd]
      exact ⟨_, rfl⟩

end SimpleSipClient.RtpRecver
