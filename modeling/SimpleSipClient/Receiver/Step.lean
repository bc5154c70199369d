import SimpleSipClient.Demux.Walk
import SimpleSipClient.Receiver.Source

/-! # One call of the receiver

Closed forms of `ProcessRTPPacket`. A packet is appended where `m_bufferSize`
points; a marker hands the collected bytes to the demuxer and leaves an empty
buffer behind. The sequence number is stored and has no influence on either.
-/

namespace SimpleSipClient.RtpRecver

open Foundation PsToH264

/-! ## Appending -/

def gapEvents (r : State) (p : RTPPacket) : List Event :=
  if sequenceGap p.extendedSequenceNumber r.lastSeqNumber > 1 then
    [.gotPacketError p.extendedSequenceNumber
      (sequenceGap p.extendedSequenceNumber r.lastSeqNumber) p.timestamp]
  else []

/-- The copy of the payload stays inside the buffer. -/
def Room (r : State) (p : RTPPacket) : Prop :=
  0 ≤ r.bufferSize ∧ r.bufferSize + p.payloadData.length ≤ r.frameBuffer.size

def State.appended (r : State) (p : RTPPacket) : State where
  frameBuffer := r.frameBuffer.write r.bufferSize.toNat p.payloadData
  bufferSize := int32 (r.bufferSize + p.payloadData.length)
  lastSeqNumber := int32 p.extendedSequenceNumber.toNat

def appendEvents (r : State) (p : RTPPacket) : List Event :=
  gapEvents r p ++ [.memcpy r.bufferSize p.payloadData]

theorem reportGap_run (r s : State) (p : RTPPacket) :
    reportGap p r.lastSeqNumber s = ⟨gapEvents r p, .ok ((), s)⟩ := by
  unfold reportGap gapEvents
  rw [Traced.ite_run]
  split <;> rfl

theorem memcpyPayload_run {offset : Int} {payloadData : Bytes} {r : State}
    (h : 0 ≤ offset ∧ offset + payloadData.length ≤ r.frameBuffer.size) :
    memcpyPayload offset payloadData r = ⟨[.memcpy offset payloadData],
      .ok ((), { r with frameBuffer := r.frameBuffer.write offset.toNat payloadData })⟩ := by
  unfold memcpyPayload
  rw [if_pos h]

theorem memcpyPayload_outside {offset : Int} {payloadData : Bytes} {r : State}
    (h : ¬ (0 ≤ offset ∧ offset + payloadData.length ≤ r.frameBuffer.size)) :
    memcpyPayload offset payloadData r = ⟨[.memcpy offset payloadData], .error .invalid⟩ := by
  unfold memcpyPayload
  rw [if_neg h]

section Packet

variable {r : State} {p : RTPPacket} (srcdat : RTPSourceData)

theorem processRTPPacket_outside (h : ¬ Room r p) :
    processRTPPacket srcdat p r = ⟨appendEvents r p, .error .invalid⟩ := by
  unfold processRTPPacket
  rw [Traced.get_bind, Traced.bind_run, reportGap_run]
  simp only
  rw [Traced.set_bind, Traced.bind_run, memcpyPayload_outside]
  · rfl
  · exact h

/-- With room for it a packet is appended, and a marker closes the frame then. -/
theorem processRTPPacket_run (h : Room r p) :
    processRTPPacket srcdat p r =
      if p.hasMarker then
        ⟨appendEvents r p ++ (closeFrame (r.appended p)).events,
          (closeFrame (r.appended p)).outcome⟩
      else ⟨appendEvents r p, .ok ((), r.appended p)⟩ := by
  unfold processRTPPacket
  rw [Traced.get_bind, Traced.bind_run, reportGap_run]
  simp only
  rw [Traced.set_bind, Traced.bind_run, memcpyPayload_run]
  · simp only
    rw [Traced.get_bind, Traced.set_bind, Traced.ite_run]
    split <;> simp [appendEvents, State.appended]
  · exact h

end Packet

/-! ## Closing a frame -/

/-- The frame that is emitted for a result, if any. -/
def frameEvents (d : DemuxResult) (b : Buffer) : List Event :=
  if d.ret > 0 then [.sigRecvedFrame (b.slice d.h264Buffer d.h264length.toNat)] else []

theorem emitFrame_run (d : DemuxResult) (r : State) :
    emitFrame d r = ⟨frameEvents d r.frameBuffer, .ok ((), r)⟩ := by
  unfold emitFrame frameEvents
  rw [Traced.ite_run]
  split <;> rfl

theorem closeFrame_ok {r : State} {d : DemuxResult} {b : Buffer}
    (h : (getH246FromPs r.bufferSize r.frameBuffer).outcome = .ok (d, b)) :
    closeFrame r =
      ⟨(getH246FromPs r.bufferSize r.frameBuffer).events.map .demux ++
          (frameEvents d b ++ [.memset]),
        .ok ((), ⟨b.clear BUFFERSIZE, 0, r.lastSeqNumber⟩)⟩ := by
  unfold closeFrame
  rw [Traced.get_bind, Traced.bind_run]
  simp only [Traced.zoom, h]
  rw [Traced.bind_run, emitFrame_run]
  simp only
  rw [Traced.emit_bind, Traced.get_bind, Traced.set_run]

theorem closeFrame_error {r : State} {e : Halt}
    (h : (getH246FromPs r.bufferSize r.frameBuffer).outcome = .error e) :
    closeFrame r =
      ⟨(getH246FromPs r.bufferSize r.frameBuffer).events.map .demux, .error e⟩ := by
  unfold closeFrame
  rw [Traced.get_bind, Traced.bind_run]
  simp only [Traced.zoom, h]

/-- Closing a frame copies nothing into the frame buffer and reports no gap. -/
theorem mem_closeFrame_events {r : State} {e : Event} (h : e ∈ (closeFrame r).events) :
    (∃ access, e = .demux access) ∨ (∃ frame, e = .sigRecvedFrame frame) ∨ e = .memset := by
  have hdemux : ∀ as : List Access, e ∈ as.map Event.demux → ∃ access, e = .demux access := by
    intro as he
    rcases List.mem_map.mp he with ⟨access, _, rfl⟩
    exact ⟨access, rfl⟩
  cases hd : (getH246FromPs r.bufferSize r.frameBuffer).outcome with
  | error e' =>
      rw [closeFrame_error hd] at h
      exact .inl (hdemux _ h)
  | ok t =>
      rcases t with ⟨t, b⟩
      rw [closeFrame_ok hd] at h
      rcases List.mem_append.mp h with h | h
      · exact .inl (hdemux _ h)
      rcases List.mem_append.mp h with h | h
      · unfold frameEvents at h
        split at h
        · exact .inr (.inl ⟨_, List.mem_singleton.mp h⟩)
        · simp at h
      · exact .inr (.inr (List.mem_singleton.mp h))

/-- So an observation that looks at copies and reports only sees nothing of it. -/
theorem filterMap_closeFrame {β : Type} {f : Event → Option β} (r : State)
    (hdemux : ∀ access, f (.demux access) = none)
    (hframe : ∀ frame, f (.sigRecvedFrame frame) = none) (hmemset : f .memset = none) :
    (closeFrame r).events.filterMap f = [] := by
  rw [List.filterMap_eq_nil_iff]
  intro e he
  rcases mem_closeFrame_events he with ⟨access, rfl⟩ | ⟨frame, rfl⟩ | rfl
  · exact hdemux access
  · exact hframe frame
  · exact hmemset

/-! ## States between calls -/

/-- The receiver with nothing collected. -/
def emptied (lastSeqNumber : Int) : State := ⟨Block.blank BUFFERSIZE, 0, lastSeqNumber⟩

theorem closeFrame_state {r s : State} (hsize : r.frameBuffer.size = BUFFERSIZE)
    (h : (closeFrame r).outcome = .ok ((), s)) : s = emptied r.lastSeqNumber := by
  cases hd : (getH246FromPs r.bufferSize r.frameBuffer).outcome with
  | ok t =>
      rcases t with ⟨t, b⟩
      have hb : b.size = BUFFERSIZE := by
        rw [(getH246FromPs_payloads hd).2.1, hsize]
      rw [closeFrame_ok hd] at h
      cases h
      rw [emptied, Block.clear_eq_blank (Nat.le_of_eq hb), hb]
  | error e =>
      rw [closeFrame_error hd] at h
      cases h

/-- A call that returns had room for its packet, stores its number, and either
appends it or leaves nothing collected. -/
theorem processRTPPacket_state {srcdat : RTPSourceData} {p : RTPPacket} {r s : State}
    (hsize : r.frameBuffer.size = BUFFERSIZE)
    (h : (processRTPPacket srcdat p r).outcome = .ok ((), s)) :
    Room r p ∧ s = if p.hasMarker then emptied (int32 p.extendedSequenceNumber.toNat)
      else r.appended p := by
  by_cases hroom : Room r p
  · refine ⟨hroom, ?_⟩
    rw [processRTPPacket_run _ hroom] at h
    split at h
    · rename_i hm
      rw [if_pos hm]
      exact closeFrame_state (r := r.appended p) hsize h
    · rename_i hm
      cases h
      rw [if_neg hm]
  · rw [processRTPPacket_outside _ hroom] at h
    cases h

theorem processRTPPacket_size {srcdat : RTPSourceData} {p : RTPPacket} {r s : State}
    (hsize : r.frameBuffer.size = BUFFERSIZE)
    (h : (processRTPPacket srcdat p r).outcome = .ok ((), s)) :
    s.frameBuffer.size = BUFFERSIZE := by
  rw [(processRTPPacket_state hsize h).2]
  split
  · rfl
  · exact hsize

/-! ## Calls one after the other -/

section Run

variable {d : Delivery} {ds ds' : List Delivery} {r s : State}

theorem processAll_cons_ok (h : (processRTPPacket d.srcdat d.rtppack r).outcome = .ok ((), s)) :
    processAll (d :: ds) r =
      ⟨(processRTPPacket d.srcdat d.rtppack r).events ++ (processAll ds s).events,
        (processAll ds s).outcome⟩ :=
  Traced.forEach_ok h

theorem processAll_cons_error {e : Halt}
    (h : (processRTPPacket d.srcdat d.rtppack r).outcome = .error e) :
    processAll (d :: ds) r = ⟨(processRTPPacket d.srcdat d.rtppack r).events, .error e⟩ :=
  Traced.forEach_error h

theorem processAll_append_ok (h : (processAll ds r).outcome = .ok ((), s)) :
    processAll (ds ++ ds') r =
      ⟨(processAll ds r).events ++ (processAll ds' s).events, (processAll ds' s).outcome⟩ :=
  Traced.forEach_append_ok h

theorem processAll_size (hsize : r.frameBuffer.size = BUFFERSIZE)
    (h : (processAll ds r).outcome = .ok ((), s)) : s.frameBuffer.size = BUFFERSIZE :=
  (Traced.forEach_invariant (P := fun _ => True)
    (I := fun _ r => r.frameBuffer.size = BUFFERSIZE)
    (fun _ _ _ hsize => ⟨fun _ _ => trivial, fun _ ht => processRTPPacket_size hsize ht⟩)
    hsize).2 s h

end Run

end SimpleSipClient.RtpRecver
