import SimpleSipClient.Receiver.Reassembly

/-! # Packet loss

A stream of well-formed frames, each cut into packets with the marker on its last
one, reaches the receiver with some of the packets missing. The gap in the
sequence numbers is logged and nothing else, so what is left of a frame without
its marker stays in the buffer and the next frame is appended to it. An intact
frame that follows a delivered marker is emitted as it was sent.
-/

namespace SimpleSipClient.RtpRecver

open Foundation PsToH264

/-! ## Runs that end behind a marker -/

section Run

variable {ds : List Delivery} {d : Delivery} {r s : State}

/-- Behind a marker nothing is collected, whatever happened before it. -/
theorem emptied_of_marker (hm : d.rtppack.hasMarker = true) {lastSeqNumber : Int}
    (h : (processAll (ds ++ [d]) (emptied lastSeqNumber)).outcome = .ok ((), s)) :
    s = emptied (int32 d.rtppack.extendedSequenceNumber.toNat) := by
  rcases Traced.forEach_append_returns h with ⟨t, hfront, hlast⟩
  rcases Traced.forEach_cons_returns hlast with ⟨u, hu, hnil⟩
  cases hnil
  have hsize := processAll_size (r := emptied lastSeqNumber) rfl hfront
  rw [(processRTPPacket_state hsize hu).2, if_pos hm]

/-- The last packet carries the marker, if there is any. -/
def EndsMarked (ds : List Delivery) : Prop :=
  ∀ d ∈ ds.getLast?, d.rtppack.hasMarker = true

theorem emptied_of_endsMarked (hm : EndsMarked ds) {lastSeqNumber : Int}
    (h : (processAll ds (emptied lastSeqNumber)).outcome = .ok ((), s)) :
    s = emptied s.lastSeqNumber := by
  rcases List.eq_nil_or_concat ds with rfl | ⟨front, d, rfl⟩
  · cases h
    rfl
  · rw [List.concat_eq_append] at h hm
    rw [emptied_of_marker (hm d (by simp)) h]
    rfl

end Run

/-! ## Sent frames -/

/-- A well-formed frame, cut into packets with the marker exactly on the last one. -/
structure SentFrame where
  frame : ProgramStream.Frame
  unmarked : List Delivery
  marked : Delivery
  unmarked_open : ∀ d ∈ unmarked, d.rtppack.hasMarker = false
  marked_closes : marked.rtppack.hasMarker = true
  cut : segmentBytes (unmarked ++ [marked]) = frame.bytes

def SentFrame.packets (f : SentFrame) : List Delivery := f.unmarked ++ [f.marked]

/-- A frame and those of its packets that arrive. -/
structure Transmission where
  sent : SentFrame
  arrived : List Delivery
  lossy : arrived.Sublist sent.packets

def arrivals (ts : List Transmission) : List Delivery := ts.flatMap Transmission.arrived

theorem segments_unmarked {front ds : List Delivery}
    (h : ∀ d ∈ front, d.rtppack.hasMarker = false) :
    segments (front ++ ds) = (segments ds).modifyHead (front ++ ·) := by
  induction front with
  | nil =>
      rcases segments_eq_cons ds with ⟨seg, rest, hs⟩
      simp [hs]
  | cons d front ih =>
      rw [List.cons_append, segments_open (h d List.mem_cons_self),
        ih fun d hd => h d (List.mem_cons_of_mem _ hd)]
      rcases segments_eq_cons ds with ⟨seg, rest, hs⟩
      simp [hs]

theorem SentFrame.collected (f : SentFrame) :
    RtpRecver.collected [] f.packets = [f.frame.bytes, []] := by
  rw [collected_empty, SentFrame.packets, segments_unmarked f.unmarked_open,
    segments_marker f.marked_closes]
  simp only [List.modifyHead_cons, List.map_cons, f.cut, segments]
  rfl

/-- A frame that was received completely is demuxed to its payload. -/
theorem demuxFresh_frame {f : ProgramStream.Frame} (hfit : f.bytes.length ≤ BUFFERSIZE)
    (hvideo : f.payload ≠ []) : demuxFresh f.bytes = some [f.payload] := by
  have hmax : BUFFERSIZE = 1048576 := rfl
  have hholds : Holds ((Block.blank BUFFERSIZE).write 0 f.bytes) f.bytes :=
    ⟨hfit, by omega, Block.reads_write (by simpa using hfit)⟩
  have hpos := List.length_pos_iff.mpr hvideo
  rw [demuxFresh, demuxed_complete hholds]
  simp [hpos]

/-- From an empty buffer an intact frame is emitted, and the buffer is empty again. -/
theorem SentFrame.emitted (f : SentFrame) (hfit : f.frame.bytes.length ≤ BUFFERSIZE)
    (hvideo : f.frame.payload ≠ []) (lastSeqNumber : Int) :
    frames (processAll f.packets (emptied lastSeqNumber)).events = [f.frame.payload] ∧
      (processAll f.packets (emptied lastSeqNumber)).outcome =
        .ok ((), emptied (int32 f.marked.rtppack.extendedSequenceNumber.toNat)) := by
  have hfits : ∀ ys ∈ RtpRecver.collected [] f.packets, ys.length ≤ BUFFERSIZE := by
    rw [f.collected]
    simpa using hfit
  have hrun := emission_reference (collecting_start lastSeqNumber) hfits
  rw [f.collected] at hrun
  have href : reference [f.frame.bytes] = ⟨[f.frame.payload], 1, true⟩ := by
    rw [reference_some (demuxFresh_frame hfit hvideo)]
    rfl
  rw [show ([f.frame.bytes, []] : List Bytes).dropLast = [f.frame.bytes] from rfl, href] at hrun
  refine ⟨congrArg Emission.frames hrun, ?_⟩
  have hok : (processAll f.packets (emptied lastSeqNumber)).outcome.isOk = true :=
    congrArg Emission.returns hrun
  rcases Traced.returns_of_isOk hok with ⟨t, ht⟩
  rw [ht, emptied_of_marker f.marked_closes ht]

/-! ## Intact frames -/

/-- Every frame of which all packets arrive adds exactly one emitted frame, its
payload, whatever was lost of the others. -/
def EveryIntactFrameSurvives (ts : List Transmission) : Prop :=
  ∀ before t after, ts = before ++ t :: after → t.arrived = t.sent.packets →
    t.sent.frame.payload ≠ [] →
    frames (processAll (arrivals (before ++ [t])) (emptied 0)).events =
      frames (processAll (arrivals before) (emptied 0)).events ++ [t.sent.frame.payload]

/-- `sampleFrame` in two packets with consecutive numbers. -/
def sampleSent (extendedSequenceNumber : UInt32) : SentFrame where
  frame := sampleFrame
  unmarked := [⟨⟨7⟩, ⟨extendedSequenceNumber, 0, sampleFrame.bytes.take 40, false⟩⟩]
  marked := ⟨⟨7⟩, ⟨extendedSequenceNumber + 1, 0, sampleFrame.bytes.drop 40, true⟩⟩
  unmarked_open := by simp
  marked_closes := rfl
  cut := by simp [segmentBytes]

/-- The first frame loses its marker packet, the second arrives completely. -/
def lostMarker : List Transmission :=
  [⟨sampleSent 1, (sampleSent 1).unmarked, List.sublist_append_left _ _⟩,
    ⟨sampleSent 3, (sampleSent 3).packets, List.Sublist.refl _⟩]

theorem lostMarker_damages_next : ¬ EveryIntactFrameSurvives lostMarker := by
  intro h
  have heq := h [⟨sampleSent 1, (sampleSent 1).unmarked, List.sublist_append_left _ _⟩]
    ⟨sampleSent 3, (sampleSent 3).packets, List.Sublist.refl _⟩ [] rfl rfl (by decide)
  revert heq
  decide +kernel

/-- An intact frame that fits into the buffer is emitted exactly once, with exactly its
payload, if the last packet that arrived before it carries the marker and no packet
before it made an invalid access. Nothing of it is left for the frames behind it. -/
theorem intact_frame_emitted (before : List Transmission) (t : Transmission)
    (after : List Transmission) (lastSeqNumber : Int) (hintact : t.arrived = t.sent.packets)
    (hvideo : t.sent.frame.payload ≠ []) (hfit : t.sent.frame.bytes.length ≤ BUFFERSIZE)
    (hmarked : EndsMarked (arrivals before))
    (hreturns : (processAll (arrivals before) (emptied lastSeqNumber)).outcome.isOk = true) :
    frames (processAll (arrivals (before ++ t :: after)) (emptied lastSeqNumber)).events =
      frames (processAll (arrivals before) (emptied lastSeqNumber)).events ++
        t.sent.frame.payload ::
          frames (processAll (arrivals after)
            (emptied (int32 t.sent.marked.rtppack.extendedSequenceNumber.toNat))).events := by
  rcases Traced.returns_of_isOk hreturns with ⟨r, hb⟩
  rcases t.sent.emitted hfit hvideo r.lastSeqNumber with ⟨hframes, hok⟩
  rw [← emptied_of_endsMarked hmarked hb] at hframes hok
  have hsplit : arrivals (before ++ t :: after) =
      arrivals before ++ (t.sent.packets ++ arrivals after) := by
    simp [arrivals, hintact]
  calc frames (processAll (arrivals (before ++ t :: after)) (emptied lastSeqNumber)).events
      = frames (processAll (arrivals before) (emptied lastSeqNumber)).events ++
          frames (processAll (t.sent.packets ++ arrivals after) r).events := by
        rw [hsplit, processAll_append_ok hb, frames_append]
    _ = _ := by
        rw [processAll_append_ok hok, frames_append, hframes, List.singleton_append]

/-- The first packet of the frame in front is lost, its marker packet arrives. -/
theorem intact_frame_emitted_sample :
    let front : Transmission :=
      ⟨sampleSent 1, [(sampleSent 1).marked], List.sublist_append_right _ _⟩
    let t : Transmission := ⟨sampleSent 3, (sampleSent 3).packets, List.Sublist.refl _⟩
    frames (processAll (arrivals ([front] ++ t :: [])) (emptied 0)).events =
      frames (processAll (arrivals [front]) (emptied 0)).events ++
        t.sent.frame.payload ::
          frames (processAll (arrivals [])
            (emptied (int32 t.sent.marked.rtppack.extendedSequenceNumber.toNat))).events :=
  intact_frame_emitted [⟨sampleSent 1, [(sampleSent 1).marked], List.sublist_append_right _ _⟩]
    ⟨sampleSent 3, (sampleSent 3).packets, List.Sublist.refl _⟩ [] 0 rfl (by decide) (by decide)
    (by intro d hd; cases hd; rfl) (by decide +kernel)

end SimpleSipClient.RtpRecver
