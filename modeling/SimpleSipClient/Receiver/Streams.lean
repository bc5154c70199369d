import Mathlib.Data.List.Flatten
import SimpleSipClient.Receiver.Loss

/-! # A stream whose markers arrive

Of each frame the marker packet arrives, of the others any. Then no frame meets what is left of
the one before it: the receiver emits for each frame what the demuxer makes of its own packets.
-/

namespace SimpleSipClient.RtpRecver

open Foundation PsToH264

/-- What is emitted for a frame when its packets come to an empty buffer. -/
def Transmission.received (t : Transmission) : List Bytes :=
  (demuxFresh (segmentBytes t.arrived)).getD []

/-- The marker packet of the frame arrives. -/
def Transmission.Closed (t : Transmission) : Prop := t.sent.marked ∈ t.arrived

/-- Only the marker packet of the frame arrives. -/
def onlyMarked (f : SentFrame) : Transmission where
  sent := f
  arrived := [f.marked]
  lossy := List.sublist_append_right f.unmarked [f.marked]

def undamaged (f : SentFrame) : Transmission where
  sent := f
  arrived := f.packets
  lossy := List.Sublist.refl f.packets

section Transmissions

variable {t : Transmission} {ts : List Transmission}

theorem Transmission.Closed.arrived_eq (h : t.Closed) :
    ∃ front, t.arrived = front ++ [t.sent.marked] ∧
      ∀ d ∈ front, d.rtppack.hasMarker = false := by
  have hlossy := t.lossy
  rw [SentFrame.packets, List.sublist_append_iff] at hlossy
  obtain ⟨front, last, harrived, hfront, hlast⟩ := hlossy
  have hopen : ∀ d ∈ front, d.rtppack.hasMarker = false :=
    fun d hd => t.sent.unmarked_open d (hfront.subset hd)
  obtain rfl | rfl := List.sublist_singleton.mp hlast
  · have hmarked := hopen t.sent.marked (by rwa [Transmission.Closed, harrived,
      List.append_nil] at h)
    rw [t.sent.marked_closes] at hmarked
    cases hmarked
  · exact ⟨front, harrived, hopen⟩

theorem segments_arrivals (h : ∀ t ∈ ts, t.Closed) :
    segments (arrivals ts) = ts.map Transmission.arrived ++ [[]] := by
  induction ts with
  | nil => rfl
  | cons t ts ih =>
      obtain ⟨front, harrived, hopen⟩ := (h t List.mem_cons_self).arrived_eq
      have hcut : arrivals (t :: ts) = front ++ (t.sent.marked :: arrivals ts) := by
        simp [arrivals, harrived]
      rw [hcut, segments_unmarked hopen, segments_marker t.sent.marked_closes,
        ih fun u hu => h u (List.mem_cons_of_mem _ hu), List.modifyHead_cons, ← harrived]
      rfl

theorem Transmission.arrived_length (t : Transmission) :
    (segmentBytes t.arrived).length ≤ t.sent.frame.bytes.length := by
  rw [← t.sent.cut]
  exact (t.lossy.flatMap _).length_le

/-- Packets without a marker make no frame. -/
theorem frames_unmarked {ds : List Delivery} (h : ∀ d ∈ ds, d.rtppack.hasMarker = false)
    (r : State) : frames (processAll ds r).events = [] := by
  induction ds generalizing r with
  | nil => rfl
  | cons d ds ih =>
      have hopen := h d List.mem_cons_self
      by_cases hroom : Room r d.rtppack
      · have hrun := processRTPPacket_run d.srcdat hroom
        rw [if_neg (by simp [hopen])] at hrun
        rw [processAll_cons_ok (by rw [hrun]), frames_append, hrun, frames_appendEvents,
          ih fun e he => h e (List.mem_cons_of_mem _ he)]
        rfl
      · have hrun := processRTPPacket_outside d.srcdat hroom
        rw [processAll_cons_error (by rw [hrun]), hrun, frames_appendEvents]

/-- A reference run that returns has demuxed every segment. -/
theorem reference_frames {xss : List Bytes} (h : (reference xss).returns = true) :
    (reference xss).frames = xss.flatMap fun xs => (demuxFresh xs).getD [] := by
  induction xss with
  | nil => rfl
  | cons xs xss ih =>
      cases hd : demuxFresh xs with
      | none =>
          rw [reference_none hd] at h
          cases h
      | some out =>
          rw [reference_some hd] at h ⊢
          rw [List.flatMap_cons, hd, ← ih h]
          rfl

end Transmissions

/-- The receiver emits for each frame what is received of it. -/
theorem frames_of_stream {ts : List Transmission} {rest : List Delivery} {lastSeqNumber : Int}
    {s : State} (hclosed : ∀ t ∈ ts, t.Closed) (hopen : ∀ d ∈ rest, d.rtppack.hasMarker = false)
    (hfit : ∀ t ∈ ts, t.sent.frame.bytes.length ≤ BUFFERSIZE)
    (hs : (processAll (arrivals ts ++ rest) (emptied lastSeqNumber)).outcome = .ok ((), s)) :
    frames (processAll (arrivals ts ++ rest) (emptied lastSeqNumber)).events =
      ts.flatMap Transmission.received := by
  obtain ⟨u, hu, -⟩ := Traced.forEach_append_returns hs
  have hcollected : collected [] (arrivals ts) =
      ts.map (fun t => segmentBytes t.arrived) ++ [[]] := by
    rw [collected_empty, segments_arrivals hclosed]
    simp [segmentBytes]
  have hfits : ∀ ys ∈ collected [] (arrivals ts), ys.length ≤ BUFFERSIZE := by
    rw [hcollected]
    intro ys hys
    obtain hys | hys := List.mem_append.mp hys
    · obtain ⟨t, ht, rfl⟩ := List.mem_map.mp hys
      exact Nat.le_trans t.arrived_length (hfit t ht)
    · rw [List.mem_singleton.mp hys]
      exact Nat.zero_le _
  have hrun := emission_reference (collecting_start lastSeqNumber) hfits
  rw [hcollected, List.dropLast_concat] at hrun
  have hreturns : (reference (ts.map fun t => segmentBytes t.arrived)).returns = true := by
    rw [← hrun, emission]
    exact congrArg Except.isOk hu
  have hframes : frames (processAll (arrivals ts) (emptied lastSeqNumber)).events =
      ts.flatMap Transmission.received := by
    refine (congrArg Emission.frames hrun).trans ?_
    rw [reference_frames hreturns, List.flatMap_map]
    rfl
  rw [processAll_append_ok hu, frames_append, hframes, frames_unmarked hopen, List.append_nil]

/-- The frames are what is received of each transmission, at most one, and of an intact one its
payload. -/
structure Streamed (ts : List Transmission) (frames : List Bytes) : Prop where
  each : frames = ts.flatMap Transmission.received
  once : ∀ t ∈ ts, t.received.length ≤ 1
  intact : ∀ t ∈ ts, t.arrived = t.sent.packets → t.sent.frame.payload ≠ [] →
    t.received = [t.sent.frame.payload]
  lossless : (∀ t ∈ ts, t.arrived = t.sent.packets ∧ t.sent.frame.payload ≠ []) →
    frames = ts.map fun t => t.sent.frame.payload

theorem received_length (t : Transmission) : t.received.length ≤ 1 := by
  rw [Transmission.received, demuxFresh]
  cases demuxed ((Block.blank BUFFERSIZE).write 0 (segmentBytes t.arrived))
      (segmentBytes t.arrived).length with
  | none => exact Nat.zero_le _
  | some d =>
      rw [Option.map_some, Option.getD_some]
      split
      · exact Nat.le_refl _
      · exact Nat.zero_le _

theorem received_intact {t : Transmission} (hfit : t.sent.frame.bytes.length ≤ BUFFERSIZE)
    (hintact : t.arrived = t.sent.packets) (hvideo : t.sent.frame.payload ≠ []) :
    t.received = [t.sent.frame.payload] := by
  have hbytes : segmentBytes t.arrived = t.sent.frame.bytes := by
    rw [hintact]
    exact t.sent.cut
  rw [Transmission.received, hbytes, demuxFresh_frame hfit hvideo]
  rfl

theorem streamed_of_eq {ts : List Transmission} {frames : List Bytes}
    (hfit : ∀ t ∈ ts, t.sent.frame.bytes.length ≤ BUFFERSIZE)
    (heach : frames = ts.flatMap Transmission.received) : Streamed ts frames where
  each := heach
  once t _ := received_length t
  intact t ht hintact hvideo := received_intact (hfit t ht) hintact hvideo
  lossless hall := by
    have hreceived : ts.map Transmission.received = ts.map fun t => [t.sent.frame.payload] :=
      List.map_congr_left fun t ht => received_intact (hfit t ht) (hall t ht).1 (hall t ht).2
    rw [heach, List.flatMap_def, hreceived, ← List.flatMap_def, List.map_eq_flatMap]

end SimpleSipClient.RtpRecver
