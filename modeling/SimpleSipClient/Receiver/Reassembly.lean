import SimpleSipClient.Demux.RoundTrip
import SimpleSipClient.Receiver.Step

/-! # Reassembly of frames

A packet sequence is split behind its markers. While every segment fits into the
buffer, the receiver holds exactly the payload bytes since the last marker and
zeros behind them, so each marker runs the demuxer on a buffer that depends on
its own segment only.
-/

namespace SimpleSipClient.RtpRecver

open Foundation PsToH264

/-! ## Segments -/

/-- The deliveries, split behind each marker. The last segment is the unfinished one. -/
def segments : List Delivery → List (List Delivery)
  | [] => [[]]
  | d :: ds =>
      if d.rtppack.hasMarker then [d] :: segments ds
      else (segments ds).modifyHead (d :: ·)

def segmentBytes (segment : List Delivery) : Bytes :=
  segment.flatMap fun d => d.rtppack.payloadData

theorem segments_marker {d : Delivery} (hm : d.rtppack.hasMarker = true) (ds : List Delivery) :
    segments (d :: ds) = [d] :: segments ds := by
  rw [segments, if_pos hm]

theorem segments_open {d : Delivery} (hm : d.rtppack.hasMarker = false) (ds : List Delivery) :
    segments (d :: ds) = (segments ds).modifyHead (d :: ·) := by
  rw [segments, if_neg (by simp [hm])]

theorem segments_eq_cons (ds : List Delivery) : ∃ seg rest, segments ds = seg :: rest := by
  induction ds with
  | nil => exact ⟨[], [], rfl⟩
  | cons d ds ih =>
      rcases ih with ⟨seg, rest, h⟩
      cases hm : d.rtppack.hasMarker with
      | true => exact ⟨[d], _, segments_marker hm ds⟩
      | false => exact ⟨d :: seg, rest, by rw [segments_open hm, h, List.modifyHead_cons]⟩

/-- The bytes of each segment, if `xs` was received in front of the first. -/
def collected (xs : Bytes) (ds : List Delivery) : List Bytes :=
  ((segments ds).map segmentBytes).modifyHead (xs ++ ·)

section Collected

variable {xs : Bytes} {d : Delivery} {ds : List Delivery}

theorem collected_ne_nil : collected xs ds ≠ [] := by
  rcases segments_eq_cons ds with ⟨seg, rest, h⟩
  simp [collected, h]

@[simp] theorem collected_empty : collected [] ds = (segments ds).map segmentBytes := by
  rcases segments_eq_cons ds with ⟨seg, rest, h⟩
  simp [collected, h]

theorem collected_done : collected xs [] = [xs] := by
  simp [collected, segments, segmentBytes]

theorem collected_open (hm : d.rtppack.hasMarker = false) :
    collected xs (d :: ds) = collected (xs ++ d.rtppack.payloadData) ds := by
  rcases segments_eq_cons ds with ⟨seg, rest, h⟩
  simp [collected, segments_open hm, h, segmentBytes]

theorem collected_marker (hm : d.rtppack.hasMarker = true) :
    collected xs (d :: ds) = (xs ++ d.rtppack.payloadData) :: collected [] ds := by
  rw [collected_empty]
  simp [collected, segments_marker hm, segmentBytes]

theorem collected_marker_dropLast (hm : d.rtppack.hasMarker = true) :
    (collected xs (d :: ds)).dropLast =
      (xs ++ d.rtppack.payloadData) :: (collected [] ds).dropLast := by
  rw [collected_marker hm, List.dropLast_cons_of_ne_nil collected_ne_nil]

/-- What is collected already is part of the first segment. -/
theorem length_le_of_collected {n : Nat} (h : ∀ ys ∈ collected xs ds, ys.length ≤ n) :
    xs.length ≤ n := by
  rcases segments_eq_cons ds with ⟨seg, rest, hs⟩
  have := h (xs ++ segmentBytes seg) (by simp [collected, hs])
  rw [List.length_append] at this
  omega

end Collected

/-! ## What a run lets out -/

/-- The emitted frames, how often the buffer was cleared, and whether every call
returned. -/
@[ext] structure Emission where
  frames : List Bytes
  cleared : Nat
  returns : Bool

def frames (es : List Event) : List Bytes :=
  es.filterMap fun
    | .sigRecvedFrame frame => some frame
    | _ => none

def clearings (es : List Event) : Nat := es.count .memset

def emission (x : Exec Event State Unit) : Emission :=
  ⟨frames x.events, clearings x.events, x.outcome.isOk⟩

/-- `GetH246FromPs` on a zero-filled buffer that holds just `xs`: the frame if one is
emitted, nothing if the call does not return. -/
def demuxFresh (xs : Bytes) : Option (List Bytes) :=
  (demuxed ((Block.blank BUFFERSIZE).write 0 xs) xs.length).map fun d =>
    if d.1.ret > 0 then [d.2] else []

/-- Every segment on a fresh buffer of its own, up to the first that does not return. -/
def reference : List Bytes → Emission
  | [] => ⟨[], 0, true⟩
  | xs :: xss =>
      match demuxFresh xs with
      | some out => ⟨out ++ (reference xss).frames, 1 + (reference xss).cleared,
          (reference xss).returns⟩
      | none => ⟨[], 0, false⟩

theorem reference_some {xs : Bytes} {xss out : List Bytes} (h : demuxFresh xs = some out) :
    reference (xs :: xss) = ⟨out ++ (reference xss).frames, 1 + (reference xss).cleared,
      (reference xss).returns⟩ := by
  change (match demuxFresh xs with | some out => _ | none => _) = _
  rw [h]

theorem reference_none {xs : Bytes} {xss : List Bytes} (h : demuxFresh xs = none) :
    reference (xs :: xss) = ⟨[], 0, false⟩ := by
  change (match demuxFresh xs with | some out => _ | none => _) = _
  rw [h]

theorem frames_append (es es' : List Event) : frames (es ++ es') = frames es ++ frames es' :=
  List.filterMap_append

theorem clearings_append (es es' : List Event) :
    clearings (es ++ es') = clearings es + clearings es' :=
  List.count_append

theorem frames_demux (as : List Access) : frames (as.map .demux) = [] := by
  simp [frames, List.filterMap_map]

theorem clearings_demux (as : List Access) : clearings (as.map .demux) = 0 := by
  rw [clearings, List.count_eq_zero]
  simp

theorem frames_appendEvents (r : State) (p : RTPPacket) : frames (appendEvents r p) = [] := by
  unfold appendEvents gapEvents
  split <;> rfl

theorem clearings_appendEvents (r : State) (p : RTPPacket) :
    clearings (appendEvents r p) = 0 := by
  unfold appendEvents gapEvents
  split <;> simp [clearings]

theorem emission_forEach {d : Delivery} {ds : List Delivery} {r s : State}
    (h : (processRTPPacket d.srcdat d.rtppack r).outcome = .ok ((), s)) :
    emission (processAll (d :: ds) r) =
      ⟨frames (processRTPPacket d.srcdat d.rtppack r).events ++ (emission (processAll ds s)).frames,
        clearings (processRTPPacket d.srcdat d.rtppack r).events +
          (emission (processAll ds s)).cleared, (emission (processAll ds s)).returns⟩ := by
  rw [processAll_cons_ok h]
  simp [emission, frames_append, clearings_append]

/-! ## The buffer between two markers -/

/-- The receiver has collected `xs` since the last marker. -/
structure Collecting (r : State) (xs : Bytes) : Prop where
  frameBuffer : r.frameBuffer = (Block.blank BUFFERSIZE).write 0 xs
  bufferSize : r.bufferSize = xs.length
  fits : xs.length ≤ BUFFERSIZE

section Collecting

variable {r : State} {xs : Bytes}

theorem collecting_start (lastSeqNumber : Int) :
    Collecting (emptied lastSeqNumber) [] where
  frameBuffer := (Block.write_nil _ _).symm
  bufferSize := rfl
  fits := Nat.zero_le _

theorem Collecting.room (h : Collecting r xs) {p : RTPPacket}
    (hfit : (xs ++ p.payloadData).length ≤ BUFFERSIZE) : Room r p := by
  rw [List.length_append] at hfit
  rw [Room, h.bufferSize, h.frameBuffer, Block.write_size, Block.blank_size]
  omega

theorem Collecting.appended (h : Collecting r xs) {p : RTPPacket}
    (hfit : (xs ++ p.payloadData).length ≤ BUFFERSIZE) :
    Collecting (r.appended p) (xs ++ p.payloadData) where
  frameBuffer := by
    rw [List.length_append] at hfit
    rw [State.appended, h.frameBuffer, h.bufferSize, ← Block.write_write (by simpa using hfit)]
    simp
  bufferSize := by
    rw [List.length_append] at hfit
    have hmax : BUFFERSIZE = 1048576 := rfl
    simp only [State.appended]
    rw [h.bufferSize, int32_eq_self (by omega) (by omega), List.length_append]
    omega
  fits := hfit

/-- A marker runs the demuxer as on a fresh buffer and starts over with an empty one. -/
theorem Collecting.close (h : Collecting r xs) :
    (∃ out, demuxFresh xs = some out ∧ frames (closeFrame r).events = out ∧
      clearings (closeFrame r).events = 1 ∧
      (closeFrame r).outcome = .ok ((), emptied r.lastSeqNumber)) ∨
    (demuxFresh xs = none ∧ frames (closeFrame r).events = [] ∧
      clearings (closeFrame r).events = 0 ∧ (closeFrame r).outcome = .error .invalid) := by
  have hsame : getH246FromPs r.bufferSize r.frameBuffer =
      getH246FromPs xs.length ((Block.blank BUFFERSIZE).write 0 xs) := by
    rw [h.bufferSize, h.frameBuffer]
  cases hd : (getH246FromPs r.bufferSize r.frameBuffer).outcome with
  | ok t =>
      rcases t with ⟨t, b⟩
      rw [closeFrame_ok hd]
      rw [hsame] at hd
      rcases getH246FromPs_payloads hd with ⟨_, hsize, _, _⟩
      refine .inl ⟨_, by rw [demuxFresh, demuxed, hd]; rfl, ?_, ?_, ?_⟩
      · rw [frames_append, frames_demux]
        simp only [frameEvents]
        split <;> rfl
      · rw [clearings_append, clearings_demux]
        simp only [frameEvents]
        split <;> simp [clearings]
      · simp only
        rw [Block.clear_eq_blank (by rw [hsize]; exact Nat.le_refl _), hsize]
        rfl
  | error e =>
      rw [closeFrame_error hd]
      rw [hsame] at hd
      refine .inr ⟨by rw [demuxFresh, demuxed, hd]; rfl, frames_demux _, clearings_demux _, ?_⟩
      have hne := getH246FromPs_not_exhausted ((Block.blank BUFFERSIZE).write 0 xs) xs.length
      rw [hd] at hne
      cases e with
      | invalid => rfl
      | exhausted => exact absurd rfl hne

end Collecting

/-! ## The receiver equals its reference -/

/-- While the segments fit into the buffer, the run over any packets lets out what
the reference says. -/
theorem emission_reference {ds : List Delivery} {r : State} {xs : Bytes} (h : Collecting r xs)
    (hfit : ∀ ys ∈ collected xs ds, ys.length ≤ BUFFERSIZE) :
    emission (processAll ds r) = reference (collected xs ds).dropLast := by
  induction ds generalizing r xs with
  | nil =>
      rw [collected_done]
      rfl
  | cons d ds ih =>
      cases hm : d.rtppack.hasMarker with
      | false =>
          rw [collected_open hm] at hfit ⊢
          have hxs := length_le_of_collected hfit
          have hrun := processRTPPacket_run d.srcdat (h.room hxs)
          rw [if_neg (by simp [hm])] at hrun
          rw [emission_forEach (by rw [hrun]), hrun, ih (h.appended hxs) hfit]
          simp [frames_appendEvents, clearings_appendEvents]
      | true =>
          rw [collected_marker hm] at hfit
          have hxs := hfit _ List.mem_cons_self
          rw [collected_marker_dropLast hm]
          have hrun := processRTPPacket_run d.srcdat (h.room hxs)
          rw [if_pos hm] at hrun
          rcases (h.appended hxs).close with
            ⟨out, hd, hframes, hclear, hok⟩ | ⟨hd, hframes, hclear, herr⟩
          · rw [reference_some hd, emission_forEach (by rw [hrun]; exact hok), hrun]
            simp only [frames_append, clearings_append, frames_appendEvents, clearings_appendEvents,
              hframes, hclear, List.nil_append, Nat.zero_add]
            rw [ih (collecting_start _) fun ys hy => hfit ys (List.mem_cons_of_mem _ hy)]
          · rw [reference_none hd]
            rw [processAll_cons_error (by rw [hrun]; exact herr), emission, hrun]
            simp only [frames_append, clearings_append, frames_appendEvents, clearings_appendEvents,
              hframes, hclear]
            rfl

/-- From an empty buffer the emitted frames, and the frame on which an invalid access
stops the run, are those of the segments demuxed one by one, each on a fresh buffer.
They are the same for any other packets with the same bytes between the markers. -/
theorem processAll_emission (ds : List Delivery) (lastSeqNumber : Int)
    (hfit : ∀ segment ∈ segments ds, (segmentBytes segment).length ≤ BUFFERSIZE) :
    emission (processAll ds (emptied lastSeqNumber)) =
        reference ((segments ds).map segmentBytes).dropLast ∧
      ∀ (ds' : List Delivery) (lastSeqNumber' : Int),
        (segments ds').map segmentBytes = (segments ds).map segmentBytes →
        emission (processAll ds' (emptied lastSeqNumber')) =
          emission (processAll ds (emptied lastSeqNumber)) := by
  have hrun (ds' : List Delivery) (lastSeqNumber' : Int)
      (heq : (segments ds').map segmentBytes = (segments ds).map segmentBytes) :
      emission (processAll ds' (emptied lastSeqNumber')) =
        reference ((segments ds).map segmentBytes).dropLast := by
    rw [emission_reference (collecting_start lastSeqNumber'), collected_empty, heq]
    intro ys hy
    rw [collected_empty, heq] at hy
    rcases List.mem_map.mp hy with ⟨segment, hs, rfl⟩
    exact hfit segment hs
  refine ⟨hrun ds lastSeqNumber rfl, fun ds' lastSeqNumber' heq => ?_⟩
  rw [hrun ds' lastSeqNumber' heq, hrun ds lastSeqNumber rfl]

/-- A frame in two packets and an unfinished one. -/
def sampleDeliveries : List Delivery :=
  [⟨⟨7⟩, ⟨41, 3600, sampleFrame.bytes.take 20, false⟩⟩,
    ⟨⟨7⟩, ⟨42, 3600, sampleFrame.bytes.drop 20, true⟩⟩,
    ⟨⟨7⟩, ⟨43, 7200, sampleFrame.bytes.take 9, false⟩⟩]

theorem processAll_emission_sample :
    emission (processAll sampleDeliveries (emptied 0)) =
        reference ((segments sampleDeliveries).map segmentBytes).dropLast ∧
      ∀ (ds' : List Delivery) (lastSeqNumber' : Int),
        (segments ds').map segmentBytes = (segments sampleDeliveries).map segmentBytes →
        emission (processAll ds' (emptied lastSeqNumber')) =
          emission (processAll sampleDeliveries (emptied 0)) :=
  processAll_emission sampleDeliveries 0 (by decide)

end SimpleSipClient.RtpRecver
