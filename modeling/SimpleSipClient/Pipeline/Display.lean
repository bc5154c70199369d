import SimpleSipClient.Pipeline.Frames
import SimpleSipClient.Receiver.Streams

/-! # From the sent frame to the shown picture

What was sent to a receiver comes to the decoder frame by frame, and the label shows the last
picture that the decoder got.
-/

namespace SimpleSipClient.Pipeline

open Foundation RtpRecver

/-! ## Sent frames -/

section Streams

variable {garbage : Bool} {library : Decoder.Library}

/-- Of a receiver that found its counter at zero, and to which the marker packet of every frame
comes, the decoder gets what is received of each frame by itself. -/
theorem stream_decoded (r : Run perform possible (client garbage library)) {s : State}
    (hs : r.EndsIn s) {k : Nat} {ts : List Transmission} {rest : List Delivery}
    (hstart : (started r.inputs)[k]? = some 0)
    (hpackets : packetsOf k r.inputs = arrivals ts ++ rest) (hclosed : ∀ t ∈ ts, t.Closed)
    (hopen : ∀ d ∈ rest, d.rtppack.hasMarker = false)
    (hfit : ∀ t ∈ ts, t.sent.frame.bytes.length ≤ BUFFERSIZE) :
    Streamed ts (ofRecver k (handed r.events ++ s.posted)) := by
  obtain ⟨⟨u, hu⟩, hown⟩ := own_of_run r hs hstart
  have hempty : rtpRecver 0 = emptied 0 := rfl
  rw [hpackets, hempty] at hu hown
  rw [fifo_of_run r hs, hown]
  exact streamed_of_eq hfit (frames_of_stream hclosed hopen hfit hu)

end Streams

/-- The first frame of the first receiver loses a packet without a marker, the second one comes
whole, and a third one has begun. The second receiver's packets come between. -/
def lossyInputs : List Input :=
  [.play 0 true allCallsSucceed, .play 0 true allCallsSucceed,
    .packet 0 (sampleSent 1).marked,
    .packet 1 ⟨⟨8⟩, ⟨900, 0, PsToH264.sampleFrame.bytes.take 50, false⟩⟩,
    .packet 0 ⟨⟨7⟩, ⟨3, 0, PsToH264.sampleFrame.bytes.take 40, false⟩⟩,
    .packet 1 ⟨⟨8⟩, ⟨901, 0, PsToH264.sampleFrame.bytes.drop 50, true⟩⟩,
    .packet 0 (sampleSent 3).marked,
    .deliver sampleAnswer,
    .packet 0 ⟨⟨7⟩, ⟨5, 0, PsToH264.sampleFrame.bytes.take 40, false⟩⟩]

def lossyRun : Run perform possible (client true Decoder.library) :=
  ⟨lossyInputs, by decide +kernel⟩

theorem lossyRun_ends : ∃ s, lossyRun.EndsIn s :=
  Traced.returns_of_isOk (by decide +kernel)

/-- What of these frames comes to the first receiver. -/
def lossyStream : List Transmission := [onlyMarked (sampleSent 1), undamaged (sampleSent 3)]

theorem stream_decoded_lossy : ∃ s, lossyRun.EndsIn s ∧
    Streamed lossyStream (ofRecver 0 (handed lossyRun.events ++ s.posted)) := by
  obtain ⟨s, hs⟩ := lossyRun_ends
  have hpackets : packetsOf 0 lossyRun.inputs =
      arrivals lossyStream ++ (sampleSent 5).unmarked := rfl
  have hclosed : ∀ t ∈ lossyStream, t.Closed := by
    simp [lossyStream, Transmission.Closed, onlyMarked, undamaged, SentFrame.packets]
  have hfit : ∀ t ∈ lossyStream, t.sent.frame.bytes.length ≤ BUFFERSIZE := by decide
  exact ⟨s, hs, stream_decoded lossyRun hs rfl hpackets hclosed (sampleSent 5).unmarked_open hfit⟩

/-! ## The shown picture -/

/-- The answers that gave the decoder a picture. -/
def pictured (xs : List Input) : List Answer := (answers xs).filter fun a => a.received.decoded

/-- What is shown for a picture that fits the context is the converted picture. -/
def Pictured (convert : Decoder.Conversion) (a : Answer) (img : Decoder.QImage) : Prop :=
  Decoder.FitsContext a.received → Decoder.Shows convert img a.received.frame

/-- The decoder was called on the first of the emitted frames, as often as it was answered. It
emitted one image for each answer with a picture, and the label shows the last one. -/
structure Displayed (convert : Decoder.Conversion) (xs : List Input) (es : List Event)
    (s : State) : Prop where
  calls : handed es = (emitted es).take (answers xs).length
  last : s.curImage = (shown es).getLast?
  shows : List.Forall₂ (Pictured convert) (pictured xs) (shown es)

/-- The decoder is as `init` left it, and its RGB buffer is as large as the conversion needs. -/
structure Ready (library : Decoder.Library) (s : State) : Prop where
  decoder : s.avDecoder = Decoder.init library
  rgb : s.rgb.size = Decoder.rgbSize 1920 1080

section Pictures

variable {library : Decoder.Library} {s t : State}

theorem decode_pictured {d : Decoder.State} {a : Answer} (h : Ready library s)
    (hd : Decoder.init library = .ok d) (ht : (decode d a s).outcome = .ok ((), t)) :
    Ready library t ∧ List.Forall₂ (Pictured library.convert) (pictured [.deliver a])
      (shown (decode d a s).events) := by
  by_cases hdec : a.received.decoded = true
  · have hrgb : s.rgb.size = d.rgbBuffer := by
      rw [h.rgb, (Decoder.init_prepared hd).buffer]
      rfl
    have hin := inside_of_returns hdec ht
    rw [decode_run hdec hin] at ht ⊢
    cases ht
    have hone : pictured [.deliver a] = [a] := by simp [pictured, answers, hdec]
    rw [hone, shown_append, shown_performed]
    refine ⟨⟨h.decoder, ?_⟩, .cons (fun hfits => ?_) .nil⟩
    · rw [← h.rgb]
      exact Block.writeRows_size _
    · have hshows := hfits.image_shows (Decoder.init_prepared hd) a.fresh hrgb
      rwa [Decoder.eq_of_init hd] at hshows ⊢
  · rw [decode_skips hdec] at ht ⊢
    cases ht
    have hnone : pictured [.deliver a] = [] := by simp [pictured, answers, hdec]
    rw [hnone]
    exact ⟨h, .nil⟩

theorem inSlots_pictured {x : Playback.Slot Unit} (h : Ready library s)
    (ht : (inSlots x s).outcome = .ok ((), t)) :
    Ready library t ∧ List.Forall₂ (Pictured library.convert) [] (shown (inSlots x s).events) := by
  obtain ⟨slots, -, rfl, hevents⟩ := inSlots_returns ht
  rw [hevents, shown_slot]
  exact ⟨⟨h.decoder, h.rgb⟩, .nil⟩

theorem inRecvers_pictured {m : Move Delivery RtpRecver.State} (h : Ready library s)
    (ht : (inRecvers m s).outcome = .ok ((), t)) :
    Ready library t ∧
      List.Forall₂ (Pictured library.convert) [] (shown (inRecvers m s).events) := by
  obtain ⟨recvers, -, rfl, hevents⟩ := inRecvers_returns ht
  rw [hevents, shown_recver]
  exact ⟨⟨h.decoder, h.rgb⟩, .nil⟩

theorem perform_pictured {x : Input} (h : Ready library s) (hp : possible s x = true)
    (ht : (perform x s).outcome = .ok ((), t)) :
    Ready library t ∧
      List.Forall₂ (Pictured library.convert) (pictured [x]) (shown (perform x s).events) := by
  cases x with
  | play bufferSize create o =>
      obtain ⟨⟨⟩, u, hu, ht⟩ := Traced.bind_outcome_ok.mp ht
      obtain ⟨hcreated, hfirst⟩ := inRecvers_pictured h hu
      obtain ⟨hready, hrest⟩ := inSlots_pictured hcreated ht
      rw [perform, Traced.bind_ok hu, shown_append]
      exact ⟨hready, List.rel_append hfirst hrest⟩
  | stop o => exact inSlots_pictured h ht
  | remote k e => exact inSlots_pictured h ht
  | finished k => exact inSlots_pictured h ht
  | packet k d => exact inRecvers_pictured h ht
  | deliver a =>
      obtain ⟨d, buff, posted, hd, hs⟩ := deliver_returns hp ht
      rw [perform, deliver_run hd hs] at ht ⊢
      have hready : Ready library { s with posted } := ⟨h.decoder, h.rgb⟩
      exact decode_pictured hready (h.decoder.symm.trans hd) ht

/-- Run lemma. -/
theorem forEach_pictured {xs : List Input} (h : Ready library s)
    (hp : ∀ v ∈ Traced.visits perform xs s, possible v.2 v.1 = true)
    (ht : (Traced.forEach perform xs s).outcome = .ok ((), t)) :
    List.Forall₂ (Pictured library.convert) (pictured xs)
      (shown (Traced.forEach perform xs s).events) := by
  induction xs generalizing s with
  | nil => exact .nil
  | cons x xs ih =>
      obtain ⟨u, hx, hxs⟩ := Traced.forEach_cons_returns ht
      rw [Traced.visits_ok hx, List.forall_mem_cons] at hp
      obtain ⟨hready, hfirst⟩ := perform_pictured h hp.1 hx
      have hsplit : pictured (x :: xs) = pictured [x] ++ pictured xs := by
        rw [pictured, pictured, pictured, ← List.filter_append]
        exact congrArg (List.filter _) (List.filterMap_append (l := [x]))
      rw [Traced.forEach_ok hx, shown_append, hsplit]
      exact List.rel_append hfirst (ih hready hp.2 hxs)

end Pictures

theorem displayed {garbage : Bool} {library : Decoder.Library}
    (r : Run perform possible (client garbage library)) {s : State} (hs : r.EndsIn s) :
    Displayed library.convert r.inputs r.events s := by
  have heffect := forEach_effect r.each_possible hs
  constructor
  case calls =>
    have htaken : (handed r.events).length = (answers r.inputs).length := heffect.taken
    rw [← fifo_of_run r hs, ← htaken, List.take_left]
  case last =>
    have hblank : (client garbage library).curImage = none := rfl
    rw [heffect.image, hblank, Option.or_none]
    rfl
  case shows =>
    have hready : Ready library (client garbage library) := ⟨rfl, Decoder.allocate_size _ _⟩
    exact forEach_pictured hready r.each_possible hs

theorem displayed_lossy :
    ∃ s, lossyRun.EndsIn s ∧
    Displayed Decoder.library.convert lossyRun.inputs lossyRun.events s := by
  obtain ⟨s, hs⟩ := lossyRun_ends
  exact ⟨s, hs, displayed lossyRun hs⟩

end SimpleSipClient.Pipeline
