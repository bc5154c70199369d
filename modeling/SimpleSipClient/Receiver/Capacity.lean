import SimpleSipClient.Receiver.Reassembly

/-! # The capacity of the frame buffer

Nothing bounds the copy into the buffer: the size counter starts with whatever the
constructor finds in memory, grows with every packet and is reset by a marker
only. The appends of a run are inside the buffer when the segments between its
markers fit, the first one behind the initial value of the counter.
-/

namespace SimpleSipClient.RtpRecver

open Foundation PsToH264

/-- How far each segment fills the buffer, if the first starts at `start`. -/
def filled (start : Int) (ds : List Delivery) : List Int :=
  ((segments ds).map fun segment => ((segmentBytes segment).length : Int)).modifyHead (start + ·)

/-- The counter starts inside the buffer and every segment fits. -/
def Fits (start : Int) (ds : List Delivery) : Prop :=
  0 ≤ start ∧ ∀ n ∈ filled start ds, n ≤ BUFFERSIZE

section Fits

variable {start : Int} {d : Delivery} {ds : List Delivery}

theorem filled_done : filled start [] = [start] := by
  simp [filled, segments, segmentBytes]

theorem filled_open (hm : d.rtppack.hasMarker = false) :
    filled start (d :: ds) = filled (start + d.rtppack.payloadData.length) ds := by
  rcases segments_eq_cons ds with ⟨seg, rest, h⟩
  simp [filled, segments_open hm, h, segmentBytes, Int.add_assoc]

theorem filled_marker (hm : d.rtppack.hasMarker = true) :
    filled start (d :: ds) = (start + d.rtppack.payloadData.length) :: filled 0 ds := by
  rcases segments_eq_cons ds with ⟨seg, rest, h⟩
  simp [filled, segments_marker hm, h, segmentBytes]

theorem Fits.start_le (h : Fits start ds) : start ≤ BUFFERSIZE := by
  rcases segments_eq_cons ds with ⟨seg, rest, hs⟩
  have := h.2 (start + (segmentBytes seg).length) (by simp [filled, hs])
  omega

theorem fits_open (hm : d.rtppack.hasMarker = false) :
    Fits start (d :: ds) ↔ 0 ≤ start ∧ Fits (start + d.rtppack.payloadData.length) ds := by
  rw [Fits, Fits, filled_open hm]
  constructor
  · exact fun h => ⟨h.1, by omega, h.2⟩
  · exact fun h => ⟨h.1, h.2.2⟩

theorem fits_marker (hm : d.rtppack.hasMarker = true) :
    Fits start (d :: ds) ↔
      0 ≤ start ∧ start + d.rtppack.payloadData.length ≤ BUFFERSIZE ∧ Fits 0 ds := by
  rw [Fits, Fits, filled_marker hm]
  simp

end Fits

/-! ## Appends over a run -/

/-- The copy into the frame buffer stays inside it. -/
def CopyInside : Event → Prop
  | .memcpy offset payloadData => 0 ≤ offset ∧ offset + payloadData.length ≤ BUFFERSIZE
  | _ => True

def AppendsInside (bufferSize : Int) (ds : List Delivery) : Prop :=
  ∀ e ∈ (processAll ds (rtpRecver bufferSize)).events, CopyInside e

theorem closeFrame_copies {r : State} : ∀ e ∈ (closeFrame r).events, CopyInside e := by
  intro e he
  rcases mem_closeFrame_events he with ⟨_, rfl⟩ | ⟨_, rfl⟩ | rfl <;> trivial

/-- The only copy of a call is that of its packet, at the current size. -/
theorem processRTPPacket_copies {d : Delivery} {r : State} (hsize : r.frameBuffer.size = BUFFERSIZE)
    (h : Room r d.rtppack) :
    ∀ e ∈ (processRTPPacket d.srcdat d.rtppack r).events, CopyInside e := by
  have happend : ∀ e ∈ appendEvents r d.rtppack, CopyInside e := by
    intro e he
    rcases List.mem_append.mp he with he | he
    · unfold gapEvents at he
      split at he
      · rw [List.mem_singleton.mp he]
        trivial
      · simp at he
    · rw [List.mem_singleton.mp he]
      exact ⟨h.1, hsize ▸ h.2⟩
  rw [processRTPPacket_run _ h]
  split
  · intro e he
    rcases List.mem_append.mp he with he | he
    · exact happend e he
    · exact closeFrame_copies e he
  · exact happend

/-- Step lemma: what fits stays so, and its copy is inside the buffer. -/
theorem fits_step {d : Delivery} {ds : List Delivery} {r : State}
    (hsize : r.frameBuffer.size = BUFFERSIZE) (h : Fits r.bufferSize (d :: ds)) :
    Room r d.rtppack ∧ ∀ s, (processRTPPacket d.srcdat d.rtppack r).outcome = .ok ((), s) →
      s.frameBuffer.size = BUFFERSIZE ∧ Fits s.bufferSize ds := by
  have hmax : BUFFERSIZE = 1048576 := rfl
  cases hm : d.rtppack.hasMarker with
  | false =>
      rcases (fits_open hm).mp h with ⟨h0, hrest⟩
      have hle := hrest.start_le
      refine ⟨⟨h0, by omega⟩, fun s hs => ⟨processRTPPacket_size hsize hs, ?_⟩⟩
      rw [(processRTPPacket_state hsize hs).2, hm, if_neg (by simp)]
      simp only [State.appended]
      rwa [int32_eq_self (by omega) (by omega)]
  | true =>
      rcases (fits_marker hm).mp h with ⟨h0, hle, hrest⟩
      refine ⟨⟨h0, by omega⟩, fun s hs => ⟨processRTPPacket_size hsize hs, ?_⟩⟩
      rw [(processRTPPacket_state hsize hs).2, hm, if_pos rfl]
      exact hrest

/-- Run lemma: a run that returns had room for every segment. -/
theorem fits_of_returns {ds : List Delivery} {r s : State}
    (hsize : r.frameBuffer.size = BUFFERSIZE)
    (hr : (processAll ds r).outcome = .ok ((), s)) (hd : ds ≠ []) : Fits r.bufferSize ds := by
  have hmax : BUFFERSIZE = 1048576 := rfl
  induction ds generalizing r with
  | nil => exact absurd rfl hd
  | cons d ds ih =>
      rcases Traced.forEach_cons_returns hr with ⟨t, ht, hrest⟩
      rcases processRTPPacket_state hsize ht with ⟨⟨h0, hle⟩, hstate⟩
      have hnext (n : Int) (hn : t.bufferSize = n) (h0 : 0 ≤ n) (hle : n ≤ BUFFERSIZE) :
          Fits n ds := by
        cases ds with
        | nil => exact ⟨h0, by simpa [filled_done] using hle⟩
        | cons d' ds' => exact hn ▸ ih (processRTPPacket_size hsize ht) hrest (by simp)
      cases hm : d.rtppack.hasMarker with
      | false =>
          rw [hm, if_neg (by simp)] at hstate
          have hcount : t.bufferSize = r.bufferSize + d.rtppack.payloadData.length := by
            rw [hstate, State.appended, int32_eq_self (by omega) (by omega)]
          exact (fits_open hm).mpr ⟨h0, hnext _ hcount (by omega) (by omega)⟩
      | true =>
          rw [hm, if_pos rfl] at hstate
          have hcount : t.bufferSize = 0 := by rw [hstate]; rfl
          exact (fits_marker hm).mpr ⟨h0, by omega, hnext 0 hcount (by omega) (by omega)⟩

/-- A run whose segments fit has all its copies inside the buffer, and no other run
with a packet in it returns. -/
theorem appends_inside_when (bufferSize : Int) (ds : List Delivery) :
    (Fits bufferSize ds → AppendsInside bufferSize ds) ∧
      ∀ s, ds ≠ [] → (processAll ds (rtpRecver bufferSize)).outcome = .ok ((), s) →
        Fits bufferSize ds := by
  refine ⟨fun hfit => ?_, fun s hd hr => ?_⟩
  · exact (Traced.forEach_invariant
      (I := fun ds r => r.frameBuffer.size = BUFFERSIZE ∧ Fits r.bufferSize ds)
      (fun d ds r ⟨hsize, hfit⟩ => by
        rcases fits_step hsize hfit with ⟨hroom, hnext⟩
        exact ⟨processRTPPacket_copies hsize hroom, hnext⟩)
      (s := rtpRecver bufferSize) ⟨rfl, hfit⟩).1
  · exact fits_of_returns (r := rtpRecver bufferSize) rfl hr hd

theorem appends_inside_when_sample :
    (Fits 0 sampleDeliveries ∧ AppendsInside 0 sampleDeliveries) ∧
      ∃ s, (processAll sampleDeliveries (rtpRecver 0)).outcome = .ok ((), s) := by
  have hfits : Fits 0 sampleDeliveries := ⟨by decide, by decide⟩
  refine ⟨⟨hfits, (appends_inside_when 0 sampleDeliveries).1 hfits⟩, ?_⟩
  exact Traced.returns_of_isOk (by decide +kernel)

/-! ## Two ways out of the buffer -/

theorem filled_markerless {ds : List Delivery} {start : Int}
    (h : ∀ d ∈ ds, d.rtppack.hasMarker = false) :
    filled start ds = [start + (ds.map fun d => d.rtppack.payloadData.length).sum] := by
  induction ds generalizing start with
  | nil => simp [filled_done]
  | cons d ds ih =>
      rw [filled_open (h d List.mem_cons_self), ih fun d hd => h d (List.mem_cons_of_mem _ hd)]
      simp [Int.add_assoc]

/-- Without markers the demuxer is never called, so a run whose copies are all inside
the buffer returns. -/
theorem returns_of_markerless {ds : List Delivery} {r : State}
    (hsize : r.frameBuffer.size = BUFFERSIZE) (h : ∀ d ∈ ds, d.rtppack.hasMarker = false)
    (hin : ∀ e ∈ (processAll ds r).events, CopyInside e) :
    ∃ s, (processAll ds r).outcome = .ok ((), s) := by
  induction ds generalizing r with
  | nil => exact ⟨r, rfl⟩
  | cons d ds ih =>
      by_cases hroom : Room r d.rtppack
      · have hrun := processRTPPacket_run d.srcdat hroom
        rw [if_neg (by simp [h d List.mem_cons_self])] at hrun
        rw [processAll_cons_ok (congrArg Exec.outcome hrun)] at hin ⊢
        exact ih hsize (fun d hd => h d (List.mem_cons_of_mem _ hd))
          fun e he => hin e (List.mem_append_right _ he)
      · have hrun := processRTPPacket_outside d.srcdat hroom
        rw [processAll_cons_error (congrArg Exec.outcome hrun), hrun] at hin
        have := hin (.memcpy r.bufferSize d.rtppack.payloadData) (by simp [appendEvents])
        exact absurd ⟨this.1, hsize ▸ this.2⟩ hroom

/-- 65000 payload bytes without the marker bit. -/
def longPacket : Delivery := ⟨⟨7⟩, ⟨1, 0, List.replicate 65000 0, false⟩⟩

/-- The first packet after construction is copied to whatever offset the counter holds,
and seventeen long packets without a marker are copied beyond the end. -/
theorem appends_not_inside :
    ¬ AppendsInside (-1) [⟨⟨7⟩, ⟨1, 0, [0], false⟩⟩] ∧
      ¬ AppendsInside 0 (List.replicate 17 longPacket) := by
  constructor
  · intro hin
    have := hin (.memcpy (-1) [0]) (by decide)
    exact absurd this.1 (by decide)
  · intro hin
    have hopen : ∀ d ∈ List.replicate 17 longPacket, d.rtppack.hasMarker = false := by
      intro d hd
      rw [List.eq_of_mem_replicate hd]
      rfl
    rcases returns_of_markerless (r := rtpRecver 0) rfl hopen hin with ⟨s, hs⟩
    have hfits : Fits 0 _ := fits_of_returns (r := rtpRecver 0) rfl hs (by simp)
    have hlen : longPacket.rtppack.payloadData.length = 65000 := List.length_replicate
    have hle := hfits.2 (0 + 17 * 65000) (by
      rw [filled_markerless hopen, List.map_replicate, hlen]
      decide)
    exact absurd hle (by decide)

end SimpleSipClient.RtpRecver
