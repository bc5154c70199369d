import Mathlib.Data.List.Chain
import SimpleSipClient.Receiver.Reassembly

/-! # Late and duplicate packets

The receiver compares the number of a packet with the one before it for a log line
only. Whatever is handed over is appended, once and in this order, and its number is
stored. So the numbers in a frame increase exactly when the packets were handed over
like this.
-/

namespace SimpleSipClient.RtpRecver

open Foundation PsToH264

/-! ## Observations -/

/-- The payloads that are copied into the frame buffer. -/
def copies (es : List Event) : List Bytes :=
  es.filterMap fun
    | .memcpy _ payloadData => some payloadData
    | _ => none

/-- The gaps that are reported, with the number of the packet. -/
def reports (es : List Event) : List (UInt32 × Nat) :=
  es.filterMap fun
    | .gotPacketError extendedSequenceNumber gap _ => some (extendedSequenceNumber, gap)
    | _ => none

/-- The deliveries whose payload is copied into the frame buffer. -/
def copiedBy : List Delivery → State → List Delivery
  | [], _ => []
  | d :: ds, r =>
      (if copies (processRTPPacket d.srcdat d.rtppack r).events = [] then [] else [d]) ++
        match (processRTPPacket d.srcdat d.rtppack r).outcome with
        | .ok (_, s) => copiedBy ds s
        | .error _ => []

/-! ## Order of numbers -/

/-- The number comes after the last one, modulo 2^32. -/
def After (extendedSequenceNumber : UInt32) (lastSeqNumber : Int) : Prop :=
  0 < sequenceGap extendedSequenceNumber lastSeqNumber ∧
    sequenceGap extendedSequenceNumber lastSeqNumber < 2147483648

instance (extendedSequenceNumber : UInt32) (lastSeqNumber : Int) :
    Decidable (After extendedSequenceNumber lastSeqNumber) :=
  inferInstanceAs (Decidable (_ ∧ _))

/-- `m_lastSeqNumber` behind a sequence of packets. -/
def lastNumber (lastSeqNumber : Int) (ds : List Delivery) : Int :=
  ds.foldl (fun _ d => int32 d.rtppack.extendedSequenceNumber.toNat) lastSeqNumber

theorem lastNumber_cons (lastSeqNumber : Int) (d : Delivery) (ds : List Delivery) :
    lastNumber lastSeqNumber (d :: ds) =
      lastNumber (int32 d.rtppack.extendedSequenceNumber.toNat) ds := by
  rw [lastNumber, List.foldl_cons, lastNumber]

/-- Every number comes after the one in front of it. -/
def InOrder (lastSeqNumber : Int) : List Delivery → Prop
  | [] => True
  | d :: ds => After d.rtppack.extendedSequenceNumber lastSeqNumber ∧
      InOrder (int32 d.rtppack.extendedSequenceNumber.toNat) ds

/-- The gaps between neighbours that are neither zero nor one. -/
def gaps (lastSeqNumber : Int) : List Delivery → List (UInt32 × Nat)
  | [] => []
  | d :: ds =>
      (if sequenceGap d.rtppack.extendedSequenceNumber lastSeqNumber > 1 then
        [(d.rtppack.extendedSequenceNumber,
          sequenceGap d.rtppack.extendedSequenceNumber lastSeqNumber)]
      else []) ++ gaps (int32 d.rtppack.extendedSequenceNumber.toNat) ds

/-- The payloads of a frame come in increasing order, and a packet that is not after
the last one is neither appended nor moves the last number. -/
structure LateSafe (ds : List Delivery) (lastSeqNumber : Int) : Prop where
  ordered : ∀ segment ∈ segments (copiedBy ds (emptied lastSeqNumber)),
    segment.IsChain fun d d' => After d'.rtppack.extendedSequenceNumber
      (int32 d.rtppack.extendedSequenceNumber.toNat)
  ignored : ∀ before d after r, ds = before ++ d :: after →
    (processAll before (emptied lastSeqNumber)).outcome = .ok ((), r) →
    ¬ After d.rtppack.extendedSequenceNumber r.lastSeqNumber →
    copies (processRTPPacket d.srcdat d.rtppack r).events = [] ∧
      ∀ s, (processRTPPacket d.srcdat d.rtppack r).outcome = .ok ((), s) →
        s.lastSeqNumber = r.lastSeqNumber

/-! ## What a run copies -/

theorem copies_append (es es' : List Event) : copies (es ++ es') = copies es ++ copies es' :=
  List.filterMap_append

theorem reports_append (es es' : List Event) :
    reports (es ++ es') = reports es ++ reports es' :=
  List.filterMap_append

theorem copies_closeFrame (r : State) : copies (closeFrame r).events = [] :=
  filterMap_closeFrame r (fun _ => rfl) (fun _ => rfl) rfl

theorem reports_closeFrame (r : State) : reports (closeFrame r).events = [] :=
  filterMap_closeFrame r (fun _ => rfl) (fun _ => rfl) rfl

section Step

variable {d : Delivery} {r s : State}

/-- Step lemma: whatever its number, a packet is copied once and its number stored. -/
theorem processRTPPacket_unchecked (hsize : r.frameBuffer.size = BUFFERSIZE)
    (hok : (processRTPPacket d.srcdat d.rtppack r).outcome = .ok ((), s)) :
    copies (processRTPPacket d.srcdat d.rtppack r).events = [d.rtppack.payloadData] ∧
      reports (processRTPPacket d.srcdat d.rtppack r).events = gaps r.lastSeqNumber [d] ∧
      s.lastSeqNumber = int32 d.rtppack.extendedSequenceNumber.toNat := by
  rcases processRTPPacket_state hsize hok with ⟨hroom, hstate⟩
  have hcopies : copies (appendEvents r d.rtppack) = [d.rtppack.payloadData] := by
    unfold appendEvents gapEvents
    split <;> rfl
  have hreports : reports (appendEvents r d.rtppack) = gaps r.lastSeqNumber [d] := by
    unfold appendEvents gapEvents
    simp only [gaps]
    split <;> rfl
  refine ⟨?_, ?_, ?_⟩
  · rw [processRTPPacket_run _ hroom]
    split
    · rw [copies_append, hcopies, copies_closeFrame, List.append_nil]
    · exact hcopies
  · rw [processRTPPacket_run _ hroom]
    split
    · rw [reports_append, hreports, reports_closeFrame, List.append_nil]
    · exact hreports
  · rw [hstate]
    split <;> rfl

/-- Run lemma. -/
theorem processAll_unchecked {ds : List Delivery} (hsize : r.frameBuffer.size = BUFFERSIZE)
    (hok : (processAll ds r).outcome = .ok ((), s)) :
    copiedBy ds r = ds ∧
      copies (processAll ds r).events = ds.map (fun d => d.rtppack.payloadData) ∧
      reports (processAll ds r).events = gaps r.lastSeqNumber ds ∧
      s.lastSeqNumber = lastNumber r.lastSeqNumber ds := by
  induction ds generalizing r with
  | nil =>
      cases hok
      exact ⟨rfl, rfl, rfl, rfl⟩
  | cons d ds ih =>
      rcases Traced.forEach_cons_returns hok with ⟨t, ht, hrest⟩
      rcases processRTPPacket_unchecked hsize ht with ⟨hcopies, hreports, hlast⟩
      rcases ih (processRTPPacket_size hsize ht) hrest with ⟨hby, hcopies', hreports', hlast'⟩
      rw [hlast] at hreports' hlast'
      refine ⟨?_, ?_, ?_, by rw [lastNumber_cons, hlast']⟩
      · rw [copiedBy, hcopies, ht, if_neg (by simp)]
        simp [hby]
      · rw [processAll_cons_ok ht, copies_append, hcopies, hcopies']
        rfl
      · rw [processAll_cons_ok ht, reports_append, hreports, hreports', gaps, gaps, gaps,
          List.append_nil]

end Step

/-! ## When the order of a frame is right -/

theorem inOrder_iff {ds : List Delivery} {lastSeqNumber : Int} :
    InOrder lastSeqNumber ds ↔ ∀ before d after, ds = before ++ d :: after →
      After d.rtppack.extendedSequenceNumber (lastNumber lastSeqNumber before) := by
  induction ds generalizing lastSeqNumber with
  | nil => simp [InOrder]
  | cons d ds ih =>
      rw [InOrder, ih]
      constructor
      · rintro ⟨hd, hds⟩ before e after heq
        rcases before with _ | ⟨b, before⟩
        · cases heq
          exact hd
        · cases heq
          rw [lastNumber_cons]
          exact hds before e after rfl
      · intro h
        refine ⟨h [] d ds rfl, fun before e after heq => ?_⟩
        rw [← lastNumber_cons lastSeqNumber]
        exact h (d :: before) e after (by rw [heq, List.cons_append])

/-- Packets in order are in order within each frame. -/
theorem segments_inOrder {ds : List Delivery} {lastSeqNumber : Int} (h : InOrder lastSeqNumber ds) :
    (∀ segment ∈ segments ds, segment.IsChain fun d d' => After d'.rtppack.extendedSequenceNumber
      (int32 d.rtppack.extendedSequenceNumber.toNat)) ∧
    ∀ segment ∈ (segments ds).head?, ∀ d ∈ segment.head?,
      After d.rtppack.extendedSequenceNumber lastSeqNumber := by
  induction ds generalizing lastSeqNumber with
  | nil => simp [segments]
  | cons d ds ih =>
      rcases h with ⟨hd, hds⟩
      rcases ih hds with ⟨hchain, hfirst⟩
      cases hm : d.rtppack.hasMarker with
      | true =>
          rw [segments_marker hm]
          refine ⟨fun segment hs => ?_, fun segment hs e he => ?_⟩
          · rcases List.mem_cons.mp hs with rfl | hs
            · exact List.IsChain.singleton d
            · exact hchain segment hs
          · cases hs
            cases he
            exact hd
      | false =>
          rcases segments_eq_cons ds with ⟨front, rest, hfront⟩
          rw [segments_open hm, hfront, List.modifyHead_cons]
          refine ⟨fun segment hs => ?_, fun segment hs e he => ?_⟩
          · rcases List.mem_cons.mp hs with rfl | hs
            · exact List.isChain_cons.mpr ⟨fun e he => hfirst front (by simp [hfront]) e he,
                hchain front (by simp [hfront])⟩
            · exact hchain segment (hfront ▸ List.mem_cons_of_mem _ hs)
          · cases hs
            cases he
            exact hd

/-- In a run that returns, frames are safe from late packets when none is handed over. -/
theorem lateSafe_iff_inOrder {ds : List Delivery} {lastSeqNumber : Int} {t : State}
    (hok : (processAll ds (emptied lastSeqNumber)).outcome = .ok ((), t)) :
    LateSafe ds lastSeqNumber ↔ InOrder lastSeqNumber ds := by
  have hsize : (emptied lastSeqNumber).frameBuffer.size = BUFFERSIZE := rfl
  have hlast : ∀ before r, (processAll before (emptied lastSeqNumber)).outcome = .ok ((), r) →
      r.lastSeqNumber = lastNumber lastSeqNumber before :=
    fun before r hr => (processAll_unchecked hsize hr).2.2.2
  constructor
  · intro hsafe
    refine inOrder_iff.mpr fun before d after heq => ?_
    rw [heq] at hok
    rcases Traced.forEach_append_returns hok with ⟨r, hr, hrest⟩
    rcases Traced.forEach_cons_returns hrest with ⟨s, hs, _⟩
    by_contra hlate
    rw [← hlast before r hr] at hlate
    have hnone := (hsafe.ignored before d after r heq hr hlate).1
    rw [(processRTPPacket_unchecked (processAll_size hsize hr) hs).1] at hnone
    cases hnone
  · intro horder
    refine ⟨?_, fun before d after r heq hr hlate => ?_⟩
    · rw [(processAll_unchecked hsize hok).1]
      exact (segments_inOrder horder).1
    · rw [hlast before r hr] at hlate
      exact absurd (inOrder_iff.mp horder before d after heq) hlate

/-- In a run without invalid accesses every packet is appended once, in the order of
the calls and whatever its number; the number of the last call is the one that is
stored, and the log names the packets whose number is neither the stored one nor the
next. So the frames are safe from late packets exactly when none is handed over. -/
theorem handed_over_unchecked (ds : List Delivery) (lastSeqNumber : Int)
    (hreturns : (processAll ds (emptied lastSeqNumber)).outcome.isOk = true) :
    copiedBy ds (emptied lastSeqNumber) = ds ∧
      copies (processAll ds (emptied lastSeqNumber)).events =
        ds.map (fun d => d.rtppack.payloadData) ∧
      reports (processAll ds (emptied lastSeqNumber)).events = gaps lastSeqNumber ds ∧
      (∀ s, (processAll ds (emptied lastSeqNumber)).outcome = .ok ((), s) →
        s.lastSeqNumber = lastNumber lastSeqNumber ds) ∧
      (LateSafe ds lastSeqNumber ↔ InOrder lastSeqNumber ds) := by
  rcases Traced.returns_of_isOk hreturns with ⟨t, ht⟩
  obtain ⟨hby, hcopies, hreports, hlast⟩ :=
    processAll_unchecked (r := emptied lastSeqNumber) rfl ht
  refine ⟨hby, hcopies, hreports, fun s hs => ?_, lateSafe_iff_inOrder ht⟩
  rw [ht] at hs
  cases hs
  exact hlast

/-- A packet that comes late and a duplicate, then the marker. -/
def lateDeliveries : List Delivery :=
  [⟨⟨7⟩, ⟨2, 0, [0x65], false⟩⟩, ⟨⟨7⟩, ⟨1, 0, [0x67], false⟩⟩, ⟨⟨7⟩, ⟨1, 0, [0x67], false⟩⟩,
    ⟨⟨7⟩, ⟨3, 0, List.replicate 14 0, true⟩⟩]

theorem late_not_safe : ¬ LateSafe lateDeliveries 0 := by
  intro h
  have hchain := h.ordered lateDeliveries (by decide +kernel)
  revert hchain
  decide

theorem handed_over_unchecked_late :
    copiedBy lateDeliveries (emptied 0) = lateDeliveries ∧
      copies (processAll lateDeliveries (emptied 0)).events =
        lateDeliveries.map (fun d => d.rtppack.payloadData) ∧
      reports (processAll lateDeliveries (emptied 0)).events = gaps 0 lateDeliveries ∧
      (∀ s, (processAll lateDeliveries (emptied 0)).outcome = .ok ((), s) →
        s.lastSeqNumber = lastNumber 0 lateDeliveries) ∧
      (LateSafe lateDeliveries 0 ↔ InOrder 0 lateDeliveries) :=
  handed_over_unchecked lateDeliveries 0 (by decide +kernel)

end SimpleSipClient.RtpRecver
