import SimpleSipClient.Receiver.Reassembly

/-! # Several sources

The receive loop visits every source with data, but there is one buffer for all of
them. As long as the loop changes the source behind a marker only, each source gets
the frames that it would get alone. The proof runs the receiver next to one that sees
the packets of a single source.
-/

namespace SimpleSipClient.RtpRecver

open Foundation PsToH264

/-! ## The receive loop -/

/-- The loops over polls, sources and packets are one run over all packets. -/
theorem run_eq (polls : List Poll) : run polls = processAll (deliveries polls) := by
  unfold run processAll deliveries
  rw [Traced.forEach_flatMap]
  congr 1
  funext poll
  rw [Traced.forEach_flatMap]
  congr 1
  funext source
  rw [Traced.forEach_map]

/-- The same polls, if only one source had sent anything. -/
def onlySource (srcdat : RTPSourceData) (polls : List Poll) : List Poll :=
  polls.map fun poll => poll.filter fun source => source.1 = srcdat

theorem deliveries_onlySource (srcdat : RTPSourceData) (polls : List Poll) :
    deliveries (onlySource srcdat polls) =
      (deliveries polls).filter fun d => d.srcdat = srcdat := by
  have hpoll (poll : Poll) :
      (poll.filter fun source => source.1 = srcdat).flatMap
          (fun source => source.2.map (Delivery.mk source.1)) =
        (poll.flatMap fun source => source.2.map (Delivery.mk source.1)).filter
          fun d => d.srcdat = srcdat := by
    induction poll with
    | nil => rfl
    | cons source poll ih =>
        have hone : (source.2.map (Delivery.mk source.1)).filter (fun d => d.srcdat = srcdat) =
            if source.1 = srcdat then source.2.map (Delivery.mk source.1) else [] := by
          split
          · rename_i h
            exact List.filter_eq_self.mpr (by simp [h])
          · rename_i h
            exact List.filter_eq_nil_iff.mpr (by simp [h])
        rw [List.flatMap_cons, List.filter_append, ← ih, hone]
        by_cases h : source.1 = srcdat
        · simp [h]
        · simp [h]
  unfold deliveries onlySource
  rw [List.flatMap_map, List.filter_flatMap]
  simp only [hpoll]

/-- The emitted frames with the source whose packet was being processed. -/
def emittedBy : List Delivery → State → List (RTPSourceData × Bytes)
  | [], _ => []
  | d :: ds, r =>
      (frames (processRTPPacket d.srcdat d.rtppack r).events).map (Prod.mk d.srcdat) ++
        match (processRTPPacket d.srcdat d.rtppack r).outcome with
        | .ok (_, s) => emittedBy ds s
        | .error _ => []

theorem emittedBy_frames (ds : List Delivery) (r : State) :
    (emittedBy ds r).map Prod.snd = frames (processAll ds r).events := by
  induction ds generalizing r with
  | nil => rfl
  | cons d ds ih =>
      cases h : (processRTPPacket d.srcdat d.rtppack r).outcome with
      | error e =>
          rw [processAll_cons_error h, emittedBy, h]
          simp [Function.comp_def]
      | ok t =>
          rcases t with ⟨⟨⟩, t⟩
          rw [processAll_cons_ok h, emittedBy, h, frames_append]
          simp [ih, Function.comp_def]

/-! ## One source among others -/

/-- Every source gets the frames that it would get alone, and no frame is made of
packets of two sources. -/
structure AssembledPerSource (polls : List Poll) (lastSeqNumber : Int) : Prop where
  emitted : ∀ srcdat : RTPSourceData,
    ((emittedBy (deliveries polls) (emptied lastSeqNumber)).filter
      fun e => e.1 = srcdat).map Prod.snd =
    frames (run (onlySource srcdat polls) (emptied lastSeqNumber)).events
  unmixed : ∀ segment ∈ segments (deliveries polls), ∀ d ∈ segment, ∀ d' ∈ segment,
    d.srcdat = d'.srcdat

/-- The source whose frame is open behind a packet. -/
def openBehind (d : Delivery) : Option RTPSourceData :=
  if d.rtppack.hasMarker then none else some d.srcdat

/-- While a frame is open, packets come from its source only. -/
def Undivided : Option RTPSourceData → List Delivery → Prop
  | _, [] => True
  | current, d :: ds => (∀ srcdat ∈ current, d.srcdat = srcdat) ∧ Undivided (openBehind d) ds

/-- Two receivers that have collected the same. -/
structure Same (r s : State) : Prop where
  frameBuffer : r.frameBuffer = s.frameBuffer
  bufferSize : r.bufferSize = s.bufferSize

theorem same_of_emptied {r s : State} (hr : r = emptied r.lastSeqNumber)
    (hs : s = emptied s.lastSeqNumber) : Same r s := by
  rw [hr, hs]
  exact ⟨rfl, rfl⟩

/-- The sequence number has no influence on what a call emits and collects. -/
theorem Same.step {r s r' : State} (h : Same r s) {srcdat : RTPSourceData} {p : RTPPacket}
    (hsize : r.frameBuffer.size = BUFFERSIZE)
    (hok : (processRTPPacket srcdat p r).outcome = .ok ((), r')) :
    ∃ s', (processRTPPacket srcdat p s).outcome = .ok ((), s') ∧ Same r' s' ∧
      frames (processRTPPacket srcdat p r).events =
        frames (processRTPPacket srcdat p s).events := by
  have hroom := (processRTPPacket_state hsize hok).1
  have hroom' : Room s p := by
    unfold Room at hroom ⊢
    rwa [← h.bufferSize, ← h.frameBuffer]
  have happ : Same (r.appended p) (s.appended p) := by
    unfold State.appended
    rw [h.bufferSize, h.frameBuffer]
    exact ⟨rfl, rfl⟩
  rw [processRTPPacket_run _ hroom] at hok ⊢
  rw [processRTPPacket_run _ hroom']
  split at hok
  · rename_i hm
    rw [if_pos hm, if_pos hm]
    simp only [frames_append, frames_appendEvents, List.nil_append]
    cases hd : (getH246FromPs (r.appended p).bufferSize (r.appended p).frameBuffer).outcome with
    | error e =>
        rw [closeFrame_error hd] at hok
        cases hok
    | ok t =>
        rcases t with ⟨t, b⟩
        have hd' := hd
        rw [happ.bufferSize, happ.frameBuffer] at hd'
        rw [closeFrame_ok hd] at hok ⊢
        rw [closeFrame_ok hd']
        cases hok
        refine ⟨_, rfl, ⟨rfl, rfl⟩, ?_⟩
        simp only [frames_append, frames_demux]
  · rename_i hm
    rw [if_neg hm, if_neg hm]
    cases hok
    refine ⟨_, rfl, happ, ?_⟩
    rw [frames_appendEvents, frames_appendEvents]

/-- `r` sees all packets and `s` those of `srcdat`. They have collected the same while
a frame of this source is open, and `s` nothing otherwise. -/
structure Beside (srcdat : RTPSourceData) (current : Option RTPSourceData) (r s : State) :
    Prop where
  size : r.frameBuffer.size = BUFFERSIZE
  closed : current = none → r = emptied r.lastSeqNumber
  own : current = some srcdat → Same r s
  foreign : current ≠ some srcdat → s = emptied s.lastSeqNumber

section Beside

variable {srcdat : RTPSourceData} {current : Option RTPSourceData} {r r' s : State} {d : Delivery}

theorem emptied_of_hasMarker (hsize : r.frameBuffer.size = BUFFERSIZE)
    (hok : (processRTPPacket d.srcdat d.rtppack r).outcome = .ok ((), r'))
    (hm : openBehind d = none) : r' = emptied r'.lastSeqNumber := by
  have hmark : d.rtppack.hasMarker = true := by
    unfold openBehind at hm
    split at hm
    · assumption
    · cases hm
  rw [(processRTPPacket_state hsize hok).2, if_pos hmark]
  rfl

/-- A packet of another source leaves the receiver of `srcdat` alone. -/
theorem Beside.foreign_step (h : Beside srcdat current r s) (hsrc : d.srcdat ≠ srcdat)
    (hcur : ∀ x ∈ current, d.srcdat = x)
    (hok : (processRTPPacket d.srcdat d.rtppack r).outcome = .ok ((), r')) :
    Beside srcdat (openBehind d) r' s where
  size := processRTPPacket_size h.size hok
  closed := emptied_of_hasMarker h.size hok
  own hopen := by
    unfold openBehind at hopen
    split at hopen
    · cases hopen
    · exact absurd (Option.some.inj hopen) hsrc
  foreign _ := h.foreign fun hc => hsrc (hcur srcdat hc)

/-- A packet of `srcdat` does the same to both. -/
theorem Beside.own_step (h : Beside srcdat current r s) (hsrc : d.srcdat = srcdat)
    (hcur : ∀ x ∈ current, d.srcdat = x)
    (hok : (processRTPPacket d.srcdat d.rtppack r).outcome = .ok ((), r')) :
    ∃ s', (processRTPPacket d.srcdat d.rtppack s).outcome = .ok ((), s') ∧
      Beside srcdat (openBehind d) r' s' ∧
      frames (processRTPPacket d.srcdat d.rtppack r).events =
        frames (processRTPPacket d.srcdat d.rtppack s).events := by
  have hsame : Same r s := by
    cases current with
    | none => exact same_of_emptied (h.closed rfl) (h.foreign (by simp))
    | some x => exact h.own (by rw [← hcur x rfl, hsrc])
  rcases hsame.step h.size hok with ⟨s', hok', hsame', hframes⟩
  have hsize' : s.frameBuffer.size = BUFFERSIZE := hsame.frameBuffer ▸ h.size
  refine ⟨s', hok', ⟨processRTPPacket_size h.size hok, emptied_of_hasMarker h.size hok,
    fun _ => hsame', fun hopen => emptied_of_hasMarker hsize' hok' ?_⟩, hframes⟩
  unfold openBehind at hopen ⊢
  split at hopen
  · rename_i hm
    rw [if_pos hm]
  · exact absurd (congrArg some hsrc) hopen

/-- Along a run without divided frames both receivers emit the same for `srcdat`. -/
theorem Beside.run {ds : List Delivery} {t : State} (h : Beside srcdat current r s)
    (hun : Undivided current ds) (hok : (processAll ds r).outcome = .ok ((), t)) :
    ((emittedBy ds r).filter fun e => e.1 = srcdat).map Prod.snd =
      frames (processAll (ds.filter fun d => d.srcdat = srcdat) s).events := by
  induction ds generalizing current r s with
  | nil => rfl
  | cons d ds ih =>
      rcases Traced.forEach_cons_returns hok with ⟨r', hr', hrest⟩
      rcases hun with ⟨hcur, hun'⟩
      rw [emittedBy, hr']
      simp only [List.filter_append, List.map_append]
      by_cases hsrc : d.srcdat = srcdat
      · rcases h.own_step hsrc hcur hr' with ⟨s', hs', hnext, hframes⟩
        rw [List.filter_cons_of_pos (by simpa using hsrc), processAll_cons_ok hs', frames_append,
          ih hnext hun' hrest, ← hframes]
        congr 1
        simp [List.filter_map, Function.comp_def, hsrc]
      · rw [List.filter_cons_of_neg (by simpa using hsrc),
          ih (h.foreign_step hsrc hcur hr') hun' hrest]
        simp [List.filter_map, Function.comp_def, hsrc]

end Beside

/-- Undivided frames have one source each, and the open one keeps its source. -/
theorem segments_unmixed {current : Option RTPSourceData} {ds : List Delivery}
    (h : Undivided current ds) :
    (∀ segment ∈ segments ds, ∀ d ∈ segment, ∀ d' ∈ segment, d.srcdat = d'.srcdat) ∧
      ∀ srcdat ∈ current, ∀ segment ∈ (segments ds).head?, ∀ d ∈ segment, d.srcdat = srcdat := by
  induction ds generalizing current with
  | nil => simp [segments]
  | cons d ds ih =>
      rcases h with ⟨hcur, hun⟩
      rcases ih hun with ⟨hone, hhead⟩
      cases hm : d.rtppack.hasMarker with
      | true =>
          rw [segments_marker hm]
          refine ⟨fun segment hs => ?_, fun srcdat hsrc segment hs e he => ?_⟩
          · rcases List.mem_cons.mp hs with rfl | hs
            · simp
            · exact hone segment hs
          · cases hs
            rw [List.mem_singleton.mp he]
            exact hcur srcdat hsrc
      | false =>
          rcases segments_eq_cons ds with ⟨front, rest, hfront⟩
          have hopen : openBehind d = some d.srcdat := by simp [openBehind, hm]
          have hsame : ∀ e ∈ d :: front, e.srcdat = d.srcdat := by
            intro e he
            rcases List.mem_cons.mp he with rfl | he
            · rfl
            · exact hhead d.srcdat hopen front (by simp [hfront]) e he
          rw [segments_open hm, hfront, List.modifyHead_cons]
          refine ⟨fun segment hs => ?_, fun srcdat hsrc segment hs e he => ?_⟩
          · rcases List.mem_cons.mp hs with rfl | hs
            · exact fun e he e' he' => (hsame e he).trans (hsame e' he').symm
            · exact hone segment (hfront ▸ List.mem_cons_of_mem _ hs)
          · cases hs
            exact (hsame e he).trans (hcur srcdat hsrc)

/-- If the source changes behind a marker only, and no packet makes an invalid access,
frames are assembled per source. -/
theorem assembledPerSource_of_undivided (polls : List Poll) (lastSeqNumber : Int)
    (hun : Undivided none (deliveries polls))
    (hreturns : (run polls (emptied lastSeqNumber)).outcome.isOk = true) :
    AssembledPerSource polls lastSeqNumber := by
  rw [run_eq] at hreturns
  rcases Traced.returns_of_isOk hreturns with ⟨t, ht⟩
  refine ⟨fun srcdat => ?_, (segments_unmixed hun).1⟩
  have hstart : Beside srcdat none (emptied lastSeqNumber) (emptied lastSeqNumber) :=
    ⟨rfl, fun _ => rfl, fun h => absurd h (by simp), fun _ => rfl⟩
  rw [run_eq, deliveries_onlySource]
  exact hstart.run hun ht

/-- Two cameras that send `sampleFrame`. The second frame arrives while the first one
is open. -/
def interleavedPolls : List Poll :=
  [[(⟨7⟩, [⟨1, 0, sampleFrame.bytes.take 40, false⟩]), (⟨8⟩, [⟨900, 0, sampleFrame.bytes, true⟩])],
    [(⟨7⟩, [⟨2, 0, sampleFrame.bytes.drop 40, true⟩])]]

theorem interleaved_not_perSource : ¬ AssembledPerSource interleavedPolls 0 := by
  intro h
  have heq := h.emitted ⟨8⟩
  revert heq
  decide +kernel

/-- The same packets, with the second frame behind the first one. -/
def alternatingPolls : List Poll :=
  [[(⟨7⟩, [⟨1, 0, sampleFrame.bytes.take 40, false⟩, ⟨2, 0, sampleFrame.bytes.drop 40, true⟩])],
    [(⟨8⟩, [⟨900, 0, sampleFrame.bytes, true⟩])]]

theorem assembledPerSource_alternating : AssembledPerSource alternatingPolls 0 :=
  assembledPerSource_of_undivided alternatingPolls 0
    (by simp [alternatingPolls, deliveries, Undivided, openBehind]) (by decide +kernel)

end SimpleSipClient.RtpRecver
