import SimpleSipClient.Pipeline.Frames
import SimpleSipClient.Playback.Threads

/-! # One receiver after the other

Where each Play finds no thread running, only the last receiver has a thread, so the frames of
a receiver all come before those of the next one.
-/

namespace SimpleSipClient.Pipeline

open Foundation RtpRecver

/-- A Play finds no thread running. -/
def Alone (x : Input) (s : State) : Prop :=
  match x with
  | .play _ _ _ => ∀ r ∈ s.slots.recvers, r.running = false
  | _ => True

section Steps

variable {s t : State}

/-- A packet makes frames of its own receiver only. -/
theorem packet_emitted {k : Nat} {d : Delivery}
    (ht : (inRecvers (.act k d) s).outcome = .ok ((), t)) :
    ∀ e ∈ emitted (inRecvers (.act k d) s).events, e.1 = k := by
  obtain ⟨recvers, hmove, -, hevents⟩ := inRecvers_returns ht
  obtain ⟨r, u, -, -, -, hmoved⟩ := atEntry_returns hmove
  have hown : (moveRecver (.act k d) s.recvers).events =
      (processRTPPacket d.srcdat d.rtppack r).events.map (Prod.mk k) := hmoved
  intro e he
  rw [hevents, emitted, recverEvents_recver, hown] at he
  obtain ⟨e', he', hframe⟩ := List.mem_filterMap.mp he
  obtain ⟨e'', -, rfl⟩ := List.mem_map.mp he'
  obtain ⟨frame, -, rfl⟩ := Option.map_eq_some_iff.mp hframe
  rfl

/-- What an input leaves of the threads, and whose frames it makes. -/
structure Turn (s : State) (es : List Event) (t : State) : Prop where
  last : Playback.LastRuns t.slots
  grows : s.slots.recvers.length ≤ t.slots.recvers.length
  frames : ∀ e ∈ emitted es, e.1 + 1 = s.slots.recvers.length

theorem inSlots_turn {x : Playback.Input} (h : Playback.LastRuns s.slots)
    (hx : Playback.Alone x s.slots) (ht : (inSlots (Playback.perform x) s).outcome = .ok ((), t)) :
    Turn s (inSlots (Playback.perform x) s).events t := by
  obtain ⟨slots, hslots, rfl, hevents⟩ := inSlots_returns ht
  obtain ⟨hlast, hgrows⟩ := h.step hx hslots
  refine ⟨hlast, hgrows, ?_⟩
  rw [hevents, emitted, recverEvents_slot]
  simp

theorem perform_turn {x : Input} (h : Playback.LastRuns s.slots) (hp : possible s x = true)
    (hx : Alone x s) (ht : (perform x s).outcome = .ok ((), t)) :
    Turn s (perform x s).events t := by
  cases x with
  | play bufferSize create o =>
      obtain ⟨⟨⟩, u, hcreate, hplay⟩ := Traced.bind_outcome_ok.mp ht
      obtain ⟨recvers, -, hu, hevents⟩ := inRecvers_returns hcreate
      have hsame : u.slots = s.slots := by rw [hu]
      have hnone : emitted (inRecvers (.create (rtpRecver bufferSize)) s).events = [] := by
        rw [hevents]
        rfl
      have hturn : Turn u _ t := inSlots_turn (by rwa [hsame]) (by rwa [hsame]) hplay
      rw [perform, Traced.bind_ok hcreate]
      refine ⟨hturn.last, hsame ▸ hturn.grows, ?_⟩
      rw [emitted_append, hnone, ← hsame]
      exact hturn.frames
  | stop o => exact inSlots_turn h trivial ht
  | remote k e => exact inSlots_turn h trivial ht
  | finished k => exact inSlots_turn h trivial ht
  | packet k d =>
      obtain ⟨recvers, -, hsame, -⟩ := inRecvers_returns ht
      have hlast : k + 1 = s.slots.recvers.length := by
        rw [possible] at hp
        cases hk : s.slots.recvers[k]? with
        | none => simp [hk] at hp
        | some r => exact h k r hk (by simpa [hk] using hp)
      refine ⟨by rwa [hsame], by rw [hsame], fun e he => ?_⟩
      rw [packet_emitted ht e he, hlast]
  | deliver a =>
      obtain ⟨d, buff, posted, hd, hs⟩ := deliver_returns hp ht
      rw [perform, deliver_run hd hs] at ht ⊢
      have hdecoded := decode_effect ht
      have hnone : emitted (.decode buff :: (decode d a { s with posted }).events) = [] :=
        congrArg (List.filterMap postedCall) hdecoded.recvers
      rw [hdecoded.frame]
      exact ⟨h, Nat.le_refl _, by simp [hnone]⟩

/-- Run lemma: the frames come in the order of their receivers, none from before the last one
there was at the start. -/
theorem sorted_of_forEach {xs : List Input} (h : Playback.LastRuns s.slots)
    (hp : ∀ v ∈ Traced.visits perform xs s, possible v.2 v.1 = true)
    (hx : ∀ v ∈ Traced.visits perform xs s, Alone v.1 v.2)
    (ht : (Traced.forEach perform xs s).outcome = .ok ((), t)) :
    (emitted (Traced.forEach perform xs s).events).Pairwise (fun a b => a.1 ≤ b.1) ∧
      ∀ e ∈ emitted (Traced.forEach perform xs s).events, s.slots.recvers.length ≤ e.1 + 1 := by
  induction xs generalizing s with
  | nil => exact ⟨.nil, by simp [emitted, recverEvents]⟩
  | cons x xs ih =>
      obtain ⟨u, hstep, hxs⟩ := Traced.forEach_cons_returns ht
      rw [Traced.visits_ok hstep, List.forall_mem_cons] at hp hx
      have hturn := perform_turn h hp.1 hx.1 hstep
      obtain ⟨hsorted, hlater⟩ := ih hturn.last hp.2 hx.2 hxs
      have hgrows := hturn.grows
      rw [Traced.forEach_ok hstep, emitted_append]
      refine ⟨List.pairwise_append.mpr ⟨?_, hsorted, ?_⟩, ?_⟩
      · refine List.pairwise_of_forall_mem_list fun a ha b hb => ?_
        have hfirst := hturn.frames a ha
        have hsecond := hturn.frames b hb
        omega
      · intro a ha b hb
        have hfirst := hturn.frames a ha
        have hsecond := hlater b hb
        omega
      · intro e he
        obtain he | he := List.mem_append.mp he
        · exact Nat.le_of_eq (hturn.frames e he).symm
        · exact hgrows.trans (hlater e he)

end Steps

/-- What the receivers emit, each alone on its own packets, in the order of their creation. -/
def inTurn (xs : List Input) : List (Nat × Bytes) :=
  (started xs).zipIdx.flatMap fun b =>
    (frames (processAll (packetsOf b.2 xs) (rtpRecver b.1)).events).map (Prod.mk b.2)

/-- The decoder gets the frames of one receiver after those of the other. -/
theorem decoded_in_turn {garbage : Bool} {library : Decoder.Library}
    (r : Run perform possible (client garbage library)) (halone : ∀ v ∈ r.steps, Alone v.1 v.2)
    {s : State} (hs : r.EndsIn s) : handed r.events ++ s.posted = inTurn r.inputs := by
  have hstart : Playback.LastRuns (client garbage library).slots := by
    intro k q hq
    cases hq
  obtain ⟨hsorted, -⟩ := sorted_of_forEach hstart r.each_possible halone hs
  have hturns := turns_of_sorted hsorted (origin_of_run r hs)
  have hnumbers : List.range (started r.inputs).length =
      (started r.inputs).zipIdx.map Prod.snd := by
    rw [List.zipIdx_map_snd, List.range_eq_range']
  rw [fifo_of_run r hs, inTurn]
  refine hturns.trans ?_
  rw [hnumbers, List.flatMap_map, List.flatMap_def, List.flatMap_def]
  congr 1
  refine List.map_congr_left fun b hb => ?_
  have hentry : (started r.inputs)[b.2]? = some b.1 := List.mem_zipIdx_iff_getElem?.mp hb
  exact congrArg (List.map (Prod.mk b.2)) (own_of_run r hs hentry).2

/-- The first receiver is stopped and its thread ended before the second Play. -/
def turnInputs : List Input :=
  [.play 0 true allCallsSucceed,
    .packet 0 ⟨⟨7⟩, ⟨1, 0, PsToH264.sampleFrame.bytes, true⟩⟩,
    .stop ⟨true, true, .sent⟩, .finished 0, .play 0 true allCallsSucceed,
    .packet 1 ⟨⟨8⟩, ⟨900, 0, PsToH264.sampleFrame.bytes, true⟩⟩,
    .deliver sampleAnswer]

def turnRun : Run perform possible (client true Decoder.library) :=
  ⟨turnInputs, by decide +kernel⟩

instance (x : Input) (s : State) : Decidable (Alone x s) :=
  match x with
  | .play _ _ _ => inferInstanceAs (Decidable (∀ r ∈ s.slots.recvers, r.running = false))
  | .stop _ | .remote _ _ | .finished _ | .packet _ _ | .deliver _ => isTrue trivial

theorem turnRun_ends : ∃ s, turnRun.EndsIn s :=
  Traced.returns_of_isOk (by decide +kernel)

theorem decoded_in_turn_sample :
    ∃ s, turnRun.EndsIn s ∧ handed turnRun.events ++ s.posted = inTurn turnRun.inputs := by
  obtain ⟨s, hs⟩ := turnRun_ends
  exact ⟨s, hs, decoded_in_turn turnRun (by decide +kernel) hs⟩

end SimpleSipClient.Pipeline
