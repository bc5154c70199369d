import SimpleSipClient.Decoder.Picture
import SimpleSipClient.Pipeline.Source
import SimpleSipClient.Receiver.Loss

/-! # Every frame once

Receivers run beside each other and their frames share one queue. Each receiver emits what it
would emit alone, and the decoder gets every emitted frame once, in the order of emission.
-/

namespace SimpleSipClient.Pipeline

open Foundation RtpRecver

/-! ## What a run shows -/

def recverEvents (es : List Event) : List (Nat × RtpRecver.Event) :=
  es.filterMap fun
    | .recver e => some e
    | _ => none

/-- The frames that were emitted, each with its receiver. -/
def emitted (es : List Event) : List (Nat × Bytes) := (recverEvents es).filterMap postedCall

/-- The frames that were handed to the decoder. -/
def handed (es : List Event) : List (Nat × Bytes) :=
  es.filterMap fun
    | .decode buff => some buff
    | _ => none

def ofRecver (k : Nat) (frames : List (Nat × Bytes)) : List Bytes := frames.filterMap (ownEvent k)

/-- What the receivers found at `m_bufferSize`, in order of creation. -/
def started (xs : List Input) : List Int :=
  xs.filterMap fun
    | .play bufferSize _ _ => some bufferSize
    | _ => none

def packetsOf (k : Nat) (xs : List Input) : List Delivery :=
  xs.flatMap fun
    | .packet j d => if j = k then [d] else []
    | _ => []

def answers (xs : List Input) : List Answer :=
  xs.filterMap fun
    | .deliver a => some a
    | _ => none

/-- The images of the decoder. -/
def shown (es : List Event) : List Decoder.QImage :=
  es.filterMap fun
    | .decoder (.emit img) => some img
    | _ => none

def moves : Input → List (Move Delivery RtpRecver.State)
  | .play bufferSize _ _ => [.create (rtpRecver bufferSize)]
  | .packet k d => [.act k d]
  | _ => []

section Observations

variable (es fs : List Event)

theorem recverEvents_append : recverEvents (es ++ fs) = recverEvents es ++ recverEvents fs :=
  List.filterMap_append

theorem emitted_append : emitted (es ++ fs) = emitted es ++ emitted fs := by
  rw [emitted, recverEvents_append, List.filterMap_append]
  rfl

theorem handed_append : handed (es ++ fs) = handed es ++ handed fs := List.filterMap_append

theorem shown_append : shown (es ++ fs) = shown es ++ shown fs := List.filterMap_append

theorem recverEvents_recver (xs : List (Nat × RtpRecver.Event)) :
    recverEvents (xs.map .recver) = xs := by
  rw [recverEvents, List.filterMap_map]
  exact List.filterMap_some

theorem handed_recver (xs : List (Nat × RtpRecver.Event)) : handed (xs.map .recver) = [] := by
  simp [handed, List.filterMap_map]

theorem shown_recver (xs : List (Nat × RtpRecver.Event)) : shown (xs.map .recver) = [] := by
  simp [shown, List.filterMap_map]

theorem recverEvents_slot (xs : List Playback.Event) : recverEvents (xs.map .slot) = [] := by
  simp [recverEvents, List.filterMap_map]

theorem handed_slot (xs : List Playback.Event) : handed (xs.map .slot) = [] := by
  simp [handed, List.filterMap_map]

theorem shown_slot (xs : List Playback.Event) : shown (xs.map .slot) = [] := by
  simp [shown, List.filterMap_map]

end Observations

/-! ## One input -/

/-- What inputs do to the receivers, the queue and the picture. -/
structure Effect (xs : List Input) (s : State) (es : List Event) (t : State) : Prop where
  recvers : Traced.forEach moveRecver (xs.flatMap moves) s.recvers =
    ⟨recverEvents es, .ok ((), t.recvers)⟩
  queue : s.posted ++ emitted es = handed es ++ t.posted
  taken : (handed es).length = (answers xs).length
  decoder : t.avDecoder = s.avDecoder
  image : t.curImage = (shown es).getLast?.or s.curImage

section Steps

variable {s t u : State} {es fs : List Event} {xs ys : List Input}

theorem Effect.nil (s : State) : Effect [] s [] s where
  recvers := rfl
  queue := List.append_nil _
  taken := rfl
  decoder := rfl
  image := rfl

theorem Effect.append (h : Effect xs s es t) (h' : Effect ys t fs u) :
    Effect (xs ++ ys) s (es ++ fs) u where
  recvers := by
    have hrun : (Traced.forEach moveRecver (xs.flatMap moves) s.recvers).outcome =
        .ok ((), t.recvers) := by
      rw [h.recvers]
    rw [List.flatMap_append, Traced.forEach_append_ok hrun, h.recvers, h'.recvers,
      recverEvents_append]
  queue := by
    rw [emitted_append, handed_append, ← List.append_assoc, h.queue, List.append_assoc, h'.queue,
      List.append_assoc]
  taken := by
    rw [handed_append, List.length_append, h.taken, h'.taken, ← List.length_append]
    exact congrArg List.length List.filterMap_append.symm
  decoder := h'.decoder.trans h.decoder
  image := by
    rw [shown_append, List.getLast?_append, Option.or_assoc, ← h.image]
    exact h'.image

theorem inSlots_returns {x : Playback.Slot Unit} (ht : (inSlots x s).outcome = .ok ((), t)) :
    ∃ slots, (x s.slots).outcome = .ok ((), slots) ∧ t = { s with slots := slots } ∧
      (inSlots x s).events = (x s.slots).events.map .slot := by
  rw [inSlots, Traced.zoom] at ht ⊢
  cases hx : (x s.slots).outcome with
  | error e =>
      rw [hx] at ht
      cases ht
  | ok r =>
      obtain ⟨⟨⟩, slots⟩ := r
      rw [hx] at ht
      cases ht
      exact ⟨slots, rfl, rfl, rfl⟩

theorem inRecvers_returns {m : Move Delivery RtpRecver.State}
    (ht : (inRecvers m s).outcome = .ok ((), t)) :
    ∃ recvers, (moveRecver m s.recvers).outcome = .ok ((), recvers) ∧
      t = { s with
        recvers := recvers
        posted := s.posted ++ (moveRecver m s.recvers).events.filterMap postedCall } ∧
      (inRecvers m s).events = (moveRecver m s.recvers).events.map .recver := by
  rw [inRecvers] at ht ⊢
  cases hm : (moveRecver m s.recvers).outcome with
  | error e =>
      rw [hm] at ht
      cases ht
  | ok r =>
      obtain ⟨⟨⟩, recvers⟩ := r
      rw [hm] at ht
      cases ht
      exact ⟨recvers, rfl, rfl, rfl⟩

/-- Slots move no receiver and answer no call. -/
theorem inSlots_effect {x : Playback.Slot Unit} (hmoves : xs.flatMap moves = [])
    (hanswers : answers xs = []) (ht : (inSlots x s).outcome = .ok ((), t)) :
    Effect xs s (inSlots x s).events t := by
  obtain ⟨slots, -, rfl, hevents⟩ := inSlots_returns ht
  rw [hevents]
  constructor
  case recvers => rw [hmoves, recverEvents_slot]; rfl
  case queue => rw [emitted, recverEvents_slot, handed_slot]; exact List.append_nil _
  case taken => rw [handed_slot, hanswers]; rfl
  case decoder => rfl
  case image => rw [shown_slot]; rfl

/-- A move of the receivers, made for an input that no call answers. -/
theorem inRecvers_effect {m : Move Delivery RtpRecver.State} {x : Input}
    (hmoves : moves x = [m]) (hanswers : answers [x] = [])
    (ht : (inRecvers m s).outcome = .ok ((), t)) : Effect [x] s (inRecvers m s).events t := by
  obtain ⟨recvers, hm, rfl, hevents⟩ := inRecvers_returns ht
  rw [hevents]
  constructor
  case recvers =>
    rw [List.flatMap_singleton, hmoves, Traced.forEach_ok hm, recverEvents_recver]
    simp
  case queue => rw [emitted, recverEvents_recver, handed_recver, List.nil_append]
  case taken => rw [handed_recver, hanswers]; rfl
  case decoder => rfl
  case image => rw [shown_recver]; rfl

/-! ## One delivered call -/

/-- What a decode leaves as it was, and what it shows. -/
structure Decoded (s : State) (es : List Event) (t : State) : Prop where
  frame : t = { s with rgb := t.rgb, curImage := t.curImage }
  recvers : recverEvents es = []
  handed : handed es = []
  image : t.curImage = (shown es).getLast?.or s.curImage

theorem recverEvents_decoder (xs : List Decoder.Event) : recverEvents (xs.map .decoder) = [] := by
  simp [recverEvents, List.filterMap_map]

theorem handed_decoder (xs : List Decoder.Event) : handed (xs.map .decoder) = [] := by
  simp [handed, List.filterMap_map]

/-- The accesses of a decode show nothing. -/
theorem shown_performed (d : Decoder.State) (f : Decoder.Frame) :
    shown ((Decoder.performed d f).map .decoder) = [] := by
  simp [shown, List.filterMap_map, Decoder.performed, Decoder.copies, Decoder.scaled,
    Decoder.imageRows]

/-- The image of a decode that finds `rgb` in the RGB buffer. -/
def Answer.image (d : Decoder.State) (a : Answer) (rgb : Block UInt8) : Decoder.QImage :=
  Decoder.imageOf a.received.frame.size (Decoder.finished d a.received a.fresh rgb).rgb

theorem decode_skips {d : Decoder.State} {a : Answer} (h : ¬ a.received.decoded = true)
    (s : State) : decode d a s = ⟨[], .ok ((), s)⟩ := by
  have hnone : Decoder.decode d a.received a.fresh = pure none := if_neg h
  simp [decode, inDecoder, Traced.bind_run, hnone]

theorem decode_run {d : Decoder.State} {a : Answer} (h : a.received.decoded = true)
    (hin : ∀ e ∈ Decoder.performed d a.received.frame, Decoder.inside d a.received e = true)
    (s : State) :
    decode d a s =
      ⟨(Decoder.performed d a.received.frame).map .decoder ++
          [.decoder (.emit (a.image d s.rgb)), .update],
        .ok ((), { s with
          rgb := (Decoder.finished d a.received a.fresh s.rgb).rgb
          curImage := some (a.image d s.rgb) })⟩ := by
  have hall : (Decoder.performed d a.received.frame ++
      [Decoder.Event.emit (a.image d s.rgb)]).all (Decoder.inside d a.received) = true := by
    simpa [Decoder.inside] using hin
  have hin : inDecoder d a s =
      ⟨(Decoder.performed d a.received.frame ++
          [Decoder.Event.emit (a.image d s.rgb)]).map .decoder,
        .ok (some (a.image d s.rgb),
          { s with rgb := (Decoder.finished d a.received a.fresh s.rgb).rgb })⟩ := by
    rw [inDecoder, Decoder.decode_run h]
    exact if_pos hall
  simp [decode, Traced.bind_run, hin, onGetImage]

/-- A decode that returns made each of its accesses. -/
theorem inside_of_returns {d : Decoder.State} {a : Answer} (h : a.received.decoded = true)
    (ht : (decode d a s).outcome = .ok ((), t)) :
    ∀ e ∈ Decoder.performed d a.received.frame, Decoder.inside d a.received e = true := by
  obtain ⟨image, u, hu, -⟩ := Traced.bind_outcome_ok.mp ht
  rw [inDecoder, Decoder.decode_run h] at hu
  simp only at hu
  split at hu
  next hall =>
    intro e he
    exact List.all_eq_true.mp hall e (List.mem_append_left _ he)
  next => cases hu

theorem decode_returns {d : Decoder.State} {a : Answer}
    (hin : a.received.decoded = true →
      ∀ e ∈ Decoder.performed d a.received.frame, Decoder.inside d a.received e = true)
    (s : State) : ∃ t, (decode d a s).outcome = .ok ((), t) := by
  by_cases h : a.received.decoded = true
  · exact ⟨_, congrArg Exec.outcome (decode_run h (hin h) s)⟩
  · exact ⟨s, congrArg Exec.outcome (decode_skips h s)⟩

theorem decode_effect {d : Decoder.State} {a : Answer}
    (ht : (decode d a s).outcome = .ok ((), t)) : Decoded s (decode d a s).events t := by
  by_cases h : a.received.decoded = true
  · have hin := inside_of_returns h ht
    rw [decode_run h hin] at ht ⊢
    cases ht
    constructor
    case frame => rfl
    case recvers => rw [recverEvents_append, recverEvents_decoder]; rfl
    case handed => rw [handed_append, handed_decoder]; rfl
    case image => rw [shown_append, shown_performed]; rfl
  · rw [decode_skips h] at ht ⊢
    cases ht
    exact ⟨rfl, rfl, rfl, rfl⟩

theorem deliver_run {d : Decoder.State} {buff : Nat × Bytes} {posted : List (Nat × Bytes)}
    (hd : s.avDecoder = .ok d) (hs : s.posted = buff :: posted) (a : Answer) :
    deliver a s =
      ⟨.decode buff :: (decode d a { s with posted }).events,
        (decode d a { s with posted }).outcome⟩ := by
  rw [deliver, Traced.get_bind, hs]
  simp only
  rw [Traced.set_bind, onRecvedFrame, Traced.emit_bind, Traced.get_bind]
  simp only [hd]

/-- A call that returns was posted and found an open codec. -/
theorem deliver_returns {a : Answer} (hp : possible s (.deliver a) = true)
    (ht : (deliver a s).outcome = .ok ((), t)) :
    ∃ d buff posted, s.avDecoder = .ok d ∧ s.posted = buff :: posted := by
  cases hs : s.posted with
  | nil =>
      rw [possible, hs] at hp
      cases hp
  | cons buff posted =>
      cases hd : s.avDecoder with
      | ok d => exact ⟨d, buff, posted, rfl, rfl⟩
      | error e =>
          rw [deliver, Traced.get_bind, hs] at ht
          simp only at ht
          rw [Traced.set_bind, onRecvedFrame, Traced.emit_bind, Traced.get_bind] at ht
          simp only [hd] at ht
          cases ht

theorem deliver_effect {a : Answer} (hp : possible s (.deliver a) = true)
    (ht : (deliver a s).outcome = .ok ((), t)) : Effect [.deliver a] s (deliver a s).events t := by
  obtain ⟨d, buff, posted, hd, hs⟩ := deliver_returns hp ht
  rw [deliver_run hd hs] at ht ⊢
  have hdecoded := decode_effect ht
  have hrecver : recverEvents (.decode buff :: (decode d a { s with posted }).events) = [] :=
    hdecoded.recvers
  have hhanded : handed (.decode buff :: (decode d a { s with posted }).events) = [buff] :=
    congrArg (buff :: ·) hdecoded.handed
  constructor
  case recvers => rw [hrecver, hdecoded.frame]; rfl
  case queue =>
    rw [emitted, hrecver, hhanded, hs, hdecoded.frame]
    simp
  case taken => rw [hhanded]; rfl
  case decoder => rw [hdecoded.frame]
  case image => exact hdecoded.image

/-! ## All inputs -/

theorem perform_effect {x : Input} (hp : possible s x = true)
    (ht : (perform x s).outcome = .ok ((), t)) : Effect [x] s (perform x s).events t := by
  cases x with
  | play bufferSize create o =>
      obtain ⟨⟨⟩, u, hu, ht⟩ := Traced.bind_outcome_ok.mp ht
      rw [perform, Traced.bind_ok hu]
      have hfirst : Effect [.play bufferSize create o] s _ u := inRecvers_effect rfl rfl hu
      have hrest : Effect [] u _ t := inSlots_effect rfl rfl ht
      exact hfirst.append hrest
  | stop o => exact inSlots_effect rfl rfl ht
  | remote k e => exact inSlots_effect rfl rfl ht
  | finished k => exact inSlots_effect rfl rfl ht
  | packet k d => exact inRecvers_effect rfl rfl ht
  | deliver a => exact deliver_effect hp ht

theorem forEach_effect (hp : ∀ v ∈ Traced.visits perform xs s, possible v.2 v.1 = true)
    (ht : (Traced.forEach perform xs s).outcome = .ok ((), t)) :
    Effect xs s (Traced.forEach perform xs s).events t := by
  induction xs generalizing s with
  | nil =>
      cases ht
      exact .nil _
  | cons x xs ih =>
      obtain ⟨u, hx, hxs⟩ := Traced.forEach_cons_returns ht
      rw [Traced.visits_ok hx, List.forall_mem_cons] at hp
      rw [Traced.forEach_ok hx]
      exact (perform_effect hp.1 hx).append (ih hp.2 hxs)

end Steps

/-! ## All runs -/

theorem moves_own (k : Nat) (xs : List Input) :
    (xs.flatMap moves).flatMap (Move.own k) = packetsOf k xs := by
  rw [List.flatMap_assoc, packetsOf]
  congr 1
  funext x
  cases x <;> simp [moves, Move.own]

theorem moves_created (xs : List Input) :
    (xs.flatMap moves).filterMap Move.created = (started xs).map rtpRecver := by
  induction xs with
  | nil => rfl
  | cons x xs ih =>
      rw [List.flatMap_cons, List.filterMap_append, ih]
      cases x <;> rfl

theorem ofRecver_emitted (k : Nat) (es : List Event) :
    ofRecver k (emitted es) = frames ((recverEvents es).filterMap (ownEvent k)) := by
  rw [ofRecver, emitted, frames, List.filterMap_filterMap, List.filterMap_filterMap]
  congr 1
  funext e
  obtain ⟨j, e⟩ := e
  by_cases hj : j = k
  · cases e <;> simp [postedCall, frameOf, ownEvent, hj]
  · cases e <;> simp [postedCall, frameOf, ownEvent, hj]

/-- The decoder gets the emitted frames, in order and each once, up to those that are still
posted. A receiver emits what it emits alone on its own packets, whatever the others do. As many
answers as there are posted frames hand over all of them if each picture among them fits the
buffers, and run out of a buffer otherwise. -/
structure InOrder (xs : List Input) (es : List Event) (s : State) : Prop where
  fifo : handed es ++ s.posted = emitted es
  own : ∀ (k : Nat) b, (started xs)[k]? = some b →
    ofRecver k (emitted es) = frames (processAll (packetsOf k xs) (rtpRecver b)).events
  origin : ∀ e ∈ emitted es, e.1 < (started xs).length
  drained : ∀ (d : Decoder.State) (as : List Answer), s.avDecoder = .ok d →
    as.length = s.posted.length →
      ((∃ t, (Traced.forEach perform (as.map .deliver) s).outcome = .ok ((), t) ∧ t.posted = [] ∧
        handed (Traced.forEach perform (as.map .deliver) s).events = s.posted) ↔
          ∀ a ∈ as, a.received.decoded = true → Decoder.FitsBuffers a.received)

/-- One delivered call takes the first posted frame. -/
theorem deliver_one {d : Decoder.State} {a : Answer} {s t : State} {buff : Nat × Bytes}
    {posted : List (Nat × Bytes)} (hd : s.avDecoder = .ok d) (hs : s.posted = buff :: posted)
    (ht : (perform (.deliver a) s).outcome = .ok ((), t)) :
    t.avDecoder = .ok d ∧ t.posted = posted ∧ handed (perform (.deliver a) s).events = [buff] := by
  rw [perform, deliver_run hd hs] at ht ⊢
  have hdecoded := decode_effect ht
  rw [hdecoded.frame]
  exact ⟨hd, rfl, congrArg (buff :: ·) hdecoded.handed⟩

theorem deliver_all {d : Decoder.State} (hp : Decoder.Prepared d) {as : List Answer} {s : State}
    (hd : s.avDecoder = .ok d) (hlen : as.length = s.posted.length)
    (hfit : ∀ a ∈ as, a.received.decoded = true → Decoder.FitsBuffers a.received) :
    ∃ t, (Traced.forEach perform (as.map .deliver) s).outcome = .ok ((), t) ∧ t.posted = [] ∧
      handed (Traced.forEach perform (as.map .deliver) s).events = s.posted := by
  induction as generalizing s with
  | nil =>
      have hnone : s.posted = [] := List.length_eq_zero_iff.mp hlen.symm
      exact ⟨s, rfl, hnone, hnone.symm⟩
  | cons a as ih =>
      rw [List.forall_mem_cons] at hfit
      cases hs : s.posted with
      | nil => simp [hs] at hlen
      | cons buff posted =>
          obtain ⟨u, hu⟩ := decode_returns (fun h => (hfit.1 h).inside hp) { s with posted }
          have hstep : (perform (.deliver a) s).outcome = .ok ((), u) := by
            rw [perform, deliver_run hd hs]
            exact hu
          obtain ⟨hdu, hposted, hfirst⟩ := deliver_one hd hs hstep
          rw [hs, List.length_cons, List.length_cons] at hlen
          obtain ⟨t, ht, hempty, hrest⟩ :=
            ih hdu (by rw [hposted]; exact Nat.succ.inj hlen) hfit.2
          rw [List.map_cons, Traced.forEach_ok hstep, handed_append, hfirst, hrest, hposted]
          exact ⟨t, ht, hempty, rfl⟩

theorem fits_of_deliver_all {d : Decoder.State} (hp : Decoder.Prepared d) {as : List Answer}
    {s t : State} (hd : s.avDecoder = .ok d) (hlen : as.length = s.posted.length)
    (ht : (Traced.forEach perform (as.map .deliver) s).outcome = .ok ((), t)) :
    ∀ a ∈ as, a.received.decoded = true → Decoder.FitsBuffers a.received := by
  induction as generalizing s with
  | nil => simp
  | cons a as ih =>
      obtain ⟨u, hstep, hrest⟩ := Traced.forEach_cons_returns ht
      cases hs : s.posted with
      | nil => simp [hs] at hlen
      | cons buff posted =>
          obtain ⟨hdu, hposted, -⟩ := deliver_one hd hs hstep
          rw [perform, deliver_run hd hs] at hstep
          rw [hs, List.length_cons, List.length_cons] at hlen
          rw [List.forall_mem_cons]
          exact ⟨fun h => .of_inside hp (inside_of_returns h hstep),
            ih hdu (by rw [hposted]; exact Nat.succ.inj hlen) hrest⟩

section Runs

variable {garbage : Bool} {library : Decoder.Library}
variable (r : Run perform possible (client garbage library)) {s : State}

theorem moves_of_run (hs : r.EndsIn s) :
    Traced.forEach moveRecver (r.inputs.flatMap moves) [] =
      ⟨recverEvents r.events, .ok ((), s.recvers)⟩ :=
  (forEach_effect r.each_possible hs).recvers

theorem fifo_of_run (hs : r.EndsIn s) : handed r.events ++ s.posted = emitted r.events :=
  (forEach_effect r.each_possible hs).queue.symm

theorem own_of_run (hs : r.EndsIn s) {k : Nat} {b : Int} (hb : (started r.inputs)[k]? = some b) :
    (∃ u, (processAll (packetsOf k r.inputs) (rtpRecver b)).outcome = .ok ((), u)) ∧
      ofRecver k (emitted r.events) =
        frames (processAll (packetsOf k r.inputs) (rtpRecver b)).events := by
  have hmoves := moves_of_run r hs
  have hcreated : ([] ++ (r.inputs.flatMap moves).filterMap Move.created)[k]? =
      some (rtpRecver b) := by
    rw [List.nil_append, moves_created, List.getElem?_map, hb]
    rfl
  obtain ⟨u, -, hrun, hown⟩ := own_of_forEach (congrArg Exec.outcome hmoves) hcreated
  rw [moves_own] at hrun
  rw [hmoves, moves_own] at hown
  rw [ofRecver_emitted, hown]
  exact ⟨⟨u, hrun⟩, rfl⟩

theorem origin_of_run (hs : r.EndsIn s) :
    ∀ e ∈ emitted r.events, e.1 < (started r.inputs).length := by
  intro e he
  obtain ⟨e', he', hframe⟩ := List.mem_filterMap.mp he
  obtain ⟨frame, -, rfl⟩ := Option.map_eq_some_iff.mp hframe
  have hmoves := moves_of_run r hs
  have horigin := created_of_event (congrArg Exec.outcome hmoves) (by rw [hmoves]; exact he')
  rwa [List.nil_append, moves_created, List.length_map] at horigin

theorem avDecoder_of_run (hs : r.EndsIn s) : s.avDecoder = Decoder.init library :=
  (forEach_effect r.each_possible hs).decoder

theorem decoded_in_order (hs : r.EndsIn s) : InOrder r.inputs r.events s where
  fifo := fifo_of_run r hs
  own _ _ hb := (own_of_run r hs hb).2
  origin := origin_of_run r hs
  drained d as hd hlen := by
    have hprepared : Decoder.Prepared d :=
      Decoder.init_prepared ((avDecoder_of_run r hs).symm.trans hd)
    constructor
    · rintro ⟨t, ht, -, -⟩
      exact fits_of_deliver_all hprepared hd hlen ht
    · exact deliver_all hprepared hd hlen

end Runs

def allCallsSucceed : MediaClient.InviteOutcome where
  usageInit := true
  dlgCreateUac := true
  invCreateUac := true
  invInvite := true
  invSendMsg := .sent

/-- The codec gives a picture of two rows. -/
def sampleAnswer : Answer where
  received := Decoder.received
    (Decoder.blackFrame ⟨1920, 2, by decide⟩ (by decide) (by decide) fun p => by cases p <;> decide)
  fresh _ := 0

/-- Two receivers at a time, whose packets interleave. The second frame is still posted when the
first one has been decoded. -/
def sampleInputs : List Input :=
  [.play 0 true allCallsSucceed, .play 0 true allCallsSucceed,
    .packet 0 ⟨⟨7⟩, ⟨1, 0, PsToH264.sampleFrame.bytes.take 40, false⟩⟩,
    .packet 1 ⟨⟨8⟩, ⟨900, 0, PsToH264.sampleFrame.bytes, true⟩⟩,
    .packet 0 ⟨⟨7⟩, ⟨2, 0, PsToH264.sampleFrame.bytes.drop 40, true⟩⟩,
    .deliver sampleAnswer]

def sampleRun : Run perform possible (client true Decoder.library) :=
  ⟨sampleInputs, by decide +kernel⟩

theorem sampleRun_ends : ∃ s, sampleRun.EndsIn s :=
  Traced.returns_of_isOk (by decide +kernel)

theorem decoded_in_order_sample :
    ∃ s, sampleRun.EndsIn s ∧ InOrder sampleRun.inputs sampleRun.events s := by
  obtain ⟨s, hs⟩ := sampleRun_ends
  exact ⟨s, hs, decoded_in_order sampleRun hs⟩

end SimpleSipClient.Pipeline
