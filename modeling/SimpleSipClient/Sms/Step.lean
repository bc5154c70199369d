import SimpleSipClient.Sms.Source

/-! # One call of the connection

Closed forms of the slots. Each of them returns, and what it writes is a list of
messages that depends on the state it finds. A frame is written slice by slice or not
at all; whether it is written depends on its kind, the gate and the pending bytes.
-/

namespace SimpleSipClient.SMS

open Foundation

/-! ## The socket -/

def State.written (s : State) (msgs : List Bytes) : List Event :=
  if s.writable then msgs.map .write else []

theorem writeSocket_run (msg : Bytes) (s : State) :
    writeSocket msg s = ⟨s.written [msg], .ok ((), s)⟩ := by
  rw [writeSocket, Traced.get_bind, Traced.ite_run, State.written]
  split <;> rfl

@[simp] theorem writes_nil : writes [] = [] := rfl

@[simp] theorem writes_append (es fs : List Event) :
    writes (es ++ fs) = writes es ++ writes fs := by
  simp [writes]

@[simp] theorem writes_map_write (msgs : List Bytes) : writes (msgs.map .write) = msgs := by
  rw [writes, List.filterMap_map]
  exact List.filterMap_some

theorem writes_written (s : State) (msgs : List Bytes) :
    writes (s.written msgs) = if s.writable then msgs else [] := by
  unfold State.written
  split <;> simp

theorem writes_flatMap {β : Type} (f : β → List Event) (xs : List β) :
    writes (xs.flatMap f) = xs.flatMap fun x => writes (f x) := by
  simp [writes, List.filterMap_flatMap]

/-- Reading inside an array. -/
theorem dataAt_range (env : Surroundings) {xs : Bytes} {a n : Nat} (h : a + n ≤ xs.length) :
    ((List.range n).map fun i => dataAt env xs ((a + i : Nat) : Int)) = (xs.drop a).take n := by
  apply List.ext_getElem
  · simp only [List.length_map, List.length_range, List.length_take, List.length_drop]
    omega
  · intro i hi hi'
    have hlt : a + i < xs.length := by
      simp only [List.length_map, List.length_range] at hi
      omega
    have hin : (0 : Int) ≤ ((a + i : Nat) : Int) ∧ ((a + i : Nat) : Int) < (xs.length : Int) := by
      omega
    rw [List.getElem_map, List.getElem_range, dataAt, if_pos hin, Int.toNat_natCast]
    simp [hlt]

/-! ## Slices -/

@[simp] theorem SMSHeader.bytes_length (h : SMSHeader) : h.bytes.length = 20 := by
  simp [SMSHeader.bytes]

/-- The number of slices of a `realFrame`. -/
def slicCnt (realFrame : Bytes) : Nat := (realFrame.length + 999) / 1000

def slice (realFrame : Bytes) (j : Nat) : Bytes := mid realFrame (1000 * j) 1000

def sliceMessage (env : Surroundings) (realFrame : Bytes) (j : Nat) : Bytes :=
  (sliceHeader env (slicCnt realFrame) j (slice realFrame j).length).bytes ++ slice realFrame j

def sliceMessages (env : Surroundings) (realFrame : Bytes) : List Bytes :=
  (List.range (slicCnt realFrame)).map (sliceMessage env realFrame)

theorem slice_length (realFrame : Bytes) (j : Nat) :
    (slice realFrame j).length = min 1000 (realFrame.length - 1000 * j) := by
  simp [slice, mid]

/-- The cursor after `j` slices. -/
structure AtSlice (realFrame : Bytes) (j : Nat) (c : SliceCursor) : Prop where
  j_eq : c.j = j
  i_eq : c.i = min (1000 * j) realFrame.length
  len_eq : 1000 * j < realFrame.length → c.len = 1000

theorem writeSlice_run (env : Surroundings) {realFrame : Bytes} {j : Nat} {c : SliceCursor}
    (hc : AtSlice realFrame j c) (hj : 1000 * j < realFrame.length) (s : State) :
    ∃ c', AtSlice realFrame (j + 1) c' ∧ writeSlice env (slicCnt realFrame) realFrame c s =
      ⟨s.written [sliceMessage env realFrame j], .ok (.again c', s)⟩ := by
  have hi : c.i = 1000 * j := by rw [hc.i_eq]; omega
  have hlen : (if realFrame.length - c.i < 1000 then realFrame.length - c.i else c.len) =
      (slice realFrame j).length := by
    rw [slice_length, hc.len_eq hj, hi]
    split <;> omega
  have hmid : mid realFrame c.i (slice realFrame j).length = slice realFrame j := by
    rw [slice_length, hi, mid, slice, mid, ← List.length_drop, ← List.take_take, List.take_length]
  refine ⟨⟨c.i + (slice realFrame j).length, (slice realFrame j).length, c.j + 1⟩, ?_, ?_⟩
  · constructor
    · exact congrArg (· + 1) hc.j_eq
    · simp only [slice_length, hi]
      omega
    · intro hnext
      simp only [slice_length]
      omega
  · rw [writeSlice, hlen, hmid, hc.j_eq, Traced.bind_run, writeSocket_run]
    simp [sliceMessage]

/-- From slice `j` on, the loop writes the `m` slices that are left. -/
theorem iterate_writeSlice (env : Surroundings) {realFrame : Bytes} (s : State) {m : Nat} :
    ∀ {j fuel : Nat} {c : SliceCursor}, AtSlice realFrame j c → j + m = slicCnt realFrame →
      m < fuel → ∃ c', iterate (moreSlices realFrame)
        (writeSlice env (slicCnt realFrame) realFrame) fuel c s =
          ⟨s.written ((List.range' j m).map (sliceMessage env realFrame)), .ok (c', s)⟩ := by
  induction m with
  | zero =>
      intro j fuel c hc hj hfuel
      obtain ⟨fuel, rfl⟩ : ∃ k, fuel = k + 1 := ⟨fuel - 1, by omega⟩
      have hdone : moreSlices realFrame c = false := by
        rw [moreSlices, hc.i_eq]
        unfold slicCnt at hj
        exact decide_eq_false (by omega)
      exact ⟨c, by rw [iterate_done hdone]; simp [State.written]⟩
  | succ m ih =>
      intro j fuel c hc hj hfuel
      obtain ⟨fuel, rfl⟩ : ∃ k, fuel = k + 1 := ⟨fuel - 1, by omega⟩
      have hleft : 1000 * j < realFrame.length := by
        unfold slicCnt at hj
        omega
      have hguard : moreSlices realFrame c = true := by
        rw [moreSlices, hc.i_eq]
        exact decide_eq_true (by omega)
      rcases writeSlice_run env hc hleft s with ⟨c', hc', hbody⟩
      obtain ⟨d, hd⟩ := ih hc' (by omega) (show m < fuel by omega)
      refine ⟨d, ?_⟩
      rw [iterate_again hguard (by rw [hbody]), hbody, hd, List.range'_succ]
      simp only [State.written]
      split <;> simp

theorem writeSlices_run (env : Surroundings) (realFrame : Bytes) (s : State) :
    writeSlices env realFrame s = ⟨s.written (sliceMessages env realFrame), .ok ((), s)⟩ := by
  have hstart : AtSlice realFrame 0 ⟨0, 1000, 0⟩ := ⟨rfl, by simp, fun _ => rfl⟩
  have hfuel : slicCnt realFrame < realFrame.length + 1 := by
    unfold slicCnt
    omega
  rcases iterate_writeSlice env s hstart (Nat.zero_add _) hfuel with ⟨c, hc⟩
  unfold slicCnt at hc
  rw [writeSlices, Traced.bind_run, hc]
  simp [sliceMessages, slicCnt, List.range_eq_range']

/-! ## Frames -/

/-- The kind under which a frame is received. -/
def frameKind (env : Surroundings) (frame : Bytes) : FrameKind := kindOf (frameType env frame)

/-- The flag under which an open connection sends a frame, if it sends it. -/
def sentAs (s : State) (env : Surroundings) (frame : Bytes) : Option UInt32 :=
  match frameKind env frame with
  | .iFrame => if s.bfirstIFrame then some SMS_VIDEO_I_FRAME else none
  | .pFrame => if env.bytesToWrite ≤ 2 * 1024 * 1024 then some SMS_VIDEO_P_FRAME else none
  | .unknown => none

def realFrame (env : Surroundings) (headerFlag : UInt32) (frame : Bytes) : Bytes :=
  (videoFrameHeader env headerFlag frame).bytes ++ frame

def frameMessages (s : State) (env : Surroundings) (frame : Bytes) : List Bytes :=
  match sentAs s env frame with
  | some headerFlag => sliceMessages env (realFrame env headerFlag frame)
  | none => []

section Frame

variable {env : Surroundings} {frame : Bytes} {type : Nat} {s : State}

theorem sendFrame_returns (headerFlag : UInt32) (s : State) :
    (sendFrame env frame type headerFlag s).outcome = .ok ((), s) := by
  rw [sendFrame, Traced.get_bind, Traced.ite_run, Traced.ite_run, writeSlices_run]
  split
  · rfl
  · split <;> rfl

theorem sendFrame_iFrame (hs : s.writable = true) :
    writes (sendFrame env frame type SMS_VIDEO_I_FRAME s).events =
      if s.bfirstIFrame then sliceMessages env (realFrame env SMS_VIDEO_I_FRAME frame) else [] := by
  rw [sendFrame, Traced.get_bind, Traced.ite_run, Traced.ite_run, writeSlices_run]
  cases hg : s.bfirstIFrame with
  | false => simp
  | true => simp [writes_written, hs, realFrame]

theorem sendFrame_pFrame (env : Surroundings) (frame : Bytes) (type : Nat)
    (hs : s.writable = true) (hg : s.bfirstIFrame = true) :
    writes (sendFrame env frame type SMS_VIDEO_P_FRAME s).events =
      if env.bytesToWrite ≤ 2 * 1024 * 1024 then
        sliceMessages env (realFrame env SMS_VIDEO_P_FRAME frame) else [] := by
  have hflag : SMS_VIDEO_P_FRAME ≠ SMS_VIDEO_I_FRAME := by decide
  rw [sendFrame, Traced.get_bind, Traced.ite_run, Traced.ite_run, writeSlices_run]
  by_cases hroom : env.bytesToWrite ≤ 2 * 1024 * 1024
  · rw [if_neg (by simp [hg]), if_neg (by omega), if_pos hroom, writes_written, if_pos hs,
      realFrame]
  · rw [if_neg (by simp [hg]), if_pos ⟨hflag, by omega⟩, if_neg hroom]
    rfl

/-- A frame that reaches an open connection. -/
theorem writeFrame_open (env : Surroundings) (frame : Bytes) (hs : s.writable = true) :
    writes (writeFrame env frame s).events = frameMessages s env frame ∧
      (writeFrame env frame s).outcome = .ok ((), if frameKind env frame = .pFrame then
        { s with bfirstIFrame := true } else s) := by
  rw [writeFrame, Traced.get_bind, Traced.ite_run, if_pos hs, Traced.emit_bind, frameMessages,
    sentAs, frameKind]
  cases kindOf (frameType env frame) with
  | iFrame =>
      refine ⟨?_, sendFrame_returns _ s⟩
      rw [← List.singleton_append, writes_append, sendFrame_iFrame hs]
      cases s.bfirstIFrame <;> rfl
  | pFrame =>
      simp only [Traced.set_bind]
      refine ⟨?_, sendFrame_returns _ _⟩
      have hgate := sendFrame_pFrame env frame (frameType env frame)
        (s := { s with bfirstIFrame := true }) hs rfl
      rw [← List.singleton_append, writes_append, hgate]
      split <;> rfl
  | unknown =>
      simp only [Traced.ite_run]
      split <;> exact ⟨rfl, rfl⟩

theorem writeFrame_closed (hs : s.writable = false) :
    writeFrame env frame s = ⟨[], .ok ((), s)⟩ := by
  rw [writeFrame, Traced.get_bind, Traced.ite_run, if_neg (by simp [hs])]
  rfl

end Frame

/-! ## Commands -/

def loginMessage (env : Surroundings) (s : State) : Bytes :=
  (loginHeader env s.seq).bytes ++ loginBody env s.code

def heartbeatMessage (env : Surroundings) (s : State) : Bytes := (heartbeatHeader env s.seq).bytes

/-- The command word that a chunk is taken for. -/
def chunkCommand (env : Surroundings) (msg : Bytes) : UInt32 := qFromBigEndian32 (headerCmd env msg)

/-- What is observed of a chunk apart from the answer to it. -/
def chunkEvents (env : Surroundings) (msg : Bytes) : List Event :=
  [.readHeader 8 msg.length, .readHeader 9 msg.length, .readHeader 10 msg.length,
    .readHeader 11 msg.length, .command (chunkCommand env msg)]

theorem onConnected_run (env : Surroundings) (s : State) :
    onConnected env s =
      ⟨s.written [loginMessage env s], .ok ((), { s with seq := s.seq + 1 })⟩ := by
  rw [onConnected, Traced.get_bind, Traced.set_bind, writeSocket_run]
  rfl

theorem onHeartbeatTimeout_run (env : Surroundings) (s : State) :
    onHeartbeatTimeout env s =
      ⟨s.written [heartbeatMessage env s], .ok ((), { s with seq := s.seq + 1 })⟩ := by
  rw [onHeartbeatTimeout, Traced.get_bind, Traced.set_bind, Traced.ite_run, writeSocket_run]
  cases hs : s.writable with
  | false => simp [State.written, hs]
  | true => simp [State.written, heartbeatMessage, hs]

theorem readCmd_run (env : Surroundings) (msg : Bytes) (s : State) :
    readCmd env msg s =
      ⟨[.readHeader 8 msg.length, .readHeader 9 msg.length, .readHeader 10 msg.length,
        .readHeader 11 msg.length], .ok (headerCmd env msg, s)⟩ := rfl

theorem onRead_run (env : Surroundings) (msg : Bytes) (s : State) :
    onRead env msg s =
      if chunkCommand env msg = 21100 then
        ⟨chunkEvents env msg ++ s.written [heartbeatMessage env s],
          .ok ((), { s with seq := s.seq + 1 })⟩
      else ⟨chunkEvents env msg, .ok ((), s)⟩ := by
  rw [onRead, Traced.bind_run, readCmd_run, chunkEvents, chunkCommand]
  simp only [Traced.emit_bind, Traced.ite_run, onHeartbeatTimeout_run]
  split <;> simp

/-! ## Any call -/

/-- What a call gives to the socket, message by message. -/
def messages (c : Call) (s : State) : List Bytes :=
  if s.writable then
    match c.slot with
    | .writeFrame frame => frameMessages s c.env frame
    | .onConnected => [loginMessage c.env s]
    | .onRead msg => if chunkCommand c.env msg = 21100 then [heartbeatMessage c.env s] else []
    | .onHeartbeatTimeout => [heartbeatMessage c.env s]
    | .onError => []
  else []

def next (c : Call) (s : State) : State :=
  match c.slot with
  | .writeFrame frame =>
      if s.writable = true ∧ frameKind c.env frame = .pFrame then
        { s with bfirstIFrame := true } else s
  | .onConnected => { s with seq := s.seq + 1 }
  | .onRead msg => if chunkCommand c.env msg = 21100 then { s with seq := s.seq + 1 } else s
  | .onHeartbeatTimeout => { s with seq := s.seq + 1 }
  | .onError => { s with writable := false }

theorem perform_run (c : Call) (s : State) :
    writes (perform c s).events = messages c s ∧ (perform c s).outcome = .ok ((), next c s) := by
  rcases c with ⟨slot, env⟩
  cases slot with
  | writeFrame frame =>
      cases hs : s.writable with
      | false => simp [perform, writeFrame_closed hs, messages, next, hs]
      | true =>
          rcases writeFrame_open env frame hs with ⟨hw, ho⟩
          simp [perform, hw, ho, messages, next, hs]
  | onConnected =>
      simp [perform, onConnected_run, messages, next, writes_written]
  | onRead msg =>
      have hchunk : writes (chunkEvents env msg) = [] := rfl
      simp only [perform, onRead_run, messages, next]
      split <;> simp [hchunk, writes_written]
  | onHeartbeatTimeout =>
      simp [perform, onHeartbeatTimeout_run, messages, next, writes_written]
  | onError =>
      simp [perform, onError, Traced.get_bind, messages, next]

/-- There are three kinds of messages, and only `onConnected` writes a login. -/
theorem mem_messages {c : Call} {s : State} {msg : Bytes} (h : msg ∈ messages c s) :
    (c.slot = .onConnected ∧ msg = loginMessage c.env s) ∨ msg = heartbeatMessage c.env s ∨
      ∃ xs j, msg = sliceMessage c.env xs j := by
  rw [messages] at h
  split at h
  · cases hslot : c.slot with
    | writeFrame frame =>
        simp only [hslot, frameMessages] at h
        cases hsent : sentAs s c.env frame with
        | none => simp [hsent] at h
        | some headerFlag =>
            simp only [hsent, sliceMessages] at h
            rcases List.mem_map.mp h with ⟨j, -, hj⟩
            exact .inr (.inr ⟨_, j, hj.symm⟩)
    | onConnected =>
        simp only [hslot] at h
        exact .inl ⟨rfl, List.mem_singleton.mp h⟩
    | onRead chunk =>
        simp only [hslot] at h
        split at h
        · exact .inr (.inl (List.mem_singleton.mp h))
        · simp at h
    | onHeartbeatTimeout =>
        simp only [hslot] at h
        exact .inr (.inl (List.mem_singleton.mp h))
    | onError => simp [hslot] at h
  · simp at h

/-- A run writes what each of its calls writes at the state it finds. -/
theorem run_writes (calls : List Call) (s : State) :
    writes (run calls s).events =
      (Traced.visits perform calls s).flatMap fun v => messages v.1 v.2 := by
  rw [run, Traced.forEach_events, writes_flatMap]
  simp only [perform_run]

/-! ## The run so far -/

/-- The state that some calls lead to. -/
def leftBy (calls : List Call) (s : State) : State := calls.foldl (fun t c => next c t) s

theorem run_outcome (calls : List Call) (s : State) :
    (run calls s).outcome = .ok ((), leftBy calls s) := by
  induction calls generalizing s with
  | nil => rfl
  | cons c calls ih =>
      rw [run, Traced.forEach_ok (perform_run c s).2]
      exact ih (next c s)

theorem run_cons_writes (c : Call) (calls : List Call) (s : State) :
    writes (run (c :: calls) s).events =
      messages c s ++ writes (run calls (next c s)).events := by
  rw [run, Traced.forEach_ok (perform_run c s).2, writes_append, (perform_run c s).1]
  rfl

theorem run_append_writes (pre post : List Call) (s : State) :
    writes (run (pre ++ post) s).events =
      writes (run pre s).events ++ writes (run post (leftBy pre s)).events := by
  rw [run, Traced.forEach_append_ok (run_outcome pre s), writes_append]
  rfl

theorem leftBy_append (pre post : List Call) (s : State) :
    leftBy (pre ++ post) s = leftBy post (leftBy pre s) := List.foldl_append

end SimpleSipClient.SMS
