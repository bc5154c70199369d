import SimpleSipClient.Sms.Framing

/-! # What the server reads

Every call contributes a group of messages: one login, one heartbeat, the slices of a
frame, or nothing. The server reads exactly these groups, one after the other, as long
as a frame has fewer than 65536 slices and the stream code fills the login body.
-/

namespace SimpleSipClient.SMS

open Foundation

/-! ## Slices as messages -/

/-- The slice count in the low half and the slice index in the high half of one word. -/
theorem seqnum_toNat {count index : Nat} (hc : count < 65536) (hi : index < 65536) :
    (UInt32.ofNat count ||| UInt32.ofNat index <<< 16).toNat = 65536 * index + count := by
  have hcount : (UInt32.ofNat count).toNat = count :=
    UInt32.toNat_ofNat_of_lt' (Nat.lt_trans hc (by decide))
  have hindex : (UInt32.ofNat index <<< 16).toNat = 2 ^ 16 * index := by
    rw [UInt32.toNat_shiftLeft, UInt32.toNat_ofNat_of_lt' (Nat.lt_trans hi (by decide))]
    simp only [UInt32.reduceToNat, Nat.reduceMod, Nat.shiftLeft_eq]
    omega
  rw [UInt32.toNat_or, hcount, hindex, Nat.or_comm, ← Nat.two_pow_add_eq_or_of_lt hc]

theorem seqnum_index {count index : Nat} (hc : count < 65536) (hi : index < 65536) :
    ((UInt32.ofNat count ||| UInt32.ofNat index <<< 16) >>> 16).toNat = index := by
  rw [UInt32.toNat_shiftRight, seqnum_toNat hc hi]
  simp only [UInt32.reduceToNat, Nat.reduceMod, Nat.shiftRight_eq_div_pow]
  omega

theorem seqnum_count {count index : Nat} (hc : count < 65536) (hi : index < 65536) :
    ((UInt32.ofNat count ||| UInt32.ofNat index <<< 16) &&& 0xFFFF).toNat = count := by
  rw [UInt32.toNat_and, seqnum_toNat hc hi]
  have hmask : (0xFFFF : UInt32).toNat = 2 ^ 16 - 1 := rfl
  rw [hmask, Nat.and_two_pow_sub_one_eq_mod]
  omega

theorem slice_short (xs : Bytes) (j : Nat) : (slice xs j).length ≤ 1000 := by
  rw [slice_length]
  omega

/-- Slice `j` of a frame as the message that the server reads. -/
def sliceAsMessage (env : Surroundings) (xs : Bytes) (j : Nat) : Message where
  header := {
    magic := 0xFFFF559F
    channelId := 0
    flag := env.flag j
    cmdType := 0
    cmd := 31000
    seqnum := UInt32.ofNat (slicCnt xs) ||| UInt32.ofNat j <<< 16
    length := UInt32.ofNat (slice xs j).length }
  body := slice xs j
  magic_eq := rfl
  length_eq := UInt32.toNat_ofNat_of_lt' (Nat.lt_of_le_of_lt (slice_short xs j) (by decide))

/-- The first `n` slices end where slice `n` begins. -/
theorem flatMap_slice (xs : Bytes) (n : Nat) :
    (List.range n).flatMap (slice xs) = xs.take (1000 * n) := by
  induction n with
  | zero => simp
  | succ n ih =>
      rw [List.range_succ, List.flatMap_append, ih, List.flatMap_singleton, slice, mid,
        ← List.take_add]
      congr 1

theorem flatMap_all_slices (xs : Bytes) : (List.range (slicCnt xs)).flatMap (slice xs) = xs := by
  rw [flatMap_slice]
  apply List.take_of_length_le
  unfold slicCnt
  omega

/-! ## Groups -/

/-- The messages of one frame. -/
structure FrameGroup (frame : Bytes) (group : List Message) : Prop where
  commands : ∀ m ∈ group, m.header.cmd = 31000
  indexes : group.map (fun m : Message => (m.header.seqnum >>> 16).toNat) = List.range group.length
  counts : ∀ m ∈ group, (m.header.seqnum &&& 0xFFFF).toNat = group.length
  bodies : ∃ v : VideoFrameHeader, v.nVFrameLen.toNat = frame.length ∧ v.bytes.length = 24 ∧
    group.flatMap Message.body = v.bytes ++ frame

/-- A single message with this command and body. -/
def Single (cmd : UInt32) (body : Bytes) (group : List Message) : Prop :=
  ∃ m, group = [m] ∧ m.header.cmd = cmd ∧ m.body = body

/-- The messages that a call contributes to the stream. -/
def SentBy (c : Call) (s : State) (group : List Message) : Prop :=
  if s.writable then
    match c.slot with
    | .writeFrame frame =>
        if (sentAs s c.env frame).isSome then FrameGroup frame group else group = []
    | .onConnected => Single 21000 ((toLatin1 s.code).take 32) group
    | .onRead msg => if chunkCommand c.env msg = 21100 then Single 21001 [] group else group = []
    | .onHeartbeatTimeout => Single 21001 [] group
    | .onError => group = []
  else group = []

theorem frameGroup (env : Surroundings) (headerFlag : UInt32) {frame : Bytes}
    (h : frame.length ≤ 1024 * 1024) :
    ∃ group, FrameGroup frame group ∧
      sliceMessages env (realFrame env headerFlag frame) = group.map Message.encode := by
  have hheader : (videoFrameHeader env headerFlag frame).bytes.length = 24 := by
    simp [VideoFrameHeader.bytes]
  have hcount : slicCnt (realFrame env headerFlag frame) < 65536 := by
    rw [slicCnt, realFrame, List.length_append, hheader]
    omega
  refine ⟨(List.range (slicCnt (realFrame env headerFlag frame))).map
    (sliceAsMessage env (realFrame env headerFlag frame)), ⟨?_, ?_, ?_, ?_⟩, ?_⟩
  · intro m hm
    rcases List.mem_map.mp hm with ⟨j, -, rfl⟩
    rfl
  · rw [List.map_map, List.length_map, List.length_range]
    refine (List.map_congr_left fun j hj => ?_).trans (List.map_id _)
    exact seqnum_index hcount (Nat.lt_trans (List.mem_range.mp hj) hcount)
  · intro m hm
    rcases List.mem_map.mp hm with ⟨j, hj, rfl⟩
    rw [List.length_map, List.length_range]
    exact seqnum_count hcount (Nat.lt_trans (List.mem_range.mp hj) hcount)
  · refine ⟨videoFrameHeader env headerFlag frame, ?_, hheader, ?_⟩
    · exact UInt32.toNat_ofNat_of_lt' (Nat.lt_of_le_of_lt h (by decide))
    · rw [List.flatMap_map]
      exact flatMap_all_slices _
  · rw [sliceMessages, List.map_map]
    rfl

def loginAsMessage (env : Surroundings) (s : State) (h : 32 ≤ s.code.length) : Message where
  header := {
    magic := 0xFFFF559F
    channelId := 0
    flag := env.flag 0
    cmdType := 1
    cmd := 21000
    seqnum := s.seq
    length := 32 }
  body := (toLatin1 s.code).take 32
  magic_eq := rfl
  length_eq := by simp [toLatin1, h]

/-- A code of 32 characters fills the login body. -/
theorem loginBody_eq (env : Surroundings) {code : List UInt16} (h : 32 ≤ code.length) :
    loginBody env code = (toLatin1 code).take 32 := by
  have hlen : (toLatin1 code).length = code.length := List.length_map _
  have hrange := dataAt_range env (show 0 + 32 ≤ (toLatin1 code).length by omega)
  simpa only [loginBody, Nat.zero_add, List.drop_zero] using hrange

theorem loginMessage_eq (env : Surroundings) {s : State} (h : 32 ≤ s.code.length) :
    loginMessage env s = (loginAsMessage env s h).encode := by
  rw [loginMessage, loginBody_eq env h]
  rfl

def heartbeatAsMessage (env : Surroundings) (s : State) : Message where
  header := {
    magic := 0xFFFF559F
    channelId := env.channelId
    flag := env.flag 0
    cmdType := 1
    cmd := 21001
    seqnum := s.seq
    length := 0 }
  body := []
  magic_eq := rfl
  length_eq := rfl

theorem heartbeatMessage_eq (env : Surroundings) (s : State) :
    heartbeatMessage env s = (heartbeatAsMessage env s).encode := by
  rw [heartbeatMessage, Message.encode, heartbeatAsMessage, List.append_nil]
  rfl

theorem heartbeat_group (env : Surroundings) (s : State) :
    ∃ group, Single 21001 [] group ∧
      [heartbeatMessage env s] = group.map Message.encode :=
  ⟨[heartbeatAsMessage env s], ⟨_, rfl, rfl, rfl⟩, by simp [heartbeatMessage_eq]⟩

theorem frameMessages_group (s : State) (env : Surroundings) {frame : Bytes}
    (h : frame.length ≤ 1024 * 1024) :
    ∃ group, (if (sentAs s env frame).isSome then FrameGroup frame group else group = []) ∧
      frameMessages s env frame = group.map Message.encode := by
  rw [frameMessages]
  cases sentAs s env frame with
  | none => exact ⟨[], rfl, rfl⟩
  | some headerFlag => exact frameGroup env headerFlag h

/-- What a call writes is a group of messages. -/
theorem call_group (c : Call) {s : State}
    (hframe : ∀ frame, c.slot = .writeFrame frame → frame.length ≤ 1024 * 1024)
    (hcode : 32 ≤ s.code.length) :
    ∃ group, SentBy c s group ∧ messages c s = group.map Message.encode := by
  rcases c with ⟨slot, env⟩
  unfold SentBy messages
  cases s.writable with
  | false => exact ⟨[], rfl, rfl⟩
  | true =>
      cases slot with
      | writeFrame frame => exact frameMessages_group s env (hframe frame rfl)
      | onConnected =>
          exact ⟨[loginAsMessage env s hcode], ⟨_, rfl, rfl, rfl⟩,
            by simp [loginMessage_eq env hcode]⟩
      | onRead msg =>
          by_cases hcmd : chunkCommand env msg = 21100
          · simp only [hcmd, if_true]
            exact heartbeat_group env s
          · exact ⟨[], by simp [hcmd], by simp [hcmd]⟩
      | onHeartbeatTimeout => exact heartbeat_group env s
      | onError => exact ⟨[], rfl, rfl⟩

/-! ## The stream -/

theorem perform_code (c : Call) (s s' : State) (h : (perform c s).outcome = .ok ((), s')) :
    s'.code = s.code := by
  rw [(perform_run c s).2, Except.ok.injEq, Prod.mk.injEq] at h
  rcases c with ⟨slot, env⟩
  rw [← h.2]
  cases slot with
  | writeFrame frame =>
      simp only [next]
      split <;> rfl
  | onConnected => rfl
  | onRead msg =>
      simp only [next]
      split <;> rfl
  | onHeartbeatTimeout => rfl
  | onError => rfl

/-- Groups chosen call by call make up the whole. -/
theorem groups_of_calls {vs : List (Call × State)}
    (h : ∀ v ∈ vs, ∃ group, SentBy v.1 v.2 group ∧ messages v.1 v.2 = group.map Message.encode) :
    ∃ groups, List.Forall₂ (fun v group => SentBy v.1 v.2 group) vs groups ∧
      vs.flatMap (fun v => messages v.1 v.2) = groups.flatten.map Message.encode := by
  induction vs with
  | nil => exact ⟨[], .nil, rfl⟩
  | cons v vs ih =>
      rcases h v List.mem_cons_self with ⟨group, hsent, hmsgs⟩
      obtain ⟨groups, hgroups, hflat⟩ := ih fun w hw => h w (List.mem_cons_of_mem v hw)
      exact ⟨group :: groups, .cons hsent hgroups, by simp [hmsgs, hflat]⟩

/-- The bytes on the socket are read back as the groups of the calls, in order. -/
theorem stream_round_trip (calls : List Call) (s : State)
    (hframes : ∀ c ∈ calls, ∀ frame, c.slot = .writeFrame frame → frame.length ≤ 1024 * 1024)
    (hcode : 32 ≤ s.code.length) :
    ∃ groups, List.Forall₂ (fun v group => SentBy v.1 v.2 group)
        (Traced.visits perform calls s) groups ∧
      wire.readAll (writes (run calls s).events).flatten = some groups.flatten := by
  have hcodes : ∀ v ∈ Traced.visits perform calls s, v.2.code = s.code :=
    Traced.visits_invariant (fun c t t' ht hrun => (perform_code c t t' hrun).trans ht) rfl
  obtain ⟨groups, hgroups, hflat⟩ := groups_of_calls fun v hv =>
    call_group v.1 (s := v.2) (hframes v.1 (Traced.mem_visits_input hv))
      (by rw [hcodes v hv]; exact hcode)
  refine ⟨groups, hgroups, ?_⟩
  rw [run_writes, hflat, ← List.flatMap_def]
  exact wire.readAll_flatMap groups.flatten

theorem stream_round_trip_login_frame_heartbeat :
    ∃ groups, List.Forall₂ (fun v group => SentBy v.1 v.2 group)
        (Traced.visits perform [⟨.onConnected, quiet⟩,
          ⟨.writeFrame [0, 0, 0, 1, 0x41], quiet⟩, ⟨.onHeartbeatTimeout, quiet⟩]
          (sms (List.replicate 32 0x61))) groups ∧
      wire.readAll (writes (run [⟨.onConnected, quiet⟩,
          ⟨.writeFrame [0, 0, 0, 1, 0x41], quiet⟩, ⟨.onHeartbeatTimeout, quiet⟩]
          (sms (List.replicate 32 0x61))).events).flatten = some groups.flatten := by
  apply stream_round_trip
  · intro c hc frame hframe
    simp only [List.mem_cons, List.not_mem_nil, or_false] at hc
    rcases hc with rfl | rfl | rfl
    · cases hframe
    · cases hframe
      decide
    · cases hframe
  · decide

end SimpleSipClient.SMS
