import SimpleSipClient.Sms.Framing

/-! # The first message on the stream

The server expects a login before anything else. The socket takes messages from the
moment it begins to connect and sends them once it has connected, so what is written
before `onConnected` goes out ahead of the login. The login is first exactly when no
earlier call writes.
-/

namespace SimpleSipClient.SMS

open Foundation

/-- The command in the header of a message. -/
def commandOf (msg : Bytes) : Option UInt32 := (readHeader msg).map fun h => h.1.cmd

/-- The socket becomes connected while it is open. -/
def connects (v : Call × State) : Bool := v.1.slot == .onConnected && v.2.writable

/-- The messages on the TCP stream. They wait in the socket until it has connected. -/
def tcpStream (code : List UInt16) (calls : List Call) : List Bytes :=
  if (Traced.visits perform calls (sms code)).any connects then
    writes (run calls (sms code)).events
  else []

def LoginFirst (code : List UInt16) (calls : List Call) : Prop :=
  ∀ msg, (tcpStream code calls).head? = some msg → commandOf msg = some 21000

def Call.isPFrame (c : Call) : Bool :=
  match c.slot with
  | .writeFrame frame => frameKind c.env frame = .pFrame
  | _ => false

/-- After these calls on an open socket the call writes something. -/
def Speaks (before : List Call) (c : Call) : Prop :=
  match c.slot with
  | .writeFrame frame =>
      match frameKind c.env frame with
      | .iFrame => ∃ p ∈ before, p.isPFrame = true
      | .pFrame => c.env.bytesToWrite ≤ 2 * 1024 * 1024
      | .unknown => False
  | .onConnected => True
  | .onRead msg => chunkCommand c.env msg = 21100
  | .onHeartbeatTimeout => True
  | .onError => False

/-- The socket has been neither connected nor closed. -/
def Connecting (pre : List Call) : Prop :=
  ∀ c ∈ pre, c.slot ≠ .onConnected ∧ c.slot ≠ .onError

/-- When the socket becomes connected, nothing has been written yet. -/
def QuietUntilConnected (calls : List Call) : Prop :=
  ∀ pre c post, calls = pre ++ c :: post → c.slot = .onConnected → Connecting pre →
    ∀ before d after, pre = before ++ d :: after → ¬ Speaks before d

/-! ## An open socket -/

theorem next_writable {c : Call} (s : State) (hc : c.slot ≠ .onError) :
    (next c s).writable = s.writable := by
  rcases c with ⟨slot, env⟩
  cases slot with
  | writeFrame frame =>
      simp only [next]
      split <;> rfl
  | onConnected => rfl
  | onRead msg =>
      simp only [next]
      split <;> rfl
  | onHeartbeatTimeout => rfl
  | onError => exact absurd rfl hc

theorem next_bfirstIFrame (c : Call) {s : State} (hs : s.writable = true) :
    (next c s).bfirstIFrame = (s.bfirstIFrame || c.isPFrame) := by
  rcases c with ⟨slot, env⟩
  cases slot with
  | writeFrame frame =>
      by_cases hP : frameKind env frame = .pFrame
      · simp [next, Call.isPFrame, hs, hP]
      · simp [next, Call.isPFrame, hP]
  | onConnected => simp [next, Call.isPFrame]
  | onRead msg =>
      simp only [next, Call.isPFrame, Bool.or_false]
      split <;> rfl
  | onHeartbeatTimeout => simp [next, Call.isPFrame]
  | onError => simp [next, Call.isPFrame]

/-- Until it is closed the socket is open, and the gate is open behind a P frame. -/
theorem leftBy_open {calls : List Call} {s : State} (hs : s.writable = true)
    (hcalls : ∀ c ∈ calls, c.slot ≠ .onError) :
    (leftBy calls s).writable = true ∧
      (leftBy calls s).bfirstIFrame = (s.bfirstIFrame || calls.any Call.isPFrame) := by
  induction calls generalizing s with
  | nil => exact ⟨hs, by simp [leftBy]⟩
  | cons c calls ih =>
      rw [List.forall_mem_cons] at hcalls
      have hnext : (next c s).writable = true := (next_writable s hcalls.1).trans hs
      rcases ih hnext hcalls.2 with ⟨hwritable, hgate⟩
      refine ⟨hwritable, ?_⟩
      rw [leftBy, List.foldl_cons, ← leftBy, hgate, next_bfirstIFrame c hs, List.any_cons,
        Bool.or_assoc]

/-- A closed socket stays closed. -/
theorem leftBy_closed {calls : List Call} {s : State} (hs : s.writable = false) :
    (leftBy calls s).writable = false := by
  induction calls generalizing s with
  | nil => exact hs
  | cons c calls ih =>
      apply ih
      by_cases hc : c.slot = .onError
      · simp [next, hc]
      · exact (next_writable s hc).trans hs

theorem leftBy_onError {calls : List Call} {c : Call} (hc : c ∈ calls) (herr : c.slot = .onError)
    (s : State) : (leftBy calls s).writable = false := by
  rcases List.append_of_mem hc with ⟨pre, post, rfl⟩
  have hclosed : (next c (leftBy pre s)).writable = false := by simp [next, herr]
  have hrest : (leftBy post (next c (leftBy pre s))).writable = false := leftBy_closed hclosed
  rw [leftBy_append]
  exact hrest

/-! ## What is written -/

theorem slicCnt_pos (env : Surroundings) (headerFlag : UInt32) (frame : Bytes) :
    0 < slicCnt (realFrame env headerFlag frame) := by
  have hheader : (videoFrameHeader env headerFlag frame).bytes.length = 24 := by
    simp [VideoFrameHeader.bytes]
  rw [slicCnt, realFrame, List.length_append, hheader]
  omega

theorem frameMessages_eq_nil {s : State} {env : Surroundings} {frame : Bytes} :
    frameMessages s env frame = [] ↔ sentAs s env frame = none := by
  rw [frameMessages]
  cases sentAs s env frame with
  | none => simp
  | some headerFlag =>
      have hcount := slicCnt_pos env headerFlag frame
      have hne : ¬ sliceMessages env (realFrame env headerFlag frame) = [] := by
        rw [sliceMessages, List.map_eq_nil_iff, List.range_eq_nil]
        omega
      simpa using hne

/-- The calls of a fresh object that write something before it is closed. -/
theorem messages_eq_nil_iff {pre : List Call} (code : List UInt16) (c : Call)
    (hpre : ∀ d ∈ pre, d.slot ≠ .onError) :
    messages c (leftBy pre (sms code)) = [] ↔ ¬ Speaks pre c := by
  rcases leftBy_open (s := sms code) rfl hpre with ⟨hopen, hgate⟩
  rw [messages, if_pos hopen, Speaks]
  cases c.slot with
  | writeFrame frame =>
      simp only [frameMessages_eq_nil, sentAs, hgate]
      cases frameKind c.env frame with
      | iFrame => simp [sms]
      | pFrame => simp
      | unknown => simp
  | onConnected => simp
  | onRead msg => simp
  | onHeartbeatTimeout => simp
  | onError => simp

theorem commandOf_toWire (h : SMSHeader) (rest : Bytes) :
    commandOf (h.toWire.bytes ++ rest) = some h.cmd := by
  rw [commandOf, readHeader_toWire]
  rfl

theorem commandOf_login (env : Surroundings) (s : State) :
    commandOf (loginMessage env s) = some 21000 :=
  commandOf_toWire {
    magic := 0xFFFF559F
    channelId := 0
    flag := env.flag 0
    cmdType := 1
    cmd := 21000
    seqnum := s.seq
    length := 32 } _

theorem commandOf_heartbeat (env : Surroundings) (s : State) :
    commandOf (heartbeatMessage env s) = some 21001 := by
  have h := commandOf_toWire {
    magic := 0xFFFF559F
    channelId := env.channelId
    flag := env.flag 0
    cmdType := 1
    cmd := 21001
    seqnum := s.seq
    length := 0 } []
  rwa [List.append_nil] at h

theorem commandOf_slice (env : Surroundings) (xs : Bytes) (j : Nat) :
    commandOf (sliceMessage env xs j) = some 31000 :=
  commandOf_toWire {
    magic := 0xFFFF559F
    channelId := 0
    flag := env.flag j
    cmdType := 0
    cmd := 31000
    seqnum := UInt32.ofNat (slicCnt xs) ||| UInt32.ofNat j <<< 16
    length := UInt32.ofNat (slice xs j).length } _

/-- Only `onConnected` writes a login. -/
theorem commandOf_messages {c : Call} (hc : c.slot ≠ .onConnected) {s : State} {msg : Bytes}
    (hmsg : msg ∈ messages c s) : commandOf msg ≠ some 21000 := by
  rcases mem_messages hmsg with ⟨hslot, -⟩ | rfl | ⟨xs, j, rfl⟩
  · exact absurd hslot hc
  · rw [commandOf_heartbeat]
    decide
  · rw [commandOf_slice]
    decide

/-! ## The login -/

section Connected

variable {pre : List Call} {c : Call}

theorem visits_run (pre : List Call) (c : Call) (post : List Call) (s : State) :
    ∃ ws, Traced.visits perform (pre ++ c :: post) s =
      Traced.visits perform pre s ++ (c, leftBy pre s) :: ws := by
  rw [Traced.visits_append_ok (run_outcome pre s)]
  exact ⟨_, rfl⟩

/-- What is visited is the state that the earlier calls lead to. -/
theorem visited_run {calls : List Call} {s : State} {us ws : List (Call × State)}
    {v : Call × State} (h : Traced.visits perform calls s = us ++ v :: ws) :
    ∃ post, calls = us.map Prod.fst ++ v.1 :: post ∧ v.2 = leftBy (us.map Prod.fst) s ∧
      us = Traced.visits perform (us.map Prod.fst) s := by
  rcases Traced.visits_split h with ⟨post, hcalls, hrun, hus⟩
  have hleft := run_outcome (us.map Prod.fst) s
  rw [run, hrun, Except.ok.injEq, Prod.mk.injEq] at hleft
  exact ⟨post, hcalls, hleft.2, hus⟩

theorem connects_iff (code : List UInt16) (calls : List Call) :
    (Traced.visits perform calls (sms code)).any connects = true ↔
      ∃ pre c post, calls = pre ++ c :: post ∧ c.slot = .onConnected ∧
        ∀ d ∈ pre, d.slot ≠ .onError := by
  rw [List.any_eq_true]
  constructor
  · rintro ⟨v, hv, hconnects⟩
    rw [connects, Bool.and_eq_true, beq_iff_eq] at hconnects
    rcases List.append_of_mem hv with ⟨us, ws, hvs⟩
    rcases visited_run hvs with ⟨post, hcalls, hstate, -⟩
    refine ⟨us.map Prod.fst, v.1, post, hcalls, hconnects.1, fun d hd herr => ?_⟩
    have hclosed := leftBy_onError hd herr (sms code)
    rw [← hstate, hconnects.2] at hclosed
    cases hclosed
  · rintro ⟨pre, c, post, rfl, hc, hpre⟩
    rcases visits_run pre c post (sms code) with ⟨ws, hws⟩
    refine ⟨(c, leftBy pre (sms code)), by simp [hws], ?_⟩
    have hopen := (leftBy_open (s := sms code) rfl hpre).1
    simp [connects, hc, hopen]

theorem tcpStream_of_connected (code : List UInt16) (post : List Call)
    (hc : c.slot = .onConnected) (hpre : ∀ d ∈ pre, d.slot ≠ .onError) :
    ∃ rest, tcpStream code (pre ++ c :: post) =
      writes (run pre (sms code)).events ++ loginMessage c.env (leftBy pre (sms code)) :: rest := by
  have hopen := (leftBy_open (s := sms code) rfl hpre).1
  have hlogin : messages c (leftBy pre (sms code)) =
      [loginMessage c.env (leftBy pre (sms code))] := by
    rw [messages, if_pos hopen, hc]
  rw [tcpStream, if_pos ((connects_iff code _).mpr ⟨pre, c, post, rfl, hc, hpre⟩),
    run_append_writes, run_cons_writes, hlogin]
  exact ⟨_, rfl⟩

theorem first_onConnected (calls : List Call) (h : ∃ c ∈ calls, c.slot = .onConnected) :
    ∃ pre c post, calls = pre ++ c :: post ∧ c.slot = .onConnected ∧
      ∀ d ∈ pre, d.slot ≠ .onConnected := by
  rcases h with ⟨c, hc, hslot⟩
  have hfind : (calls.find? fun d => d.slot == .onConnected).isSome = true :=
    List.find?_isSome.mpr ⟨c, hc, by simp [hslot]⟩
  rcases Option.isSome_iff_exists.mp hfind with ⟨d, hd⟩
  rcases List.find?_eq_some_iff_append.mp hd with ⟨hslot, pre, post, rfl, hpre⟩
  refine ⟨pre, d, post, rfl, by simpa using hslot, fun e he => by simpa using hpre e he⟩

theorem quiet_writes (code : List UInt16) (hpre : ∀ d ∈ pre, d.slot ≠ .onError)
    (hquiet : ∀ before d after, pre = before ++ d :: after → ¬ Speaks before d) :
    writes (run pre (sms code)).events = [] := by
  rw [run_writes, List.flatMap_eq_nil_iff]
  intro v hv
  rcases List.append_of_mem hv with ⟨us, ws, hvs⟩
  rcases visited_run hvs with ⟨after, hsplit, hstate, -⟩
  rw [hstate]
  refine (messages_eq_nil_iff code v.1 fun d hd => hpre d ?_).mpr (hquiet _ _ _ hsplit)
  rw [hsplit]
  exact List.mem_append_left _ hd

end Connected

/-- The login comes first exactly in the runs in which nothing is written before the socket
becomes connected. -/
theorem login_first_iff (code : List UInt16) (calls : List Call) :
    LoginFirst code calls ↔ QuietUntilConnected calls := by
  constructor
  · rintro hfirst pre c post rfl hc hpre before d after rfl hspeaks
    have hopen : ∀ e ∈ before ++ d :: after, e.slot ≠ .onError := fun e he => (hpre e he).2
    have hopen' : ∀ e ∈ before, e.slot ≠ .onError := fun e he =>
      hopen e (List.mem_append_left _ he)
    rcases tcpStream_of_connected code post hc hopen with ⟨rest, hstream⟩
    -- The first message is one of those written before the login.
    have hne : writes (run (before ++ d :: after) (sms code)).events ≠ [] := by
      rw [run_append_writes, run_cons_writes]
      have hmsgs := mt (messages_eq_nil_iff code d hopen').mp (not_not_intro hspeaks)
      simp [hmsgs]
    rcases List.exists_cons_of_ne_nil hne with ⟨msg, msgs, hmsgs⟩
    have hlogin : commandOf msg = some 21000 :=
      hfirst msg (by rw [hstream, hmsgs]; rfl)
    have hmem : msg ∈ writes (run (before ++ d :: after) (sms code)).events := by
      rw [hmsgs]
      exact List.mem_cons_self
    rw [run_writes] at hmem
    rcases List.mem_flatMap.mp hmem with ⟨v, hv, hmsg⟩
    exact commandOf_messages (hpre v.1 (Traced.mem_visits_input hv)).1 hmsg hlogin
  · intro hquiet msg hhead
    have hconnects : (Traced.visits perform calls (sms code)).any connects = true := by
      by_contra hnot
      rw [tcpStream, if_neg hnot] at hhead
      cases hhead
    rcases (connects_iff code calls).mp hconnects with ⟨pre, c, post, hcalls, hc, hpre⟩
    -- The first connection is the one that counts, and it comes before the close as well.
    obtain ⟨pre', c', post', hsplit, hc', hpre'⟩ :=
      first_onConnected (pre ++ [c]) ⟨c, by simp, hc⟩
    have hopen : ∀ d ∈ pre', d.slot ≠ .onError := by
      intro d hd
      have hmem : d ∈ pre ++ [c] := by
        rw [hsplit]
        exact List.mem_append_left _ hd
      rcases List.mem_append.mp hmem with hd | hd
      · exact hpre d hd
      · rw [List.mem_singleton.mp hd, hc]
        exact Slot.noConfusion
    have hcalls' : calls = pre' ++ c' :: (post' ++ post) := by
      rw [hcalls, ← List.singleton_append (x := c), ← List.append_assoc, hsplit]
      simp
    have hnone := quiet_writes code hopen
      (hquiet _ _ _ hcalls' hc' fun d hd => ⟨hpre' d hd, hopen d hd⟩)
    rcases tcpStream_of_connected code (post' ++ post) hc' hopen with ⟨rest, hstream⟩
    rw [hcalls', hstream, hnone, List.nil_append, List.head?_cons, Option.some.injEq] at hhead
    rw [← hhead]
    exact commandOf_login _ _

/-- A P frame reaches the session before its socket is connected. -/
theorem frame_before_login :
    ¬ LoginFirst [] [⟨.writeFrame [0, 0, 0, 1, 0x41], quiet⟩, ⟨.onConnected, quiet⟩] := by
  intro h
  obtain ⟨msg, hmsg⟩ : ∃ msg, (tcpStream []
      [⟨.writeFrame [0, 0, 0, 1, 0x41], quiet⟩, ⟨.onConnected, quiet⟩]).head? = some msg ∧
      commandOf msg = some 31000 := by
    refine ⟨_, rfl, ?_⟩
    decide +kernel
  exact absurd (h msg hmsg.1) (by rw [hmsg.2]; decide)

end SimpleSipClient.SMS
