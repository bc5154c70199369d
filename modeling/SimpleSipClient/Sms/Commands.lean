import SimpleSipClient.Sms.Stream

/-! # Commands from the server

`onRead` takes whatever `readAll` returns for one message and looks at the command word
of its header. There is no state between two chunks: a chunk gives one reaction, to
the four bytes at offset 8. What the server sent is what is reacted to when every chunk
begins with a header, in particular when each message arrives as a chunk of its own.
-/

namespace SimpleSipClient.SMS

open Foundation

/-- The bytes available at one `readyRead`. -/
structure Chunk where
  env : Surroundings
  msg : Bytes

def readChunk (c : Chunk) : Sms Unit := onRead c.env c.msg

def receive (chunks : List Chunk) : Sms Unit := Traced.forEach readChunk chunks

def Chunk.command (c : Chunk) : UInt32 := chunkCommand c.env c.msg

/-- The commands that a run reacts to. -/
def commands (es : List Event) : List UInt32 :=
  es.filterMap fun e => match e with
    | .command cmd => some cmd
    | _ => none

/-- Every header byte that is read belongs to the chunk. -/
def ReadsInside (es : List Event) : Prop :=
  ∀ offset chunkSize, .readHeader offset chunkSize ∈ es → offset < chunkSize

def isHeartbeat (m : Message) : Prop := m.header.cmd = 21001 ∧ m.body = []

/-! ## One chunk -/

@[simp] theorem commands_append (es fs : List Event) :
    commands (es ++ fs) = commands es ++ commands fs := by
  simp [commands]

theorem commands_written (s : State) (msgs : List Bytes) : commands (s.written msgs) = [] := by
  unfold State.written
  split
  · simp [commands]
  · rfl

theorem commands_readChunk (c : Chunk) (s : State) :
    commands (readChunk c s).events = [c.command] := by
  have hchunk : commands (chunkEvents c.env c.msg) = [c.command] := rfl
  rw [readChunk, onRead_run]
  split
  · simp [hchunk, commands_written]
  · exact hchunk

/-- The header bytes at offset 8 are the command in network order. -/
theorem chunkCommand_header (env : Surroundings) (h : SMSHeader) (rest : Bytes) :
    chunkCommand env (h.toWire.bytes ++ rest) = h.cmd := by
  have hbytes : ((h.toWire.bytes ++ rest).drop 8).take 4 = bigEndian 4 h.cmd.toNat := by
    rw [SMSHeader.toWire_bytes]
    simp [bigEndian, littleEndian]
  have hread := dataAt_range env (show 8 + 4 ≤ (h.toWire.bytes ++ rest).length by
    rw [List.length_append, SMSHeader.bytes_length]
    omega)
  have hword : swapBytes 4 (ofLittleEndian (bigEndian 4 h.cmd.toNat)) = h.cmd.toNat := by
    have hswap := swapBytes_ofLittleEndian (bigEndian 4 h.cmd.toNat)
    rw [bigEndian_length, ofBigEndian_bigEndian,
      Nat.mod_eq_of_lt (show h.cmd.toNat < 256 ^ 4 from h.cmd.toNat_lt)] at hswap
    exact hswap
  have hlt := ofLittleEndian_lt (bigEndian 4 h.cmd.toNat)
  rw [bigEndian_length] at hlt
  have hcmd : headerCmd env (h.toWire.bytes ++ rest) =
      UInt32.ofNat (ofLittleEndian (bigEndian 4 h.cmd.toNat)) := by
    rw [← hbytes, ← hread]
    rfl
  rw [chunkCommand, hcmd, qFromBigEndian32, UInt32.toNat_ofNat_of_lt' hlt, hword,
    UInt32.ofNat_toNat]

theorem readsInside_append {es fs : List Event} :
    ReadsInside (es ++ fs) ↔ ReadsInside es ∧ ReadsInside fs := by
  simp only [ReadsInside, List.mem_append, or_imp, forall_and]

theorem readsInside_written (s : State) (msgs : List Bytes) : ReadsInside (s.written msgs) := by
  intro offset chunkSize hmem
  rw [State.written] at hmem
  split at hmem <;> simp at hmem

/-- The four bytes end at offset 12. -/
theorem readsInside_readChunk_iff (c : Chunk) (s : State) :
    ReadsInside (readChunk c s).events ↔ 12 ≤ c.msg.length := by
  have hchunk : ReadsInside (chunkEvents c.env c.msg) ↔ 12 ≤ c.msg.length := by
    constructor
    · intro h
      have hlast := h 11 c.msg.length (by simp [chunkEvents])
      omega
    · intro h offset chunkSize hmem
      simp only [chunkEvents, List.mem_cons, Event.readHeader.injEq, reduceCtorEq,
        List.not_mem_nil, or_false] at hmem
      omega
  rw [readChunk, onRead_run]
  split
  · rw [readsInside_append, hchunk, and_iff_left (readsInside_written _ _)]
  · exact hchunk

theorem readChunk_returns (c : Chunk) (s : State) :
    ∃ s', (readChunk c s).outcome = .ok ((), s') ∧ s'.writable = s.writable := by
  rw [readChunk, onRead_run]
  split
  · exact ⟨_, rfl, rfl⟩
  · exact ⟨_, rfl, rfl⟩

/-- An open connection answers the command 21100 and no other. -/
theorem readChunk_heartbeats (c : Chunk) {s : State} (hs : s.writable = true) :
    ∃ group : List Message, writes (readChunk c s).events = group.map Message.encode ∧
      (∀ m ∈ group, isHeartbeat m) ∧ group.length = [c.command].count 21100 := by
  have hchunk : writes (chunkEvents c.env c.msg) = [] := rfl
  rw [readChunk, onRead_run, Chunk.command]
  by_cases hcmd : chunkCommand c.env c.msg = 21100
  · rcases heartbeat_group c.env s with ⟨group, ⟨m, rfl, hm⟩, hwrite⟩
    refine ⟨[m], ?_, by simpa [isHeartbeat] using hm, by simp [hcmd]⟩
    rw [if_pos hcmd, writes_append, hchunk, writes_written, if_pos hs, List.nil_append, hwrite]
  · exact ⟨[], by rw [if_neg hcmd, hchunk]; rfl, by simp, by simp [hcmd]⟩

/-! ## A run -/

theorem receive_commands (chunks : List Chunk) (s : State) :
    commands (receive chunks s).events = chunks.map Chunk.command := by
  induction chunks generalizing s with
  | nil => rfl
  | cons c chunks ih =>
      rcases readChunk_returns c s with ⟨s', hs', -⟩
      rw [receive, Traced.forEach_ok hs', commands_append, commands_readChunk, ← receive, ih]
      rfl

theorem receive_readsInside_iff (chunks : List Chunk) (s : State) :
    ReadsInside (receive chunks s).events ↔ ∀ c ∈ chunks, 12 ≤ c.msg.length := by
  induction chunks generalizing s with
  | nil => simp [receive, ReadsInside]
  | cons c chunks ih =>
      rcases readChunk_returns c s with ⟨s', hs', -⟩
      rw [receive, Traced.forEach_ok hs', readsInside_append, readsInside_readChunk_iff, ← receive,
        ih, List.forall_mem_cons]

theorem receive_heartbeats (chunks : List Chunk) {s : State} (hs : s.writable = true) :
    ∃ group : List Message, writes (receive chunks s).events = group.map Message.encode ∧
      (∀ m ∈ group, isHeartbeat m) ∧
      group.length = (chunks.map Chunk.command).count 21100 := by
  induction chunks generalizing s with
  | nil => exact ⟨[], rfl, by simp, rfl⟩
  | cons c chunks ih =>
      rcases readChunk_returns c s with ⟨s', hs', hopen⟩
      rcases readChunk_heartbeats c hs with ⟨first, hfirst, hfirstH, hfirstN⟩
      rcases ih (hopen.trans hs) with ⟨later, hlater, hlaterH, hlaterN⟩
      refine ⟨first ++ later, ?_, ?_, ?_⟩
      · rw [receive, Traced.forEach_ok hs', writes_append, hfirst, ← receive, hlater,
          List.map_append]
      · intro m hm
        rcases List.mem_append.mp hm with hm | hm
        · exact hfirstH m hm
        · exact hlaterH m hm
      · rw [List.length_append, hfirstN, hlaterN, ← List.count_append]
        rfl

/-- Chunks that begin with a header are long enough and give its command. -/
theorem headers_of_chunks {chunks : List Chunk} {ms : List Message}
    (h : List.Forall₂ (fun c m => ∃ rest, c.msg = m.header.toWire.bytes ++ rest) chunks ms) :
    (∀ c ∈ chunks, 12 ≤ c.msg.length) ∧
      chunks.map Chunk.command = ms.map fun m => m.header.cmd := by
  induction h with
  | nil => simp
  | cons hcm _ ih =>
      rcases hcm with ⟨rest, hmsg⟩
      rcases ih with ⟨hlong, hcmds⟩
      refine ⟨List.forall_mem_cons.mpr ⟨?_, hlong⟩, ?_⟩
      · rw [hmsg, List.length_append, SMSHeader.bytes_length]
        omega
      · rw [List.map_cons, List.map_cons, hcmds, Chunk.command, hmsg, chunkCommand_header]

/-- One reaction for each chunk, to its own command word, one heartbeat for each 21100,
and the commands of the messages when every chunk begins with one. -/
theorem receive_reactions (chunks : List Chunk) (s : State) (hs : s.writable = true) :
    commands (receive chunks s).events = chunks.map Chunk.command ∧
      (∃ group : List Message, writes (receive chunks s).events = group.map Message.encode ∧
        (∀ m ∈ group, isHeartbeat m) ∧
        group.length = (commands (receive chunks s).events).count 21100) ∧
      (ReadsInside (receive chunks s).events ↔ ∀ c ∈ chunks, 12 ≤ c.msg.length) ∧
      ∀ ms : List Message,
        List.Forall₂ (fun c m => ∃ rest, c.msg = m.header.toWire.bytes ++ rest) chunks ms →
          ReadsInside (receive chunks s).events ∧
            commands (receive chunks s).events = ms.map fun m => m.header.cmd := by
  have hcommands := receive_commands chunks s
  have hreads := receive_readsInside_iff chunks s
  refine ⟨hcommands, ?_, hreads, fun ms hms => ?_⟩
  · rw [hcommands]
    exact receive_heartbeats chunks hs
  · rcases headers_of_chunks hms with ⟨hlong, hcmds⟩
    exact ⟨hreads.mpr hlong, hcommands.trans hcmds⟩

/-- A server command without a body. -/
def serverCommand (cmd : UInt32) : Message where
  header := ⟨0xFFFF559F, 0, 0, 1, cmd, 0, 0⟩
  body := []
  magic_eq := rfl
  length_eq := rfl

theorem receive_reactions_two_chunks :
    commands (receive [⟨quiet, (serverCommand 21100).encode⟩,
      ⟨quiet, (serverCommand 21101).encode⟩] (sms [])).events = [21100, 21101] :=
  ((receive_reactions [⟨quiet, (serverCommand 21100).encode⟩,
    ⟨quiet, (serverCommand 21101).encode⟩] (sms []) rfl).2.2.2
      [serverCommand 21100, serverCommand 21101]
      (.cons ⟨[], rfl⟩ (.cons ⟨[], rfl⟩ .nil))).2

/-- The same stream, however it is cut, gives the same reactions, a heartbeat for each
21100, and no read outside a chunk. -/
def SegmentationIndependent (s : State) : Prop :=
  ∀ (ms : List Message) (chunks chunks' : List Chunk),
    chunks.flatMap Chunk.msg = ms.flatMap Message.encode →
    chunks'.flatMap Chunk.msg = ms.flatMap Message.encode →
      (commands (receive chunks s).events).Perm (commands (receive chunks' s).events) ∧
        (writes (receive chunks s).events).length =
          (ms.filter fun m => m.header.cmd = 21100).length ∧
        ReadsInside (receive chunks s).events

/-- Two commands in one chunk are one reaction. -/
theorem coalesced_commands_lost : ¬ SegmentationIndependent (sms []) := by
  intro h
  have hcounts := (h [serverCommand 21100, serverCommand 21100]
    [⟨quiet, (serverCommand 21100).encode ++ (serverCommand 21100).encode⟩]
    [⟨quiet, (serverCommand 21100).encode⟩, ⟨quiet, (serverCommand 21100).encode⟩]
    (by decide +kernel) (by decide +kernel)).2.1
  revert hcounts
  decide +kernel

end SimpleSipClient.SMS
