import Mathlib.Data.List.Forall2
import SimpleSipClient.Sms.Login

/-! # Bytes that nobody wrote

A header is filled member by member and sent as it lies in memory; the login body is a
fixed number of bytes from wherever the stream code begins. Two runs that differ only in
what memory holds send the same bytes only if they send nothing: the reserved byte of a
header is never assigned.
-/

namespace SimpleSipClient.SMS

open Foundation

/-- Two calls that differ at most in what memory holds. -/
structure SameInputs (c d : Call) : Prop where
  slot : d.slot = c.slot
  bytesToWrite : d.env.bytesToWrite = c.env.bytesToWrite
  hour : d.env.hour = c.env.hour
  minute : d.env.minute = c.env.minute
  second : d.env.second = c.env.second
  toMSecsSinceEpoch : d.env.toMSecsSinceEpoch = c.env.toMSecsSinceEpoch
  fileOpens : d.env.fileOpens = c.env.fileOpens

/-- What goes out does not depend on what memory holds. -/
def Oblivious (code : List UInt16) (calls : List Call) : Prop :=
  ∀ xs ys, List.Forall₂ SameInputs calls xs → List.Forall₂ SameInputs calls ys →
    writes (run xs (sms code)).events = writes (run ys (sms code)).events

/-- Byte `i` of a header is the same whatever memory holds. -/
def Assigned (build : Surroundings → SMSHeader) (i : Nat) : Prop :=
  ∀ env env', (build env).bytes[i]? = (build env').bytes[i]?

/-- What the messages hold behind their headers. -/
def bodies (es : List Event) : List Bytes := (writes es).map (List.drop 20)

/-- What a login holds behind its header does not depend on what memory holds. -/
def SameLogin (code : List UInt16) : Prop :=
  ∀ s, s.code = code → ∀ env env',
    bodies (onConnected env s).events = bodies (onConnected env' s).events

/-! ## What a call may say -/

/-- Memory in which a short frame has this type and a short chunk is a 21100. -/
def beyondAs (type : UInt8) (i : Int) : UInt8 :=
  if i = 3 then type else if i = 10 then 0x52 else if i = 11 then 0x6C else 0

/-- The frame is of this kind, or ends before the byte that tells. -/
def MayBe (kind : FrameKind) (frame : Bytes) : Prop :=
  frame.length < 3 ∨ frameKind quiet frame = kind

def MayCommand (msg : Bytes) : Prop :=
  chunkCommand { quiet with beyond := beyondAs 0 } msg = 21100

/-- After these calls on an open socket the call writes something for some content of
memory. -/
def MaySpeak (before : List Call) (c : Call) : Prop :=
  match c.slot with
  | .writeFrame frame =>
      (MayBe .pFrame frame ∧ c.env.bytesToWrite ≤ 2 * 1024 * 1024) ∨
        (MayBe .iFrame frame ∧
          ∃ p ∈ before, ∃ earlier, p.slot = .writeFrame earlier ∧ MayBe .pFrame earlier)
  | .onConnected => True
  | .onRead msg => MayCommand msg
  | .onHeartbeatTimeout => True
  | .onError => False

/-- Until the socket is closed no call has anything to write. -/
def Mute (calls : List Call) : Prop :=
  ∀ pre c post, calls = pre ++ c :: post → (∀ d ∈ pre, d.slot ≠ .onError) → ¬ MaySpeak pre c

/-! ## Reading behind an array -/

theorem dataAt_inside {env env' : Surroundings} {xs : Bytes} {i : Int} (h0 : 0 ≤ i)
    (hi : i ≤ xs.length) : dataAt env xs i = dataAt env' xs i := by
  rw [dataAt, dataAt]
  by_cases hlt : i < xs.length
  · rw [if_pos ⟨h0, hlt⟩, if_pos ⟨h0, hlt⟩]
  · have hend : i = xs.length := by omega
    have hnot : ¬ (0 ≤ i ∧ i < xs.length) := fun h => hlt h.2
    rw [if_neg hnot, if_neg hnot, if_pos hend, if_pos hend]

theorem dataAt_behind {env : Surroundings} {xs : Bytes} {i : Int} (hi : xs.length < i) :
    dataAt env xs i = env.beyond i := by
  rw [dataAt, if_neg (fun h => by omega), if_neg (by omega)]

/-- A match lies inside the array. -/
theorem indexOf_bounds (pattern xs : Bytes) :
    indexOf pattern xs = -1 ∨
      (0 ≤ indexOf pattern xs ∧ indexOf pattern xs + pattern.length ≤ xs.length) := by
  induction xs with
  | nil => exact .inl rfl
  | cons x xs ih =>
      by_cases hhere : pattern.isPrefixOf (x :: xs) = true
      · have hlen := (List.isPrefixOf_iff_prefix.mp hhere).length_le
        rw [indexOf, if_pos hhere]
        exact .inr ⟨Int.le_refl 0, by omega⟩
      · rw [indexOf, if_neg hhere, List.length_cons]
        split <;> omega

theorem frameType_inside (env : Surroundings) {frame : Bytes} (h : 3 ≤ frame.length) :
    frameType env frame = frameType quiet frame := by
  have hindex : 0 ≤ typeIndex frame ∧ typeIndex frame ≤ frame.length := by
    have hlen : (h264Flag.length : Int) = 4 := rfl
    rw [typeIndex]
    rcases indexOf_bounds h264Flag frame with hnone | hfound <;> omega
  rw [frameType, frameType, dataAt_inside hindex.1 hindex.2]

theorem frameType_behind (env : Surroundings) {frame : Bytes} (h : frame.length < 3) :
    frameType env frame = (env.beyond 3 &&& 0x1f).toNat := by
  have hindex : typeIndex frame = 3 := by
    have hlen : (h264Flag.length : Int) = 4 := rfl
    rw [typeIndex]
    rcases indexOf_bounds h264Flag frame with hnone | hfound <;> omega
  rw [frameType, hindex, dataAt_behind (by omega)]

theorem mayBe_of_frameKind {env : Surroundings} {frame : Bytes} {kind : FrameKind}
    (h : frameKind env frame = kind) : MayBe kind frame := by
  by_cases hshort : frame.length < 3
  · exact .inl hshort
  · rw [frameKind, frameType_inside env (by omega)] at h
    exact .inr h

/-- Memory decides about a short frame only. -/
theorem frameKind_of_mayBe {env : Surroundings} {frame : Bytes} {kind : FrameKind}
    (h : MayBe kind frame) (hmem : kindOf (env.beyond 3 &&& 0x1f).toNat = kind) :
    frameKind env frame = kind := by
  rcases Nat.lt_or_ge frame.length 3 with hshort | hlong
  · rw [frameKind, frameType_behind env hshort, hmem]
  · rcases h with hshort | hkind
    · omega
    · rw [frameKind, frameType_inside env hlong]
      exact hkind

/-- The bytes that make a chunk a 21100. -/
theorem headerBytes_of_command {env : Surroundings} {msg : Bytes}
    (h : chunkCommand env msg = 21100) :
    [dataAt env msg 8, dataAt env msg 9, dataAt env msg 10, dataAt env msg 11] =
      [0, 0, 0x52, 0x6C] := by
  generalize hbs : [dataAt env msg 8, dataAt env msg 9, dataAt env msg 10, dataAt env msg 11] = bs
  have hlen : bs.length = 4 := by rw [← hbs]; rfl
  have hlt : ofLittleEndian bs < 2 ^ 32 := by
    have hbound := ofLittleEndian_lt bs
    rwa [hlen] at hbound
  have hlt' : ofBigEndian bs < 2 ^ 32 := by
    have hbound := ofLittleEndian_lt bs.reverse
    rwa [List.length_reverse, hlen] at hbound
  have hword : ofBigEndian bs = 21100 := by
    have hswap : swapBytes 4 (ofLittleEndian bs) = ofBigEndian bs := by
      rw [← hlen, swapBytes_ofLittleEndian]
    rw [chunkCommand, headerCmd, hbs, qFromBigEndian32, UInt32.toNat_ofNat_of_lt' hlt, hswap] at h
    have hnat := congrArg UInt32.toNat h
    rwa [UInt32.toNat_ofNat_of_lt' hlt'] at hnat
  have hbig := bigEndian_ofBigEndian bs
  rw [hlen, hword] at hbig
  rw [← hbig]
  decide

/-- Any chunk that some memory makes a 21100 is one in memory that holds such a header. -/
theorem command_of_beyond {env env' : Surroundings} {msg : Bytes} {type : UInt8}
    (h : chunkCommand env msg = 21100) (hmem : env'.beyond = beyondAs type) :
    chunkCommand env' msg = 21100 := by
  have hbytes := headerBytes_of_command h
  simp only [List.cons.injEq, and_true] at hbytes
  -- Each byte is in the chunk, where memory does not matter, or behind it.
  have hbyte (i : Int) (b : UInt8) (h0 : 0 ≤ i) (henv : dataAt env msg i = b)
      (hi : beyondAs type i = b) : dataAt env' msg i = b := by
    by_cases hin : i ≤ msg.length
    · rwa [dataAt_inside h0 hin] at henv
    · have hout : msg.length < i := by omega
      rw [dataAt_behind hout, hmem]
      exact hi
  rw [chunkCommand, headerCmd, hbyte 8 0 (by decide) hbytes.1 rfl,
    hbyte 9 0 (by decide) hbytes.2.1 rfl, hbyte 10 0x52 (by decide) hbytes.2.2.1 rfl,
    hbyte 11 0x6C (by decide) hbytes.2.2.2 rfl]
  decide

theorem mayCommand_of_command {env : Surroundings} {msg : Bytes}
    (h : chunkCommand env msg = 21100) : MayCommand msg :=
  command_of_beyond h rfl

/-! ## Mute calls -/

/-- A place in one of two related lists is a place in the other. -/
theorem forall₂_split {α β : Type} {R : α → β → Prop} {xs : List α} {us : List β} {v : β}
    {ws : List β} (h : List.Forall₂ R xs (us ++ v :: ws)) :
    ∃ us' v' ws', xs = us' ++ v' :: ws' ∧ List.Forall₂ R us' us ∧ R v' v := by
  induction us generalizing xs with
  | nil =>
      cases h with
      | cons hv hws => exact ⟨[], _, _, rfl, .nil, hv⟩
  | cons u us ih =>
      cases h with
      | cons hu hus =>
          rcases ih hus with ⟨us', v', ws', rfl, hus', hv⟩
          exact ⟨_ :: us', v', ws', rfl, .cons hu hus', hv⟩

theorem maySpeak_of_speaks {before before' : List Call} {c c' : Call}
    (hbefore : List.Forall₂ SameInputs before before') (hc : SameInputs c c')
    (h : Speaks before' c') : MaySpeak before c := by
  rw [Speaks] at h
  rw [MaySpeak, ← hc.slot]
  cases hslot : c'.slot with
  | writeFrame frame =>
      simp only [hslot] at h
      cases hkind : frameKind c'.env frame with
      | iFrame =>
          simp only [hkind] at h
          rcases h with ⟨p', hp', hP⟩
          rcases (forall₂_mem hbefore).2 p' hp' with ⟨p, hp, hsame⟩
          refine .inr ⟨mayBe_of_frameKind hkind, p, hp, ?_⟩
          rw [Call.isPFrame, hsame.slot] at hP
          cases hpslot : p.slot with
          | writeFrame earlier =>
              simp only [hpslot, decide_eq_true_eq] at hP
              exact ⟨earlier, rfl, mayBe_of_frameKind hP⟩
          | onConnected => simp [hpslot] at hP
          | onRead msg => simp [hpslot] at hP
          | onHeartbeatTimeout => simp [hpslot] at hP
          | onError => simp [hpslot] at hP
      | pFrame =>
          simp only [hkind, hc.bytesToWrite] at h
          exact .inl ⟨mayBe_of_frameKind hkind, h⟩
      | unknown => simp [hkind] at h
  | onConnected => trivial
  | onRead msg =>
      simp only [hslot] at h
      exact mayCommand_of_command h
  | onHeartbeatTimeout => trivial
  | onError => simp [hslot] at h

/-- Mute calls write nothing, whatever memory holds. -/
theorem mute_writes {calls xs : List Call} (code : List UInt16) (h : Mute calls)
    (hxs : List.Forall₂ SameInputs calls xs) : writes (run xs (sms code)).events = [] := by
  rw [run_writes, List.flatMap_eq_nil_iff]
  intro v hv
  rcases List.append_of_mem hv with ⟨us, ws, hvs⟩
  rcases visited_run hvs with ⟨post, rfl, hstate, -⟩
  rw [hstate]
  by_cases hclosed : ∃ d ∈ us.map Prod.fst, d.slot = .onError
  · rcases hclosed with ⟨d, hd, herr⟩
    rw [messages, if_neg (by simp [leftBy_onError hd herr])]
  · have hopen : ∀ d ∈ us.map Prod.fst, d.slot ≠ .onError := fun d hd herr =>
      hclosed ⟨d, hd, herr⟩
    rcases forall₂_split hxs with ⟨pre, c, rest, rfl, hpre, hc⟩
    refine (messages_eq_nil_iff code v.1 hopen).mpr fun hspeaks => ?_
    refine h pre c rest rfl (fun d hd herr => ?_) (maySpeak_of_speaks hpre hc hspeaks)
    rcases (forall₂_mem hpre).1 d hd with ⟨d', hd', hsame⟩
    exact hopen d' hd' (hsame.slot.trans herr)

/-! ## Calls that speak -/

/-- The call with this memory behind arrays and this byte in the reserved member. -/
def recalled (type flag : UInt8) (c : Call) : Call where
  slot := c.slot
  env := { c.env with beyond := beyondAs type, flag := fun _ => flag }

theorem sameInputs_recalled (type flag : UInt8) (c : Call) :
    SameInputs c (recalled type flag c) := ⟨rfl, rfl, rfl, rfl, rfl, rfl, rfl⟩

theorem recalled_frameKind {kind : FrameKind} {frame : Bytes} (type flag : UInt8) (c : Call)
    (h : MayBe kind frame) (htype : kindOf (type &&& 0x1f).toNat = kind) :
    frameKind (recalled type flag c).env frame = kind :=
  frameKind_of_mayBe h htype

theorem recalled_command {msg : Bytes} (type flag : UInt8) (c : Call) (h : MayCommand msg) :
    chunkCommand (recalled type flag c).env msg = 21100 :=
  command_of_beyond h rfl

/-- In suitable memory a call that may speak speaks, and the reserved byte is still free. -/
theorem speaks_recalled {pre : List Call} {c : Call} (h : MaySpeak pre c) :
    ∃ type, ∀ flag, Speaks (pre.map (recalled 1 flag)) (recalled type flag c) := by
  rw [MaySpeak] at h
  simp only [Speaks, recalled]
  cases hslot : c.slot with
  | writeFrame frame =>
      simp only [hslot] at h
      rcases h with ⟨hP, hroom⟩ | ⟨hI, p, hp, earlier, hpslot, hearlier⟩
      · refine ⟨1, fun flag => ?_⟩
        have hkind := recalled_frameKind 1 flag c hP (by decide)
        rw [recalled] at hkind
        simp only [hkind]
        exact hroom
      · refine ⟨5, fun flag => ?_⟩
        have hkind := recalled_frameKind 5 flag c hI (by decide)
        rw [recalled] at hkind
        simp only [hkind]
        refine ⟨recalled 1 flag p, List.mem_map_of_mem hp, ?_⟩
        have hpkind := recalled_frameKind 1 flag p hearlier (by decide)
        rw [recalled] at hpkind
        simp [Call.isPFrame, recalled, hpslot, hpkind]
  | onConnected => exact ⟨0, fun _ => trivial⟩
  | onRead msg =>
      simp only [hslot] at h
      exact ⟨0, fun flag => recalled_command 0 flag c h⟩
  | onHeartbeatTimeout => exact ⟨0, fun _ => trivial⟩
  | onError => simp [hslot] at h

/-- The reserved byte of a message. -/
theorem bytes_flag (h : SMSHeader) (rest : Bytes) : (h.bytes ++ rest)[5]? = some h.flag := by
  simp [SMSHeader.bytes, littleEndian]

theorem messages_flag {type flag : UInt8} {c : Call} {s : State} {msg : Bytes}
    (h : msg ∈ messages (recalled type flag c) s) : msg[5]? = some flag := by
  rcases mem_messages h with ⟨-, rfl⟩ | rfl | ⟨xs, j, rfl⟩
  · exact bytes_flag _ _
  · have hflag := bytes_flag (heartbeatHeader (recalled type flag c).env s.seq) []
    rwa [List.append_nil] at hflag
  · exact bytes_flag _ _

/-- Two runs with different bytes in the reserved member do not write the same. -/
theorem mute_of_oblivious {code : List UInt16} {calls : List Call} (h : Oblivious code calls) :
    Mute calls := by
  rintro pre c post rfl hpre hspeak
  rcases speaks_recalled hspeak with ⟨type, hspeaks⟩
  let variant (flag : UInt8) : List Call :=
    pre.map (recalled 1 flag) ++ recalled type flag c :: post.map (recalled 1 flag)
  have hsame (flag : UInt8) : List.Forall₂ SameInputs (pre ++ c :: post) (variant flag) := by
    have hmap (xs : List Call) : List.Forall₂ SameInputs xs (xs.map (recalled 1 flag)) := by
      rw [List.forall₂_map_right_iff, List.forall₂_same]
      exact fun d _ => sameInputs_recalled 1 flag d
    exact List.rel_append (hmap pre) (.cons (sameInputs_recalled type flag c) (hmap post))
  have hflag (flag : UInt8) : ∀ msg ∈ writes (run (variant flag) (sms code)).events,
      msg[5]? = some flag := by
    intro msg hmsg
    rw [run_writes] at hmsg
    rcases List.mem_flatMap.mp hmsg with ⟨v, hv, hmem⟩
    have hcall : ∃ type' d, v.1 = recalled type' flag d := by
      have hin : v.1 ∈ variant flag := Traced.mem_visits_input hv
      simp only [variant, List.mem_append, List.mem_map, List.mem_cons] at hin
      rcases hin with ⟨d, -, hd⟩ | hd | ⟨d, -, hd⟩
      · exact ⟨1, d, hd.symm⟩
      · exact ⟨type, c, hd⟩
      · exact ⟨1, d, hd.symm⟩
    rcases hcall with ⟨type', d, hd⟩
    rw [hd] at hmem
    exact messages_flag hmem
  have hne : writes (run (variant 0) (sms code)).events ≠ [] := by
    have hopen : ∀ d ∈ pre.map (recalled 1 0), d.slot ≠ .onError := by
      intro d hd
      rcases List.mem_map.mp hd with ⟨e, he, rfl⟩
      exact hpre e he
    have hmsgs := mt (messages_eq_nil_iff code _ hopen).mp (not_not_intro (hspeaks 0))
    simp only [variant]
    rw [run_append_writes, run_cons_writes]
    simp [hmsgs]
  rcases List.exists_cons_of_ne_nil hne with ⟨msg, msgs, hmsgs⟩
  have hequal := h _ _ (hsame 0) (hsame 1)
  have h0 := hflag 0 msg (by rw [hmsgs]; exact List.mem_cons_self)
  have h1 := hflag 1 msg (by rw [← hequal, hmsgs]; exact List.mem_cons_self)
  rw [h0] at h1
  exact absurd h1 (by decide)

/-! ## Headers and the login body -/

section Headers

variable (h : SMSHeader)

theorem bytes_split : ∃ front back, front.length = 4 ∧
    ∀ x y, SMSHeader.bytes { h with channelId := x, flag := y } = front ++ x :: y :: back := by
  refine ⟨littleEndian 4 h.magic.toNat, littleEndian 2 h.cmdType.toNat ++
    (littleEndian 4 h.cmd.toNat ++ (littleEndian 4 h.seqnum.toNat ++
      littleEndian 4 h.length.toNat)), littleEndian_length _ _, fun x y => ?_⟩
  simp [SMSHeader.bytes, littleEndian]

theorem bytes_channelId : h.bytes[4]? = some h.channelId := by
  simp [SMSHeader.bytes, littleEndian]

theorem bytes_others (x y : UInt8) {i : Nat} (h4 : i ≠ 4) (h5 : i ≠ 5) :
    (SMSHeader.bytes { h with channelId := x, flag := y })[i]? = h.bytes[i]? := by
  rcases bytes_split h with ⟨front, back, hfront, hbytes⟩
  have hself : h.bytes = front ++ h.channelId :: h.flag :: back := hbytes _ _
  rw [hbytes, hself]
  by_cases hlt : i < 4
  · rw [List.getElem?_append_left (by omega), List.getElem?_append_left (by omega)]
  · obtain ⟨k, rfl⟩ : ∃ k, i = front.length + (k + 2) := ⟨i - 6, by omega⟩
    rw [List.getElem?_append_right (by omega), List.getElem?_append_right (by omega),
      Nat.add_sub_cancel_left]
    rfl

end Headers

def flagged : Surroundings := { quiet with channelId := 1, flag := fun _ => 1 }

section Assigned

variable {build : Surroundings → SMSHeader} {h : SMSHeader}

theorem not_assigned_flag (hflag : (build quiet).flag ≠ (build flagged).flag) :
    ¬ Assigned build 5 := by
  intro hassigned
  have h0 := bytes_flag (build quiet) []
  have h1 := bytes_flag (build flagged) []
  rw [List.append_nil] at h0 h1
  have hbyte := hassigned quiet flagged
  rw [h0, h1, Option.some.injEq] at hbyte
  exact hflag hbyte

theorem not_assigned_channelId (hchannel : (build quiet).channelId ≠ (build flagged).channelId) :
    ¬ Assigned build 4 := by
  intro hassigned
  have hbyte := hassigned quiet flagged
  rw [bytes_channelId, bytes_channelId, Option.some.injEq] at hbyte
  exact hchannel hbyte

theorem assigned_others {i : Nat}
    (hbuild : ∀ env, build env =
      { h with channelId := (build env).channelId, flag := (build env).flag })
    (h4 : i ≠ 4) (h5 : i ≠ 5) : Assigned build i := by
  intro env env'
  rw [hbuild env, hbuild env']
  exact (bytes_others h _ _ h4 h5).trans (bytes_others h _ _ h4 h5).symm

/-- A header in which only the reserved member is left out. -/
theorem assigned_iff {i : Nat}
    (hbuild : ∀ env, build env =
      { h with channelId := (build env).channelId, flag := (build env).flag })
    (hchannel : ∀ env env', (build env).channelId = (build env').channelId)
    (hflag : (build quiet).flag ≠ (build flagged).flag) : Assigned build i ↔ i ≠ 5 := by
  constructor
  · rintro hassigned rfl
    exact not_assigned_flag hflag hassigned
  · intro h5
    by_cases h4 : i = 4
    · intro env env'
      rw [h4, bytes_channelId, bytes_channelId, hchannel env env']
    · exact assigned_others hbuild h4 h5

end Assigned

theorem assigned_loginHeader (seq : UInt32) (i : Nat) :
    Assigned (fun env => loginHeader env seq) i ↔ i ≠ 5 :=
  assigned_iff (h := loginHeader quiet seq) (fun _ => rfl) (fun _ _ => rfl)
    (show (0 : UInt8) ≠ 1 by decide)

theorem assigned_sliceHeader (slicCnt j len i : Nat) :
    Assigned (fun env => sliceHeader env slicCnt j len) i ↔ i ≠ 5 :=
  assigned_iff (h := sliceHeader quiet slicCnt j len) (fun _ => rfl) (fun _ _ => rfl)
    (show (0 : UInt8) ≠ 1 by decide)

theorem assigned_heartbeatHeader (seq : UInt32) (i : Nat) :
    Assigned (fun env => heartbeatHeader env seq) i ↔ i ≠ 4 ∧ i ≠ 5 := by
  have hne : (0 : UInt8) ≠ 1 := by decide
  constructor
  · intro hassigned
    constructor
    · rintro rfl
      exact not_assigned_channelId hne hassigned
    · rintro rfl
      exact not_assigned_flag hne hassigned
  · rintro ⟨h4, h5⟩
    exact assigned_others (h := heartbeatHeader quiet seq) (fun _ => rfl) h4 h5

theorem loginBody_iff (code : List UInt16) :
    (∀ env env', loginBody env code = loginBody env' code) ↔ 31 ≤ code.length := by
  have hlen : (toLatin1 code).length = code.length := List.length_map _
  constructor
  · intro h
    by_contra hshort
    have hbody := congrArg (fun xs => xs[31]?) (h quiet { quiet with beyond := fun _ => 1 })
    have hout : ((toLatin1 code).length : Int) < ((31 : Nat) : Int) := by omega
    simp only [loginBody, List.getElem?_map, List.getElem?_range (show 31 < 32 by decide),
      Option.map_some, dataAt_behind hout] at hbody
    exact absurd hbody (by decide)
  · intro hlong env env'
    refine List.map_congr_left fun i hi => dataAt_inside (by omega) ?_
    have hi' := List.mem_range.mp hi
    omega

theorem bodies_onConnected (env : Surroundings) (s : State) :
    bodies (onConnected env s).events = if s.writable then [loginBody env s.code] else [] := by
  rw [bodies, onConnected_run, writes_written]
  split
  · have hheader := SMSHeader.bytes_length (loginHeader env s.seq)
    simp [loginMessage, hheader]
  · rfl

theorem sameLogin_iff (code : List UInt16) : SameLogin code ↔ 31 ≤ code.length := by
  rw [← loginBody_iff]
  constructor
  · intro h env env'
    have hopen := h (sms code) rfl env env'
    rw [bodies_onConnected, bodies_onConnected] at hopen
    exact List.singleton_injective hopen
  · rintro h s rfl env env'
    rw [bodies_onConnected, bodies_onConnected, h env env']

/-- The streams of two runs agree only if nothing is ever written; the login body is the
code's own from 31 characters on; the reserved byte of a header, and in a heartbeat the
channel, are never assigned. -/
theorem intended_bytes_iff (code : List UInt16) :
    (∀ calls, Oblivious code calls ↔ Mute calls) ∧
      (SameLogin code ↔ 31 ≤ code.length) ∧
      (∀ seq i, Assigned (fun env => loginHeader env seq) i ↔ i ≠ 5) ∧
      (∀ seq i, Assigned (fun env => heartbeatHeader env seq) i ↔ i ≠ 4 ∧ i ≠ 5) ∧
      ∀ slicCnt j len i, Assigned (fun env => sliceHeader env slicCnt j len) i ↔ i ≠ 5 := by
  refine ⟨fun calls => ⟨mute_of_oblivious, fun h xs ys hxs hys => ?_⟩, sameLogin_iff code,
    assigned_loginHeader, assigned_heartbeatHeader, assigned_sliceHeader⟩
  rw [mute_writes code h hxs, mute_writes code h hys]

/-- A login alone shows what was on the stack. -/
theorem login_leaks : ¬ Oblivious (List.replicate 32 0x61) [⟨.onConnected, quiet⟩] := by
  intro h
  exact mute_of_oblivious h [] ⟨.onConnected, quiet⟩ [] rfl (by simp) trivial

end SimpleSipClient.SMS
