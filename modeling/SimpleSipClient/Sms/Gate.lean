import SimpleSipClient.Sms.Step

/-! # The key frame gate

Nothing is sent before `m_bfirstIFrame` is set. It is set where a P frame is received:
key frames before that are lost, and the P frame that opens the gate goes out itself
unless too much is pending. The first frame on the wire is a key frame exactly when
no P frame reaches the open gate before an I frame does.
-/

namespace SimpleSipClient.SMS

open Foundation

/-- One call of `writeFrame`. -/
structure FrameCall where
  env : Surroundings
  frame : Bytes

def FrameCall.kind (c : FrameCall) : FrameKind := frameKind c.env c.frame

def deliver (c : FrameCall) : Sms Unit := writeFrame c.env c.frame

/-- The flag in front of the first body written, if anything is written. -/
def sentFlag (es : List Event) : Option UInt32 :=
  (writes es).head?.map fun msg => UInt32.ofNat (ofLittleEndian ((msg.drop 20).take 4))

/-- What a call at some state sends. -/
def observed (v : FrameCall × State) : Option UInt32 := sentFlag (deliver v.1 v.2).events

/-- The viewer's stream starts with a key frame. -/
structure StartsWithKeyFrame (vs : List (FrameCall × State)) : Prop where
  first_sent : ∀ headerFlag, (vs.filterMap observed).head? = some headerFlag →
    headerFlag = SMS_VIDEO_I_FRAME
  later_iFrames : ∀ us v ws, vs = us ++ v :: ws →
    (∃ u ∈ us, observed u = some SMS_VIDEO_I_FRAME) → v.1.kind = .iFrame →
      observed v = some SMS_VIDEO_I_FRAME
  pFrames_after : ∀ us v ws, vs = us ++ v :: ws → observed v = some SMS_VIDEO_P_FRAME →
    ∃ u ∈ us, observed u = some SMS_VIDEO_I_FRAME

/-- Each P frame that finds room comes after an I frame, which comes after a P frame. -/
def KeyFrameReachesGate (calls : List FrameCall) : Prop :=
  ∀ pre c post, calls = pre ++ c :: post → c.kind = .pFrame →
    c.env.bytesToWrite ≤ 2 * 1024 * 1024 →
      ∃ before i between, pre = before ++ i :: between ∧ i.kind = .iFrame ∧
        ∃ p ∈ before, p.kind = .pFrame

/-! ## One call -/

theorem realFrame_flag (env : Surroundings) (headerFlag : UInt32) (frame : Bytes) :
    ∃ rest, realFrame env headerFlag frame = littleEndian 4 headerFlag.toNat ++ rest :=
  ⟨_, List.append_assoc _ _ _⟩

theorem sentFlag_sliceMessages (env : Surroundings) (headerFlag : UInt32) (frame : Bytes)
    {es : List Event} (h : writes es = sliceMessages env (realFrame env headerFlag frame)) :
    sentFlag es = some headerFlag := by
  rcases realFrame_flag env headerFlag frame with ⟨rest, hrest⟩
  have hcount : ∃ n, slicCnt (realFrame env headerFlag frame) = n + 1 := by
    refine ⟨slicCnt (realFrame env headerFlag frame) - 1, ?_⟩
    rw [slicCnt, hrest, List.length_append, littleEndian_length]
    omega
  rcases hcount with ⟨n, hn⟩
  have hslice : (slice (realFrame env headerFlag frame) 0).take 4 =
      littleEndian 4 headerFlag.toNat := by
    rw [slice, mid, hrest, Nat.mul_zero, List.drop_zero, List.take_take]
    exact List.take_left' (littleEndian_length _ _)
  have hbody : (sliceMessage env (realFrame env headerFlag frame) 0).drop 20 =
      slice (realFrame env headerFlag frame) 0 :=
    List.drop_left' (SMSHeader.bytes_length _)
  have hword : ofLittleEndian (littleEndian 4 headerFlag.toNat) = headerFlag.toNat := by
    rw [ofLittleEndian_littleEndian]
    exact Nat.mod_eq_of_lt headerFlag.toNat_lt
  rw [sentFlag, h, sliceMessages, hn, List.range_succ_eq_map]
  simp [hbody, hslice, hword]

theorem observed_eq (c : FrameCall) {s : State} (hs : s.writable = true) :
    observed (c, s) = sentAs s c.env c.frame := by
  have hw : writes (deliver c s).events = frameMessages s c.env c.frame :=
    (writeFrame_open c.env c.frame hs).1
  cases hsent : sentAs s c.env c.frame with
  | none =>
      rw [frameMessages, hsent] at hw
      rw [observed, sentFlag, hw]
      rfl
  | some headerFlag =>
      rw [frameMessages, hsent] at hw
      exact sentFlag_sliceMessages c.env headerFlag c.frame hw

/-! ## The gate along a run -/

def isPFrame (c : FrameCall) : Bool := decide (c.kind = .pFrame)

/-- The gate is open after a P frame, whatever became of it. -/
def gated (s : State) (calls : List FrameCall) : State :=
  { s with bfirstIFrame := s.bfirstIFrame || calls.any isPFrame }

theorem deliver_returns (c : FrameCall) {s : State} (hs : s.writable = true) :
    (deliver c s).outcome = .ok ((), gated s [c]) := by
  rw [deliver, (writeFrame_open c.env c.frame hs).2]
  by_cases hP : frameKind c.env c.frame = .pFrame
  · simp [gated, isPFrame, FrameCall.kind, hP]
  · simp [gated, isPFrame, FrameCall.kind, hP]

theorem forEach_deliver (calls : List FrameCall) {s : State} (hs : s.writable = true) :
    (Traced.forEach deliver calls s).outcome = .ok ((), gated s calls) := by
  induction calls generalizing s with
  | nil => simp [gated]
  | cons c calls ih =>
      rw [Traced.forEach_ok (deliver_returns c hs)]
      simp only
      rw [ih (by exact hs)]
      simp [gated, Bool.or_assoc]

section Fresh

variable {code : List UInt16} {calls pre : List FrameCall}

/-- What is visited in a run of a fresh object, and what each call finds there. -/
theorem visited_split {us ws : List (FrameCall × State)} {v : FrameCall × State}
    (h : Traced.visits deliver calls (sms code) = us ++ v :: ws) :
    ∃ post, calls = us.map Prod.fst ++ v.1 :: post ∧ v.2 = gated (sms code) (us.map Prod.fst) ∧
      us = Traced.visits deliver (us.map Prod.fst) (sms code) := by
  rcases Traced.visits_split h with ⟨post, hcalls, hrun, hus⟩
  rw [forEach_deliver _ rfl, Except.ok.injEq, Prod.mk.injEq] at hrun
  exact ⟨post, hcalls, hrun.2.symm, hus⟩

theorem visits_at (code : List UInt16) (pre : List FrameCall) (c : FrameCall)
    (post : List FrameCall) :
    ∃ ws, Traced.visits deliver (pre ++ c :: post) (sms code) =
      Traced.visits deliver pre (sms code) ++ (c, gated (sms code) pre) :: ws := by
  rw [Traced.visits_append_ok (forEach_deliver pre rfl)]
  exact ⟨_, rfl⟩

theorem sent_iFrame_iff (c : FrameCall) :
    observed (c, gated (sms code) pre) = some SMS_VIDEO_I_FRAME ↔
      c.kind = .iFrame ∧ ∃ p ∈ pre, p.kind = .pFrame := by
  have hflag : SMS_VIDEO_P_FRAME ≠ SMS_VIDEO_I_FRAME := by decide
  rw [observed_eq c rfl, sentAs, FrameCall.kind]
  cases frameKind c.env c.frame with
  | iFrame => simp [gated, sms, isPFrame]
  | pFrame => simp [hflag]
  | unknown => simp

theorem sent_pFrame_iff (c : FrameCall) :
    observed (c, gated (sms code) pre) = some SMS_VIDEO_P_FRAME ↔
      c.kind = .pFrame ∧ c.env.bytesToWrite ≤ 2 * 1024 * 1024 := by
  have hflag : SMS_VIDEO_I_FRAME ≠ SMS_VIDEO_P_FRAME := by decide
  rw [observed_eq c rfl, sentAs, FrameCall.kind]
  cases frameKind c.env c.frame with
  | iFrame => simp [hflag]
  | pFrame => simp
  | unknown => simp

/-- Only the two flags are sent. -/
theorem sent_flag {c : FrameCall} {headerFlag : UInt32}
    (h : observed (c, gated (sms code) pre) = some headerFlag) :
    headerFlag = SMS_VIDEO_I_FRAME ∨ headerFlag = SMS_VIDEO_P_FRAME := by
  rw [observed_eq c rfl, sentAs] at h
  cases hk : frameKind c.env c.frame with
  | iFrame =>
      simp only [hk, Option.ite_none_right_eq_some, Option.some.injEq] at h
      exact .inl h.2.symm
  | pFrame =>
      simp only [hk, Option.ite_none_right_eq_some, Option.some.injEq] at h
      exact .inr h.2.symm
  | unknown => simp [hk] at h

/-- An I frame has gone out exactly when one was received behind a P frame. -/
theorem iFrame_sent_iff :
    (∃ u ∈ Traced.visits deliver pre (sms code), observed u = some SMS_VIDEO_I_FRAME) ↔
      ∃ before i between, pre = before ++ i :: between ∧ i.kind = .iFrame ∧
        ∃ p ∈ before, p.kind = .pFrame := by
  constructor
  · rintro ⟨⟨i, s⟩, hu, hsent⟩
    rcases List.append_of_mem hu with ⟨us, ws, hvs⟩
    rcases visited_split hvs with ⟨post, hpre, rfl, -⟩
    exact ⟨us.map Prod.fst, i, post, hpre, (sent_iFrame_iff i).mp hsent⟩
  · rintro ⟨before, i, between, rfl, hi⟩
    rcases visits_at code before i between with ⟨ws, hws⟩
    exact ⟨(i, gated (sms code) before), by simp [hws], (sent_iFrame_iff i).mpr hi⟩

end Fresh

/-! ## The whole run -/

/-- A viewer's stream starts with a key frame exactly when the calls bring one to the
open gate before any P frame that finds room. -/
theorem starts_with_key_frame_iff (code : List UInt16) (calls : List FrameCall) :
    StartsWithKeyFrame (Traced.visits deliver calls (sms code)) ↔ KeyFrameReachesGate calls := by
  constructor
  · rintro h pre c post rfl hkind hroom
    rcases visits_at code pre c post with ⟨ws, hws⟩
    have hsent : observed (c, gated (sms code) pre) = some SMS_VIDEO_P_FRAME :=
      (sent_pFrame_iff c).mpr ⟨hkind, hroom⟩
    exact iFrame_sent_iff.mp (h.pFrames_after _ _ _ hws hsent)
  · intro h
    have pFrames_after : ∀ us v ws, Traced.visits deliver calls (sms code) = us ++ v :: ws →
        observed v = some SMS_VIDEO_P_FRAME →
          ∃ u ∈ us, observed u = some SMS_VIDEO_I_FRAME := by
      rintro us ⟨c, s⟩ ws hvs hsent
      rcases visited_split hvs with ⟨post, hcalls, rfl, hus⟩
      rcases (sent_pFrame_iff c).mp hsent with ⟨hkind, hroom⟩
      rw [hus]
      exact iFrame_sent_iff.mpr (h _ _ _ hcalls hkind hroom)
    refine ⟨fun headerFlag hhead => ?_, ?_, pFrames_after⟩
    · rw [List.head?_filterMap, List.findSome?_eq_some_iff] at hhead
      rcases hhead with ⟨us, ⟨c, s⟩, ws, hvs, hsent, hnone⟩
      rcases visited_split hvs with ⟨post, -, rfl, -⟩
      rcases sent_flag hsent with rfl | rfl
      · rfl
      · rcases pFrames_after us _ ws hvs hsent with ⟨u, hu, hI⟩
        rw [hnone u hu] at hI
        cases hI
    · rintro us ⟨c, s⟩ ws hvs hbefore hkind
      rcases visited_split hvs with ⟨post, -, rfl, hus⟩
      rw [hus] at hbefore
      rcases iFrame_sent_iff.mp hbefore with ⟨before, i, between, hpre, -, p, hp, hpkind⟩
      exact (sent_iFrame_iff c).mpr ⟨hkind, p, by rw [hpre]; simp [hp], hpkind⟩

/-- A key frame is lost and the P frame behind it is the first to go out. -/
theorem key_frame_lost :
    ¬ StartsWithKeyFrame (Traced.visits deliver
      [⟨quiet, [0, 0, 0, 1, 0x65]⟩, ⟨quiet, [0, 0, 0, 1, 0x41]⟩] (sms [])) := by
  intro h
  have hflag := h.first_sent SMS_VIDEO_P_FRAME (by decide +kernel)
  exact absurd hflag (by decide)

end SimpleSipClient.SMS
