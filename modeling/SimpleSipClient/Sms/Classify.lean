import SimpleSipClient.Sms.Gate

/-! # What a frame is taken for

A frame is a sequence of NAL units, each behind a start code of three bytes that may
have a zero byte in front. `writeFrame` looks at a single byte: the one behind the first
start code of four bytes, or the fourth byte of the frame where there is none. That byte
tells what the frame is only if the unit that it opens happens to tell.
-/

namespace SimpleSipClient.SMS

open Foundation

/-! ## NAL units -/

def nalType (header : UInt8) : Nat := (header &&& 0x1f).toNat

/-- The types of the NAL units in a byte string. -/
def nalTypes : Bytes → List Nat
  | [] => []
  | x :: xs =>
      match x :: xs with
      | 0 :: 0 :: 1 :: header :: _ => nalType header :: nalTypes xs
      | _ => nalTypes xs

/-- Slices, data partitions among them, are of types 1 to 5. -/
def hasSlice (frame : Bytes) : Prop := ∃ t ∈ nalTypes frame, 1 ≤ t ∧ t ≤ 5

/-- A slice of an IDR picture is of type 5. -/
def hasIdr (frame : Bytes) : Prop := 5 ∈ nalTypes frame

/-- The frame is sent with this flag by a connection that is open, has seen its first frame and
has nothing pending that would hold the frame back. -/
def SentWith (headerFlag : UInt32) (frame : Bytes) : Prop :=
  ∀ env s, s.writable = true → s.bfirstIFrame = true → env.bytesToWrite ≤ 2 * 1024 * 1024 →
    writes (writeFrame env frame s).events = sliceMessages env (realFrame env headerFlag frame)

/-- The frame is read inside its bounds, sent as what its slices are, and never put aside. -/
structure Classified (frame : Bytes) : Prop where
  inside : ∀ env s i, Event.frameAt i ∈ (writeFrame env frame s).events →
    0 ≤ i ∧ i < frame.length
  idr : hasIdr frame → SentWith SMS_VIDEO_I_FRAME frame
  nonIdr : hasSlice frame → ¬ hasIdr frame → SentWith SMS_VIDEO_P_FRAME frame
  kept : hasSlice frame → ∀ env s f, Event.saveFrame f ∉ (writeFrame env frame s).events

/-! ## The byte that is looked at -/

/-- What follows the first start code of four bytes. -/
def behindFlag : Bytes → Option Bytes
  | [] => none
  | x :: xs => if h264Flag.isPrefixOf (x :: xs) then some (xs.drop 3) else behindFlag xs

def telling (frame : Bytes) : Option UInt8 :=
  match behindFlag frame with
  | some rest => rest.head?
  | none => frame[3]?

/-- The byte exists, and the unit that it opens speaks for all the slices. -/
def Tells (frame : Bytes) : Prop :=
  ∃ header, telling frame = some header ∧
    (hasIdr frame → nalType header ∈ [2, 5, 7, 8]) ∧
      (hasSlice frame → ¬ hasIdr frame → nalType header = 1)

theorem indexOf_behindFlag (frame : Bytes) :
    match behindFlag frame with
    | some rest => ∃ k : Nat, indexOf h264Flag frame = k ∧ frame.drop (k + 4) = rest ∧
        k + 4 ≤ frame.length
    | none => indexOf h264Flag frame = -1 := by
  induction frame with
  | nil => rfl
  | cons x xs ih =>
      rw [behindFlag, indexOf]
      by_cases hhere : h264Flag.isPrefixOf (x :: xs) = true
      · have hlen : 4 ≤ (x :: xs).length := (List.isPrefixOf_iff_prefix.mp hhere).length_le
        rw [if_pos hhere, if_pos hhere]
        exact ⟨0, rfl, rfl, by omega⟩
      · rw [if_neg hhere, if_neg hhere]
        cases hrest : behindFlag xs with
        | none =>
            simp only [hrest] at ih ⊢
            rw [if_pos ih]
        | some rest =>
            simp only [hrest] at ih ⊢
            rcases ih with ⟨k, hk, hdrop, hlen⟩
            have hfound : ¬ indexOf h264Flag xs = -1 := by omega
            rw [if_neg hfound, hk]
            exact ⟨k + 1, by simp, hdrop, by rw [List.length_cons]; omega⟩

/-- The index is never negative, and it is inside the frame where the byte exists. -/
theorem telling_eq (frame : Bytes) :
    0 ≤ typeIndex frame ∧ telling frame = frame[(typeIndex frame).toNat]? := by
  have hindex := indexOf_behindFlag frame
  have hflag : (h264Flag.length : Int) = 4 := rfl
  rw [telling, typeIndex, hflag]
  cases hrest : behindFlag frame with
  | none =>
      simp only [hrest] at hindex ⊢
      rw [hindex]
      exact ⟨by decide, rfl⟩
  | some rest =>
      simp only [hrest] at hindex ⊢
      rcases hindex with ⟨k, hk, hdrop, -⟩
      have hat : ((k : Int) + 4).toNat = k + 4 := by omega
      rw [hk, hat, ← hdrop, List.head?_drop]
      exact ⟨by omega, rfl⟩

theorem telling_inside {frame : Bytes} :
    (∃ header, telling frame = some header) ↔ typeIndex frame < frame.length := by
  rcases telling_eq frame with ⟨h0, htelling⟩
  rw [htelling, ← Option.isSome_iff_exists, isSome_getElem?]
  omega

theorem frameType_telling {frame : Bytes} {header : UInt8} (env : Surroundings)
    (h : telling frame = some header) : frameType env frame = nalType header := by
  rcases telling_eq frame with ⟨h0, htelling⟩
  have hin := telling_inside.mp ⟨header, h⟩
  rw [htelling] at h
  rw [frameType, dataAt, if_pos ⟨h0, hin⟩, List.getD_eq_getElem?_getD, h]
  rfl

/-! ## The classification -/

theorem kindOf_iFrame {type : Nat} : kindOf type = .iFrame ↔ type ∈ [2, 5, 7, 8] := by
  rw [kindOf]
  split
  · simpa using ‹_›
  · split <;> simp_all

theorem kindOf_pFrame {type : Nat} : kindOf type = .pFrame ↔ type = 1 := by
  rw [kindOf]
  split
  · have hne : type ≠ 1 := by omega
    simp [hne]
  · split <;> simp_all

/-- Behind the look at the frame, nothing looks at it again or puts it aside. -/
theorem sendFrame_events {env : Surroundings} {frame : Bytes} {type : Nat} {headerFlag : UInt32}
    {s : State} {e : Event} (h : e ∈ (sendFrame env frame type headerFlag s).events) :
    (∀ i, e ≠ .frameAt i) ∧ ∀ f, e ≠ .saveFrame f := by
  rw [sendFrame, Traced.get_bind, Traced.ite_run, Traced.ite_run, writeSlices_run] at h
  split at h
  · cases h
  · split at h
    · cases List.mem_singleton.mp h
      exact ⟨fun _ => Event.noConfusion, fun _ => Event.noConfusion⟩
    · rw [State.written] at h
      split at h
      · rcases List.mem_map.mp h with ⟨msg, -, rfl⟩
        exact ⟨fun _ => Event.noConfusion, fun _ => Event.noConfusion⟩
      · cases h

section Looks

variable {env : Surroundings} {frame : Bytes} {s : State}

/-- The look comes first, and the rest is told by the kind. -/
theorem writeFrame_events (env : Surroundings) (frame : Bytes) (hs : s.writable = true) :
    ∃ es, (writeFrame env frame s).events = .frameAt (typeIndex frame) :: es ∧
      (∀ i, Event.frameAt i ∉ es) ∧
        ∀ f, Event.saveFrame f ∈ es ↔
          frameKind env frame = .unknown ∧ env.fileOpens = true ∧ f = frame := by
  rw [writeFrame, Traced.get_bind, Traced.ite_run, if_pos hs, Traced.emit_bind, frameKind]
  refine ⟨_, rfl, ?_⟩
  cases kindOf (frameType env frame) with
  | iFrame =>
      exact ⟨fun i h => (sendFrame_events h).1 i rfl,
        fun f => iff_of_false (fun h => (sendFrame_events h).2 f rfl) fun h => FrameKind.noConfusion h.1⟩
  | pFrame =>
      simp only [Traced.set_bind]
      exact ⟨fun i h => (sendFrame_events h).1 i rfl,
        fun f => iff_of_false (fun h => (sendFrame_events h).2 f rfl) fun h => FrameKind.noConfusion h.1⟩
  | unknown =>
      simp only [Traced.ite_run]
      cases env.fileOpens with
      | false => exact ⟨fun i h => (by cases h), fun f => by simp⟩
      | true => exact ⟨fun i h => (by simp at h), fun f => by simp⟩

theorem writeFrame_frameAt {i : Int} (hmem : .frameAt i ∈ (writeFrame env frame s).events) :
    i = typeIndex frame := by
  cases hs : s.writable with
  | false =>
      rw [writeFrame_closed hs] at hmem
      cases hmem
  | true =>
      obtain ⟨es, hes, hlooks, -⟩ := writeFrame_events env frame hs
      rw [hes] at hmem
      rcases List.mem_cons.mp hmem with hhead | hrest
      · exact Event.frameAt.inj hhead
      · exact absurd hrest (hlooks i)

theorem writeFrame_saveFrame (h : frameKind env frame ≠ .unknown) (f : Bytes) :
    .saveFrame f ∉ (writeFrame env frame s).events := by
  cases hs : s.writable with
  | false =>
      rw [writeFrame_closed hs]
      exact List.not_mem_nil
  | true =>
      obtain ⟨es, hes, -, hsaves⟩ := writeFrame_events env frame hs
      rw [hes]
      intro hmem
      rcases List.mem_cons.mp hmem with hhead | hrest
      · cases hhead
      · exact h ((hsaves f).mp hrest).1

end Looks

/-! ## The messages of a frame -/

/-- The flag of the frames of a kind. -/
def FrameKind.headerFlag : FrameKind → Option UInt32
  | .iFrame => some SMS_VIDEO_I_FRAME
  | .pFrame => some SMS_VIDEO_P_FRAME
  | .unknown => none

theorem FrameKind.headerFlag_injective {kind kind' : FrameKind} {flag : UInt32}
    (h : kind.headerFlag = some flag) (h' : kind'.headerFlag = some flag) : kind = kind' := by
  have hne : SMS_VIDEO_I_FRAME ≠ SMS_VIDEO_P_FRAME := by decide
  cases kind <;> cases kind' <;> simp_all [FrameKind.headerFlag]

section Messages

variable {env : Surroundings} {frame : Bytes} {s : State}

theorem sentAs_ready (hg : s.bfirstIFrame = true) (hroom : env.bytesToWrite ≤ 2 * 1024 * 1024) :
    sentAs s env frame = (frameKind env frame).headerFlag := by
  rw [sentAs]
  cases frameKind env frame with
  | iFrame => exact if_pos hg
  | pFrame => exact if_pos hroom
  | unknown => rfl

theorem sentWith_iff (kind : FrameKind) {headerFlag : UInt32}
    (hkind : kind.headerFlag = some headerFlag) : SentWith headerFlag frame ↔
      ∀ env, env.bytesToWrite ≤ 2 * 1024 * 1024 → frameKind env frame = kind := by
  constructor
  · intro h env hroom
    have hsent := h env { sms [] with bfirstIFrame := true } rfl rfl hroom
    have hflag := sentFlag_sliceMessages env headerFlag frame hsent
    have hown := observed_eq ⟨env, frame⟩ (s := { sms [] with bfirstIFrame := true }) rfl
    rw [sentAs_ready rfl hroom] at hown
    exact FrameKind.headerFlag_injective (hown.symm.trans hflag) hkind
  · intro h env s hs hg hroom
    rw [(writeFrame_open env frame hs).1, frameMessages, sentAs_ready hg hroom, h env hroom, hkind]

end Messages

theorem frameKind_telling {frame : Bytes} {header : UInt8} (env : Surroundings)
    (h : telling frame = some header) : frameKind env frame = kindOf (nalType header) := by
  rw [frameKind, frameType_telling env h]

/-- A frame is classified for what it is exactly when the byte that is looked at exists and
tells. -/
theorem classified_iff (frame : Bytes) : Classified frame ↔ Tells frame := by
  constructor
  · intro h
    obtain ⟨es, hes, -⟩ := writeFrame_events quiet frame (s := sms []) rfl
    have hinside := h.inside quiet (sms []) (typeIndex frame) (by rw [hes]; exact .head _)
    rcases telling_inside.mpr hinside.2 with ⟨header, hheader⟩
    have hkind := frameKind_telling quiet hheader
    refine ⟨header, hheader, fun hidr => ?_, fun hslice hidr => ?_⟩
    · have hsent := (sentWith_iff .iFrame rfl).mp (h.idr hidr) quiet (Nat.zero_le _)
      exact kindOf_iFrame.mp (hkind ▸ hsent)
    · have hsent := (sentWith_iff .pFrame rfl).mp (h.nonIdr hslice hidr) quiet (Nat.zero_le _)
      exact kindOf_pFrame.mp (hkind ▸ hsent)
  · rintro ⟨header, hheader, hidr, hnon⟩
    have hI : hasIdr frame → ∀ env, frameKind env frame = .iFrame := fun h env =>
      (frameKind_telling env hheader).trans (kindOf_iFrame.mpr (hidr h))
    have hP : hasSlice frame → ¬ hasIdr frame → ∀ env, frameKind env frame = .pFrame :=
      fun h h' env => (frameKind_telling env hheader).trans (kindOf_pFrame.mpr (hnon h h'))
    constructor
    case inside =>
      intro env s i hmem
      rw [writeFrame_frameAt hmem]
      exact ⟨(telling_eq frame).1, telling_inside.mp ⟨header, hheader⟩⟩
    case idr => exact fun h => (sentWith_iff .iFrame rfl).mpr fun env _ => hI h env
    case nonIdr => exact fun h h' => (sentWith_iff .pFrame rfl).mpr fun env _ => hP h h' env
    case kept =>
      intro hslice env s f
      apply writeFrame_saveFrame
      by_cases h : hasIdr frame
      · rw [hI h env]
        exact FrameKind.noConfusion
      · rw [hP hslice h env]
        exact FrameKind.noConfusion

/-- An access unit delimiter in front of an IDR slice. -/
theorem delimiter_hides_idr :
    ¬ Classified [0, 0, 0, 1, 0x09, 0xF0, 0, 0, 0, 1, 0x65, 0x88] := by
  intro h
  have hidr : hasIdr [0, 0, 0, 1, 0x09, 0xF0, 0, 0, 0, 1, 0x65, 0x88] := by
    unfold hasIdr
    decide
  have hkind := (sentWith_iff .iFrame rfl).mp (h.idr hidr) quiet (Nat.zero_le _)
  exact absurd hkind (by decide)

end SimpleSipClient.SMS
