import SimpleSipClient.Demux.Source

/-! # One iteration of the packet loop

Closed forms of the demuxer's routines. Everything an iteration does is a
function of the bytes from `NextPack` on, so the forms are stated with the start
code, the declared length and the header data length found there. Later modules
use these equations and never unfold the source definitions again.
-/

namespace SimpleSipClient.PsToH264

open Foundation

/-! ## The bytes of a packet header -/

def hasStartCode (b : Buffer) (p : Nat) (streamId : UInt8) : Bool :=
  b.cell p == 0x00 && b.cell (p + 1) == 0x00 && b.cell (p + 2) == 0x01 &&
    b.cell (p + 3) == streamId

/-- The big-endian length field of the packet at `p`. -/
def declaredLength (b : Buffer) (p : Nat) : Nat :=
  littelEndianSize (b.cell (p + 5)) (b.cell (p + 4))

def headerDataLength (b : Buffer) (p : Nat) : Nat := (b.cell (p + 8)).toNat

/-- What a video packet at `p` declares as its payload; negative when the packet
is shorter than its own header. -/
def payloadLength (b : Buffer) (p : Nat) : Int :=
  declaredLength b p - 3 - headerDataLength b p

def payloadOffset (b : Buffer) (p : Nat) : Nat := p + 9 + headerDataLength b p

theorem littelEndianSize_lt (byte0 byte1 : UInt8) : littelEndianSize byte0 byte1 < 65536 := by
  have h0 := byte0.toNat_lt
  have h1 := byte1.toNat_lt
  unfold littelEndianSize
  omega

theorem declaredLength_lt (b : Buffer) (p : Nat) : declaredLength b p < 65536 :=
  littelEndianSize_lt _ _

theorem headerDataLength_lt (b : Buffer) (p : Nat) : headerDataLength b p < 256 :=
  (b.cell (p + 8)).toNat_lt

theorem hasStartCode_iff {b : Buffer} {p : Nat} {streamId : UInt8} :
    hasStartCode b p streamId = true ↔
      b.cell p = 0x00 ∧ b.cell (p + 1) = 0x00 ∧ b.cell (p + 2) = 0x01 ∧
        b.cell (p + 3) = streamId := by
  simp [hasStartCode, and_assoc]

/-- Cells outside the block are zero, so a start code lies inside it. -/
theorem hasStartCode_lt_size {b : Buffer} {p : Nat} {streamId : UInt8} (hid : streamId ≠ 0x00)
    (h : hasStartCode b p streamId = true) : p + 3 < b.size := by
  by_contra hlt
  have hout := b.outside (p + 3) (by omega)
  rw [(hasStartCode_iff.mp h).2.2.2] at hout
  exact hid hout

theorem hasStartCode_unique {b : Buffer} {p : Nat} {id : UInt8}
    (h : hasStartCode b p id = true) (id' : UInt8) (hne : id ≠ id') :
    hasStartCode b p id' = false := by
  rw [Bool.eq_false_iff]
  intro h'
  have h3 := (hasStartCode_iff.mp h).2.2.2
  rw [(hasStartCode_iff.mp h').2.2.2] at h3
  exact hne h3.symm

/-! ## Reading a header -/

/-- How many bytes beyond the first the start code test looks at. -/
def codeSpan (b : Buffer) (p : Nat) : Nat :=
  if p < b.size ∧ b.cell p = 0x00 then
    if p + 1 < b.size ∧ b.cell (p + 1) = 0x00 then
      if p + 2 < b.size ∧ b.cell (p + 2) = 0x01 then 3 else 2
    else 1
  else 0

def codeEvents (b : Buffer) (p : Nat) : List Access :=
  (List.range (codeSpan b p + 1)).map fun k => .inspect (p + k)

theorem codeSpan_le (b : Buffer) (p : Nat) : codeSpan b p ≤ 3 := by
  unfold codeSpan
  split_ifs <;> omega

theorem codeSpan_of_hasStartCode {b : Buffer} {p : Nat} {streamId : UInt8}
    (hid : streamId ≠ 0x00) (h : hasStartCode b p streamId = true) : codeSpan b p = 3 := by
  have hlt := hasStartCode_lt_size hid h
  obtain ⟨h0, h1, h2, _⟩ := hasStartCode_iff.mp h
  unfold codeSpan
  rw [if_pos ⟨by omega, h0⟩, if_pos ⟨by omega, h1⟩, if_pos ⟨by omega, h2⟩]

theorem inspect_bind {α : Type} {b : Buffer} {p : Nat} {f : UInt8 → Demux α} (h : p < b.size) :
    (inspect p >>= f) b =
      ⟨.inspect p :: (f (b.cell p) b).events, (f (b.cell p) b).outcome⟩ := by
  rw [Traced.bind_run]
  simp [inspect, h]

theorem inspect_bind_outside {α : Type} {b : Buffer} {p : Nat} {f : UInt8 → Demux α}
    (h : b.size ≤ p) : (inspect p >>= f) b = ⟨[.inspect p], .error .invalid⟩ := by
  rw [Traced.bind_run]
  simp [inspect, Nat.not_lt.mpr h]

/-- The test stops at the first byte that differs and halts at the end of the block. -/
theorem isStartCode_run (b : Buffer) (p : Nat) (streamId : UInt8) :
    isStartCode p streamId b = ⟨codeEvents b p,
      if p + codeSpan b p < b.size then .ok (hasStartCode b p streamId, b)
      else .error .invalid⟩ := by
  unfold isStartCode codeEvents codeSpan hasStartCode
  by_cases h0 : p < b.size
  · rw [inspect_bind h0, Traced.ite_run]
    by_cases e0 : b.cell p = 0x00
    · by_cases h1 : p + 1 < b.size
      · rw [if_pos e0, inspect_bind h1, Traced.ite_run]
        by_cases e1 : b.cell (p + 1) = 0x00
        · by_cases h2 : p + 2 < b.size
          · rw [if_pos e1, inspect_bind h2, Traced.ite_run]
            by_cases e2 : b.cell (p + 2) = 0x01
            · by_cases h3 : p + 3 < b.size
              · rw [if_pos e2, inspect_bind h3]
                simp [h0, e0, h1, e1, h2, e2, h3, List.range_succ]
              · rw [if_pos e2, inspect_bind_outside (by omega)]
                simp [h0, e0, h1, e1, h2, e2, h3, List.range_succ]
            · simp [h0, e0, h1, e1, h2, e2, List.range_succ]
          · rw [if_pos e1, inspect_bind_outside (by omega)]
            simp [h0, e0, h1, e1, h2, List.range_succ]
        · simp [h0, e0, h1, e1, List.range_succ]
      · rw [if_pos e0, inspect_bind_outside (by omega)]
        simp [h0, e0, h1, List.range_succ]
    · simp [h0, e0, List.range_succ]
  · rw [inspect_bind_outside (by omega)]
    simp [h0, List.range_succ]

/-- Inside the block the test returns; at its end no start code can follow. -/
theorem isStartCode_bind {α : Type} {b : Buffer} {p : Nat} {streamId : UInt8}
    {f : Bool → Demux α} (h : p + codeSpan b p < b.size) :
    (isStartCode p streamId >>= f) b =
      ⟨codeEvents b p ++ (f (hasStartCode b p streamId) b).events,
        (f (hasStartCode b p streamId) b).outcome⟩ := by
  rw [Traced.bind_run, isStartCode_run, if_pos h]

theorem isStartCode_bind_outside {α : Type} {b : Buffer} {p : Nat} {streamId : UInt8}
    {f : Bool → Demux α} (h : b.size ≤ p + codeSpan b p) :
    (isStartCode p streamId >>= f) b = ⟨codeEvents b p, .error .invalid⟩ := by
  rw [Traced.bind_run, isStartCode_run, if_neg (by omega)]

theorem exchangedSize_bind {α : Type} {b : Buffer} {p : Nat} {f : Nat → Demux α}
    (h : p + 5 < b.size) :
    (exchangedSize (p + sizeofPackStartCode) >>= f) b =
      ⟨.inspect (p + 5) :: .inspect (p + 4) :: (f (declaredLength b p) b).events,
        (f (declaredLength b p) b).outcome⟩ := by
  have hrun : exchangedSize (p + sizeofPackStartCode) b =
      ⟨[.inspect (p + 5), .inspect (p + 4)], .ok (declaredLength b p, b)⟩ := by
    unfold exchangedSize sizeofPackStartCode
    rw [inspect_bind (by omega), inspect_bind (by omega)]
    rfl
  rw [Traced.bind_run, hrun]
  rfl

/-- The second length byte is read first. -/
theorem exchangedSize_bind_outside {α : Type} {b : Buffer} {p : Nat} {f : Nat → Demux α}
    (h : b.size ≤ p + 5) :
    (exchangedSize (p + sizeofPackStartCode) >>= f) b =
      ⟨[.inspect (p + 5)], .error .invalid⟩ := by
  have hrun : exchangedSize (p + sizeofPackStartCode) b =
      ⟨[.inspect (p + 5)], .error .invalid⟩ := by
    unfold exchangedSize sizeofPackStartCode
    rw [inspect_bind_outside (by omega)]
  rw [Traced.bind_run, hrun]

/-! ## Closed forms of the two header routines -/

/-- Low three bits of the fourteenth byte. -/
def packStuffing (b : Buffer) : Nat := (b.cell 13 &&& 0x07).toNat

theorem packStuffing_lt (b : Buffer) : packStuffing b < 8 := by
  have h : (b.cell 13 &&& 0x07).toNat = (b.cell 13).toNat &&& 7 := by simp
  unfold packStuffing
  rw [h]
  have := Nat.and_le_right (n := (b.cell 13).toNat) (m := 7)
  omega

/-- Offset of the first packet after the pack header. -/
def firstPack (b : Buffer) : Nat := 14 + packStuffing b

theorem programStreamPackHeader_run {b : Buffer} (length : Int) (h : 13 < b.size) :
    programStreamPackHeader 0 length b = ⟨[.inspect 13],
      .ok (⟨if int32 (length - firstPack b) < 4 then 0 else int32 (length - firstPack b),
        firstPack b, int32 (length - firstPack b)⟩, b)⟩ := by
  have hleft : length - sizeofProgramStreamPackHeader - packStuffing b =
      length - firstPack b := by
    unfold sizeofProgramStreamPackHeader firstPack
    omega
  unfold programStreamPackHeader
  rw [inspect_bind (by omega), Traced.ite_run]
  change (Exec.mk _ _) = _
  simp only [show (b.cell (0 + 13) &&& 0x07).toNat = packStuffing b from rfl, hleft]
  split <;> simp [sizeofProgramStreamPackHeader, firstPack]

theorem programStreamPackHeader_run_outside {b : Buffer} (length : Int) (h : b.size ≤ 13) :
    programStreamPackHeader 0 length b = ⟨[.inspect 13], .error .invalid⟩ := by
  unfold programStreamPackHeader
  rw [inspect_bind_outside (by omega)]

/-- Where the payload of a video packet starts; null unless its length is positive. -/
def payloadSource (b : Buffer) (p : Nat) : Option Nat :=
  if payloadLength b p > 0 then some (payloadOffset b p) else none

/-- What is left behind a packet with its six fixed bytes and declared length. -/
def leftBehind (b : Buffer) (p : Nat) (left : Int) : Int :=
  int32 (left - declaredLength b p - 6)

def pesEvents (p : Nat) : List Access := [.inspect (p + 5), .inspect (p + 4), .inspect (p + 8)]

theorem pes_short {b : Buffer} {p : Nat} {length : Int} (nextPack : Nat) (leftlength : Int)
    (h : size64 length < 9) :
    pes p length nextPack leftlength b = ⟨[], .ok (⟨0, nextPack, leftlength, none, 0⟩, b)⟩ := by
  unfold pes
  rw [Traced.ite_run, if_pos (show size64 length < sizeofProgramStreamE from h)]
  rfl

theorem pes_run {b : Buffer} {p : Nat} {length : Int} (nextPack : Nat) (leftlength : Int)
    (h : 9 ≤ size64 length) (hb : p + 8 < b.size) :
    pes p length nextPack leftlength b = ⟨pesEvents p,
      .ok (if leftBehind b p length ≤ 0 then
          ⟨0, nextPack, leftBehind b p length, payloadSource b p, payloadLength b p⟩
        else
          ⟨leftBehind b p length, p + 6 + declaredLength b p, leftBehind b p length,
            payloadSource b p, payloadLength b p⟩, b)⟩ := by
  have hlen : (declaredLength b p : Int) - 2 - 1 - (b.cell (p + 8)).toNat = payloadLength b p := by
    unfold payloadLength headerDataLength
    omega
  have hleft : length - declaredLength b p - sizeofPackStartCode - sizeofLittelEndianSize =
      length - declaredLength b p - 6 := by
    unfold sizeofPackStartCode sizeofLittelEndianSize
    omega
  unfold pes
  rw [Traced.ite_run, if_neg (by unfold sizeofProgramStreamE; omega),
    exchangedSize_bind (by omega), inspect_bind (by omega)]
  simp only [hlen, hleft, Traced.ite_run]
  unfold pesEvents leftBehind payloadSource payloadOffset headerDataLength
  split <;> rfl

/-- A video header that ends outside the block halts while it is read. -/
theorem pes_run_outside {b : Buffer} {p : Nat} {length : Int} (nextPack : Nat) (leftlength : Int)
    (h : 9 ≤ size64 length) (hb : b.size ≤ p + 8) :
    ∃ es, (∀ e ∈ es, e ∈ pesEvents p) ∧
      pes p length nextPack leftlength b = ⟨es, .error .invalid⟩ := by
  unfold pes
  rw [Traced.ite_run, if_neg (by unfold sizeofProgramStreamE; omega)]
  by_cases h5 : p + 5 < b.size
  · rw [exchangedSize_bind h5, inspect_bind_outside (by omega)]
    exact ⟨_, by simp [pesEvents], rfl⟩
  · rw [exchangedSize_bind_outside (by omega)]
    exact ⟨_, by simp [pesEvents], rfl⟩

/-! ## Payload copies -/

/-- The cursor after `n` payload bytes were appended. -/
def Cursor.appended (c : Cursor) (n : Int) : Cursor :=
  { c with buffer := c.buffer + n.toNat, h264length := int32 (c.h264length + n) }

theorem copyPayload_none (c : Cursor) (src : Option Nat) (b : Buffer) :
    copyPayload c src 0 b = ⟨[], .ok (c, b)⟩ := rfl

theorem copyPayload_null {c : Cursor} {n : Int} (hn : n ≠ 0) (b : Buffer) :
    copyPayload c none n b = ⟨[.memcpy c.buffer none n], .error .invalid⟩ := by
  unfold copyPayload
  rw [if_pos hn]
  rfl

theorem copyPayload_run {c : Cursor} {n : Int} {src : Nat} {b : Buffer} (hn : 0 < n)
    (hlt : n < 65536) (hd : c.buffer + n.toNat ≤ b.size) (hs : src + n.toNat ≤ b.size) :
    copyPayload c (some src) n b =
      ⟨[.memcpy c.buffer (some src) n], .ok (c.appended n, b.copy c.buffer src n.toNat)⟩ := by
  have hsize : size64 n = n.toNat := size64_of_nonneg (by omega) (by omega)
  unfold copyPayload
  rw [if_pos (by omega), Traced.bind_run]
  simp [memcpy, hsize, hd, hs, Cursor.appended]

theorem copyPayload_outside {c : Cursor} {n : Int} {src : Nat} {b : Buffer} (hn : 0 < n)
    (hlt : n < 65536) (h : b.size < c.buffer + n.toNat ∨ b.size < src + n.toNat) :
    copyPayload c (some src) n b = ⟨[.memcpy c.buffer (some src) n], .error .invalid⟩ := by
  have hsize : size64 n = n.toNat := size64_of_nonneg (by omega) (by omega)
  unfold copyPayload
  rw [if_pos (by omega), Traced.bind_run]
  simp only [memcpy, hsize]
  rw [if_neg (by omega)]

/-! ## Closed forms of one iteration -/

/-- The cursor after `Pes`: the two outputs keep their values on an early return. -/
def Cursor.behindPes (c : Cursor) (b : Buffer) : Cursor :=
  if leftBehind b c.nextPack c.leftlength ≤ 0 then
    { c with leftlength := leftBehind b c.nextPack c.leftlength }
  else
    { c with
      nextPack := c.nextPack + 6 + declaredLength b c.nextPack
      leftlength := leftBehind b c.nextPack c.leftlength }

/-- The cursor behind a system header or a stream map. -/
def Cursor.behindHeader (c : Cursor) (b : Buffer) : Cursor :=
  { c with
    nextPack := c.nextPack + 6 + declaredLength b c.nextPack
    leftlength := leftBehind b c.nextPack c.leftlength }

/-- `Pes` returns nonzero exactly when bytes are left behind the packet. -/
def videoFlow (c : Cursor) (b : Buffer) (d : Cursor) : Flow Cursor :=
  if leftBehind b c.nextPack c.leftlength ≤ 0 then .leave d else .again d

section Packet

variable {length : Int} {c : Cursor} {b : Buffer}

theorem demuxVideo_short (hl : size64 c.leftlength < 9) :
    demuxVideo c b = ⟨[], .ok (.leave c, b)⟩ := by
  unfold demuxVideo
  rw [Traced.bind_run, pes_short _ _ hl]
  rfl

theorem demuxVideo_unreadable (hl : 9 ≤ size64 c.leftlength) (hb : b.size ≤ c.nextPack + 8) :
    ∃ es, (∀ e ∈ es, e ∈ pesEvents c.nextPack) ∧ demuxVideo c b = ⟨es, .error .invalid⟩ := by
  obtain ⟨es, hes, hrun⟩ := pes_run_outside c.nextPack c.leftlength hl hb
  refine ⟨es, hes, ?_⟩
  unfold demuxVideo
  rw [Traced.bind_run, hrun]

/-- A readable video packet: its payload is copied, then the loop goes on exactly
when bytes are left behind the packet. -/
theorem demuxVideo_run (hl : 9 ≤ size64 c.leftlength) (hb : c.nextPack + 8 < b.size) :
    demuxVideo c b =
      let copied := copyPayload (c.behindPes b) (payloadSource b c.nextPack)
        (payloadLength b c.nextPack) b
      ⟨pesEvents c.nextPack ++ copied.events,
        match copied.outcome with
        | .ok (d, b') => .ok (videoFlow c b d, b')
        | .error e => .error e⟩ := by
  unfold demuxVideo
  rw [Traced.bind_run, pes_run _ _ hl hb]
  unfold Cursor.behindPes videoFlow
  by_cases hleft : leftBehind b c.nextPack c.leftlength ≤ 0
  · simp only [if_pos hleft]
    rw [Traced.ite_run, if_neg (by simp), Traced.bind_run]
    rcases copyPayload _ _ _ b with ⟨es, _ | ⟨d, b'⟩⟩ <;> simp
  · simp only [if_neg hleft]
    rw [Traced.ite_run, if_pos (by simp; omega), Traced.bind_run]
    rcases copyPayload _ _ _ b with ⟨es, _ | ⟨d, b'⟩⟩ <;> simp

theorem demuxTitleHeader_short (hl : size64 length < 6) :
    demuxTitleHeader length c b = ⟨[], .ok (.leave c, b)⟩ := by
  unfold demuxTitleHeader
  rw [Traced.ite_run, if_pos (show size64 length < sizeofPackTitleHeader from hl)]
  rfl

theorem demuxTitleHeader_run (hl : 6 ≤ size64 length) (hb : c.nextPack + 5 < b.size) :
    demuxTitleHeader length c b =
      ⟨[.inspect (c.nextPack + 5), .inspect (c.nextPack + 4)],
        .ok (.again (c.behindHeader b), b)⟩ := by
  unfold demuxTitleHeader
  rw [Traced.ite_run,
    if_neg (show ¬ size64 length < sizeofPackTitleHeader by unfold sizeofPackTitleHeader; omega),
    exchangedSize_bind hb]
  simp [Cursor.behindHeader, leftBehind, sizeofPackTitleHeader, Nat.add_right_comm]

theorem demuxTitleHeader_unreadable (hl : 6 ≤ size64 length) (hb : b.size ≤ c.nextPack + 5) :
    demuxTitleHeader length c b = ⟨[.inspect (c.nextPack + 5)], .error .invalid⟩ := by
  unfold demuxTitleHeader
  rw [Traced.ite_run,
    if_neg (show ¬ size64 length < sizeofPackTitleHeader by unfold sizeofPackTitleHeader; omega),
    exchangedSize_bind_outside hb]

/-- The stream map branch is the other one with the tested length replaced. -/
theorem demuxStreamMap_eq : demuxStreamMap c = demuxTitleHeader c.leftlength c := rfl

theorem demuxPacket_unreadable (length : Int)
    (h : b.size ≤ c.nextPack + codeSpan b c.nextPack) :
    demuxPacket length c b = ⟨codeEvents b c.nextPack, .error .invalid⟩ := by
  unfold demuxPacket
  exact isStartCode_bind_outside h

theorem demuxPacket_unknown (h : c.nextPack + codeSpan b c.nextPack < b.size)
    (hv : hasStartCode b c.nextPack 0xE0 = false) (hs : hasStartCode b c.nextPack 0xBB = false)
    (hm : hasStartCode b c.nextPack 0xBC = false) :
    demuxPacket length c b =
      ⟨codeEvents b c.nextPack ++ (codeEvents b c.nextPack ++ codeEvents b c.nextPack),
        .ok (.leave c, b)⟩ := by
  unfold demuxPacket
  rw [isStartCode_bind h, hv, Traced.ite_run, if_neg (by decide), isStartCode_bind h, hs,
    Traced.ite_run, if_neg (by decide), isStartCode_bind h, hm, Traced.ite_run,
    if_neg (by decide)]
  simp

/-- A start code is inside the block, so testing for it returns. -/
theorem codeSpan_inside {p : Nat} {streamId : UInt8} (hid : streamId ≠ 0x00)
    (h : hasStartCode b p streamId = true) : p + codeSpan b p < b.size := by
  rw [codeSpan_of_hasStartCode hid h]
  exact hasStartCode_lt_size hid h

theorem hasStartCode_outside {p : Nat} (streamId : UInt8) (hid : streamId ≠ 0x00)
    (h : b.size ≤ p + codeSpan b p) : hasStartCode b p streamId = false := by
  rw [Bool.eq_false_iff]
  intro hc
  have := codeSpan_inside hid hc
  omega

theorem demuxPacket_video (hv : hasStartCode b c.nextPack 0xE0 = true) :
    demuxPacket length c b =
      ⟨codeEvents b c.nextPack ++ (demuxVideo c b).events, (demuxVideo c b).outcome⟩ := by
  unfold demuxPacket
  rw [isStartCode_bind (codeSpan_inside (by decide) hv), hv, Traced.ite_run, if_pos rfl]

theorem demuxPacket_title (hs : hasStartCode b c.nextPack 0xBB = true) :
    demuxPacket length c b =
      ⟨codeEvents b c.nextPack ++
          (codeEvents b c.nextPack ++ (demuxTitleHeader length c b).events),
        (demuxTitleHeader length c b).outcome⟩ := by
  have hin := codeSpan_inside (b := b) (by decide) hs
  unfold demuxPacket
  rw [isStartCode_bind hin, hasStartCode_unique hs _ (by decide), Traced.ite_run,
    if_neg (by decide), isStartCode_bind hin, hs, Traced.ite_run, if_pos rfl]

theorem demuxPacket_map (hm : hasStartCode b c.nextPack 0xBC = true) :
    demuxPacket length c b =
      ⟨codeEvents b c.nextPack ++ (codeEvents b c.nextPack ++
          (codeEvents b c.nextPack ++ (demuxStreamMap c b).events)),
        (demuxStreamMap c b).outcome⟩ := by
  have hin := codeSpan_inside (b := b) (by decide) hm
  unfold demuxPacket
  rw [isStartCode_bind hin, hasStartCode_unique hm _ (by decide), Traced.ite_run,
    if_neg (by decide), isStartCode_bind hin, hasStartCode_unique hm _ (by decide), Traced.ite_run,
    if_neg (by decide), isStartCode_bind hin, hm, Traced.ite_run, if_pos rfl]

/-! ## Events of one iteration -/

theorem copyPayload_events (d : Cursor) (src : Option Nat) (n : Int) (s : Buffer) :
    (copyPayload d src n s).events = if n ≠ 0 then [.memcpy d.buffer src n] else [] := by
  unfold copyPayload
  split
  · cases h : (memcpy d.buffer src n s).outcome with
    | error e => rw [Traced.bind_error h]; rfl
    | ok r => rw [Traced.bind_ok h]; rfl
  · rfl

@[simp] theorem Cursor.behindPes_buffer (c : Cursor) (b : Buffer) :
    (c.behindPes b).buffer = c.buffer := by
  unfold Cursor.behindPes
  split <;> rfl

theorem mem_codeEvents {a : Access} {p : Nat} :
    a ∈ codeEvents b p ↔ ∃ k ≤ codeSpan b p, a = .inspect (p + k) := by
  unfold codeEvents
  constructor
  · intro ha
    obtain ⟨k, hk, rfl⟩ := List.mem_map.mp ha
    exact ⟨k, by simpa [Nat.lt_succ_iff] using hk, rfl⟩
  · rintro ⟨k, hk, rfl⟩
    exact List.mem_map.mpr ⟨k, by simpa [Nat.lt_succ_iff] using hk, rfl⟩

/-- An iteration tests the start code and does what the branch it takes does. -/
theorem mem_demuxPacket_events {a : Access} :
    a ∈ (demuxPacket length c b).events ↔
      a ∈ codeEvents b c.nextPack ∨
      (hasStartCode b c.nextPack 0xE0 = true ∧ a ∈ (demuxVideo c b).events) ∨
      (hasStartCode b c.nextPack 0xBB = true ∧ a ∈ (demuxTitleHeader length c b).events) ∨
      (hasStartCode b c.nextPack 0xBC = true ∧ a ∈ (demuxStreamMap c b).events) := by
  by_cases hin : c.nextPack + codeSpan b c.nextPack < b.size
  · cases hv : hasStartCode b c.nextPack 0xE0 with
    | true =>
        have hne := hasStartCode_unique hv
        simp [demuxPacket_video hv, hne]
    | false =>
        cases hs : hasStartCode b c.nextPack 0xBB with
        | true =>
            have hne := hasStartCode_unique hs
            simp [demuxPacket_title hs, hne]
        | false =>
            cases hm : hasStartCode b c.nextPack 0xBC with
            | true => simp [demuxPacket_map hm]
            | false => simp [demuxPacket_unknown hin hv hs hm]
  · have hout := Nat.le_of_not_lt hin
    simp [demuxPacket_unreadable length hout, hasStartCode_outside _ _ hout]

/-- A video packet is copied from when its nine fixed bytes are read and declare
anything but an empty payload. -/
theorem memcpy_mem_demuxVideo {dest : Nat} {src : Option Nat} {n : Int} :
    .memcpy dest src n ∈ (demuxVideo c b).events ↔
      9 ≤ size64 c.leftlength ∧ c.nextPack + 8 < b.size ∧ payloadLength b c.nextPack ≠ 0 ∧
        dest = c.buffer ∧ src = payloadSource b c.nextPack ∧
        n = payloadLength b c.nextPack := by
  by_cases hl : 9 ≤ size64 c.leftlength
  · by_cases hb : c.nextPack + 8 < b.size
    · rw [demuxVideo_run hl hb]
      simp only [copyPayload_events, Cursor.behindPes_buffer, pesEvents]
      split <;> simp [*]
    · obtain ⟨es, hes, hrun⟩ := demuxVideo_unreadable hl (Nat.le_of_not_lt hb)
      rw [hrun]
      constructor
      · intro h
        simpa [pesEvents] using hes _ h
      · exact fun h => absurd h.2.1 hb
  · rw [demuxVideo_short (by omega)]
    simp [hl]

theorem inspect_mem_demuxVideo {o : Nat} (h : .inspect o ∈ (demuxVideo c b).events) :
    9 ≤ size64 c.leftlength ∧ o < c.nextPack + 9 := by
  have hpes : ∀ o : Nat, Access.inspect o ∈ pesEvents c.nextPack → o < c.nextPack + 9 := by
    intro o ho
    simp [pesEvents] at ho
    omega
  by_cases hl : 9 ≤ size64 c.leftlength
  · refine ⟨hl, hpes o ?_⟩
    by_cases hb : c.nextPack + 8 < b.size
    · rw [demuxVideo_run hl hb] at h
      simp only [copyPayload_events] at h
      split at h <;> simpa using h
    · obtain ⟨es, hes, hrun⟩ := demuxVideo_unreadable hl (Nat.le_of_not_lt hb)
      rw [hrun] at h
      exact hes _ h
  · rw [demuxVideo_short (by omega)] at h
    simp at h

/-- The branch of a header without payload reads its length field, the second byte
of it first, and copies nothing. -/
theorem mem_demuxTitleHeader_events {a : Access} :
    a ∈ (demuxTitleHeader length c b).events ↔ 6 ≤ size64 length ∧
      (a = .inspect (c.nextPack + 5) ∨
        (a = .inspect (c.nextPack + 4) ∧ c.nextPack + 5 < b.size)) := by
  by_cases hl : 6 ≤ size64 length
  · by_cases hb : c.nextPack + 5 < b.size
    · simp [demuxTitleHeader_run hl hb, hl, hb]
    · simp [demuxTitleHeader_unreadable hl (Nat.le_of_not_lt hb), hl, hb]
  · simp [demuxTitleHeader_short (Nat.lt_of_not_le hl), hl]

end Packet

end SimpleSipClient.PsToH264
