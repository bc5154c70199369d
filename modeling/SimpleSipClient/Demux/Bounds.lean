import SimpleSipClient.Demux.Walk

/-! # What the demuxer reads and copies

Every byte that a call inspects and every copy that it makes belongs to a packet
of the walk, and which ones they are depends on the input alone. This gives the
exact inputs on which all copies stay inside the frame, and those on which all
header reads do.
-/

namespace SimpleSipClient.PsToH264

open Foundation

/-! ## The accesses of a call -/

/-- The packet at `p` reaches `memcpy`. -/
def copies (m : Buffer) (length : Int) (p : Nat) : Prop :=
  hasStartCode m p 0xE0 = true ∧ pesReads length p = true ∧ p + 8 < m.size ∧ payloadLength m p ≠ 0

/-- How many bytes from `p` on an iteration inspects at most. -/
def headerSpan (m : Buffer) (length : Int) (p : Nat) : Nat :=
  if hasStartCode m p 0xE0 ∧ pesReads length p then 9
  else if (hasStartCode m p 0xBB ∧ 6 ≤ size64 length) ∨
      (hasStartCode m p 0xBC ∧ 6 ≤ size64 (leftAt length p)) then 6
  else 4

section Iteration

variable {m : Buffer} {length : Int} {c : Cursor} {s : Buffer} {p : Nat} {out : List UInt8}

theorem Tracks.memcpy_mem (h : Tracks m length c s p out) {dest : Nat} {src : Option Nat}
    {n : Int} : .memcpy dest src n ∈ (demuxPacket length c s).events ↔
      copies m length p ∧ dest = out.length ∧ src = payloadSource m p ∧ n = payloadLength m p := by
  rw [mem_demuxPacket_events, demuxStreamMap_eq, memcpy_mem_demuxVideo, h.pesReads_iff]
  simp only [mem_codeEvents, mem_demuxTitleHeader_events, reduceCtorEq, and_false, exists_false,
    false_and, or_false, false_or]
  rw [h.nextPack, h.ahead.hasStartCode, h.ahead.payloadLength, h.ahead.payloadSource,
    h.ahead.size, h.buffer]
  simp only [copies, and_assoc]

theorem Tracks.inspect_mem (h : Tracks m length c s p out) {o : Nat}
    (ho : .inspect o ∈ (demuxPacket length c s).events) : o < p + headerSpan m length p := by
  have hspan : 4 ≤ headerSpan m length p := by
    unfold headerSpan
    split_ifs <;> omega
  rw [mem_demuxPacket_events, demuxStreamMap_eq] at ho
  simp only [mem_demuxTitleHeader_events] at ho
  rw [h.nextPack, h.ahead.hasStartCode, h.ahead.hasStartCode, h.ahead.hasStartCode] at ho
  rcases ho with hcode | ⟨hv, ho⟩ | ⟨hs, hl, ho⟩ | ⟨hm, hl, ho⟩
  · obtain ⟨k, hk, heq⟩ := mem_codeEvents.mp hcode
    have hk4 := codeSpan_le s p
    cases heq
    omega
  · obtain ⟨hl, hlt⟩ := inspect_mem_demuxVideo ho
    rw [headerSpan, if_pos ⟨hv, h.pesReads_iff.mp hl⟩]
    rw [h.nextPack] at hlt
    exact hlt
  · have hv := hasStartCode_unique hs 0xE0 (by decide)
    rw [headerSpan, if_neg (by simp [hv]), if_pos (.inl ⟨hs, hl⟩)]
    rcases ho with ho | ⟨ho, _⟩ <;> cases ho <;> omega
  · rw [h.leftlength] at hl
    have hv := hasStartCode_unique hm 0xE0 (by decide)
    rw [headerSpan, if_neg (by simp [hv]), if_pos (.inr ⟨hm, hl⟩)]
    rcases ho with ho | ⟨ho, _⟩ <;> cases ho <;> omega

/-- The first start code byte is read in every iteration. -/
theorem Tracks.inspect_first (h : Tracks m length c s p out) :
    .inspect p ∈ (demuxPacket length c s).events := by
  rw [mem_demuxPacket_events, h.nextPack]
  exact .inl (mem_codeEvents.mpr ⟨0, by omega, rfl⟩)

theorem Tracks.inspect_title (h : Tracks m length c s p out) (hs : hasStartCode m p 0xBB = true)
    (hl : 6 ≤ size64 length) : .inspect (p + 5) ∈ (demuxPacket length c s).events := by
  rw [mem_demuxPacket_events, h.nextPack, h.ahead.hasStartCode 0xBB]
  refine .inr (.inr (.inl ⟨hs, mem_demuxTitleHeader_events.mpr ⟨hl, .inl ?_⟩⟩))
  rw [h.nextPack]

end Iteration

section Call

variable {m : Buffer} {length : Int}

/-- A call reads the stuffing byte and does what its iterations do. -/
theorem mem_getH246FromPs_events {a : Access} :
    a ∈ (getH246FromPs length m).events ↔
      a = .inspect 13 ∨ ∃ h ∈ demuxHeads m length, a ∈ (demuxPacket length h.1 h.2).events := by
  cases hp : hasPackets m length with
  | true =>
      obtain ⟨hrun, hheads⟩ := getH246FromPs_loop hp
      rw [hrun, hheads]
      simp only [iterate_events, List.mem_cons, List.mem_flatMap]
  | false =>
      obtain ⟨hrun, hheads⟩ := getH246FromPs_noPackets hp
      simp [hrun, hheads]

theorem walk_of_head {h : Cursor × Buffer} (hh : h ∈ demuxHeads m length) :
    ∃ p ∈ walk m length, ∃ out, Tracks m length h.1 h.2 p out :=
  (forall₂_mem (demuxHeads_walk m length)).1 h hh

theorem head_of_walk {p : Nat} (hp : p ∈ walk m length) :
    ∃ h ∈ demuxHeads m length, ∃ out, Tracks m length h.1 h.2 p out :=
  (forall₂_mem (demuxHeads_walk m length)).2 p hp

end Call

/-- A call of the demuxer: any buffer, and any `int` that the buffer is as long as. -/
structure PsInput where
  block : Buffer
  length : Int
  int : -2147483648 ≤ length ∧ length < 2147483648
  held : length ≤ block.size

/-- A frame in the receiver's buffer, followed by zeros. -/
def received (xs : List UInt8) (h : xs.length ≤ 1048576) : PsInput where
  block := (Block.blank 1048576).write 0 xs
  length := xs.length
  int := by omega
  held := by simp only [Block.write_size, Block.blank_size]; omega

def packHeaderBytes : List UInt8 := [0, 0, 1, 0xBA, 0x44, 0, 4, 0, 4, 1, 0, 0, 3, 0xF8]

/-! ## Payload copies -/

/-- The values of `*h264length` during a call: at its start, at the head of each
iteration and when it returns. -/
def h264lengths (m : Buffer) (length : Int) : List Int :=
  0 :: ((demuxHeads m length).map (fun h => h.1.h264length) ++
    match (getH246FromPs length m).outcome with
    | .ok (r, _) => [r.h264length]
    | .error _ => [])

/-- Every copy has a positive length and a source between the packet and the end of
the frame, and `*h264length` grows from zero and stays within the frame's length. -/
structure CopiesValid (i : PsInput) : Prop where
  source : ∀ h ∈ demuxHeads i.block i.length, ∀ dest src n,
    .memcpy dest src n ∈ (demuxPacket i.length h.1 h.2).events →
    0 < n ∧ ∃ a, src = some a ∧ h.1.nextPack ≤ a ∧ a + n ≤ i.length
  bounded : ∀ x ∈ h264lengths i.block i.length, 0 ≤ x ∧ x ≤ i.length
  grows : (h264lengths i.block i.length).Pairwise (· ≤ ·)

/-- The video packet at `p` declares a payload of positive length that ends within
the frame. -/
def PayloadInside (i : PsInput) (p : Nat) : Prop :=
  0 < payloadLength i.block p ∧ packetEnd i.block p ≤ i.length

section Copies

variable {i : PsInput} {c : Cursor} {s : Buffer} {p : Nat} {out : List UInt8}

theorem Tracks.source_inside (h : Tracks i.block i.length c s p out) {dest : Nat}
    {src : Option Nat} {n : Int} (hm : .memcpy dest src n ∈ (demuxPacket i.length c s).events)
    (hin : PayloadInside i p) :
    0 < n ∧ ∃ a, src = some a ∧ c.nextPack ≤ a ∧ a + n ≤ i.length := by
  obtain ⟨_, _, rfl, rfl⟩ := h.memcpy_mem.mp hm
  obtain ⟨hpos, hend⟩ := hin
  have hsum := payload_end (Int.le_of_lt hpos)
  refine ⟨hpos, payloadOffset i.block p, by rw [payloadSource, if_pos hpos], ?_, by omega⟩
  rw [h.nextPack, payloadOffset]
  omega

/-- What an iteration adds to the output stays within the frame. -/
theorem Tracks.output_inside (h : Tracks i.block i.length c s p out) {r : Flow Cursor × Buffer}
    (hok : (demuxPacket i.length c s).outcome = .ok r) (hout : out.length ≤ i.length)
    (hin : copies i.block i.length p → PayloadInside i p) :
    (out ++ payloadAt i.block i.length p).length ≤ i.length := by
  unfold payloadAt
  split
  · rename_i hc
    obtain ⟨hv, hr, hpos⟩ := hc
    obtain ⟨_, hend⟩ := hin ⟨hv, hr, ((h.settled hok).video hv hr).1, by omega⟩
    have hsum := payload_end (Int.le_of_lt hpos)
    have hbehind := h.behind
    have hoff := le_payloadOffset i.block p
    rw [List.length_append, Block.slice_length]
    omega
  · simpa using hout

theorem h264lengths_eq_observed (hp : hasPackets i.block i.length = true) :
    h264lengths i.block i.length =
      0 :: observed loopGuard (demuxPacket i.length) Cursor.h264length (i.block.size + 1)
        ⟨0, 0, firstPack i.block, leftAt i.length (firstPack i.block)⟩ i.block := by
  obtain ⟨hrun, hheads⟩ := getH246FromPs_loop hp
  rw [h264lengths, observed, hrun, hheads]
  dsimp only
  generalize iterate _ _ _ _ _ = loop
  rcases loop with ⟨_, _ | ⟨c, s⟩⟩ <;> rfl

/-- The loop is at an offset of the walk, with no more written than the frame is long. -/
def Within (i : PsInput) (c : Cursor) (s : Buffer) : Prop :=
  ∃ p out, Tracks i.block i.length c s p out ∧
    (walkGuard i.length p = true → p ∈ walk i.block i.length) ∧ out.length ≤ i.length

theorem int32_output (hout : out.length ≤ i.length) : int32 out.length = out.length :=
  int32_eq_self (by omega) (by have := i.int; omega)

theorem Within.bound (h : Within i c s) : c.h264length ≤ i.length := by
  obtain ⟨p, out, h, _, ho⟩ := h
  rw [h.h264length, int32_output ho]
  exact ho

theorem within_start (hp : hasPackets i.block i.length = true) (hlen : 0 ≤ i.length) :
    Within i ⟨0, 0, firstPack i.block, leftAt i.length (firstPack i.block)⟩ i.block := by
  refine ⟨firstPack i.block, [], tracks_start i.block i.length, fun hg => ?_, hlen⟩
  rw [walk_eq_chain hp]
  simp [chain, hg]

variable (hin : ∀ p ∈ walk i.block i.length, copies i.block i.length p → PayloadInside i p)
include hin

theorem Within.again (h : Within i c s) (hg : loopGuard c = true) {c' : Cursor} {s' : Buffer}
    (hok : (demuxPacket i.length c s).outcome = .ok (.again c', s')) :
    Within i c' s' ∧ c.h264length ≤ c'.h264length := by
  obtain ⟨p, out, h, hw, ho⟩ := h
  have hpw := hw ((demux_follows i.block i.length).guards c s p out h ▸ hg)
  have hfit := h.output_inside hok ho (hin p hpw)
  obtain ⟨q, hq, hnext⟩ := (demux_follows i.block i.length).again c s p out c' s' h hg hok
  refine ⟨⟨q, _, hnext, walk_closed hpw hq, hfit⟩, ?_⟩
  rw [h.h264length, hnext.h264length, int32_output ho, int32_output hfit, List.length_append]
  omega

theorem Within.leave (h : Within i c s) (hg : loopGuard c = true) {c' : Cursor} {s' : Buffer}
    (hok : (demuxPacket i.length c s).outcome = .ok (.leave c', s')) :
    c.h264length ≤ c'.h264length ∧ c'.h264length ≤ i.length := by
  obtain ⟨p, out, h, hw, ho⟩ := h
  have hpw := hw ((demux_follows i.block i.length).guards c s p out h ▸ hg)
  have hfit := h.output_inside hok ho (hin p hpw)
  obtain ⟨_, hend⟩ := (demux_follows i.block i.length).leave c s p out c' s' h hg hok
  rw [h.h264length, hend.h264length, int32_output ho, int32_output hfit]
  refine ⟨?_, hfit⟩
  rw [List.length_append]
  omega

/-- If all payloads are inside the frame, so is everything that is written. -/
theorem h264lengths_inside (hlen : 0 ≤ i.length) :
    (h264lengths i.block i.length).Pairwise (· ≤ ·) ∧
      ∀ x ∈ h264lengths i.block i.length, 0 ≤ x ∧ x ≤ i.length := by
  cases hp : hasPackets i.block i.length with
  | true =>
      obtain ⟨hgrow, hbound⟩ := observed_grows (fun _ _ h => Within.bound h)
        (fun _ _ _ _ h hg hok => h.again hin hg hok) (fun _ _ _ _ h hg hok => h.leave hin hg hok)
        (i.block.size + 1) (within_start hp hlen)
      rw [h264lengths_eq_observed hp]
      refine ⟨List.pairwise_cons.mpr ⟨fun x hx => (hbound x hx).1, hgrow⟩, fun x hx => ?_⟩
      rcases List.mem_cons.mp hx with rfl | hx
      · exact ⟨Int.le_refl 0, hlen⟩
      · exact hbound x hx
  | false =>
      obtain ⟨hrun, hheads⟩ := getH246FromPs_noPackets hp
      by_cases hs : 13 < i.block.size
      · simp [h264lengths, hrun, hheads, hlen, hs]
      · simp [h264lengths, hrun, hheads, hlen, hs]

end Copies

/-- All copies are valid exactly when every video packet that reaches `memcpy`
declares a payload of positive length that ends within the frame. -/
theorem copiesValid_iff (i : PsInput) :
    CopiesValid i ↔ 0 ≤ i.length ∧
      ∀ p ∈ walk i.block i.length, copies i.block i.length p → PayloadInside i p := by
  constructor
  · intro hvalid
    refine ⟨(hvalid.bounded 0 List.mem_cons_self).2, fun p hp hc => ?_⟩
    obtain ⟨h, hh, out, ht⟩ := head_of_walk hp
    obtain ⟨hpos, a, hsrc, _, hend⟩ :=
      hvalid.source h hh out.length _ _ (ht.memcpy_mem.mpr ⟨hc, rfl, rfl, rfl⟩)
    have hsum := payload_end (Int.le_of_lt hpos)
    rw [payloadSource, if_pos hpos, Option.some.injEq] at hsrc
    subst hsrc
    exact ⟨hpos, by omega⟩
  · rintro ⟨hlen, hin⟩
    obtain ⟨hgrows, hbounded⟩ := h264lengths_inside hin hlen
    refine ⟨fun h hh dest src n hm => ?_, hbounded, hgrows⟩
    obtain ⟨p, hp, out, ht⟩ := walk_of_head hh
    exact ht.source_inside hm (hin p hp (ht.memcpy_mem.mp hm).1)

/-- A video packet of declared length zero. -/
def shortPes : PsInput :=
  received (packHeaderBytes ++ [0, 0, 1, 0xE0, 0, 0, 0x80, 0, 0]) (by decide)

/-- A video packet whose declared length goes 4091 bytes beyond the frame. -/
def longPes : PsInput :=
  received (packHeaderBytes ++ [0, 0, 1, 0xE0, 0x0F, 0xFF, 0x80, 0, 0, 0x65]) (by decide)

/-- The first is copied with length -3 from a null pointer, the second with its
declared length. -/
theorem copies_not_valid : ¬ CopiesValid shortPes ∧ ¬ CopiesValid longPes := by
  constructor
  · intro hvalid
    have hcopy : ∃ h ∈ demuxHeads shortPes.block shortPes.length,
        Access.memcpy 0 none (-3) ∈ (demuxPacket shortPes.length h.1 h.2).events := by decide
    obtain ⟨h, hh, hm⟩ := hcopy
    exact absurd (hvalid.source h hh _ _ _ hm).1 (by decide)
  · intro hvalid
    have hlong : 4092 ∈ h264lengths longPes.block longPes.length := by decide
    exact absurd (hvalid.bounded _ hlong).2 (by decide)

/-! ## Header reads -/

/-- Every byte that is inspected lies in the frame, and no iteration starts with
less than a start code left. -/
structure ReadsInside (i : PsInput) : Prop where
  offsets : ∀ o : Nat, .inspect o ∈ (getH246FromPs i.length i.block).events → o < i.length
  heads : ∀ h ∈ demuxHeads i.block i.length, 4 ≤ h.1.leftlength

/-- The header without payload at `p` declares a length that ends within the frame,
if its length field is. -/
def HeaderInside (i : PsInput) (p : Nat) : Prop :=
  (hasStartCode i.block p 0xBB = true → packetEnd i.block p ≤ i.length) ∧
    (hasStartCode i.block p 0xBC = true → p + 6 ≤ i.length → packetEnd i.block p ≤ i.length)

section Headers

variable {i : PsInput}

/-- An offset that the declared lengths keep within the frame has a whole start code
left, or the loop ends there. -/
theorem walkGuard_inside {p : Nat} (hp : p ≤ i.length) :
    walkGuard i.length p = true ↔ (p : Int) + 4 ≤ i.length := by
  simp [walkGuard, size64_leftAt i.int.2 hp]

/-- Behind the end of the frame the unsigned loop test holds. -/
theorem walkGuard_overshoot {p : Nat} (hp : i.length < p) (hfar : p ≤ i.length + 65541) :
    walkGuard i.length p = true := by
  have hleft := leftAt_eq i.int.2 (show (p : Int) ≤ i.length + 2147483648 by omega)
  have hneg : int32 (i.length - p) < 0 := by
    change leftAt i.length p < 0
    omega
  exact decide_eq_true ((le_size64_int32 (by omega) _).mpr (.inl hneg))

theorem walk_inside (h14 : 14 ≤ i.length)
    (hin : ∀ p ∈ walk i.block i.length, HeaderInside i p) :
    ∀ p ∈ walk i.block i.length, (p : Int) + 4 ≤ i.length := by
  have hint := i.int.2
  cases hp : hasPackets i.block i.length with
  | true =>
      rw [walk_eq_chain hp] at hin ⊢
      refine chain_invariant (fun q r hq hI hn hg => ?_) (fun hg => ?_)
      · have hr := walkNext_eq hn
        have hfar := declaredLength_lt i.block q
        have hend : packetEnd i.block q = q + 6 + declaredLength i.block q := rfl
        refine (walkGuard_inside ?_).mp hg
        unfold walkNext at hn
        split_ifs at hn with hv hc hs hc hm hc
        · have hleft := leftAt_eq hint
            (show (packetEnd i.block q : Int) ≤ i.length + 2147483648 by omega)
          omega
        · have := (hin q hq).1 hs
          omega
        · have h6 := (size64_leftAt hint (by omega)).mp hc.1
          have := (hin q hq).2 hm h6
          omega
      · have h14 : 4 ≤ leftAt i.length (firstPack i.block) := by
          simp [hasPackets] at hp
          exact hp.2
        have hst := packStuffing_lt i.block
        have hfirst : firstPack i.block = 14 + packStuffing i.block := rfl
        have hleft := leftAt_eq hint
          (show (firstPack i.block : Int) ≤ i.length + 2147483648 by omega)
        omega
  | false => simp [walk_eq_nil hp]

/-- Inside the frame the bytes that an iteration inspects are, too. -/
theorem headerSpan_inside {p : Nat} (hp : (p : Int) + 4 ≤ i.length) (hin : HeaderInside i p) :
    (p : Int) + headerSpan i.block i.length p ≤ i.length := by
  have hend : packetEnd i.block p = p + 6 + declaredLength i.block p := rfl
  unfold headerSpan
  split_ifs with hv hc
  · have h9 : 9 ≤ size64 (leftAt i.length p) := by simpa [pesReads] using hv.2
    have := (size64_leftAt i.int.2 (by omega)).mp h9
    omega
  · rcases hc with ⟨hs, _⟩ | ⟨_, h6⟩
    · have := hin.1 hs
      omega
    · exact (size64_leftAt i.int.2 (by omega)).mp h6
  · omega

end Headers

/-- If all reads are inside the frame, so is the start code of every packet on the walk. -/
theorem ReadsInside.start_inside (h : ReadsInside i) :
    ∀ p ∈ walk i.block i.length, (p : Int) + 4 ≤ i.length := by
  intro p hp
  obtain ⟨hd, hh, out, ht⟩ := head_of_walk hp
  have hlt := h.offsets p (mem_getH246FromPs_events.mpr (.inr ⟨hd, hh, ht.inspect_first⟩))
  have h4 := h.heads hd hh
  rw [ht.leftlength, leftAt_eq i.int.2 (by omega)] at h4
  omega

/-- All header reads are inside the frame exactly when the frame has a whole pack
header and no system header and no stream map on the walk overshoots it. -/
theorem readsInside_iff (i : PsInput) :
    ReadsInside i ↔ 14 ≤ i.length ∧ ∀ p ∈ walk i.block i.length, HeaderInside i p := by
  have hint := i.int.2
  constructor
  · intro hin
    have h13 := hin.offsets 13 (mem_getH246FromPs_events.mpr (.inl rfl))
    refine ⟨by omega, fun p hp => ?_⟩
    have hp4 := hin.start_inside p hp
    have hend : packetEnd i.block p = p + 6 + declaredLength i.block p := rfl
    have hfar := declaredLength_lt i.block p
    -- a next offset behind the frame would start one more iteration
    have hnext : walkNext i.block i.length p = some (packetEnd i.block p) →
        packetEnd i.block p ≤ i.length := by
      intro hn
      by_contra hover
      have := hin.start_inside _ (walk_closed hp hn (walkGuard_overshoot (by omega) (by omega)))
      omega
    have hheld := i.held
    constructor
    · intro hs
      have h6 : 6 ≤ size64 i.length := by
        rw [size64_of_nonneg (by omega) (by omega)]
        omega
      obtain ⟨h, hh, out, ht⟩ := head_of_walk hp
      have hlt := hin.offsets (p + 5)
        (mem_getH246FromPs_events.mpr (.inr ⟨h, hh, ht.inspect_title hs h6⟩))
      exact hnext (by rw [walkNext_title hs, if_pos ⟨h6, by omega⟩])
    · intro hm h6
      have h6' := (size64_leftAt hint (by omega)).mpr h6
      exact hnext (by rw [walkNext_map hm, if_pos ⟨h6', by omega⟩])
  · rintro ⟨h14, hin⟩
    have hwalk := walk_inside h14 hin
    refine ⟨fun o ho => ?_, fun h hh => ?_⟩
    · rcases mem_getH246FromPs_events.mp ho with ho | ⟨h, hh, ho⟩
      · cases ho
        omega
      · obtain ⟨p, hp, out, ht⟩ := walk_of_head hh
        have hspan := headerSpan_inside (hwalk p hp) (hin p hp)
        have hlt := ht.inspect_mem ho
        omega
    · obtain ⟨p, hp, out, ht⟩ := walk_of_head hh
      have hp4 := hwalk p hp
      rw [ht.leftlength, leftAt_eq hint (by omega)]
      omega

/-- A pack header without its last byte. -/
def cutHeader : PsInput := received (packHeaderBytes.take 13) (by decide)

/-- A system header whose declared length goes far beyond the frame. -/
def longTitle : PsInput :=
  received (packHeaderBytes ++ [0, 0, 1, 0xBB, 0xFF, 0xFF, 0x80, 0]) (by decide)

/-- The first is read at offset 13, the second has one more iteration with a
negative number of bytes left. -/
theorem reads_not_inside : ¬ ReadsInside cutHeader ∧ ¬ ReadsInside longTitle := by
  constructor
  · intro hinside
    exact absurd (hinside.offsets 13 (by decide)) (by decide)
  · intro hinside
    have hover : ∃ h ∈ demuxHeads longTitle.block longTitle.length, h.1.leftlength < 4 := by decide
    obtain ⟨h, hh, hlt⟩ := hover
    exact absurd (hinside.heads h hh) (by omega)

end SimpleSipClient.PsToH264
