import SimpleSipClient.Decoder.Step

/-! # The packed picture

With a codec context of the frame's size the copy loops fill the allocated buffer exactly,
from the visible part of the rows, and leave every sample where the I420 layout has it.
-/

namespace SimpleSipClient.Decoder

open Foundation

/-- The offsets of `buf` that the event writes. -/
def Event.written : Event → List Nat
  | .memcpy _ _ dest n => List.range' dest n
  | _ => []

/-- What a decode has to do to the buffer it packs a frame into. No offset into a plane exceeds
an `int`. -/
structure ExactlyPacked (f : Frame) (x : Exec Event Locals (Option QImage)) : Prop where
  written : x.events.flatMap Event.written = List.range (newSize f.size)
  read : ∀ p src dest n, .memcpy p src dest n ∈ x.events →
    ∃ i, i < p.height f.size ∧ src = i * f.linesize p ∧ n = p.width f.size ∧
      n ≤ f.linesize p ∧ src + n ≤ 2147483647
  layout : ∃ image l, x.outcome = .ok (image, l) ∧ l.buf.size = newSize f.size ∧
    ∀ (p : Plane) (i k : Nat), i < p.height f.size → k < p.width f.size →
      l.buf.cell ((avpictureFill f.size.width f.size.height).data p +
        i * (avpictureFill f.size.width f.size.height).linesize p + k) =
          f.data p (i * f.linesize p + k)

section Packing

variable (f : Frame)

/-! ## Offsets -/

theorem copies_written (p : Plane) :
    (copies f p).flatMap Event.written =
      List.range' (p.start f.size) (p.height f.size * p.width f.size) := by
  rw [copies, List.flatMap_map]
  exact range'_rows _ _ _

theorem scaled_written (context : Size) (src : Picture) (sliceHeight dstLinesize : Nat) :
    (scaled context src sliceHeight dstLinesize).flatMap Event.written = [] := by
  simp [scaled, Event.written, List.flatMap_map]

/-- The planes are written one behind the other, up to the end of the buffer. -/
theorem performed_written (d : State) :
    (performed d f).flatMap Event.written = List.range (newSize f.size) := by
  have hrest : (imageRows f.size).flatMap Event.written = [] := by
    simp [imageRows, Event.written, List.flatMap_map]
  have htotal : f.size.height * f.size.width +
      (f.size.height / 2 * (f.size.width / 2) + f.size.height / 2 * (f.size.width / 2)) =
        newSize f.size := by
    rw [← Nat.add_assoc]
    exact planes_size f
  rw [performed, List.flatMap_append, List.flatMap_append, List.flatMap_append,
    List.flatMap_append, scaled_written, hrest, copies_written, copies_written, copies_written,
    List.append_nil, List.append_nil]
  simp only [Plane.start, Plane.width, Plane.height]
  rw [List.range'_append_1, ← htotal, List.range_eq_range']
  have happend := List.range'_append_1 (s := 0) (m := f.size.height * f.size.width)
    (n := f.size.height / 2 * (f.size.width / 2) + f.size.height / 2 * (f.size.width / 2))
  rw [Nat.zero_add] at happend
  exact happend

/-- The rows of a plane end where an `int` still counts. -/
theorem row_offset_le {p : Plane} {i : Nat} (hi : i < p.height f.size) :
    i * f.linesize p + p.width f.size ≤ 2147483647 :=
  calc i * f.linesize p + p.width f.size
      ≤ i * f.linesize p + f.linesize p := Nat.add_le_add_left (f.linesize_ge p) _
    _ = (i + 1) * f.linesize p := (Nat.succ_mul i _).symm
    _ ≤ p.height f.size * f.linesize p := Nat.mul_le_mul_right _ hi
    _ ≤ 2147483647 := f.plane_fits p

theorem copies_read {p q : Plane} {src dest n : Nat}
    (h : Event.memcpy p src dest n ∈ copies f q) :
    ∃ i, i < p.height f.size ∧ src = i * f.linesize p ∧ n = p.width f.size ∧
      n ≤ f.linesize p ∧ src + n ≤ 2147483647 := by
  rcases List.mem_map.mp h with ⟨i, hi, heq⟩
  cases heq
  have hrow := List.mem_range.mp hi
  exact ⟨i, hrow, rfl, rfl, f.linesize_ge p, row_offset_le f hrow⟩

/-- A copy is one of a copy loop. -/
theorem memcpy_mem_performed {d : State} {p : Plane} {src dest n : Nat}
    (h : Event.memcpy p src dest n ∈ performed d f) :
    ∃ q, Event.memcpy p src dest n ∈ copies f q := by
  have hrest : Event.memcpy p src dest n ∉
      scaled d.swsContext (avpictureFill f.size.width f.size.height) f.size.height d.rgbLinesize ++
        imageRows f.size := by
    simp [scaled, imageRows]
  rcases List.mem_append.mp h with h | h
  · rcases List.mem_append.mp h with h | h
    · exact ⟨.y, h⟩
    rcases List.mem_append.mp h with h | h
    · exact ⟨.u, h⟩
    · exact ⟨.v, h⟩
  · exact absurd h hrest

/-! ## Contents -/

def planeBytes (p : Plane) : List UInt8 :=
  (List.range (p.height f.size)).flatMap (f.row p (p.width f.size))

theorem planeBytes_length (p : Plane) :
    (planeBytes f p).length = p.height f.size * p.width f.size :=
  Block.flatMap_rows_length (row_length f p _) _

theorem withPlane_eq_write {p : Plane} {b : Block UInt8} (hb : newSize f.size ≤ b.size) :
    withPlane f p b = b.write (p.start f.size) (planeBytes f p) :=
  Block.writeRows_eq_write (row_length f p _) (Nat.le_trans (plane_end_le f p) hb)

theorem packed_eq_write {b : Block UInt8} (hb : newSize f.size ≤ b.size) :
    packed f b = b.write 0 (planeBytes f .y ++ planeBytes f .u ++ planeBytes f .v) := by
  have hsize := planes_size f
  have hy := planeBytes_length f .y
  have hu := planeBytes_length f .u
  have hv := planeBytes_length f .v
  have hyu : (planeBytes f .y ++ planeBytes f .u).length = Plane.start f.size .v := by
    rw [List.length_append, hy, hu]
    rfl
  simp only [Plane.width, Plane.height] at hy hu hv
  have hfirst : withPlane f .u (b.write 0 (planeBytes f .y)) =
      b.write 0 (planeBytes f .y ++ planeBytes f .u) := by
    have hplane : withPlane f .u (b.write 0 (planeBytes f .y)) =
        (b.write 0 (planeBytes f .y)).write (Plane.start f.size .u) (planeBytes f .u) :=
      withPlane_eq_write f hb
    have hstart : Plane.start f.size .u = 0 + (planeBytes f .y).length := by
      rw [hy, Nat.zero_add]
      rfl
    rw [hplane, hstart]
    refine Block.write_write ?_
    rw [hy, hu, Nat.zero_add]
    rw [← hsize] at hb
    exact Nat.le_trans (Nat.le_add_right _ _) hb
  have hlast : withPlane f .v (b.write 0 (planeBytes f .y ++ planeBytes f .u)) =
      (b.write 0 (planeBytes f .y ++ planeBytes f .u)).write (Plane.start f.size .v)
        (planeBytes f .v) :=
    withPlane_eq_write f hb
  have hstart : Plane.start f.size .y = 0 := rfl
  rw [packed, withPlane_eq_write f hb, hstart, hfirst, hlast, ← hyu,
    ← Nat.zero_add (List.length _)]
  refine Block.write_write ?_
  rw [hyu, hv, Nat.zero_add, hsize]
  exact hb

/-- The packed buffer holds each plane from its start on. -/
theorem packed_reads {b : Block UInt8} (hb : newSize f.size ≤ b.size) (p : Plane) :
    (packed f b).Reads (p.start f.size) (planeBytes f p) := by
  have hsize := planes_size f
  have hlen : (planeBytes f .y ++ planeBytes f .u ++ planeBytes f .v).length = newSize f.size := by
    rw [List.length_append, List.length_append, planeBytes_length, planeBytes_length,
      planeBytes_length, ← hsize]
    rfl
  have hall : (b.write 0 (planeBytes f .y ++ planeBytes f .u ++ planeBytes f .v)).Reads 0
      (planeBytes f .y ++ planeBytes f .u ++ planeBytes f .v) :=
    Block.reads_write (by omega)
  rw [← packed_eq_write f hb, Block.reads_append, Block.reads_append, List.length_append,
    planeBytes_length, planeBytes_length, Nat.zero_add, Nat.zero_add] at hall
  cases p with
  | y => exact hall.1.1
  | u => exact hall.1.2
  | v => exact hall.2

theorem packed_cell {b : Block UInt8} (hb : newSize f.size ≤ b.size) {p : Plane} {i k : Nat}
    (hi : i < p.height f.size) (hk : k < p.width f.size) :
    (packed f b).cell (p.start f.size + i * p.width f.size + k) =
      f.data p (i * f.linesize p + k) := by
  have hrow := Block.reads_row (row_length f p _) (packed_reads f hb p) hi
  have hlen : k < (f.row p (p.width f.size) i).length := by rw [row_length]; exact hk
  rw [hrow.cell hlen]
  simp [Frame.row]

theorem allocate_size (fresh : Nat → UInt8) (n : Nat) : (allocate fresh n).size = n := by
  simp [allocate]

end Packing

/-! ## One decode -/

theorem packing_exact {r : Received} (h : r.decoded = true) (hsize : r.codecContext = r.frame.size)
    (d : State) (fresh : Nat → UInt8) (l : Locals) :
    ExactlyPacked r.frame (decode d r fresh l) := by
  have hbuf : (allocate fresh (newSize r.codecContext)).size = newSize r.frame.size := by
    rw [hsize, allocate_size]
  rw [decode_run h]
  constructor
  case written =>
    rw [List.flatMap_append, performed_written]
    exact List.append_nil _
  case read =>
    intro p src dest n hmem
    rcases List.mem_append.mp hmem with hmem | hmem
    · rcases memcpy_mem_performed r.frame hmem with ⟨q, hq⟩
      exact copies_read r.frame hq
    · cases List.mem_singleton.mp hmem
  case layout =>
    refine ⟨_, _, rfl, ?_, ?_⟩
    · simp only [finished, packed, withPlane, Block.writeRows_size]
      exact hbuf
    · intro p i k hi hk
      rw [avpictureFill_data, avpictureFill_linesize]
      exact packed_cell r.frame (Nat.le_of_eq hbuf.symm) hi hk

/-- A frame of two rows, with padding behind each row. -/
def paddedFrame : Frame where
  size := { width := 4, height := 2, fits := by decide }
  data _ k := UInt8.ofNat k
  linesize p := match p with
    | .y => 32
    | .u | .v => 16
  width_pos := by decide
  height_pos := by decide
  width_even := by decide
  height_even := by decide
  linesize_ge p := by cases p <;> decide
  plane_fits p := by cases p <;> decide

theorem paddedFrame_exact :
    ExactlyPacked paddedFrame
      (decode ⟨paddedFrame.size, fun _ _ _ _ => 0, rgbSize 4 2, 16⟩
        ⟨1, 1, paddedFrame.size, paddedFrame⟩ (fun _ => 0xCC)
        ⟨Block.blank 0, 0, Block.blank (rgbSize 4 2)⟩) :=
  packing_exact (r := ⟨1, 1, paddedFrame.size, paddedFrame⟩) rfl rfl _ _ _

end SimpleSipClient.Decoder
