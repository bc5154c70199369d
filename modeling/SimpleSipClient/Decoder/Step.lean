import SimpleSipClient.Decoder.Source

/-! # The run of one decode

A copy loop stores the rows of one plane one behind the other. The three planes follow
each other as `avpicture_fill` expects them, and together they have the size of the
allocated buffer when the codec context has the size of the frame.
-/

namespace SimpleSipClient.Decoder

open Foundation

/-! ## Copy loops -/

/-- Where a plane starts in the packed picture. -/
def Plane.start (s : Size) : Plane → Nat
  | .y => 0
  | .u => s.height * s.width
  | .v => s.height * s.width + s.height / 2 * (s.width / 2)

/-- The copies of one plane. -/
def copies (f : Frame) (p : Plane) : List Event :=
  (List.range (p.height f.size)).map fun i =>
    .memcpy p (i * f.linesize p) (p.start f.size + i * p.width f.size) (p.width f.size)

def withPlane (f : Frame) (p : Plane) (b : Block UInt8) : Block UInt8 :=
  b.writeRows (p.start f.size) (p.width f.size) (f.row p (p.width f.size)) (p.height f.size)

theorem row_length (f : Frame) (p : Plane) (n i : Nat) : (f.row p n i).length = n := by
  simp [Frame.row]

theorem copyRow_run (f : Frame) (p : Plane) (n i : Nat) (l : Locals) :
    copyRow f p n i l =
      ⟨[.memcpy p (i * f.linesize p) l.a n],
        .ok ((), ⟨l.buf.write l.a (f.row p n i), l.a + n, l.rgb⟩)⟩ := by
  simp [copyRow, Traced.bind_run]

/-- The buffer and the offset when `i` rows of the plane have been copied. -/
def rowsCopied (f : Frame) (p : Plane) (b rgb : Block UInt8) (i : Nat) : Locals where
  buf := b.writeRows (p.start f.size) (p.width f.size) (f.row p (p.width f.size)) i
  a := p.start f.size + i * p.width f.size
  rgb := rgb

theorem copyLoop_run (f : Frame) (p : Plane) (b rgb : Block UInt8) :
    Traced.forEach (copyRow f p (p.width f.size)) (List.range (p.height f.size))
        ⟨b, p.start f.size, rgb⟩ =
      ⟨copies f p,
        .ok ((), ⟨withPlane f p b, p.start f.size + p.height f.size * p.width f.size, rgb⟩)⟩ := by
  have hstep : ∀ i, i < p.height f.size →
      copyRow f p (p.width f.size) i (rowsCopied f p b rgb i) =
        ⟨[.memcpy p (i * f.linesize p) (p.start f.size + i * p.width f.size) (p.width f.size)],
          .ok ((), rowsCopied f p b rgb (i + 1))⟩ := by
    intro i _
    have hnext : p.start f.size + (i + 1) * p.width f.size =
        p.start f.size + i * p.width f.size + p.width f.size := by
      rw [Nat.succ_mul, Nat.add_assoc]
    rw [copyRow_run, rowsCopied, rowsCopied, hnext]
    rfl
  have hrun := Traced.forEach_range (p.height f.size) hstep
  have hzero : rowsCopied f p b rgb 0 = ⟨b, p.start f.size, rgb⟩ := by
    rw [rowsCopied, Nat.zero_mul, Nat.add_zero]
    rfl
  rw [hzero, ← List.map_eq_flatMap] at hrun
  exact hrun

/-- One plane ends where the next one starts. -/
theorem pack_run (f : Frame) (b rgb : Block UInt8) :
    pack f ⟨b, 0, rgb⟩ =
      ⟨copies f .y ++ (copies f .u ++ copies f .v),
        .ok ((), ⟨withPlane f .v (withPlane f .u (withPlane f .y b)),
          Plane.start f.size .v + f.size.height / 2 * (f.size.width / 2), rgb⟩)⟩ := by
  have hy := copyLoop_run f .y b rgb
  have hu := copyLoop_run f .u (withPlane f .y b) rgb
  have hv := copyLoop_run f .v (withPlane f .u (withPlane f .y b)) rgb
  simp only [Plane.start, Plane.width, Plane.height, Nat.zero_add] at hy hu hv ⊢
  rw [pack, Traced.bind_ok (by rw [hy]), hy, Traced.bind_ok (by rw [hu]), hu, hv]

/-! ## Conversion and image -/

/-- The rows that the conversion reads and writes. -/
def scaled (context : Size) (src : Picture) (sliceHeight dstLinesize : Nat) : List Event :=
  ((List.range sliceHeight).map fun i =>
      .scaleRead .y i (src.data .y + i * src.linesize .y) context.width) ++
    (((List.range ((sliceHeight + 1) / 2)).map fun i =>
        .scaleRead .u i (src.data .u + i * src.linesize .u) ((context.width + 1) / 2)) ++
      (((List.range ((sliceHeight + 1) / 2)).map fun i =>
          .scaleRead .v i (src.data .v + i * src.linesize .v) ((context.width + 1) / 2)) ++
        (List.range sliceHeight).map fun i =>
          .scaleWrite i (i * dstLinesize) (4 * context.width)))

/-- The RGB buffer after `n` converted rows. -/
def rowsScaled (width dstLinesize : Nat) (row : Nat → Nat → UInt8) (rgb : Block UInt8) (n : Nat) :
    Block UInt8 :=
  rgb.writeRows 0 dstLinesize (fun i => (List.range (4 * width)).map (row i)) n

theorem scaleRows_run (width dstLinesize : Nat) (row : Nat → Nat → UInt8) (n : Nat) (l : Locals) :
    Traced.forEach (scaleRow width dstLinesize row) (List.range n) l =
      ⟨(List.range n).map fun i => .scaleWrite i (i * dstLinesize) (4 * width),
        .ok ((), { l with rgb := rowsScaled width dstLinesize row l.rgb n })⟩ := by
  have hstep : ∀ i, i < n → scaleRow width dstLinesize row i
      { l with rgb := rowsScaled width dstLinesize row l.rgb i } =
        ⟨[.scaleWrite i (i * dstLinesize) (4 * width)],
          .ok ((), { l with rgb := rowsScaled width dstLinesize row l.rgb (i + 1) })⟩ := by
    intro i _
    simp [scaleRow, Traced.bind_run, rowsScaled, Block.writeRows]
  have hrun := Traced.forEach_range n hstep
  rw [← List.map_eq_flatMap] at hrun
  exact hrun

theorem swsScale_run (context : Size) (convert : Conversion) (src : Picture)
    (sliceHeight dstLinesize : Nat) (l : Locals) :
    swsScale context convert src sliceHeight dstLinesize l =
      ⟨scaled context src sliceHeight dstLinesize, .ok ((), { l with
        rgb := rowsScaled context.width dstLinesize
          (convert (samples context src sliceHeight l.buf) sliceHeight) l.rgb sliceHeight })⟩ := by
  simp only [swsScale, Traced.bind_run, Traced.forEach_emit, Traced.get_run, scaleRows_run, scaled,
    List.nil_append]

def imageRows (s : Size) : List Event :=
  (List.range s.height).map fun i => .imageRead i (i * (4 * s.width)) (4 * s.width)

/-- The image that is taken out of the buffer. -/
def imageOf (s : Size) (rgb : Block UInt8) : QImage where
  width := s.width
  height := s.height
  rows := (List.range s.height).map fun i => rgb.slice (i * (4 * s.width)) (4 * s.width)

theorem imageCopy_run (s : Size) (l : Locals) :
    imageCopy s.width s.height l = ⟨imageRows s, .ok (imageOf s l.rgb, l)⟩ := by
  simp only [imageCopy, Traced.bind_run, Traced.forEach_emit, Traced.get_run, imageRows, imageOf,
    Traced.pure_run, List.append_nil]

/-- Every access to memory that one decode makes. -/
def performed (d : State) (f : Frame) : List Event :=
  copies f .y ++ (copies f .u ++ copies f .v) ++
    (scaled d.swsContext (avpictureFill f.size.width f.size.height) f.size.height d.rgbLinesize ++
      imageRows f.size)

def packed (f : Frame) (b : Block UInt8) : Block UInt8 :=
  withPlane f .v (withPlane f .u (withPlane f .y b))

/-- The RGB buffer after the conversion of what is in `b`. -/
def convertedRgb (d : State) (s : Size) (b rgb : Block UInt8) : Block UInt8 :=
  rowsScaled d.swsContext.width d.rgbLinesize
    (d.convert (samples d.swsContext (avpictureFill s.width s.height) s.height b) s.height) rgb
    s.height

/-- The locals at the end of a decode. -/
def finished (d : State) (r : Received) (fresh : Nat → UInt8) (rgb : Block UInt8) : Locals where
  buf := packed r.frame (allocate fresh (newSize r.codecContext))
  a := Plane.start r.frame.size .v + r.frame.size.height / 2 * (r.frame.size.width / 2)
  rgb := convertedRgb d r.frame.size (packed r.frame (allocate fresh (newSize r.codecContext))) rgb

theorem decode_run {r : Received} (h : r.decoded = true) (d : State) (fresh : Nat → UInt8)
    (l : Locals) :
    decode d r fresh l =
      ⟨performed d r.frame ++ [.emit (imageOf r.frame.size (finished d r fresh l.rgb).rgb)],
        .ok (some (imageOf r.frame.size (finished d r fresh l.rgb).rgb),
          finished d r fresh l.rgb)⟩ := by
  rw [decode, if_pos h]
  simp only [Traced.bind_run, Traced.get_run, Traced.set_run, pack_run, swsScale_run,
    imageCopy_run, Traced.emit_run, Traced.pure_run, performed, List.nil_append, List.append_nil,
    List.append_assoc]
  rfl

/-! ## The layout of the packed picture -/

section Layout

variable (f : Frame)

theorem half_up_of_even {n : Nat} (h : 2 ∣ n) : (n + 1) / 2 = n / 2 := by omega

theorem avpictureFill_data (p : Plane) :
    (avpictureFill f.size.width f.size.height).data p = p.start f.size := by
  cases p with
  | y => rfl
  | u => exact Nat.mul_comm _ _
  | v =>
      simp only [avpictureFill, Plane.start, half_up_of_even f.width_even,
        half_up_of_even f.height_even]
      rw [Nat.mul_comm f.size.width, Nat.mul_comm (f.size.width / 2)]

theorem avpictureFill_linesize (p : Plane) :
    (avpictureFill f.size.width f.size.height).linesize p = p.width f.size := by
  cases p with
  | y => rfl
  | u => exact half_up_of_even f.width_even
  | v => exact half_up_of_even f.width_even

/-- The planes fill one and a half times the number of pixels. -/
theorem planes_size :
    Plane.start f.size .v + f.size.height / 2 * (f.size.width / 2) = newSize f.size := by
  rcases f.width_even with ⟨m, hm⟩
  rcases f.height_even with ⟨n, hn⟩
  have hpixels : 2 * n * (2 * m) = 4 * (n * m) := Nat.mul_mul_mul_comm 2 n 2 m
  rw [Plane.start, newSize, hm, hn, Nat.mul_div_cancel_left m (by decide),
    Nat.mul_div_cancel_left n (by decide), hpixels]
  omega

theorem plane_end_le (p : Plane) :
    p.start f.size + p.height f.size * p.width f.size ≤ newSize f.size := by
  have hsize := planes_size f
  cases p with
  | y =>
      simp only [Plane.start, Plane.height, Plane.width] at hsize ⊢
      omega
  | u =>
      simp only [Plane.start, Plane.height, Plane.width] at hsize ⊢
      omega
  | v => exact Nat.le_of_eq hsize

end Layout

end SimpleSipClient.Decoder
