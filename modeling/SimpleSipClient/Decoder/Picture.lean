import SimpleSipClient.Decoder.Packing

/-! # The displayed picture

`init` fixes the size of the conversion and of the RGB buffer, while the packed picture and
the image have the size of the frame. They agree on where the rows are for frames that are
as wide as the conversion and no higher.
-/

namespace SimpleSipClient.Decoder

open Foundation

/-- The rows that are read and written lie in their buffers, the conversion reads the rows
that were packed, and the image takes each pixel from where it was written. -/
structure ShowsFrame (d : State) (r : Received) (events : List Event) : Prop where
  reads_inside : ∀ p i offset n, .scaleRead p i offset n ∈ events →
    offset + n ≤ newSize r.codecContext
  writes_inside : ∀ i offset n, .scaleWrite i offset n ∈ events → offset + n ≤ d.rgbBuffer
  image_inside : ∀ i offset n, .imageRead i offset n ∈ events → offset + n ≤ d.rgbBuffer
  packed_rows : ∀ p i offset n, .scaleRead p i offset n ∈ events →
    .memcpy p (i * r.frame.linesize p) offset n ∈ events
  pixels : ∀ i offset n, .imageRead i offset n ∈ events → ∀ x, 4 * x + 4 ≤ n →
    ∃ offset' n', .scaleWrite i offset' n' ∈ events ∧ 4 * x + 4 ≤ n' ∧
      offset' + 4 * x = offset + 4 * x

/-- The frame is as wide as the conversion and no higher, and the codec context has room
for it. -/
structure FitsContext (r : Received) : Prop where
  width : r.frame.size.width = 1920
  height : r.frame.size.height ≤ 1080
  room : newSize r.frame.size ≤ newSize r.codecContext

/-! ## The rows of one decode -/

section Rows

variable {d : State} {f : Frame} {p : Plane} {i offset n : Nat}

theorem performed_copies_row (hi : i < p.height f.size) :
    .memcpy p (i * f.linesize p) (p.start f.size + i * p.width f.size) (p.width f.size) ∈
      performed d f := by
  have hmem : Event.memcpy p (i * f.linesize p) (p.start f.size + i * p.width f.size)
      (p.width f.size) ∈ copies f p :=
    List.mem_map.mpr ⟨i, List.mem_range.mpr hi, rfl⟩
  refine List.mem_append_left _ ?_
  cases p with
  | y => exact List.mem_append_left _ hmem
  | u => exact List.mem_append_right _ (List.mem_append_left _ hmem)
  | v => exact List.mem_append_right _ (List.mem_append_right _ hmem)

theorem mem_scaleRead :
    .scaleRead p i offset n ∈ performed d f ↔
      i < p.height f.size ∧ p.start f.size + i * p.width f.size = offset ∧
        p.rowOf d.swsContext.width = n := by
  have hheight := half_up_of_even f.height_even
  have hdata := avpictureFill_data f p
  have hlinesize := avpictureFill_linesize f p
  cases p <;>
    simp [performed, copies, scaled, imageRows, hdata, hlinesize, hheight, Plane.rowOf,
      Plane.height]

theorem mem_scaleWrite :
    .scaleWrite i offset n ∈ performed d f ↔
      i < f.size.height ∧ i * d.rgbLinesize = offset ∧ 4 * d.swsContext.width = n := by
  simp [performed, copies, scaled, imageRows]

theorem mem_imageRead :
    .imageRead i offset n ∈ performed d f ↔
      i < f.size.height ∧ i * (4 * f.size.width) = offset ∧ 4 * f.size.width = n := by
  simp [performed, copies, scaled, imageRows]

end Rows

/-! ## Agreement -/

/-- The sizes that `init` prepares. -/
structure Prepared (d : State) : Prop where
  context : d.swsContext.width = 1920
  buffer : d.rgbBuffer = 8294400
  rows : d.rgbLinesize = 7680

theorem eq_of_init {library : Library} {d : State} (h : init library = .ok d) :
    d = {
      swsContext := { width := 1920, height := 1080, fits := fullHd_fits }
      convert := library.convert
      rgbBuffer := rgbSize 1920 1080
      rgbLinesize := 7680 } := by
  rw [init] at h
  split at h
  · cases h
  split at h
  · cases h
  simp only at h
  split at h
  · cases h
  split at h
  · cases h
  · cases h
    rfl

theorem init_prepared {library : Library} {d : State} (h : init library = .ok d) :
    Prepared d := by
  rw [eq_of_init h]
  exact ⟨rfl, rfl, rfl⟩

section Agreement

variable {d : State} {r : Received}

theorem two_le_height (f : Frame) : 2 ≤ f.size.height := by
  have hpos := f.height_pos
  have heven := f.height_even
  omega

/-- The second row of the image starts where the second converted row does. -/
theorem ShowsFrame.width (hd : Prepared d) (h : ShowsFrame d r (performed d r.frame)) :
    r.frame.size.width = 1920 := by
  have hrow : 1 < r.frame.size.height := two_le_height r.frame
  have hpos := r.frame.width_pos
  obtain ⟨offset', n', hwrite, -, heq⟩ :=
    h.pixels 1 _ _ (mem_imageRead.mpr ⟨hrow, rfl, rfl⟩) 0 (by omega)
  have hoffset := (mem_scaleWrite.mp hwrite).2.1
  rw [hd.rows] at hoffset
  omega

/-- The last row of the image lies in the RGB buffer. -/
theorem ShowsFrame.height (hd : Prepared d) (h : ShowsFrame d r (performed d r.frame)) :
    r.frame.size.height ≤ 1080 := by
  have hwidth := h.width hd
  have htwo := two_le_height r.frame
  have hlast := h.image_inside (r.frame.size.height - 1) _ _
    (mem_imageRead.mpr ⟨by omega, rfl, rfl⟩)
  rw [hwidth, hd.buffer] at hlast
  omega

/-- The last row of the last plane that is read lies in the packed buffer. -/
theorem ShowsFrame.room (hd : Prepared d) (h : ShowsFrame d r (performed d r.frame)) :
    newSize r.frame.size ≤ newSize r.codecContext := by
  have hwidth := h.width hd
  have htwo := two_le_height r.frame
  have hsize := planes_size r.frame
  have hi : r.frame.size.height / 2 - 1 < Plane.height r.frame.size .v := by
    simp only [Plane.height]
    omega
  have hlast := h.reads_inside .v _ _ _ (mem_scaleRead.mpr ⟨hi, rfl, rfl⟩)
  simp only [Plane.rowOf, Plane.width, hd.context] at hlast
  rw [hwidth] at hlast hsize
  omega

/-- Rows of the packed picture lie in a buffer that has room for all of it. -/
theorem row_end_le {f : Frame} {p : Plane} {i : Nat} (hi : i < p.height f.size) :
    p.start f.size + i * p.width f.size + p.width f.size ≤ newSize f.size := by
  have hend := plane_end_le f p
  have hrow : (i + 1) * p.width f.size ≤ p.height f.size * p.width f.size :=
    Nat.mul_le_mul_right _ hi
  rw [Nat.succ_mul] at hrow
  omega

theorem FitsContext.shows (hd : Prepared d) (h : FitsContext r) :
    ShowsFrame d r (performed d r.frame) := by
  have hwidth := h.width
  have hheight := h.height
  have hrowOf : ∀ p : Plane, p.rowOf d.swsContext.width = p.width r.frame.size := by
    intro p
    cases p <;> simp only [Plane.rowOf, Plane.width, hd.context, hwidth]
  constructor
  case reads_inside =>
    intro p i offset n hmem
    rcases mem_scaleRead.mp hmem with ⟨hi, rfl, rfl⟩
    rw [hrowOf]
    exact Nat.le_trans (row_end_le hi) h.room
  case writes_inside =>
    intro i offset n hmem
    rcases mem_scaleWrite.mp hmem with ⟨hi, rfl, rfl⟩
    rw [hd.rows, hd.context, hd.buffer]
    omega
  case image_inside =>
    intro i offset n hmem
    rcases mem_imageRead.mp hmem with ⟨hi, rfl, rfl⟩
    rw [hwidth, hd.buffer]
    omega
  case packed_rows =>
    intro p i offset n hmem
    rcases mem_scaleRead.mp hmem with ⟨hi, rfl, rfl⟩
    rw [hrowOf]
    exact performed_copies_row hi
  case pixels =>
    intro i offset n hmem x hx
    rcases mem_imageRead.mp hmem with ⟨hi, rfl, rfl⟩
    refine ⟨_, _, mem_scaleWrite.mpr ⟨hi, rfl, rfl⟩, ?_, ?_⟩
    · rw [hd.context]
      omega
    · rw [hd.rows, hwidth]

theorem performed_shows_iff (hd : Prepared d) :
    ShowsFrame d r (performed d r.frame) ↔ FitsContext r :=
  ⟨fun h => ⟨h.width hd, h.height hd, h.room hd⟩, fun h => h.shows hd⟩

/-- The signal is no access to a buffer. -/
theorem showsFrame_emit {events : List Event} {image : QImage} :
    ShowsFrame d r (events ++ [.emit image]) ↔ ShowsFrame d r events := by
  constructor
  · intro h
    refine ⟨?_, ?_, ?_, ?_, ?_⟩
    · simpa using h.reads_inside
    · simpa using h.writes_inside
    · simpa using h.image_inside
    · simpa using h.packed_rows
    · simpa using h.pixels
  · intro h
    refine ⟨?_, ?_, ?_, ?_, ?_⟩
    · simpa using h.reads_inside
    · simpa using h.writes_inside
    · simpa using h.image_inside
    · simpa using h.packed_rows
    · simpa using h.pixels

end Agreement

/-! ## Bounds -/

/-- The packed picture and the rows that the conversion reads lie in the packed buffer, the
converted rows and the image in the RGB buffer. -/
structure FitsBuffers (r : Received) : Prop where
  packed : newSize r.frame.size ≤ newSize r.codecContext
  luma : (r.frame.size.height - 1) * r.frame.size.width + 1920 ≤ newSize r.codecContext
  chroma : Plane.start r.frame.size .v +
    (r.frame.size.height / 2 - 1) * (r.frame.size.width / 2) + 960 ≤ newSize r.codecContext
  height : r.frame.size.height ≤ 1080
  image : r.frame.size.height * r.frame.size.width ≤ 1080 * 1920

section Bounds

variable {d : State} {r : Received}

theorem mem_memcpy {p : Plane} {src dest n : Nat} {f : Frame}
    (h : .memcpy p src dest n ∈ performed d f) :
    ∃ q : Plane, ∃ i, i < q.height f.size ∧ q.start f.size + i * q.width f.size = dest ∧
      q.width f.size = n := by
  obtain ⟨q, hq⟩ := memcpy_mem_performed f h
  obtain ⟨i, hi, heq⟩ := List.mem_map.mp hq
  cases heq
  exact ⟨p, i, List.mem_range.mp hi, rfl, rfl⟩

/-- An access of each kind to the last of its rows needs all that `FitsBuffers` asks. -/
theorem FitsBuffers.of_inside (hd : Prepared d)
    (h : ∀ e ∈ performed d r.frame, inside d r e = true) : FitsBuffers r := by
  have htwo := two_le_height r.frame
  have hsize := planes_size r.frame
  have hlast : r.frame.size.height / 2 - 1 < Plane.height r.frame.size .v := by
    simp only [Plane.height]
    omega
  have hread (p : Plane) (i : Nat) (hi : i < p.height r.frame.size) :
      p.start r.frame.size + i * p.width r.frame.size + p.rowOf 1920 ≤
        newSize r.codecContext := by
    have hin := h _ (mem_scaleRead.mpr ⟨hi, rfl, rfl⟩)
    rw [hd.context] at hin
    exact of_decide_eq_true hin
  constructor
  case packed =>
    have hcopy := of_decide_eq_true (h _ (performed_copies_row hlast))
    have hrows : (r.frame.size.height / 2 - 1) * (r.frame.size.width / 2) +
        r.frame.size.width / 2 = r.frame.size.height / 2 * (r.frame.size.width / 2) := by
      rw [← Nat.succ_mul]
      congr 1
      omega
    simp only [Plane.width] at hcopy
    omega
  case luma =>
    have hy := hread .y (r.frame.size.height - 1) (by simp only [Plane.height]; omega)
    simpa [Plane.start, Plane.width, Plane.rowOf] using hy
  case chroma => exact hread .v _ hlast
  case height =>
    have hwrite := of_decide_eq_true
      (h _ (mem_scaleWrite.mpr ⟨Nat.sub_lt (by omega) Nat.one_pos, rfl, rfl⟩))
    rw [hd.rows, hd.context, hd.buffer] at hwrite
    omega
  case image =>
    have himage := of_decide_eq_true
      (h _ (mem_imageRead.mpr ⟨Nat.sub_lt (by omega) Nat.one_pos, rfl, rfl⟩))
    have hrows : (r.frame.size.height - 1) * (4 * r.frame.size.width) + 4 * r.frame.size.width =
        4 * (r.frame.size.height * r.frame.size.width) := by
      rw [← Nat.succ_mul, Nat.succ_eq_add_one, Nat.sub_add_cancel (by omega), Nat.mul_left_comm]
    rw [hd.buffer] at himage
    omega

/-- Rows before the last one end before it does. -/
theorem row_le_last {i n w m : Nat} (hi : i < n) : i * w + m ≤ (n - 1) * w + m :=
  Nat.add_le_add_right (Nat.mul_le_mul_right w (by omega)) m

theorem FitsBuffers.inside (hd : Prepared d) (h : FitsBuffers r) :
    ∀ e ∈ performed d r.frame, Decoder.inside d r e = true := by
  intro e he
  cases e with
  | memcpy p src dest n =>
      obtain ⟨q, i, hi, rfl, rfl⟩ := mem_memcpy he
      exact decide_eq_true (Nat.le_trans (row_end_le hi) h.packed)
  | scaleRead p i offset n =>
      obtain ⟨hi, rfl, rfl⟩ := mem_scaleRead.mp he
      refine decide_eq_true ?_
      have hluma := h.luma
      have hchroma := h.chroma
      rw [hd.context]
      cases p with
      | y =>
          have hrow := row_le_last (w := r.frame.size.width) (m := 1920) hi
          simp only [Plane.start, Plane.width, Plane.height, Plane.rowOf] at hrow ⊢
          omega
      | u =>
          have hrow := row_le_last (w := r.frame.size.width / 2) (m := 960) hi
          simp only [Plane.start, Plane.width, Plane.height, Plane.rowOf] at hrow hchroma ⊢
          omega
      | v =>
          have hrow := row_le_last (w := r.frame.size.width / 2) (m := 960) hi
          simp only [Plane.start, Plane.width, Plane.height, Plane.rowOf] at hrow hchroma ⊢
          omega
  | scaleWrite i offset n =>
      obtain ⟨hi, rfl, rfl⟩ := mem_scaleWrite.mp he
      have hheight := h.height
      refine decide_eq_true ?_
      rw [hd.rows, hd.context, hd.buffer]
      omega
  | imageRead i offset n =>
      obtain ⟨hi, rfl, rfl⟩ := mem_imageRead.mp he
      have himage := h.image
      have hrow : (i + 1) * (4 * r.frame.size.width) ≤
          r.frame.size.height * (4 * r.frame.size.width) := Nat.mul_le_mul_right _ hi
      rw [Nat.succ_mul, Nat.mul_left_comm r.frame.size.height] at hrow
      refine decide_eq_true ?_
      rw [hd.buffer]
      omega
  | emit image => rfl

end Bounds

theorem shows_frame_iff {library : Library} {d : State} (h : init library = .ok d) (r : Received)
    (fresh : Nat → UInt8) (l : Locals) :
    ShowsFrame d r (decode d r fresh l).events ↔ (r.decoded = true → FitsContext r) := by
  have hd := init_prepared h
  by_cases hdec : r.decoded = true
  · rw [decode_run hdec, showsFrame_emit, performed_shows_iff hd]
    exact ⟨fun hfits _ => hfits, fun hfits => hfits hdec⟩
  · have hevents : (decode d r fresh l).events = [] := by
      rw [decode, if_neg hdec]
      rfl
    rw [hevents]
    refine iff_of_true ⟨?_, ?_, ?_, ?_, ?_⟩ fun h => absurd h hdec
    all_goals intros; contradiction

/-! ## Contents of the image -/

/-- The samples of a frame. -/
def Frame.samples (f : Frame) (p : Plane) (i k : Nat) : UInt8 :=
  if i < p.height f.size ∧ k < p.width f.size then f.data p (i * f.linesize p + k) else 0

/-- The image has the size of the frame, and its rows are those that the conversion makes of the
frame's own samples. -/
structure Shows (convert : Conversion) (img : QImage) (f : Frame) : Prop where
  width : img.width = f.size.width
  height : img.height = f.size.height
  rows : img.rows = (List.range f.size.height).map fun i =>
    (List.range (4 * f.size.width)).map (convert f.samples f.size.height i)

section Contents

variable {d : State} {r : Received}

/-- The conversion finds the samples of the frame in the packed buffer. -/
theorem FitsContext.samples (hd : Prepared d) (h : FitsContext r) {b : Block UInt8}
    (hb : b.size = newSize r.codecContext) :
    samples d.swsContext (avpictureFill r.frame.size.width r.frame.size.height)
      r.frame.size.height (packed r.frame b) = r.frame.samples := by
  have hroom : newSize r.frame.size ≤ b.size := by
    rw [hb]
    exact h.room
  funext p i k
  have hheight : p.rowOf r.frame.size.height = p.height r.frame.size := by
    have heven := half_up_of_even r.frame.height_even
    cases p <;> simp only [Plane.rowOf, Plane.height, heven]
  have hwidth : p.rowOf d.swsContext.width = p.width r.frame.size := by
    have hwide := h.width
    cases p <;> simp only [Plane.rowOf, Plane.width, hd.context, hwide]
  rw [Decoder.samples, Frame.samples, hheight, hwidth, avpictureFill_data, avpictureFill_linesize]
  split
  next hin => exact packed_cell r.frame hroom hin.1 hin.2
  next => rfl

/-- The image takes out the rows that were converted, and nothing of an earlier one. -/
theorem imageOf_convertedRgb (hd : Prepared d) (h : FitsContext r) {b rgb : Block UInt8}
    (hrgb : rgb.size = d.rgbBuffer) :
    (imageOf r.frame.size (convertedRgb d r.frame.size b rgb)).rows =
      (List.range r.frame.size.height).map fun i => (List.range (4 * r.frame.size.width)).map
        (d.convert (Decoder.samples d.swsContext
          (avpictureFill r.frame.size.width r.frame.size.height) r.frame.size.height b)
          r.frame.size.height i) := by
  have hheight := h.height
  rw [hd.buffer] at hrgb
  have hstride : d.rgbLinesize = 4 * r.frame.size.width := by rw [hd.rows, h.width]
  have hcontext : d.swsContext.width = r.frame.size.width := by rw [hd.context, h.width]
  rw [imageOf, convertedRgb, rowsScaled, hstride, hcontext]
  generalize d.convert _ r.frame.size.height = row
  have hlength (i : Nat) :
      ((List.range (4 * r.frame.size.width)).map (row i)).length = 4 * r.frame.size.width := by
    simp
  have hfit : 0 + r.frame.size.height * (4 * r.frame.size.width) ≤ rgb.size := by
    rw [h.width, hrgb]
    omega
  refine List.map_congr_left fun i hi => ?_
  rw [Block.writeRows_eq_write hlength hfit]
  have hall := Block.reads_write (by rw [Block.flatMap_rows_length hlength]; exact hfit)
  have hrow := Block.reads_row hlength hall (List.mem_range.mp hi)
  rw [Block.Reads, hlength, Nat.zero_add] at hrow
  exact hrow

theorem FitsContext.image_shows (hd : Prepared d) (h : FitsContext r) (fresh : Nat → UInt8)
    {rgb : Block UInt8} (hrgb : rgb.size = d.rgbBuffer) :
    Shows d.convert (imageOf r.frame.size (finished d r fresh rgb).rgb) r.frame where
  width := rfl
  height := rfl
  rows := by
    rw [finished, imageOf_convertedRgb hd h hrgb, h.samples hd (allocate_size _ _)]

end Contents

/-! ## Two resolutions -/

/-- A black frame without padding. -/
def blackFrame (s : Size) (hwidth : 0 < s.width ∧ 2 ∣ s.width)
    (hheight : 0 < s.height ∧ 2 ∣ s.height)
    (hfits : ∀ p : Plane, p.height s * p.width s ≤ 2147483647) : Frame where
  size := s
  data p _ := match p with
    | .y => 16
    | .u | .v => 128
  linesize p := p.width s
  width_pos := hwidth.1
  height_pos := hheight.1
  width_even := hwidth.2
  height_even := hheight.2
  linesize_ge _ := Nat.le_refl _
  plane_fits := hfits

/-- Its conversion shows the brightness alone. -/
def library : Library where
  codecFound := true
  contextAllocated := true
  avcodecOpen := 0
  frameAllocated := true
  convert samples _ i x := samples .y i (x / 4)
  rgbMemory _ := 0

def prepared : State where
  swsContext := { width := 1920, height := 1080, fits := fullHd_fits }
  convert := library.convert
  rgbBuffer := rgbSize 1920 1080
  rgbLinesize := 7680

def received (f : Frame) : Received where
  ret := 1
  gotframe := 1
  codecContext := f.size
  frame := f

def fullHd : Frame :=
  blackFrame ⟨1920, 1080, fullHd_fits⟩ (by decide) (by decide) fun p => by cases p <;> decide

def hdReady : Frame :=
  blackFrame ⟨1280, 720, by decide⟩ (by decide) (by decide) fun p => by cases p <;> decide

def untouched : Locals := ⟨Block.blank 0, 0, Block.blank 0⟩

theorem fullHd_shown :
    ShowsFrame prepared (received fullHd)
      (decode prepared (received fullHd) (fun _ => 0) untouched).events := by
  have hprepared : init library = .ok prepared := rfl
  have hfits : FitsContext (received fullHd) := ⟨rfl, by decide, Nat.le_refl _⟩
  exact (shows_frame_iff hprepared _ _ _).mpr fun _ => hfits

/-- A frame of 1280 by 720 is sheared. -/
theorem hdReady_not_shown :
    ¬ ∀ (library : Library) (d : State) (r : Received) (fresh : Nat → UInt8) (l : Locals),
      init library = .ok d → ShowsFrame d r (decode d r fresh l).events := by
  intro h
  have hprepared : init library = .ok prepared := rfl
  have hshows := h library prepared (received hdReady) (fun _ => 0) untouched hprepared
  have hdec : (received hdReady).decoded = true := rfl
  rw [decode_run hdec, showsFrame_emit] at hshows
  have hwidth : 1280 = 1920 := hshows.width (init_prepared hprepared)
  omega

end SimpleSipClient.Decoder
