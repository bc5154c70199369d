import SimpleSipClient.Foundation.Block
import SimpleSipClient.Foundation.Sequence

/-! # The decoder

`Decoder::decode` packs the planes of a decoded frame into one buffer, has the buffer
converted to RGB and emits the result as an image. FFmpeg and Qt are described by the
rows that they read and write; what a conversion makes of the samples that it reads is a
parameter. FFmpeg refuses pictures of which the packed size is no `int`, and counts the bytes
of a plane by an `int` as well, so the offsets into both are plain numbers.
-/

namespace SimpleSipClient.Decoder

open Foundation

/-! ## Pictures -/

/-- A size that FFmpeg accepts: its packed picture has an `int` number of bytes. -/
structure Size where
  width : Nat
  height : Nat
  fits : height * width * 3 / 2 ≤ 2147483647
  deriving DecidableEq, Repr

inductive Plane where
  | y
  | u
  | v
  deriving DecidableEq, Repr

/-- The samples in a row of the plane. -/
def Plane.width (s : Size) : Plane → Nat
  | .y => s.width
  | .u | .v => s.width / 2

def Plane.height (s : Size) : Plane → Nat
  | .y => s.height
  | .u | .v => s.height / 2

/-- Half of `n`, rounded up, for the planes of one sample in four. -/
def Plane.rowOf (n : Nat) : Plane → Nat
  | .y => n
  | .u | .v => (n + 1) / 2

/-- A decoded 4:2:0 picture: three planes, each with its own distance between rows and no
longer than an `int` counts. -/
structure Frame where
  size : Size
  data : Plane → Nat → UInt8
  linesize : Plane → Nat
  width_pos : 0 < size.width
  height_pos : 0 < size.height
  width_even : 2 ∣ size.width
  height_even : 2 ∣ size.height
  linesize_ge : ∀ p : Plane, p.width size ≤ linesize p
  plane_fits : ∀ p : Plane, p.height size * linesize p ≤ 2147483647

/-- Row `i` of a plane, as far as the first `n` samples. -/
def Frame.row (f : Frame) (p : Plane) (n i : Nat) : List UInt8 :=
  (List.range n).map fun k => f.data p (i * f.linesize p + k)

/-- An `AVPicture` over a buffer: where the planes start and how far apart their rows are. -/
structure Picture where
  data : Plane → Nat
  linesize : Plane → Nat

/-- `avpicture_fill` for `AV_PIX_FMT_YUV420P`. -/
def avpictureFill (width height : Nat) : Picture where
  data
    | .y => 0
    | .u => width * height
    | .v => width * height + (width + 1) / 2 * ((height + 1) / 2)
  linesize
    | .y => width
    | .u | .v => (width + 1) / 2

/-- `avpicture_get_size` for `AV_PIX_FMT_RGB32`. -/
def rgbSize (width height : Nat) : Nat := 4 * width * height

/-! ## The object -/

/-- A conversion to `AV_PIX_FMT_RGB32`: from the samples of a slice and its height, the bytes of
row `i`. -/
abbrev Conversion := (Plane → Nat → Nat → UInt8) → Nat → Nat → Nat → UInt8

/-- What `init` prepares: the conversion context with its conversion, the size of the RGB
buffer and the distance between the rows of `m_frameRGB`, which lies over it. -/
structure State where
  swsContext : Size
  convert : Conversion
  rgbBuffer : Nat
  rgbLinesize : Nat

/-- What the codec library answers to `init`, and what the RGB buffer contains at first. -/
structure Library where
  codecFound : Bool
  contextAllocated : Bool
  avcodecOpen : Int
  frameAllocated : Bool
  convert : Conversion
  rgbMemory : Nat → UInt8

theorem fullHd_fits : 1080 * 1920 * 3 / 2 ≤ 2147483647 := by decide

def init (library : Library) : Except Int State :=
  if !library.codecFound then .error (-1)
  else if !library.contextAllocated then .error (-2)
  else
    let width := 1920
    let height := 1080
    if library.avcodecOpen < 0 then .error (-3)
    else if !library.frameAllocated then .error (-4)
    else .ok {
      swsContext := { width := width, height := height, fits := fullHd_fits }
      convert := library.convert
      rgbBuffer := rgbSize width height
      rgbLinesize := 4 * width }

/-! ## Decoding -/

/-- In `Format_RGB32`. -/
structure QImage where
  width : Nat
  height : Nat
  rows : List (List UInt8)
  deriving DecidableEq, Repr

inductive Event where
  | memcpy (p : Plane) (src dest n : Nat)
  | scaleRead (p : Plane) (row offset n : Nat)
  | scaleWrite (row offset n : Nat)
  | imageRead (row offset n : Nat)
  | emit (image : QImage)
  deriving DecidableEq, Repr

/-- The buffer `buf`, the running offset `a`, and what `m_rgbBuffer` holds. -/
structure Locals where
  buf : Block UInt8
  a : Nat
  rgb : Block UInt8

abbrev Step (α : Type) := Traced Event Locals α

/-- One round of a copy loop. -/
def copyRow (f : Frame) (p : Plane) (n i : Nat) : Step Unit := do
  let l ← Traced.get
  Traced.emit (.memcpy p (i * f.linesize p) l.a n)
  Traced.set { l with buf := l.buf.write l.a (f.row p n i), a := l.a + n }

/-- The three copy loops. -/
def pack (f : Frame) : Step Unit := do
  let height := f.size.height
  let width := f.size.width
  Traced.forEach (copyRow f .y width) (List.range height)
  Traced.forEach (copyRow f .u (width / 2)) (List.range (height / 2))
  Traced.forEach (copyRow f .v (width / 2)) (List.range (height / 2))

/-- The samples that a conversion finds in a buffer. -/
def samples (context : Size) (src : Picture) (sliceHeight : Nat) (buf : Block UInt8)
    (p : Plane) (i k : Nat) : UInt8 :=
  if i < p.rowOf sliceHeight ∧ k < p.rowOf context.width then
    buf.cell (src.data p + i * src.linesize p + k)
  else 0

/-- A converted row. -/
def scaleRow (width dstLinesize : Nat) (row : Nat → Nat → UInt8) (i : Nat) : Step Unit := do
  Traced.emit (.scaleWrite i (i * dstLinesize) (4 * width))
  let l ← Traced.get
  Traced.set { l with rgb := l.rgb.write (i * dstLinesize) ((List.range (4 * width)).map (row i)) }

/-- `sws_scale` between pictures of the context's size: for each row of the slice it reads
the row and writes the converted row. -/
def swsScale (context : Size) (convert : Conversion) (src : Picture)
    (sliceHeight dstLinesize : Nat) : Step Unit := do
  let chromaWidth := (context.width + 1) / 2
  let chromaHeight := (sliceHeight + 1) / 2
  Traced.forEach (fun i => Traced.emit
    (.scaleRead .y i (src.data .y + i * src.linesize .y) context.width)) (List.range sliceHeight)
  Traced.forEach (fun i => Traced.emit
    (.scaleRead .u i (src.data .u + i * src.linesize .u) chromaWidth)) (List.range chromaHeight)
  Traced.forEach (fun i => Traced.emit
    (.scaleRead .v i (src.data .v + i * src.linesize .v) chromaWidth)) (List.range chromaHeight)
  let l ← Traced.get
  Traced.forEach (scaleRow context.width dstLinesize
    (convert (samples context src sliceHeight l.buf) sliceHeight)) (List.range sliceHeight)

/-- `QImage` over the buffer in `Format_RGB32`, and its copy. -/
def imageCopy (width height : Nat) : Step QImage := do
  Traced.forEach (fun i => Traced.emit (.imageRead i (i * (4 * width)) (4 * width)))
    (List.range height)
  let l ← Traced.get
  return {
    width := width
    height := height
    rows := (List.range height).map fun i => l.rgb.slice (i * (4 * width)) (4 * width) }

/-- What `avcodec_decode_video2` leaves behind. -/
structure Received where
  ret : Int
  gotframe : Int
  codecContext : Size
  frame : Frame

def Received.decoded (r : Received) : Bool := r.gotframe != 0 && decide (0 < r.ret)

def newSize (codecContext : Size) : Nat := codecContext.height * codecContext.width * 3 / 2

/-- `new unsigned char[n]`, with whatever the memory contains. -/
def allocate (fresh : Nat → UInt8) (n : Nat) : Block UInt8 :=
  Block.ofList ((List.range n).map fresh)

/-- The image is the one of the signal. -/
def decode (d : State) (r : Received) (fresh : Nat → UInt8) : Step (Option QImage) :=
  if r.decoded then do
    let height := r.frame.size.height
    let width := r.frame.size.width
    let l ← Traced.get
    Traced.set { l with buf := allocate fresh (newSize r.codecContext), a := 0 }
    pack r.frame
    swsScale d.swsContext d.convert (avpictureFill width height) height d.rgbLinesize
    let image ← imageCopy width height
    Traced.emit (.emit image)
    return some image
  else return none

/-- Whether an access lies in its buffer: the packed one, which has the size of the codec context,
or `m_rgbBuffer`. -/
def inside (d : State) (r : Received) : Event → Bool
  | .memcpy _ _ dest n => decide (dest + n ≤ newSize r.codecContext)
  | .scaleRead _ _ offset n => decide (offset + n ≤ newSize r.codecContext)
  | .scaleWrite _ offset n => decide (offset + n ≤ d.rgbBuffer)
  | .imageRead _ offset n => decide (offset + n ≤ d.rgbBuffer)
  | .emit _ => true

end SimpleSipClient.Decoder
