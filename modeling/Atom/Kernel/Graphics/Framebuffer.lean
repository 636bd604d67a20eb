import Mathlib.Data.Nat.Digits.Defs

/-!
# Graphics — the kernel framebuffer

The drawing primitives of `kernel/src/graphics.rs`, over the framebuffer the firmware reports.
Each primitive is modelled by the writes it makes: the byte offset from the framebuffer's
address, and the `u32` written there. The coordinates are `u32` and their sums wrap in a release
build (`x + width` in `fill_rect`, `x + col` in `draw_char`, `cx += FONT_WIDTH` in the string
loops); the offset of a pixel is `(py * stride + px) as usize * bytes_per_pixel`, its product and
sum in `u32`.

A screen is `Valid` when its pixels are four bytes, its rows at least as long as its width, and
its `stride * height` pixels can be counted in `u32`. Every primitive then writes only at a pixel
of the screen (`InBounds`): whatever wrapped on the way, the coordinates it writes at are below
the width and the height, and the offset is computed exactly.

* `toNat_pixelIndex`: on a valid screen, `py * stride + px` does not wrap for a pixel of it;
* `writePixel_inBounds`, `fillRect_inBounds`: the guarded write and the clipped rectangle, which
  `Surface::fill_rect` of `libgui` shares (`Geometry.fillRect`);
* `drawChar_inBounds`, `drawString_inBounds`, `panicWrite_inBounds`: the glyph loops;
* `clearScreen_inBuffer`: `clear_screen` writes only within the `stride * height` pixels of the
  buffer.

The framebuffer lock and `FRAMEBUFFER_INITIALIZED` are left out: the primitives are modelled on an
initialised framebuffer, and the framebuffer's address is where the offsets start.
-/

namespace Atom.Graphics

/-- `PixelFormat`. -/
inductive PixelFormat where
  | rgb | bgr | bitmask | bltOnly | unknown
  deriving DecidableEq, Repr

/-- What `Framebuffer::new` reads of the boot `FramebufferInfo`. -/
structure FramebufferInfo where
  width : UInt32
  height : UInt32
  pixelsPerScanLine : UInt32
  pixelFormat : PixelFormat
  deriving DecidableEq, Repr

/-- `Framebuffer`, less its address: the offsets are counted from it. -/
structure Framebuffer where
  width : UInt32
  height : UInt32
  stride : UInt32
  pixelFormat : PixelFormat
  bytesPerPixel : Nat
  deriving DecidableEq, Repr

/-- `Framebuffer::new`: every pixel format is given four bytes a pixel. -/
def Framebuffer.new (info : FramebufferInfo) : Framebuffer :=
  ⟨info.width, info.height, info.pixelsPerScanLine, info.pixelFormat, 4⟩

/-- `Color`. -/
structure Color where
  r : UInt8
  g : UInt8
  b : UInt8
  deriving DecidableEq, Repr

/-- `FONT_HEIGHT`. -/
def FONT_HEIGHT : UInt32 := 8

/-- `FONT_WIDTH`. -/
def FONT_WIDTH : UInt32 := 8

/-! ### Pixels and writes -/

/-- The pixel of `color` in `format`: red high for `Rgb`, blue high for every other format. -/
def pixelValue (format : PixelFormat) (color : Color) : UInt32 :=
  match format with
  | .rgb => (color.r.toUInt32 <<< 16) ||| (color.g.toUInt32 <<< 8) ||| color.b.toUInt32
  | _ => (color.b.toUInt32 <<< 16) ||| (color.g.toUInt32 <<< 8) ||| color.r.toUInt32

/-- What a drawing loop reads of a screen, the kernel framebuffer's or a `libgui` surface's; the
stride is counted in pixels. -/
structure Geometry where
  width : UInt32
  height : UInt32
  stride : UInt32
  bytesPerPixel : Nat
  deriving DecidableEq, Repr

/-- One `write_volatile` of a `u32`, `offset` bytes past the buffer's address. -/
structure Write where
  offset : Nat
  value : UInt32
  deriving DecidableEq, Repr

/-- The values of the `u32` range `lo..hi`, none when `hi ≤ lo`. -/
def uRange (lo hi : UInt32) : List UInt32 :=
  (List.range' lo.toNat (hi.toNat - lo.toNat)).map UInt32.ofNat

@[simp] theorem mem_uRange {lo hi p : UInt32} : p ∈ uRange lo hi ↔ lo ≤ p ∧ p < hi := by
  simp only [uRange, List.mem_map, List.mem_range'_1, UInt32.le_iff_toNat_le,
    UInt32.lt_iff_toNat_lt]
  constructor
  · rintro ⟨n, ⟨hlo, hhi⟩, rfl⟩
    have hn : n < UInt32.size := Nat.lt_of_lt_of_le (by omega) (Nat.le_of_lt hi.toNat_lt)
    rw [UInt32.toNat_ofNat_of_lt' hn]
    omega
  · rintro ⟨hlo, hhi⟩
    exact ⟨p.toNat, ⟨hlo, by omega⟩, UInt32.ofNat_toNat⟩

namespace Geometry

/-- `(py * stride + px) as usize * bytes_per_pixel`: the pixel's index in `u32`, its product with
the pixel size in `usize`, which a `u32` times four cannot overflow. -/
def pixelOffset (g : Geometry) (px py : UInt32) : Nat :=
  (py * g.stride + px).toNat * g.bytesPerPixel

/-- The guarded write of `draw_pixel` and `write_pixel`, and of a cell of `draw_char` and
`panic_write`: `if px < width && py < height`. -/
def writePixel (g : Geometry) (px py value : UInt32) : List Write :=
  if px < g.width ∧ py < g.height then [⟨g.pixelOffset px py, value⟩] else []

/-- The loops of `fill_rect`, which the kernel and `Surface::fill_rect` share: the rectangle's ends
`(x + width).min(width)` and `(y + height).min(height)` are computed in `u32`. -/
def fillRect (g : Geometry) (x y width height value : UInt32) : List Write :=
  let xEnd := min (x + width) g.width
  let yEnd := min (y + height) g.height
  (uRange y yEnd).flatMap fun py => (uRange x xEnd).map fun px => ⟨g.pixelOffset px py, value⟩

/-- A screen the primitives are safe on: four-byte pixels, rows at least as long as the width,
and its `stride * height` pixels countable in `u32`. -/
structure Valid (g : Geometry) : Prop where
  bytesPerPixel_eq : g.bytesPerPixel = 4
  width_le : g.width.toNat ≤ g.stride.toNat
  size_lt : g.stride.toNat * g.height.toNat < 2 ^ 32

/-- A write at a pixel of the screen, its offset `(py * stride + px) * 4` in `ℕ`. -/
def InBounds (g : Geometry) (w : Write) : Prop :=
  ∃ px py : Nat, px < g.width.toNat ∧ py < g.height.toNat ∧
    w.offset = (py * g.stride.toNat + px) * 4

/-- A write at one of the `stride * height` pixels of the buffer. -/
def InBuffer (g : Geometry) (w : Write) : Prop :=
  ∃ i, i < g.stride.toNat * g.height.toNat ∧ w.offset = i * 4

section Valid

variable {g : Geometry} (hv : g.Valid)
include hv

theorem pixelIndex_lt {px py : Nat} (hx : px < g.width.toNat) (hy : py < g.height.toNat) :
    py * g.stride.toNat + px < g.stride.toNat * g.height.toNat := by
  -- a row below the last ends at `(py + 1) * stride ≤ height * stride`
  have hrow : (py + 1) * g.stride.toNat ≤ g.height.toNat * g.stride.toNat :=
    Nat.mul_le_mul_right _ hy
  rw [Nat.succ_mul, Nat.mul_comm g.height.toNat] at hrow
  have := hv.width_le
  omega

/-- **On a valid screen, the index of a pixel of it is computed without wrapping.** -/
theorem toNat_pixelIndex {px py : UInt32} (hx : px < g.width) (hy : py < g.height) :
    (py * g.stride + px).toNat = py.toNat * g.stride.toNat + px.toNat := by
  have hlt : py.toNat * g.stride.toNat + px.toNat < 2 ^ 32 :=
    Nat.lt_trans (pixelIndex_lt hv hx hy) hv.size_lt
  rw [UInt32.toNat_add, UInt32.toNat_mul,
    Nat.mod_eq_of_lt (by omega : py.toNat * g.stride.toNat < 2 ^ 32), Nat.mod_eq_of_lt hlt]

theorem pixelOffset_inBounds {px py : UInt32} (hx : px < g.width) (hy : py < g.height)
    (value : UInt32) : g.InBounds ⟨g.pixelOffset px py, value⟩ :=
  ⟨px.toNat, py.toNat, hx, hy, by rw [pixelOffset, toNat_pixelIndex hv hx hy, hv.bytesPerPixel_eq]⟩

theorem writePixel_inBounds (px py value : UInt32) :
    ∀ w ∈ g.writePixel px py value, g.InBounds w := by
  intro w hw
  unfold writePixel at hw
  split_ifs at hw with h
  · rw [List.mem_singleton.mp hw]
    exact pixelOffset_inBounds hv h.1 h.2 value
  · exact absurd hw List.not_mem_nil

/-- **Every write of a rectangle is at a pixel of the screen**, for every `u32` corner and size:
a wrapped `x + width` only makes the rectangle narrower. -/
theorem fillRect_inBounds (x y width height value : UInt32) :
    ∀ w ∈ g.fillRect x y width height value, g.InBounds w := by
  intro w hw
  simp only [fillRect, List.mem_flatMap, List.mem_map, mem_uRange] at hw
  obtain ⟨py, ⟨-, hpy⟩, px, ⟨-, hpx⟩, rfl⟩ := hw
  rw [UInt32.lt_iff_toNat_lt, UInt32.toNat_min] at hpx hpy
  exact pixelOffset_inBounds hv (UInt32.lt_iff_toNat_lt.mpr (Nat.lt_min.mp hpx).2)
    (UInt32.lt_iff_toNat_lt.mpr (Nat.lt_min.mp hpy).2) value

end Valid

end Geometry

/-! ### Glyphs -/

/-- The glyphs `get_minimal_glyph` lists itself. -/
def minimalGlyphs : List (UInt8 × List UInt8) := [
  (0x20, [0x00, 0x00, 0x00, 0x00, 0x00, 0x00, 0x00, 0x00]), -- space
  (0x21, [0x18, 0x18, 0x18, 0x18, 0x18, 0x00, 0x18, 0x00]), -- !
  (0x3A, [0x00, 0x18, 0x18, 0x00, 0x18, 0x18, 0x00, 0x00]), -- :
  (0x30, [0x3C, 0x66, 0x6E, 0x76, 0x66, 0x66, 0x3C, 0x00]), -- 0
  (0x31, [0x18, 0x38, 0x18, 0x18, 0x18, 0x18, 0x7E, 0x00]) -- 1
]

/-- The glyphs of `get_uppercase_glyph`. -/
def uppercaseGlyphs : List (UInt8 × List UInt8) := [
  (0x41, [0x18, 0x3C, 0x66, 0x66, 0x7E, 0x66, 0x66, 0x00]), -- A
  (0x42, [0x7C, 0x66, 0x66, 0x7C, 0x66, 0x66, 0x7C, 0x00]), -- B
  (0x43, [0x3C, 0x66, 0x60, 0x60, 0x60, 0x66, 0x3C, 0x00]), -- C
  (0x45, [0x7E, 0x60, 0x60, 0x7C, 0x60, 0x60, 0x7E, 0x00]), -- E
  (0x46, [0x7E, 0x60, 0x60, 0x7C, 0x60, 0x60, 0x60, 0x00]), -- F
  (0x49, [0x3C, 0x18, 0x18, 0x18, 0x18, 0x18, 0x3C, 0x00]), -- I
  (0x4B, [0x66, 0x6C, 0x78, 0x70, 0x78, 0x6C, 0x66, 0x00]), -- K
  (0x4E, [0x66, 0x76, 0x7E, 0x7E, 0x6E, 0x66, 0x66, 0x00]), -- N
  (0x4F, [0x3C, 0x66, 0x66, 0x66, 0x66, 0x66, 0x3C, 0x00]), -- O
  (0x50, [0x7C, 0x66, 0x66, 0x7C, 0x60, 0x60, 0x60, 0x00]), -- P
  (0x52, [0x7C, 0x66, 0x66, 0x7C, 0x6C, 0x66, 0x66, 0x00]), -- R
  (0x53, [0x3C, 0x66, 0x60, 0x3C, 0x06, 0x66, 0x3C, 0x00]), -- S
  (0x54, [0x7E, 0x18, 0x18, 0x18, 0x18, 0x18, 0x18, 0x00]) -- T
]

/-- The glyphs of `get_lowercase_glyph`. -/
def lowercaseGlyphs : List (UInt8 × List UInt8) := [
  (0x61, [0x00, 0x00, 0x3C, 0x06, 0x3E, 0x66, 0x3E, 0x00]), -- a
  (0x63, [0x00, 0x00, 0x3C, 0x60, 0x60, 0x60, 0x3C, 0x00]), -- c
  (0x65, [0x00, 0x00, 0x3C, 0x66, 0x7E, 0x60, 0x3C, 0x00]), -- e
  (0x69, [0x18, 0x00, 0x38, 0x18, 0x18, 0x18, 0x3C, 0x00]), -- i
  (0x6B, [0x60, 0x60, 0x66, 0x6C, 0x78, 0x6C, 0x66, 0x00]), -- k
  (0x6C, [0x38, 0x18, 0x18, 0x18, 0x18, 0x18, 0x3C, 0x00]), -- l
  (0x6E, [0x00, 0x00, 0x7C, 0x66, 0x66, 0x66, 0x66, 0x00]), -- n
  (0x6F, [0x00, 0x00, 0x3C, 0x66, 0x66, 0x66, 0x3C, 0x00]), -- o
  (0x70, [0x00, 0x00, 0x7C, 0x66, 0x66, 0x7C, 0x60, 0x60]), -- p
  (0x72, [0x00, 0x00, 0x6E, 0x70, 0x60, 0x60, 0x60, 0x00]), -- r
  (0x73, [0x00, 0x00, 0x3E, 0x60, 0x3C, 0x06, 0x7C, 0x00]), -- s
  (0x74, [0x30, 0x30, 0x7C, 0x30, 0x30, 0x30, 0x1C, 0x00]) -- t
]

/-- The glyphs of `get_full_glyph`. -/
def fullGlyphs : List (UInt8 × List UInt8) := [
  (0x20, [0x00, 0x00, 0x00, 0x00, 0x00, 0x00, 0x00, 0x00]), -- space
  (0x21, [0x18, 0x18, 0x18, 0x18, 0x18, 0x00, 0x18, 0x00]), -- !
  (0x22, [0x6C, 0x6C, 0x24, 0x00, 0x00, 0x00, 0x00, 0x00]), -- "
  (0x23, [0x6C, 0x6C, 0xFE, 0x6C, 0xFE, 0x6C, 0x6C, 0x00]), -- #
  (0x24, [0x18, 0x3E, 0x60, 0x3C, 0x06, 0x7C, 0x18, 0x00]), -- $
  (0x25, [0x00, 0xC6, 0xCC, 0x18, 0x30, 0x66, 0xC6, 0x00]), -- %
  (0x26, [0x38, 0x6C, 0x38, 0x76, 0xDC, 0xCC, 0x76, 0x00]), -- &
  (0x27, [0x18, 0x18, 0x30, 0x00, 0x00, 0x00, 0x00, 0x00]), -- '
  (0x28, [0x0C, 0x18, 0x30, 0x30, 0x30, 0x18, 0x0C, 0x00]), -- (
  (0x29, [0x30, 0x18, 0x0C, 0x0C, 0x0C, 0x18, 0x30, 0x00]), -- )
  (0x2A, [0x00, 0x66, 0x3C, 0xFF, 0x3C, 0x66, 0x00, 0x00]), -- *
  (0x2B, [0x00, 0x18, 0x18, 0x7E, 0x18, 0x18, 0x00, 0x00]), -- +
  (0x2C, [0x00, 0x00, 0x00, 0x00, 0x00, 0x18, 0x18, 0x30]), -- ,
  (0x2D, [0x00, 0x00, 0x00, 0x7E, 0x00, 0x00, 0x00, 0x00]), -- -
  (0x2E, [0x00, 0x00, 0x00, 0x00, 0x00, 0x18, 0x18, 0x00]), -- .
  (0x2F, [0x06, 0x0C, 0x18, 0x30, 0x60, 0xC0, 0x80, 0x00]), -- /
  (0x30, [0x3C, 0x66, 0x6E, 0x76, 0x66, 0x66, 0x3C, 0x00]), -- 0
  (0x31, [0x18, 0x38, 0x18, 0x18, 0x18, 0x18, 0x7E, 0x00]), -- 1
  (0x32, [0x3C, 0x66, 0x06, 0x0C, 0x18, 0x30, 0x7E, 0x00]), -- 2
  (0x33, [0x7E, 0x0C, 0x18, 0x0C, 0x06, 0x66, 0x3C, 0x00]), -- 3
  (0x34, [0x0C, 0x1C, 0x3C, 0x6C, 0x7E, 0x0C, 0x0C, 0x00]), -- 4
  (0x35, [0x7E, 0x60, 0x7C, 0x06, 0x06, 0x66, 0x3C, 0x00]), -- 5
  (0x36, [0x1C, 0x30, 0x60, 0x7C, 0x66, 0x66, 0x3C, 0x00]), -- 6
  (0x37, [0x7E, 0x06, 0x0C, 0x18, 0x30, 0x30, 0x30, 0x00]), -- 7
  (0x38, [0x3C, 0x66, 0x66, 0x3C, 0x66, 0x66, 0x3C, 0x00]), -- 8
  (0x39, [0x3C, 0x66, 0x66, 0x3E, 0x06, 0x0C, 0x38, 0x00]), -- 9
  (0x3A, [0x00, 0x18, 0x18, 0x00, 0x18, 0x18, 0x00, 0x00]), -- :
  (0x3B, [0x00, 0x18, 0x18, 0x00, 0x18, 0x18, 0x30, 0x00]), -- ;
  (0x3C, [0x0C, 0x18, 0x30, 0x60, 0x30, 0x18, 0x0C, 0x00]), -- <
  (0x3D, [0x00, 0x00, 0x7E, 0x00, 0x7E, 0x00, 0x00, 0x00]), -- =
  (0x3E, [0x30, 0x18, 0x0C, 0x06, 0x0C, 0x18, 0x30, 0x00]), -- >
  (0x3F, [0x3C, 0x66, 0x0C, 0x18, 0x18, 0x00, 0x18, 0x00]), -- ?
  (0x40, [0x3C, 0x66, 0x6E, 0x6E, 0x60, 0x62, 0x3C, 0x00]), -- @
  (0x41, [0x18, 0x3C, 0x66, 0x66, 0x7E, 0x66, 0x66, 0x00]), -- A
  (0x42, [0x7C, 0x66, 0x66, 0x7C, 0x66, 0x66, 0x7C, 0x00]), -- B
  (0x43, [0x3C, 0x66, 0x60, 0x60, 0x60, 0x66, 0x3C, 0x00]), -- C
  (0x44, [0x78, 0x6C, 0x66, 0x66, 0x66, 0x6C, 0x78, 0x00]), -- D
  (0x45, [0x7E, 0x60, 0x60, 0x7C, 0x60, 0x60, 0x7E, 0x00]), -- E
  (0x46, [0x7E, 0x60, 0x60, 0x7C, 0x60, 0x60, 0x60, 0x00]), -- F
  (0x47, [0x3E, 0x60, 0x60, 0x6E, 0x66, 0x66, 0x3E, 0x00]), -- G
  (0x48, [0x66, 0x66, 0x66, 0x7E, 0x66, 0x66, 0x66, 0x00]), -- H
  (0x49, [0x3C, 0x18, 0x18, 0x18, 0x18, 0x18, 0x3C, 0x00]), -- I
  (0x4A, [0x06, 0x06, 0x06, 0x06, 0x66, 0x66, 0x3C, 0x00]), -- J
  (0x4B, [0x66, 0x6C, 0x78, 0x70, 0x78, 0x6C, 0x66, 0x00]), -- K
  (0x4C, [0x60, 0x60, 0x60, 0x60, 0x60, 0x60, 0x7E, 0x00]), -- L
  (0x4D, [0xC6, 0xEE, 0xFE, 0xD6, 0xC6, 0xC6, 0xC6, 0x00]), -- M
  (0x4E, [0x66, 0x76, 0x7E, 0x7E, 0x6E, 0x66, 0x66, 0x00]), -- N
  (0x4F, [0x3C, 0x66, 0x66, 0x66, 0x66, 0x66, 0x3C, 0x00]), -- O
  (0x50, [0x7C, 0x66, 0x66, 0x7C, 0x60, 0x60, 0x60, 0x00]), -- P
  (0x51, [0x3C, 0x66, 0x66, 0x66, 0x6E, 0x3C, 0x0E, 0x00]), -- Q
  (0x52, [0x7C, 0x66, 0x66, 0x7C, 0x6C, 0x66, 0x66, 0x00]), -- R
  (0x53, [0x3C, 0x66, 0x60, 0x3C, 0x06, 0x66, 0x3C, 0x00]), -- S
  (0x54, [0x7E, 0x18, 0x18, 0x18, 0x18, 0x18, 0x18, 0x00]), -- T
  (0x55, [0x66, 0x66, 0x66, 0x66, 0x66, 0x66, 0x3C, 0x00]), -- U
  (0x56, [0x66, 0x66, 0x66, 0x66, 0x66, 0x3C, 0x18, 0x00]), -- V
  (0x57, [0xC6, 0xC6, 0xC6, 0xD6, 0xFE, 0xEE, 0xC6, 0x00]), -- W
  (0x58, [0x66, 0x66, 0x3C, 0x18, 0x3C, 0x66, 0x66, 0x00]), -- X
  (0x59, [0x66, 0x66, 0x66, 0x3C, 0x18, 0x18, 0x18, 0x00]), -- Y
  (0x5A, [0x7E, 0x06, 0x0C, 0x18, 0x30, 0x60, 0x7E, 0x00]), -- Z
  (0x5B, [0x3C, 0x30, 0x30, 0x30, 0x30, 0x30, 0x3C, 0x00]), -- [
  (0x5C, [0xC0, 0x60, 0x30, 0x18, 0x0C, 0x06, 0x02, 0x00]), -- \
  (0x5D, [0x3C, 0x0C, 0x0C, 0x0C, 0x0C, 0x0C, 0x3C, 0x00]), -- ]
  (0x5E, [0x10, 0x38, 0x6C, 0xC6, 0x00, 0x00, 0x00, 0x00]), -- ^
  (0x5F, [0x00, 0x00, 0x00, 0x00, 0x00, 0x00, 0x00, 0xFF]), -- _
  (0x60, [0x30, 0x18, 0x0C, 0x00, 0x00, 0x00, 0x00, 0x00]), -- `
  (0x61, [0x00, 0x00, 0x3C, 0x06, 0x3E, 0x66, 0x3E, 0x00]), -- a
  (0x62, [0x60, 0x60, 0x7C, 0x66, 0x66, 0x66, 0x7C, 0x00]), -- b
  (0x63, [0x00, 0x00, 0x3C, 0x60, 0x60, 0x60, 0x3C, 0x00]), -- c
  (0x64, [0x06, 0x06, 0x3E, 0x66, 0x66, 0x66, 0x3E, 0x00]), -- d
  (0x65, [0x00, 0x00, 0x3C, 0x66, 0x7E, 0x60, 0x3C, 0x00]), -- e
  (0x66, [0x1C, 0x30, 0x7C, 0x30, 0x30, 0x30, 0x30, 0x00]), -- f
  (0x67, [0x00, 0x00, 0x3E, 0x66, 0x66, 0x3E, 0x06, 0x3C]), -- g
  (0x68, [0x60, 0x60, 0x7C, 0x66, 0x66, 0x66, 0x66, 0x00]), -- h
  (0x69, [0x18, 0x00, 0x38, 0x18, 0x18, 0x18, 0x3C, 0x00]), -- i
  (0x6A, [0x0C, 0x00, 0x1C, 0x0C, 0x0C, 0x0C, 0x6C, 0x38]), -- j
  (0x6B, [0x60, 0x60, 0x66, 0x6C, 0x78, 0x6C, 0x66, 0x00]), -- k
  (0x6C, [0x38, 0x18, 0x18, 0x18, 0x18, 0x18, 0x3C, 0x00]), -- l
  (0x6D, [0x00, 0x00, 0xEC, 0xFE, 0xD6, 0xC6, 0xC6, 0x00]), -- m
  (0x6E, [0x00, 0x00, 0x7C, 0x66, 0x66, 0x66, 0x66, 0x00]), -- n
  (0x6F, [0x00, 0x00, 0x3C, 0x66, 0x66, 0x66, 0x3C, 0x00]), -- o
  (0x70, [0x00, 0x00, 0x7C, 0x66, 0x66, 0x7C, 0x60, 0x60]), -- p
  (0x71, [0x00, 0x00, 0x3E, 0x66, 0x66, 0x3E, 0x06, 0x06]), -- q
  (0x72, [0x00, 0x00, 0x6E, 0x70, 0x60, 0x60, 0x60, 0x00]), -- r
  (0x73, [0x00, 0x00, 0x3E, 0x60, 0x3C, 0x06, 0x7C, 0x00]), -- s
  (0x74, [0x30, 0x30, 0x7C, 0x30, 0x30, 0x30, 0x1C, 0x00]), -- t
  (0x75, [0x00, 0x00, 0x66, 0x66, 0x66, 0x66, 0x3E, 0x00]), -- u
  (0x76, [0x00, 0x00, 0x66, 0x66, 0x66, 0x3C, 0x18, 0x00]), -- v
  (0x77, [0x00, 0x00, 0xC6, 0xC6, 0xD6, 0xFE, 0x6C, 0x00]), -- w
  (0x78, [0x00, 0x00, 0x66, 0x3C, 0x18, 0x3C, 0x66, 0x00]), -- x
  (0x79, [0x00, 0x00, 0x66, 0x66, 0x66, 0x3E, 0x06, 0x3C]), -- y
  (0x7A, [0x00, 0x00, 0x7E, 0x0C, 0x18, 0x30, 0x7E, 0x00]), -- z
  (0x7B, [0x0E, 0x18, 0x18, 0x70, 0x18, 0x18, 0x0E, 0x00]), -- {
  (0x7C, [0x18, 0x18, 0x18, 0x18, 0x18, 0x18, 0x18, 0x00]), -- |
  (0x7D, [0x70, 0x18, 0x18, 0x0E, 0x18, 0x18, 0x70, 0x00]), -- }
  (0x7E, [0x76, 0xDC, 0x00, 0x00, 0x00, 0x00, 0x00, 0x00]) -- ~
]

/-- The empty glyph. -/
def blankGlyph : List UInt8 := [0x00, 0x00, 0x00, 0x00, 0x00, 0x00, 0x00, 0x00]

/-- `get_uppercase_glyph`. -/
def getUppercaseGlyph (ch : UInt8) : List UInt8 := (uppercaseGlyphs.lookup ch).getD blankGlyph

/-- `get_lowercase_glyph`. -/
def getLowercaseGlyph (ch : UInt8) : List UInt8 := (lowercaseGlyphs.lookup ch).getD blankGlyph

/-- `get_minimal_glyph`: its own glyphs, then the letters. -/
def getMinimalGlyph (ch : UInt8) : List UInt8 :=
  match minimalGlyphs.lookup ch with
  | some glyph => glyph
  | none =>
      if 0x41 ≤ ch ∧ ch ≤ 0x5A then getUppercaseGlyph ch
      else if 0x61 ≤ ch ∧ ch ≤ 0x7A then getLowercaseGlyph ch
      else blankGlyph

/-- `get_full_glyph`: a box for a byte it has no glyph for. -/
def getFullGlyph (ch : UInt8) : List UInt8 :=
  (fullGlyphs.lookup ch).getD [0xFF, 0x81, 0x81, 0x81, 0x81, 0x81, 0x81, 0xFF]

/-- `glyph[row as usize] & (0x80 >> col) != 0`. -/
def glyphBit (glyph : List UInt8) (row col : UInt32) : Bool :=
  glyph.getD row.toNat 0 &&& ((0x80 : UInt8) >>> col.toUInt8) != 0

/-- The cells of a glyph, `for row in 0..FONT_HEIGHT { for col in 0..FONT_WIDTH { … } }`, the
writes of each given by `cell row col`. -/
def glyphCells (cell : UInt32 → UInt32 → List Write) : List Write :=
  (uRange 0 FONT_HEIGHT).flatMap fun row => (uRange 0 FONT_WIDTH).flatMap fun col => cell row col

theorem glyphCells_forall {P : Write → Prop} {cell : UInt32 → UInt32 → List Write}
    (h : ∀ row col, ∀ w ∈ cell row col, P w) : ∀ w ∈ glyphCells cell, P w := by
  intro w hw
  simp only [glyphCells, List.mem_flatMap] at hw
  obtain ⟨row, -, col, -, hw⟩ := hw
  exact h row col w hw

/-! ### The primitives -/

namespace Framebuffer

/-- The framebuffer's geometry. -/
def geometry (fb : Framebuffer) : Geometry :=
  ⟨fb.width, fb.height, fb.stride, fb.bytesPerPixel⟩

theorem new_valid {info : FramebufferInfo} (hw : info.width.toNat ≤ info.pixelsPerScanLine.toNat)
    (hs : info.pixelsPerScanLine.toNat * info.height.toNat < 2 ^ 32) :
    (Framebuffer.new info).geometry.Valid :=
  ⟨rfl, hw, hs⟩

/-- `draw_pixel`. -/
def drawPixel (fb : Framebuffer) (x y : UInt32) (color : Color) : List Write :=
  fb.geometry.writePixel x y (pixelValue fb.pixelFormat color)

/-- `write_pixel`. -/
def writePixel (fb : Framebuffer) (x y value : UInt32) : List Write :=
  fb.geometry.writePixel x y value

/-- `read_pixel`, over the framebuffer's words `mem`: `0` off the screen. -/
def readPixel (fb : Framebuffer) (mem : Nat → UInt32) (x y : UInt32) : UInt32 :=
  if x < fb.width ∧ y < fb.height then mem (fb.geometry.pixelOffset x y) else 0

/-- `fill_rect`. -/
def fillRect (fb : Framebuffer) (x y width height : UInt32) (color : Color) : List Write :=
  fb.geometry.fillRect x y width height (pixelValue fb.pixelFormat color)

/-- `clear_screen`: `for i in 0..(stride * height) as usize`, the product in `u32`. -/
def clearScreen (fb : Framebuffer) (color : Color) : List Write :=
  (List.range (fb.stride * fb.height).toNat).map fun i =>
    ⟨i * fb.bytesPerPixel, pixelValue fb.pixelFormat color⟩

/-- `draw_char`: every cell of the glyph is written, the foreground where its bit is set. -/
def drawChar (fb : Framebuffer) (x y : UInt32) (ch : UInt8) (fg bg : Color) : List Write :=
  let glyph := getFullGlyph ch
  glyphCells fun row col =>
    fb.geometry.writePixel (x + col) (y + row)
      (if glyphBit glyph row col then pixelValue fb.pixelFormat fg
       else pixelValue fb.pixelFormat bg)

/-- The loop of `draw_string` from the column `cx` on: it never stops, and `cx += FONT_WIDTH`
wraps. -/
def drawStringFrom (fb : Framebuffer) (y : UInt32) (fg bg : Color) : UInt32 → List UInt8 → List Write
  | _, [] => []
  | cx, ch :: rest => fb.drawChar cx y ch fg bg ++ fb.drawStringFrom y fg bg (cx + FONT_WIDTH) rest

/-- `draw_string`. -/
def drawString (fb : Framebuffer) (x y : UInt32) (text : String) (fg bg : Color) : List Write :=
  fb.drawStringFrom y fg bg x text.toByteArray.data.toList

/-- The loop of `panic_write` from the column `cx` on: it breaks once `cx + FONT_WIDTH > width`,
the sum in `u32`, and writes only the set bits of each glyph. -/
def panicWriteFrom (fb : Framebuffer) (y value : UInt32) : UInt32 → List UInt8 → List Write
  | _, [] => []
  | cx, ch :: rest =>
      if cx + FONT_WIDTH > fb.width then []
      else
        let glyph := getMinimalGlyph ch
        (glyphCells fun row col =>
          if glyphBit glyph row col then fb.geometry.writePixel (cx + col) (y + row) value else [])
          ++ fb.panicWriteFrom y value (cx + FONT_WIDTH) rest

/-- `panic_write`. -/
def panicWrite (fb : Framebuffer) (x y : UInt32) (text : String) (color : Color) : List Write :=
  fb.panicWriteFrom y (pixelValue fb.pixelFormat color) x text.toByteArray.data.toList

section Valid

variable {fb : Framebuffer} (hv : fb.geometry.Valid)
include hv

theorem drawPixel_inBounds (x y : UInt32) (color : Color) :
    ∀ w ∈ fb.drawPixel x y color, fb.geometry.InBounds w :=
  Geometry.writePixel_inBounds hv x y _

theorem writePixel_inBounds (x y value : UInt32) :
    ∀ w ∈ fb.writePixel x y value, fb.geometry.InBounds w :=
  Geometry.writePixel_inBounds hv x y value

theorem fillRect_inBounds (x y width height : UInt32) (color : Color) :
    ∀ w ∈ fb.fillRect x y width height color, fb.geometry.InBounds w :=
  Geometry.fillRect_inBounds hv x y width height _

theorem drawChar_inBounds (x y : UInt32) (ch : UInt8) (fg bg : Color) :
    ∀ w ∈ fb.drawChar x y ch fg bg, fb.geometry.InBounds w :=
  glyphCells_forall fun row col => Geometry.writePixel_inBounds hv (x + col) (y + row) _

theorem drawString_inBounds (y : UInt32) (fg bg : Color) (cx : UInt32) (text : List UInt8) :
    ∀ w ∈ fb.drawStringFrom y fg bg cx text, fb.geometry.InBounds w := by
  -- induction on the bytes, the column free: it moves on, and may wrap, at every byte
  induction text generalizing cx with
  | nil => simp [drawStringFrom]
  | cons ch rest ih =>
      intro w hw
      rcases List.mem_append.mp hw with hw | hw
      · exact drawChar_inBounds hv cx y ch fg bg w hw
      · exact ih (cx + FONT_WIDTH) w hw

theorem panicWrite_inBounds (y value : UInt32) (cx : UInt32) (text : List UInt8) :
    ∀ w ∈ fb.panicWriteFrom y value cx text, fb.geometry.InBounds w := by
  induction text generalizing cx with
  | nil => simp [panicWriteFrom]
  | cons ch rest ih =>
      intro w hw
      unfold panicWriteFrom at hw
      split_ifs at hw
      · exact absurd hw List.not_mem_nil
      · rcases List.mem_append.mp hw with hw | hw
        · refine glyphCells_forall (fun row col => ?_) w hw
          split_ifs
          · exact Geometry.writePixel_inBounds hv (cx + col) (y + row) value
          · exact fun _ h => absurd h List.not_mem_nil
        · exact ih (cx + FONT_WIDTH) w hw

theorem toNat_size : (fb.stride * fb.height).toNat = fb.stride.toNat * fb.height.toNat := by
  have hlt : fb.stride.toNat * fb.height.toNat < 2 ^ 32 := hv.size_lt
  rw [UInt32.toNat_mul, Nat.mod_eq_of_lt hlt]

/-- **`clear_screen` writes at a pixel of the buffer**, `(stride * height) as usize` computed
without wrapping. -/
theorem clearScreen_inBuffer (color : Color) :
    ∀ w ∈ fb.clearScreen color, fb.geometry.InBuffer w := by
  intro w hw
  simp only [clearScreen, List.mem_map, List.mem_range, toNat_size hv] at hw
  obtain ⟨i, hi, rfl⟩ := hw
  have hb : fb.bytesPerPixel = 4 := hv.bytesPerPixel_eq
  exact ⟨i, hi, by rw [hb]⟩

end Valid

/-! ### Saving and restoring the cursor -/

variable {fb : Framebuffer}

/-- The framebuffer's words after the writes `ws`, in order. -/
def store (mem : Nat → UInt32) (ws : List Write) : Nat → UInt32 :=
  ws.foldl (fun m w => Function.update m w.offset w.value) mem

end Framebuffer

end Atom.Graphics
