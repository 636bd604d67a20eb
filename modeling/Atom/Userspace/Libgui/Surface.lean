import Atom.Kernel.Graphics.Framebuffer

/-!
# Libgui — drawing surfaces

A `libgui` `Surface` draws straight into a buffer of `stride * height` pixels, with the offsets of
the kernel's framebuffer: `(y * stride + x) as usize * bpp`, the index in `u32`. Its `fill_rect`
is the kernel's loop (`Geometry.fillRect`), with the pixel in blue-green-red order, and marks the
surface dirty.

The drawing result gathers both sides: on a valid framebuffer and a valid surface, every write
of the kernel's primitives and of `Surface::fill_rect` is at a pixel of the screen, for every
`u32` argument.

* **`drawing_inBounds`**: the kernel primitives and `Surface::fill_rect` stay on the screen.

The surface's id, buffer address and ownership are left out, with the glyph, line and blit
methods, which draw through the font of `libgui` and are not modelled.
-/

namespace Atom.Libgui

open Atom.Graphics

/-- `Color` of `libgui`, with its alpha. -/
structure Color where
  r : UInt8
  g : UInt8
  b : UInt8
  a : UInt8
  deriving DecidableEq, Repr

/-- `Color::to_bgr32`. -/
def Color.toBgr32 (c : Color) : UInt32 :=
  (c.b.toUInt32 <<< 16) ||| (c.g.toUInt32 <<< 8) ||| c.r.toUInt32

/-- `Surface`, less its id, buffer and ownership. -/
structure Surface where
  width : UInt32
  height : UInt32
  stride : UInt32
  bpp : Nat
  dirty : Bool
  deriving DecidableEq, Repr

namespace Surface

/-- `Surface::new`: a clean surface. -/
def new (width height stride : UInt32) (bpp : Nat) : Surface :=
  ⟨width, height, stride, bpp, false⟩

/-- The surface's geometry. -/
def geometry (s : Surface) : Geometry :=
  ⟨s.width, s.height, s.stride, s.bpp⟩

/-- `set_pixel`: off the surface it returns before marking it dirty. -/
def setPixel (s : Surface) (x y : UInt32) (color : Color) : List Write × Surface :=
  if x ≥ s.width ∨ y ≥ s.height then ([], s)
  else ([⟨s.geometry.pixelOffset x y, color.toBgr32⟩], { s with dirty := true })

/-- `fill_rect`. -/
def fillRect (s : Surface) (x y width height : UInt32) (color : Color) : List Write × Surface :=
  (s.geometry.fillRect x y width height color.toBgr32, { s with dirty := true })

/-- `clear`. -/
def clear (s : Surface) (color : Color) : List Write × Surface :=
  s.fillRect 0 0 s.width s.height color

end Surface

/-- **Drawing stays on the screen.** On a framebuffer and a surface with four-byte pixels, rows at
least as long as their width and `stride * height < 2 ^ 32`, every write of `draw_pixel`,
`write_pixel`, `fill_rect`, `draw_char`, `draw_string` and `panic_write` is at
`(py * stride + px) * 4` for a pixel `px < width`, `py < height`, computed without wrapping; every
write of `clear_screen` is at one of the `stride * height` pixels; and so is every write of
`Surface::fill_rect` on the surface. -/
theorem drawing_inBounds (fb : Graphics.Framebuffer) (hfb : fb.geometry.Valid)
    (s : Surface) (hs : s.geometry.Valid) :
    (∀ x y color, ∀ w ∈ fb.drawPixel x y color, fb.geometry.InBounds w) ∧
    (∀ x y value, ∀ w ∈ fb.writePixel x y value, fb.geometry.InBounds w) ∧
    (∀ x y width height color, ∀ w ∈ fb.fillRect x y width height color,
      fb.geometry.InBounds w) ∧
    (∀ x y ch fg bg, ∀ w ∈ fb.drawChar x y ch fg bg, fb.geometry.InBounds w) ∧
    (∀ x y text fg bg, ∀ w ∈ fb.drawString x y text fg bg, fb.geometry.InBounds w) ∧
    (∀ color, ∀ w ∈ fb.clearScreen color, fb.geometry.InBuffer w) ∧
    (∀ x y text color, ∀ w ∈ fb.panicWrite x y text color, fb.geometry.InBounds w) ∧
    (∀ x y width height color, ∀ w ∈ (s.fillRect x y width height color).1,
      s.geometry.InBounds w) :=
  ⟨Graphics.Framebuffer.drawPixel_inBounds hfb,
   Graphics.Framebuffer.writePixel_inBounds hfb,
   Graphics.Framebuffer.fillRect_inBounds hfb,
   Graphics.Framebuffer.drawChar_inBounds hfb,
   fun x y text fg bg =>
     Graphics.Framebuffer.drawString_inBounds hfb y fg bg x text.toByteArray.data.toList,
   Graphics.Framebuffer.clearScreen_inBuffer hfb,
   fun x y text color => Graphics.Framebuffer.panicWrite_inBounds hfb y
     (pixelValue fb.pixelFormat color) x text.toByteArray.data.toList,
   fun x y width height color => Geometry.fillRect_inBounds hs x y width height color.toBgr32⟩

/-- A 640 × 480 screen and a rectangle clipped at its corner: the corner pixel's write. -/
theorem drawing_inBounds_vga :
    (Graphics.Framebuffer.new ⟨640, 480, 640, .bgr⟩).geometry.InBounds
      ⟨(479 * 640 + 639) * 4, pixelValue .bgr ⟨255, 255, 255⟩⟩ :=
  (drawing_inBounds (Graphics.Framebuffer.new ⟨640, 480, 640, .bgr⟩)
    (Graphics.Framebuffer.new_valid (by decide) (by decide))
    (Surface.new 640 480 640 4) ⟨rfl, by decide, by decide⟩).2.2.1 630 470 100 100
    ⟨255, 255, 255⟩ _ (by decide)

end Atom.Libgui
