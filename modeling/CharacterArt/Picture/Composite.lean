import CharacterArt.Picture

/-!
# Composites

How a mask becomes the alpha channel of a picture.

## Main Definitions

* `Picture.resize` — a picture at another size, each pixel taken from the nearest place
* `Pixel.maskValue` — the alpha that a pixel of a mask stands for
* `Picture.copyAlpha` — a picture with the alpha of a mask
* `Picture.quantize` — a picture with fewer colors

## Design Notes

A mask that is transparent somewhere stands for its own alpha channel, and a mask that is opaque
everywhere for its brightness.
-/

namespace CharacterArt

namespace Pixel

/-- The brightness of a pixel, in 256 steps. -/
def luminance (p : Pixel) : UInt8 :=
  ((2126 * p.red.toNat + 7152 * p.green.toNat + 722 * p.blue.toNat) / 10000).toUInt8

/-- The alpha that a pixel of a mask stands for: its own alpha if the mask is transparent somewhere,
and its brightness otherwise. -/
def maskValue (transparent : Bool) (p : Pixel) : UInt8 :=
  if transparent then p.alpha else p.luminance

/-- A pixel with the low four bits of its colors left out. -/
def quantize (p : Pixel) : Pixel :=
  { p with red := p.red &&& 0xF0, green := p.green &&& 0xF0, blue := p.blue &&& 0xF0 }

end Pixel

namespace Picture

/-- A picture at another size, each pixel taken from the nearest place. -/
def resize (p : Picture) (width height : Nat) : Picture :=
  tabulate width height fun x y => p.pixelAt (x * p.width / width) (y * p.height / height)

/-- A picture with the alpha of a mask. -/
def copyAlpha (base mask : Picture) : Picture :=
  let transparent := mask.isTransparent
  tabulate base.width base.height fun x y =>
    { base.pixelAt x y with alpha := (mask.pixelAt x y).maskValue transparent }

/-- A picture with fewer colors. -/
def quantize (p : Picture) : Picture :=
  p.map Pixel.quantize

end Picture

end CharacterArt
