/-!
# Pictures

A picture is a rectangle of pixels with four channels of eight bits.

## Main Definitions

* `Pixel`, `Picture` — pixels, and rows of them from top to bottom
* `Picture.ofRaw?`, `Picture.toRaw` — pictures from and to their raw bytes
* `Picture.isOpaque` — whether no pixel lets anything shine through
-/

namespace CharacterArt

/-- A pixel: red, green, blue and alpha. -/
structure Pixel where
  red : UInt8
  green : UInt8
  blue : UInt8
  alpha : UInt8
  deriving DecidableEq, Repr, Inhabited

/-- The four bytes of a pixel. -/
def Pixel.toRaw (p : Pixel) : List UInt8 :=
  [p.red, p.green, p.blue, p.alpha]

/-- The pixels of a sequence of bytes.  Bytes that do not fill a pixel are left out. -/
def Pixel.ofRaw : List UInt8 → List Pixel
  | r :: g :: b :: a :: rest => ⟨r, g, b, a⟩ :: ofRaw rest
  | _ => []

/-- A rectangle of pixels, row by row. -/
structure Picture where
  width : Nat
  height : Nat
  pixels : Array Pixel
  size_pixels : pixels.size = width * height
  deriving DecidableEq, Repr

namespace Picture

/-- The picture without a pixel. -/
instance : Inhabited Picture := ⟨⟨0, 0, #[], rfl⟩⟩

/-- A picture given by the pixel at each place. -/
def tabulate (width height : Nat) (f : Nat → Nat → Pixel) : Picture where
  width := width
  height := height
  pixels := Array.ofFn fun i : Fin (width * height) => f (i.val % width) (i.val / width)
  size_pixels := by simp

/-- The pixel in column `x` of row `y`. -/
def pixelAt (p : Picture) (x y : Nat) : Pixel :=
  p.pixels.getD (y * p.width + x) default

/-- The picture that raw bytes hold, if there are enough of them. -/
def ofRaw? (width height : Nat) (raw : List UInt8) : Option Picture :=
  let pixels := ((Pixel.ofRaw raw).take (width * height)).toArray
  if h : pixels.size = width * height then some ⟨width, height, pixels, h⟩ else none

/-- The raw bytes of a picture. -/
def toRaw (p : Picture) : List UInt8 :=
  p.pixels.toList.flatMap Pixel.toRaw

/-- A picture with every pixel changed by `f`. -/
def map (f : Pixel → Pixel) (p : Picture) : Picture where
  width := p.width
  height := p.height
  pixels := p.pixels.map f
  size_pixels := by simp [p.size_pixels]

/-- Whether every pixel is fully opaque. -/
def isOpaque (p : Picture) : Bool :=
  p.pixels.all (·.alpha == 255)

/-- Whether some pixel is less than fully opaque. -/
def isTransparent (p : Picture) : Bool :=
  !p.isOpaque

/-- Whether a picture has no pixel because a side of it has no length. -/
def isEmpty (p : Picture) : Bool :=
  p.width == 0 || p.height == 0

end Picture

end CharacterArt
