import CharacterArt.Picture
import Mathlib.Tactic.Common

/-!
# Pictures from their bytes

## Main Definitions

* `Picture.ofPixel` — a picture of one pixel, for examples

## Main Results

* `length_toRaw` — how many bytes a picture has
* `ofRaw?_toRaw` — a picture is taken back from its bytes
* `exists_ofRaw?` — as many bytes as a picture has are one
-/

namespace CharacterArt

theorem Pixel.ofRaw_flatMap_toRaw (pixels : List Pixel) :
    Pixel.ofRaw (pixels.flatMap Pixel.toRaw) = pixels := by
  induction pixels with
  | nil => rfl
  | cons p rest ih =>
      rw [List.flatMap_cons]
      show p :: Pixel.ofRaw (rest.flatMap Pixel.toRaw) = p :: rest
      rw [ih]

/-- Four bytes make up a pixel. -/
theorem Pixel.length_ofRaw (raw : List UInt8) : (Pixel.ofRaw raw).length = raw.length / 4 := by
  fun_induction Pixel.ofRaw raw with
  | case1 r g b a rest ih =>
      simp only [List.length_cons, ih]
      omega
  | case2 raw hshort =>
      have hlength : raw.length < 4 := by
        match raw with
        | [] | [_] | [_, _] | [_, _, _] => simp
        | r :: g :: b :: a :: rest => exact absurd rfl (hshort r g b a rest)
      rw [List.length_nil, Nat.div_eq_of_lt hlength]

/-- Bytes that fill their pixels are taken back from them. -/
theorem Pixel.flatMap_toRaw_ofRaw {raw : List UInt8} {n : Nat} (h : raw.length = n * 4) :
    (Pixel.ofRaw raw).flatMap Pixel.toRaw = raw := by
  fun_induction Pixel.ofRaw raw generalizing n with
  | case1 r g b a rest ih =>
      have hrest : rest.length = (n - 1) * 4 := by
        simp only [List.length_cons] at h
        omega
      rw [List.flatMap_cons, ih hrest]
      rfl
  | case2 raw hshort =>
      match raw with
      | [] => rfl
      | [_] | [_, _] | [_, _, _] =>
          simp only [List.length_cons, List.length_nil] at h
          omega
      | r :: g :: b :: a :: rest => exact absurd rfl (hshort r g b a rest)

namespace Picture

/-- A picture of one pixel. -/
def ofPixel (p : Pixel) : Picture :=
  ⟨1, 1, #[p], rfl⟩

/-- **The number of bytes of a picture.** -/
theorem length_toRaw (p : Picture) : p.toRaw.length = p.width * p.height * 4 := by
  rw [toRaw, List.length_flatMap]
  show (p.pixels.toList.map fun _ => 4).sum = _
  rw [List.map_const', List.sum_replicate_nat, Array.length_toList, p.size_pixels]

/-- **A picture is taken back from its bytes.** -/
theorem ofRaw?_toRaw (p : Picture) : ofRaw? p.width p.height p.toRaw = some p := by
  have hpixels : ((Pixel.ofRaw p.toRaw).take (p.width * p.height)).toArray = p.pixels := by
    rw [toRaw, Pixel.ofRaw_flatMap_toRaw, ← p.size_pixels, ← Array.length_toList,
      List.take_length]
  simp only [ofRaw?, hpixels, p.size_pixels, dite_true]

/-- **As many bytes as a picture has are the bytes of one.** -/
theorem exists_ofRaw? {width height : Nat} {raw : List UInt8}
    (h : raw.length = width * height * 4) : ∃ p, ofRaw? width height raw = some p ∧
      p.width = width ∧ p.height = height ∧ p.toRaw = raw := by
  have hlength : (Pixel.ofRaw raw).length = width * height := by
    rw [Pixel.length_ofRaw, h, Nat.mul_div_cancel _ (by decide)]
  have htake : (Pixel.ofRaw raw).take (width * height) = Pixel.ofRaw raw :=
    List.take_of_length_le (Nat.le_of_eq hlength)
  have hsize : (Pixel.ofRaw raw).toArray.size = width * height := hlength
  refine ⟨⟨width, height, (Pixel.ofRaw raw).toArray, hsize⟩, ?_, rfl, rfl, ?_⟩
  · simp only [ofRaw?, htake, hsize, dite_true]
  · exact Pixel.flatMap_toRaw_ofRaw h

/-- Fewer bytes than a picture has are none. -/
theorem ofRaw?_eq_none {width height : Nat} {raw : List UInt8}
    (h : raw.length < width * height * 4) : ofRaw? width height raw = none := by
  refine dif_neg fun hsize => ?_
  rw [List.size_toArray, List.length_take, Pixel.length_ofRaw] at hsize
  omega

end Picture

end CharacterArt
