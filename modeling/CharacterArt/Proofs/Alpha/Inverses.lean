import CharacterArt.Proofs.Alpha.Names
import CharacterArt.Proofs.Text.Utf8

/-!
# From a name to the other one and back

The name of a mask leads to that of its image and back, but for the letter case, which the name of a
mask does not keep.  What is cut off is ASCII, so a name can be cut at a number of bytes, and a capital
sigma at the end of the image's name ends a word with the marker behind it as without.

## Main Definitions

* `IsMarker` — the marker in some letter case
* `IsNumbered` — a name of a base, an underscore and a number

## Main Results

* `IsMarker.lowercase_append` — the lowercase form of a mask's name
* `IsNumbered.unique` — a name has a base and a number in one way only
* `names_exact` — what the helpers for names give, and how they undo each other
-/

namespace CharacterArt

namespace Text

/-- ASCII characters are lowercased one by one. -/
theorem lowerFrom_of_forall_ascii {before cs : List Char} (h : ∀ c ∈ cs, c.toNat < 0x80) :
    lowerFrom before cs = cs.map Char.toLower := by
  induction cs generalizing before with
  | nil => rfl
  | cons c rest ih =>
      obtain ⟨hc, hrest⟩ := List.forall_mem_cons.mp h
      have hsigma : c ≠ 'Σ' := by
        rintro rfl
        exact absurd hc (by decide)
      rw [lowerFrom, if_neg hsigma, lowerChar, if_pos hc, ih hrest]
      rfl

end Text

namespace Alpha

open Text (lowercase lowerFrom)

variable {name base base' digits digits' tail tail' color : String} {c : Char}

/-! ### The marker -/

/-- A text is the marker, in some letter case. -/
def IsMarker (tail : String) : Prop :=
  tail.toList.map Char.toLower = marker

theorem IsMarker.ascii (h : IsMarker tail) (hc : c ∈ tail.toList) : c.toNat < 0x80 := by
  have hletters : ∀ m ∈ marker, m.toNat < 0x80 := Text.forall_mem_of_all (by decide)
  have hsmall := hletters c.toLower (h ▸ List.mem_map_of_mem hc)
  rcases Text.toLower_cases c with ⟨hsame, -⟩ | ⟨-, hgreatest, -⟩
  · rwa [hsame] at hsmall
  · omega

/-- The marker starts with an underscore, which has no letter case. -/
theorem IsMarker.exists_rest (h : IsMarker tail) : ∃ rest, tail.toList = '_' :: rest := by
  obtain ⟨c, rest, htail, hc, -⟩ := List.map_eq_cons_iff.mp h
  obtain rfl := Text.eq_of_toLower_eq (show Text.IsMark '_' by decide) hc
  exact ⟨rest, htail⟩

/-- **The name of a mask is lowercased as that of its image and the marker.** -/
theorem IsMarker.lowercase_append (h : IsMarker tail) (name : String) :
    lowercase (name ++ tail) = lowercase name ++ String.ofList marker := by
  obtain ⟨rest, hrest⟩ := h.exists_rest
  have hmarker : ∀ before, lowerFrom before ('_' :: rest) = marker := fun before => by
    rw [Text.lowerFrom_of_forall_ascii (hrest ▸ fun _ => h.ascii), ← hrest]
    exact h
  rw [lowercase, lowercase, String.toList_append, hrest,
    Text.lowerFrom_append (by decide) (by decide), hmarker, String.ofList_append]

/-- A text that is the marker in some letter case has a byte for each character. -/
theorem IsMarker.utf8ByteSize_eq (h : IsMarker tail) : tail.utf8ByteSize = marker.length := by
  have hones : tail.toList.map (fun c => (Text.Utf8.encodeChar c).length) =
      tail.toList.map fun _ => 1 :=
    List.map_congr_left fun c hc => (Text.Utf8.length_encodeChar c).trans
      (Char.utf8Size_eq_one_iff.mpr (Nat.le_of_lt_succ (h.ascii hc)))
  rw [← Text.Utf8.length_encode, Text.Utf8.encode, List.length_flatMap, hones, List.map_const',
    List.sum_replicate_nat, Nat.mul_one, ← h, List.length_map]

theorem isMarker_marker : IsMarker (String.ofList marker) := by
  rw [IsMarker, String.toList_ofList]
  decide

/-- A text is cut at a number of bytes in one way only. -/
theorem eq_of_append_eq {front front' : String} (h : front ++ tail = front' ++ tail')
    (hsize : tail.utf8ByteSize = tail'.utf8ByteSize) : front = front' ∧ tail = tail' := by
  have hnone : ∀ {middle : List Char} {s t : String}, s.toList = middle ++ t.toList →
      s.utf8ByteSize = t.utf8ByteSize → middle = [] := by
    intro middle s t hs hbytes
    have hsplit : s = String.ofList middle ++ t := String.toList_inj.mp (by simpa using hs)
    rw [hsplit, String.utf8ByteSize_append, Nat.add_eq_right, String.utf8ByteSize_eq_zero_iff,
      String.ofList_eq_empty_iff] at hbytes
    exact hbytes
  rw [← String.toList_inj, String.toList_append, String.toList_append,
    List.append_eq_append_iff] at h
  rcases h with ⟨middle, hfront, htail⟩ | ⟨middle, hfront, htail⟩
  · obtain rfl := hnone htail hsize
    exact ⟨String.toList_inj.mp (by simpa using hfront.symm), String.toList_inj.mp htail⟩
  · obtain rfl := hnone htail hsize.symm
    exact ⟨String.toList_inj.mp (by simpa using hfront), String.toList_inj.mp htail.symm⟩

theorem colorNameFor_eq_some_iff_isMarker : colorNameFor name = some color ↔
    color ≠ "" ∧ ∃ tail, IsMarker tail ∧ name = color ++ tail := by
  rw [colorNameFor_eq_some_iff]
  refine and_congr_right fun _ => ⟨?_, ?_⟩
  · rintro ⟨tail, htail, hname⟩
    refine ⟨String.ofList tail, by rwa [IsMarker, String.toList_ofList], ?_⟩
    exact String.toList_inj.mp (by simpa using hname)
  · rintro ⟨tail, htail, rfl⟩
    exact ⟨tail.toList, htail, String.toList_append⟩

/-! ### Numbers -/

/-- A name is a base, an underscore and an ASCII number. -/
structure IsNumbered (name base digits : String) : Prop where
  base_ne : base ≠ ""
  digits_ne : digits ≠ ""
  isDigit : ∀ d ∈ digits.toList, d.isDigit = true
  name_eq : name = base ++ "_" ++ digits

theorem stripNumber_eq_some_iff_isNumbered : stripNumber name = some base ↔
    ∃ digits, IsNumbered name base digits := by
  rw [stripNumber_eq_some_iff]
  constructor
  · rintro ⟨hbase, digits, hdigits, hall, hname⟩
    refine ⟨String.ofList digits, hbase, ?_, by rwa [String.toList_ofList], ?_⟩
    · rwa [ne_eq, String.ofList_eq_empty_iff]
    · exact String.toList_inj.mp (by simpa using hname)
  · rintro ⟨digits, hbase, hdigits, hall, rfl⟩
    exact ⟨hbase, digits.toList, mt String.toList_eq_nil_iff.mp hdigits, hall, by simp⟩

/-- **A name has a base and a number in one way only.** -/
theorem IsNumbered.unique (h : IsNumbered name base digits) (h' : IsNumbered name base' digits') :
    base = base' ∧ digits = digits' := by
  have hbase : base = base' := by
    have hstrip := stripNumber_eq_some_iff_isNumbered.mpr ⟨digits, h⟩
    rw [stripNumber_eq_some_iff_isNumbered.mpr ⟨digits', h'⟩] at hstrip
    exact (Option.some.inj hstrip).symm
  subst hbase
  have hname := congrArg String.toList (h.name_eq.symm.trans h'.name_eq)
  rw [String.toList_append, String.toList_append (t := digits')] at hname
  exact ⟨rfl, String.toList_inj.mp (List.append_cancel_left hname)⟩

/-! ### There and back -/

/-- The name of a mask that is cut as many bytes before its end as the marker has. -/
theorem isMaskName_append_iff {front : String} (hsize : tail.utf8ByteSize = marker.length) :
    isMaskName (front ++ tail) = true ↔ front ≠ "" ∧ IsMarker tail := by
  rw [isMaskName, Option.isSome_iff_exists]
  constructor
  · rintro ⟨color, hcolor⟩
    obtain ⟨hne, tail', htail', hname⟩ := colorNameFor_eq_some_iff_isMarker.mp hcolor
    obtain ⟨rfl, rfl⟩ := eq_of_append_eq hname (hsize.trans htail'.utf8ByteSize_eq.symm)
    exact ⟨hne, htail'⟩
  · rintro ⟨hne, htail⟩
    exact ⟨front, colorNameFor_eq_some_iff_isMarker.mpr ⟨hne, tail, htail, rfl⟩⟩

/-- From an image to its mask and back. -/
theorem colorNameFor_maskNameFor (hname : name ≠ "") :
    colorNameFor (maskNameFor name) = some (lowercase name) := by
  refine colorNameFor_eq_some_iff_isMarker.mpr ⟨fun hnone => hname ?_, _, isMarker_marker, rfl⟩
  rwa [← String.toList_eq_nil_iff, lowercase, String.toList_ofList, Text.lowerFrom_eq_nil_iff,
    String.toList_eq_nil_iff] at hnone

/-- From a mask to its image and back. -/
theorem maskNameFor_of_colorNameFor (h : colorNameFor name = some color) :
    maskNameFor color = lowercase name := by
  obtain ⟨-, tail, htail, rfl⟩ := colorNameFor_eq_some_iff_isMarker.mp h
  rw [maskNameFor, htail.lowercase_append]

/-- **The helpers for names undo each other.**  The image of a mask has the name before the marker, in
whichever letter case that is, and a cut at bytes finds it.  From an image to its mask and back, and
from a mask to its image and back, leads to the lowercase form of the name.  A number is taken off in
the one way there is. -/
theorem names_exact (name : String) :
    (∀ color, colorNameFor name = some color ↔
        color ≠ "" ∧ ∃ tail, IsMarker tail ∧ name = color ++ tail) ∧
      (∀ front tail, name = front ++ tail → tail.utf8ByteSize = marker.length →
        (isMaskName name = true ↔ front ≠ "" ∧ IsMarker tail)) ∧
      (name ≠ "" → colorNameFor (maskNameFor name) = some (lowercase name)) ∧
      (∀ color, colorNameFor name = some color → maskNameFor color = lowercase name) ∧
      (∀ base, stripNumber name = some base ↔ ∃ digits, IsNumbered name base digits) ∧
      ∀ base digits base' digits', IsNumbered name base digits → IsNumbered name base' digits' →
        base = base' ∧ digits = digits' := by
  refine ⟨fun _ => colorNameFor_eq_some_iff_isMarker, ?_, colorNameFor_maskNameFor,
    fun _ => maskNameFor_of_colorNameFor, fun _ => stripNumber_eq_some_iff_isNumbered,
    fun _ _ _ _ => IsNumbered.unique⟩
  rintro front tail rfl hsize
  exact isMaskName_append_iff hsize

end Alpha

end CharacterArt
