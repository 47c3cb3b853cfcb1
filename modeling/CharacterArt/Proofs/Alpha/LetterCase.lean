import CharacterArt.Alpha.Matcher
import CharacterArt.Proofs.Alpha.Names

/-!
# Names in any letter case

The rules for masks look at the name of an image in lowercase.  Only the number at its end is taken
off before the name is lowercased.  That makes no difference: an underscore and digits are the
lowercase forms of nothing but themselves, and a capital sigma before an underscore ends a word, as it
does at the end of a text.

## Main Results

* `stripNumber_lowercase` — a number can be taken off before a name is lowercased, or afterwards
* `Matcher.find?_eq_of_lowercase_eq` — images with names of one lowercase form have one mask
-/

namespace CharacterArt.Alpha

open Text (lowercase lowerChar IsMark)

variable {name other base : String} {c : Char} {digits : List Char}

/-! ### Names without their number -/

/-- A number in a lowercase form is that of the text. -/
theorem isSettled_of_mem_number (hall : ∀ d ∈ digits, d.isDigit = true) (h : c ∈ '_' :: digits) :
    IsSettled c := by
  have hmark := isMark_of_mem_number hall h
  have hchar : lowerChar c = [c] := (isLower_of_mem_number hall h).2
  intro x form hform hc
  cases hform with
  | medial => exact absurd (List.mem_singleton.mp hc ▸ hmark) (by decide)
  | final => exact absurd (List.mem_singleton.mp hc ▸ hmark) (by decide)
  | plain hx =>
      obtain rfl := Text.eq_of_mem_lowerChar hmark hc
      have hascii : x.toNat < 0x80 := Nat.lt_of_le_of_lt hmark.2 (by decide)
      refine ⟨hchar, ?_⟩
      rwa [lowerChar, if_pos hascii, List.singleton_inj] at hchar

/-- **A number can be taken off before a name is lowercased, or afterwards.** -/
theorem stripNumber_lowercase (name : String) :
    stripNumber (lowercase name) = (stripNumber name).map lowercase := by
  cases hbase : stripNumber name with
  | some base =>
      obtain ⟨hne, digits, hdigits, hall, hname⟩ := stripNumber_eq_some_iff.mp hbase
      have hsplit : name = base ++ String.ofList ('_' :: digits) :=
        String.toList_inj.mp (by simpa using hname)
      refine stripNumber_eq_some_iff.mpr ⟨fun hnone => hne ?_, digits, hdigits, hall, ?_⟩
      · rwa [← String.toList_eq_nil_iff, lowercase, String.toList_ofList, Text.lowerFrom_eq_nil_iff,
          String.toList_eq_nil_iff] at hnone
      · rw [hsplit, lowercase_append_number hall, String.toList_append, String.toList_ofList]
  | none =>
      rw [Option.map_none, Option.eq_none_iff_forall_ne_some]
      intro form hform
      obtain ⟨hne, digits, hdigits, hall, hlower⟩ := stripNumber_eq_some_iff.mp hform
      rw [lowercase, String.toList_ofList] at hlower
      obtain ⟨front, back, hname, hback, hfront⟩ :=
        exists_of_lowerFrom (fun _ => isSettled_of_mem_number hall) hlower
      -- the underscore and the digits are the small letters of no other characters
      have hsame : back = '_' :: digits := by
        have hletters : back.map Char.toLower = back.map id :=
          List.map_congr_left fun x hx => by
            have hx' : x.toLower ∈ '_' :: digits := hback ▸ List.mem_map_of_mem hx
            exact (Text.eq_of_toLower_eq (isMark_of_mem_number hall hx') rfl).symm
        rw [← hback, hletters, List.map_id]
      subst hsame
      have hstripped : stripNumber name = some (String.ofList front) := by
        refine stripNumber_eq_some_iff.mpr ⟨fun hnone => hne ?_, digits, hdigits, hall, ?_⟩
        · rw [String.ofList_eq_empty_iff] at hnone
          exact String.toList_eq_nil_iff.mp (hfront.mpr hnone)
        · rw [hname, String.toList_ofList]
      rw [hbase] at hstripped
      cases hstripped

/-! ### Rules -/

namespace Matcher

variable {m : Matcher} {q q' : Query}

/-- What is found by a name depends on its lowercase form alone. -/
theorem byName_eq_of_lowercase_eq (h : lowercase name = lowercase other) (m : Matcher)
    (inGroup inCatalog : MatchRule) :
    m.byName name inGroup inCatalog = m.byName other inGroup inCatalog := by
  simp only [byName, maskNameFor, h]

/-- **Images whose names have one lowercase form have one mask**, found by one rule, if their numbers,
their outputs and what their requirements name are the same. -/
theorem find?_eq_of_lowercase_eq (m : Matcher) (hid : q.color.pathId = q'.color.pathId)
    (hexplicit : q.explicit = q'.explicit) (houtput : q.outputPath = q'.outputPath)
    (hname : lowercase q.color.name = lowercase q'.color.name) : m.find? q = m.find? q' := by
  have hrequirement : byRequirement q = byRequirement q' := by
    rw [byRequirement, byRequirement, hid, hexplicit]
  have hnumber : (stripNumber q.color.name).bind (m.byName · .numericSuffix .numericSuffix) =
      (stripNumber q'.color.name).bind (m.byName · .numericSuffix .numericSuffix) := by
    have hforms : (stripNumber q.color.name).map lowercase =
        (stripNumber q'.color.name).map lowercase := by
      rw [← stripNumber_lowercase, ← stripNumber_lowercase, hname]
    cases hbase : stripNumber q.color.name with
    | none =>
        rw [hbase, Option.map_none, eq_comm, Option.map_eq_none_iff] at hforms
        rw [hforms]
    | some base =>
        rw [hbase, Option.map_some, eq_comm, Option.map_eq_some_iff] at hforms
        obtain ⟨other, hother, hlower⟩ := hforms
        rw [hother, Option.bind_some, Option.bind_some, byName_eq_of_lowercase_eq hlower]
  simp only [find?, hrequirement, byName_eq_of_lowercase_eq hname, hnumber, houtput]

/-! ### A name in two letter cases

A mask of a Greek name, and an image of that name with a number.  The capital sigma before the number
ends a word. -/

namespace Greek

def mask : Asset :=
  ⟨4, "ΗΡΩΣ_Alpha", .texture, "art", "", default⟩

def matcher : Matcher where
  group := .ofList [mask]

def query (name : String) : Query where
  color := ⟨1, name, .texture, "art", "", default⟩
  outputPath := "a/hero.png"

end Greek

open Greek in
theorem find?_eq_of_lowercase_eq_greek : lowercase "ΗΡΩΣ_2" = lowercase "Ηρως_2" ∧
    matcher.find? (query "ΗΡΩΣ_2") = matcher.find? (query "Ηρως_2") ∧
    matcher.find? (query "Ηρως_2") = some ⟨.numericSuffix, .decoded mask⟩ := by
  have hname : lowercase "ΗΡΩΣ_2" = lowercase "Ηρως_2" := by decide +kernel
  exact ⟨hname, find?_eq_of_lowercase_eq matcher rfl rfl rfl hname, by decide +kernel⟩

end Matcher

end CharacterArt.Alpha
