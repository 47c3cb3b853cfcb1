import CharacterArt.Alpha.Group
import Mathlib.Data.List.Basic

/-!
# What a group of masks finds

A group is made from images one after another.  Under every name in lower case it keeps the masks of
that name in order, and an object that is there already is not kept twice.  If all objects differ,
then every mask is kept (`MaskGroup.Gathers`), and the first one of a name is the least.

## Main Definitions

* `Asset.IsSameObject` — two assets of one number from one bundle
* `MaskGroup.Gathers` — the invariant: what a group keeps of images that are all different objects
* `MaskCatalog.Draws` — a catalog holds records of a list

## Main Results

* `pairLe_iff` — the order of masks is that of their names, then of their bundles
* `MaskGroup.Gathers.insert`, `MaskGroup.gathers_ofList` — one more image, and a list of them
* `MaskGroup.Gathers.exists_find?_iff`, `MaskGroup.Gathers.le_of_find?` — whether a name is found,
  and that it is the least mask
* `MaskCatalog.mem_of_find?_ofRecords` — where the record of a mask comes from
-/

namespace CharacterArt

/-- Whether two assets are one object of a bundle. -/
def Asset.IsSameObject (a b : Asset) : Prop :=
  a.pathId = b.pathId ∧ a.bundle = b.bundle

instance (a b : Asset) : Decidable (a.IsSameObject b) :=
  inferInstanceAs (Decidable (_ ∧ _))

namespace Alpha

open Text (lowercase)

/-! ### The order of masks -/

/-- Pairs are compared by their first texts and then by their second ones. -/
theorem pairLe_iff {a b : String × String} :
    pairLe a b = true ↔ a.1 < b.1 ∨ a.1 = b.1 ∧ a.2 ≤ b.2 := by
  simp [pairLe]

theorem maskLe_iff {a b : Asset} :
    maskLe a b = true ↔ a.name < b.name ∨ a.name = b.name ∧ a.bundle ≤ b.bundle :=
  pairLe_iff

/-- An order that first looks at texts is transitive if what it looks at then is. -/
theorem lex_trans {a b c : String} {p q r : Prop} (hpq : p → q → r) (hab : a < b ∨ a = b ∧ p)
    (hbc : b < c ∨ b = c ∧ q) : a < c ∨ a = c ∧ r := by
  rcases hab with hab | ⟨rfl, hp⟩
  · rcases hbc with hbc | ⟨rfl, -⟩
    · exact .inl (String.lt_trans hab hbc)
    · exact .inl hab
  · exact hbc.imp_right fun ⟨heq, hq⟩ => ⟨heq, hpq hp hq⟩

/-- An order that first looks at texts is total if what it looks at then is. -/
theorem lex_total {a b : String} {p q : Prop} (hpq : p ∨ q) :
    (a < b ∨ a = b ∧ p) ∨ (b < a ∨ b = a ∧ q) := by
  by_cases hlt : a < b
  · exact .inl (.inl hlt)
  by_cases hgt : b < a
  · exact .inr (.inl hgt)
  have heq : a = b := String.le_antisymm (String.not_lt.mp hgt) (String.not_lt.mp hlt)
  exact hpq.imp (fun hp => .inr ⟨heq, hp⟩) fun hq => .inr ⟨heq.symm, hq⟩

theorem maskLe_trans {a b c : Asset} (hab : maskLe a b = true) (hbc : maskLe b c = true) :
    maskLe a c = true := by
  rw [maskLe_iff] at hab hbc ⊢
  exact lex_trans String.le_trans hab hbc

theorem maskLe_total (a b : Asset) : (maskLe a b || maskLe b a) = true := by
  rw [Bool.or_eq_true, maskLe_iff, maskLe_iff]
  exact lex_total (String.le_total a.bundle b.bundle)

namespace MaskGroup

variable {g : MaskGroup} {images rest : List Asset} {a image : Asset} {key name : String}

/-- The masks that a group keeps under a name in lower case. -/
def candidates (g : MaskGroup) (key : String) : List Asset :=
  (g.masks[key]?).getD []

/-- The first mask of a name is the first that is kept. -/
theorem find?_eq (g : MaskGroup) (name : String) :
    g.find? name = (g.candidates (lowercase name)).head? := by
  rw [find?, candidates]
  cases g.masks[lowercase name]? <;> rfl

/-- A group keeps the masks among some images under their names in lower case, in order. -/
structure Gathers (g : MaskGroup) (images : List Asset) : Prop where
  mem_iff : ∀ {key a}, a ∈ g.candidates key ↔
    a ∈ images ∧ a.isMask = true ∧ lowercase a.name = key
  sorted : ∀ key, (g.candidates key).Pairwise fun a b => maskLe a b = true

theorem gathers_nil : Gathers {} [] where
  mem_iff := by simp [candidates]
  sorted key := by simp [candidates]

/-- What is kept under a name after one more mask. -/
theorem candidates_insert (hmask : image.isMask = true) :
    (g.insert image).candidates key =
      if lowercase image.name = key then addTo image (g.candidates key) else g.candidates key := by
  rw [insert, if_pos hmask]
  unfold candidates
  rw [Std.TreeMap.getElem?_insert]
  by_cases hkey : lowercase image.name = key
  · subst hkey
    simp
  · simp [hkey]

theorem pairwise_mergeSort (images : List Asset) :
    (images.mergeSort maskLe).Pairwise fun a b => maskLe a b = true := by
  apply List.pairwise_mergeSort
  · intro a b c
    exact maskLe_trans
  · exact maskLe_total

/-- A new object is kept with the others in order. -/
theorem addTo_of_new {others : List Asset} (hnew : ∀ b ∈ others, ¬ b.IsSameObject image) :
    addTo image others = (others ++ [image]).mergeSort maskLe := by
  rw [addTo, if_neg]
  simpa [Asset.IsSameObject] using hnew

/-- An image that does not belong under a name changes nothing there. -/
theorem mem_append_iff_of_not (himage : ¬ (image.isMask = true ∧ lowercase image.name = key)) :
    (a ∈ images ∧ a.isMask = true ∧ lowercase a.name = key) ↔
      a ∈ images ++ [image] ∧ a.isMask = true ∧ lowercase a.name = key := by
  constructor
  · rintro ⟨hin, hunder⟩
    exact ⟨List.mem_append_left _ hin, hunder⟩
  · rintro ⟨hin, hunder⟩
    rcases List.mem_append.mp hin with hin | hin
    · exact ⟨hin, hunder⟩
    · rw [List.mem_singleton] at hin
      subst hin
      exact absurd hunder himage

/-- **One more image, which is another object than those before it.** -/
theorem Gathers.insert (h : g.Gathers images) (hnew : ∀ b ∈ images, ¬ b.IsSameObject image) :
    (g.insert image).Gathers (images ++ [image]) := by
  by_cases hmask : image.isMask = true
  · have hadd : ∀ key, addTo image (g.candidates key) =
        (g.candidates key ++ [image]).mergeSort maskLe := fun key =>
      addTo_of_new fun b hb => hnew b (h.mem_iff.mp hb).1
    constructor
    · intro key a
      rw [candidates_insert hmask]
      split
      · next hkey =>
          have himage : a ∈ [image] → a.isMask = true ∧ lowercase a.name = key := by
            intro ha
            rw [List.mem_singleton] at ha
            subst ha
            exact ⟨hmask, hkey⟩
          rw [hadd, List.mem_mergeSort, List.mem_append, List.mem_append, h.mem_iff, or_and_right,
            and_iff_left_of_imp himage]
      · next hkey =>
          have hother : ¬ (image.isMask = true ∧ lowercase image.name = key) := fun hunder =>
            hkey hunder.2
          rw [h.mem_iff]
          exact mem_append_iff_of_not hother
    · intro key
      rw [candidates_insert hmask]
      split
      · rw [hadd]
        exact pairwise_mergeSort _
      · exact h.sorted key
  · have hsame : g.insert image = g := if_neg hmask
    rw [hsame]
    refine ⟨fun {key a} => ?_, h.sorted⟩
    have hother : ¬ (image.isMask = true ∧ lowercase image.name = key) := fun hunder =>
      hmask hunder.1
    rw [h.mem_iff]
    exact mem_append_iff_of_not hother

/-- Images that are all different objects are gathered one after another. -/
theorem Gathers.foldl (h : g.Gathers images)
    (hdistinct : (images ++ rest).Pairwise fun a b => ¬ a.IsSameObject b) :
    (rest.foldl MaskGroup.insert g).Gathers (images ++ rest) := by
  induction rest generalizing g images with
  | nil => rwa [List.append_nil]
  | cons image rest ih =>
      have hnew : ∀ b ∈ images, ¬ b.IsSameObject image := fun b hb =>
        (List.pairwise_append.mp hdistinct).2.2 b hb image List.mem_cons_self
      rw [List.append_cons] at hdistinct ⊢
      exact ih (h.insert hnew) hdistinct

/-- **The group of images that are all different objects keeps the masks among them.** -/
theorem gathers_ofList (hdistinct : images.Pairwise fun a b => ¬ a.IsSameObject b) :
    (ofList images).Gathers images :=
  gathers_nil.foldl hdistinct

/-- **A name is found exactly if there is a mask of it.** -/
theorem Gathers.exists_find?_iff (h : g.Gathers images) :
    (∃ a, g.find? name = some a) ↔
      ∃ a ∈ images, a.isMask = true ∧ lowercase a.name = lowercase name := by
  have hnil : g.candidates (lowercase name) ≠ [] ↔ ∃ a, a ∈ g.candidates (lowercase name) :=
    ⟨List.exists_mem_of_ne_nil _, fun ⟨_, ha⟩ => List.ne_nil_of_mem ha⟩
  rw [← Option.isSome_iff_exists, find?_eq, List.isSome_head?, hnil]
  exact exists_congr fun a => h.mem_iff

/-- **What is found is the least mask of the name.** -/
theorem Gathers.le_of_find? (h : g.Gathers images) (hfind : g.find? name = some a) :
    (a ∈ images ∧ a.isMask = true ∧ lowercase a.name = lowercase name) ∧
      ∀ b ∈ images, b.isMask = true → lowercase b.name = lowercase name → maskLe a b = true := by
  rw [find?_eq] at hfind
  refine ⟨h.mem_iff.mp (List.mem_of_mem_head? hfind), fun b hb hmask hname => ?_⟩
  have hmem : b ∈ g.candidates (lowercase name) := h.mem_iff.mpr ⟨hb, hmask, hname⟩
  have hsorted := h.sorted (lowercase name)
  cases hlist : g.candidates (lowercase name) with
  | nil =>
      rw [hlist] at hmem
      exact absurd hmem List.not_mem_nil
  | cons first others =>
      rw [hlist] at hfind hmem hsorted
      obtain rfl : first = a := Option.some.inj hfind
      rcases List.mem_cons.mp hmem with rfl | hlater
      · simpa using maskLe_total b b
      · exact (List.pairwise_cons.mp hsorted).1 b hlater

end MaskGroup

/-! ### Records of masks -/

namespace MaskCatalog

variable {catalog : MaskCatalog} {known rest : List Record} {r : Record}

/-- A catalog holds records of a list. -/
def Draws (catalog : MaskCatalog) (known : List Record) : Prop :=
  ∀ (key : String) (candidates : List Record), catalog.masks[key]? = some candidates →
    ∀ r ∈ candidates, r ∈ known

theorem Draws.insert (h : catalog.Draws known) (r : Record) :
    (catalog.insert r).Draws (known ++ [r]) := by
  unfold MaskCatalog.insert
  split
  · intro key candidates hkey x hx
    rw [Std.TreeMap.getElem?_insert] at hkey
    split at hkey
    · cases hkey
      rcases List.mem_append.mp hx with hx | hx
      · cases hold : catalog.masks[lowercase r.name]? with
        | none => simp [hold] at hx
        | some others =>
            rw [hold, Option.getD_some] at hx
            exact List.mem_append_left _ (h _ others hold x hx)
      · exact List.mem_append_right _ hx
    · exact List.mem_append_left _ (h key candidates hkey x hx)
  · intro key candidates hkey x hx
    exact List.mem_append_left _ (h key candidates hkey x hx)

theorem Draws.foldl (h : catalog.Draws known) :
    (rest.foldl MaskCatalog.insert catalog).Draws (known ++ rest) := by
  induction rest generalizing catalog known with
  | nil => rwa [List.append_nil]
  | cons r rest ih =>
      rw [List.append_cons]
      exact ih (h.insert r)

/-- **What a catalog finds is one of the records that it was made of.** -/
theorem mem_of_find?_ofRecords {name : String} (h : (ofRecords known).find? name = some r) :
    r ∈ known := by
  have hdraws : (ofRecords known).Draws known := by
    have hnone : Draws {} [] := fun key candidates hkey => by simp at hkey
    exact hnone.foldl
  obtain ⟨candidates, hcandidates, hhead⟩ := Option.bind_eq_some_iff.mp h
  exact hdraws _ candidates hcandidates r (List.mem_mergeSort.mp (List.mem_of_mem_head? hhead))

end MaskCatalog

end Alpha

end CharacterArt
