import CharacterArt.Alpha.Matcher
import CharacterArt.Proofs.Alpha.Group
import CharacterArt.Proofs.Alpha.Names
import Mathlib.Data.List.Induction

/-!
# The rules for masks as scans

Masks are kept under their names in lowercase, in order, and an object that is there already is not
kept twice.  All this is about speed.  What the rules find is what one scan through the masks finds
that were put in, and then one through the records: the first of the least with the right name.

## Main Definitions

* `leastOf` — the first of the least items of a list
* `MaskGroup.Ranks` — the invariant: the first mask of a name that a group keeps is the least one
* `Stock`, `Stock.scan` — masks and records as they came, and the rules on them

## Main Results

* `head?_mergeSort` — the head of a sorted list is the first of its least items
* `MaskGroup.ranks_ofList`, `MaskCatalog.find?_ofRecords` — groups and catalogs find what a scan finds
* `Stock.find?_eq_scan` — and so do the rules
-/

namespace CharacterArt.Alpha

open Text (lowercase)

/-! ### Scans -/

section Scans

variable {α : Type} {le : α → α → Bool} {xs : List α} {a b c : α}

/-- The first of two items, unless the second one stands strictly before it. -/
def better (le : α → α → Bool) (a b : α) : α :=
  if le a b then a else b

/-- The first of the least items of a list: the best one so far is given up for a better one. -/
def leastOf (le : α → α → Bool) (xs : List α) : Option α :=
  xs.foldl (fun best x => some (best.elim x (better le · x))) none

theorem leastOf_append_singleton (le : α → α → Bool) (xs : List α) (x : α) :
    leastOf le (xs ++ [x]) = some ((leastOf le xs).elim x (better le · x)) := by
  rw [leastOf, List.foldl_append]
  rfl

theorem leastOf_eq_none_iff : leastOf le xs = none ↔ xs = [] := by
  induction xs using List.reverseRecOn with
  | nil => exact iff_of_true rfl rfl
  | append_singleton xs x _ =>
      rw [leastOf_append_singleton]
      exact iff_of_false (Option.some_ne_none _) (List.append_ne_nil_of_right_ne_nil xs (by simp))

/-- What a scan finds is in the list. -/
theorem mem_of_leastOf (h : leastOf le xs = some a) : a ∈ xs := by
  induction xs using List.reverseRecOn generalizing a with
  | nil => cases h
  | append_singleton xs x ih =>
      rw [leastOf_append_singleton, Option.some.injEq] at h
      rw [List.mem_append, List.mem_singleton]
      cases hbest : leastOf le xs with
      | none =>
          rw [hbest] at h
          exact .inr h.symm
      | some best =>
          rw [hbest, Option.elim_some, better] at h
          split at h
          · exact .inl (ih (h ▸ hbest))
          · exact .inr h.symm

variable (htrans : ∀ a b c, le a b = true → le b c = true → le a c = true)
  (htotal : ∀ a b, (le a b || le b a) = true)

include htrans htotal

theorem better_assoc (a b c : α) : better le a (better le b c) = better le (better le a b) c := by
  unfold better
  by_cases hab : le a b = true
  · by_cases hbc : le b c = true
    · rw [if_pos hbc, if_pos hab, if_pos (htrans a b c hab hbc)]
    · rw [if_neg hbc, if_pos hab]
  · by_cases hbc : le b c = true
    · rw [if_pos hbc, if_neg hab, if_pos hbc]
    · -- if `a` stood before `c`, then it would stand before `b`
      have hac : ¬ le a c = true := by
        intro hac
        rcases Bool.or_eq_true_iff.mp (htotal b c) with hbc' | hcb
        · exact hbc hbc'
        · exact hab (htrans a c b hac hcb)
      rw [if_neg hbc, if_neg hab, if_neg hbc, if_neg hac]

/-- The head of a sorted list that starts with `a` is `a` or the head of the rest. -/
theorem head?_mergeSort_cons (a : α) (xs : List α) :
    ((a :: xs).mergeSort le).head? = some ((xs.mergeSort le).head?.elim a (better le a)) := by
  obtain ⟨front, back, hsorted, hrest, hfront⟩ := List.mergeSort_cons htrans htotal a xs
  have hpairwise := List.pairwise_mergeSort htrans htotal (a :: xs)
  rw [hsorted] at hpairwise ⊢
  rw [hrest]
  cases front with
  | nil =>
      cases back with
      | nil => rfl
      | cons b back =>
          have hab := (List.pairwise_cons.mp hpairwise).1 b List.mem_cons_self
          simp [better, hab]
  | cons b front =>
      have hab := hfront b List.mem_cons_self
      rw [Bool.not_eq_true'] at hab
      simp [better, hab]

/-- **The head of a sorted list is the first of its least items.** -/
theorem head?_mergeSort (xs : List α) : (xs.mergeSort le).head? = leastOf le xs := by
  -- a scan that goes on from `a` finds the head of the list that starts with `a`
  have hscan : ∀ (xs : List α) (a : α), ((a :: xs).mergeSort le).head? =
      xs.foldl (fun best x => some (best.elim x (better le · x))) (some a) := by
    intro xs
    induction xs with
    | nil => intro a; rw [List.mergeSort_singleton]; rfl
    | cons x xs ih =>
        intro a
        rw [List.foldl_cons, Option.elim_some, ← ih, head?_mergeSort_cons htrans htotal,
          head?_mergeSort_cons htrans htotal, head?_mergeSort_cons htrans htotal, Option.elim_some]
        cases (xs.mergeSort le).head? with
        | none => rfl
        | some y => exact congrArg some (better_assoc htrans htotal a x y)
  cases xs with
  | nil => rw [List.mergeSort_nil]; rfl
  | cons a xs => exact hscan xs a

/-- **What a scan finds stands in the list, nothing before it is as good, and nothing after it is
better.** -/
theorem split_of_leastOf (h : leastOf le xs = some a) : ∃ front back, xs = front ++ a :: back ∧
    (∀ b ∈ front, le b a = false) ∧ ∀ b ∈ back, le a b = true := by
  induction xs using List.reverseRecOn generalizing a with
  | nil => cases h
  | append_singleton xs x ih =>
      rw [leastOf_append_singleton, Option.some.injEq] at h
      cases hbest : leastOf le xs with
      | none =>
          rw [hbest] at h
          obtain rfl : x = a := h
          obtain rfl := leastOf_eq_none_iff.mp hbest
          exact ⟨[], [], rfl, by simp, by simp⟩
      | some best =>
          obtain ⟨front, back, rfl, hfront, hback⟩ := ih hbest
          rw [hbest, Option.elim_some, better] at h
          split at h
          · next hle =>
              subst h
              refine ⟨front, back ++ [x], by simp, hfront, fun b hb => ?_⟩
              rcases List.mem_append.mp hb with hb | hb
              · exact hback b hb
              · rwa [List.mem_singleton.mp hb]
          · next hgt =>
              subst h
              refine ⟨front ++ best :: back, [], rfl, fun b hb => ?_, by simp⟩
              -- what stands before the new item would let the best one so far stand before it too
              have hbest : le best b = true := by
                rcases List.mem_append.mp hb with hb | hb
                · have hnot := hfront b hb
                  have htot := htotal best b
                  simp_all
                · rcases List.mem_cons.mp hb with rfl | hb
                  · simpa using htotal b b
                  · exact hback b hb
              rw [Bool.eq_false_iff]
              exact fun hle => hgt (htrans best b x hbest hle)

/-- What a scan finds is least. -/
theorem le_of_leastOf (h : leastOf le xs = some a) (hb : b ∈ xs) : le a b = true := by
  obtain ⟨front, back, rfl, hfront, hback⟩ := split_of_leastOf htrans htotal h
  rcases List.mem_append.mp hb with hb | hb
  · simpa [hfront b hb] using htotal a b
  · rcases List.mem_cons.mp hb with rfl | hb
    · simpa using htotal b b
    · exact hback b hb

end Scans

/-! ### Records -/

section Records

variable {r r' r'' : Record}

/-- Records are compared by their names, then by their bundles, then by their numbers. -/
theorem recordLe_iff : recordLe r r' = true ↔ r.name < r'.name ∨ r.name = r'.name ∧
    (r.bundle < r'.bundle ∨ r.bundle = r'.bundle ∧ r.pathId ≤ r'.pathId) := by
  unfold recordLe
  split
  · next hsame =>
      obtain ⟨hname, hbundle⟩ := hsame
      simp [hname, hbundle]
  · next hdiffers =>
      rw [pairLe_iff]
      refine or_congr_right (and_congr_right fun hname => ?_)
      have hbundle : r.bundle ≠ r'.bundle := fun hbundle => hdiffers ⟨hname, hbundle⟩
      rw [or_iff_left fun hboth => hbundle hboth.1]
      exact ⟨fun hle => Std.lt_of_le_of_ne hle hbundle, Std.le_of_lt⟩

theorem recordLe_trans (h : recordLe r r' = true) (h' : recordLe r' r'' = true) :
    recordLe r r'' = true := by
  rw [recordLe_iff] at h h' ⊢
  exact lex_trans (lex_trans Int64.le_trans) h h'

theorem recordLe_total (r r' : Record) : (recordLe r r' || recordLe r' r) = true := by
  rw [Bool.or_eq_true, recordLe_iff, recordLe_iff]
  exact lex_total (lex_total (Int64.le_total r.pathId r'.pathId))

end Records

/-! ### Groups -/

namespace MaskGroup

variable {g : MaskGroup} {images rest : List Asset} {a image : Asset} {key name : String}

/-- The masks of a name in lowercase among some images. -/
def under (key : String) (images : List Asset) : List Asset :=
  images.filter fun a => a.isMask && lowercase a.name == key

theorem mem_under : a ∈ under key images ↔
    a ∈ images ∧ a.isMask = true ∧ lowercase a.name = key := by
  rw [under, List.mem_filter, Bool.and_eq_true, beq_iff_eq]

/-- A group keeps masks among some images in order, and the first one of every name is the first of
the least. -/
structure Ranks (g : MaskGroup) (images : List Asset) : Prop where
  mem : ∀ {key a}, a ∈ g.candidates key → a ∈ under key images
  sorted : ∀ key, (g.candidates key).Pairwise fun a b => maskLe a b = true
  head? : ∀ key, (g.candidates key).head? = leastOf maskLe (under key images)

theorem ranks_nil : Ranks {} [] where
  mem h := by simp [candidates] at h
  sorted key := by simp [candidates]
  head? key := by simp [candidates, under, leastOf]

theorem head?_mergeSort_maskLe (images : List Asset) :
    (images.mergeSort maskLe).head? = leastOf maskLe images := by
  apply head?_mergeSort
  · intro a b c
    exact maskLe_trans
  · exact maskLe_total

/-- A list in order is led by the first of its least masks. -/
theorem head?_of_sorted (h : images.Pairwise fun a b => maskLe a b = true) :
    images.head? = leastOf maskLe images := by
  rw [← head?_mergeSort_maskLe, List.mergeSort_of_pairwise h]

theorem mem_of_mem_addTo (h : a ∈ addTo image images) : a ∈ images ∨ a = image := by
  rw [addTo] at h
  split at h
  · exact .inl h
  · rwa [List.mem_mergeSort, List.mem_append, List.mem_singleton] at h

theorem pairwise_addTo (h : images.Pairwise fun a b => maskLe a b = true) :
    (addTo image images).Pairwise fun a b => maskLe a b = true := by
  rw [addTo]
  split
  · exact h
  · exact pairwise_mergeSort _

/-- One more mask leads the others if it is better than the first of the least.  A mask that is
there already is not. -/
theorem head?_addTo (hsorted : images.Pairwise fun a b => maskLe a b = true)
    (hsame : ∀ b ∈ images, b.IsSameObject image → b = image) :
    (addTo image images).head? = some (images.head?.elim image (better maskLe · image)) := by
  rw [addTo]
  split
  · next hthere =>
      obtain ⟨b, hb, hobject⟩ := List.any_eq_true.mp hthere
      obtain rfl : b = image := hsame b hb (by simpa [Asset.IsSameObject] using hobject)
      cases images with
      | nil => exact absurd hb List.not_mem_nil
      | cons first others =>
          have hle : maskLe first b = true := by
            rcases List.mem_cons.mp hb with rfl | hlater
            · simpa using maskLe_total b b
            · exact (List.pairwise_cons.mp hsorted).1 b hlater
          simp [better, hle]
  · rw [head?_mergeSort_maskLe, leastOf_append_singleton, head?_of_sorted hsorted]

/-- **One more image.**  If its object is there already, then it is the same image. -/
theorem Ranks.insert (h : g.Ranks images)
    (hsame : ∀ b ∈ images, b.isMask = true → image.isMask = true → b.IsSameObject image →
      b = image) : (g.insert image).Ranks (images ++ [image]) := by
  by_cases hmask : image.isMask = true
  · have hunder : ∀ key, under key (images ++ [image]) =
        if lowercase image.name = key then under key images ++ [image] else under key images := by
      intro key
      rw [under, List.filter_append]
      split <;> simp_all [under]
    constructor
    · intro key a ha
      rw [candidates_insert hmask] at ha
      rw [hunder]
      split at ha
      · next hkey =>
          rw [if_pos hkey, List.mem_append, List.mem_singleton]
          rcases mem_of_mem_addTo ha with ha | ha
          · exact .inl (h.mem ha)
          · exact .inr ha
      · next hkey =>
          rw [if_neg hkey]
          exact h.mem ha
    · intro key
      rw [candidates_insert hmask]
      split
      · exact pairwise_addTo (h.sorted key)
      · exact h.sorted key
    · intro key
      rw [candidates_insert hmask, hunder]
      split
      · next hkey =>
          rw [leastOf_append_singleton, ← h.head? key]
          refine head?_addTo (h.sorted key) fun b hb => ?_
          obtain ⟨hin, hmask', -⟩ := mem_under.mp (h.mem hb)
          exact hsame b hin hmask' hmask
      · exact h.head? key
  · have hunder : ∀ key, under key (images ++ [image]) = under key images := by
      intro key
      rw [under, List.filter_append]
      simp [under, hmask]
    have hleft : g.insert image = g := if_neg hmask
    rw [hleft]
    refine ⟨fun {key a} ha => ?_, h.sorted, fun key => ?_⟩
    · rw [hunder]
      exact h.mem ha
    · rw [hunder]
      exact h.head? key

/-- Images are ranked one after another. -/
theorem Ranks.foldl (h : g.Ranks images)
    (hsame : ∀ a ∈ images ++ rest, ∀ b ∈ images ++ rest, a.isMask = true → b.isMask = true →
      a.IsSameObject b → a = b) :
    (rest.foldl MaskGroup.insert g).Ranks (images ++ rest) := by
  induction rest generalizing g images with
  | nil => rwa [List.append_nil]
  | cons image rest ih =>
      have himage : image ∈ images ++ image :: rest :=
        List.mem_append_right _ List.mem_cons_self
      have hinsert := h.insert fun b hb hmask hmask' hobject =>
        hsame b (List.mem_append_left _ hb) image himage hmask hmask' hobject
      rw [List.append_cons] at hsame ⊢
      exact ih hinsert hsame

/-- **A group finds what a scan finds**, if masks of one object are the same. -/
theorem ranks_ofList (hsame : ∀ a ∈ images, ∀ b ∈ images, a.isMask = true → b.isMask = true →
    a.IsSameObject b → a = b) : (ofList images).Ranks images :=
  ranks_nil.foldl hsame

theorem Ranks.find?_eq (h : g.Ranks images) (name : String) :
    g.find? name = leastOf maskLe (under (lowercase name) images) := by
  rw [MaskGroup.find?_eq, h.head?]

end MaskGroup

/-! ### Catalogs -/

namespace MaskCatalog

variable {catalog : MaskCatalog} {records rest : List Record} {key name : String}

/-- The records of masks of a name in lowercase. -/
def under (key : String) (records : List Record) : List Record :=
  records.filter fun r => isMaskName r.name && lowercase r.name == key

/-- A catalog keeps the records of masks under their names in lowercase, as they came. -/
def Keeps (catalog : MaskCatalog) (records : List Record) : Prop :=
  ∀ key, (catalog.masks[key]?).getD [] = under key records

theorem Keeps.insert (h : catalog.Keeps records) (r : Record) :
    (catalog.insert r).Keeps (records ++ [r]) := by
  intro key
  rw [under, List.filter_append, ← under, ← h key, MaskCatalog.insert]
  by_cases hmask : isMaskName r.name = true
  · rw [if_pos hmask, Std.TreeMap.getElem?_insert]
    by_cases hkey : lowercase r.name = key
    · subst hkey
      simp [hmask]
    · simp [hmask, hkey]
  · rw [if_neg hmask]
    simp [hmask]

theorem Keeps.foldl (h : catalog.Keeps records) :
    (rest.foldl MaskCatalog.insert catalog).Keeps (records ++ rest) := by
  induction rest generalizing catalog records with
  | nil => rwa [List.append_nil]
  | cons r rest ih =>
      rw [List.append_cons]
      exact ih (h.insert r)

theorem keeps_ofRecords (records : List Record) : (ofRecords records).Keeps records := by
  have hnone : Keeps {} [] := fun key => by simp [under]
  exact hnone.foldl

/-- **A catalog finds what a scan finds.** -/
theorem find?_ofRecords (records : List Record) (name : String) :
    (ofRecords records).find? name = leastOf recordLe (under (lowercase name) records) := by
  have hsort : ∀ records : List Record,
      (records.mergeSort recordLe).head? = leastOf recordLe records := by
    intro records
    apply head?_mergeSort
    · intro r r' r''
      exact recordLe_trans
    · exact recordLe_total
  rw [find?, ← keeps_ofRecords records (lowercase name), ← hsort]
  cases (ofRecords records).masks[lowercase name]? with
  | none => simp
  | some candidates => rfl

end MaskCatalog

/-! ### Rules as scans -/

/-- What masks are looked for in, as it came: decoded images, records of the index, overrides. -/
structure Stock where
  images : List Asset
  records : List Record
  overrides : OverrideTable

namespace Stock

/-- What the rules look at. -/
def matcher (s : Stock) : Matcher :=
  ⟨MaskGroup.ofList s.images, MaskCatalog.ofRecords s.records, s.overrides⟩

/-- A stock without the images and the records that are not those of masks. -/
def onlyMasks (s : Stock) : Stock where
  images := s.images.filter (·.isMask)
  records := s.records.filter fun r => isMaskName r.name
  overrides := s.overrides

/-- The mask of an image by its name: the least image, or else the least record, that carries the
name of the image and the marker, in lowercase. -/
def scanName (s : Stock) (name : String) (inGroup inCatalog : MatchRule) : Option MaskMatch :=
  let maskName := lowercase name ++ String.ofList marker
  match leastOf maskLe (s.images.filter fun a => lowercase a.name == maskName) with
  | some mask => some ⟨inGroup, .decoded mask⟩
  | none =>
    (leastOf recordLe (s.records.filter fun r => lowercase r.name == maskName)).map fun record =>
      ⟨inCatalog, .indexed record⟩

/-- The rules, by scans through the whole stock. -/
def scan (s : Stock) (q : Query) : Option MaskMatch :=
  (q.explicit.bind fun mask =>
    if mask.isMask ∧ mask.pathId ≠ q.color.pathId then some ⟨.requirement, .decoded mask⟩
    else none).or <|
  (s.scanName q.color.name .group .catalog).or <|
  ((stripNumber q.color.name).bind fun base =>
    s.scanName base .numericSuffix .numericSuffix).or <|
  (s.overrides.find? q.outputPath).map fun
    | .asset name => ⟨.override, .named name⟩
    | .output path => ⟨.override, .output path⟩

end Stock

/-- The name of the image or the record that a rule found. -/
def MaskSource.foundName : MaskSource → Option String
  | decoded mask => some mask.name
  | indexed record => some record.name
  | named _ => none
  | output _ => none

namespace Stock

variable {s : Stock} {q : Query} {m : MaskMatch} {name base : String} {inGroup inCatalog : MatchRule}

theorem byName_eq_scanName (hsame : ∀ a ∈ s.images, ∀ b ∈ s.images, a.isMask = true →
    b.isMask = true → a.IsSameObject b → a = b) (name : String) (inGroup inCatalog : MatchRule) :
    s.matcher.byName name inGroup inCatalog = s.onlyMasks.scanName name inGroup inCatalog := by
  have himages : s.onlyMasks.images.filter (fun a => lowercase a.name ==
      lowercase name ++ String.ofList marker) =
        MaskGroup.under (lowercase (maskNameFor name)) s.images := by
    rw [lowercase_maskNameFor, onlyMasks, List.filter_filter, MaskGroup.under]
    simp only [Bool.and_comm]
  have hrecords : s.onlyMasks.records.filter (fun r => lowercase r.name ==
      lowercase name ++ String.ofList marker) =
        MaskCatalog.under (lowercase (maskNameFor name)) s.records := by
    rw [lowercase_maskNameFor, onlyMasks, List.filter_filter, MaskCatalog.under]
    simp only [Bool.and_comm]
  rw [scanName, himages, hrecords, ← (MaskGroup.ranks_ofList hsame).find?_eq,
    ← MaskCatalog.find?_ofRecords]
  rfl

/-- Whatever carries the name of a mask is one, if the image has a name. -/
theorem scanName_onlyMasks (hname : name ≠ "") (s : Stock) (inGroup inCatalog : MatchRule) :
    s.onlyMasks.scanName name inGroup inCatalog = s.scanName name inGroup inCatalog := by
  have hmask : ∀ found : String, (lowercase found == lowercase name ++ String.ofList marker &&
      isMaskName found) = (lowercase found == lowercase name ++ String.ofList marker) := by
    intro found
    rw [Bool.and_eq_left_iff_imp, beq_iff_eq]
    exact isMaskName_of_lowercase hname
  rw [scanName, scanName]
  dsimp only [onlyMasks]
  simp only [List.filter_filter, Asset.isMask, hmask]

/-- What is found by a name carries it, with the marker. -/
theorem exists_of_scanName (h : s.scanName name inGroup inCatalog = some m) :
    ∃ found, m.source.foundName = some found ∧ lowercase found = maskNameFor name := by
  unfold scanName at h
  dsimp only at h
  split at h
  · next mask hmask =>
      cases h
      have hmem := mem_of_leastOf hmask
      rw [List.mem_filter, beq_iff_eq] at hmem
      exact ⟨mask.name, rfl, hmem.2⟩
  · rw [Option.map_eq_some_iff] at h
    obtain ⟨record, hrecord, rfl⟩ := h
    have hmem := mem_of_leastOf hrecord
    rw [List.mem_filter, beq_iff_eq] at hmem
    exact ⟨record.name, rfl, hmem.2⟩

/-- What a scan finds under the own name of an image is the mask that its requirement names. -/
theorem explicit_of_scan (h : s.scan q = some m) (hown : m.source.foundName = some q.color.name) :
    m.rule = .requirement ∧ ∃ mask, q.explicit = some mask ∧ m.source = .decoded mask := by
  rw [scan, Option.or_eq_some_iff, Option.or_eq_some_iff, Option.or_eq_some_iff] at h
  rcases h with hrequirement | ⟨-, hnamed | ⟨-, hnumber | ⟨-, hoverride⟩⟩⟩
  · obtain ⟨mask, hexplicit, hmask⟩ := Option.bind_eq_some_iff.mp hrequirement
    rw [Option.ite_none_right_eq_some, Option.some.injEq] at hmask
    obtain ⟨-, rfl⟩ := hmask
    exact ⟨rfl, mask, hexplicit, rfl⟩
  · obtain ⟨found, hfound, hlower⟩ := exists_of_scanName hnamed
    obtain rfl : found = q.color.name := Option.some.inj (hfound.symm.trans hown)
    exact absurd hlower.symm (maskNameFor_ne_lowercase _)
  · obtain ⟨base, hbase, hfind⟩ := Option.bind_eq_some_iff.mp hnumber
    obtain ⟨found, hfound, hlower⟩ := exists_of_scanName hfind
    obtain rfl : found = q.color.name := Option.some.inj (hfound.symm.trans hown)
    exact absurd hlower.symm (maskNameFor_ne_of_stripNumber hbase)
  · obtain ⟨target, -, rfl⟩ := Option.map_eq_some_iff.mp hoverride
    cases target <;> cases hown

theorem find?_matcher (hsame : ∀ a ∈ s.images, ∀ b ∈ s.images, a.isMask = true →
    b.isMask = true → a.IsSameObject b → a = b) (q : Query) :
    s.matcher.find? q = s.onlyMasks.scan q := by
  have hrequirement : Matcher.byRequirement q = q.explicit.bind fun mask =>
      if mask.isMask ∧ mask.pathId ≠ q.color.pathId then some ⟨.requirement, .decoded mask⟩
      else none := by
    rw [Matcher.byRequirement]
    cases q.explicit with
    | none => rfl
    | some mask => simp only [Option.bind_some, and_comm]
  rw [Matcher.find?, scan, hrequirement]
  simp only [byName_eq_scanName hsame]
  rfl

theorem scan_onlyMasks (hname : q.color.name ≠ "") (s : Stock) : s.onlyMasks.scan q = s.scan q := by
  have hnumber : ((stripNumber q.color.name).bind fun base =>
      s.onlyMasks.scanName base .numericSuffix .numericSuffix) =
        (stripNumber q.color.name).bind fun base =>
          s.scanName base .numericSuffix .numericSuffix := by
    cases hbase : stripNumber q.color.name with
    | none => rfl
    | some base => exact scanName_onlyMasks (stripNumber_eq_some_iff.mp hbase).1 s _ _
  rw [scan, scan, scanName_onlyMasks hname, hnumber]
  rfl

/-- **The rules find what scans through all masks and records find**, if masks of one object are the
same.  Only an image without a name could take what is no mask for its own.  And no rule but the
first gives an image, or a record, with the name of the image itself. -/
theorem find?_eq_scan (s : Stock) (hsame : ∀ a ∈ s.images, ∀ b ∈ s.images, a.isMask = true →
    b.isMask = true → a.IsSameObject b → a = b) (q : Query) :
    s.matcher.find? q = s.onlyMasks.scan q ∧
      (q.color.name ≠ "" → s.onlyMasks.scan q = s.scan q) ∧
      ∀ m, s.matcher.find? q = some m → m.source.foundName = some q.color.name →
        m.rule = .requirement ∧ ∃ mask, q.explicit = some mask ∧ m.source = .decoded mask := by
  refine ⟨find?_matcher hsame q, fun hname => scan_onlyMasks hname s, fun m hfind hown => ?_⟩
  rw [find?_matcher hsame] at hfind
  exact explicit_of_scan hfind hown

/-- An image of one pixel. -/
def dot (pathId : PathId) (name bundle : String) : Asset :=
  ⟨pathId, name, .texture, bundle, "", ⟨1, 1, #[⟨255, 255, 255, 255⟩], rfl⟩⟩

/-- Masks of one name in several spellings, two of them alike in name and bundle, one put in twice. -/
def spellings : Stock where
  images := [dot 1 "hero_2" "art.ab", dot 4 "hero_Alpha" "art.ab", dot 7 "Hero_alpha" "art.ab",
    dot 3 "Hero_alpha" "art.ab", dot 7 "Hero_alpha" "art.ab"]
  records := [⟨5, "HERO_ALPHA", .texture, 1, 1, "art.ab", ""⟩]
  overrides := ∅

/-- A numbered image takes the mask of the name without its number: of all spellings the least, and
the first of those that are alike. -/
theorem find?_eq_scan_spellings :
    (∀ a ∈ spellings.images, ∀ b ∈ spellings.images, a.isMask = true → b.isMask = true →
      a.IsSameObject b → a = b) ∧
    spellings.matcher.find? ⟨dot 1 "hero_2" "art.ab", "hero/hero_2.png", none⟩ =
      some ⟨.numericSuffix, .decoded (dot 7 "Hero_alpha" "art.ab")⟩ := by
  have hsame : ∀ a ∈ spellings.images, ∀ b ∈ spellings.images, a.isMask = true →
      b.isMask = true → a.IsSameObject b → a = b := by
    decide +kernel
  refine ⟨hsame, ?_⟩
  rw [(find?_eq_scan spellings hsame _).1]
  decide +kernel

end Stock

end CharacterArt.Alpha
