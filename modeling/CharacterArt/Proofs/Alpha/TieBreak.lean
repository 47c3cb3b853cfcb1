import CharacterArt.Proofs.Alpha.RuleChain
import Mathlib.Data.List.Pairwise

/-!
# Masks that are alike

Of several masks of a name a group gives the least by name and bundle, and a catalog the least by name,
bundle and number.  If masks are alike in name and bundle, then a group gives the one that was put in
first.  So a group and a catalog of the same masks give the same one, in whatever order these come,
unless the least ones are alike.

## Main Definitions

* `Asset.label`, `Record.label` — name, bundle and number
* `Asset.IsTwin` — images alike in name and bundle
* `SameMasks` — records of the same masks as some images
* `Choice` — the mask and the record that are chosen for a name
* `ChooseAlike` — what a group and a catalog choose is one mask

## Main Results

* `findTogether` — a group and a catalog of the same masks choose masks of one name and bundle
* `find?_cons_erase` — a twin that is put in first is chosen
* `chooseAlike_iff` — when a group and a catalog choose alike, in one order and in every order
-/

namespace CharacterArt

/-- An image by its name, its bundle and its number. -/
def Asset.label (a : Asset) : String × String × PathId :=
  (a.name, a.bundle, a.pathId)

/-- A record by the name, the bundle and the number of its object. -/
def Record.label (r : Record) : String × String × PathId :=
  (r.name, r.bundle, r.pathId)

/-- Images of one name and one bundle. -/
def Asset.IsTwin (a b : Asset) : Prop :=
  a.name = b.name ∧ a.bundle = b.bundle

theorem Asset.IsTwin.symm {a b : Asset} (h : a.IsTwin b) : b.IsTwin a :=
  ⟨h.1.symm, h.2.symm⟩

theorem Asset.IsTwin.trans {a b c : Asset} (hab : a.IsTwin b) (hbc : b.IsTwin c) : a.IsTwin c :=
  ⟨hab.1.trans hbc.1, hab.2.trans hbc.2⟩

namespace Alpha

open Text (lowercase)

variable {images images' : List Asset} {records : List Record} {a b mask : Asset} {r record : Record}
  {key name : String}

/-! ### Labels -/

theorem label_eq_iff : r.label = a.label ↔
    r.name = a.name ∧ r.bundle = a.bundle ∧ r.pathId = a.pathId := by
  rw [Record.label, Asset.label, Prod.mk.injEq, Prod.mk.injEq]

theorem isTwin_iff : a.IsTwin b ↔ maskLe a b = true ∧ maskLe b a = true := by
  constructor
  · rintro ⟨hname, hbundle⟩
    rw [maskLe_iff, maskLe_iff, hname, hbundle]
    exact ⟨.inr ⟨rfl, String.le_refl _⟩, .inr ⟨rfl, String.le_refl _⟩⟩
  · rintro ⟨hab, hba⟩
    rw [maskLe_iff] at hab hba
    rcases hab with hlt | ⟨hname, hle⟩
    · rcases hba with hgt | ⟨hname, -⟩
      · exact absurd hgt (String.lt_asymm hlt)
      · exact absurd (hname ▸ hlt) (String.lt_irrefl _)
    · rcases hba with hgt | ⟨-, hge⟩
      · exact absurd (hname ▸ hgt) (String.lt_irrefl _)
      · exact ⟨hname, String.le_antisymm hle hge⟩

/-- Among images that are all different objects, none is the object of another one. -/
theorem eq_of_isSameObject (hdistinct : images.Pairwise fun a b => ¬ a.IsSameObject b)
    (ha : a ∈ images) (hb : b ∈ images) (hobject : a.IsSameObject b) : a = b := by
  have hsymm : Std.Symm fun a b : Asset => ¬ a.IsSameObject b :=
    ⟨fun a b hab hba => hab ⟨hba.1.symm, hba.2.symm⟩⟩
  by_contra hne
  exact hdistinct.forall ha hb hne hobject

/-- Records of the same masks as some images, in any order. -/
def SameMasks (images : List Asset) (records : List Record) : Prop :=
  (records.map Record.label).Perm (images.map Asset.label)

/-- The records and the images of one name in lowercase are the same masks. -/
theorem SameMasks.under (h : SameMasks images records) (key : String) :
    SameMasks (MaskGroup.under key images) (MaskCatalog.under key records) := by
  have hfilter := h.filter fun l => isMaskName l.1 && lowercase l.1 == key
  rwa [List.filter_map, List.filter_map] at hfilter

/-! ### What is chosen -/

/-- The mask that a group chooses for a name, and the record that a catalog of the same masks
chooses. -/
structure Choice (images : List Asset) (name : String) (mask : Asset) (record : Record) : Prop where
  named : mask.isMask = true ∧ lowercase mask.name = lowercase name
  le : ∀ b ∈ images, b.isMask = true → lowercase b.name = lowercase name → maskLe mask b = true
  /-- The mask stands before those that are alike. -/
  first : ∃ front back, images = front ++ mask :: back ∧ ∀ b ∈ front, ¬ b.IsTwin mask
  name_eq : record.name = mask.name
  bundle_eq : record.bundle = mask.bundle
  mem : record.label ∈ images.map Asset.label
  /-- The record has the least number of those that are alike. -/
  least : ∀ b ∈ images, b.IsTwin mask → record.pathId ≤ b.pathId

namespace Choice

theorem mask_mem (h : Choice images name mask record) : mask ∈ images := by
  obtain ⟨front, back, rfl, -⟩ := h.first
  exact List.mem_append_right _ List.mem_cons_self

/-- The record is that of a twin of the mask. -/
theorem exists_twin (h : Choice images name mask record) :
    ∃ b ∈ images, b.IsTwin mask ∧ record.pathId = b.pathId := by
  obtain ⟨b, hb, hlabel⟩ := List.mem_map.mp h.mem
  obtain ⟨hname, hbundle, hid⟩ := Alpha.label_eq_iff.mp hlabel.symm
  exact ⟨b, hb, ⟨hname ▸ h.name_eq, hbundle ▸ h.bundle_eq⟩, hid⟩

/-- The record is that of the mask if no twin has a lesser number. -/
theorem label_eq_iff (h : Choice images name mask record) :
    record.label = mask.label ↔ ∀ b ∈ images, b.IsTwin mask → mask.pathId ≤ b.pathId := by
  rw [Alpha.label_eq_iff, and_iff_right h.name_eq, and_iff_right h.bundle_eq]
  constructor
  · intro hid b hb htwin
    exact hid ▸ h.least b hb htwin
  · intro hleast
    obtain ⟨b, hb, htwin, hid⟩ := h.exists_twin
    exact Int64.le_antisymm (h.least mask h.mask_mem ⟨rfl, rfl⟩) (hid ▸ hleast b hb htwin)

/-- Records that are chosen beside one mask have one label. -/
theorem label_eq (h : Choice images name mask record) (h' : Choice images name mask r) :
    record.label = r.label := by
  obtain ⟨b, hb, htwin, hid⟩ := h.exists_twin
  obtain ⟨b', hb', htwin', hid'⟩ := h'.exists_twin
  have hpath : record.pathId = r.pathId :=
    Int64.le_antisymm (hid' ▸ h.least b' hb' htwin') (hid ▸ h'.least b hb htwin)
  rw [Record.label, Record.label, h.name_eq, h.bundle_eq, h'.name_eq, h'.bundle_eq, hpath]

/-- Masks that are chosen from the same images, in any orders, are twins. -/
theorem isTwin (h : Choice images name mask record) (h' : Choice images' name a r)
    (horder : images'.Perm images) : a.IsTwin mask :=
  isTwin_iff.mpr ⟨h'.le mask (horder.mem_iff.mpr h.mask_mem) h.named.1 h.named.2,
    h.le a (horder.mem_iff.mp h'.mask_mem) h'.named.1 h'.named.2⟩

end Choice

/-- Nothing that stands before what a scan finds is its twin. -/
theorem exists_first_of_leastOf (h : leastOf maskLe (MaskGroup.under key images) = some mask) :
    ∃ front back, images = front ++ mask :: back ∧ ∀ b ∈ front, ¬ b.IsTwin mask := by
  have htrans : ∀ a b c, maskLe a b = true → maskLe b c = true → maskLe a c = true :=
    fun _ _ _ => maskLe_trans
  obtain ⟨before, after, hsplit, hbefore, -⟩ := split_of_leastOf htrans maskLe_total h
  obtain ⟨front, rest, himages, hfront, hrest⟩ := List.filter_eq_append_iff.mp hsplit
  obtain ⟨skipped, back, hskip, hskipped, hmask, -⟩ := List.filter_eq_cons_iff.mp hrest
  refine ⟨front ++ skipped, back, by rw [himages, hskip, List.append_assoc], fun b hb htwin => ?_⟩
  -- a twin of the mask has its name, so it is not passed over
  have hunder : (b.isMask && lowercase b.name == key) = true := by
    rw [Asset.isMask, htwin.1]
    exact hmask
  rcases List.mem_append.mp hb with hb | hb
  · have hgt := hbefore b (hfront ▸ List.mem_filter.mpr ⟨hb, hunder⟩)
    rw [(isTwin_iff.mp htwin).1] at hgt
    cases hgt
  · exact hskipped b hb hunder

/-- What scans through the same masks find. -/
theorem choice_of_leastOf
    (hsame : SameMasks (MaskGroup.under (lowercase name) images)
      (MaskCatalog.under (lowercase name) records))
    (hmask : leastOf maskLe (MaskGroup.under (lowercase name) images) = some mask)
    (hrecord : leastOf recordLe (MaskCatalog.under (lowercase name) records) = some record) :
    Choice images name mask record := by
  have htrans : ∀ a b c, maskLe a b = true → maskLe b c = true → maskLe a c = true :=
    fun _ _ _ => maskLe_trans
  have htrans' : ∀ r r' r'', recordLe r r' = true → recordLe r' r'' = true → recordLe r r'' = true :=
    fun _ _ _ => recordLe_trans
  have hle : ∀ b ∈ MaskGroup.under (lowercase name) images, maskLe mask b = true :=
    fun b hb => le_of_leastOf htrans maskLe_total hmask hb
  -- the record does not stand behind that of any image
  have hrecordLe : ∀ b ∈ MaskGroup.under (lowercase name) images, record.name < b.name ∨
      record.name = b.name ∧ (record.bundle < b.bundle ∨
        record.bundle = b.bundle ∧ record.pathId ≤ b.pathId) := by
    intro b hb
    obtain ⟨r, hr, hlabel⟩ := List.mem_map.mp (hsame.mem_iff.mpr (List.mem_map_of_mem hb))
    obtain ⟨hname, hbundle, hid⟩ := label_eq_iff.mp hlabel
    rw [← hname, ← hbundle, ← hid, ← recordLe_iff]
    exact le_of_leastOf htrans' recordLe_total hrecord hr
  have hin := mem_of_leastOf hmask
  obtain ⟨a, ha, hlabel⟩ := List.mem_map.mp (hsame.mem_iff.mp
    (List.mem_map_of_mem (mem_of_leastOf hrecord)))
  obtain ⟨hname, hbundle, -⟩ := label_eq_iff.mp hlabel.symm
  have htwin : a.IsTwin mask := by
    refine isTwin_iff.mpr ⟨?_, hle a ha⟩
    rw [maskLe_iff, ← hname, ← hbundle]
    refine (hrecordLe mask hin).imp_right (And.imp_right ?_)
    rintro (hlt | ⟨hsame, -⟩)
    · exact Std.le_of_lt hlt
    · exact hsame ▸ String.le_refl _
  obtain ⟨-, hisMask, hunder⟩ := MaskGroup.mem_under.mp hin
  constructor
  case named => exact ⟨hisMask, hunder⟩
  case le => exact fun b hb hb' hkey => hle b (MaskGroup.mem_under.mpr ⟨hb, hb', hkey⟩)
  case first => exact exists_first_of_leastOf hmask
  case name_eq => exact hname.trans htwin.1
  case bundle_eq => exact hbundle.trans htwin.2
  case mem => exact hlabel ▸ List.mem_map_of_mem (MaskGroup.mem_under.mp ha).1
  case least =>
    intro b hb hb'
    have hbunder : b ∈ MaskGroup.under (lowercase name) images := by
      refine MaskGroup.mem_under.mpr ⟨hb, ?_, hb'.1 ▸ hunder⟩
      rwa [Asset.isMask, hb'.1]
    have hle := hrecordLe b hbunder
    rw [hname.trans htwin.1, hbundle.trans htwin.2, hb'.1, hb'.2] at hle
    simpa [String.lt_irrefl] using hle

/-- What a group and a catalog find for a name: both nothing, or a mask and a record that are chosen. -/
def FindTogether (images : List Asset) (records : List Record) (name : String) : Prop :=
  ((MaskGroup.ofList images).find? name = none ∧
    (MaskCatalog.ofRecords records).find? name = none) ∨
  ∃ mask record, (MaskGroup.ofList images).find? name = some mask ∧
    (MaskCatalog.ofRecords records).find? name = some record ∧ Choice images name mask record

/-- A group of different objects finds what a scan finds. -/
theorem MaskGroup.find?_ofList (hdistinct : images.Pairwise fun a b => ¬ a.IsSameObject b) (name : String) :
    (MaskGroup.ofList images).find? name =
      leastOf maskLe (MaskGroup.under (lowercase name) images) :=
  (MaskGroup.ranks_ofList fun _ ha _ hb _ _ =>
    eq_of_isSameObject hdistinct ha hb).find?_eq name

/-- **A group and a catalog of the same masks** find masks of one name and one bundle. -/
theorem findTogether (hdistinct : images.Pairwise fun a b => ¬ a.IsSameObject b)
    (hsame : SameMasks images records) (name : String) : FindTogether images records name := by
  have hunder := hsame.under (lowercase name)
  have hlength := hunder.length_eq
  rw [List.length_map, List.length_map] at hlength
  rw [FindTogether, MaskGroup.find?_ofList hdistinct, MaskCatalog.find?_ofRecords]
  cases hmask : leastOf maskLe (MaskGroup.under (lowercase name) images) with
  | none =>
      rw [leastOf_eq_none_iff] at hmask
      rw [hmask, List.length_nil, List.length_eq_zero_iff] at hlength
      exact .inl ⟨rfl, leastOf_eq_none_iff.mpr hlength⟩
  | some mask =>
      cases hrecord : leastOf recordLe (MaskCatalog.under (lowercase name) records) with
      | none =>
          rw [leastOf_eq_none_iff] at hrecord
          rw [hrecord, List.length_nil, eq_comm, List.length_eq_zero_iff] at hlength
          rw [hlength] at hmask
          cases hmask
      | some record => exact .inr ⟨mask, record, rfl, rfl, choice_of_leastOf hunder hmask hrecord⟩

/-- A record is found with a mask. -/
theorem FindTogether.exists_record (h : FindTogether images records name)
    (hmask : (MaskGroup.ofList images).find? name = some mask) :
    ∃ record, (MaskCatalog.ofRecords records).find? name = some record ∧
      Choice images name mask record := by
  rcases h with ⟨hnone, -⟩ | ⟨mask', record, hmask', hrecord, hchoice⟩
  · rw [hmask] at hnone
    cases hnone
  · obtain rfl := Option.some.inj (hmask.symm.trans hmask')
    exact ⟨record, hrecord, hchoice⟩

/-! ### Orders -/

/-- A group and a catalog choose the same mask for a name, or both none. -/
def ChooseAlike (images : List Asset) (records : List Record) (name : String) : Prop :=
  ((MaskGroup.ofList images).find? name).map Asset.label =
    ((MaskCatalog.ofRecords records).find? name).map Record.label

theorem FindTogether.alike_iff_least (h : FindTogether images records name) :
    ChooseAlike images records name ↔ ∀ mask, (MaskGroup.ofList images).find? name = some mask →
      ∀ b ∈ images, b.IsTwin mask → mask.pathId ≤ b.pathId := by
  rw [ChooseAlike]
  rcases h with ⟨hmask, hrecord⟩ | ⟨mask, record, hmask, hrecord, hchoice⟩
  · simp [hmask, hrecord]
  · simp [hmask, hrecord, ← hchoice.label_eq_iff, eq_comm]

/-- Images in another order are still different objects, and still the same masks. -/
theorem FindTogether.of_perm (hdistinct : images.Pairwise fun a b => ¬ a.IsSameObject b)
    (horder : images'.Perm images) (hsame : SameMasks images records) (name : String) :
    FindTogether images' records name :=
  findTogether (horder.symm.pairwise hdistinct fun hab hba => hab ⟨hba.1.symm, hba.2.symm⟩)
    (hsame.trans (horder.map Asset.label).symm) name

/-- **A twin that is put in first is chosen.** -/
theorem find?_cons_erase (hdistinct : images.Pairwise fun a b => ¬ a.IsSameObject b)
    (hsame : SameMasks images records) (hmask : (MaskGroup.ofList images).find? name = some mask)
    (hb : b ∈ images) (htwin : b.IsTwin mask) :
    (MaskGroup.ofList (b :: images.erase b)).find? name = some b := by
  obtain ⟨record, hrecord, hchoice⟩ := (findTogether hdistinct hsame name).exists_record hmask
  have horder : (b :: images.erase b).Perm images := (List.perm_cons_erase hb).symm
  rcases FindTogether.of_perm hdistinct horder hsame name with
    ⟨-, hnone⟩ | ⟨a, r, hfind, -, hchoice'⟩
  · rw [hrecord] at hnone
    cases hnone
  · have htwin' : b.IsTwin a := htwin.trans (hchoice.isTwin hchoice' horder).symm
    obtain ⟨front, back, himages, hfront⟩ := hchoice'.first
    cases front with
    | nil =>
        obtain rfl := (List.cons.inj himages).1
        exact hfind
    | cons first front =>
        obtain rfl := (List.cons.inj himages).1
        exact absurd htwin' (hfront b List.mem_cons_self)

/-- **When a group and a catalog of the same masks choose alike.**  As the images come, they do so if
no twin of the mask that the group chooses has a lesser number.  In whatever order they come, they do so
if that mask has no twin.  What the catalog chooses does not depend on the order of its records. -/
theorem chooseAlike_iff (hdistinct : images.Pairwise fun a b => ¬ a.IsSameObject b)
    (hsame : SameMasks images records) (name : String) :
    FindTogether images records name ∧
    (ChooseAlike images records name ↔
      ∀ mask, (MaskGroup.ofList images).find? name = some mask →
        ∀ b ∈ images, b.IsTwin mask → mask.pathId ≤ b.pathId) ∧
    ((∀ images' records', images'.Perm images → SameMasks images records' →
      ChooseAlike images' records' name) ↔
      ∀ mask, (MaskGroup.ofList images).find? name = some mask →
        ∀ b ∈ images, b.IsTwin mask → b = mask) ∧
    ∀ records', SameMasks images records' →
      ((MaskCatalog.ofRecords records').find? name).map Record.label =
        ((MaskCatalog.ofRecords records).find? name).map Record.label := by
  have htogether := findTogether hdistinct hsame name
  refine ⟨htogether, htogether.alike_iff_least, ⟨fun halike mask hmask b hb htwin => ?_,
    fun hunique images' records' horder hsame' => ?_⟩, fun records' hsame' => ?_⟩
  · have horder : (b :: images.erase b).Perm images := (List.perm_cons_erase hb).symm
    have htwinFirst := halike (b :: images.erase b) records horder hsame
    have hgiven := halike images records (.refl _) hsame
    rw [ChooseAlike, find?_cons_erase hdistinct hsame hmask hb htwin] at htwinFirst
    rw [ChooseAlike, hmask, ← htwinFirst, Option.map_some, Option.map_some, Option.some.injEq,
      Asset.label, Asset.label, Prod.mk.injEq, Prod.mk.injEq] at hgiven
    have hin : mask ∈ images := (htogether.exists_record hmask).elim fun _ h => h.2.mask_mem
    exact eq_of_isSameObject hdistinct hb hin ⟨hgiven.2.2.symm, hgiven.2.1.symm⟩
  · refine (FindTogether.of_perm hdistinct horder hsame' name).alike_iff_least.mpr ?_
    intro mask' hmask' b hb htwin
    obtain ⟨record, hrecord, hchoice'⟩ :=
      (FindTogether.of_perm hdistinct horder hsame' name).exists_record hmask'
    rcases findTogether hdistinct hsame' name with ⟨-, hnone⟩ | ⟨mask, r, hmask, -, hchoice⟩
    · rw [hrecord] at hnone
      cases hnone
    · have htwin' : mask'.IsTwin mask := hchoice.isTwin hchoice' horder
      obtain rfl := hunique mask hmask mask' (horder.mem_iff.mp hchoice'.mask_mem) htwin'
      rw [hunique mask' hmask b (horder.mem_iff.mp hb) htwin]
      exact Int64.le_refl _
  · rcases findTogether hdistinct hsame' name with ⟨hmask, hnone⟩ | ⟨mask, r, hmask, hr, hchoice⟩
    · rcases htogether with ⟨-, hnone'⟩ | ⟨mask, -, hmask', -⟩
      · rw [hnone, hnone']
      · rw [hmask] at hmask'
        cases hmask'
    · obtain ⟨record, hrecord, hchoice'⟩ := htogether.exists_record hmask
      rw [hr, hrecord, Option.map_some, Option.map_some, hchoice.label_eq hchoice']

/-! ### Three spellings, and twins -/

namespace Alike

open Stock (dot)

/-- What the index knows of an image. -/
def recordOf (a : Asset) : Record :=
  ⟨a.pathId, a.name, a.kind, 1, 1, a.bundle, a.container⟩

/-- Masks of one name in three spellings. -/
def spelled : List Asset :=
  [dot 5 "foo_alpha" "b2", dot 6 "foo_Alpha" "b1", dot 7 "foo_ALPHA" "b3"]

/-- Two masks of one name in one bundle. -/
def twins : List Asset :=
  [dot 7 "foo_alpha" "b1", dot 3 "foo_alpha" "b1"]

end Alike

open Alike Stock in
/-- The spelling in capitals stands before the others, and no other mask is spelled so. -/
theorem chooseAlike_iff_spelled : spelled.Pairwise (fun a b => ¬ a.IsSameObject b) ∧
    SameMasks spelled (spelled.map recordOf) ∧
    (MaskGroup.ofList spelled).find? "Foo_alpha" = some (dot 7 "foo_ALPHA" "b3") ∧
    ∀ images records, images.Perm spelled → SameMasks spelled records →
      ChooseAlike images records "Foo_alpha" := by
  have hdistinct : spelled.Pairwise fun a b => ¬ a.IsSameObject b := by decide
  have hsame : SameMasks spelled (spelled.map recordOf) := .of_eq rfl
  have hmask : (MaskGroup.ofList spelled).find? "Foo_alpha" = some (dot 7 "foo_ALPHA" "b3") := by
    rw [MaskGroup.find?_ofList hdistinct]
    decide +kernel
  refine ⟨hdistinct, hsame, hmask, (chooseAlike_iff hdistinct hsame "Foo_alpha").2.2.1.mpr ?_⟩
  intro mask hfind b hb htwin
  obtain rfl := Option.some.inj (hmask.symm.trans hfind)
  simp only [spelled, List.mem_cons, List.not_mem_nil, or_false] at hb
  rcases hb with rfl | rfl | rfl
  · exact absurd htwin.1 (by decide)
  · exact absurd htwin.1 (by decide)
  · rfl

open Alike in
/-- Of twins a group chooses the one that was put in first, and a catalog the one with the least
number. -/
theorem exists_chosen_apart : ∃ images records name,
    images.Pairwise (fun a b => ¬ a.IsSameObject b) ∧ SameMasks images records ∧
    ((MaskGroup.ofList images).find? name).map Asset.label = some ("foo_alpha", "b1", 7) ∧
    ((MaskCatalog.ofRecords records).find? name).map Record.label = some ("foo_alpha", "b1", 3) ∧
    ((MaskGroup.ofList images.reverse).find? name).map Asset.label = some ("foo_alpha", "b1", 3) := by
  have hdistinct : twins.Pairwise fun a b => ¬ a.IsSameObject b := by decide
  have hdistinct' : twins.reverse.Pairwise fun a b => ¬ a.IsSameObject b := by decide
  refine ⟨twins, twins.map recordOf, "foo_alpha", hdistinct, .of_eq rfl, ?_⟩
  rw [MaskGroup.find?_ofList hdistinct, MaskGroup.find?_ofList hdistinct', MaskCatalog.find?_ofRecords]
  decide +kernel

end Alpha

end CharacterArt
