import CharacterArt.Proofs.Alpha.Group
import CharacterArt.Proofs.Resolution.Completeness

/-!
# What a resolution depends on

A resolution opens the bundles with required images and no others.  If no color has to be recovered,
then nothing else is read: on any disk that agrees about these bundles the resolution is the same.
The masks in them are decoded as well, so the group finds the masks of the opened bundles and no
others.

## Main Definitions

* `Resolution.OffersMask` — an entry of a bundle that is opened is a mask of a name
* `Corpus.HasDistinctTextures` — no two textures of a bundle have one number

## Main Results

* `Resolution.recover_of_known` — nothing is recovered where all colors are known
* `Resolution.pairwise_decoded` — what joins the group are different objects
* `Resolution.resolve_economical` — the bundles that are opened, and what depends on them
-/

namespace CharacterArt

open Text (lowercase)

variable {s : Index.Store} {c : Corpus} {d d' : Files} {p : Precedence} {rs : Requirements}
  {r : Resolution} {images : Std.TreeMap PathId Asset} {ids : List PathId}

/-- The asset of an entry has its name. -/
theorem Bundle.name_of_decode {b : Bundle} {e : Entry} {a : Asset} (h : b.decode e = .ok a) :
    a.name = e.name := by
  unfold decode at h
  split at h
  · cases h
  · obtain ⟨picture, -, rfl⟩ := map_eq_ok_iff.mp h
    rfl

namespace Corpus

/-- Decoding looks only at the bundle of that name. -/
theorem decodeWhere_eq_of_openBundle {name : String}
    (hopen : c.openBundle d' name = c.openBundle d name) (q : Bundle.Entry → Bool) :
    c.decodeWhere d' name q = c.decodeWhere d name q := by
  rw [decodeWhere, decodeWhere, hopen]

/-- No two textures of a bundle have one number. -/
def HasDistinctTextures (d : Files) (b : BundleFile) : Prop :=
  (table d b).Pairwise fun e e' =>
    e.kind? = some .texture → e'.kind? = some .texture → e.pathId ≠ e'.pathId

instance (d : Files) (b : BundleFile) : Decidable (HasDistinctTextures d b) :=
  inferInstanceAs (Decidable ((table d b).Pairwise fun e e' =>
    e.kind? = some .texture → e'.kind? = some .texture → e.pathId ≠ e'.pathId))

end Corpus

namespace Resolution

/-! ### Colors that are known -/

/-- A color that is known is not recovered. -/
theorem recoverOne_of_known {req : Requirement}
    (hknown : req.colorId = 0 ∨ req.colorId ∈ images) :
    recoverOne s c d images req = .ok images := by
  rw [recoverOne, if_pos]
  rcases hknown with hzero | hmem
  · simp [hzero]
  · simp [Std.TreeMap.contains_iff_mem.mpr hmem]

/-- **Nothing is recovered where all colors are known.** -/
theorem recover_of_known (hknown : ∀ req ∈ rs, req.colorId = 0 ∨ req.colorId ∈ images) :
    recover s c d images rs = .ok images := by
  induction rs with
  | nil => rfl
  | cons req rest ih =>
      rw [recover, List.foldlM_cons, recoverOne_of_known (hknown req List.mem_cons_self)]
      exact ih fun req' hreq' => hknown req' (List.mem_cons_of_mem req hreq')

/-! ### Masks of the bundles that are opened -/

/-- An entry of a bundle that is opened is a mask of a name, in some letter case. -/
structure OffersMask (c : Corpus) (d : Files) (ids : List PathId) (name : String) (b : BundleFile)
    (e : Bundle.Entry) : Prop where
  mem : b ∈ c.bundles
  isOpened : opens d ids b = true
  entry : e ∈ Corpus.table d b
  kind_eq : e.kind? = some .texture
  isMask : Alpha.isMaskName e.name = true
  name_eq : lowercase e.name = lowercase name

/-- The textures among the assets of one bundle are different objects if its numbers are. -/
theorem pairwise_decodeWhere (h : s.InSync c d) {b : BundleFile} (hb : b ∈ c.bundles)
    (hdistinct : Corpus.HasDistinctTextures d b) {q : Bundle.Entry → Bool} {assets : List Asset}
    (hassets : c.decodeWhere d b.name q = .ok assets) :
    (assets.Pairwise fun a a' =>
      a.kind = .texture → a'.kind = .texture → ¬ a.IsSameObject a') ∧
      ∀ a ∈ assets, a.bundle = b.name := by
  obtain ⟨opened, hopened, hentries, hname⟩ := h.exists_openBundle hb
  rw [Corpus.decodeWhere, hopened] at hassets
  have hdecoded : (opened.entries.filter fun e => e.kind?.isSome && q e).mapM opened.decode =
      .ok assets := hassets
  refine ⟨?_, fun a ha => ?_⟩
  · rw [Corpus.HasDistinctTextures, ← hentries] at hdistinct
    refine pairwise_of_mapM_eq_ok hdecoded (hdistinct.sublist List.filter_sublist) ?_
    intro e _ e' _ hne a a' ha ha' hkind hkind' hsame
    obtain ⟨hid, hk⟩ := Bundle.entry_of_decode ha
    obtain ⟨hid', hk'⟩ := Bundle.entry_of_decode ha'
    rw [hkind] at hk
    rw [hkind'] at hk'
    exact hne hk hk' (by rw [hid, hid', hsame.1])
  · obtain ⟨e, -, ha⟩ := (mem_iff_of_mapM_eq_ok hdecoded).mp ha
    rw [(Bundle.isCopyOf_of_decode ha a.pathId a.kind).2, hname]

/-- **What joins the group are different objects**, for the bundles differ by their names. -/
theorem pairwise_decoded (h : s.InSync c d)
    (hdistinct : ∀ b ∈ c.bundles, Corpus.HasDistinctTextures d b) {parts : List (List Asset)}
    (hparts : ((c.bundles.filter (opens d ids)).map BundleFile.name).mapM
      (fun name => c.decodeWhere d name (isWanted ids)) = .ok parts) :
    (parts.flatten.filter joinsGroup).Pairwise fun a a' => ¬ a.IsSameObject a' := by
  have hone : ∀ b ∈ c.bundles.filter (opens d ids), ∀ assets,
      c.decodeWhere d b.name (isWanted ids) = .ok assets →
      (assets.Pairwise fun a a' =>
        a.kind = .texture → a'.kind = .texture → ¬ a.IsSameObject a') ∧
        ∀ a ∈ assets, a.bundle = b.name := fun b hb assets hassets =>
    have hmem : b ∈ c.bundles := List.mem_of_mem_filter hb
    pairwise_decodeWhere h hmem (hdistinct b hmem) hassets
  have hwithin : ∀ part ∈ parts, part.Pairwise fun a a' =>
      a.kind = .texture → a'.kind = .texture → ¬ a.IsSameObject a' := by
    intro part hpart
    obtain ⟨name, hname, hpart⟩ := (mem_iff_of_mapM_eq_ok hparts).mp hpart
    obtain ⟨b, hb, rfl⟩ := List.mem_map.mp hname
    exact (hone b hb part hpart).1
  have hacross : parts.Pairwise fun part part' => ∀ a ∈ part, ∀ a' ∈ part',
      a.kind = .texture → a'.kind = .texture → ¬ a.IsSameObject a' := by
    have hnames : ((c.bundles.filter (opens d ids)).map BundleFile.name).Nodup :=
      (Corpus.nodup_names h.named).sublist (List.filter_sublist.map BundleFile.name)
    refine pairwise_of_mapM_eq_ok hparts hnames ?_
    intro name hname name' hname' hne part part' hpart hpart' a ha a' ha' _ _ hsame
    obtain ⟨b, hb, rfl⟩ := List.mem_map.mp hname
    obtain ⟨b', hb', rfl⟩ := List.mem_map.mp hname'
    rw [← (hone b hb part hpart).2 a ha, ← (hone b' hb' part' hpart').2 a' ha'] at hne
    exact hne hsame.2
  have hall := List.pairwise_flatten.mpr ⟨hwithin, hacross⟩
  refine (hall.filter joinsGroup).imp_of_mem ?_
  intro a a' ha ha' hdiffer
  have htexture : ∀ x ∈ parts.flatten.filter joinsGroup, x.kind = .texture := by
    intro x hx
    have hjoins := List.of_mem_filter hx
    rw [joinsGroup, Bool.and_eq_true, beq_iff_eq] at hjoins
    exact hjoins.1
  exact hdiffer (htexture a ha) (htexture a' ha')

/-- The masks that join the group are those that the opened bundles offer. -/
theorem exists_offersMask (h : s.InSync c d) {parts : List (List Asset)}
    (hparts : ((c.bundles.filter (opens d ids)).map BundleFile.name).mapM
      (fun name => c.decodeWhere d name (isWanted ids)) = .ok parts) {name : String} {a : Asset}
    (ha : a ∈ parts.flatten.filter joinsGroup) (hname : lowercase a.name = lowercase name) :
    ∃ b e, OffersMask c d ids name b e ∧ a.name = e.name ∧ a.bundle = b.name ∧
      ∃ opened, c.openBundle d b.name = .ok opened ∧ opened.decode e = .ok a := by
  obtain ⟨ha, hjoins⟩ := List.mem_filter.mp ha
  rw [joinsGroup, Bool.and_eq_true, beq_iff_eq] at hjoins
  obtain ⟨b, hb, hopens, opened, hopened, e, he, hdecoded⟩ := exists_entry_of_decoded hparts ha
  obtain ⟨found, hfound, hentries, hbundle⟩ := h.exists_openBundle hb
  obtain rfl : found = opened := Except.ok.inj (hfound.symm.trans hopened)
  have hsame := Bundle.name_of_decode hdecoded
  refine ⟨b, e, ⟨hb, hopens, hentries ▸ he, ?_, ?_, ?_⟩, hsame, ?_, found, hopened, hdecoded⟩
  · rw [(Bundle.entry_of_decode hdecoded).2, hjoins.1]
  · rw [← hsame]
    exact hjoins.2
  · rw [← hsame]
    exact hname
  · rw [(Bundle.isCopyOf_of_decode hdecoded a.pathId a.kind).2, hbundle]

/-- Every mask that an opened bundle offers joins the group. -/
theorem OffersMask.exists_asset {name : String} {b : BundleFile} {e : Bundle.Entry}
    (hoffers : OffersMask c d ids name b e) (h : s.InSync c d) {parts : List (List Asset)}
    (hparts : ((c.bundles.filter (opens d ids)).map BundleFile.name).mapM
      (fun name => c.decodeWhere d name (isWanted ids)) = .ok parts) :
    ∃ a ∈ parts.flatten.filter joinsGroup, a.name = e.name ∧ a.bundle = b.name := by
  have hwanted : isWanted ids e = true := by
    simp [isWanted, hoffers.kind_eq, hoffers.isMask]
  obtain ⟨opened, hopened, a, ha, hdecoded⟩ := exists_decoded h hparts hoffers.mem
    hoffers.isOpened hoffers.entry (by simp [hoffers.kind_eq]) hwanted
  obtain ⟨found, hfound, -, hbundle⟩ := h.exists_openBundle hoffers.mem
  obtain rfl : found = opened := Except.ok.inj (hfound.symm.trans hopened)
  have hname := Bundle.name_of_decode hdecoded
  have hkind : some a.kind = some .texture :=
    (Bundle.entry_of_decode hdecoded).2.symm.trans hoffers.kind_eq
  refine ⟨a, List.mem_filter.mpr ⟨ha, ?_⟩, hname, ?_⟩
  · rw [joinsGroup, Option.some.inj hkind, Asset.isMask, hname, hoffers.isMask]
    rfl
  · rw [(Bundle.isCopyOf_of_decode hdecoded a.pathId a.kind).2, hbundle]

/-- **A group finds the masks that opened bundles offer.**  A name is found exactly if there is a
mask of it, and then the mask that is found is the least by name and bundle. -/
structure FindsOffered (c : Corpus) (d : Files) (ids : List PathId) (g : Alpha.MaskGroup)
    (name : String) : Prop where
  exists_iff : (∃ a, g.find? name = some a) ↔ ∃ b e, OffersMask c d ids name b e
  isOffered : ∀ {a}, g.find? name = some a → ∃ b e, OffersMask c d ids name b e ∧
    a.name = e.name ∧ a.bundle = b.name ∧
    ∃ opened, c.openBundle d b.name = .ok opened ∧ opened.decode e = .ok a
  isLeast : ∀ {a b e}, g.find? name = some a → OffersMask c d ids name b e →
    a.name < e.name ∨ a.name = e.name ∧ a.bundle ≤ b.name

/-- The group of what was decoded finds the masks that the opened bundles offer. -/
theorem findsOffered_ofList (h : s.InSync c d)
    (hdistinct : ∀ b ∈ c.bundles, Corpus.HasDistinctTextures d b) {parts : List (List Asset)}
    (hparts : ((c.bundles.filter (opens d ids)).map BundleFile.name).mapM
      (fun name => c.decodeWhere d name (isWanted ids)) = .ok parts) (name : String) :
    FindsOffered c d ids (Alpha.MaskGroup.ofList (parts.flatten.filter joinsGroup)) name := by
  have hgathers := Alpha.MaskGroup.gathers_ofList (pairwise_decoded h hdistinct hparts)
  refine ⟨hgathers.exists_find?_iff.trans ⟨?_, ?_⟩, fun {a} ha => ?_, fun {a b e} ha hoffers => ?_⟩
  · rintro ⟨a, ha, -, hname⟩
    obtain ⟨b, e, hoffers, -⟩ := exists_offersMask h hparts ha hname
    exact ⟨b, e, hoffers⟩
  · rintro ⟨b, e, hoffers⟩
    obtain ⟨a, ha, hname, -⟩ := hoffers.exists_asset h hparts
    refine ⟨a, ha, ?_, ?_⟩
    · rw [Asset.isMask, hname, hoffers.isMask]
    · rw [hname, hoffers.name_eq]
  · obtain ⟨⟨hin, -, hname⟩, -⟩ := hgathers.le_of_find? ha
    exact exists_offersMask h hparts hin hname
  · obtain ⟨a', ha', hname', hbundle'⟩ := hoffers.exists_asset h hparts
    have hmask : a'.isMask = true := by rw [Asset.isMask, hname', hoffers.isMask]
    have hkey : lowercase a'.name = lowercase name := by rw [hname', hoffers.name_eq]
    have hle := (hgathers.le_of_find? ha).2 a' ha' hmask hkey
    rwa [Alpha.maskLe_iff, hname', hbundle'] at hle

/-! ### Whole resolutions -/

/-- A resolution succeeds if its steps do. -/
theorem resolve_of_steps {names : List String} {parts : List (List Asset)} {copies : Copies}
    (hnames : bundlesWith s (Requirements.ids rs) = .ok names)
    (hparts : names.mapM (fun name => c.decodeWhere d name (isWanted (Requirements.ids rs))) =
      .ok parts)
    (hcopies : Copies.ofList p
      (parts.flatten.filter fun a => (Requirements.ids rs).contains a.pathId) = .ok copies)
    (himages : recover s c d copies.merged rs = .ok images) :
    resolve s c d p rs = .ok {
      images := images
      group := Alpha.MaskGroup.ofList (parts.flatten.filter joinsGroup)
      opened := names
      diagnostics := invalidIds rs ++ gaps images rs } :=
  bind_eq_ok_iff.mpr ⟨names, hnames, bind_eq_ok_iff.mpr ⟨parts, hparts,
    bind_eq_ok_iff.mpr ⟨copies, hcopies, bind_eq_ok_iff.mpr ⟨images, himages, rfl⟩⟩⟩⟩

/-- **A resolution opens exactly the bundles that it needs.**  If the color of every requirement is
in some bundle, then as many bundles are opened as hold a required image, and the resolution is the
same on every disk on which these bundles are the same.  If no bundle has two textures of one
number, then the group finds the masks that the opened bundles offer, and of those of one name the
least by name and bundle. -/
theorem resolve_economical (h : s.InSync c d) (hr : resolve s c d p rs = .ok r)
    (hheld : ∀ req ∈ rs, req.colorId = 0 ∨ ∃ kind, c.Holds d req.colorId kind) :
    r.bundlesDecoded = (c.bundles.filter (opens d (Requirements.ids rs))).length ∧
      (∀ d', (∀ b ∈ c.bundles, opens d (Requirements.ids rs) b = true →
          c.openBundle d' b.name = c.openBundle d b.name) →
        resolve s c d' p rs = .ok r) ∧
      ((∀ b ∈ c.bundles, Corpus.HasDistinctTextures d b) →
        ∀ name, FindsOffered c d (Requirements.ids rs) r.group name) := by
  obtain ⟨parts, copies, images, hparts, hcopies, himages, rfl⟩ := eq_of_resolve h hr
  have hfound := foundIn_of_ofList h hparts hcopies
  have hknown : ∀ req ∈ rs, req.colorId = 0 ∨ req.colorId ∈ copies.merged := by
    intro req hreq
    refine or_iff_not_imp_left.mpr fun hne => hfound.mem_iff.mpr ⟨⟨hne, req, hreq, .inl rfl⟩, ?_⟩
    exact (hheld req hreq).resolve_left hne
  obtain rfl : copies.merged = images :=
    Except.ok.inj ((recover_of_known hknown).symm.trans himages)
  refine ⟨List.length_map _, fun d' hsame => ?_, fun hdistinct =>
    findsOffered_ofList h hdistinct hparts⟩
  refine resolve_of_steps (bundlesWith_eq h _) ?_ hcopies (recover_of_known hknown)
  rw [mapM_eq_ok_iff] at hparts ⊢
  rw [← hparts]
  refine List.map_congr_left fun name hname => ?_
  obtain ⟨b, hb, rfl⟩ := List.mem_map.mp hname
  obtain ⟨hb, hopens⟩ := List.mem_filter.mp hb
  exact Corpus.decodeWhere_eq_of_openBundle (hsame b hb hopens) _

/-! ### Two masks of one name

Both opened bundles have a mask of the name, in different letter case.  A third bundle has another
mask; nothing of it is required, and on a second disk it is damaged. -/

namespace TwoMasks

def files : Files :=
  Corpus.diskWith "b" [
    ("art.ab", [.ofPicture .texture 1 "hero" "" default,
      .ofPicture .texture 2 "hero_alpha" "" default]),
    ("best.ab", [.ofPicture .sprite 4 "villain" "" default,
      .ofPicture .texture 5 "Hero_alpha" "" default]),
    ("more.ab", [.ofPicture .texture 6 "foe_alpha" "" default])]

/-- The disk on which the third bundle is damaged. -/
def damaged : Files :=
  files.put ["b", "more.ab"] (.file (.bytes [0]))

def corpus : Corpus :=
  Corpus.scanned files "/b"

def store : Index.Store :=
  .fresh corpus files

def requirements : Requirements :=
  [{ owner := "A", index := 0, colorId := 1 },
    { owner := "A", index := 1, colorId := 4, alphaId := 9 }]

/-- All that is asked of the bundles, in one evaluation. -/
theorem evaluated_bundles :
    (Corpus.scan files "/b").isOk = true ∧
    (∀ b ∈ corpus.bundles, (Index.tablesOn files b).isOk = true) ∧
    (corpus.bundles.filter (opens files [1, 4, 9])).map BundleFile.name = ["art", "best"] ∧
    (∀ b ∈ corpus.bundles, Corpus.HasDistinctTextures files b) ∧
    (∀ req ∈ requirements, ∃ b ∈ corpus.bundles, ∃ e ∈ Corpus.table files b,
      e.pathId = req.colorId ∧ (e.kind? = some .texture ∨ e.kind? = some .sprite)) ∧
    (corpus.openBundle damaged "more").isOk = false ∧
    ∀ b ∈ corpus.bundles, opens files [1, 4, 9] b = true →
      corpus.openBundle damaged b.name = corpus.openBundle files b.name := by
  decide +kernel

theorem inSync_store : store.InSync corpus files :=
  (Index.Store.inSync_fresh (Corpus.scan_eq_scanned evaluated_bundles.1) evaluated_bundles.2.1).1

theorem ids_requirements : Requirements.ids requirements = [1, 4, 9] := by
  cbv

theorem exists_resolve : ∃ r, resolve store corpus files {} requirements = .ok r := by
  have hnames : bundlesWith store [1, 4, 9] = .ok ["art", "best"] := by
    rw [bundlesWith_eq inSync_store, evaluated_bundles.2.2.1]
  have hok : (resolve store corpus files {} requirements).toOption.any (fun _ => true) = true := by
    rw [resolve, ids_requirements, hnames]
    decide +kernel
  exact (exists_eq_ok_of_any hok).imp fun r => And.left

/-- The masks that the opened bundles offer. -/
theorem offered : ∀ b ∈ corpus.bundles, opens files [1, 4, 9] b = true →
    ∀ e ∈ Corpus.table files b, e.kind? = some .texture → Alpha.isMaskName e.name = true →
      e.name = "hero_alpha" ∧ b.name = "art" ∨ e.name = "Hero_alpha" ∧ b.name = "best" := by
  decide +kernel

end TwoMasks

open TwoMasks in
theorem resolve_economical_two_masks :
    store.InSync corpus files ∧ (corpus.openBundle damaged "more").isOk = false ∧
      ∃ r, resolve store corpus files {} requirements = .ok r ∧
        r.bundlesDecoded = 2 ∧ resolve store corpus damaged {} requirements = .ok r ∧
        (∃ a, r.group.find? "HERO_ALPHA" = some a ∧ a.name = "Hero_alpha" ∧ a.bundle = "best") ∧
        ¬ ∃ a, r.group.find? "foe_alpha" = some a := by
  obtain ⟨-, -, hopened, hdistinct, hboth, hdamaged, hsound⟩ := evaluated_bundles
  obtain ⟨r, hr⟩ := exists_resolve
  have hheld : ∀ req ∈ requirements, req.colorId = 0 ∨
      ∃ kind, corpus.Holds files req.colorId kind := by
    intro req hreq
    obtain ⟨b, hb, e, he, hid, hkind | hkind⟩ := hboth req hreq
    · exact .inr ⟨.texture, b, hb, e, he, hid, hkind⟩
    · exact .inr ⟨.sprite, b, hb, e, he, hid, hkind⟩
  obtain ⟨hcount, hsame, hgroup⟩ := resolve_economical inSync_store hr hheld
  rw [ids_requirements] at hcount hsame hgroup
  have hfinds := hgroup hdistinct
  obtain ⟨b, hb, hopens, e, he, hkind, hmask, hname, hlabel, hbundle⟩ :
      ∃ b ∈ corpus.bundles, opens files [1, 4, 9] b = true ∧
        ∃ e ∈ Corpus.table files b, e.kind? = some .texture ∧ Alpha.isMaskName e.name = true ∧
          lowercase e.name = lowercase "HERO_ALPHA" ∧ e.name = "Hero_alpha" ∧ b.name = "best" := by
    decide +kernel
  have hoffers : OffersMask corpus files [1, 4, 9] "HERO_ALPHA" b e :=
    ⟨hb, hopens, he, hkind, hmask, hname⟩
  refine ⟨inSync_store, hdamaged, r, hr, ?_, hsame damaged hsound, ?_, ?_⟩
  · rw [hcount, ← List.length_map BundleFile.name, hopened]
    rfl
  · obtain ⟨a, ha⟩ := (hfinds "HERO_ALPHA").exists_iff.mpr ⟨b, e, hoffers⟩
    refine ⟨a, ha, ?_⟩
    -- of the two masks that are offered the other one is greater
    obtain ⟨b', e', hoffers', hname', hbundle', -⟩ := (hfinds "HERO_ALPHA").isOffered ha
    have hleast := (hfinds "HERO_ALPHA").isLeast ha hoffers
    rw [hlabel, hname'] at hleast
    rcases offered b' hoffers'.mem hoffers'.isOpened e' hoffers'.entry hoffers'.kind_eq
      hoffers'.isMask with ⟨hart, -⟩ | ⟨hother, hin⟩
    · rw [hart] at hleast
      rcases hleast with hless | ⟨hsame, -⟩
      · exact absurd hless (by decide)
      · exact absurd hsame (by decide)
    · exact ⟨hname'.trans hother, hbundle'.trans hin⟩
  · rintro ⟨a, ha⟩
    obtain ⟨b', e', hoffers', -⟩ := (hfinds "foe_alpha").isOffered ha
    have hfoe := hoffers'.name_eq
    have hne : lowercase "hero_alpha" ≠ lowercase "foe_alpha" ∧
        lowercase "Hero_alpha" ≠ lowercase "foe_alpha" := by
      decide
    rcases offered b' hoffers'.mem hoffers'.isOpened e' hoffers'.entry hoffers'.kind_eq
      hoffers'.isMask with ⟨hname, -⟩ | ⟨hname, -⟩
    · exact hne.1 (hname ▸ hfoe)
    · exact hne.2 (hname ▸ hfoe)

end Resolution

end CharacterArt
