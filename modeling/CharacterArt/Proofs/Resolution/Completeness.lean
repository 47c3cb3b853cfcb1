import CharacterArt.Proofs.Insertions
import CharacterArt.Proofs.Resolution.Opened
import Mathlib.Data.List.Permutation

/-!
# What a resolution accounts for

Every required object ends on exactly one side: a bundle holds it, it is recovered through a mask,
it can be spared, or it is reported.  What the bundles hold is found first.  Recovery adds colors
one after another, and the invariant that carries it is `Recovers`: what was known stays as it is,
and what is new is the color of a requirement whose mask is known.

## Main Definitions

* `Requirements.Names` — a requirement names an object
* `Corpus.Holds`, `Corpus.IsCopy` — an object in a corpus, and an asset decoded of it
* `Resolution.Recovers` — images that were recovered from others
* `Resolution.Spared` — a mask that nobody misses

## Main Results

* `Copies.getElem?_merged` — a sprite hides a texture
* `Resolution.exists_found` — the objects that are found are those that bundles hold
* `Resolution.recovers_of_recover` — what recovery adds
* `Resolution.resolve_complete` — every required object is accounted for, and the gaps are reported
-/

namespace CharacterArt

/-! ### Required objects -/

namespace Requirements

variable {rs : Requirements} {id : PathId}

/-- Some requirement names an object as its color or as its mask. -/
def Names (rs : Requirements) (id : PathId) : Prop :=
  ∃ r ∈ rs, r.colorId = id ∨ r.alphaId = id

theorem mem_ids : id ∈ ids rs ↔ id ≠ 0 ∧ Names rs id := by
  rw [ids, List.mem_mergeSort, List.mem_eraseDups, List.mem_flatMap]
  simp only [Requirement.ids, List.mem_filter, List.mem_cons, List.not_mem_nil, or_false,
    bne_iff_ne, Names]
  constructor
  · rintro ⟨r, hr, rfl | rfl, hne⟩
    · exact ⟨hne, r, hr, .inl rfl⟩
    · exact ⟨hne, r, hr, .inr rfl⟩
  · rintro ⟨hne, r, hr, rfl | rfl⟩
    · exact ⟨r, hr, .inl rfl, hne⟩
    · exact ⟨r, hr, .inr rfl, hne⟩

/-- The required objects stand in ascending order, each once. -/
theorem pairwise_ids (rs : Requirements) : (ids rs).Pairwise (· < ·) := by
  have hsorted : (ids rs).Pairwise (· ≤ ·) := by
    refine (List.pairwise_mergeSort ?_ ?_ _).imp of_decide_eq_true
    · intro a b c hab hbc
      exact decide_eq_true (Int64.le_trans (of_decide_eq_true hab) (of_decide_eq_true hbc))
    · intro a b
      simpa using Int64.le_total a b
  have hnodup : (ids rs).Nodup :=
    (List.mergeSort_perm _ _).nodup_iff.mpr (Resolution.nodup_eraseDups _)
  exact (hsorted.and hnodup).imp fun ⟨hle, hne⟩ => Int64.lt_of_le_of_ne hle hne

theorem isColor_eq_false_iff : isColor rs id = false ↔ ∀ r ∈ rs, r.colorId ≠ id := by
  simp [isColor]

end Requirements

/-! ### Objects in a corpus -/

namespace Corpus

/-- Some bundle of a corpus holds an object as an image of either kind. -/
def Holds (c : Corpus) (d : Files) (id : PathId) (kind : AssetKind) : Prop :=
  ∃ b ∈ c.bundles, ∃ e ∈ table d b, e.pathId = id ∧ e.kind? = some kind

/-- An asset is an object of a corpus: it was decoded from an entry of a bundle. -/
def IsCopy (c : Corpus) (d : Files) (a : Asset) : Prop :=
  ∃ b ∈ c.bundles, ∃ opened, c.openBundle d b.name = .ok opened ∧
    ∃ e ∈ opened.entries, opened.decode e = .ok a

end Corpus

/-- An asset has the number and the kind of the entry that it was decoded from. -/
theorem Bundle.entry_of_decode {b : Bundle} {e : Entry} {a : Asset} (h : b.decode e = .ok a) :
    e.pathId = a.pathId ∧ e.kind? = some a.kind := by
  have hcopy := (isCopyOf_of_decode h a.pathId a.kind).1.symm.trans
    (Asset.isCopyOf_iff.mpr ⟨rfl, rfl⟩)
  simpa [Entry.describes] using hcopy

/-! ### One asset for each number -/

namespace Copies

/-- **A sprite hides a texture of its number.** -/
theorem getElem?_merged (c : Copies) (id : PathId) :
    c.merged[id]? = (c.best? id .sprite).or (c.best? id .texture) := by
  have hfind : (c.sprites.toList.reverse.find? fun x => x.1 == id).map Prod.snd =
      c.sprites[id]? := by
    cases hx : c.sprites.toList.reverse.find? fun x => x.1 == id with
    | some x =>
        obtain ⟨hmem, rfl⟩ := mem_of_find?_reverse hx
        rw [Std.TreeMap.mem_toList_iff_getElem?_eq_some.mp hmem]
        rfl
    | none =>
        cases ha : c.sprites[id]? with
        | none => rfl
        | some a =>
            have hmem := Std.TreeMap.mem_toList_iff_getElem?_eq_some.mpr ha
            exact absurd BEq.rfl (List.find?_eq_none.mp hx (id, a) (List.mem_reverse.mpr hmem))
  have hmerged := getElem?_foldl_insert_last Prod.fst Prod.snd c.sprites.toList c.textures id
  rw [hfind] at hmerged
  exact hmerged

end Copies

/-! ### What is found in bundles -/

namespace Resolution

variable {s : Index.Store} {c : Corpus} {d : Files} {p : Precedence} {rs : Requirements}
  {r : Resolution} {images images' : Std.TreeMap PathId Asset}

/-- A resolution that succeeds, step by step. -/
theorem eq_of_resolve (h : s.InSync c d) (hr : resolve s c d p rs = .ok r) :
    ∃ parts copies images,
      ((c.bundles.filter (opens d (Requirements.ids rs))).map BundleFile.name).mapM
        (fun name => c.decodeWhere d name (isWanted (Requirements.ids rs))) = .ok parts ∧
      Copies.ofList p (parts.flatten.filter fun a => (Requirements.ids rs).contains a.pathId) =
        .ok copies ∧
      recover s c d copies.merged rs = .ok images ∧
      r = {
        images := images
        group := Alpha.MaskGroup.ofList (parts.flatten.filter joinsGroup)
        opened := (c.bundles.filter (opens d (Requirements.ids rs))).map BundleFile.name
        diagnostics := invalidIds rs ++ gaps images rs } := by
  rw [resolve, bundlesWith_eq h] at hr
  obtain ⟨names, hnames, hr⟩ := bind_eq_ok_iff.mp hr
  cases hnames
  obtain ⟨parts, hparts, hr⟩ := bind_eq_ok_iff.mp hr
  obtain ⟨copies, hcopies, hr⟩ := bind_eq_ok_iff.mp hr
  obtain ⟨images, himages, hr⟩ := bind_eq_ok_iff.mp hr
  cases hr
  exact ⟨parts, copies, images, hparts, hcopies, himages, rfl⟩

/-- The steps of a resolution that succeeds. -/
theorem steps_of_resolve (h : s.InSync c d) (hr : resolve s c d p rs = .ok r) :
    ∃ parts copies,
      ((c.bundles.filter (opens d (Requirements.ids rs))).map BundleFile.name).mapM
        (fun name => c.decodeWhere d name (isWanted (Requirements.ids rs))) = .ok parts ∧
      Copies.ofList p (parts.flatten.filter fun a => (Requirements.ids rs).contains a.pathId) =
        .ok copies ∧
      recover s c d copies.merged rs = .ok r.images ∧
      r.diagnostics = invalidIds rs ++ gaps r.images rs := by
  obtain ⟨parts, copies, images, hparts, hcopies, himages, rfl⟩ := eq_of_resolve h hr
  exact ⟨parts, copies, hparts, hcopies, himages, rfl⟩

/-- Every decoded asset is that of an entry of a bundle that is opened. -/
theorem exists_entry_of_decoded {ids : List PathId} {parts : List (List Asset)}
    (hparts : ((c.bundles.filter (opens d ids)).map BundleFile.name).mapM
      (fun name => c.decodeWhere d name (isWanted ids)) = .ok parts) {a : Asset}
    (ha : a ∈ parts.flatten) : ∃ b ∈ c.bundles, opens d ids b = true ∧
      ∃ opened, c.openBundle d b.name = .ok opened ∧
        ∃ e ∈ opened.entries, opened.decode e = .ok a := by
  obtain ⟨part, hpart, ha⟩ := List.mem_flatten.mp ha
  obtain ⟨name, hname, hdecode⟩ := (mem_iff_of_mapM_eq_ok hparts).mp hpart
  obtain ⟨b, hb, rfl⟩ := List.mem_map.mp hname
  obtain ⟨hb, hopens⟩ := List.mem_filter.mp hb
  obtain ⟨opened, hopened, hassets⟩ := bind_eq_ok_iff.mp hdecode
  obtain ⟨e, he, hdecoded⟩ := (mem_iff_of_mapM_eq_ok hassets).mp ha
  exact ⟨b, hb, hopens, opened, hopened, e, List.mem_of_mem_filter he, hdecoded⟩

/-- Every selected entry of a bundle that is opened was decoded. -/
theorem exists_decoded (h : s.InSync c d) {ids : List PathId} {parts : List (List Asset)}
    (hparts : ((c.bundles.filter (opens d ids)).map BundleFile.name).mapM
      (fun name => c.decodeWhere d name (isWanted ids)) = .ok parts) {b : BundleFile}
    (hb : b ∈ c.bundles) (hopens : opens d ids b = true) {e : Bundle.Entry}
    (he : e ∈ Corpus.table d b) (hkind : e.kind?.isSome = true) (hwanted : isWanted ids e = true) :
    ∃ opened, c.openBundle d b.name = .ok opened ∧
      ∃ a ∈ parts.flatten, opened.decode e = .ok a := by
  have hname : b.name ∈ (c.bundles.filter (opens d ids)).map BundleFile.name :=
    List.mem_map_of_mem (List.mem_filter.mpr ⟨hb, hopens⟩)
  obtain ⟨part, hpart, hdecode⟩ := exists_of_mapM_eq_ok hparts hname
  obtain ⟨opened, hopened, hassets⟩ := bind_eq_ok_iff.mp hdecode
  obtain ⟨found, hfound, hentries, -⟩ := h.exists_openBundle hb
  obtain rfl : found = opened := Except.ok.inj (hfound.symm.trans hopened)
  have hselected : e ∈ found.entries.filter fun e => e.kind?.isSome && isWanted ids e := by
    rw [List.mem_filter, hentries, hkind, hwanted]
    exact ⟨he, rfl⟩
  obtain ⟨a, ha, hdecoded⟩ := exists_of_mapM_eq_ok hassets hselected
  exact ⟨found, hopened, a, List.mem_flatten.mpr ⟨part, hpart, ha⟩, hdecoded⟩

/-- What was decoded of the opened bundles are objects of the corpus, and every required object of
it is among them. -/
theorem mem_decoded (h : s.InSync c d) {ids : List PathId} {parts : List (List Asset)}
    (hparts : ((c.bundles.filter (opens d ids)).map BundleFile.name).mapM
      (fun name => c.decodeWhere d name (isWanted ids)) = .ok parts) :
    (∀ a ∈ parts.flatten, c.IsCopy d a) ∧
      ∀ id ∈ ids, ∀ kind, c.Holds d id kind ↔
        ∃ a ∈ parts.flatten, a.pathId = id ∧ a.kind = kind := by
  have hcopy : ∀ a ∈ parts.flatten, c.IsCopy d a := by
    intro a ha
    obtain ⟨b, hb, -, opened, hopened, e, he, hdecoded⟩ := exists_entry_of_decoded hparts ha
    exact ⟨b, hb, opened, hopened, e, he, hdecoded⟩
  refine ⟨hcopy, fun id hid kind => ⟨?_, ?_⟩⟩
  · rintro ⟨b, hb, e, he, rfl, hkind⟩
    have hopens : opens d ids b = true := by
      rw [opens, List.any_eq_true]
      exact ⟨e, he, by simp [isRequired, hkind, hid]⟩
    -- the bundle was opened, so each of its required entries was decoded
    obtain ⟨found, -, a, ha, hdecoded⟩ :=
      exists_decoded h hparts hb hopens he (by simp [hkind]) (by simp [isWanted, hid])
    obtain ⟨hid', hkind'⟩ := Bundle.entry_of_decode hdecoded
    rw [hkind] at hkind'
    exact ⟨a, ha, hid'.symm, (Option.some.inj hkind').symm⟩
  · rintro ⟨a, ha, rfl, rfl⟩
    obtain ⟨b, hb, opened, hopened, e, he, hdecoded⟩ := hcopy a ha
    obtain ⟨found, hfound, hentries, -⟩ := h.exists_openBundle hb
    obtain rfl : found = opened := Except.ok.inj (hfound.symm.trans hopened)
    rw [hentries] at he
    exact ⟨b, hb, e, he, Bundle.entry_of_decode hdecoded⟩

/-- Images are those that bundles hold of the required objects, and the sprite of each object that
has one. -/
structure FoundIn (c : Corpus) (d : Files) (rs : Requirements)
    (found : Std.TreeMap PathId Asset) : Prop where
  mem_iff : ∀ {id : PathId}, id ∈ found ↔
    (id ≠ 0 ∧ Requirements.Names rs id) ∧ ∃ kind, c.Holds d id kind
  isCopy : ∀ {id : PathId} {a : Asset}, found[id]? = some a →
    a.pathId = id ∧ c.IsCopy d a ∧ (c.Holds d id .sprite → a.kind = .sprite)

/-- The best copies of decoded assets, a copy of each object, are what bundles hold. -/
theorem foundIn_merged {assets : List Asset} {copies : Copies}
    (hcopy : ∀ a ∈ assets, c.IsCopy d a)
    (hholds : ∀ id ∈ Requirements.ids rs, ∀ kind, c.Holds d id kind ↔
      ∃ a ∈ assets, a.pathId = id ∧ a.kind = kind)
    (hbest : Copies.AreBest p (assets.filter fun a => (Requirements.ids rs).contains a.pathId)
      copies) : FoundIn c d rs copies.merged := by
  -- what is kept of an object is a copy of it, and there is one as soon as a bundle holds one
  have hmem : ∀ {id kind best}, copies.best? id kind = some best →
      best ∈ assets ∧ id ∈ Requirements.ids rs ∧ best.pathId = id ∧ best.kind = kind := by
    intro id kind best hfound
    obtain ⟨hin, hid, hkind⟩ := hbest.mem_of_best? hfound
    obtain ⟨hassets, hrequired⟩ := List.mem_filter.mp hin
    exact ⟨hassets, hid ▸ List.contains_iff_mem.mp hrequired, hid, hkind⟩
  have hsome : ∀ {id}, id ∈ Requirements.ids rs → ∀ kind, c.Holds d id kind →
      ∃ best, copies.best? id kind = some best := by
    intro id hid kind hheld
    obtain ⟨a, ha, rfl, rfl⟩ := (hholds id hid kind).mp hheld
    obtain ⟨best, hfound, -⟩ := hbest.exists_best a
      (List.mem_filter.mpr ⟨ha, List.contains_iff_mem.mpr hid⟩)
    exact ⟨best, hfound⟩
  have hfrom : ∀ {id a}, copies.merged[id]? = some a →
      copies.best? id .sprite = some a ∨
        copies.best? id .sprite = none ∧ copies.best? id .texture = some a := by
    intro id a ha
    rwa [Copies.getElem?_merged, Option.or_eq_some_iff] at ha
  constructor
  · intro id
    rw [← Requirements.mem_ids, Std.TreeMap.mem_iff_isSome_getElem?, Option.isSome_iff_exists]
    constructor
    · rintro ⟨a, ha⟩
      rcases hfrom ha with hsprite | ⟨-, htexture⟩
      · obtain ⟨hin, hid, hkey⟩ := hmem hsprite
        exact ⟨hid, .sprite, (hholds id hid .sprite).mpr ⟨a, hin, hkey⟩⟩
      · obtain ⟨hin, hid, hkey⟩ := hmem htexture
        exact ⟨hid, .texture, (hholds id hid .texture).mpr ⟨a, hin, hkey⟩⟩
    · rintro ⟨hid, kind, hheld⟩
      obtain ⟨best, hfound⟩ := hsome hid kind hheld
      rw [Copies.getElem?_merged]
      cases kind with
      | sprite => exact ⟨best, by rw [hfound]; rfl⟩
      | texture =>
          rw [hfound]
          cases copies.best? id .sprite with
          | some a => exact ⟨a, rfl⟩
          | none => exact ⟨best, rfl⟩
  · intro id a ha
    rcases hfrom ha with hsprite | ⟨hnone, htexture⟩
    · obtain ⟨hin, -, hid, hkind⟩ := hmem hsprite
      exact ⟨hid, hcopy a hin, fun _ => hkind⟩
    · obtain ⟨hin, hrequired, hid, -⟩ := hmem htexture
      refine ⟨hid, hcopy a hin, fun hheld => ?_⟩
      obtain ⟨best, hfound⟩ := hsome hrequired .sprite hheld
      rw [hnone] at hfound
      cases hfound

/-- The best copies of what was decoded of the opened bundles are what bundles hold. -/
theorem foundIn_of_ofList (h : s.InSync c d) {parts : List (List Asset)} {copies : Copies}
    (hparts : ((c.bundles.filter (opens d (Requirements.ids rs))).map BundleFile.name).mapM
      (fun name => c.decodeWhere d name (isWanted (Requirements.ids rs))) = .ok parts)
    (hcopies : Copies.ofList p
      (parts.flatten.filter fun a => (Requirements.ids rs).contains a.pathId) = .ok copies) :
    FoundIn c d rs copies.merged := by
  obtain ⟨hcopy, hholds⟩ := mem_decoded h hparts
  rcases Copies.ofList_cases p
      (parts.flatten.filter fun a => (Requirements.ids rs).contains a.pathId) with
    ⟨best, hok, hbest, -⟩ | ⟨id, kind, first, second, herror, -⟩
  · obtain rfl : best = copies := Except.ok.inj (hok.symm.trans hcopies)
    exact foundIn_merged hcopy hholds hbest
  · rw [hcopies] at herror
    cases herror

/-- **A resolution that succeeds finds what bundles hold, and recovers the rest from that.** -/
theorem exists_found (h : s.InSync c d) (hr : resolve s c d p rs = .ok r) :
    ∃ found, FoundIn c d rs found ∧ recover s c d found rs = .ok r.images := by
  obtain ⟨parts, copies, hparts, hcopies, himages, -⟩ := steps_of_resolve h hr
  exact ⟨copies.merged, foundIn_of_ofList h hparts hcopies, himages⟩

/-! ### What is recovered -/

/-- Images were recovered from others: those are still there, and every new one is the color of a
requirement whose mask is there as well. -/
structure Recovers (rs : Requirements) (found images : Std.TreeMap PathId Asset) : Prop where
  kept : ∀ {id : PathId} {a : Asset}, found[id]? = some a → images[id]? = some a
  added : ∀ {id : PathId}, id ∈ images → id ∉ found →
    id ≠ 0 ∧ ∃ r ∈ rs, r.colorId = id ∧ r.alphaId ≠ 0 ∧ r.alphaId ∈ images

namespace Recovers

variable {found : Std.TreeMap PathId Asset}

theorem refl (rs : Requirements) (images : Std.TreeMap PathId Asset) : Recovers rs images images where
  kept h := h
  added hin hout := absurd hin hout

theorem mem (h : Recovers rs found images) {id : PathId} (hid : id ∈ found) : id ∈ images := by
  rw [Std.TreeMap.mem_iff_isSome_getElem?, Option.isSome_iff_exists] at hid ⊢
  exact hid.imp fun a ha => h.kept ha

theorem trans (h : Recovers rs found images) (h' : Recovers rs images images') :
    Recovers rs found images' where
  kept ha := h'.kept (h.kept ha)
  added {id} hin hout := by
    by_cases hmiddle : id ∈ images
    · obtain ⟨hne, r, hr, hcolor, halpha, hmask⟩ := h.added hmiddle hout
      exact ⟨hne, r, hr, hcolor, halpha, h'.mem hmask⟩
    · exact h'.added hin hmiddle

end Recovers

/-- One requirement adds its color at most, and only where there is none. -/
theorem recovers_of_recoverOne {req : Requirement} (hreq : req ∈ rs)
    (h : recoverOne s c d images req = .ok images') : Recovers rs images images' := by
  unfold recoverOne at h
  split at h
  · cases h
    exact Recovers.refl rs images
  · next hguard =>
      rw [Bool.or_eq_true, Bool.or_eq_true, not_or, not_or, beq_iff_eq] at hguard
      obtain ⟨⟨hcolor, hmissing⟩, halpha⟩ := hguard
      split at h
      · cases h
        exact Recovers.refl rs images
      · next mask hmask =>
          obtain ⟨color, -, h⟩ := bind_eq_ok_iff.mp h
          cases color with
          | none =>
              cases h
              exact Recovers.refl rs images
          | some color =>
              cases h
              have hgone : images[req.colorId]? = none := by
                refine Std.TreeMap.getElem?_eq_none fun hin => ?_
                exact hmissing (Std.TreeMap.contains_iff_mem.mpr hin)
              constructor
              · intro id a ha
                rw [Std.TreeMap.getElem?_insert, if_neg, ha]
                intro heq
                rw [← Std.compare_eq_iff_eq.mp heq, hgone] at ha
                cases ha
              · intro id hin hout
                rw [Std.TreeMap.mem_insert] at hin
                obtain rfl := Std.compare_eq_iff_eq.mp (hin.resolve_right hout)
                refine ⟨hcolor, req, hreq, rfl, ?_, ?_⟩
                · simpa [Requirement.hasAlpha] using halpha
                · rw [Std.TreeMap.mem_insert, Std.TreeMap.mem_iff_isSome_getElem?, hmask]
                  exact .inr rfl

/-- **Recovery replaces no image, and it adds colors of requirements whose masks are known.** -/
theorem recovers_of_recover (h : recover s c d images rs = .ok images') :
    Recovers rs images images' := by
  -- by induction on the requirements that are left, each of which is one of all
  suffices hall : ∀ (rest : Requirements) (images : Std.TreeMap PathId Asset),
      (∀ r ∈ rest, r ∈ rs) → rest.foldlM (recoverOne s c d) images = .ok images' →
        Recovers rs images images' from
    hall rs images (fun r hr => hr) h
  intro rest
  induction rest with
  | nil =>
      intro images _ h
      cases h
      exact Recovers.refl rs images'
  | cons req rest ih =>
      intro images hrest h
      rw [List.foldlM_cons] at h
      obtain ⟨next, hstep, h⟩ := bind_eq_ok_iff.mp h
      exact (recovers_of_recoverOne (hrest req List.mem_cons_self) hstep).trans
        (ih next (fun r hr => hrest r (List.mem_cons_of_mem req hr)) h)

/-! ### What is reported -/

/-- An object can be spared: it is the color of no requirement, and every requirement that takes
its mask from it has a color that is transparent without it. -/
def Spared (images : Std.TreeMap PathId Asset) (rs : Requirements) (id : PathId) : Prop :=
  (∀ r ∈ rs, r.colorId ≠ id) ∧
    ∀ r ∈ rs, r.alphaId = id → ∃ color, images[r.colorId]? = some color ∧
      color.isTransparent = true

theorem isDispensable_iff {id : PathId} :
    isDispensable images rs id = true ↔ Spared images rs id := by
  rw [isDispensable, Bool.and_eq_true, Bool.not_eq_true', Requirements.isColor_eq_false_iff,
    List.all_eq_true, Spared]
  refine and_congr_right fun _ => ?_
  simp only [Requirements.masking, List.mem_filter, beq_iff_eq, and_imp]
  refine forall_congr' fun r => imp_congr_right fun _ => imp_congr_right fun _ => ?_
  cases images[r.colorId]? with
  | none => simp
  | some color => simp

/-- **The gaps are the required objects that are missing and cannot be spared, in ascending
order.** -/
theorem exists_gaps (images : Std.TreeMap PathId Asset) (rs : Requirements) :
    ∃ missing : List PathId, missing.Pairwise (· < ·) ∧
      (∀ id, id ∈ missing ↔
        (id ≠ 0 ∧ Requirements.Names rs id) ∧ id ∉ images ∧ ¬ Spared images rs id) ∧
      gaps images rs = missing.map fun id =>
        ⟨.resolutionGap, toString id.toInt, "path id is not in any indexed bundle"⟩ := by
  refine ⟨_, (Requirements.pairwise_ids rs).sublist List.filter_sublist, fun id => ?_, rfl⟩
  rw [List.mem_filter, Requirements.mem_ids, Bool.and_eq_true, Bool.not_eq_true',
    Bool.not_eq_true', ← isDispensable_iff, Bool.not_eq_true, ← Bool.not_eq_true,
    Std.TreeMap.contains_iff_mem]

/-- **Every required object is accounted for.**  It is found in a bundle, recovered through a mask,
or it is missing, and then it is reported once unless it can be spared. -/
theorem resolve_complete (h : s.InSync c d) (hr : resolve s c d p rs = .ok r) :
    (∃ found, FoundIn c d rs found ∧ recover s c d found rs = .ok r.images ∧
      Recovers rs found r.images) ∧
    ∃ missing : List PathId, missing.Pairwise (· < ·) ∧
      (∀ id, id ∈ missing ↔
        (id ≠ 0 ∧ Requirements.Names rs id) ∧ r.contains id = false ∧
          ¬ Spared r.images rs id) ∧
      r.diagnostics =
        ((rs.filter fun req => req.colorId == 0).map fun req =>
          ⟨.invalidPathId, req.key, "descriptor has no color path id"⟩) ++
        missing.map fun id =>
          ⟨.resolutionGap, toString id.toInt, "path id is not in any indexed bundle"⟩ := by
  obtain ⟨found, hfound, himages⟩ := exists_found h hr
  obtain ⟨missing, hordered, hmem, hgaps⟩ := exists_gaps r.images rs
  obtain ⟨-, -, -, -, -, hdiagnostics⟩ := steps_of_resolve h hr
  refine ⟨⟨found, hfound, himages, recovers_of_recover himages⟩, missing, hordered, ?_, ?_⟩
  · intro id
    rw [hmem, contains, ← Bool.not_eq_true, Std.TreeMap.contains_iff_mem]
  · rw [hdiagnostics, hgaps]
    rfl

/-! ### A resolution with every outcome

Of two objects one is in a bundle twice, as a texture and as a sprite, and one is transparent, so
that its mask can be spared.  One color is recovered by the name of its mask, from a bundle that
holds nothing required.  One is missing, and one requirement has no number of a color. -/

namespace Mixed

/-- A picture of one transparent pixel. -/
def clear : Picture :=
  ⟨1, 1, #[⟨0, 0, 0, 0⟩], rfl⟩

def files : Files :=
  Corpus.diskWith "b" [
    ("art.ab", [.ofPicture .texture 1 "hero" "" default, .ofPicture .sprite 1 "hero" "" default,
      .ofPicture .texture 2 "ghost" "" clear, .ofPicture .texture 5 "foe_alpha" "" default]),
    ("more.ab", [.ofPicture .sprite 4 "foe" "" default])]

def corpus : Corpus :=
  Corpus.scanned files "/b"

def tables : Index.Tables := fun name _ =>
  Corpus.table files ⟨name, 0, "/b/" ++ name ++ ".ab"⟩

/-- A new index after one synchronization with the corpus. -/
def store : Index.Store :=
  match Index.Store.sync (Index.tablesOn files) {} corpus with
  | .ok (s, _) => s
  | .error _ => {}

def requirements : Requirements :=
  [{ owner := "A", index := 0, colorId := 1 },
    { owner := "A", index := 1, colorId := 2, alphaId := 3 },
    { owner := "A", index := 2, colorId := 7, alphaId := 5 },
    { owner := "A", index := 3, colorId := 9 },
    { owner := "A", index := 4, colorId := 0, alphaId := 5 }]

def precedence : Precedence where
  preferred := []
  deferred := []

theorem inSync_store : store.InSync corpus files := by
  have hscan : Corpus.scan files "/b" = .ok corpus :=
    Corpus.scan_eq_scanned (by decide)
  have hread : ∀ b ∈ corpus.bundles, Index.tablesOn files b = .ok (tables b.name b.size) := by
    decide +kernel
  obtain ⟨s, stats, hsync, h⟩ := Index.Store.exists_inSync hscan hread
  have hstore : store = s := by
    rw [store, hsync]
  rwa [hstore]

/-- Whether the outcomes are those that the objects were made for. -/
def isMixed (r : Resolution) : Bool :=
  r.contains 7 && !r.contains 9 && r.images[(2 : PathId)]?.any Asset.isTransparent

theorem exists_resolve :
    ∃ r, resolve store corpus files precedence requirements = .ok r ∧ isMixed r = true := by
  have hids : Requirements.ids requirements = [1, 2, 3, 5, 7, 9] := by cbv
  have hnames : bundlesWith store [1, 2, 3, 5, 7, 9] = .ok ["art"] := by
    rw [bundlesWith_eq inSync_store]
    decide +kernel
  rw [resolve, hids, hnames]
  exact exists_eq_ok_of_any (by decide +kernel)

end Mixed

open Mixed in
theorem resolve_complete_mixed :
    store.InSync corpus files ∧
      ∃ r, resolve store corpus files precedence requirements = .ok r ∧
        r.contains 7 = true ∧ (¬ ∃ kind, corpus.Holds files 7 kind) ∧
        ∃ missing : List PathId, missing.Pairwise (· < ·) ∧ 9 ∈ missing ∧ 3 ∉ missing ∧
          r.diagnostics =
            ⟨.invalidPathId, "A/4", "descriptor has no color path id"⟩ ::
            missing.map fun id =>
              ⟨.resolutionGap, toString id.toInt, "path id is not in any indexed bundle"⟩ := by
  obtain ⟨r, hr, hmixed⟩ := exists_resolve
  simp only [isMixed, Bool.and_eq_true, Bool.not_eq_true', Option.any_eq_true] at hmixed
  obtain ⟨⟨hrecovered, hmissing⟩, hclear⟩ := hmixed
  obtain ⟨-, missing, hordered, hmem, hdiagnostics⟩ := resolve_complete inSync_store hr
  refine ⟨inSync_store, r, hr, hrecovered, ?_, missing, hordered, ?_, ?_, hdiagnostics⟩
  · rintro ⟨kind, b, hb, e, he, hid, -⟩
    have hnone : ∀ b ∈ corpus.bundles, ∀ e ∈ Corpus.table files b, e.pathId ≠ 7 := by
      decide +kernel
    exact hnone b hb e he hid
  · refine (hmem 9).mpr ⟨⟨by decide, ?_⟩, hmissing, fun hspared => ?_⟩
    · exact ⟨requirements[3], by simp [requirements], .inl rfl⟩
    · exact hspared.1 requirements[3] (by simp [requirements]) rfl
  · intro hthree
    refine ((hmem 3).mp hthree).2.2 ⟨by decide, fun req hreq halpha => ?_⟩
    have hcolor : ∀ req ∈ requirements, req.alphaId = 3 → req.colorId = 2 := by
      decide
    rw [hcolor req hreq halpha]
    exact hclear

end Resolution

end CharacterArt
