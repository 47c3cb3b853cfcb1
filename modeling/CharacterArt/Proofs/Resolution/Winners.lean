import CharacterArt.Proofs.Resolution.Ambiguity
import CharacterArt.Proofs.Resolution.Completeness

/-!
# The copy that is returned

Copies are met in the order of the names of their bundles, and each is compared with the best one so
far.  If a resolution succeeds, then what is returned of an object does not depend on that order: it is
the copy whose bundle outranks the bundles of all others of its kind.  A sprite is returned if there is
one, whatever the ranks of the textures.

## Main Definitions

* `Corpus.IsWinner` — an asset is that of the copy that outranks all others of its object and kind
* `Corpus.Renames` — bundles go by other names of the same ranks in another corpus

## Main Results

* `Resolution.holders_decoded` — the copies that a resolution meets are those of the corpus
* `Resolution.isWinner_of_decoded` — what outranks all other copies is the asset of the only one
* `Resolution.returns_winner` — what a resolution that succeeds returns of an object
-/

namespace CharacterArt

variable {s : Index.Store} {c : Corpus} {d : Files} {p : Precedence} {rs : Requirements}
  {r : Resolution} {a : Asset} {id : PathId} {kind : AssetKind}

namespace Corpus

/-- An asset was decoded from the copy of its object that outranks all others of its kind.  Its bundle
holds no second one, as that would have the same rank. -/
structure IsWinner (c : Corpus) (d : Files) (p : Precedence) (a : Asset) : Prop where
  wins : p.Wins a.bundle (c.copies d a.pathId a.kind)
  exists_entry : ∃ opened, c.openBundle d a.bundle = .ok opened ∧
    ∃ e, opened.entries.filter (Bundle.Entry.describes a.pathId a.kind) = [e] ∧
      opened.decode e = .ok a

/-- **An object has one winner of a kind.** -/
theorem IsWinner.unique {a' : Asset} (h : c.IsWinner d p a) (h' : c.IsWinner d p a')
    (hid : a.pathId = a'.pathId) (hkind : a.kind = a'.kind) : a = a' := by
  obtain ⟨opened, hopened, e, hentry, hdecoded⟩ := h.exists_entry
  obtain ⟨opened', hopened', e', hentry', hdecoded'⟩ := h'.exists_entry
  have hwins := h.wins
  rw [hid, hkind] at hwins
  rw [hwins.unique h'.wins, hopened'] at hopened
  cases hopened
  rw [hid, hkind, hentry'] at hentry
  cases hentry
  exact Except.ok.inj (hdecoded.symm.trans hdecoded')

/-- The bundles of a corpus are in another one under other names.  The ranks are the same, and so are
the tables and the payloads. -/
structure Renames (p : Precedence) (f : String → String) (c : Corpus) (d : Files) (c' : Corpus)
    (d' : Files) : Prop where
  names : (c'.bundles.map BundleFile.name).Perm (c.bundles.map fun b => f b.name)
  openBundle : ∀ b ∈ c.bundles, ∀ opened, c.openBundle d b.name = .ok opened →
    c'.openBundle d' (f b.name) = .ok { opened with name := f b.name }
  rank : ∀ b ∈ c.bundles, p.rank (f b.name) = p.rank b.name

end Corpus

namespace Bundle

variable {b : Bundle} {e : Entry}

/-- The name of a bundle is told in errors only. -/
theorem readPicture_of_renamed {picture : Picture} (name : String)
    (h : b.readPicture e = .ok picture) :
    { b with name := name }.readPicture e = .ok picture := by
  unfold readPicture at h ⊢
  dsimp only at h ⊢
  split at h
  · cases h
  next hsize =>
  split at h
  · cases h
  next hwithin =>
  split at h
  · cases h
  next hexpansion =>
  rw [if_neg hsize, if_neg hwithin, if_neg hexpansion]
  split at h
  · cases h
  split at h
  · cases h
  split at h
  · exact h
  · cases h

/-- A bundle under another name decodes the same images. -/
theorem decode_of_renamed (name : String) (h : b.decode e = .ok a) :
    { b with name := name }.decode e = .ok { a with bundle := name } := by
  unfold decode at h ⊢
  split at h
  · cases h
  · obtain ⟨picture, hpicture, rfl⟩ := map_eq_ok_iff.mp h
    rw [readPicture_of_renamed name hpicture]
    rfl

end Bundle

namespace Corpus

variable {s' : Index.Store} {c' : Corpus} {d' : Files} {f : String → String}

/-- A corpus holds an object if there are copies of it. -/
theorem holds_iff : c.Holds d id kind ↔ c.copies d id kind ≠ [] := by
  simp only [Holds, copies, copiesIn, ne_eq, List.flatMap_eq_nil_iff, List.map_eq_nil_iff,
    List.filter_eq_nil_iff, Bundle.Entry.describes, Bool.and_eq_true, beq_iff_eq, not_forall,
    not_not, exists_prop]

/-- The copies in a bundle, by what is found under its name. -/
theorem copiesIn_of_openBundle (h : s.InSync c d) {b : BundleFile} (hb : b ∈ c.bundles)
    {opened : Bundle} (hopened : c.openBundle d b.name = .ok opened) (id : PathId)
    (kind : AssetKind) : copiesIn d id kind b =
      (opened.entries.filter (Bundle.Entry.describes id kind)).map fun _ => b.name := by
  obtain ⟨found, hfound, hentries, -⟩ := h.exists_openBundle hb
  obtain rfl : found = opened := Except.ok.inj (hfound.symm.trans hopened)
  rw [copiesIn, hentries]

namespace Renames

/-- **The copies in the other corpus are the same ones under the other names.** -/
theorem copies_perm (hf : Renames p f c d c' d') (h : s.InSync c d) (h' : s'.InSync c' d')
    (id : PathId) (kind : AssetKind) :
    (c'.copies d' id kind).Perm ((c.copies d id kind).map f) := by
  -- what is found under a name of the other corpus
  let found (name : String) : List String :=
    match c'.openBundle d' name with
    | .ok opened => (opened.entries.filter (Bundle.Entry.describes id kind)).map fun _ => name
    | .error _ => []
  have hother : c'.copies d' id kind = (c'.bundles.map BundleFile.name).flatMap found := by
    rw [copies, List.flatMap_map]
    refine List.flatMap_congr fun b hb => ?_
    obtain ⟨opened, hopened, -⟩ := h'.exists_openBundle hb
    simp only [copiesIn_of_openBundle h' hb hopened, found, hopened]
  have hself : (c.copies d id kind).map f = (c.bundles.map fun b => f b.name).flatMap found := by
    rw [copies, List.map_flatMap, List.flatMap_map]
    refine List.flatMap_congr fun b hb => ?_
    obtain ⟨opened, hopened, -⟩ := h.exists_openBundle hb
    simp only [copiesIn_of_openBundle h hb hopened, found, hf.openBundle b hb opened hopened,
      List.map_map]
    rfl
  rw [hother, hself]
  exact hf.names.flatMap_right found

/-- The ranks of the copies are the same. -/
theorem rank_of_mem_copies (hf : Renames p f c d c' d') {name : String}
    (hname : name ∈ c.copies d id kind) : p.rank (f name) = p.rank name := by
  obtain ⟨b, hb, hin⟩ := List.mem_flatMap.mp hname
  obtain ⟨-, -, rfl⟩ := List.mem_map.mp hin
  exact hf.rank b hb

theorem holds_iff (hf : Renames p f c d c' d') (h : s.InSync c d) (h' : s'.InSync c' d') :
    c'.Holds d' id kind ↔ c.Holds d id kind := by
  rw [Corpus.holds_iff, Corpus.holds_iff]
  have hperm := hf.copies_perm h h' id kind
  rw [← List.length_pos_iff_ne_nil, ← List.length_pos_iff_ne_nil, hperm.length_eq,
    List.length_map]

/-- **A winner stays one under another name.** -/
theorem isWinner (hf : Renames p f c d c' d') (h : s.InSync c d) (h' : s'.InSync c' d')
    (ha : c.IsWinner d p a) : c'.IsWinner d' p { a with bundle := f a.bundle } := by
  refine ⟨(ha.wins.map fun name hname => hf.rank_of_mem_copies hname).perm
    (hf.copies_perm h h' a.pathId a.kind), ?_⟩
  obtain ⟨b, hb, hin⟩ := List.mem_flatMap.mp ha.wins.mem
  obtain ⟨-, -, hname⟩ := List.mem_map.mp hin
  obtain ⟨opened, hopened, e, hentry, hdecoded⟩ := ha.exists_entry
  rw [← hname] at hopened ⊢
  exact ⟨_, hf.openBundle b hb opened hopened, e, hentry,
    Bundle.decode_of_renamed (f b.name) hdecoded⟩

end Renames

end Corpus

namespace Resolution

/-! ### Copies that are met -/

/-- **The copies that a resolution meets are those of the corpus**, in the order of the names of their
bundles. -/
theorem holders_decoded (h : s.InSync c d) {ids : List PathId} {parts : List (List Asset)}
    (hparts : ((c.bundles.filter (opens d ids)).map BundleFile.name).mapM
      (fun name => c.decodeWhere d name (isWanted ids)) = .ok parts) (hid : id ∈ ids)
    (kind : AssetKind) : holders parts.flatten id kind = c.copies d id kind := by
  have hdecodable : Decodable c d ids := by
    refine decodable_of_decodeWhere fun b hb hopens => ?_
    obtain ⟨assets, -, hassets⟩ := exists_of_mapM_eq_ok hparts
      (List.mem_map_of_mem (List.mem_filter.mpr ⟨hb, hopens⟩))
    rw [hassets]
    rfl
  obtain ⟨parts', hparts', hholders⟩ := exists_assets h hdecodable
  obtain rfl : parts' = parts := Except.ok.inj (hparts'.symm.trans hparts)
  exact hholders id hid kind

/-- **What outranks all other copies is the asset of the only copy in its bundle.** -/
theorem isWinner_of_decoded (h : s.InSync c d) {ids : List PathId} {parts : List (List Asset)}
    (hparts : ((c.bundles.filter (opens d ids)).map BundleFile.name).mapM
      (fun name => c.decodeWhere d name (isWanted ids)) = .ok parts) (ha : a ∈ parts.flatten)
    (hwins : p.Wins a.bundle (c.copies d a.pathId a.kind)) : c.IsWinner d p a := by
  obtain ⟨b, hb, -, opened, hopened, e, he, hdecoded⟩ := exists_entry_of_decoded hparts ha
  obtain ⟨found, hfound, hentries, hname⟩ := h.exists_openBundle hb
  obtain rfl : found = opened := Except.ok.inj (hfound.symm.trans hopened)
  obtain ⟨hcopy, hbundle⟩ := Bundle.isCopyOf_of_decode hdecoded a.pathId a.kind
  have hself : a.bundle = b.name := hbundle.trans hname
  refine ⟨hwins, found, hself ▸ hopened, e, ?_, hdecoded⟩
  have hmem : e ∈ found.entries.filter (Bundle.Entry.describes a.pathId a.kind) :=
    List.mem_filter.mpr ⟨he, hcopy ▸ Asset.isCopyOf_iff.mpr ⟨rfl, rfl⟩⟩
  -- the bundle stands once in the list of copies, and once for each of its own
  have hcount : (Corpus.copiesIn d a.pathId a.kind b).length ≤ 1 := by
    have hsublist : (Corpus.copiesIn d a.pathId a.kind b).Sublist
        (c.copies d a.pathId a.kind) := by
      rw [Corpus.copies, List.flatMap_def]
      exact List.sublist_flatten_of_mem (List.mem_map_of_mem hb)
    have hle := hsublist.count_le b.name
    rw [← hself, hwins.count_eq_one, hself, List.count_eq_length.mpr] at hle
    · exact hle
    · intro name hin
      obtain ⟨-, -, rfl⟩ := List.mem_map.mp hin
      rfl
  rw [Corpus.copiesIn, List.length_map, ← hentries] at hcount
  obtain ⟨only, honly⟩ := List.length_eq_one_iff.mp
    (Nat.le_antisymm hcount (List.length_pos_of_mem hmem))
  rw [honly, List.mem_singleton] at hmem
  rw [honly, hmem]

/-- What is kept of a required object is the winner among its copies. -/
theorem isWinner_of_best? (h : s.InSync c d) {parts : List (List Asset)} {copies : Copies}
    (hparts : ((c.bundles.filter (opens d (Requirements.ids rs))).map BundleFile.name).mapM
      (fun name => c.decodeWhere d name (isWanted (Requirements.ids rs))) = .ok parts)
    (hcopies : Copies.ofList p
      (parts.flatten.filter fun a => (Requirements.ids rs).contains a.pathId) = .ok copies)
    (hbest : copies.best? id kind = some a) : a.kind = kind ∧ c.IsWinner d p a := by
  rcases Copies.ofList_cases p
      (parts.flatten.filter fun a => (Requirements.ids rs).contains a.pathId) with
    ⟨copies', hcopies', hare, hnone⟩ | ⟨_, _, _, _, herror, -⟩
  · obtain rfl : copies' = copies := Except.ok.inj (hcopies'.symm.trans hcopies)
    obtain ⟨hmem, rfl, rfl⟩ := hare.mem_of_best? hbest
    obtain ⟨hdecoded, hrequired⟩ := List.mem_filter.mp hmem
    have hid : a.pathId ∈ Requirements.ids rs := List.contains_iff_mem.mp hrequired
    have hholders := holders_filter parts.flatten (Requirements.ids rs) a.pathId a.kind
    rw [if_pos hid, holders_decoded h hparts hid] at hholders
    refine ⟨rfl, isWinner_of_decoded h hparts hdecoded ?_⟩
    rw [← hholders]
    -- none of the copies outranks the one that is kept
    refine Precedence.wins_of_mem_top (hnone a.pathId a.kind) (Precedence.mem_top.mpr ⟨?_, ?_⟩)
    · exact mem_holders.mpr ⟨a, hmem, ⟨rfl, rfl⟩, rfl⟩
    · intro bundle hbundle
      obtain ⟨x, hx, ⟨hxid, hxkind⟩, rfl⟩ := mem_holders.mp hbundle
      obtain ⟨best, hfound, hle⟩ := hare.exists_best x hx
      rw [hxid, hxkind, hbest] at hfound
      cases hfound
      exact hle
  · rw [hcopies] at herror
    cases herror

/-! ### What is returned -/

/-- A required object that the corpus holds is returned, and it is the winner of its kind. -/
theorem exists_winner (h : s.InSync c d) (hr : resolve s c d p rs = .ok r)
    (hid : id ≠ 0 ∧ Requirements.Names rs id) (hheld : ∃ kind, c.Holds d id kind) :
    ∃ a, r.images[id]? = some a ∧ a.pathId = id ∧ (a.kind = .sprite ↔ c.Holds d id .sprite) ∧
      c.IsWinner d p a := by
  obtain ⟨parts, copies, hparts, hcopies, himages, -⟩ := steps_of_resolve h hr
  have hfound := foundIn_of_ofList h hparts hcopies
  obtain ⟨a, ha⟩ := Option.isSome_iff_exists.mp
    (Std.TreeMap.mem_iff_isSome_getElem?.mp (hfound.mem_iff.mpr ⟨hid, hheld⟩))
  obtain ⟨hpath, ⟨b, hb, opened, hopened, e, he, hdecoded⟩, hsprite⟩ := hfound.isCopy ha
  refine ⟨a, (recovers_of_recover himages).kept ha, hpath, ⟨?_, hsprite⟩, ?_⟩
  · intro hkind
    obtain ⟨found, hopened', hentries, -⟩ := h.exists_openBundle hb
    obtain rfl : found = opened := Except.ok.inj (hopened'.symm.trans hopened)
    obtain ⟨hpath', hkind'⟩ := Bundle.entry_of_decode hdecoded
    exact ⟨b, hb, e, hentries ▸ he, hpath'.trans hpath, hkind'.trans (congrArg some hkind)⟩
  · rw [Copies.getElem?_merged, Option.or_eq_some_iff] at ha
    rcases ha with hbest | ⟨-, hbest⟩
    · exact (isWinner_of_best? h hparts hcopies hbest).2
    · exact (isWinner_of_best? h hparts hcopies hbest).2

/-- The image of a required object that the corpus holds is known by its kind and its rank alone. -/
theorem getElem?_images_iff (h : s.InSync c d) (hr : resolve s c d p rs = .ok r)
    (hid : id ≠ 0 ∧ Requirements.Names rs id) (hheld : ∃ kind, c.Holds d id kind) :
    r.images[id]? = some a ↔
      a.pathId = id ∧ (a.kind = .sprite ↔ c.Holds d id .sprite) ∧ c.IsWinner d p a := by
  obtain ⟨found, hfound, hpath, hsprite, hwinner⟩ := exists_winner h hr hid hheld
  constructor
  · intro ha
    obtain rfl : found = a := Option.some.inj (hfound.symm.trans ha)
    exact ⟨hpath, hsprite, hwinner⟩
  · rintro ⟨hpath', hsprite', hwinner'⟩
    have hkind : found.kind = a.kind := by
      have hiff := hsprite.trans hsprite'.symm
      cases hk : found.kind <;> cases hk' : a.kind <;> simp_all
    rw [hfound, hwinner.unique hwinner' (hpath.trans hpath'.symm) hkind]

/-- **What is returned of a required object is the copy that outranks all others.**  It is a sprite if
some bundle of the corpus holds one, else a texture, and of that kind it is the asset of the one copy
whose bundle has a higher rank than the bundle of every other copy.  The order of the names does not
matter: where the same bundles go by other names of the same ranks, the same images are returned. -/
theorem returns_winner (h : s.InSync c d) (hr : resolve s c d p rs = .ok r)
    (hid : id ≠ 0 ∧ Requirements.Names rs id) (hheld : ∃ kind, c.Holds d id kind) :
    (∃ a, r.images[id]? = some a) ∧
    (∀ a, r.images[id]? = some a ↔
      a.pathId = id ∧ (a.kind = .sprite ↔ c.Holds d id .sprite) ∧ c.IsWinner d p a) ∧
    ∀ (s' : Index.Store) (c' : Corpus) (d' : Files) (r' : Resolution) (f : String → String),
      s'.InSync c' d' → Corpus.Renames p f c d c' d' → resolve s' c' d' p rs = .ok r' →
        r'.images[id]? = r.images[id]?.map fun a => { a with bundle := f a.bundle } := by
  obtain ⟨a, ha, hpath, hsprite, hwinner⟩ := exists_winner h hr hid hheld
  refine ⟨⟨a, ha⟩, fun a => getElem?_images_iff h hr hid hheld, ?_⟩
  intro s' c' d' r' f h' hf hr'
  have hheld' : ∃ kind, c'.Holds d' id kind :=
    hheld.imp fun kind hkind => (hf.holds_iff h h').mpr hkind
  rw [ha, Option.map_some, getElem?_images_iff h' hr' hid hheld']
  exact ⟨hpath, hsprite.trans (hf.holds_iff h h').symm, hf.isWinner h h' hwinner⟩

/-! ### Copies of every rank

A plain, a deferred and a preferred bundle hold a texture each, and the deferred one holds a sprite of
a second object.  The preferred bundle goes by two names, of which one comes last and one first. -/

namespace EveryRank

def files (best : String) : Files :=
  Corpus.diskWith "b" [
    ("art.ab", [.ofPicture .texture 1 "hero" "" default, .ofPicture .texture 2 "foe" "" default]),
    ("avgpicprefab.ab", [.ofPicture .texture 1 "hero" "" default,
      .ofPicture .sprite 2 "foe" "" default]),
    (best ++ ".ab", [.ofPicture .texture 1 "hero" "" Mixed.clear,
      .ofPicture .texture 2 "foe" "" default])]

def corpus (best : String) : Corpus :=
  Corpus.scanned (files best) "/b"

def store (best : String) : Index.Store :=
  .fresh (corpus best) (files best)

def precedence : Precedence where
  preferred := ["best"]

def requirements : Requirements :=
  [{ owner := "A", index := 0, colorId := 1 }, { owner := "A", index := 1, colorId := 2 }]

/-- The names of the bundles where the preferred one comes first. -/
def rename (name : String) : String :=
  if name = "best" then "a_best" else name

/-- All that is asked of the bundles, whichever name the preferred one has, in one evaluation. -/
theorem evaluated_bundles : ∀ best ∈ ["best", "a_best"],
    (Corpus.scan (files best) "/b").isOk = true ∧
    (∀ b ∈ (corpus best).bundles, (Index.tablesOn (files best) b).isOk = true) ∧
    (corpus best).bundles.filter (opens (files best) [1, 2]) = (corpus best).bundles := by
  decide +kernel

/-- The copies where the preferred bundle comes last, and the bundles where it comes first. -/
theorem evaluated_copies :
    (corpus "best").copies (files "best") 1 .texture = ["art", "avgpicprefab", "best"] ∧
    (corpus "best").copies (files "best") 1 .sprite = [] ∧
    (corpus "best").copies (files "best") 2 .sprite = ["avgpicprefab"] ∧
    ((corpus "a_best").bundles.map BundleFile.name).Perm
      ((corpus "best").bundles.map fun b => rename b.name) ∧
    ∀ b ∈ (corpus "best").bundles,
      (corpus "a_best").openBundle (files "a_best") (rename b.name) =
        ((corpus "best").openBundle (files "best") b.name).map
          (fun opened => { opened with name := rename b.name }) ∧
      precedence.rank (rename b.name) = precedence.rank b.name := by
  decide +kernel

theorem inSync_store (best : String) (hbest : best ∈ ["best", "a_best"]) :
    (store best).InSync (corpus best) (files best) :=
  (Index.Store.inSync_fresh (Corpus.scan_eq_scanned (evaluated_bundles best hbest).1)
    (evaluated_bundles best hbest).2.1).1

theorem ids_requirements : Requirements.ids requirements = [1, 2] := by
  cbv

theorem exists_resolve (best : String) (hbest : best ∈ ["best", "a_best"]) :
    ∃ r, resolve (store best) (corpus best) (files best) precedence requirements = .ok r := by
  have hnames : bundlesWith (store best) [1, 2] =
      .ok ((corpus best).bundles.map BundleFile.name) := by
    rw [bundlesWith_eq (inSync_store best hbest), (evaluated_bundles best hbest).2.2]
  have hok : (resolve (store best) (corpus best) (files best) precedence
      requirements).toOption.any (fun _ => true) = true := by
    rw [resolve, ids_requirements, hnames]
    clear hnames
    revert best
    decide +kernel
  exact (exists_eq_ok_of_any hok).imp fun r => And.left

theorem renames : Corpus.Renames precedence rename (corpus "best") (files "best")
    (corpus "a_best") (files "a_best") where
  names := evaluated_copies.2.2.2.1
  openBundle b hb opened hopened := by
    rw [(evaluated_copies.2.2.2.2 b hb).1, hopened]
    rfl
  rank b hb := (evaluated_copies.2.2.2.2 b hb).2

end EveryRank

open EveryRank in
theorem returns_winner_every_rank :
    (store "best").InSync (corpus "best") (files "best") ∧
    ∃ r, resolve (store "best") (corpus "best") (files "best") precedence requirements = .ok r ∧
      (∃ a, r.images[(1 : PathId)]? = some a ∧ a.kind = .texture ∧ a.bundle = "best") ∧
      (∃ a, r.images[(2 : PathId)]? = some a ∧ a.kind = .sprite ∧ a.bundle = "avgpicprefab") ∧
      ∃ r', resolve (store "a_best") (corpus "a_best") (files "a_best") precedence requirements =
          .ok r' ∧
        ∃ a, r'.images[(1 : PathId)]? = some a ∧ a.kind = .texture ∧ a.bundle = "a_best" := by
  obtain ⟨htextures, hnone, hsprites, -⟩ := evaluated_copies
  have hsync := inSync_store "best" (by simp)
  obtain ⟨r, hr⟩ := exists_resolve "best" (by simp)
  obtain ⟨r', hr'⟩ := exists_resolve "a_best" (by simp)
  have hid : ∀ id ∈ ([1, 2] : List PathId), id ≠ 0 ∧ Requirements.Names requirements id := by
    intro id hid
    rwa [← ids_requirements, Requirements.mem_ids] at hid
  have hheld : ∃ kind, (corpus "best").Holds (files "best") 1 kind :=
    ⟨.texture, Corpus.holds_iff.mpr (by rw [htextures]; simp)⟩
  have hsprite : ¬ (corpus "best").Holds (files "best") 1 .sprite := by
    rw [Corpus.holds_iff, hnone]
    simp
  have hheld' : (corpus "best").Holds (files "best") 2 .sprite :=
    Corpus.holds_iff.mpr (by rw [hsprites]; simp)
  obtain ⟨⟨a, ha⟩, hiff, hrenamed⟩ := returns_winner hsync hr (hid 1 (by simp)) hheld
  obtain ⟨⟨a', ha'⟩, hiff', -⟩ := returns_winner hsync hr (hid 2 (by simp)) ⟨.sprite, hheld'⟩
  obtain ⟨hpath, hkind, hwinner⟩ := (hiff a).mp ha
  obtain ⟨hpath', hkind', hwinner'⟩ := (hiff' a').mp ha'
  have htexture : a.kind = .texture := by
    cases hk : a.kind with
    | texture => rfl
    | sprite => exact absurd (hkind.mp hk) hsprite
  have hwins := hwinner.wins
  have hwins' := hwinner'.wins
  rw [hpath, htexture, htextures] at hwins
  rw [hpath', hkind'.mpr hheld', hsprites] at hwins'
  have hbest : a.bundle = "best" :=
    hwins.unique ⟨["art", "avgpicprefab"], by decide, by decide⟩
  refine ⟨hsync, r, hr, ⟨a, ha, htexture, hbest⟩,
    ⟨a', ha', hkind'.mpr hheld', List.mem_singleton.mp hwins'.mem⟩, r', hr', ?_⟩
  refine ⟨{ a with bundle := rename a.bundle }, ?_, htexture, ?_⟩
  · rw [hrenamed _ _ _ r' rename (inSync_store "a_best" (by simp)) renames hr', ha]
    rfl
  · show rename a.bundle = "a_best"
    rw [hbest]
    rfl

end Resolution

end CharacterArt
