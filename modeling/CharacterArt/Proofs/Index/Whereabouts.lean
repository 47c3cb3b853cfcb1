import CharacterArt.Proofs.Bundle.Orders
import CharacterArt.Proofs.Index.Resync

/-!
# Where indexed bundles lie

A corpus keeps the path of the file that it found for a bundle.  An index knows the name alone and
puts the path together from the directory, the name and the extension of bundles in small letters.
Since files are bundles whatever the letter case of their extension, the two paths differ if the
extension of the file has a capital letter, and the one of the index may lead nowhere.

## Main Results

* `Corpus.exists_extension` — the path of a bundle tells its name and its extension
* `Handle.bundlePath_of_sync` — the paths of an index after a sync, beside those of the corpus
* `exists_bundlePath_astray` — an indexed bundle whose path leads nowhere
-/

namespace CharacterArt

namespace Corpus

variable {root name : String} {listing : List (String × Nat)} {b : BundleFile}

/-- **The path of a bundle tells its name and its extension.** -/
theorem exists_extension (hlisting : IsListing listing)
    (h : (ofListing root listing).get? name = some b) :
    ∃ extension, isBundleExtension extension = true ∧ '/' ∉ (name ++ "." ++ extension).toList ∧
      b.path = Path.join root (name ++ "." ++ extension) := by
  obtain ⟨e, hlast, rfl⟩ := (get?_ofListing_eq_some_iff hlisting).mp h
  obtain ⟨-, extension, hextension, hfile⟩ := hlast.1
  have hslash := (hlisting.isName e hlast.mem).no_slash
  rw [hfile] at hslash
  exact ⟨extension, hextension, hslash, congrArg (Path.join root) hfile⟩

end Corpus

namespace Index

variable {root name : String} {s : Store}

theorem Store.bundlePath_eq_ok (h : s.bundles[name]?.isSome = true) :
    s.bundlePath root name = .ok (Path.join root (name ++ "." ++ bundleExtension)) :=
  if_pos (Std.TreeMap.contains_eq_isSome_getElem?.trans h)

theorem Store.bundlePath_eq_error (h : s.bundles[name]? = none) :
    s.bundlePath root name = .error (.bundleNotIndexed name) := by
  have hno : s.bundles.contains name = false := by
    rw [Std.TreeMap.contains_eq_isSome_getElem?, h]
    rfl
  rw [bundlePath, hno]
  rfl

/-- **The paths of an index after a sync, beside those of the corpus.**  Every bundle of the corpus
has a path that differs from that of its file at most in the letter case of the extension, and it is
that of its file exactly if the extension is in small letters.  Other names are not indexed. -/
theorem Handle.bundlePath_of_sync {h h' : Handle} {d d' : Files} {stats : SyncStats}
    {listing : List (String × Nat)} (hlisting : Corpus.IsListing listing)
    (hsync : h.sync d (Corpus.ofListing root listing) = (.ok stats, h', d')) :
    ∃ s, h'.store d' = .ok s ∧
      (∀ name b, (Corpus.ofListing root listing).get? name = some b →
        ∃ extension, Corpus.isBundleExtension extension = true ∧
          b.path = Path.join root (name ++ "." ++ extension) ∧
          s.bundlePath root name = .ok (Path.join root (name ++ "." ++ Store.bundleExtension)) ∧
          (s.bundlePath root name = .ok b.path ↔ extension = Store.bundleExtension)) ∧
      ∀ name, (Corpus.ofListing root listing).get? name = none →
        s.bundlePath root name = .error (.bundleNotIndexed name) := by
  obtain ⟨s, hstore, hbundles⟩ := Handle.exists_store_of_sync Corpus.named_ofListing hsync
  refine ⟨s, hstore, fun name b hget => ?_, fun name hget => ?_⟩
  · obtain ⟨extension, hextension, hslash, hpath⟩ := Corpus.exists_extension hlisting hget
    have hindexed : s.bundlePath root name =
        .ok (Path.join root (name ++ "." ++ Store.bundleExtension)) :=
      Store.bundlePath_eq_ok (by rw [hbundles, hget]; rfl)
    refine ⟨extension, hextension, hpath, hindexed, ?_⟩
    rw [hindexed, hpath, Except.ok.injEq]
    exact Path.join_extension_iff hslash (by decide)
  · exact Store.bundlePath_eq_error (by rw [hbundles, hget]; rfl)

/-! ### A directory with a capital letter -/

namespace Capital

/-- A directory of two empty bundles, one of them with an extension in capital letters. -/
def disk : Files :=
  Corpus.diskWith "bundles" [("art.ab", []), ("more.AB", [])]

/-- What the directory lists. -/
def listing : List (String × Nat) :=
  [("art.ab", 12), ("more.AB", 12)]

/-- The corpus of the directory. -/
def corpus : Corpus :=
  Corpus.ofListing "bundles" listing

/-- All that is asked of the directory, in one evaluation. -/
theorem evaluated :
    Corpus.scan disk "bundles" = .ok corpus ∧
    ((Handle.inMemory {}).sync disk corpus).1.isOk = true ∧
    corpus.get? "art" = some ⟨"art", 12, "bundles/art.ab"⟩ ∧
    corpus.get? "more" = some ⟨"more", 12, "bundles/more.AB"⟩ ∧
    corpus.get? "foe" = none := by
  refine ⟨rfl, ?_⟩
  decide +kernel

/-- A new index is synced with the directory. -/
theorem exists_sync : ∃ stats h d,
    (Handle.inMemory {}).sync disk corpus = (.ok stats, h, d) := by
  obtain ⟨-, hok, -⟩ := evaluated
  rcases hsync : (Handle.inMemory {}).sync disk corpus with ⟨stats | e, h, d⟩
  · rw [hsync] at hok
    cases hok
  · exact ⟨_, h, d, rfl⟩

theorem isListing_listing : Corpus.IsListing listing :=
  ⟨by decide, by decide⟩

end Capital

open Capital in
theorem bundlePath_of_sync_capital : ∃ (h : Handle) (d : Files) (s : Store), h.store d = .ok s ∧
    s.bundlePath "bundles" "art" = .ok "bundles/art.ab" ∧
    s.bundlePath "bundles" "more" ≠ .ok "bundles/more.AB" ∧
    s.bundlePath "bundles" "foe" = .error (.bundleNotIndexed "foe") := by
  obtain ⟨stats, h, d, hsync⟩ := exists_sync
  obtain ⟨-, -, hart, hmore, hfoe⟩ := evaluated
  obtain ⟨s, hstore, hin, hout⟩ := Handle.bundlePath_of_sync isListing_listing hsync
  refine ⟨h, d, s, hstore, ?_, fun hsame => ?_, hout "foe" hfoe⟩
  · obtain ⟨-, -, -, hpath, -⟩ := hin "art" _ hart
    exact hpath.trans (by decide +kernel)
  · obtain ⟨extension, -, hpath, -, hiff⟩ := hin "more" _ hmore
    rw [hiff.mp hsame] at hpath
    exact absurd hpath (by decide +kernel)

open Capital in
/-- **The path of an indexed bundle may lead nowhere.**  A new index is synced with a directory, and
a bundle that the corpus has at one path is said to be at another one, where there is no file. -/
theorem exists_bundlePath_astray :
    ∃ (d : Files) (c : Corpus) (stats : SyncStats) (h : Handle) (d' : Files) (s : Store)
      (b : BundleFile),
      Corpus.scan d "bundles" = .ok c ∧
      (Handle.inMemory {}).sync d c = (.ok stats, h, d') ∧ h.store d' = .ok s ∧
      c.get? "more" = some b ∧ b.path = "bundles/more.AB" ∧ (c.openBundle d "more").isOk = true ∧
      s.bundlePath c.root "more" = .ok "bundles/more.ab" ∧
      d.isFile "bundles/more.ab" = false := by
  obtain ⟨stats, h, d, hsync⟩ := exists_sync
  obtain ⟨hscan, -, -, hmore, -⟩ := evaluated
  obtain ⟨s, hstore, hbundles⟩ := Handle.exists_store_of_sync Corpus.named_ofListing hsync
  refine ⟨disk, corpus, stats, h, d, s, _, hscan, hsync, hstore, hmore, rfl, by decide +kernel, ?_,
    by decide +kernel⟩
  have hindexed : s.bundles["more"]? = some 12 := by
    rw [hbundles]
    exact congrArg (Option.map BundleFile.size) hmore
  refine (Store.bundlePath_eq_ok (by rw [hindexed]; rfl)).trans ?_
  decide +kernel

end Index

end CharacterArt
