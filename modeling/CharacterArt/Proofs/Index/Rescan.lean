import CharacterArt.Proofs.Bundle.Orders
import CharacterArt.Proofs.Index.Resync

/-!
# Scans of an unchanged directory

Two scans of an unchanged directory may see its files in different orders.  An index that was synced
with the first corpus is synced with the second one, and the question is whether that sync has
anything to do.  Bundles are compared by their sizes, so it has not if the files that are bundles of
one name have one size; otherwise there are orders in which the directory seems changed.

## Main Definitions

* `Corpus.Settles` — the name of a bundle decides something about its file
* `Corpus.PassesFor` — a corpus that no index synced with another one sees a change in

## Main Results

* `Corpus.passesFor_iff` — corpora are told apart by the sizes of their bundles
* `Corpus.rescan_iff` — what scans in different orders have in common
* `Corpus.exists_apart` — a directory whose scans differ
-/

namespace CharacterArt

open Index

namespace Corpus

variable {c c' : Corpus} {listing : List (String × Nat)}

/-- The name of a bundle decides something about its file, whichever of the files of that name it
is. -/
def Settles {γ : Type} (listing : List (String × Nat)) (f : String × Nat → γ) : Prop :=
  ∀ name, ∀ e₁ ∈ listing, ∀ e₂ ∈ listing, IsBundleName name e₁.1 → IsBundleName name e₂.1 →
    f e₁ = f e₂

/-- Every index that was just synced with a corpus sees no change in another one: a sync with that
one succeeds, has nothing to do, and leaves the index and the files as they are. -/
def PassesFor (c' c : Corpus) : Prop :=
  ∀ {h h' : Handle} {d d' : Files} {stats : SyncStats}, h.sync d c = (.ok stats, h', d') →
    ∃ again, again.isNoop = true ∧ h'.sync d' c' = (.ok again, h', d')

/-- A store in which the bundles of a corpus are indexed, all of them without images. -/
def indexed (c : Corpus) : Store where
  bundles := c.files.map fun _ b => b.size

theorem isNoop_indexed (hc : c.Named) : ((indexed c).syncStats c).isNoop = true := by
  refine (Store.isNoop_iff hc).mpr fun name => ?_
  rw [indexed, Std.TreeMap.getElem?_map]
  rfl

/-- **Corpora are told apart by the sizes of their bundles.** -/
theorem passesFor_iff (hc : c.Named) (hc' : c'.Named) : c'.PassesFor c ↔
    ∀ name, (c.get? name).map BundleFile.size = (c'.get? name).map BundleFile.size := by
  constructor
  · intro hpasses name
    have hsync : (Handle.inMemory (indexed c)).sync {} c =
        (.ok ((indexed c).syncStats c), Handle.inMemory (indexed c), {}) :=
      Handle.sync_of_isNoop rfl (isNoop_indexed hc)
    obtain ⟨again, hagain, hsync'⟩ := hpasses hsync
    -- a sync that leaves a store as it is finds in it what the corpus has
    obtain ⟨s, hstore, hs⟩ := Handle.exists_store_of_sync hc hsync
    obtain ⟨s', hstore', hs'⟩ := Handle.exists_store_of_sync hc' hsync'
    obtain rfl := Except.ok.inj (hstore.symm.trans hstore')
    rw [← hs, hs']
  · intro hsizes h h' d d' stats hsync
    obtain ⟨s, hstore, hs⟩ := Handle.exists_store_of_sync hc hsync
    have hnoop : (s.syncStats c').isNoop = true :=
      (Store.isNoop_iff hc').mpr fun name => (hs name).trans (hsizes name)
    exact ⟨s.syncStats c', hnoop, Handle.sync_of_isNoop hstore hnoop⟩

/-- **What scans of a directory in different orders have in common.**  A corpus keeps the last file
of a name.  All orders give the same names, they give the same bundles exactly if no two files are
bundles of one name, and no sync sees a change exactly if the files of a name have one size. -/
theorem rescan_iff (root : String) (h : IsListing listing) :
    (∀ order, order.Perm listing → ∀ name b, (ofListing root order).get? name = some b ↔
      ∃ e, IsLast name order e ∧ b = bundleOf root name e) ∧
    (∀ o₁ o₂, o₁.Perm listing → o₂.Perm listing →
      (ofListing root o₁).bundles.map BundleFile.name =
        (ofListing root o₂).bundles.map BundleFile.name) ∧
    ((∀ o₁ o₂, o₁.Perm listing → o₂.Perm listing →
      (ofListing root o₁).bundles = (ofListing root o₂).bundles) ↔ Settles listing Prod.fst) ∧
    ((∀ o₁ o₂, o₁.Perm listing → o₂.Perm listing →
      (ofListing root o₂).PassesFor (ofListing root o₁)) ↔ Settles listing Prod.snd) := by
  refine ⟨fun order horder name b => get?_ofListing_eq_some_iff (h.perm horder), ?_, ?_, ?_⟩
  · exact fun o₁ o₂ ho₁ ho₂ => bundles_map_congr BundleFile.name
      ((agree_iff root BundleFile.name h).mpr (fun _ _ _ _ _ _ _ => rfl) o₁ o₂ ho₁ ho₂)
  · constructor
    · intro hbundles name e₁ he₁ e₂ he₂ hname₁ hname₂
      have hsame := (agree_iff root id h).mp (fun o₁ o₂ ho₁ ho₂ name => by
        rw [get?_congr named_ofListing named_ofListing (hbundles o₁ o₂ ho₁ ho₂)])
        name e₁ he₁ e₂ he₂ hname₁ hname₂
      exact Path.join_inj (h.isName e₁ he₁).no_slash (h.isName e₂ he₂).no_slash
        (congrArg BundleFile.path hsame)
    · intro hsettles o₁ o₂ ho₁ ho₂
      have hsame := bundles_map_congr id ((agree_iff root id h).mpr
        (fun name e₁ he₁ e₂ he₂ hname₁ hname₂ => by
          rw [List.inj_on_of_nodup_map h.nodup he₁ he₂
            (hsettles name e₁ he₁ e₂ he₂ hname₁ hname₂)]) o₁ o₂ ho₁ ho₂)
      rwa [List.map_id, List.map_id] at hsame
  · have hsizes := agree_iff root BundleFile.size h
    constructor
    · intro hpasses
      exact hsizes.mp fun o₁ o₂ ho₁ ho₂ =>
        (passesFor_iff named_ofListing named_ofListing).mp (hpasses o₁ o₂ ho₁ ho₂)
    · intro hsettles o₁ o₂ ho₁ ho₂
      exact (passesFor_iff named_ofListing named_ofListing).mpr
        (hsizes.mpr hsettles o₁ o₂ ho₁ ho₂)

/-- A listing of two files that are bundles of one name. -/
def twins : List (String × Nat) :=
  [("art.ab", 5), ("art.AB", 7)]

theorem isListing_twins : IsListing twins :=
  ⟨by decide, by decide⟩

theorem rescan_iff_twins : IsListing twins ∧ ∀ order, order.Perm twins →
    (ofListing "bundles" order).bundles.map BundleFile.name = ["art"] := by
  refine ⟨isListing_twins, fun order horder => ?_⟩
  rw [(rescan_iff "bundles" isListing_twins).2.1 order twins horder (List.Perm.refl twins)]
  decide +kernel

/-- **Scans of one directory may differ**, and an index that was synced with one of them sees a
change in another one. -/
theorem exists_apart : ∃ listing order, IsListing listing ∧ order.Perm listing ∧
    (ofListing "bundles" listing).bundles = [⟨"art", 7, "bundles/art.AB"⟩] ∧
    (ofListing "bundles" order).bundles = [⟨"art", 5, "bundles/art.ab"⟩] ∧
    ¬ (ofListing "bundles" order).PassesFor (ofListing "bundles" listing) := by
  refine ⟨twins, twins.reverse, isListing_twins, List.reverse_perm twins, by decide +kernel,
    by decide +kernel, fun hpasses => ?_⟩
  have hsizes := (passesFor_iff named_ofListing named_ofListing).mp hpasses "art"
  exact absurd hsizes (by decide +kernel)

end Corpus

end CharacterArt
