import CharacterArt.Bundle.Corpus
import CharacterArt.Index.Lookup
import CharacterArt.Proofs.Traversal

/-!
# How operations fail

A statement that something cannot go wrong in one way is made of statements about its steps, whose
failures are of few kinds.  `FailsOnly` says of which kind they are, and it passes through the ways
in which steps are put together.

## Main Definitions

* `FailsOnly` — every failure of a computation is of a kind
* `Error.IsOfReading`, `Error.IsOfDatabase` — failures of bundle files, and those of the database

## Main Results

* `Corpus.failsOnly_readBundle`, `Bundle.failsOnly_readPicture` — reading a bundle
* `Index.Store.failsOnly_findByName?` — looking up a name
-/

namespace CharacterArt

/-- If a computation fails, then in a way that is allowed. -/
def FailsOnly {α : Type} (P : Error → Prop) (x : Except Error α) : Prop :=
  ∀ e, x = .error e → P e

namespace FailsOnly

variable {α β : Type} {P Q : Error → Prop}

theorem ok (a : α) : FailsOnly P (.ok a : Except Error α) :=
  nofun

theorem error {e : Error} (he : P e) : FailsOnly P (.error e : Except Error α) := by
  rintro _ ⟨⟩
  exact he

theorem mono {x : Except Error α} (hx : FailsOnly P x) (h : ∀ e, P e → Q e) : FailsOnly Q x :=
  fun e he => h e (hx e he)

/-- Two steps, of which the second one is taken with a value of the first. -/
theorem bind {x : Except Error α} {f : α → Except Error β} (hx : FailsOnly P x)
    (hf : ∀ a, x = .ok a → FailsOnly P (f a)) : FailsOnly P (x >>= f) := by
  intro e h
  rcases bind_eq_error_iff.mp h with herror | ⟨a, ha, herror⟩
  · exact hx e herror
  · exact hf a ha e herror

theorem map {x : Except Error α} (hx : FailsOnly P x) (f : α → β) : FailsOnly P (x.map f) :=
  fun e h => hx e (map_eq_error_iff.mp h)

theorem mapM {f : α → Except Error β} {xs : List α} (hf : ∀ a ∈ xs, FailsOnly P (f a)) :
    FailsOnly P (xs.mapM f) := by
  induction xs with
  | nil => exact ok []
  | cons x rest ih =>
      rw [List.mapM_cons]
      have hrest := ih fun a ha => hf a (List.mem_cons_of_mem x ha)
      exact (hf x List.mem_cons_self).bind fun b _ => hrest.bind fun bs _ => ok (b :: bs)

theorem foldlM {f : β → α → Except Error β} (hf : ∀ b a, FailsOnly P (f b a)) (xs : List α)
    (b : β) : FailsOnly P (xs.foldlM f b) := by
  induction xs generalizing b with
  | nil => exact ok b
  | cons x rest ih =>
      rw [List.foldlM_cons]
      exact (hf b x).bind fun b' _ => ih b'

end FailsOnly

/-! ### Reading bundles -/

/-- Failures of files and of what they hold. -/
def Error.IsOfReading : Error → Prop
  | .file _ | .bundleMagic .. | .bundleVersion _ | .bundleCorrupt .. | .decompression .. => True
  | _ => False

theorem Bundle.failsOnly_readTable (path name : String) (bytes : Text.Bytes) :
    FailsOnly Error.IsOfReading (readTable path name bytes) := by
  unfold readTable
  dsimp only
  repeat' split
  all_goals rintro e ⟨⟩ <;> trivial

theorem Corpus.failsOnly_readBundle (d : Files) (b : BundleFile) :
    FailsOnly Error.IsOfReading (readBundle d b) := by
  refine FailsOnly.bind ?_ fun bytes _ => (Bundle.failsOnly_readTable _ _ bytes).map _
  unfold Files.readBytes
  split
  · exact FailsOnly.ok _
  · exact FailsOnly.error trivial

theorem Bundle.failsOnly_readPicture (b : Bundle) (e : Entry) :
    FailsOnly Error.IsOfReading (b.readPicture e) := by
  unfold readPicture
  dsimp only
  repeat' split
  all_goals rintro e ⟨⟩ <;> trivial

/-! ### Looking things up -/

/-- Failures of the index database. -/
def Error.IsOfDatabase : Error → Prop
  | .database _ => True
  | _ => False

namespace Index

theorem failsOnly_records (rows : List Row) : FailsOnly Error.IsOfDatabase (records rows) := by
  unfold records
  split
  · exact FailsOnly.ok _
  · exact FailsOnly.error trivial

theorem Store.failsOnly_findByName? (s : Store) (name : String) (kind : AssetKind) :
    FailsOnly Error.IsOfDatabase (s.findByName? name kind) := by
  unfold findByName? firstByBundle
  split
  · exact FailsOnly.ok none
  · exact (failsOnly_records _).map _

end Index

end CharacterArt
