import CharacterArt.Proofs.Failures
import CharacterArt.Proofs.Index.Selection
import CharacterArt.Proofs.Index.SyncHistory
import CharacterArt.Proofs.Resolution.Opened

/-!
# Records lead to objects

A record names a bundle, a number and a kind, and the object is decoded later from the table that
the bundle has then.  If the tables that can be read are those that were indexed
(`Store.Tracks`), then the table has an entry for every record that a query returns, so the object is
not lost.  That its file cannot be read is all that may happen.

## Main Definitions

* `Error.IsLost`, `NothingLost` — there is no such bundle, or no such object in it, and a computation
  that never finds that
* `Store.Tracks` — an index whose records are those of the tables that can be read

## Main Results

* `Store.Tracks.exists_entry` — the entry of a record
* `Store.Tracks.exists_selected` — the entry that is decoded for a record
* `Store.Tracks.failsOnly_decodeOne` — how decoding the object of a record fails
-/

namespace CharacterArt

/-- There is no such bundle, or no such object in it. -/
def Error.IsLost : Error → Prop
  | .bundleNotFound _ | .objectNotFound .. => True
  | _ => False

/-- A computation never comes upon a bundle or an object that is not there. -/
abbrev NothingLost {α : Type} (x : Except Error α) : Prop :=
  FailsOnly (fun e => ¬ e.IsLost) x

namespace NothingLost

variable {α : Type} {x : Except Error α}

theorem of_reading (h : FailsOnly Error.IsOfReading x) : NothingLost x := by
  refine h.mono fun e he hlost => ?_
  cases e <;> first | exact he | exact hlost

theorem of_database (h : FailsOnly Error.IsOfDatabase x) : NothingLost x := by
  refine h.mono fun e he hlost => ?_
  cases e <;> first | exact he | exact hlost

end NothingLost

/-- An entry of an image fails to be decoded only if its payload cannot be read. -/
theorem Bundle.failsOnly_decode {b : Bundle} {e : Entry} (hkind : e.kind?.isSome = true) :
    FailsOnly Error.IsOfReading (b.decode e) := by
  unfold decode
  split
  · next hnone =>
      rw [hnone] at hkind
      cases hkind
  · exact (b.failsOnly_readPicture e).map _

/-- A bundle of a corpus fails to be opened only if its file cannot be read. -/
theorem Corpus.failsOnly_openBundle {c : Corpus} (hc : c.Named) {b : BundleFile}
    (hb : b ∈ c.bundles) (d : Files) : FailsOnly Error.IsOfReading (c.openBundle d b.name) := by
  rw [openBundle, (mem_bundles hc).mp hb]
  exact failsOnly_readBundle d b

/-- The first entry of a number and a kind is decoded. -/
theorem Corpus.decodeOne_eq {c : Corpus} {d : Files} {name : String} {opened : Bundle}
    {id : PathId} {kind : AssetKind} {e : Bundle.Entry} (hopened : c.openBundle d name = .ok opened)
    (hfind : opened.entries.find? (Bundle.Entry.describes id kind) = some e) :
    c.decodeOne d name id kind = opened.decode e := by
  have hselect : (opened.entries.find? fun e => e.pathId == id && e.kind? == some kind) = some e :=
    hfind
  rw [decodeOne, hopened]
  simp only [bind, Except.bind, hselect]

namespace Index

/-- The entry of a record has its number and its kind. -/
theorem describes_of_recordOf? {bundle : String} {e : Bundle.Entry} {r : Record}
    (h : recordOf? bundle e = some r) : e.describes r.pathId r.kind = true ∧ r.bundle = bundle := by
  obtain ⟨kind, hkind, rfl⟩ := Option.map_eq_some_iff.mp h
  simp [Bundle.Entry.describes, hkind]

namespace Store

variable {s : Store} {c : Corpus} {d : Files} {r : Record} {opened : Bundle}

/-- An index whose records are those of the tables of a corpus, as far as these can be read. -/
structure Tracks (s : Store) (c : Corpus) (d : Files) : Prop where
  named : c.Named
  exists_tables : ∃ tables, s.InStep tables c ∧
    ∀ b ∈ c.bundles, ∀ entries, tablesOn d b = .ok entries → entries = tables b.name b.size

/-- What a query of a store in step with a corpus returns is a record of the corpus. -/
theorem InStep.mem_records {tables : Tables} (hs : s.InStep tables c) (hc : c.Named)
    (hr : s.Returns r) : r ∈ tables.records c := by
  obtain ⟨row, hrow, hread⟩ := hr.exists_row
  obtain ⟨r', hr', hholds⟩ := hs.exists_record hc hrow
  obtain rfl : r' = r := Option.some.inj (hholds.record?.symm.trans hread)
  exact hr'

namespace Tracks

/-- A record that a query returns names a bundle of the corpus. -/
theorem exists_bundle (h : s.Tracks c d) (hr : s.Returns r) :
    ∃ b ∈ c.bundles, b.name = r.bundle := by
  obtain ⟨tables, hs, -⟩ := h.exists_tables
  obtain ⟨b, hb, hrecord⟩ := List.mem_flatMap.mp (hs.mem_records h.named hr)
  obtain ⟨e, -, he⟩ := List.mem_filterMap.mp hrecord
  exact ⟨b, hb, (describes_of_recordOf? he).2.symm⟩

/-- **The bundle of a record that a query returns has an entry for it**, if it can be opened. -/
theorem exists_entry (h : s.Tracks c d) (hr : s.Returns r)
    (hopened : c.openBundle d r.bundle = .ok opened) :
    ∃ e ∈ opened.entries, recordOf? r.bundle e = some r := by
  obtain ⟨tables, hs, hread⟩ := h.exists_tables
  obtain ⟨b, hb, hrecord⟩ := List.mem_flatMap.mp (hs.mem_records h.named hr)
  obtain ⟨e, hmem, he⟩ := List.mem_filterMap.mp hrecord
  have hbundle := (describes_of_recordOf? he).2
  rw [hbundle, Corpus.openBundle, (Corpus.mem_bundles h.named).mp hb] at hopened
  have htable : tablesOn d b = .ok opened.entries := by
    have hread : Corpus.readBundle d b = .ok opened := hopened
    rw [tablesOn, hread]
    rfl
  refine ⟨e, ?_, hbundle ▸ he⟩
  rw [hread b hb _ htable]
  exact hmem

/-- **What is decoded for a record is an entry of its number and its kind**, and it is the entry of
the record itself if there is only one. -/
theorem exists_selected (h : s.Tracks c d) (hr : s.Returns r)
    (hopened : c.openBundle d r.bundle = .ok opened) :
    ∃ e ∈ opened.entries, e.describes r.pathId r.kind = true ∧
      c.decodeOne d r.bundle r.pathId r.kind = opened.decode e ∧
      ((opened.entries.filter (Bundle.Entry.describes r.pathId r.kind)).length = 1 →
        recordOf? r.bundle e = some r) := by
  obtain ⟨own, hown, hrecord⟩ := h.exists_entry hr hopened
  have hdescribes := (describes_of_recordOf? hrecord).1
  cases hfind : opened.entries.find? (Bundle.Entry.describes r.pathId r.kind) with
  | none => exact absurd hdescribes (List.find?_eq_none.mp hfind own hown)
  | some e =>
      have he := List.mem_of_find?_eq_some hfind
      have hsame := List.find?_some hfind
      refine ⟨e, he, hsame, ?_, fun hone => ?_⟩
      · exact Corpus.decodeOne_eq hopened hfind
      · obtain ⟨only, honly⟩ := List.length_eq_one_iff.mp hone
        have hmem : ∀ x ∈ opened.entries, x.describes r.pathId r.kind = true → x = only := by
          intro x hx hdesc
          have hin : x ∈ opened.entries.filter (Bundle.Entry.describes r.pathId r.kind) :=
            List.mem_filter.mpr ⟨hx, hdesc⟩
          rw [honly] at hin
          exact List.mem_singleton.mp hin
        rw [hmem e he hsame, ← hmem own hown hdescribes]
        exact hrecord

/-- **Decoding the object of a record fails only if its file cannot be read.** -/
theorem failsOnly_decodeOne (h : s.Tracks c d) (hr : s.Returns r) :
    FailsOnly Error.IsOfReading (c.decodeOne d r.bundle r.pathId r.kind) := by
  obtain ⟨b, hb, hname⟩ := h.exists_bundle hr
  cases hopened : c.openBundle d r.bundle with
  | error e =>
      rw [Corpus.decodeOne, hopened]
      refine FailsOnly.error (Corpus.failsOnly_openBundle h.named hb d e ?_)
      rw [hname, hopened]
  | ok opened =>
      obtain ⟨e, he, hdescribes, hdecode, -⟩ := h.exists_selected hr hopened
      rw [hdecode]
      rw [Bundle.Entry.describes, Bool.and_eq_true, beq_iff_eq, beq_iff_eq] at hdescribes
      exact Bundle.failsOnly_decode (by rw [hdescribes.2]; rfl)

end Tracks

end Store

/-- After every history of syncs the index tracks the corpus of the last one that succeeded, if the
names and sizes of its bundles still stand for the same tables. -/
theorem SyncHistory.tracks {tables : Tables} {h : Handle} {d : Files} {c : Corpus}
    (history : SyncHistory tables h d c)
    (hread : ∀ b ∈ c.bundles, ∀ entries, tablesOn d b = .ok entries →
      entries = tables b.name b.size) : ∃ s, h.store d = .ok s ∧ s.Tracks c d := by
  obtain ⟨s, hstore, hstep⟩ := history.inStep
  exact ⟨s, hstore, history.named, tables, hstep, hread⟩

end Index

end CharacterArt
