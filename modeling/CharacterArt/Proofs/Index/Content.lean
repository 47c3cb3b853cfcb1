import CharacterArt.Proofs.Bundle.Corpus
import CharacterArt.Proofs.Index.StandardTable
import CharacterArt.Proofs.Traversal

/-!
# What a store holds of each bundle

A sync takes out whole bundles and puts in whole bundles, so its effect is told bundle by bundle:
`Store.content` is what a store holds of one bundle, and each part of a sync has an equation for it.

The invariant is `Store.Faithful`: of every indexed bundle a store holds the rows for the object
table that its name and size stand for, and it holds nothing else.  It says nothing of a corpus, so
it survives syncs with any corpus, and a sync that succeeds adds that the indexed bundles are those
of its corpus (`Store.InStep`).

## Main Definitions

* `Store.content` — the rows of a bundle, in order
* `Store.Faithful`, `Store.InStep` — the invariant, and the state that a sync leaves

## Main Results

* `Store.content_withoutBundles`, `Store.withBundles_content` — what the two parts of a sync do
* `Store.sync_inStep` — a sync that succeeds puts a faithful store in step with its corpus
* `Store.exists_sync` — a sync succeeds if the tables that it needs can be read
-/

namespace CharacterArt.Index

/-- The object tables of bundles, by their names and sizes. -/
abbrev Tables := String → Nat → List Bundle.Entry

namespace Store

variable {s s' t : Store} {c : Corpus} {tables : Tables}
variable {read : BundleFile → Except Error (List Bundle.Entry)}

/-- The rows of a bundle without their numbers, in order. -/
def content (s : Store) (name : String) : List Row :=
  (s.images.toList.filter (Row.isOf name)).map Row.unnumbered

theorem unnumbered_mem_content {r : Row} {name : String} (hr : r ∈ s.images)
    (hname : r.bundle = .text name) : r.unnumbered ∈ s.content name :=
  List.mem_map_of_mem (List.mem_filter.mpr ⟨Array.mem_toList_iff.mpr hr, Row.isOf_iff.mpr hname⟩)

/-- Every row belongs to a bundle by its name. -/
def NamesBundles (s : Store) : Prop :=
  ∀ r ∈ s.images, ∃ name, r.bundle = .text name

/-- Of every indexed bundle the store holds the rows for its object table, and it holds nothing
else. -/
structure Faithful (tables : Tables) (s : Store) : Prop where
  standard : s.table = .standard
  namesBundles : s.NamesBundles
  content_eq : ∀ name, s.content name =
    (s.bundles[name]?.map fun size => rowsOf name (tables name size)).getD []

theorem Faithful.isPlain (h : s.Faithful tables) : s.table.IsPlain :=
  h.standard ▸ Table.standard_isPlain

/-- A faithful store whose bundles are those of a corpus. -/
structure InStep (tables : Tables) (s : Store) (c : Corpus) : Prop where
  faithful : s.Faithful tables
  bundles_eq : ∀ name, s.bundles[name]? = (c.get? name).map BundleFile.size

/-- A new store is in step with the corpus without bundles. -/
theorem inStep_new (tables : Tables) (root : String) : ({} : Store).InStep tables ⟨root, ∅⟩ where
  faithful := ⟨rfl, fun r hr => by simp at hr, fun name => by simp [content]⟩
  bundles_eq name := by simp [Corpus.get?]

/-! ### Taking bundles out -/

theorem getElem?_withoutBundles (s : Store) (names : List String) (name : String) :
    (s.withoutBundles names).bundles[name]? =
      if name ∈ names then none else s.bundles[name]? := by
  rw [withoutBundles, Std.TreeMap.getElem?_filter']
  by_cases h : name ∈ names <;> cases s.bundles[name]? <;> simp [h]

theorem namesBundles_withoutBundles (h : s.NamesBundles) (names : List String) :
    (s.withoutBundles names).NamesBundles := by
  intro r hr
  exact h r (Array.mem_of_mem_filter hr)

/-- **Taking bundles out leaves nothing of them, and all of the others.** -/
theorem content_withoutBundles (hs : s.table.IsPlain) (names : List String) (name : String) :
    (s.withoutBundles names).content name = if name ∈ names then [] else s.content name := by
  -- of the rows of one bundle the filter keeps all or none
  have hrow : ∀ r : Row, (r.isOf name && !s.belongsTo names r) =
      (r.isOf name && !decide (name ∈ names)) := by
    intro r
    cases hr : r.isOf name with
    | false => rfl
    | true =>
        have hbundle := Row.isOf_iff.mp hr
        have hany : (names.any fun other => r.isOf other) = decide (name ∈ names) := by
          rw [Bool.eq_iff_iff, List.any_eq_true, decide_eq_true_iff]
          constructor
          · rintro ⟨other, hother, hisOf⟩
            rw [Row.isOf_iff, hbundle] at hisOf
            cases hisOf
            exact hother
          · exact fun hname => ⟨name, hname, hr⟩
        rw [belongsTo_eq hs, hany]
  rw [content, withoutBundles, Array.toList_filter, List.filter_filter]
  simp only [hrow]
  by_cases h : name ∈ names <;> simp [h, content]

/-! ### Putting bundles in -/

/-- What one store has more than another: the rows of some bundles at the end, and their sizes. -/
structure Gains (tables : Tables) (s : Store) (bs : List BundleFile) (s' : Store) : Prop where
  table_eq : s'.table = s.table
  rows : ∀ r ∈ s'.images, r ∈ s.images ∨ ∃ b ∈ bs, r.bundle = .text b.name
  others : ∀ name ∉ bs.map BundleFile.name,
    s'.bundles[name]? = s.bundles[name]? ∧ s'.content name = s.content name
  gained : ∀ b ∈ bs, s'.bundles[b.name]? = some b.size ∧
    s'.content b.name = s.content b.name ++ rowsOf b.name (tables b.name b.size)

theorem gains_nil (tables : Tables) (s : Store) : s.Gains tables [] s :=
  ⟨rfl, fun _ hr => .inl hr, fun _ _ => ⟨rfl, rfl⟩, fun b hb => by simp at hb⟩

theorem Gains.namesBundles {bs : List BundleFile} (hgains : s.Gains tables bs s')
    (h : s.NamesBundles) : s'.NamesBundles := by
  intro r hr
  rcases hgains.rows r hr with hold | ⟨b, -, hbundle⟩
  · exact h r hold
  · exact ⟨b.name, hbundle⟩

/-- A plain table takes the rows of every bundle. -/
theorem exists_withBundle (hs : s.table.IsPlain) (tables : Tables) (b : BundleFile) :
    ∃ s', s.withBundle b (tables b.name b.size) = .ok s' ∧ s.Gains tables [b] s' := by
  obtain ⟨new, hinsert, hnew⟩ := hs.insertAll
    ((tables b.name b.size).filterMap (recordOf? b.name)) s.images
  have hbundle : ∀ r ∈ new, r.bundle = .text b.name := by
    intro r hr
    have hmem : r.unnumbered ∈ rowsOf b.name (tables b.name b.size) := by
      rw [rowsOf, ← hnew]
      exact List.mem_map_of_mem hr
    have hunnumbered : r.unnumbered.bundle = .text b.name := Row.bundle_of_mem_rowsOf hmem
    exact hunnumbered
  refine ⟨{ s with bundles := s.bundles.insert b.name b.size, images := s.images ++ new.toArray },
    ?_, rfl, ?_, ?_, ?_⟩
  -- the four parts: the step itself, the rows, the other bundles, the new one
  · rw [withBundle, rowsOf, hinsert]
    simp only [refersWell_eq_true hs, if_true]
  · intro r hr
    rcases Array.mem_append.mp hr with hr | hr
    · exact .inl hr
    · exact .inr ⟨b, List.mem_singleton_self b, hbundle r (by simpa using hr)⟩
  · intro name hname
    have hne : b.name ≠ name := by simpa [eq_comm] using hname
    have hnone : new.filter (Row.isOf name) = [] := by
      rw [List.filter_eq_nil_iff]
      intro r hr
      simp [Row.isOf, hbundle r hr, hne]
    refine ⟨?_, ?_⟩
    · rw [Std.TreeMap.getElem?_insert, if_neg]
      simpa using hne
    · simp [content, hnone]
  · intro b' hb'
    rw [List.mem_singleton] at hb'
    subst hb'
    have hall : new.filter (Row.isOf b'.name) = new := by
      rw [List.filter_eq_self]
      intro r hr
      simp [Row.isOf, hbundle r hr]
    exact ⟨by simp, by simp [content, hall, hnew, rowsOf]⟩

/-- One bundle more in front, whose name the others do not have. -/
theorem gains_cons {t : Store} {b : BundleFile} {rest : List BundleFile}
    (hfirst : s.Gains tables [b] t) (hrest : t.Gains tables rest s')
    (hb : b.name ∉ rest.map BundleFile.name) : s.Gains tables (b :: rest) s' where
  table_eq := hrest.table_eq.trans hfirst.table_eq
  rows r hr := by
    rcases hrest.rows r hr with hold | ⟨b', hb', hbundle⟩
    · exact (hfirst.rows r hold).imp_right fun ⟨b', hb', hbundle⟩ =>
        ⟨b', List.mem_singleton.mp hb' ▸ List.mem_cons_self, hbundle⟩
    · exact .inr ⟨b', List.mem_cons_of_mem b hb', hbundle⟩
  others name hname := by
    rw [List.map_cons, List.mem_cons, not_or] at hname
    obtain ⟨hsize, hcontent⟩ := hrest.others name hname.2
    obtain ⟨hsize', hcontent'⟩ := hfirst.others name (by simpa using hname.1)
    exact ⟨hsize.trans hsize', hcontent.trans hcontent'⟩
  gained b' hb' := by
    rcases List.mem_cons.mp hb' with rfl | hmem
    · obtain ⟨hsize, hcontent⟩ := hrest.others b'.name hb
      obtain ⟨hsize', hcontent'⟩ := hfirst.gained b' (List.mem_singleton_self b')
      exact ⟨hsize.trans hsize', hcontent.trans hcontent'⟩
    · obtain ⟨hsize, hcontent⟩ := hrest.gained b' hmem
      have hne : b'.name ≠ b.name := fun heq => hb (heq ▸ List.mem_map_of_mem hmem)
      obtain ⟨-, hcontent'⟩ := hfirst.others b'.name (by simpa using hne)
      exact ⟨hsize, by rw [hcontent, hcontent']⟩

/-- Putting one bundle in adds the rows of its table. -/
theorem addBundle_gains {b : BundleFile} {start n : Nat} (hs : s.table.IsPlain)
    (hread : ∀ entries, read b = .ok entries → entries = tables b.name b.size)
    (h : addBundle read (s, start) b = .ok (t, n)) : s.Gains tables [b] t := by
  obtain ⟨entries, hentries, h⟩ := bind_eq_ok_iff.mp h
  rw [hread entries hentries] at h
  obtain ⟨u, hu, hgains⟩ := exists_withBundle hs tables b
  obtain ⟨u', hu', h⟩ := bind_eq_ok_iff.mp h
  obtain rfl : u = u' := Except.ok.inj (hu.symm.trans hu')
  cases h
  exact hgains

/-- **Putting bundles in adds the rows of their tables, and leaves all others alone.** -/
theorem withBundles_gains {bs : List BundleFile} {start k : Nat} (hs : s.table.IsPlain)
    (hnames : (bs.map BundleFile.name).Nodup)
    (hread : ∀ b ∈ bs, ∀ entries, read b = .ok entries → entries = tables b.name b.size)
    (h : bs.foldlM (addBundle read) (s, start) = .ok (s', k)) : s.Gains tables bs s' := by
  induction bs generalizing s start with
  | nil =>
      cases h
      exact gains_nil tables _
  | cons b rest ih =>
      rw [List.map_cons, List.nodup_cons] at hnames
      rw [List.foldlM_cons] at h
      obtain ⟨⟨t, n⟩, hfirst, hrest⟩ := bind_eq_ok_iff.mp h
      have hgains : s.Gains tables [b] t :=
        addBundle_gains hs (hread b List.mem_cons_self) hfirst
      have hreadRest : ∀ b ∈ rest, ∀ entries, read b = .ok entries →
          entries = tables b.name b.size :=
        fun b' hb' => hread b' (List.mem_cons_of_mem b hb')
      have ht : t.table.IsPlain := hgains.table_eq ▸ hs
      exact gains_cons hgains (ih ht hnames.2 hreadRest hrest) hnames.1

/-- Bundles can be put in if their tables can be read. -/
theorem exists_withBundles {bs : List BundleFile} (start : Nat) (hs : s.table.IsPlain)
    (hread : ∀ b ∈ bs, read b = .ok (tables b.name b.size)) :
    ∃ s' k, bs.foldlM (addBundle read) (s, start) = .ok (s', k) ∧ s'.table.IsPlain := by
  induction bs generalizing s start with
  | nil => exact ⟨s, start, rfl, hs⟩
  | cons b rest ih =>
      obtain ⟨t, ht, hgains⟩ := exists_withBundle hs tables b
      obtain ⟨s', k, hrest, hs'⟩ :=
        ih (start + (rowsOf b.name (tables b.name b.size)).length) (hgains.table_eq ▸ hs)
          fun b' hb' => hread b' (List.mem_cons_of_mem b hb')
      refine ⟨s', k, ?_, hs'⟩
      rw [List.foldlM_cons, addBundle, hread b List.mem_cons_self]
      simpa only [bind, Except.bind, ht, pure, Except.pure] using hrest

/-! ### A whole sync -/

theorem mem_removed {name : String} :
    name ∈ s.removed c ↔
      ∃ size, s.bundles[name]? = some size ∧ (c.get? name).map BundleFile.size ≠ some size := by
  simp only [removed, List.mem_map, List.mem_filter, bne_iff_ne, ne_eq, Prod.exists,
    exists_and_right, exists_eq_right, Std.TreeMap.mem_toList_iff_getElem?_eq_some]

theorem mem_added (hc : c.Named) {b : BundleFile} :
    b ∈ s.added c ↔ c.get? b.name = some b ∧ s.bundles[b.name]? ≠ some b.size := by
  simp only [added, List.mem_filter, Corpus.mem_bundles hc, bne_iff_ne, ne_eq]

theorem nodup_added (hc : c.Named) : ((s.added c).map BundleFile.name).Nodup :=
  (Corpus.nodup_names hc).sublist (List.filter_sublist.map BundleFile.name)

/-- There is nothing to do if no bundle comes in and none goes. -/
theorem isNoop_syncStats : (s.syncStats c).isNoop = true ↔ s.added c = [] ∧ s.removed c = [] := by
  simp only [syncStats, SyncStats.isNoop, Bool.and_eq_true, beq_iff_eq, List.length_eq_zero_iff]

/-- A sync that succeeds had nothing to do, or took bundles out and put bundles in. -/
theorem sync_cases {stats : SyncStats} (h : s.sync read c = .ok (s', stats)) :
    ((s.syncStats c).isNoop = true ∧ s' = s ∧ stats = s.syncStats c) ∨
      ((s.syncStats c).isNoop = false ∧
        ∃ k, withBundles read (s.withoutBundles (s.removed c)) (s.added c) = .ok (s', k) ∧
          stats = { s.syncStats c with
            recordsInserted := k
            recordsDeleted := s.imageCount - (s.withoutBundles (s.removed c)).imageCount }) := by
  unfold sync at h
  cases hnoop : (s.syncStats c).isNoop with
  | true =>
      rw [if_pos hnoop] at h
      cases h
      exact .inl ⟨rfl, rfl, rfl⟩
  | false =>
      refine .inr ⟨rfl, ?_⟩
      simp only [hnoop, Bool.false_eq_true, if_false] at h
      -- The table takes rows, and the references are good before the bundles come and after.
      split at h
      · cases h
      split at h
      · cases h
      obtain ⟨⟨t, k⟩, hadd, h⟩ := bind_eq_ok_iff.mp h
      split at h
      · cases h
      cases h
      exact ⟨k, hadd, rfl⟩

/-- The bundles that stay are those that the corpus has with their size. -/
theorem getElem?_kept (name : String) :
    (s.withoutBundles (s.removed c)).bundles[name]? =
      if s.bundles[name]? = (c.get? name).map BundleFile.size then s.bundles[name]? else none := by
  rw [getElem?_withoutBundles]
  cases hsize : s.bundles[name]? with
  | none => simp
  | some size =>
      have hmem : name ∈ s.removed c ↔ (c.get? name).map BundleFile.size ≠ some size := by
        rw [mem_removed, hsize]
        simp
      by_cases h : (c.get? name).map BundleFile.size = some size
      · rw [if_neg (by simp [hmem, h]), if_pos h.symm]
      · rw [if_pos (hmem.mpr h), if_neg (Ne.symm h)]

/-- Of the bundles that are taken out nothing stays, so the rest is faithful. -/
theorem faithful_withoutBundles (h : s.Faithful tables) (names : List String) :
    (s.withoutBundles names).Faithful tables where
  standard := h.standard
  namesBundles := namesBundles_withoutBundles h.namesBundles names
  content_eq name := by
    rw [content_withoutBundles h.isPlain, getElem?_withoutBundles]
    by_cases hname : name ∈ names
    · simp [hname]
    · simpa [hname] using h.content_eq name

/-- Bundles that were not there before are put in faithfully. -/
theorem faithful_of_gains {bs : List BundleFile} (h : s.Faithful tables)
    (hgains : s.Gains tables bs s') (hnew : ∀ b ∈ bs, s.bundles[b.name]? = none) :
    s'.Faithful tables where
  standard := hgains.table_eq.trans h.standard
  namesBundles := hgains.namesBundles h.namesBundles
  content_eq name := by
    by_cases hname : name ∈ bs.map BundleFile.name
    · obtain ⟨b, hb, rfl⟩ := List.mem_map.mp hname
      obtain ⟨hsize, hcontent⟩ := hgains.gained b hb
      rw [hsize, hcontent, h.content_eq, hnew b hb]
      simp
    · obtain ⟨hsize, hcontent⟩ := hgains.others name hname
      rw [hsize, hcontent, h.content_eq]

/-- **A sync that succeeds puts a faithful store in step with its corpus**, whatever corpus the
store was in step with before. -/
theorem sync_inStep {stats : SyncStats} (hs : s.Faithful tables) (hc : c.Named)
    (hread : ∀ b ∈ c.bundles, ∀ entries, read b = .ok entries → entries = tables b.name b.size)
    (h : s.sync read c = .ok (s', stats)) : s'.InStep tables c := by
  rcases sync_cases h with ⟨hnoop, rfl, -⟩ | ⟨-, k, hadd, -⟩
  · -- Nothing is removed, so an indexed bundle has its size in the corpus; nothing is added, so a
    -- bundle of the corpus is indexed.
    obtain ⟨hadded, hremoved⟩ := isNoop_syncStats.mp hnoop
    refine ⟨hs, fun name => ?_⟩
    have hkept := getElem?_kept (s := s') (c := c) name
    rw [hremoved, getElem?_withoutBundles, if_neg (by simp)] at hkept
    cases hget : (c.get? name) with
    | none =>
        rw [hget] at hkept
        split at hkept
        · next heq => simpa using heq
        · simpa using hkept
    | some b =>
        have hname : b.name = name := hc name b hget
        subst hname
        have hnot : b ∉ s'.added c := by simp [hadded]
        rw [mem_added hc, not_and, not_not] at hnot
        simpa using hnot hget
  · have hkept := faithful_withoutBundles hs (s.removed c)
    have hbundles : ∀ b ∈ s.added c, b ∈ c.bundles := fun b hb => List.mem_of_mem_filter hb
    have hgains := withBundles_gains hkept.isPlain (nodup_added hc)
      (fun b hb => hread b (hbundles b hb)) hadd
    -- a bundle of another size is taken out first, so what comes in is new
    have hnew : ∀ b ∈ s.added c, (s.withoutBundles (s.removed c)).bundles[b.name]? = none := by
      intro b hb
      obtain ⟨hget, hsize⟩ := (mem_added hc).mp hb
      rw [getElem?_kept, if_neg]
      simpa [hget] using hsize
    refine ⟨faithful_of_gains hkept hgains hnew, fun name => ?_⟩
    by_cases hname : name ∈ (s.added c).map BundleFile.name
    · obtain ⟨b, hb, rfl⟩ := List.mem_map.mp hname
      rw [(hgains.gained b hb).1, ((mem_added hc).mp hb).1]
      rfl
    · rw [(hgains.others name hname).1, getElem?_kept]
      split
      · next heq => exact heq
      · next hne =>
          cases hget : c.get? name with
          | none => rfl
          | some b =>
              have hbname : b.name = name := hc name b hget
              subst hbname
              refine absurd (List.mem_map_of_mem ((mem_added hc).mpr ⟨hget, ?_⟩)) hname
              simpa [hget] using hne

/-- **A sync succeeds if the tables of the bundles that it puts in can be read.** -/
theorem exists_sync (hs : s.table = .standard)
    (hread : ∀ b ∈ s.added c, read b = .ok (tables b.name b.size)) :
    ∃ s' stats, s.sync read c = .ok (s', stats) := by
  have hkept : (s.withoutBundles (s.removed c)).table.IsPlain := hs ▸ Table.standard_isPlain
  have htakes : s.table.takesRows = true := hs ▸ Table.standard_takesRows
  obtain ⟨s', k, hadd, hs'⟩ := exists_withBundles 0 hkept hread
  unfold sync
  by_cases hnoop : (s.syncStats c).isNoop = true
  · exact ⟨s, s.syncStats c, by rw [if_pos hnoop]⟩
  · refine ⟨s', { s.syncStats c with
      recordsInserted := k
      recordsDeleted := s.imageCount - (s.withoutBundles (s.removed c)).imageCount }, ?_⟩
    simp only [hnoop, htakes, refersWell_eq_true hkept, Bool.not_true, Bool.false_eq_true,
      if_false, withBundles, hadd, bind, Except.bind, pure, Except.pure, refersWell_eq_true hs']

/-! ### Stores in step with a corpus -/

/-- The bundles of a store in step with a corpus, by name. -/
theorem InStep.bundles_toList (hs : s.InStep tables c) (hc : c.Named) :
    s.bundles.toList = c.bundles.map fun b => (b.name, b.size) := by
  rw [Corpus.map_bundles_eq_toList hc, ← Std.TreeMap.equiv_iff_toList_eq]
  refine Std.TreeMap.Equiv.of_forall_constGet?_eq fun name => ?_
  rw [hs.bundles_eq, Std.TreeMap.getElem?_map]
  rfl

/-- What a store in step with a corpus holds of a bundle of it. -/
theorem InStep.content_eq (hs : s.InStep tables c) (hc : c.Named) {b : BundleFile}
    (hb : b ∈ c.bundles) : s.content b.name = rowsOf b.name (tables b.name b.size) := by
  rw [hs.faithful.content_eq, hs.bundles_eq, (Corpus.mem_bundles hc).mp hb]
  rfl

/-- Every row of a store in step with a corpus belongs to a bundle of it. -/
theorem InStep.exists_bundle (hs : s.InStep tables c) (hc : c.Named) {r : Row}
    (hr : r ∈ s.images) : ∃ b ∈ c.bundles, r.bundle = .text b.name := by
  obtain ⟨name, hname⟩ := hs.faithful.namesBundles r hr
  have hmem := unnumbered_mem_content hr hname
  cases hget : c.get? name with
  | none =>
      rw [hs.faithful.content_eq, hs.bundles_eq, hget] at hmem
      simp at hmem
  | some b =>
      have hbname : b.name = name := hc name b hget
      subst hbname
      exact ⟨b, (Corpus.mem_bundles hc).mpr hget, hname⟩

/-- Two stores in step with one corpus hold the same of every bundle. -/
theorem InStep.content_congr (hs : s.InStep tables c) (ht : t.InStep tables c) (name : String) :
    s.content name = t.content name := by
  rw [hs.faithful.content_eq, ht.faithful.content_eq, hs.bundles_eq, ht.bundles_eq]

end Store

end CharacterArt.Index
