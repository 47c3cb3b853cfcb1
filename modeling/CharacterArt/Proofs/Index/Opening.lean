import CharacterArt.Proofs.Disk.Trees
import CharacterArt.Proofs.Index.Resync

/-!
# Opening an index

Opening an index makes its file and the directories above it if they are missing, and sets the
database up.  An index that was opened is ready: as long as its file and the directories stay, it
can be opened again, and that changes nothing.

## Main Definitions

* `Index.place?` — where the file of an index lies
* `Index.opening` — what opening an index may change
* `Index.Ready` — an index that can be opened without any change

## Main Results

* `Index.openPath_cases` — an index that was opened is ready, or it is kept in memory
* `Index.Ready.openPath_eq` — opening a ready index
* `Index.Ready.sync_cases` — a sync leaves a ready index ready, with nothing left to do
-/

namespace CharacterArt.Index

/-- Where the file of the database lies that a path or an address leads to, if it has one. -/
def place? (path : String) (cwd : Location) : Option Location :=
  (Address.ofText? path).bind fun a => if a.isTransient then none else a.place? cwd

/-- What opening an index may change: its file, and the directories above it as the path spells
them. -/
def opening (path : String) (cwd : Location) : Disk.Scope where
  files l := place? path cwd = some l
  ways := Path.Passes cwd path

/-- A database is set up. -/
structure Store.IsSetUp (s : Store) : Prop where
  stage_eq : s.stage = .complete
  columns_eq : s.missingColumns.isEmpty = true

/-- An index can be opened without any change of the files. -/
structure Ready (path : String) (d : Files) (place : Location) (a : Address) (s : Store) : Prop where
  address_eq : Address.ofText? path = some a
  not_transient : a.isTransient = false
  place_eq : a.place? d.cwd = some place
  short : (place.any fun name => decide (Disk.maxNameSize < name.utf8ByteSize)) = false
  above : d.node? place.dropLast = some .directory
  node_eq : d.node? place = some (.file (.index s))
  free : isBlocked d place = false
  isSetUp : s.IsSetUp

variable {d d' e : Files} {path : String} {place : Location} {a : Address} {s t : Store} {h : Handle}

/-- A database that is set up successfully is set up. -/
theorem exists_of_setUp {found s' : Option Store} {isWritable : Bool}
    (h : setUp found isWritable path = (.ok (), s')) : ∃ t, s' = some t ∧ t.IsSetUp := by
  unfold setUp at h
  split at h
  · split at h
    · cases h
      exact ⟨_, rfl, rfl, by decide⟩
    · cases h
  · next old =>
      split at h
      · cases h
      · dsimp only at h
        generalize (if old.stage = .images then { old with stage := .tables } else old) = adjusted at h
        split at h
        · cases h
        · next hcolumns =>
            rw [Bool.not_eq_true, Bool.not_eq_false'] at hcolumns
            split at h
            · next hcomplete =>
                cases h
                exact ⟨_, rfl, hcomplete, hcolumns⟩
            · split at h
              · cases h
                exact ⟨_, rfl, rfl, hcolumns⟩
              · cases h

/-- A database that is set up needs not be set up again. -/
theorem Store.IsSetUp.setUp_eq (hs : s.IsSetUp) (isWritable : Bool) (path : String) :
    setUp (some s) isWritable path = (.ok (), some s) := by
  have hnot : ¬ (s.stage = .images ∧ !isWritable) := by
    rw [hs.stage_eq]
    exact fun hstage => nomatch hstage.1
  have hstage : s.stage ≠ .images := by
    rw [hs.stage_eq]
    exact nofun
  unfold setUp
  dsimp only
  rw [if_neg hnot, if_neg hstage, hs.columns_eq, if_neg (by decide), if_pos hs.stage_eq]

/-- The place of an index is made of names if the working directory is. -/
theorem forall_names_of_place? {cwd : Location} (h : a.place? cwd = some place)
    (hcwd : ∀ name ∈ cwd, Path.IsName name) : ∀ name ∈ place, Path.IsName name := by
  have hfollow : ∀ {l m : Location} {s : List Char}, Address.follow l s = some m →
      m = Path.follow l s := by
    intro l m s hm
    unfold Address.follow at hm
    unfold Path.follow
    split at hm
    · next hidle => rw [if_pos hidle, Option.some.inj hm]
    · next hidle =>
        rw [if_neg hidle]
        split at hm
        · next hparent => rw [if_pos hparent, Option.some.inj hm]
        · next hparent =>
            rw [if_neg hparent]
            dsimp only at hm
            split at hm
            · cases hm
            · exact (Option.some.inj hm).symm
  have hfold : ∀ (parts : List (List Char)) (l : Location), (∀ s ∈ parts, '/' ∉ s) →
      (∀ name ∈ l, Path.IsName name) → ∀ {m}, parts.foldlM Address.follow l = some m →
        ∀ name ∈ m, Path.IsName name := by
    intro parts
    induction parts with
    | nil =>
        intro l _ hl m hm
        cases hm
        exact hl
    | cons s rest ih =>
        intro l hparts hl m hm
        rw [List.foldlM_cons] at hm
        obtain ⟨k, hk, hm⟩ := Option.bind_eq_some_iff.mp hm
        obtain rfl := hfollow hk
        refine ih _ (fun t ht => hparts t (List.mem_cons_of_mem s ht)) ?_ hm
        exact Path.forall_names_follow (hparts s List.mem_cons_self) hl
  unfold Address.place? at h
  obtain ⟨found, hfound, h⟩ := Option.bind_eq_some_iff.mp h
  split at h
  · cases h
  · cases h
    refine hfold _ _ (fun s => Path.no_slash_of_mem_segments) ?_ hfound
    split
    · exact fun name hname => absurd hname List.not_mem_nil
    · exact hcwd

/-- Opening a file finds it or makes it, in a directory that is there. -/
theorem openFile_cases {access : Access} (h : openFile d place access = .ok d') :
    (place.any fun name => decide (Disk.maxNameSize < name.utf8ByteSize)) = false ∧
      d'.node? place.dropLast = some .directory ∧ (∃ content, d'.node? place = some (.file content)) ∧
      d.Evolves { files := (· = place) } d' := by
  unfold openFile at h
  split at h
  · cases h
  · next hshort =>
      rw [Bool.not_eq_true] at hshort
      split at h
      · next content habove hfile =>
          cases h
          exact ⟨hshort, habove, ⟨content, hfile⟩, Disk.Evolves.refl _ _⟩
      · next habove hnone =>
          split at h
          · cases h
            have hplace : d.node? place ≠ some .directory := by
              rw [hnone]
              exact nofun
            have hput : d.Evolves { files := (· = place) } (d.put place (.file (.bytes []))) :=
              Disk.evolves_put_file (.inl rfl) hplace _
            refine ⟨hshort, hput.directory id habove, ⟨.bytes [], ?_⟩, hput⟩
            rw [Disk.node?_put d (Disk.ne_nil_of_node? hplace), if_pos rfl]
          · cases h
      · cases h

theorem storeAt_eq_some_iff :
    storeAt d place = .ok (some s) ↔ d.node? place = some (.file (.index s)) ∧
      isBlocked d place = false := by
  unfold storeAt
  split
  · next hnode =>
      cases hblocked : isBlocked d place with
      | true => simp [refused, hnode]
      | false => simp [hnode]
  · next hnode =>
      rw [hnode]
      split <;> simp [refused]
  · next hindex _ =>
      refine iff_of_false nofun ?_
      rintro ⟨hnode, -⟩
      exact hindex s hnode

/-- Opening the database of a file sets it up and leaves it in its place. -/
theorem openPlace_cases (h : Handle.openPlace d path place a = (.ok h', d')) :
    h' = .inFile place a.isWritable ∧ d.Evolves { files := (· = place) } d' ∧
      (place.any fun name => decide (Disk.maxNameSize < name.utf8ByteSize)) = false ∧
      d'.node? place.dropLast = some .directory ∧
      ∃ t, d'.node? place = some (.file (.index t)) ∧ t.IsSetUp ∧ isBlocked d' place = false := by
  unfold Handle.openPlace at h
  split at h
  · cases h
  · next opened hopened =>
      obtain ⟨hshort, habove, ⟨content, hcontent⟩, hevolves⟩ := openFile_cases hopened
      split at h
      · cases h
      · next found hfound =>
          match hsetUp : setUp found (canWrite opened place a.isWritable) path with
          | (.error e, s') =>
              rw [hsetUp] at h
              cases h
          | (.ok (), s') =>
              obtain ⟨t, rfl, ht⟩ := exists_of_setUp hsetUp
              rw [hsetUp] at h
              obtain ⟨hhandle, hd⟩ := Prod.mk.inj h
              replace hd : putStore opened place t = d' := hd
              subst hd
              have hplace : opened.node? place ≠ some .directory := by
                rw [hcontent]
                exact nofun
              have hne := Disk.ne_nil_of_node? hplace
              have hput : opened.Evolves { files := (· = place) } (putStore opened place t) :=
                Disk.evolves_put_file (.inl rfl) hplace _
              refine ⟨(Except.ok.inj hhandle).symm, hevolves.trans hput, hshort, hput.directory id habove, t, ?_, ht, ?_⟩
              · rw [putStore, Disk.node?_put opened hne, if_pos rfl]
              · rw [isBlocked_putStore hne]
                -- a database that is new could only be set up because nothing blocks it
                cases found with
                | some old => exact (storeAt_eq_some_iff.mp hfound).2
                | none =>
                    unfold setUp canWrite at hsetUp
                    dsimp only at hsetUp
                    split at hsetUp
                    · next hwritable =>
                        simp only [Bool.and_eq_true, Bool.not_eq_true'] at hwritable
                        exact hwritable.2
                    · cases hsetUp

/-- **The files are a tree still** once an index is ready for which one file was written. -/
theorem Ready.isTree (h : Ready path d' place a s) (htree : d.IsTree)
    (hd : d.Evolves { files := (· = place) } d') : d'.IsTree := by
  have hplace := h.place_eq
  rw [hd.cwd] at hplace
  refine htree.writes hd (forall_names_of_place? hplace ?_) h.above
  exact htree.forall_names (by rw [htree.cwd]; exact nofun)

/-- **An index that was opened is ready, or it is kept in memory.**  The files are a tree still. -/
theorem openPath_cases (h : Handle.openPath d path = (.ok h', d')) :
    d.Evolves (opening path d.cwd) d' ∧ (d.IsTree → d'.IsTree) ∧
      (∃ made, Files.makeDirs d ((Path.parent path).getD "") = .ok made ∧
        ∀ m, made.node? m = some .directory → d'.node? m = some .directory) ∧
      ((h' = .inMemory {} ∧ ∃ a, Address.ofText? path = some a ∧ a.isTransient = true ∧
          a.isWritable = true) ∨
        ∃ place a t, h' = .inFile place a.isWritable ∧ Ready path d' place a t) := by
  unfold Handle.openPath at h
  split at h
  · cases h
  · next made hmade =>
      have habove : d.Evolves (opening path d.cwd) made :=
        Disk.evolves_makeAbove (Files.makeDirs_eq_ok_iff.mp hmade) fun m hm => .inl hm
      have htree : d.IsTree → made.IsTree := fun h => h.makeDirs (Files.makeDirs_eq_ok_iff.mp hmade)
      split at h
      · cases h
      · next a ha =>
          split at h
          · next htransient =>
              split at h
              · next hwritable =>
                  cases h
                  exact ⟨habove, htree, ⟨_, hmade, fun m => id⟩,
                    .inl ⟨rfl, a, ha, htransient, hwritable⟩⟩
              · cases h
          · next htransient =>
              rw [Bool.not_eq_true] at htransient
              split at h
              · cases h
              · next place hplace =>
                  obtain ⟨rfl, hevolves, hshort, hdirectory, t, hnode, ht, hfree⟩ := openPlace_cases h
                  have hfile : made.Evolves (opening path d.cwd) d' := by
                    refine hevolves.mono (fun _ => id) ?_ (fun _ hl => absurd hl id)
                    rintro l rfl
                    refine .inl ?_
                    rw [habove.cwd] at hplace
                    rw [opening, place?, ha, Option.bind_some, htransient, if_neg Bool.false_ne_true,
                      hplace]
                  have hready : Ready path d' place a t :=
                    ⟨ha, htransient, by rw [hevolves.cwd, hplace], hshort, hdirectory, hnode, hfree, ht⟩
                  exact ⟨habove.trans hfile, fun h => hready.isTree (htree h) hevolves,
                    ⟨made, hmade, fun m => hevolves.directory id⟩, .inr ⟨place, a, t, rfl, hready⟩⟩

namespace Ready

theorem place?_eq (h : Ready path d place a s) : place? path d.cwd = some place := by
  rw [place?, h.address_eq, Option.bind_some, h.not_transient, if_neg Bool.false_ne_true, h.place_eq]

theorem place_ne_nil (h : Ready path d place a s) : place ≠ [] := by
  refine Disk.ne_nil_of_node? (d := d) ?_
  rw [h.node_eq]
  exact nofun

theorem store_eq (h : Ready path d place a s) (isWritable : Bool) :
    (Handle.inFile place isWritable).store d = .ok s := by
  rw [Handle.store, storeAt_eq_some_iff.mpr ⟨h.node_eq, h.free⟩]

/-- **An index stays ready as long as its file and the directory above it stay, and nothing blocks
it.** -/
theorem mono (h : Ready path d place a s) (hcwd : e.cwd = d.cwd)
    (habove : e.node? place.dropLast = some .directory)
    (hnode : e.node? place = some (.file (.index t))) (hfree : isBlocked e place = false)
    (ht : t.IsSetUp) : Ready path e place a t where
  address_eq := h.address_eq
  not_transient := h.not_transient
  place_eq := by rw [hcwd, h.place_eq]
  short := h.short
  above := habove
  node_eq := hnode
  free := hfree
  isSetUp := ht

/-- **Opening an index that is ready finds it as it is.** -/
theorem openPath_eq (h : Ready path d place a s)
    (hmade : Files.makeDirs d ((Path.parent path).getD "") = .ok d) :
    Handle.openPath d path = (.ok (.inFile place a.isWritable), putStore d place s) := by
  have hopen : openFile d place a.access = .ok d := by
    rw [openFile, h.short, if_neg Bool.false_ne_true, h.above, h.node_eq]
  have hplace : Handle.openPlace d path place a =
      (.ok (.inFile place a.isWritable), putStore d place s) := by
    unfold Handle.openPlace
    rw [hopen]
    dsimp only
    rw [storeAt_eq_some_iff.mpr ⟨h.node_eq, h.free⟩]
    dsimp only
    rw [h.isSetUp.setUp_eq]
    rfl
  unfold Handle.openPath
  rw [hmade]
  dsimp only
  rw [h.address_eq]
  dsimp only
  rw [if_neg (by rw [h.not_transient]; exact Bool.false_ne_true), h.place_eq]
  exact hplace

/-- The database of an index that was opened is put in its place once more. -/
theorem node?_putStore (h : Ready path d place a s) (m : Location) :
    (putStore d place s).node? m = d.node? m := by
  rw [putStore, Disk.node?_put d h.place_ne_nil]
  split
  · next heq => rw [← heq, h.node_eq]
  · rfl

/-- **A sync leaves an index ready, and the same sync once more has nothing to do.** -/
theorem sync_cases (h : Ready path d place a s) {isWritable : Bool} {c : Corpus} (hc : c.Named)
    {stats : SyncStats} {h' : Handle}
    (hsync : (Handle.inFile place isWritable).sync d c = (.ok stats, h', d')) :
    h' = .inFile place isWritable ∧ d.Evolves { files := (· = place) } d' ∧
      ∃ t, Ready path d' place a t ∧ (t.syncStats c).isNoop = true := by
  obtain ⟨t, hstore, -⟩ := Handle.store_of_sync_ok (h.store_eq isWritable) hsync
  have hnoop := Store.isNoop_of_sync hc hstore
  obtain ⟨htable, hstage⟩ := Store.table_eq_of_sync hc hstore
  have ht : t.IsSetUp := by
    refine ⟨hstage.trans h.isSetUp.stage_eq, ?_⟩
    rw [Store.missingColumns, htable]
    exact h.isSetUp.columns_eq
  unfold Handle.sync at hsync
  rw [h.store_eq] at hsync
  dsimp only at hsync
  split at hsync
  · rw [hstore] at hsync
    dsimp only at hsync
    split at hsync
    · next hidle =>
        cases hsync
        rcases Store.sync_cases hstore with ⟨-, rfl, -⟩ | ⟨hbusy, k, -, rfl⟩
        · exact ⟨rfl, Disk.Evolves.refl _ _, t, h, hnoop⟩
        · exact absurd hidle (by simpa [SyncStats.isNoop] using hbusy)
    · cases hsync
      have hplace : d.node? place ≠ some .directory := by
        rw [h.node_eq]
        intro hdirectory
        cases hdirectory
      have hput : d.Evolves { files := (· = place) } (putStore d place t) :=
        Disk.evolves_put_file (.inl rfl) hplace _
      refine ⟨rfl, hput, t, h.mono rfl (hput.directory id h.above) ?_ ?_ ht, hnoop⟩
      · show (putStore d place t).node? place = _
        rw [putStore, Disk.node?_put d h.place_ne_nil, if_pos rfl]
      · show isBlocked (putStore d place t) place = false
        rw [isBlocked_putStore h.place_ne_nil, h.free]
  · rw [Prod.mk.injEq, Prod.mk.injEq] at hsync
    obtain ⟨hfixed, rfl, rfl⟩ := hsync
    -- without writing there was nothing to do
    have hsame := Handle.sync_of_syncFixed_ok hfixed
    unfold Store.syncFixed at hfixed
    refine ⟨rfl, Disk.Evolves.refl _ _, s, h, ?_⟩
    exact Store.isNoop_of_sync hc hsame

end Ready

end CharacterArt.Index
