import CharacterArt.Content
import CharacterArt.Proofs.Disk.Places

/-!
# What work leaves of a disk

Work on a disk makes directories, writes files, and does what it likes in scratch directories.
Nothing else changes: directories stay directories, files stay files, and a file that is not written
keeps its content.  `Disk.Evolves` says so in one relation, which every operation satisfies and
which holds of a sequence of operations as soon as it holds of each.

## Main Definitions

* `Disk.Scope` — what work may change
* `Disk.Scope.Change`, `Disk.Evolves` — what may become of a node, and of a disk
* `Disk.Lacks` — nothing stands in given places

## Main Results

* `Disk.Evolves.trans`, `Disk.Evolves.mono` — sequences of operations, and wider scopes
* `Disk.evolves_makeDirs`, `Disk.evolves_copy`, `Disk.evolves_remove` — operations
* `Disk.Evolves.settle` — scratch directories that were not there and are gone again
* `Disk.Evolves.find?_eq` — what is found under a path that nothing concerns
-/

namespace CharacterArt

namespace Disk

variable {α : Type}

/-- What work on a disk may change. -/
structure Scope where
  /-- Where anything may happen. -/
  scratch : Location → Prop := fun _ => False
  /-- The files that may be written. -/
  files : Location → Prop := fun _ => False
  /-- The directories that may be made. -/
  ways : Location → Prop := fun _ => False

namespace Scope

/-- One place where anything may happen. -/
def only (l : Location) : Scope where
  scratch := (· = l)

/-- What may become of the node at a location. -/
inductive Change (s : Scope) (l : Location) (n n' : Option (Node α)) : Prop where
  | keep (h : n' = n)
  | scratch (h : s.scratch l)
  | make (h : s.ways l) (hn : n = none) (hn' : n' = some .directory)
  | write (h : s.files l) (hn : n ≠ some .directory) (content : α)
      (hn' : n' = some (.file content))

theorem Change.trans {s : Scope} {l : Location} {n n' n'' : Option (Node α)}
    (h : s.Change l n n') (h' : s.Change l n' n'') : s.Change l n n'' := by
  cases h with
  | keep hkeep => rwa [hkeep] at h'
  | scratch hscratch => exact .scratch hscratch
  | make hways hn hn' =>
      cases h' with
      | keep hkeep => exact .make hways hn (hkeep.trans hn')
      | scratch hscratch => exact .scratch hscratch
      | make _ hnone => exact absurd (hn'.symm.trans hnone) nofun
      | write _ hother => exact absurd hn' hother
  | write hfiles hn content hn' =>
      cases h' with
      | keep hkeep => exact .write hfiles hn content (hkeep.trans hn')
      | scratch hscratch => exact .scratch hscratch
      | make _ hnone => exact absurd (hn'.symm.trans hnone) nofun
      | write _ _ content' hn'' => exact .write hfiles hn content' hn''

end Scope

/-- A disk has become another one, and everything that changed was in scope. -/
structure Evolves (s : Scope) (d d' : Disk α) : Prop where
  cwd : d'.cwd = d.cwd
  change : ∀ l, s.Change l (d.node? l) (d'.node? l)

/-- Nothing stands in given places. -/
def Lacks (places : Location → Prop) (d : Disk α) : Prop :=
  ∀ l, places l → d.node? l = none

/-- Places are bare if none of the nodes stands in one of them. -/
theorem lacks_of_forall {places : Location → Prop} {d : Disk α} (hroot : ¬ places [])
    (h : ∀ e ∈ d.nodes.toList, ¬ places e.1) : d.Lacks places := by
  intro l hl
  have hne : l ≠ [] := by
    rintro rfl
    exact hroot hl
  rw [Option.eq_none_iff_forall_not_mem]
  intro n hn
  exact h _ ((node?_eq_some_iff hne).mp hn) hl

namespace Evolves

variable {s t : Scope} {d d' d'' : Disk α} {l : Location} {path : String}

theorem refl (s : Scope) (d : Disk α) : d.Evolves s d :=
  ⟨rfl, fun _ => .keep rfl⟩

/-- **What happens in two steps is in scope if each step is.** -/
theorem trans (h : d.Evolves s d') (h' : d'.Evolves s d'') : d.Evolves s d'' :=
  ⟨h'.cwd.trans h.cwd, fun l => (h.change l).trans (h'.change l)⟩

/-- **What is in scope is in every wider one.** -/
theorem mono (h : d.Evolves s d') (hscratch : ∀ l, s.scratch l → t.scratch l)
    (hfiles : ∀ l, s.files l → t.files l ∨ t.scratch l)
    (hways : ∀ l, s.ways l → t.ways l ∨ t.scratch l) : d.Evolves t d' := by
  refine ⟨h.cwd, fun l => ?_⟩
  cases h.change l with
  | keep hkeep => exact .keep hkeep
  | scratch hl => exact .scratch (hscratch l hl)
  | make hl hn hn' =>
      rcases hways l hl with hl | hl
      · exact .make hl hn hn'
      · exact .scratch hl
  | write hl hn content hn' =>
      rcases hfiles l hl with hl | hl
      · exact .write hl hn content hn'
      · exact .scratch hl

/-- **Scratch directories that were not there and are gone again leave no trace.** -/
theorem settle (h : d.Evolves s d') (hd : d.Lacks s.scratch) (hd' : d'.Lacks s.scratch) :
    d.Evolves { s with scratch := fun _ => False } d' := by
  refine ⟨h.cwd, fun l => ?_⟩
  cases h.change l with
  | keep hkeep => exact .keep hkeep
  | scratch hl => exact .keep ((hd' l hl).trans (hd l hl).symm)
  | make hl hn hn' => exact .make hl hn hn'
  | write hl hn content hn' => exact .write hl hn content hn'

/-! What stays -/

theorem directory (h : d.Evolves s d') (hl : ¬ s.scratch l) (hd : d.node? l = some .directory) :
    d'.node? l = some .directory := by
  cases h.change l with
  | keep hkeep => rw [hkeep, hd]
  | scratch hscratch => exact absurd hscratch hl
  | make _ hn => exact absurd (hd.symm.trans hn) nofun
  | write _ hn => exact absurd hd hn

theorem file (h : d.Evolves s d') (hl : ¬ s.scratch l) {content : α}
    (hd : d.node? l = some (.file content)) : ∃ content', d'.node? l = some (.file content') := by
  cases h.change l with
  | keep hkeep => exact ⟨content, by rw [hkeep, hd]⟩
  | scratch hscratch => exact absurd hscratch hl
  | make _ hn => exact absurd (hd.symm.trans hn) nofun
  | write _ _ content' hn' => exact ⟨content', hn'⟩

/-- What stands outside the scope stays as it is. -/
theorem node?_eq (h : d.Evolves s d') (hscratch : ¬ s.scratch l) (hfiles : ¬ s.files l)
    (hd : d.node? l ≠ none) : d'.node? l = d.node? l := by
  cases h.change l with
  | keep hkeep => exact hkeep
  | scratch hl => exact absurd hl hscratch
  | make _ hn => exact absurd hn hd
  | write hl => exact absurd hl hfiles

/-- Outside the scope the same files stand in the same places. -/
theorem file_iff (h : d.Evolves s d') (hscratch : ¬ s.scratch l) (hfiles : ¬ s.files l) {content : α} :
    d'.node? l = some (.file content) ↔ d.node? l = some (.file content) := by
  cases h.change l with
  | keep hkeep => rw [hkeep]
  | scratch hl => exact absurd hl hscratch
  | make _ hn hn' => rw [hn, hn']; exact ⟨nofun, nofun⟩
  | write hl => exact absurd hl hfiles

/-- A path that leads through no scratch directory leads to the same place still. -/
theorem resolve_eq (h : d.Evolves s d') (hscratch : ∀ m, Path.Passes d.cwd path m → ¬ s.scratch m)
    (hd : d.resolve path = .ok l) : d'.resolve path = .ok l := by
  rw [resolve_eq_ok_iff] at hd ⊢
  rw [h.cwd]
  exact ⟨hd.1, fun m hm => h.directory (hscratch m hm) (hd.2.1 m hm), hd.2.2⟩

/-- **What is found under a path is found there still, if nothing concerns it.** -/
theorem find?_eq (h : d.Evolves s d')
    (hscratch : ∀ m, Path.Passes d.cwd path m ∨ m = Path.place d.cwd path → ¬ s.scratch m)
    (hfiles : ¬ s.files (Path.place d.cwd path)) {n : Node α} (hd : d.find? path = some n) :
    d'.find? path = some n := by
  obtain ⟨⟨husable, hway⟩, hnode⟩ := find?_eq_some_iff.mp hd
  refine find?_eq_some_iff.mpr ⟨⟨husable, fun m hm => ?_⟩, ?_⟩
  · rw [h.cwd] at hm
    exact h.directory (hscratch m (.inl hm)) (hway m hm)
  · rw [h.cwd, h.node?_eq (hscratch _ (.inr rfl)) hfiles (by rw [hnode]; exact nofun), hnode]

/-- **What is read from a file is read from it still, if nothing concerns it.** -/
theorem read_eq_ok (h : d.Evolves s d')
    (hscratch : ∀ m, Path.Passes d.cwd path m ∨ m = Path.place d.cwd path → ¬ s.scratch m)
    (hfiles : ¬ s.files (Path.place d.cwd path)) {content : α} (hd : d.read path = .ok content) :
    d'.read path = .ok content :=
  read_eq_ok_iff.mpr (h.find?_eq hscratch hfiles (read_eq_ok_iff.mp hd))

/-- Where something is found, something of its kind still is. -/
theorem exists_find? (h : d.Evolves s d')
    (hscratch : ∀ m, Path.Passes d.cwd path m ∨ m = Path.place d.cwd path → ¬ s.scratch m)
    {n : Node α} (hd : d.find? path = some n) :
    ∃ n', d'.find? path = some n' ∧ (n' = .directory ↔ n = .directory) := by
  obtain ⟨⟨husable, hway⟩, hnode⟩ := find?_eq_some_iff.mp hd
  have hway' : ∀ m, Path.Passes d'.cwd path m → d'.node? m = some .directory := by
    intro m hm
    rw [h.cwd] at hm
    exact h.directory (hscratch m (.inl hm)) (hway m hm)
  have hnode' : ∃ n', d'.node? (Path.place d'.cwd path) = some n' ∧
      (n' = .directory ↔ n = .directory) := by
    rw [h.cwd]
    cases n with
    | directory => exact ⟨_, h.directory (hscratch _ (.inr rfl)) hnode, Iff.rfl⟩
    | file content =>
        obtain ⟨content', hnode'⟩ := h.file (hscratch _ (.inr rfl)) hnode
        exact ⟨_, hnode', iff_of_false nofun nofun⟩
  obtain ⟨n', hn', hkind⟩ := hnode'
  exact ⟨n', find?_eq_some_iff.mpr ⟨⟨husable, hway'⟩, hn'⟩, hkind⟩

/-- **What exists still does.** -/
theorem exists? (h : d.Evolves s d')
    (hscratch : ∀ m, Path.Passes d.cwd path m ∨ m = Path.place d.cwd path → ¬ s.scratch m)
    (hd : d.exists? path = true) : d'.exists? path = true := by
  rw [Disk.exists?, Option.isSome_iff_exists] at hd ⊢
  obtain ⟨n, hn⟩ := hd
  obtain ⟨n', hn', -⟩ := h.exists_find? hscratch hn
  exact ⟨n', hn'⟩

/-- **What is a file still is one.** -/
theorem isFile (h : d.Evolves s d')
    (hscratch : ∀ m, Path.Passes d.cwd path m ∨ m = Path.place d.cwd path → ¬ s.scratch m)
    (hd : d.isFile path = true) : d'.isFile path = true := by
  rw [isFile_iff] at hd ⊢
  obtain ⟨content, hfound⟩ := hd
  obtain ⟨n', hn', hkind⟩ := h.exists_find? hscratch hfound
  cases n' with
  | directory => cases hkind.mp rfl
  | file content' => exact ⟨content', hn'⟩

/-- Places where nothing stood and that are out of scope are still bare. -/
theorem lacks (h : d.Evolves s d') {places : Location → Prop} (hd : d.Lacks places)
    (hscratch : ∀ l, places l → ¬ s.scratch l) (hfiles : ∀ l, places l → ¬ s.files l)
    (hways : ∀ l, places l → ¬ s.ways l) : d'.Lacks places := by
  intro l hl
  cases h.change l with
  | keep hkeep => rw [hkeep, hd l hl]
  | scratch hl' => exact absurd hl' (hscratch l hl)
  | make hl' => exact absurd hl' (hways l hl)
  | write hl' => exact absurd hl' (hfiles l hl)

end Evolves

/-! ### Operations -/

section Operations

variable {s : Scope} {d d' : Disk α} {l m : Location} {path : String}

theorem ne_nil_of_node? (h : d.node? l ≠ some .directory) : l ≠ [] := by
  rintro rfl
  exact h rfl

theorem evolves_put_file (hl : s.files l ∨ s.scratch l) (hd : d.node? l ≠ some .directory)
    (content : α) : d.Evolves s (d.put l (.file content)) := by
  refine ⟨rfl, fun m => ?_⟩
  rw [node?_put d (ne_nil_of_node? hd)]
  split
  · next heq =>
      subst heq
      rcases hl with hl | hl
      · exact .write hl hd content rfl
      · exact .scratch hl
  · exact .keep rfl

theorem evolves_put_directory (hl : s.ways l ∨ s.scratch l) (hd : d.node? l = none) :
    d.Evolves s (d.put l .directory) := by
  refine ⟨rfl, fun m => ?_⟩
  rw [node?_put d (ne_nil_of_node? (by rw [hd]; exact nofun))]
  split
  · next heq =>
      subst heq
      rcases hl with hl | hl
      · exact .make hl hd rfl
      · exact .scratch hl
  · exact .keep rfl

/-- **Writing a file changes the file alone.** -/
theorem evolves_write {content : α} (h : d.write path content = .ok d')
    (hl : s.files (Path.place d.cwd path) ∨ s.scratch (Path.place d.cwd path)) :
    d.Evolves s d' := by
  obtain ⟨-, hd, rfl⟩ := write_eq_ok_iff.mp h
  exact evolves_put_file hl hd content

/-- A file that was written is found under its path. -/
theorem find?_of_write {content : α} (h : d.write path content = .ok d') :
    d'.find? path = some (.file content) := by
  have hevolves : d.Evolves { files := fun l => l = Path.place d.cwd path } d' :=
    evolves_write h (.inl rfl)
  obtain ⟨hresolve, hd, hput⟩ := write_eq_ok_iff.mp h
  rw [find?, hevolves.resolve_eq (fun _ _ => id) hresolve, hput]
  dsimp only
  rw [node?_put d (ne_nil_of_node? hd), if_pos rfl]

theorem exists_write_of_copy {source : String} (h : d.copy source path = .ok d') :
    ∃ content, d.read source = .ok content ∧ d.write path content = .ok d' := by
  unfold copy at h
  split at h
  · cases h
  · next content hread => exact ⟨content, hread, h⟩

/-- **Copying a file changes the target alone.** -/
theorem evolves_copy {source : String} (h : d.copy source path = .ok d')
    (hl : s.files (Path.place d.cwd path) ∨ s.scratch (Path.place d.cwd path)) :
    d.Evolves s d' := by
  obtain ⟨content, -, hwrite⟩ := exists_write_of_copy h
  exact evolves_write hwrite hl

/-- Directories are made wherever segments lead through nothing. -/
theorem evolves_makeAlong {parts : List (List Char)} (h : d.makeAlong l parts = .ok d')
    (hways : ∀ m, Path.PassesFrom l parts m ∨ m = parts.foldl Path.follow l →
      s.ways m ∨ s.scratch m) : d.Evolves s d' := by
  induction parts generalizing d l with
  | nil =>
      cases h
      exact Evolves.refl s _
  | cons part rest ih =>
      -- the next place is on the way, or it is where the segments lead
      obtain ⟨hnext, hrest⟩ := Path.forall_visited_cons hways
      unfold makeAlong at h
      split at h
      · cases h
      · next m hm =>
          obtain ⟨-, -, rfl⟩ := follow_eq_ok_iff.mp hm
          split at h
          · next hnone => exact (evolves_put_directory hnext hnone).trans (ih h hrest)
          · exact ih h hrest
          · cases h

/-- The segments that name directories are the first ones of a path. -/
theorem isPrefix_namedSegments (path : String) :
    namedSegments path <+: Path.segments path.toList := by
  have hfirst : ∀ back, back <:+ (Path.segments path.toList).reverse →
      back.reverse <+: Path.segments path.toList := by
    intro back hback
    rwa [← List.reverse_prefix, List.reverse_reverse] at hback
  have hnamed := List.dropWhile_suffix (l := (Path.segments path.toList).reverse) List.isEmpty
  unfold namedSegments
  split
  · next back hback =>
      rw [hback] at hnamed
      refine hfirst _ ?_
      exact ((List.drop_suffix 1 _).trans (List.dropWhile_suffix Path.isIdle)).trans
        ((List.suffix_cons ['.'] back).trans hnamed)
  · exact hfirst _ hnamed

/-- The segments that name directories lead wherever the path does, or part of the way. -/
theorem visits_of_namedSegments {cwd m : Location}
    (hm : Path.PassesFrom (Path.start cwd path) (namedSegments path) m ∨
      m = (namedSegments path).foldl Path.follow (Path.start cwd path)) :
    Path.Passes cwd path m ∨ m = Path.place cwd path := by
  obtain ⟨back, hback⟩ := isPrefix_namedSegments path
  rw [Path.Passes, Path.place, ← hback, Path.passesFrom_append]
  rcases hm with hm | rfl
  · exact .inl (.inl hm)
  · cases back with
    | nil => exact .inr (by rw [List.append_nil])
    | cons t more => exact .inl (.inr (Path.passesFrom_cons.mpr (.inl rfl)))

theorem isDirectory_iff : d.isDirectory path = true ↔ d.find? path = some .directory := by
  unfold isDirectory
  split
  · next hfound => simp [hfound]
  · next hother => simpa using hother

/-- **Making directories changes nothing but the way of the path.** -/
theorem evolves_makeDirs (h : d.makeDirs path = .ok d')
    (hways : ∀ m, Path.Passes d.cwd path m ∨ m = Path.place d.cwd path → s.ways m ∨ s.scratch m) :
    d.Evolves s d' := by
  unfold makeDirs at h
  split at h
  · cases h
    exact Evolves.refl s _
  · split at h
    · cases h
    · next start hstart =>
        obtain ⟨-, rfl⟩ := origin_eq_ok_iff.mp hstart
        split at h
        · cases h
        · next made hmade =>
            have hsame : made = d' := by
              split at h
              · exact Except.ok.inj h
              · cases h
            subst hsame
            exact evolves_makeAlong hmade fun m hm => hways m (visits_of_namedSegments hm)

/-- **Making the directories above a path changes nothing but its way.** -/
theorem evolves_makeAbove (h : d.makeDirs ((Path.parent path).getD "") = .ok d')
    (hways : ∀ m, Path.Passes d.cwd path m → s.ways m ∨ s.scratch m) : d.Evolves s d' := by
  cases hparent : Path.parent path with
  | none =>
      rw [hparent] at h
      cases h
      exact Evolves.refl s _
  | some above =>
      rw [hparent] at h
      exact evolves_makeDirs h fun m hm => hways m (Path.passes_of_parent hparent hm)

/-- A directory that was made is there. -/
theorem find?_of_makeDirs (h : d.makeDirs path = .ok d') (hne : path.isEmpty = false) :
    d'.find? path = some .directory := by
  unfold makeDirs at h
  rw [hne, if_neg Bool.false_ne_true] at h
  split at h
  · cases h
  · split at h
    · cases h
    · split at h
      · next hthere =>
          cases h
          exact isDirectory_iff.mp hthere
      · cases h

/-- Directories that are there need not be made. -/
theorem makeAlong_of_makeAlong {parts : List (List Char)} {e : Disk α}
    (h : d.makeAlong l parts = .ok d')
    (hdirectory : ∀ m, d'.node? m = some .directory → e.node? m = some .directory) :
    e.makeAlong l parts = .ok e := by
  induction parts generalizing d l with
  | nil => rfl
  | cons part rest ih =>
      have hgrows : ∀ {d₁ : Disk α} {m}, d₁.makeAlong m rest = .ok d' →
          ∀ n, d₁.node? n = some .directory → e.node? n = some .directory := by
        intro d₁ m hrest n hn
        have hevolves := evolves_makeAlong (s := { ways := fun _ => True }) hrest
          fun _ _ => .inl trivial
        exact hdirectory n (hevolves.directory id hn)
      unfold makeAlong at h
      split at h
      · cases h
      · next m hm =>
          obtain ⟨hl, hshort, rfl⟩ := follow_eq_ok_iff.mp hm
          have hfollow : e.node? l = some .directory →
              e.follow l part = .ok (Path.follow l part) := fun hdir =>
            follow_eq_ok_iff.mpr ⟨hdir, hshort, rfl⟩
          split at h
          · next hnone =>
              have hput := node?_put d (ne_nil_of_node? (by rw [hnone]; exact nofun)) .directory
              have hl' : e.node? l = some .directory := by
                refine hgrows h l ?_
                rw [hput, if_neg, hl]
                rintro heq
                rw [heq, hl] at hnone
                cases hnone
              rw [makeAlong, hfollow hl']
              dsimp only
              rw [hgrows h _ (by rw [hput, if_pos rfl])]
              exact ih h
          · next hdir =>
              rw [makeAlong, hfollow (hgrows h l hl)]
              dsimp only
              rw [hgrows h _ hdir]
              exact ih h
          · cases h

/-- **Making directories that are there changes nothing at all.** -/
theorem makeDirs_of_makeDirs {e : Disk α} (h : d.makeDirs path = .ok d') (hcwd : e.cwd = d.cwd)
    (hdirectory : ∀ m, d'.node? m = some .directory → e.node? m = some .directory) :
    e.makeDirs path = .ok e := by
  have hcwd' : d'.cwd = d.cwd :=
    (evolves_makeDirs (s := { ways := fun _ => True }) h fun _ _ => .inl trivial).cwd
  unfold makeDirs at h ⊢
  split at h
  · next hempty => rw [if_pos hempty]
  · next hempty =>
      rw [if_neg hempty]
      split at h
      · cases h
      · next start hstart =>
          have hstart' : e.origin path = .ok start := by
            rw [origin_eq_ok_iff] at hstart ⊢
            rwa [hcwd]
          rw [hstart']
          dsimp only
          split at h
          · cases h
          · next made hmade =>
              have hboth : made.isDirectory path = true ∧ made = d' := by
                split at h
                · next hthere => exact ⟨hthere, Except.ok.inj h⟩
                · cases h
              obtain ⟨hthere, rfl⟩ := hboth
              rw [makeAlong_of_makeAlong hmade hdirectory]
              dsimp only
              obtain ⟨⟨husable, hway⟩, hnode⟩ :=
                find?_eq_some_iff.mp (isDirectory_iff.mp hthere)
              rw [if_pos]
              rw [isDirectory_iff, find?_eq_some_iff, hcwd, ← hcwd']
              exact ⟨⟨husable, fun m hm => hdirectory m (hway m hm)⟩, hdirectory _ hnode⟩

/-- What stands where after a place and all below it was taken away. -/
theorem node?_remove (d : Disk α) {l : Location} (hl : l ≠ []) (m : Location) :
    (d.remove l).node? m = if l <+: m then none else d.node? m := by
  cases m with
  | nil => simp [node?, hl]
  | cons first rest =>
      show (d.nodes.filter fun k _ => !l.isPrefixOf k)[first :: rest]? = _
      rw [Std.TreeMap.getElem?_filter']
      by_cases hbelow : l <+: first :: rest
      · cases d.nodes[first :: rest]? <;>
          simp [hbelow, List.isPrefixOf_iff_prefix.mpr hbelow]
      · have hnot : l.isPrefixOf (first :: rest) = false := by
          rwa [← Bool.not_eq_true, List.isPrefixOf_iff_prefix]
        simp only [hnot, if_neg hbelow, node?]
        cases d.nodes[first :: rest]? <;> rfl

/-- **Taking things away changes nothing outside.** -/
theorem evolves_remove (hl : l ≠ []) (hscratch : ∀ m, l <+: m → s.scratch m) (d : Disk α) :
    d.Evolves s (d.remove l) := by
  refine ⟨rfl, fun m => ?_⟩
  rw [node?_remove d hl]
  split
  · next hm => exact .scratch (hscratch m hm)
  · exact .keep rfl

end Operations

end Disk

namespace Files

open Disk

variable {s : Scope} {d d' : Files} {path : String}

theorem makeDirs_eq_ok_iff : makeDirs d path = .ok d' ↔ Disk.makeDirs d path = .ok d' := by
  unfold makeDirs
  cases Disk.makeDirs d path <;> simp

theorem copy_eq_ok_iff {source : String} :
    copy d source path = .ok d' ↔ Disk.copy d source path = .ok d' := by
  unfold copy
  cases Disk.copy d source path <;> simp

/-- A picture that is written stands in its file. -/
theorem write_of_writePicture {p : Picture} (h : writePicture d path p = .ok d') :
    d.write path (.picture p) = .ok d' := by
  unfold writePicture at h
  split at h
  · cases h
  · split at h
    · next hwrite => rw [hwrite, Except.ok.inj h]
    · cases h

/-- What is found in a file depends on what is read from it. -/
theorem inspectPicture_of_read {β : Type} {f : Content → Option β} (h : d'.read path = d.read path) :
    inspectPicture f d' path = inspectPicture f d path := by
  unfold inspectPicture
  rw [h]

/-- **Taking a directory away changes nothing outside.** -/
theorem evolves_removeTree (hne : Path.place d.cwd path ≠ [])
    (hscratch : ∀ m, Path.place d.cwd path <+: m → s.scratch m) :
    d.Evolves s (removeTree d path) := by
  unfold removeTree
  split
  · next l hl =>
      obtain rfl := (resolve_eq_ok_iff.mp hl).2.2
      exact evolves_remove hne hscratch d
  · exact Evolves.refl s d

/-- A directory that is taken away is gone with all that it holds. -/
theorem lacks_removeTree (hne : Path.place d.cwd path ≠ [])
    (hthere : d.resolve path = .ok (Path.place d.cwd path)) :
    (removeTree d path).Lacks (Path.place d.cwd path <+: ·) := by
  intro m hm
  rw [removeTree, hthere]
  exact (node?_remove d hne m).trans (if_pos hm)

end Files

end CharacterArt
