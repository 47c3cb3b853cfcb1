import CharacterArt.Proofs.Disk.Evolution
import CharacterArt.Proofs.Disk.Names

/-!
# Directories that others have made

Making the directory of a file ends in one way whether or not somebody else has made some of the
directories before: it fails for the same reason on both disks, or it succeeds on both.

## Main Definitions

* `Path.LeadsUp` — the places from which a path leads up
* `Disk.Gains` — a disk has become another one with more directories in some places

## Main Results

* `Path.parent_join_join` — the path above a file in a directory
* `Path.isPrefix_of_passes` — the way of a path
* `Disk.directory_of_makeAlong`, `Disk.directory_of_makeDirs` — directories that were made are there
* `Disk.Gains.makeDirs` — making directories on both disks
-/

namespace CharacterArt

/-! ### Paths of files in directories -/

namespace Path

variable {base name file path : String} {parts : List (List Char)} {cwd l m : Location}

/-- A text that is split is put together again. -/
theorem joinWith_segments (path : List Char) : Text.joinWith '/' (segments path) = path := by
  induction path with
  | nil => rfl
  | cons c rest ih =>
      obtain ⟨s, more, hsplit⟩ := List.exists_cons_of_ne_nil (Text.split_ne_nil '/' rest)
      rw [segments, hsplit] at ih
      rw [segments, Text.split, hsplit]
      split
      · next hc => rw [Text.joinWith, ih, List.nil_append, hc]; exact List.cons_ne_nil s more
      · cases more with
        | nil => exact congrArg (c :: ·) ih
        | cons t more => exact congrArg (c :: ·) ih

/-- The segments of a name below a base end with the name. -/
theorem IsName.exists_segments_join (h : IsName name) (base : String) :
    ∃ front, segments (join base name).toList = front ++ [name.toList] := by
  obtain ⟨front, hjoin, -⟩ := Path.exists_segments_join base (isAbsolute_of_no_slash h.no_slash)
  rw [segments_of_no_slash h.no_slash] at hjoin
  exact ⟨front, hjoin⟩

theorem IsName.isEmpty_join (h : IsName name) (base : String) : (join base name).isEmpty = false := by
  obtain ⟨front, hsegments⟩ := h.exists_segments_join base
  rw [← Bool.not_eq_true, String.isEmpty_iff]
  intro hempty
  have hnil : segments "".toList = [] ++ [[]] := rfl
  rw [hempty, hnil] at hsegments
  have hlast := (List.append_inj' hsegments rfl).2
  exact h.ne_empty (String.toList_inj.mp (List.head_eq_of_cons_eq hlast).symm)

/-- Segments that end with a name are left alone. -/
theorem IsName.dropIdle_eq (h : IsName name) (back : List (List Char)) :
    dropIdle (name.toList :: back) = name.toList :: back := by
  cases back with
  | nil => rfl
  | cons s more => rw [dropIdle, h.isIdle_eq, if_neg Bool.false_ne_true]

/-- **The path above a file in a directory is that of the directory.** -/
theorem parent_join_join (hname : IsName name) (hfile : IsName file) (base : String) :
    parent (join (join base name) file) = some (join base name) := by
  obtain ⟨front, hsegments⟩ := hname.exists_segments_join base
  obtain ⟨front', hjoin, hbase, -⟩ :=
    Path.exists_segments_join (join base name) (isAbsolute_of_no_slash hfile.no_slash)
  have hne : name.toList ≠ [] := String.toList_inj.ne.mpr hname.ne_empty
  have hfront : front' = front ++ [name.toList] := by
    rcases hbase with hbase | hbase
    · rw [← hbase, hsegments]
    · -- the last segment of the directory is its name and not empty
      rw [hsegments] at hbase
      exact absurd (List.append_inj' hbase rfl).2 (by simpa using hne)
  rw [segments_of_no_slash hfile.no_slash, hfront] at hjoin
  have hback : (segments (join (join base name) file).toList).reverse =
      file.toList :: name.toList :: front.reverse := by
    rw [hjoin]
    simp
  have habove : (dropIdle (name.toList :: front.reverse)).reverse =
      segments (join base name).toList := by
    rw [hname.dropIdle_eq, hsegments]
    simp
  rw [parent, hback, hfile.dropIdle_eq]
  split
  · next heq => cases heq
  · next heq => exact absurd (List.cons.inj heq).2 (List.cons_ne_nil _ _)
  · next heq => exact absurd (List.cons.inj heq).2 (List.cons_ne_nil _ _)
  · next heq =>
      obtain ⟨-, rfl⟩ := List.cons.inj heq
      split
      · next hroot =>
          rw [hname.dropIdle_eq, List.cons.injEq] at hroot
          exact absurd hroot.1 hne
      · rw [habove, joinWith_segments, String.ofList_toList]

/-- All segments of a path that ends with a name tell of directories to make. -/
theorem namedSegments_join (h : IsName name) (base : String) :
    Disk.namedSegments (join base name) = segments (join base name).toList := by
  obtain ⟨front, hsegments⟩ := h.exists_segments_join base
  have hne : name.toList.isEmpty = false := by
    simpa using h.ne_empty
  have hcurrent : name.toList ≠ ['.'] := String.toList_inj.ne.mpr h.ne_current
  have hback : (segments (join base name).toList).reverse.dropWhile List.isEmpty =
      name.toList :: front.reverse := by
    rw [hsegments, List.reverse_append, List.reverse_singleton, List.singleton_append,
      List.dropWhile_cons_of_neg (by simp [hne])]
  rw [Disk.namedSegments, hback, hsegments]
  split
  · next heq => exact absurd (List.cons.inj heq).1 hcurrent
  · simp

/-- A path leads up from a place. -/
def LeadsUp (cwd : Location) (path : String) (l : Location) : Prop :=
  ∃ front back, segments path.toList = front ++ ['.', '.'] :: back ∧
    l = front.foldl follow (start cwd path)

theorem LeadsUp.passes (h : LeadsUp cwd path l) : Passes cwd path l := by
  obtain ⟨front, back, hparts, rfl⟩ := h
  exact ⟨front, ['.', '.'], back, hparts, rfl⟩

/-- Segments lead to a place below, or up from one. -/
theorem isPrefix_foldl_follow (parts : List (List Char)) (l : Location) :
    l <+: parts.foldl follow l ∨
      ∃ front back, parts = front ++ ['.', '.'] :: back ∧ l <+: front.foldl follow l := by
  induction parts generalizing l with
  | nil => exact .inl (List.prefix_refl l)
  | cons s rest ih =>
      by_cases hup : s = ['.', '.']
      · exact .inr ⟨[], rest, by rw [hup, List.nil_append], List.prefix_refl l⟩
      · have hnext : l <+: follow l s := by
          unfold follow
          rw [if_neg hup]
          split
          · exact List.prefix_refl l
          · exact List.prefix_append l _
        rcases ih (follow l s) with hbelow | ⟨front, back, rfl, hbelow⟩
        · exact .inl (hnext.trans hbelow)
        · exact .inr ⟨s :: front, back, rfl, hnext.trans hbelow⟩

/-- **The way of a path** consists of places above the one it leads to, and above those from which it
leads up. -/
theorem isPrefix_of_passes (hm : Passes cwd path m) :
    m <+: place cwd path ∨ ∃ l, LeadsUp cwd path l ∧ m <+: l := by
  obtain ⟨front, s, back, hparts, rfl⟩ := hm
  rcases isPrefix_foldl_follow (s :: back) (front.foldl follow (start cwd path)) with
    hbelow | ⟨more, rest, hmore, hbelow⟩
  · rw [← List.foldl_append, ← hparts] at hbelow
    exact .inl hbelow
  · rw [← List.foldl_append] at hbelow
    exact .inr ⟨_, ⟨front ++ more, rest, by rw [hparts, hmore, List.append_assoc], rfl⟩, hbelow⟩

end Path

/-! ### Making directories -/

namespace Disk

variable {α : Type} {d d' e : Disk α} {places : Location → Prop} {l m : Location} {path : String}
  {parts : List (List Char)}

/-- **Directories that were made along segments are there**, and no segment is too long. -/
theorem directory_of_makeAlong (h : d.makeAlong l parts = .ok e)
    (hl : d.node? l = some .directory) : (∀ s ∈ parts, IsShort s) ∧
      ∀ m, Path.PassesFrom l parts m ∨ m = parts.foldl Path.follow l →
        e.node? m = some .directory := by
  induction parts generalizing d l with
  | nil =>
      cases h
      refine ⟨fun s hs => absurd hs List.not_mem_nil, fun m hm => ?_⟩
      rw [hm.resolve_left Path.not_passesFrom_nil]
      exact hl
  | cons s rest ih =>
      have hkept : e.node? l = some .directory :=
        (evolves_makeAlong (s := { ways := fun _ => True }) h fun _ _ => .inl trivial).directory id hl
      unfold makeAlong at h
      split at h
      · cases h
      · next m hm =>
          obtain ⟨-, hshort, rfl⟩ := follow_eq_ok_iff.mp hm
          obtain ⟨hrest, hdirectories⟩ : (∀ s ∈ rest, IsShort s) ∧
              ∀ m, Path.PassesFrom (Path.follow l s) rest m ∨
                m = rest.foldl Path.follow (Path.follow l s) → e.node? m = some .directory := by
            split at h
            · next hnone =>
                have hne : Path.follow l s ≠ [] := ne_nil_of_node? (d := d) (by simp [hnone])
                refine ih h ?_
                rw [node?_put d hne, if_pos rfl]
            · next hdirectory => exact ih h hdirectory
            · cases h
          refine ⟨fun t ht => ?_, fun m hm => ?_⟩
          · rcases List.mem_cons.mp ht with rfl | ht
            · exact hshort
            · exact hrest t ht
          · rw [Path.passesFrom_cons, or_assoc] at hm
            rcases hm with rfl | hm
            · exact hkept
            · exact hdirectories m hm

/-- A path starts at a directory, if the working directory is there. -/
theorem directory_start (h : d.node? d.cwd = some .directory) (path : String) :
    d.node? (Path.start d.cwd path) = some .directory := by
  unfold Path.start
  split
  · rfl
  · exact h

/-- **A directory that was made is there, and so is the way to it.** -/
theorem directory_of_makeDirs (h : d.makeDirs path = .ok e) (hcwd : d.node? d.cwd = some .directory)
    (hm : Path.Passes d.cwd path m ∨ m = Path.place d.cwd path) : e.node? m = some .directory := by
  by_cases hempty : path.isEmpty = true
  · obtain rfl := String.isEmpty_iff.mp hempty
    cases h
    -- the empty path stays where it starts
    have hm' : m = d.cwd := by
      rcases hm with hm | hm
      · exact (Path.passesFrom_cons.mp hm).resolve_right Path.not_passesFrom_nil
      · exact hm
    rwa [hm']
  · have hevolves : d.Evolves { ways := fun _ => True } e := evolves_makeDirs h fun _ _ => .inl trivial
    obtain ⟨⟨-, hway⟩, hplace⟩ := find?_eq_some_iff.mp (find?_of_makeDirs h (by simpa using hempty))
    rw [hevolves.cwd] at hway hplace
    rcases hm with hm | rfl
    · exact hway m hm
    · exact hplace

/-- Making a directory whose path tells of all directories to make comes down to making them. -/
theorem makeDirs_of_namedSegments (hne : path.isEmpty = false)
    (hnamed : namedSegments path = Path.segments path.toList)
    (hcwd : d.node? d.cwd = some .directory) :
    d.makeDirs path =
      match d.origin path with
      | .error f => .error f
      | .ok start => d.makeAlong start (Path.segments path.toList) := by
  unfold makeDirs
  rw [hne, if_neg Bool.false_ne_true, hnamed]
  cases horigin : d.origin path with
  | error f => rfl
  | ok start =>
      obtain ⟨⟨-, hnul, hsize⟩, rfl⟩ := origin_eq_ok_iff.mp horigin
      dsimp only
      cases hmade : d.makeAlong (Path.start d.cwd path) (Path.segments path.toList) with
      | error f => rfl
      | ok e =>
          obtain ⟨hshort, hdirectories⟩ := directory_of_makeAlong hmade (directory_start hcwd path)
          have hsame : e.cwd = d.cwd :=
            (evolves_makeAlong (s := { ways := fun _ => True }) hmade fun _ _ => .inl trivial).cwd
          have hthere : e.isDirectory path = true := by
            rw [isDirectory_iff, find?_eq_some_iff, hsame]
            exact ⟨⟨⟨hne, hnul, hsize, hshort⟩, fun m hm => hdirectories m (.inl hm)⟩,
              hdirectories _ (.inr rfl)⟩
          dsimp only
          rw [if_pos hthere]

/-- A disk has become another one on which more directories stand in some places, and nothing else has
changed there. -/
structure Gains (places : Location → Prop) (d d' : Disk α) : Prop where
  cwd_eq : d'.cwd = d.cwd
  gains : ∀ l, places l → d'.node? l = d.node? l ∨
    d.node? l = none ∧ d'.node? l = some .directory

namespace Gains

theorem put (h : d.Gains places d') (hl : l ≠ []) (n : Node α) :
    (d.put l n).Gains places (d'.put l n) := by
  refine ⟨h.cwd_eq, fun m hm => ?_⟩
  rw [node?_put d' hl, node?_put d hl]
  split
  · exact .inl rfl
  · exact h.gains m hm

/-- A directory that was gained may as well be made. -/
theorem put_left (h : d.Gains places d') (hl : l ≠ []) (hl' : d'.node? l = some .directory) :
    (d.put l .directory).Gains places d' := by
  refine ⟨h.cwd_eq, fun m hm => ?_⟩
  rw [node?_put d hl]
  split
  · next heq =>
      rw [← heq, hl']
      exact .inl rfl
  · exact h.gains m hm

/-- Directories are made along segments on both disks, or on none for one reason. -/
theorem makeAlong (h : d.Gains places d') (hl : d.node? l = some .directory)
    (hl' : d'.node? l = some .directory)
    (hparts : ∀ m, Path.PassesFrom l parts m ∨ m = parts.foldl Path.follow l → places m) :
    (∃ f, d.makeAlong l parts = .error f ∧ d'.makeAlong l parts = .error f) ∨
      ∃ e e', d.makeAlong l parts = .ok e ∧ d'.makeAlong l parts = .ok e' := by
  induction parts generalizing d d' l with
  | nil => exact .inr ⟨d, d', rfl, rfl⟩
  | cons s rest ih =>
      obtain ⟨hnext, hrest⟩ := Path.forall_visited_cons hparts
      have hfollow : d'.follow l s = d.follow l s := by
        rw [Disk.follow, hl', Disk.follow, hl]
      unfold Disk.makeAlong
      rw [hfollow]
      cases hfollowed : d.follow l s with
      | error f => exact .inl ⟨f, rfl, rfl⟩
      | ok m =>
          obtain ⟨-, -, rfl⟩ := follow_eq_ok_iff.mp hfollowed
          dsimp only
          cases hnode : d.node? (Path.follow l s) with
          | none =>
              have hne : Path.follow l s ≠ [] := ne_nil_of_node? (d := d) (by simp [hnode])
              have hput : (d.put (Path.follow l s) .directory).node? (Path.follow l s) =
                  some .directory := by
                rw [node?_put d hne, if_pos rfl]
              rcases h.gains _ hnext with hsame | ⟨-, hgained⟩
              · rw [hsame, hnode]
                refine ih (h.put hne _) hput ?_ hrest
                rw [node?_put d' hne, if_pos rfl]
              · rw [hgained]
                exact ih (h.put_left hne hgained) hput hgained hrest
          | some n =>
              have hsame : d'.node? (Path.follow l s) = some n := by
                rcases h.gains _ hnext with hsame | ⟨hnone, -⟩
                · rw [hsame, hnode]
                · rw [hnode] at hnone
                  cases hnone
              rw [hsame]
              cases n with
              | directory => exact ih h hnode hsame hrest
              | file content => exact .inl ⟨_, rfl, rfl⟩

/-- **A directory is made on both disks, or on none for one reason.** -/
theorem makeDirs (h : d.Gains places d') (hne : path.isEmpty = false)
    (hnamed : namedSegments path = Path.segments path.toList)
    (hcwd : d.node? d.cwd = some .directory) (hcwd' : d'.node? d'.cwd = some .directory)
    (hpath : ∀ m, Path.Passes d.cwd path m ∨ m = Path.place d.cwd path → places m) :
    (∃ f, d.makeDirs path = .error f ∧ d'.makeDirs path = .error f) ∨
      ∃ e e', d.makeDirs path = .ok e ∧ d'.makeDirs path = .ok e' := by
  have horigin : d'.origin path = d.origin path := by
    rw [origin, h.cwd_eq, origin]
  rw [makeDirs_of_namedSegments hne hnamed hcwd, makeDirs_of_namedSegments hne hnamed hcwd', horigin]
  cases hstarted : d.origin path with
  | error f => exact .inl ⟨f, rfl, rfl⟩
  | ok start =>
      obtain ⟨-, rfl⟩ := origin_eq_ok_iff.mp hstarted
      have hstart := directory_start hcwd' path
      rw [h.cwd_eq] at hstart
      exact h.makeAlong (directory_start hcwd path) hstart hpath

end Gains

end Disk

namespace Files

variable {d d' : Files} {places : Location → Prop} {path : String}

/-- A directory is made among the files of both disks, or on none for one reason. -/
theorem makeDirs_cases (h : d.Gains places d') (hne : path.isEmpty = false)
    (hnamed : Disk.namedSegments path = Path.segments path.toList)
    (hcwd : d.node? d.cwd = some .directory) (hcwd' : d'.node? d'.cwd = some .directory)
    (hpath : ∀ m, Path.Passes d.cwd path m ∨ m = Path.place d.cwd path → places m) :
    (∃ e, makeDirs d path = .error e ∧ makeDirs d' path = .error e) ∨
      ∃ e e', makeDirs d path = .ok e ∧ makeDirs d' path = .ok e' := by
  rcases h.makeDirs hne hnamed hcwd hcwd' hpath with ⟨f, hd, hd'⟩ | ⟨e, e', hd, hd'⟩
  · exact .inl ⟨.file f, by rw [makeDirs, hd], by rw [makeDirs, hd']⟩
  · exact .inr ⟨e, e', makeDirs_eq_ok_iff.mpr hd, makeDirs_eq_ok_iff.mpr hd'⟩

end Files

end CharacterArt
