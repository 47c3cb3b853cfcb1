import CharacterArt.Alpha.Override
import CharacterArt.Proofs.Disk.Names
import CharacterArt.Proofs.Insertions
import CharacterArt.Proofs.Text.LowerForms
import CharacterArt.Proofs.Traversal
import Mathlib.Data.List.TakeWhile

/-!
# The last entry counts

An override table is made from a list of entries.  It is refused for the first entry that does not
name exactly one target.  Otherwise a path has the target of the last entry whose path has the same
normal form.

Two paths have one normal form exactly if they name one file, letter by letter, in directories that
are spelled alike: with either separator, and in any letter case.  The case of a directory is that of
its text as a whole, since the lowercase form of a capital sigma depends on its place in a word.

## Main Definitions

* `Override.NamesOne`, `Override.named?` — an entry with one target, and the target
* `lastFor?` — the last entry for a path
* `IsBare`, `SpelledAlike` — the name of a file, and paths that differ only in separators and in the
  case of their directories

## Main Results

* `normalizePath_below` — the normal form of a path with a directory
* `normalizePath_eq_iff` — which paths have one normal form
* `OverrideTable.ofEntries_exact` — which lists of entries are refused, and what a table holds
-/

namespace CharacterArt.Alpha

open Text (lowercase)

/-! ### Normal forms -/

/-- A character that separates the steps of a path. -/
def IsSeparator (c : Char) : Prop :=
  c = '/' ∨ c = '\\'

instance (c : Char) : Decidable (IsSeparator c) :=
  inferInstanceAs (Decidable (_ ∨ _))

/-- A text without separators, such as the name of a file. -/
def IsBare (file : String) : Prop :=
  ∀ c ∈ file.toList, ¬ IsSeparator c

instance (file : String) : Decidable (IsBare file) :=
  inferInstanceAs (Decidable (∀ c ∈ file.toList, ¬ IsSeparator c))

/-- A text with slashes for backslashes. -/
def slashes (s : String) : String :=
  String.ofList (s.toList.map slash)

/-- Two paths name one file, and their directories differ only in separators and in letter case. -/
inductive SpelledAlike : String → String → Prop where
  | bare {file : String} (h : IsBare file) : SpelledAlike file file
  | below {above above' file : String} {c c' : Char} (hc : IsSeparator c) (hc' : IsSeparator c')
      (hfile : IsBare file) (h : lowercase (slashes above) = lowercase (slashes above')) :
      SpelledAlike (above.push c ++ file) (above'.push c' ++ file)

variable {above file path p q : String} {c : Char}

theorem slash_eq_iff : slash c = '/' ↔ IsSeparator c := by
  unfold slash IsSeparator
  split
  · next h => simp [h]
  · next h => simp [h]

theorem slash_of_not_isSeparator (h : ¬ IsSeparator c) : slash c = c :=
  if_neg fun heq => h (.inr heq)

theorem slash_ne_backslash (c : Char) : slash c ≠ '\\' := by
  unfold slash
  split
  · decide
  · next h => exact h

theorem IsBare.slashes_eq (h : IsBare file) : file.toList.map slash = file.toList := by
  rw [List.map_congr_left fun c hc => slash_of_not_isSeparator (h c hc), List.map_id']

theorem IsBare.no_slash (h : IsBare file) : '/' ∉ file.toList :=
  fun hmem => h _ hmem (.inl rfl)

/-- The name of a file is its own normal form. -/
theorem normalizePath_of_isBare (h : IsBare path) : normalizePath path = path := by
  have hall : ∀ c ∈ path.toList.reverse, (c != '/') = true := fun c hc =>
    bne_iff_ne.mpr fun heq => h.no_slash (heq ▸ List.mem_reverse.mp hc)
  unfold normalizePath
  dsimp only
  rw [h.slashes_eq, List.takeWhile_eq_self_iff.mpr hall, List.dropWhile_eq_nil_iff.mpr hall,
    List.reverse_reverse]
  exact String.ofList_toList

/-- **The normal form of a path with a directory** has the directory in lowercase, with slashes, and
the name of the file as it is. -/
theorem normalizePath_below (hc : IsSeparator c) (h : IsBare file) :
    normalizePath (above.push c ++ file) = lowercase (slashes above) ++ "/" ++ file := by
  have hpath : (above.push c ++ file).toList.map slash =
      above.toList.map slash ++ '/' :: file.toList := by
    rw [String.toList_append, String.toList_push, List.map_append, List.map_append, h.slashes_eq,
      List.map_singleton, slash_eq_iff.mpr hc, List.append_assoc, List.singleton_append]
  unfold normalizePath
  dsimp only
  rw [hpath, Text.takeWhile_reverse_append h.no_slash, Text.dropWhile_reverse_append h.no_slash]
  dsimp only
  rw [List.reverse_reverse, List.reverse_reverse, String.ofList_cons, String.ofList_toList,
    ← String.append_assoc]
  rfl

example : normalizePath "NPC\\Sakura/Pic.png" = "npc/sakura/Pic.png" := by
  decide +kernel

/-- Characters have no separators among them, or there is a last one. -/
theorem exists_last_separator (cs : List Char) : (∀ c ∈ cs, ¬ IsSeparator c) ∨
    ∃ front c back, IsSeparator c ∧ (∀ d ∈ back, ¬ IsSeparator d) ∧ cs = front ++ c :: back := by
  induction cs with
  | nil => exact .inl fun c hc => absurd hc List.not_mem_nil
  | cons first rest ih =>
      rcases ih with hnone | ⟨front, c, back, hc, hback, rfl⟩
      · by_cases hfirst : IsSeparator first
        · exact .inr ⟨[], first, rest, hfirst, hnone, rfl⟩
        · exact .inl (List.forall_mem_cons.mpr ⟨hfirst, hnone⟩)
      · exact .inr ⟨first :: front, c, back, hc, hback, rfl⟩

/-- A path is the name of a file, or it has a directory. -/
theorem exists_split (path : String) : IsBare path ∨
    ∃ (above : String) (c : Char) (file : String), IsSeparator c ∧ IsBare file ∧
      path = above.push c ++ file := by
  rcases exists_last_separator path.toList with hbare | ⟨front, c, back, hc, hback, hpath⟩
  · exact .inl hbare
  · refine .inr ⟨String.ofList front, c, String.ofList back, hc, ?_, ?_⟩
    · rwa [IsBare, String.toList_ofList]
    · rw [← String.toList_inj, hpath]
      simp

/-- **Normal forms are their own normal forms.** -/
theorem normalizePath_normalizePath (path : String) :
    normalizePath (normalizePath path) = normalizePath path := by
  rcases exists_split path with hbare | ⟨above, c, file, hc, hfile, rfl⟩
  · rw [normalizePath_of_isBare hbare, normalizePath_of_isBare hbare]
  · have hslashes : slashes (lowercase (slashes above)) = lowercase (slashes above) := by
      -- there is no backslash left, and lowercasing brings none in
      have hsame : ∀ d ∈ (lowercase (slashes above)).toList, slash d = d := by
        intro d hd
        refine if_neg fun hbackslash => ?_
        rw [lowercase, String.toList_ofList, hbackslash] at hd
        have hmem := Text.mem_of_mem_lowerFrom (by decide) hd
        rw [slashes, String.toList_ofList] at hmem
        obtain ⟨e, -, he⟩ := List.mem_map.mp hmem
        exact slash_ne_backslash e he
      rw [slashes, List.map_congr_left hsame, List.map_id', String.ofList_toList]
    have hpush : lowercase (slashes above) ++ "/" = (lowercase (slashes above)).push '/' := rfl
    rw [normalizePath_below hc hfile, hpush, normalizePath_below (.inl rfl) hfile, hslashes,
      Text.lowercase_lowercase, hpush]

/-- **Two paths have one normal form exactly if they are spelled alike.** -/
theorem normalizePath_eq_iff : normalizePath p = normalizePath q ↔ SpelledAlike p q := by
  constructor
  · intro h
    rcases exists_split p with hp | ⟨above, c, file, hc, hfile, rfl⟩ <;>
      rcases exists_split q with hq | ⟨above', c', file', hc', hfile', rfl⟩
    · rw [normalizePath_of_isBare hp, normalizePath_of_isBare hq] at h
      subst h
      exact .bare hp
    · rw [normalizePath_of_isBare hp, normalizePath_below hc' hfile'] at h
      exact absurd (by rw [h]; simp) hp.no_slash
    · rw [normalizePath_of_isBare hq, normalizePath_below hc hfile] at h
      exact absurd (by rw [← h]; simp) hq.no_slash
    · rw [normalizePath_below hc hfile, normalizePath_below hc' hfile'] at h
      obtain ⟨habove, rfl⟩ := Path.slash_inj hfile.no_slash hfile'.no_slash h
      exact .below hc hc' hfile habove
  · intro h
    cases h with
    | bare hfile => rfl
    | below hc hc' hfile h => rw [normalizePath_below hc hfile, normalizePath_below hc' hfile, h]

/-- The name of a file is kept letter by letter. -/
theorem spelledAlike_file_iff {file' : String} (hc : IsSeparator c) (hfile : IsBare file)
    (hfile' : IsBare file') :
    SpelledAlike (above.push c ++ file) (above.push c ++ file') ↔ file = file' := by
  rw [← normalizePath_eq_iff, normalizePath_below hc hfile, normalizePath_below hc hfile']
  constructor
  · exact fun h => (Path.slash_inj hfile.no_slash hfile'.no_slash h).2
  · rintro rfl
    rfl

/-! ### Entries -/

/-- An entry names exactly one target. -/
def Override.NamesOne (o : Override) : Prop :=
  o.asset.isSome ≠ o.output.isSome

instance (o : Override) : Decidable o.NamesOne :=
  inferInstanceAs (Decidable (_ ≠ _))

/-- What an entry names: an object by its name as it is written, or an output by the normal form of
its path. -/
def Override.named? (o : Override) : Option OverrideTarget :=
  (o.asset.map .asset).or (o.output.map fun path => .output (normalizePath path))

/-- What is wrong with an entry that does not name exactly one target. -/
def Override.fault (o : Override) : OverrideFault :=
  if o.asset.isSome then .bothTargets else .noTarget

/-- The last entry for a path. -/
def lastFor? (entries : List Override) (path : String) : Option Override :=
  entries.reverse.find? fun o => normalizePath o.image == normalizePath path

theorem Override.target_cases (o : Override) :
    (o.NamesOne ∧ ∃ target, o.named? = some target ∧ o.target = .ok target) ∨
      (¬ o.NamesOne ∧ o.target = .error o.fault) := by
  obtain ⟨image, asset, output⟩ := o
  cases asset with
  | none =>
      cases output with
      | none => exact .inr ⟨by simp [NamesOne], rfl⟩
      | some path => exact .inl ⟨by simp [NamesOne], _, rfl, rfl⟩
  | some name =>
      cases output with
      | none => exact .inl ⟨by simp [NamesOne], _, rfl, rfl⟩
      | some path => exact .inr ⟨by simp [NamesOne], rfl⟩

/-! ### Tables -/

namespace OverrideTable

variable {entries : List Override} {o : Override}

theorem add_of_namesOne (table : OverrideTable) (h : o.NamesOne) : ∃ target,
    o.named? = some target ∧ table.add o = .ok (table.insert (normalizePath o.image) target) := by
  rcases o.target_cases with ⟨-, target, hnamed, htarget⟩ | ⟨hnot, -⟩
  · exact ⟨target, hnamed, by rw [add, htarget]⟩
  · exact absurd h hnot

theorem add_of_not_namesOne (table : OverrideTable) (h : ¬ o.NamesOne) :
    table.add o = .error (.invalidOverride o.image o.fault) := by
  rcases o.target_cases with ⟨hone, -⟩ | ⟨-, htarget⟩
  · exact absurd hone h
  · rw [add, htarget]

/-- Entries with one target each are put into a table one after another. -/
theorem exists_foldlM_add (h : ∀ o ∈ entries, o.NamesOne) (table : OverrideTable) :
    ∃ filled : OverrideTable, entries.foldlM add table = .ok filled ∧ ∀ form : String,
      filled[form]? = ((entries.reverse.find? fun o => normalizePath o.image == form).bind
        Override.named?).or table[form]? := by
  -- the target of an entry that names none is of no concern
  let target (o : Override) : OverrideTarget := o.named?.getD (.asset "")
  refine ⟨entries.foldl (fun table o => table.insert (normalizePath o.image) (target o)) table,
    ?_, fun form => ?_⟩
  · induction entries generalizing table with
    | nil => rfl
    | cons o rest ih =>
        obtain ⟨hone, hrest⟩ := List.forall_mem_cons.mp h
        obtain ⟨t, hnamed, hadd⟩ := add_of_namesOne table hone
        have htarget : target o = t := by simp [target, hnamed]
        rw [List.foldlM_cons, hadd, List.foldl_cons, htarget]
        exact ih hrest _
  · rw [getElem?_foldl_insert_last (fun o : Override => normalizePath o.image) target]
    cases hfound : entries.reverse.find? fun o => normalizePath o.image == form with
    | none => rfl
    | some o =>
        have hmem := List.mem_reverse.mp (List.mem_of_find?_eq_some hfound)
        obtain ⟨t, hnamed, -⟩ := add_of_namesOne table (h o hmem)
        simp [target, hnamed]

/-- **A list of entries is refused for its first entry that does not name exactly one target.** -/
theorem ofEntries_eq_error (h : entries.find? (fun o => !decide o.NamesOne) = some o) :
    ofEntries entries = .error (.invalidOverride o.image o.fault) := by
  obtain ⟨hbad, before, after, rfl, hbefore⟩ := List.find?_eq_some_iff_append.mp h
  have hones : ∀ o ∈ before, o.NamesOne := by simpa using hbefore
  obtain ⟨filled, hfilled, -⟩ := exists_foldlM_add hones ∅
  have hnot : ¬ o.NamesOne := by simpa using hbad
  rw [ofEntries, List.foldlM_append, hfilled]
  show (o :: after).foldlM add filled = _
  rw [List.foldlM_cons, add_of_not_namesOne filled hnot]
  rfl

/-- **A path has the target of the last entry for it.** -/
theorem exists_ofEntries (h : ∀ o ∈ entries, o.NamesOne) : ∃ table, ofEntries entries = .ok table ∧
    ∀ path, table.find? path = (lastFor? entries path).bind Override.named? := by
  obtain ⟨table, htable, hfind⟩ := exists_foldlM_add h ∅
  refine ⟨table, htable, fun path => ?_⟩
  rw [find?, hfind, Std.TreeMap.getElem?_emptyc, Option.or_none, lastFor?]

/-- A table with a single entry tells paths apart that are not spelled alike. -/
theorem exists_find?_ne (h : ¬ SpelledAlike p q) :
    ∃ others table, ofEntries others = .ok table ∧ table.find? p ≠ table.find? q := by
  have hone : ∀ o ∈ [(⟨p, some "mask", none⟩ : Override)], o.NamesOne :=
    List.forall_mem_singleton.mpr Bool.noConfusion
  obtain ⟨table, htable, hfind⟩ := exists_ofEntries hone
  refine ⟨_, table, htable, ?_⟩
  have hforms : normalizePath p ≠ normalizePath q := fun heq => h (normalizePath_eq_iff.mp heq)
  rw [hfind, hfind]
  simp [lastFor?, hforms, Override.named?]

/-- **The last entry counts.**  A list of entries is refused exactly if some entry does not name one
target, and for the first such entry.  Otherwise a path has the target of the last entry for it.
Normal forms are their own normal forms, and no table tells two paths apart exactly if they are
spelled alike, so the name of the file counts letter by letter. -/
theorem ofEntries_exact (entries : List Override) :
    (∀ text, (Toml.parse text).bind Override.ofMembers = some entries →
      parse text = ofEntries entries) ∧
    ((∃ e, ofEntries entries = .error e) ↔ ∃ o ∈ entries, ¬ o.NamesOne) ∧
    (∀ o, entries.find? (fun o => !decide o.NamesOne) = some o →
      ofEntries entries = .error (.invalidOverride o.image o.fault)) ∧
    ((∀ o ∈ entries, o.NamesOne) → ∃ table, ofEntries entries = .ok table ∧
      ∀ path, table.find? path = (lastFor? entries path).bind Override.named?) ∧
    (∀ path, normalizePath (normalizePath path) = normalizePath path) ∧
    (∀ p q, (∀ others table, ofEntries others = .ok table → table.find? p = table.find? q) ↔
      SpelledAlike p q) ∧
    ∀ (above file file' : String) (c : Char), IsSeparator c → IsBare file → IsBare file' →
      (SpelledAlike (above.push c ++ file) (above.push c ++ file') ↔ file = file') := by
  refine ⟨fun text htext => ?_, ⟨?_, ?_⟩, fun o => ofEntries_eq_error, exists_ofEntries,
    normalizePath_normalizePath, fun p q => ⟨fun hsame => ?_, fun halike others table _ => ?_⟩,
    fun _ _ _ _ => spelledAlike_file_iff⟩
  · rw [parse, htext]
  · rintro ⟨e, herror⟩
    by_contra hnone
    push Not at hnone
    obtain ⟨table, htable, -⟩ := exists_ofEntries hnone
    rw [htable] at herror
    cases herror
  · rintro ⟨o, ho, hbad⟩
    have hsome : (entries.find? fun o => !decide o.NamesOne).isSome = true :=
      List.find?_isSome.mpr ⟨o, ho, by simpa using hbad⟩
    obtain ⟨first, hfirst⟩ := Option.isSome_iff_exists.mp hsome
    exact ⟨_, ofEntries_eq_error hfirst⟩
  · by_contra hnot
    obtain ⟨others, table, htable, hne⟩ := exists_find?_ne hnot
    exact hne (hsame others table htable)
  · rw [find?, find?, normalizePath_eq_iff.mpr halike]

end OverrideTable

end CharacterArt.Alpha
