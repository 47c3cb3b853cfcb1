import CharacterArt.Proofs.Disk.Places

/-!
# Paths made of names

The path that leads through some names below a directory leads to the place that is reached by these
names, whatever the path of the directory is spelled like.  So different names lead to different
places.

## Main Results

* `Path.place_join_names`, `Path.passes_join_names` — where such a path leads, and its way
* `Path.names_inj` — the names can be read off the path
* `Path.exists_segments_withExtension` — the last segment of a path to a picture
* `Path.isName_withExtension`, `Path.extension_withExtension` — the name of a picture
* `Path.slash_inj`, `Path.toString_inj` — names and numbers can be read off again
-/

namespace CharacterArt.Path

variable {names others : List String} {base file name : String} {cwd l m : Location}

theorem joinWith_eq_intercalate (parts : List (List Char)) :
    Text.joinWith '/' parts = ['/'].intercalate parts := by
  fun_induction Text.joinWith '/' parts with
  | case1 => rfl
  | case2 s => simp
  | case3 s more hmore ih =>
      obtain ⟨t, rest, rfl⟩ := List.exists_cons_of_ne_nil hmore
      rw [ih, List.intercalate_cons_cons, List.append_assoc]
      rfl

/-- Names that are put together with slashes are told apart again. -/
theorem segments_names (hne : names ≠ []) (h : ∀ name ∈ names, IsName name) :
    segments (String.intercalate "/" names).toList = names.map String.toList := by
  rw [String.toList_intercalate]
  show segments (['/'].intercalate (names.map String.toList)) = _
  rw [← joinWith_eq_intercalate]
  refine segments_joinWith (by simpa using hne) fun s hs => ?_
  obtain ⟨name, hname, rfl⟩ := List.mem_map.mp hs
  exact (h name hname).no_slash

theorem isAbsolute_names (hne : names ≠ []) (h : ∀ name ∈ names, IsName name) :
    isAbsolute (String.intercalate "/" names) = false := by
  rw [← Bool.not_eq_true, isAbsolute_iff]
  rintro ⟨s, rest, hparts⟩
  rw [segments_names hne h] at hparts
  cases names with
  | nil => exact hne rfl
  | cons first more =>
      rw [List.map_cons, List.cons.injEq] at hparts
      exact (h first List.mem_cons_self).ne_empty (String.toList_inj.mp hparts.1)

/-- **The names can be read off the path that they make.** -/
theorem names_inj (hne : names ≠ []) (hne' : others ≠ []) (h : ∀ name ∈ names, IsName name)
    (h' : ∀ name ∈ others, IsName name)
    (heq : String.intercalate "/" names = String.intercalate "/" others) : names = others := by
  have hparts := segments_names hne h
  rw [heq, segments_names hne' h'] at hparts
  exact (List.map_injective_iff.mpr fun a b hab => String.toList_inj.mp hab) hparts.symm

theorem foldl_follow_names (h : ∀ name ∈ names, IsName name) (l : Location) :
    (names.map String.toList).foldl follow l = l ++ names := by
  induction names generalizing l with
  | nil => simp
  | cons first rest ih =>
      rw [List.map_cons, List.foldl_cons, (h first List.mem_cons_self).follow,
        ih fun name hname => h name (List.mem_cons_of_mem first hname), List.append_assoc]
      rfl

theorem passesFrom_names (h : ∀ name ∈ names, IsName name) :
    PassesFrom l (names.map String.toList) m ↔
      ∃ front name back, names = front ++ name :: back ∧ m = l ++ front := by
  induction names generalizing l with
  | nil => simp
  | cons first rest ih =>
      rw [List.map_cons, passesFrom_cons, (h first List.mem_cons_self).follow,
        ih fun name hname => h name (List.mem_cons_of_mem first hname)]
      constructor
      · rintro (rfl | ⟨front, name, back, rfl, rfl⟩)
        · exact ⟨[], first, rest, rfl, (List.append_nil _).symm⟩
        · exact ⟨first :: front, name, back, rfl, by simp⟩
      · rintro ⟨front, name, back, hnames, rfl⟩
        cases front with
        | nil => exact .inl (List.append_nil _)
        | cons u front =>
            rw [List.cons_append, List.cons.injEq] at hnames
            obtain ⟨rfl, rfl⟩ := hnames
            exact .inr ⟨front, name, back, rfl, by simp⟩

/-- **Names below a base lead to the place that is reached by them.** -/
theorem place_join_names (hne : names ≠ []) (h : ∀ name ∈ names, IsName name) (base : String)
    (cwd : Location) :
    place cwd (join base (String.intercalate "/" names)) = place cwd base ++ names := by
  rw [place_join base (isAbsolute_names hne h), segments_names hne h, foldl_follow_names h]

/-- **The way by names below a base leads to the base and on by the names.** -/
theorem passes_join_names (hne : names ≠ []) (h : ∀ name ∈ names, IsName name) (base : String)
    (cwd m : Location) :
    Passes cwd (join base (String.intercalate "/" names)) m ↔ Passes cwd base m ∨
      ∃ front name back, names = front ++ name :: back ∧ m = place cwd base ++ front := by
  rw [passes_join base (isAbsolute_names hne h), segments_names hne h, passesFrom_names h]

/-- Joining puts the same text in front of every relative path. -/
theorem exists_join (base : String) :
    ∃ front, ∀ path, isAbsolute path = false → join base path = front ++ path := by
  by_cases h : (base.isEmpty || base.toList.getLast? == some '/') = true
  · refine ⟨base, fun path hpath => ?_⟩
    rw [join, if_neg (by rw [hpath]; exact Bool.false_ne_true), if_pos h]
  · refine ⟨base ++ "/", fun path hpath => ?_⟩
    rw [join, if_neg (by rw [hpath]; exact Bool.false_ne_true), if_neg h]

/-- What stands before a slash and what stands behind it have their own segments. -/
theorem segments_slash (base path : String) : segments (base ++ "/" ++ path).toList =
    segments base.toList ++ segments path.toList := by
  rw [String.toList_append, String.toList_append, List.append_assoc]
  exact Text.split_append '/' base.toList path.toList

/-- What stands before a slash tells whether the path is absolute. -/
theorem isAbsolute_slash (h : base ≠ "") (path : String) :
    isAbsolute (base ++ "/" ++ path) = isAbsolute base := by
  rw [isAbsolute, isAbsolute, String.toList_append, String.toList_append, List.append_assoc,
    head?_join (String.toList_inj.ne.mpr h)]

/-- A file below a directory below a base is spelled as two names below the base. -/
theorem join_join_name (h : IsName name) (base : String) (hfile : isAbsolute file = false) :
    join (join base name) file = join base (name ++ "/" ++ file) := by
  have hchars : name.toList ≠ [] := String.toList_inj.ne.mpr h.ne_empty
  have habsolute := isAbsolute_of_no_slash h.no_slash
  have habsolute' : isAbsolute (name ++ "/" ++ file) = false := by
    rw [isAbsolute_slash h.ne_empty, habsolute]
  obtain ⟨front, hfront⟩ := exists_join base
  have hne : (front ++ name).isEmpty = false := by
    rw [← Bool.not_eq_true, String.isEmpty_iff, ← String.toList_inj, String.toList_append]
    exact fun hnil => hchars (List.append_eq_nil_iff.mp hnil).2
  have hslash : ((front ++ name).toList.getLast? == some '/') = false := by
    rw [String.toList_append, List.getLast?_append_of_ne_nil _ hchars, ← Bool.not_eq_true,
      beq_iff_eq]
    exact fun hlast => h.no_slash (List.mem_of_getLast? hlast)
  rw [hfront _ habsolute, hfront _ habsolute', join, hfile, if_neg Bool.false_ne_true, hne, hslash,
    Bool.or_self, if_neg Bool.false_ne_true]
  simp only [String.append_assoc]

/-- The last segment of a path takes in whatever is put behind the path. -/
theorem exists_segments_append (path : List Char) {back : List Char} (h : '/' ∉ back) :
    ∃ front last, segments path = front ++ [last] ∧
      segments (path ++ back) = front ++ [last ++ back] := by
  induction path with
  | nil => exact ⟨[], [], rfl, segments_of_no_slash h⟩
  | cons c rest ih =>
      obtain ⟨front, last, hrest, hback⟩ := ih
      rw [segments] at hrest hback
      rw [List.cons_append, segments, segments, Text.split, Text.split, hrest, hback]
      split
      · exact ⟨[] :: front, last, rfl, rfl⟩
      · cases front with
        | nil => exact ⟨[], c :: last, rfl, rfl⟩
        | cons first more => exact ⟨(c :: first) :: more, last, rfl, rfl⟩

/-- With the extension of pictures a text without slashes is a name. -/
theorem isName_withExtension (h : '/' ∉ name.toList) : IsName (name ++ ".png") := by
  have hlast : (name ++ ".png").toList.getLast? = some 'g' := by
    rw [String.toList_append, List.getLast?_append_of_ne_nil _ (by simp)]
    simp
  refine ⟨fun heq => ?_, fun hslash => ?_, fun heq => ?_, fun heq => ?_⟩
  · rw [heq] at hlast
    cases hlast
  · rw [String.toList_append, List.mem_append] at hslash
    exact hslash.elim h (by simp)
  · rw [heq] at hlast
    cases hlast
  · rw [heq] at hlast
    cases hlast

/-- A name with the extension of pictures is a name. -/
theorem IsName.withExtension (h : IsName name) : IsName (name ++ ".png") :=
  isName_withExtension h.no_slash

/-- The extension of pictures goes to the last segment of a text. -/
theorem exists_segments_withExtension (name : String) : ∃ front last,
    segments name.toList = front ++ [last.toList] ∧ '/' ∉ last.toList ∧
      segments (name ++ ".png").toList = front ++ [(last ++ ".png").toList] := by
  have hpng : '/' ∉ ".png".toList := by decide
  obtain ⟨front, last, hparts, hextended⟩ := exists_segments_append name.toList hpng
  have hlast : (String.ofList last).toList = last := String.toList_ofList
  refine ⟨front, String.ofList last, ?_, ?_, ?_⟩
  · rw [hparts, hlast]
  · rw [hlast]
    exact no_slash_of_mem_segments (by rw [hparts]; exact List.mem_append_right _ List.mem_cons_self)
  · rw [String.toList_append, hextended, String.toList_append, hlast]

/-- A name is its own file name. -/
theorem IsName.fileName_eq (h : IsName name) : fileName name = some name := by
  have hparent : name.toList ≠ ['.', '.'] := String.toList_inj.ne.mpr h.ne_parent
  rw [fileName_eq_some_iff, segments_of_no_slash h.no_slash]
  simp [h.isIdle_eq, Component.ofSegment, hparent]

/-- The extension of the name of a picture. -/
theorem extension_withExtension (hne : name ≠ "") (h : '/' ∉ name.toList) :
    extension (name ++ ".png") = some "png" := by
  obtain ⟨c, before, hname⟩ : ∃ c before, name.toList.reverse = c :: before :=
    List.exists_cons_of_ne_nil (by simpa using hne)
  rw [extension, (isName_withExtension h).fileName_eq, Option.bind_some, splitDot]
  simp [String.toList_append, hname]

/-- A text that is put behind a slash can be read off, and so can what stands in front of it, if the
text has no slashes itself. -/
theorem slash_inj {a b x y : String} (hx : '/' ∉ x.toList) (hy : '/' ∉ y.toList)
    (h : a ++ "/" ++ x = b ++ "/" ++ y) : a = b ∧ x = y := by
  have hparts := congrArg (fun path => segments path.toList) h
  rw [segments_slash, segments_slash, segments_of_no_slash hx, segments_of_no_slash hy] at hparts
  have hlast : x = y := by
    rw [← String.toList_inj]
    exact List.head_eq_of_cons_eq (List.append_inj' hparts rfl).2
  rw [hlast, String.append_assoc, String.append_assoc] at h
  refine ⟨?_, hlast⟩
  have hchars := congrArg String.toList h
  simp only [String.toList_append] at hchars
  exact String.toList_inj.mp (List.append_cancel_right hchars)

/-- A number is written without slashes. -/
theorem no_slash_toString (n : Nat) : '/' ∉ (toString n).toList := by
  intro hmem
  rw [Nat.toString_eq_repr, Nat.toList_repr] at hmem
  exact absurd (Nat.isDigit_of_mem_toDigits (by decide) (by decide) hmem) (by decide)

/-- Different numbers are written differently. -/
theorem toString_inj {m n : Nat} (h : toString m = toString n) : m = n := by
  have hdigits := congrArg String.toList h
  rw [Nat.toString_eq_repr, Nat.toString_eq_repr, Nat.toList_repr, Nat.toList_repr] at hdigits
  have hread := congrArg (fun digits => Nat.ofDigitChars 10 digits 0) hdigits
  rwa [Nat.ofDigitChars_toDigits (by decide) (by decide),
    Nat.ofDigitChars_toDigits (by decide) (by decide)] at hread

end CharacterArt.Path
