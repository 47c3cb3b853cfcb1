import CharacterArt.Path
import Mathlib.Data.List.TakeWhile

/-!
# Names of joined paths

A path that is joined to a base keeps its last component, whatever the base is.  So the name of a
file of a directory is the same with the directory in front of it and without.

## Main Results

* `Text.split_append` — a text is split at each separator independently
* `Text.takeWhile_reverse_append`, `Text.dropWhile_reverse_append` — a text is cut at its last
  separator
* `Path.stem_join` — the name of a file of a directory
-/

namespace CharacterArt

namespace Text

theorem split_ne_nil (c : Char) (cs : List Char) : split c cs ≠ [] := by
  unfold split
  split
  · simp
  · split
    · simp
    · split <;> simp

/-- What stands before a separator and what stands behind it are split apart. -/
theorem split_append (c : Char) (front back : List Char) :
    split c (front ++ c :: back) = split c front ++ split c back := by
  induction front with
  | nil => simp [split]
  | cons d rest ih =>
      rw [List.cons_append, split, split]
      by_cases hd : d = c
      · simp [hd, ih]
      · cases hrest : split c rest with
        | nil => exact absurd hrest (split_ne_nil c rest)
        | cons s more => simp [hd, ih, hrest]

/-- What is read up to a separator stands before that separator, and has none. -/
theorem append_of_dropWhile {c d : Char} {cs rest : List Char}
    (h : cs.dropWhile (· != c) = d :: rest) :
    c ∉ cs.takeWhile (· != c) ∧ cs.takeWhile (· != c) ++ c :: rest = cs := by
  obtain rfl : d = c := by
    have hhead := List.head?_dropWhile_not (· != c) cs
    simpa [h] using hhead
  refine ⟨fun hmem => absurd (List.mem_takeWhile_imp hmem) (by simp), ?_⟩
  rw [← h, List.takeWhile_append_dropWhile]

/-- A text that is read from the end is read up to its last separator. -/
theorem takeWhile_reverse_append {c : Char} {front back : List Char} (h : c ∉ back) :
    (front ++ c :: back).reverse.takeWhile (· != c) = back.reverse := by
  have hback : ∀ d ∈ back.reverse, (d != c) = true := fun d hd =>
    bne_iff_ne.mpr fun heq => h (heq ▸ List.mem_reverse.mp hd)
  rw [List.reverse_append, List.reverse_cons, List.append_assoc, List.singleton_append,
    List.takeWhile_append_of_pos hback, List.takeWhile_cons_of_neg (by simp), List.append_nil]

/-- What is left then is the separator and what stands before it. -/
theorem dropWhile_reverse_append {c : Char} {front back : List Char} (h : c ∉ back) :
    (front ++ c :: back).reverse.dropWhile (· != c) = c :: front.reverse := by
  have hback : ∀ d ∈ back.reverse, (d != c) = true := fun d hd =>
    bne_iff_ne.mpr fun heq => h (heq ▸ List.mem_reverse.mp hd)
  rw [List.reverse_append, List.reverse_cons, List.append_assoc, List.singleton_append,
    List.dropWhile_append_of_pos hback, List.dropWhile_cons_of_neg (by simp)]

end Text

namespace Path

/-- Joining changes nothing, or it puts segments in front. -/
theorem segments_join (base path : String) :
    join base path = path ∨
      ∃ front, segments (join base path).toList = front ++ segments path.toList := by
  unfold join
  split
  · exact .inl rfl
  · split
    · next hbase =>
        cases hlast : base.toList.getLast? with
        | none =>
            rw [List.getLast?_eq_none_iff] at hlast
            refine .inl ?_
            rw [String.ext_iff, String.toList_append, hlast]
            rfl
        | some slash =>
            -- the base ends with the separator, so none is put between
            have hslash : slash = '/' := by
              have hne : base.isEmpty = false := by
                rw [← Bool.not_eq_true, String.isEmpty_iff]
                rintro rfl
                simp at hlast
              simpa [hne, hlast] using hbase
            obtain ⟨front, hfront⟩ := List.getLast?_eq_some_iff.mp hlast
            refine .inr ⟨Text.split '/' front, ?_⟩
            rw [segments, String.toList_append, hfront, hslash, List.append_assoc,
              List.singleton_append, Text.split_append]
            rfl
    · refine .inr ⟨Text.split '/' base.toList, ?_⟩
      rw [segments, String.toList_append, String.toList_append, List.append_assoc]
      exact Text.split_append '/' base.toList path.toList

/-- A path has a file name exactly if its last segment that describes a step is a name. -/
theorem fileName_eq_some_iff {path name : String} :
    fileName path = some name ↔
      (((segments path.toList).filter fun s => !isIdle s).map Component.ofSegment).getLast? =
        some (.normal name) := by
  have hlast : fileName path = some name ↔
      (components path).getLast? = some (.normal name) := by
    unfold fileName
    split
    · next step hstep => simp [hstep]
    · next hother =>
        constructor
        · intro h
          cases h
        · intro h
          exact absurd h (hother name)
  rw [hlast]
  unfold components
  dsimp only
  rw [List.getLast?_append]
  cases (((segments path.toList).filter fun s => !isIdle s).map Component.ofSegment).getLast? with
  | some step => simp
  | none =>
      -- What stands in front of the segments is no name.
      split <;> simp

/-- A joined path keeps its file name. -/
theorem fileName_join {base path name : String} (h : fileName path = some name) :
    fileName (join base path) = some name := by
  rcases segments_join base path with heq | ⟨front, hsegments⟩
  · rw [heq, h]
  · rw [fileName_eq_some_iff] at h ⊢
    rw [hsegments, List.filter_append, List.map_append, List.getLast?_append, h]
    rfl

/-- **A joined path keeps the name of its file without the extension.** -/
theorem stem_join {base path stem : String} (h : Path.stem path = some stem) :
    Path.stem (join base path) = some stem := by
  obtain ⟨name, hname, hstem⟩ := Option.map_eq_some_iff.mp h
  rw [Path.stem, fileName_join hname, Option.map_some, hstem]

end Path

end CharacterArt
