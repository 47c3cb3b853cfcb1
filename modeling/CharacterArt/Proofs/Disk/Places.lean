import CharacterArt.Proofs.Disk
import CharacterArt.Proofs.Path
import CharacterArt.Proofs.Traversal

/-!
# Where paths lead

A disk has no links, so the place that a path leads to can be read off its spelling.  The disk only
decides whether the path leads there at all: every place on the way has to be a directory.  So a
path that leads somewhere still does as long as directories stay directories.

## Main Definitions

* `Path.place`, `Path.Passes` — where a path leads by its spelling, and the places on the way
* `Path.way` — these places as a list
* `Path.IsName` — a text that is a single step down
* `Disk.IsUsable` — a path that no disk refuses for its spelling

## Main Results

* `Disk.resolve_eq_ok_iff` — when a path leads somewhere, and where
* `Disk.resolve_congr`, `Disk.find?_congr` — what this depends on
* `Path.place_join`, `Path.passes_join` — paths below another one
* `Path.passes_of_parent`, `Path.passes_iff_of_step` — the way to the path above
-/

namespace CharacterArt

namespace Path

/-! ### Places by spelling -/

/-- Where a segment leads from a place. -/
def follow (l : Location) (s : List Char) : Location :=
  if isIdle s then l else if s = ['.', '.'] then l.dropLast else l ++ [String.ofList s]

/-- Where a path starts. -/
def start (cwd : Location) (path : String) : Location :=
  if isAbsolute path then [] else cwd

/-- The place that a path leads to by its spelling. -/
def place (cwd : Location) (path : String) : Location :=
  (segments path.toList).foldl follow (start cwd path)

/-- Segments lead through a place: one of them is followed from there. -/
def PassesFrom (l : Location) (parts : List (List Char)) (m : Location) : Prop :=
  ∃ front s back, parts = front ++ s :: back ∧ m = front.foldl follow l

/-- A path leads through a place. -/
def Passes (cwd : Location) (path : String) (m : Location) : Prop :=
  PassesFrom (start cwd path) (segments path.toList) m

/-- A text is a single step down: the name of a file or of a directory. -/
structure IsName (name : String) : Prop where
  ne_empty : name ≠ ""
  no_slash : '/' ∉ name.toList
  ne_current : name ≠ "."
  ne_parent : name ≠ ".."

instance (name : String) : Decidable (IsName name) :=
  decidable_of_iff (name ≠ "" ∧ '/' ∉ name.toList ∧ name ≠ "." ∧ name ≠ "..")
    ⟨fun ⟨h₁, h₂, h₃, h₄⟩ => ⟨h₁, h₂, h₃, h₄⟩, fun ⟨h₁, h₂, h₃, h₄⟩ => ⟨h₁, h₂, h₃, h₄⟩⟩

section PassesFrom

variable {l m : Location} {s : List Char} {parts front back : List (List Char)}

@[simp] theorem not_passesFrom_nil : ¬ PassesFrom l [] m := by
  rintro ⟨front, s, back, h, -⟩
  simp at h

theorem passesFrom_cons : PassesFrom l (s :: parts) m ↔ m = l ∨ PassesFrom (follow l s) parts m := by
  constructor
  · rintro ⟨front, t, back, h, rfl⟩
    cases front with
    | nil => exact .inl rfl
    | cons u front =>
        rw [List.cons_append, List.cons.injEq] at h
        obtain ⟨rfl, rfl⟩ := h
        exact .inr ⟨front, t, back, rfl, rfl⟩
  · rintro (rfl | ⟨front, t, back, rfl, rfl⟩)
    · exact ⟨[], s, parts, rfl, rfl⟩
    · exact ⟨s :: front, t, back, rfl, rfl⟩

theorem passesFrom_append : PassesFrom l (front ++ back) m ↔
    PassesFrom l front m ∨ PassesFrom (front.foldl follow l) back m := by
  induction front generalizing l with
  | nil => simp
  | cons s front ih => rw [List.cons_append, passesFrom_cons, ih, passesFrom_cons, or_assoc,
      List.foldl_cons]

/-- What holds wherever segments lead holds of the next place, and wherever the rest leads from there. -/
theorem forall_visited_cons {P : Location → Prop}
    (h : ∀ m, PassesFrom l (s :: parts) m ∨ m = (s :: parts).foldl follow l → P m) :
    P (follow l s) ∧
      ∀ m, PassesFrom (follow l s) parts m ∨ m = parts.foldl follow (follow l s) → P m := by
  have hrest : ∀ m, PassesFrom (follow l s) parts m ∨ m = parts.foldl follow (follow l s) → P m :=
    fun m hm => h m (hm.imp_left fun hm => passesFrom_cons.mpr (.inr hm))
  refine ⟨hrest _ ?_, hrest⟩
  cases parts with
  | nil => exact .inr rfl
  | cons t more => exact .inl (passesFrom_cons.mpr (.inl rfl))

/-- The places that segments lead through, in order. -/
def way (l : Location) : List (List Char) → List Location
  | [] => []
  | s :: rest => l :: way (follow l s) rest

theorem mem_way : m ∈ way l parts ↔ PassesFrom l parts m := by
  induction parts generalizing l with
  | nil => simp [way]
  | cons s rest ih => rw [way, List.mem_cons, ih, passesFrom_cons]

instance : Decidable (PassesFrom l parts m) :=
  decidable_of_iff _ mem_way

instance {cwd : Location} {path : String} : Decidable (Passes cwd path m) :=
  inferInstanceAs (Decidable (PassesFrom _ _ m))

end PassesFrom

/-! ### Paths below another one -/

section Join

variable {base path : String} {cwd m : Location}

theorem head?_join {front back : List Char} (h : front ≠ []) :
    (front ++ back).head? = front.head? := by
  cases front with
  | nil => exact absurd rfl h
  | cons c front => rfl

/-- A relative path that is joined to a base keeps its segments, and those of the base stand in
front of them, without the empty one at its end if there is one. -/
theorem exists_segments_join (base : String) (h : isAbsolute path = false) :
    ∃ front, segments (join base path).toList = front ++ segments path.toList ∧
      (segments base.toList = front ∨ segments base.toList = front ++ [[]]) ∧
      isAbsolute (join base path) = isAbsolute base := by
  by_cases hempty : base.toList = []
  · -- nothing stands in front
    have hbase : base = "" := String.toList_inj.mp hempty
    subst hbase
    have hjoin : join "" path = path := by
      simp [join]
    refine ⟨[], ?_, .inr rfl, ?_⟩
    · rw [hjoin, List.nil_append]
    · rw [hjoin, h]
      rfl
  · have hne : base.isEmpty = false := by
      rw [← Bool.not_eq_true, String.isEmpty_iff]
      rintro rfl
      exact hempty rfl
    by_cases hlast : base.toList.getLast? = some '/'
    · obtain ⟨front, hfront⟩ := List.getLast?_eq_some_iff.mp hlast
      have hjoin : join base path = base ++ path := by
        simp [join, h, hlast]
      refine ⟨Text.split '/' front, ?_, .inr ?_, ?_⟩
      · rw [segments, hjoin, String.toList_append, hfront, List.append_assoc,
          List.singleton_append, Text.split_append]
        rfl
      · rw [segments, hfront, Text.split_append]
        rfl
      · rw [hjoin, isAbsolute, String.toList_append, head?_join hempty, isAbsolute]
    · have hjoin : join base path = base ++ "/" ++ path := by
        simp [join, h, hne, hlast]
      refine ⟨segments base.toList, ?_, .inl rfl, ?_⟩
      · rw [segments, hjoin, String.toList_append, String.toList_append, List.append_assoc]
        exact Text.split_append '/' base.toList path.toList
      · rw [hjoin, isAbsolute, String.toList_append, String.toList_append, List.append_assoc,
          head?_join hempty, isAbsolute]

/-- Joining puts a relative path behind the base. -/
theorem exists_join_append (base : String) (h : isAbsolute path = false) :
    ∃ back, join base path = base ++ back := by
  rw [join, h, if_neg Bool.false_ne_true]
  split
  · exact ⟨path, rfl⟩
  · exact ⟨"/" ++ path, String.append_assoc⟩

/-- **A relative path below a base leads on from the place of the base.** -/
theorem place_join (base : String) (h : isAbsolute path = false) (cwd : Location) :
    place cwd (join base path) = (segments path.toList).foldl follow (place cwd base) := by
  obtain ⟨front, hjoin, hbase, habsolute⟩ := exists_segments_join base h
  rw [place, hjoin, List.foldl_append, start, habsolute, place, start]
  rcases hbase with hbase | hbase
  · rw [hbase]
  · rw [hbase, List.foldl_append]
    rfl

/-- **The way below a base is the way to the base and the rest of the way from there.** -/
theorem passes_join (base : String) (h : isAbsolute path = false) (cwd m : Location) :
    Passes cwd (join base path) m ↔
      Passes cwd base m ∨ PassesFrom (place cwd base) (segments path.toList) m := by
  obtain ⟨front, hjoin, hbase, habsolute⟩ := exists_segments_join base h
  have hstart : start cwd (join base path) = start cwd base := by
    rw [start, habsolute, start]
  rw [Passes, hjoin, hstart, passesFrom_append, Passes, place]
  rcases hbase with hbase | hbase
  · rw [hbase]
  · -- the empty segment at the end of the base is followed from its place
    rw [hbase, passesFrom_append, List.foldl_append, passesFrom_cons]
    have hidle : ∀ l : Location, List.foldl follow l [[]] = l := fun l => rfl
    rw [hidle, or_iff_left not_passesFrom_nil, or_assoc]
    refine or_congr_right ⟨.inr, ?_⟩
    rintro (rfl | hrest)
    · obtain ⟨s, rest, hpath⟩ := List.exists_cons_of_ne_nil (Text.split_ne_nil '/' path.toList)
      rw [segments, hpath]
      exact passesFrom_cons.mpr (.inl rfl)
    · exact hrest

end Join

/-! ### Names -/

section Name

variable {name : String} {cwd l m : Location}

/-- A text without slashes is one segment. -/
theorem segments_of_no_slash {cs : List Char} (h : '/' ∉ cs) : segments cs = [cs] := by
  induction cs with
  | nil => rfl
  | cons c rest ih =>
      rw [List.mem_cons, not_or] at h
      rw [segments, Text.split, if_neg (Ne.symm h.1)]
      have hrest := ih h.2
      rw [segments] at hrest
      rw [hrest]

theorem isAbsolute_of_no_slash (h : '/' ∉ name.toList) : isAbsolute name = false := by
  unfold isAbsolute
  cases hcs : name.toList with
  | nil => rfl
  | cons c rest =>
      rw [hcs, List.mem_cons, not_or] at h
      simp [Ne.symm h.1]

theorem IsName.isIdle_eq (h : IsName name) : isIdle name.toList = false := by
  have hempty := h.ne_empty
  have hcurrent := h.ne_current
  rw [← String.toList_inj.ne] at hempty hcurrent
  simpa [isIdle] using And.intro hempty hcurrent

theorem IsName.follow (h : IsName name) (l : Location) :
    Path.follow l name.toList = l ++ [name] := by
  have hparent : name.toList ≠ ['.', '.'] := String.toList_inj.ne.mpr h.ne_parent
  rw [Path.follow, if_neg (Bool.eq_false_iff.mp h.isIdle_eq), if_neg hparent, String.ofList_toList]

/-- **A name below a base leads one step down.** -/
theorem IsName.place_join (h : IsName name) (base : String) (cwd : Location) :
    place cwd (join base name) = place cwd base ++ [name] := by
  rw [Path.place_join base (isAbsolute_of_no_slash h.no_slash), segments_of_no_slash h.no_slash]
  exact h.follow _

theorem IsName.passes_join (h : IsName name) (base : String) (cwd m : Location) :
    Passes cwd (join base name) m ↔ Passes cwd base m ∨ m = place cwd base := by
  rw [Path.passes_join base (isAbsolute_of_no_slash h.no_slash), segments_of_no_slash h.no_slash,
    passesFrom_cons, or_iff_left not_passesFrom_nil]

end Name

/-! ### The path above -/

section Parent

variable {path above : String} {cwd m : Location}

theorem no_slash_of_mem_segments {cs s : List Char} (h : s ∈ segments cs) : '/' ∉ s := by
  induction cs generalizing s with
  | nil =>
      obtain rfl := List.mem_singleton.mp h
      simp
  | cons c rest ih =>
      rw [segments, Text.split] at h
      split at h
      · rcases List.mem_cons.mp h with rfl | h
        · simp
        · exact ih h
      · next hc =>
          split at h
          · next first more hsplit =>
              have hfirst : '/' ∉ first := ih (by rw [segments, hsplit]; exact List.mem_cons_self)
              rcases List.mem_cons.mp h with rfl | h
              · simp [Ne.symm hc, hfirst]
              · exact ih (by rw [segments, hsplit]; exact List.mem_cons_of_mem first h)
          · next hnil => exact absurd hnil (Text.split_ne_nil '/' rest)

/-- Segments that are joined are split again. -/
theorem segments_joinWith {parts : List (List Char)} (hne : parts ≠ [])
    (h : ∀ s ∈ parts, '/' ∉ s) : segments (Text.joinWith '/' parts) = parts := by
  induction parts with
  | nil => exact absurd rfl hne
  | cons s rest ih =>
      have hs := h s List.mem_cons_self
      cases rest with
      | nil => exact segments_of_no_slash hs
      | cons t rest =>
          have hrest := ih (List.cons_ne_nil t rest) fun u hu => h u (List.mem_cons_of_mem s hu)
          rw [Text.joinWith, segments, Text.split_append]
          · rw [segments] at hrest
            rw [hrest]
            have hone := segments_of_no_slash hs
            rw [segments] at hone
            rw [hone]
            rfl
          · simp

/-- A path starts from the root exactly if its first segment is empty and another one follows. -/
theorem isAbsolute_iff : isAbsolute path = true ↔ ∃ s rest, segments path.toList = [] :: s :: rest := by
  unfold isAbsolute segments
  cases path.toList with
  | nil => simp [Text.split]
  | cons c rest =>
      rw [Text.split]
      split
      · next hc =>
          obtain ⟨s, more, hsplit⟩ := List.exists_cons_of_ne_nil (Text.split_ne_nil '/' rest)
          simp [hc, hsplit]
      · next hc => split <;> simp [hc]

/-- Only segments that describe no step are left out. -/
theorem exists_dropIdle (parts : List (List Char)) :
    ∃ front, parts = front ++ dropIdle parts ∧ (∀ s ∈ front, isIdle s = true) ∧
      (parts ≠ [] → dropIdle parts ≠ []) := by
  fun_induction dropIdle parts with
  | case1 s t more hidle ih =>
      obtain ⟨front, hfront, hall, hne⟩ := ih
      exact ⟨s :: front, by rw [List.cons_append, ← hfront], List.forall_mem_cons.mpr ⟨hidle, hall⟩,
        fun _ => hne (List.cons_ne_nil t more)⟩
  | case2 s t more hidle => exact ⟨[], rfl, nofun, id⟩
  | case3 parts hshort => exact ⟨[], rfl, nofun, id⟩

/-- The path above leads where the first segments of the path lead.  One of the others is left out, and
the rest of them describe no step. -/
theorem exists_segments_of_parent (h : parent path = some above) :
    ∃ front idle s rest, segments path.toList = front ++ (idle ++ s :: rest) ∧
      (∀ t ∈ idle, isIdle t = true) ∧ (∀ t ∈ rest, isIdle t = true) ∧
      ∀ cwd m, (Passes cwd above m ∨ m = place cwd above) ↔
        (PassesFrom (start cwd path) front m ∨ m = front.foldl follow (start cwd path)) := by
  obtain ⟨back, hback, hrest, -⟩ := exists_dropIdle (segments path.toList).reverse
  have hrest' : ∀ t ∈ back.reverse, isIdle t = true := fun t ht => hrest t (List.mem_reverse.mp ht)
  unfold parent at h
  split at h
  · cases h
  · cases h
  · next s hnone hone =>
      cases h
      have hsegments : segments path.toList = s :: back.reverse := by
        rw [← List.reverse_inj, hback, hone]
        simp
      refine ⟨[], [], s, back.reverse, hsegments, nofun, hrest', fun cwd m => ?_⟩
      -- the first segment is the one that is left, and it is not empty
      have hrelative : isAbsolute path = false := by
        rw [← Bool.not_eq_true, isAbsolute_iff]
        rintro ⟨t, rest, hparts⟩
        rw [hsegments, List.cons.injEq] at hparts
        exact hnone hparts.1
      have hstart : start cwd path = cwd := by
        rw [start, hrelative]
        rfl
      rw [hstart, List.foldl_nil, Passes, or_iff_right not_passesFrom_nil]
      show PassesFrom cwd [[]] m ∨ m = cwd ↔ m = cwd
      rw [passesFrom_cons, or_iff_left not_passesFrom_nil, or_self]
  · next s front hnone hempty hfront =>
      have hne : front ≠ [] := hempty
      obtain ⟨idle, hidle, hall, hfull⟩ := exists_dropIdle front
      have hall' : ∀ t ∈ idle.reverse, isIdle t = true := fun t ht => hall t (List.mem_reverse.mp ht)
      have hsegments : segments path.toList =
          (dropIdle front).reverse ++ (idle.reverse ++ s :: back.reverse) := by
        rw [← List.reverse_inj, hback, hfront]
        conv_lhs => rw [hidle]
        simp
      refine ⟨(dropIdle front).reverse, idle.reverse, s, back.reverse, hsegments, hall', hrest',
        fun cwd m => ?_⟩
      split at h
      · next hroot =>
          cases h
          have habsolute : isAbsolute path = true := by
            rw [isAbsolute_iff, hsegments, hroot]
            cases idle.reverse <;> exact ⟨_, _, rfl⟩
          have hstart : start cwd path = [] := by
            rw [start, habsolute]
            rfl
          rw [hstart, hroot]
          show PassesFrom [] [[], []] m ∨ m = [] ↔ PassesFrom [] [[]] m ∨ m = []
          rw [passesFrom_cons, or_comm, ← or_assoc, or_self, or_comm]
          rfl
      · next hroot =>
          cases h
          have hslash : ∀ t ∈ (dropIdle front).reverse, '/' ∉ t := by
            intro t ht
            have hmem : t ∈ segments path.toList := by
              rw [hsegments]
              exact List.mem_append_left _ ht
            exact no_slash_of_mem_segments hmem
          have habove : segments (String.ofList
              (Text.joinWith '/' (dropIdle front).reverse)).toList = (dropIdle front).reverse := by
            rw [String.toList_ofList]
            exact segments_joinWith (by simpa using hfull hne) hslash
          have habsolute : isAbsolute (String.ofList
              (Text.joinWith '/' (dropIdle front).reverse)) = isAbsolute path := by
            rw [Bool.eq_iff_iff, isAbsolute_iff, isAbsolute_iff, habove, hsegments]
            have hrootless : (dropIdle front).reverse ≠ [[]] := by
              intro heq
              exact hroot (by simpa using congrArg List.reverse heq)
            have hsome : (dropIdle front).reverse ≠ [] := by
              simpa using hfull hne
            match hparts : (dropIdle front).reverse with
            | [] => exact absurd hparts hsome
            | [t] =>
                rw [hparts] at hrootless
                have ht : t ≠ [] := fun heq => hrootless (by rw [heq])
                simp [ht]
            | t :: u :: more => simp
          rw [Passes, place, habove, start, habsolute, start]

/-- **Whatever lies on the way to the path above, or is that place itself, lies on the way to the
path.** -/
theorem passes_of_parent (h : parent path = some above)
    (hm : Passes cwd above m ∨ m = place cwd above) : Passes cwd path m := by
  obtain ⟨front, idle, s, rest, hsegments, -, -, habove⟩ := exists_segments_of_parent h
  rw [Passes, hsegments, passesFrom_append]
  refine ((habove cwd m).mp hm).imp_right ?_
  rintro rfl
  cases idle <;> exact passesFrom_cons.mpr (.inl rfl)

/-- Segments that describe no step lead nowhere, whatever stands behind them. -/
theorem passesFrom_idle {idle : List (List Char)} (h : ∀ t ∈ idle, isIdle t = true) :
    PassesFrom l (idle ++ [s]) m ↔ m = l := by
  induction idle with
  | nil => rw [List.nil_append, passesFrom_cons, or_iff_left not_passesFrom_nil]
  | cons t more ih =>
      obtain ⟨ht, hmore⟩ := List.forall_mem_cons.mp h
      rw [List.cons_append, passesFrom_cons, follow, if_pos ht, ih hmore, or_self]

/-- **The way to a path that ends with a step is the way to the path above, and that place.** -/
theorem passes_iff_of_step {front : List (List Char)} (hparts : segments path.toList = front ++ [s])
    (hs : isIdle s = false) : Passes cwd path m ↔
      Passes cwd ((parent path).getD "") m ∨ m = place cwd ((parent path).getD "") := by
  obtain ⟨above, habove⟩ : ∃ above, parent path = some above := by
    have hlast : dropIdle (segments path.toList).reverse = s :: front.reverse := by
      rw [hparts, List.reverse_append, List.reverse_singleton, List.singleton_append]
      cases front.reverse with
      | nil => rfl
      | cons t more => rw [dropIdle, if_neg (by simp [hs])]
    unfold parent
    rw [hlast]
    split
    · next hnil => cases hnil
    · next hnil =>
        rw [(List.cons.inj hnil).1] at hs
        cases hs
    · exact ⟨_, rfl⟩
    · split <;> exact ⟨_, rfl⟩
  obtain ⟨first, idle, t, rest, hsegments, hidle, hrest, hvisits⟩ := exists_segments_of_parent habove
  -- the step is the segment that is left out, for it does not describe none
  have hstep : rest = [] := by
    rcases List.eq_nil_or_concat' rest with rfl | ⟨more, u, rfl⟩
    · rfl
    · have hlast : (first ++ (idle ++ t :: more)) ++ [u] = front ++ [s] := by
        rw [← hparts, hsegments]
        simp
      obtain rfl : u = s := List.head_eq_of_cons_eq (List.append_inj' hlast rfl).2
      rw [hrest u (List.mem_append_right more (List.mem_singleton_self u))] at hs
      cases hs
  rw [habove, Option.getD_some, hvisits, Passes, hsegments, hstep, passesFrom_append,
    passesFrom_idle hidle]

end Parent

end Path

namespace Disk

open CharacterArt.Path

variable {α : Type} {d d' : Disk α} {l m : Location} {s : List Char} {path : String}

/-- A segment is short enough for a name, or it is none. -/
def IsShort (s : List Char) : Prop :=
  isIdle s = true ∨ s = ['.', '.'] ∨ (String.ofList s).utf8ByteSize ≤ maxNameSize

/-- No disk refuses a path for its spelling. -/
structure IsUsable (path : String) : Prop where
  ne_empty : path.isEmpty = false
  no_nul : path.toList.contains '\x00' = false
  size_le : path.utf8ByteSize ≤ maxPathSize
  short : ∀ s ∈ segments path.toList, IsShort s

/-- The front of a path is spelled as disks want it if the path is. -/
theorem IsUsable.of_join {base : String} (h : isAbsolute path = false) (hne : base ≠ "")
    (hjoin : IsUsable (join base path)) : IsUsable base := by
  obtain ⟨back, hback⟩ := exists_join_append base h
  have hempty : base.isEmpty = false := by
    rw [← Bool.not_eq_true, String.isEmpty_iff]
    exact hne
  refine ⟨hempty, ?_, ?_, fun s hs => ?_⟩
  · have hnul := hjoin.no_nul
    rw [hback, String.toList_append, ← Bool.not_eq_true, List.contains_iff_mem, List.mem_append,
      not_or] at hnul
    rw [← Bool.not_eq_true, List.contains_iff_mem]
    exact hnul.1
  · have hsize := hjoin.size_le
    rw [hback, String.utf8ByteSize_append] at hsize
    exact Nat.le_trans (Nat.le_add_right _ _) hsize
  · obtain ⟨front, hparts, hbase, -⟩ := exists_segments_join base h
    have hfront : ∀ s ∈ front, IsShort s := by
      intro s hs
      refine hjoin.short s ?_
      rw [hparts]
      exact List.mem_append_left _ hs
    rcases hbase with hbase | hbase
    · exact hfront s (hbase ▸ hs)
    · rw [hbase, List.mem_append, List.mem_singleton] at hs
      rcases hs with hs | rfl
      · exact hfront s hs
      · exact .inl rfl

theorem follow_eq_ok_iff :
    d.follow l s = .ok m ↔ d.node? l = some .directory ∧ IsShort s ∧ m = Path.follow l s := by
  unfold Disk.follow Path.follow IsShort
  split
  · next h => simp [h]
  · next h => simp [h]
  · next h =>
      dsimp only
      rw [h]
      by_cases hidle : isIdle s = true
      · simp [hidle, eq_comm]
      · by_cases hparent : s = ['.', '.']
        · rw [if_neg hidle, if_pos hparent, if_neg hidle, if_pos hparent]
          simp only [hparent, true_or, or_true, true_and, Except.ok.injEq, eq_comm]
        · rw [if_neg hidle, if_neg hparent, if_neg hidle, if_neg hparent]
          by_cases hsize : maxNameSize < (String.ofList s).utf8ByteSize
          · rw [if_pos hsize]
            simp [hidle, hparent, Nat.not_le.mpr hsize]
          · rw [if_neg hsize]
            have hle := Nat.not_lt.mp hsize
            simp only [hidle, hparent, hle, true_and, or_true, Except.ok.injEq, eq_comm]

/-- Segments can be followed if every place on the way is a directory. -/
theorem foldlM_follow_eq_ok_iff {parts : List (List Char)} :
    parts.foldlM d.follow l = .ok m ↔
      (∀ n, PassesFrom l parts n → d.node? n = some .directory) ∧ (∀ s ∈ parts, IsShort s) ∧
        m = parts.foldl Path.follow l := by
  induction parts generalizing l with
  | nil => simp [pure, Except.pure, eq_comm]
  | cons s rest ih =>
      rw [List.foldlM_cons, bind_eq_ok_iff]
      simp only [follow_eq_ok_iff, ih, passesFrom_cons, List.foldl_cons, List.mem_cons]
      constructor
      · rintro ⟨n, ⟨hl, hs, rfl⟩, hrest, hshort, rfl⟩
        refine ⟨?_, ?_, rfl⟩
        · rintro n (rfl | hn)
          · exact hl
          · exact hrest n hn
        · rintro t (rfl | ht)
          · exact hs
          · exact hshort t ht
      · rintro ⟨hrest, hshort, rfl⟩
        exact ⟨_, ⟨hrest l (.inl rfl), hshort s (.inl rfl), rfl⟩,
          fun n hn => hrest n (.inr hn), fun t ht => hshort t (.inr ht), rfl⟩

theorem origin_eq_ok_iff : d.origin path = .ok l ↔
    (path.isEmpty = false ∧ path.toList.contains '\x00' = false ∧
      path.utf8ByteSize ≤ maxPathSize) ∧ l = start d.cwd path := by
  unfold origin start
  cases hempty : path.isEmpty with
  | true => simp
  | false =>
      cases hnul : path.toList.contains '\x00' with
      | true => simp
      | false =>
          by_cases hsize : maxPathSize < path.utf8ByteSize
          · rw [if_neg Bool.false_ne_true, if_neg Bool.false_ne_true, if_pos hsize]
            simp [Nat.not_le.mpr hsize]
          · rw [if_neg Bool.false_ne_true, if_neg Bool.false_ne_true, if_neg hsize]
            have hle := Nat.not_lt.mp hsize
            simp only [hle, true_and, Except.ok.injEq, eq_comm]

/-- **A path leads to the place that it spells, if every place on the way is a directory.** -/
theorem resolve_eq_ok_iff : d.resolve path = .ok l ↔
    IsUsable path ∧ (∀ m, Passes d.cwd path m → d.node? m = some .directory) ∧
      l = place d.cwd path := by
  have hresolve : d.resolve path = .ok l ↔ ∃ m, d.origin path = .ok m ∧
      (segments path.toList).foldlM d.follow m = .ok l := by
    unfold resolve
    cases d.origin path <;> simp
  rw [hresolve]
  simp only [origin_eq_ok_iff, foldlM_follow_eq_ok_iff]
  constructor
  · rintro ⟨m, ⟨⟨hempty, hnul, hsize⟩, rfl⟩, hway, hshort, rfl⟩
    exact ⟨⟨hempty, hnul, hsize, hshort⟩, hway, rfl⟩
  · rintro ⟨husable, hway, rfl⟩
    exact ⟨_, ⟨⟨husable.ne_empty, husable.no_nul, husable.size_le⟩, rfl⟩, hway, husable.short, rfl⟩

theorem foldlM_follow_congr {parts : List (List Char)}
    (h : ∀ m, PassesFrom l parts m → d'.node? m = d.node? m) :
    parts.foldlM d'.follow l = parts.foldlM d.follow l := by
  induction parts generalizing l with
  | nil => rfl
  | cons s rest ih =>
      have hfollow : d'.follow l s = d.follow l s := by
        rw [Disk.follow, h l (passesFrom_cons.mpr (.inl rfl)), Disk.follow]
      rw [List.foldlM_cons, List.foldlM_cons, hfollow]
      cases hnext : d.follow l s with
      | error f => rfl
      | ok m =>
          obtain ⟨-, -, rfl⟩ := follow_eq_ok_iff.mp hnext
          exact ih fun m hm => h m (passesFrom_cons.mpr (.inr hm))

/-- **Where a path leads depends on its way alone.** -/
theorem resolve_congr (hcwd : d'.cwd = d.cwd)
    (h : ∀ m, Passes d.cwd path m → d'.node? m = d.node? m) :
    d'.resolve path = d.resolve path := by
  have horigin : d'.origin path = d.origin path := by
    rw [origin, hcwd, origin]
  unfold resolve
  rw [horigin]
  cases hstart : d.origin path with
  | error f => rfl
  | ok l =>
      obtain ⟨-, rfl⟩ := origin_eq_ok_iff.mp hstart
      exact foldlM_follow_congr h

/-- **What is found under a path depends on its way and on its place alone.** -/
theorem find?_congr (hcwd : d'.cwd = d.cwd)
    (h : ∀ m, Passes d.cwd path m ∨ m = place d.cwd path → d'.node? m = d.node? m) :
    d'.find? path = d.find? path := by
  unfold find?
  rw [resolve_congr hcwd fun m hm => h m (.inl hm)]
  cases hresolve : d.resolve path with
  | error f => rfl
  | ok l => exact h l (.inr (resolve_eq_ok_iff.mp hresolve).2.2)

/-- What is read from a path depends on its way and on its place alone. -/
theorem read_congr (hcwd : d'.cwd = d.cwd)
    (h : ∀ m, Passes d.cwd path m ∨ m = place d.cwd path → d'.node? m = d.node? m) :
    d'.read path = d.read path := by
  unfold read
  rw [resolve_congr hcwd fun m hm => h m (.inl hm)]
  cases hresolve : d.resolve path with
  | error f => rfl
  | ok l =>
      dsimp only
      rw [h l (.inr (resolve_eq_ok_iff.mp hresolve).2.2)]

theorem find?_eq_some_iff {n : Node α} : d.find? path = some n ↔
    (IsUsable path ∧ ∀ m, Passes d.cwd path m → d.node? m = some .directory) ∧
      d.node? (place d.cwd path) = some n := by
  have hfind : d.find? path = some n ↔ ∃ l, d.resolve path = .ok l ∧ d.node? l = some n := by
    unfold find?
    cases d.resolve path <;> simp
  rw [hfind]
  simp only [resolve_eq_ok_iff]
  constructor
  · rintro ⟨l, ⟨husable, hway, rfl⟩, hnode⟩
    exact ⟨⟨husable, hway⟩, hnode⟩
  · rintro ⟨⟨husable, hway⟩, hnode⟩
    exact ⟨_, ⟨husable, hway, rfl⟩, hnode⟩

theorem read_eq_ok_iff {content : α} :
    d.read path = .ok content ↔ d.find? path = some (.file content) := by
  unfold read find?
  cases d.resolve path with
  | error f => simp
  | ok l =>
      dsimp only
      split <;> simp_all

theorem read_of_directory (h : d.find? path = some .directory) : d.read path = .error .isADirectory := by
  unfold find? at h
  unfold read
  split at h
  · next l hl =>
      rw [hl]
      dsimp only
      rw [h]
  · cases h

/-- What is read from a path is what is found under it. -/
theorem read_eq_of_find? {n : Node α} (h : d.find? path = some n) (h' : d'.find? path = some n) :
    d'.read path = d.read path := by
  cases n with
  | file content => rw [read_eq_ok_iff.mpr h, read_eq_ok_iff.mpr h']
  | directory => rw [read_of_directory h, read_of_directory h']

theorem isFile_iff : d.isFile path = true ↔ ∃ content, d.find? path = some (.file content) := by
  unfold isFile
  split
  · next content hfound => simp [hfound]
  · next hother => simpa using hother

theorem exists?_of_isFile (h : d.isFile path = true) : d.exists? path = true := by
  obtain ⟨content, hfound⟩ := isFile_iff.mp h
  rw [exists?, hfound]
  rfl

/-- A file that is written stands where the path leads to, and there was no directory. -/
theorem write_eq_ok_iff {content : α} : d.write path content = .ok d' ↔
    d.resolve path = .ok (place d.cwd path) ∧ d.node? (place d.cwd path) ≠ some .directory ∧
      d' = d.put (place d.cwd path) (.file content) := by
  unfold write
  cases hresolve : d.resolve path with
  | error f => simp
  | ok l =>
      obtain rfl := (resolve_eq_ok_iff.mp hresolve).2.2
      dsimp only
      split
      · next hdirectory => simp [hdirectory]
      · next hother =>
          simp only [Except.ok.injEq, true_and, eq_comm (a := d')]
          exact (and_iff_right fun h => hother h).symm

end Disk

end CharacterArt
