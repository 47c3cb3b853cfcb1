import CharacterArt.Proofs.Disk.Evolution
import Mathlib.Data.List.Induction

/-!
# Trees

The nodes of a disk are a tree: whatever stands somewhere has a name and stands in a directory.
Directories are made and files are put where that stays true.

## Main Definitions

* `Disk.IsTree` — whatever stands on a disk has a name and stands in a directory
* `Disk.isRooted` — so it is with one place

## Main Results

* `Disk.IsTree.forall_names`, `Disk.IsTree.directory_of_prefix` — the places above another one
* `Disk.IsTree.makeDirs` — making directories leaves a tree
* `Disk.IsTree.writes` — so does writing one file
-/

namespace CharacterArt

/-! ### Places made of names -/

namespace Path

variable {l : Location} {s : List Char} {parts : List (List Char)}

/-- A segment leads nowhere, up, or down by a name. -/
theorem follow_cases (hs : '/' ∉ s) (l : Location) : follow l s = l ∨ follow l s = l.dropLast ∨
    ∃ name, IsName name ∧ follow l s = l ++ [name] := by
  unfold follow
  split
  · exact .inl rfl
  · next hidle =>
      split
      · exact .inr (.inl rfl)
      · next hparent =>
          have hchars : s ≠ [] ∧ s ≠ ['.'] := by
            simpa [isIdle] using hidle
          refine .inr (.inr ⟨String.ofList s, ⟨?_, ?_, ?_, ?_⟩, rfl⟩)
          · rw [← String.toList_inj.ne, String.toList_ofList]
            exact hchars.1
          · rwa [String.toList_ofList]
          · rw [← String.toList_inj.ne, String.toList_ofList]
            exact hchars.2
          · rw [← String.toList_inj.ne, String.toList_ofList]
            exact hparent

/-- Segments lead from a place made of names to another one. -/
theorem forall_names_follow (hs : '/' ∉ s) (hl : ∀ name ∈ l, IsName name) :
    ∀ name ∈ follow l s, IsName name := by
  rcases follow_cases hs l with h | h | ⟨name, hname, h⟩
  · rwa [h]
  · rw [h]
    exact fun other hother => hl other (l.dropLast_subset hother)
  · rw [h]
    intro other hother
    rcases List.mem_append.mp hother with hother | hother
    · exact hl other hother
    · rwa [List.mem_singleton.mp hother]

end Path

namespace Disk

variable {α : Type} {d d' : Disk α} {l place : Location} {path : String}

/-- A disk is a tree: whatever stands on it has a name and stands in a directory, and the working
directory is there. -/
structure IsTree (d : Disk α) : Prop where
  isName : ∀ l name, d.node? (l ++ [name]) ≠ none → Path.IsName name
  above : ∀ l name, d.node? (l ++ [name]) ≠ none → d.node? l = some .directory
  cwd : d.node? d.cwd = some .directory

namespace IsTree

/-- The places above one where something stands are directories. -/
theorem directory_of_prefix (h : d.IsTree) {front back : Location} (hback : back ≠ [])
    (hnode : d.node? (front ++ back) ≠ none) : d.node? front = some .directory := by
  induction back using List.reverseRecOn with
  | nil => exact absurd rfl hback
  | append_singleton rest name ih =>
      rw [← List.append_assoc] at hnode
      have habove := h.above _ _ hnode
      by_cases hrest : rest = []
      · rwa [hrest, List.append_nil] at habove
      · exact ih hrest (by rw [habove]; exact nofun)

/-- The places above a directory are directories. -/
theorem directory_of_isPrefix (h : d.IsTree) {front : Location} (hfront : front <+: l)
    (hl : d.node? l = some .directory) : d.node? front = some .directory := by
  obtain ⟨back, rfl⟩ := hfront
  by_cases hback : back = []
  · rwa [hback, List.append_nil] at hl
  · exact h.directory_of_prefix hback (by rw [hl]; exact nofun)

/-- The place above a directory is one. -/
theorem directory_dropLast (h : d.IsTree) (hl : d.node? l = some .directory) :
    d.node? l.dropLast = some .directory :=
  h.directory_of_isPrefix l.dropLast_prefix hl

/-- A place where something stands is reached by names. -/
theorem forall_names (h : d.IsTree) (hnode : d.node? l ≠ none) : ∀ name ∈ l, Path.IsName name := by
  intro name hname
  obtain ⟨front, back, rfl⟩ := List.append_of_mem hname
  rw [List.append_cons] at hnode
  by_cases hback : back = []
  · rw [hback, List.append_nil] at hnode
    exact h.isName front name hnode
  · refine h.isName front name ?_
    rw [h.directory_of_prefix hback hnode]
    exact nofun

/-! ### Operations -/

/-- A disk that grows only by what has a name and stands in a directory stays a tree. -/
theorem grows {s : Scope} (h : d.IsTree) (hd : d.Evolves s d') (hscratch : ∀ l, ¬ s.scratch l)
    (hnew : ∀ l name, d.node? (l ++ [name]) = none → d'.node? (l ++ [name]) ≠ none →
      Path.IsName name ∧ d'.node? l = some .directory) : d'.IsTree := by
  have hrooted : ∀ l name, d'.node? (l ++ [name]) ≠ none →
      Path.IsName name ∧ d'.node? l = some .directory := by
    intro l name hnode
    by_cases hold : d.node? (l ++ [name]) = none
    · exact hnew l name hold hnode
    · exact ⟨h.isName l name hold, hd.directory (hscratch l) (h.above l name hold)⟩
  refine ⟨fun l name hnode => (hrooted l name hnode).1, fun l name hnode => (hrooted l name hnode).2, ?_⟩
  rw [hd.cwd]
  exact hd.directory (hscratch _) h.cwd

/-- **Writing one file leaves a tree**, if the file has a name and stands in a directory. -/
theorem writes (h : d.IsTree) (hd : d.Evolves { files := (· = place) } d')
    (hnames : ∀ name ∈ place, Path.IsName name) (habove : d'.node? place.dropLast = some .directory) :
    d'.IsTree := by
  refine h.grows hd (fun _ => id) fun l name hnone hnode => ?_
  cases hd.change (l ++ [name]) with
  | keep hkeep => exact absurd (hkeep.trans hnone) hnode
  | scratch hscratch => exact absurd hscratch id
  | make hway => exact absurd hway id
  | write hplace =>
      obtain rfl : l ++ [name] = place := hplace
      rw [List.dropLast_concat] at habove
      exact ⟨hnames name (List.mem_append_right l (List.mem_singleton_self name)), habove⟩

/-- Directories that are made along segments leave a tree. -/
theorem makeAlong (h : d.IsTree) {parts : List (List Char)} (hparts : ∀ s ∈ parts, '/' ∉ s)
    (hmade : d.makeAlong l parts = .ok d') : d'.IsTree := by
  induction parts generalizing d l with
  | nil =>
      cases hmade
      exact h
  | cons s rest ih =>
      have hrest : ∀ t ∈ rest, '/' ∉ t := fun t ht => hparts t (List.mem_cons_of_mem s ht)
      unfold Disk.makeAlong at hmade
      split at hmade
      · cases hmade
      · next m hm =>
          obtain ⟨hl, -, rfl⟩ := follow_eq_ok_iff.mp hm
          split at hmade
          · next hnone =>
              refine ih ?_ hrest hmade
              have hput : d.Evolves { ways := (· = Path.follow l s) }
                  (d.put (Path.follow l s) .directory) := evolves_put_directory (.inl rfl) hnone
              -- nothing stands there, so the segment leads down
              rcases Path.follow_cases (hparts s List.mem_cons_self) l with heq | heq | ⟨name, hname, heq⟩
              · rw [heq, hl] at hnone
                cases hnone
              · rw [heq, h.directory_dropLast hl] at hnone
                cases hnone
              · refine h.grows hput (fun _ => id) fun k other hold hnode => ?_
                cases hput.change (k ++ [other]) with
                | keep hkeep => exact absurd (hkeep.trans hold) hnode
                | scratch hscratch => exact absurd hscratch id
                | write hfile => exact absurd hfile id
                | make hplace =>
                    obtain ⟨rfl, hother⟩ := List.append_inj' (hplace.trans heq) rfl
                    obtain rfl := List.head_eq_of_cons_eq hother
                    exact ⟨hname, hput.directory id hl⟩
          · exact ih h hrest hmade
          · cases hmade

/-- **Making directories leaves a tree.** -/
theorem makeDirs (h : d.IsTree) (hmade : d.makeDirs path = .ok d') : d'.IsTree := by
  unfold Disk.makeDirs at hmade
  split at hmade
  · cases hmade
    exact h
  · split at hmade
    · cases hmade
    · split at hmade
      · cases hmade
      · next made hmakes =>
          split at hmade
          · cases hmade
            refine h.makeAlong (fun s hs => ?_) hmakes
            exact Path.no_slash_of_mem_segments ((isPrefix_namedSegments path).subset hs)
          · cases hmade

end IsTree

/-- A place has a name and lies in a directory, unless it is the root. -/
def isRooted (d : Disk α) (l : Location) : Bool :=
  match l.getLast?, d.node? l.dropLast with
  | none, _ => true
  | some name, some .directory => decide (Path.IsName name)
  | some _, _ => false

/-- A disk is a tree if that can be said of all its nodes. -/
theorem isTree_of_forall (hcwd : d.node? d.cwd = some .directory)
    (h : ∀ e ∈ d.nodes.toList, d.isRooted e.1 = true) : d.IsTree := by
  have hrooted : ∀ l name, d.node? (l ++ [name]) ≠ none →
      Path.IsName name ∧ d.node? l = some .directory := by
    intro l name hnode
    obtain ⟨n, hn⟩ := Option.ne_none_iff_exists'.mp hnode
    have hmem := h _ ((node?_eq_some_iff (List.append_ne_nil_of_right_ne_nil l
      (List.cons_ne_nil name []))).mp hn)
    rw [isRooted, List.getLast?_concat, List.dropLast_concat] at hmem
    split at hmem
    · next heq => cases heq
    · next heq hdirectory =>
        cases heq
        exact ⟨of_decide_eq_true hmem, hdirectory⟩
    · cases hmem
  exact ⟨fun l name hnode => (hrooted l name hnode).1, fun l name hnode => (hrooted l name hnode).2,
    hcwd⟩

end Disk

end CharacterArt
