import CharacterArt.Proofs.Extraction.Service
import Mathlib.Data.List.Nodup

/-!
# Keys that two outputs share

Keys made of indices tell the requirements apart, so only a key made of a name can belong to the
tasks of two outputs.  It does if the object of a requirement has the name under which another
requirement is known: the number of that one's index, or what its own object is called.

## Main Definitions

* `Sources.Clashes` — the key made of a name is a key of another requirement

## Main Results

* `Planning.clashes_of_mem_keysFor` — a key of two requirements with different outputs
* `Planning.exists_shared_key_iff` — when two tasks share a key
* `Sources.clashes_iff_index` — clashes of objects that have no slashes in their names
-/

namespace CharacterArt

/-- The key made of the name of a requirement's object is a key of another requirement. -/
def Sources.Clashes (s : Sources) (r q : Requirement) : Prop :=
  s.nameKeys = true ∧ ∃ color, s.images[r.colorId]? = some color ∧
    (r.owner ++ "/" ++ color.name = q.key ∨
      ∃ other, s.images[q.colorId]? = some other ∧
        r.owner ++ "/" ++ color.name = q.owner ++ "/" ++ other.name)

namespace Sources

variable {s : Sources} {r q : Requirement} {color : Asset} {key : String}

/-- A requirement that has keys has a color, and its keys are made of its index or, with names as
keys, of the name of that color's object. -/
theorem mem_keysFor : key ∈ s.keysFor r ↔ ∃ color, s.images[r.colorId]? = some color ∧
    (key = r.key ∨ s.nameKeys = true ∧ key = r.owner ++ "/" ++ color.name) := by
  rw [keysFor]
  cases s.images[r.colorId]? with
  | none => simp
  | some color => simp [mem_keysOf]

/-- If no object has slashes in its name, requirements with different outputs clash only if an
object is named like the index of another requirement of the owner. -/
theorem clashes_iff_index (hr : s.images[r.colorId]? = some color)
    (hslash : ∀ (id : PathId) (a : Asset), s.images[id]? = some a → '/' ∉ a.name.toList)
    (hne : s.outputOf? r ≠ s.outputOf? q) :
    s.Clashes r q ↔
      s.nameKeys = true ∧ r.owner = q.owner ∧ color.name = toString q.index.toNat := by
  refine and_congr_right fun _ => ⟨?_, ?_⟩
  · rintro ⟨_, hcolor, hkey⟩
    obtain rfl : color = _ := Option.some.inj (hr.symm.trans hcolor)
    rcases hkey with hkey | ⟨other, hother, hkey⟩
    · exact Path.slash_inj (hslash _ _ hr) (Path.no_slash_toString _) hkey
    · -- objects of one name make one output
      obtain ⟨howner, hname⟩ := Path.slash_inj (hslash _ _ hr) (hslash _ _ hother) hkey
      refine absurd ?_ hne
      rw [outputOf?_of_color hr, outputOf?_of_color hother, taskOf, taskOf, MergeTask.outputPath,
        MergeTask.outputPath, Requirement.outputDir, Requirement.outputDir, howner, hname]
  · rintro ⟨howner, hname⟩
    refine ⟨color, hr, .inl ?_⟩
    rw [howner, hname, Requirement.key]

end Sources

namespace Planning

variable {s : Sources} {rs : Requirements} {r q : Requirement} {key : String} {plan other : Plan}

/-- **A key of two requirements with different outputs comes from a clash**, if every requirement has
an owner and index of its own. -/
theorem clashes_of_mem_keysFor (h : (rs.map fun r => (r.owner, r.index)).Nodup) (hr : r ∈ rs)
    (hq : q ∈ rs) (hne : s.outputOf? r ≠ s.outputOf? q) (hkey : key ∈ s.keysFor r)
    (hkey' : key ∈ s.keysFor q) : s.Clashes r q ∨ s.Clashes q r := by
  obtain ⟨color, hcolor, hkey⟩ := Sources.mem_keysFor.mp hkey
  obtain ⟨other, hother, hkey'⟩ := Sources.mem_keysFor.mp hkey'
  rcases hkey with rfl | ⟨hnames, rfl⟩
  · rcases hkey' with hkey' | ⟨hnames, hkey'⟩
    · -- keys made of indices tell requirements apart
      obtain ⟨howner, hindex⟩ := Requirement.key_inj hkey'
      obtain rfl := List.inj_on_of_nodup_map h hr hq (Prod.ext howner hindex)
      exact absurd rfl hne
    · exact .inr ⟨hnames, other, hother, .inl hkey'.symm⟩
  · rcases hkey' with hkey' | ⟨-, hkey'⟩
    · exact .inl ⟨hnames, color, hcolor, .inl hkey'⟩
    · exact .inl ⟨hnames, color, hcolor, .inr ⟨other, hother, hkey'⟩⟩

/-- Requirements that clash share a key. -/
theorem exists_key_of_clashes (h : s.Clashes r q) (hq : (s.images[q.colorId]?).isSome) :
    ∃ key, key ∈ s.keysFor r ∧ key ∈ s.keysFor q := by
  obtain ⟨hnames, color, hcolor, hkey⟩ := h
  refine ⟨_, Sources.mem_keysFor.mpr ⟨color, hcolor, .inr ⟨hnames, rfl⟩⟩, Sources.mem_keysFor.mpr ?_⟩
  rcases hkey with hkey | ⟨other, hother, hkey⟩
  · obtain ⟨other, hother⟩ := Option.isSome_iff_exists.mp hq
    exact ⟨other, hother, .inl hkey⟩
  · exact ⟨other, hother, .inr ⟨hnames, hkey⟩⟩

/-- A plan is told by its output. -/
theorem eq_of_outputPath (hplan : plan ∈ (ofRequirements s rs).toList)
    (hother : other ∈ (ofRequirements s rs).toList)
    (h : plan.task.outputPath = other.task.outputPath) : plan = other :=
  List.inj_on_of_nodup_map (nodup_toList (sound_ofRequirements s rs)) hplan hother h

/-- **Two tasks share a key exactly if they serve requirements that clash.** -/
theorem exists_shared_key_iff (h : (rs.map fun r => (r.owner, r.index)).Nodup) :
    (∃ plan ∈ (ofRequirements s rs).toList, ∃ other ∈ (ofRequirements s rs).toList,
      plan ≠ other ∧ ∃ key, key ∈ plan.task.keys ∧ key ∈ other.task.keys) ↔
    ∃ plan ∈ (ofRequirements s rs).toList, ∃ other ∈ (ofRequirements s rs).toList,
      plan ≠ other ∧ ∃ r ∈ served s rs plan.task.outputPath,
        ∃ q ∈ served s rs other.task.outputPath, s.Clashes r q := by
  constructor
  · rintro ⟨plan, hplan, other, hother, hne, key, hkey, hkey'⟩
    obtain ⟨r, hr, hkey⟩ := (mem_keys_iff hplan).mp hkey
    obtain ⟨q, hq, hkey'⟩ := (mem_keys_iff hother).mp hkey'
    obtain ⟨hrs, hrpath⟩ := mem_of_mem_served hr
    obtain ⟨hqs, hqpath⟩ := mem_of_mem_served hq
    have hpaths : s.outputOf? r ≠ s.outputOf? q := by
      rw [hrpath, hqpath]
      exact fun heq => hne (eq_of_outputPath hplan hother (Option.some.inj heq))
    rcases clashes_of_mem_keysFor h hrs hqs hpaths hkey hkey' with hclash | hclash
    · exact ⟨plan, hplan, other, hother, hne, r, hr, q, hq, hclash⟩
    · exact ⟨other, hother, plan, hplan, hne.symm, q, hq, r, hr, hclash⟩
  · rintro ⟨plan, hplan, other, hother, hne, r, hr, q, hq, hclash⟩
    have hcolor : (s.images[q.colorId]?).isSome := by
      obtain ⟨color, hcolor, -⟩ := Option.map_eq_some_iff.mp (mem_of_mem_served hq).2
      rw [hcolor]
      rfl
    obtain ⟨key, hkey, hkey'⟩ := exists_key_of_clashes hclash hcolor
    exact ⟨plan, hplan, other, hother, hne, key, (mem_keys_iff hplan).mpr ⟨r, hr, hkey⟩,
      (mem_keys_iff hother).mpr ⟨q, hq, hkey'⟩⟩

/-! ### Objects named like numbers

Two textures that are called 0 and 1, as the images 1 and 2 of one character. -/

namespace Numbered

def asset (id : PathId) (name : String) : Asset :=
  ⟨id, name, .texture, "art", "", default⟩

def sources : Sources where
  index := {}
  corpus := ⟨"/b", ∅⟩
  disk := {}
  images := .ofList [((1 : PathId), asset 1 "0"), (2, asset 2 "1")]
  matcher := {}
  nameKeys := true

def requirements : Requirements :=
  [{ owner := "A", index := 1, colorId := 1 }, { owner := "A", index := 2, colorId := 2 }]

end Numbered

open Numbered in
theorem exists_shared_key_iff_numbered :
    (requirements.map fun r => (r.owner, r.index)).Nodup ∧
    ∃ plan ∈ (ofRequirements sources requirements).toList,
      ∃ other ∈ (ofRequirements sources requirements).toList, plan ≠ other ∧
        ∃ r ∈ served sources requirements plan.task.outputPath,
          ∃ q ∈ served sources requirements other.task.outputPath, sources.Clashes r q := by
  have hdistinct : (requirements.map fun r => (r.owner, r.index)).Nodup := by decide
  have hshared : ∃ plan ∈ (ofRequirements sources requirements).toList,
      ∃ other ∈ (ofRequirements sources requirements).toList, plan ≠ other ∧
        ∃ key ∈ plan.task.keys, key ∈ other.task.keys := by
    decide +kernel
  exact ⟨hdistinct, (exists_shared_key_iff hdistinct).mp hshared⟩

open Numbered in
/-- Two tasks have one key, if an object of a character is named like the index of another image. -/
theorem exists_shared_key : (requirements.map fun r => (r.owner, r.index)).Nodup ∧
    ∃ plan ∈ (ofRequirements sources requirements).toList,
      ∃ other ∈ (ofRequirements sources requirements).toList,
        plan ≠ other ∧ ∃ key ∈ plan.task.keys, key ∈ other.task.keys := by
  decide +kernel

end Planning

end CharacterArt
