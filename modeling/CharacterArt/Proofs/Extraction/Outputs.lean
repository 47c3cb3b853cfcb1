import CharacterArt.Proofs.Extraction.Course
import CharacterArt.Proofs.Extraction.Preparation
import CharacterArt.Proofs.Merge.Effects
import CharacterArt.Proofs.Merge.Targets
import CharacterArt.Proofs.Text.Lowercase
import Mathlib.Data.List.Nodup

/-!
# The outputs of an extraction

Owners and objects with plain names give outputs that lie two steps below the directory of all outputs,
each in a place of its own.

## Main Definitions

* `Extraction.placeOf` — where the output of a plan lies
* `Extraction.Course.IsNamed` — owners and objects with plain names

## Main Results

* `Extraction.Course.isFor`, `Extraction.Course.nodup_outputs` — what is known of the plans
* `Extraction.Course.avoids_opened` — outputs stay out of the scratch directories
-/

namespace CharacterArt

namespace Extraction

variable {σ : Type} {x : Extraction} {tools : Toolchain σ} {rs : Requirements} {w : World σ}

/-- Where the output of a plan lies. -/
def placeOf (x : Extraction) (cwd : Location) (p : Plan) : Location :=
  Path.place cwd (p.task.target x.mergeOptions)

namespace Course

/-- Owners and objects have names that are single steps of paths. -/
structure IsNamed (c : x.Course tools rs w) : Prop where
  owners : ∀ r ∈ rs, Path.IsName r.owner
  objects : ∀ (id : PathId) (color : Asset), c.prepared.resolution.images[id]? = some color →
    Path.IsName color.name

variable {c : x.Course tools rs w} {p q : Plan}

/-- What is known of the plans of an extraction. -/
theorem exists_sound (c : x.Course tools rs w) : ∃ s : Sources,
    s.images = c.prepared.resolution.images ∧ c.prepared.planning.Sound s rs := by
  obtain ⟨s, himages, hplanning, -⟩ := exists_sources_of_prepare c.prepare_eq
  exact ⟨s, himages, hplanning ▸ Planning.sound_ofRequirements s rs⟩

/-- What is known of a plan of an extraction. -/
theorem isFor (hp : p ∈ c.plans) : ∃ s : Sources,
    s.images = c.prepared.resolution.images ∧ p.IsFor s rs p.task.outputPath := by
  obtain ⟨s, himages, hsound⟩ := c.exists_sound
  exact ⟨s, himages, hsound.isFor ((Planning.mem_toList hsound).mp hp)⟩

/-- **No two plans of an extraction have one output.** -/
theorem nodup_outputs (c : x.Course tools rs w) :
    (c.plans.map fun p => p.task.outputPath).Nodup := by
  obtain ⟨s, -, hsound⟩ := c.exists_sound
  exact Planning.nodup_toList hsound

/-- A plan of an extraction is told by its output. -/
theorem eq_of_outputPath (hp : p ∈ c.plans) (hq : q ∈ c.plans)
    (h : p.task.outputPath = q.task.outputPath) : p = q :=
  List.inj_on_of_nodup_map c.nodup_outputs hp hq h

theorem isNamed_of_all (howners : ∀ r ∈ rs, Path.IsName r.owner)
    (hobjects : (c.prepared.resolution.images.toList.all fun e =>
      decide (Path.IsName e.2.name)) = true) : c.IsNamed where
  owners := howners
  objects id color hcolor := by
    have hmem := Std.TreeMap.mem_toList_iff_getElem?_eq_some.mpr hcolor
    exact of_decide_eq_true (List.all_eq_true.mp hobjects _ hmem)

theorem IsNamed.task (h : c.IsNamed) (hp : p ∈ c.plans) : p.task.IsNamed := by
  obtain ⟨s, himages, hp⟩ := isFor hp
  obtain ⟨r, hr, color, hcolor, hdirectory, hname, -⟩ := hp.exists_requirement
  rw [himages] at hcolor
  refine ⟨?_, ?_⟩
  · rw [hdirectory]
    exact (h.owners r hr).lowercase
  · rw [hname]
    exact h.objects _ color hcolor

theorem cwd_opened (c : x.Course tools rs w) : c.opened.cwd = w.disk.cwd :=
  (evolves_prepare c.prepare_eq).cwd

/-- Outputs that stay out of the scratch directories do so once the index is up to date. -/
theorem avoids_opened (h : ∀ p ∈ c.plans, AvoidsScratch w.disk.cwd (p.task.target x.mergeOptions)) :
    ∀ path, c.IsTarget path → AvoidsScratch c.opened.cwd path := by
  rintro path ⟨p, hp, rfl⟩
  rw [c.cwd_opened]
  exact h p hp

end Course

end Extraction

end CharacterArt
