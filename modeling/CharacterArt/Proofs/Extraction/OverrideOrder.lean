import CharacterArt.Proofs.Bundle.Corpus
import CharacterArt.Proofs.Extraction.Missing
import CharacterArt.Proofs.Extraction.Outputs
import CharacterArt.Proofs.Extraction.Preparation
import CharacterArt.Proofs.Merge.Independence
import CharacterArt.Proofs.Picture

/-!
# The order of the second pass

The second pass merges outputs with other outputs.  As long as none of the outputs that serve as
masks is itself rewritten for another one, the merges have nothing to do with each other, so any
number of workers may do them in any order.  An output may even be its own mask.  But if one merge
rewrites the mask of another one, the order decides which of the two pictures that one gets.

## Main Definitions

* `Extraction.Untangled` — merges of the second pass that have nothing to do with each other

## Main Results

* `Extraction.Course.untangled` — when the merges of an extraction are so
* `Extraction.overridePass_of_run` — the second pass does not depend on the order
* `Extraction.exists_order` — it does depend on it, if masks are rewritten
-/

namespace CharacterArt

namespace Extraction

variable {σ : Type} {x : Extraction} {tools : Toolchain σ} {rs : Requirements} {w : World σ}
  {os : List Deferred}

/-- Outputs that wait for others and have nothing to do with each other: they are there, in different
places, and none of them that is merged is the mask of another one.  No scratch directory is there
yet, but the directory for them is. -/
structure Untangled (x : Extraction) (os : List Deferred) (d : Files) : Prop where
  bare : d.Lacks InScratch
  temporary : d.node? ["tmp"] = some .directory
  outputs : ∀ o ∈ os, d.exists? (o.task.target x.mergeOptions) = true
  distinct : os.Pairwise fun o p =>
    Path.place d.cwd (o.task.target x.mergeOptions) ≠ Path.place d.cwd (p.task.target x.mergeOptions)
  unchained : ∀ o ∈ os, ∀ p ∈ os, x.hasMask d o = true → x.hasMask d p = true →
    Path.place d.cwd (Path.join x.outputDir o.mask) =
      Path.place d.cwd (p.task.target x.mergeOptions) → o = p

/-- The tasks of outputs that have nothing to do with each other keep out of each other's way. -/
theorem Untangled.separate {d : Files} (h : x.Untangled os d) :
    MergePool.Separate { x.mergeOptions with force := true }
      ((os.filter (x.hasMask d)).map x.deferredTask) d where
  bare := h.bare
  temporary := h.temporary
  outputs t ht := by
    obtain ⟨o, ho, rfl⟩ := List.mem_map.mp ht
    exact h.outputs o (List.mem_of_mem_filter ho)
  masks t ht path hpath := by
    obtain ⟨o, ho, rfl⟩ := List.mem_map.mp ht
    cases hpath
    exact Disk.exists?_of_isFile (List.mem_filter.mp ho).2
  apart m n t u ht hu hmn := by
    rw [List.getElem?_map, Option.map_eq_some_iff] at ht hu
    obtain ⟨o, ho, rfl⟩ := ht
    obtain ⟨p, hp, rfl⟩ := hu
    have hdistinct : ∀ (i j : Nat) (a b : Deferred), i ≠ j →
        (os.filter (x.hasMask d))[i]? = some a → (os.filter (x.hasMask d))[j]? = some b →
        Path.place d.cwd (a.task.target x.mergeOptions) ≠
          Path.place d.cwd (b.task.target x.mergeOptions) := by
      intro i j a b hij ha hb
      have hpairwise := List.pairwise_iff_getElem.mp (h.distinct.filter (x.hasMask d))
      obtain ⟨hi, rfl⟩ := List.getElem?_eq_some_iff.mp ha
      obtain ⟨hj, rfl⟩ := List.getElem?_eq_some_iff.mp hb
      rcases Nat.lt_or_gt_of_ne hij with hlt | hgt
      · exact hpairwise i j hi hj hlt
      · exact (hpairwise j i hj hi hgt).symm
    refine ⟨hdistinct m n o p hmn ho hp, fun path hpath heq => ?_⟩
    cases hpath
    have homem := List.mem_filter.mp (List.mem_of_getElem? ho)
    have hpmem := List.mem_filter.mp (List.mem_of_getElem? hp)
    obtain rfl := h.unchained p hpmem.1 o homem.1 hpmem.2 homem.2 heq
    exact hdistinct m n p p hmn ho hp rfl

namespace Course

variable {c : x.Course tools rs w}

/-- **The merges of the second pass have nothing to do with each other**, as long as none rewrites
the mask of another one. -/
theorem untangled (hnamed : c.IsNamed) (htools : tools.Tidy) (hscratch : c.opened.Lacks InScratch)
    (havoids : ∀ p ∈ c.plans, AvoidsScratch w.disk.cwd (p.task.target x.mergeOptions))
    (htemporary : w.disk.node? ["tmp"] = some .directory)
    (hunchained : ∀ o ∈ c.deferred, ∀ p ∈ c.deferred,
      Path.place w.disk.cwd (Path.join x.outputDir o.mask) =
        Path.place w.disk.cwd (p.task.target x.mergeOptions) → o = p) :
    x.Untangled c.deferred c.merged.disk := by
  obtain ⟨hevolves, hbare, -⟩ := MergePool.runInOrder_cases htools c.isTarget_of_mem_tasks
    (avoids_opened havoids) hscratch c.main_eq
  have htemporary' := (evolves_prepare c.prepare_eq).directory id htemporary
  refine ⟨hbare, hevolves.directory id htemporary', fun o ho => ?_, ?_, ?_⟩
  · -- only outputs that the first pass wrote wait for others
    obtain ⟨p, hp, hwritten, -, htask⟩ := mem_deferredOf.mp ho
    obtain ⟨out, hout, houtput, hstatus⟩ := mem_writtenBy.mp hwritten
    obtain ⟨t, ht, hpath, hthere, -⟩ := MergePool.exists_of_isSuccess htools c.isTarget_of_mem_tasks
      (avoids_opened havoids) hscratch c.main_eq hout (by rw [hstatus]; rfl)
    obtain ⟨q, hq, rfl⟩ := List.mem_map.mp ht
    obtain rfl := c.eq_of_outputPath hq hp (hpath.trans houtput)
    rwa [htask]
  · refine (List.pairwise_map.mp c.nodup_deferred).imp_of_mem fun {o p} ho hp hne heq => ?_
    obtain ⟨q, hq, -, -, htask⟩ := mem_deferredOf.mp ho
    obtain ⟨r, hr, -, -, htask'⟩ := mem_deferredOf.mp hp
    rw [htask, htask'] at hne heq
    exact hne (MergeTask.outputPath_eq_of_place (hnamed.task hq) (hnamed.task hr) heq)
  · rw [show c.merged.disk.cwd = w.disk.cwd from hevolves.cwd.trans c.cwd_opened]
    exact fun o ho p hp _ _ => hunchained o ho p hp

end Course

/-- **The second pass does not depend on the order**, if the outputs have nothing to do with each
other and the tool is deterministic.  Any number of workers that do the merges in any order, until
each one has ended, leave the same outcomes and the same files as the merges one after the other. -/
theorem overridePass_of_run (h : x.Untangled os w.disk) (htools : tools.Tidy)
    (hdet : tools.Deterministic) {workers : Nat} {history : List MergePool.Event}
    {s : MergePool.State σ}
    (hrun : (MergePool.State.start workers w).run tools { x.mergeOptions with force := true }
      history = some s)
    (hsubmitted : s.submitted = (os.filter (x.hasMask w.disk)).map x.deferredTask)
    (hended : ∀ out ∈ s.report.outcomes, out.status ≠ .timedOut) :
    s.report.outcomes = (x.overridePass tools os w).1.outcomes ∧
      (x.overridePass tools os w).2.disk.Matches s.world.disk := by
  have hsep := h.separate
  rw [← hsubmitted] at hsep
  obtain ⟨houtcomes, hdisk⟩ :=
    MergePool.State.agrees_runInOrder htools hdet hrun hsep hended
  rw [hsubmitted] at houtcomes hdisk
  exact ⟨houtcomes, Disk.matches_iff_agreesOn.mpr hdisk⟩

/-! ### Twins

Two characters have one picture, an opaque one, and an override table names the masks of their
outputs.  A transparent picture lies beside them. -/

namespace Twins

open MergePool (Event)

def solid : Picture :=
  .ofPixel ⟨16, 32, 48, 255⟩

def faint : Picture :=
  .ofPixel ⟨16, 32, 48, 77⟩

/-- An entry of an override table. -/
def entry (output mask : String) : String :=
  "[[override]]\nimage = \"" ++ output ++ "\"\noutput = \"" ++ mask ++ "\"\n"

/-- The two outputs take given outputs as their masks. -/
def start (first second : String) : World Unit where
  disk :=
    let art := Corpus.diskWith "b" [("art.ab", [.ofPicture .texture 1 "hero" "" solid])]
    let table := Text.Utf8.encode (entry "a/hero.png" first ++ entry "b/hero.png" second)
    (((art.put ["tmp"] .directory).put ["images"] .directory).put ["images", "z.png"]
      (.file (.picture faint))).put ["table"] (.file (.bytes table))
  tools := ()

def extraction : Extraction where
  bundleDir := "/b"
  outputDir := "/images"
  config := { indexPath := some "/index", overrides := some "/table" }

def requirements : Requirements :=
  [{ owner := "A", index := 0, colorId := 1 }, { owner := "B", index := 0, colorId := 1 }]

/-- The extraction of the two, from a world. -/
abbrev TwinCourse (w : World Unit) : Type :=
  extraction.Course Toolchain.inProcess requirements w

/-- The tasks of the second pass. -/
def tasksOf (os : List Deferred) (w : World Unit) : List MergeTask :=
  (os.filter (extraction.hasMask w.disk)).map extraction.deferredTask

/-- What waits for other outputs after the first pass, and the world then. -/
def waiting (w : World Unit) : List Deferred × World Unit :=
  match extraction.prepare requirements w.disk with
  | (.error _, _) => ([], w)
  | (.ok p, d) =>
    let (main, merged) :=
      extraction.mainPass Toolchain.inProcess p.planning.toList { w with disk := d }
    (deferredOf p.planning.toList (writtenBy main), merged)

theorem waiting_eq {w : World Unit} (c : TwinCourse w) : waiting w = (c.deferred, c.merged) := by
  unfold waiting
  rw [c.prepare_eq]
  dsimp only
  rw [c.main_eq]
  rfl

/-- A worker does all of its task. -/
def turn (worker : Nat) : List Event :=
  List.replicate 8 (.advance worker) ++ [.finish worker, .report worker]

/-- Two workers begin at once, and one of them does all of its task before the other one. -/
def history (tasks : List MergeTask) (first second : Nat) : List Event :=
  tasks.mapIdx .submit ++ [.start 0, .start 1] ++ turn first ++ turn second ++
    [.drain, .receive, .receive, .exit 0, .exit 1, .join]

/-- Two workers do the second pass in a given order. -/
def pool (os : List Deferred) (w : World Unit) (first second : Nat) :
    Option (MergePool.State Unit) :=
  (MergePool.State.start 2 w).run Toolchain.inProcess
    { extraction.mergeOptions with force := true } (history (tasksOf os w) first second)

/-- A pool has done all merges of the second pass, and nobody waits any more. -/
structure HasEnded (os : List Deferred) (w : World Unit) (s : MergePool.State Unit) : Prop where
  submitted_eq : s.submitted = tasksOf os w
  written : ∀ out ∈ s.report.outcomes, out.status = .written
  closed : s.stage = .closed

instance {os : List Deferred} {w : World Unit} {s : MergePool.State Unit} :
    Decidable (HasEnded os w s) :=
  decidable_of_iff (s.submitted = tasksOf os w ∧
      (∀ out ∈ s.report.outcomes, out.status = .written) ∧ s.stage = .closed)
    ⟨fun h => ⟨h.1, h.2.1, h.2.2⟩, fun h => ⟨h.submitted_eq, h.written, h.closed⟩⟩

/-- How opaque the first output is. -/
def opacityOf (w : World Unit) : Option UInt8 :=
  (Files.readPicture w.disk "/images/a/hero.png").toOption.bind fun p =>
    p.pixels[0]?.map Pixel.alpha

/-- If both take the picture beside them, the two have nothing to do with each other, and the second
one may be merged before the first one. -/
theorem exists_pool_apart : ∃ (c : TwinCourse (start "z.png" "z.png")) (s : MergePool.State Unit),
    extraction.Untangled c.deferred c.merged.disk ∧
    c.deferred.map (fun o => (o.task.outputPath, o.mask)) =
      [("a/hero.png", "z.png"), ("b/hero.png", "z.png")] ∧
    pool c.deferred c.merged 1 0 = some s ∧ HasEnded c.deferred c.merged s := by
  -- evaluated at once, for all of it begins with the same preparation
  have hfacts :
      (extraction.run Toolchain.inProcess requirements
        (start "z.png" "z.png")).1.toOption.any (fun _ => true) = true ∧
      (extraction.prepare requirements (start "z.png" "z.png").disk).1.toOption.any (fun p =>
        (p.resolution.images.toList.all fun e => decide (Path.IsName e.2.name)) &&
          p.planning.toList.all fun plan => ["/images/a/hero.png", "/images/b/hero.png"].contains
            (plan.task.target extraction.mergeOptions)) = true ∧
      (∀ e ∈ (extraction.prepare requirements (start "z.png" "z.png").disk).2.nodes.toList,
        e.1.head? = some "tmp" → e.1 = ["tmp"]) ∧
      (∀ o ∈ (waiting (start "z.png" "z.png")).1, ∀ p ∈ (waiting (start "z.png" "z.png")).1,
        Path.place [] (Path.join extraction.outputDir o.mask) =
          Path.place [] (p.task.target extraction.mergeOptions) → o = p) ∧
      (waiting (start "z.png" "z.png")).1.map (fun o => (o.task.outputPath, o.mask)) =
        [("a/hero.png", "z.png"), ("b/hero.png", "z.png")] ∧
      (pool (waiting (start "z.png" "z.png")).1 (waiting (start "z.png" "z.png")).2 1 0).any
        (fun s => decide (HasEnded (waiting (start "z.png" "z.png")).1
          (waiting (start "z.png" "z.png")).2 s)) = true := by
    decide +kernel
  obtain ⟨hrun, hprepare, hopened, hunchained, hdeferred, hpool⟩ := hfacts
  obtain ⟨c, -⟩ := exists_course_of_any (P := fun _ => true) hrun
  have hprepared := c.prepared_of_any hprepare
  rw [Bool.and_eq_true] at hprepared
  obtain ⟨hnames, htargets⟩ := hprepared
  rw [c.prepare_eq] at hopened
  rw [waiting_eq c] at hunchained hdeferred hpool
  obtain ⟨s, hs, hended⟩ := (Option.any_eq_true _ _).mp hpool
  refine ⟨c, s, ?_, hdeferred, hs, of_decide_eq_true hended⟩
  refine Course.untangled (Course.isNamed_of_all (by decide) hnames)
    (Toolchain.tidy_inProcess Unit) ?_ ?_ rfl hunchained
  · exact lacks_inScratch_of_forall hopened
  · intro p hp
    rcases List.mem_pair.mp (List.contains_iff_mem.mp (List.all_eq_true.mp htargets p hp))
      with htarget | htarget
    all_goals
      rw [htarget]
      exact avoidsScratch_of_forall (by decide)

/-- If the first output takes the second one as its mask, it gets the mask of an opaque picture or
that of a transparent one, depending on which one is merged first. -/
theorem exists_pools_chained : ∃ c : TwinCourse (start "b/hero.png" "z.png"),
    (∃ s, pool c.deferred c.merged 0 1 = some s ∧ HasEnded c.deferred c.merged s ∧
      opacityOf s.world = some 29) ∧
    ∃ s, pool c.deferred c.merged 1 0 = some s ∧ HasEnded c.deferred c.merged s ∧
      opacityOf s.world = some 77 := by
  have hfacts :
      (extraction.run Toolchain.inProcess requirements
        (start "b/hero.png" "z.png")).1.toOption.any (fun _ => true) = true ∧
      (pool (waiting (start "b/hero.png" "z.png")).1 (waiting (start "b/hero.png" "z.png")).2 0 1).any
        (fun s => decide (HasEnded (waiting (start "b/hero.png" "z.png")).1
          (waiting (start "b/hero.png" "z.png")).2 s ∧ opacityOf s.world = some 29)) = true ∧
      (pool (waiting (start "b/hero.png" "z.png")).1 (waiting (start "b/hero.png" "z.png")).2 1 0).any
        (fun s => decide (HasEnded (waiting (start "b/hero.png" "z.png")).1
          (waiting (start "b/hero.png" "z.png")).2 s ∧ opacityOf s.world = some 77)) = true := by
    decide +kernel
  obtain ⟨hrun, hfirst, hsecond⟩ := hfacts
  obtain ⟨c, -⟩ := exists_course_of_any (P := fun _ => true) hrun
  rw [waiting_eq c, Option.any_eq_true] at hfirst hsecond
  simp only [decide_eq_true_eq] at hfirst hsecond
  exact ⟨c, hfirst, hsecond⟩

end Twins

open Twins in
theorem overridePass_of_run_twins : (Toolchain.inProcess : Toolchain Unit).Deterministic ∧
    ∃ (c : TwinCourse (start "z.png" "z.png")) (s : MergePool.State Unit),
      extraction.Untangled c.deferred c.merged.disk ∧
      c.deferred.map (fun o => (o.task.outputPath, o.mask)) =
        [("a/hero.png", "z.png"), ("b/hero.png", "z.png")] ∧
      pool c.deferred c.merged 1 0 = some s ∧ HasEnded c.deferred c.merged s ∧
      s.report.outcomes =
        (extraction.overridePass Toolchain.inProcess c.deferred c.merged).1.outcomes ∧
      (extraction.overridePass Toolchain.inProcess c.deferred c.merged).2.disk.Matches
        s.world.disk := by
  obtain ⟨c, s, huntangled, hdeferred, hrun, hended⟩ := exists_pool_apart
  obtain ⟨houtcomes, hdisk⟩ := overridePass_of_run huntangled (Toolchain.tidy_inProcess Unit)
    (Toolchain.deterministic_inProcess Unit) hrun hended.submitted_eq fun out hout => by
      rw [hended.written out hout]
      exact nofun
  exact ⟨Toolchain.deterministic_inProcess Unit, c, s, huntangled, hdeferred, hrun, hended, houtcomes,
    hdisk⟩

open Twins in
/-- If a merge rewrites the mask of another one, the order of the two matters. -/
theorem exists_order : (Toolchain.inProcess : Toolchain Unit).Tidy ∧
    (Toolchain.inProcess : Toolchain Unit).Deterministic ∧
    ∃ (c : TwinCourse (start "b/hero.png" "z.png")) (s s' : MergePool.State Unit),
      pool c.deferred c.merged 0 1 = some s ∧ HasEnded c.deferred c.merged s ∧
      pool c.deferred c.merged 1 0 = some s' ∧ HasEnded c.deferred c.merged s' ∧
      ¬ s.world.disk.Matches s'.world.disk := by
  obtain ⟨c, ⟨s, hrun, hended, hopacity⟩, s', hrun', hended', hopacity'⟩ := exists_pools_chained
  refine ⟨Toolchain.tidy_inProcess Unit, Toolchain.deterministic_inProcess Unit, c, s, s', hrun,
    hended, hrun', hended', fun hsame => ?_⟩
  rw [opacityOf, Files.readPicture_congr (Disk.matches_iff_agreesOn.mp hsame) fun _ _ => trivial]
    at hopacity'
  exact absurd (Option.some.inj (hopacity.symm.trans hopacity')) (by decide)

end Extraction

end CharacterArt
