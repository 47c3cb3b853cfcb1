import CharacterArt.Proofs.Bundle.Corpus
import CharacterArt.Proofs.Extraction.Course
import CharacterArt.Proofs.Extraction.Keys
import CharacterArt.Proofs.Insertions
import CharacterArt.Proofs.Merge.InOrder
import CharacterArt.Proofs.Merge.Outcomes
import CharacterArt.Proofs.Picture

/-!
# The result map

The result map has the keys of the requirements whose outputs are there, each with its output.  It
does not depend on how the tasks of a pass were interleaved but only on how each one ended, so it is
stated of courses whose pools have any number of workers.

## Main Definitions

* `MergePool.Produces` — what a pool may report of tasks
* `Extraction.PooledCourse` — the phases of an extraction whose tasks run in any order

## Main Results

* `MergePool.Produces.map_outcomes` — a pool has one outcome for each task, with its output and keys
* `ExtractionReport.getElem?_imagesOf` — the result map of outcomes that do not compete for keys
* `Extraction.PooledCourse.images_exact` — the result map of an extraction
-/

namespace CharacterArt

/-! ### Maps from entries -/

/-- A map that is built from entries has exactly these, if they agree on every key. -/
theorem getElem?_foldl_insert {entries : List (String × String)}
    (h : ∀ key a b, (key, a) ∈ entries → (key, b) ∈ entries → a = b) (key value : String) :
    (entries.foldl (fun (m : Std.TreeMap String String) e => m.insert e.1 e.2) ∅)[key]? =
      some value ↔ (key, value) ∈ entries := by
  rw [getElem?_foldl_insert_last Prod.fst Prod.snd, Std.TreeMap.getElem?_emptyc, Option.or_none,
    Option.map_eq_some_iff]
  constructor
  · rintro ⟨⟨key', _⟩, hlast, rfl⟩
    obtain ⟨hmem, rfl⟩ := mem_of_find?_reverse hlast
    exact hmem
  · intro hmem
    obtain ⟨⟨key', last⟩, hlast⟩ := exists_find?_reverse Prod.fst hmem
    obtain ⟨hmem', rfl⟩ := mem_of_find?_reverse hlast
    exact ⟨(key', last), hlast, h key' last value hmem' hmem⟩

/-- **The result map of outcomes** has the keys of those that are there, each with its output, if no
key belongs to two outputs. -/
theorem ExtractionReport.getElem?_imagesOf {outcomes : List TaskOutcome}
    (h : ∀ out ∈ outcomes, ∀ other ∈ outcomes, ∀ key ∈ out.keys, key ∈ other.keys →
      out.output = other.output) (key output : String) :
    (imagesOf outcomes)[key]? = some output ↔
      ∃ out ∈ outcomes, out.status.isSuccess = true ∧ key ∈ out.keys ∧ out.output = output := by
  have hentries : imagesOf outcomes =
      ((outcomes.filter fun out => out.status.isSuccess).flatMap fun out =>
        out.keys.map fun key => (key, out.output)).foldl
          (fun (m : Std.TreeMap String String) e => m.insert e.1 e.2) ∅ := by
    rw [imagesOf, List.foldl_flatMap]
    simp only [List.foldl_map]
  have hmem : ∀ key output : String,
      (key, output) ∈ (outcomes.filter fun out => out.status.isSuccess).flatMap (fun out =>
        out.keys.map fun key => (key, out.output)) ↔
      ∃ out ∈ outcomes, out.status.isSuccess = true ∧ key ∈ out.keys ∧ out.output = output := by
    intro key output
    simp only [List.mem_flatMap, List.mem_filter, List.mem_map, Prod.mk.injEq]
    constructor
    · rintro ⟨out, ⟨hout, hsuccess⟩, _, hkey, rfl, houtput⟩
      exact ⟨out, hout, hsuccess, hkey, houtput⟩
    · rintro ⟨out, hout, hsuccess, hkey, houtput⟩
      exact ⟨out, ⟨hout, hsuccess⟩, key, hkey, rfl, houtput⟩
  rw [hentries, getElem?_foldl_insert ?_, hmem]
  intro key a b ha hb
  obtain ⟨out, hout, -, hkey, rfl⟩ := (hmem key a).mp ha
  obtain ⟨other, hother, -, hkey', rfl⟩ := (hmem key b).mp hb
  exact h out hout other hother key hkey hkey'

/-- Every task was written, or its output was there, or it failed or did not end. -/
theorem DrainReport.count_outcomes (r : DrainReport) :
    r.written + r.cached + r.failed = r.outcomes.length := by
  have hcount : ∀ outcomes : List TaskOutcome,
      outcomes.countP (fun out => out.status == .written) +
        outcomes.countP (fun out => out.status == .cached) +
          outcomes.countP (fun out => !out.status.isSuccess) = outcomes.length := by
    intro outcomes
    induction outcomes with
    | nil => rfl
    | cons out rest ih =>
        rw [List.countP_cons, List.countP_cons, List.countP_cons, List.length_cons, ← ih]
        cases out.status <;> simp [TaskStatus.isSuccess] <;> omega
  exact hcount r.outcomes

namespace MergePool

variable {σ : Type} {tools : Toolchain σ} {o : MergeOptions} {tasks : List MergeTask} {w : World σ}
  {r : DrainReport}

/-- What a pool may report of tasks, when its tasks run one after the other, and when any number of
workers run them in any order until the pool is closed. -/
inductive Produces (tools : Toolchain σ) (o : MergeOptions) (tasks : List MergeTask) (w : World σ) :
    DrainReport → Prop where
  | inOrder : Produces tools o tasks w (runInOrder tools o tasks w).1
  | pooled {workers : Nat} {history : List Event} {s : State σ}
      (hrun : (State.start workers w).run tools o history = some s) (hclosed : s.stage = .closed)
      (hsubmitted : s.submitted = tasks) : Produces tools o tasks w s.report

/-- **A pool has one outcome for each task**, with its output and its keys. -/
theorem Produces.map_outcomes (h : Produces tools o tasks w r) :
    r.outcomes.map (fun out => (out.output, out.keys)) = tasks.map fun t => (t.outputPath, t.keys) := by
  cases h with
  | inOrder => exact MergePool.map_outcomes tools o tasks w
  | pooled hrun _ hsubmitted => rw [State.map_outcomes hrun, hsubmitted]

end MergePool

namespace Extraction

open ExtractionReport

variable {σ : Type} {x : Extraction} {tools : Toolchain σ} {rs : Requirements} {w : World σ}

/-- The phases of an extraction that ends with a report, whose pools run their tasks in any order.
What tasks do that are not waited for any longer is left open: the second pass and the mending may
find any world. -/
structure PooledCourse (x : Extraction) (tools : Toolchain σ) (rs : Requirements) (w : World σ) where
  prepared : Prepared
  /-- The files when the first output is merged. -/
  opened : Files
  prepare_eq : x.prepare rs w.disk = (.ok prepared, opened)
  /-- The outcomes of the first pass. -/
  main : DrainReport
  main_produced : MergePool.Produces tools x.mergeOptions (prepared.planning.toList.map Plan.task)
    { w with disk := opened } main
  merged : World σ
  /-- The outcomes of the pass that merges outputs with other outputs. -/
  second : DrainReport
  second_produced : MergePool.Produces tools { x.mergeOptions with force := true }
    (((deferredOf prepared.planning.toList (writtenBy main)).filter (x.hasMask merged.disk)).map
      x.deferredTask) merged second
  overridden : World σ
  reconciled : ReconcileReport
  final : World σ
  reconcile_eq : reconcile tools x.outputDir (x.troubles prepared main merged.disk second)
    overridden = (.ok reconciled, final)
  hasDeadline : (x.config.deadline? x.cores x.now).isSome

/-- A course is one whose pools happen to run their tasks one after the other. -/
def Course.pooled (c : x.Course tools rs w) : x.PooledCourse tools rs w where
  prepared := c.prepared
  opened := c.opened
  prepare_eq := c.prepare_eq
  main := c.main
  main_produced := by
    have hmain : (MergePool.runInOrder tools x.mergeOptions
        (c.prepared.planning.toList.map Plan.task) { w with disk := c.opened }).1 = c.main :=
      congrArg Prod.fst c.main_eq
    rw [← hmain]
    exact .inOrder
  merged := c.merged
  second := c.second
  second_produced := by
    have hsecond : (MergePool.runInOrder tools { x.mergeOptions with force := true }
        (((deferredOf c.prepared.planning.toList (writtenBy c.main)).filter
          (x.hasMask c.merged.disk)).map x.deferredTask) c.merged).1 = c.second :=
      congrArg Prod.fst c.second_eq
    rw [← hsecond]
    exact .inOrder
  overridden := c.overridden
  reconciled := c.reconciled
  final := c.final
  reconcile_eq := c.reconcile_eq
  hasDeadline := c.hasDeadline

namespace PooledCourse

/-- The outputs to produce. -/
def plans (c : x.PooledCourse tools rs w) : List Plan :=
  c.prepared.planning.toList

/-- The report at the end. -/
def report (c : x.PooledCourse tools rs w) : ExtractionReport where
  images := imagesOf c.main.outcomes
  sync := c.prepared.sync
  bundlesDecoded := c.prepared.resolution.bundlesDecoded
  written := c.main.written
  cached := c.main.cached
  failed := c.main.failed + c.second.failed
  peak := max c.main.peak c.second.peak
  reconciled := c.reconciled
  diagnostics := withoutMended c.reconciled
      (x.troubles c.prepared c.main c.merged.disk c.second) ++
    Reconciliation.unreferenced c.final.disk x.outputDir
      ((imagesOf c.main.outcomes).toList.map Prod.snd)

/-- An extraction that ends with a report has such a course. -/
theorem exists_of_run {report : ExtractionReport} {progress : List Progress} {w' : World σ}
    (h : x.run tools rs w = (.ok (report, progress), w')) :
    ∃ c : x.PooledCourse tools rs w, c.report = report ∧ c.final = w' := by
  obtain ⟨c, rfl, rfl⟩ := exists_course h
  exact ⟨c.pooled, rfl, rfl⟩

variable {c : x.PooledCourse tools rs w}

/-- The outcomes of the first pass are those of the plans, in order. -/
theorem map_main (c : x.PooledCourse tools rs w) :
    c.main.outcomes.map (fun out => (out.output, out.keys)) =
      c.plans.map fun p => (p.task.outputPath, p.task.keys) := by
  rw [c.main_produced.map_outcomes, List.map_map]
  rfl

/-- Every outcome of the first pass is that of a plan. -/
theorem exists_plan {out : TaskOutcome} (h : out ∈ c.main.outcomes) :
    ∃ p ∈ c.plans, p.task.outputPath = out.output ∧ p.task.keys = out.keys := by
  have hmem := List.mem_map_of_mem (f := fun out : TaskOutcome => (out.output, out.keys)) h
  rw [c.map_main] at hmem
  obtain ⟨p, hp, heq⟩ := List.mem_map.mp hmem
  exact ⟨p, hp, congrArg Prod.fst heq, congrArg Prod.snd heq⟩

/-- Without keys made of names, and if every mask could be read, the keys of a plan are those of the
requirements whose colors make its output. -/
theorem mem_keys (hnames : x.config.nameKeys = false)
    (hread : c.prepared.planning.diagnostics = []) {p : Plan} (hp : p ∈ c.plans) {key : String} :
    key ∈ p.task.keys ↔ ∃ r ∈ rs, ∃ color, c.prepared.resolution.images[r.colorId]? = some color ∧
      r.outputDir ++ "/" ++ color.name ++ ".png" = p.task.outputPath ∧ key = r.key := by
  obtain ⟨s, himages, hplanning, hkeys, -⟩ := exists_sources_of_prepare c.prepare_eq
  rw [plans, hplanning] at hp
  rw [hplanning] at hread
  rw [Planning.mem_keys_iff hp, ← himages]
  constructor
  · rintro ⟨r, hr, hkey⟩
    obtain ⟨hrs, hpath⟩ := Planning.mem_of_mem_served hr
    obtain ⟨color, hcolor, hkey⟩ := Sources.mem_keysFor.mp hkey
    rw [Sources.outputOf?_of_color hcolor, Option.some.injEq] at hpath
    rw [hkeys, hnames] at hkey
    exact ⟨r, hrs, color, hcolor, hpath, hkey.resolve_right fun h => nomatch h.1⟩
  · rintro ⟨r, hr, color, hcolor, hpath, rfl⟩
    refine ⟨r, (Planning.mem_served_iff hread).mpr ⟨hr, ?_⟩,
      Sources.mem_keysFor.mpr ⟨color, hcolor, .inl rfl⟩⟩
    rw [Sources.outputOf?_of_color hcolor, ← hpath]
    rfl

/-- **The result map of an extraction is exact.**  Without keys made of names, with an owner and index
for each requirement that no other one has, and if every mask could be read, the map has the keys of
the requirements whose colors were found and whose outputs are there after the first pass, each with
its output.  No two outputs are one, and each is counted once, besides the merges of the second pass
that failed. -/
theorem images_exact (c : x.PooledCourse tools rs w) (hnames : x.config.nameKeys = false)
    (hdistinct : (rs.map fun r => (r.owner, r.index)).Nodup)
    (hread : c.prepared.planning.diagnostics = []) :
    (∀ key output, c.report.images[key]? = some output ↔
      ∃ r ∈ rs, ∃ color, c.prepared.resolution.images[r.colorId]? = some color ∧
        key = r.owner ++ "/" ++ toString r.index.toNat ∧
        output = Text.lowercase r.owner ++ "/" ++ color.name ++ ".png" ∧
        ∃ out ∈ c.main.outcomes, out.output = output ∧
          (out.status = .written ∨ out.status = .cached)) ∧
    (c.plans.map fun p => p.task.outputPath).Nodup ∧
    c.report.written + c.report.cached + c.report.failed = c.plans.length + c.second.failed := by
  have hsuccess : ∀ status : TaskStatus,
      status.isSuccess = true ↔ status = .written ∨ status = .cached := by
    intro status
    cases status <;> simp [TaskStatus.isSuccess]
  refine ⟨fun key output => ?_, ?_, ?_⟩
  · show (imagesOf c.main.outcomes)[key]? = some output ↔ _
    rw [getElem?_imagesOf]
    · constructor
      · rintro ⟨out, hout, hstatus, hkey, rfl⟩
        obtain ⟨p, hp, hpath, hkeys⟩ := exists_plan hout
        rw [← hkeys, mem_keys hnames hread hp] at hkey
        obtain ⟨r, hr, color, hcolor, hown, rfl⟩ := hkey
        exact ⟨r, hr, color, hcolor, rfl, (hown.trans hpath).symm, out, hout, rfl,
          (hsuccess _).mp hstatus⟩
      · rintro ⟨r, hr, color, hcolor, rfl, rfl, out, hout, hpath, hstatus⟩
        obtain ⟨p, hp, hown, hkeys⟩ := exists_plan hout
        refine ⟨out, hout, (hsuccess _).mpr hstatus, ?_, hpath⟩
        rw [← hkeys, mem_keys hnames hread hp]
        exact ⟨r, hr, color, hcolor, (hown.trans hpath).symm, rfl⟩
    · -- keys made of indices tell requirements apart, and a requirement has one output
      intro out hout other hother key hkey hkey'
      obtain ⟨p, hp, hpath, hkeys⟩ := exists_plan hout
      obtain ⟨q, hq, hpath', hkeys'⟩ := exists_plan hother
      rw [← hkeys, mem_keys hnames hread hp] at hkey
      rw [← hkeys', mem_keys hnames hread hq] at hkey'
      obtain ⟨r, hr, color, hcolor, hown, rfl⟩ := hkey
      obtain ⟨r', hr', color', hcolor', hown', hsame⟩ := hkey'
      obtain ⟨howner, hindex⟩ := Requirement.key_inj hsame
      obtain rfl := List.inj_on_of_nodup_map hdistinct hr hr' (Prod.ext howner hindex)
      obtain rfl := Option.some.inj (hcolor.symm.trans hcolor')
      rw [← hpath, ← hpath', ← hown, ← hown']
  · obtain ⟨s, -, hplanning, -⟩ := exists_sources_of_prepare c.prepare_eq
    rw [plans, hplanning]
    exact Planning.nodup_toList (Planning.sound_ofRequirements s rs)
  · have hlength : c.main.outcomes.length = c.plans.length := by
      simpa only [List.length_map] using congrArg List.length c.map_main
    show c.main.written + c.main.cached + (c.main.failed + c.second.failed) = _
    rw [← Nat.add_assoc, c.main.count_outcomes, hlength]

/-! ### A shared output

Two images of a character are one texture. -/

namespace Shared

def pixel : Picture :=
  .ofPixel ⟨16, 32, 48, 255⟩

def start : World Unit where
  disk := Corpus.diskWith "b" [("art.ab", [.ofPicture .texture 1 "hero" "" pixel])]
  tools := ()

def extraction : Extraction where
  bundleDir := "/b"
  outputDir := "/images"
  config := { indexPath := some "/index" }

def requirements : Requirements :=
  [{ owner := "A", index := 0, colorId := 1 }, { owner := "A", index := 1, colorId := 1 }]

end Shared

open Shared in
theorem images_exact_shared :
    (requirements.map fun r => (r.owner, r.index)).Nodup ∧
    ∃ c : extraction.PooledCourse Toolchain.inProcess requirements start,
      c.prepared.planning.diagnostics = [] ∧
      (∀ output, c.report.images["A/1"]? = some output → output = "a/hero.png") ∧
      c.report.images["A/1"]? = some "a/hero.png" ∧
      c.report.written + c.report.cached + c.report.failed = 1 + c.second.failed := by
  have hdistinct : (requirements.map fun r => (r.owner, r.index)).Nodup := by decide
  obtain ⟨hprepare, hrun⟩ :
      (extraction.prepare requirements start.disk).1.toOption.any (fun p =>
        p.planning.diagnostics == [] && p.planning.toList.length == 1) = true ∧
      (extraction.run Toolchain.inProcess requirements start).1.toOption.any (fun r =>
        r.1.images.toList == [("A/0", "a/hero.png"), ("A/1", "a/hero.png")]) = true := by
    decide +kernel
  obtain ⟨c, himages⟩ := exists_course_of_any (P := fun r =>
    r.images.toList == [("A/0", "a/hero.png"), ("A/1", "a/hero.png")]) hrun
  have hprepared := c.prepared_of_any hprepare
  rw [Bool.and_eq_true, beq_iff_eq, beq_iff_eq] at hprepared
  obtain ⟨hread, hlength⟩ := hprepared
  obtain ⟨hexact, -, hcount⟩ := images_exact c.pooled rfl hdistinct hread
  have hshared : c.pooled.report.images["A/1"]? = some "a/hero.png" := by
    rw [← Std.TreeMap.mem_toList_iff_getElem?_eq_some]
    show ("A/1", "a/hero.png") ∈ c.report.images.toList
    rw [beq_iff_eq.mp himages]
    decide
  refine ⟨hdistinct, c.pooled, hread, fun output houtput => ?_, hshared, hlength ▸ hcount⟩
  rw [hshared] at houtput
  exact (Option.some.inj houtput).symm

end PooledCourse

end Extraction

end CharacterArt
