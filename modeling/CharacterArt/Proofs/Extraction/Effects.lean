import CharacterArt.Proofs.Bundle.Listing
import CharacterArt.Proofs.Extraction.Missing
import CharacterArt.Proofs.Extraction.Preparation
import CharacterArt.Proofs.Merge.InOrder
import CharacterArt.Proofs.Reconciliation.Memory

/-!
# What an extraction changes

An extraction writes its outputs and makes directories on the ways to them.  All three passes keep to
that: each of them writes some of the planned outputs.  So an extraction whose sources lie apart from
its outputs leaves the sources as they are.

## Main Definitions

* `Extraction.Course.IsOrderly` — an extraction whose files form a tree without scratch directories
* `Extraction.Course.IsApart` — an extraction whose sources lie apart from its outputs
* `Extraction.Course.IsWaiting` — the paths of the outputs that wait for others
* `Extraction.Course.attempts` — the attempts to mend outputs

## Main Results

* `Extraction.Course.IsOrderly.evolves_main`, `Extraction.Course.IsOrderly.evolves_second`,
  `Extraction.Course.IsOrderly.evolves_mending` — what the passes change
* `Extraction.Course.IsOrderly.isTree_final` — the files still form a tree in the end
* `Extraction.Course.IsOrderly.exists_of_outcome`, `Extraction.Course.IsOrderly.exists_target` — the
  outputs that are there in the end
* `Extraction.Course.IsApart.evolves` — what changes after the first look at the sources
* `Extraction.Course.IsApart.keepsSources` — the sources are left as they are
-/

namespace CharacterArt

open Reconciliation (Attempt targets outputsIn Standing among)

/-- A place beside which no directory stands does not block a journal. -/
theorem Index.isBlocked_eq_false_iff {d : Files} {place : Location} :
    Index.isBlocked d place = false ↔ ∀ ending ∈ [Index.journalEnding, Index.logEnding],
      d.node? (Index.beside place ending) ≠ some .directory := by
  rw [Index.isBlocked, List.any_eq_false]
  refine forall₂_congr fun ending _ => ?_
  split
  · next hdirectory => simp [hdirectory]
  · next hother => simpa using hother

/-- The attempts of an extraction to mend outputs, if it gets that far. -/
def Extraction.attempts? {σ : Type} (x : Extraction) (tools : Toolchain σ) (rs : Requirements)
    (w : World σ) : Option (List (String × Attempt)) :=
  match x.prepare rs w.disk with
  | (.error _, _) => none
  | (.ok p, d) =>
    let (main, merged) := x.mainPass tools p.planning.toList { w with disk := d }
    let (second, overridden) :=
      x.overridePass tools (deferredOf p.planning.toList (writtenBy main)) merged
    ((Reconciliation.tryAll tools (outputsIn overridden.disk x.outputDir)
      (targets (x.troubles p main merged.disk second))).run.run ⟨overridden, ∅⟩).1.toOption

namespace Extraction.Course

variable {σ : Type} {x : Extraction} {tools : Toolchain σ} {rs : Requirements} {w : World σ}
  {c : x.Course tools rs w}

/-- The paths of the outputs that wait for others. -/
def IsWaiting (c : x.Course tools rs w) (path : String) : Prop :=
  ∃ o ∈ c.deferred, o.task.target x.mergeOptions = path

/-- The attempts of an extraction to mend outputs. -/
def attempts (c : x.Course tools rs w) : List (String × Attempt) :=
  ((Reconciliation.tryAll tools (outputsIn c.overridden.disk x.outputDir)
    (targets c.diagnostics)).run.run ⟨c.overridden, ∅⟩).1.toOption.getD []

/-- **A reconciliation consists of its attempts.** -/
theorem exists_opacity (c : x.Course tools rs w) : ∃ opacity,
    (Reconciliation.tryAll tools (outputsIn c.overridden.disk x.outputDir)
      (targets c.diagnostics)).run.run ⟨c.overridden, ∅⟩ = (.ok c.attempts, ⟨c.final, opacity⟩) ∧
    c.reconciled = Reconciliation.reportOf (c.attempts.map Reconciliation.resultOf) := by
  obtain ⟨attempts, opacity, hrun, hreport⟩ := Reconciliation.exists_of_reconcile c.reconcile_eq
  have hattempts : c.attempts = attempts := by
    unfold Course.attempts diagnostics
    rw [hrun]
    rfl
  rw [hattempts]
  exact ⟨opacity, hrun, hreport⟩

/-- An extraction that ends with a report gets as far as its attempts. -/
theorem attempts?_eq (c : x.Course tools rs w) : x.attempts? tools rs w = some c.attempts := by
  obtain ⟨opacity, hrun, -⟩ := c.exists_opacity
  rw [diagnostics] at hrun
  rw [attempts?, c.prepare_eq]
  dsimp only
  rw [c.main_eq]
  dsimp only
  rw [c.second_eq]
  dsimp only
  rw [hrun]
  rfl

/-! ### Orderly extractions -/

/-- An output that waits for another one is an output. -/
theorem isTarget_of_waiting (c : x.Course tools rs w) {path : String} (hpath : c.IsWaiting path) :
    c.IsTarget path := by
  obtain ⟨o, ho, rfl⟩ := hpath
  obtain ⟨p, hp, -, -, htask⟩ := mem_deferredOf.mp ho
  exact ⟨p, hp, by rw [htask]⟩

/-- The files form a tree, in which no scratch directory stands and no way to an output leads through
one.  The tool keeps to the files that it is told to write. -/
structure IsOrderly (c : x.Course tools rs w) : Prop where
  tidy : tools.Tidy
  isTree : w.disk.IsTree
  scratch : c.opened.Lacks InScratch
  avoids : ∀ p ∈ c.plans, AvoidsScratch w.disk.cwd (p.task.target x.mergeOptions)

namespace IsOrderly

/-- No output lies in a scratch directory. -/
theorem avoids_target (h : c.IsOrderly) {path : String} (hpath : c.IsTarget path) :
    AvoidsScratch w.disk.cwd path := by
  obtain ⟨p, hp, rfl⟩ := hpath
  exact h.avoids p hp

/-- **The first pass writes outputs.**  If it does not fail, they are all there. -/
theorem evolves_main (h : c.IsOrderly) :
    c.opened.Evolves (producing w.disk.cwd c.IsTarget) c.merged.disk ∧
      c.merged.disk.Lacks InScratch ∧ ((∀ out ∈ c.main.outcomes, out.status.isSuccess = true) →
        ∀ p ∈ c.plans, c.merged.disk.exists? (p.task.target x.mergeOptions) = true) := by
  obtain ⟨hevolves, hlacks, hthere⟩ := MergePool.runInOrder_cases h.tidy c.isTarget_of_mem_tasks
    (avoids_opened h.avoids) h.scratch c.main_eq
  rw [show ({ w with disk := c.opened } : World σ).disk.cwd = w.disk.cwd from c.cwd_opened]
    at hevolves
  exact ⟨hevolves, hlacks, fun hsuccess p hp => hthere hsuccess _ (List.mem_map_of_mem hp)⟩

theorem cwd_merged (h : c.IsOrderly) : c.merged.disk.cwd = w.disk.cwd :=
  h.evolves_main.1.cwd.trans c.cwd_opened

/-- **The second pass writes outputs that wait for others.** -/
theorem evolves_second (h : c.IsOrderly) :
    c.merged.disk.Evolves (producing w.disk.cwd c.IsWaiting) c.overridden.disk ∧
      c.overridden.disk.Lacks InScratch := by
  obtain ⟨-, hlacks, -⟩ := h.evolves_main
  have houtputs : ∀ t ∈ (c.deferred.filter (x.hasMask c.merged.disk)).map x.deferredTask,
      c.IsWaiting (t.target { x.mergeOptions with force := true }) := by
    intro t ht
    obtain ⟨o, ho, rfl⟩ := List.mem_map.mp ht
    exact ⟨o, List.mem_of_mem_filter ho, rfl⟩
  have havoids : ∀ path, c.IsWaiting path → AvoidsScratch c.merged.disk.cwd path := by
    intro path hpath
    rw [h.cwd_merged]
    exact h.avoids_target (isTarget_of_waiting c hpath)
  obtain ⟨hevolves, hlacks', -⟩ :=
    MergePool.runInOrder_cases h.tidy houtputs havoids hlacks c.second_eq
  rw [h.cwd_merged] at hevolves
  exact ⟨hevolves, hlacks'⟩

theorem cwd_overridden (h : c.IsOrderly) : c.overridden.disk.cwd = w.disk.cwd :=
  h.evolves_second.1.cwd.trans h.cwd_merged

/-- The files form a tree when the second pass starts. -/
theorem isTree_merged (h : c.IsOrderly) : c.merged.disk.IsTree :=
  MergePool.isTree_runInOrder h.tidy
    (fun t ht => avoids_opened h.avoids _ (c.isTarget_of_mem_tasks t ht)) h.scratch
    (isTree_prepare c.prepare_eq h.isTree) c.main_eq

/-- The files form a tree when outputs are mended. -/
theorem isTree_overridden (h : c.IsOrderly) : c.overridden.disk.IsTree := by
  refine MergePool.isTree_runInOrder h.tidy ?_ h.evolves_main.2.1 h.isTree_merged c.second_eq
  intro t ht
  obtain ⟨o, ho, rfl⟩ := List.mem_map.mp ht
  rw [h.cwd_merged]
  exact h.avoids_target (isTarget_of_waiting c ⟨o, List.mem_of_mem_filter ho, rfl⟩)

/-- **All pictures stand in places of their own when outputs are mended**, for the files form a
tree. -/
theorem standing (h : c.IsOrderly) :
    Standing (outputsIn c.overridden.disk x.outputDir) c.overridden.disk :=
  Reconciliation.standing_outputsIn h.isTree_overridden

/-- **Mending writes outputs that lack a mask.** -/
theorem evolves_mending (h : c.IsOrderly) : c.overridden.disk.Evolves (producing w.disk.cwd
      (among (outputsIn c.overridden.disk x.outputDir) (targets c.diagnostics))) c.final.disk ∧
    c.final.disk.Lacks InScratch := by
  obtain ⟨opacity, hrun, -⟩ := c.exists_opacity
  have hevolves := Reconciliation.evolves_tryAll h.tidy h.standing h.evolves_second.2 hrun
  rwa [h.cwd_overridden] at hevolves

theorem cwd_final (h : c.IsOrderly) : c.final.disk.cwd = w.disk.cwd :=
  h.evolves_mending.1.cwd.trans h.cwd_overridden

/-- **The files form a tree in the end.** -/
theorem isTree_final (h : c.IsOrderly) : c.final.disk.IsTree := by
  obtain ⟨hevolves, -⟩ := h.evolves_mending
  rw [← h.cwd_overridden] at hevolves
  refine h.isTree_overridden.producing hevolves ?_ ?_
  · rintro path ⟨o, ho, -, rfl⟩
    exact h.standing.way o ho
  · -- a picture stands where it is written
    rintro path ⟨o, ho, -, rfl⟩ l name hplace
    obtain ⟨content, hfile⟩ := h.standing.file o ho
    have hthere : c.overridden.disk.node? (l ++ [name]) ≠ none := by
      rw [← hplace, hfile]
      exact nofun
    exact ⟨h.isTree_overridden.isName l name hthere, h.isTree_overridden.above l name hthere⟩

/-- What is there after the first pass is there in the end. -/
theorem exists_final (h : c.IsOrderly) {path : String} (hthere : c.merged.disk.exists? path = true) :
    c.overridden.disk.exists? path = true ∧ c.final.disk.exists? path = true := by
  have hsecond := h.evolves_second.1.exists? (fun _ _ => id) hthere
  exact ⟨hsecond, h.evolves_mending.1.exists? (fun _ _ => id) hsecond⟩

/-- **The output of a task that ended well in the first pass is there** when others are mended, and in
the end.  It is a file if the task wrote it. -/
theorem exists_of_outcome (h : c.IsOrderly) {p : Plan} (hp : p ∈ c.plans) {out : TaskOutcome}
    (hout : out ∈ c.main.outcomes) (hsuccess : out.status.isSuccess = true)
    (hpath : out.output = p.task.outputPath) :
    c.overridden.disk.exists? (p.task.target x.mergeOptions) = true ∧
      c.final.disk.exists? (p.task.target x.mergeOptions) = true ∧
      (out.status = .written → c.overridden.disk.isFile (p.task.target x.mergeOptions) = true ∧
        c.final.disk.isFile (p.task.target x.mergeOptions) = true) := by
  obtain ⟨t, ht, heq, hthere, hfile⟩ := MergePool.exists_of_isSuccess h.tidy c.isTarget_of_mem_tasks
    (avoids_opened h.avoids) h.scratch c.main_eq hout hsuccess
  obtain ⟨q, hq, rfl⟩ := List.mem_map.mp ht
  obtain rfl := c.eq_of_outputPath hq hp (heq.trans hpath)
  obtain ⟨hsecond, hfinal⟩ := h.exists_final hthere
  refine ⟨hsecond, hfinal, fun hwritten => ?_⟩
  have hfile' := h.evolves_second.1.isFile (fun _ _ => id) (hfile hwritten)
  exact ⟨hfile', h.evolves_mending.1.isFile (fun _ _ => id) hfile'⟩

/-- **If no task of the first pass fails, all outputs are there** when others are mended, and in the
end. -/
theorem exists_target (h : c.IsOrderly)
    (hsuccess : ∀ out ∈ c.main.outcomes, out.status.isSuccess = true) {p : Plan} (hp : p ∈ c.plans) :
    c.overridden.disk.exists? (p.task.target x.mergeOptions) = true ∧
      c.final.disk.exists? (p.task.target x.mergeOptions) = true :=
  h.exists_final (h.evolves_main.2.2 hsuccess p hp)

end IsOrderly

/-! ### Sources apart from outputs -/

/-- The sources of an extraction lie apart from its outputs.  The files form a tree, in which no
scratch directory stands and no way to an output leads through one.  The tool keeps to the files that
it is told to write.  The index is neither a bundle nor an output, no directory takes the place of its
journal, and the override table is no output. -/
structure IsApart (c : x.Course tools rs w) : Prop where
  isNamed : c.IsNamed
  tidy : tools.Tidy
  isTree : w.disk.IsTree
  scratch : c.opened.Lacks InScratch
  avoids : ∀ p ∈ c.plans, AvoidsScratch w.disk.cwd (p.task.target x.mergeOptions)
  index_not_bundle : ∀ place, Index.place? x.indexPath w.disk.cwd = some place →
    ∀ name size, place = Path.place w.disk.cwd x.bundleDir ++ [name] →
      Corpus.bundleFile? x.bundleDir name size = none
  index_not_output : ∀ p ∈ c.plans,
    ¬ (Index.opening x.indexPath w.disk.cwd).files (x.placeOf w.disk.cwd p)
  index_free : ∀ place, Index.place? x.indexPath w.disk.cwd = some place →
    ∀ ending ∈ [Index.journalEnding, Index.logEnding],
      ¬ (producing w.disk.cwd c.IsTarget).ways (Index.beside place ending)
  overrides : ∀ path, x.config.overrides = some path → ∀ p ∈ c.plans,
    Path.place w.disk.cwd path ≠ x.placeOf w.disk.cwd p

namespace IsApart

/-- An extraction whose sources lie apart from its outputs is orderly. -/
theorem isOrderly (h : c.IsApart) : c.IsOrderly :=
  ⟨h.tidy, h.isTree, h.scratch, h.avoids⟩

/-- Mending writes outputs that lack a mask. -/
theorem evolves_mending (h : c.IsApart) : c.overridden.disk.Evolves (producing w.disk.cwd
      (among (outputsIn c.overridden.disk x.outputDir) (targets c.diagnostics))) c.final.disk ∧
    c.final.disk.Lacks InScratch :=
  h.isOrderly.evolves_mending

theorem cwd_final (h : c.IsApart) : c.final.disk.cwd = w.disk.cwd :=
  h.isOrderly.cwd_final

/-- A path of an output as the directory of all outputs sees it. -/
theorem target_eq (h : c.IsApart) {p : Plan} (hp : p ∈ c.plans) :
    p.task.target x.mergeOptions = Path.join x.outputDir p.task.outputPath :=
  MergeTask.target_eq (h.isNamed.task hp) x.mergeOptions

/-- A picture that lacks a mask is an output that lacks a mask. -/
theorem exists_plan_of_among (h : c.IsApart) {path : String}
    (hpath : among (outputsIn c.overridden.disk x.outputDir) (targets c.diagnostics) path) :
    ∃ p ∈ c.plans, p.task.target x.mergeOptions = path ∧
      p.task.outputPath ∈ targets c.diagnostics := by
  obtain ⟨o, ho, hmissing, rfl⟩ := hpath
  obtain ⟨p, hp, houtput⟩ := exists_plan_of_mem_targets hmissing
  obtain ⟨R, l, -, ho, -⟩ := Reconciliation.mem_outputsIn.mp ho
  obtain ⟨-, hrelative, hjoin, -⟩ := Reconciliation.outputFile?_eq_some_iff.mp ho
  exact ⟨p, hp, by rw [h.target_eq hp, houtput, hrelative, hjoin], by rwa [houtput]⟩

theorem isTarget_of_among (h : c.IsApart) {path : String}
    (hpath : among (outputsIn c.overridden.disk x.outputDir) (targets c.diagnostics) path) :
    c.IsTarget path := by
  obtain ⟨p, hp, htarget, -⟩ := h.exists_plan_of_among hpath
  exact ⟨p, hp, htarget⟩

/-- **An extraction writes its outputs and makes directories**, and nothing else changes once the
index is up to date. -/
theorem evolves (h : c.IsApart) :
    c.opened.Evolves (producing w.disk.cwd c.IsTarget) c.final.disk :=
  have hpasses := h.isOrderly.evolves_main.1.trans
    (h.isOrderly.evolves_second.1.producing fun _ => isTarget_of_waiting c)
  hpasses.trans (h.evolves_mending.1.producing fun _ => h.isTarget_of_among)

/-- **An output that neither waits for another one nor lacks a mask is left as the first pass left
it.** -/
theorem find?_final_eq (h : c.IsApart) {p : Plan} (hp : p ∈ c.plans) (hdeferred : p.deferred = none)
    (hmasked : p.task.outputPath ∉ targets c.diagnostics) {n : Node Content}
    (hn : c.merged.disk.find? (p.task.target x.mergeOptions) = some n) :
    c.final.disk.find? (p.task.target x.mergeOptions) = some n := by
  -- what is written has another place, for it is the output of another plan
  have hapart : ∀ q ∈ c.plans, Path.place w.disk.cwd (p.task.target x.mergeOptions) =
      Path.place w.disk.cwd (q.task.target x.mergeOptions) → q = p := by
    intro q hq heq
    exact c.eq_of_outputPath hq hp (MergeTask.outputPath_eq_of_place (h.isNamed.task hp)
      (h.isNamed.task hq) heq).symm
  have hsecond := h.isOrderly.evolves_second.1.find?_eq (fun _ _ => id) ?_ hn
  · refine h.evolves_mending.1.find?_eq (fun _ _ => id) ?_ hsecond
    rintro ⟨path, hpath, hplace⟩
    obtain ⟨q, hq, rfl, hlacks⟩ := h.exists_plan_of_among hpath
    rw [h.isOrderly.cwd_overridden] at hplace
    rw [hapart q hq hplace] at hlacks
    exact hmasked hlacks
  · rintro ⟨path, ⟨o, ho, rfl⟩, hplace⟩
    obtain ⟨q, hq, -, hwaits, htask⟩ := mem_deferredOf.mp ho
    rw [h.isOrderly.cwd_merged, htask] at hplace
    rw [hapart q hq hplace, hdeferred] at hwaits
    cases hwaits

/-- **Mending changes nothing about which pictures there are.** -/
theorem outputsIn_final (h : c.IsApart) {p : Plan} (hp : p ∈ c.plans)
    (hthere : c.overridden.disk.exists? (p.task.target x.mergeOptions) = true) :
    outputsIn c.final.disk x.outputDir = outputsIn c.overridden.disk x.outputDir := by
  obtain ⟨hevolves, -⟩ := h.evolves_mending
  have hstanding := h.isOrderly.standing
  refine Reconciliation.outputsIn_congr ?_ ?_
  · -- the way to the directory of outputs is that to any of them
    refine Disk.resolve_congr hevolves.cwd fun m hm => ?_
    rw [Disk.exists?, Option.isSome_iff_exists] at hthere
    obtain ⟨n, hn⟩ := hthere
    have hway := (Disk.find?_eq_some_iff.mp hn).1.2 m
      ((MergeTask.passes_target (h.isNamed.task hp)).mpr (.inl hm))
    rw [hway]
    exact hevolves.directory id hway
  · intro R hroot l o ho
    constructor
    · rintro ⟨content, hfile⟩
      cases hevolves.change (R ++ l) with
      | keep hkeep => exact ⟨content, hkeep ▸ hfile⟩
      | scratch hscratch => exact absurd hscratch id
      | make _ _ hdirectory => rw [hdirectory] at hfile; cases hfile
      | write hwritten =>
          obtain ⟨path, ⟨q, hq, -, rfl⟩, hplace⟩ := hwritten
          rw [hplace, ← h.isOrderly.cwd_overridden]
          exact hstanding.file q hq
    · rintro ⟨content, hfile⟩
      exact hevolves.file id hfile

/-- No output has the name of a bundle. -/
theorem not_files_bundle (h : c.IsApart) {l : Location} {name : String}
    (hname : ∃ b, Corpus.bundleFile? x.bundleDir name 0 = some b) :
    ¬ (producing w.disk.cwd c.IsTarget).files (l ++ [name]) := by
  rintro ⟨path, ⟨p, hp, rfl⟩, hplace⟩
  have hnamed := h.isNamed.task hp
  rw [MergeTask.place_target hnamed, MergeTask.names, List.append_cons _ p.task.directory] at hplace
  obtain ⟨-, hlast⟩ := List.append_inj' hplace rfl
  obtain rfl := List.head_eq_of_cons_eq hlast
  obtain ⟨b, hb⟩ := hname
  unfold Corpus.bundleFile? at hb
  rw [Path.extension_withExtension hnamed.name.ne_empty hnamed.name.no_slash] at hb
  split at hb
  · next heq _ =>
      cases heq
      rw [if_neg (by decide +kernel)] at hb
      cases hb
  · cases hb

/-- **An extraction whose sources lie apart from its outputs leaves them as they are**, once its
index is up to date. -/
theorem keepsSources (h : c.IsApart) : x.KeepsSources w.disk c.opened c.final.disk := by
  obtain ⟨store, corpus, stats, hsync, hplanned⟩ := exists_of_prepare c.prepare_eq
  have hsynced := isSynced_of_syncIndex hsync
  have hprepare := evolves_prepare c.prepare_eq
  have hevolves := h.evolves
  have hindex : ∀ {l : Location} {name : String},
      w.disk.resolve x.bundleDir = .ok l → (∃ b, Corpus.bundleFile? x.bundleDir name 0 = some b) →
      ¬ (Index.opening x.indexPath w.disk.cwd).files (l ++ [name]) := by
    rintro l name hroot ⟨b, hb⟩ hfile
    obtain ⟨-, -, rfl⟩ := Disk.resolve_eq_ok_iff.mp hroot
    rw [h.index_not_bundle _ hfile name 0 rfl] at hb
    cases hb
  refine ⟨hevolves.cwd, fun m => hevolves.directory id, ?_, ?_, ?_, ?_⟩
  · -- the bundles are neither the index nor outputs
    obtain ⟨l, hroot, -⟩ := Corpus.scan_eq_ok_iff.mp hsynced.scan_eq
    refine Corpus.scan_congr hsynced.scan_eq ?_
      (fun m hm => hevolves.directory id (hprepare.directory id hm)) fun l name content hl hname => ?_
    · rw [hroot]
      exact hevolves.resolve_eq (fun _ _ => id) (hprepare.resolve_eq (fun _ _ => id) hroot)
    · rw [hevolves.file_iff id (h.not_files_bundle hname), hprepare.file_iff id (hindex hl hname)]
  · intro found hfound b hb
    refine Corpus.read_congr_of_scan hfound hb h.isTree (hevolves.cwd.trans c.cwd_opened)
      c.cwd_opened (fun m hm => ?_) fun l name content hl hname hfile => ?_
    · have hm' := hprepare.directory id hm
      exact ⟨hm', hevolves.directory id hm'⟩
    · have hfile' := (hprepare.file_iff id (hindex hl hname)).mpr hfile
      rw [hfile', hevolves.file_iff id (h.not_files_bundle hname)]
      exact hfile'
  · -- the override table could be read, and it is no output
    intro path hpath
    have hread : ∃ content, c.opened.read path = .ok content := by
      unfold planOutputs at hplanned
      obtain ⟨resolution, -, hplanned⟩ := bind_eq_ok_iff.mp hplanned
      obtain ⟨overrides, htable, -⟩ := bind_eq_ok_iff.mp hplanned
      rw [overrideTable, hpath] at htable
      obtain ⟨text, htext, -⟩ := bind_eq_ok_iff.mp htable
      obtain ⟨bytes, hbytes, -⟩ := bind_eq_ok_iff.mp htext
      unfold Files.readBytes at hbytes
      split at hbytes
      · next content hcontent => exact ⟨content, hcontent⟩
      · cases hbytes
    obtain ⟨content, hread⟩ := hread
    rw [hread]
    rw [Disk.read_eq_ok_iff] at hread ⊢
    refine hevolves.find?_eq (fun _ _ => id) ?_ hread
    rintro ⟨target, ⟨p, hp, rfl⟩, hplace⟩
    rw [c.cwd_opened] at hplace
    exact h.overrides path hpath p hp hplace
  · -- the index is ready, it is no output, and no directory blocks its journal
    intro place hplace
    rcases hsynced.index with ⟨a, _, ha, htransient, -, -⟩ | ⟨place', a, hready, -⟩
    · rw [Index.place?, ha] at hplace
      dsimp only [Option.bind_some] at hplace
      rw [if_pos htransient] at hplace
      cases hplace
    · obtain rfl : place' = place := Option.some.inj (hready.place?_eq.symm.trans hplace)
      rw [c.cwd_opened] at hplace
      have hfree := hready.free
      have hthere : c.opened.node? place' ≠ none := by
        rw [hready.node_eq]
        exact Option.some_ne_none _
      refine ⟨hevolves.node?_eq id ?_ hthere, ?_⟩
      · rintro ⟨path, ⟨p, hp, rfl⟩, heq⟩
        rw [heq] at hplace
        exact h.index_not_output p hp hplace
      · rw [Index.isBlocked_eq_false_iff] at hfree ⊢
        intro ending hending
        cases hevolves.change (Index.beside place' ending) with
        | keep hkeep => rw [hkeep]; exact hfree ending hending
        | scratch hscratch => exact absurd hscratch id
        | make hway => exact absurd hway (h.index_free place' hplace ending hending)
        | write _ _ content hfile =>
            rw [hfile]
            intro hdirectory
            cases hdirectory

end IsApart

end Extraction.Course

end CharacterArt
