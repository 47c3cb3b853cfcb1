import CharacterArt.Proofs.Extraction.Accounts
import CharacterArt.Proofs.Extraction.Effects

/-!
# Extracting again

An extraction that is repeated finds all its outputs, so it merges nothing in its two passes.  What
is left to a reconciliation are outputs that are still opaque.  The first extraction found no donor
for them, and since then none of their variants became one, so nothing is mended either.

## Main Results

* `Extraction.Course.IsApart.mem_lackingAlpha_again` — the outputs that lack a mask the second time
* `Extraction.Course.IsApart.judges_again` — their variants are opaque
* `Extraction.Course.IsApart.run_again` — a second extraction changes nothing
-/

namespace CharacterArt

open MergePool (reportOfFound)
open Reconciliation (Attempt targets outputsIn candidates)

/-! ### Results -/

namespace ExtractionReport

/-- The result map depends on the outputs and their keys if no task failed. -/
theorem imagesOf_congr {outcomes others : List TaskOutcome}
    (h : ∀ out ∈ outcomes, out.status.isSuccess = true)
    (h' : ∀ out ∈ others, out.status.isSuccess = true)
    (heq : outcomes.map (fun out => (out.output, out.keys)) =
      others.map fun out => (out.output, out.keys)) : imagesOf outcomes = imagesOf others := by
  have himages : ∀ outs : List TaskOutcome, (∀ out ∈ outs, out.status.isSuccess = true) →
      imagesOf outs = (outs.map fun out => (out.output, out.keys)).foldl
        (fun images out => out.2.foldl (fun images key => images.insert key out.1) images) ∅ := by
    intro outs houts
    rw [imagesOf, List.filter_eq_self.mpr houts, List.foldl_map]
  rw [himages outcomes h, himages others h', heq]

end ExtractionReport

namespace Extraction

variable {σ : Type} {x : Extraction} {tools : Toolchain σ} {rs : Requirements} {w : World σ}
  {c : x.Course tools rs w}

/-- A pool that finds all its outputs counts them all as found. -/
theorem count_reportOfFound (ts : List MergeTask) : (reportOfFound ts).written = 0 ∧
    (reportOfFound ts).failed = 0 ∧ (reportOfFound ts).cached = ts.length := by
  refine ⟨?_, ?_, ?_⟩
  · rw [DrainReport.written, reportOfFound, List.countP_map]
    exact List.countP_eq_zero.mpr fun t _ => Bool.false_ne_true
  · rw [DrainReport.failed, reportOfFound, List.countP_map]
    exact List.countP_eq_zero.mpr fun t _ => Bool.false_ne_true
  · rw [DrainReport.cached, reportOfFound, List.countP_map]
    exact List.countP_eq_length.mpr fun t _ => rfl

/-- A pool that finds all its outputs writes none. -/
theorem writtenBy_reportOfFound (ts : List MergeTask) : writtenBy (reportOfFound ts) = [] := by
  rw [List.eq_nil_iff_forall_not_mem]
  intro output hmem
  obtain ⟨out, hout, -, hstatus⟩ := mem_writtenBy.mp hmem
  obtain ⟨t, -, rfl⟩ := List.mem_map.mp hout
  cases hstatus

/-- Where nothing was written no output waits for another one. -/
theorem deferredOf_nil (plans : List Plan) : deferredOf plans [] = [] := by
  rw [deferredOf, List.filterMap_eq_nil_iff]
  intro p _
  rfl

theorem isOpaqueOutput_of_readPicture {d : Files} {output : String} {p : Picture}
    (h : Files.readPicture d (Path.join x.outputDir output) = .ok p) :
    x.isOpaqueOutput d output = p.isOpaque := by
  unfold isOpaqueOutput
  split
  · next q hq =>
      rw [h] at hq
      cases hq
      rfl
  · next e he =>
      rw [h] at he
      cases he

/-- No truthful tool says of an opaque output that it is transparent. -/
theorem not_judges_of_isOpaqueOutput (h : tools.IsTruthful) (v : World σ) {output : String}
    (hsolid : x.isOpaqueOutput v.disk output = true) :
    ¬ tools.Judges v.disk (Path.join x.outputDir output) false := by
  intro hjudges
  obtain ⟨picture, hpicture, htransparent⟩ := h.exists_picture hjudges
  rw [isOpaqueOutput_of_readPicture hpicture, htransparent] at hsolid
  cases hsolid

namespace Course

/-- If the report counts no failures, all tasks of the first pass ended well. -/
theorem success_of_failed (h : c.report.failed = 0) :
    ∀ out ∈ c.main.outcomes, out.status.isSuccess = true := by
  have hmain : c.main.failed = 0 := (Nat.add_eq_zero_iff.mp h).1
  intro out hout
  have hnot := List.countP_eq_zero.mp hmain out hout
  simpa using hnot

/-- The keys of the outputs are those of the plans. -/
theorem images_eq_of_found (hsuccess : ∀ out ∈ c.main.outcomes, out.status.isSuccess = true) :
    ExtractionReport.imagesOf (reportOfFound (c.plans.map Plan.task)).outcomes =
      ExtractionReport.imagesOf c.main.outcomes := by
  refine ExtractionReport.imagesOf_congr ?_ hsuccess ?_
  · intro out hout
    obtain ⟨t, -, rfl⟩ := List.mem_map.mp hout
    rfl
  · have hmain := MergePool.map_outcomes tools x.mergeOptions (c.plans.map Plan.task)
      { w with disk := c.opened }
    rw [show (MergePool.runInOrder tools x.mergeOptions (c.plans.map Plan.task)
      { w with disk := c.opened }).1 = c.main from congrArg Prod.fst c.main_eq] at hmain
    rw [hmain, reportOfFound, List.map_map]
    rfl

namespace IsApart

variable {d : Files} (hsuccess : ∀ out ∈ c.main.outcomes, out.status.isSuccess = true)
include hsuccess

/-- **The outputs that lack a mask the second time** are those that no mask is known for, that a
result key points to, and that are opaque. -/
theorem mem_lackingAlpha_again (hd : c.final.disk.Matches d) {output : String} :
    output ∈ x.lackingAlpha d c.plans (reportOfFound (c.plans.map Plan.task)) ↔
      (∃ p ∈ c.plans, p.needsAlpha = true ∧ p.task.outputPath = output) ∧
        output ∈ c.report.images.toList.map Prod.snd ∧
          x.isOpaqueOutput c.final.disk output = true := by
  rw [mem_lackingAlpha, writtenBy_reportOfFound, images_eq_of_found hsuccess,
    isOpaqueOutput_congr (Disk.read_congr hd.cwd_eq fun m _ => hd.node?_eq m),
    or_iff_right List.not_mem_nil]
  rfl

/-- An output that lacks a mask the second time lacked one the first time. -/
theorem mem_targets_of_again (h : c.IsApart) {p : Plan} (hp : p ∈ c.plans)
    (hneeds : p.needsAlpha = true)
    (hpresent : p.task.outputPath ∈ c.report.images.toList.map Prod.snd)
    (hsolid : x.isOpaqueOutput c.final.disk p.task.outputPath = true) :
    p.task.outputPath ∈ targets c.diagnostics := by
  obtain ⟨s, -, hfor⟩ := isFor hp
  have hdeferred := hfor.decided.deferred_eq_none hneeds
  by_contra hmasked
  -- otherwise nothing would have changed it since the first pass
  obtain ⟨n, hn⟩ := Option.isSome_iff_exists.mp (h.isOrderly.evolves_main.2.2 hsuccess p hp)
  have hread := Disk.read_eq_of_find? hn (h.find?_final_eq hp hdeferred hmasked hn)
  rw [h.target_eq hp] at hread
  rw [isOpaqueOutput_congr hread] at hsolid
  refine hmasked ?_
  rw [diagnostics, targets_troubles c.prepare_eq, List.mem_append]
  exact .inl (mem_lackingAlpha.mpr ⟨⟨p, hp, hneeds, rfl⟩, .inr ⟨hpresent, hsolid⟩⟩)

/-- **The variants of an output that lacks a mask the second time are opaque**, if no merge failed the
first time and what was mended is not opaque. -/
theorem judges_again (h : c.IsApart) (htruthful : tools.IsTruthful)
    (hmerged : ∀ a ∈ c.attempts, ∀ donor, a.2 ≠ .refused donor)
    (hmended : ∀ output ∈ c.reconciled.resolved.map Prod.fst,
      x.isOpaqueOutput c.final.disk output = false)
    {p : Plan} (hp : p ∈ c.plans) (hneeds : p.needsAlpha = true)
    (hpresent : p.task.outputPath ∈ c.report.images.toList.map Prod.snd)
    (hsolid : x.isOpaqueOutput c.final.disk p.task.outputPath = true) :
    ∀ target ∈ outputsIn c.overridden.disk x.outputDir, target.relative = p.task.outputPath →
      ∀ o ∈ candidates (outputsIn c.overridden.disk x.outputDir) target,
        tools.Judges c.final.disk o.path true := by
  intro target htarget hrelative
  obtain ⟨opacity, hrun, hreport⟩ := c.exists_opacity
  have hmissing := h.mem_targets_of_again hsuccess hp hneeds hpresent hsolid
  rw [← Reconciliation.map_fst_of_tryAll hrun] at hmissing
  obtain ⟨⟨path, attempt⟩, hattempt, hpath⟩ := List.mem_map.mp hmissing
  obtain rfl : path = p.task.outputPath := hpath
  cases attempt with
  | missing =>
      exact absurd hrelative (Reconciliation.relative_ne_of_missing h.tidy hrun hattempt target htarget)
  | refused donor => exact absurd rfl (hmerged _ hattempt donor)
  | merged donor =>
      have hresolved : p.task.outputPath ∈ c.reconciled.resolved.map Prod.fst := by
        rw [hreport, Reconciliation.resolved_eq]
        exact List.mem_map.mpr ⟨_, List.mem_filter.mpr ⟨List.mem_map_of_mem hattempt, rfl⟩, rfl⟩
      rw [hmended _ hresolved] at hsolid
      cases hsolid
  | noDonor =>
      rw [← hrelative] at hattempt hsolid
      have hremembers : Reconciliation.Remembers tools (outputsIn c.overridden.disk x.outputDir) []
          ⟨c.overridden, ∅⟩ :=
        ⟨h.isOrderly.standing, h.isOrderly.evolves_second.2, fun o _ answer hanswer => by simp at hanswer⟩
      refine Reconciliation.judges_of_noDonor hremembers h.tidy htruthful htarget
        List.not_mem_nil c.nodup_targets hmerged hrun hattempt ?_
      -- the tool does not say that a picture is transparent that is opaque
      obtain ⟨R, l, -, ho, -⟩ := Reconciliation.mem_outputsIn.mp htarget
      obtain ⟨-, hrel, hjoin, -⟩ := Reconciliation.outputFile?_eq_some_iff.mp ho
      rw [hjoin, ← hrel]
      exact not_judges_of_isOpaqueOutput htruthful c.final hsolid

/-- The files look the same to whoever finds them the second time. -/
theorem exists_again (h : c.IsApart) (hd : c.final.disk.Matches d) {p : Plan} (hp : p ∈ c.plans) :
    d.exists? (p.task.target x.mergeOptions) = true := by
  have hthere := (h.isOrderly.exists_target hsuccess hp).2
  rwa [Disk.exists?, Disk.find?_congr hd.cwd_eq fun m _ => hd.node?_eq m]

/-- **The second time the first pass finds all outputs.** -/
theorem mainPass_again (h : c.IsApart) (hd : c.final.disk.Matches d) (hforce : x.config.force = false)
    (other : Toolchain σ) : x.mainPass other c.plans { c.final with disk := d } =
      (reportOfFound (c.plans.map Plan.task), { c.final with disk := d }) := by
  refine MergePool.runInOrder_of_exists other hforce fun t ht => ?_
  obtain ⟨p, hp, rfl⟩ := List.mem_map.mp ht
  exact h.exists_again hsuccess hd hp

/-- **The second time a reconciliation mends nothing**, whatever the tool would do but look at
pictures. -/
theorem exists_reconcile_again (h : c.IsApart) (hd : c.final.disk.Matches d)
    (htruthful : tools.IsTruthful) (hmerged : ∀ a ∈ c.attempts, ∀ donor, a.2 ≠ .refused donor)
    (hmended : ∀ output ∈ c.reconciled.resolved.map Prod.fst,
      x.isOpaqueOutput c.final.disk output = false) {missing : Diagnostics}
    (hmissing : targets missing = x.lackingAlpha d c.plans (reportOfFound (c.plans.map Plan.task))) :
    ∃ reconciled last, (∀ other : Toolchain σ, other.probe = tools.probe →
        reconcile other x.outputDir missing { c.final with disk := d } = (.ok reconciled, last)) ∧
      reconciled.resolved = [] ∧ last.disk = d := by
  have hvariants : ∀ path ∈ targets missing, ∀ target ∈ outputsIn d x.outputDir,
      target.relative = path → ∀ o ∈ candidates (outputsIn d x.outputDir) target,
        tools.Judges d o.path true := by
    intro path hpath target htarget hrelative o ho
    rw [hmissing, mem_lackingAlpha_again hsuccess hd] at hpath
    obtain ⟨⟨p, hp, hneeds, rfl⟩, hpresent, hsolid⟩ := hpath
    -- the second time there are the same pictures
    have houtputs : outputsIn d x.outputDir = outputsIn c.overridden.disk x.outputDir := by
      rw [← h.outputsIn_final hp (h.isOrderly.exists_target hsuccess hp).1]
      exact Reconciliation.outputsIn_congr (Disk.resolve_congr hd.cwd_eq fun m _ => hd.node?_eq m)
        fun R _ l _ _ => by rw [hd.node?_eq]
    rw [houtputs] at htarget ho
    exact (h.judges_again hsuccess htruthful hmerged hmended hp hneeds hpresent hsolid target
      htarget hrelative o ho).congr (Disk.read_congr hd.cwd_eq fun m _ => hd.node?_eq m)
  obtain ⟨attempts, s', hrun, hdonors, hdisk⟩ := Reconciliation.exists_tryAll_of_judges
    (s := ⟨{ c.final with disk := d }, ∅⟩) h.tidy hvariants (fun key hkey => by simp at hkey)
  refine ⟨_, s'.world, fun other hother => Reconciliation.reconcile_of_tryAll (hrun other hother),
    ?_, hdisk⟩
  rw [← List.map_eq_nil_iff (f := Prod.fst), Reconciliation.resolved_eq, List.map_eq_nil_iff,
    List.filter_eq_nil_iff]
  intro result hresult
  obtain ⟨a, ha, rfl⟩ := List.mem_map.mp hresult
  rw [Reconciliation.resultOf, hdonors a ha]
  exact Bool.false_ne_true

/-- **A second extraction plans the same**, finds all outputs, and has no output to merge with another
one: whatever the tool would do, it comes to its reconciliation in this way. -/
theorem exists_phases_again (h : c.IsApart) (hforce : x.config.force = false) :
    ∃ p' d, x.prepare rs c.final.disk = (.ok p', d) ∧ p'.planning.toList = c.plans ∧
      c.final.disk.Matches d ∧
      (∀ other : Toolchain σ, x.mainPass other p'.planning.toList { c.final with disk := d } =
        (reportOfFound (c.plans.map Plan.task), { c.final with disk := d })) ∧
      deferredOf p'.planning.toList (writtenBy (reportOfFound (c.plans.map Plan.task))) = [] ∧
      targets (x.troubles p' (reportOfFound (c.plans.map Plan.task)) d (reportOfFound [])) =
        x.lackingAlpha d c.plans (reportOfFound (c.plans.map Plan.task)) := by
  obtain ⟨p', d, hprepare, -, hplanning, hmatches⟩ :=
    prepare_again c.prepare_eq h.keepsSources
  have hplans : p'.planning.toList = c.plans := by
    rw [hplanning]
    rfl
  have hdeferred : deferredOf p'.planning.toList
      (writtenBy (reportOfFound (c.plans.map Plan.task))) = [] := by
    rw [writtenBy_reportOfFound, deferredOf_nil]
  refine ⟨p', d, hprepare, hplans, hmatches, fun other => ?_, hdeferred, ?_⟩
  · rw [hplans]
    exact h.mainPass_again hsuccess hmatches hforce other
  · rw [targets_troubles hprepare, hdeferred, hplans]
    exact List.append_nil _

omit hsuccess in
/-- **An extraction that is repeated changes nothing.**  If nothing failed the first time, every donor
could be merged and what was mended is not opaque, a second extraction finds all outputs and merges
nothing: whatever the tool would do but look at pictures, the run is the same. -/
theorem run_again (h : c.IsApart) (htruthful : tools.IsTruthful) (hforce : x.config.force = false)
    (hfailed : c.report.failed = 0) (hmerged : ∀ a ∈ c.attempts, ∀ donor, a.2 ≠ .refused donor)
    (hmended : ∀ output ∈ c.report.reconciled.resolved.map Prod.fst,
      x.isOpaqueOutput c.final.disk output = false) :
    ∃ c' : x.Course tools rs c.final,
      (∀ other : Toolchain σ, other.probe = tools.probe →
        x.run other rs c.final = (.ok (c'.report, c'.progress), c'.final)) ∧
      c'.plans = c.plans ∧ (∀ p ∈ c'.plans, c'.IsFound p.task.outputPath) ∧
      c'.report.written = 0 ∧ c'.report.failed = 0 ∧ c'.report.cached = c.plans.length ∧
      c'.report.images = c.report.images ∧ c.final.disk.Matches c'.final.disk := by
  have hsuccess := success_of_failed hfailed
  obtain ⟨p', d, hprepare, hplans, hmatches, hmain, hdeferred, hmissing⟩ :=
    h.exists_phases_again hsuccess hforce
  obtain ⟨reconciled, last, hreconcile, hresolved, hdisk⟩ :=
    h.exists_reconcile_again hsuccess hmatches htruthful hmerged hmended hmissing
  -- with any tool that answers alike the phases of the second extraction are the same
  have hcourse : ∀ other : Toolchain σ, other.probe = tools.probe →
      ∃ c' : x.Course other rs c.final, c'.prepared = p' ∧
        c'.main = reportOfFound (c.plans.map Plan.task) ∧ c'.second = reportOfFound [] ∧
        c'.reconciled = reconciled ∧ c'.merged = { c.final with disk := d } ∧ c'.final = last :=
    fun other hother => ⟨⟨p', d, hprepare, _, _, hmain other, reportOfFound [],
      { c.final with disk := d }, by rw [hdeferred]; rfl, reconciled, last, hreconcile other hother,
      c.hasDeadline, by rw [hdeferred]; rfl⟩, rfl, rfl, rfl, rfl, rfl, rfl⟩
  obtain ⟨c', hprepared, hfound, hsecond, hreconciled, hmerged', hfinal⟩ := hcourse tools rfl
  have hplans' : c'.plans = c.plans := by
    rw [plans, hprepared, hplans]
  refine ⟨c', fun other hother => ?_, hplans', fun p hp => ?_, ?_, ?_, ?_, ?_, ?_⟩
  · obtain ⟨c'', hprepared', hfound', hsecond', hreconciled', hmerged'', hfinal'⟩ :=
      hcourse other hother
    rw [← c'.run_eq]
    exact run_congr c' c'' (hprepared'.trans hprepared.symm) (hfound'.trans hfound.symm)
      (hsecond'.trans hsecond.symm) (hreconciled'.trans hreconciled.symm)
      (hmerged''.trans hmerged'.symm) (hfinal'.trans hfinal.symm)
  · refine ⟨⟨p.task.outputPath, p.task.keys, .cached⟩, ?_, rfl, rfl⟩
    rw [hfound, reportOfFound, List.map_map]
    rw [hplans'] at hp
    exact List.mem_map_of_mem (f := fun q : Plan => (⟨_, _, .cached⟩ : TaskOutcome)) hp
  · show c'.main.written = 0
    rw [hfound]
    exact (count_reportOfFound _).1
  · show c'.main.failed + c'.second.failed = 0
    rw [hfound, hsecond, (count_reportOfFound _).2.1, (count_reportOfFound _).2.1]
  · show c'.main.cached = _
    rw [hfound, (count_reportOfFound _).2.2, List.length_map]
  · show ExtractionReport.imagesOf c'.main.outcomes = _
    rw [hfound]
    exact images_eq_of_found hsuccess
  · rw [hfinal, hdisk]
    exact hmatches

end IsApart

end Course

/-! ### An index among the bundles

The second extraction reads as a bundle whatever the first one left in the directory of bundles. -/

namespace Sample

theorem isTree : start.disk.IsTree := by
  refine Disk.isTree_of_forall rfl ?_
  decide

theorem exists_foe : ∃ c : FoeCourse, c.report.failed = 0 ∧
    c.report.reconciled = { unresolved := ["a/foe.png"] } := by
  obtain ⟨-, -, hrun⟩ := evaluated_foe
  obtain ⟨c, hend⟩ := exists_course_of_any (P := fun r => r.failed == 0 &&
    r.reconciled == { unresolved := ["a/foe.png"] }) hrun
  rw [Bool.and_eq_true, beq_iff_eq, beq_iff_eq] at hend
  exact ⟨c, hend⟩

/-- All that is asked of the extraction of the third texture when it is repeated, in one
evaluation. -/
theorem evaluated_again :
    ((extraction "/index").attempts? Toolchain.inProcess (requirements 3) start ==
      some [("a/foe.png", Attempt.noDonor)]) = true ∧
    (extraction "/index").isOpaqueOutput ((extraction "/index").run
      Toolchain.inProcess (requirements 3) start).2.disk "a/foe.png" = true ∧
    ((extraction "/index").run Toolchain.inProcess (requirements 3)
      ((extraction "/index").run Toolchain.inProcess (requirements 3) start).2).1.toOption.any
        (fun _ => true) = true := by
  decide +kernel

theorem attempts_foe (c : FoeCourse) : c.attempts = [("a/foe.png", .noDonor)] := by
  obtain ⟨hattempts, -⟩ := evaluated_again
  rw [c.attempts?_eq, beq_iff_eq] at hattempts
  exact Option.some.inj hattempts

/-- The index lies in no scratch directory. -/
theorem lacks_opened {rs : Requirements} {w : World Unit}
    (c : (extraction "/index").Course Toolchain.inProcess rs w) (hcwd : w.disk.cwd = [])
    (hbare : w.disk.Lacks InScratch) : c.opened.Lacks InScratch := by
  refine (evolves_prepare c.prepare_eq).lacks hbare (fun _ _ h => h) ?_ ?_
  · intro l hl hplace
    obtain rfl : ["index"] = l := Option.some.inj hplace
    exact absurd hl.head?_eq (by decide)
  · intro l hl hway
    have habove : ∀ m ∈ Path.way (Path.start [] "/index") (Path.segments "/index".toList),
        m.head? ≠ some "tmp" := by
      decide
    rw [hcwd] at hway
    exact habove l (Path.mem_way.mpr hway) hl.head?_eq

/-- An extraction of one image, with the index beside the directory of outputs. -/
theorem isApart_of_target {id : PathId} {w : World Unit} {target : String}
    (c : (extraction "/index").Course Toolchain.inProcess (requirements id) w)
    (hcwd : w.disk.cwd = []) (hnamed : c.IsNamed) (htree : w.disk.IsTree)
    (hbare : w.disk.Lacks InScratch)
    (htarget : target ∈ ["/images/a/hero.png", "/images/a/foe.png"])
    (hplans : ∀ p ∈ c.plans, p.task.target (extraction "/index").mergeOptions = target) :
    c.IsApart where
  isNamed := hnamed
  tidy := Toolchain.tidy_inProcess Unit
  isTree := htree
  scratch := lacks_opened c hcwd hbare
  avoids p hp := by
    rw [hplans p hp, hcwd]
    refine avoidsScratch_of_forall ?_
    rcases List.mem_pair.mp htarget with rfl | rfl <;> decide
  index_not_bundle place hplace name size hname := by
    obtain rfl : ["index"] = place := Option.some.inj hplace
    have hbundles : Path.place w.disk.cwd (extraction "/index").bundleDir = ["b"] := by
      rw [hcwd]
      decide
    rw [hbundles] at hname
    exact absurd (List.head_eq_of_cons_eq hname) (by decide)
  index_not_output p hp := by
    rw [placeOf, hplans p hp, hcwd]
    show ¬ Index.place? _ _ = some _
    rcases List.mem_pair.mp htarget with rfl | rfl <;> decide
  index_free place hplace ending hending := by
    obtain rfl : ["index"] = place := Option.some.inj hplace
    rintro (⟨path, ⟨p, hp, rfl⟩, hway⟩ | ⟨scratch, hscratch, hway⟩)
    · rw [hplans p hp, hcwd] at hway
      revert hway ending
      rcases List.mem_pair.mp htarget with rfl | rfl <;> decide
    · have hshort := hscratch.passes hway
      clear hway
      revert hshort ending
      decide
  overrides path hpath := nomatch hpath

theorem isApart_foe (c : FoeCourse) : c.IsApart :=
  isApart_of_target c rfl (isNamed_foe c) isTree (lacks_inScratch_of_forall (by decide))
    (by decide) fun _ => target_foe c

end Sample

open Sample in
/-- An extraction that is repeated fails, although nothing failed the first time and nothing was
mended, if its index lies among the bundles and is called like one. -/
theorem exists_failed_rerun :
    (extraction "/b/x.ab").config.force = false ∧ (Toolchain.inProcess : Toolchain Unit).IsTruthful ∧
    ∃ c : (extraction "/b/x.ab").Course Toolchain.inProcess (requirements 1) start,
      c.IsNamed ∧ c.report.failed = 0 ∧ c.attempts = [] ∧ c.report.reconciled.resolved = [] ∧
      ∃ stop w', (extraction "/b/x.ab").run Toolchain.inProcess (requirements 1) c.final =
        (.error stop, w') := by
  obtain ⟨hprepare, hrun, hagain⟩ :
      ((extraction "/b/x.ab").prepare (requirements 1)
        start.disk).1.toOption.any hasNames = true ∧
      ((extraction "/b/x.ab").run Toolchain.inProcess (requirements 1)
        start).1.toOption.any (fun r => r.1.failed == 0 && r.1.reconciled == {}) = true ∧
      ((extraction "/b/x.ab").run Toolchain.inProcess (requirements 1)
        ((extraction "/b/x.ab").run Toolchain.inProcess (requirements 1)
          start).2).1.toOption.isNone = true := by
    decide +kernel
  obtain ⟨c, hend⟩ := exists_course_of_any
    (P := fun r => r.failed == 0 && r.reconciled == {}) hrun
  rw [Bool.and_eq_true, beq_iff_eq, beq_iff_eq] at hend
  obtain ⟨hfailed, hreconciled⟩ := hend
  have hnone : c.attempts = [] := by
    -- nothing is left over and nothing was mended
    obtain ⟨opacity, hattempts, -⟩ := c.exists_opacity
    have htargets := c.unresolved_eq
    rw [show c.reconciled = {} from hreconciled, eq_comm, List.filter_eq_self.mpr] at htargets
    · rw [← List.map_eq_nil_iff (f := Prod.fst), Reconciliation.map_fst_of_tryAll hattempts]
      exact htargets
    · intro output _
      rfl
  rw [c.run_eq] at hagain
  refine ⟨rfl, Toolchain.isTruthful_inProcess Unit, c, isNamed_of_hasNames c (c.prepared_of_any hprepare),
    hfailed, hnone, by rw [hreconciled], ?_⟩
  match hresult : (extraction "/b/x.ab").run Toolchain.inProcess (requirements 1) c.final with
  | (.error stop, w') => exact ⟨stop, w', rfl⟩
  | (.ok result, w') =>
      rw [hresult] at hagain
      cases hagain

open Sample in
theorem Course.IsApart.run_again_foe :
    ∃ c : (extraction "/index").Course Toolchain.inProcess (requirements 3) start,
      c.IsApart ∧ c.report.failed = 0 ∧ c.report.reconciled.unresolved = ["a/foe.png"] ∧
      ∃ c' : (extraction "/index").Course Toolchain.inProcess (requirements 3) c.final,
        c'.plans = c.plans ∧ c'.report.written = 0 ∧ c.final.disk.Matches c'.final.disk := by
  obtain ⟨c, hfailed, hreconciled⟩ := exists_foe
  have hapart := isApart_foe c
  obtain ⟨c', -, hplans, -, hwritten, -, -, -, hmatches⟩ :=
    hapart.run_again (Toolchain.isTruthful_inProcess Unit) rfl hfailed
      (fun a ha donor hdonor => by
        rw [attempts_foe c, List.mem_singleton] at ha
        rw [ha] at hdonor
        cases hdonor)
      (fun output houtput => by
        rw [hreconciled] at houtput
        exact absurd houtput List.not_mem_nil)
  exact ⟨c, hapart, hfailed, by rw [hreconciled], c', hplans, hwritten, hmatches⟩

end Extraction

end CharacterArt
