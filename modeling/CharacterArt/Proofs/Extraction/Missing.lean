import CharacterArt.Proofs.Extraction.Outputs
import CharacterArt.Proofs.Reconciliation.Attempts

/-!
# Missing masks

An output lacks a mask after the first pass if no mask is known for it, or in the second pass if the
output that serves as its mask is not there.  These outputs, each once, are what a reconciliation is
asked to mend.

## Main Results

* `Extraction.ofKind_troubles`, `Extraction.targets_troubles` — what tells of missing masks
* `Extraction.mem_lackingAlpha`, `Extraction.mem_deferredOf` — the two kinds of outputs without a mask
* `Extraction.Course.nodup_targets`, `Extraction.Course.exists_plan_of_mem_targets` — the outputs
  that a reconciliation is asked to mend
* `Extraction.Course.exists_outcome_of_mem_targets` — how their tasks ended
* `Extraction.Course.unresolved_eq` — those that it did not mend
-/

namespace CharacterArt

open Reconciliation (targets)

namespace ExtractionReport

/-- A key points to an output after it was made one of its keys, or it pointed there before. -/
theorem eq_or_of_foldl_insert {keys : List String} {images : Std.TreeMap String String}
    {output key value : String}
    (h : (keys.foldl (fun images key => images.insert key output) images)[key]? = some value) :
    value = output ∨ images[key]? = some value := by
  induction keys generalizing images with
  | nil => exact .inr h
  | cons first rest ih =>
      rcases ih h with heq | hfound
      · exact .inl heq
      · rw [Std.TreeMap.getElem?_insert] at hfound
        split at hfound
        · exact .inl (Option.some.inj hfound).symm
        · exact .inr hfound

/-- A result key points to the output of a task that ended well. -/
theorem exists_of_getElem?_imagesOf {outcomes : List TaskOutcome} {key output : String}
    (h : (imagesOf outcomes)[key]? = some output) :
    ∃ out ∈ outcomes, out.status.isSuccess = true ∧ out.output = output := by
  induction outcomes using List.reverseRecOn with
  | nil => simp [imagesOf] at h
  | append_singleton others last ih =>
      have hbefore : (imagesOf others)[key]? = some output →
          ∃ out ∈ others ++ [last], out.status.isSuccess = true ∧ out.output = output := by
        intro hfound
        obtain ⟨out, hout, hend⟩ := ih hfound
        exact ⟨out, List.mem_append_left _ hout, hend⟩
      rw [imagesOf, List.filter_append, List.filter_singleton, List.foldl_append] at h
      cases hlast : last.status.isSuccess with
      | true =>
          rw [hlast] at h
          rcases eq_or_of_foldl_insert h with heq | hfound
          · exact ⟨last, List.mem_concat_self, hlast, heq.symm⟩
          · exact hbefore hfound
      | false =>
          rw [hlast] at h
          exact hbefore h

end ExtractionReport

namespace Extraction

variable {σ : Type} {x : Extraction} {tools : Toolchain σ} {rs : Requirements} {w : World σ}

/-- The outputs that a pass wrote are those of its outcomes. -/
theorem mem_writtenBy {r : DrainReport} {output : String} :
    output ∈ writtenBy r ↔ ∃ out ∈ r.outcomes, out.output = output ∧ out.status = .written := by
  simp only [writtenBy, List.mem_map, List.mem_filter, beq_iff_eq]
  constructor
  · rintro ⟨out, ⟨hout, hstatus⟩, rfl⟩
    exact ⟨out, hout, rfl, hstatus⟩
  · rintro ⟨out, hout, rfl, hstatus⟩
    exact ⟨out, ⟨hout, hstatus⟩, rfl⟩

/-- The missing masks are those that were missing after the first pass and in the second one. -/
theorem ofKind_troubles {d opened merged : Files} {p : Prepared} (h : x.prepare rs d = (.ok p, opened))
    (main second : DrainReport) :
    Diagnostics.ofKind (x.troubles p main merged second) .alphaNotFound =
      ((x.lackingAlpha merged p.planning.toList main).map fun output =>
        ⟨.alphaNotFound, output, "no alpha mask candidate"⟩) ++
      x.missingMasks merged (deferredOf p.planning.toList (writtenBy main)) := by
  obtain ⟨s, -, hplanning, -, images, hresolution⟩ := exists_sources_of_prepare h
  have hsound := Planning.sound_ofRequirements s rs
  rw [← hplanning] at hsound
  have hnone : ∀ ds : Diagnostics, (∀ d ∈ ds, d.kind ≠ .alphaNotFound) →
      Diagnostics.ofKind ds .alphaNotFound = [] := by
    intro ds hds
    rw [Diagnostics.ofKind, List.filter_eq_nil_iff]
    intro d hd
    simpa using hds d hd
  have hall : ∀ ds : Diagnostics, (∀ d ∈ ds, d.kind = .alphaNotFound) →
      Diagnostics.ofKind ds .alphaNotFound = ds := by
    intro ds hds
    rw [Diagnostics.ofKind, List.filter_eq_self]
    intro d hd
    simpa using hds d hd
  have happend : ∀ ds es : Diagnostics, Diagnostics.ofKind (ds ++ es) .alphaNotFound =
      Diagnostics.ofKind ds .alphaNotFound ++ Diagnostics.ofKind es .alphaNotFound :=
    fun ds es => List.filter_append ..
  unfold troubles
  simp only [happend]
  -- of the six sources of diagnostics two tell of missing masks
  rw [hnone p.resolution.diagnostics, hnone p.planning.diagnostics,
    hnone (ExtractionReport.failuresOf main.outcomes), hnone (overrideFailures second),
    hall (List.map _ _), hall (x.missingMasks _ _)]
  · simp only [List.nil_append, List.append_nil]
  · intro d hd
    obtain ⟨o, -, rfl⟩ := List.mem_map.mp hd
    rfl
  · intro d hd
    obtain ⟨o, -, rfl⟩ := List.mem_map.mp hd
    rfl
  · intro d hd
    obtain ⟨o, -, rfl⟩ := List.mem_map.mp hd
    exact nofun
  · intro d hd
    obtain ⟨out, -, hfailure⟩ := List.mem_filterMap.mp hd
    unfold ExtractionReport.failureOf? at hfailure
    split at hfailure <;> cases hfailure <;> exact nofun
  · intro d hd
    rw [hsound.kind_eq d hd]
    exact nofun
  · intro d hd
    rw [hresolution, List.mem_append] at hd
    rcases hd with hd | hd <;> (obtain ⟨_, -, rfl⟩ := List.mem_map.mp hd; exact nofun)

/-- **The outputs whose masks are missing** after the first pass, and in the second one. -/
theorem targets_troubles {d opened merged : Files} {p : Prepared}
    (h : x.prepare rs d = (.ok p, opened)) (main second : DrainReport) :
    targets (x.troubles p main merged second) = x.lackingAlpha merged p.planning.toList main ++
      (x.missingMasks merged (deferredOf p.planning.toList (writtenBy main))).map
        Diagnostic.subject := by
  rw [targets, ofKind_troubles h, List.map_append, List.map_map]
  exact congrArg (· ++ _) (List.map_id _)

/-- Whether an output is opaque is read off its file. -/
theorem isOpaqueOutput_congr {d d' : Files} {output : String}
    (h : d'.read (Path.join x.outputDir output) = d.read (Path.join x.outputDir output)) :
    x.isOpaqueOutput d' output = x.isOpaqueOutput d output := by
  unfold isOpaqueOutput Files.readPicture Files.inspectPicture
  rw [h]

/-- An output is lacking alpha after the first pass. -/
theorem mem_lackingAlpha {d : Files} {plans : List Plan} {r : DrainReport} {output : String} :
    output ∈ x.lackingAlpha d plans r ↔
      (∃ p ∈ plans, p.needsAlpha = true ∧ p.task.outputPath = output) ∧
        (output ∈ writtenBy r ∨
          output ∈ (ExtractionReport.imagesOf r.outcomes).toList.map Prod.snd ∧
            x.isOpaqueOutput d output = true) := by
  simp only [lackingAlpha, List.mem_filter, List.mem_map, Bool.or_eq_true, Bool.and_eq_true,
    List.contains_iff_mem, and_assoc]

/-- An output waits for another one after the first pass. -/
theorem mem_deferredOf {plans : List Plan} {written : List String} {o : Deferred} :
    o ∈ deferredOf plans written ↔
      ∃ p ∈ plans, p.task.outputPath ∈ written ∧ p.deferred = some o.mask ∧ o.task = p.task := by
  simp only [deferredOf, List.mem_filterMap, Option.ite_none_right_eq_some,
    List.contains_iff_mem, Option.map_eq_some_iff]
  constructor
  · rintro ⟨p, hp, hwritten, mask, hmask, rfl⟩
    exact ⟨p, hp, hwritten, hmask, rfl⟩
  · rintro ⟨p, hp, hwritten, hmask, htask⟩
    exact ⟨p, hp, hwritten, o.mask, hmask, by rw [← htask]⟩

namespace Course

/-- No two outputs that wait for others are one. -/
theorem nodup_deferred (c : x.Course tools rs w) :
    (c.deferred.map fun o => o.task.outputPath).Nodup := by
  refine List.pairwise_map.mpr ((List.pairwise_map.mp c.nodup_outputs).filterMap _ ?_)
  intro p q hne o ho o' ho'
  rw [Option.ite_none_right_eq_some, Option.map_eq_some_iff] at ho ho'
  obtain ⟨-, _, -, rfl⟩ := ho
  obtain ⟨-, _, -, rfl⟩ := ho'
  exact hne

/-- **No missing mask is told twice.** -/
theorem nodup_targets (c : x.Course tools rs w) : (targets c.diagnostics).Nodup := by
  have hlacking : ((c.plans.filter Plan.needsAlpha).map fun p => p.task.outputPath).Nodup :=
    c.nodup_outputs.sublist (List.filter_sublist.map _)
  rw [diagnostics, targets_troubles c.prepare_eq]
  refine List.nodup_append.mpr ⟨hlacking.filter _, ?_, ?_⟩
  · rw [missingMasks, List.map_map]
    exact c.nodup_deferred.sublist (List.filter_sublist.map _)
  · -- an output that needs alpha waits for no other one
    rintro output hlacks other hwaits rfl
    obtain ⟨⟨p, hp, hneeds, rfl⟩, -⟩ := mem_lackingAlpha.mp hlacks
    obtain ⟨d, hd, heq⟩ := List.mem_map.mp hwaits
    obtain ⟨o, ho, rfl⟩ := List.mem_map.mp hd
    obtain ⟨q, hq, -, hmask, htask⟩ := mem_deferredOf.mp (List.mem_of_mem_filter ho)
    obtain rfl : q = p := c.eq_of_outputPath hq hp (by rw [← htask]; exact heq)
    obtain ⟨s, -, hfor⟩ := isFor hp
    rw [hfor.decided.deferred_eq_none hneeds] at hmask
    cases hmask

/-- The results of mending are those of the missing masks. -/
theorem exists_results (c : x.Course tools rs w) : ∃ results : List (String × Option String),
    results.map Prod.fst = targets c.diagnostics ∧
      c.reconciled = Reconciliation.reportOf results := by
  obtain ⟨attempts, opacity, hattempts, hreport⟩ :=
    Reconciliation.exists_of_reconcile c.reconcile_eq
  refine ⟨attempts.map Reconciliation.resultOf, ?_, hreport⟩
  have hpaths := Reconciliation.map_fst_of_tryAll hattempts
  rw [List.map_map]
  exact hpaths

/-- **The outputs that were not mended are those whose masks are missing, without the mended
ones.** -/
theorem unresolved_eq (c : x.Course tools rs w) :
    c.reconciled.unresolved = (targets c.diagnostics).filter fun output =>
      !(c.reconciled.resolved.map Prod.fst).contains output := by
  obtain ⟨results, hresults, hreport⟩ := c.exists_results
  rw [hreport, ← hresults]
  refine Reconciliation.unresolved_eq_filter ?_
  rw [hresults]
  exact c.nodup_targets

/-- Every output whose mask is missing was planned. -/
theorem exists_plan_of_mem_targets {c : x.Course tools rs w} {output : String}
    (h : output ∈ targets c.diagnostics) : ∃ p ∈ c.plans, p.task.outputPath = output := by
  rw [diagnostics, targets_troubles c.prepare_eq, List.mem_append] at h
  rcases h with h | h
  · obtain ⟨⟨p, hp, -, hpath⟩, -⟩ := mem_lackingAlpha.mp h
    exact ⟨p, hp, hpath⟩
  · obtain ⟨d, hd, rfl⟩ := List.mem_map.mp h
    obtain ⟨o, ho, rfl⟩ := List.mem_map.mp hd
    obtain ⟨p, hp, -, -, htask⟩ := mem_deferredOf.mp (List.mem_of_mem_filter ho)
    exact ⟨p, hp, by rw [← htask]⟩

/-- The task of every output whose mask is missing ended well in the first pass. -/
theorem exists_outcome_of_mem_targets {c : x.Course tools rs w} {output : String}
    (h : output ∈ targets c.diagnostics) :
    ∃ out ∈ c.main.outcomes, out.status.isSuccess = true ∧ out.output = output := by
  have hwritten : ∀ {path}, path ∈ writtenBy c.main →
      ∃ out ∈ c.main.outcomes, out.status.isSuccess = true ∧ out.output = path := by
    intro path hpath
    obtain ⟨out, hout, houtput, hstatus⟩ := mem_writtenBy.mp hpath
    exact ⟨out, hout, by rw [hstatus]; rfl, houtput⟩
  rw [diagnostics, targets_troubles c.prepare_eq, List.mem_append] at h
  rcases h with h | h
  · obtain ⟨-, hpath | ⟨hpresent, -⟩⟩ := mem_lackingAlpha.mp h
    · exact hwritten hpath
    · obtain ⟨⟨key, value⟩, hmem, rfl⟩ := List.mem_map.mp hpresent
      exact ExtractionReport.exists_of_getElem?_imagesOf
        (Std.TreeMap.mem_toList_iff_getElem?_eq_some.mp hmem)
  · obtain ⟨dg, hdg, rfl⟩ := List.mem_map.mp h
    obtain ⟨o, ho, rfl⟩ := List.mem_map.mp hdg
    obtain ⟨q, -, hpath, -, htask⟩ := mem_deferredOf.mp (List.mem_of_mem_filter ho)
    rw [← htask] at hpath
    exact hwritten hpath

end Course

end Extraction

end CharacterArt
