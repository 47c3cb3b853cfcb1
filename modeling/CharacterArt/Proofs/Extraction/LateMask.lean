import CharacterArt.Proofs.Extraction.Unmended

/-!
# Masks that come too late

An output that is found in its place is left as it is, whatever is known of it by then.  If an
extraction could not find its mask, and a later one plans the output with a mask, then the later one
neither merges the two nor looks at the file again: only outputs without a mask are looked at.  The
report of the later extraction says nothing of it.

## Main Results

* `Extraction.Course.mem_planning_of_subject`, `Extraction.Course.exists_subject_iff` — who names an
  output that needs no other mask
* `Extraction.Course.IsApart.exists_of_mem_targets` — an output that lacks a mask is there in the end
* `Extraction.Course.IsApart.found_of_exists` — an output that is there is found and left as it is
* `Extraction.Course.IsApart.passed_over_of_unresolved` — what becomes of an output whose mask comes
  too late
-/

namespace CharacterArt

open Reconciliation (targets outputsIn)

/-- The path of an output does not end with a number. -/
theorem MergeTask.outputPath_ne_append_toString (t : MergeTask) (front : String) (n : Nat) :
    t.outputPath ≠ front ++ toString n := by
  intro heq
  have hlast := congrArg (fun text : String => text.toList.getLast?) heq
  simp only [outputPath, String.toList_append, Nat.toString_eq_repr, Nat.toList_repr] at hlast
  rw [List.getLast?_append_of_ne_nil _ (by decide),
    List.getLast?_append_of_ne_nil _ Nat.toDigits_ne_nil] at hlast
  have hmem : 'g' ∈ Nat.toDigits 10 n := List.mem_of_getLast? hlast.symm
  exact absurd (Nat.isDigit_of_mem_toDigits (by decide) (by decide) hmem) (by decide)

namespace Extraction

variable {σ σ' : Type} {x x' : Extraction} {tools : Toolchain σ} {rs : Requirements} {w : World σ}
  {c : x.Course tools rs w} {p : Plan} {output : String}

/-- What is said of requirements and of missing objects names no output. -/
theorem ne_of_mem_resolution (images : Std.TreeMap PathId Asset) (rs : Requirements) (t : MergeTask)
    {dg : Diagnostic} (h : dg ∈ Resolution.invalidIds rs ++ Resolution.gaps images rs) :
    dg.subject ≠ t.outputPath := by
  intro heq
  rcases List.mem_append.mp h with h | h
  · obtain ⟨r, -, rfl⟩ := List.mem_map.mp h
    exact t.outputPath_ne_append_toString (r.owner ++ "/") r.index.toNat heq.symm
  · obtain ⟨id, -, rfl⟩ := List.mem_map.mp h
    have hnumber : toString id.toInt = t.outputPath := heq
    cases hid : id.toInt with
    | ofNat n =>
        refine t.outputPath_ne_append_toString "" n ?_
        rw [← hnumber, hid, String.empty_append]
        rfl
    | negSucc n =>
        refine t.outputPath_ne_append_toString "-" (n + 1) ?_
        rw [← hnumber, hid]
        rfl

namespace Course

/-! ### Who names an output -/

/-- An output whose mask is known already waits for no other one. -/
theorem outputPath_ne_of_mem_deferred (hp : p ∈ c.plans) (hdeferred : p.deferred = none)
    {o : Deferred} (ho : o ∈ c.deferred) : o.task.outputPath ≠ p.task.outputPath := by
  intro heq
  obtain ⟨q, hq, -, hwaits, htask⟩ := mem_deferredOf.mp ho
  rw [htask] at heq
  rw [c.eq_of_outputPath hq hp heq, hdeferred] at hwaits
  cases hwaits

/-- An output whose mask is known already does not lack one after the first pass. -/
theorem not_mem_lackingAlpha (hp : p ∈ c.plans) (hneeds : p.needsAlpha = false) :
    p.task.outputPath ∉ x.lackingAlpha c.merged.disk c.plans c.main := by
  intro hlacks
  obtain ⟨⟨q, hq, hneeds', heq⟩, -⟩ := mem_lackingAlpha.mp hlacks
  rw [c.eq_of_outputPath hq hp heq, hneeds] at hneeds'
  cases hneeds'

/-- An output whose mask is known already is not mended. -/
theorem not_mem_targets (hp : p ∈ c.plans) (hneeds : p.needsAlpha = false)
    (hdeferred : p.deferred = none) : p.task.outputPath ∉ targets c.diagnostics := by
  rw [diagnostics, targets_troubles c.prepare_eq, List.mem_append, not_or]
  refine ⟨not_mem_lackingAlpha hp hneeds, fun hwaits => ?_⟩
  obtain ⟨dg, hdg, heq⟩ := List.mem_map.mp hwaits
  obtain ⟨o, ho, rfl⟩ := List.mem_map.mp hdg
  exact outputPath_ne_of_mem_deferred hp hdeferred (List.mem_of_mem_filter ho) heq

/-- The second pass merges outputs that wait for others. -/
theorem exists_deferred_of_mem_second {out : TaskOutcome} (h : out ∈ c.second.outcomes) :
    ∃ o ∈ c.deferred, o.task.outputPath = out.output := by
  rw [← show (x.overridePass tools c.deferred c.merged).1 = c.second from
    congrArg Prod.fst c.second_eq] at h
  obtain ⟨t, status, hmem, rfl⟩ := MergePool.mem_outcomes.mp h
  obtain ⟨o, ho, rfl⟩ := List.mem_map.mp (List.of_mem_zip hmem).1
  exact ⟨o, List.mem_of_mem_filter ho, rfl⟩

/-- **Who names an output that needs no other mask** before anything is mended: if its own task ended
well, it is named only where it was planned. -/
theorem mem_planning_of_subject (hp : p ∈ c.plans) (hneeds : p.needsAlpha = false)
    (hdeferred : p.deferred = none)
    (hsuccess : ∀ out ∈ c.main.outcomes, out.output = p.task.outputPath → out.status.isSuccess = true)
    {dg : Diagnostic} (h : dg ∈ c.diagnostics) (hsubject : dg.subject = p.task.outputPath) :
    dg ∈ c.prepared.planning.diagnostics := by
  obtain ⟨-, -, -, -, images, hresolution⟩ := exists_sources_of_prepare c.prepare_eq
  rw [diagnostics, troubles, hresolution] at h
  simp only [List.mem_append, or_assoc] at h
  rcases h with h | h | h | h | h | h | h
  · exact absurd hsubject (ne_of_mem_resolution images rs p.task (List.mem_append_left _ h))
  · exact absurd hsubject (ne_of_mem_resolution images rs p.task (List.mem_append_right _ h))
  · exact h
  · -- its own task ended well
    obtain ⟨out, hout, hfailure⟩ := List.mem_filterMap.mp h
    unfold ExtractionReport.failureOf? at hfailure
    have hstatus := hsuccess out hout
    split at hfailure
    · cases hfailure
    · cases hfailure
    · next hfailed =>
        cases hfailure
        rw [hfailed] at hstatus
        cases hstatus hsubject
    · next hlate =>
        cases hfailure
        rw [hlate] at hstatus
        cases hstatus hsubject
  · obtain ⟨other, hlacks, rfl⟩ := List.mem_map.mp h
    obtain rfl : other = p.task.outputPath := hsubject
    exact absurd hlacks (not_mem_lackingAlpha hp hneeds)
  · obtain ⟨o, ho, rfl⟩ := List.mem_map.mp h
    exact absurd hsubject (outputPath_ne_of_mem_deferred hp hdeferred (List.mem_of_mem_filter ho))
  · -- the second pass merges only outputs that wait for others
    obtain ⟨out, hout, rfl⟩ := List.mem_map.mp h
    obtain ⟨o, ho, heq⟩ := exists_deferred_of_mem_second (List.mem_of_mem_filter hout)
    exact absurd (heq.trans hsubject) (outputPath_ne_of_mem_deferred hp hdeferred ho)

/-- **Who names an output that needs no other mask** in the report: the planning, or the walk in the
end if no result key points to it. -/
theorem exists_subject_iff (hp : p ∈ c.plans) (hneeds : p.needsAlpha = false)
    (hdeferred : p.deferred = none)
    (hsuccess : ∀ out ∈ c.main.outcomes, out.output = p.task.outputPath →
      out.status.isSuccess = true) :
    (∃ dg ∈ c.report.diagnostics, dg.subject = p.task.outputPath) ↔
      (∃ dg ∈ c.prepared.planning.diagnostics, dg.subject = p.task.outputPath) ∨
        (∃ o ∈ outputsIn c.final.disk x.outputDir, o.relative = p.task.outputPath) ∧
          p.task.outputPath ∉ c.report.images.toList.map Prod.snd := by
  constructor
  · rintro ⟨dg, hdg, hsubject⟩
    rcases List.mem_append.mp hdg with hdg | hdg
    · rw [withoutMended, Diagnostics.takeWhere, List.partition_eq_filter_filter] at hdg
      exact .inl ⟨dg, mem_planning_of_subject hp hneeds hdeferred hsuccess
        (List.mem_of_mem_filter hdg) hsubject, hsubject⟩
    · obtain ⟨o, ho, rfl⟩ := List.mem_map.mp hdg
      obtain ⟨ho, hunreferenced⟩ := List.mem_filter.mp ho
      obtain hsubject : o.relative = p.task.outputPath := hsubject
      rw [Bool.not_eq_true', ← Bool.not_eq_true, List.contains_iff_mem, hsubject] at hunreferenced
      exact .inr ⟨⟨o, ho, hsubject⟩, hunreferenced⟩
  · rintro (⟨dg, hdg, hsubject⟩ | ⟨⟨o, ho, hrelative⟩, hunreferenced⟩)
    · obtain ⟨s, -, hsound⟩ := c.exists_sound
      have hkind := hsound.kind_eq dg hdg
      refine ⟨dg, mem_report ?_ (fun halpha => ?_), hsubject⟩
      · exact List.mem_append_left _ (List.mem_append_left _ (List.mem_append_left _
          (List.mem_append_left _ (List.mem_append_right _ hdg))))
      · rw [hkind] at halpha
        cases halpha
    · refine ⟨_, List.mem_append_right _ (List.mem_map_of_mem (List.mem_filter.mpr ⟨ho, ?_⟩)),
        hrelative⟩
      rwa [Bool.not_eq_true', ← Bool.not_eq_true, List.contains_iff_mem, hrelative]

/-! ### Outputs that are there -/

namespace IsApart

/-- **An output that lacks a mask is there in the end**, whatever became of the others. -/
theorem exists_of_mem_targets (h : c.IsApart) (hlacks : output ∈ targets c.diagnostics) :
    c.final.disk.exists? (Path.join x.outputDir output) = true := by
  obtain ⟨p, hp, rfl⟩ := exists_plan_of_mem_targets hlacks
  obtain ⟨out, hout, hsuccess, hpath⟩ := exists_outcome_of_mem_targets hlacks
  rw [← h.target_eq hp]
  exact (h.isOrderly.exists_of_outcome hp hout hsuccess hpath).2.1

/-- **An output that is there before an extraction is found**, unless merging is forced, and the first
pass leaves it as it is. -/
theorem found_of_exists (h : c.IsApart) (hforce : x.config.force = false) (hp : p ∈ c.plans)
    {n : Node Content} (hn : w.disk.find? (p.task.target x.mergeOptions) = some n) :
    (∀ out ∈ c.main.outcomes, out.output = p.task.outputPath → out.status = .cached) ∧
      c.IsFound p.task.outputPath ∧
      c.merged.disk.find? (p.task.target x.mergeOptions) = some n := by
  have hopened : c.opened.find? (p.task.target x.mergeOptions) = some n :=
    (evolves_prepare c.prepare_eq).find?_eq (fun _ _ => id) (h.index_not_output p hp) hn
  have hthere : c.opened.exists? (p.task.target x.mergeOptions) = true := by
    rw [Disk.exists?, hopened]
    rfl
  obtain ⟨hevolves, houtcomes⟩ := MergePool.runInOrder_of_found h.tidy hforce
    (fun t ht => avoids_opened h.avoids _ (c.isTarget_of_mem_tasks t ht)) h.scratch c.main_eq
  have hcached : ∀ out ∈ c.main.outcomes, out.output = p.task.outputPath → out.status = .cached := by
    intro out hout heq
    obtain ⟨t, ht, hpath, hfound⟩ := houtcomes out hout
    obtain ⟨q, hq, rfl⟩ := List.mem_map.mp ht
    obtain rfl := c.eq_of_outputPath hq hp (hpath.trans heq)
    exact hfound hthere
  refine ⟨hcached, ?_, ?_⟩
  · obtain ⟨status, hout⟩ := MergePool.exists_outcome tools x.mergeOptions
      { w with disk := c.opened } (List.mem_map_of_mem (f := Plan.task) hp)
    rw [show (MergePool.runInOrder tools x.mergeOptions (c.plans.map Plan.task)
      { w with disk := c.opened }).1 = c.main from congrArg Prod.fst c.main_eq] at hout
    exact ⟨_, hout, rfl, hcached _ hout rfl⟩
  · refine hevolves.find?_eq (fun _ _ => id) ?_ hopened
    -- what is written was not there, so it is another output
    rintro ⟨path, ⟨hnone, t, ht, rfl⟩, hplace⟩
    obtain ⟨q, hq, rfl⟩ := List.mem_map.mp ht
    have heq := MergeTask.outputPath_eq_of_place (h.isNamed.task hp) (h.isNamed.task hq) hplace
    obtain rfl := c.eq_of_outputPath hp hq heq
    rw [hthere] at hnone
    cases hnone

/-- **An output whose mask comes too late is passed over.**  If an extraction could not find a mask for
an output, and a later one plans the output with a mask, then the later one finds the output in its
place, leaves it as it is and does not mend it.  It names the output exactly if it failed to read
another mask for it, or if the output is found in the end and no result key points to it. -/
theorem passed_over_of_unresolved (h : c.IsApart)
    (hunresolved : output ∈ c.report.reconciled.unresolved)
    {tools' : Toolchain σ'} {rs' : Requirements} {w' : World σ'} {c' : x'.Course tools' rs' w'}
    (h' : c'.IsApart) (hroot : x'.outputDir = x.outputDir) (hforce : x'.config.force = false)
    (huntouched : w'.disk.find? (Path.join x.outputDir output) =
      c.final.disk.find? (Path.join x.outputDir output))
    (hp : p ∈ c'.plans) (hpath : p.task.outputPath = output) {mask : Asset}
    (hmask : p.task.mask = some (.asset mask)) :
    c'.IsFound output ∧
      c'.final.disk.find? (Path.join x.outputDir output) =
        c.final.disk.find? (Path.join x.outputDir output) ∧
      output ∉ c'.report.reconciled.unresolved ∧
      output ∉ c'.report.reconciled.resolved.map Prod.fst ∧
      ((∃ dg ∈ c'.report.diagnostics, dg.subject = output) ↔
        (∃ dg ∈ c'.prepared.planning.diagnostics, dg.subject = output) ∨
          (∃ o ∈ outputsIn c'.final.disk x.outputDir, o.relative = output) ∧
            output ∉ c'.report.images.toList.map Prod.snd) := by
  subst hpath
  obtain ⟨s, -, hfor⟩ := isFor hp
  obtain ⟨hneeds, hdeferred⟩ := hfor.decided.of_mask hmask
  have hthere := h.exists_of_mem_targets (c.mem_targets_iff.mpr (.inl hunresolved))
  rw [Disk.exists?, Option.isSome_iff_exists] at hthere
  obtain ⟨n, hn⟩ := hthere
  have htarget : p.task.target x'.mergeOptions = Path.join x.outputDir p.task.outputPath := by
    rw [h'.target_eq hp, hroot]
  obtain ⟨hcached, hfound, hmerged⟩ := h'.found_of_exists hforce hp (n := n)
    (by rw [htarget, huntouched, hn])
  have hleft := not_mem_targets hp hneeds hdeferred
  have hfinal := h'.find?_final_eq hp hdeferred hleft hmerged
  rw [htarget] at hfinal
  rw [c'.mem_targets_iff, not_or] at hleft
  refine ⟨hfound, hfinal.trans hn.symm, hleft.1, hleft.2, ?_⟩
  rw [exists_subject_iff hp hneeds hdeferred, hroot]
  intro out hout heq
  rw [hcached out hout heq]
  rfl

end IsApart

end Course

/-! ### A bundle that is added later

The first bundle has an opaque texture alone.  Its mask is in a bundle that is added after the first
extraction. -/

namespace Sample

/-- A picture of one pixel through which something shows. -/
def veil : Picture :=
  ⟨1, 1, #[⟨128, 128, 128, 64⟩], rfl⟩

def early : World Unit where
  disk := Corpus.diskWith "b" [("art.ab", [.ofPicture .texture 1 "hero" "" pixel])]
  tools := ()

/-- The bundle with the mask is added. -/
def supply (w : World Unit) : World Unit :=
  { w with disk := w.disk.put ["b", "more.ab"] (.file (.bytes
      (match Bundle.encode [.ofPicture .texture 2 "hero_alpha" "" veil] with
        | .ok bytes => bytes
        | .error _ => []))) }

/-- The files after the first extraction, with the new bundle. -/
def late : World Unit :=
  supply ((extraction "/index").run Toolchain.inProcess (requirements 1) early).2

/-- The extraction of the texture. -/
abbrev HeroCourse (w : World Unit) : Type :=
  (extraction "/index").Course Toolchain.inProcess (requirements 1) w

/-- The picture of a mask that was decoded. -/
def maskPicture? : Option MaskInput → Option Picture
  | some (.asset mask) => some mask.picture
  | _ => none

/-- Whether the texture is the one image that is planned, with a mask of a given picture if any. -/
def plansHero (mask : Option Picture) (p : Prepared) : Bool :=
  hasNames p && p.planning.toList.map (fun plan =>
    (plan.task.target (extraction "/index").mergeOptions, plan.task.outputPath,
      maskPicture? plan.task.mask)) == [("/images/a/hero.png", "a/hero.png", mask)]

/-- All that is asked of the first extraction, in one evaluation. -/
theorem evaluated_early :
    ((extraction "/index").prepare (requirements 1) early.disk).1.toOption.any
      (plansHero none) = true ∧
    (∀ e ∈ early.disk.nodes.toList, early.disk.isRooted e.1 = true) ∧
    (∀ e ∈ early.disk.nodes.toList, e.1.head? = some "tmp" → e.1 = ["tmp"]) ∧
    ((extraction "/index").run Toolchain.inProcess (requirements 1) early).1.toOption.any
      (fun r => r.1.failed == 0 && r.1.reconciled.unresolved == ["a/hero.png"]) = true := by
  decide +kernel

/-- The same for the second one, which runs on what the first one leaves. -/
theorem evaluated_late : late.disk.cwd = [] ∧
    ((extraction "/index").prepare (requirements 1) late.disk).1.toOption.any
      (plansHero (some veil)) = true ∧
    (∀ e ∈ late.disk.nodes.toList, late.disk.isRooted e.1 = true) ∧
    ((extraction "/index").run Toolchain.inProcess (requirements 1) late).1.toOption.any
      (fun r => r.1.failed == 0 && r.1.diagnostics.isEmpty) = true ∧
    (Files.readPicture ((extraction "/index").run Toolchain.inProcess (requirements 1)
      late).2.disk "/images/a/hero.png").toOption.any (· == pixel) = true ∧
    pixel.copyAlpha veil ≠ pixel := by
  decide +kernel

section Hero

variable {w : World Unit} {mask : Option Picture} (c : HeroCourse w)
  (hprepare : ((extraction "/index").prepare (requirements 1)
    w.disk).1.toOption.any (plansHero mask) = true)

include hprepare

theorem map_plans_hero : c.plans.map (fun plan =>
    (plan.task.target (extraction "/index").mergeOptions, plan.task.outputPath,
      maskPicture? plan.task.mask)) = [("/images/a/hero.png", "a/hero.png", mask)] := by
  have hprepared := c.prepared_of_any hprepare
  rw [plansHero, Bool.and_eq_true, beq_iff_eq] at hprepared
  exact hprepared.2

theorem exists_plan_hero : ∃ p ∈ c.plans, p.task.outputPath = "a/hero.png" ∧
    maskPicture? p.task.mask = mask := by
  have hmem : ("/images/a/hero.png", "a/hero.png", mask) ∈ c.plans.map fun plan =>
      (plan.task.target (extraction "/index").mergeOptions, plan.task.outputPath,
        maskPicture? plan.task.mask) := by
    rw [map_plans_hero c hprepare]
    exact List.mem_singleton_self _
  obtain ⟨p, hp, heq⟩ := List.mem_map.mp hmem
  obtain ⟨-, hrest⟩ := Prod.mk.inj heq
  exact ⟨p, hp, Prod.mk.inj hrest⟩

theorem isApart_hero (hcwd : w.disk.cwd = []) (htree : w.disk.IsTree)
    (hbare : w.disk.Lacks InScratch) : c.IsApart := by
  have hprepared := c.prepared_of_any hprepare
  rw [plansHero, Bool.and_eq_true] at hprepared
  have hplans : ∀ p ∈ c.plans,
      p.task.target (extraction "/index").mergeOptions = "/images/a/hero.png" := by
    intro p hp
    have hmem := List.mem_map_of_mem (f := fun plan : Plan =>
      (plan.task.target (extraction "/index").mergeOptions, plan.task.outputPath,
        maskPicture? plan.task.mask)) hp
    rw [map_plans_hero c hprepare] at hmem
    exact congrArg Prod.fst (List.mem_singleton.mp hmem)
  exact isApart_of_target c hcwd (isNamed_of_hasNames c hprepared.1) htree hbare (by decide) hplans

end Hero

/-- The new bundle lies neither in a scratch directory nor where an output lies. -/
theorem node?_supply (w : World Unit) {l : Location} (hl : l ≠ ["b", "more.ab"]) :
    (supply w).disk.node? l = w.disk.node? l := by
  show (w.disk.put _ _).node? l = _
  rw [Disk.node?_put _ (List.cons_ne_nil _ _), if_neg hl.symm]

theorem lacks_supply {w : World Unit} (h : w.disk.Lacks InScratch) :
    (supply w).disk.Lacks InScratch := by
  intro l hl
  rw [node?_supply w, h l hl]
  rintro rfl
  exact absurd hl.head?_eq (by decide)

theorem find?_supply {w : World Unit} (hcwd : w.disk.cwd = []) :
    (supply w).disk.find? "/images/a/hero.png" = w.disk.find? "/images/a/hero.png" := by
  refine Disk.find?_congr rfl fun m hm => node?_supply w ?_
  have hfree : ∀ m ∈ Path.way (Path.start [] "/images/a/hero.png")
      (Path.segments "/images/a/hero.png".toList) ++ [Path.place [] "/images/a/hero.png"],
      m ≠ ["b", "more.ab"] := by
    decide
  rw [hcwd] at hm
  refine hfree m ?_
  rwa [List.mem_append, Path.mem_way, List.mem_singleton]

/-- The first extraction, which finds no mask. -/
theorem exists_early : ∃ c : HeroCourse early, c.IsApart ∧ c.report.failed = 0 ∧
    c.report.reconciled.unresolved = ["a/hero.png"] ∧ supply c.final = late := by
  obtain ⟨hprepare, hrooted, hbare, hrun⟩ := evaluated_early
  obtain ⟨c, hend⟩ := exists_course_of_any (P := fun r => r.failed == 0 &&
    r.reconciled.unresolved == ["a/hero.png"]) hrun
  rw [Bool.and_eq_true, beq_iff_eq, beq_iff_eq] at hend
  refine ⟨c, isApart_hero c hprepare rfl ?_ ?_, hend.1, hend.2, ?_⟩
  · exact Disk.isTree_of_forall rfl hrooted
  · exact lacks_inScratch_of_forall hbare
  · rw [late, c.run_eq]

/-- The second one, which finds it. -/
theorem exists_late {w : World Unit} (hw : w = late) : ∃ c : HeroCourse w, c.report.failed = 0 ∧
    c.report.diagnostics = [] ∧
    Files.readPicture c.final.disk "/images/a/hero.png" = .ok pixel ∧
    ∃ p ∈ c.plans, p.task.outputPath = "a/hero.png" ∧
      ∃ mask, p.task.mask = some (.asset mask) ∧ mask.picture = veil := by
  subst hw
  obtain ⟨-, hprepare, -, hrun, hread, -⟩ := evaluated_late
  obtain ⟨c, hend⟩ := exists_course_of_any (P := fun r => r.failed == 0 &&
    r.diagnostics.isEmpty) hrun
  rw [Bool.and_eq_true, beq_iff_eq, List.isEmpty_iff] at hend
  obtain ⟨p, hp, hpath, hmask⟩ := exists_plan_hero c hprepare
  refine ⟨c, hend.1, hend.2, ?_, p, hp, hpath, ?_⟩
  · obtain ⟨picture, hfound, heq⟩ := exists_eq_ok_of_any hread
    rw [c.run_eq, beq_iff_eq.mp heq] at hfound
    exact hfound
  · unfold maskPicture? at hmask
    split at hmask
    · next mask heq => exact ⟨mask, heq, Option.some.inj hmask⟩
    · cases hmask

theorem isApart_late {w : World Unit} (hw : w = late) (c : HeroCourse w)
    (hbare : w.disk.Lacks InScratch) : c.IsApart := by
  subst hw
  obtain ⟨hcwd, hprepare, hrooted, -⟩ := evaluated_late
  refine isApart_hero c hprepare hcwd (Disk.isTree_of_forall ?_ hrooted) hbare
  rw [hcwd]
  rfl

end Sample

open Sample in
theorem Course.IsApart.passed_over_of_unresolved_hero :
    ∃ c : HeroCourse early, c.IsApart ∧ c.report.reconciled.unresolved = ["a/hero.png"] ∧
      ∃ c' : HeroCourse (supply c.final), c'.IsApart ∧
        (supply c.final).disk.find? "/images/a/hero.png" = c.final.disk.find? "/images/a/hero.png" ∧
        c'.IsFound "a/hero.png" ∧
        c'.final.disk.find? "/images/a/hero.png" = c.final.disk.find? "/images/a/hero.png" ∧
        "a/hero.png" ∉ c'.report.reconciled.unresolved := by
  obtain ⟨c, hapart, -, hunresolved, hsupply⟩ := exists_early
  obtain ⟨c', -, -, -, p, hp, hpath, mask, hmask, -⟩ := exists_late hsupply
  have hapart' := isApart_late hsupply c' (lacks_supply hapart.evolves_mending.2)
  have huntouched := find?_supply hapart.cwd_final
  have hmem : "a/hero.png" ∈ c.report.reconciled.unresolved := by
    rw [hunresolved]
    exact List.mem_singleton_self _
  have hpassed := hapart.passed_over_of_unresolved hmem hapart' rfl rfl huntouched hp hpath hmask
  exact ⟨c, hapart, hunresolved, c', hapart', huntouched, hpassed.1, hpassed.2.1, hpassed.2.2.1⟩

open Sample in
/-- **A mask that becomes available later is ignored**, and nothing says so: the first extraction tells
that an output lacks a mask, the second one plans the output with one, and then it neither merges the
two nor names the output. -/
theorem exists_ignored_mask :
    (extraction "/index").config.force = false ∧
    ∃ c : HeroCourse early, c.report.failed = 0 ∧
      c.report.reconciled.unresolved = ["a/hero.png"] ∧
      (supply c.final).disk.find? "/images/a/hero.png" = c.final.disk.find? "/images/a/hero.png" ∧
      ∃ c' : HeroCourse (supply c.final), c'.report.failed = 0 ∧
        (∃ p ∈ c'.plans, p.task.outputPath = "a/hero.png" ∧
          ∃ mask, p.task.mask = some (.asset mask) ∧ mask.picture = veil) ∧
        Files.readPicture c'.final.disk "/images/a/hero.png" = .ok pixel ∧
        pixel.copyAlpha veil ≠ pixel ∧ c'.report.diagnostics = [] := by
  obtain ⟨-, -, -, -, -, hveiled⟩ := evaluated_late
  obtain ⟨c, hapart, hfailed, hunresolved, hsupply⟩ := exists_early
  obtain ⟨c', hfailed', hdiagnostics, hread, hplan⟩ := exists_late hsupply
  exact ⟨rfl, c, hfailed, hunresolved, find?_supply hapart.cwd_final, c', hfailed', hplan, hread,
    hveiled, hdiagnostics⟩

end Extraction

end CharacterArt
