import CharacterArt.Proofs.Picture
import CharacterArt.Proofs.Reconciliation.Passes

/-!
# Outcomes of a reconciliation

Every output without a mask is mended or not.  It is mended with its nearest variant that counts as
not opaque when its turn comes, and if it is not, then because it is missing, because there is no such
variant, or because the two could not be merged.

## Main Definitions

* `FixedBefore` — outputs that were mended before the pass came to another one
* `Outcome` — what becomes of an output

## Main Results

* `outcome_of_tryAll` — every output has an outcome
* `reconcile_exact` — what a reconciliation reports, and what it leaves behind
-/

namespace CharacterArt

namespace Reconciliation

variable {σ : Type} {tools : Toolchain σ} {outputs : List OutputFile} {s' : State σ} {w : World σ}
  {path : String} {before : List String} {attempt : Attempt} {attempts : List (String × Attempt)}

/-! ### What the report says -/

theorem mem_resolved {name : String} :
    (path, name) ∈ (reportOf (attempts.map resultOf)).resolved ↔ (path, .merged name) ∈ attempts := by
  rw [reportOf, List.filterMap_map, List.mem_filterMap]
  constructor
  · rintro ⟨⟨other, attempt⟩, ha, hresult⟩
    cases attempt with
    | merged donor =>
        cases hresult
        exact ha
    | missing | noDonor | refused donor => cases hresult
  · exact fun ha => ⟨_, ha, rfl⟩

theorem mem_unresolved : path ∈ (reportOf (attempts.map resultOf)).unresolved ↔
    ∃ attempt, (path, attempt) ∈ attempts ∧ attempt.donor? = none := by
  unfold reportOf
  dsimp only
  rw [List.filterMap_map, List.mem_filterMap]
  constructor
  · rintro ⟨⟨other, attempt⟩, ha, hresult⟩
    cases attempt with
    | merged donor => cases hresult
    | missing | noDonor | refused donor =>
        cases hresult
        exact ⟨_, ha, rfl⟩
  · rintro ⟨attempt, ha, hnone⟩
    refine ⟨_, ha, ?_⟩
    simp [resultOf, hnone]

/-- An output was mended before a pass came to another one. -/
def FixedBefore (r : ReconcileReport) (before : List String) (path : String) : Prop :=
  path ∈ before ∧ path ∈ r.resolved.map Prod.fst

/-- What was mended before is what the first part of a pass mended. -/
theorem fixedBefore_iff {first others : List (String × Attempt)} {p : String}
    (hnodup : ((first ++ others).map Prod.fst).Nodup) :
    FixedBefore (reportOf ((first ++ others).map resultOf)) (first.map Prod.fst) p ↔
      p ∈ mendedIn first := by
  rw [FixedBefore, mem_mendedIn]
  constructor
  · rintro ⟨hbefore, hresolved⟩
    obtain ⟨⟨_, name⟩, hmem, rfl⟩ := List.mem_map.mp hresolved
    rcases List.mem_append.mp (mem_resolved.mp hmem) with hfirst | hothers
    · exact ⟨name, hfirst⟩
    · rw [List.map_append] at hnodup
      exact absurd (List.mem_map_of_mem hothers) (List.disjoint_of_nodup_append hnodup hbefore)
  · rintro ⟨name, hname⟩
    exact ⟨List.mem_map_of_mem hname,
      List.mem_map_of_mem (mem_resolved.mpr (List.mem_append_left others hname))⟩

/-- Every output of a pass is either among those that were mended or among the others. -/
theorem perm_report (results : List (String × Option String)) :
    ((reportOf results).resolved.map Prod.fst ++ (reportOf results).unresolved).Perm
      (results.map Prod.fst) := by
  rw [resolved_eq, unresolved_eq, ← List.map_append]
  refine List.Perm.map _ ?_
  simpa only [Option.not_isSome] using List.filter_append_perm (fun r => r.2.isSome) results

/-- What becomes of an output in a pass, and whose alpha it took, if any. -/
inductive Outcome (tools : Toolchain σ) (outputs : List OutputFile) (w w' : World σ)
    (r : ReconcileReport) (before : List String) (path : String) : Option String → Prop where
  /-- It was joined to the donor that was found.  The output was as in the beginning; the donor was
  as it is in the end if it was mended before, and as in the beginning otherwise. -/
  | mended {target donor : OutputFile} {s : State σ} (htarget : target ∈ outputs)
      (hpath : target.relative = path)
      (hdonor : IsDonor (Counts tools outputs w (before ++ [path]) (FixedBefore r before)) outputs
        target donor)
      (hfinds : Finds tools outputs w before target donor s)
      (htakes : Takes tools target.path donor.path s.world w')
      (hown : s.world.disk.read target.path = w.disk.read target.path)
      (hlate : FixedBefore r before donor.relative →
        s.world.disk.read donor.path = w'.disk.read donor.path)
      (hearly : ¬ FixedBefore r before donor.relative →
        s.world.disk.read donor.path = w.disk.read donor.path) :
      Outcome tools outputs w w' r before path (some donor.relative)
  | missing (h : ∀ o ∈ outputs, o.relative ≠ path) : Outcome tools outputs w w' r before path none
  | noDonor {target : OutputFile} (htarget : target ∈ outputs) (hpath : target.relative = path)
      (h : ∀ o ∈ outputs, o.relative ≠ path → o.key = target.key →
        Counts tools outputs w (before ++ [path]) (FixedBefore r before) o true) :
      Outcome tools outputs w w' r before path none
  | refused {target donor : OutputFile} {s : State σ} {v : World σ} {e : Error}
      (htarget : target ∈ outputs) (hpath : target.relative = path)
      (hdonor : IsDonor (Counts tools outputs w (before ++ [path]) (FixedBefore r before)) outputs
        target donor)
      (hfinds : Finds tools outputs w before target donor s)
      (hmerge : (mergeInPlace tools scratch target.path donor.path).run.run s.world =
        (.error (.failed e), v)) :
      Outcome tools outputs w w' r before path none

/-- What a merge makes of an output is read in the end, and so is its donor, unless it is their turn
again. -/
theorem read_after_merge (htidy : tools.Tidy) {target donor : OutputFile} {s : State σ} {w' : World σ}
    {opacity : Std.TreeMap String Bool} {after : List String}
    (hstanding : Standing outputs s.world.disk) (hlacks : s.world.disk.Lacks InScratch)
    (htarget : target ∈ outputs) (hdonor : donor ∈ outputs)
    (hdiffers : donor.relative ≠ target.relative)
    (hmerge : (mergeInPlace tools scratch target.path donor.path).run.run s.world = (.ok (), w'))
    (hafter : (tryAll tools outputs after).run.run ⟨w', opacity⟩ = (.ok attempts, s')) :
    (target.relative ∉ after → s'.world.disk.read target.path = w'.disk.read target.path) ∧
    (donor.relative ∉ after → s'.world.disk.read donor.path = s.world.disk.read donor.path) := by
  obtain ⟨hmerged, hlacks'⟩ := evolves_mergeInPlace htidy hlacks (hstanding.avoids hlacks htarget)
    hmerge
  have hstanding' : Standing outputs w'.disk := hstanding.evolves hmerged
  have hlater := (evolves_tryAll htidy hstanding' hlacks' hafter).1
  refine ⟨read_eq_of_among hstanding' hlater htarget, fun hnot => ?_⟩
  have hother : w'.disk.read donor.path = s.world.disk.read donor.path := by
    refine hstanding.read_eq hmerged hdonor ?_
    rintro other rfl heq
    exact hdiffers (congrArg _ (hstanding.eq_of_place target htarget donor hdonor heq).symm)
  exact (read_eq_of_among hstanding' hlater hdonor hnot).trans hother

/-- **Every output of a pass has an outcome.** -/
theorem outcome_of_tryAll (htidy : tools.Tidy) (hstanding : Standing outputs w.disk)
    (hlacks : w.disk.Lacks InScratch) {after : List String}
    (hnodup : (before ++ path :: after).Nodup)
    (hrun : (tryAll tools outputs (before ++ path :: after)).run.run ⟨w, ∅⟩ = (.ok attempts, s')) :
    ∃ attempt, (path, attempt) ∈ attempts ∧ Outcome tools outputs w s'.world
      (reportOf (attempts.map resultOf)) before path attempt.donor? := by
  have hpaths := map_fst_of_tryAll hrun
  obtain ⟨first, start, attempt, middle, others, hfirst, hattempted, hothers, rfl⟩ :=
    exists_attempt_of_tryAll hrun
  refine ⟨attempt, List.mem_append_right _ List.mem_cons_self, ?_⟩
  have hreaches : Reaches tools outputs w before start := ⟨_, mendAll_of_tryAll hfirst⟩
  have hstart := recalls_of_tryAll htidy hstanding hlacks hfirst
  have hmended : (· ∈ mendedIn first) =
      FixedBefore (reportOf ((first ++ (path, attempt) :: others).map resultOf)) before := by
    funext p
    rw [← map_fst_of_tryAll hfirst, fixedBefore_iff (by rwa [hpaths])]
  obtain ⟨-, hlast, hapart⟩ := List.nodup_append.mp hnodup
  have hbefore : ∀ p, FixedBefore (reportOf ((first ++ (path, attempt) :: others).map resultOf))
      before p → p ∉ path :: after := fun p hp hmem => hapart p hp.1 p hmem rfl
  cases hattempted with
  | missing h => exact .missing h
  | noDonor htarget hpath hfind =>
      subst hpath
      refine .noDonor htarget rfl fun o ho hne hkey => ?_
      rw [← hmended]
      exact (hstart.search htidy hstanding hreaches htarget hfind).counts_of_none htidy hfind ho hne
        hkey
  | @refused target donor middle w' e htarget hpath hfind hmerge =>
      subst hpath
      have hdonor := (hstart.search htidy hstanding hreaches htarget hfind).isDonor htidy hfind
      rw [hmended] at hdonor
      exact .refused htarget rfl hdonor ⟨start, hreaches, hfind⟩ hmerge
  | @merged target donor middle w' htarget hpath hfind hmerge =>
      subst hpath
      have hmiddle := hstart.search htidy hstanding hreaches htarget hfind
      have hdonor := hmiddle.isDonor htidy hfind
      have hplaces := hstanding.evolves hmiddle.evolves
      have htakes := takes_of_merge htidy (hstanding.evolves hstart.evolves) hstart.lacks htarget
        hfind hmerge
      obtain ⟨htaken, hkept⟩ := read_after_merge htidy hplaces hmiddle.lacks htarget hdonor.mem
        hdonor.differs hmerge hothers
      have hresult := htaken (List.nodup_cons.mp hlast).1
      rw [hmended] at hdonor
      refine .mended htarget rfl hdonor ⟨start, hreaches, hfind⟩ (htakes.congr rfl rfl hresult) ?_ ?_
        ?_
      · refine read_eq_of_among hstanding hmiddle.evolves htarget fun hmem => ?_
        exact hbefore _ (hmended ▸ hmem) List.mem_cons_self
      · intro hfixed
        exact (hkept fun hmem => hbefore _ hfixed (List.mem_cons_of_mem _ hmem)).symm
      · intro hnot
        refine read_eq_of_among hstanding hmiddle.evolves hdonor.mem fun hmem => hnot ?_
        exact hmended ▸ hmem

/-- What the report says of an output is its outcome. -/
theorem report_iff (hnodup : (attempts.map Prod.fst).Nodup) (hattempt : (path, attempt) ∈ attempts) :
    (∀ name, (path, name) ∈ (reportOf (attempts.map resultOf)).resolved ↔
      attempt.donor? = some name) ∧
    (path ∈ (reportOf (attempts.map resultOf)).unresolved ↔ attempt.donor? = none) := by
  have hunique : ∀ other, (path, other) ∈ attempts → other = attempt := fun other hother =>
    congrArg Prod.snd (List.inj_on_of_nodup_map hnodup hother hattempt rfl)
  constructor
  · intro name
    rw [mem_resolved]
    constructor
    · intro hmem
      rw [← hunique _ hmem]
      rfl
    · intro hname
      cases attempt with
      | merged donor =>
          cases hname
          exact hattempt
      | missing | noDonor | refused donor => cases hname
  · rw [mem_unresolved]
    constructor
    · rintro ⟨other, hmem, hnone⟩
      rwa [hunique other hmem] at hnone
    · exact fun hnone => ⟨attempt, hattempt, hnone⟩

end Reconciliation

open Reconciliation

variable {σ : Type} {tools : Toolchain σ}

/-- **A reconciliation mends each output with its donor and changes nothing else.**  If the tool
answers it comes to an end, with every output either mended or not.  An output is mended with the
nearest variant that counts as not opaque when its turn comes, and no variant counts as both; it is
not mended only if it is missing, if there is no such variant, or if the two cannot be merged.  No
other file is changed. -/
theorem reconcile_exact (htidy : tools.Tidy) {w : World σ} (htree : w.disk.IsTree)
    (hlacks : w.disk.Lacks InScratch) (root : String) {missing : Diagnostics}
    (hnodup : (targets missing).Nodup) :
    (tools.Answers → ∃ r w', reconcile tools root missing w = (.ok r, w')) ∧
    ∀ r w', reconcile tools root missing w = (.ok r, w') →
      (r.resolved.map Prod.fst ++ r.unresolved).Perm (targets missing) ∧
      (∀ before path after, targets missing = before ++ path :: after →
        (∀ o answer other,
          Counts tools (outputsIn w.disk root) w (before ++ [path]) (FixedBefore r before) o answer →
          Counts tools (outputsIn w.disk root) w (before ++ [path]) (FixedBefore r before) o other →
          answer = other) ∧
        ∃ result, Outcome tools (outputsIn w.disk root) w w' r before path result ∧
          (∀ name, (path, name) ∈ r.resolved ↔ result = some name) ∧
          (path ∈ r.unresolved ↔ result = none)) ∧
      ∀ l, (∀ o ∈ outputsIn w.disk root, o.relative ∈ r.resolved.map Prod.fst →
          l ≠ Path.place w.disk.cwd o.path) →
        ∀ content, w'.disk.node? l = some (.file content) ↔
          w.disk.node? l = some (.file content) := by
  have hstanding : Standing (outputsIn w.disk root) w.disk := standing_outputsIn htree
  constructor
  · intro hanswers
    obtain ⟨attempts, s, hrun⟩ := ends_tryAll hanswers (outputsIn w.disk root) (targets missing)
      ⟨w, ∅⟩
    exact ⟨_, _, reconcile_of_tryAll hrun⟩
  · intro r w' hreconcile
    obtain ⟨attempts, opacity, hrun, rfl⟩ := exists_of_reconcile hreconcile
    have hpaths := map_fst_of_tryAll hrun
    refine ⟨?_, fun before path after hsplit => ?_, fun l hl content => ?_⟩
    · have hresults : (attempts.map resultOf).map Prod.fst = targets missing := by
        rw [List.map_map, ← hpaths]
        rfl
      exact hresults ▸ perm_report (attempts.map resultOf)
    · obtain ⟨attempt, hattempt, houtcome⟩ := outcome_of_tryAll htidy hstanding hlacks
        (hsplit ▸ hnodup) (hsplit ▸ hrun)
      exact ⟨fun o answer other h h' => h.unique htidy hstanding h', attempt.donor?, houtcome,
        report_iff (hpaths ▸ hnodup) hattempt⟩
    · refine (recalls_of_tryAll htidy hstanding hlacks hrun).evolves.file_iff id ?_
      rintro ⟨_, ⟨o, ho, hmended, rfl⟩, rfl⟩
      obtain ⟨name, hname⟩ := mem_mendedIn.mp hmended
      exact hl o ho (List.mem_map_of_mem (mem_resolved.mpr hname)) rfl

/-! ### Two outputs in a chain

The first output takes its alpha from a variant elsewhere, and the second one from the first one, which
is in the same directory. -/

namespace Reconciliation.Sample

/-- A white picture with a hole in one corner. -/
def pierced : Picture :=
  ⟨2, 2, #[⟨255, 255, 255, 255⟩, ⟨255, 255, 255, 0⟩, ⟨255, 255, 255, 255⟩, ⟨255, 255, 255, 255⟩], rfl⟩

/-- Two opaque pictures in one directory, and a variant of them in another one. -/
def chain : World Unit where
  disk := (((((({} : Files).put ["out"] .directory).put ["out", "x"] .directory).put
    ["out", "x", "pic_1.png"] (.file (.picture (.ofPixel ⟨16, 32, 48, 255⟩)))).put
    ["out", "x", "pic_2.png"] (.file (.picture (.ofPixel ⟨64, 80, 96, 255⟩)))).put
    ["out", "y"] .directory).put ["out", "y", "pic.png"] (.file (.picture pierced))
  tools := ()

/-- The opaque pictures have no mask, and neither has an output that is not there. -/
def chainMissing : Diagnostics :=
  ["x/pic_1.png", "gone.png", "x/pic_2.png"].map fun output => ⟨.alphaNotFound, output, ""⟩

def chainReport : ReconcileReport :=
  ⟨[("x/pic_1.png", "y/pic.png"), ("x/pic_2.png", "x/pic_1.png")], ["gone.png"]⟩

theorem targets_chain : targets chainMissing = ["x/pic_1.png", "gone.png", "x/pic_2.png"] := by
  decide

theorem evaluated_chain :
    (reconcile Toolchain.inProcess "/out" chainMissing chain).1.toOption.any (· == chainReport) =
      true := by
  simp only [reconcile, targets_chain, mendAll, mendTarget, candidates_eq_insertionSort]
  decide +kernel

theorem evaluated_nodes : ∀ e ∈ chain.disk.nodes.toList,
    chain.disk.isRooted e.1 = true ∧ (e.1.head? = some "tmp" → e.1 = ["tmp"]) := by
  decide +kernel

theorem isTree_chain : chain.disk.IsTree :=
  Disk.isTree_of_forall rfl fun e he => (evaluated_nodes e he).1

theorem lacks_chain : chain.disk.Lacks InScratch :=
  lacks_inScratch_of_forall fun e he => (evaluated_nodes e he).2

/-- The second output has the alpha of the first one, and their variant is as it was. -/
theorem reconcile_exact_chain : (Toolchain.inProcess : Toolchain Unit).Tidy ∧
    (Toolchain.inProcess : Toolchain Unit).Answers ∧ chain.disk.IsTree ∧
    chain.disk.Lacks InScratch ∧ (targets chainMissing).Nodup ∧
    ∃ w', reconcile Toolchain.inProcess "/out" chainMissing chain = (.ok chainReport, w') ∧
      Outcome Toolchain.inProcess (outputsIn chain.disk "/out") chain w' chainReport
        ["x/pic_1.png", "gone.png"] "x/pic_2.png" (some "x/pic_1.png") ∧
      w'.disk.node? ["out", "y", "pic.png"] = some (.file (.picture pierced)) := by
  have hnodup : (targets chainMissing).Nodup := by decide
  refine ⟨Toolchain.tidy_inProcess Unit, Toolchain.answers_inProcess Unit, isTree_chain, lacks_chain,
    hnodup, ?_⟩
  obtain ⟨hends, hexact⟩ := reconcile_exact (Toolchain.tidy_inProcess Unit) isTree_chain lacks_chain
    "/out" hnodup
  obtain ⟨r, w', hrun⟩ := hends (Toolchain.answers_inProcess Unit)
  obtain ⟨r', hr', heq⟩ := exists_eq_ok_of_any evaluated_chain
  rw [hrun] at hr'
  cases hr'
  obtain rfl := beq_iff_eq.mp heq
  obtain ⟨-, houtcomes, hframe⟩ := hexact _ _ hrun
  refine ⟨w', hrun, ?_, (hframe ["out", "y", "pic.png"] (by decide +kernel) _).mpr rfl⟩
  obtain ⟨-, result, houtcome, hresolved, -⟩ := houtcomes ["x/pic_1.png", "gone.png"]
    "x/pic_2.png" [] targets_chain
  rwa [(hresolved "x/pic_1.png").mp (by decide)] at houtcome

end Reconciliation.Sample

end CharacterArt
