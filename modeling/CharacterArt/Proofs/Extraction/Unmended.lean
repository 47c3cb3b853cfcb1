import CharacterArt.Proofs.Extraction.Rerun

/-!
# Missing masks that are told again

An output that lacks a mask is told again when the extraction is repeated, if no mask is known for it
and an image is found under its path: a second extraction looks at the outputs that it finds.  An
output that waits for another one is not looked at again, because only outputs that were written get
their masks in the second pass.

## Main Results

* `Extraction.Course.IsApart.mem_targets_again` — the outputs that a second extraction tries to mend
* `Extraction.Course.IsApart.unresolved_again_iff` — which missing masks are told again
-/

namespace CharacterArt

open MergePool (reportOfFound)
open Reconciliation (targets)

namespace Extraction

variable {σ : Type} {x : Extraction} {tools : Toolchain σ} {rs : Requirements} {w : World σ}
  {c : x.Course tools rs w}

namespace Course

/-- **Every output that lacks a mask is mended or left over.** -/
theorem mem_targets_iff (c : x.Course tools rs w) {output : String} :
    output ∈ targets c.diagnostics ↔ output ∈ c.reconciled.unresolved ∨
      output ∈ c.reconciled.resolved.map Prod.fst := by
  obtain ⟨results, hresults, hreport⟩ := c.exists_results
  rw [c.unresolved_eq, List.mem_filter, Bool.not_eq_true', ← Bool.not_eq_true,
    List.contains_iff_mem]
  constructor
  · intro hmem
    by_cases hmended : output ∈ c.reconciled.resolved.map Prod.fst
    · exact .inr hmended
    · exact .inl ⟨hmem, hmended⟩
  · rintro (⟨hmem, -⟩ | hmended)
    · exact hmem
    · rw [hreport, Reconciliation.resolved_eq] at hmended
      obtain ⟨result, hresult, rfl⟩ := List.mem_map.mp hmended
      rw [← hresults]
      exact List.mem_map_of_mem (List.mem_of_mem_filter hresult)

/-- **The outputs that a second extraction tries to mend** are those that no mask is known for, that
a result key points to, and that are opaque. -/
theorem IsApart.mem_targets_again (h : c.IsApart) (hforce : x.config.force = false)
    (hfailed : c.report.failed = 0) (c' : x.Course tools rs c.final) {output : String} :
    output ∈ targets c'.diagnostics ↔
      (∃ p ∈ c.plans, p.needsAlpha = true ∧ p.task.outputPath = output) ∧
        output ∈ c.report.images.toList.map Prod.snd ∧
          x.isOpaqueOutput c.final.disk output = true := by
  have hsuccess := success_of_failed hfailed
  obtain ⟨p', d, hprepare, -, hmatches, hmain, hdeferred, hmissing⟩ :=
    h.exists_phases_again hsuccess hforce
  -- the second extraction went through these phases
  obtain ⟨hprepared, hopened⟩ := Prod.mk.inj (c'.prepare_eq.symm.trans hprepare)
  replace hprepared : c'.prepared = p' := Except.ok.inj hprepared
  have hfirst := c'.main_eq
  rw [hprepared, hopened, hmain, Prod.mk.injEq] at hfirst
  obtain ⟨hfound, hmerged⟩ := hfirst
  have hsecond := c'.second_eq
  rw [hprepared, ← hfound, hdeferred] at hsecond
  replace hsecond : reportOfFound [] = c'.second := congrArg Prod.fst hsecond
  rw [diagnostics, hprepared, ← hfound, ← hmerged, ← hsecond, hmissing,
    mem_lackingAlpha_again hsuccess hmatches]

/-- **A missing mask is told again exactly if no mask is known for the output and a result key points
to it.**  An output that waits for another one, whose mask is just as missing, is not told again,
and neither is one whose images are found elsewhere. -/
theorem IsApart.unresolved_again_iff (h : c.IsApart) (hforce : x.config.force = false)
    (hfailed : c.report.failed = 0) (c' : x.Course tools rs c.final) :
    (Diagnostics.ofKind c'.report.diagnostics .alphaNotFound).map Diagnostic.subject =
        c'.report.reconciled.unresolved ∧
      ∀ output ∈ c.report.reconciled.unresolved, x.isOpaqueOutput c.final.disk output = true →
        ((output ∈ c'.report.reconciled.unresolved ∨
            output ∈ c'.report.reconciled.resolved.map Prod.fst) ↔
          (∃ p ∈ c.plans, p.needsAlpha = true ∧ p.task.outputPath = output) ∧
            output ∈ c.report.images.toList.map Prod.snd) := by
  refine ⟨c'.map_subject_eq_unresolved, fun output _ hsolid => ?_⟩
  show output ∈ c'.reconciled.unresolved ∨ output ∈ c'.reconciled.resolved.map Prod.fst ↔ _
  rw [← mem_targets_iff, h.mem_targets_again hforce hfailed c', and_iff_left hsolid]

end Course

/-! ### A mask that is not told again

One texture, whose mask is an output that nobody asked for. -/

namespace Sample

def waiting : World Unit where
  disk := Corpus.diskWith "b" [("art.ab", [.ofPicture .texture 1 "AR18_N_1" "" pixel])]
  tools := ()

def owned : Requirements :=
  [{ owner := "AR18", index := 0, colorId := 1 }]

end Sample

open Sample in
/-- An opaque output that waits for another one is told to lack a mask, and it is not told again. -/
theorem exists_forgotten_mask :
    (extraction "/index").config.force = false ∧
    ∃ c : (extraction "/index").Course Toolchain.inProcess owned waiting,
      c.report.failed = 0 ∧ "ar18/AR18_N_1.png" ∈ c.report.reconciled.unresolved ∧
      (extraction "/index").isOpaqueOutput c.final.disk "ar18/AR18_N_1.png" = true ∧
      ∃ c' : (extraction "/index").Course Toolchain.inProcess owned c.final,
        c'.report.reconciled.unresolved = [] ∧ c'.report.diagnostics = [] := by
  obtain ⟨hrun, hsolid, hagain⟩ :
      ((extraction "/index").run Toolchain.inProcess owned waiting).1.toOption.any
        (fun r => r.1.failed == 0 &&
          r.1.reconciled.unresolved == ["ar18/AR18_N_1.png"]) = true ∧
      (extraction "/index").isOpaqueOutput ((extraction "/index").run
        Toolchain.inProcess owned waiting).2.disk "ar18/AR18_N_1.png" = true ∧
      ((extraction "/index").run Toolchain.inProcess owned
        ((extraction "/index").run Toolchain.inProcess owned waiting).2).1.toOption.any
          (fun r => r.1.reconciled.unresolved.isEmpty && r.1.diagnostics.isEmpty) = true := by
    decide +kernel
  obtain ⟨c, hend⟩ := exists_course_of_any (P := fun r => r.failed == 0 &&
    r.reconciled.unresolved == ["ar18/AR18_N_1.png"]) hrun
  rw [Bool.and_eq_true, beq_iff_eq, beq_iff_eq] at hend
  rw [c.run_eq] at hsolid hagain
  obtain ⟨c', hend'⟩ := exists_course_of_any (P := fun r => r.reconciled.unresolved.isEmpty &&
    r.diagnostics.isEmpty) hagain
  rw [Bool.and_eq_true, List.isEmpty_iff, List.isEmpty_iff] at hend'
  refine ⟨rfl, c, hend.1, ?_, hsolid, c', hend'⟩
  rw [hend.2]
  exact List.mem_singleton_self _

open Sample in
theorem Course.IsApart.unresolved_again_iff_foe :
    ∃ c : (extraction "/index").Course Toolchain.inProcess (requirements 3) start,
      c.IsApart ∧ c.report.failed = 0 ∧ c.report.reconciled.unresolved = ["a/foe.png"] ∧
      ∃ c' : (extraction "/index").Course Toolchain.inProcess (requirements 3) c.final,
        (("a/foe.png" ∈ c'.report.reconciled.unresolved ∨
            "a/foe.png" ∈ c'.report.reconciled.resolved.map Prod.fst) ↔
          (∃ p ∈ c.plans, p.needsAlpha = true ∧ p.task.outputPath = "a/foe.png") ∧
            "a/foe.png" ∈ c.report.images.toList.map Prod.snd) := by
  obtain ⟨-, hsolid, hagain⟩ := evaluated_again
  obtain ⟨c, hfailed, hreconciled⟩ := exists_foe
  have hunresolved : c.report.reconciled.unresolved = ["a/foe.png"] := by
    rw [hreconciled]
  rw [c.run_eq] at hsolid hagain
  obtain ⟨c', -⟩ := exists_course_of_any (P := fun _ => true) hagain
  have hapart := isApart_foe c
  obtain ⟨-, htold⟩ := hapart.unresolved_again_iff rfl hfailed c'
  refine ⟨c, hapart, hfailed, hunresolved, c', htold _ ?_ hsolid⟩
  rw [hunresolved]
  exact List.mem_singleton_self _

end Extraction

end CharacterArt
