import CharacterArt.Extraction.Plan
import Mathlib.Data.List.Induction

/-!
# What is planned

Every required image whose color was found has a plan, unless its mask cannot be read, which is
reported.  The plans stand under the paths of their outputs.  An output without a mask either waits
for another output, or it needs alpha exactly if its color is opaque.

## Main Definitions

* `Plan.IsFor` — what is known of a plan
* `Planning.Sound` — what is known of all plans

## Main Results

* `Planning.sound_add` — one more requirement
* `Planning.sound_ofRequirements` — all requirements
* `Planning.nodup_toList` — no two plans have one output
-/

namespace CharacterArt

/-- How the mask of a planned output was decided: there is one, or another output serves as mask, or
there is none and the output needs alpha if its color is opaque. -/
inductive Plan.IsDecided (p : Plan) : Prop where
  | masked (hmask : ∃ a, p.task.mask = some (.asset a)) (hneeds : p.needsAlpha = false)
      (hdeferred : p.deferred = none)
  | waiting (hmask : p.task.mask = none) (hneeds : p.needsAlpha = false)
      (hdeferred : p.deferred.isSome)
  | plain (hmask : p.task.mask = none) (hneeds : p.needsAlpha = !p.task.color.isTransparent)
      (hdeferred : p.deferred = none)

/-- A plan produces the color of a requirement at its path. -/
structure Plan.IsFor (s : Sources) (rs : Requirements) (path : String) (p : Plan) : Prop where
  exists_requirement : ∃ r ∈ rs, ∃ color, s.images[r.colorId]? = some color ∧
    p.task.directory = r.outputDir ∧ p.task.name = color.name ∧ p.task.color = color
  outputPath_eq : p.task.outputPath = path
  decided : p.IsDecided

namespace Plan

variable {s : Sources} {rs : Requirements} {r : Requirement} {color : Asset}

/-- The mask of a planned output is not a file. -/
theorem IsDecided.mask_ne_file {p : Plan} (h : p.IsDecided) (path : String) :
    p.task.mask ≠ some (.file path) := by
  cases h with
  | masked hmask =>
      obtain ⟨a, hmask⟩ := hmask
      rw [hmask]
      exact nofun
  | waiting hmask | plain hmask =>
      rw [hmask]
      exact nofun

/-- An output that needs alpha waits for no other one. -/
theorem IsDecided.deferred_eq_none {p : Plan} (h : p.IsDecided) (hneeds : p.needsAlpha = true) :
    p.deferred = none := by
  cases h with
  | masked _ hno | waiting _ hno =>
      rw [hno] at hneeds
      cases hneeds
  | plain _ _ hnone => exact hnone

/-- An output with a mask needs no alpha, and it waits for no other one. -/
theorem IsDecided.of_mask {p : Plan} (h : p.IsDecided) {input : MaskInput}
    (hmask : p.task.mask = some input) : p.needsAlpha = false ∧ p.deferred = none := by
  cases h with
  | masked _ hneeds hdeferred => exact ⟨hneeds, hdeferred⟩
  | waiting hnone | plain hnone =>
      rw [hmask] at hnone
      cases hnone

theorem IsFor.mono {path : String} {plan : Plan} {more : Requirements}
    (h : plan.IsFor s rs path) (hmore : ∀ r ∈ rs, r ∈ more) : plan.IsFor s more path where
  exists_requirement := by
    obtain ⟨r, hr, hcolor⟩ := h.exists_requirement
    exact ⟨r, hmore r hr, hcolor⟩
  outputPath_eq := h.outputPath_eq
  decided := h.decided

/-- More keys change nothing else about a plan. -/
theorem IsFor.serve {path : String} {plan : Plan} (h : plan.IsFor s rs path)
    (keys : List String) : (plan.serve keys).IsFor s rs path where
  exists_requirement := h.exists_requirement
  outputPath_eq := h.outputPath_eq
  decided := by
    cases h.decided with
    | masked hmask hneeds hdeferred => exact .masked hmask hneeds hdeferred
    | waiting hmask hneeds hdeferred => exact .waiting hmask hneeds hdeferred
    | plain hmask hneeds hdeferred => exact .plain hmask hneeds hdeferred

theorem isFor_ofChoice {choice : MaskChoice} {plan : Plan} (hr : r ∈ rs)
    (hcolor : s.images[r.colorId]? = some color)
    (h : Plan.ofChoice (s.taskOf r color) choice = .ok plan) :
    plan.IsFor s rs (s.taskOf r color).outputPath := by
  have hrequirement : ∃ q ∈ rs, ∃ c, s.images[q.colorId]? = some c ∧
      (s.taskOf r color).directory = q.outputDir ∧ (s.taskOf r color).name = c.name ∧
      (s.taskOf r color).color = c := ⟨r, hr, color, hcolor, rfl, rfl, rfl⟩
  cases choice with
  | mask a =>
      cases h
      exact ⟨hrequirement, rfl, .masked ⟨a, rfl⟩ rfl rfl⟩
  | missing =>
      cases h
      exact ⟨hrequirement, rfl, .plain rfl rfl rfl⟩
  | deferred path =>
      cases h
      exact ⟨hrequirement, rfl, .waiting rfl rfl rfl⟩
  | failed reason => cases h

end Plan

namespace Planning

variable {s : Sources} {rs : Requirements} {r : Requirement} {p : Planning} {color : Asset}

/-- The output of a requirement with a given color is taken care of: it is planned, or what is wrong
with its mask is reported. -/
def Covers (s : Sources) (p : Planning) (r : Requirement) (color : Asset) : Prop :=
  (s.taskOf r color).outputPath ∈ p.plans ∨
    ∃ d ∈ p.diagnostics, d.kind = .taskFailed ∧ d.subject = (s.taskOf r color).outputPath

/-- What is known of the plans for requirements. -/
structure Sound (s : Sources) (rs : Requirements) (p : Planning) : Prop where
  isFor : ∀ {path : String} {plan : Plan}, p.plans[path]? = some plan → plan.IsFor s rs path
  covers : ∀ r ∈ rs, ∀ color, s.images[r.colorId]? = some color → p.Covers s r color
  kind_eq : ∀ d ∈ p.diagnostics, d.kind = .taskFailed

theorem sound_empty (s : Sources) : Sound s [] {} where
  isFor h := by simp at h
  covers r hr := absurd hr List.not_mem_nil
  kind_eq d hd := absurd hd List.not_mem_nil

theorem mem_plans_insert {path other : String} {plan : Plan} {plans : Std.TreeMap String Plan}
    (h : other ∈ plans) : other ∈ plans.insert path plan :=
  Std.TreeMap.mem_insert.mpr (.inr h)

/-- A plan that is put in its place keeps what is known of the others. -/
theorem isFor_insert {path other : String} {plan found : Plan} (h : p.Sound s rs)
    (hmore : plan.IsFor s (rs ++ [r]) path)
    (hfound : (p.plans.insert path plan)[other]? = some found) :
    found.IsFor s (rs ++ [r]) other := by
  rw [Std.TreeMap.getElem?_insert] at hfound
  split at hfound
  · next heq =>
      cases hfound
      rwa [← Std.compare_eq_iff_eq.mp heq]
  · exact (h.isFor hfound).mono fun q hq => List.mem_append_left _ hq

/-- **Planning one more requirement keeps what is known of the plans.** -/
theorem sound_add (h : p.Sound s rs) (r : Requirement) : (p.add s r).Sound s (rs ++ [r]) := by
  have hlast : r ∈ rs ++ [r] := by simp
  unfold add
  split
  · -- without a color nothing is planned
    next hnone =>
      refine ⟨fun hfound => (h.isFor hfound).mono fun q hq => List.mem_append_left _ hq,
        ?_, h.kind_eq⟩
      intro q hq color hcolor
      rcases List.mem_append.mp hq with hq | hq
      · exact h.covers q hq color hcolor
      · rw [List.mem_singleton.mp hq, hnone] at hcolor
        cases hcolor
  · next color hcolor =>
      have hcovers : ∀ p' : Planning, p'.Covers s r color →
          (∀ path ∈ p.plans, path ∈ p'.plans) → (∀ d ∈ p.diagnostics, d ∈ p'.diagnostics) →
          ∀ q ∈ rs ++ [r], ∀ c, s.images[q.colorId]? = some c → p'.Covers s q c := by
        intro p' hnew hplans hdiagnostics q hq c hc
        rcases List.mem_append.mp hq with hq | hq
        · refine (h.covers q hq c hc).imp (hplans _) ?_
          rintro ⟨d, hd, hkind⟩
          exact ⟨d, hdiagnostics d hd, hkind⟩
        · obtain rfl := List.mem_singleton.mp hq
          rw [hcolor] at hc
          cases hc
          exact hnew
      dsimp only
      split
      · -- the output is planned already and serves more keys
        next plan hplan =>
          refine ⟨?_, hcovers _ (.inl (by simp)) (fun _ => mem_plans_insert) fun _ => id, h.kind_eq⟩
          intro path found hfound
          refine isFor_insert h (Plan.IsFor.serve ?_ _) hfound
          exact (h.isFor hplan).mono fun q hq => List.mem_append_left _ hq
      · next hnew =>
          unfold addOutput
          dsimp only
          split
          · next plan hplan =>
              refine ⟨?_, hcovers _ (.inl (by simp)) (fun _ => mem_plans_insert) fun _ => id,
                h.kind_eq⟩
              intro path found hfound
              exact isFor_insert h (Plan.isFor_ofChoice hlast hcolor hplan) hfound
          · next reason hreason =>
              refine ⟨fun hfound => (h.isFor hfound).mono fun q hq =>
                List.mem_append_left _ hq, hcovers _ (.inr ?_) (fun _ => id)
                  fun d hd => List.mem_append_left _ hd, ?_⟩
              · exact ⟨_, List.mem_append_right _ (List.mem_singleton_self _), rfl, rfl⟩
              · intro d hd
                rcases List.mem_append.mp hd with hd | hd
                · exact h.kind_eq d hd
                · rw [List.mem_singleton.mp hd]

/-- **What is known of the plans for requirements.** -/
theorem sound_ofRequirements (s : Sources) (rs : Requirements) :
    (ofRequirements s rs).Sound s rs := by
  induction rs using List.reverseRecOn with
  | nil => exact sound_empty s
  | append_singleton rs r ih =>
      rw [ofRequirements, List.foldl_append]
      exact sound_add ih r

/-- The plans stand under the paths of their outputs. -/
theorem mem_toList (h : p.Sound s rs) {plan : Plan} :
    plan ∈ p.toList ↔ p.plans[plan.task.outputPath]? = some plan := by
  simp only [toList, List.mem_map, Prod.exists, exists_eq_right,
    Std.TreeMap.mem_toList_iff_getElem?_eq_some]
  constructor
  · rintro ⟨path, hplan⟩
    rwa [(h.isFor hplan).outputPath_eq]
  · exact fun hplan => ⟨_, hplan⟩

/-- **No two plans have one output.** -/
theorem nodup_toList (h : p.Sound s rs) :
    (p.toList.map fun plan => plan.task.outputPath).Nodup := by
  have hkeys : p.toList.map (fun plan => plan.task.outputPath) = p.plans.toList.map Prod.fst := by
    rw [toList, List.map_map]
    refine List.map_congr_left ?_
    rintro ⟨path, plan⟩ hmem
    exact (h.isFor (Std.TreeMap.mem_toList_iff_getElem?_eq_some.mp hmem)).outputPath_eq
  rw [hkeys, List.Nodup, List.pairwise_map]
  refine Std.TreeMap.distinct_keys_toList.imp ?_
  rintro x y hne heq
  exact hne (Std.compare_eq_iff_eq.mpr heq)

end Planning

end CharacterArt
