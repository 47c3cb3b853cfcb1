import CharacterArt.Proofs.Extraction.Service
import CharacterArt.Proofs.Extraction.SharedMasks

/-!
# The order of requirements

Requirements of one output share its task, and the first one decides its mask: the others are not even
asked for theirs.  So the order of the requirements makes no difference to colors and keys, and none to
masks exactly if requirements of one output would decide for the same mask.  They do if they name the
same mask, or none.

## Main Definitions

* `Sources.requestFor?`, `Sources.choiceFor?` — what is asked for a requirement, and its mask if nothing
  was decoded before
* `Sources.IsUnmixed`, `Sources.IsReadable` — no two kinds of one number are asked for, and no mask is
  asked for that cannot be read
* `Planning.Alike` — the same plans, with the same keys in any order

## Main Results

* `Planning.Follows.add`, `Planning.follows_ofRequirements` — every output is planned for the first
  requirement that asks for it
* `Planning.alike_of_perm_iff` — when the order makes no difference
-/

namespace CharacterArt

open MaskCache (answer after)

/-! ### Masks without memory -/

namespace MaskCache

variable {s : Index.Store} {c : Corpus} {d : Files} {requests : List MaskRequest} {q : MaskRequest}

/-- A request is answered as if nothing was asked before, if all records of its bundle and number
before are of its kind. -/
theorem answer_after_eq (h : ∀ r, q.record? s = .ok (some r) →
    ∀ x ∈ MaskRequest.records s requests, x.bundle = r.bundle → x.pathId = r.pathId →
      x.kind = r.kind) :
    (answer s c d (after s c d requests) q).1 = (answer s c d [] q).1 := by
  rw [answer_after, show ([] : MaskCache) = after s c d [] from rfl, answer_after]
  rcases hrecord : q.record? s with e | _ | r
  · rfl
  · rfl
  · dsimp only [Except.bind]
    cases hfirst : firstDecoded c d r.bundle r.pathId (MaskRequest.records s requests) with
    | none => rfl
    | some a =>
        dsimp only
        rw [decodeOne_of_firstDecoded hfirst (h r hrecord)]
        rfl

end MaskCache

namespace Sources

variable {s : Sources} {rs rs' : Requirements} {r q : Requirement} {color : Asset}

/-- What is asked for a requirement, if its color was found. -/
def requestFor? (s : Sources) (r : Requirement) : Option MaskRequest :=
  (s.images[r.colorId]?).bind fun color => s.requestOf? (s.queryOf r color)

/-- The mask of a requirement whose color was found, if nothing was decoded before. -/
def choiceFor? (s : Sources) (r : Requirement) : Option MaskChoice :=
  (s.images[r.colorId]?).map fun color => (s.maskFor [] (s.queryOf r color)).1

/-- The objects that are asked for some requirements. -/
def recordsFor (s : Sources) (rs : Requirements) : List Record :=
  MaskRequest.records s.index (rs.filterMap s.requestFor?)

/-- Objects of one number of one bundle that are asked for some requirements are of one kind. -/
def IsUnmixed (s : Sources) (rs : Requirements) : Prop :=
  ∀ x ∈ s.recordsFor rs, ∀ y ∈ s.recordsFor rs, x.bundle = y.bundle → x.pathId = y.pathId →
    x.kind = y.kind

theorem recordsFor_subset (h : rs ⊆ rs') : s.recordsFor rs ⊆ s.recordsFor rs' :=
  List.filterMap_subset _ (List.filterMap_subset _ h)

theorem IsUnmixed.mono (h : s.IsUnmixed rs') (hsub : rs ⊆ rs') : s.IsUnmixed rs :=
  fun x hx y hy => h x (recordsFor_subset hsub hx) y (recordsFor_subset hsub hy)

/-- The masks of some requirements can be read. -/
def IsReadable (s : Sources) (rs : Requirements) : Prop :=
  ∀ r ∈ rs, ∀ reason, s.choiceFor? r ≠ some (.failed reason)

theorem requestFor?_of_color (h : s.images[r.colorId]? = some color) :
    s.requestFor? r = s.requestOf? (s.queryOf r color) := by
  rw [requestFor?, h]
  rfl

theorem choiceFor?_of_color (h : s.images[r.colorId]? = some color) :
    s.choiceFor? r = some (s.maskFor [] (s.queryOf r color)).1 := by
  rw [choiceFor?, h]
  rfl

/-- After requests that were made for some requirements, the mask of a further one is what it is
without memory. -/
theorem maskFor_after (hunmixed : s.IsUnmixed (rs ++ [r])) {requests : List MaskRequest}
    (hrequests : requests ⊆ rs.filterMap s.requestFor?) (hcolor : s.images[r.colorId]? = some color) :
    (s.maskFor (after s.index s.corpus s.disk requests) (s.queryOf r color)).1 =
      (s.maskFor [] (s.queryOf r color)).1 := by
  cases hrequest : s.requestOf? (s.queryOf r color) with
  | none => rw [maskFor_of_requestOf?_eq_none hrequest]
  | some request =>
      rw [maskFor_eq_of_requestOf? hrequest, maskFor_eq_of_requestOf? hrequest]
      refine congrArg (choiceOf request) (MaskCache.answer_after_eq fun own hown x hx => ?_)
      obtain ⟨earlier, hearlier, hx⟩ := List.mem_filterMap.mp hx
      refine hunmixed x ?_ own ?_
      · refine List.mem_filterMap.mpr ⟨earlier, ?_, hx⟩
        rw [List.filterMap_append]
        exact List.mem_append_left _ (hrequests hearlier)
      · refine List.mem_filterMap.mpr ⟨request, ?_, by rw [hown]; rfl⟩
        rw [← requestFor?_of_color hcolor] at hrequest
        exact List.mem_filterMap.mpr ⟨r, List.mem_append_right _ (List.mem_singleton_self r), hrequest⟩

end Sources

/-! ### Plans without their keys -/

/-- A plan without the keys that it serves. -/
def Plan.bare (p : Plan) : Plan :=
  { p with task := { p.task with keys := [] } }

@[simp] theorem Plan.bare_serve (p : Plan) (keys : List String) : (p.serve keys).bare = p.bare :=
  rfl

/-- The plan of a requirement alone, without its keys, if its color was found and its mask can be
read. -/
def Sources.planFor? (s : Sources) (r : Requirement) : Option Plan :=
  (s.images[r.colorId]?).bind fun color =>
    ((Plan.ofChoice (s.taskOf r color) (s.maskFor [] (s.queryOf r color)).1).toOption).map Plan.bare

/-- Whether a requirement asks for an output. -/
def Sources.asksFor (s : Sources) (path : String) (r : Requirement) : Bool :=
  s.outputOf? r == some path

theorem Sources.asksFor_iff {s : Sources} {path : String} {r : Requirement} :
    s.asksFor path r = true ↔ s.outputOf? r = some path :=
  beq_iff_eq

/-- The first of some requirements that asks for an output, with one more. -/
theorem Sources.find?_asksFor_append (s : Sources) (path : String) (rs : Requirements)
    (r : Requirement) : (rs ++ [r]).find? (s.asksFor path) =
      (rs.find? (s.asksFor path)).or (if s.outputOf? r = some path then some r else none) := by
  rw [List.find?_append, List.find?_singleton]
  simp only [asksFor_iff]

namespace Planning

variable {s : Sources} {rs rs' : Requirements} {r q : Requirement} {p : Planning} {color : Asset}

/-- Every output is planned for the first of some requirements that asks for it. -/
structure Follows (p : Planning) (s : Sources) (rs : Requirements) : Prop where
  /-- Only what these requirements ask for was asked. -/
  masks : ∃ requests ⊆ rs.filterMap s.requestFor?,
    p.masks = after s.index s.corpus s.disk requests
  plans : ∀ path, (p.plans[path]?).map Plan.bare = (rs.find? (s.asksFor path)).bind s.planFor?
  diagnostics : p.diagnostics = []

theorem follows_nil (s : Sources) : Follows {} s [] where
  masks := ⟨[], List.Subset.refl [], rfl⟩
  plans path := by simp
  diagnostics := rfl

/-- A mask that can be read gives a plan. -/
theorem exists_ofChoice (hreadable : s.IsReadable rs) (hr : r ∈ rs)
    (hcolor : s.images[r.colorId]? = some color) : ∃ plan,
      Plan.ofChoice (s.taskOf r color) (s.maskFor [] (s.queryOf r color)).1 = .ok plan := by
  have hnot := hreadable r hr
  rw [Sources.choiceFor?_of_color hcolor] at hnot
  cases hchoice : (s.maskFor [] (s.queryOf r color)).1 with
  | mask a => exact ⟨_, rfl⟩
  | missing => exact ⟨_, rfl⟩
  | deferred path => exact ⟨_, rfl⟩
  | failed reason => exact absurd (congrArg some hchoice) (hnot reason)

/-- A requirement that can be read is planned for alone. -/
theorem exists_planFor? (hreadable : s.IsReadable rs) (hr : r ∈ rs) {path : String}
    (hasks : s.asksFor path r = true) : ∃ plan, s.planFor? r = some plan := by
  obtain ⟨color, hcolor, -⟩ := Option.map_eq_some_iff.mp (beq_iff_eq.mp hasks)
  obtain ⟨plan, hplan⟩ := exists_ofChoice hreadable hr hcolor
  exact ⟨plan.bare, by rw [Sources.planFor?, hcolor, Option.bind_some, hplan]; rfl⟩

/-- More requirements ask for no less. -/
theorem Follows.exists_requests (h : p.Follows s rs) (r : Requirement) :
    ∃ requests ⊆ (rs ++ [r]).filterMap s.requestFor?,
      p.masks = after s.index s.corpus s.disk requests := by
  obtain ⟨requests, hrequests, hmasks⟩ := h.masks
  exact ⟨requests, fun x hx =>
    List.filterMap_subset _ (List.subset_append_left rs [r]) (hrequests hx), hmasks⟩

/-- What is planned already is served, and nothing else changes. -/
theorem Follows.serve (h : p.Follows s rs) {path : String} {plan : Plan}
    (hplan : p.plans[path]? = some plan) (hasks : s.outputOf? r = some path) (keys : List String) :
    Follows { p with plans := p.plans.insert path (plan.serve keys) } s (rs ++ [r]) := by
  refine ⟨h.exists_requests r, fun other => ?_, h.diagnostics⟩
  have hother := h.plans other
  rw [Std.TreeMap.getElem?_insert, Sources.find?_asksFor_append, hasks]
  by_cases hsame : path = other
  · subst hsame
    rw [hplan, Option.map_some] at hother
    rw [if_pos (Std.compare_eq_iff_eq.mpr rfl), if_pos rfl, Option.map_some, Plan.bare_serve, hother]
    -- the plan was made for an earlier requirement
    cases hfind : rs.find? (s.asksFor path) with
    | none =>
        rw [hfind] at hother
        cases hother
    | some first => rfl
  · rw [if_neg fun heq => hsame (Std.compare_eq_iff_eq.mp heq),
      if_neg fun heq => hsame (Option.some.inj heq), Option.or_none, hother]

/-- A new output is planned for the requirement that asks for it first. -/
theorem Follows.addOutput (h : p.Follows s rs) (hunmixed : s.IsUnmixed (rs ++ [r]))
    (hreadable : s.IsReadable (rs ++ [r])) (hcolor : s.images[r.colorId]? = some color)
    (hnew : p.plans[(s.taskOf r color).outputPath]? = none) :
    (p.addOutput s r color).Follows s (rs ++ [r]) := by
  have hlast : r ∈ rs ++ [r] := List.mem_append_right _ (List.mem_singleton_self r)
  obtain ⟨requests, hrequests, hmasks⟩ := h.masks
  have hchoice := s.maskFor_after hunmixed hrequests hcolor
  rw [← hmasks] at hchoice
  obtain ⟨plan, hplan⟩ := exists_ofChoice hreadable hlast hcolor
  have hfirst : rs.find? (s.asksFor (s.taskOf r color).outputPath) = none := by
    have hnone := h.plans (s.taskOf r color).outputPath
    rw [hnew, Option.map_none] at hnone
    cases hfind : rs.find? (s.asksFor (s.taskOf r color).outputPath) with
    | none => rfl
    | some first =>
        obtain ⟨planned, hplanned⟩ := exists_planFor? hreadable
          (List.mem_append_left _ (List.mem_of_find?_eq_some hfind)) (List.find?_some hfind)
        rw [hfind, Option.bind_some, hplanned] at hnone
        cases hnone
  rw [Planning.addOutput]
  dsimp only
  rw [hchoice, hplan]
  refine ⟨?_, fun path => ?_, h.diagnostics⟩
  · cases hrequest : s.requestOf? (s.queryOf r color) with
    | none =>
        rw [Sources.maskFor_of_requestOf?_eq_none hrequest]
        exact h.exists_requests r
    | some request =>
        rw [Sources.maskFor_eq_of_requestOf? hrequest, hmasks, ← MaskCache.after_append_singleton]
        have hown : [r].filterMap s.requestFor? = [request] := by
          rw [← Sources.requestFor?_of_color hcolor] at hrequest
          rw [List.filterMap_cons_some hrequest, List.filterMap_nil]
        refine ⟨requests ++ [request], ?_, rfl⟩
        rw [List.filterMap_append, hown]
        exact List.append_subset.mpr
          ⟨List.subset_append_of_subset_left _ hrequests, List.subset_append_right _ _⟩
  · rw [Std.TreeMap.getElem?_insert, Sources.find?_asksFor_append, Sources.outputOf?_of_color hcolor]
    by_cases hsame : (s.taskOf r color).outputPath = path
    · subst hsame
      rw [if_pos (Std.compare_eq_iff_eq.mpr rfl), if_pos rfl, hfirst, Option.none_or,
        Option.bind_some, Sources.planFor?, hcolor, Option.bind_some, hplan]
      rfl
    · rw [if_neg fun heq => hsame (Std.compare_eq_iff_eq.mp heq),
        if_neg fun heq => hsame (Option.some.inj heq), Option.or_none, h.plans path]

/-- **Planning one more requirement.** -/
theorem Follows.add (h : p.Follows s rs) (hunmixed : s.IsUnmixed (rs ++ [r]))
    (hreadable : s.IsReadable (rs ++ [r])) : (p.add s r).Follows s (rs ++ [r]) := by
  unfold Planning.add
  split
  · next hnone =>
      refine ⟨h.exists_requests r, fun path => ?_, h.diagnostics⟩
      rw [Sources.find?_asksFor_append, Sources.outputOf?, hnone, Option.map_none,
        if_neg fun heq => Option.some_ne_none path heq.symm, Option.or_none, h.plans path]
  · next color hcolor =>
      dsimp only
      split
      · next plan hplan => exact h.serve hplan (Sources.outputOf?_of_color hcolor) _
      · next hnew => exact h.addOutput hunmixed hreadable hcolor hnew

/-- **Every output is planned for the first requirement that asks for it.** -/
theorem follows_ofRequirements (hunmixed : s.IsUnmixed rs) (hreadable : s.IsReadable rs) :
    (ofRequirements s rs).Follows s rs := by
  induction rs using List.reverseRecOn with
  | nil => exact follows_nil s
  | append_singleton rs r ih =>
      rw [ofRequirements_append_singleton]
      exact (ih (hunmixed.mono (List.subset_append_left rs [r])) fun q hq =>
        hreadable q (List.mem_append_left _ hq)).add hunmixed hreadable

/-! ### Orders -/

/-- The same outputs are planned in the same way, with the same keys. -/
structure Alike (p p' : Planning) : Prop where
  plans : ∀ path : String, (p.plans[path]?).map Plan.bare = (p'.plans[path]?).map Plan.bare
  keys : ∀ (path : String) (plan plan' : Plan), p.plans[path]? = some plan →
    p'.plans[path]? = some plan' → ∀ key, key ∈ plan.task.keys ↔ key ∈ plan'.task.keys

end Planning

/-- Requirements of one output. -/
def Sources.ShareOutput (s : Sources) (r q : Requirement) : Prop :=
  ∃ path, s.outputOf? r = some path ∧ s.outputOf? q = some path

/-- The mask that a requirement names, if it is a mask and another object than that of its colors. -/
def Sources.companion? (s : Sources) (r : Requirement) : Option Alpha.MaskMatch :=
  (s.images[r.colorId]?).bind fun color => Alpha.Matcher.byRequirement (s.queryOf r color)

/-- **A plan tells what was decided about its mask.** -/
theorem Plan.bare_eq_iff {t t' : MergeTask} {choice choice' : MaskChoice} {plan plan' : Plan}
    (hplan : Plan.ofChoice t choice = .ok plan) (hplan' : Plan.ofChoice t' choice' = .ok plan')
    (hmask : t.mask = none) (htask : { t with keys := [] } = { t' with keys := [] }) :
    plan.bare = plan'.bare ↔ choice = choice' := by
  obtain ⟨directory, name, color, mask, keys⟩ := t
  obtain ⟨directory', name', color', mask', keys'⟩ := t'
  simp only [MergeTask.mk.injEq] at hmask htask
  obtain ⟨rfl, rfl, rfl, rfl, -⟩ := htask
  subst hmask
  cases choice <;> cases choice' <;> cases hplan <;> cases hplan' <;> simp [Plan.bare]

namespace Planning

variable {s : Sources} {rs rs' : Requirements} {r q : Requirement} {p : Planning} {color : Asset}

/-- Requirements of one output and one color have one directory. -/
theorem outputDir_eq (h : (s.taskOf r color).outputPath = (s.taskOf q color).outputPath) :
    r.outputDir = q.outputDir := by
  rw [← String.toList_inj] at h ⊢
  simpa [MergeTask.outputPath, Sources.taskOf] using h

/-- **Requirements of one output and one color are planned for alike exactly if the same is decided
about their masks.** -/
theorem planFor?_eq_iff (hreadable : s.IsReadable rs) (hr : r ∈ rs) (hq : q ∈ rs)
    (hshare : s.ShareOutput r q) (hid : r.colorId = q.colorId) :
    s.planFor? r = s.planFor? q ↔ s.choiceFor? r = s.choiceFor? q := by
  obtain ⟨path, hpath, hpath'⟩ := hshare
  obtain ⟨color, hcolor, -⟩ := Option.map_eq_some_iff.mp hpath
  have hcolor' : s.images[q.colorId]? = some color := hid ▸ hcolor
  rw [Sources.outputOf?_of_color hcolor] at hpath
  rw [Sources.outputOf?_of_color hcolor', ← hpath, Option.some.injEq] at hpath'
  obtain ⟨plan, hplan⟩ := exists_ofChoice hreadable hr hcolor
  obtain ⟨plan', hplan'⟩ := exists_ofChoice hreadable hq hcolor'
  have htask : { s.taskOf r color with keys := [] } = { s.taskOf q color with keys := [] } := by
    simp only [Sources.taskOf, outputDir_eq hpath']
  rw [Sources.choiceFor?_of_color hcolor, Sources.choiceFor?_of_color hcolor', Sources.planFor?,
    Sources.planFor?, hcolor, hcolor', Option.bind_some, Option.bind_some, hplan, hplan',
    Option.some.injEq, ← Plan.bare_eq_iff hplan hplan' rfl htask]
  exact Option.some_inj

/-- What is decided about a mask depends on a requirement through its color, its output and the mask
that it names. -/
theorem choiceFor?_eq_of_companion (hshare : s.ShareOutput r q) (hid : r.colorId = q.colorId)
    (hcompanion : s.companion? r = s.companion? q) : s.choiceFor? r = s.choiceFor? q := by
  obtain ⟨path, hpath, hpath'⟩ := hshare
  obtain ⟨color, hcolor, -⟩ := Option.map_eq_some_iff.mp hpath
  have hcolor' : s.images[q.colorId]? = some color := hid ▸ hcolor
  rw [Sources.outputOf?_of_color hcolor] at hpath
  rw [Sources.outputOf?_of_color hcolor', ← hpath, Option.some.injEq] at hpath'
  rw [Sources.companion?, Sources.companion?, hcolor, hcolor', Option.bind_some,
    Option.bind_some] at hcompanion
  have hfind : s.matcher.find? (s.queryOf r color) = s.matcher.find? (s.queryOf q color) := by
    rw [Alpha.Matcher.find?, Alpha.Matcher.find?, hcompanion]
    simp only [Sources.queryOf, hpath']
  rw [Sources.choiceFor?_of_color hcolor, Sources.choiceFor?_of_color hcolor', Sources.maskFor,
    Sources.maskFor, hfind]

theorem color_of_planFor? {plan : Plan} (h : s.planFor? r = some plan.bare) :
    s.images[r.colorId]? = some plan.task.color := by
  obtain ⟨color, hcolor, hown⟩ := Option.bind_eq_some_iff.mp h
  obtain ⟨fresh, hfresh, hbare⟩ := Option.map_eq_some_iff.mp hown
  cases hchoice : Plan.ofChoice (s.taskOf r color) (s.maskFor [] (s.queryOf r color)).1 with
  | error reason =>
      rw [hchoice] at hfresh
      cases hfresh
  | ok found =>
      rw [hchoice] at hfresh
      obtain rfl : found = fresh := Option.some.inj hfresh
      have hsame : found.task.color = plan.task.color := congrArg (·.task.color) hbare
      rw [hcolor, ← hsame, (Plan.task_of_ofChoice hchoice).1]
      rfl

/-- **What is planned, in any order**: for the first requirement that asks for the output, with the
keys of all that do. -/
theorem exists_planned (hunmixed : s.IsUnmixed rs) (hreadable : s.IsReadable rs)
    (horder : rs'.Perm rs) (path : String) :
    match (ofRequirements s rs').plans[path]? with
    | none => ∀ r ∈ rs, s.outputOf? r ≠ some path
    | some plan => ∃ first, rs'.find? (s.asksFor path) = some first ∧
        s.planFor? first = some plan.bare ∧
        ∀ key, key ∈ plan.task.keys ↔ ∃ r ∈ rs, s.outputOf? r = some path ∧ key ∈ s.keysFor r := by
  have hreadable' : s.IsReadable rs' := fun r hr => hreadable r (horder.mem_iff.mp hr)
  have hfollows := follows_ofRequirements (hunmixed.mono horder.subset) hreadable'
  have hplan := hfollows.plans path
  have hserved := exists_first s rs' path
  have hmem : ∀ r, r ∈ served s rs' path ↔ r ∈ rs ∧ s.outputOf? r = some path := fun r => by
    rw [mem_served_iff hfollows.diagnostics, horder.mem_iff]
  cases hfound : (ofRequirements s rs').plans[path]? with
  | none =>
      intro r hr hasks
      rw [hfound] at hserved
      exact absurd ((hmem r).mpr ⟨hr, hasks⟩) (by simp [hserved])
  | some plan =>
      rw [hfound] at hserved hplan
      obtain ⟨first, hfirst, hown⟩ := Option.bind_eq_some_iff.mp hplan.symm
      obtain ⟨head, rest, color, hlist, -, -, hkeys⟩ := hserved
      refine ⟨first, hfirst, hown, fun key => ?_⟩
      rw [hkeys, ← hlist]
      simp only [hmem, and_assoc]

/-- An output that the first of all requirements asks for is planned for that one. -/
theorem plan_of_cons (hunmixed : s.IsUnmixed rs) (hreadable : s.IsReadable rs)
    (horder : (r :: rs').Perm rs) {path : String} (hasks : s.outputOf? r = some path) :
    ((ofRequirements s (r :: rs')).plans[path]?).map Plan.bare = s.planFor? r := by
  have hreadable' : s.IsReadable (r :: rs') := fun q hq => hreadable q (horder.mem_iff.mp hq)
  rw [(follows_ofRequirements (hunmixed.mono horder.subset) hreadable').plans path,
    List.find?_cons_of_pos (Sources.asksFor_iff.mpr hasks), Option.bind_some]

/-- A requirement can stand first. -/
theorem exists_cons_perm (hr : r ∈ rs) : ∃ rest : Requirements, (r :: rest).Perm rs := by
  obtain ⟨front, back, rfl⟩ := List.append_of_mem hr
  exact ⟨front ++ back, List.perm_middle.symm⟩

/-- Requirements that are planned for alike are planned alike in any order. -/
theorem alike_of_perm (hunmixed : s.IsUnmixed rs) (hreadable : s.IsReadable rs)
    (hsame : ∀ r ∈ rs, ∀ q ∈ rs, s.ShareOutput r q → s.planFor? r = s.planFor? q)
    (horder : rs'.Perm rs) : Alike (ofRequirements s rs') (ofRequirements s rs) := by
  constructor
  · intro path
    have hreadable' : s.IsReadable rs' := fun r hr => hreadable r (horder.mem_iff.mp hr)
    rw [(follows_ofRequirements (hunmixed.mono horder.subset) hreadable').plans path,
      (follows_ofRequirements hunmixed hreadable).plans path]
    cases hfirst' : rs'.find? (s.asksFor path) with
    | none =>
        have hnone : rs.find? (s.asksFor path) = none := by
          rw [List.find?_eq_none] at hfirst' ⊢
          exact fun r hr => hfirst' r (horder.mem_iff.mpr hr)
        rw [hnone]
    | some first' =>
        have hmem' : first' ∈ rs := horder.mem_iff.mp (List.mem_of_find?_eq_some hfirst')
        have hasks' := Sources.asksFor_iff.mp (List.find?_some hfirst')
        cases hfirst : rs.find? (s.asksFor path) with
        | none =>
            rw [List.find?_eq_none] at hfirst
            exact absurd (Sources.asksFor_iff.mpr hasks') (hfirst first' hmem')
        | some first =>
            have hasks := Sources.asksFor_iff.mp (List.find?_some hfirst)
            exact hsame first' hmem' first (List.mem_of_find?_eq_some hfirst) ⟨path, hasks', hasks⟩
  · intro path plan plan' hplan hplan' key
    have hplanned := exists_planned hunmixed hreadable horder path
    have hplanned' := exists_planned hunmixed hreadable (.refl rs) path
    rw [hplan] at hplanned
    rw [hplan'] at hplanned'
    obtain ⟨-, -, -, hkeys⟩ := hplanned
    obtain ⟨-, -, -, hkeys'⟩ := hplanned'
    rw [hkeys, hkeys']

/-- **When the order of requirements makes no difference.** -/
theorem alike_of_perm_iff (hunmixed : s.IsUnmixed rs) (hreadable : s.IsReadable rs)
    (hcolors : ∀ r ∈ rs, ∀ q ∈ rs, s.ShareOutput r q → r.colorId = q.colorId) :
    (∀ rs', rs'.Perm rs → ∀ path,
      match (ofRequirements s rs').plans[path]? with
      | none => ∀ r ∈ rs, s.outputOf? r ≠ some path
      | some plan =>
        (∃ first, rs'.find? (s.asksFor path) = some first ∧ s.planFor? first = some plan.bare) ∧
        (∀ r ∈ rs, s.outputOf? r = some path → s.images[r.colorId]? = some plan.task.color) ∧
        ∀ key, key ∈ plan.task.keys ↔
          ∃ r ∈ rs, s.outputOf? r = some path ∧ key ∈ s.keysFor r) ∧
    ((∀ rs', rs'.Perm rs → Alike (ofRequirements s rs') (ofRequirements s rs)) ↔
      ∀ r ∈ rs, ∀ q ∈ rs, s.ShareOutput r q → s.choiceFor? r = s.choiceFor? q) ∧
    ((∀ r ∈ rs, ∀ q ∈ rs, s.ShareOutput r q → s.companion? r = s.companion? q) →
      ∀ rs', rs'.Perm rs → Alike (ofRequirements s rs') (ofRequirements s rs)) := by
  have hsame : (∀ r ∈ rs, ∀ q ∈ rs, s.ShareOutput r q → s.choiceFor? r = s.choiceFor? q) →
      ∀ rs', rs'.Perm rs → Alike (ofRequirements s rs') (ofRequirements s rs) := by
    intro hchoices rs' horder
    refine alike_of_perm hunmixed hreadable (fun r hr q hq hshare => ?_) horder
    exact (planFor?_eq_iff hreadable hr hq hshare (hcolors r hr q hq hshare)).mpr
      (hchoices r hr q hq hshare)
  refine ⟨fun rs' horder path => ?_, ⟨fun halike r hr q hq hshare => ?_, hsame⟩,
    fun hcompanions => hsame fun r hr q hq hshare => ?_⟩
  · have hplanned := exists_planned hunmixed hreadable horder path
    split
    · next hnone =>
        rw [hnone] at hplanned
        exact hplanned
    · next plan hplan =>
        rw [hplan] at hplanned
        obtain ⟨first, hfirst, hown, hkeys⟩ := hplanned
        refine ⟨⟨first, hfirst, hown⟩, fun r hr hasks => ?_, hkeys⟩
        have hshare : s.ShareOutput r first :=
          ⟨path, hasks, Sources.asksFor_iff.mp (List.find?_some hfirst)⟩
        have hmem : first ∈ rs := horder.mem_iff.mp (List.mem_of_find?_eq_some hfirst)
        rw [hcolors r hr first hmem hshare]
        exact color_of_planFor? hown
  · obtain ⟨path, hasks, hasks'⟩ := hshare
    obtain ⟨rest, horder⟩ := exists_cons_perm hr
    obtain ⟨rest', horder'⟩ := exists_cons_perm hq
    rw [← planFor?_eq_iff hreadable hr hq ⟨path, hasks, hasks'⟩
        (hcolors r hr q hq ⟨path, hasks, hasks'⟩),
      ← plan_of_cons hunmixed hreadable horder hasks,
      ← plan_of_cons hunmixed hreadable horder' hasks',
      (halike _ horder).plans path, (halike _ horder').plans path]
  · exact choiceFor?_eq_of_companion hshare (hcolors r hr q hq hshare)
      (hcompanions r hr q hq hshare)

/-! ### A mask that is named, and two kinds of one number

A character has one picture at two places, and for the second place a mask is named that is not called
after the picture.  Another character has two pictures, whose masks are a texture and a sprite of one
number. -/

namespace Companions

def picture : Asset :=
  ⟨10, "Foo", .texture, "art", "", .ofPixel ⟨16, 32, 48, 255⟩⟩

def mask : Asset :=
  ⟨11, "other_alpha", .texture, "art", "", .ofPixel ⟨128, 128, 128, 64⟩⟩

def sources : Sources where
  index := {}
  corpus := ⟨"/b", ∅⟩
  disk := {}
  images := .ofList [((10 : PathId), picture), (11, mask)]
  matcher := {}
  nameKeys := false

/-- The first place, without a mask. -/
def alone : Requirement :=
  { owner := "Foo", index := 0, colorId := 10 }

/-- The second place, with the mask. -/
def masked : Requirement :=
  { owner := "Foo", index := 1, colorId := 10, alphaId := 11 }

/-- What is planned for the output, but for the keys. -/
def planned (rs : Requirements) : Option Plan :=
  (ofRequirements sources rs).plans["foo/Foo.png"]?.map Plan.bare

/-- What is decided and planned, in one evaluation. -/
theorem decided :
    (sources.choiceFor? alone = some .missing ∧ sources.choiceFor? masked = some (.mask mask)) ∧
    sources.recordsFor [alone, masked] = [] ∧
    planned [alone, masked] =
      some { task := { directory := "foo", name := "Foo", color := picture }, needsAlpha := true } ∧
    planned [masked, alone] = some { task :=
      { directory := "foo", name := "Foo", color := picture, mask := some (.asset mask) } } := by
  decide +kernel

end Companions

namespace Mixed

open MaskCache.Twins

def hero : Requirement :=
  { owner := "A", index := 0, colorId := 1 }

/-- The first picture at another place. -/
def heroAgain : Requirement :=
  { owner := "A", index := 2, colorId := 1 }

def foe : Requirement :=
  { owner := "A", index := 1, colorId := 2 }

/-- What is decided and planned, in one evaluation. -/
theorem decided :
    (sources.outputOf? hero = some "a/hero.png" ∧ sources.outputOf? foe = some "a/foe.png") ∧
    (sources.choiceFor? hero = some (.mask ⟨5, "hero_alpha", .texture, "x", "", veil⟩) ∧
      sources.choiceFor? heroAgain = sources.choiceFor? hero ∧
      sources.choiceFor? foe = some (.mask ⟨5, "spr", .sprite, "x", "", shade⟩)) ∧
    sources.recordsFor [hero, heroAgain] =
      [MaskCache.Twins.mask, MaskCache.Twins.mask] ∧
    plannedMask? (.ofRequirements sources [hero, foe]) "a/foe.png" = some veil ∧
    plannedMask? (.ofRequirements sources [foe, hero]) "a/foe.png" = some shade := by
  decide +kernel

/-- The masks of outputs that are planned alike have one picture. -/
theorem plannedMask?_congr {p p' : Planning} (h : p.Alike p') (output : String) :
    plannedMask? p output = plannedMask? p' output := by
  have hmask : ∀ p : Planning, (p.plans[output]?.bind fun plan => plan.task.mask) =
      ((p.plans[output]?).map Plan.bare).bind fun plan => plan.task.mask := by
    intro p
    rw [Option.bind_map]
    rfl
  rw [plannedMask?, plannedMask?, hmask, hmask, h.plans output]

end Mixed

open MaskCache.Twins Mixed in
/-- Two places of one picture, whose mask is decoded from its bundle. -/
theorem alike_of_perm_iff_twice :
    sources.IsUnmixed [hero, heroAgain] ∧ sources.IsReadable [hero, heroAgain] ∧
    (∀ r ∈ [hero, heroAgain], ∀ q ∈ [hero, heroAgain], sources.ShareOutput r q →
      r.colorId = q.colorId) ∧
    Alike (ofRequirements sources [heroAgain, hero]) (ofRequirements sources [hero, heroAgain]) := by
  obtain ⟨-, ⟨hchoice, hagain, -⟩, hrecords, -⟩ := decided
  have hunmixed : sources.IsUnmixed [hero, heroAgain] := by
    intro x hx y hy _ _
    rw [hrecords] at hx hy
    simp_all
  have hchoices : ∀ r ∈ [hero, heroAgain], sources.choiceFor? r = sources.choiceFor? hero := by
    simp [hagain]
  have hreadable : sources.IsReadable [hero, heroAgain] := by
    intro r hr reason
    rw [hchoices r hr, hchoice]
    exact fun h => by cases h
  have hcolors : ∀ r ∈ [hero, heroAgain], ∀ q ∈ [hero, heroAgain], sources.ShareOutput r q →
      r.colorId = q.colorId := by
    simp [hero, heroAgain]
  refine ⟨hunmixed, hreadable, hcolors, ?_⟩
  refine (alike_of_perm_iff hunmixed hreadable hcolors).2.1.mpr ?_ _ (.swap _ _ _)
  intro r hr q hq _
  rw [hchoices r hr, hchoices q hq]

/-- **The order of requirements makes a difference** if those of one output name different masks, and
also if a texture and a sprite of one number are asked for. -/
theorem exists_order_apart :
    (∃ s r q, s.IsReadable [r, q] ∧ s.IsUnmixed [r, q] ∧ r.colorId = q.colorId ∧
      ¬ Alike (ofRequirements s [q, r]) (ofRequirements s [r, q])) ∧
    ∃ s r q, s.IsReadable [r, q] ∧ ¬ s.ShareOutput r q ∧
      ¬ Alike (ofRequirements s [q, r]) (ofRequirements s [r, q]) := by
  constructor
  · obtain ⟨⟨halone, hmasked⟩, hrecords, hplanned, hplanned'⟩ := Companions.decided
    refine ⟨Companions.sources, Companions.alone, Companions.masked, ?_, ?_, rfl, fun halike => ?_⟩
    · intro r hr reason
      simp only [List.mem_cons, List.not_mem_nil, or_false] at hr
      rcases hr with rfl | rfl
      · simp [halone]
      · simp [hmasked]
    · intro x hx
      rw [hrecords] at hx
      exact absurd hx List.not_mem_nil
    · have hplans : Companions.planned [Companions.masked, Companions.alone] =
          Companions.planned [Companions.alone, Companions.masked] := halike.plans "foo/Foo.png"
      rw [hplanned, hplanned', Option.some.injEq] at hplans
      exact Bool.false_ne_true (congrArg Plan.needsAlpha hplans)
  · obtain ⟨⟨houtput, houtput'⟩, ⟨hchoice, -, hchoice'⟩, -, hveil, hshade⟩ := Mixed.decided
    refine ⟨MaskCache.Twins.sources, Mixed.hero, Mixed.foe, ?_, ?_, fun halike => ?_⟩
    · intro r hr reason
      simp only [List.mem_cons, List.not_mem_nil, or_false] at hr
      rcases hr with rfl | rfl
      · simp [hchoice]
      · simp [hchoice']
    · rintro ⟨path, hpath, hpath'⟩
      rw [houtput] at hpath
      rw [houtput', ← hpath, Option.some.injEq] at hpath'
      exact absurd hpath' (by decide)
    · have hpictures := Mixed.plannedMask?_congr halike "a/foe.png"
      rw [hveil, hshade, Option.some.injEq] at hpictures
      exact absurd hpictures (by decide)

end Planning

end CharacterArt
