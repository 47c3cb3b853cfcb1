import CharacterArt.Reconciliation
import Mathlib.Data.List.Nodup

/-!
# Attempts to mend outputs

The report of a reconciliation does not tell an output without a donor from one whose donor could
not be merged.  An attempt does.  `tryAll` goes through the outputs as `mendAll` does and says what
became of each of them.

## Main Definitions

* `Attempt` — what became of an output without a mask
* `tryTarget`, `tryAll` — the attempts on one output, and on all
* `Attempted` — how an attempt goes

## Main Results

* `run_isOpaque`, `run_mend` — the single steps
* `attempted_of_tryTarget`, `exists_of_tryAll_append` — one attempt, and several in order
* `mendAll_eq` — mending outputs is trying to, with less said about it
* `resolved_eq`, `unresolved_eq` — the two parts of the report
-/

namespace CharacterArt.Reconciliation

/-- What became of an output without a mask. -/
inductive Attempt where
  /-- There is no picture of that path. -/
  | missing
  /-- All its variants are opaque. -/
  | noDonor
  | merged (donor : String)
  /-- A donor was found, and it could not be merged. -/
  | refused (donor : String)
  deriving DecidableEq, Repr

/-- The output whose alpha was taken. -/
def Attempt.donor? : Attempt → Option String
  | merged donor => some donor
  | missing | noDonor | refused _ => none

/-- Try to mend the output of a path. -/
def tryTarget {σ : Type} (tools : Toolchain σ) (outputs : List OutputFile) (path : String) :
    Mending σ Attempt := do
  match outputs.find? (·.relative == path) with
  | none => return .missing
  | some target =>
    match ← firstDonor tools (candidates outputs target) with
    | none => return .noDonor
    | some donor =>
      if ← mend tools target donor then return .merged donor.relative
      else return .refused donor.relative

/-- Try to mend the outputs of paths, one after the other. -/
def tryAll {σ : Type} (tools : Toolchain σ) (outputs : List OutputFile) :
    List String → Mending σ (List (String × Attempt))
  | [] => return []
  | path :: rest => do
    let attempt ← tryTarget tools outputs path
    return (path, attempt) :: (← tryAll tools outputs rest)

variable {σ α β : Type} {tools : Toolchain σ} {outputs : List OutputFile} {s s' : State σ}

namespace Mending

/-- Work in two parts does the first one, and the second one if the first one ends well. -/
theorem run_bind (x : Mending σ α) (f : α → Mending σ β) (s : State σ) :
    (x >>= f).run.run s =
      match x.run.run s with
      | (.ok a, s) => (f a).run.run s
      | (.error e, s) => (.error e, s) := by
  rw [ExceptT.run_bind, StateT.run_bind]
  match x.run.run s with
  | (.ok a, s) => rfl
  | (.error e, s) => rfl

theorem run_get (s : State σ) : (get : Mending σ (State σ)).run.run s = (.ok s, s) :=
  rfl

theorem run_modify (f : State σ → State σ) (s : State σ) :
    (modify f : Mending σ Unit).run.run s = (.ok (), f s) :=
  rfl

theorem run_pure (a : α) (s : State σ) : (pure a : Mending σ α).run.run s = (.ok a, s) :=
  rfl

theorem run_throw (stop : Stop) (s : State σ) :
    (throw stop : Mending σ α).run.run s = (.error stop, s) :=
  rfl

/-- Work in two parts that ends well does so in both. -/
theorem exists_of_run_bind {x : Mending σ α} {f : α → Mending σ β} {b : β}
    (h : (x >>= f).run.run s = (.ok b, s')) :
    ∃ a middle, x.run.run s = (.ok a, middle) ∧ (f a).run.run middle = (.ok b, s') := by
  rw [run_bind] at h
  match hrun : x.run.run s with
  | (.ok a, middle) =>
      rw [hrun] at h
      exact ⟨a, middle, rfl, h⟩
  | (.error e, middle) =>
      rw [hrun] at h
      cases h

end Mending

/-! ### Steps -/

/-- **Whether an output is opaque is looked up, or asked and remembered.** -/
theorem run_isOpaque (tools : Toolchain σ) (o : OutputFile) (s : State σ) :
    (isOpaque tools o).run.run s =
      match s.opacity[o.relative]? with
      | some answer => (.ok answer, s)
      | none =>
        match tools.probe o.path s.world with
        | (.ok answer, w) => (.ok answer, ⟨w, s.opacity.insert o.relative answer⟩)
        | (.error (.failed _), w) => (.ok true, ⟨w, s.opacity.insert o.relative true⟩)
        | (.error stop, w) => (.error stop, { s with world := w }) := by
  cases hopacity : s.opacity[o.relative]? with
  | some answer =>
      simp only [isOpaque, Mending.run_bind, Mending.run_get, hopacity, Mending.run_pure]
  | none =>
      rcases hprobe : tools.probe o.path s.world with ⟨(_ | _ | _) | answer, w⟩
      all_goals
        simp only [isOpaque, Mending.run_bind, Mending.run_get, hopacity, hprobe, Mending.run_modify,
          Mending.run_pure, Mending.run_throw]

/-- **An output that is mended counts as not opaque.** -/
theorem run_mend (tools : Toolchain σ) (target donor : OutputFile) (s : State σ) :
    (mend tools target donor).run.run s =
      match (mergeInPlace tools scratch target.path donor.path).run.run s.world with
      | (.ok (), w) => (.ok true, ⟨w, s.opacity.insert target.relative false⟩)
      | (.error (.failed _), w) => (.ok false, { s with world := w })
      | (.error stop, w) => (.error stop, { s with world := w }) := by
  rcases hmerge : (mergeInPlace tools scratch target.path donor.path).run.run s.world
    with ⟨(_ | _ | _) | _, w⟩
  all_goals
    simp only [mend, Mending.run_bind, Mending.run_get, hmerge, Mending.run_modify, Mending.run_pure,
      Mending.run_throw]

/-! ### Attempts -/

/-- How an attempt on the output of a path goes. -/
inductive Attempted (tools : Toolchain σ) (outputs : List OutputFile) (path : String) (s : State σ) :
    Attempt → State σ → Prop where
  | missing (h : ∀ o ∈ outputs, o.relative ≠ path) : Attempted tools outputs path s .missing s
  | noDonor {target : OutputFile} {s' : State σ} (htarget : target ∈ outputs)
      (hpath : target.relative = path)
      (hfind : (firstDonor tools (candidates outputs target)).run.run s = (.ok none, s')) :
      Attempted tools outputs path s .noDonor s'
  | merged {target donor : OutputFile} {middle : State σ} {w : World σ} (htarget : target ∈ outputs)
      (hpath : target.relative = path)
      (hfind : (firstDonor tools (candidates outputs target)).run.run s = (.ok (some donor), middle))
      (hmerge : (mergeInPlace tools scratch target.path donor.path).run.run middle.world =
        (.ok (), w)) :
      Attempted tools outputs path s (.merged donor.relative)
        ⟨w, middle.opacity.insert target.relative false⟩
  | refused {target donor : OutputFile} {middle : State σ} {w : World σ} {e : Error}
      (htarget : target ∈ outputs) (hpath : target.relative = path)
      (hfind : (firstDonor tools (candidates outputs target)).run.run s = (.ok (some donor), middle))
      (hmerge : (mergeInPlace tools scratch target.path donor.path).run.run middle.world =
        (.error (.failed e), w)) :
      Attempted tools outputs path s (.refused donor.relative) { middle with world := w }

/-- **Every attempt goes one of four ways.** -/
theorem attempted_of_tryTarget {path : String} {attempt : Attempt}
    (hrun : (tryTarget tools outputs path).run.run s = (.ok attempt, s')) :
    Attempted tools outputs path s attempt s' := by
  unfold tryTarget at hrun
  split at hrun
  · next hnone =>
      cases hrun
      refine .missing fun o ho heq => ?_
      exact List.find?_eq_none.mp hnone o ho (beq_iff_eq.mpr heq)
  · next target hfind =>
      have htarget := List.mem_of_find?_eq_some hfind
      have hpath : target.relative = path := by simpa using List.find?_some hfind
      obtain ⟨donor, middle, hdonor, hrun⟩ := Mending.exists_of_run_bind hrun
      cases donor with
      | none =>
          cases hrun
          exact .noDonor htarget hpath hdonor
      | some donor =>
          obtain ⟨worked, last, hmend, hrun⟩ := Mending.exists_of_run_bind hrun
          rw [run_mend] at hmend
          split at hmend
          · next w hmerge =>
              cases hmend
              cases hrun
              exact .merged htarget hpath hdonor hmerge
          · next e w hmerge =>
              cases hmend
              cases hrun
              exact .refused htarget hpath hdonor hmerge
          · cases hmend

/-- Attempts on some outputs and then on others are made one after the other. -/
theorem exists_of_tryAll_append {front back : List String} {attempts : List (String × Attempt)}
    (hrun : (tryAll tools outputs (front ++ back)).run.run s = (.ok attempts, s')) :
    ∃ first middle others, (tryAll tools outputs front).run.run s = (.ok first, middle) ∧
      (tryAll tools outputs back).run.run middle = (.ok others, s') ∧ attempts = first ++ others := by
  induction front generalizing s attempts with
  | nil => exact ⟨[], s, attempts, rfl, hrun, rfl⟩
  | cons path rest ih =>
      obtain ⟨attempt, next, htry, hrun⟩ := Mending.exists_of_run_bind hrun
      obtain ⟨later, last, hlater, hrun⟩ := Mending.exists_of_run_bind hrun
      cases hrun
      obtain ⟨first, middle, others, hfirst, hothers, rfl⟩ := ih hlater
      refine ⟨(path, attempt) :: first, middle, others, ?_, hothers, rfl⟩
      rw [tryAll, Mending.run_bind, htry]
      dsimp only
      rw [Mending.run_bind, hfirst]
      rfl

/-! ### Attempts and results -/

/-- Mending one output is trying to, and saying whose alpha it took. -/
theorem mendTarget_eq (tools : Toolchain σ) (outputs : List OutputFile) (path : String) :
    mendTarget tools outputs path = Attempt.donor? <$> tryTarget tools outputs path := by
  unfold mendTarget tryTarget
  cases outputs.find? (·.relative == path) with
  | none => rfl
  | some target =>
      dsimp only
      rw [map_bind]
      refine congrArg _ (funext fun donor => ?_)
      cases donor with
      | none => rfl
      | some donor =>
          dsimp only
          rw [map_bind]
          refine congrArg _ (funext fun worked => ?_)
          cases worked <;> rfl

/-- What the report says of an attempt. -/
def resultOf (a : String × Attempt) : String × Option String :=
  (a.1, a.2.donor?)

/-- **Mending outputs is trying to, and saying whose alpha they took.** -/
theorem mendAll_eq (tools : Toolchain σ) (outputs : List OutputFile) (paths : List String) :
    mendAll tools outputs paths = (List.map resultOf) <$> tryAll tools outputs paths := by
  induction paths with
  | nil => rfl
  | cons path rest ih =>
      rw [mendAll, tryAll, ih, mendTarget_eq, map_bind, bind_map_left]
      refine congrArg _ (funext fun attempt => ?_)
      rw [map_bind, bind_map_left]
      rfl

/-- Outputs on which attempts are made are mended. -/
theorem mendAll_of_tryAll {paths : List String} {attempts : List (String × Attempt)}
    (h : (tryAll tools outputs paths).run.run s = (.ok attempts, s')) :
    (mendAll tools outputs paths).run.run s = (.ok (attempts.map resultOf), s') := by
  rw [mendAll_eq, ExceptT.run_map, StateT.run_map, h]
  rfl

/-- There is one attempt on each output. -/
theorem map_fst_of_tryAll {paths : List String} {attempts : List (String × Attempt)}
    (h : (tryAll tools outputs paths).run.run s = (.ok attempts, s')) :
    attempts.map Prod.fst = paths := by
  induction paths generalizing s attempts with
  | nil =>
      cases h
      rfl
  | cons path rest ih =>
      obtain ⟨attempt, middle, -, h⟩ := Mending.exists_of_run_bind h
      obtain ⟨others, last, hrest, h⟩ := Mending.exists_of_run_bind h
      cases h
      rw [List.map_cons, ih hrest]

/-- **A reconciliation consists of attempts.** -/
theorem exists_of_reconcile {root : String} {missing : Diagnostics} {w w' : World σ}
    {r : ReconcileReport} (h : reconcile tools root missing w = (.ok r, w')) :
    ∃ attempts opacity, (tryAll tools (outputsIn w.disk root) (targets missing)).run.run ⟨w, ∅⟩ =
        (.ok attempts, ⟨w', opacity⟩) ∧ r = reportOf (attempts.map resultOf) := by
  unfold reconcile at h
  rw [mendAll_eq, ExceptT.run_map, StateT.run_map] at h
  match hrun : (tryAll tools (outputsIn w.disk root) (targets missing)).run.run ⟨w, ∅⟩ with
  | (.ok attempts, ⟨last, opacity⟩) =>
      rw [hrun] at h
      cases h
      exact ⟨attempts, opacity, rfl, rfl⟩
  | (.error stop, last) =>
      rw [hrun] at h
      cases h

/-- Attempts make up a reconciliation. -/
theorem reconcile_of_tryAll {root : String} {missing : Diagnostics} {w : World σ}
    {attempts : List (String × Attempt)}
    (h : (tryAll tools (outputsIn w.disk root) (targets missing)).run.run ⟨w, ∅⟩ =
      (.ok attempts, s')) :
    reconcile tools root missing w = (.ok (reportOf (attempts.map resultOf)), s'.world) := by
  unfold reconcile
  rw [mendAll_of_tryAll h]
  rfl

/-! ### Reports -/

section Reports

variable {results : List (String × Option String)}

/-- The outputs that were mended. -/
theorem resolved_eq (results : List (String × Option String)) :
    (reportOf results).resolved.map Prod.fst =
      (results.filter fun r => r.2.isSome).map Prod.fst := by
  rw [reportOf]
  induction results with
  | nil => rfl
  | cons r rest ih =>
      obtain ⟨path, donor⟩ := r
      cases donor <;> simpa using ih

/-- The outputs that were not. -/
theorem unresolved_eq (results : List (String × Option String)) :
    (reportOf results).unresolved = (results.filter fun r => r.2.isNone).map Prod.fst := by
  rw [reportOf]
  induction results with
  | nil => rfl
  | cons r rest ih =>
      obtain ⟨path, donor⟩ := r
      cases donor <;> simpa using ih

/-- **If no output stands twice among the results, those that were not mended are the others.** -/
theorem unresolved_eq_filter (h : (results.map Prod.fst).Nodup) :
    (reportOf results).unresolved = (results.map Prod.fst).filter fun path =>
      !((reportOf results).resolved.map Prod.fst).contains path := by
  rw [unresolved_eq, resolved_eq, List.filter_map]
  refine congrArg _ (List.filter_congr fun r hr => ?_)
  have hmem : r.1 ∈ (results.filter fun r => r.2.isSome).map Prod.fst ↔ r.2.isSome = true := by
    constructor
    · intro hpath
      obtain ⟨q, hq, heq⟩ := List.mem_map.mp hpath
      obtain ⟨hq, hsome⟩ := List.mem_filter.mp hq
      rwa [← List.inj_on_of_nodup_map h hq hr heq]
    · exact fun hsome => List.mem_map_of_mem (List.mem_filter.mpr ⟨hr, hsome⟩)
  rw [Function.comp_apply, ← Option.not_isSome, Bool.not_inj_iff, Bool.eq_iff_iff,
    List.contains_iff_mem, hmem]

end Reports

end CharacterArt.Reconciliation
