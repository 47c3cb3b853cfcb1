import CharacterArt.Merge.Task
import CharacterArt.Reconciliation.Outputs

/-!
# Reconciliation

An output without a mask may take the alpha channel of a variant of its picture.

## Main Definitions

* `Reconciliation.candidates` — the variants of an output, nearest first
* `Reconciliation.firstDonor` — the first of them that is not opaque
* `Reconciliation.mergeInPlace` — an output with the alpha of another one
* `reconcile` — all outputs without a mask, one after the other

## Design Notes

Whether an output is opaque is asked once and remembered, and an output that was just mended counts
as not opaque.  An output that cannot be looked at counts as opaque.
-/

namespace CharacterArt

/-- What became of the outputs without a mask. -/
structure ReconcileReport where
  /-- Outputs that were mended, each with the output whose alpha it took. -/
  resolved : List (String × String) := []
  unresolved : List String := []
  deriving DecidableEq, Repr

namespace Reconciliation

/-- The directory of a path below the directory of outputs. -/
def directoryOf (relative : String) : String :=
  match relative.toList.reverse.dropWhile (· != '/') with
  | _ :: back => String.ofList back.reverse
  | [] => ""

/-- Whether a candidate is tried before another one, or is it: those in a given directory come
first, then the path decides. -/
def candidateLe (directory : String) (a b : OutputFile) : Bool :=
  let near (o : OutputFile) := directoryOf o.relative == directory
  if near a == near b then decide (a.relative ≤ b.relative) else near a

/-- The variants of an output, in the order in which they are tried. -/
def candidates (outputs : List OutputFile) (target : OutputFile) : List OutputFile :=
  (outputs.filter fun o => o.relative != target.relative && o.key == target.key).mergeSort
    (candidateLe (directoryOf target.relative))

/-- What is known while outputs are mended. -/
structure State (σ : Type) where
  world : World σ
  /-- The answers so far to whether an output is opaque. -/
  opacity : Std.TreeMap String Bool := ∅

/-- A part of the work, which stops only if the tool breaks off. -/
abbrev Mending (σ α : Type) := ExceptT Stop (StateM (State σ)) α

/-- Whether an output counts as opaque. -/
def isOpaque {σ : Type} (tools : Toolchain σ) (o : OutputFile) : Mending σ Bool := do
  match (← get).opacity[o.relative]? with
  | some answer => return answer
  | none =>
    let (result, w) := tools.probe o.path (← get).world
    modify fun s => { s with world := w }
    let answer ← match result with
      | .ok answer => pure answer
      | .error (.failed _) => pure true
      | .error stop => throw stop
    modify fun s => { s with opacity := s.opacity.insert o.relative answer }
    return answer

/-- The first candidate that is not opaque. -/
def firstDonor {σ : Type} (tools : Toolchain σ) : List OutputFile → Mending σ (Option OutputFile)
  | [] => return none
  | o :: rest => do
    if ← isOpaque tools o then firstDonor tools rest else return some o

/-- Give an output the alpha of another one. -/
def mergeInPlace {σ : Type} (tools : Toolchain σ) (scratch target donor : String) : Work σ Unit :=
  Work.withScratch scratch do
    let (width, height) ← Work.look fun d => Files.readPictureSize d target
    let mask ← Work.look fun d => Files.readPictureSize d donor
    let fitted ← MergeTask.fitMask tools width height (Path.join scratch "mask.png") (donor, mask)
    let merged := Path.join scratch "merged.png"
    Work.call (tools.copyAlpha target fitted merged)
    Work.change fun d => Files.copy d merged target

/-- The scratch directory of a merge. -/
def scratch : String := "/tmp/reconcile"

/-- Merge a donor into an output: whether that worked. -/
def mend {σ : Type} (tools : Toolchain σ) (target donor : OutputFile) : Mending σ Bool := do
  let (result, w) := (mergeInPlace tools scratch target.path donor.path).run.run (← get).world
  modify fun s => { s with world := w }
  match result with
  | .ok () =>
    modify fun s => { s with opacity := s.opacity.insert target.relative false }
    return true
  | .error (.failed _) => return false
  | .error stop => throw stop

/-- Mend the output of a path: the output whose alpha it took, if that worked. -/
def mendTarget {σ : Type} (tools : Toolchain σ) (outputs : List OutputFile) (path : String) :
    Mending σ (Option String) := do
  match outputs.find? (·.relative == path) with
  | none => return none
  | some target =>
    match ← firstDonor tools (candidates outputs target) with
    | none => return none
    | some donor =>
      if ← mend tools target donor then return some donor.relative else return none

/-- Mend the outputs of paths, one after the other. -/
def mendAll {σ : Type} (tools : Toolchain σ) (outputs : List OutputFile) :
    List String → Mending σ (List (String × Option String))
  | [] => return []
  | path :: rest => do
    let donor ← mendTarget tools outputs path
    return (path, donor) :: (← mendAll tools outputs rest)

/-- The outputs that diagnostics say have no mask. -/
def targets (ds : Diagnostics) : List String :=
  (Diagnostics.ofKind ds .alphaNotFound).map (·.subject)

/-- The report of what became of each output. -/
def reportOf (results : List (String × Option String)) : ReconcileReport where
  resolved := results.filterMap fun (path, donor) => donor.map fun donor => (path, donor)
  unresolved := results.filterMap fun (path, donor) => if donor.isNone then some path else none

end Reconciliation

open Reconciliation in
/-- Try to mend every output that diagnostics say has no mask. -/
def reconcile {σ : Type} (tools : Toolchain σ) (root : String) (missing : Diagnostics)
    (w : World σ) : Except Stop ReconcileReport × World σ :=
  let (results, s) := (mendAll tools (outputsIn w.disk root) (targets missing)).run.run ⟨w, ∅⟩
  (results.map reportOf, s.world)

end CharacterArt
