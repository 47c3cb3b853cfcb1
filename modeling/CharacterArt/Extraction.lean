import CharacterArt.Config
import CharacterArt.Extraction.Plan
import CharacterArt.Extraction.Report
import CharacterArt.Index.Handle
import CharacterArt.Text.Visible

/-!
# Extractions

An extraction brings the index up to date, finds the required images and their masks, merges them
into outputs, and mends outputs that are left without a mask.

## Main Definitions

* `Extraction` — where the bundles and the outputs are, the settings, and the machine
* `Extraction.prepare` — everything before the first output
* `Extraction.mainPass`, `Extraction.overridePass` — the two times that outputs are merged
* `Extraction.afterMainPass`, `Extraction.carryOut` — what follows the first pass, and both
* `Extraction.run` — a whole extraction

## Design Notes

Masks that are outputs are merged in a second pass, and only into outputs that the first pass
wrote: what it found there already has its mask.  Only a fault of the index, of a bundle or of the
override table ends an extraction early; everything else becomes a diagnostic.  A pool can only be
waited for if the clock reaches the end of that time; otherwise the run breaks off as soon as the
tasks of that pass have begun.
-/

namespace CharacterArt

/-- Where the bundles and the outputs are, the settings, and the machine. -/
structure Extraction where
  bundleDir : String
  outputDir : String
  config : Config := {}
  /-- How many workers the machine has. -/
  cores : Nat := 1
  /-- The second that the clock shows when the first pass is waited for. -/
  now : Nat := 1
  /-- The second that it shows when the second pass is waited for. -/
  later : Nat := 1
  deriving DecidableEq, Repr

/-- What is known before the first output is merged. -/
structure Prepared where
  sync : Index.SyncStats
  resolution : Resolution
  planning : Planning

namespace Extraction

/-! ### Before the first output -/

/-- Bring the index up to date. -/
def syncIndex (x : Extraction) (d : Files) :
    Except Error (Index.Store × Corpus × Index.SyncStats) × Files :=
  let path := x.config.indexPathFor x.outputDir
  match Corpus.scan d x.bundleDir with
  | .error e => (.error e, d)
  | .ok c =>
    match Index.Handle.openPath d path with
    | (.error e, d) => (.error e, d)
    | (.ok h, d) =>
      match h.sync d c with
      | (.error e, _, d) => (.error e, d)
      | (.ok stats, h, d) => ((h.store d).map fun store => (store, c, stats), d)

/-- The override table that the settings name. -/
def overrideTable (x : Extraction) (d : Files) : Except Error Alpha.OverrideTable :=
  match x.config.overrides with
  | none => .ok Alpha.OverrideTable.standard
  | some path => do Alpha.OverrideTable.parse (← Files.readText d path)

/-- Find the required images and plan their outputs. -/
def planOutputs (x : Extraction) (d : Files) (store : Index.Store) (c : Corpus)
    (rs : Requirements) : Except Error (Resolution × Planning) := do
  let resolution ← resolve store c d x.config.precedence rs
  let overrides ← x.overrideTable d
  let catalog := Alpha.MaskCatalog.ofRecords (← store.maskTextures)
  let sources : Sources := {
    index := store
    corpus := c
    disk := d
    images := resolution.images
    matcher := ⟨resolution.group, catalog, overrides⟩
    nameKeys := x.config.nameKeys }
  return (resolution, Planning.ofRequirements sources rs)

/-- Everything before the first output. -/
def prepare (x : Extraction) (rs : Requirements) (d : Files) : Except Error Prepared × Files :=
  match x.syncIndex d with
  | (.error e, d) => (.error e, d)
  | (.ok (store, c, stats), d) =>
    ((x.planOutputs d store c rs).map fun (resolution, planning) => ⟨stats, resolution, planning⟩, d)

/-! ### Merging -/

/-- What the tasks of the first pass share. -/
def mergeOptions (x : Extraction) : MergeOptions where
  root := x.outputDir
  force := x.config.force
  quantize := x.config.quantize

/-- Merge every planned output. -/
def mainPass {σ : Type} (x : Extraction) (tools : Toolchain σ) (plans : List Plan) (w : World σ) :
    DrainReport × World σ :=
  MergePool.runInOrder tools x.mergeOptions (plans.map Plan.task) w

/-- The outputs that a pass wrote. -/
def writtenBy (r : DrainReport) : List String :=
  (r.outcomes.filter fun o => o.status == .written).map TaskOutcome.output

/-- Whether an output is opaque everywhere.  One that cannot be read counts as such. -/
def isOpaqueOutput (x : Extraction) (d : Files) (output : String) : Bool :=
  match Files.readPicture d (Path.join x.outputDir output) with
  | .ok p => p.isOpaque
  | .error _ => true

/-- The planned outputs without a mask that lack alpha: those that the pass wrote, and those that
it found opaque. -/
def lackingAlpha (x : Extraction) (d : Files) (plans : List Plan) (r : DrainReport) :
    List String :=
  let written := writtenBy r
  let present := (ExtractionReport.imagesOf r.outcomes).toList.map Prod.snd
  ((plans.filter Plan.needsAlpha).map fun p => p.task.outputPath).filter fun output =>
    written.contains output || (present.contains output && x.isOpaqueOutput d output)

/-! ### Masks that are outputs -/

/-- An output whose mask is another output. -/
structure Deferred where
  task : MergeTask
  /-- The output that serves as mask. -/
  mask : String
  deriving DecidableEq, Repr

/-- The outputs of some plans that were written and wait for another output. -/
def deferredOf (plans : List Plan) (written : List String) : List Deferred :=
  plans.filterMap fun p =>
    if written.contains p.task.outputPath then p.deferred.map fun mask => ⟨p.task, mask⟩ else none

/-- Whether the output that serves as mask is there. -/
def hasMask (x : Extraction) (d : Files) (o : Deferred) : Bool :=
  d.isFile (Path.join x.outputDir o.mask)

/-- The task of merging an output with another one. -/
def deferredTask (x : Extraction) (o : Deferred) : MergeTask :=
  { o.task with mask := some (.file (Path.join x.outputDir o.mask)) }

/-- The opaque outputs whose masks were not written, as diagnostics. -/
def missingMasks (x : Extraction) (d : Files) (os : List Deferred) : Diagnostics :=
  (os.filter fun o => !x.hasMask d o && !o.task.color.isTransparent).map fun o =>
    ⟨.alphaNotFound, o.task.outputPath, "override target " ++ o.mask ++ " was not written"⟩

/-- Merge outputs with the outputs that serve as their masks. -/
def overridePass {σ : Type} (x : Extraction) (tools : Toolchain σ) (os : List Deferred)
    (w : World σ) : DrainReport × World σ :=
  MergePool.runInOrder tools { x.mergeOptions with force := true }
    ((os.filter (x.hasMask w.disk)).map x.deferredTask) w

/-- A status as it stands in a diagnostic. -/
def showStatus : TaskStatus → String
  | .written => "Written"
  | .cached => "Cached"
  | .failed reason => "Failed(" ++ Text.showQuoted reason ++ ")"
  | .timedOut => "TimedOut"

/-- The merges of the second pass that failed or did not end, as diagnostics. -/
def overrideFailures (r : DrainReport) : Diagnostics :=
  (r.outcomes.filter fun o => !o.status.isSuccess).map fun o =>
    ⟨.taskFailed, o.output, "override merge: " ++ showStatus o.status⟩

/-! ### The whole -/

/-- How a run breaks off that cannot wait for its tasks. -/
def noDeadline : Stop :=
  .broke "overflow when adding duration to instant"

/-- Whether the second pass can be waited for, if there is one. -/
def canOverride (x : Extraction) (os : List Deferred) : Bool :=
  os.isEmpty || (x.config.deadline? x.cores x.later).isSome

/-- Diagnostics without the missing masks of outputs that were mended. -/
def withoutMended (r : ReconcileReport) (ds : Diagnostics) : Diagnostics :=
  (Diagnostics.takeWhere (fun d =>
    d.kind == .alphaNotFound && (r.resolved.map Prod.fst).contains d.subject) ds).2

/-- What follows the first pass: merge the outputs whose masks are outputs, and mend what lacks a
mask. -/
def afterMainPass {σ : Type} (x : Extraction) (tools : Toolchain σ) (p : Prepared)
    (main : DrainReport) (w : World σ) :
    Except Stop (ExtractionReport × List Progress) × World σ :=
  let plans := p.planning.toList
  let lacking := (x.lackingAlpha w.disk plans main).map fun output =>
    ⟨.alphaNotFound, output, "no alpha mask candidate"⟩
  let deferred := deferredOf plans (writtenBy main)
  let unmasked := x.missingMasks w.disk deferred
  let (second, w) := x.overridePass tools deferred w
  if !x.canOverride deferred then (.error noDeadline, w) else
  let diagnostics := p.resolution.diagnostics ++ p.planning.diagnostics ++
    ExtractionReport.failuresOf main.outcomes ++ lacking ++ unmasked ++ overrideFailures second
  match reconcile tools x.outputDir diagnostics w with
  | (.error stop, w) => (.error stop, w)
  | (.ok reconciled, w) =>
    let images := ExtractionReport.imagesOf main.outcomes
    let report : ExtractionReport := {
      images := images
      sync := p.sync
      bundlesDecoded := p.resolution.bundlesDecoded
      written := main.written
      cached := main.cached
      failed := main.failed + second.failed
      peak := max main.peak second.peak
      reconciled := reconciled
      diagnostics := withoutMended reconciled diagnostics ++
        Reconciliation.unreferenced w.disk x.outputDir (images.toList.map Prod.snd) }
    let overriding : List Progress :=
      if deferred.isEmpty then [] else ⟨.overriding, 0, deferred.length, none⟩ :: second.progress
    (.ok (report, main.progress ++ overriding ++
      [⟨.reconciling, 0, 1, none⟩, ⟨.complete, 1, 1, none⟩]), w)

/-- Merge what was planned, and mend what lacks a mask. -/
def carryOut {σ : Type} (x : Extraction) (tools : Toolchain σ) (p : Prepared) (w : World σ) :
    Except Stop (ExtractionReport × List Progress) × World σ :=
  let (main, w) := x.mainPass tools p.planning.toList w
  match x.config.deadline? x.cores x.now with
  | some _ => x.afterMainPass tools p main w
  | none => (.error noDeadline, w)

/-- A whole extraction: its report, and how far it was at each event. -/
def run {σ : Type} (x : Extraction) (tools : Toolchain σ) (rs : Requirements) (w : World σ) :
    Except Stop (ExtractionReport × List Progress) × World σ :=
  match x.prepare rs w.disk with
  | (.error e, d) => (.error (.failed e), { w with disk := d })
  | (.ok p, d) =>
    let (result, w) := x.carryOut tools p { w with disk := d }
    (result.map fun (report, progress) =>
      (report, ⟨.syncing, 0, 1, none⟩ :: p.resolution.progress ++ Planning.progressOf rs ++ progress),
      w)

end Extraction

end CharacterArt
