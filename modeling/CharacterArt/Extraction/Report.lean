import CharacterArt.Index.Sync
import CharacterArt.Json.Printer
import CharacterArt.Merge.Pool
import CharacterArt.Reconciliation

/-!
# Reports of extractions

## Main Definitions

* `ExtractionReport` — what an extraction produced
* `ExtractionReport.imagesOf` — the result map of outcomes
* `ExtractionReport.failuresOf` — the tasks that failed, as diagnostics
* `ExtractionReport.resultText` — the result map as text
-/

namespace CharacterArt

/-- What an extraction produced. -/
structure ExtractionReport where
  /-- The outputs by result key. -/
  images : Std.TreeMap String String := ∅
  sync : Index.SyncStats := {}
  bundlesDecoded : Nat := 0
  written : Nat := 0
  cached : Nat := 0
  failed : Nat := 0
  /-- The greatest number of tasks that ran at once. -/
  peak : Nat := 0
  reconciled : ReconcileReport := {}
  diagnostics : Diagnostics := []

namespace ExtractionReport

/-- The outputs that are there, by result key. -/
def imagesOf (outcomes : List TaskOutcome) : Std.TreeMap String String :=
  (outcomes.filter fun o => o.status.isSuccess).foldl
    (fun images o => o.keys.foldl (fun images key => images.insert key o.output) images) ∅

/-- A task that failed or did not end, as a diagnostic. -/
def failureOf? (o : TaskOutcome) : Option Diagnostic :=
  match o.status with
  | .written | .cached => none
  | .failed reason => some ⟨.taskFailed, o.output, reason⟩
  | .timedOut => some ⟨.taskFailed, o.output, "timed out waiting for merge"⟩

/-- The tasks that failed or did not end, as diagnostics. -/
def failuresOf (outcomes : List TaskOutcome) : Diagnostics :=
  outcomes.filterMap failureOf?

/-- The result map as text. -/
def resultText (r : ExtractionReport) : String :=
  Json.printMap r.images.toList

end ExtractionReport

end CharacterArt
