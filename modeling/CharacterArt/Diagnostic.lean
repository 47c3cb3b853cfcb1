/-!
# Diagnostics

What is reported of a run that could finish.

## Main Definitions

* `DiagnosticKind`, `Diagnostic` — a report and its category
* `Diagnostic.message` — a report in words
* `Diagnostics` — the reports of a run, in the order in which they were made
* `Diagnostics.takeWhere`, `Diagnostics.summary` — reports taken out, and counted
-/

namespace CharacterArt

/-- The category of a report. -/
inductive DiagnosticKind where
  | invalidPathId
  | resolutionGap
  | alphaNotFound
  | taskFailed
  | unreferencedOutput
  deriving DecidableEq, Repr

namespace DiagnosticKind

/-- All categories, in the order of summaries. -/
def all : List DiagnosticKind :=
  [invalidPathId, resolutionGap, alphaNotFound, taskFailed, unreferencedOutput]

/-- A category in words. -/
def label : DiagnosticKind → String
  | invalidPathId => "invalid path id"
  | resolutionGap => "resolution gap"
  | alphaNotFound => "alpha not found"
  | taskFailed => "task failed"
  | unreferencedOutput => "unreferenced output"

end DiagnosticKind

/-- A report. -/
structure Diagnostic where
  kind : DiagnosticKind
  /-- What the report is about: an object, a result key or an output path. -/
  subject : String
  reason : String
  deriving DecidableEq, Repr

/-- A report in words. -/
def Diagnostic.message (d : Diagnostic) : String :=
  "[" ++ d.kind.label ++ "] " ++ d.subject ++ ": " ++ d.reason

/-- The reports of a run. -/
abbrev Diagnostics := List Diagnostic

namespace Diagnostics

/-- The reports of one category. -/
def ofKind (ds : Diagnostics) (kind : DiagnosticKind) : Diagnostics :=
  ds.filter (·.kind == kind)

/-- The reports that satisfy `p`, and those that are left. -/
def takeWhere (p : Diagnostic → Bool) (ds : Diagnostics) : Diagnostics × Diagnostics :=
  ds.partition p

/-- How many reports there are of each category that occurs. -/
def summary (ds : Diagnostics) : List (DiagnosticKind × Nat) :=
  (DiagnosticKind.all.map fun k => (k, (ds.ofKind k).length)).filter fun (_, n) => n != 0

end Diagnostics

end CharacterArt
