import CharacterArt.Job
import CharacterArt.Toolchain

/-!
# Merge tasks

A task produces one output: the colors of an asset, with the alpha of a mask if it has one.

## Main Definitions

* `MaskInput`, `MergeTask` — where a mask comes from, and an output to produce
* `MergeOptions` — what all tasks of a run share
* `TaskStatus`, `TaskOutcome` — how a task ended
* `MergeTask.job` — the steps of a task

## Design Notes

All intermediate files lie in a scratch directory of the task, which is taken away at the end,
however the task ends.  The output appears by one copy at the very end, so a task that fails leaves
no trace but directories.
-/

namespace CharacterArt

/-- Where a mask comes from. -/
inductive MaskInput where
  | asset (mask : Asset)
  /-- A picture on the disk, such as an earlier output. -/
  | file (path : String)
  deriving DecidableEq, Repr

/-- An output to produce. -/
structure MergeTask where
  /-- The directory of the output, below the directory of all outputs. -/
  directory : String
  /-- The name of the output without its extension. -/
  name : String
  color : Asset
  /-- Without a mask the color is written as it is. -/
  mask : Option MaskInput := none
  /-- The result keys that the output serves. -/
  keys : List String := []
  deriving DecidableEq, Repr

/-- What all tasks of a run share. -/
structure MergeOptions where
  /-- The directory of all outputs. -/
  root : String
  /-- Whether an output that exists is produced again. -/
  force : Bool := false
  quantize : Bool := false
  deriving DecidableEq, Repr

/-- How a task ended. -/
inductive TaskStatus where
  | written
  /-- The output existed, and nothing was done. -/
  | cached
  | failed (reason : String)
  /-- It had not ended when the pool was given up. -/
  | timedOut
  deriving DecidableEq, Repr

/-- Whether the output is there. -/
def TaskStatus.isSuccess : TaskStatus → Bool
  | written | cached => true
  | failed _ | timedOut => false

/-- How the task of an output ended. -/
structure TaskOutcome where
  /-- The path of the output below the directory of all outputs. -/
  output : String
  keys : List String
  status : TaskStatus
  deriving DecidableEq, Repr

/-! ### Steps on files -/

/-- A job that may stop early. -/
abbrev Work (σ α : Type) := ExceptT Stop (Job (World σ)) α

namespace Work

variable {σ α : Type}

/-- One call of a tool. -/
def call (c : Call σ α) : Work σ α :=
  ExceptT.mk (Job.act c)

/-- One look at the files. -/
def look (f : Files → Except Error α) : Work σ α :=
  call fun w =>
    match f w.disk with
    | .ok a => (.ok a, w)
    | .error e => (.error (.failed e), w)

/-- One change of the files. -/
def change (f : Files → Except Error Files) : Work σ Unit :=
  call fun w =>
    match f w.disk with
    | .ok d => (.ok (), { w with disk := d })
    | .error e => (.error (.failed e), w)

/-- Work in a scratch directory that is taken away afterwards. -/
def withScratch (scratch : String) (work : Work σ α) : Work σ α := do
  change fun d => Files.makeDirs d scratch
  ExceptT.mk do
    let result ← work.run
    Job.act fun w => ((), { w with disk := Files.removeTree w.disk scratch })
    return result

end Work

namespace MergeTask

/-- The path of the output below the directory of all outputs. -/
def outputPath (t : MergeTask) : String :=
  t.directory ++ "/" ++ t.name ++ ".png"

/-- The path of the output. -/
def target (o : MergeOptions) (t : MergeTask) : String :=
  Path.join (Path.join o.root t.directory) (t.name ++ ".png")

/-- Put the mask where the tool can read it: its path, and its size. -/
def stageMask {σ : Type} (scratch : String) : MaskInput → Work σ (String × Nat × Nat)
  | .asset mask => do
    let path := Path.join scratch "mask.png"
    Work.change fun d => Files.writePicture d path mask.picture
    return (path, mask.picture.width, mask.picture.height)
  | .file path => do
    return (path, ← Work.look fun d => Files.readPictureSize d path)

/-- A mask in the size of the picture that it is for. -/
def fitMask {σ : Type} (tools : Toolchain σ) (width height : Nat) (fitted : String)
    (mask : String × Nat × Nat) : Work σ String := do
  let (path, w, h) := mask
  if (w, h) = (width, height) then return path
  else
    Work.call (tools.resize path width height fitted)
    return fitted

/-- Produce the output in the scratch directory. -/
def stage {σ : Type} (tools : Toolchain σ) (scratch staged : String) (t : MergeTask) :
    Work σ Unit :=
  match t.mask with
  | none => Work.change fun d => Files.writePicture d staged t.color.picture
  | some input => do
    let color := Path.join scratch "color.png"
    Work.change fun d => Files.writePicture d color t.color.picture
    let mask ← stageMask scratch input
    let fitted ← fitMask tools t.color.picture.width t.color.picture.height
      (Path.join scratch "mask_resized.png") mask
    Work.call (tools.copyAlpha color fitted staged)

/-- Produce the output and copy it to its place. -/
def publish {σ : Type} (tools : Toolchain σ) (o : MergeOptions) (scratch : String)
    (t : MergeTask) : Work σ TaskStatus := do
  let staged := Path.join scratch "out.png"
  stage tools scratch staged t
  if o.quantize && tools.canQuantize then Work.call (tools.quantize staged)
  Work.change fun d => Files.copy d staged (t.target o)
  return .written

/-- The steps of a task. -/
def job {σ : Type} (tools : Toolchain σ) (o : MergeOptions) (scratch : String)
    (t : MergeTask) : Work σ TaskStatus := do
  let present ← Work.look fun d => .ok (d.exists? (t.target o))
  if present && !o.force then return .cached
  else
    Work.change fun d => Files.makeDirs d ((Path.parent (t.target o)).getD "")
    Work.withScratch scratch (t.publish tools o scratch)

end MergeTask

/-- How work on a task ended, if it did. -/
def TaskStatus.ofWork? : Except Stop TaskStatus → Option TaskStatus
  | .ok status => some status
  | .error (.failed e) => some (.failed e.message)
  | .error (.broke message) => some (.failed (Error.taskBroke message).message)
  | .error .stalled => none

end CharacterArt
