import CharacterArt.Alpha.Matcher
import CharacterArt.Extraction.MaskCache
import CharacterArt.Merge.Task

/-!
# Planning outputs

Every requirement whose color was found has an output, and requirements with one output share its
task.

## Main Definitions

* `Plan`, `Planning` — an output to produce, and the plans so far
* `Sources` — what plans are made from
* `Sources.maskFor` — the mask of an image
* `Planning.add`, `Planning.ofRequirements` — the plans of requirements
-/

namespace CharacterArt

/-- An output to produce. -/
structure Plan where
  task : MergeTask
  /-- Whether the color is opaque and no mask was found for it. -/
  needsAlpha : Bool := false
  /-- The output that serves as mask, once it is written. -/
  deferred : Option String := none
  deriving DecidableEq, Repr

/-- What plans are made from. -/
structure Sources where
  index : Index.Store
  corpus : Corpus
  disk : Files
  images : Std.TreeMap PathId Asset
  matcher : Alpha.Matcher
  /-- Whether results also have keys made of names. -/
  nameKeys : Bool

/-- What was decided about the mask of an image. -/
inductive MaskChoice where
  | mask (a : Asset)
  /-- There is none. -/
  | missing
  /-- It is the output of that path. -/
  | deferred (path : String)
  /-- There is one, but it cannot be read. -/
  | failed (reason : String)
  deriving DecidableEq, Repr

namespace Sources

/-- The mask of an image, decoded if it was not. -/
def maskFor (s : Sources) (cache : MaskCache) (q : Alpha.Query) : MaskChoice × MaskCache :=
  match (s.matcher.find? q).map Alpha.MaskMatch.source with
  | none => (.missing, cache)
  | some (.decoded a) => (.mask a, cache)
  | some (.indexed r) =>
    match MaskCache.decode s.corpus s.disk cache r with
    | (.ok a, cache) => (.mask a, cache)
    | (.error e, cache) => (.failed e.message, cache)
  | some (.named name) =>
    match MaskCache.decodeNamed s.index s.corpus s.disk cache name with
    | (.ok (some a), cache) => (.mask a, cache)
    | (.ok none, cache) => (.missing, cache)
    | (.error e, cache) => (.failed ("override asset " ++ name ++ ": " ++ e.message), cache)
  | some (.output path) => (.deferred path, cache)

/-- The result keys of a requirement with a given color. -/
def keysOf (s : Sources) (r : Requirement) (color : Asset) : List String :=
  if s.nameKeys then [r.key, r.owner ++ "/" ++ color.name] else [r.key]

/-- The task of a requirement with a given color, without a mask. -/
def taskOf (s : Sources) (r : Requirement) (color : Asset) : MergeTask where
  directory := r.outputDir
  name := color.name
  color := color
  keys := s.keysOf r color

/-- What the rules for masks look at for a requirement with a given color. -/
def queryOf (s : Sources) (r : Requirement) (color : Asset) : Alpha.Query where
  color := color
  outputPath := (s.taskOf r color).outputPath
  explicit := if r.hasAlpha then s.images[r.alphaId]? else none

end Sources

namespace Plan

/-- The plan of a task, or why its mask cannot be read. -/
def ofChoice (t : MergeTask) : MaskChoice → Except String Plan
  | .mask a => .ok { task := { t with mask := some (.asset a) } }
  | .missing => .ok { task := t, needsAlpha := !t.color.isTransparent }
  | .deferred path => .ok { task := t, deferred := some path }
  | .failed reason => .error reason

/-- Add keys that an output does not serve yet. -/
def serve (p : Plan) (keys : List String) : Plan :=
  { p with task := { p.task with
      keys := keys.foldl (fun served key =>
        if served.contains key then served else served ++ [key]) p.task.keys } }

end Plan

/-- The plans so far, by output path. -/
structure Planning where
  plans : Std.TreeMap String Plan := ∅
  masks : MaskCache := []
  diagnostics : Diagnostics := []

namespace Planning

/-- Plan a new output. -/
def addOutput (s : Sources) (p : Planning) (r : Requirement) (color : Asset) : Planning :=
  let t := s.taskOf r color
  let (choice, masks) := s.maskFor p.masks (s.queryOf r color)
  match Plan.ofChoice t choice with
  | .ok plan => { p with plans := p.plans.insert t.outputPath plan, masks := masks }
  | .error reason =>
    { p with
      masks := masks
      diagnostics := p.diagnostics ++ [⟨.taskFailed, t.outputPath, reason⟩] }

/-- Plan the output of a requirement, if its color was found. -/
def add (s : Sources) (p : Planning) (r : Requirement) : Planning :=
  match s.images[r.colorId]? with
  | none => p
  | some color =>
    let path := (s.taskOf r color).outputPath
    match p.plans[path]? with
    | some plan => { p with plans := p.plans.insert path (plan.serve (s.keysOf r color)) }
    | none => p.addOutput s r color

/-- Plan the outputs of requirements. -/
def ofRequirements (s : Sources) (rs : Requirements) : Planning :=
  rs.foldl (add s) {}

/-- The plans in the order of their output paths. -/
def toList (p : Planning) : List Plan :=
  p.plans.toList.map Prod.snd

/-- How far the planning was at each requirement. -/
def progressOf (rs : Requirements) : List Progress :=
  rs.mapIdx fun i r => ⟨.matching, i + 1, rs.length, some r.key⟩

end Planning

end CharacterArt
